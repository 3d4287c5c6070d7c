/-
# Byte positions and lines of a text

A library of its own: a text as its characters, with the byte offsets and the
line numbers that a program on UTF-8 text computes. An offset is a character
boundary when a prefix of the text has that many bytes; then the prefix is the
only one. `splitInclusive` keeps the newline at the end of a line.
-/

import Memzoi.Lib.Segments
import Mathlib

namespace SourceText

open Segments

/-! ### Bytes -/

/-- The number of bytes of the characters in UTF-8. -/
def byteLength (cs : List Char) : Nat := (cs.map Char.utf8Size).sum

@[simp] theorem byteLength_nil : byteLength [] = 0 := rfl

@[simp] theorem byteLength_cons (c : Char) (cs : List Char) :
    byteLength (c :: cs) = c.utf8Size + byteLength cs := by
  rw [byteLength, List.map_cons, List.sum_cons, byteLength]

@[simp] theorem byteLength_append (cs ds : List Char) :
    byteLength (cs ++ ds) = byteLength cs + byteLength ds := by
  rw [byteLength, List.map_append, List.sum_append, byteLength, byteLength]

theorem byteLength_pos {cs : List Char} (h : cs ≠ []) : 0 < byteLength cs := by
  cases cs with
  | nil => exact absurd rfl h
  | cons c cs =>
      have hc := c.utf8Size_pos
      rw [byteLength_cons]
      omega

theorem byteLength_eq_zero {cs : List Char} : byteLength cs = 0 ↔ cs = [] := by
  constructor
  · intro h
    by_contra hne
    have hpos := byteLength_pos hne
    omega
  · rintro rfl
    rfl

/-- Of two prefixes of a text the one with fewer bytes is a prefix of the other. -/
theorem prefix_of_byteLength_le {as bs cs ds : List Char} (h : as ++ bs = cs ++ ds)
    (hle : byteLength as ≤ byteLength cs) : ∃ mid, cs = as ++ mid ∧ bs = mid ++ ds := by
  rcases List.append_eq_append_iff.1 h with ⟨mid, hcs, hbs⟩ | ⟨mid, has, hds⟩
  · exact ⟨mid, hcs, hbs⟩
  · have hmid : mid = [] := by
      rw [has, byteLength_append] at hle
      exact byteLength_eq_zero.1 (by omega)
    subst hmid
    exact ⟨[], by simpa using has.symm, by simpa using hds.symm⟩

/-- A byte offset belongs to one prefix. -/
theorem append_inj_byteLength {as bs cs ds : List Char} (h : as ++ bs = cs ++ ds)
    (hsize : byteLength as = byteLength cs) : as = cs ∧ bs = ds := by
  obtain ⟨mid, hcs, hbs⟩ := prefix_of_byteLength_le h (Nat.le_of_eq hsize)
  have hmid : mid = [] := by
    rw [hcs, byteLength_append] at hsize
    exact byteLength_eq_zero.1 (by omega)
  subst hmid
  exact ⟨by simpa using hcs.symm, by simpa using hbs⟩

/-- A character that starts in a piece of a text is a character of the piece. -/
theorem exists_of_start_in_piece {as bs cs pre post : List Char} {c : Char}
    (h : as ++ (bs ++ cs) = pre ++ c :: post) (hle : byteLength as ≤ byteLength pre)
    (hlt : byteLength pre < byteLength as + byteLength bs) :
    ∃ front back, bs = front ++ c :: back ∧ pre = as ++ front ∧ post = back ++ cs := by
  obtain ⟨front, rfl, hrest⟩ := prefix_of_byteLength_le h hle
  rw [byteLength_append] at hlt
  obtain ⟨back, hback, hpost⟩ := prefix_of_byteLength_le hrest.symm (by omega)
  cases back with
  | nil =>
      rw [List.append_nil] at hback
      subst hback
      omega
  | cons d back =>
      obtain ⟨rfl, rfl⟩ := List.cons.inj hpost
      exact ⟨front, back, hback, rfl, rfl⟩

/-! ### Slices -/

/-- The text before and after a byte offset, if it is a character boundary. -/
def splitAtByte : Nat → List Char → Option (List Char × List Char)
  | 0, cs => some ([], cs)
  | _ + 1, [] => none
  | n + 1, c :: cs =>
    if c.utf8Size ≤ n + 1 then
      (splitAtByte (n + 1 - c.utf8Size) cs).map fun split => (c :: split.1, split.2)
    else none

theorem splitAtByte_eq_some {n : Nat} {cs as bs : List Char} :
    splitAtByte n cs = some (as, bs) ↔ cs = as ++ bs ∧ byteLength as = n := by
  induction cs generalizing n as with
  | nil =>
      cases n with
      | zero =>
          rw [splitAtByte]
          constructor
          · intro h
            obtain ⟨rfl, rfl⟩ := Prod.mk.inj (Option.some.inj h)
            exact ⟨rfl, rfl⟩
          · rintro ⟨happend, -⟩
            obtain ⟨rfl, rfl⟩ := List.append_eq_nil_iff.1 happend.symm
            rfl
      | succ n =>
          rw [splitAtByte]
          constructor
          · intro h
            cases h
          · rintro ⟨happend, hsize⟩
            obtain ⟨rfl, -⟩ := List.append_eq_nil_iff.1 happend.symm
            cases hsize
  | cons c cs ih =>
      cases n with
      | zero =>
          rw [splitAtByte]
          constructor
          · intro h
            obtain ⟨rfl, rfl⟩ := Prod.mk.inj (Option.some.inj h)
            exact ⟨rfl, rfl⟩
          · rintro ⟨happend, hsize⟩
            obtain rfl := byteLength_eq_zero.1 hsize
            rw [happend]
            rfl
      | succ n =>
          rw [splitAtByte]
          constructor
          · intro h
            split at h
            · rename_i hle
              obtain ⟨⟨front, rest⟩, hsplit, hpair⟩ := Option.map_eq_some_iff.1 h
              obtain ⟨rfl, rfl⟩ := Prod.mk.inj hpair
              obtain ⟨hcs, hsize⟩ := ih.1 hsplit
              refine ⟨by rw [hcs]; rfl, ?_⟩
              rw [byteLength_cons, hsize]
              omega
            · cases h
          · rintro ⟨happend, hsize⟩
            cases as with
            | nil => cases hsize
            | cons a as =>
                obtain ⟨rfl, hcs⟩ := List.cons.inj happend
                rw [byteLength_cons] at hsize
                rw [if_pos (by omega), ih.2 ⟨hcs, by omega⟩]
                rfl

/-- `str::is_char_boundary`. -/
def isCharBoundary (cs : List Char) (n : Nat) : Bool := (splitAtByte n cs).isSome

theorem isCharBoundary_iff {cs : List Char} {n : Nat} :
    isCharBoundary cs n = true ↔ ∃ as bs, cs = as ++ bs ∧ byteLength as = n := by
  rw [isCharBoundary, Option.isSome_iff_exists]
  constructor
  · rintro ⟨⟨as, bs⟩, h⟩
    exact ⟨as, bs, splitAtByte_eq_some.1 h⟩
  · rintro ⟨as, bs, h⟩
    exact ⟨(as, bs), splitAtByte_eq_some.2 h⟩

/-- The text between two byte offsets, if both are character boundaries. -/
def slice (cs : List Char) (start stop : Nat) : Option (List Char) := do
  let (front, _) ← splitAtByte stop cs
  let (_, mid) ← splitAtByte start front
  return mid

theorem slice_eq_some {cs mid : List Char} {start stop : Nat} :
    slice cs start stop = some mid ↔
      ∃ pre post, cs = pre ++ mid ++ post ∧ byteLength pre = start ∧
        byteLength (pre ++ mid) = stop := by
  constructor
  · intro h
    obtain ⟨⟨front, post⟩, hfront, h⟩ := Option.bind_eq_some_iff.1 h
    obtain ⟨⟨pre, mid'⟩, hpre, h⟩ := Option.bind_eq_some_iff.1 h
    obtain rfl := Option.some.inj h
    obtain ⟨rfl, hstop⟩ := splitAtByte_eq_some.1 hfront
    obtain ⟨rfl, hstart⟩ := splitAtByte_eq_some.1 hpre
    exact ⟨pre, post, rfl, hstart, hstop⟩
  · rintro ⟨pre, post, rfl, hstart, hstop⟩
    rw [slice, splitAtByte_eq_some.2 ⟨rfl, hstop⟩]
    show (splitAtByte start (pre ++ mid)).bind (fun split => some split.2) = some mid
    rw [splitAtByte_eq_some.2 ⟨rfl, hstart⟩]
    rfl

theorem exists_slice {cs : List Char} {start stop : Nat} (hstart : isCharBoundary cs start = true)
    (hstop : isCharBoundary cs stop = true) (hle : start ≤ stop) :
    ∃ mid, slice cs start stop = some mid := by
  obtain ⟨pre, rest, hpre, rfl⟩ := isCharBoundary_iff.1 hstart
  obtain ⟨front, post, hfront, rfl⟩ := isCharBoundary_iff.1 hstop
  obtain ⟨mid, rfl, -⟩ := prefix_of_byteLength_le (hpre.symm.trans hfront) hle
  exact ⟨mid, slice_eq_some.2 ⟨pre, post, hfront, rfl, rfl⟩⟩

/-- A slice behind a prefix is a slice of the rest. -/
theorem slice_append_add (pre cs : List Char) (start stop : Nat) :
    slice (pre ++ cs) (byteLength pre + start) (byteLength pre + stop) = slice cs start stop := by
  ext mid
  rw [slice_eq_some, slice_eq_some]
  constructor
  · rintro ⟨front, post, hsplit, hstart, hstop⟩
    rw [List.append_assoc] at hsplit
    obtain ⟨inner, rfl, rfl⟩ := prefix_of_byteLength_le hsplit (by omega)
    simp only [byteLength_append] at hstart hstop
    exact ⟨inner, post, by simp, by omega, by rw [byteLength_append]; omega⟩
  · rintro ⟨front, post, rfl, rfl, rfl⟩
    exact ⟨pre ++ front, post, by simp, by rw [byteLength_append],
      by simp only [byteLength_append, Nat.add_assoc]⟩

/-- A slice of a prefix. -/
theorem slice_append_of_le {pre : List Char} (cs : List Char) {start stop : Nat}
    (hstop : stop ≤ byteLength pre) : slice (pre ++ cs) start stop = slice pre start stop := by
  ext mid
  rw [slice_eq_some, slice_eq_some]
  constructor
  · rintro ⟨front, post, hsplit, hstart, rfl⟩
    obtain ⟨rest, rfl, -⟩ := prefix_of_byteLength_le hsplit.symm hstop
    exact ⟨front, rest, rfl, hstart, rfl⟩
  · rintro ⟨front, post, rfl, hstart, hstop⟩
    exact ⟨front, post ++ cs, by simp, hstart, hstop⟩

/-! ### Line numbers -/

/-- The newlines among the first bytes of a text: a newline is one byte, and no other character has
that byte. -/
def newlinesBefore : Nat → List Char → Nat
  | 0, _ => 0
  | _ + 1, [] => 0
  | n + 1, c :: cs => (if c = '\n' then 1 else 0) + newlinesBefore (n + 1 - c.utf8Size) cs

theorem newlinesBefore_append (as bs : List Char) (n : Nat) :
    newlinesBefore (byteLength as + n) (as ++ bs) = as.count '\n' + newlinesBefore n bs := by
  induction as with
  | nil => simp
  | cons a as ih =>
      have ha := a.utf8Size_pos
      obtain ⟨m, hm⟩ : ∃ m, byteLength (a :: as) + n = m + 1 :=
        ⟨byteLength (a :: as) + n - 1, by rw [byteLength_cons]; omega⟩
      rw [hm, List.cons_append, newlinesBefore, ← hm, List.count_cons, byteLength_cons]
      have hrest : a.utf8Size + byteLength as + n - a.utf8Size = byteLength as + n := by omega
      rw [hrest, ih]
      by_cases hnl : a = '\n'
      · simp [hnl]
        omega
      · simp [hnl]

theorem newlinesBefore_byteLength (as bs : List Char) :
    newlinesBefore (byteLength as) (as ++ bs) = as.count '\n' := by
  have h := newlinesBefore_append as bs 0
  rw [Nat.add_zero] at h
  rw [h, newlinesBefore, Nat.add_zero]

/-- Bytes of a prefix that is not passed are counted in the prefix. -/
theorem newlinesBefore_prefix {as : List Char} (bs : List Char) {n : Nat} (h : n ≤ byteLength as) :
    newlinesBefore n (as ++ bs) = newlinesBefore n as := by
  induction as generalizing n with
  | nil =>
      obtain rfl : n = 0 := by
        rw [byteLength_nil] at h
        omega
      cases bs <;> rfl
  | cons a as ih =>
      cases n with
      | zero => rfl
      | succ n =>
          rw [byteLength_cons] at h
          rw [List.cons_append, newlinesBefore, newlinesBefore, ih (by omega)]

/-- The line of a byte: lines are counted from one. -/
def lineAt (cs : List Char) (n : Nat) : Nat := 1 + newlinesBefore n cs

/-! ### Lines -/

/-- `split_inclusive('\n')`. -/
abbrev splitInclusive (cs : List Char) : List (List Char) := segments '\n' cs

/-- The lines before another one have a newline each. -/
theorem count_flatten_before {cs line : List Char} {before after : List (List Char)}
    (h : splitInclusive cs = before ++ line :: after) :
    before.flatten.count '\n' = before.length := by
  have hone : ∀ l ∈ before, l.count '\n' = 1 := by
    intro l hl
    have hinner : '\n' ∉ l.dropLast := (segment_of_mem (h ▸ List.mem_append_left _ hl)).2
    rw [delimiter_of_before h l hl, List.count_append, List.count_eq_zero.2 hinner]
    rfl
  clear h
  induction before with
  | nil => rfl
  | cons l before ih =>
      rw [List.flatten_cons, List.count_append, hone l List.mem_cons_self,
        ih fun x hx => hone x (List.mem_cons_of_mem _ hx), List.length_cons]
      omega

/-- A line starts on the line of its number. -/
theorem lineAt_before {cs line : List Char} {before after : List (List Char)}
    (h : splitInclusive cs = before ++ line :: after) :
    lineAt cs (byteLength before.flatten) = before.length + 1 := by
  have hcs : (splitInclusive cs).flatten = cs := flatten_segments cs
  rw [h, List.flatten_append] at hcs
  rw [lineAt, ← hcs, newlinesBefore_byteLength, count_flatten_before h]
  omega

/-- The text before the end of a line, without the line end: `\n` or `\r\n`. -/
def logicalLine (line : List Char) : List Char :=
  let line := if line.getLast? = some '\n' then line.dropLast else line
  if line.getLast? = some '\r' then line.dropLast else line

theorem prefix_logicalLine (line : List Char) : logicalLine line <+: line := by
  rw [logicalLine]
  split <;> split
  · exact (List.dropLast_prefix _).trans (List.dropLast_prefix _)
  · exact List.dropLast_prefix _
  · exact List.dropLast_prefix _
  · exact List.prefix_rfl

end SourceText
