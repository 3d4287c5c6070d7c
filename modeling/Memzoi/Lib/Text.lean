/-
# Text functions of the host language and of the SQL engine

A library of its own. `trim` cuts Unicode white space on both sides, as Rust's
`str::trim` does; `sqlTrim` cuts spaces only and `sqlLength` counts the
characters before the first NUL, as SQLite's `trim` and `length` do on text.
-/

import Mathlib

namespace Text

/-- The characters with the Unicode property `White_Space`. -/
def isWhitespace (c : Char) : Bool :=
  (9 ≤ c.toNat && c.toNat ≤ 13) || c.toNat = 32 || c.toNat = 133 || c.toNat = 160 ||
    c.toNat = 5760 || (8192 ≤ c.toNat && c.toNat ≤ 8202) || c.toNat = 8232 || c.toNat = 8233 ||
    c.toNat = 8239 || c.toNat = 8287 || c.toNat = 12288

def trimChars (cs : List Char) : List Char :=
  (cs.dropWhile isWhitespace).rdropWhile isWhitespace

def trim (s : String) : String := String.ofList (trimChars s.toList)

/-- `value.trim().is_empty()`. -/
def isBlank (s : String) : Bool := s.toList.all isWhitespace

/-- Texts are compared as lists of characters. -/
instance lawfulBEqChars : LawfulBEq (List Char) := inferInstance

/-- `char::is_control`. -/
def isControl (c : Char) : Bool := c.toNat < 32 || (127 ≤ c.toNat && c.toNat ≤ 159)

/-- `value.split(p)` without the empty pieces. -/
def pieces (p : Char → Bool) (s : String) : List String :=
  ((s.toList.splitOnP p).filter (· ≠ [])).map String.ofList

/-- `value.split_whitespace().collect::<Vec<_>>().join(" ")`. -/
def collapseWhitespace (s : String) : String := " ".intercalate (pieces isWhitespace s)

/-- The tables of the Unicode version the host language is built with. -/
class Unicode where
  lowercase : String → String
  isAlphanumeric : Char → Bool

/-- The tables on ASCII text, for runs on fixed inputs. -/
@[reducible] def Unicode.ascii : Unicode where
  lowercase s := String.ofList (s.toList.map Char.toLower)
  isAlphanumeric := Char.isAlphanum

/-- Nothing is cut between two characters that are not white space. -/
theorem trim_of_ends {s : String} {c d : Char} {cs ds : List Char} (hs : s.toList = c :: cs)
    (hs' : s.toList = ds ++ [d]) (hc : isWhitespace c = false) (hd : isWhitespace d = false) :
    trim s = s := by
  have hdrop : s.toList.dropWhile isWhitespace = s.toList := by
    rw [hs, List.dropWhile_cons_of_neg (by simp [hc])]
  have hend : s.toList.rdropWhile isWhitespace = s.toList := by
    rw [hs']
    exact List.rdropWhile_concat_neg isWhitespace ds d (by simp [hd])
  rw [trim, trimChars, hdrop, hend, String.ofList_toList]

theorem trimChars_eq_self {cs : List Char} (hhead : ∀ c ∈ cs.head?, isWhitespace c = false)
    (hlast : ∀ c ∈ cs.getLast?, isWhitespace c = false) : trimChars cs = cs := by
  have hdrop : cs.dropWhile isWhitespace = cs := by
    rw [List.dropWhile_eq_self_iff]
    intro hlt
    simpa using hhead _ (List.head?_eq_getElem? (l := cs) ▸ List.getElem?_eq_getElem hlt)
  rw [trimChars, hdrop, List.rdropWhile_eq_self_iff]
  intro hne
  simpa using hlast _ (List.getLast?_eq_getLast_of_ne_nil hne)

theorem head?_trimChars {cs : List Char} {c : Char} (h : c ∈ (trimChars cs).head?) :
    isWhitespace c = false := by
  obtain ⟨rest, hrest⟩ := List.head?_eq_some_iff.1 h
  have hdrop : (cs.dropWhile isWhitespace).head? = some c := by
    obtain ⟨suffix, hsuffix⟩ := List.rdropWhile_prefix isWhitespace (cs.dropWhile isWhitespace)
    rw [← hsuffix]
    show (trimChars cs ++ suffix).head? = some c
    rw [hrest]
    rfl
  have hnot := List.head?_dropWhile_not isWhitespace cs
  rw [hdrop] at hnot
  simpa using hnot

theorem getLast?_trimChars {cs : List Char} {c : Char} (h : c ∈ (trimChars cs).getLast?) :
    isWhitespace c = false := by
  obtain ⟨rest, hrest⟩ := List.getLast?_eq_some_iff.1 h
  have hne : (cs.dropWhile isWhitespace).rdropWhile isWhitespace ≠ [] := by
    show trimChars cs ≠ []
    rw [hrest]
    simp
  have hlast := List.rdropWhile_last_not isWhitespace (cs.dropWhile isWhitespace) hne
  have heq : ((cs.dropWhile isWhitespace).rdropWhile isWhitespace).getLast hne = c := by
    refine Option.some.inj ?_
    rw [← List.getLast?_eq_getLast_of_ne_nil]
    exact h
  rw [heq] at hlast
  simpa using hlast

/-- Trimming trimmed text changes nothing. -/
theorem trimChars_trimChars (cs : List Char) : trimChars (trimChars cs) = trimChars cs :=
  trimChars_eq_self (fun _ => head?_trimChars) (fun _ => getLast?_trimChars)

theorem trim_trim (s : String) : trim (trim s) = trim s := by
  unfold trim
  rw [String.toList_ofList, trimChars_trimChars]

/-! ### One side -/

def trimStart (cs : List Char) : List Char := cs.dropWhile isWhitespace

def trimEnd (cs : List Char) : List Char := cs.rdropWhile isWhitespace

theorem prefix_trimEnd (cs : List Char) : trimEnd cs <+: cs := List.rdropWhile_prefix _ _

theorem trimEnd_concat {c : Char} (cs : List Char) (hc : isWhitespace c = false) :
    trimEnd (cs ++ [c]) = cs ++ [c] := List.rdropWhile_concat_neg _ _ _ (by simp [hc])

/-- White space at the end is cut. -/
theorem trimEnd_append {ws : List Char} (cs : List Char) (hws : ∀ c ∈ ws, isWhitespace c = true) :
    trimEnd (cs ++ ws) = trimEnd cs := by
  induction ws using List.reverseRecOn with
  | nil => rw [List.append_nil]
  | append_singleton ws c ih =>
      rw [← List.append_assoc, trimEnd,
        List.rdropWhile_concat_pos _ _ _ (hws c (List.mem_append_right _ List.mem_cons_self))]
      exact ih fun x hx => hws x (List.mem_append_left _ hx)

theorem trimEnd_trimEnd (cs : List Char) : trimEnd (trimEnd cs) = trimEnd cs :=
  List.rdropWhile_idempotent _ _

/-- White space at the front is cut. -/
theorem trimStart_append {ws : List Char} (cs : List Char) (hws : ∀ c ∈ ws, isWhitespace c = true) :
    trimStart (ws ++ cs) = trimStart cs := List.dropWhile_append_of_pos hws

theorem trimStart_trimStart (cs : List Char) : trimStart (trimStart cs) = trimStart cs :=
  List.dropWhile_idempotent _ _

theorem trimEnd_eq_nil {cs : List Char} : trimEnd cs = [] ↔ ∀ c ∈ cs, isWhitespace c = true :=
  List.rdropWhile_eq_nil_iff

theorem trimChars_eq_nil {cs : List Char} :
    trimChars cs = [] ↔ ∀ c ∈ cs, isWhitespace c = true := by
  rw [trimChars, List.rdropWhile_eq_nil_iff]
  constructor
  · intro h c hc
    rw [← List.takeWhile_append_dropWhile (p := isWhitespace) (l := cs)] at hc
    rcases List.mem_append.1 hc with hc | hc
    · exact List.mem_takeWhile_imp hc
    · exact h c hc
  · exact fun h c hc => h c ((List.dropWhile_suffix _).subset hc)

/-- What is cut on both sides. -/
theorem exists_trimChars (cs : List Char) :
    ∃ lead trail, cs = lead ++ trimChars cs ++ trail ∧ (∀ c ∈ lead, isWhitespace c = true) ∧
      (∀ c ∈ trail, isWhitespace c = true) ∧ trimStart cs = trimChars cs ++ trail := by
  have htrail : trimChars cs ++ (trimStart cs).rtakeWhile isWhitespace = trimStart cs :=
    List.rdropWhile_append_rtakeWhile
  refine ⟨cs.takeWhile isWhitespace, (trimStart cs).rtakeWhile isWhitespace, ?_,
    fun c hc => List.mem_takeWhile_imp hc, fun c hc => List.mem_rtakeWhile_imp hc, htrail.symm⟩
  rw [List.append_assoc, htrail]
  exact List.takeWhile_append_dropWhile.symm

theorem trimEnd_of_split {cs lead core trail : List Char} (hcs : cs = lead ++ core ++ trail)
    (hcore : core = trimChars cs) (hne : core ≠ []) (htrail : ∀ c ∈ trail, isWhitespace c = true) :
    trimEnd cs = lead ++ core := by
  rcases List.eq_nil_or_concat' core with hnil | ⟨init, last, rfl⟩
  · exact absurd hnil hne
  have hlast : last ∈ (trimChars cs).getLast? := by
    rw [← hcore]
    exact List.getLast?_concat
  rw [hcs, trimEnd_append _ htrail, ← List.append_assoc, trimEnd_concat _ (getLast?_trimChars hlast)]

/-- Only white space is cut. -/
theorem filter_trimStart (cs : List Char) :
    (trimStart cs).filter (! isWhitespace ·) = cs.filter (! isWhitespace ·) := by
  induction cs with
  | nil => rfl
  | cons c cs ih =>
      rw [trimStart]
      by_cases hc : isWhitespace c = true
      · rw [List.dropWhile_cons_of_pos hc, List.filter_cons_of_neg (by simp [hc])]
        exact ih
      · rw [List.dropWhile_cons_of_neg hc]

theorem filter_trimEnd (cs : List Char) :
    (trimEnd cs).filter (! isWhitespace ·) = cs.filter (! isWhitespace ·) := by
  have h := filter_trimStart cs.reverse
  rw [List.filter_reverse, trimStart] at h
  rw [trimEnd, List.rdropWhile, List.filter_reverse, h, List.reverse_reverse]

/-- The text in double quotes, with the escapes of Rust's `Debug` for ASCII. -/
def debugQuote (s : String) : String :=
  let escape (c : Char) : List Char :=
    if c = '"' then [ '\\', '"']
    else if c = '\\' then [ '\\', '\\']
    else if c = '\n' then [ '\\', 'n']
    else if c = '\r' then [ '\\', 'r']
    else if c = '\t' then [ '\\', 't']
    else if c.toNat = 0 then [ '\\', '0']
    else [c]
  String.ofList ([ '"'] ++ s.toList.flatMap escape ++ [ '"'])

/-- `trim(X)`: the spaces on both sides. -/
def sqlTrim (s : String) : List Char :=
  (s.toList.dropWhile (· = ' ')).rdropWhile (· = ' ')

/-- `length(X)`: the characters before the first NUL. -/
def sqlLength (cs : List Char) : Nat := (cs.takeWhile (fun c => c.toNat ≠ 0)).length

/-- `CHECK (length(trim(X)) > 0)`. -/
def sqlNonBlank (s : String) : Bool := 0 < sqlLength (sqlTrim s)

/-! ### The two notions of blank -/

/-- Cutting at the end leaves a first character that is not cut itself. -/
theorem rdropWhile_cons_of_neg {p : Char → Bool} {c : Char} (cs : List Char) (h : p c = false) :
    ∃ ds, (c :: cs).rdropWhile p = c :: ds := by
  have hfront := List.rdropWhile_prefix p (c :: cs)
  cases hcut : (c :: cs).rdropWhile p with
  | nil =>
      rw [List.rdropWhile_eq_nil_iff] at hcut
      rw [hcut c List.mem_cons_self] at h
      cases h
  | cons d ds =>
      rw [hcut, List.cons_prefix_cons] at hfront
      exact ⟨ds, by rw [hfront.1]⟩

/-- A text that does not start with a space passes the check unless it starts with NUL. -/
theorem sqlNonBlank_cons {s : String} {c : Char} {cs : List Char} (hs : s.toList = c :: cs)
    (hc : c ≠ ' ') : sqlNonBlank s = true ↔ c.toNat ≠ 0 := by
  obtain ⟨ds, hds⟩ := rdropWhile_cons_of_neg (p := (· = ' ')) cs (by simpa using hc)
  have htrim : sqlTrim s = c :: ds := by
    rw [sqlTrim, hs, List.dropWhile_cons_of_neg (by simpa using hc), hds]
  rw [sqlNonBlank, htrim, sqlLength, decide_eq_true_eq]
  by_cases hzero : c.toNat = 0
  · simp [hzero]
  · simp [hzero]

/-- What is left of a text that is not blank starts with a character that is not white space. -/
theorem exists_head_trim {s : String} (h : isBlank s = false) :
    ∃ c cs, (trim s).toList = c :: cs ∧ isWhitespace c = false := by
  cases hdrop : s.toList.dropWhile isWhitespace with
  | nil =>
      rw [List.dropWhile_eq_nil_iff] at hdrop
      rw [isBlank, List.all_eq_true.2 hdrop] at h
      cases h
  | cons c cs =>
      have hc : isWhitespace c = false := by
        have hhead := List.head_dropWhile_not isWhitespace (l := s.toList) (by rw [hdrop]; simp)
        simpa only [hdrop, List.head_cons] using hhead
      obtain ⟨ds, hds⟩ := rdropWhile_cons_of_neg cs hc
      exact ⟨c, ds, by rw [trim, String.toList_ofList, trimChars, hdrop, hds], hc⟩

/-- A trimmed text that is not blank passes the check unless it starts with NUL. -/
theorem sqlNonBlank_trim {s : String} (h : isBlank s = false) :
    sqlNonBlank (trim s) = true ↔ (trim s).toList.head?.map Char.toNat ≠ some 0 := by
  obtain ⟨c, cs, hcs, hc⟩ := exists_head_trim h
  have hspace : c ≠ ' ' := by
    rintro rfl
    exact absurd hc (by decide)
  rw [sqlNonBlank_cons hcs hspace, hcs]
  simp

end Text
