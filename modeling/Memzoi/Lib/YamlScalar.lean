/-
# Words and JSON strings, read as YAML scalars

A library of its own. A YAML 1.1 scanner (libyaml and what was made of it)
reads a value that a program printed as a bare word or as a JSON string. A word
can mean nothing, or open a sequence. A JSON string is a double-quoted scalar:
its escapes are those of YAML, but NEL, LS and PS, which JSON prints as they
are, end a line for the scanner, and lines are folded: a NEL becomes a space,
blanks beside a line end are dropped, and a line may not begin with a document
mark. Characters that YAML does not allow in a text are refused.

`fold_eq_iff` says which strings are read as they are.
-/

import Mathlib

namespace YamlScalar

/-! ### Characters -/

def nel : Char := Char.ofNat 0x85

/-- A blank inside a JSON string; a tab is escaped there. -/
def isBlank (c : Char) : Bool := c = ' '

/-- What ends a line inside a JSON string; a line feed and a carriage return are escaped there. -/
def isBreak (c : Char) : Bool := c = nel || c.toNat = 0x2028 || c.toNat = 0x2029

/-- What YAML allows in a text. -/
def isPrintable (c : Char) : Bool :=
  c.toNat = 0x09 || c.toNat = 0x0A || c.toNat = 0x0D || (0x20 ≤ c.toNat && c.toNat ≤ 0x7E) ||
    c.toNat = 0x85 || (0xA0 ≤ c.toNat && c.toNat ≤ 0xD7FF) ||
    (0xE000 ≤ c.toNat && c.toNat ≤ 0xFFFD) || (0x10000 ≤ c.toNat && c.toNat ≤ 0x10FFFF)

/-! ### Folding -/

/-- The white space read since the last other character. -/
inductive Pending where
  /-- Blanks of one line. -/
  | blanks (chars : List Char)
  /-- The end of a line, and the ends of the empty lines after it. -/
  | breaks (first : Char) (rest : List Char)

/-- A NEL is a line end like a line feed; LS and PS stand for themselves. -/
def lineEnd (c : Char) : Char := if c = nel then '\n' else c

/-- What the white space stands for. -/
def Pending.text : Pending → List Char
  | blanks chars => chars
  | breaks first rest =>
    if first = '\n' then if rest = [] then [ ' '] else rest
    else first :: rest

def Pending.blank (c : Char) : Pending → Pending
  | blanks chars => blanks (chars ++ [c])
  | breaks first rest => breaks first rest

def Pending.lineBreak (c : Char) : Pending → Pending
  | blanks _ => breaks (lineEnd c) []
  | breaks first rest => breaks first (rest ++ [lineEnd c])

/-- The characters between the quotes, folded. -/
def fold : Pending → List Char → List Char
  | pending, [] => pending.text
  | pending, c :: cs =>
    if isBlank c then fold (pending.blank c) cs
    else if isBreak c then fold (pending.lineBreak c) cs
    else pending.text ++ c :: fold (.blanks []) cs

/-- A document mark at the start of a text. -/
def startsMark : List Char → Bool
  | a :: b :: c :: d :: _ =>
    ((a = '-' && b = '-' && c = '-') || (a = '.' && b = '.' && c = '.')) &&
      (isBlank d || isBreak d)
  | _ => false

/-- A line after the first one begins with a document mark. -/
def hasMark : List Char → Bool
  | [] => false
  | c :: cs => (isBreak c && startsMark cs) || hasMark cs

/-! ### Reading -/

def hexValue (c : Char) : Option Nat :=
  if '0' ≤ c ∧ c ≤ '9' then some (c.toNat - 48)
  else if 'a' ≤ c ∧ c ≤ 'f' then some (c.toNat - 87)
  else none

/-- The escapes of one letter. -/
def escapeValue (c : Char) : Option Char :=
  if c = '"' then some '"'
  else if c = '\\' then some '\\'
  else if c = 'n' then some '\n'
  else if c = 'r' then some '\r'
  else if c = 't' then some '\t'
  else if c = 'b' then some (Char.ofNat 8)
  else if c = 'f' then some (Char.ofNat 12)
  else none

/-- The text of a JSON string after its opening quote, with its escapes undone. -/
def unescape : List Char → Option (List Char)
  | [] => none
  | '\\' :: 'u' :: '0' :: '0' :: a :: b :: cs => do
    let high ← hexValue a
    let low ← hexValue b
    let rest ← unescape cs
    some (Char.ofNat (16 * high + low) :: rest)
  | '\\' :: c :: cs => do
    let value ← escapeValue c
    let rest ← unescape cs
    some (value :: rest)
  | '"' :: cs => if cs = [] then some [] else none
  | c :: cs => (unescape cs).map (c :: ·)

/-- A JSON string, read as a double-quoted scalar. -/
def readQuoted (text : List Char) : Option (List Char) :=
  match text with
  | '"' :: cs =>
    if cs.all isPrintable then
      (unescape cs).bind fun chars => if hasMark chars then none else some (fold (.blanks []) chars)
    else none
  | _ => none

/-- The words that stand for no value. -/
def isNull (word : List Char) : Bool :=
  word = "null".toList || word = "Null".toList || word = "NULL".toList || word = "~".toList

/-- A word or a JSON string where a text is expected. -/
def readText (text : List Char) : Option (List Char) :=
  if text.head? = some '"' then readQuoted text
  else if text = [ '-'] then none
  else some text

/-- A word or a JSON string where a text or nothing is expected. -/
def readOptional (text : List Char) : Option (Option (List Char)) :=
  if isNull text then some none else (readText text).map some

/-! ### What folding keeps -/

/-- A blank beside a line end, which folding drops. -/
def clash (a b : Char) : Bool := (isBlank a && isBreak b) || (isBreak a && isBlank b)

/-- Folding keeps the characters: no NEL, and no blank beside a line end. -/
structure Unfolded (chars : List Char) : Prop where
  noNel : nel ∉ chars
  noClash : chars.IsChain fun a b => clash a b = false

instance (chars : List Char) : Decidable (Unfolded chars) :=
  decidable_of_iff (nel ∉ chars ∧ chars.IsChain fun a b => clash a b = false)
    ⟨fun h => ⟨h.1, h.2⟩, fun h => ⟨h.noNel, h.noClash⟩⟩

theorem not_isBlank_of_isBreak {c : Char} (h : isBreak c = true) : isBlank c = false := by
  rw [isBlank, decide_eq_false_iff_not]
  rintro rfl
  revert h
  decide

/-- The white space holds no NEL and stands for itself. -/
def Pending.Plain : Pending → Prop
  | blanks chars => ∀ c ∈ chars, isBlank c = true
  | breaks first rest => isBreak first = true ∧ first ≠ nel ∧ ∀ c ∈ rest, isBreak c = true ∧ c ≠ nel

theorem Pending.Plain.blank {p : Pending} (h : p.Plain) {c : Char} (hc : isBlank c = true) :
    (p.blank c).Plain := by
  cases p with
  | blanks chars =>
      intro d hd
      rcases List.mem_append.1 hd with hd | hd
      · exact h d hd
      · rw [List.mem_singleton.1 hd]
        exact hc
  | breaks first rest => exact h

theorem Pending.Plain.lineBreak {p : Pending} (h : p.Plain) {c : Char} (hc : isBreak c = true)
    (hne : c ≠ nel) : (p.lineBreak c).Plain := by
  have hsame : lineEnd c = c := if_neg hne
  cases p with
  | blanks chars =>
      show isBreak (lineEnd c) = true ∧ lineEnd c ≠ nel ∧ ∀ d ∈ [], _
      rw [hsame]
      exact ⟨hc, hne, by simp⟩
  | breaks first rest =>
      refine ⟨h.1, h.2.1, fun d hd => ?_⟩
      rcases List.mem_append.1 hd with hd | hd
      · exact h.2.2 d hd
      · rw [List.mem_singleton.1 hd, hsame]
        exact ⟨hc, hne⟩

/-- Plain white space beside a character: what the clash with it is. -/
def Pending.clashes (p : Pending) (c : Char) : Bool :=
  match p with
  | blanks chars => chars ≠ [] && isBreak c
  | breaks _ _ => isBlank c

theorem newline_not_isBreak : isBreak '\n' = false := by decide

theorem Pending.Plain.text_breaks {first : Char} {rest : List Char}
    (h : (Pending.breaks first rest).Plain) : (Pending.breaks first rest).text = first :: rest := by
  have hne : first ≠ '\n' := by
    rintro rfl
    have hbreak := h.1
    rw [newline_not_isBreak] at hbreak
    cases hbreak
  exact if_neg hne

/-- The white space after one more character. -/
def Pending.next (p : Pending) (c : Char) : Pending :=
  if isBlank c then p.blank c else if isBreak c then p.lineBreak c else .blanks []

/-- No character clashes with what stands before it. -/
def quiet : Pending → List Char → Bool
  | _, [] => true
  | p, c :: cs => !p.clashes c && quiet (p.next c) cs

theorem next_of_blank {p : Pending} {c : Char} (h : isBlank c = true) : p.next c = p.blank c :=
  if_pos h

theorem next_of_break {p : Pending} {c : Char} (h : isBreak c = true) :
    p.next c = p.lineBreak c := by
  rw [Pending.next, if_neg (by rw [not_isBlank_of_isBreak h]; decide), if_pos h]

theorem next_of_other {p : Pending} {c : Char} (hblank : ¬ isBlank c = true)
    (hbreak : ¬ isBreak c = true) : p.next c = .blanks [] := by
  rw [Pending.next, if_neg hblank, if_neg hbreak]

theorem Pending.Plain.next {p : Pending} (h : p.Plain) {c : Char} (hne : c ≠ nel) :
    (p.next c).Plain := by
  by_cases hblank : isBlank c = true
  · rw [next_of_blank hblank]
    exact h.blank hblank
  · by_cases hbreak : isBreak c = true
    · rw [next_of_break hbreak]
      exact h.lineBreak hbreak hne
    · rw [next_of_other hblank hbreak]
      exact fun d hd => absurd hd List.not_mem_nil

/-- White space that clashes with nothing is extended by the next character. -/
theorem text_next {p : Pending} (h : p.Plain) {c : Char} (hne : c ≠ nel)
    (hquiet : p.clashes c = false) (hspace : isBlank c = true ∨ isBreak c = true) :
    (p.next c).text = p.text ++ [c] := by
  have hsame : lineEnd c = c := if_neg hne
  rcases hspace with hblank | hbreak
  · rw [next_of_blank hblank]
    cases p with
    | blanks chars => rfl
    | breaks first rest =>
        rw [Pending.clashes, hblank] at hquiet
        cases hquiet
  · have hplain := h.lineBreak hbreak hne
    rw [next_of_break hbreak]
    cases p with
    | blanks chars =>
        have hempty : chars = [] := by simpa [Pending.clashes, hbreak] using hquiet
        subst hempty
        rw [Pending.lineBreak] at hplain ⊢
        rw [hplain.text_breaks, hsame]
        rfl
    | breaks first rest =>
        rw [Pending.lineBreak] at hplain ⊢
        rw [hplain.text_breaks, h.text_breaks, hsame]
        rfl

/-- Any other white space is cut short by the next character. -/
theorem text_next_lt {p : Pending} (h : p.Plain) {c : Char} (hne : c ≠ nel)
    (hclash : p.clashes c = true) : (p.next c).text.length < p.text.length + 1 := by
  cases p with
  | blanks chars =>
      obtain ⟨hchars, hbreak⟩ : chars ≠ [] ∧ isBreak c = true := by
        simpa [Pending.clashes] using hclash
      have hplain := h.lineBreak hbreak hne
      rw [next_of_break hbreak]
      rw [Pending.lineBreak] at hplain ⊢
      rw [hplain.text_breaks]
      have hpos : 0 < chars.length := List.length_pos_iff.2 hchars
      show 1 < chars.length + 1
      omega
  | breaks first rest =>
      rw [next_of_blank hclash]
      show (Pending.breaks first rest).text.length < _
      omega

theorem fold_of_space {p : Pending} {c : Char} (cs : List Char)
    (h : isBlank c = true ∨ isBreak c = true) : fold p (c :: cs) = fold (p.next c) cs := by
  rcases h with hblank | hbreak
  · rw [fold, if_pos hblank, next_of_blank hblank]
  · rw [fold, if_neg (by rw [not_isBlank_of_isBreak hbreak]; decide), if_pos hbreak,
      next_of_break hbreak]

theorem fold_of_other {p : Pending} {c : Char} (cs : List Char) (hblank : ¬ isBlank c = true)
    (hbreak : ¬ isBreak c = true) : fold p (c :: cs) = p.text ++ c :: fold (.blanks []) cs := by
  rw [fold, if_neg hblank, if_neg hbreak]

theorem not_clashes_of_other {p : Pending} {c : Char} (hblank : ¬ isBlank c = true)
    (hbreak : ¬ isBreak c = true) : p.clashes c = false := by
  cases p with
  | blanks chars => simp [Pending.clashes, hbreak]
  | breaks first rest => simpa [Pending.clashes] using hblank

/-- Without a NEL, folding keeps the characters when none clashes, and drops some otherwise. -/
theorem fold_quiet {cs : List Char} (hnel : nel ∉ cs) {p : Pending} (hp : p.Plain) :
    (quiet p cs = true → fold p cs = p.text ++ cs) ∧
      (quiet p cs = false → (fold p cs).length < p.text.length + cs.length) := by
  induction cs generalizing p with
  | nil => exact ⟨fun _ => by rw [fold, List.append_nil], fun h => by cases h⟩
  | cons c cs ih =>
      have hne : c ≠ nel := fun h => hnel (h ▸ List.mem_cons_self)
      have hrest : nel ∉ cs := fun h => hnel (List.mem_cons_of_mem c h)
      obtain ⟨hkeep, hdrop⟩ := ih hrest (hp.next hne)
      have hle : (fold (p.next c) cs).length ≤ (p.next c).text.length + cs.length := by
        cases hq : quiet (p.next c) cs with
        | true => rw [hkeep hq, List.length_append]
        | false => exact Nat.le_of_lt (hdrop hq)
      by_cases hspace : isBlank c = true ∨ isBreak c = true
      · rw [fold_of_space cs hspace, quiet]
        cases hclash : p.clashes c with
        | false =>
            have htext := text_next hp hne hclash hspace
            rw [Bool.not_false, Bool.true_and]
            constructor
            · intro hq
              rw [hkeep hq, htext, List.append_assoc]
              rfl
            · intro hq
              have hlt := hdrop hq
              rw [htext, List.length_append] at hlt
              simp only [List.length_cons, List.length_nil] at hlt ⊢
              omega
        | true =>
            have hlt := text_next_lt hp hne hclash
            refine ⟨fun hq => by simp at hq, fun _ => ?_⟩
            rw [List.length_cons]
            omega
      · have hblank : ¬ isBlank c = true := fun h => hspace (Or.inl h)
        have hbreak : ¬ isBreak c = true := fun h => hspace (Or.inr h)
        rw [next_of_other hblank hbreak] at hkeep hdrop
        rw [fold_of_other cs hblank hbreak, quiet, not_clashes_of_other hblank hbreak,
          next_of_other hblank hbreak, Bool.not_false, Bool.true_and]
        constructor
        · intro hq
          rw [hkeep hq]
          rfl
        · intro hq
          have hlt := hdrop hq
          simp only [Pending.text, List.length_append, List.length_cons, List.length_nil] at hlt ⊢
          omega

theorem clashes_next {p : Pending} {c : Char} (hquiet : p.clashes c = false) (d : Char) :
    (p.next c).clashes d = clash c d := by
  by_cases hblank : isBlank c = true
  · have hbreak : isBreak c = false := by
      cases h : isBreak c with
      | false => rfl
      | true =>
          rw [not_isBlank_of_isBreak h] at hblank
          cases hblank
    rw [next_of_blank hblank, clash, hblank, hbreak]
    cases p with
    | blanks chars => simp [Pending.blank, Pending.clashes]
    | breaks first rest =>
        rw [Pending.clashes, hblank] at hquiet
        cases hquiet
  · by_cases hbreak : isBreak c = true
    · rw [next_of_break hbreak, clash, hbreak, not_isBlank_of_isBreak hbreak]
      cases p with
      | blanks chars => rfl
      | breaks first rest => rfl
    · rw [next_of_other hblank hbreak, clash]
      simp [Pending.clashes, hblank, hbreak]

theorem quiet_iff {cs : List Char} {p : Pending} :
    quiet p cs = true ↔ (∀ c ∈ cs.head?, p.clashes c = false) ∧
      cs.IsChain fun a b => clash a b = false := by
  induction cs generalizing p with
  | nil => simp [quiet]
  | cons c cs ih =>
      rw [quiet, Bool.and_eq_true, ih, Bool.not_eq_true', List.isChain_cons]
      constructor
      · rintro ⟨hquiet, hhead, hchain⟩
        refine ⟨by simpa using hquiet, fun d hd => ?_, hchain⟩
        rw [← clashes_next hquiet]
        exact hhead d hd
      · rintro ⟨hquiet, hhead, hchain⟩
        have hquiet : p.clashes c = false := by simpa using hquiet
        refine ⟨hquiet, fun d hd => ?_, hchain⟩
        rw [clashes_next hquiet]
        exact hhead d hd

/-- No NEL is waiting. -/
def Pending.NoNel : Pending → Prop
  | blanks chars => nel ∉ chars
  | breaks first rest => first ≠ nel ∧ nel ∉ rest

theorem nel_ne_lineEnd (c : Char) : lineEnd c ≠ nel := by
  unfold lineEnd
  split
  · decide
  · assumption

theorem Pending.NoNel.text {p : Pending} (h : p.NoNel) : nel ∉ p.text := by
  cases p with
  | blanks chars => exact h
  | breaks first rest =>
      obtain ⟨hfirst, hrest⟩ := h
      show nel ∉ if first = '\n' then if rest = [] then [ ' '] else rest else first :: rest
      split
      · split
        · decide
        · exact hrest
      · exact List.not_mem_cons_of_ne_of_not_mem (Ne.symm hfirst) hrest

theorem Pending.NoNel.next {p : Pending} (h : p.NoNel) (c : Char) : (p.next c).NoNel := by
  by_cases hblank : isBlank c = true
  · rw [next_of_blank hblank]
    cases p with
    | blanks chars =>
        have hne : nel ≠ c := by
          rintro rfl
          revert hblank
          decide
        show nel ∉ chars ++ [c]
        simp [hne, show nel ∉ chars from h]
    | breaks first rest => exact h
  · by_cases hbreak : isBreak c = true
    · rw [next_of_break hbreak]
      cases p with
      | blanks chars => exact ⟨nel_ne_lineEnd c, List.not_mem_nil⟩
      | breaks first rest =>
          refine ⟨h.1, ?_⟩
          show nel ∉ rest ++ [lineEnd c]
          simp [h.2, (nel_ne_lineEnd c).symm]
    · rw [next_of_other hblank hbreak]
      exact List.not_mem_nil

/-- No NEL comes out of folding. -/
theorem nel_notMem_fold {cs : List Char} {p : Pending} (hp : p.NoNel) : nel ∉ fold p cs := by
  induction cs generalizing p with
  | nil => exact hp.text
  | cons c cs ih =>
      by_cases hspace : isBlank c = true ∨ isBreak c = true
      · rw [fold_of_space cs hspace]
        exact ih (hp.next c)
      · have hblank : ¬ isBlank c = true := fun h => hspace (Or.inl h)
        have hbreak : ¬ isBreak c = true := fun h => hspace (Or.inr h)
        have hne : nel ≠ c := by
          rintro rfl
          exact hbreak (by decide)
        rw [fold_of_other cs hblank hbreak]
        have hrest : nel ∉ fold (.blanks []) cs := ih List.not_mem_nil
        simp [hp.text, hne, hrest]

/-- The strings that are read as they are. -/
theorem fold_eq_iff {cs : List Char} : fold (.blanks []) cs = cs ↔ Unfolded cs := by
  have hplain : (Pending.blanks []).Plain := fun c hc => absurd hc List.not_mem_nil
  have hempty : (Pending.blanks []).text = [] := rfl
  constructor
  · intro h
    have hnel : nel ∉ cs := by
      rw [← h]
      exact nel_notMem_fold List.not_mem_nil
    refine ⟨hnel, ?_⟩
    cases hq : quiet (.blanks []) cs with
    | true => exact (quiet_iff.1 hq).2
    | false =>
        have hlt := (fold_quiet hnel hplain).2 hq
        rw [h, hempty, List.length_nil] at hlt
        omega
  · rintro ⟨hnel, hchain⟩
    have hquiet : quiet (.blanks []) cs = true :=
      quiet_iff.2 ⟨fun c _ => by simp [Pending.clashes], hchain⟩
    rw [(fold_quiet hnel hplain).1 hquiet, hempty, List.nil_append]

/-- A last character that is no white space stays the last one. -/
theorem fold_concat {c : Char} (hblank : ¬ isBlank c = true) (hbreak : ¬ isBreak c = true)
    (cs : List Char) (p : Pending) : ∃ out, fold p (cs ++ [c]) = out ++ [c] := by
  induction cs generalizing p with
  | nil => exact ⟨p.text, fold_of_other [] hblank hbreak⟩
  | cons d cs ih =>
      rw [List.cons_append]
      by_cases hspace : isBlank d = true ∨ isBreak d = true
      · rw [fold_of_space _ hspace]
        exact ih (p.next d)
      · obtain ⟨out, hout⟩ := ih (.blanks [])
        refine ⟨p.text ++ d :: out, ?_⟩
        rw [fold_of_other _ (fun h => hspace (Or.inl h)) (fun h => hspace (Or.inr h)), hout,
          List.append_assoc, List.cons_append]

end YamlScalar
