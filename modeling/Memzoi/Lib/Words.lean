/-
# Words of a text

A library of its own: the words of a text as `split_whitespace` gives them. A
white space character separates the words before it from those after it, words
joined with a space are read back, and a word that grows at its end stays one
word. Counting the words of a text put together from parts is done with these.
-/

import Memzoi.Lib.Text

namespace Text

/-- A text without white space. -/
def Solid (cs : List Char) : Prop := ∀ c ∈ cs, isWhitespace c = false

instance (cs : List Char) : Decidable (Solid cs) :=
  List.decidableBAll (fun c => isWhitespace c = false) cs

/-- `text.split_whitespace()`, on characters. -/
def words (cs : List Char) : List (List Char) := (cs.splitOnP isWhitespace).filter (· ≠ [])

theorem solid_append {as bs : List Char} : Solid (as ++ bs) ↔ Solid as ∧ Solid bs :=
  List.forall_mem_append

@[simp] theorem words_nil : words [] = [] := rfl

theorem words_append_cons {c : Char} (hc : isWhitespace c = true) (as bs : List Char) :
    words (as ++ c :: bs) = words as ++ words bs := by
  rw [words, List.splitOnP_append_cons as bs hc, List.filter_append]
  rfl

theorem words_cons {c : Char} (hc : isWhitespace c = true) (cs : List Char) :
    words (c :: cs) = words cs :=
  words_append_cons hc [] cs

theorem words_of_solid {cs : List Char} (h : Solid cs) (hne : cs ≠ []) : words cs = [cs] := by
  rw [words, List.splitOnP_eq_singleton h]
  simp [hne]

/-- A text is one word, or it ends in a last piece without white space. -/
theorem solid_or_split (cs : List Char) :
    Solid cs ∨ ∃ as c bs, cs = as ++ c :: bs ∧ isWhitespace c = true ∧ Solid bs := by
  induction cs with
  | nil => exact Or.inl nofun
  | cons d cs ih =>
      rcases ih with hsolid | ⟨as, c, bs, rfl, hc, hbs⟩
      · cases hd : isWhitespace d with
        | false => exact Or.inl (List.forall_mem_cons.2 ⟨hd, hsolid⟩)
        | true => exact Or.inr ⟨[], d, cs, rfl, hd, hsolid⟩
      · exact Or.inr ⟨d :: as, c, bs, rfl, hc, hbs⟩

theorem of_mem_words {cs w : List Char} (h : w ∈ words cs) : w ≠ [] ∧ Solid w := by
  induction hlength : cs.length using Nat.strong_induction_on generalizing cs with
  | _ n ih =>
      rcases solid_or_split cs with hsolid | ⟨as, c, bs, rfl, hc, hbs⟩
      · by_cases hne : cs = []
        · subst hne
          cases h
        · rw [words_of_solid hsolid hne, List.mem_singleton] at h
          exact h ▸ ⟨hne, hsolid⟩
      · rw [words_append_cons hc] at h
        rw [List.length_append, List.length_cons] at hlength
        rcases List.mem_append.1 h with h | h
        · exact ih as.length (by omega) h rfl
        · exact ih bs.length (by omega) h rfl

/-- Words joined with a white space character are read back. -/
theorem words_intercalate {c : Char} (hc : isWhitespace c = true) (parts : List (List Char)) :
    words ([c].intercalate parts) = parts.flatMap words := by
  induction parts with
  | nil => rfl
  | cons part parts ih =>
      cases parts with
      | nil => simp [List.intercalate_singleton]
      | cons next parts =>
          rw [List.intercalate_cons_cons, List.append_assoc, List.singleton_append,
            words_append_cons hc, ih, ← List.flatMap_cons]

theorem flatMap_words {ws : List (List Char)} (h : ∀ w ∈ ws, w ≠ [] ∧ Solid w) :
    ws.flatMap words = ws := by
  induction ws with
  | nil => rfl
  | cons w ws ih =>
      rw [List.flatMap_cons, words_of_solid (h w List.mem_cons_self).2 (h w List.mem_cons_self).1,
        ih fun w hw => h w (List.mem_cons_of_mem _ hw)]
      rfl

/-- The first words of a text, joined with spaces, are that many words. -/
theorem words_intercalate_take (cs : List Char) (n : Nat) :
    words ([ ' '].intercalate ((words cs).take n)) = (words cs).take n := by
  rw [words_intercalate rfl, flatMap_words]
  exact fun w hw => of_mem_words (List.mem_of_mem_take hw)

/-- A text that ends in a word has as many words when that word grows. -/
theorem length_words_append_solid {cs s : List Char} {c : Char} (hlast : cs.getLast? = some c)
    (hc : isWhitespace c = false) (hs : Solid s) : (words (cs ++ s)).length = (words cs).length := by
  have hne : cs ≠ [] := by
    rintro rfl
    cases hlast
  rcases solid_or_split cs with hsolid | ⟨as, d, bs, rfl, hd, hbs⟩
  · rw [words_of_solid (solid_append.2 ⟨hsolid, hs⟩) (by simp [hne]), words_of_solid hsolid hne]
    rfl
  · have hbs' : bs ≠ [] := by
      rintro rfl
      rw [List.getLast?_concat, Option.some.injEq] at hlast
      rw [hlast, hc] at hd
      cases hd
    rw [List.append_assoc, List.cons_append, words_append_cons hd, words_append_cons hd,
      words_of_solid (solid_append.2 ⟨hbs, hs⟩) (by simp [hbs']), words_of_solid hbs hbs']
    simp

theorem mem_of_mem_intercalate {separator : List Char} {parts : List (List Char)} {c : Char}
    (h : c ∈ separator.intercalate parts) : c ∈ separator ∨ ∃ part ∈ parts, c ∈ part := by
  induction parts with
  | nil => exact absurd h List.not_mem_nil
  | cons first parts ih =>
      cases parts with
      | nil =>
          rw [List.intercalate_singleton] at h
          exact Or.inr ⟨first, List.mem_cons_self, h⟩
      | cons next parts =>
          rw [List.intercalate_cons_cons, List.append_assoc, List.mem_append, List.mem_append] at h
          rcases h with h | h | h
          · exact Or.inr ⟨first, List.mem_cons_self, h⟩
          · exact Or.inl h
          · obtain hsep | ⟨part, hpart, hc⟩ := ih h
            · exact Or.inl hsep
            · exact Or.inr ⟨part, List.mem_cons_of_mem _ hpart, hc⟩

/-- The join of a list of parts holds each of them whole. -/
theorem infix_intercalate {separator part : List Char} {parts : List (List Char)}
    (h : part ∈ parts) : part <:+: separator.intercalate parts := by
  induction parts with
  | nil => cases h
  | cons first parts ih =>
      cases parts with
      | nil =>
          obtain rfl := List.mem_singleton.1 h
          simp only [List.intercalate_singleton, List.infix_refl]
      | cons next parts =>
          rw [List.intercalate_cons_cons]
          rcases List.mem_cons.1 h with rfl | h
          · rw [List.append_assoc]
            exact (List.prefix_append _ _).isInfix
          · exact (ih h).trans (List.suffix_append _ _).isInfix

end Text
