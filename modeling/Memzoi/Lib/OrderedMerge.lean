/-
# Two ordered sequences merged, the second one over the first

A library of its own: two sequences in strictly increasing order of a key are
read from the front together. Of two heads the one with the smaller key is
taken, of two with one key the one of the second sequence, and elements of the
first sequence can be passed over. What is taken is in strictly increasing
order, and is the second sequence with what is not passed over of the first.
-/

import Mathlib

namespace OrderedMerge

variable {α κ : Type} [LinearOrder κ] {key : α → κ} {skip : α → Bool}

/-- What is taken from two sequences, in order. -/
def merged (key : α → κ) (skip : α → Bool) : List α → List α → List α
  | [], right => right
  | a :: left, [] => if skip a then merged key skip left [] else a :: merged key skip left []
  | a :: left, b :: right =>
    if key a < key b then
      if skip a then merged key skip left (b :: right) else a :: merged key skip left (b :: right)
    else if key b < key a then b :: merged key skip (a :: left) right
    else b :: merged key skip left right
termination_by left right => left.length + right.length

/-- The keys increase strictly. -/
def Increasing (key : α → κ) (as : List α) : Prop := as.Pairwise fun a b => key a < key b

theorem mem_cons_of_skipped {a x : α} {left : List α} (ha : skip a = true) :
    x ∈ a :: left ∧ skip x = false ↔ x ∈ left ∧ skip x = false := by
  rw [List.mem_cons]
  constructor
  · rintro ⟨rfl | hx, hs⟩
    · exact absurd (hs.symm.trans ha) Bool.false_ne_true
    · exact ⟨hx, hs⟩
  · rintro ⟨hx, hs⟩
    exact ⟨Or.inr hx, hs⟩

theorem mem_cons_of_kept {a x : α} {left : List α} (ha : skip a = false) :
    x ∈ a :: left ∧ skip x = false ↔ x = a ∨ x ∈ left ∧ skip x = false := by
  rw [List.mem_cons]
  constructor
  · rintro ⟨rfl | hx, hs⟩
    · exact Or.inl rfl
    · exact Or.inr ⟨hx, hs⟩
  · rintro (rfl | ⟨hx, hs⟩)
    · exact ⟨Or.inl rfl, ha⟩
    · exact ⟨Or.inr hx, hs⟩

/-- What is taken: the second sequence, and what is not passed over of the first one. -/
theorem mem_merged {left right : List α}
    (hskip : ∀ a ∈ left, ∀ b ∈ right, key a = key b → skip a = true) {x : α} :
    x ∈ merged key skip left right ↔ x ∈ right ∨ x ∈ left ∧ skip x = false := by
  fun_induction merged key skip left right with
  | case1 right => simp
  | case2 a left hs ih =>
      rw [ih fun a _ b hb => absurd hb List.not_mem_nil, mem_cons_of_skipped hs]
  | case3 a left hs ih =>
      rw [List.mem_cons, ih fun a _ b hb => absurd hb List.not_mem_nil,
        mem_cons_of_kept (eq_false_of_ne_true hs)]
      exact or_left_comm
  | case4 a left b right hlt hs ih =>
      rw [ih fun x hx y hy => hskip x (List.mem_cons_of_mem _ hx) y hy, mem_cons_of_skipped hs]
  | case5 a left b right hlt hs ih =>
      rw [List.mem_cons, ih fun x hx y hy => hskip x (List.mem_cons_of_mem _ hx) y hy,
        mem_cons_of_kept (eq_false_of_ne_true hs)]
      exact or_left_comm
  | case6 a left b right hle hlt ih =>
      rw [List.mem_cons, ih fun x hx y hy => hskip x hx y (List.mem_cons_of_mem _ hy), ← or_assoc,
        ← List.mem_cons]
  | case7 a left b right hle hge ih =>
      -- one key: the head of the first sequence is passed over
      have heq : key a = key b := le_antisymm (not_lt.1 hge) (not_lt.1 hle)
      rw [List.mem_cons,
        ih fun x hx y hy => hskip x (List.mem_cons_of_mem _ hx) y (List.mem_cons_of_mem _ hy),
        ← or_assoc, ← List.mem_cons,
        mem_cons_of_skipped (hskip a List.mem_cons_self b List.mem_cons_self heq)]

/-- What is taken is in strictly increasing order. -/
theorem increasing_merged {left right : List α}
    (hskip : ∀ a ∈ left, ∀ b ∈ right, key a = key b → skip a = true)
    (hleft : Increasing key left) (hright : Increasing key right) :
    Increasing key (merged key skip left right) := by
  fun_induction merged key skip left right with
  | case1 right => exact hright
  | case2 a left hs ih =>
      exact ih (fun a _ b hb => absurd hb List.not_mem_nil) hleft.of_cons hright
  | case3 a left hs ih =>
      have hnil : ∀ x ∈ left, ∀ y ∈ ([] : List α), key x = key y → skip x = true :=
        fun _ _ y hy => absurd hy List.not_mem_nil
      refine List.pairwise_cons.2 ⟨fun x hx => ?_, ih hnil hleft.of_cons hright⟩
      rcases (mem_merged hnil).1 hx with h | ⟨h, -⟩
      · cases h
      · exact List.rel_of_pairwise_cons hleft h
  | case4 a left b right hlt hs ih =>
      exact ih (fun x hx y hy => hskip x (List.mem_cons_of_mem _ hx) y hy) hleft.of_cons hright
  | case5 a left b right hlt hs ih =>
      have hrest : ∀ x ∈ left, ∀ y ∈ b :: right, key x = key y → skip x = true :=
        fun x hx y hy => hskip x (List.mem_cons_of_mem _ hx) y hy
      refine List.pairwise_cons.2 ⟨fun x hx => ?_, ih hrest hleft.of_cons hright⟩
      rcases (mem_merged hrest).1 hx with h | ⟨h, -⟩
      · rcases List.mem_cons.1 h with rfl | h
        · exact hlt
        · exact lt_trans hlt (List.rel_of_pairwise_cons hright h)
      · exact List.rel_of_pairwise_cons hleft h
  | case6 a left b right hle hlt ih =>
      have hrest : ∀ x ∈ a :: left, ∀ y ∈ right, key x = key y → skip x = true :=
        fun x hx y hy => hskip x hx y (List.mem_cons_of_mem _ hy)
      refine List.pairwise_cons.2 ⟨fun x hx => ?_, ih hrest hleft hright.of_cons⟩
      rcases (mem_merged hrest).1 hx with h | ⟨h, -⟩
      · exact List.rel_of_pairwise_cons hright h
      · rcases List.mem_cons.1 h with rfl | h
        · exact hlt
        · exact lt_trans hlt (List.rel_of_pairwise_cons hleft h)
  | case7 a left b right hle hge ih =>
      have heq : key a = key b := le_antisymm (not_lt.1 hge) (not_lt.1 hle)
      have hrest : ∀ x ∈ left, ∀ y ∈ right, key x = key y → skip x = true := fun x hx y hy =>
        hskip x (List.mem_cons_of_mem _ hx) y (List.mem_cons_of_mem _ hy)
      refine List.pairwise_cons.2 ⟨fun x hx => ?_, ih hrest hleft.of_cons hright.of_cons⟩
      rcases (mem_merged hrest).1 hx with h | ⟨h, -⟩
      · exact List.rel_of_pairwise_cons hright h
      · rw [← heq]
        exact List.rel_of_pairwise_cons hleft h

end OrderedMerge
