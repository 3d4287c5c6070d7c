/-
# Subtrees of separated texts

A library of its own: a text with a separator names a place by its pieces, and
the subtree of a place is everything whose pieces begin with its own. Two
subtrees meet exactly when one place lies in the other subtree.
-/

import Mathlib

namespace Subtree

variable {α β : Type}

/-- Everything at a place and under it. -/
def subtree (base : List β) : Set (List β) := {place | base <+: place}

theorem mem_subtree {base place : List β} : place ∈ subtree base ↔ base <+: place := Iff.rfl

/-- Two subtrees meet exactly when one holds the root of the other. -/
theorem inter_nonempty {a b : List β} :
    (subtree a ∩ subtree b).Nonempty ↔ a <+: b ∨ b <+: a := by
  constructor
  · rintro ⟨place, ha, hb⟩
    exact List.prefix_or_prefix_of_prefix ha hb
  · rintro (h | h)
    · exact ⟨b, h, List.prefix_refl b⟩
    · exact ⟨a, List.prefix_refl a, h⟩

/-- Joined pieces go on after the join of the first ones. -/
theorem intercalate_append {separator : α} {pieces rest : List (List α)} (hpieces : pieces ≠ [])
    (hrest : rest ≠ []) : [separator].intercalate (pieces ++ rest) =
      [separator].intercalate pieces ++ separator :: [separator].intercalate rest := by
  induction pieces with
  | nil => exact absurd rfl hpieces
  | cons piece pieces ih =>
      cases pieces with
      | nil =>
          rw [List.singleton_append, List.intercalate_cons_of_ne_nil hrest]
          simp
      | cons next pieces =>
          rw [List.cons_append, List.intercalate_cons_of_ne_nil (by simp), ih (by simp),
            List.intercalate_cons_cons]
          simp

variable [BEq α] [LawfulBEq α]

/-- The pieces name the text. -/
theorem splitOn_injective (separator : α) : Function.Injective (List.splitOn separator) := by
  intro xs ys h
  have hjoin := congrArg (fun pieces => [separator].intercalate pieces) h
  simpa only [List.intercalate_splitOn] using hjoin

/-- One text has the pieces of another as its first ones exactly when it is that text, or goes on
after it with a separator. -/
theorem splitOn_prefix_iff {separator : α} {base place : List α} :
    base.splitOn separator <+: place.splitOn separator ↔
      place = base ∨ ∃ rest, place = base ++ separator :: rest := by
  constructor
  · rintro ⟨pieces, hpieces⟩
    cases pieces with
    | nil =>
        rw [List.append_nil] at hpieces
        exact Or.inl (splitOn_injective separator hpieces.symm)
    | cons piece pieces =>
        right
        refine ⟨[separator].intercalate (piece :: pieces), ?_⟩
        have hplace : [separator].intercalate (place.splitOn separator) = place :=
          List.intercalate_splitOn separator
        rw [← hpieces, intercalate_append (List.splitOn_ne_nil separator base) (by simp),
          List.intercalate_splitOn] at hplace
        exact hplace.symm
  · rintro (rfl | ⟨rest, rfl⟩)
    · exact List.prefix_refl _
    · rw [List.splitOn_append_cons_self]
      exact List.prefix_append _ _

end Subtree
