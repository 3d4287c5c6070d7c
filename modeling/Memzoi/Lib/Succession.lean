/-
# Relations that can be followed to an end

A library of its own: a relation in which following the arrows from any element
ends, and what keeps it so when an arrow is added. Ending is the
well-foundedness of the relation read backwards.
-/

import Mathlib

namespace Succession

variable {α : Type} {r : α → α → Prop}

/-- Following the arrows from any element ends. -/
def Ends (r : α → α → Prop) : Prop := WellFounded fun b a => r a b

/-- The relation with one more arrow. -/
def addArrow (r : α → α → Prop) (s t : α) : α → α → Prop := fun a b => r a b ∨ (a = s ∧ b = t)

/-- No arrows at all. -/
theorem ends_of_none (h : ∀ a b, ¬ r a b) : Ends r :=
  ⟨fun a => Acc.intro a fun b hb => absurd hb (h a b)⟩

/-- An arrow may be added to an element that has no arrow of its own. -/
theorem Ends.addArrow {s t : α} (h : Ends r) (hend : ∀ b, ¬ r t b) (hne : s ≠ t) :
    Ends (addArrow r s t) := by
  have hlast : Acc (fun b a => Succession.addArrow r s t a b) t := by
    refine Acc.intro t fun b hb => ?_
    rcases hb with hb | ⟨rfl, -⟩
    · exact absurd hb (hend b)
    · exact absurd rfl hne
  refine ⟨fun a => ?_⟩
  induction a using h.induction with
  | _ a ih =>
      refine Acc.intro a fun b hb => ?_
      rcases hb with hb | ⟨-, rfl⟩
      · exact ih b hb
      · exact hlast

/-- A relation with fewer arrows ends as well. -/
theorem Ends.mono {r' : α → α → Prop} (h : Ends r) (hsub : ∀ a b, r' a b → r a b) : Ends r' :=
  Subrelation.wf (fun {b a} hb => hsub a b hb) h

/-- Following the arrows never comes back. -/
theorem Ends.not_transGen (h : Ends r) (a : α) : ¬ Relation.TransGen r a a := by
  intro hcycle
  have hwf : WellFounded (Relation.TransGen fun b a => r a b) := h.transGen
  exact hwf.irrefl.irrefl a (Relation.transGen_swap.1 hcycle)

/-- From every element the arrows lead to one that has none. -/
theorem Ends.exists_last (h : Ends r) (a : α) :
    ∃ b, Relation.ReflTransGen r a b ∧ ∀ c, ¬ r b c := by
  induction a using h.induction with
  | _ a ih =>
      by_cases hnext : ∃ b, r a b
      · obtain ⟨b, hb⟩ := hnext
        obtain ⟨c, hbc, hlast⟩ := ih b hb
        exact ⟨c, Relation.ReflTransGen.head hb hbc, hlast⟩
      · exact ⟨a, Relation.ReflTransGen.refl, fun c hc => hnext ⟨c, hc⟩⟩

end Succession
