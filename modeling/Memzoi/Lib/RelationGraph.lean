/-
# The graph of a relation over a list

A library of its own: the positions of a list as vertices, with an edge between
two positions whose elements are related. The relation is asked of the keys of
the elements, the earlier position first, and is symmetric and irreflexive. A
walk over positions is a chain of related keys (`connected_of_reach`,
`reach_of_connected`), so what a search over positions reaches depends on which
keys the list has, not on their order.
-/

import Memzoi.Lib.Explore

namespace RelationGraph

variable {α κ : Type}

/-- A relation that no key has to itself, and that is the same from both sides. -/
structure Opposes (rel : κ → κ → Bool) : Prop where
  comm : ∀ a b, rel a b = rel b a
  irrefl : ∀ a, rel a a = false

/-- Two keys are related, and both take part. -/
def Linked (member : κ → Prop) (rel : κ → κ → Bool) (a b : κ) : Prop :=
  member a ∧ member b ∧ rel a b = true

/-- Chains of related keys that take part. -/
abbrev Connected (member : κ → Prop) (rel : κ → κ → Bool) : κ → κ → Prop :=
  Relation.ReflTransGen (Linked member rel)

theorem Connected.congr {member member' : κ → Prop} {rel : κ → κ → Bool}
    (h : ∀ a, member a ↔ member' a) : Connected member rel = Connected member' rel := by
  have hsame : member = member' := funext fun a => propext (h a)
  rw [hsame]

variable (key : α → κ) (rel : κ → κ → Bool) (xs : List α)

/-- The edge between two positions, asked of the earlier one first. -/
def adjacent (i j : Nat) : Bool :=
  match xs[i]?, xs[j]? with
  | some a, some b => (i < j && rel (key a) (key b)) || (j < i && rel (key b) (key a))
  | _, _ => false

/-- The neighbours of a position, in order. -/
def neighbors (i : Nat) : List Nat := (List.range xs.length).filter (adjacent key rel xs i)

/-- A key that stands in the list. -/
def Member (a : κ) : Prop := ∃ x ∈ xs, key x = a

variable {key rel xs}

theorem mem_neighbors (h : Opposes rel) {i j : Nat} :
    j ∈ neighbors key rel xs i ↔
      ∃ a b, xs[i]? = some a ∧ xs[j]? = some b ∧ rel (key a) (key b) = true := by
  rw [neighbors, List.mem_filter, List.mem_range, adjacent]
  cases hi : xs[i]? with
  | none => simp
  | some a =>
      cases hj : xs[j]? with
      | none => simp
      | some b =>
          have hlt : j < xs.length := (List.getElem?_eq_some_iff.1 hj).1
          simp only [Bool.or_eq_true, Bool.and_eq_true, decide_eq_true_eq, h.comm (key b)]
          constructor
          · rintro ⟨-, hrel⟩
            exact ⟨a, b, rfl, rfl, hrel.elim (fun x => x.2) fun x => x.2⟩
          · rintro ⟨a', b', ha, hb, hrel⟩
            cases ha
            cases hb
            have hne : i ≠ j := by
              rintro rfl
              cases hi.symm.trans hj
              rw [h.irrefl] at hrel
              cases hrel
            refine ⟨hlt, ?_⟩
            rcases Nat.lt_or_gt_of_ne hne with hij | hij
            · exact Or.inl ⟨hij, hrel⟩
            · exact Or.inr ⟨hij, hrel⟩

theorem neighbors_lt : ∀ i < xs.length, ∀ j ∈ neighbors key rel xs i, j < xs.length := by
  intro i _ j hj
  exact List.mem_range.1 (List.mem_filter.1 hj).1

theorem neighbors_nodup (i : Nat) : (neighbors key rel xs i).Nodup :=
  List.nodup_range.filter _

theorem neighbors_symm (h : Opposes rel) (i j : Nat) (hj : j ∈ neighbors key rel xs i) :
    i ∈ neighbors key rel xs j := by
  obtain ⟨a, b, ha, hb, hab⟩ := (mem_neighbors h).1 hj
  exact (mem_neighbors h).2 ⟨b, a, hb, ha, (h.comm _ _).trans hab⟩

/-- A walk over positions is a chain of related keys. -/
theorem connected_of_reach (h : Opposes rel) {i j : Nat} {a : α} (hi : xs[i]? = some a)
    (hreach : Explore.Reach (neighbors key rel xs) i j) :
    ∃ b, xs[j]? = some b ∧ Connected (Member key xs) rel (key a) (key b) := by
  induction hreach with
  | refl => exact ⟨a, hi, Relation.ReflTransGen.refl⟩
  | tail _ hstep ih =>
      obtain ⟨b, hb, hab⟩ := ih
      obtain ⟨b', c, hb', hc, hrel⟩ := (mem_neighbors h).1 hstep
      cases hb.symm.trans hb'
      exact ⟨c, hc, hab.tail
        ⟨⟨b, List.mem_of_getElem? hb, rfl⟩, ⟨c, List.mem_of_getElem? hc, rfl⟩, hrel⟩⟩

/-- A chain of related keys is a walk over positions. -/
theorem reach_of_connected (h : Opposes rel) {i : Nat} {a : α} {k : κ} (hi : xs[i]? = some a)
    (hchain : Connected (Member key xs) rel (key a) k) :
    ∃ j b, xs[j]? = some b ∧ key b = k ∧ Explore.Reach (neighbors key rel xs) i j := by
  induction hchain with
  | refl => exact ⟨i, a, hi, rfl, Relation.ReflTransGen.refl⟩
  | tail _ hlink ih =>
      obtain ⟨j, b, hj, rfl, hreach⟩ := ih
      obtain ⟨-, ⟨c, hc, rfl⟩, hrel⟩ := hlink
      obtain ⟨k, hk, hget⟩ := List.getElem_of_mem hc
      have hk? : xs[k]? = some c := List.getElem?_eq_some_iff.2 ⟨hk, hget⟩
      exact ⟨k, c, hk?, rfl, hreach.tail ((mem_neighbors h).2 ⟨b, c, hj, hk?, hrel⟩)⟩

/-- A position has a neighbour when its key is related to one of the list. -/
theorem neighbors_ne_nil (h : Opposes rel) {i : Nat} {a : α} (hi : xs[i]? = some a) :
    neighbors key rel xs i ≠ [] ↔ ∃ k, Linked (Member key xs) rel (key a) k := by
  constructor
  · intro hne
    obtain ⟨j, hj⟩ := List.exists_mem_of_ne_nil _ hne
    obtain ⟨a', b, ha', hb, hrel⟩ := (mem_neighbors h).1 hj
    cases hi.symm.trans ha'
    exact ⟨key b, ⟨a, List.mem_of_getElem? hi, rfl⟩, ⟨b, List.mem_of_getElem? hb, rfl⟩, hrel⟩
  · rintro ⟨_, -, ⟨b, hb, rfl⟩, hrel⟩
    obtain ⟨j, hj, hget⟩ := List.getElem_of_mem hb
    exact List.ne_nil_of_mem ((mem_neighbors h).2
      ⟨a, b, hi, List.getElem?_eq_some_iff.2 ⟨hj, hget⟩, hrel⟩)

end RelationGraph
