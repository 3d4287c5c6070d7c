/-
# Search with a stack

A library of its own: the loop that pops a vertex, skips it when it was visited,
and otherwise visits it and pushes its neighbours. The loop is bounded by fuel;
`explore_closed` says that fuel for every pending vertex and every edge out of
an unvisited one is enough for the result to be closed under neighbours, and
`explore_least` that the result lies in every closed set that holds its start.
-/

import Mathlib

namespace Explore

/-- Pop, skip or visit, push. What is pushed for a vertex may leave out visited neighbours. -/
def explore (push : List Nat → Nat → List Nat) : Nat → List Nat → List Nat → List Nat
  | 0, _, visited => visited
  | _ + 1, [], visited => visited
  | fuel + 1, i :: pending, visited =>
    if i ∈ visited then explore push fuel pending visited
    else explore push fuel (push (i :: visited) i ++ pending) (i :: visited)

/-- The number of edges out of the vertices that are not visited. -/
def load (neighbors : Nat → List Nat) (vertices visited : List Nat) : Nat :=
  ((vertices.filter (· ∉ visited)).map fun i => (neighbors i).length).sum

/-- Visiting a vertex takes its edges off the load. -/
theorem load_visit (neighbors : Nat → List Nat) {vertices visited : List Nat} {i : Nat}
    (hnodup : vertices.Nodup) (hi : i ∈ vertices) (hnew : i ∉ visited) :
    load neighbors vertices (i :: visited) + (neighbors i).length =
      load neighbors vertices visited := by
  unfold load
  induction vertices with
  | nil => cases hi
  | cons v vertices ih =>
      obtain ⟨hv, hrest⟩ := List.nodup_cons.1 hnodup
      rcases List.mem_cons.1 hi with rfl | hi
      · -- the rest does not hold the vertex, so its filter is as before
        have hsame : vertices.filter (fun j => j ∉ i :: visited) =
            vertices.filter (fun j => j ∉ visited) := by
          apply List.filter_congr
          intro j hj
          have hne : j ≠ i := fun h => hv (h ▸ hj)
          simp [hne]
        rw [List.filter_cons_of_neg (by simp), List.filter_cons_of_pos (by simpa using hnew), hsame,
          List.map_cons, List.sum_cons]
        exact Nat.add_comm _ _
      · have hne : v ≠ i := fun h => hv (h ▸ hi)
        have hrec := ih hrest hi
        by_cases hvis : v ∈ visited
        · rw [List.filter_cons_of_neg (by simp [hvis]), List.filter_cons_of_neg (by simp [hvis])]
          exact hrec
        · rw [List.filter_cons_of_pos (by simp [hvis, hne]),
            List.filter_cons_of_pos (by simpa using hvis), List.map_cons, List.sum_cons,
            List.map_cons, List.sum_cons]
          omega

/-- What a search pushes: neighbours only, and every neighbour that is not visited. -/
structure Pushes (neighbors : Nat → List Nat) (push : List Nat → Nat → List Nat) : Prop where
  sound : ∀ visited i j, j ∈ push visited i → j ∈ neighbors i
  complete : ∀ visited i j, j ∈ neighbors i → j ∈ push visited i ∨ j ∈ visited
  length_le : ∀ visited i, (push visited i).length ≤ (neighbors i).length

variable {neighbors : Nat → List Nat} {push : List Nat → Nat → List Nat}

theorem visited_subset_explore {fuel : Nat} {pending visited : List Nat} :
    ∀ i ∈ visited, i ∈ explore push fuel pending visited := by
  induction fuel generalizing pending visited with
  | zero => exact fun i hi => hi
  | succ fuel ih =>
      intro i hi
      cases pending with
      | nil => exact hi
      | cons j pending =>
          rw [explore]
          split
          · exact ih i hi
          · exact ih i (List.mem_cons_of_mem _ hi)

/-- A set that is closed under neighbours and holds the start holds the result. -/
theorem explore_least (hpush : Pushes neighbors push) (s : Nat → Prop)
    (hclosed : ∀ i, s i → ∀ j ∈ neighbors i, s j) {fuel : Nat} {pending visited : List Nat}
    (hpending : ∀ i ∈ pending, s i) (hvisited : ∀ i ∈ visited, s i) :
    ∀ i ∈ explore push fuel pending visited, s i := by
  induction fuel generalizing pending visited with
  | zero => exact hvisited
  | succ fuel ih =>
      cases pending with
      | nil => exact hvisited
      | cons j pending =>
          have hj : s j := hpending j List.mem_cons_self
          have hrest : ∀ i ∈ pending, s i := fun i hi => hpending i (List.mem_cons_of_mem _ hi)
          rw [explore]
          split
          · exact ih hrest hvisited
          · refine ih ?_ ?_
            · intro i hi
              rcases List.mem_append.1 hi with hi | hi
              · exact hclosed j hj i (hpush.sound _ _ _ hi)
              · exact hrest i hi
            · intro i hi
              rcases List.mem_cons.1 hi with rfl | hi
              · exact hj
              · exact hvisited i hi

/-- With enough fuel the search ends on a set that holds its start and is closed under neighbours. -/
theorem explore_closed (hpush : Pushes neighbors push) {vertices : List Nat}
    (hnodup : vertices.Nodup) (hinside : ∀ i ∈ vertices, ∀ j ∈ neighbors i, j ∈ vertices)
    {fuel : Nat} {pending visited : List Nat} (hpending : ∀ i ∈ pending, i ∈ vertices)
    (hopen : ∀ i ∈ visited, ∀ j ∈ neighbors i, j ∈ visited ∨ j ∈ pending)
    (hfuel : pending.length + load neighbors vertices visited ≤ fuel) :
    (∀ i ∈ pending, i ∈ explore push fuel pending visited) ∧
      ∀ i ∈ explore push fuel pending visited, ∀ j ∈ neighbors i,
        j ∈ explore push fuel pending visited := by
  induction fuel generalizing pending visited with
  | zero =>
      have hnil : pending = [] := List.length_eq_zero_iff.1 (by omega)
      subst hnil
      refine ⟨fun i hi => absurd hi List.not_mem_nil, fun i hi j hj => ?_⟩
      exact (hopen i hi j hj).resolve_right List.not_mem_nil
  | succ fuel ih =>
      cases pending with
      | nil =>
          refine ⟨fun i hi => absurd hi List.not_mem_nil, fun i hi j hj => ?_⟩
          exact (hopen i hi j hj).resolve_right List.not_mem_nil
      | cons k pending =>
          rw [List.length_cons] at hfuel
          have hk : k ∈ vertices := hpending k List.mem_cons_self
          have hrest : ∀ i ∈ pending, i ∈ vertices :=
            fun i hi => hpending i (List.mem_cons_of_mem _ hi)
          rw [explore]
          split
          · rename_i hseen
            have hopen' : ∀ i ∈ visited, ∀ j ∈ neighbors i, j ∈ visited ∨ j ∈ pending := by
              intro i hi j hj
              rcases hopen i hi j hj with hj | hj
              · exact Or.inl hj
              · rcases List.mem_cons.1 hj with rfl | hj
                · exact Or.inl hseen
                · exact Or.inr hj
            obtain ⟨hdone, hclosed⟩ := ih hrest hopen' (by omega)
            refine ⟨fun i hi => ?_, hclosed⟩
            rcases List.mem_cons.1 hi with rfl | hi
            · exact visited_subset_explore i hseen
            · exact hdone i hi
          · rename_i hnew
            have hload := load_visit neighbors hnodup hk hnew
            have hlength := hpush.length_le (k :: visited) k
            have hpending' : ∀ i ∈ push (k :: visited) k ++ pending, i ∈ vertices := by
              intro i hi
              rcases List.mem_append.1 hi with hi | hi
              · exact hinside k hk i (hpush.sound _ _ _ hi)
              · exact hrest i hi
            have hopen' : ∀ i ∈ k :: visited, ∀ j ∈ neighbors i,
                j ∈ k :: visited ∨ j ∈ push (k :: visited) k ++ pending := by
              intro i hi j hj
              rcases List.mem_cons.1 hi with rfl | hi
              · rcases hpush.complete (i :: visited) i j hj with hj | hj
                · exact Or.inr (List.mem_append_left _ hj)
                · exact Or.inl hj
              · rcases hopen i hi j hj with hj | hj
                · exact Or.inl (List.mem_cons_of_mem _ hj)
                · rcases List.mem_cons.1 hj with rfl | hj
                  · exact Or.inl List.mem_cons_self
                  · exact Or.inr (List.mem_append_right _ hj)
            obtain ⟨hdone, hclosed⟩ := ih hpending' hopen' (by
              rw [List.length_append]
              omega)
            refine ⟨fun i hi => ?_, hclosed⟩
            rcases List.mem_cons.1 hi with rfl | hi
            · exact visited_subset_explore i List.mem_cons_self
            · exact hdone i (List.mem_append_right _ hi)

/-! ### Components -/

/-- The second vertex is reached from the first along the edges. -/
abbrev Reach (neighbors : Nat → List Nat) : Nat → Nat → Prop :=
  Relation.ReflTransGen fun a b => b ∈ neighbors a

theorem Reach.mem {visited : List Nat} (hclosed : ∀ i ∈ visited, ∀ j ∈ neighbors i, j ∈ visited)
    {i j : Nat} (h : Reach neighbors i j) (hi : i ∈ visited) : j ∈ visited := by
  induction h with
  | refl => exact hi
  | tail _ hstep ih => exact hclosed _ ih _ hstep

theorem Reach.lt {size : Nat} (hinside : ∀ i < size, ∀ j ∈ neighbors i, j < size) {i j : Nat}
    (h : Reach neighbors i j) (hi : i < size) : j < size := by
  induction h with
  | refl => exact hi
  | tail _ hstep ih => exact hinside _ ih _ hstep

theorem Reach.symm (hsymm : ∀ i j, j ∈ neighbors i → i ∈ neighbors j) {i j : Nat}
    (h : Reach neighbors i j) : Reach neighbors j i := by
  induction h with
  | refl => exact Relation.ReflTransGen.refl
  | tail _ hstep ih => exact Relation.ReflTransGen.head (hsymm _ _ hstep) ih

/-- A search from one vertex adds what can be reached from it. -/
theorem mem_explore_iff (hpush : Pushes neighbors push) {vertices : List Nat}
    (hnodup : vertices.Nodup) (hinside : ∀ i ∈ vertices, ∀ j ∈ neighbors i, j ∈ vertices)
    {start : Nat} (hstart : start ∈ vertices) {visited : List Nat}
    (hclosed : ∀ i ∈ visited, ∀ j ∈ neighbors i, j ∈ visited) (i : Nat) :
    i ∈ explore push (1 + load neighbors vertices visited) [start] visited ↔
      i ∈ visited ∨ Reach neighbors start i := by
  have hpending : ∀ j ∈ [start], j ∈ vertices := by
    intro j hj
    rwa [List.mem_singleton.1 hj]
  have hfuel : [start].length + load neighbors vertices visited ≤
      1 + load neighbors vertices visited := by simp
  obtain ⟨hdone, hall⟩ := explore_closed hpush hnodup hinside hpending
    (fun j hj k hk => Or.inl (hclosed j hj k hk)) hfuel
  constructor
  · intro hi
    refine explore_least hpush
      (fun j => j ∈ visited ∨ Reach neighbors start j) ?_ ?_ ?_ i hi
    · rintro j (hj | hj) k hk
      · exact Or.inl (hclosed j hj k hk)
      · exact Or.inr (hj.tail hk)
    · intro j hj
      rw [List.mem_singleton.1 hj]
      exact Or.inr Relation.ReflTransGen.refl
    · exact fun j hj => Or.inl hj
  · rintro (hi | hi)
    · exact visited_subset_explore i hi
    · induction hi with
      | refl => exact hdone start (List.mem_singleton.2 rfl)
      | tail _ hstep ih => exact hall _ ih _ hstep

/-- One search from every start that has neighbours and was not reached before; the vertices each
search adds, in order. -/
def components (neighbors : Nat → List Nat) (push : List Nat → Nat → List Nat) (size : Nat) :
    List Nat → List Nat → List (List Nat)
  | [], _ => []
  | start :: starts, visited =>
    if start ∈ visited ∨ neighbors start = [] then components neighbors push size starts visited
    else
      let visited' := explore push (1 + load neighbors (List.range size) visited) [start] visited
      (List.range size).filter (fun i => i ∈ visited' ∧ i ∉ visited) ::
        components neighbors push size starts visited'

/-- A list of vertices that is one component: the vertices reached from a start with neighbours. -/
def IsComponent (neighbors : Nat → List Nat) (size : Nat) (component : List Nat) : Prop :=
  ∃ start < size, neighbors start ≠ [] ∧ component.Pairwise (· < ·) ∧
    ∀ i, i ∈ component ↔ Reach neighbors start i

variable {size : Nat}

/-- On a symmetric graph every search adds one component, and every start with neighbours gets
into one. -/
theorem components_spec (hpush : Pushes neighbors push)
    (hinside : ∀ i < size, ∀ j ∈ neighbors i, j < size)
    (hsymm : ∀ i j, j ∈ neighbors i → i ∈ neighbors j) {starts : List Nat}
    (hstarts : ∀ s ∈ starts, s < size) {visited : List Nat}
    (hclosed : ∀ i ∈ visited, ∀ j ∈ neighbors i, j ∈ visited) :
    (∀ c ∈ components neighbors push size starts visited, IsComponent neighbors size c) ∧
      ∀ s ∈ starts, neighbors s ≠ [] → s ∉ visited →
        ∃ c ∈ components neighbors push size starts visited, s ∈ c := by
  induction starts generalizing visited with
  | nil => exact ⟨fun c hc => absurd hc List.not_mem_nil, fun s hs => absurd hs List.not_mem_nil⟩
  | cons start starts ih =>
      have hstart : start < size := hstarts start List.mem_cons_self
      have hrest : ∀ s ∈ starts, s < size := fun s hs => hstarts s (List.mem_cons_of_mem _ hs)
      rw [components]
      split
      · rename_i hskip
        obtain ⟨hsound, hcomplete⟩ := ih hrest hclosed
        refine ⟨hsound, fun s hs hne hnew => ?_⟩
        rcases List.mem_cons.1 hs with rfl | hs
        · exact absurd hskip (not_or.2 ⟨hnew, hne⟩)
        · exact hcomplete s hs hne hnew
      · rename_i htake
        obtain ⟨hnew, hne⟩ := not_or.1 htake
        have hmem := mem_explore_iff hpush List.nodup_range
          (fun i hi j hj => List.mem_range.2 (hinside i (List.mem_range.1 hi) j hj))
          (List.mem_range.2 hstart) hclosed
        -- what is reached from the start is new: a visited vertex would lead back to it
        have hdisjoint : ∀ i, Reach neighbors start i →
            i ∉ visited := by
          intro i hi hvisited
          exact hnew ((hi.symm hsymm).mem hclosed hvisited)
        have hcomponent : ∀ i, i ∈ (List.range size).filter (fun i =>
            i ∈ explore push (1 + load neighbors (List.range size) visited) [start] visited ∧
              i ∉ visited) ↔ Reach neighbors start i := by
          intro i
          rw [List.mem_filter, decide_eq_true_eq, hmem, List.mem_range]
          constructor
          · rintro ⟨_, hreach | hreach, hout⟩
            · exact absurd hreach hout
            · exact hreach
          · exact fun hreach => ⟨hreach.lt hinside hstart, Or.inr hreach, hdisjoint i hreach⟩
        have hclosed' : ∀ i ∈ explore push (1 + load neighbors (List.range size) visited) [start]
            visited, ∀ j ∈ neighbors i,
            j ∈ explore push (1 + load neighbors (List.range size) visited) [start] visited := by
          intro i hi j hj
          rcases (hmem i).1 hi with hi | hi
          · exact (hmem j).2 (Or.inl (hclosed i hi j hj))
          · exact (hmem j).2 (Or.inr (hi.tail hj))
        obtain ⟨hsound, hcomplete⟩ := ih hrest hclosed'
        refine ⟨?_, ?_⟩
        · intro c hc
          rcases List.mem_cons.1 hc with rfl | hc
          · exact ⟨start, hstart, hne, List.Pairwise.filter _ List.pairwise_lt_range, hcomponent⟩
          · exact hsound c hc
        · intro s hs hsne hsnew
          by_cases hseen : s ∈ explore push (1 + load neighbors (List.range size) visited) [start]
              visited
          · have hreach := ((hmem s).1 hseen).resolve_left hsnew
            exact ⟨_, List.mem_cons_self, (hcomponent s).2 hreach⟩
          · have hs' : s ∈ starts := by
              rcases List.mem_cons.1 hs with rfl | hs
              · exact absurd ((hmem s).2 (Or.inr Relation.ReflTransGen.refl)) hseen
              · exact hs
            obtain ⟨c, hc, hsc⟩ := hcomplete s hs' hsne hseen
            exact ⟨c, List.mem_cons_of_mem _ hc, hsc⟩

/-- A component holds no vertex that was visited before its search. -/
theorem components_fresh {starts : List Nat} {visited : List Nat} :
    ∀ c ∈ components neighbors push size starts visited, ∀ i ∈ c, i ∉ visited := by
  induction starts generalizing visited with
  | nil => exact fun c hc => absurd hc List.not_mem_nil
  | cons start starts ih =>
      rw [components]
      split
      · exact ih
      · intro c hc i hi
        rcases List.mem_cons.1 hc with rfl | hc
        · exact (of_decide_eq_true (List.mem_filter.1 hi).2).2
        · exact fun hvisited => ih c hc i hi (visited_subset_explore i hvisited)

/-- No vertex is in two components. -/
theorem components_disjoint {starts : List Nat} {visited : List Nat} :
    (components neighbors push size starts visited).Pairwise List.Disjoint := by
  induction starts generalizing visited with
  | nil => exact List.Pairwise.nil
  | cons start starts ih =>
      rw [components]
      split
      · exact ih
      · refine List.pairwise_cons.2 ⟨fun c hc i hfirst hi => ?_, ih⟩
        exact components_fresh c hc i hi (of_decide_eq_true (List.mem_filter.1 hfirst).2).1

end Explore
