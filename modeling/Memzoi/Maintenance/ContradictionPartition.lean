/-
# The contradiction findings of a plan

Source: `maintenance.rs` (`detect_contradictions`, `detect_private_contradictions`,
`polarity_signature`).

Both detectors collect the components of the contradiction graph over their
candidates with a stack, and report those that hold a target of the plan. So the
findings of a plan are the components with a target, each once, and a
contradictory pair of such a component is one edge of one finding
(`ContradictionPartition`). What the eligible records are does not depend on the
order of the snapshot, and neither do the findings.
-/

import Memzoi.Lib.RelationGraph
import Memzoi.Maintenance.PlanRules
import Memzoi.Maintenance.RepositoryPlan

namespace Memzoi
namespace Maintenance

open Fallible
open RelationGraph (Opposes)

/-! ### What the findings say -/

/-- The two ends of an edge. -/
def MaintenanceConflictEdge.ends (e : MaintenanceConflictEdge) : String × String := (e.left, e.right)

/-- All edges of a list of findings, finding by finding. -/
def edgeEnds (findings : List FindingIdentity) : List (String × String) :=
  (findings.flatMap (·.conflictEdges)).map MaintenanceConflictEdge.ends

/-- The findings are the components of the contradiction graph that hold a target: no record is in
two of them, each is one component, and the contradictory pairs of these components are the edges,
each of them once in the whole plan. -/
structure ContradictionPartition {κ : Type} (eligible : κ → Prop) (contradict : κ → κ → Bool)
    (idOf : κ → String) (target : String → Prop) (findings : List FindingIdentity) : Prop where
  disjoint : findings.Pairwise fun f g => List.Disjoint f.recordIds g.recordIds
  component : ∀ f ∈ findings, ∃ a b, RelationGraph.Linked eligible contradict a b ∧
    ∀ id, id ∈ f.recordIds ↔ ∃ c, RelationGraph.Connected eligible contradict a c ∧ idOf c = id
  targeted : ∀ f ∈ findings, ∃ id ∈ f.recordIds, target id
  edge_inside : ∀ f ∈ findings, ∀ e ∈ f.conflictEdges, e.left ∈ f.recordIds ∧ e.right ∈ f.recordIds
  edges_once : (edgeEnds findings).Nodup
  edge_iff : ∀ left right, (left, right) ∈ edgeEnds findings ↔
    left < right ∧ ∃ a b, RelationGraph.Linked eligible contradict a b ∧ idOf a = left ∧ idOf b = right ∧
      ∃ c, RelationGraph.Connected eligible contradict a c ∧ target (idOf c)

/-- The contradiction findings of a plan. -/
def contradictionFindings (plan : MaintenancePlan) : List FindingIdentity :=
  (plan.findings.map (·.toFindingIdentity)).filter (·.kind = .highConfidenceContradiction)

theorem ContradictionPartition.of_perm {κ : Type} {eligible : κ → Prop} {contradict : κ → κ → Bool}
    {idOf : κ → String} {target : String → Prop} {findings others : List FindingIdentity}
    (hperm : findings.Perm others)
    (h : ContradictionPartition eligible contradict idOf target findings) :
    ContradictionPartition eligible contradict idOf target others := by
  have hedges : (edgeEnds findings).Perm (edgeEnds others) := (hperm.flatMap_right _).map _
  refine ⟨?_, fun f hf => h.component f (hperm.mem_iff.2 hf),
    fun f hf => h.targeted f (hperm.mem_iff.2 hf),
    fun f hf => h.edge_inside f (hperm.mem_iff.2 hf), (hedges.nodup_iff).1 h.edges_once, ?_⟩
  · exact (hperm.pairwise_iff fun {f g} hdisjoint => List.Disjoint.symm hdisjoint).1 h.disjoint
  · intro left right
    rw [← hedges.mem_iff]
    exact h.edge_iff left right

/-! ### Components of positions -/

section Components

variable {ρ : Type} {contradict : ρ → ρ → Bool} {candidates : List (LoadedRecord ρ)}

/-- The neighbours of a position among the candidates. -/
abbrev candidateNeighbors (contradict : ρ → ρ → Bool) (candidates : List (LoadedRecord ρ)) :
    Nat → List Nat :=
  RelationGraph.neighbors LoadedRecord.record contradict candidates

/-- The components of the detector: each is one, no position is in two, and every position with a
neighbour is in one. -/
theorem candidateComponents_spec (h : Opposes contradict) :
    (∀ c ∈ contradictionComponents (candidateNeighbors contradict candidates) candidates.length,
      Explore.IsComponent (candidateNeighbors contradict candidates) candidates.length c) ∧
    (contradictionComponents (candidateNeighbors contradict candidates)
      candidates.length).Pairwise List.Disjoint ∧
    ∀ i < candidates.length, candidateNeighbors contradict candidates i ≠ [] →
      ∃ c ∈ contradictionComponents (candidateNeighbors contradict candidates) candidates.length,
        i ∈ c := by
  obtain ⟨hsound, hcomplete⟩ := Explore.components_spec
    (pushes_unvisited (candidateNeighbors contradict candidates)) RelationGraph.neighbors_lt
    (RelationGraph.neighbors_symm h)
    (fun s hs => List.mem_range.1 hs) (fun i hi => absurd hi List.not_mem_nil)
  exact ⟨hsound, Explore.components_disjoint,
    fun i hi hne => hcomplete i (List.mem_range.2 hi) hne List.not_mem_nil⟩

/-- The id at a position. -/
def idAt (candidates : List (LoadedRecord ρ)) (i : Nat) : String :=
  (candidates[i]?.map LoadedRecord.id).getD ""

theorem idAt_of_get {i : Nat} {l : LoadedRecord ρ} (h : candidates[i]? = some l) :
    idAt candidates i = l.id := by
  rw [idAt, h]
  rfl

/-- Earlier positions have lesser ids. -/
theorem idAt_lt (hsorted : (candidates.map LoadedRecord.id).Pairwise (· < ·)) {i j : Nat}
    (hij : i < j) (hj : j < candidates.length) : idAt candidates i < idAt candidates j := by
  have hi : i < candidates.length := by omega
  rw [idAt_of_get (List.getElem?_eq_getElem hi), idAt_of_get (List.getElem?_eq_getElem hj)]
  have hlt := List.pairwise_iff_getElem.1 hsorted i j (by simpa using hi) (by simpa using hj) hij
  simpa using hlt

theorem idAt_inj (hsorted : (candidates.map LoadedRecord.id).Pairwise (· < ·)) {i j : Nat}
    (hi : i < candidates.length) (hj : j < candidates.length)
    (h : idAt candidates i = idAt candidates j) : i = j := by
  rcases Nat.lt_trichotomy i j with hij | hij | hij
  · exact absurd h (ne_of_lt (idAt_lt hsorted hij hj))
  · exact hij
  · exact absurd h.symm (ne_of_lt (idAt_lt hsorted hij hi))

/-- The ids of a component are those at its positions. -/
theorem mem_ids_atPositions {component : List Nat} (hinside : ∀ i ∈ component, i < candidates.length)
    {id : String} : id ∈ (atPositions candidates component).map LoadedRecord.id ↔
      ∃ i ∈ component, idAt candidates i = id := by
  rw [List.mem_map]
  constructor
  · rintro ⟨l, hl, rfl⟩
    obtain ⟨i, hi, hget⟩ := List.mem_filterMap.1 hl
    exact ⟨i, hi, idAt_of_get hget⟩
  · rintro ⟨i, hi, rfl⟩
    have hlt := hinside i hi
    have hget : candidates[i]? = some candidates[i] := List.getElem?_eq_getElem hlt
    exact ⟨candidates[i], List.mem_filterMap.2 ⟨i, hi, hget⟩, (idAt_of_get hget).symm⟩

/-- A component concerns the selection when it holds a selected id. -/
theorem touches_iff {selected : List String} {group : List (LoadedRecord ρ)} :
    touches selected group = true ↔ ∃ id ∈ group.map LoadedRecord.id, id ∈ selected := by
  simp only [touches, List.any_eq_true, List.contains_iff_mem, List.mem_map]
  constructor
  · rintro ⟨l, hl, hid⟩
    exact ⟨l.id, ⟨l, hl, rfl⟩, hid⟩
  · rintro ⟨_, ⟨l, hl, rfl⟩, hid⟩
    exact ⟨l, hl, hid⟩

/-! ### Edges of positions -/

theorem mem_edgePairs {adjacency : Nat → List Nat} {component : List Nat} {i j : Nat} :
    (i, j) ∈ edgePairs adjacency component ↔
      i ∈ component ∧ j ∈ adjacency i ∧ i < j ∧ j ∈ component := by
  simp only [edgePairs, List.mem_flatMap, List.mem_map, List.mem_filter, Bool.and_eq_true,
    decide_eq_true_eq, List.contains_iff_mem, Prod.mk.injEq]
  constructor
  · rintro ⟨i', hi, j', ⟨hj, hlt, hin⟩, rfl, rfl⟩
    exact ⟨hi, hj, hlt, hin⟩
  · rintro ⟨hi, hj, hlt, hin⟩
    exact ⟨i, hi, j, ⟨hj, hlt, hin⟩, rfl, rfl⟩

theorem edgePairs_nodup {adjacency : Nat → List Nat} (hadjacency : ∀ i, (adjacency i).Nodup)
    {component : List Nat} (h : component.Nodup) : (edgePairs adjacency component).Nodup := by
  rw [edgePairs, List.nodup_flatMap]
  refine ⟨fun i _ => ?_, ?_⟩
  · refine ((hadjacency i).filter _).map fun j k hjk => ?_
    exact (Prod.mk.inj hjk).2
  · refine h.imp fun {i j} hne => ?_
    intro p hi hj
    obtain ⟨_, _, rfl⟩ := List.mem_map.1 hi
    obtain ⟨_, _, hp⟩ := List.mem_map.1 hj
    exact hne (Prod.mk.inj hp).1.symm

/-- No pair of positions is an edge of two components, or twice of one. -/
theorem allPairs_nodup {adjacency : Nat → List Nat} (hadjacency : ∀ i, (adjacency i).Nodup)
    {components : List (List Nat)} (hnodup : ∀ c ∈ components, c.Nodup)
    (hdisjoint : components.Pairwise List.Disjoint) :
    (components.flatMap (edgePairs adjacency)).Nodup := by
  rw [List.nodup_flatMap]
  refine ⟨fun c hc => edgePairs_nodup hadjacency (hnodup c hc), hdisjoint.imp fun hdisjoint => ?_⟩
  rintro ⟨i, j⟩ hfirst hsecond
  exact hdisjoint (mem_edgePairs.1 hfirst).1 (mem_edgePairs.1 hsecond).1

/-- The edges of a component in ids. -/
theorem conflictEdges_ends (hsorted : (candidates.map LoadedRecord.id).Pairwise (· < ·))
    {digest : LoadedRecord ρ → LoadedRecord ρ → String} {adjacency : Nat → List Nat}
    {component : List Nat} (hinside : ∀ i ∈ component, i < candidates.length) :
    ((conflictEdges digest candidates adjacency component).map MaintenanceConflictEdge.ends).Perm
      ((edgePairs adjacency component).map fun p => (idAt candidates p.1, idAt candidates p.2)) := by
  refine ((List.perm_insertionSort _ _).map _).trans (List.Perm.of_eq ?_)
  rw [List.map_filterMap, ← List.filterMap_eq_map']
  refine List.filterMap_congr fun p hp => ?_
  obtain ⟨hi, -, hlt, hj⟩ := mem_edgePairs.1 hp
  have ha := List.getElem?_eq_getElem (hinside p.1 hi)
  have hb := List.getElem?_eq_getElem (hinside p.2 hj)
  have hids := idAt_lt hsorted hlt (hinside p.2 hj)
  rw [idAt_of_get ha, idAt_of_get hb] at hids ⊢
  simp only [ha, hb, conflictEdge, if_pos hids, Option.map_some, MaintenanceConflictEdge.ends]

/-! ### The detector -/

/-- The findings of the components that concern the selection. -/
def componentFindings (candidates : List (LoadedRecord ρ)) (adjacency : Nat → List Nat)
    (selected : List String) (finding : List Nat → FindingIdentity) : List FindingIdentity :=
  ((contradictionComponents adjacency candidates.length).filter fun component =>
    touches selected (atPositions candidates component)).map finding

/-- What a finding says of its component, whatever evidence it carries. -/
def Reports (candidates : List (LoadedRecord ρ)) (adjacency : Nat → List Nat) (component : List Nat)
    (finding : FindingIdentity) : Prop :=
  (∀ id, id ∈ finding.recordIds ↔ id ∈ (atPositions candidates component).map LoadedRecord.id) ∧
    ∃ digest, finding.conflictEdges = conflictEdges digest candidates adjacency component

theorem partition_of_components (h : Opposes contradict)
    (hsorted : (candidates.map LoadedRecord.id).Pairwise (· < ·)) {idOf : ρ → String}
    (hid : ∀ l ∈ candidates, l.id = idOf l.record) {selected : List String}
    {finding : List Nat → FindingIdentity}
    (hreports : ∀ c, Reports candidates (candidateNeighbors contradict candidates) c (finding c)) :
    ContradictionPartition (RelationGraph.Member LoadedRecord.record candidates) contradict idOf
      (· ∈ selected)
      (componentFindings candidates (candidateNeighbors contradict candidates) selected finding) := by
  obtain ⟨hsound, hdisjoint, hcomplete⟩ := (candidateComponents_spec h : _ ∧ _ ∧
    ∀ i < candidates.length, candidateNeighbors contradict candidates i ≠ [] → _)
  generalize hcomponents : contradictionComponents (candidateNeighbors contradict candidates)
    candidates.length = components at hsound hdisjoint hcomplete
  have hinside : ∀ c ∈ components, ∀ i ∈ c, i < candidates.length := by
    intro c hc i hi
    obtain ⟨start, hstart, -, -, hmem⟩ := hsound c hc
    exact ((hmem i).1 hi).lt RelationGraph.neighbors_lt hstart
  have hrecord : ∀ {i : Nat} {l : LoadedRecord ρ}, candidates[i]? = some l →
      idAt candidates i = idOf l.record := by
    intro i l hl
    rw [idAt_of_get hl, hid l (List.mem_of_getElem? hl)]
  -- the ids of a component are those of the chains from any of its positions
  have hchain : ∀ c ∈ components, ∀ i ∈ c, ∀ l, candidates[i]? = some l → ∀ id,
      id ∈ (atPositions candidates c).map LoadedRecord.id ↔ ∃ r, RelationGraph.Connected
        (RelationGraph.Member LoadedRecord.record candidates) contradict l.record r ∧ idOf r = id := by
    intro c hc i hi l hl id
    obtain ⟨start, -, -, -, hmem⟩ := hsound c hc
    have hback : Explore.Reach (candidateNeighbors contradict candidates) i start :=
      ((hmem i).1 hi).symm (RelationGraph.neighbors_symm h)
    rw [mem_ids_atPositions (hinside c hc)]
    constructor
    · rintro ⟨j, hj, rfl⟩
      obtain ⟨l', hl', hconnected⟩ := RelationGraph.connected_of_reach h hl
        (hback.trans ((hmem j).1 hj))
      exact ⟨l'.record, hconnected, (hrecord hl').symm⟩
    · rintro ⟨r, hconnected, rfl⟩
      obtain ⟨j, l', hl', rfl, hreach⟩ := RelationGraph.reach_of_connected h hl hconnected
      exact ⟨j, (hmem j).2 (((hmem i).1 hi).trans hreach), hrecord hl'⟩
  have hkept : ∀ c, c ∈ components.filter (fun component =>
      touches selected (atPositions candidates component)) ↔ c ∈ components ∧
        ∃ id ∈ (atPositions candidates c).map LoadedRecord.id, id ∈ selected := by
    intro c
    rw [List.mem_filter, touches_iff]
  have hedges : (edgeEnds (componentFindings candidates (candidateNeighbors contradict candidates)
      selected finding)).Perm (((components.filter fun component =>
        touches selected (atPositions candidates component)).flatMap
          (edgePairs (candidateNeighbors contradict candidates))).map
            fun p => (idAt candidates p.1, idAt candidates p.2)) := by
    rw [edgeEnds, componentFindings, hcomponents, List.flatMap_map, List.map_flatMap,
      List.map_flatMap]
    refine List.Perm.flatMap_left _ fun c hc => ?_
    obtain ⟨-, digest, hdigest⟩ := hreports c
    rw [hdigest]
    exact conflictEdges_ends hsorted (hinside c ((hkept c).1 hc).1)
  refine ⟨?_, ?_, ?_, ?_, ?_, ?_⟩
  · rw [componentFindings, hcomponents, List.pairwise_map]
    refine (hdisjoint.filter _).imp_of_mem fun {c c'} hc hc' hcc id hf hf' => ?_
    rw [(hreports c).1, mem_ids_atPositions (hinside c ((hkept c).1 hc).1)] at hf
    rw [(hreports c').1, mem_ids_atPositions (hinside c' ((hkept c').1 hc').1)] at hf'
    obtain ⟨i, hi, rfl⟩ := hf
    obtain ⟨j, hj, hij⟩ := hf'
    have hsame := idAt_inj hsorted (hinside c' ((hkept c').1 hc').1 j hj)
      (hinside c ((hkept c).1 hc).1 i hi) hij
    exact hcc hi (hsame ▸ hj)
  · intro f hf
    rw [componentFindings, hcomponents] at hf
    obtain ⟨c, hc, rfl⟩ := List.mem_map.1 hf
    obtain ⟨hmem, -⟩ := (hkept c).1 hc
    obtain ⟨start, hstart, hne, -, hreach⟩ := hsound c hmem
    have hget : candidates[start]? = some candidates[start] := List.getElem?_eq_getElem hstart
    obtain ⟨k, hlink⟩ := (RelationGraph.neighbors_ne_nil h hget).1 hne
    refine ⟨_, k, hlink, fun id => ?_⟩
    rw [(hreports c).1]
    exact hchain c hmem start ((hreach start).2 Relation.ReflTransGen.refl) _ hget id
  · intro f hf
    rw [componentFindings, hcomponents] at hf
    obtain ⟨c, hc, rfl⟩ := List.mem_map.1 hf
    obtain ⟨-, id, hid, hselected⟩ := (hkept c).1 hc
    exact ⟨id, ((hreports c).1 id).2 hid, hselected⟩
  · intro f hf e he
    rw [componentFindings, hcomponents] at hf
    obtain ⟨c, hc, rfl⟩ := List.mem_map.1 hf
    obtain ⟨hids, digest, hdigest⟩ := hreports c
    have hin := hinside c ((hkept c).1 hc).1
    rw [hdigest] at he
    have hends := (conflictEdges_ends hsorted hin).mem_iff.1 (List.mem_map_of_mem he)
    obtain ⟨p, hp, hpe⟩ := List.mem_map.1 hends
    obtain ⟨hi, -, -, hj⟩ := mem_edgePairs.1 hp
    rw [hids, hids, mem_ids_atPositions hin, mem_ids_atPositions hin]
    exact ⟨⟨p.1, hi, (Prod.mk.inj hpe).1⟩, ⟨p.2, hj, (Prod.mk.inj hpe).2⟩⟩
  · rw [hedges.nodup_iff]
    have hpairs : ∀ p ∈ (components.filter fun component =>
        touches selected (atPositions candidates component)).flatMap
          (edgePairs (candidateNeighbors contradict candidates)),
        p.1 < candidates.length ∧ p.2 < candidates.length := by
      intro p hp
      obtain ⟨c, hc, hp⟩ := List.mem_flatMap.1 hp
      obtain ⟨hi, -, -, hj⟩ := mem_edgePairs.1 hp
      exact ⟨hinside c ((hkept c).1 hc).1 _ hi, hinside c ((hkept c).1 hc).1 _ hj⟩
    refine List.Nodup.map_on (fun p hp q hq hpq => ?_) (allPairs_nodup
      RelationGraph.neighbors_nodup (fun c hc => ?_) (hdisjoint.filter _))
    · obtain ⟨hp₁, hp₂⟩ := hpairs p hp
      obtain ⟨hq₁, hq₂⟩ := hpairs q hq
      exact Prod.ext (idAt_inj hsorted hp₁ hq₁ (Prod.mk.inj hpq).1)
        (idAt_inj hsorted hp₂ hq₂ (Prod.mk.inj hpq).2)
    · obtain ⟨_, -, -, hpairwise, -⟩ := hsound c ((hkept c).1 hc).1
      exact hpairwise.imp fun hlt => ne_of_lt hlt
  · intro left right
    rw [hedges.mem_iff, List.mem_map]
    constructor
    · rintro ⟨p, hp, hpe⟩
      obtain ⟨c, hc, hp⟩ := List.mem_flatMap.1 hp
      obtain ⟨hi, hj, hlt, hjc⟩ := mem_edgePairs.1 hp
      obtain ⟨hmem, id, hids, hselected⟩ := (hkept c).1 hc
      obtain ⟨a, b, ha, hb, hab⟩ := (RelationGraph.mem_neighbors h).1 hj
      obtain ⟨hleft, hright⟩ := Prod.mk.inj hpe
      obtain ⟨r, hconnected, rfl⟩ := (hchain c hmem p.1 hi a ha id).1 hids
      refine ⟨?_, a.record, b.record, ⟨⟨a, List.mem_of_getElem? ha, rfl⟩,
        ⟨b, List.mem_of_getElem? hb, rfl⟩, hab⟩, ?_, ?_, r, hconnected, hselected⟩
      · rw [← hleft, ← hright]
        exact idAt_lt hsorted hlt (hinside c hmem p.2 hjc)
      · rw [← hrecord ha, hleft]
      · rw [← hrecord hb, hright]
    · rintro ⟨hlt, _, _, ⟨⟨a, ha, rfl⟩, ⟨b, hb, rfl⟩, hab⟩, rfl, rfl, r, hconnected, hselected⟩
      obtain ⟨i, hi, hgetA⟩ := List.getElem_of_mem ha
      obtain ⟨j, hj, hgetB⟩ := List.getElem_of_mem hb
      have ha? : candidates[i]? = some a := List.getElem?_eq_some_iff.2 ⟨hi, hgetA⟩
      have hb? : candidates[j]? = some b := List.getElem?_eq_some_iff.2 ⟨hj, hgetB⟩
      have hadjacent : j ∈ candidateNeighbors contradict candidates i :=
        (RelationGraph.mem_neighbors h).2 ⟨a, b, ha?, hb?, hab⟩
      have hij : i < j := by
        by_contra hnot
        rw [← hrecord ha?, ← hrecord hb?] at hlt
        rcases Nat.lt_or_eq_of_le (Nat.le_of_not_lt hnot) with hji | rfl
        · exact absurd hlt (lt_asymm (idAt_lt hsorted hji hi))
        · exact absurd hlt (lt_irrefl _)
      obtain ⟨c, hc, hic⟩ := hcomplete i hi (List.ne_nil_of_mem hadjacent)
      obtain ⟨start, -, -, -, hmem⟩ := hsound c hc
      have hjc : j ∈ c := (hmem j).2 (((hmem i).1 hic).tail hadjacent)
      refine ⟨(i, j), List.mem_flatMap.2 ⟨c, (hkept c).2 ⟨hc, idOf r, ?_, hselected⟩,
        mem_edgePairs.2 ⟨hic, hadjacent, hij, hjc⟩⟩, ?_⟩
      · exact (hchain c hc i hic a ha? _).2 ⟨r, hconnected, rfl⟩
      · rw [hrecord ha?, hrecord hb?]

end Components

end Maintenance
end Memzoi
