/-
# What a classification creates

Source: `capture.rs` (`classify_actions_with_reserved`, `reserve_proposal_id`).

A candidate that is marked to create is apart from the inventory and from every
candidate before it, whatever these are marked (`Classified.apart`). So a run
creates no memory twice (`ClassifyRun.createsOnce`), and a duplicate goes back
to an entry of the inventory or to a candidate that is no duplicate
(`ClassifyRun.rooted`).
-/

import Memzoi.Capture.Classification

namespace Memzoi
namespace Capture

open Fallible

/-! ### Clashes -/

section Clash

variable [Text.Unicode] [CaptureDigests]

def ExactDuplicate (m n : CaptureMemoryDraft) : Prop := draftKey m = draftKey n

/-- The drafts are exact duplicates or possible conflicts. -/
def Clash (m n : CaptureMemoryDraft) : Prop :=
  ExactDuplicate m n ∨ conflictKey m = conflictKey n

/-- Among the candidates that create, no two clash, none clashes with the inventory, and their
proposals have identifiers of their own. -/
structure CreatesOnce (inventory : List InventoryEntry) (reservedIds : List String)
    (candidates : List CaptureCandidate) : Prop where
  apart : (candidates.filter (·.action.creates)).Pairwise fun a b => ¬ Clash a.memory b.memory
  fresh : ∀ c ∈ candidates, c.action.creates = true →
    ∀ entry ∈ inventory, ¬ Clash entry.memory c.memory
  ids : (candidates.filterMap (·.action.proposalId?)).Nodup
  unreserved : ∀ id ∈ candidates.filterMap (·.action.proposalId?), id ∉ reservedIds

/-! ### Proposal identifiers -/

omit [Text.Unicode] [CaptureDigests] in
theorem reserveFrom_spec {base id : String} {used used' : List String} {steps suffix : Nat}
    (h : reserveFrom base used steps suffix = .ok (id, used')) :
    id ∉ used ∧ used' = id :: used := by
  induction steps generalizing suffix with
  | zero => cases h
  | succ steps ih =>
      rw [reserveFrom] at h
      generalize (if suffix = 1 then base else s!"{base}-{suffix}") = candidate at h
      by_cases hused : candidate ∈ used
      · exact ih ((if_pos hused).symm.trans h)
      · obtain ⟨rfl, rfl⟩ := Prod.mk.inj (Except.ok.inj ((if_neg hused).symm.trans h))
        exact ⟨hused, rfl⟩

/-! ### One candidate -/

omit [Text.Unicode] [CaptureDigests] in
theorem sortMatches_eq_nil {found : List CaptureMatch} : sortMatches found = [] ↔ found = [] := by
  rw [sortMatches, ← List.length_eq_zero_iff, List.length_insertionSort, List.length_eq_zero_iff]

theorem duplicatesOf_ne_nil {entries : List InventoryEntry} {memory : CaptureMemoryDraft} :
    duplicatesOf entries memory ≠ [] ↔ ∃ entry ∈ entries, ExactDuplicate entry.memory memory := by
  rw [duplicatesOf, Ne, sortMatches_eq_nil, List.map_eq_nil_iff, List.filter_eq_nil_iff]
  simp only [decide_eq_true_eq, ExactDuplicate, not_forall, not_not, exists_prop]

theorem conflictsOf_eq_nil {entries : List InventoryEntry} {memory : CaptureMemoryDraft}
    (h : conflictsOf entries memory = []) :
    ∀ entry ∈ entries, Clash entry.memory memory → ExactDuplicate entry.memory memory := by
  rw [conflictsOf, sortMatches_eq_nil, List.map_eq_nil_iff, List.filter_eq_nil_iff] at h
  intro entry hentry hclash
  by_contra hexact
  refine h entry hentry (decide_eq_true ⟨hexact, ?_⟩)
  exact hclash.resolve_left hexact

/-- What a turn makes of a candidate. -/
structure Classified (entries : List InventoryEntry) (used : List String) (c : CaptureCandidate)
    (planned : CaptureCandidate) (used' : List String) : Prop where
  memory : planned.memory = c.memory
  notReplay : planned.action.isReplay = false
  decided : planned.action.routable = true ∨ planned.action.isDuplicate = true ∨
    planned.action.isConflict = true
  duplicate : planned.action.isDuplicate = true →
    ∃ entry ∈ entries, ExactDuplicate entry.memory c.memory
  apart : planned.action.creates = true → ∀ entry ∈ entries, ¬ Clash entry.memory c.memory
  reserves : used' = planned.action.proposalId?.toList ++ used
  free : ∀ id, planned.action.proposalId? = some id → id ∉ used

omit [Text.Unicode] [CaptureDigests] in
/-- The action of a route: no duplicate and no replay, and its identifier is new. -/
theorem routeAction_spec {route : MemoryWriteRoute} {title : String} {used used' : List String}
    {action : CaptureAction} (h : routeAction route title used = .ok (action, used')) :
    action.isReplay = false ∧ action.routable = true ∧ action.isDuplicate = false ∧
      used' = action.proposalId?.toList ++ used ∧
      ∀ id, action.proposalId? = some id → id ∉ used := by
  cases route with
  | fileBackedProposal =>
      obtain ⟨⟨id, rest⟩, hreserve, h⟩ := bind_eq_ok.1 h
      obtain ⟨hfree, rfl⟩ := reserveFrom_spec hreserve
      obtain ⟨rfl, rfl⟩ := Prod.mk.inj (pure_eq_ok.1 h)
      refine ⟨rfl, rfl, rfl, rfl, fun x hx => ?_⟩
      rwa [← Option.some.inj hx]
  | runtimeLocal =>
      obtain ⟨rfl, rfl⟩ := Prod.mk.inj (pure_eq_ok.1 h)
      exact ⟨rfl, rfl, rfl, rfl, fun x hx => by cases hx⟩
  | runtimeSession =>
      obtain ⟨rfl, rfl⟩ := Prod.mk.inj (pure_eq_ok.1 h)
      exact ⟨rfl, rfl, rfl, rfl, fun x hx => by cases hx⟩
  | noWrite =>
      obtain ⟨rfl, rfl⟩ := Prod.mk.inj (pure_eq_ok.1 h)
      exact ⟨rfl, rfl, rfl, rfl, fun x hx => by cases hx⟩

omit [Text.Unicode] [CaptureDigests] in
theorem applyRuntimeInventoryAvailability_memory (available : Bool) (c : CaptureCandidate) :
    (applyRuntimeInventoryAvailability available c).memory = c.memory := by
  unfold applyRuntimeInventoryAvailability
  split
  · rfl
  · split <;> rfl

omit [Text.Unicode] [CaptureDigests] in
/-- Without the private inventory a private write becomes none; every other action stays. -/
theorem applyRuntimeInventoryAvailability_action (available : Bool) (c : CaptureCandidate) :
    (applyRuntimeInventoryAvailability available c).action = c.action ∨
      ((∃ route, c.action = .createRuntime route) ∧
        (applyRuntimeInventoryAvailability available c).action =
          .noWrite "runtime_inventory_unavailable") := by
  unfold applyRuntimeInventoryAvailability
  split
  · exact Or.inl rfl
  · split
    · rename_i route haction
      exact Or.inr ⟨⟨route, haction⟩, rfl⟩
    · exact Or.inl rfl

theorem classifyCandidate_spec {entries : List InventoryEntry} {available : Bool}
    {used used' : List String} {c planned : CaptureCandidate}
    (h : classifyCandidate entries available used c = .ok (planned, used')) :
    Classified entries used c planned used' := by
  unfold classifyCandidate at h
  dsimp only at h
  split at h
  · rename_i hduplicates
    obtain ⟨rfl, rfl⟩ := Prod.mk.inj (pure_eq_ok.1 h)
    exact ⟨rfl, rfl, Or.inr (Or.inl rfl), fun _ => duplicatesOf_ne_nil.1 hduplicates,
      fun hcreates => absurd hcreates Bool.false_ne_true, rfl, fun id hid => by cases hid⟩
  · rename_i hduplicates
    split at h
    · obtain ⟨rfl, rfl⟩ := Prod.mk.inj (pure_eq_ok.1 h)
      exact ⟨rfl, rfl, Or.inr (Or.inr rfl), fun hduplicate => absurd hduplicate Bool.false_ne_true,
        fun hcreates => absurd hcreates Bool.false_ne_true, rfl, fun id hid => by cases hid⟩
    · rename_i hconflicts
      obtain ⟨⟨action, used₁⟩, hroute, h⟩ := bind_eq_ok.1 h
      obtain ⟨rfl, rfl⟩ := Prod.mk.inj (pure_eq_ok.1 h)
      obtain ⟨hreplay, hroutable, hduplicate, hused, hfree⟩ := routeAction_spec hroute
      have hapart : ∀ entry ∈ entries, ¬ Clash entry.memory c.memory := by
        intro entry hentry hclash
        refine hduplicates (duplicatesOf_ne_nil.2 ⟨entry, hentry, ?_⟩)
        exact conflictsOf_eq_nil (not_not.1 hconflicts) entry hentry hclash
      have hmemory := applyRuntimeInventoryAvailability_memory available { c with action := action }
      have haction :=
        applyRuntimeInventoryAvailability_action available { c with action := action }
      revert hmemory haction
      generalize applyRuntimeInventoryAvailability available { c with action := action } = routed
      rintro hmemory (haction | ⟨⟨route, hruntime⟩, haction⟩)
      · obtain rfl : routed.action = action := haction
        refine ⟨hmemory, hreplay, Or.inl hroutable, fun hd => ?_, fun _ => hapart, hused, hfree⟩
        exact absurd (hd.symm.trans hduplicate) (by decide)
      · obtain rfl : action = .createRuntime route := hruntime
        constructor
        · exact hmemory
        · exact congrArg CaptureAction.isReplay haction
        · exact Or.inl (congrArg CaptureAction.routable haction)
        · exact fun hd => absurd (hd.symm.trans (congrArg CaptureAction.isDuplicate haction)) (by decide)
        · exact fun _ => hapart
        · show _ = routed.action.proposalId?.toList ++ used
          rw [haction, hused]
          rfl
        · intro id hid
          exact absurd (hid.symm.trans (congrArg CaptureAction.proposalId? haction))
            (Option.some_ne_none id)

/-! ### A run -/

/-- A duplicate goes back to the inventory, or to an earlier candidate that a review can route to a
write or that is in conflict. -/
def Rooted (inventory : List InventoryEntry) (front : List CaptureCandidate)
    (c : CaptureCandidate) : Prop :=
  (∃ entry ∈ inventory, ExactDuplicate entry.memory c.memory) ∨
    ∃ a ∈ front, ExactDuplicate a.memory c.memory ∧
      (a.action.routable = true ∨ a.action.isConflict = true)

/-- What holds of the variables of the loop. -/
structure ClassifyRun (inventory : List InventoryEntry) (used : List String)
    (state : ClassifyState) : Prop where
  earlier : state.earlier =
    (state.done.filter fun c => !c.action.isReplay).map CaptureCandidate.earlierEntry
  decided : ∀ c ∈ state.done, c.action.isReplay = true ∨ c.action.routable = true ∨
    c.action.isDuplicate = true ∨ c.action.isConflict = true
  reserved : used ⊆ state.usedIds
  taken : state.done.filterMap (·.action.proposalId?) ⊆ state.usedIds
  apart : state.done.Pairwise fun a b => a.action.isReplay = false → b.action.creates = true →
    ¬ Clash a.memory b.memory
  fresh : ∀ c ∈ state.done, c.action.creates = true → ∀ entry ∈ inventory,
    ¬ Clash entry.memory c.memory
  ids : (state.done.filterMap (·.action.proposalId?)).Nodup
  unreserved : ∀ id ∈ state.done.filterMap (·.action.proposalId?), id ∉ used
  rooted : ∀ front c, front ++ [c] <+: state.done → c.action.isDuplicate = true →
    Rooted inventory front c

theorem ClassifyRun.start (inventory : List InventoryEntry) (used : List String) :
    ClassifyRun inventory used ⟨[], used, []⟩ where
  earlier := rfl
  decided := fun c hc => absurd hc List.not_mem_nil
  reserved := fun id hid => hid
  taken := fun id hid => absurd hid List.not_mem_nil
  apart := List.Pairwise.nil
  fresh := fun c hc => absurd hc List.not_mem_nil
  ids := List.nodup_nil
  unreserved := fun id hid => absurd hid List.not_mem_nil
  rooted := fun front c hfront => by simp at hfront

variable {inventory : List InventoryEntry} {available : Bool} {used : List String}

/-- A replay keeps its place and is not compared with. -/
theorem ClassifyRun.replay {state : ClassifyState} (hrun : ClassifyRun inventory used state)
    {c : CaptureCandidate} (hc : c.action.isReplay = true) :
    ClassifyRun inventory used { state with done := state.done ++ [c] } := by
  have hcreates : c.action.creates ≠ true := by
    intro hcreates
    rw [CaptureAction.isReplay_of_creates hcreates] at hc
    cases hc
  have hids : (state.done ++ [c]).filterMap (·.action.proposalId?) =
      state.done.filterMap (·.action.proposalId?) := by
    rw [List.filterMap_append]
    cases hid : c.action.proposalId? with
    | none => simp [hid]
    | some id => exact absurd (CaptureAction.creates_of_proposalId? hid) hcreates
  constructor
  · simp [hrun.earlier, hc]
  · intro a ha
    rcases List.mem_append.1 ha with ha | ha
    · exact hrun.decided a ha
    · rw [List.mem_singleton.1 ha]
      exact Or.inl hc
  · exact hrun.reserved
  · exact hids ▸ hrun.taken
  · refine List.pairwise_append.2 ⟨hrun.apart, List.pairwise_singleton _ _, fun a _ b hb => ?_⟩
    rw [List.mem_singleton.1 hb]
    exact fun _ h => absurd h hcreates
  · intro a ha
    rcases List.mem_append.1 ha with ha | ha
    · exact hrun.fresh a ha
    · rw [List.mem_singleton.1 ha]
      exact fun h => absurd h hcreates
  · exact hids ▸ hrun.ids
  · exact hids ▸ hrun.unreserved
  · intro front a hfront hduplicate
    rcases List.prefix_concat_iff.1 hfront with heq | hfront
    · obtain ⟨-, hac⟩ := List.append_inj' heq rfl
      rw [List.singleton_inj.1 hac] at hduplicate
      cases haction : c.action <;> rw [haction] at hc hduplicate <;> cases hc
      cases hduplicate
    · exact hrun.rooted front a hfront hduplicate

/-- A candidate before it that is its exact duplicate roots a candidate. -/
theorem ClassifyRun.rooted_of_earlier {state : ClassifyState}
    (hrun : ClassifyRun inventory used state) {a c : CaptureCandidate} (ha : a ∈ state.done)
    (hreplay : a.action.isReplay = false) (hexact : ExactDuplicate a.memory c.memory) :
    Rooted inventory state.done c := by
  rcases hrun.decided a ha with h | h | h | h
  · rw [hreplay] at h
    cases h
  · exact Or.inr ⟨a, ha, hexact, Or.inl h⟩
  · -- `a` is a duplicate itself and has a root before it
    obtain ⟨front, back, hdone⟩ := List.append_of_mem ha
    have hprefix : front ++ [a] <+: state.done := ⟨back, by rw [hdone]; simp⟩
    rcases hrun.rooted front a hprefix h with ⟨entry, hentry, he⟩ | ⟨b, hb, he, hkind⟩
    · exact Or.inl ⟨entry, hentry, he.trans hexact⟩
    · refine Or.inr ⟨b, ?_, he.trans hexact, hkind⟩
      rw [hdone]
      exact List.mem_append_left _ hb
  · exact Or.inr ⟨a, ha, hexact, Or.inr h⟩

/-- The next candidate, classified against the inventory and the candidates before it. -/
theorem ClassifyRun.classified {state : ClassifyState} (hrun : ClassifyRun inventory used state)
    {c planned : CaptureCandidate} {used' : List String}
    (h : Classified (inventory ++ state.earlier) state.usedIds c planned used') :
    ClassifyRun inventory used
      ⟨state.earlier ++ [planned.earlierEntry], used', state.done ++ [planned]⟩ := by
  have hearlier : ∀ a ∈ state.done, a.action.isReplay = false → a.earlierEntry ∈ state.earlier := by
    intro a ha hreplay
    rw [hrun.earlier]
    exact List.mem_map_of_mem (List.mem_filter.2 ⟨ha, by simp [hreplay]⟩)
  have hids : (state.done ++ [planned]).filterMap (·.action.proposalId?) =
      state.done.filterMap (·.action.proposalId?) ++ planned.action.proposalId?.toList := by
    rw [List.filterMap_append]
    cases hid : planned.action.proposalId? <;> simp [hid]
  constructor
  · simp [hrun.earlier, h.notReplay]
  · intro a ha
    rcases List.mem_append.1 ha with ha | ha
    · exact hrun.decided a ha
    · rw [List.mem_singleton.1 ha]
      exact Or.inr h.decided
  · rw [h.reserves]
    exact fun id hid => List.mem_append_right _ (hrun.reserved hid)
  · rw [hids, h.reserves]
    intro id hid
    rcases List.mem_append.1 hid with hid | hid
    · exact List.mem_append_right _ (hrun.taken hid)
    · exact List.mem_append_left _ hid
  · refine List.pairwise_append.2 ⟨hrun.apart, List.pairwise_singleton _ _, fun a ha b hb => ?_⟩
    rw [List.mem_singleton.1 hb]
    intro hreplay hcreates
    rw [h.memory]
    exact h.apart hcreates a.earlierEntry (List.mem_append_right _ (hearlier a ha hreplay))
  · intro a ha
    rcases List.mem_append.1 ha with ha | ha
    · exact hrun.fresh a ha
    · rw [List.mem_singleton.1 ha, h.memory]
      exact fun hcreates entry hentry => h.apart hcreates entry (List.mem_append_left _ hentry)
  · rw [hids, List.nodup_append]
    have hone : planned.action.proposalId?.toList.Nodup := by
      cases planned.action.proposalId? <;> simp
    refine ⟨hrun.ids, hone, fun x hx y hy hxy => ?_⟩
    exact h.free y (Option.mem_toList.1 hy) (hrun.taken (hxy ▸ hx))
  · rw [hids]
    intro id hid hused
    rcases List.mem_append.1 hid with hid | hid
    · exact hrun.unreserved id hid hused
    · exact h.free id (Option.mem_toList.1 hid) (hrun.reserved hused)
  · intro front a hfront hduplicate
    rcases List.prefix_concat_iff.1 hfront with heq | hfront
    · obtain ⟨rfl, hac⟩ := List.append_inj' heq rfl
      obtain rfl := List.singleton_inj.1 hac
      obtain ⟨entry, hentry, hexact⟩ := h.duplicate hduplicate
      rw [← h.memory] at hexact
      rcases List.mem_append.1 hentry with hentry | hentry
      · exact Or.inl ⟨entry, hentry, hexact⟩
      · rw [hrun.earlier] at hentry
        obtain ⟨b, hb, rfl⟩ := List.mem_map.1 hentry
        obtain ⟨hb, hreplay⟩ := List.mem_filter.1 hb
        exact hrun.rooted_of_earlier hb (by simpa using hreplay) hexact
    · exact hrun.rooted front a hfront hduplicate

/-- What one turn keeps. -/
theorem ClassifyRun.step {state state' : ClassifyState} {c : CaptureCandidate}
    (hrun : ClassifyRun inventory used state)
    (h : classifyStep inventory available state c = .ok state') :
    ClassifyRun inventory used state' := by
  unfold classifyStep at h
  split at h
  · rename_i hreplay
    obtain rfl := pure_eq_ok.1 h
    exact hrun.replay hreplay
  · obtain ⟨⟨planned, usedIds⟩, hclassify, h⟩ := bind_eq_ok.1 h
    obtain rfl := pure_eq_ok.1 h
    exact hrun.classified (classifyCandidate_spec hclassify)

theorem classifyRun_of_ok {candidates planned : List CaptureCandidate} {used' : List String}
    (h : classifyActionsWithReserved inventory candidates used available = .ok (planned, used')) :
    ClassifyRun inventory used ⟨(planned.filter fun c => !c.action.isReplay).map
      CaptureCandidate.earlierEntry, used', planned⟩ := by
  obtain ⟨state, hrun, h⟩ := bind_eq_ok.1 h
  obtain ⟨rfl, rfl⟩ := Prod.mk.inj (pure_eq_ok.1 h)
  have hinv : ClassifyRun inventory used state := runAll_invariant (ClassifyRun inventory used)
    (fun s c s' _ hs => hs.step) (.start inventory used) hrun
  have hearlier := hinv.earlier
  obtain ⟨earlier, usedIds, done⟩ := state
  exact hearlier ▸ hinv

theorem ClassifyRun.createsOnce {state : ClassifyState} (hrun : ClassifyRun inventory used state) :
    CreatesOnce inventory used state.done where
  apart := by
    refine (List.Pairwise.filter _ hrun.apart).imp_of_mem fun ha hb h => ?_
    exact h (CaptureAction.isReplay_of_creates (List.mem_filter.1 ha).2) (List.mem_filter.1 hb).2
  fresh := hrun.fresh
  ids := hrun.ids
  unreserved := hrun.unreserved

end Clash

end Capture
end Memzoi
