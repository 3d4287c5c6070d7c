/-
# The private planner and the executor

The planner (`detect_private_*`) and the executor (`validate_consolidation`,
`validate_contradiction_resolution`, `validate_renewal`) decide the same
questions in separate code: which records are current, which make one claim,
which contradict each other, which evidence is fresh. Both sides are brought to
one description over the store (`Current`, `sameClaim`, `Connected`) and
compared there.
-/

import Memzoi.Maintenance.PlanRules
import Memzoi.PrivateLifecycle.Apply

namespace Memzoi
namespace Maintenance

open Fallible PrivateLifecycle
open Retention (CurrentAssertionDecision RetentionState formatTimestamp)

/-- The record of the store is a current assertion at the instant. -/
def Current (db : Db) (e : OffsetDateTime) (r : MemoryRecord) : Prop :=
  r ∈ recordsForPreservation db ∧ isCurrent db r e = .ok true

/-- Every private record was last updated no later than the instant. -/
def UpdatedBy (db : Db) (e : OffsetDateTime) : Prop :=
  ∀ r ∈ recordsForPreservation db, ∀ f,
    parseTimestamp r.updatedAt "maintenance record updated_at" = .ok f → f ≤ e

section Digests

variable [Text.Unicode] [MaintenanceDigests]

/-- The digests tell apart the claims and the evidence of a store. -/
structure NoCollisions (db : Db) : Prop where
  duplicate : ∀ r ∈ recordsForPreservation db, ∀ s ∈ recordsForPreservation db,
    privateDuplicateClaimDigest r (privateApplicabilityPaths db r.id) =
        privateDuplicateClaimDigest s (privateApplicabilityPaths db s.id) →
      duplicateProjection db r = duplicateProjection db s
  renewal : ∀ r ∈ recordsForPreservation db, ∀ s ∈ recordsForPreservation db,
    privateRenewalClaimDigest r = privateRenewalClaimDigest s →
      renewalProjection r = renewalProjection s
  evidence : ∀ c ∈ db.captures.rows, ∀ c' ∈ db.captures.rows,
    MaintenanceDigests.captureEvidence c.provenance.evidence =
        MaintenanceDigests.captureEvidence c'.provenance.evidence →
      c.provenance.evidence = c'.provenance.evidence

omit [Text.Unicode] [MaintenanceDigests] in
/-- A record of the store is known by its id. -/
theorem record_unique {db : Db} {r s : MemoryRecord} (hr : r ∈ recordsForPreservation db)
    (hs : s ∈ recordsForPreservation db) (hid : r.id = s.id) : r = s := by
  have hget := (mem_recordsForPreservation.1 hr).1
  rw [hid] at hget
  exact Option.some.inj (hget.symm.trans (mem_recordsForPreservation.1 hs).1)

/-! ### Loaded records and current ones -/

omit [Text.Unicode] [MaintenanceDigests] in
theorem LoadsAs.mem {db : Db} {e : OffsetDateTime} {r : MemoryRecord} {s : PrivateLifecycleState}
    {d : CurrentAssertionDecision} {f : OffsetDateTime} (h : LoadsAs db e r s d f) :
    r ∈ recordsForPreservation db := by
  obtain ⟨hget, hshape⟩ := requirePrivateRecord_iff.1 h.record
  exact mem_recordsForPreservation.2 ⟨hget, (ensure_eq_ok.1 hshape).1⟩

omit [Text.Unicode] [MaintenanceDigests] in
theorem LoadsAs.facts {db : Db} {e : OffsetDateTime} {r : MemoryRecord} {s : PrivateLifecycleState}
    {d : CurrentAssertionDecision} {f : OffsetDateTime} (h : LoadsAs db e r s d f) :
    requireFacts db r.id = .ok s.toLifecycleFacts :=
  bind_eq_ok.2 ⟨s, require_eq_ok.2 h.state, rfl⟩

omit [Text.Unicode] [MaintenanceDigests] in
/-- The executor asks for the decision the planner loaded. -/
theorem LoadsAs.isCurrent {db : Db} {e : OffsetDateTime} {r : MemoryRecord}
    {s : PrivateLifecycleState} {d : CurrentAssertionDecision} {f : OffsetDateTime}
    (h : LoadsAs db e r s d f) : isCurrent db r e = .ok d.isCurrent :=
  bind_eq_ok.2 ⟨s.toLifecycleFacts, h.facts, bind_eq_ok.2 ⟨d, h.decision, rfl⟩⟩

omit [Text.Unicode] [MaintenanceDigests] in
/-- The decision of a record with its status: a current one is active. -/
theorem baseCurrentAssertion_current {db : Db} {r : MemoryRecord} {facts : LifecycleFacts}
    {e : OffsetDateTime} {d : CurrentAssertionDecision}
    (h : baseCurrentAssertion db r facts e = .ok d) (hcurrent : d.isCurrent = true) :
    r.status = .active := by
  obtain ⟨_, h⟩ := check_bind_eq_ok.1 h
  obtain ⟨base, _, h⟩ := bind_eq_ok.1 h
  obtain ⟨recallAt, _, h⟩ := bind_eq_ok.1 h
  obtain ⟨validity, _, h⟩ := bind_eq_ok.1 h
  obtain ⟨retention, _, h⟩ := bind_eq_ok.1 h
  obtain ⟨quarantine, _, h⟩ := bind_eq_ok.1 h
  cases h
  have hnil := List.isEmpty_iff.1 hcurrent
  exact (Retention.baseExclusions_eq_nil.1 (List.append_eq_nil_iff.1 hnil).1).1

omit [Text.Unicode] [MaintenanceDigests] in
theorem Current.active {db : Db} {e : OffsetDateTime} {r : MemoryRecord} (h : Current db e r) :
    r.status = .active := by
  obtain ⟨facts, _, hd⟩ := bind_eq_ok.1 h.2
  obtain ⟨d, hdecision, hd⟩ := bind_eq_ok.1 hd
  exact baseCurrentAssertion_current hdecision (Except.ok.inj hd)

variable {fingerprint : String} {db : Db} {request : MaintenancePlanRequest} {now : OffsetDateTime}
  {plan : MaintenancePlan} {e : OffsetDateTime} {authority : MaintenanceAuthoritySnapshot}
  {selected : List String} {loaded : List PrivateLoadedRecord} {detected : List Detected}
  {notAfter : OffsetDateTime}

/-- In a store updated by the instant every record is eligible, and marked by its decision. -/
theorem loadedOf_current (selected : List String) (hup : UpdatedBy db e) {r : MemoryRecord} {s : PrivateLifecycleState}
    {d : CurrentAssertionDecision} {f : OffsetDateTime} (h : LoadsAs db e r s d f) :
    (loadedOf db selected e r s d f).eligibleAtEvaluation = true ∧
      (loadedOf db selected e r s d f).snapshot.currentAssertion = d.isCurrent := by
  have hle : decide (f ≤ e) = true := decide_eq_true (hup r h.mem f h.freshness)
  refine ⟨hle, ?_⟩
  show (d.isCurrent && decide (f ≤ e)) = d.isCurrent
  rw [hle, Bool.and_true]

/-- The current records among the loaded ones are those of the store. -/
theorem mem_current
    (run : PlanRun fingerprint db request now plan e authority selected loaded detected notAfter)
    (hup : UpdatedBy db e) {l : PrivateLoadedRecord} :
    l ∈ loaded ∧ l.snapshot.currentAssertion = true ↔
      ∃ r s d f, LoadsAs db e r s d f ∧ Current db e r ∧ l = loadedOf db selected e r s d f := by
  constructor
  · rintro ⟨hl, hcurrent⟩
    obtain ⟨r, s, d, f, hloads, rfl⟩ := (run.mem_loaded l).1 hl
    rw [(loadedOf_current selected hup hloads).2] at hcurrent
    exact ⟨r, s, d, f, hloads, ⟨hloads.mem, hcurrent ▸ hloads.isCurrent⟩, rfl⟩
  · rintro ⟨r, s, d, f, hloads, hcurrent, rfl⟩
    have hd : d.isCurrent = true := Except.ok.inj (hloads.isCurrent.symm.trans hcurrent.2)
    exact ⟨(run.mem_loaded _).2 ⟨r, s, d, f, hloads, rfl⟩, (loadedOf_current selected hup hloads).2.trans hd⟩

theorem isCurrent_total
    (run : PlanRun fingerprint db request now plan e authority selected loaded detected notAfter)
    {r : MemoryRecord} (hr : r ∈ recordsForPreservation db) : ∃ b, isCurrent db r e = .ok b := by
  obtain ⟨s, d, f, hloads⟩ := run.loads r hr
  exact ⟨_, hloads.isCurrent⟩

omit [Text.Unicode] [MaintenanceDigests] in
/-- The loop of the executor keeps the current records that pass its own test. -/
theorem mem_keepCurrent {skip : MemoryRecord → Prop} [DecidablePred skip] {kept : List MemoryRecord}
    (h : keepAll (fun r => if skip r then .ok false else isCurrent db r e)
      (recordsForPreservation db) = .ok kept) (r : MemoryRecord) :
    r ∈ kept ↔ Current db e r ∧ ¬ skip r := by
  rw [mem_of_keepAll h]
  constructor
  · rintro ⟨hr, hkeep⟩
    by_cases hs : skip r
    · rw [if_pos hs] at hkeep
      cases hkeep
    · rw [if_neg hs] at hkeep
      exact ⟨⟨hr, hkeep⟩, hs⟩
  · rintro ⟨hcurrent, hs⟩
    rw [if_neg hs]
    exact hcurrent

theorem keepCurrent_total
    (run : PlanRun fingerprint db request now plan e authority selected loaded detected notAfter)
    (skip : MemoryRecord → Prop) [DecidablePred skip] :
    ∃ kept, keepAll (fun r => if skip r then .ok false else isCurrent db r e)
      (recordsForPreservation db) = .ok kept := by
  refine keepAll_total fun r hr => ?_
  by_cases hs : skip r
  · exact ⟨false, if_pos hs⟩
  · obtain ⟨b, hb⟩ := isCurrent_total run hr
    exact ⟨b, (if_neg hs).trans hb⟩

/-! ### Exact duplicates -/

/-- The ids are those of all current records that make one claim. -/
def DuplicateSet (db : Db) (e : OffsetDateTime) (ids : List String) : Prop :=
  ∃ claim, Current db e claim ∧ ∀ id, id ∈ ids ↔ ∃ r, Current db e r ∧
    duplicateProjection db r = duplicateProjection db claim ∧ r.id = id

/-- The executor consolidates exactly the sets of duplicates. -/
theorem validateConsolidation_iff
    (run : PlanRun fingerprint db request now plan e authority selected loaded detected notAfter)
    {ids : List String} {keeper : String} :
    validateConsolidation db ids keeper e = .ok () ↔ keeper ∈ ids ∧ DuplicateSet db e ids := by
  have hkept : ∀ (projection : DuplicateProjection) (r : MemoryRecord), Current db e r →
      (¬ (r.status ≠ .active ∨ duplicateProjection db r ≠ projection) ↔
        duplicateProjection db r = projection) := by
    intro projection r hr
    rw [not_or, not_not, not_not, and_iff_right hr.active]
  constructor
  · intro h
    obtain ⟨hkeeper, h⟩ := check_bind_eq_ok.1 h
    obtain ⟨firstId, hfirst, h⟩ := bind_eq_ok.1 h
    obtain ⟨first, hrecord, h⟩ := bind_eq_ok.1 h
    obtain ⟨duplicates, hduplicates, h⟩ := bind_eq_ok.1 h
    have hset : SortedMap.sortedKeys ids = SortedMap.sortedKeys (duplicates.map (·.id)) :=
      ensure_eq_ok.1 h
    have hmem : ∀ id, id ∈ ids ↔ ∃ r, Current db e r ∧
        duplicateProjection db r = duplicateProjection db first ∧ r.id = id := by
      intro id
      rw [← SortedMap.mem_sortedKeys, hset, SortedMap.mem_sortedKeys, List.mem_map]
      constructor
      · rintro ⟨r, hr, hid⟩
        obtain ⟨hcurrent, hs⟩ := (mem_keepCurrent hduplicates r).1 hr
        exact ⟨r, hcurrent, (hkept _ r hcurrent).1 hs, hid⟩
      · rintro ⟨r, hcurrent, hsame, hid⟩
        exact ⟨r, (mem_keepCurrent hduplicates r).2
          ⟨hcurrent, (hkept _ r hcurrent).2 hsame⟩, hid⟩
    -- the first record named is one of the set, so it is current itself
    have hfirstId : firstId ∈ ids := List.mem_of_mem_head? (require_eq_ok.1 hfirst)
    obtain ⟨r, hcurrent, hsame, _⟩ := (hmem firstId).1 hfirstId
    exact ⟨ensure_eq_ok.1 hkeeper, r, hcurrent, fun id => by rw [hsame]; exact hmem id⟩
  · rintro ⟨hkeeper, claim, _, hmem⟩
    obtain ⟨firstId, hhead⟩ : ∃ firstId, ids.head? = some firstId := by
      cases ids with
      | nil => cases hkeeper
      | cons id ids => exact ⟨id, rfl⟩
    obtain ⟨first, hfirst, hsame, rfl⟩ := (hmem firstId).1 (List.mem_of_mem_head? hhead)
    obtain ⟨s, d, f, hloads⟩ := run.loads first hfirst.1
    obtain ⟨duplicates, hduplicates⟩ := keepCurrent_total run
      (fun r => r.status ≠ .active ∨ duplicateProjection db r ≠ duplicateProjection db first)
    refine check_bind_eq_ok.2 ⟨ensure_of hkeeper, bind_eq_ok.2 ⟨_, require_eq_ok.2 hhead,
      bind_eq_ok.2 ⟨first, hloads.record, bind_eq_ok.2 ⟨duplicates, hduplicates,
        ensure_of (SortedMap.sortedKeys_congr fun id => ?_)⟩⟩⟩⟩
    rw [hmem, List.mem_map]
    constructor
    · rintro ⟨r, hcurrent, hr, hid⟩
      exact ⟨r, (mem_keepCurrent hduplicates r).2
        ⟨hcurrent, (hkept _ r hcurrent).2 (hr.trans hsame.symm)⟩, hid⟩
    · rintro ⟨r, hr, hid⟩
      obtain ⟨hcurrent, hs⟩ := (mem_keepCurrent hduplicates r).1 hr
      exact ⟨r, hcurrent, ((hkept _ r hcurrent).1 hs).trans hsame, hid⟩

omit [Text.Unicode] [MaintenanceDigests] in
theorem mem_duplicateGroups {ρ : Type} [MaintenanceRecord ρ] {loaded : List (LoadedRecord ρ)}
    {group : List (LoadedRecord ρ)} :
    group ∈ duplicateGroups loaded ↔ 1 < group.length ∧ ∃ c ∈ loaded,
      c.snapshot.currentAssertion = true ∧ group = (loaded.filter
        (·.snapshot.currentAssertion)).filter (·.duplicateClaimDigest = c.duplicateClaimDigest) := by
  unfold duplicateGroups
  rw [List.mem_filter, decide_eq_true_eq, List.mem_map, and_comm]
  refine and_congr_right fun _ => ?_
  constructor
  · rintro ⟨digest, hdigest, rfl⟩
    rw [SortedMap.mem_sortedKeys, List.mem_map] at hdigest
    obtain ⟨c, hc, rfl⟩ := hdigest
    exact ⟨c, (List.mem_filter.1 hc).1, (List.mem_filter.1 hc).2, rfl⟩
  · rintro ⟨c, hc, hcurrent, rfl⟩
    refine ⟨c.duplicateClaimDigest, ?_, rfl⟩
    exact SortedMap.mem_sortedKeys.2 (List.mem_map.2 ⟨c, List.mem_filter.2 ⟨hc, hcurrent⟩, rfl⟩)

/-- The ids in a group of records that make the claim of a current record. -/
theorem mem_duplicateGroup
    (run : PlanRun fingerprint db request now plan e authority selected loaded detected notAfter)
    (hup : UpdatedBy db e) (hdigests : NoCollisions db) {claim : MemoryRecord}
    (hclaim : Current db e claim) (id : String) :
    id ∈ ((loaded.filter (·.snapshot.currentAssertion)).filter (·.duplicateClaimDigest =
        privateDuplicateClaimDigest claim (privateApplicabilityPaths db claim.id))).map
          LoadedRecord.id ↔
      ∃ r, Current db e r ∧ duplicateProjection db r = duplicateProjection db claim ∧ r.id = id := by
  simp only [List.mem_map, List.mem_filter, decide_eq_true_eq]
  constructor
  · rintro ⟨l, ⟨hl, hdigest⟩, rfl⟩
    obtain ⟨r, s, d, f, hloads, hcurrent, rfl⟩ := (mem_current run hup).1 hl
    exact ⟨r, hcurrent, hdigests.duplicate r hloads.mem claim hclaim.1 hdigest, rfl⟩
  · rintro ⟨r, hcurrent, hsame, rfl⟩
    obtain ⟨s, d, f, hloads⟩ := run.loads r hcurrent.1
    exact ⟨_, ⟨(mem_current run hup).2 ⟨r, s, d, f, hloads, hcurrent, rfl⟩,
      congrArg MaintenanceDigests.duplicateClaim hsame⟩, rfl⟩

/-- A group of the planner is a set of duplicates, and a set of duplicates of two or more is a
group. -/
theorem duplicateSet_iff_group
    (run : PlanRun fingerprint db request now plan e authority selected loaded detected notAfter)
    (hup : UpdatedBy db e) (hdigests : NoCollisions db) {ids : List String} :
    (2 ≤ (SortedMap.sortedKeys ids).length ∧ DuplicateSet db e ids) ↔
      ∃ group ∈ duplicateGroups loaded,
        SortedMap.sortedKeys ids = SortedMap.sortedKeys (group.map LoadedRecord.id) := by
  have hlength : ∀ p : PrivateLoadedRecord → Bool, ∀ q : PrivateLoadedRecord → Bool,
      ((loaded.filter p).filter q).length = (SortedMap.sortedKeys (((loaded.filter p).filter q).map
        LoadedRecord.id)).length := by
    intro p q
    have hnodup : (loaded.map LoadedRecord.id).Nodup := run.sorted.imp fun h => ne_of_lt h
    have hsub : List.Sublist (((loaded.filter p).filter q).map LoadedRecord.id)
        (loaded.map LoadedRecord.id) := (List.filter_sublist.trans List.filter_sublist).map _
    rw [← SortedMap.length_sortedKeys_iff.2 (hnodup.sublist hsub), List.length_map]
  constructor
  · rintro ⟨htwo, claim, hclaim, hmem⟩
    obtain ⟨s, d, f, hloads⟩ := run.loads claim hclaim.1
    have hset := SortedMap.sortedKeys_congr fun id =>
      (hmem id).trans (mem_duplicateGroup run hup hdigests hclaim id).symm
    refine ⟨_, mem_duplicateGroups.2 ⟨?_, _, ((mem_current run hup).2
      ⟨claim, s, d, f, hloads, hclaim, rfl⟩).1, ((mem_current run hup).2
      ⟨claim, s, d, f, hloads, hclaim, rfl⟩).2, rfl⟩, hset⟩
    rw [hlength]
    show 1 < (SortedMap.sortedKeys (((loaded.filter _).filter (·.duplicateClaimDigest =
      privateDuplicateClaimDigest claim (privateApplicabilityPaths db claim.id))).map
        LoadedRecord.id)).length
    rw [← hset]
    omega
  · rintro ⟨group, hgroup, hset⟩
    obtain ⟨hone, l, hl, hcurrent, rfl⟩ := mem_duplicateGroups.1 hgroup
    obtain ⟨claim, s, d, f, hloads, hclaim, rfl⟩ := (mem_current run hup).1 ⟨hl, hcurrent⟩
    rw [hlength] at hone
    refine ⟨by rw [hset]; omega, claim, hclaim, fun id => ?_⟩
    rw [← mem_duplicateGroup run hup hdigests hclaim id, ← SortedMap.mem_sortedKeys, hset,
      SortedMap.mem_sortedKeys]
    rfl

/-! ### Contradictions -/

/-- A record with its paths, as both sides compare it. -/
def candidateOf (db : Db) (r : MemoryRecord) : Candidate := (r, privateApplicabilityPaths db r.id)

/-- The list holds the current records a contradiction can be made of, each once. -/
structure Candidates (db : Db) (e : OffsetDateTime) (candidates : List Candidate) : Prop where
  mem : ∀ c, c ∈ candidates ↔ ∃ r, Current db e r ∧ privateContradictionCandidate r = true ∧
    c = candidateOf db r
  nodup : (candidates.map (·.1.id)).Nodup

omit [MaintenanceDigests] in
theorem Candidates.perm {candidates others : List Candidate} (h : Candidates db e candidates)
    (h' : Candidates db e others) : candidates.Perm others :=
  (List.perm_ext_iff_of_nodup h.nodup.of_map h'.nodup.of_map).2 fun c =>
    (h.mem c).trans (h'.mem c).symm

omit [MaintenanceDigests] in
/-- A candidate is known by the id of its record. -/
theorem Candidates.unique {candidates : List Candidate} (h : Candidates db e candidates)
    {a b : Candidate} (ha : a ∈ candidates) (hb : b ∈ candidates) (hid : a.1.id = b.1.id) : a = b := by
  obtain ⟨r, hr, _, rfl⟩ := (h.mem a).1 ha
  obtain ⟨s, hs, _, rfl⟩ := (h.mem b).1 hb
  rw [record_unique hr.1 hs.1 hid]

theorem planCandidates_are
    (run : PlanRun fingerprint db request now plan e authority selected loaded detected notAfter)
    (hup : UpdatedBy db e) : Candidates db e (planCandidates loaded) where
  mem c := by
    rw [planCandidates, contradictionRecords, List.mem_map]
    simp only [List.mem_filter, Bool.and_eq_true]
    constructor
    · rintro ⟨l, ⟨hl, hcurrent, hcandidate⟩, rfl⟩
      obtain ⟨r, s, d, f, hloads, hr, rfl⟩ := (mem_current run hup).1 ⟨hl, hcurrent⟩
      exact ⟨r, hr, hcandidate, rfl⟩
    · rintro ⟨r, hr, hcandidate, rfl⟩
      obtain ⟨s, d, f, hloads⟩ := run.loads r hr.1
      obtain ⟨hl, hcurrent⟩ := (mem_current run hup).2 ⟨r, s, d, f, hloads, hr, rfl⟩
      exact ⟨_, ⟨hl, hcurrent, hcandidate⟩, rfl⟩
  nodup := by
    have hids : (planCandidates loaded).map (·.1.id) =
        (contradictionRecords loaded).map LoadedRecord.id := by
      rw [planCandidates, List.map_map]
      refine List.map_congr_left fun l hl => ?_
      obtain ⟨r, s, d, f, _, rfl⟩ := (run.mem_loaded l).1 (List.mem_filter.1 hl).1
      rfl
    have hnodup : (loaded.map LoadedRecord.id).Nodup := run.sorted.imp fun h => ne_of_lt h
    rw [hids]
    exact hnodup.sublist (List.filter_sublist.map _)

omit [MaintenanceDigests] in
theorem executorCandidates_are {candidates : List Candidate}
    (h : contradictionCandidates db e = .ok candidates) : Candidates db e candidates := by
  obtain ⟨records, hrecords, h⟩ := bind_eq_ok.1 h
  cases h
  refine ⟨fun c => ?_, ?_⟩
  · rw [List.mem_map]
    constructor
    · rintro ⟨r, hr, rfl⟩
      obtain ⟨hcurrent, hskip⟩ := (mem_keepCurrent hrecords r).1 hr
      exact ⟨r, hcurrent, by simpa using (not_or.1 hskip).2, rfl⟩
    · rintro ⟨r, hr, hcandidate, rfl⟩
      refine ⟨r, (mem_keepCurrent hrecords r).2 ⟨hr, ?_⟩, rfl⟩
      rw [hcandidate]
      simpa using hr.active
  · have hrows : (db.records.rows.map (·.id)).Nodup := db.records.nodup
    have hperm := List.perm_insertionSort (fun a b : MemoryRecord =>
      b.updatedAt < a.updatedAt ∨ (a.updatedAt = b.updatedAt ∧ a.id ≤ b.id))
      (db.records.rows.filter (·.destination.isPrivate))
    have hall : ((recordsForPreservation db).map (·.id)).Nodup :=
      ((hperm.map _).nodup_iff).2 (hrows.sublist (List.filter_sublist.map _))
    have hids : records.map (fun r => (candidateOf db r).1.id) = records.map (·.id) := rfl
    rw [List.map_map]
    exact hall.sublist ((sublist_of_keepAll hrecords).map _)

theorem contradictionCandidates_total
    (run : PlanRun fingerprint db request now plan e authority selected loaded detected notAfter) :
    ∃ candidates, contradictionCandidates db e = .ok candidates := by
  obtain ⟨records, hrecords⟩ := keepCurrent_total run
    (fun r => r.status ≠ .active ∨ privateContradictionCandidate r = false)
  exact ⟨_, bind_eq_ok.2 ⟨records, hrecords, rfl⟩⟩

omit [MaintenanceDigests] in
/-- The search of the executor visits what is reached from its anchor. -/
theorem mem_contradictionComponent {candidates : List Candidate} {anchor : Nat}
    (hanchor : anchor < candidates.length) (i : Nat) :
    i ∈ contradictionComponent (neighbors candidates) candidates.length anchor ↔
      Explore.Reach (neighbors candidates) anchor i := by
  have hpush : Explore.Pushes (neighbors candidates)
      (fun _ i => (neighbors candidates i).reverse) :=
    ⟨fun _ _ _ hj => List.mem_reverse.1 hj, fun _ _ _ hj => Or.inl (List.mem_reverse.2 hj),
      fun _ _ => le_of_eq List.length_reverse⟩
  have hmem := Explore.mem_explore_iff hpush List.nodup_range
    (fun i hi j hj => List.mem_range.2 (neighbors_lt i (List.mem_range.1 hi) j hj))
    (List.mem_range.2 hanchor) (fun i hi => absurd hi List.not_mem_nil) i
  rw [contradictionComponent, hmem, or_iff_right List.not_mem_nil]

omit [MaintenanceDigests] in
theorem mem_completeSet {candidates : List Candidate} {anchor : Nat} {a : Candidate}
    (hanchor : candidates[anchor]? = some a) (id : String) :
    id ∈ (contradictionComponent (neighbors candidates) candidates.length anchor).filterMap
        (fun i => (candidates[i]?).map (·.1.id)) ↔ ∃ c, Connected candidates a c ∧ c.1.id = id := by
  have hlt : anchor < candidates.length := (List.getElem?_eq_some_iff.1 hanchor).1
  rw [← ids_of_reach hanchor, List.mem_filterMap]
  constructor
  · rintro ⟨i, hi, hid⟩
    obtain ⟨c, hc, hid⟩ := Option.map_eq_some_iff.1 hid
    exact ⟨i, c, (mem_contradictionComponent hlt i).1 hi, hc, hid⟩
  · rintro ⟨i, c, hreach, hc, hid⟩
    exact ⟨i, (mem_contradictionComponent hlt i).2 hreach, Option.map_eq_some_iff.2 ⟨c, hc, hid⟩⟩

/-- The executor resolves exactly the incompatible sets. -/
theorem validateContradictionResolution_iff
    (run : PlanRun fingerprint db request now plan e authority selected loaded detected notAfter)
    (hup : UpdatedBy db e) {ids : List String} {winner : String} :
    validateContradictionResolution db ids winner e = .ok () ↔
      winner ∈ ids ∧ IncompatibleSet (planCandidates loaded) ids := by
  constructor
  · intro h
    obtain ⟨hwinner, h⟩ := check_bind_eq_ok.1 h
    obtain ⟨candidates, hcandidates, h⟩ := bind_eq_ok.1 h
    obtain ⟨adjacency, hadjacency, h⟩ := bind_eq_ok.1 h
    obtain ⟨_, hadjacency⟩ := check_bind_eq_ok.1 hadjacency
    cases hadjacency
    obtain ⟨anchorId, _, h⟩ := bind_eq_ok.1 h
    obtain ⟨anchor, hanchor, h⟩ := bind_eq_ok.1 h
    obtain ⟨hne, h⟩ := check_bind_eq_ok.1 h
    obtain ⟨hlt, _, _⟩ := List.findIdx?_eq_some_iff_getElem.1 (require_eq_ok.1 hanchor)
    have hget : candidates[anchor]? = some candidates[anchor] := List.getElem?_eq_getElem hlt
    obtain ⟨b, hlink⟩ := (neighbors_ne_nil hget).1 (ensure_eq_ok.1 hne)
    have hset : SortedMap.sortedKeys ids = SortedMap.sortedKeys _ := ensure_eq_ok.1 h
    refine ⟨ensure_eq_ok.1 hwinner, IncompatibleSet.of_perm
      ((executorCandidates_are hcandidates).perm (planCandidates_are run hup))
      ⟨_, b, hlink, fun id => ?_⟩⟩
    rw [← mem_completeSet hget id, ← SortedMap.mem_sortedKeys, hset, SortedMap.mem_sortedKeys]
  · rintro ⟨hwinner, hset⟩
    obtain ⟨candidates, hcandidates⟩ := contradictionCandidates_total run
    have hexecutor := executorCandidates_are hcandidates
    have hperm := hexecutor.perm (planCandidates_are run hup)
    obtain ⟨a, b, hlink, hids⟩ := hset.of_perm hperm.symm
    -- both sides count the same pairs
    obtain ⟨contradictions, _, _, hcontradictions, _⟩ := detectPrivate_eq_ok run.found
    obtain ⟨_, hadjacency, _⟩ := bind_eq_ok.1 hcontradictions
    obtain ⟨hpairs, _⟩ := check_bind_eq_ok.1 hadjacency
    have hpairs' : candidates.length * (candidates.length - 1) / 2 ≤ maxPairComparisons := by
      rw [hperm.length_eq]
      exact ensure_eq_ok.1 hpairs
    obtain ⟨anchorId, hhead⟩ : ∃ anchorId, (SortedMap.sortedKeys ids).head? = some anchorId := by
      have hmem : winner ∈ SortedMap.sortedKeys ids := SortedMap.mem_sortedKeys.2 hwinner
      cases hkeys : SortedMap.sortedKeys ids with
      | nil =>
          rw [hkeys] at hmem
          cases hmem
      | cons id rest => exact ⟨id, rfl⟩
    obtain ⟨c, hac, hid⟩ := (hids anchorId).1
      (SortedMap.mem_sortedKeys.1 (List.mem_of_mem_head? hhead))
    obtain ⟨x, hlinked⟩ := hlink.of_connected hac
    obtain ⟨anchor, hanchor⟩ : ∃ anchor,
        candidates.findIdx? (fun c => decide (c.1.id = anchorId)) = some anchor := by
      rw [← Option.isSome_iff_exists, List.findIdx?_isSome, List.any_eq_true]
      exact ⟨c, hlinked.1, decide_eq_true hid⟩
    obtain ⟨hlt, hanchorId, _⟩ := List.findIdx?_eq_some_iff_getElem.1 hanchor
    obtain rfl : candidates[anchor] = c :=
      hexecutor.unique (List.getElem_mem hlt) hlinked.1 ((of_decide_eq_true hanchorId).trans hid.symm)
    have hget : candidates[anchor]? = some candidates[anchor] := List.getElem?_eq_getElem hlt
    refine check_bind_eq_ok.2 ⟨ensure_of hwinner, bind_eq_ok.2 ⟨candidates, hcandidates,
      bind_eq_ok.2 ⟨_, check_bind_eq_ok.2 ⟨ensure_of hpairs', rfl⟩, bind_eq_ok.2 ⟨anchorId,
        require_eq_ok.2 hhead, bind_eq_ok.2 ⟨anchor, require_eq_ok.2 hanchor,
          check_bind_eq_ok.2 ⟨ensure_of ((neighbors_ne_nil hget).2 ⟨x, hlinked⟩),
            ensure_of (SortedMap.sortedKeys_congr fun id => ?_)⟩⟩⟩⟩⟩⟩
    rw [mem_completeSet hget, hids]
    constructor
    · rintro ⟨y, hy, hid⟩
      exact ⟨y, hac.symm.trans hy, hid⟩
    · rintro ⟨y, hy, hid⟩
      exact ⟨y, hac.trans hy, hid⟩

/-- The ids of the records at the positions reached from one. -/
theorem mem_atPositions
    (run : PlanRun fingerprint db request now plan e authority selected loaded detected notAfter)
    {component : List Nat} {start : Nat} {a : Candidate}
    (hstart : (planCandidates loaded)[start]? = some a)
    (hcomponent : ∀ i, i ∈ component ↔ Explore.Reach (neighbors (planCandidates loaded)) start i)
    (id : String) :
    id ∈ (atPositions (contradictionRecords loaded) component).map LoadedRecord.id ↔
      ∃ c, Connected (planCandidates loaded) a c ∧ c.1.id = id := by
  have hid : ∀ (i : Nat) (l : PrivateLoadedRecord), (contradictionRecords loaded)[i]? = some l →
      (graphInput l).1.id = l.id := by
    intro i l hl
    have hmem : l ∈ loaded := (List.mem_filter.1 (List.mem_of_getElem? hl)).1
    obtain ⟨r, s, d, f, _, rfl⟩ := (run.mem_loaded l).1 hmem
    rfl
  rw [← ids_of_reach hstart, List.mem_map]
  constructor
  · rintro ⟨l, hl, rfl⟩
    obtain ⟨i, hi, hget⟩ := List.mem_filterMap.1 hl
    refine ⟨i, graphInput l, (hcomponent i).1 hi, ?_, hid i l hget⟩
    rw [getElem?_planCandidates, hget, Option.map_some]
  · rintro ⟨i, c, hreach, hget, rfl⟩
    rw [getElem?_planCandidates] at hget
    obtain ⟨l, hl, rfl⟩ := Option.map_eq_some_iff.1 hget
    exact ⟨l, List.mem_filterMap.2 ⟨i, (hcomponent i).2 hreach, hl⟩, (hid i l hl).symm⟩

/-- The components of the planner are the incompatible sets. -/
theorem incompatibleSet_iff_component
    (run : PlanRun fingerprint db request now plan e authority selected loaded detected notAfter)
    {ids : List String} :
    IncompatibleSet (planCandidates loaded) ids ↔
      ∃ component ∈ contradictionComponents (neighbors (planCandidates loaded))
          (planCandidates loaded).length,
        SortedMap.sortedKeys ids = SortedMap.sortedKeys
          ((atPositions (contradictionRecords loaded) component).map LoadedRecord.id) := by
  obtain ⟨hsound, hcomplete⟩ := contradictionComponents_spec (planCandidates loaded)
  constructor
  · rintro ⟨a, b, hlink, hids⟩
    obtain ⟨i, hi, hget⟩ := List.getElem_of_mem hlink.1
    have hget? : (planCandidates loaded)[i]? = some a := List.getElem?_eq_some_iff.2 ⟨hi, hget⟩
    obtain ⟨component, hmem, hin⟩ := hcomplete i hi ((neighbors_ne_nil hget?).2 ⟨b, hlink⟩)
    obtain ⟨start, _, _, _, hreach⟩ := hsound component hmem
    -- the component is what is reached from this position as well
    have hfrom : ∀ j, j ∈ component ↔ Explore.Reach (neighbors (planCandidates loaded)) i j := by
      intro j
      have hback : Explore.Reach (neighbors (planCandidates loaded)) i start :=
        ((hreach i).1 hin).symm neighbors_symm
      exact (hreach j).trans ⟨fun h => hback.trans h, fun h => ((hreach i).1 hin).trans h⟩
    exact ⟨component, hmem, SortedMap.sortedKeys_congr fun id =>
      (hids id).trans (mem_atPositions run hget? hfrom id).symm⟩
  · rintro ⟨component, hmem, hset⟩
    obtain ⟨start, hstart, hne, _, hreach⟩ := hsound component hmem
    have hget? : (planCandidates loaded)[start]? = some (planCandidates loaded)[start] :=
      List.getElem?_eq_getElem hstart
    obtain ⟨b, hlink⟩ := (neighbors_ne_nil hget?).1 hne
    refine ⟨_, b, hlink, fun id => ?_⟩
    rw [← mem_atPositions run hget? hreach id, ← SortedMap.mem_sortedKeys, hset,
      SortedMap.mem_sortedKeys]

/-! ### Renewals -/

/-- What both sides ask of a predecessor and the evidence that renews it: one durable claim from
two origins, the predecessor past its boundary, and a fresh accepted capture behind the evidence. -/
structure Renews (db : Db) (e : OffsetDateTime) (p ev : MemoryRecord) (capture : CaptureProvenance)
    (boundary reviewedAt : OffsetDateTime) : Prop where
  predecessor : requirePrivateRecord db p.id = .ok p
  evidence : requirePrivateRecord db ev.id = .ok ev
  current : isCurrent db ev e = .ok true
  durable : isDurable p.lane = true
  claim : claimBearingType p.memoryType = true
  status : activeOrExpired p
  same : renewalProjection p = renewalProjection ev
  origin : p.origin ≠ ev.origin
  expired : ∃ facts d text, requireFacts db p.id = .ok facts ∧
    baseCurrentAssertion db p facts e = .ok d ∧ d.retention.state = .queryOnly ∧
      d.retention.effectiveBoundary = some text ∧ Rfc3339.parse text = some boundary
  captured : capture? db ev.id = some capture
  accepted : capture.reviewOutcome = .accept ∨ capture.reviewOutcome = .edit
  reviewed : Rfc3339.parse (Text.trim capture.reviewedAt) = some reviewedAt
  fresh : boundary < reviewedAt ∧ reviewedAt ≤ e
  distinct : ∀ prior, capture? db p.id = some prior → prior.evidence ≠ capture.evidence

/-- What only the executor asks: the evidence has no history of its own, and the instant of its
review is written without blanks around it. -/
def Unbound (ev : MemoryRecord) (capture : CaptureProvenance) : Prop :=
  ev.supersedesId = none ∧ ev.lineage = none ∧ Text.trim capture.reviewedAt = capture.reviewedAt

omit [MaintenanceDigests] in
/-- Classification and claim agree exactly when the renewal projections do. -/
theorem renewalProjection_eq_iff {p ev : MemoryRecord} :
    renewalProjection p = renewalProjection ev ↔
      ensureCompatibleClassification p ev = .ok () ∧
        normalizeText p.title = normalizeText ev.title ∧ Text.trim p.body = Text.trim ev.body := by
  unfold ensureCompatibleClassification renewalProjection
  rw [ensure_eq_ok, RenewalProjection.mk.injEq]
  constructor
  · rintro ⟨h1, h2, h3, h4, h5, h6, h7, h8⟩
    exact ⟨⟨h1, h2, h3, h4, h5, h6⟩, h7, h8⟩
  · rintro ⟨⟨h1, h2, h3, h4, h5, h6⟩, h7, h8⟩
    exact ⟨h1, h2, h3, h4, h5, h6, h7, h8⟩

omit [Text.Unicode] [MaintenanceDigests] in
theorem isDurable_iff {lane : MemoryLane} :
    isDurable lane = true ↔ lane = .semantic ∨ lane = .procedural := by
  simp [isDurable]

omit [Text.Unicode] [MaintenanceDigests] in
theorem id_of_required {id : String} {r : MemoryRecord} (h : requirePrivateRecord db id = .ok r) :
    r.id = id :=
  Table.key_of_get? (requirePrivateRecord_iff.1 h).1

omit [Text.Unicode] [MaintenanceDigests] in
theorem validateRenewalEvidence_iff {pid evid : String} {boundary : OffsetDateTime} :
    validateRenewalEvidence db pid evid boundary e = .ok () ↔
      ∃ capture reviewedAt, capture? db evid = some capture ∧
        (capture.reviewOutcome = .accept ∨ capture.reviewOutcome = .edit) ∧
        Rfc3339.parse capture.reviewedAt = some reviewedAt ∧
        (boundary < reviewedAt ∧ reviewedAt ≤ e) ∧
        ∀ prior, capture? db pid = some prior → prior.evidence ≠ capture.evidence := by
  constructor
  · intro h
    obtain ⟨capture, hcapture, h⟩ := bind_eq_ok.1 h
    obtain ⟨haccepted, h⟩ := check_bind_eq_ok.1 h
    obtain ⟨reviewedAt, hreviewed, h⟩ := bind_eq_ok.1 h
    obtain ⟨hfresh, h⟩ := check_bind_eq_ok.1 h
    refine ⟨capture, reviewedAt, require_eq_ok.1 hcapture, ensure_eq_ok.1 haccepted,
      require_eq_ok.1 hreviewed, ensure_eq_ok.1 hfresh, fun prior hprior => ?_⟩
    rw [hprior] at h
    exact ensure_eq_ok.1 h
  · rintro ⟨capture, reviewedAt, hcapture, haccepted, hreviewed, hfresh, h⟩
    refine bind_eq_ok.2 ⟨capture, require_eq_ok.2 hcapture, check_bind_eq_ok.2 ⟨ensure_of haccepted,
      bind_eq_ok.2 ⟨reviewedAt, require_eq_ok.2 hreviewed, check_bind_eq_ok.2
        ⟨ensure_of hfresh, ?_⟩⟩⟩⟩
    cases hprior : capture? db pid with
    | none => rfl
    | some prior => exact ensure_of (h prior hprior)

omit [MaintenanceDigests] in
/-- The executor renews exactly the pairs with unbound evidence. -/
theorem validateRenewal_iff {pid evid : String} :
    validateRenewal db pid evid e = .ok () ↔ ∃ p ev capture boundary reviewedAt,
      p.id = pid ∧ ev.id = evid ∧ Renews db e p ev capture boundary reviewedAt ∧
        Unbound ev capture := by
  constructor
  · intro h
    obtain ⟨p, hp, h⟩ := bind_eq_ok.1 h
    obtain ⟨ev, hev, h⟩ := bind_eq_ok.1 h
    obtain rfl := id_of_required hp
    obtain rfl := id_of_required hev
    obtain ⟨hlane, h⟩ := check_bind_eq_ok.1 h
    obtain ⟨hstatus, h⟩ := check_bind_eq_ok.1 h
    obtain ⟨_, h⟩ := check_bind_eq_ok.1 h
    obtain ⟨hfree, h⟩ := check_bind_eq_ok.1 h
    obtain ⟨hcompatible, h⟩ := check_bind_eq_ok.1 h
    obtain ⟨hclaim, h⟩ := check_bind_eq_ok.1 h
    obtain ⟨horigin, h⟩ := check_bind_eq_ok.1 h
    obtain ⟨facts, hfacts, h⟩ := bind_eq_ok.1 h
    obtain ⟨d, hd, h⟩ := bind_eq_ok.1 h
    obtain ⟨hquery, h⟩ := check_bind_eq_ok.1 h
    obtain ⟨text, htext, h⟩ := bind_eq_ok.1 h
    obtain ⟨boundary, hboundary, h⟩ := bind_eq_ok.1 h
    obtain ⟨current, hcurrent, h⟩ := bind_eq_ok.1 h
    obtain ⟨htrue, h⟩ := check_bind_eq_ok.1 h
    obtain rfl : current = true := ensure_eq_ok.1 htrue
    obtain ⟨capture, reviewedAt, hcapture, haccepted, hreviewed, hfresh, hdistinct⟩ :=
      validateRenewalEvidence_iff.1 h
    have hlane := ensure_eq_ok.1 hlane
    have hfree := ensure_eq_ok.1 hfree
    have htrim : Text.trim capture.reviewedAt = capture.reviewedAt := Rfc3339.trim_of_parse hreviewed
    refine ⟨p, ev, capture, boundary, reviewedAt, rfl, rfl,
      ⟨hp, hev, hcurrent, isDurable_iff.2 hlane.1, hlane.2.2.1, ensure_eq_ok.1 hstatus,
        renewalProjection_eq_iff.2 ⟨hcompatible, ensure_eq_ok.1 hclaim⟩, ensure_eq_ok.1 horigin,
        ⟨facts, d, text, hfacts, hd, ensure_eq_ok.1 hquery, require_eq_ok.1 htext,
          require_eq_ok.1 hboundary⟩, hcapture, haccepted, ?_, hfresh, hdistinct⟩,
      Option.isNone_iff_eq_none.1 hfree.1, Option.isNone_iff_eq_none.1 hfree.2, htrim⟩
    rw [htrim]
    exact hreviewed
  · rintro ⟨p, ev, capture, boundary, reviewedAt, rfl, rfl, h, hsupersedes, hlineage, htrim⟩
    obtain ⟨facts, d, text, hfacts, hd, hquery, htext, hboundary⟩ := h.expired
    obtain ⟨hcompatible, hclaim⟩ := renewalProjection_eq_iff.1 h.same
    have hclassified := ensure_eq_ok.1 hcompatible
    have hactive : ev.status = .active :=
      Current.active ⟨mem_recordsForPreservation.2 ⟨(requirePrivateRecord_iff.1 h.evidence).1,
        (ensure_eq_ok.1 (requirePrivateRecord_iff.1 h.evidence).2).1⟩, h.current⟩
    have hreviewed := h.reviewed
    rw [htrim] at hreviewed
    refine bind_eq_ok.2 ⟨p, h.predecessor, bind_eq_ok.2 ⟨ev, h.evidence, check_bind_eq_ok.2
      ⟨ensure_of ⟨isDurable_iff.1 h.durable, hclassified.2.1, h.claim, hclassified.1 ▸ h.claim⟩,
      check_bind_eq_ok.2 ⟨ensure_of h.status, check_bind_eq_ok.2 ⟨ensure_of hactive,
      check_bind_eq_ok.2 ⟨ensure_of ⟨by rw [hsupersedes]; rfl, by rw [hlineage]; rfl⟩,
      check_bind_eq_ok.2 ⟨hcompatible, check_bind_eq_ok.2 ⟨ensure_of hclaim,
      check_bind_eq_ok.2 ⟨ensure_of h.origin, ?_⟩⟩⟩⟩⟩⟩⟩⟩⟩
    refine bind_eq_ok.2 ⟨facts, hfacts, bind_eq_ok.2 ⟨d, hd, check_bind_eq_ok.2 ⟨ensure_of hquery,
      bind_eq_ok.2 ⟨text, require_eq_ok.2 htext, bind_eq_ok.2 ⟨boundary, require_eq_ok.2 hboundary,
      bind_eq_ok.2 ⟨true, h.current, check_bind_eq_ok.2 ⟨ensure_of rfl, ?_⟩⟩⟩⟩⟩⟩⟩
    exact validateRenewalEvidence_iff.2
      ⟨capture, reviewedAt, h.captured, h.accepted, hreviewed, h.fresh, h.distinct⟩

/-- The boundaries of a plan are written by the program, so trimming leaves them alone. -/
theorem boundary_trim
    (run : PlanRun fingerprint db request now plan e authority selected loaded detected notAfter)
    {l : PrivateLoadedRecord} (hl : l ∈ loaded) {text : String}
    (h : l.snapshot.retentionBoundary = some text) : Text.trim text = text := by
  obtain ⟨_, hvalid⟩ := check_bind_eq_ok.1 run.valid
  obtain ⟨hvalid, _⟩ := check_bind_eq_ok.1 hvalid
  unfold PlanContents.validate at hvalid
  obtain ⟨_, hvalid⟩ := check_bind_eq_ok.1 hvalid
  obtain ⟨_, hvalid⟩ := check_bind_eq_ok.1 hvalid
  obtain ⟨_, hvalid⟩ := check_bind_eq_ok.1 hvalid
  obtain ⟨hrecords, _⟩ := check_bind_eq_ok.1 hvalid
  have hsnapshot : l.snapshot ∈ plan.records := by
    rw [run.contents]
    exact List.mem_map_of_mem hl
  have hrecord := checkAll_eq_ok.1 hrecords l.snapshot hsnapshot
  unfold validateRecord at hrecord
  obtain ⟨_, hrecord⟩ := check_bind_eq_ok.1 hrecord
  obtain ⟨_, hrecord⟩ := check_bind_eq_ok.1 hrecord
  obtain ⟨_, hrecord⟩ := check_bind_eq_ok.1 hrecord
  obtain ⟨_, hrecord⟩ := check_bind_eq_ok.1 hrecord
  obtain ⟨_, hrecord⟩ := check_bind_eq_ok.1 hrecord
  obtain ⟨_, hrecord⟩ := check_bind_eq_ok.1 hrecord
  obtain ⟨hboundary, _⟩ := check_bind_eq_ok.1 hrecord
  rw [h] at hboundary
  obtain ⟨parsed, hparsed, _⟩ := bind_eq_ok.1 hboundary
  obtain ⟨at_, _, hparsed⟩ := bind_eq_ok.1 hparsed
  obtain ⟨written, hwritten, hparsed⟩ := bind_eq_ok.1 hparsed
  obtain ⟨hsame, _⟩ := check_bind_eq_ok.1 hparsed
  rw [← ensure_eq_ok.1 hsame]
  exact Rfc3339.trim_format (Retention.format_of_formatTimestamp hwritten)

omit [Text.Unicode] in
/-- On the captures of a store the digests of evidence agree only where the evidence does. -/
theorem sameEvidence_iff {p : PrivateLoadedRecord} (pid : String) {evid : String}
    (hevidence : ∀ c ∈ db.captures.rows, ∀ c' ∈ db.captures.rows,
      MaintenanceDigests.captureEvidence c.provenance.evidence =
          MaintenanceDigests.captureEvidence c'.provenance.evidence →
        c.provenance.evidence = c'.provenance.evidence)
    (hp : MaintenanceRecord.capture p.record = capture? db pid) {capture : CaptureProvenance}
    (hcapture : capture? db evid = some capture) :
    sameEvidence p (MaintenanceDigests.captureEvidence capture.evidence) = false ↔
      ∀ prior, capture? db pid = some prior → prior.evidence ≠ capture.evidence := by
  have hrow : ∀ {id : String} {c : CaptureProvenance}, capture? db id = some c →
      ∃ row ∈ db.captures.rows, row.provenance = c := by
    intro id c hc
    obtain ⟨row, hrow, hprovenance⟩ := Option.map_eq_some_iff.1 hc
    exact ⟨row, Table.mem_of_get? hrow, hprovenance⟩
  unfold sameEvidence
  rw [hp]
  cases hprior : capture? db pid with
  | none => exact ⟨fun _ prior h => absurd h (by simp), fun _ => rfl⟩
  | some prior =>
      show decide (MaintenanceDigests.captureEvidence prior.evidence =
        MaintenanceDigests.captureEvidence capture.evidence) = false ↔ _
      rw [decide_eq_false_iff_not]
      constructor
      · rintro hne prior' hprior' heq
        cases hprior'
        exact hne (congrArg _ heq)
      · intro h heq
        obtain ⟨row, hmem, rfl⟩ := hrow hprior
        obtain ⟨row', hmem', rfl⟩ := hrow hcapture
        exact h _ rfl (hevidence row hmem row' hmem' heq)

/-- A pair the planner finds is one that renews. -/
theorem renews_of_pair
    (run : PlanRun fingerprint db request now plan e authority selected loaded detected notAfter)
    (hup : UpdatedBy db e) (hdigests : NoCollisions db) {lp lev : PrivateLoadedRecord}
    {boundary : OffsetDateTime} (h : RenewalPair loaded selected e lp lev boundary) :
    ∃ p ev capture reviewedAt, lp.id = p.id ∧ lev.id = ev.id ∧
      Renews db e p ev capture boundary reviewedAt := by
  obtain ⟨hp, hev, hboundary, hpair⟩ := h
  obtain ⟨hlp, hp⟩ := List.mem_filter.1 hp
  obtain ⟨hlev, hev⟩ := List.mem_filter.1 hev
  simp only [Bool.and_eq_true, Bool.or_eq_true, decide_eq_true_eq] at hp hev
  obtain ⟨⟨⟨hpEligible, hpStatus⟩, hquery⟩, hsome⟩ := hp
  obtain ⟨⟨⟨hevEligible, hcurrent⟩, hclaim⟩, _⟩ := hev
  obtain ⟨p, s, d, f, hploads, rfl⟩ := (run.mem_loaded lp).1 hlp
  obtain ⟨ev, s', d', f', hevloads, hevcurrent, rfl⟩ := (mem_current run hup).1 ⟨hlev, hcurrent⟩
  obtain ⟨text, htext⟩ := Option.isSome_iff_exists.1 hsome
  have htrim := boundary_trim run hlp htext
  have hparse : Rfc3339.parse text = some boundary := by
    rw [htext] at hboundary
    have h := require_eq_ok.1 hboundary
    rwa [Option.getD_some, htrim] at h
  obtain ⟨_, hbound, capture, reviewedAt, hcapture, haccepted, hreviewed, hfresh, hnew⟩ :=
    renewalPair_iff.1 hpair
  unfold LoadedRecord.renewalEligible at hpEligible
  simp only [Bool.and_eq_true] at hpEligible
  have hcaptured : capture? db ev.id = some capture := hcapture
  refine ⟨p, ev, capture, reviewedAt, rfl, rfl, ⟨hploads.record, hevloads.record, hevcurrent.2,
    hpEligible.1.2, hpEligible.2, hpStatus, ?_, ?_, ⟨s.toLifecycleFacts, d, text, hploads.facts,
    hploads.decision, hquery, htext, hparse⟩, hcaptured, haccepted, hreviewed, hfresh, ?_⟩⟩
  · exact (hdigests.renewal ev hevloads.mem p hploads.mem hclaim).symm
  · intro horigin
    have hfree := (Bool.or_eq_false_iff.1 hbound).1
    exact absurd horigin.symm (of_decide_eq_false hfree)
  · exact (sameEvidence_iff p.id hdigests.evidence rfl hcaptured).1 hnew

/-- A pair that renews, on a predecessor its evidence does not name, is found once it is selected. -/
theorem pair_of_renews
    (run : PlanRun fingerprint db request now plan e authority selected loaded detected notAfter)
    (hup : UpdatedBy db e) (hdigests : NoCollisions db) {p ev : MemoryRecord}
    {capture : CaptureProvenance} {boundary reviewedAt : OffsetDateTime}
    (h : Renews db e p ev capture boundary reviewedAt) (hlineage : ev.lineage = none)
    (hselected : p.id ∈ selected ∨ ev.id ∈ selected) :
    ∃ lp lev, lp.id = p.id ∧ lev.id = ev.id ∧ RenewalPair loaded selected e lp lev boundary := by
  have hpmem : p ∈ recordsForPreservation db := mem_recordsForPreservation.2
    ⟨(requirePrivateRecord_iff.1 h.predecessor).1,
      (ensure_eq_ok.1 (requirePrivateRecord_iff.1 h.predecessor).2).1⟩
  have hevmem : ev ∈ recordsForPreservation db := mem_recordsForPreservation.2
    ⟨(requirePrivateRecord_iff.1 h.evidence).1,
      (ensure_eq_ok.1 (requirePrivateRecord_iff.1 h.evidence).2).1⟩
  obtain ⟨s, d, f, hploads⟩ := run.loads p hpmem
  obtain ⟨s', d', f', hevloads⟩ := run.loads ev hevmem
  obtain ⟨facts, d₀, text, hfacts, hd, hquery, htext, hparse⟩ := h.expired
  cases hploads.facts.symm.trans hfacts
  cases hploads.decision.symm.trans hd
  have hlp := (run.mem_loaded _).2 ⟨p, s, d, f, hploads, rfl⟩
  obtain ⟨hlev, hcurrent⟩ := (mem_current run hup).2
    ⟨ev, s', d', f', hevloads, ⟨hevmem, h.current⟩, rfl⟩
  have hpEligible := (loadedOf_current selected hup hploads).1
  have hevEligible := (loadedOf_current selected hup hevloads).1
  have hclassified := ensure_eq_ok.1 (renewalProjection_eq_iff.1 h.same).1
  have htrim := boundary_trim run hlp htext
  refine ⟨_, _, rfl, rfl, List.mem_filter.2 ⟨hlp, ?_⟩, List.mem_filter.2 ⟨hlev, ?_⟩, ?_,
    renewalPair_iff.2 ⟨?_, ?_, capture, reviewedAt, h.captured, h.accepted, h.reviewed, h.fresh,
      (sameEvidence_iff p.id hdigests.evidence rfl h.captured).2 h.distinct⟩⟩
  · have heligible : (loadedOf db selected e p s d f).renewalEligible = true := by
      unfold LoadedRecord.renewalEligible
      rw [hpEligible]
      show (true && isDurable p.lane && claimBearingType p.memoryType) = true
      rw [h.durable, h.claim]
      rfl
    have hstatus : (decide (p.status = .active) || decide (p.status = .expired)) = true := by
      simpa [activeOrExpired] using h.status
    show (_ && (decide (p.status = .active) || decide (p.status = .expired)) &&
      decide (d.retention.state = .queryOnly) && d.retention.effectiveBoundary.isSome) = true
    rw [heligible, hstatus, hquery, htext]
    rfl
  · have heligible : (loadedOf db selected e ev s' d' f').renewalEligible = true := by
      unfold LoadedRecord.renewalEligible
      rw [hevEligible]
      show (true && isDurable ev.lane && claimBearingType ev.memoryType) = true
      rw [← hclassified.2.1, ← hclassified.1, h.durable, h.claim]
      rfl
    have hdigest : privateRenewalClaimDigest ev = privateRenewalClaimDigest p :=
      congrArg MaintenanceDigests.renewalClaim h.same.symm
    have hne : ev.id ≠ p.id := by
      intro hid
      exact h.origin (congrArg MemoryRecord.origin (record_unique hevmem hpmem hid)).symm
    show (_ && _ && decide (privateRenewalClaimDigest ev = privateRenewalClaimDigest p) &&
      decide (ev.id ≠ p.id)) = true
    rw [heligible, hcurrent, decide_eq_true hdigest, decide_eq_true hne]
    rfl
  · have hboundary : (loadedOf db selected e p s d f).snapshot.retentionBoundary = some text := htext
    rw [hboundary]
    refine require_eq_ok.2 ?_
    rw [Option.getD_some, htrim]
    exact hparse
  · show (selected.contains p.id || (selected.contains ev.id || false)) = true
    rcases hselected with hin | hin
    · simp [hin]
    · simp [hin]
  · have horigin : decide (ev.origin = p.origin) = false := decide_eq_false (Ne.symm h.origin)
    show (decide (ev.origin = p.origin) || ev.lineage.any _) = false
    rw [horigin, hlineage]
    rfl

/-! ### The owner actions of a plan -/

/-- A finding of the plan, with an owner action that proposes it. -/
def Offers (plan : MaintenancePlan) (class_ : MaintenanceActionClass) (ids : List String)
    (predecessor evidence : Option String) : Prop :=
  ∃ f ∈ plan.findings, ∃ a ∈ plan.actionGroups.ownerAuthorizedPrivateMutation,
    f.kind = class_.findingKind ∧ f.recordIds = SortedMap.sortedKeys ids ∧
      a.findingId = f.findingId ∧ a.class_ = class_ ∧ a.recordIds = f.recordIds ∧
        a.predecessorRecordId = predecessor ∧ a.evidenceRecordId = evidence

theorem plan_ownerActions
    (run : PlanRun fingerprint db request now plan e authority selected loaded detected notAfter)
    {a : MaintenanceAction} : a ∈ plan.actionGroups.ownerAuthorizedPrivateMutation ↔
      ∃ det ∈ detected, a ∈ det.otherActions := by
  have h := congrArg (fun c => c.actionGroups.ownerAuthorizedPrivateMutation) run.contents
  rw [show plan.actionGroups.ownerAuthorizedPrivateMutation = _ from h]
  exact mem_ownerActions

/-- What is detected for a group is offered by the plan. -/
theorem offers_of_detected
    (run : PlanRun fingerprint db request now plan e authority selected loaded detected notAfter)
    {det : Detected} (hdet : det ∈ detected) {a : MaintenanceAction} (ha : a ∈ det.otherActions)
    {ids : List String} (hkind : det.finding.kind = a.class_.findingKind)
    (hids : det.finding.recordIds = SortedMap.sortedKeys ids)
    (hfinding : a.findingId = det.finding.findingId) (hrecords : a.recordIds = det.finding.recordIds) :
    Offers plan a.class_ ids a.predecessorRecordId a.evidenceRecordId := by
  have hfindings : plan.findings = (attachActions detected).1 :=
    congrArg (fun c => c.findings) run.contents
  have hmem := mem_findings.2 ⟨det, hdet, rfl⟩
  rw [← hfindings] at hmem
  exact ⟨_, hmem, a, (plan_ownerActions run).2 ⟨det, hdet, ha⟩, hkind, hids, hfinding, rfl, hrecords,
    rfl, rfl⟩

/-- Where an owner action comes from: a group of duplicates, a component of contradictions, or a
renewal pair. -/
theorem ownerAction_cases
    (run : PlanRun fingerprint db request now plan e authority selected loaded detected notAfter)
    {a : MaintenanceAction} (ha : a ∈ plan.actionGroups.ownerAuthorizedPrivateMutation) :
    (a.class_ = .ownerConsolidateExactDuplicates ∧ ∃ group ∈ duplicateGroups loaded,
        a.recordIds = SortedMap.sortedKeys (group.map LoadedRecord.id)) ∨
      (a.class_ = .ownerResolveContradiction ∧
        ∃ component ∈ contradictionComponents (neighbors (planCandidates loaded))
            (planCandidates loaded).length,
          a.recordIds = SortedMap.sortedKeys
            ((atPositions (contradictionRecords loaded) component).map LoadedRecord.id)) ∨
      (a.class_ = .ownerCreateRenewalSuccessor ∧ ∃ p ev boundary,
        RenewalPair loaded selected e p ev boundary ∧
          a.predecessorRecordId = some p.id ∧ a.evidenceRecordId = some ev.id) := by
  obtain ⟨det, hdet, ha⟩ := (plan_ownerActions run).1 ha
  obtain ⟨contradictions, stale, renewals, hcontradictions, hstale, hrenewals, rfl⟩ :=
    detectPrivate_eq_ok run.found
  rcases List.mem_append.1 hdet with hdet | hdet
  · rcases List.mem_append.1 hdet with hdet | hdet
    · rcases List.mem_append.1 hdet with hdet | hdet
      · rcases List.mem_append.1 hdet with hdet | hdet
        · obtain ⟨group, hgroup, rfl⟩ := List.mem_map.1 hdet
          rw [List.mem_singleton.1 ha]
          exact Or.inl ⟨rfl, group, (List.mem_filter.1 hgroup).1, rfl⟩
        · obtain ⟨component, hcomponent, _, rfl⟩ := (mem_contradictions hcontradictions det).1 hdet
          rw [List.mem_singleton.1 ha]
          exact Or.inr (Or.inl ⟨rfl, component, hcomponent, rfl⟩)
      · rw [(no_action_of_stale hstale hdet).2] at ha
        cases ha
    · rw [(no_action_of_expired hdet).2] at ha
      cases ha
  · obtain ⟨p, ev, boundary, boundaryText, hpair, rfl⟩ := pair_of_renewal hrenewals hdet
    rw [List.mem_singleton.1 ha]
    exact Or.inr (Or.inr ⟨rfl, p, ev, boundary, hpair, rfl, rfl⟩)

/-- The ids a plan is about are those it selected. -/
theorem mem_selected_of_target
    (run : PlanRun fingerprint db request now plan e authority selected loaded detected notAfter)
    {id : String} (h : id ∈ plan.scope.targetRecordIds) : id ∈ selected := by
  have hscope := congrArg (fun c => c.scope.targetRecordIds) run.contents
  rw [show plan.scope.targetRecordIds = _ from hscope] at h
  obtain ⟨snapshot, hsnapshot, rfl⟩ := List.mem_map.1 h
  obtain ⟨hmem, htarget⟩ := List.mem_filter.1 hsnapshot
  obtain ⟨l, hl, rfl⟩ := List.mem_map.1 hmem
  obtain ⟨r, s, d, f, _, rfl⟩ := (run.mem_loaded l).1 hl
  exact List.contains_iff_mem.1 htarget

omit [Text.Unicode] [MaintenanceDigests] in
theorem touches_of_mem {group : List PrivateLoadedRecord} {id : String}
    (hid : id ∈ group.map LoadedRecord.id) (hselected : id ∈ selected) :
    touches selected group = true := by
  obtain ⟨l, hl, rfl⟩ := List.mem_map.1 hid
  exact List.any_eq_true.2 ⟨l, hl, List.contains_iff_mem.2 hselected⟩

theorem offers_duplicates
    (run : PlanRun fingerprint db request now plan e authority selected loaded detected notAfter)
    {ids : List String} {group : List PrivateLoadedRecord} (hgroup : group ∈ duplicateGroups loaded)
    (hset : SortedMap.sortedKeys ids = SortedMap.sortedKeys (group.map LoadedRecord.id))
    {id : String} (hid : id ∈ ids) (hselected : id ∈ selected) :
    Offers plan .ownerConsolidateExactDuplicates ids none none := by
  have hin : id ∈ group.map LoadedRecord.id := by
    rwa [← SortedMap.mem_sortedKeys, ← hset, SortedMap.mem_sortedKeys]
  obtain ⟨contradictions, stale, renewals, _, _, _, hdetected⟩ := detectPrivate_eq_ok run.found
  have hdet : _ ∈ detectPrivateExactDuplicates loaded selected
      (comparisonDigest (loaded.map (·.snapshot))) :=
    List.mem_map_of_mem (List.mem_filter.2 ⟨hgroup, touches_of_mem hin hselected⟩)
  have hmem := List.mem_append_left renewals (List.mem_append_left (detectExpiry loaded selected)
    (List.mem_append_left stale (List.mem_append_left contradictions hdet)))
  rw [← hdetected] at hmem
  exact offers_of_detected run hmem List.mem_cons_self rfl hset.symm rfl rfl

theorem offers_contradictions
    (run : PlanRun fingerprint db request now plan e authority selected loaded detected notAfter)
    {ids : List String} {component : List Nat}
    (hcomponent : component ∈ contradictionComponents (neighbors (planCandidates loaded))
      (planCandidates loaded).length)
    (hset : SortedMap.sortedKeys ids = SortedMap.sortedKeys
      ((atPositions (contradictionRecords loaded) component).map LoadedRecord.id))
    {id : String} (hid : id ∈ ids) (hselected : id ∈ selected) :
    Offers plan .ownerResolveContradiction ids none none := by
  have hin : id ∈ (atPositions (contradictionRecords loaded) component).map LoadedRecord.id := by
    rwa [← SortedMap.mem_sortedKeys, ← hset, SortedMap.mem_sortedKeys]
  obtain ⟨contradictions, stale, renewals, hcontradictions, _, _, hdetected⟩ :=
    detectPrivate_eq_ok run.found
  have hdet := (mem_contradictions hcontradictions _).2
    ⟨component, hcomponent, touches_of_mem hin hselected, rfl⟩
  have hmem := List.mem_append_left renewals (List.mem_append_left (detectExpiry loaded selected)
    (List.mem_append_left stale (List.mem_append_right
      (detectPrivateExactDuplicates loaded selected (comparisonDigest (loaded.map (·.snapshot))))
      hdet)))
  rw [← hdetected] at hmem
  exact offers_of_detected run hmem List.mem_cons_self rfl hset.symm rfl rfl

theorem offers_renewal
    (run : PlanRun fingerprint db request now plan e authority selected loaded detected notAfter)
    {p ev : PrivateLoadedRecord} {boundary : OffsetDateTime}
    (hpair : RenewalPair loaded selected e p ev boundary) :
    Offers plan .ownerCreateRenewalSuccessor [p.id, ev.id] (some p.id) (some ev.id) := by
  obtain ⟨contradictions, stale, renewals, _, _, hrenewals, hdetected⟩ :=
    detectPrivate_eq_ok run.found
  obtain ⟨boundaryText, hdet⟩ := renewal_of_pair hrenewals hpair
  have hmem := List.mem_append_right (detectPrivateExactDuplicates loaded selected
    (comparisonDigest (loaded.map (·.snapshot))) ++ contradictions ++ stale ++
      detectExpiry loaded selected) hdet
  rw [← hdetected] at hmem
  exact offers_of_detected run hmem List.mem_cons_self rfl rfl rfl rfl

/-! ### Planner and executor -/

/-- The condition under which an offered action is admitted: the evidence of a renewal has no
history of its own, and its review is written without blanks around it. -/
def OnUnboundEvidence (db : Db) (action : PrivateLifecycleAction) : Prop :=
  match action with
  | .renewFromEvidence _ _ evidenceRecordId _ => ∀ ev capture,
      db.records.get? evidenceRecordId = some ev →
      capture? db evidenceRecordId = some capture → Unbound ev capture
  | _ => True

/-- The plan has a finding for the action, and offers it. -/
def Corresponds (plan : MaintenancePlan) (action : PrivateLifecycleAction) : Prop :=
  match action with
  | .consolidate recordIds _ _ => Offers plan .ownerConsolidateExactDuplicates recordIds none none
  | .resolveContradiction recordIds _ _ =>
    Offers plan .ownerResolveContradiction recordIds none none
  | .renewFromEvidence predecessorId _ evidenceRecordId _ =>
    Offers plan .ownerCreateRenewalSuccessor [predecessorId, evidenceRecordId] (some predecessorId)
      (some evidenceRecordId)
  | _ => True

/-- An offered action, requested with the owner's choice, is admitted exactly on unbound evidence. -/
theorem offered_admitted_iff
    (run : PlanRun fingerprint db request now plan e authority selected loaded detected notAfter)
    (hup : UpdatedBy db e) (hdigests : NoCollisions db) {a : MaintenanceAction}
    (ha : a ∈ plan.actionGroups.ownerAuthorizedPrivateMutation) {action : PrivateLifecycleAction}
    (hmatch : requestActionMatchesCandidate action a = true) :
    validateActionSemantics db action e = .ok () ↔ OnUnboundEvidence db action := by
  have hsorted : ∀ {ids ids' ids'' : List String}, SortedMap.sortedKeys ids =
      SortedMap.sortedKeys ids' → ids' = SortedMap.sortedKeys ids'' →
        SortedMap.sortedKeys ids = SortedMap.sortedKeys ids'' := by
    intro ids ids' ids'' h h'
    rw [h, h']
    exact SortedMap.sortedKeys_congr fun id => SortedMap.mem_sortedKeys
  unfold requestActionMatchesCandidate at hmatch
  rcases ownerAction_cases run ha with ⟨hclass, group, hgroup, hids⟩ |
    ⟨hclass, component, hcomponent, hids⟩ | ⟨hclass, p, ev, boundary, hpair, hp, hev⟩
  · rw [hclass] at hmatch
    cases action with
    | consolidate recordIds versions keeper =>
        simp only [Bool.and_eq_true, decide_eq_true_eq] at hmatch
        have hset := (duplicateSet_iff_group run hup hdigests).2
          ⟨group, hgroup, hsorted hmatch.1.1 hids⟩
        exact iff_of_true ((validateConsolidation_iff run).2
          ⟨List.contains_iff_mem.1 hmatch.1.2, hset.2⟩) trivial
    | _ => cases hmatch
  · rw [hclass] at hmatch
    cases action with
    | resolveContradiction recordIds versions winner =>
        simp only [Bool.and_eq_true, decide_eq_true_eq] at hmatch
        have hset := (incompatibleSet_iff_component run).2
          ⟨component, hcomponent, hsorted hmatch.1.1 hids⟩
        exact iff_of_true ((validateContradictionResolution_iff run hup).2
          ⟨List.contains_iff_mem.1 hmatch.1.2, hset⟩) trivial
    | _ => cases hmatch
  · rw [hclass] at hmatch
    cases action with
    | renewFromEvidence pid pversion evid evversion =>
        simp only [Bool.and_eq_true, decide_eq_true_eq] at hmatch
        obtain ⟨r, s, capture, reviewedAt, hr, hs, hrenews⟩ := renews_of_pair run hup hdigests hpair
        obtain rfl : r.id = pid := by
          rw [← hr]
          exact Option.some.inj (hp.symm.trans hmatch.1.1.1)
        obtain rfl : s.id = evid := by
          rw [← hs]
          exact Option.some.inj (hev.symm.trans hmatch.1.1.2)
        have hget := (requirePrivateRecord_iff.1 hrenews.evidence).1
        refine validateRenewal_iff.trans ⟨?_, fun h => ?_⟩
        · rintro ⟨r', s', capture', _, _, _, hid, hrenews', hunbound⟩ x y hx hy
          have hget' := (requirePrivateRecord_iff.1 hrenews'.evidence).1
          have hcaptured := hrenews'.captured
          rw [hid] at hget' hcaptured
          cases hget'.symm.trans hx
          cases hcaptured.symm.trans hy
          exact hunbound
        · exact ⟨r, s, capture, boundary, reviewedAt, rfl, rfl, hrenews, h s capture hget
            hrenews.captured⟩
    | _ => cases hmatch

/-- An admitted action on records the plan is about has a finding of the plan. -/
theorem admitted_corresponds
    (run : PlanRun fingerprint db request now plan e authority selected loaded detected notAfter)
    (hup : UpdatedBy db e) (hdigests : NoCollisions db) {action : PrivateLifecycleAction}
    (hvalid : PrivateLifecycle.validateAction action = .ok ())
    (htarget : ∃ id ∈ action.mutationTargets, id ∈ plan.scope.targetRecordIds)
    (hadmitted : validateActionSemantics db action e = .ok ()) : Corresponds plan action := by
  obtain ⟨id, hid, htarget⟩ := htarget
  have hselected := mem_selected_of_target run htarget
  unfold PrivateLifecycle.validateAction at hvalid
  obtain ⟨_, hvalid⟩ := check_bind_eq_ok.1 hvalid
  obtain ⟨hnodup, hvalid⟩ := check_bind_eq_ok.1 hvalid
  have hnodup := ensure_eq_ok.1 hnodup
  cases action with
  | consolidate recordIds versions keeper =>
      have htwo : 2 ≤ recordIds.length := ensure_eq_ok.1 (check_bind_eq_ok.1 hvalid).1
      have hlength : recordIds.length = (SortedMap.sortedKeys recordIds).length := hnodup
      obtain ⟨_, hset⟩ := (validateConsolidation_iff run).1 hadmitted
      obtain ⟨group, hgroup, hids⟩ := (duplicateSet_iff_group run hup hdigests).1
        ⟨by omega, hset⟩
      exact offers_duplicates run hgroup hids hid hselected
  | resolveContradiction recordIds versions winner =>
      obtain ⟨_, hset⟩ := (validateContradictionResolution_iff run hup).1 hadmitted
      obtain ⟨component, hcomponent, hids⟩ := (incompatibleSet_iff_component run).1 hset
      exact offers_contradictions run hcomponent hids hid hselected
  | renewFromEvidence pid pversion evid evversion =>
      obtain ⟨p, ev, capture, boundary, reviewedAt, rfl, rfl, hrenews, hunbound⟩ :=
        validateRenewal_iff.1 hadmitted
      have hone : p.id ∈ selected ∨ ev.id ∈ selected := by
        rcases List.mem_cons.1 hid with rfl | hid
        · exact Or.inl hselected
        · exact Or.inr (List.mem_singleton.1 hid ▸ hselected)
      obtain ⟨lp, lev, hlp, hlev, hpair⟩ :=
        pair_of_renews run hup hdigests hrenews hunbound.2.1 hone
      have hoffers := offers_renewal run hpair
      rw [hlp, hlev] at hoffers
      exact hoffers
  | _ => trivial

/-- What a fresh private plan offers is admitted exactly when the evidence of every renewal is
unbound, and what is admitted on the records of the plan has a finding in it. -/
theorem planner_agrees_with_executor (hplan : planPrivateLifecycle fingerprint db request now = .ok plan)
    (hinstant : evaluationTime request now = .ok e) (hup : UpdatedBy db e)
    (hdigests : NoCollisions db) :
    (∀ a ∈ plan.actionGroups.ownerAuthorizedPrivateMutation, ∀ action,
        requestActionMatchesCandidate action a = true →
          (validateActionSemantics db action e = .ok () ↔ OnUnboundEvidence db action)) ∧
      ∀ action, PrivateLifecycle.validateAction action = .ok () →
        (∃ id ∈ action.mutationTargets, id ∈ plan.scope.targetRecordIds) →
          validateActionSemantics db action e = .ok () → Corresponds plan action := by
  obtain ⟨e', authority, selected, loaded, detected, notAfter, run⟩ := planPrivateLifecycle_run hplan
  cases hinstant.symm.trans run.instant
  exact ⟨fun a ha action hmatch => offered_admitted_iff run hup hdigests ha hmatch,
    fun action hvalid htarget hadmitted =>
      admitted_corresponds run hup hdigests hvalid htarget hadmitted⟩

end Digests

/-! ### One expired claim and its evidence -/

/-- Digests of a small store: they tell the claims by whether they expire, and the findings by
their kind. -/
@[reducible] def plainDigests : MaintenanceDigests :=
  let zero := "blake3:0000000000000000000000000000000000000000000000000000000000000000"
  let one := "blake3:0000000000000000000000000000000000000000000000000000000000000001"
  { duplicateClaim := fun c => if c.retention.explicitExpiresAt.isSome then zero else one
    renewalClaim := fun _ => zero
    repositoryDuplicateClaim := fun _ => zero
    repositoryRenewalClaim := fun _ => zero
    privateContent := fun _ => zero
    privateClaim := fun _ => zero
    content := fun _ => zero
    applicability := fun _ => zero
    temporal := fun _ => zero
    comparisonSet := fun _ => zero
    findingComparisonSet := fun _ => zero
    freshness := fun _ => zero
    captureEvidence := fun _ => zero
    privateArtifactEvidence := fun _ => zero
    contradictionSignature := fun _ => zero
    contradictionEdge := fun _ => zero
    finding := fun f => if f.kind = .expired then zero else one
    action := fun _ => zero
    detectors := zero
    reportOnlyGrant := zero
    futureRecordCount := fun _ => zero
    plan := fun _ => zero
    planBytes := fun _ => 0 }

/-- A decision that expired at eleven, and the same decision captured and accepted at twelve. -/
def expiredAndRenewed (supersedesId : Option String) : Db :=
  { Db.initial "2026-07-14T10:00:00Z" with
    records := ⟨[{ plainDecision "predecessor" with
        retention := { (plainDecision "predecessor").retention with
          explicitExpiresAt := some "2026-07-14T11:00:00Z" } },
      { plainDecision "evidence" with supersedesId := supersedesId }], by simp [plainDecision]⟩
    lifecycle := ⟨[plainLifecycle "predecessor", plainLifecycle "evidence"],
      by simp [plainLifecycle]⟩
    captures := ⟨[⟨"evidence", ⟨"review", .accept, "2026-07-14T12:00:00Z", ""⟩⟩], by simp⟩ }

/-- One in the afternoon. -/
def afternoon : OffsetDateTime := ⟨1784034000000000000, 0⟩

def renewEvidence : PrivateLifecycleAction :=
  .renewFromEvidence "predecessor" "00000000000000000000000000000000" "evidence"
    "00000000000000000000000000000000"

/-- The plan of the whole store, with the evidence free or bound to another record. -/
def afternoonPlan (supersedesId : Option String) : Fallible MaintenancePlan :=
  @planPrivateLifecycle Text.Unicode.ascii plainDigests
    "blake3:0000000000000000000000000000000000000000000000000000000000000000"
    (expiredAndRenewed supersedesId) ⟨requestSchema, none, []⟩ afternoon

theorem updatedBy_afternoon (supersedesId : Option String)
    (h : ((recordsForPreservation (expiredAndRenewed supersedesId)).all fun r =>
      (parseTimestamp r.updatedAt "maintenance record updated_at").toOption.all
        fun f => f ≤ afternoon) = true) : UpdatedBy (expiredAndRenewed supersedesId) afternoon := by
  intro r hr f hf
  have hall := List.all_eq_true.1 h r hr
  rw [hf] at hall
  exact of_decide_eq_true hall

theorem planner_agrees_on_free_evidence :
    ∃ plan, afternoonPlan none = .ok plan ∧
      ∃ a ∈ plan.actionGroups.ownerAuthorizedPrivateMutation,
        requestActionMatchesCandidate renewEvidence a = true ∧
          @validateActionSemantics Text.Unicode.ascii (expiredAndRenewed none) renewEvidence
            afternoon = .ok () := by
  have hoffered : ((afternoonPlan none).toOption.any fun plan =>
      plan.actionGroups.ownerAuthorizedPrivateMutation.any fun a =>
        requestActionMatchesCandidate renewEvidence a) = true := by decide +kernel
  cases hplan : afternoonPlan none with
  | error failure =>
      rw [hplan] at hoffered
      cases hoffered
  | ok plan =>
      rw [hplan] at hoffered
      obtain ⟨a, ha, hmatch⟩ := List.any_eq_true.1 hoffered
      refine ⟨plan, rfl, a, ha, hmatch, ?_⟩
      refine ((@planner_agrees_with_executor Text.Unicode.ascii plainDigests _ _ _ _ _ _ hplan rfl
        (updatedBy_afternoon none (by decide +kernel))
        (@NoCollisions.mk Text.Unicode.ascii plainDigests _ (by decide +kernel) (by decide +kernel)
          (by decide +kernel))).1 a ha _ hmatch).2 ?_
      intro ev capture hev hcapture
      have hrow : (expiredAndRenewed none).records.get? "evidence" =
          some { plainDecision "evidence" with supersedesId := none } := by decide
      have hcaptured : capture? (expiredAndRenewed none) "evidence" =
          some ⟨"review", .accept, "2026-07-14T12:00:00Z", ""⟩ := by decide
      cases hrow.symm.trans hev
      cases hcaptured.symm.trans hcapture
      exact ⟨rfl, rfl, by decide +kernel⟩

/-- Evidence that succeeds another record is offered for a renewal, and the renewal is refused. -/
theorem planner_offers_bound_evidence :
    ∃ plan, afternoonPlan (some "other") = .ok plan ∧
      UpdatedBy (expiredAndRenewed (some "other")) afternoon ∧
      ∃ a ∈ plan.actionGroups.ownerAuthorizedPrivateMutation,
        requestActionMatchesCandidate renewEvidence a = true ∧
          @validateActionSemantics Text.Unicode.ascii (expiredAndRenewed (some "other"))
            renewEvidence afternoon ≠ .ok () := by
  have hoffered : ((afternoonPlan (some "other")).toOption.any fun plan =>
      plan.actionGroups.ownerAuthorizedPrivateMutation.any fun a =>
        requestActionMatchesCandidate renewEvidence a) = true := by decide +kernel
  cases hplan : afternoonPlan (some "other") with
  | error failure =>
      rw [hplan] at hoffered
      cases hoffered
  | ok plan =>
      rw [hplan] at hoffered
      obtain ⟨a, ha, hmatch⟩ := List.any_eq_true.1 hoffered
      exact ⟨plan, rfl, updatedBy_afternoon _ (by decide +kernel), a, ha, hmatch, by decide +kernel⟩

end Maintenance
end Memzoi
