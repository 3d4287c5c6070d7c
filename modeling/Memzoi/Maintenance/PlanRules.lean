/-
# What a private plan was made of

A successful run of the private planner is taken apart once (`PlanRun`): the
instant, the loaded records, what the detectors found in them and the end of
validity. A loaded record is a function of the private record, its lifecycle row
and its base decision (`loadedOf`), and every private record of the store is
loaded (`PlanRun.mem_loaded`). Then one lemma for each detector says which
findings and actions it hands on.
-/

import Memzoi.Maintenance.PrivatePlan
import Memzoi.PrivateRetentionRules

namespace Memzoi
namespace Maintenance

open Fallible PrivateLifecycle
open Retention (CurrentAssertionDecision formatTimestamp)

/-! ### Loaded records -/

/-- What the planner reads of a private record at an instant. -/
structure LoadsAs (db : Db) (e : OffsetDateTime) (r : MemoryRecord) (s : PrivateLifecycleState)
    (d : CurrentAssertionDecision) (f : OffsetDateTime) : Prop where
  record : requirePrivateRecord db r.id = .ok r
  state : db.lifecycle.get? r.id = some s
  decision : baseCurrentAssertion db r s.toLifecycleFacts e = .ok d
  freshness : parseTimestamp r.updatedAt "maintenance record updated_at" = .ok f

def inputOf (db : Db) (r : MemoryRecord) (s : PrivateLifecycleState)
    (d : CurrentAssertionDecision) : PrivateMaintenanceRecordInput :=
  ⟨⟨r, privateApplicabilityPaths db r.id, capture? db r.id⟩, s.recordVersion, d.isCurrent,
    d.retention⟩

theorem requirePrivateRecord_iff {db : Db} {id : String} {r : MemoryRecord} :
    requirePrivateRecord db id = .ok r ↔ db.records.get? id = some r ∧ ensurePrivateShape r = .ok () := by
  unfold requirePrivateRecord
  constructor
  · intro h
    obtain ⟨r', hr, h⟩ := bind_eq_ok.1 h
    obtain ⟨hshape, h⟩ := check_bind_eq_ok.1 h
    cases h
    exact ⟨require_eq_ok.1 hr, hshape⟩
  · rintro ⟨hr, hshape⟩
    rw [hr, require_some, ok_bind]
    exact check_bind_eq_ok.2 ⟨hshape, rfl⟩

/-- The records the planner and the executor go through. -/
theorem mem_recordsForPreservation {db : Db} {r : MemoryRecord} :
    r ∈ recordsForPreservation db ↔
      db.records.get? r.id = some r ∧ r.destination.isPrivate = true := by
  unfold recordsForPreservation
  rw [List.mem_insertionSort, List.mem_filter]
  constructor
  · rintro ⟨hr, hprivate⟩
    exact ⟨Table.get?_of_mem hr, hprivate⟩
  · rintro ⟨hr, hprivate⟩
    exact ⟨Table.mem_of_get? hr, hprivate⟩

theorem privateInput_eq_ok {db : Db} {e : OffsetDateTime} {r : MemoryRecord}
    {input : PrivateMaintenanceRecordInput} (h : privateInput db e r = .ok input) :
    ensurePrivateShape r = .ok () ∧ ∃ s d, db.lifecycle.get? r.id = some s ∧
      baseCurrentAssertion db r s.toLifecycleFacts e = .ok d ∧ input = inputOf db r s d := by
  obtain ⟨hshape, h⟩ := check_bind_eq_ok.1 h
  obtain ⟨s, hs, h⟩ := bind_eq_ok.1 h
  obtain ⟨d, hd, h⟩ := bind_eq_ok.1 h
  cases h
  exact ⟨hshape, s, d, require_eq_ok.1 hs, hd, rfl⟩

section Text

variable [Text.Unicode] [MaintenanceDigests]

/-- The loaded record of a private record, its row, its decision and its instant of update. -/
def loadedOf (db : Db) (selected : List String) (e : OffsetDateTime) (r : MemoryRecord)
    (s : PrivateLifecycleState) (d : CurrentAssertionDecision) (f : OffsetDateTime) :
    PrivateLoadedRecord :=
  let input := inputOf db r s d
  ⟨privateSnapshot selected input (decide (f ≤ e)), input.toPrivateRecord,
    privateDuplicateClaimDigest r input.applicabilityPaths, privateRenewalClaimDigest r, f,
    decide (f ≤ e)⟩

theorem loadPrivateRecord_eq_ok {db : Db} {selected : List String} {e : OffsetDateTime}
    {r : MemoryRecord} {s : PrivateLifecycleState} {d : CurrentAssertionDecision}
    {l : PrivateLoadedRecord} (h : loadPrivateRecord selected e (inputOf db r s d) = .ok l) :
    ∃ f, parseTimestamp r.updatedAt "maintenance record updated_at" = .ok f ∧
      l = loadedOf db selected e r s d f := by
  unfold loadPrivateRecord at h
  obtain ⟨_, h⟩ := check_bind_eq_ok.1 h
  obtain ⟨_, h⟩ := check_bind_eq_ok.1 h
  obtain ⟨_, h⟩ := check_bind_eq_ok.1 h
  obtain ⟨f, hf, h⟩ := bind_eq_ok.1 h
  cases h
  exact ⟨f, hf, rfl⟩

/-! ### A run of the planner -/

/-- What a successful run has read, loaded, detected and put into its plan. -/
structure PlanRun (fingerprint : String) (db : Db) (request : MaintenancePlanRequest)
    (now : OffsetDateTime) (plan : MaintenancePlan) (e : OffsetDateTime)
    (authority : MaintenanceAuthoritySnapshot) (selected : List String)
    (loaded : List PrivateLoadedRecord) (detected : List Detected) (notAfter : OffsetDateTime) :
    Prop where
  instant : evaluationTime request now = .ok e
  authorized : planAuthority db = .ok authority
  mem_loaded : ∀ l, l ∈ loaded ↔ ∃ r s d f, LoadsAs db e r s d f ∧ l = loadedOf db selected e r s d f
  loads : ∀ r ∈ recordsForPreservation db, ∃ s d f, LoadsAs db e r s d f
  sorted : (loaded.map LoadedRecord.id).Pairwise (· < ·)
  selects : ∃ ids, normalizeRecordIds request.recordIds = .ok ids ∧
    selected = if ids = [] then loaded.map LoadedRecord.id else ids
  ends : ∃ maximum, validityWindow e = .ok maximum ∧ notAfterOf e maximum loaded = .ok notAfter
  found : detectPrivate loaded selected e
    (decide (authority.mode = .automaticPrivateMaintenance)) = .ok detected
  contents : plan.toPlanContents = planContents (.privateRuntime fingerprint) authority loaded
    (attachActions detected).1 ⟨[], (attachActions detected).2.1, (attachActions detected).2.2⟩
  evaluatedAt : formatTimestamp e = .ok plan.evaluatedAt
  notAfterText : formatTimestamp notAfter = .ok plan.notAfter
  valid : plan.validate = .ok ()

omit [Text.Unicode] in
theorem finishPlan_eq_ok {contents : PlanContents} {request : MaintenancePlanRequest}
    {e notAfter : OffsetDateTime} {plan : MaintenancePlan}
    (h : finishPlan contents request e notAfter = .ok plan) :
    formatTimestamp e = .ok plan.evaluatedAt ∧ formatTimestamp notAfter = .ok plan.notAfter ∧
      plan.toPlanContents = contents ∧ plan.request = request ∧ plan.validate = .ok () := by
  obtain ⟨et, het, h⟩ := bind_eq_ok.1 h
  obtain ⟨nt, hnt, h⟩ := bind_eq_ok.1 h
  obtain ⟨hvalid, h⟩ := check_bind_eq_ok.1 h
  obtain ⟨_, h⟩ := check_bind_eq_ok.1 h
  cases h
  exact ⟨het, hnt, rfl, rfl, hvalid⟩

omit [Text.Unicode] [MaintenanceDigests] in
/-- The service and the planner evaluate at one instant. -/
theorem snapshotTime_unique {request : MaintenancePlanRequest} {now t u : OffsetDateTime}
    (ht : snapshotTime request now = .ok t) (hu : evaluationTime request now = .ok u) : t = u := by
  unfold snapshotTime at ht
  unfold evaluationTime at hu
  split at ht
  · rename_i value hvalue
    rw [hvalue] at hu
    have hparse : Rfc3339.parse value = some t := require_eq_ok.1 ht
    have htrimmed := require_eq_ok.1 hu
    rw [Rfc3339.trim_of_parse hparse] at htrimmed
    exact Option.some.inj (hparse.symm.trans htrimmed)
  · rename_i hnone
    rw [hnone] at hu
    cases ht
    cases hu
    rfl

theorem planPrivateLifecycle_run {fingerprint : String} {db : Db} {request : MaintenancePlanRequest}
    {now : OffsetDateTime} {plan : MaintenancePlan}
    (h : planPrivateLifecycle fingerprint db request now = .ok plan) :
    ∃ e authority selected loaded detected notAfter,
      PlanRun fingerprint db request now plan e authority selected loaded detected notAfter := by
  unfold planPrivateLifecycle at h
  obtain ⟨_, h⟩ := check_bind_eq_ok.1 h
  obtain ⟨e', he', h⟩ := bind_eq_ok.1 h
  obtain ⟨inputs, hinputs, h⟩ := bind_eq_ok.1 h
  obtain ⟨authority, hauthority, h⟩ := bind_eq_ok.1 h
  unfold planPrivateMaintenanceInner at h
  obtain ⟨_, h⟩ := check_bind_eq_ok.1 h
  obtain ⟨_, h⟩ := check_bind_eq_ok.1 h
  obtain ⟨_, h⟩ := check_bind_eq_ok.1 h
  obtain ⟨e, he, h⟩ := bind_eq_ok.1 h
  obtain ⟨et, _, h⟩ := bind_eq_ok.1 h
  obtain ⟨hsorted, h⟩ := check_bind_eq_ok.1 h
  obtain ⟨⟨request', selected⟩, hselect, h⟩ := bind_eq_ok.1 h
  obtain ⟨maximum, hmaximum, h⟩ := bind_eq_ok.1 h
  obtain ⟨loaded, hloaded, h⟩ := bind_eq_ok.1 h
  obtain ⟨notAfter, hnotAfter, h⟩ := bind_eq_ok.1 h
  obtain ⟨detected, hdetected, h⟩ := bind_eq_ok.1 h
  obtain ⟨_, h⟩ := check_bind_eq_ok.1 h
  obtain ⟨hevaluated, hnotAfterText, hcontents, _, hvalid⟩ := finishPlan_eq_ok h
  rw [snapshotTime_unique he' he] at hinputs
  obtain ⟨ids, hids, hselect⟩ := bind_eq_ok.1 hselect
  obtain ⟨_, hselect⟩ := check_bind_eq_ok.1 hselect
  cases hselect
  -- the inputs are those of the private records, and sorting keeps them
  have hinput : ∀ input, input ∈ inputs.insertionSort (fun a b => a.record.id ≤ b.record.id) ↔
      ∃ r ∈ recordsForPreservation db, privateInput db e r = .ok input := by
    intro input
    rw [List.mem_insertionSort]
    exact mem_of_mapAll hinputs input
  have hloads : ∀ r ∈ recordsForPreservation db, ∃ s d f, LoadsAs db e r s d f := by
    intro r hr
    obtain ⟨input, hinput', hok⟩ := exists_of_mapAll hinputs hr
    obtain ⟨hshape, s, d, hs, hd, rfl⟩ := privateInput_eq_ok hok
    obtain ⟨l, hl, hlok⟩ := exists_of_mapAll hloaded ((hinput _).2 ⟨r, hr, hok⟩)
    obtain ⟨f, hf, rfl⟩ := loadPrivateRecord_eq_ok hlok
    exact ⟨s, d, f, requirePrivateRecord_iff.2 ⟨(mem_recordsForPreservation.1 hr).1, hshape⟩, hs, hd,
      hf⟩
  have hids' : loaded.map LoadedRecord.id =
      (inputs.insertionSort (fun a b => a.record.id ≤ b.record.id)).map (·.record.id) := by
    refine map_of_mapAll (fun input l hl => ?_) hloaded
    obtain ⟨_, h⟩ := check_bind_eq_ok.1 hl
    obtain ⟨_, h⟩ := check_bind_eq_ok.1 h
    obtain ⟨_, h⟩ := check_bind_eq_ok.1 h
    obtain ⟨f, _, h⟩ := bind_eq_ok.1 h
    cases h
    rfl
  refine ⟨e, authority, _, loaded, detected, notAfter, he, hauthority, ?_, hloads, ?_,
    ⟨ids, hids, ?_⟩, ⟨maximum, hmaximum, hnotAfter⟩, hdetected, hcontents, hevaluated,
    hnotAfterText, hvalid⟩
  · intro l
    rw [mem_of_mapAll hloaded]
    constructor
    · rintro ⟨input, hin, hl⟩
      obtain ⟨r, hr, hok⟩ := (hinput input).1 hin
      obtain ⟨hshape, s, d, hs, hd, rfl⟩ := privateInput_eq_ok hok
      obtain ⟨f, hf, rfl⟩ := loadPrivateRecord_eq_ok hl
      exact ⟨r, s, d, f, ⟨requirePrivateRecord_iff.2 ⟨(mem_recordsForPreservation.1 hr).1, hshape⟩,
        hs, hd, hf⟩, rfl⟩
    · rintro ⟨r, s, d, f, hloadsAs, rfl⟩
      obtain ⟨hr, hshape⟩ := requirePrivateRecord_iff.1 hloadsAs.record
      have hmem : r ∈ recordsForPreservation db :=
        mem_recordsForPreservation.2 ⟨hr, (ensure_eq_ok.1 hshape).1⟩
      obtain ⟨input, _, hok⟩ := exists_of_mapAll hinputs hmem
      obtain ⟨_, s', d', hs', hd', rfl⟩ := privateInput_eq_ok hok
      cases hloadsAs.state.symm.trans hs'
      cases hloadsAs.decision.symm.trans hd'
      have hin := (hinput _).2 ⟨r, hmem, hok⟩
      obtain ⟨l, _, hlok⟩ := exists_of_mapAll hloaded hin
      obtain ⟨f', hf', rfl⟩ := loadPrivateRecord_eq_ok hlok
      cases hloadsAs.freshness.symm.trans hf'
      exact ⟨_, hin, hlok⟩
  · rw [hids']
    exact ensure_eq_ok.1 hsorted
  · rw [hids']

/-! ### What a plan offers -/

omit [Text.Unicode] [MaintenanceDigests] in
theorem mem_ownerActions {detected : List Detected} {a : MaintenanceAction} :
    a ∈ (attachActions detected).2.2 ↔ ∃ det ∈ detected, a ∈ det.otherActions := by
  unfold attachActions
  rw [List.mem_insertionSort, List.mem_flatMap]

omit [Text.Unicode] [MaintenanceDigests] in
theorem mem_derivedActions {detected : List Detected} {a : MaintenanceAction} :
    a ∈ (attachActions detected).2.1 ↔ ∃ det ∈ detected, a ∈ det.derivedActions := by
  unfold attachActions
  rw [List.mem_insertionSort, List.mem_flatMap]

omit [Text.Unicode] [MaintenanceDigests] in
/-- A finding of the plan is one that was detected, with its action ids filled in. -/
theorem mem_findings {detected : List Detected} {f : MaintenanceFinding} :
    f ∈ (attachActions detected).1 ↔ ∃ det ∈ detected, f = { det.finding with
      proposedActionIds := proposedActionIds
        ((attachActions detected).2.1 ++ (attachActions detected).2.2) det.finding.findingId } := by
  unfold attachActions
  simp only [List.mem_map, List.mem_insertionSort]
  constructor
  · rintro ⟨g, ⟨det, hdet, rfl⟩, rfl⟩
    exact ⟨det, hdet, rfl⟩
  · rintro ⟨det, hdet, rfl⟩
    exact ⟨det.finding, ⟨det, hdet, rfl⟩, rfl⟩

theorem detectPrivate_eq_ok {loaded : List PrivateLoadedRecord} {selected : List String}
    {e : OffsetDateTime} {automatic : Bool} {detected : List Detected}
    (h : detectPrivate loaded selected e automatic = .ok detected) :
    ∃ contradictions stale renewals,
      detectPrivateContradictions loaded selected (comparisonDigest (loaded.map (·.snapshot)))
        automatic = .ok contradictions ∧
      detectStaleness loaded selected e = .ok stale ∧
      detectPrivateRenewals loaded selected e (comparisonDigest (loaded.map (·.snapshot))) =
        .ok renewals ∧
      detected = detectPrivateExactDuplicates loaded selected
        (comparisonDigest (loaded.map (·.snapshot))) ++ contradictions ++ stale ++
          detectExpiry loaded selected ++ renewals := by
  obtain ⟨contradictions, hcontradictions, h⟩ := bind_eq_ok.1 h
  obtain ⟨stale, hstale, h⟩ := bind_eq_ok.1 h
  obtain ⟨renewals, hrenewals, h⟩ := bind_eq_ok.1 h
  exact ⟨contradictions, stale, renewals, hcontradictions, hstale, hrenewals, (Except.ok.inj h).symm⟩

omit [Text.Unicode] in
/-- Staleness proposes nothing. -/
theorem no_action_of_stale {loaded : List PrivateLoadedRecord} {selected : List String}
    {e : OffsetDateTime} {stale : List Detected} (h : detectStaleness loaded selected e = .ok stale)
    {det : Detected} (hdet : det ∈ stale) : det.derivedActions = [] ∧ det.otherActions = [] := by
  obtain ⟨r, _, part, hpart, hmem⟩ := (mem_of_gatherAll h det).1 hdet
  obtain ⟨at_, _, hpart⟩ := bind_eq_ok.1 hpart
  split at hpart
  · cases hpart
    cases hmem
  · obtain ⟨freshness, _, hpart⟩ := bind_eq_ok.1 hpart
    obtain ⟨boundary, _, hpart⟩ := bind_eq_ok.1 hpart
    cases hpart
    rw [List.mem_singleton.1 hmem]
    exact ⟨rfl, rfl⟩

omit [Text.Unicode] in
/-- Expiry proposes nothing. -/
theorem no_action_of_expired {loaded : List PrivateLoadedRecord} {selected : List String}
    {det : Detected} (hdet : det ∈ detectExpiry loaded selected) :
    det.derivedActions = [] ∧ det.otherActions = [] := by
  obtain ⟨r, _, rfl⟩ := List.mem_map.1 hdet
  exact ⟨rfl, rfl⟩

/-! ### Renewals found -/

/-- What a renewal found by the loops is made of. -/
def renewalDetected (evidenceDigest : PrivateLoadedRecord → PrivateLoadedRecord → String)
    (action : MaintenanceFinding → PrivateLoadedRecord → PrivateLoadedRecord → MaintenanceAction)
    (boundaryText : String) (p ev : PrivateLoadedRecord) : Detected :=
  let finding := newFinding .renewalCandidate [p, ev]
    [⟨"fresh_accepted_capture_evidence", evidenceDigest p ev, some boundaryText⟩] .high []
  ⟨finding, [], [action finding p ev]⟩

/-- The loops find a pair when the predecessor's boundary reads and the pair is kept. -/
def RenewalPair (loaded : List PrivateLoadedRecord) (selected : List String) (e : OffsetDateTime)
    (p ev : PrivateLoadedRecord) (boundary : OffsetDateTime) : Prop :=
  p ∈ renewalPredecessors loaded ∧ ev ∈ renewalPartners loaded p ∧
    parseTimestamp (p.snapshot.retentionBoundary.getD "") "renewal predecessor boundary" =
      .ok boundary ∧
    renewalPair selected p boundary e ev = .ok true

omit [Text.Unicode] in
theorem pair_of_renewal {loaded : List PrivateLoadedRecord} {selected : List String}
    {e : OffsetDateTime} {evidenceDigest : PrivateLoadedRecord → PrivateLoadedRecord → String}
    {action : MaintenanceFinding → PrivateLoadedRecord → PrivateLoadedRecord → MaintenanceAction}
    {renewals : List Detected}
    (h : detectRenewalsWith loaded selected e evidenceDigest action = .ok renewals) {det : Detected}
    (hdet : det ∈ renewals) : ∃ p ev boundary boundaryText,
      RenewalPair loaded selected e p ev boundary ∧
        det = renewalDetected evidenceDigest action boundaryText p ev := by
  obtain ⟨_, h⟩ := check_bind_eq_ok.1 h
  obtain ⟨p, hp, part, hpart, hmem⟩ := (mem_of_gatherAll h det).1 hdet
  obtain ⟨boundary, hboundary, hpart⟩ := bind_eq_ok.1 hpart
  obtain ⟨kept, hkept, hpart⟩ := bind_eq_ok.1 hpart
  obtain ⟨ev, hev, hmade⟩ := (mem_of_mapAll hpart det).1 hmem
  obtain ⟨boundaryText, _, hmade⟩ := bind_eq_ok.1 hmade
  obtain ⟨hpartner, hpair⟩ := (mem_of_keepAll hkept ev).1 hev
  exact ⟨p, ev, boundary, boundaryText, ⟨hp, hpartner, hboundary, hpair⟩, (Except.ok.inj hmade).symm⟩

omit [Text.Unicode] in
theorem renewal_of_pair {loaded : List PrivateLoadedRecord} {selected : List String}
    {e : OffsetDateTime} {evidenceDigest : PrivateLoadedRecord → PrivateLoadedRecord → String}
    {action : MaintenanceFinding → PrivateLoadedRecord → PrivateLoadedRecord → MaintenanceAction}
    {renewals : List Detected}
    (h : detectRenewalsWith loaded selected e evidenceDigest action = .ok renewals)
    {p ev : PrivateLoadedRecord} {boundary : OffsetDateTime}
    (hpair : RenewalPair loaded selected e p ev boundary) : ∃ boundaryText,
      renewalDetected evidenceDigest action boundaryText p ev ∈ renewals := by
  obtain ⟨hp, hev, hboundary, hkeep⟩ := hpair
  obtain ⟨_, hgather⟩ := check_bind_eq_ok.1 h
  obtain ⟨parts, hparts, _⟩ := bind_eq_ok.1 hgather
  obtain ⟨part, _, hpart⟩ := exists_of_mapAll hparts hp
  obtain ⟨boundary', hboundary', hmade⟩ := bind_eq_ok.1 hpart
  cases hboundary.symm.trans hboundary'
  obtain ⟨kept, hkept, hmade⟩ := bind_eq_ok.1 hmade
  obtain ⟨det, hdet, hmadeDet⟩ := exists_of_mapAll hmade ((mem_of_keepAll hkept ev).2 ⟨hev, hkeep⟩)
  obtain ⟨boundaryText, _, hmadeDet⟩ := bind_eq_ok.1 hmadeDet
  cases hmadeDet
  exact ⟨boundaryText, (mem_of_gatherAll hgather _).2 ⟨p, hp, part, hpart, hdet⟩⟩

omit [Text.Unicode] in
/-- A pair is kept when its evidence was captured, accepted and reviewed in time, and is new. -/
theorem renewalPair_iff {selected : List String} {p ev : PrivateLoadedRecord}
    {boundary e : OffsetDateTime} :
    renewalPair selected p boundary e ev = .ok true ↔
      touches selected [p, ev] = true ∧ alreadyBound p ev = false ∧
      ∃ capture reviewedAt, MaintenanceRecord.capture ev.record = some capture ∧
        (capture.reviewOutcome = .accept ∨ capture.reviewOutcome = .edit) ∧
        Rfc3339.parse (Text.trim capture.reviewedAt) = some reviewedAt ∧
        (boundary < reviewedAt ∧ reviewedAt ≤ e) ∧
        sameEvidence p (MaintenanceDigests.captureEvidence capture.evidence) = false := by
  unfold renewalPair
  constructor
  · intro h
    split at h
    · cases h
    · rename_i hpass
      obtain ⟨htouches, hbound⟩ := not_or.1 hpass
      split at h
      · cases h
      · rename_i capture hcapture
        unfold renewsWith at h
        split at h
        · cases h
        · rename_i haccepted
          obtain ⟨reviewedAt, hreviewed, h⟩ := bind_eq_ok.1 h
          have htest := Except.ok.inj h
          simp only [Bool.and_eq_true, decide_eq_true_eq, Bool.not_eq_true'] at htest
          refine ⟨by simpa using htouches, by simpa using hbound, capture, reviewedAt, hcapture, ?_,
            require_eq_ok.1 hreviewed, htest.1, htest.2⟩
          rcases Classical.em (capture.reviewOutcome = .accept) with hyes | hno
          · exact Or.inl hyes
          · exact Or.inr (Classical.not_not.1 fun hne => haccepted ⟨hno, hne⟩)
  · rintro ⟨htouches, hbound, capture, reviewedAt, hcapture, haccepted, hreviewed, hfresh, hnew⟩
    rw [if_neg (by simp [htouches, hbound]), hcapture]
    have hpass : ¬ (capture.reviewOutcome ≠ .accept ∧ capture.reviewOutcome ≠ .edit) := by
      rcases haccepted with h | h
      · exact fun hno => hno.1 h
      · exact fun hno => hno.2 h
    show renewsWith p capture boundary e = .ok true
    unfold renewsWith
    rw [if_neg hpass]
    refine bind_eq_ok.2 ⟨reviewedAt, require_eq_ok.2 hreviewed, ?_⟩
    rw [hnew]
    simp [hfresh]

/-! ### Contradictions found -/

/-- The candidates of the detector, as the adjacency compares them. -/
def planCandidates (loaded : List PrivateLoadedRecord) : List Candidate :=
  (contradictionRecords loaded).map graphInput

omit [MaintenanceDigests] in
theorem getElem?_planCandidates {loaded : List PrivateLoadedRecord} {i : Nat} :
    (planCandidates loaded)[i]? = ((contradictionRecords loaded)[i]?).map graphInput := by
  rw [planCandidates, List.getElem?_map]

omit [Text.Unicode] [MaintenanceDigests] in
/-- The push of the planner's search leaves out visited neighbours only. -/
theorem pushes_unvisited (adjacency : Nat → List Nat) :
    Explore.Pushes adjacency (fun visited i => (adjacency i).filter (· ∉ visited)) where
  sound visited i j hj := (List.mem_filter.1 hj).1
  complete visited i j hj := by
    by_cases hvisited : j ∈ visited
    · exact Or.inr hvisited
    · exact Or.inl (List.mem_filter.2 ⟨hj, by simpa using hvisited⟩)
  length_le visited i := List.length_filter_le _ _

omit [MaintenanceDigests] in
/-- The components of the planner: each is one, and every position with a neighbour is in one. -/
theorem contradictionComponents_spec (candidates : List Candidate) :
    (∀ c ∈ contradictionComponents (neighbors candidates) candidates.length,
      Explore.IsComponent (neighbors candidates) candidates.length c) ∧
    ∀ i < candidates.length, neighbors candidates i ≠ [] →
      ∃ c ∈ contradictionComponents (neighbors candidates) candidates.length, i ∈ c := by
  obtain ⟨hsound, hcomplete⟩ := Explore.components_spec (pushes_unvisited (neighbors candidates))
    neighbors_lt neighbors_symm (fun s hs => List.mem_range.1 hs)
    (fun i hi => absurd hi List.not_mem_nil)
  exact ⟨hsound, fun i hi hne =>
    hcomplete i (List.mem_range.2 hi) hne List.not_mem_nil⟩

/-- What is detected for a component of contradictions. -/
def contradictionDetected (loaded : List PrivateLoadedRecord) (comparisonSetDigest : String)
    (automatic : Bool) (component : List Nat) : Detected :=
  let candidates := contradictionRecords loaded
  let group := atPositions candidates component
  let finding := newFinding .highConfidenceContradiction group
    [⟨"allowlisted_symmetric_polarity",
      privateArtifactDigest "allowlisted_symmetric_polarity" group, none⟩] .high
    (conflictEdges (fun a b => privateArtifactDigest "allowlisted_symmetric_polarity_edge" [a, b])
      candidates (neighbors (planCandidates loaded)) component)
  ⟨finding,
    if automatic then
      [newPrivateAction .suppressUnresolvedConflict none none comparisonSetDigest finding group]
    else [],
    [newPrivateAction .ownerResolveContradiction none none comparisonSetDigest finding group]⟩

theorem mem_contradictions {loaded : List PrivateLoadedRecord} {selected : List String}
    {comparisonSetDigest : String} {automatic : Bool} {contradictions : List Detected}
    (h : detectPrivateContradictions loaded selected comparisonSetDigest automatic =
      .ok contradictions) (det : Detected) :
    det ∈ contradictions ↔ ∃ component ∈ contradictionComponents (neighbors (planCandidates loaded))
        (planCandidates loaded).length,
      touches selected (atPositions (contradictionRecords loaded) component) = true ∧
        det = contradictionDetected loaded comparisonSetDigest automatic component := by
  obtain ⟨adjacency, hadjacency, h⟩ := bind_eq_ok.1 h
  obtain ⟨_, hadjacency⟩ := check_bind_eq_ok.1 hadjacency
  obtain rfl : neighbors (planCandidates loaded) = adjacency := Except.ok.inj hadjacency
  rw [← Except.ok.inj h, planCandidates, List.length_map]
  unfold detectContradictionsWith
  rw [List.mem_map]
  constructor
  · rintro ⟨component, hcomponent, rfl⟩
    obtain ⟨hmem, htouches⟩ := List.mem_filter.1 hcomponent
    exact ⟨component, hmem, htouches, rfl⟩
  · rintro ⟨component, hmem, htouches, rfl⟩
    exact ⟨component, List.mem_filter.2 ⟨hmem, htouches⟩, rfl⟩

end Text

end Maintenance
end Memzoi
