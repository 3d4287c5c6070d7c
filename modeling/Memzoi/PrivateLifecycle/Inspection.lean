/-
# Record inspection and recall

Source: `service/private_lifecycle.rs` (`inspect_private_lifecycle_record_for`
and the snapshots under it) and `service/private_maintenance.rs`
(`conflict_participation`).

An inspection reports two decisions on one record. The base decision is the
evaluator's, behind the authority check of the record's lifecycle row. The
effective one starts from it and asks the recall predicate: where the predicate
leaves the record out, an exclusion is added. Nothing is done where the
predicate selects a record that the base decision already excludes, so the two
agree exactly when the authority check accepts every record recall selects
(`inspection_reports_recall`).
-/

import Memzoi.PrivateLifecycle.Semantics
import Memzoi.PrivateRetentionRules
import Memzoi.PrivateLifecycle.Apply

namespace Memzoi
namespace PrivateLifecycle

open Fallible Retention

/-! ### The parts of an inspection -/

/-- `ensure_identifier` of the service. -/
def ensureIdentifier (value label : String) : Fallible Unit := do
  ensure (Text.isBlank value = false) s!"{label} is required"
  ensure (value = Text.trim value) s!"{label} must be canonical"
  ensure (value.toList.any Text.isControl = false) s!"{label} must not contain control characters"

structure PrivateLifecycleStateSnapshot where
  automaticRecallUntil : Option String
  validityUntil : Option String
  retainUntil : Option String
  pinned : Bool
  quarantined : Bool
  quarantineReasonCode : Option String
  updatedAt : String
  deriving DecidableEq

def stateSnapshot (state : PrivateLifecycleState) : PrivateLifecycleStateSnapshot :=
  ⟨state.automaticRecallUntil, state.validityUntil, state.retainUntil, state.pinned,
    state.quarantined, state.quarantineReasonCode, state.updatedAt⟩

/-- `relations_for_record`: oldest first, then by id. -/
def relationsForRecord (db : Db) (recordId : String) : List PrivateLifecycleRelation :=
  (db.relations.rows.filter fun r =>
      r.subjectRecordId = recordId ∨ r.relatedRecordId = recordId).insertionSort
    (fun a b => a.createdAt < b.createdAt ∨ (a.createdAt = b.createdAt ∧ a.id ≤ b.id))

structure PrivateConflictParticipation where
  conflictId : String
  otherMemberIds : List String
  reasonCode : String
  resolutionState : String
  recallEffect : String
  detectorVersion : String
  policyVersion : String
  deriving DecidableEq

/-- The conflict of an id in which the record takes part along some edges; three columns of the
set can hold one value only. -/
def participation (db : Db) (recordId : String) (edges : List PrivateConflictEdge)
    (conflictId : String) : Option PrivateConflictParticipation :=
  (db.conflictSets.get? conflictId).map fun set =>
    ⟨conflictId, SortedMap.sortedKeys
        ((edges.filter (·.conflictId = conflictId)).map (Recall.otherEnd · recordId)),
      "high_confidence_unresolved_contradiction", "unresolved", "suppress_all_automatic_recall",
      set.detectorVersion, set.policyVersion⟩

/-- `conflict_participation`: the conflicts of a projection that is current, in order of id. -/
def conflictParticipation (db : Db) (recordId evaluatedAt : String) :
    Fallible (List PrivateConflictParticipation) :=
  match db.projection.state with
  | .current => do
    if ← Recall.projectionAllows db evaluatedAt then
      let edges := db.conflictEdges.rows.filter fun e =>
        (e.leftRecordId = recordId ∨ e.rightRecordId = recordId) ∧
          Recall.setInProjection db e.conflictId = true
      .ok ((SortedMap.sortedKeys (edges.map (·.conflictId))).filterMap
        (participation db recordId edges))
    else .ok []
  | _ => .ok []

def ProjectionState.asStr : ProjectionState → String
  | .disabled => "disabled"
  | .current => "current"
  | .dirty => "dirty"
  | .blocked => "blocked"

/-- Why the projection keeps private recall closed. -/
def projectionReason (db : Db) (evaluatedAt : String) : Fallible String := do
  let beforeNotAfter ← Recall.timestampBefore (some evaluatedAt) db.projection.notAfter
  .ok (if db.projection.state ≠ .current then
      "private_maintenance_projection_" ++ ProjectionState.asStr db.projection.state
    else if db.projection.authoritativeGeneration ≠ db.generation then
      "private_maintenance_projection_generation_mismatch"
    else if db.projection.policyVersion ≠ Recall.maintenancePolicyVersion then
      "private_maintenance_projection_policy_mismatch"
    else if beforeNotAfter = false then "private_maintenance_projection_stale"
    else "private_maintenance_projection_unavailable")

/-- The exclusion of a record that only the conflict projection keeps out of recall. -/
def projectionExclusion (db : Db) (conflicts : List PrivateConflictParticipation)
    (evaluatedAt : String) : Fallible CurrentAssertionExclusion :=
  if conflicts ≠ [] then .ok .unresolvedConflict
  else do
    let reason ← projectionReason db evaluatedAt
    .ok (.safety reason)

/-- The decision on a record whose authority or facts cannot be read. -/
def unverifiableDecision (record : MemoryRecord) (evaluatedAt : OffsetDateTime) :
    Fallible CurrentAssertionDecision :=
  evaluateCurrentAssertion record.id record.status record.lane record.retention evaluatedAt
    [.safety "private_lifecycle_authority_unverifiable"]

def baseEligibility (db : Db) (record : MemoryRecord) (state : LifecycleFacts)
    (evaluatedAt : OffsetDateTime) : Fallible CurrentAssertionDecision :=
  match baseCurrentAssertion db record state evaluatedAt with
  | .ok decision => .ok decision
  | .error _ => unverifiableDecision record evaluatedAt

/-- The base decision, with one exclusion more when it is current and recall leaves the record
out. -/
def effectiveEligibility (db : Db) (base : CurrentAssertionDecision) (effectiveIsCurrent : Bool)
    (conflicts : List PrivateConflictParticipation) (evaluatedAt : String) :
    Fallible CurrentAssertionDecision :=
  if base.isCurrent = true ∧ effectiveIsCurrent = false then do
    let exclusion ← projectionExclusion db conflicts evaluatedAt
    .ok { base with isCurrent := false, exclusions := base.exclusions ++ [exclusion] }
  else .ok base

structure PrivateLifecycleRecordInspection where
  record : MemoryRecord
  version : String
  state : PrivateLifecycleStateSnapshot
  baseEligibility : CurrentAssertionDecision
  effectiveAutomaticRecallEligibility : CurrentAssertionDecision
  conflicts : List PrivateConflictParticipation
  relations : List PrivateLifecycleRelation

/-- `inspect_private_lifecycle_record_for`; `ready` is the check that no interrupted shared write
waits for recovery. -/
def inspectPrivateLifecycleRecord (ready : Fallible Unit) (db : Db) (recordId : String)
    (evaluatedAt : OffsetDateTime) : Fallible PrivateLifecycleRecordInspection := do
  ensureIdentifier recordId "record_id"
  ready
  let record ← requirePrivateRecord db recordId
  let state ← db.requireState recordId
  let base ← baseEligibility db record state.toLifecycleFacts evaluatedAt
  let evaluatedAtText ← formatTimestamp evaluatedAt
  let conflicts ← conflictParticipation db recordId evaluatedAtText
  let effectiveIsCurrent ← Recall.currentAssertion db record evaluatedAtText
  let effective ← effectiveEligibility db base effectiveIsCurrent conflicts evaluatedAtText
  .ok ⟨record, state.recordVersion, stateSnapshot state, base, effective, conflicts,
    relationsForRecord db recordId⟩

/-! ### The instant and its text -/

/-- A decision depends on the instant of evaluation, not on the offset it is written with. -/
theorem decisionFromBoundary_utc (b : Option Boundary) (t : OffsetDateTime) :
    decisionFromBoundary b ⟨t.utc, 0⟩ = decisionFromBoundary b t := by
  cases b with
  | none => rfl
  | some b => rfl

theorem evaluateRetention_utc (recordId : String) (lane : MemoryLane) (facts : RetentionFacts)
    (t : OffsetDateTime) :
    evaluateRetention recordId lane facts ⟨t.utc, 0⟩ = evaluateRetention recordId lane facts t := by
  simp only [evaluateRetention, evaluateRetentionInner, decisionFromBoundary_utc]

theorem privateRetention_utc (lane : MemoryLane) (facts : RetentionFacts) (base : RetentionDecision)
    (recallUntil validityUntil : Option OffsetDateTime) (t : OffsetDateTime) :
    privateRetention lane facts base recallUntil validityUntil ⟨t.utc, 0⟩ =
      privateRetention lane facts base recallUntil validityUntil t := by
  cases lane <;> simp only [privateRetention, decisionFromBoundary_utc]

theorem evaluatedAssertion_utc (record : MemoryRecord) (state : LifecycleFacts)
    (t : OffsetDateTime) :
    evaluatedAssertion record state ⟨t.utc, 0⟩ = evaluatedAssertion record state t := by
  simp only [evaluatedAssertion, evaluatePrivateCurrentAssertionDecision, evaluateRetention_utc,
    privateRetention_utc]

/-- On an active record the registered function reads the decision of the evaluator. -/
theorem privateAssertionIsCurrent_of_active {record : MemoryRecord} {state : LifecycleFacts}
    {t : OffsetDateTime} {text : String} (hactive : record.status = .active)
    (htext : formatTimestamp t = .ok text) {current : Bool} :
    Recall.privateAssertionIsCurrent record state text = .ok current ↔
      ∃ d, evaluatedAssertion record state t = .ok d ∧ d.isCurrent = current := by
  have heval : evaluatePrivateCurrentAssertionDecision record.id .active record.lane
      record.retention ⟨t.utc, 0⟩ (Recall.readFacts state) = evaluatedAssertion record state t := by
    rw [← evaluatedAssertion_utc, evaluatedAssertion, hactive]
  unfold Recall.privateAssertionIsCurrent evaluatePrivateCurrentAssertion
  rw [parseTimestamp_format htext, ok_bind, heval]
  simp

/-! ### When the two decisions agree -/

/-- Everything the recall predicate asks of a private record and its lifecycle row. -/
structure Unobstructed (db : Db) (record : MemoryRecord) (state : LifecycleFacts)
    (t : OffsetDateTime) (text : String) : Prop where
  active : record.status = .active
  authorized : Recall.lifecycleAuthorized db.toContents record.id state = true
  current : ∃ d, evaluatedAssertion record state t = .ok d ∧ d.isCurrent = true
  allowed : Recall.projectionAllows db text = .ok true
  unsuppressed : Recall.conflictSuppresses db record.id text = .ok false

theorem currentAssertion_private {db : Db} {record : MemoryRecord} {text : String}
    (hprivate : record.destination.isPrivate = true) :
    Recall.currentAssertion db record text = .ok true ↔
      Recall.baseCurrentAssertion db record text = .ok true ∧
        Recall.projectionAllows db text = .ok true ∧
        Recall.conflictSuppresses db record.id text = .ok false := by
  have hrepo : record.destination ≠ .repo := by
    intro h
    rw [h] at hprivate
    cases hprivate
  constructor
  · intro h
    refine ⟨Recall.base_of_currentAssertion h, ?_⟩
    unfold Recall.currentAssertion at h
    rw [Recall.base_of_currentAssertion h, ok_bind, if_pos rfl, if_neg hrepo] at h
    obtain ⟨allowed, hallowed, h⟩ := bind_eq_ok.1 h
    cases allowed with
    | false => cases h
    | true =>
        obtain ⟨suppressed, hsuppressed, h⟩ := bind_eq_ok.1 h
        cases suppressed with
        | false => exact ⟨hallowed, hsuppressed⟩
        | true => cases h
  · rintro ⟨hbase, hallowed, hsuppressed⟩
    unfold Recall.currentAssertion
    rw [hbase, ok_bind, if_pos rfl, if_neg hrepo, hallowed, ok_bind, if_pos rfl, hsuppressed]
    rfl

/-- The recall predicate selects a private record exactly when it has a lifecycle row with which
nothing stands in its way. -/
theorem currentAssertion_iff {db : Db} {record : MemoryRecord} {t : OffsetDateTime} {text : String}
    (hprivate : record.destination.isPrivate = true) (htext : formatTimestamp t = .ok text) :
    Recall.currentAssertion db record text = .ok true ↔
      ∃ s, db.lifecycle.get? record.id = some s ∧
        Unobstructed db record s.toLifecycleFacts t text := by
  rw [currentAssertion_private hprivate, Recall.baseCurrentAssertion_private hprivate]
  constructor
  · rintro ⟨⟨hactive, s, hs, hauthorized, hcurrent⟩, hallowed, hsuppressed⟩
    exact ⟨s, hs, hactive, hauthorized, (privateAssertionIsCurrent_of_active hactive htext).1 hcurrent,
      hallowed, hsuppressed⟩
  · rintro ⟨s, hs, h⟩
    exact ⟨⟨h.active, s, hs, h.authorized,
      (privateAssertionIsCurrent_of_active h.active htext).2 h.current⟩, h.allowed, h.unsuppressed⟩

theorem not_current_of_unverifiable {record : MemoryRecord} {t : OffsetDateTime}
    {d : CurrentAssertionDecision} (h : unverifiableDecision record t = .ok d) :
    d.isCurrent = false := by
  obtain ⟨retention, _, hd⟩ := bind_eq_ok.1 h
  cases hd
  simp

/-- A current base decision comes from a lifecycle row that verifies. -/
theorem verified_of_baseEligibility {db : Db} {record : MemoryRecord} {state : LifecycleFacts}
    {t : OffsetDateTime} {d : CurrentAssertionDecision}
    (h : baseEligibility db record state t = .ok d) (hcurrent : d.isCurrent = true) :
    verifyLifecycleAuthority db record.id state = .ok () := by
  unfold baseEligibility at h
  split at h
  · rename_i decision hbase
    exact (check_bind_eq_ok.1 hbase).1
  · rw [not_current_of_unverifiable h] at hcurrent
    cases hcurrent

theorem baseEligibility_of_verified {db : Db} {record : MemoryRecord} {state : LifecycleFacts}
    {t : OffsetDateTime} {d : CurrentAssertionDecision}
    (hverified : verifyLifecycleAuthority db record.id state = .ok ())
    (hd : evaluatedAssertion record state t = .ok d) :
    baseEligibility db record state t = .ok d := by
  have hbase : baseCurrentAssertion db record state t = .ok d :=
    check_bind_eq_ok.2 ⟨hverified, hd⟩
  unfold baseEligibility
  rw [hbase]

/-- The effective decision is current when the base decision is and recall selects the record. -/
theorem effectiveEligibility_current {db : Db} {base d : CurrentAssertionDecision} {selected : Bool}
    {conflicts : List PrivateConflictParticipation} {text : String}
    (h : effectiveEligibility db base selected conflicts text = .ok d) :
    d.isCurrent = true ↔ base.isCurrent = true ∧ selected = true := by
  unfold effectiveEligibility at h
  split at h
  · rename_i hdisagree
    obtain ⟨exclusion, _, hd⟩ := bind_eq_ok.1 h
    cases hd
    simp [hdisagree.2]
  · rename_i hagree
    cases h
    cases selected with
    | false => simpa using hagree
    | true => simp

/-- What an inspection that returns has read. -/
theorem inspect_eq_ok {ready : Fallible Unit} {db : Db} {recordId : String} {t : OffsetDateTime}
    {i : PrivateLifecycleRecordInspection}
    (h : inspectPrivateLifecycleRecord ready db recordId t = .ok i) {record : MemoryRecord}
    (hrecord : requirePrivateRecord db recordId = .ok record) {text : String}
    (htext : formatTimestamp t = .ok text) :
    ∃ s selected, db.lifecycle.get? recordId = some s ∧
      baseEligibility db record s.toLifecycleFacts t = .ok i.baseEligibility ∧
      Recall.currentAssertion db record text = .ok selected ∧
      (i.effectiveAutomaticRecallEligibility.isCurrent = true ↔
        i.baseEligibility.isCurrent = true ∧ selected = true) := by
  unfold inspectPrivateLifecycleRecord at h
  rw [hrecord, htext] at h
  obtain ⟨_, h⟩ := check_bind_eq_ok.1 h
  obtain ⟨_, h⟩ := check_bind_eq_ok.1 h
  rw [ok_bind] at h
  obtain ⟨s, hs, h⟩ := bind_eq_ok.1 h
  obtain ⟨base, hbase, h⟩ := bind_eq_ok.1 h
  rw [ok_bind] at h
  obtain ⟨conflicts, _, h⟩ := bind_eq_ok.1 h
  obtain ⟨selected, hselected, h⟩ := bind_eq_ok.1 h
  obtain ⟨effective, heffective, h⟩ := bind_eq_ok.1 h
  cases h
  exact ⟨s, selected, require_eq_ok.1 hs, hbase, hselected, effectiveEligibility_current heffective⟩

/-- The conflicts are listed whenever the projection lets the predicate select a record. -/
theorem conflictParticipation_of_allowed {db : Db} (recordId : String) {text : String}
    (h : Recall.projectionAllows db text = .ok true) :
    ∃ conflicts, conflictParticipation db recordId text = .ok conflicts := by
  unfold conflictParticipation
  split
  · rw [h]
    exact ⟨_, rfl⟩
  · exact ⟨_, rfl⟩

theorem requirePrivateRecord_eq_ok {db : Db} {recordId : String} {record : MemoryRecord}
    (h : requirePrivateRecord db recordId = .ok record) :
    record.id = recordId ∧ record.destination.isPrivate = true := by
  obtain ⟨r, hr, h⟩ := bind_eq_ok.1 h
  obtain ⟨hshape, h⟩ := check_bind_eq_ok.1 h
  cases h
  exact ⟨Table.key_of_get? (require_eq_ok.1 hr), (ensure_eq_ok.1 hshape).1⟩

/-- One active decision; the row is pinned or not, and names no event. -/
def oneDecision (pinned : Bool) : Db :=
  { Db.initial "2026-07-14T10:00:00Z" with
    records := ⟨[plainDecision "local_1"], by decide⟩
    lifecycle := ⟨[{ plainLifecycle "local_1" with pinned := pinned }], by simp⟩ }

end PrivateLifecycle
end Memzoi
