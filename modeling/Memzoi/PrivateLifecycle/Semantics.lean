/-
# What a lifecycle action is admitted on

Source: `service/private_lifecycle.rs` (`verify_lifecycle_authority`,
`base_current_assertion`, `validate_action_semantics` and the functions under
it), with the record lookups of `service/runtime_records/query.rs`.

All actions of a group are checked against the database as it is before the
group. Nothing here writes.
-/

import Memzoi.PrivateLifecycle.Request
import Memzoi.Maintenance.Contradiction
import Memzoi.Storage
import Memzoi.Recall
import Mathlib

namespace Memzoi
namespace PrivateLifecycle

open Fallible Retention Maintenance

/-! ### Records and their authority -/

def ensurePrivateShape (record : MemoryRecord) : Fallible Unit :=
  let id := record.id
  ensure (record.destination.isPrivate = true ∧ record.visibility = .private)
    s!"record {id} is not private runtime memory"

def requirePrivateRecord (db : Db) (recordId : String) : Fallible MemoryRecord := do
  let record ← require (db.records.get? recordId) s!"private record not found: {recordId}"
  ensurePrivateShape record
  .ok record

/-- `record.capture`, as the record lookups load it. -/
def capture? (db : Db) (recordId : String) : Option CaptureProvenance :=
  (db.captures.get? recordId).map (·.provenance)

/-- `records_for_preservation`: newest first, then by id. -/
def recordsForPreservation (db : Db) : List MemoryRecord :=
  (db.records.rows.filter (·.destination.isPrivate)).insertionSort
    (fun a b => b.updatedAt < a.updatedAt ∨ (a.updatedAt = b.updatedAt ∧ a.id ≤ b.id))

/-- The keys of an audit payload beside its two lists. -/
def auditFields : List String := ["grant_id", "application_id", "operation_id", "applied_at"]

def requireAuthorizingEvent (db : Db) (eventId : Option String) (recordId : String)
    (allowedActionKinds : List String) (fact : String) : Fallible Unit := do
  let eventId ← require eventId s!"private {fact} fact has no authorizing event"
  let event ← require
    ((db.events.get? eventId).filter (·.eventType = Recall.privateLifecycleAppliedEvent))
    s!"private {fact} fact has an unverifiable authorizing event"
  ensure (event.payload.fields.map Prod.fst = auditFields)
    s!"private {fact} authority event is malformed"
  ensure (event.payload.targetRecordIds.contains recordId = true ∧
      event.payload.actionKinds.any allowedActionKinds.contains = true)
    s!"private {fact} event does not authorize record {recordId} and its action kind"

/-- A fact that is set needs its event; `kinds` are the actions that may have set it. -/
def requireIfSet (db : Db) (set : Bool) (eventId : Option String) (recordId : String)
    (kinds : List String) (fact : String) : Fallible Unit :=
  if set then requireAuthorizingEvent db eventId recordId kinds fact else .ok ()

def verifyLifecycleAuthority (db : Db) (recordId : String) (state : LifecycleFacts) :
    Fallible Unit := do
  ensure (state.automaticRecallUntil.isSome = state.automaticRecallEventId.isSome)
    "private automatic recall fact and authority event are inconsistent"
  ensure (state.validityUntil.isSome = state.validityEventId.isSome)
    "private validity fact and authority event are inconsistent"
  requireIfSet db state.automaticRecallUntil.isSome state.automaticRecallEventId recordId
    ["extend_automatic_recall", "correct"] "automatic recall"
  requireIfSet db state.validityUntil.isSome state.validityEventId recordId
    ["extend_validity", "correct"] "validity"
  requireIfSet db state.retentionEventId.isSome state.retentionEventId recordId
    ["retain_until", "pin", "unpin", "correct"] "physical retention"
  ensure (state.retentionEventId.isSome = true ∨
      (state.retainUntil.isNone = true ∧ state.pinned = false))
    "private physical retention fact has no authorizing event"
  requireIfSet db state.quarantineEventId.isSome state.quarantineEventId recordId
    (if state.quarantined then ["quarantine", "correct"] else ["release_quarantine", "correct"])
    "quarantine"
  ensure (state.quarantineEventId.isSome = true ∨ state.quarantined = false)
    "private quarantine fact has no authorizing event"

/-- The decision of the evaluator on a record and the state row it was read with. -/
def evaluatedAssertion (record : MemoryRecord) (state : LifecycleFacts)
    (evaluatedAt : OffsetDateTime) : Fallible CurrentAssertionDecision :=
  evaluatePrivateCurrentAssertionDecision record.id record.status record.lane record.retention
    evaluatedAt (Recall.readFacts state)

def baseCurrentAssertion (db : Db) (record : MemoryRecord) (state : LifecycleFacts)
    (evaluatedAt : OffsetDateTime) : Fallible CurrentAssertionDecision := do
  verifyLifecycleAuthority db record.id state
  evaluatedAssertion record state evaluatedAt

/-- The lifecycle facts of a record that must have a row. -/
def requireFacts (db : Db) (recordId : String) : Fallible LifecycleFacts := do
  let state ← db.requireState recordId
  .ok state.toLifecycleFacts

/-- The record is a current assertion at the instant. -/
def isCurrent (db : Db) (record : MemoryRecord) (now : OffsetDateTime) : Fallible Bool := do
  let state ← requireFacts db record.id
  let decision ← baseCurrentAssertion db record state now
  .ok decision.isCurrent

/-! ### Actions on one record -/

def activeOrExpired (record : MemoryRecord) : Prop :=
  record.status = .active ∨ record.status = .expired

instance (record : MemoryRecord) : Decidable (activeOrExpired record) :=
  inferInstanceAs (Decidable (_ ∨ _))

/-- When automatic recall ends as things stand. -/
def currentRecallBoundary (state : LifecycleFacts) (ordinaryBoundary : OffsetDateTime) :
    Fallible OffsetDateTime :=
  match state.automaticRecallUntil with
  | some value => parseTimestamp value "automatic_recall_until"
  | none => .ok ordinaryBoundary

def validateExtendAutomaticRecall (db : Db) (recordId recallUntil : String) (now : OffsetDateTime) :
    Fallible Unit := do
  let record ← requirePrivateRecord db recordId
  ensure (record.lane = .episodic) "automatic recall extension is limited to episodic records"
  ensure (record.status = .active) "automatic recall extension requires active lifecycle status"
  let state ← requireFacts db recordId
  let occurredText ← require record.retention.occurredAt
    "episodic record has no occurrence timestamp"
  let occurredAt ← parseTimestamp occurredText "occurred_at"
  let ordinaryBoundary ← require (occurredAt.checkedAdd (days 30))
    "episodic occurrence cannot represent ordinary recall boundary"
  let currentBoundary ← currentRecallBoundary state ordinaryBoundary
  let requested ← parseTimestamp recallUntil "recall_until"
  let maximum ← require (occurredAt.checkedAdd (days 90))
    "episodic occurrence cannot represent maximum recall boundary"
  ensure (currentBoundary < requested ∧ now < requested)
    "automatic recall must extend the current boundary into the future"
  ensure (requested ≤ maximum)
    "automatic episodic recall cannot extend beyond 90 days from occurrence"

def validateExtendValidity (db : Db) (recordId validityUntil : String) (now : OffsetDateTime) :
    Fallible Unit := do
  let record ← requirePrivateRecord db recordId
  ensure (record.lane ≠ .session) "session validity extension is not allowed"
  ensure (record.status = .active) "validity extension requires active lifecycle status"
  let state ← requireFacts db recordId
  let priorText ← require (state.validityUntil.or record.retention.explicitExpiresAt)
    "validity extension requires an existing finite boundary"
  let prior ← parseTimestamp priorText "validity boundary"
  let requested ← parseTimestamp validityUntil "validity_until"
  ensure (prior < requested ∧ now < requested)
    "validity_until must be a later finite future boundary"

def validateRetainUntil (db : Db) (recordId retainUntil : String) (now : OffsetDateTime) :
    Fallible Unit := do
  let _ ← requirePrivateRecord db recordId
  let state ← requireFacts db recordId
  let requested ← parseTimestamp retainUntil "retain_until"
  ensure (now < requested) "retain_until must be in the future"
  match state.retainUntil with
  | none => .ok ()
  | some prior => do
    let prior ← parseTimestamp prior "retain_until"
    ensure (prior < requested) "retain_until is monotonic and may only be extended"

/-- The two pin actions and the two quarantine actions check one flag of the state row. -/
def validateFlag (db : Db) (recordId : String) (flag : LifecycleFacts → Bool) (expected : Bool)
    (message : String) : Fallible Unit := do
  let _ ← requirePrivateRecord db recordId
  let state ← requireFacts db recordId
  ensure (flag state = expected) message

def validatePin (db : Db) (recordId : String) : Fallible Unit := do
  let record ← requirePrivateRecord db recordId
  ensure (record.lane ≠ .session) "indefinite session pinning is not allowed"
  let state ← requireFacts db recordId
  ensure (state.pinned = false) "private record is already pinned"

/-! ### Actions on several records -/

def ensureCompatibleClassification (left right : MemoryRecord) : Fallible Unit :=
  ensure (left.memoryType = right.memoryType ∧ left.lane = right.lane ∧
      left.destination = right.destination ∧ left.scopeKind = right.scopeKind ∧
      left.scopeId = right.scopeId ∧ left.visibility = right.visibility)
    "private records have incompatible type, lane, destination, scope, or visibility"

def validateCorrect (db : Db) (recordId : String) (evidenceVersions : Versions)
    (now : OffsetDateTime) : Fallible Unit := do
  let target ← requirePrivateRecord db recordId
  ensure (activeOrExpired target) "correction requires an active or expired target"
  checkAll (fun evidenceId => do
    let evidence ← requirePrivateRecord db evidenceId
    let current ← isCurrent db evidence now
    ensure (evidence.status = .active ∧ current = true)
      s!"correction evidence {evidenceId} is not a current accepted private record")
    evidenceVersions.keys

def validateSupersede (db : Db) (recordId successorRecordId : String) : Fallible Unit := do
  let target ← requirePrivateRecord db recordId
  let successor ← requirePrivateRecord db successorRecordId
  ensure (activeOrExpired target) "supersession target must be active or expired"
  ensure (successor.status = .active) "supersession successor must be active"
  ensureCompatibleClassification target successor
  ensure (successor.supersedesId.isNone = true ∧ successor.lineage.isNone = true)
    "successor is already bound to predecessor or lineage history"

section Text

variable [Text.Unicode]

/-- The evidence part of a renewal: fresh, accepted, and not the predecessor's own. -/
def validateRenewalEvidence (db : Db) (predecessorId evidenceRecordId : String)
    (boundary now : OffsetDateTime) : Fallible Unit := do
  let capture ← require (capture? db evidenceRecordId)
    "renewal requires fresh accepted capture evidence"
  ensure (capture.reviewOutcome = .accept ∨ capture.reviewOutcome = .edit)
    "renewal evidence was not accepted"
  let reviewedAt ← parseTimestamp capture.reviewedAt "reviewed_at"
  ensure (boundary < reviewedAt ∧ reviewedAt ≤ now)
    "renewal evidence is not fresh relative to the predecessor boundary"
  match capture? db predecessorId with
  | none => .ok ()
  | some prior =>
    ensure (prior.evidence ≠ capture.evidence)
      "renewal evidence is not distinct from predecessor evidence"

def validateRenewal (db : Db) (predecessorId evidenceRecordId : String) (now : OffsetDateTime) :
    Fallible Unit := do
  let predecessor ← requirePrivateRecord db predecessorId
  let evidence ← requirePrivateRecord db evidenceRecordId
  ensure ((predecessor.lane = .semantic ∨ predecessor.lane = .procedural) ∧
      predecessor.lane = evidence.lane ∧ claimBearingType predecessor.memoryType = true ∧
      claimBearingType evidence.memoryType = true)
    "renewal is limited to semantic or procedural claims"
  ensure (activeOrExpired predecessor) "renewal predecessor must be active or expired"
  ensure (evidence.status = .active) "renewal evidence record must be active"
  ensure (evidence.supersedesId.isNone = true ∧ evidence.lineage.isNone = true)
    "renewal evidence is already bound to predecessor or lineage history"
  ensureCompatibleClassification predecessor evidence
  ensure (normalizeText predecessor.title = normalizeText evidence.title ∧
      Text.trim predecessor.body = Text.trim evidence.body)
    "renewal evidence must support the same exact claim"
  ensure (predecessor.origin ≠ evidence.origin) "renewal evidence must have a distinct origin"
  let predecessorState ← requireFacts db predecessorId
  let predecessorDecision ← baseCurrentAssertion db predecessor predecessorState now
  ensure (predecessorDecision.retention.state = .queryOnly)
    "renewal predecessor is not expired"
  let boundaryText ← require predecessorDecision.retention.effectiveBoundary
    "renewal predecessor has no finite expiry boundary"
  let boundary ← parseTimestamp boundaryText "renewal boundary"
  let current ← isCurrent db evidence now
  ensure (current = true) "renewal evidence is not current"
  validateRenewalEvidence db predecessorId evidenceRecordId boundary now

/-- The distinct paths of a record, in order. -/
def privateApplicabilityPaths (db : Db) (recordId : String) : List String :=
  SortedMap.sortedKeys ((db.paths.rows.filter (·.recordId = recordId)).map (·.path))

/-- What two exact duplicates share. -/
structure DuplicateProjection where
  memoryType : MemoryType
  lane : MemoryLane
  destination : MemoryDestination
  scopeKind : ScopeKind
  scopeId : Option String
  visibility : Visibility
  title : String
  body : String
  confidence : ℚ
  retention : RetentionFacts
  applicabilityPaths : List String
  deriving DecidableEq

def exactDuplicateProjection (record : MemoryRecord) (applicabilityPaths : List String) :
    DuplicateProjection :=
  ⟨record.memoryType, record.lane, record.destination, record.scopeKind, record.scopeId,
    record.visibility, normalizeText record.title, Text.trim record.body, record.confidence,
    record.retention, applicabilityPaths⟩

def duplicateProjection (db : Db) (record : MemoryRecord) : DuplicateProjection :=
  exactDuplicateProjection record (privateApplicabilityPaths db record.id)

def validateConsolidation (db : Db) (recordIds : List String) (keeperRecordId : String)
    (now : OffsetDateTime) : Fallible Unit := do
  ensure (keeperRecordId ∈ recordIds)
    "owner-selected duplicate keeper is not in the exact duplicate set"
  let firstId ← require recordIds.head? "consolidation requires at least two records"
  let first ← requirePrivateRecord db firstId
  let projection := duplicateProjection db first
  let duplicates ← keepAll (fun record =>
      if record.status ≠ .active ∨ duplicateProjection db record ≠ projection then .ok false
      else isCurrent db record now)
    (recordsForPreservation db)
  ensure (SortedMap.sortedKeys recordIds = SortedMap.sortedKeys (duplicates.map (·.id)))
    "consolidation must name the complete exact duplicate set"

/-- The records a contradiction can be made of. -/
def contradictionCandidates (db : Db) (now : OffsetDateTime) : Fallible (List Candidate) := do
  let records ← keepAll (fun record =>
      if record.status ≠ .active ∨ privateContradictionCandidate record = false then .ok false
      else isCurrent db record now)
    (recordsForPreservation db)
  .ok (records.map fun record => (record, privateApplicabilityPaths db record.id))

/-- The positions of the component of one candidate: the neighbours are pushed in order, and the
last one is popped first. -/
def contradictionComponent (adjacency : Nat → List Nat) (size anchor : Nat) : List Nat :=
  Explore.explore (fun _ i => (adjacency i).reverse)
    (1 + Explore.load adjacency (List.range size) []) [anchor] []

def validateContradictionResolution (db : Db) (recordIds : List String) (winnerRecordId : String)
    (now : OffsetDateTime) : Fallible Unit := do
  ensure (winnerRecordId ∈ recordIds)
    "owner-selected contradiction winner is not in the incompatible set"
  let candidates ← contradictionCandidates db now
  let adjacency ← privateContradictionAdjacency candidates
  let selected := SortedMap.sortedKeys recordIds
  let anchorId ← require selected.head? "contradiction resolution has no records"
  let anchor ← require (candidates.findIdx? (·.1.id = anchorId))
    "contradiction record is not an eligible contradiction candidate"
  ensure (adjacency anchor ≠ []) "record set is not an incompatible polarity set"
  let visited := contradictionComponent adjacency candidates.length anchor
  let complete := SortedMap.sortedKeys
    (visited.filterMap fun i => (candidates[i]?).map (·.1.id))
  ensure (selected = complete) "contradiction resolution must name the complete incompatible set"

/-! ### The group -/

def validateActionSemantics (db : Db) (action : PrivateLifecycleAction) (now : OffsetDateTime) :
    Fallible Unit :=
  match action with
  | .extendAutomaticRecall recordId _ recallUntil =>
    validateExtendAutomaticRecall db recordId recallUntil now
  | .extendValidity recordId _ validityUntil => validateExtendValidity db recordId validityUntil now
  | .retainUntil recordId _ retainUntil => validateRetainUntil db recordId retainUntil now
  | .pin recordId _ => validatePin db recordId
  | .unpin recordId _ => validateFlag db recordId (·.pinned) true "private record is not pinned"
  | .renewFromEvidence predecessorId _ evidenceRecordId _ =>
    validateRenewal db predecessorId evidenceRecordId now
  | .correct recordId _ _ _ evidenceVersions => validateCorrect db recordId evidenceVersions now
  | .supersede recordId _ successorRecordId _ _ => validateSupersede db recordId successorRecordId
  | .consolidate recordIds _ keeperRecordId => validateConsolidation db recordIds keeperRecordId now
  | .resolveContradiction recordIds _ winnerRecordId =>
    validateContradictionResolution db recordIds winnerRecordId now
  | .quarantine recordId _ _ =>
    validateFlag db recordId (·.quarantined) false "private record is already quarantined"
  | .releaseQuarantine recordId _ =>
    validateFlag db recordId (·.quarantined) true "private record is not quarantined"

end Text

end PrivateLifecycle
end Memzoi
