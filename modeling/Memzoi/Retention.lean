/-
# Lane retention and private ordinary use

Source: `retention.rs`, and `retention_facts_for_lane` of
`service/runtime_records/write.rs`. `evaluate_retention` gives one record's boundary in
time from the facts of its lane, and `evaluate_private_current_assertion_decision`
composes that boundary with the lifecycle overrides and the quarantine.

Every evaluator first builds a boundary that does not depend on the instant of
evaluation, then compares. So whether it answers at all depends on the facts
alone (`evaluateRetention_ok_iff`), and the comparison only moves from current
to query-only as the instant grows.
-/

import Memzoi.Models

namespace Memzoi
namespace Retention

open Fallible

def nanosPerHour : Int := 3600000000000
def sessionInactivityHours : Int := 24
def sessionMaximumDays : Int := 7
def episodicOrdinaryDays : Int := 30
def episodicMaximumRecallDays : Int := 90

def hours (n : Int) : Int := n * nanosPerHour
def days (n : Int) : Int := n * OffsetDateTime.nanosPerDay

/-! ### Timestamps -/

def parseTimestamp (value field : String) : Fallible OffsetDateTime := do
  let value := Text.trim value
  ensure (value ≠ "") s!"{field} cannot be empty"
  require (Rfc3339.parse value)
    s!"{field} must be an RFC 3339 timestamp with a timezone: {value}"

/-- `to_offset` panics on an instant whose UTC reading leaves the calendar; the
writer refuses a year of more than four digits. -/
def formatTimestamp (timestamp : OffsetDateTime) : Fallible String :=
  match timestamp.checkedToOffset 0 with
  | none => .error (.panic "local datetime out of valid range")
  | some utc => require (Rfc3339.format utc) "failed to format retention timestamp"

def addDuration (timestamp : OffsetDateTime) (duration : Int) (boundaryName : String) :
    Fallible OffsetDateTime :=
  require (timestamp.checkedAdd duration)
    s!"{boundaryName} is outside the supported timestamp range"

/-- `value.map(|value| parse_timestamp(value, field)).transpose()`. -/
def parseOptional (value : Option String) (field : String) : Fallible (Option OffsetDateTime) :=
  match value with
  | none => .ok none
  | some value => do
    let at_ ← parseTimestamp value field
    .ok (some at_)

def requiredTimestamp (value : Option String) (field : String) (lane : MemoryLane) :
    Fallible OffsetDateTime := do
  let laneText := lane.asStr
  let value ← require value s!"{field} is required for the {laneText} lane"
  parseTimestamp value field

/-! ### Boundaries -/

inductive RetentionState where
  | current | queryOnly
  deriving DecidableEq, Repr

inductive RetentionReason where
  | noAgeLimit | explicitExpiry | sessionClosed | sessionInactivityLease | sessionMaximumAge
  | episodicOrdinaryWindow | episodicAuthorizedExtension
  deriving DecidableEq, Repr

structure RetentionDecision where
  state : RetentionState
  effectiveBoundary : Option String
  reason : RetentionReason
  deriving DecidableEq, Repr

structure Boundary where
  at_ : OffsetDateTime
  reason : RetentionReason
  deriving DecidableEq, Repr

def decisionFromBoundary (boundary : Option Boundary) (evaluatedAt : OffsetDateTime) :
    Fallible RetentionDecision :=
  match boundary with
  | none => .ok ⟨.current, none, .noAgeLimit⟩
  | some b => do
    let text ← formatTimestamp b.at_
    .ok ⟨if b.at_ ≤ evaluatedAt then .queryOnly else .current, some text, b.reason⟩

def rejectField {α : Type} (field : Option α) (name : String) (lane : MemoryLane) :
    Fallible Unit :=
  let laneText := lane.asStr
  ensure (field.isNone = true) s!"{name} is not valid for the {laneText} lane"

def rejectSessionFields (facts : RetentionFacts) (lane : MemoryLane) : Fallible Unit := do
  rejectField facts.startedAt "started_at" lane
  rejectField facts.lastContinuedAt "last_continued_at" lane
  rejectField facts.closedAt "closed_at" lane

/-- `min_by_key`: the first boundary with the least instant. -/
def minByAt (b : Boundary) : List Boundary → Boundary
  | [] => b
  | c :: cs => minByAt (if c.at_ < b.at_ then c else b) cs

/-- The candidates of a session after its lease: maximum age, closure, explicit expiry. -/
def sessionCandidates (maximum : OffsetDateTime) (closed explicit : Option OffsetDateTime) :
    List Boundary :=
  ⟨maximum, .sessionMaximumAge⟩ ::
    (closed.toList.map (⟨·, .sessionClosed⟩) ++ explicit.toList.map (⟨·, .explicitExpiry⟩))

/-- The order constraints on the clocks of a session. -/
def checkSessionOrder (started maximum : OffsetDateTime) (continued closed : Option OffsetDateTime) :
    Fallible Unit := do
  match continued with
  | none => .ok ()
  | some continued => do
    ensure (started ≤ continued) "last_continued_at precedes started_at"
    ensure (continued < maximum) "last_continued_at is at or after the seven-day session cap"
  match closed with
  | none => .ok ()
  | some closed => ensure (started ≤ closed) "closed_at precedes started_at"

def sessionBoundary (facts : RetentionFacts) (explicit : Option OffsetDateTime) :
    Fallible (Option Boundary) := do
  rejectField facts.occurredAt "occurred_at" .session
  rejectField facts.episodicExtension "episodic_extension" .session
  let started ← requiredTimestamp facts.startedAt "started_at" .session
  let continued ← parseOptional facts.lastContinuedAt "last_continued_at"
  let closed ← parseOptional facts.closedAt "closed_at"
  let maximum ← addDuration started (days sessionMaximumDays) "session maximum age"
  checkSessionOrder started maximum continued closed
  let leaseBase := continued.getD started
  let lease ← addDuration leaseBase (hours sessionInactivityHours) "session inactivity lease"
  .ok (some (minByAt ⟨lease, .sessionInactivityLease⟩
    (sessionCandidates maximum closed explicit)))

def minWithExplicit (policy : Boundary) (explicit : Option OffsetDateTime) : Boundary :=
  match explicit with
  | some at_ => if at_ < policy.at_ then ⟨at_, .explicitExpiry⟩ else policy
  | none => policy

def episodicBoundary (facts : RetentionFacts) (explicit : Option OffsetDateTime) :
    Fallible (Option Boundary) := do
  rejectSessionFields facts .episodic
  let occurred ← requiredTimestamp facts.occurredAt "occurred_at" .episodic
  let ordinary ← addDuration occurred (days episodicOrdinaryDays) "ordinary episodic window"
  ensure (facts.episodicExtension.isNone = true)
    "episodic_extension is unsupported until an owner-authorized extension event can be verified"
  .ok (some (minWithExplicit ⟨ordinary, .episodicOrdinaryWindow⟩ explicit))

def durableBoundary (lane : MemoryLane) (facts : RetentionFacts)
    (explicit : Option OffsetDateTime) : Fallible (Option Boundary) := do
  rejectField facts.occurredAt "occurred_at" lane
  rejectSessionFields facts lane
  rejectField facts.episodicExtension "episodic_extension" lane
  .ok (explicit.map (⟨·, .explicitExpiry⟩))

def laneBoundary (lane : MemoryLane) (facts : RetentionFacts) (explicit : Option OffsetDateTime) :
    Fallible (Option Boundary) :=
  match lane with
  | .session => sessionBoundary facts explicit
  | .episodic => episodicBoundary facts explicit
  | .semantic => durableBoundary .semantic facts explicit
  | .procedural => durableBoundary .procedural facts explicit

def evaluateRetentionInner (lane : MemoryLane) (facts : RetentionFacts)
    (evaluatedAt : OffsetDateTime) : Fallible RetentionDecision := do
  let explicit ← parseOptional facts.explicitExpiresAt "explicit_expires_at"
  let boundary ← laneBoundary lane facts explicit
  decisionFromBoundary boundary evaluatedAt

def evaluateRetention (recordId : String) (lane : MemoryLane) (facts : RetentionFacts)
    (evaluatedAt : OffsetDateTime) : Fallible RetentionDecision :=
  withContext s!"record {recordId} has invalid retention facts"
    (evaluateRetentionInner lane facts evaluatedAt)

/-! ### Creation -/

/-- The facts a lane gives a new record. -/
def creationFacts (lane : MemoryLane) (createdAt : String)
    (occurredAt explicitExpiresAt : Option String) : Fallible RetentionFacts :=
  match lane with
  | .session => do
    ensure (occurredAt.isNone = true) "occurred_at is not valid for the session lane"
    .ok ⟨none, some createdAt, none, none, explicitExpiresAt, none⟩
  | .episodic => do
    let occurredAt := occurredAt.getD createdAt
    let _ ← parseTimestamp occurredAt "occurred_at"
    .ok ⟨some occurredAt, none, none, none, explicitExpiresAt, none⟩
  | .semantic => do
    ensure (occurredAt.isNone = true) "occurred_at is not valid for the semantic lane"
    .ok ⟨none, none, none, none, explicitExpiresAt, none⟩
  | .procedural => do
    ensure (occurredAt.isNone = true) "occurred_at is not valid for the procedural lane"
    .ok ⟨none, none, none, none, explicitExpiresAt, none⟩

/-- The facts of a new record, refused when an ordinary read would reject them. -/
def retentionFactsForCreation (lane : MemoryLane) (createdAt : String)
    (occurredAt explicitExpiresAt : Option String) : Fallible RetentionFacts := do
  let created ← parseTimestamp createdAt "created_at"
  let _ ← parseOptional explicitExpiresAt "explicit_expires_at"
  let facts ← creationFacts lane createdAt occurredAt explicitExpiresAt
  let _ ← evaluateRetention "<new-record>" lane facts created
  .ok facts

/-- `retention_facts_for_lane`: the facts of a private record created at `now`. -/
def retentionFactsForLane (lane : MemoryLane) (now : String) : RetentionFacts where
  occurredAt := if lane = .episodic then some now else none
  startedAt := if lane = .session then some now else none
  lastContinuedAt := none
  closedAt := none
  explicitExpiresAt := none
  episodicExtension := none

/-! ### Ordinary use -/

inductive CurrentAssertionExclusion where
  | lifecycleStatus (status : MemoryStatus)
  | retention (reason : RetentionReason)
  | applicability (reason : String)
  | unresolvedConflict
  | quarantine (reason : String)
  | safety (reason : String)
  deriving DecidableEq, Repr

structure CurrentAssertionDecision where
  isCurrent : Bool
  retention : RetentionDecision
  exclusions : List CurrentAssertionExclusion
  deriving DecidableEq, Repr

/-- The exclusions of the lifecycle status and of the retention decision. -/
def baseExclusions (status : MemoryStatus) (retention : RetentionDecision) :
    List CurrentAssertionExclusion :=
  (if status ≠ .active then [.lifecycleStatus status] else []) ++
    (if retention.state = .queryOnly then [.retention retention.reason] else [])

def evaluateCurrentAssertion (recordId : String) (status : MemoryStatus) (lane : MemoryLane)
    (facts : RetentionFacts) (evaluatedAt : OffsetDateTime)
    (additionalExclusions : List CurrentAssertionExclusion) :
    Fallible CurrentAssertionDecision := do
  let retention ← evaluateRetention recordId lane facts evaluatedAt
  let exclusions := baseExclusions status retention ++ additionalExclusions
  .ok ⟨exclusions.isEmpty, retention, exclusions⟩

structure PrivateLifecycleReadFacts where
  automaticRecallUntil : Option String
  validityUntil : Option String
  automaticRecallEventId : Option String
  validityEventId : Option String
  quarantined : Bool
  quarantineReason : Option String
  deriving DecidableEq, Repr

/-- A lifecycle boundary counts only together with its authorizing event. -/
def verifiedLifecycleBoundary (boundary eventId : Option String) (field : String) :
    Fallible (Option OffsetDateTime) :=
  match boundary, eventId with
  | none, none => .ok none
  | some boundary, some eventId => do
    ensure (Text.isBlank eventId = false) s!"{field} authorizing event ID cannot be empty"
    let at_ ← parseTimestamp boundary field
    .ok (some at_)
  | some _, none => bail s!"{field} is missing its authorizing event ID"
  | none, some _ => bail s!"{field} authorizing event ID has no lifecycle boundary"

def extendedValidityBoundary (facts : RetentionFacts) (lifecycleBoundary : Option OffsetDateTime)
    (lane : MemoryLane) : Fallible (Option OffsetDateTime) := do
  let laneText := lane.asStr
  let base ← parseOptional facts.explicitExpiresAt "explicit_expires_at"
  match lifecycleBoundary with
  | some until_ => do
    let base ← require base
      s!"validity_until requires an existing finite boundary for the {laneText} lane"
    ensure (base < until_) "validity_until must extend the existing finite boundary"
    .ok (some until_)
  | none => .ok base

/-- The recall boundary of an episodic record: its ordinary window, or an authorized extension
past that window and within ninety days. -/
def episodicRecallBoundary (facts : RetentionFacts) (automaticRecallUntil : Option OffsetDateTime) :
    Fallible Boundary := do
  let occurred ← requiredTimestamp facts.occurredAt "occurred_at" .episodic
  let ordinary ← addDuration occurred (days episodicOrdinaryDays) "ordinary episodic window"
  let maximum ← addDuration occurred (days episodicMaximumRecallDays)
    "maximum episodic recall window"
  match automaticRecallUntil with
  | some at_ => do
    ensure (ordinary < at_) "automatic_recall_until must extend the ordinary episodic window"
    ensure (at_ ≤ maximum) "automatic_recall_until exceeds the 90-day episodic recall cap"
    .ok ⟨at_, .episodicAuthorizedExtension⟩
  | none => .ok ⟨ordinary, .episodicOrdinaryWindow⟩

/-- The validity boundary of a record with lifecycle overrides. -/
def validityBoundary (facts : RetentionFacts) (validityUntil : Option OffsetDateTime)
    (lane : MemoryLane) : Fallible (Option Boundary) := do
  let at_ ← extendedValidityBoundary facts validityUntil lane
  .ok (at_.map (⟨·, .explicitExpiry⟩))

/-- The decision of the lane under the lifecycle overrides; `base` is the decision without them. -/
def privateRetention (lane : MemoryLane) (facts : RetentionFacts) (base : RetentionDecision)
    (automaticRecallUntil validityUntil : Option OffsetDateTime) (evaluatedAt : OffsetDateTime) :
    Fallible RetentionDecision :=
  match lane with
  | .session => do
    ensure (automaticRecallUntil.isNone = true)
      "automatic_recall_until is not valid for the session lane"
    ensure (validityUntil.isNone = true) "validity_until is not valid for the session lane"
    .ok base
  | .episodic => do
    let recallAt ← episodicRecallBoundary facts automaticRecallUntil
    let validity ← validityBoundary facts validityUntil .episodic
    let boundary :=
      match validity with
      | some validity => if validity.at_ < recallAt.at_ then validity else recallAt
      | none => recallAt
    decisionFromBoundary (some boundary) evaluatedAt
  | lane => do
    ensure (automaticRecallUntil.isNone = true)
      "automatic_recall_until is only valid for the episodic lane"
    let validity ← validityBoundary facts validityUntil lane
    decisionFromBoundary validity evaluatedAt

def quarantineExclusions (quarantined : Bool) (reason : Option String) :
    Fallible (List CurrentAssertionExclusion) :=
  match quarantined, reason with
  | true, some reason =>
    if Text.isBlank reason then bail "quarantined private record has no reason"
    else .ok [.quarantine reason]
  | true, none => bail "quarantined private record has no reason"
  | false, none => .ok []
  | false, some _ => bail "non-quarantined private record has a quarantine reason"

def evaluatePrivateCurrentAssertionDecision (recordId : String) (status : MemoryStatus)
    (lane : MemoryLane) (facts : RetentionFacts) (evaluatedAt : OffsetDateTime)
    (lifecycle : PrivateLifecycleReadFacts) : Fallible CurrentAssertionDecision := do
  let base ← evaluateRetention recordId lane facts evaluatedAt
  let automaticRecallUntil ← verifiedLifecycleBoundary lifecycle.automaticRecallUntil
    lifecycle.automaticRecallEventId "automatic_recall_until"
  let validityUntil ← verifiedLifecycleBoundary lifecycle.validityUntil
    lifecycle.validityEventId "validity_until"
  let retention ← privateRetention lane facts base automaticRecallUntil validityUntil evaluatedAt
  let quarantine ← quarantineExclusions lifecycle.quarantined lifecycle.quarantineReason
  let exclusions := baseExclusions status retention ++ quarantine
  .ok ⟨exclusions.isEmpty, retention, exclusions⟩

def evaluatePrivateCurrentAssertion (recordId : String) (lane : MemoryLane)
    (facts : RetentionFacts) (evaluatedAt : OffsetDateTime)
    (lifecycle : PrivateLifecycleReadFacts) : Fallible Bool := do
  let decision ← evaluatePrivateCurrentAssertionDecision recordId .active lane facts evaluatedAt
    lifecycle
  .ok decision.isCurrent

end Retention
end Memzoi
