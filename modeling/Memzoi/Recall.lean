/-
# The recall predicate

Source: `retention.rs`, `base_current_assertion_sql`, `current_assertion_sql`
and the three functions `register_sqlite_functions` gives the engine.

The SQL text becomes a function of the database, the record and the text of the
instant. A registered function that returns an error fails the whole query, so
the predicate is fallible, and its conjuncts are evaluated from the left.
-/

import Memzoi.Retention
import Memzoi.Schema

namespace Memzoi
namespace Recall

open Fallible Retention

def maintenancePolicyVersion : String := "maintenance-policy/1"

/-- `memzoi_timestamp_before`: a null is never before anything. -/
def timestampBefore (left right : Option String) : Fallible Bool :=
  match left, right with
  | some left, some right => do
    let left ← parseTimestamp left "left timestamp"
    let right ← parseTimestamp right "right timestamp"
    .ok (left < right)
  | _, _ => .ok false

/-- `memzoi_retention_state(...) = 'current'`. -/
def retentionIsCurrent (r : MemoryRecord) (evaluatedAt : String) : Fallible Bool := do
  let at_ ← parseTimestamp evaluatedAt "evaluated_at"
  let decision ← evaluateRetention r.id r.lane r.retention at_
  .ok (decision.state = .current)

/-- The columns the evaluator is given. -/
def readFacts (s : LifecycleFacts) : PrivateLifecycleReadFacts :=
  ⟨s.automaticRecallUntil, s.validityUntil, s.automaticRecallEventId, s.validityEventId,
    s.quarantined, s.quarantineReasonCode⟩

/-- `memzoi_private_current_assertion(...) = 1`. -/
def privateAssertionIsCurrent (r : MemoryRecord) (s : LifecycleFacts) (evaluatedAt : String) :
    Fallible Bool := do
  let at_ ← parseTimestamp evaluatedAt "evaluated_at"
  evaluatePrivateCurrentAssertion r.id r.lane r.retention at_ (readFacts s)

def privateLifecycleAppliedEvent : String := "memory.private_lifecycle_applied"

/-- `EXISTS` an event under that id whose payload names the record and one of the actions. -/
def hasAuthority (c : Contents) (eventId : Option String) (recordId : String)
    (actionKinds : List String) : Bool :=
  match eventId.bind c.events.get? with
  | some event =>
    event.eventType = privateLifecycleAppliedEvent &&
      event.payload.targetRecordIds.contains recordId &&
      event.payload.actionKinds.any actionKinds.contains
  | none => false

/-- Every override and the quarantine stand with an event that authorized them. -/
def lifecycleAuthorized (c : Contents) (recordId : String) (s : LifecycleFacts) : Bool :=
  (s.automaticRecallUntil.isNone ||
    hasAuthority c s.automaticRecallEventId recordId ["extend_automatic_recall", "correct"]) &&
  (s.validityUntil.isNone ||
    hasAuthority c s.validityEventId recordId ["extend_validity", "correct"]) &&
  (!s.quarantined || hasAuthority c s.quarantineEventId recordId ["quarantine", "correct"])

/-- `base_current_assertion_sql`. -/
def baseCurrentAssertion (db : Db) (r : MemoryRecord) (evaluatedAt : String) : Fallible Bool :=
  if r.status ≠ .active then .ok false
  else if r.destination = .repo then retentionIsCurrent r evaluatedAt
  else if r.destination.isPrivate then
    match db.lifecycle.get? r.id with
    | some s =>
      if lifecycleAuthorized db.toContents r.id s.toLifecycleFacts then
        privateAssertionIsCurrent r s.toLifecycleFacts evaluatedAt
      else .ok false
    | none => .ok false
  else .ok false

/-- The projection allows private recall: it is disabled, or current for this generation and
policy and not yet at its `not_after`. -/
def projectionAllows (db : Db) (evaluatedAt : String) : Fallible Bool :=
  match db.projection.state with
  | .disabled => .ok true
  | .current =>
    if db.projection.authoritativeGeneration = db.generation ∧
        db.projection.policyVersion = maintenancePolicyVersion then
      timestampBefore (some evaluatedAt) db.projection.notAfter
    else .ok false
  | _ => .ok false

/-- The other end of an edge at a record. -/
def otherEnd (e : PrivateConflictEdge) (id : String) : String :=
  if e.leftRecordId = id then e.rightRecordId else e.leftRecordId

/-- A member row of the conflict still holds the record's present token. -/
def memberIsFresh (db : Db) (conflictId recordId : String) : Bool :=
  match db.conflictMembers.get? (conflictId, recordId), db.lifecycle.get? recordId with
  | some member, some s => member.recordVersion = s.recordVersion
  | _, _ => false

/-- The conflict set of an edge belongs to the projection. -/
def setInProjection (db : Db) (conflictId : String) : Bool :=
  match db.conflictSets.get? conflictId with
  | some set =>
    some set.projectionId = db.projection.projectionId &&
      some set.grantFingerprint = db.projection.grantFingerprint &&
      set.policyVersion = db.projection.policyVersion
  | none => false

/-- An edge suppresses a record when both ends are fresh members of a set of the projection and
the other end is eligible by the base predicate. -/
def edgeSuppresses (db : Db) (id : String) (evaluatedAt : String) (e : PrivateConflictEdge) :
    Fallible Bool :=
  if (e.leftRecordId = id ∨ e.rightRecordId = id) ∧ setInProjection db e.conflictId = true ∧
      memberIsFresh db e.conflictId id = true ∧
      memberIsFresh db e.conflictId (otherEnd e id) = true then
    match db.records.get? (otherEnd e id) with
    | some other => baseCurrentAssertion db other evaluatedAt
    | none => .ok false
  else .ok false

/-- Some edge of the list suppresses the record. -/
def anySuppresses (db : Db) (id : String) (evaluatedAt : String) :
    List PrivateConflictEdge → Fallible Bool
  | [] => .ok false
  | e :: edges => do
    if ← edgeSuppresses db id evaluatedAt e then .ok true
    else anySuppresses db id evaluatedAt edges

/-- The conflict clause: it looks at edges only under a projection that is current. -/
def conflictSuppresses (db : Db) (id : String) (evaluatedAt : String) : Fallible Bool :=
  match db.projection.state with
  | .current => do
    if ← projectionAllows db evaluatedAt then
      anySuppresses db id evaluatedAt db.conflictEdges.rows
    else .ok false
  | _ => .ok false

/-- `current_assertion_sql`. -/
def currentAssertion (db : Db) (r : MemoryRecord) (evaluatedAt : String) : Fallible Bool := do
  if ← baseCurrentAssertion db r evaluatedAt then
    if r.destination = .repo then .ok true
    else if ← projectionAllows db evaluatedAt then do
      let suppressed ← conflictSuppresses db r.id evaluatedAt
      .ok (!suppressed)
    else .ok false
  else .ok false

/-! ### What a recalled record satisfies -/

theorem base_of_currentAssertion {db : Db} {r : MemoryRecord} {evaluatedAt : String}
    (h : currentAssertion db r evaluatedAt = .ok true) :
    baseCurrentAssertion db r evaluatedAt = .ok true := by
  obtain ⟨base, hbase, hrest⟩ := bind_eq_ok.1 h
  cases base with
  | false => cases hrest
  | true => exact hbase

/-- A private record is eligible when it is active and has a lifecycle row whose facts are
authorized and current. -/
theorem baseCurrentAssertion_private {db : Db} {r : MemoryRecord} {evaluatedAt : String}
    (hprivate : r.destination.isPrivate = true) :
    baseCurrentAssertion db r evaluatedAt = .ok true ↔
      r.status = .active ∧ ∃ s, db.lifecycle.get? r.id = some s ∧
        lifecycleAuthorized db.toContents r.id s.toLifecycleFacts = true ∧
        privateAssertionIsCurrent r s.toLifecycleFacts evaluatedAt = .ok true := by
  have hrepo : r.destination ≠ .repo := by
    intro h
    rw [h] at hprivate
    cases hprivate
  unfold baseCurrentAssertion
  by_cases hstatus : r.status = .active
  · rw [if_neg (not_not.2 hstatus), if_neg hrepo, if_pos hprivate]
    cases hs : db.lifecycle.get? r.id with
    | none => simp
    | some s =>
        simp only [Option.some.injEq, hstatus, true_and, exists_eq_left']
        split
        · rename_i hauthorized; simp [hauthorized]
        · rename_i hauthorized; simp [hauthorized]
  · simp [hstatus]

end Recall
end Memzoi
