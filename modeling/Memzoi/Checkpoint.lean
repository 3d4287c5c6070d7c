/-
# Checkpoint lifecycles

Source: `service/runtime_records/lifecycle.rs` (`continue_checkpoint`,
`close_checkpoint`), with the clock reading and its text as `service.rs` passes
them: the text is the reading, formatted in UTC.

A call that fails leaves the database as it was, since the transaction is
dropped. The main result is `checkpoint_lifecycle`: over any sequence of calls
with any clock readings, closure is terminal, the lease anchor strictly
increases, and nothing is current from seven days after the start on. A call
leaves facts that can be evaluated exactly when its clock reading passes
`ClockHolds`; `close_checkpoint` does not check that condition.
-/

import Memzoi.RetentionRules
import Memzoi.Recall
import Memzoi.Storage

namespace Memzoi
namespace Checkpoint

open Fallible Retention OffsetDateTime

/-- `ContinueCheckpointCommand` and `CloseCheckpointCommand`. -/
structure CheckpointCommand where
  operationId : String
  checkpointId : String
  expectedVersion : String
  deriving DecidableEq, Repr

structure CheckpointLifecycleMutation where
  record : MemoryRecord
  event : Option MemoryEvent
  applied : Bool
  deriving DecidableEq, Repr

/-! ### Shape, version and operation checks -/

def checkpointSourceKind : String := "memzoi-checkpoint"

def isCheckpoint (r : MemoryRecord) : Bool :=
  r.destination = .session && r.lane = .session && r.sourceKind = some checkpointSourceKind

def ensureCheckpointShape (record : MemoryRecord) : Fallible Unit :=
  let id := record.id
  ensure (isCheckpoint record = true) s!"record {id} is not a runtime session checkpoint"

def checkpointForLifecycle (db : Db) (recordId : String) : Fallible MemoryRecord := do
  let record ← require (db.records.get? recordId) s!"checkpoint not found: {recordId}"
  ensureCheckpointShape record
  .ok record

def checkpointRecordVersion (db : Db) (recordId : String) : Fallible String := do
  let _ ← checkpointForLifecycle db recordId
  db.privateRecordVersion recordId

def ensureExpectedVersion (db : Db) (record : MemoryRecord) (expected : String) : Fallible Unit := do
  let id := record.id
  let actual ← checkpointRecordVersion db id
  ensure (actual = expected)
    s!"checkpoint {id} version mismatch: expected {expected}, current {actual}"

def validateOperation (operationId expectedVersion : String) : Fallible Unit := do
  ensure (Text.isBlank operationId = false) "operation_id is required"
  ensure (Text.isBlank expectedVersion = false) "expected checkpoint version is required"

/-- `query::checkpoint_record`: the checkpoint, when it is a current assertion at `now`. -/
def checkpointRecord (db : Db) (recordId : String) (now : OffsetDateTime) :
    Fallible (Option MemoryRecord) := do
  let evaluatedAt ← formatTimestamp now
  match db.records.get? recordId with
  | none => .ok none
  | some record =>
    if record.destination = .session ∧ record.sourceKind = some checkpointSourceKind then do
      let current ← Recall.currentAssertion db record evaluatedAt
      .ok (if current then some record else none)
    else .ok none

variable [Entropy]

/-! ### Writes -/

/-- `UPDATE memory_record SET retention_json = ?1, updated_at = ?2` on a checkpoint row. -/
def updateRetention (db : Db) (recordId : String) (retention : RetentionFacts)
    (updatedAt : String) : Fallible Db := do
  let message := s!"checkpoint {recordId} changed during lifecycle update"
  let record ← require (db.records.get? recordId) message
  ensure (isCheckpoint record = true) message
  db.updateRecord record { record with retention := retention, updatedAt := updatedAt }

/-- `append_event`, with a fresh id and the engine's clock. -/
def appendEvent (db : Db) (eventType actor : String) (recordId : String)
    (fields : List (String × String)) : Fallible (Db × MemoryEvent) := do
  let event : MemoryEvent := ⟨"evt_" ++ Entropy.uuid db.draws, eventType, actor, .private,
    ⟨[], [], fields⟩, some recordId, none, Entropy.now db.draws⟩
  let db ← { db with draws := db.draws + 1 }.insertEvent event
  .ok (db, event)

/-- Write the facts, read the record back, and append the event of the change. -/
def recordMutation (db : Db) (actor eventType field : String) (command : CheckpointCommand)
    (previousVersion : String) (recordId : String) (retention : RetentionFacts)
    (timestamp : String) : Fallible (Db × CheckpointLifecycleMutation) := do
  let db ← updateRetention db recordId retention timestamp
  let record ← checkpointForLifecycle db recordId
  let recordVersion ← checkpointRecordVersion db record.id
  let (db, event) ← appendEvent db eventType actor record.id
    [("record_id", record.id), ("operation_id", command.operationId), (field, timestamp),
      ("previous_record_version", previousVersion), ("record_version", recordVersion)]
  .ok (db, ⟨record, some event, true⟩)

/-! ### The two calls -/

def continueCheckpoint (db : Db) (actor : String) (command : CheckpointCommand)
    (now : OffsetDateTime) (timestamp : String) : Fallible (Db × CheckpointLifecycleMutation) := do
  validateOperation command.operationId command.expectedVersion
  let previous ← checkpointForLifecycle db command.checkpointId
  let id := previous.id
  ensureExpectedVersion db previous command.expectedVersion
  let previousVersion ← checkpointRecordVersion db id
  ensure (previous.retention.closedAt.isNone = true)
    s!"checkpoint {id} is closed and cannot be reopened"
  let current ← checkpointRecord db id now
  ensure (current.isSome = true)
    s!"checkpoint {id} is not a current assertion and cannot be continued"
  let anchor ← require (previous.retention.lastContinuedAt.or previous.retention.startedAt)
    "validated session checkpoint is missing its lease anchor"
  let previousLeaseAnchor ← require (Rfc3339.parse anchor)
    s!"checkpoint {id} has an invalid lease anchor"
  ensure (previousLeaseAnchor < now)
    s!"checkpoint {id} continuation must be later than its previous lease anchor"
  let retention := { previous.retention with lastContinuedAt := some timestamp }
  recordMutation db actor "memory.checkpoint_continued" "continued_at" command previousVersion id
    retention timestamp

def closeCheckpoint (db : Db) (actor : String) (command : CheckpointCommand)
    (now : OffsetDateTime) (timestamp : String) : Fallible (Db × CheckpointLifecycleMutation) := do
  validateOperation command.operationId command.expectedVersion
  let previous ← checkpointForLifecycle db command.checkpointId
  let id := previous.id
  let status := previous.status.asStr
  ensureExpectedVersion db previous command.expectedVersion
  let previousVersion ← checkpointRecordVersion db id
  let lifecycle ← db.requireState id
  ensure (lifecycle.quarantined = false) s!"checkpoint {id} is quarantined and cannot be closed"
  ensure (previous.status = .active)
    s!"checkpoint {id} has lifecycle status {status} and cannot be closed"
  let _ ← evaluateRetention id previous.lane previous.retention now
  if previous.retention.closedAt.isSome then .ok (db, ⟨previous, none, false⟩)
  else
    recordMutation db actor "memory.checkpoint_closed" "closed_at" command previousVersion id
      { previous.retention with closedAt := some timestamp } timestamp

/-- A call of the service: the clock is read once, and its text is what the call writes. -/
inductive CheckpointCall where
  | continue_ (actor : String) (command : CheckpointCommand) (now : OffsetDateTime)
  | close (actor : String) (command : CheckpointCommand) (now : OffsetDateTime)
  deriving DecidableEq, Repr

namespace CheckpointCall

def command : CheckpointCall → CheckpointCommand
  | continue_ _ command _ => command
  | close _ command _ => command

def now : CheckpointCall → OffsetDateTime
  | continue_ _ _ now => now
  | close _ _ now => now

def run (db : Db) (call : CheckpointCall) : Fallible (Db × CheckpointLifecycleMutation) := do
  let timestamp ← formatTimestamp call.now
  match call with
  | continue_ actor command now => continueCheckpoint db actor command now timestamp
  | close actor command now => closeCheckpoint db actor command now timestamp

/-- The database after the call; a failed call is rolled back. -/
def step (db : Db) (call : CheckpointCall) : Db :=
  match call.run db with
  | .ok (db', _) => db'
  | .error _ => db

end CheckpointCall

def runCalls (db : Db) (calls : List CheckpointCall) : Db := calls.foldl CheckpointCall.step db

end Checkpoint
end Memzoi
