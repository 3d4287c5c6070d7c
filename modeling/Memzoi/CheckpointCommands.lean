/-
# Checkpoint commands

Source: `service.rs` (`create_checkpoint_command`, `create_checkpoint_successor`,
`continue_checkpoint`, `close_checkpoint`, `checkpoint_result_from_origin`),
`service/session_end_route_apply.rs` (`promote_from_checkpoint`) and
`service/runtime_records/write.rs`.

Every command carries an operation id. Its origin is prepared first: an
operation that was finalized under the same input is answered from the origin's
row and writes nothing, and any other runs in one transaction with the row. A
commit, or the refresh of the mirrors after it, that fails is data of the call,
as is what a promotion does to the proposal files. The fingerprint of an input,
the ids that are reserved for canonical records, whether the repository index is
current, and which candidates the safety policy refuses are parameters.
-/

import Memzoi.Checkpoint
import Memzoi.SessionEnd
import Memzoi.PrivateLifecycle.Apply

namespace Memzoi
namespace Checkpoint

open Fallible Retention OffsetDateTime Origin
open Maintenance (validateCanonicalRecordId)
open PrivateLifecycle (Digests)

structure CheckpointInput where
  task : String
  note : String
  deriving DecidableEq, Repr

structure LocalMemoryInput where
  memoryType : MemoryType
  lane : MemoryLane
  title : String
  body : String
  deriving DecidableEq, Repr

structure CreateCheckpointCommand where
  operationId : String
  input : CheckpointInput
  deriving DecidableEq, Repr

structure CreateCheckpointSuccessorCommand where
  operationId : String
  predecessorId : String
  expectedPredecessorVersion : String
  input : CheckpointInput
  deriving DecidableEq, Repr

structure SessionEndFromCheckpointCommand where
  operationId : String
  checkpointId : String
  expectedVersion : String
  document : SessionEndDocument
  deriving DecidableEq, Repr

/-- The five commands. -/
inductive CheckpointOperation where
  | create (command : CreateCheckpointCommand)
  | createSuccessor (command : CreateCheckpointSuccessorCommand)
  | continue_ (command : CheckpointCommand)
  | close (command : CheckpointCommand)
  | promote (command : SessionEndFromCheckpointCommand)
  deriving DecidableEq, Repr

namespace CheckpointOperation

def operationId : CheckpointOperation → String
  | create command => command.operationId
  | createSuccessor command => command.operationId
  | continue_ command => command.operationId
  | close command => command.operationId
  | promote command => command.operationId

def route : CheckpointOperation → OriginRoute
  | create _ => .checkpointCreate
  | createSuccessor _ => .checkpointSuccessor
  | continue_ _ => .checkpointContinue
  | close _ => .checkpointClose
  | promote _ => .sessionEnd

end CheckpointOperation

structure CheckpointCommandResult where
  operationId : String
  checkpointId : String
  recordVersion : String
  lifecycleEventId : Option String
  applied : Bool
  replayed : Bool
  deriving DecidableEq, Repr

/-- The answer to a command: a promotion's own result comes with that of its checkpoint, and alone
when the promotion is blocked. -/
structure CheckpointAnswer where
  promotion : Option SessionEndResult
  closure : Option CheckpointCommandResult
  deriving DecidableEq, Repr

/-- What the commands take from outside the store. -/
class CheckpointService where
  repositoryKey : String
  fingerprint : OriginRoute → CheckpointOperation → String
  reservedRuntimeRecordIds : List String
  ensureRepositoryIndexCurrent : Fallible Unit
  unsafeRepoCandidates : SessionEndDocument → List Nat

/-- A command at a clock reading. `repoWrites` are the proposal files of the candidates of a
promotion, `commit` its transaction and `refresh` the mirrors after it. -/
structure OperationCall where
  actor : String
  operation : CheckpointOperation
  now : OffsetDateTime
  repoWrites : Fallible (List (Option (String × String)))
  commit : Fallible Unit
  refresh : Fallible Unit

/-! ### Answers from the origin -/

/-- The version an event's payload holds. -/
def eventRecordVersion (db : Db) (eventId : Option String) : Option String := do
  let event ← db.events.get? (← eventId)
  event.payload.fields.lookup "record_version"

/-- `checkpoint_result_from_origin`. -/
def checkpointResultFromOrigin (db : Db) (operationId : String) (outcome : OriginOutcome)
    (replayed : Bool) : Fallible CheckpointCommandResult := do
  let checkpointId ← require outcome.recordId "checkpoint origin outcome has no record_id"
  let _ ← checkpointForLifecycle db checkpointId
  let currentVersion ← checkpointRecordVersion db checkpointId
  .ok ⟨operationId, checkpointId,
    (eventRecordVersion db outcome.lifecycleEventId).getD currentVersion,
    outcome.lifecycleEventId, outcome.outcome = .created, replayed⟩

/-- `OriginDescriptor::owner_command`. -/
def ownerCommand (operationId : String) (route : OriginRoute) : OriginDescriptor :=
  ⟨"owner-command:" ++ operationId, route⟩

/-- What a command does: nothing, or writes that are not committed yet. -/
inductive Transaction where
  | unwritten (answer : CheckpointAnswer)
  | written (db : Db) (answer : CheckpointAnswer)

section Commands

variable [CheckpointService]

def operationIdentity (operation : CheckpointOperation) : OriginIdentity :=
  ⟨CheckpointService.repositoryKey, (ownerCommand operation.operationId operation.route).originKey,
    operation.route⟩

def operationFingerprint (operation : CheckpointOperation) : String :=
  CheckpointService.fingerprint operation.route operation

/-- The outcome a command records: on a session record, with an event when it wrote. -/
def operationOutcome (operation : CheckpointOperation) (kind : OriginOutcomeKind)
    (recordId : String) (eventId : Option String) (timestamp : String) : OriginOutcome :=
  ⟨operationIdentity operation, operationFingerprint operation, kind, some .session, some recordId,
    none, eventId, timestamp⟩

/-- Finalize the origin of a command and read its answer back. -/
def finishOperation (db : Db) (operation : CheckpointOperation) (outcome : OriginOutcome)
    (promotion : Option SessionEndResult) : Fallible Transaction :=
  match finalizeOrigin db.origins outcome with
  | (.error e, _) => .error e
  | (.ok outcome, origins) => do
    let db := { db with origins := origins }
    let result ← checkpointResultFromOrigin db operation.operationId outcome false
    .ok (.written db ⟨promotion, some result⟩)

/-- The frame of a command: prepare the origin, write, finalize the origin. -/
def withOrigin (db : Db) (operation : CheckpointOperation) (timestamp pending : String)
    (body : Db → Fallible (Db × OriginOutcome)) : Fallible Transaction :=
  match prepareOrigin db.origins (operationIdentity operation) (operationFingerprint operation)
      timestamp with
  | (.error e, _) => .error e
  | (.ok (.replay outcome), _) => do
    let result ← checkpointResultFromOrigin db operation.operationId outcome true
    .ok (.unwritten ⟨none, some result⟩)
  | (.ok (.pending _), _) => bail ("origin_operation_pending: " ++ pending)
  | (.ok .acquired, origins) => do
    let (db, outcome) ← body { db with origins := origins }
    finishOperation db operation outcome none

def ensureNonEmptyOperationId (operationId : String) : Fallible Unit :=
  ensure (Text.isBlank operationId = false) "operation_id is required"

/-! ### New records -/

variable [Entropy] [Digests]

/-- The first of at most `tries` drawn ids that is neither reserved nor taken. -/
def drawPrivateRecordId (db : Db) (destination : String) : Nat → Fallible (String × Nat)
  | 0 => bail "private record id space is exhausted"
  | tries + 1 =>
    let candidate := destination ++ "-" ++ Entropy.uuid db.draws
    if candidate ∈ CheckpointService.reservedRuntimeRecordIds ∨ db.hasRecord candidate = true then
      drawPrivateRecordId { db with draws := db.draws + 1 } destination tries
    else .ok (candidate, db.draws + 1)

/-- `next_private_record_id`; one more draw than there are ids to avoid. -/
def nextPrivateRecordId (db : Db) (destination : String) : Fallible (String × Nat) :=
  drawPrivateRecordId db destination
    (CheckpointService.reservedRuntimeRecordIds.length + db.records.rows.length + 1)

def validatePrivateRecordId (id destination : String) : Fallible Unit := do
  ensure (id.utf8ByteSize ≤ 256 ∧ (destination.toList ++ [ '-']).isPrefixOf id.toList = true ∧
      '/' ∉ id.toList)
    s!"private record id must be a bounded {destination}-* identifier"
  validateCanonicalRecordId id

/-- The columns every runtime record is created with. -/
def runtimeRecord (id : String) (memoryType : MemoryType) (lane : MemoryLane)
    (destination : MemoryDestination) (sourceKind title body now : String)
    (origin : OriginDescriptor) (lineage : Option RecordLineage) : MemoryRecord where
  id := id
  memoryType := memoryType
  lane := lane
  destination := destination
  scopeKind := .personal
  scopeId := none
  visibility := .private
  title := Text.trim title
  body := Text.trim body
  status := .active
  confidence := 1
  sourceKind := some sourceKind
  sourceRef := none
  proposalId := none
  retention := retentionFactsForLane lane now
  origin := origin
  lineage := lineage
  contentHash := Digests.blake3 (Text.trim body)
  createdAt := now
  updatedAt := now
  supersedesId := none

/-- `create_local_memory_avoiding`. -/
def createLocalMemory (db : Db) (actor : String) (input : LocalMemoryInput) (now : String) :
    Fallible (Db × MemoryRecord) := do
  let origin : OriginDescriptor := ⟨"runtime-local:" ++ Entropy.uuid db.draws, .localMemory⟩
  let (id, draws) ← nextPrivateRecordId { db with draws := db.draws + 1 } "local"
  ensure (Text.isBlank input.title = false) "title is required"
  ensure (Text.isBlank input.body = false) "body is required"
  validatePrivateRecordId id "local"
  let record := runtimeRecord id input.memoryType input.lane .local "memzoi-local" input.title
    input.body now origin none
  let db ← { db with draws := draws }.insertRecord record
  let (db, _) ← appendEvent db "memory.local_created" actor record.id
    [("record_id", record.id), ("destination", "local")]
  .ok (db, record)

/-- `create_checkpoint_with_metadata_avoiding`. -/
def createCheckpointRecord (db : Db) (actor : String) (input : CheckpointInput) (now : String)
    (origin : OriginDescriptor) (lineage : Option RecordLineage) : Fallible (Db × MemoryRecord) := do
  let (id, draws) ← nextPrivateRecordId db "session"
  ensure (Text.isBlank input.task = false) "task is required"
  ensure (Text.isBlank input.note = false) "note is required"
  validatePrivateRecordId id "session"
  let record := runtimeRecord id .episode .session .session checkpointSourceKind input.task
    input.note now origin lineage
  let db ← { db with draws := draws }.insertRecord record
  let recordVersion ← checkpointRecordVersion db record.id
  let (db, _) ← appendEvent db "memory.checkpoint_created" actor record.id
    [("record_id", record.id), ("destination", "session"), ("record_version", recordVersion)]
  .ok (db, record)

/-- `create_checkpoint_avoiding`: under an origin of its own. -/
def createCheckpoint (db : Db) (actor : String) (input : CheckpointInput) (now : String) :
    Fallible (Db × MemoryRecord) :=
  createCheckpointRecord { db with draws := db.draws + 1 } actor input now
    (ownerCommand (Entropy.uuid db.draws) .checkpointCreate) none

/-- `latest_checkpoint_event_id`. -/
def latestCheckpointEventId (db : Db) (checkpointId eventType : String) : Fallible String := do
  let event ← require (db.events.rows.filter fun e =>
      e.recordId = some checkpointId ∧ e.eventType = eventType).getLast?
    s!"checkpoint {checkpointId} did not append expected event {eventType}"
  .ok event.id

/-! ### The commands -/

/-- `create_checkpoint_command`, up to its commit. -/
def createCheckpointCommand (db : Db) (actor : String) (command : CreateCheckpointCommand)
    (now : OffsetDateTime) : Fallible Transaction := do
  let operation := CheckpointOperation.create command
  ensureNonEmptyOperationId command.operationId
  let timestamp ← formatTimestamp now
  withOrigin db operation timestamp "checkpoint creation is already prepared" fun db => do
    let (db, record) ← createCheckpointRecord db actor command.input timestamp
      (ownerCommand command.operationId operation.route) none
    let eventId ← latestCheckpointEventId db record.id "memory.checkpoint_created"
    .ok (db, operationOutcome operation .created record.id (some eventId) timestamp)

def ensureSuccessorPredecessor (db : Db) (record : MemoryRecord) (expectedVersion : String)
    (now : OffsetDateTime) : Fallible Unit := do
  let id := record.id
  let status := record.status.asStr
  ensureExpectedVersion db record expectedVersion
  ensure (record.status = .active)
    s!"checkpoint {id} has lifecycle status {status} and cannot be succeeded"
  let lifecycle ← db.requireState id
  ensure (lifecycle.quarantined = false) s!"checkpoint {id} is quarantined and cannot be succeeded"
  let retention ← evaluateRetention id record.lane record.retention now
  ensure (record.retention.closedAt.isSome = true ∨ retention.state = .queryOnly)
    s!"checkpoint {id} is still current; close it before creating a successor"

/-- `create_checkpoint_successor`, up to its commit. -/
def createCheckpointSuccessor (db : Db) (actor : String) (command : CreateCheckpointSuccessorCommand)
    (now : OffsetDateTime) : Fallible Transaction := do
  let operation := CheckpointOperation.createSuccessor command
  ensureNonEmptyOperationId command.operationId
  let timestamp ← formatTimestamp now
  withOrigin db operation timestamp "checkpoint successor is already prepared" fun db => do
    let predecessor ← checkpointForLifecycle db command.predecessorId
    ensureSuccessorPredecessor db predecessor command.expectedPredecessorVersion now
    let (db, record) ← createCheckpointRecord db actor command.input timestamp
      (ownerCommand command.operationId operation.route)
      (some ⟨.sessionSuccessor, predecessor.id⟩)
    let recordVersion ← checkpointRecordVersion db record.id
    let (db, event) ← appendEvent db "memory.checkpoint_succeeded" actor record.id
      [("operation_id", command.operationId), ("predecessor_id", predecessor.id),
        ("successor_id", record.id), ("handoff_at", timestamp), ("record_version", recordVersion)]
    .ok (db, operationOutcome operation .created record.id (some event.id) timestamp)

/-- `continue_checkpoint`, up to its commit. -/
def continueCheckpointCommand (db : Db) (actor : String) (command : CheckpointCommand)
    (now : OffsetDateTime) : Fallible Transaction := do
  let operation := CheckpointOperation.continue_ command
  let timestamp ← formatTimestamp now
  withOrigin db operation timestamp "checkpoint continuation is already prepared" fun db => do
    let (db, mutation) ← continueCheckpoint db actor command now timestamp
    let event ← require mutation.event "checkpoint continuation must append a lifecycle event"
    .ok (db, operationOutcome operation .created mutation.record.id (some event.id) timestamp)

/-- `close_checkpoint`, up to its commit; a checkpoint that is closed already is left alone. -/
def closeCheckpointCommand (db : Db) (actor : String) (command : CheckpointCommand)
    (now : OffsetDateTime) : Fallible Transaction := do
  let operation := CheckpointOperation.close command
  let timestamp ← formatTimestamp now
  withOrigin db operation timestamp "checkpoint closure is already prepared" fun db => do
    let (db, mutation) ← closeCheckpoint db actor command now timestamp
    .ok (db, operationOutcome operation
      (if mutation.applied then .created else .existingDuplicateNoWrite) mutation.record.id
      (mutation.event.map MemoryEvent.id) timestamp)

/-! ### Promotion of a session end -/

/-- The write of a candidate to the runtime store. -/
def writeCandidate (db : Db) (actor timestamp : String) (candidate : SessionEndCandidate) :
    Fallible (Db × Option (String × MemoryDestination)) :=
  match candidate.destination with
  | .local => do
    let (db, record) ← createLocalMemory db actor
      ⟨candidate.memoryType, candidate.lane, candidate.title, candidate.body⟩ timestamp
    .ok (db, some (record.id, .local))
  | .session => do
    let (db, record) ← createCheckpoint db actor ⟨candidate.title, candidate.body⟩ timestamp
    .ok (db, some (record.id, .session))
  | _ => .ok (db, none)

/-- The writes of all candidates, in order. -/
def writeCandidates (actor timestamp : String) : Db → List SessionEndCandidate →
    Fallible (Db × List (Option (String × MemoryDestination)))
  | db, [] => .ok (db, [])
  | db, candidate :: candidates => do
    let (db, write) ← writeCandidate db actor timestamp candidate
    let (db, writes) ← writeCandidates actor timestamp db candidates
    .ok (db, write :: writes)

/-- The write a candidate is answered with. -/
def candidateWrite (repoWrites : List (Option (String × String)))
    (runtimeWrites : List (Option (String × MemoryDestination))) (index : Nat)
    (candidate : SessionEndCandidate) : Fallible (Option SessionEndWrite) :=
  match candidate.destination with
  | .repo => do
    let write ← require repoWrites[index]?.join
      "repo session-end candidate should have a proposal write"
    .ok (some (.proposalFile write.1 write.2))
  | .local => do
    let write ← require runtimeWrites[index]?.join
      "local session-end candidate should have a runtime write"
    .ok (some (.runtimeRecord write.1 write.2))
  | .session => do
    let write ← require runtimeWrites[index]?.join "session-end candidate should have a runtime write"
    .ok (some (.runtimeRecord write.1 write.2))
  | _ => .ok none

def successfulSessionEndResult (document : SessionEndDocument)
    (repoWrites : List (Option (String × String)))
    (runtimeWrites : List (Option (String × MemoryDestination))) : Fallible SessionEndResult := do
  let candidates ← mapAll (fun (p : SessionEndCandidate × Nat) => do
    let write ← candidateWrite repoWrites runtimeWrites p.2 p.1
    .ok (writtenCandidateResult p.2 p.1 write)) document.candidates.zipIdx
  .ok ⟨Text.trim document.task, candidates⟩

variable [SessionEndTexts]

/-- The result of a promotion that the event of its checkpoint holds. -/
def storedPromotion (db : Db) (eventId : String) : Fallible SessionEndResult := do
  let event ← require (db.events.get? eventId) s!"checkpoint session-end event not found: {eventId}"
  let text ← require (event.payload.fields.lookup "promotion")
    "checkpoint session-end event has no promotion outcome"
  require (SessionEndTexts.readResult text) "checkpoint session-end event is not readable"

/-- `replayed_checkpoint_promotion`. -/
def replayedCheckpointPromotion (db : Db) (operationId : String) (outcome : OriginOutcome) :
    Fallible CheckpointAnswer := do
  let eventId ← require outcome.lifecycleEventId
    "checkpoint session-end origin outcome has no lifecycle event"
  let promotion ← storedPromotion db eventId
  let closure ← checkpointResultFromOrigin db operationId outcome true
  .ok ⟨some promotion, some closure⟩

/-- Whether the checkpoint of a promotion is current, holds the document, and has the version. -/
def ensurePromotable (db : Db) (command : SessionEndFromCheckpointCommand) (now : OffsetDateTime) :
    Fallible Unit := do
  let id := command.checkpointId
  let current ← checkpointRecord db id now
  let record ← require current s!"checkpoint {id} is not eligible for ordinary session-end promotion"
  let stored ← parseSessionEndDocument record.body
  ensure (stored = command.document) s!"session-end document does not match checkpoint {id}"
  let version ← checkpointRecordVersion db record.id
  ensure (version = command.expectedVersion)
    s!"checkpoint {id} version mismatch before session-end promotion"

/-- The transaction of a promotion: the writes of the candidates, the closure of the checkpoint and
the event that holds the result. -/
def writePromotion (db : Db) (actor : String) (command : SessionEndFromCheckpointCommand)
    (now : OffsetDateTime) (timestamp : String) (repoWrites : List (Option (String × String))) :
    Fallible (Db × OriginOutcome × SessionEndResult) := do
  let operation := CheckpointOperation.promote command
  let (db, runtimeWrites) ← writeCandidates actor timestamp db command.document.candidates
  let (db, mutation) ← closeCheckpoint db actor
    ⟨command.operationId, command.checkpointId, command.expectedVersion⟩ now timestamp
  let promotion ← successfulSessionEndResult command.document repoWrites runtimeWrites
  let recordVersion ← checkpointRecordVersion db mutation.record.id
  let (db, event) ← appendEvent db "memory.checkpoint_session_ended" actor command.checkpointId
    [("operation_id", command.operationId), ("checkpoint_id", command.checkpointId),
      ("record_version", recordVersion), ("promotion", SessionEndTexts.printResult promotion)]
  .ok (db, operationOutcome operation
    (if mutation.applied then .created else .existingDuplicateNoWrite) command.checkpointId
    (some event.id) timestamp, promotion)

/-- `promote_internal` for a checkpoint, up to its commit. The document was validated before. -/
def promoteInternal (db : Db) (actor : String) (command : SessionEndFromCheckpointCommand)
    (now : OffsetDateTime) (repoWrites : Fallible (List (Option (String × String)))) :
    Fallible Transaction :=
  let operation := CheckpointOperation.promote command
  let refused := CheckpointService.unsafeRepoCandidates command.document
  if refused ≠ [] then .ok (.unwritten ⟨some (blockedResult command.document refused), none⟩)
  else do
    let timestamp ← formatTimestamp now
    ensurePromotable db command now
    let repoWrites ← repoWrites
    match prepareOrigin db.origins (operationIdentity operation) (operationFingerprint operation)
        timestamp with
    | (.error e, _) => .error e
    | (.ok (.replay _), _) => bail ("checkpoint session-end origin finalized while the repository " ++
        "lifecycle lock was held")
    | (.ok (.pending _), _) => bail ("origin_operation_pending: checkpoint session-end promotion " ++
        "is already prepared")
    | (.ok .acquired, origins) => do
      let (db, outcome, promotion) ← writePromotion { db with origins := origins } actor command now
        timestamp repoWrites
      finishOperation db operation outcome (some promotion)

/-- `promote_from_checkpoint`, up to its commit. -/
def promoteFromCheckpoint (db : Db) (actor : String) (command : SessionEndFromCheckpointCommand)
    (now : OffsetDateTime) (repoWrites : Fallible (List (Option (String × String)))) :
    Fallible Transaction := do
  let operation := CheckpointOperation.promote command
  ensureNonEmptyOperationId command.operationId
  CheckpointService.ensureRepositoryIndexCurrent
  validateSessionEndDocument command.document
  let looked ← lookupOrigin db.origins (operationIdentity operation) (operationFingerprint operation)
  match looked with
  | .replay outcome => do
    let answer ← replayedCheckpointPromotion db command.operationId outcome
    .ok (.unwritten answer)
  | .prepared _ => bail ("origin_operation_pending: checkpoint session-end promotion is already " ++
      "prepared")
  | .unseen => promoteInternal db actor command now repoWrites

/-! ### Calls -/

namespace OperationCall

/-- A command up to its commit. -/
def transaction (db : Db) (call : OperationCall) : Fallible Transaction :=
  match call.operation with
  | .create command => createCheckpointCommand db call.actor command call.now
  | .createSuccessor command => createCheckpointSuccessor db call.actor command call.now
  | .continue_ command => continueCheckpointCommand db call.actor command call.now
  | .close command => closeCheckpointCommand db call.actor command call.now
  | .promote command => promoteFromCheckpoint db call.actor command call.now call.repoWrites

/-- The store after a command and its answer. -/
def run (db : Db) (call : OperationCall) : Db × Fallible CheckpointAnswer :=
  match call.transaction db with
  | .error e => (db, .error e)
  | .ok (.unwritten answer) => (db, .ok answer)
  | .ok (.written db' answer) =>
    match call.commit, call.refresh with
    | .error e, _ => (db, .error e)
    | .ok (), .error e => (db', .error e)
    | .ok (), .ok () => (db', .ok answer)

end OperationCall

/-- A step of the service: a command, or an application of private lifecycle actions. -/
inductive ServiceStep where
  | command (call : OperationCall)
  | lifecycle (request : PrivateLifecycle.PrivateLifecycleRequest) (grantId : String)
      (now : OffsetDateTime) (appliedAt : String)

variable [Text.Unicode]

/-- The store after a step; a lifecycle application that fails leaves it as it was. -/
def ServiceStep.run (db : Db) : ServiceStep → Db
  | command call => (call.run db).1
  | lifecycle request grantId now appliedAt =>
    match request.validate, PrivateLifecycle.executeGroup db request grantId now appliedAt with
    | .ok (), .ok (db', _, _) => db'
    | _, _ => db

def runSteps (db : Db) (steps : List ServiceStep) : Db := steps.foldl ServiceStep.run db

end Commands
end Checkpoint
end Memzoi
