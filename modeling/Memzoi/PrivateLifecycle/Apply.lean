/-
# Applying an action group

Source: `service/private_lifecycle.rs` (`validate_action_group`,
`apply_action_group` and the writes under them).

`mutateAction` is the body of the loop up to its writes, and `applyAction` adds
the versions the action reports. A correction gets the id that was reserved for
its position when the group was checked.
-/

import Memzoi.PrivateLifecycle.Semantics

namespace Memzoi
namespace PrivateLifecycle

open Fallible Retention

/-- What a whole application shares: its ids, its instant, and the operation it belongs to. -/
structure Application where
  applicationId : String
  eventId : String
  appliedAt : String
  operationId : String
  deriving DecidableEq

structure PrivateLifecycleActionResult where
  kind : String
  targetRecordIds : List String
  resultingVersions : Versions
  replacementRecordId : Option String
  deriving DecidableEq

variable [Entropy] [Digests]

/-! ### Writes -/

/-- `update_state`. -/
def updateState (db : Db) (recordId updatedAt : String) (update : LifecycleFacts → LifecycleFacts) :
    Fallible Db := do
  let state ← db.requireState recordId
  db.updateStateFacts
    { state with toLifecycleFacts := update state.toLifecycleFacts, updatedAt := updatedAt }

def updateRecordStatus (db : Db) (recordId : String) (status : MemoryStatus) (updatedAt : String) :
    Fallible Db := do
  let record ← require ((db.records.get? recordId).filter (·.destination.isPrivate))
    s!"private record changed during lifecycle apply: {recordId}"
  db.updateRecord record { record with status := status, updatedAt := updatedAt }

/-- The lineage a successor gets: a new one for a renewal, its own otherwise. -/
def successorLineage (record : MemoryRecord) (predecessorId : String) :
    Option RecordLineageKind → Option RecordLineage
  | some kind => some ⟨kind, predecessorId⟩
  | none => record.lineage

def setSuccessorPredecessor (db : Db) (successorId predecessorId : String)
    (lineageKind : Option RecordLineageKind) (updatedAt : String) : Fallible Db := do
  let record ← require
    ((db.records.get? successorId).filter (fun r => r.destination.isPrivate && r.status = .active))
    s!"private successor changed during lifecycle apply: {successorId}"
  db.updateRecord record { record with
    supersedesId := some predecessorId
    lineage := successorLineage record predecessorId lineageKind
    updatedAt := updatedAt }

def insertRelation (db : Db) (kind : PrivateLifecycleRelationKind) (subjectId relatedId : String)
    (app : Application) : Fallible Db :=
  { db with draws := db.draws + 1 }.insertRelation
    ⟨"relation_" ++ Entropy.uuid db.draws, kind, subjectId, relatedId, app.applicationId,
      app.appliedAt⟩

/-- The predecessor is superseded, and its relation to what came after it is recorded. -/
def supersedeInto (db : Db) (kind : PrivateLifecycleRelationKind) (subjectId relatedId : String)
    (app : Application) : Fallible Db := do
  let db ← updateRecordStatus db subjectId .superseded app.appliedAt
  insertRelation db kind subjectId relatedId app

/-- The members of a set other than the one that is kept, in order. -/
def supersedeMembers (db : Db) (kind : PrivateLifecycleRelationKind) (keptId : String)
    (recordIds : List String) (app : Application) : Fallible Db :=
  runAll (fun db recordId =>
      if recordId = keptId then .ok db else supersedeInto db kind recordId keptId app)
    db recordIds

/-- Supersede a record by one that exists: status, link, relation. -/
def succeedBy (db : Db) (kind : PrivateLifecycleRelationKind) (predecessorId successorId : String)
    (lineageKind : Option RecordLineageKind) (app : Application) : Fallible Db := do
  let db ← updateRecordStatus db predecessorId .superseded app.appliedAt
  let db ← setSuccessorPredecessor db successorId predecessorId lineageKind app.appliedAt
  insertRelation db kind predecessorId successorId app

/-! ### Corrections -/

def correctionSourceKind : String := "memzoi-lifecycle-correction"

def correctionRecord (predecessor : MemoryRecord) (replacementId : String)
    (replacement : PrivateCorrectionReplacement) (app : Application) : MemoryRecord :=
  { predecessor with
    id := replacementId
    title := Text.trim replacement.title
    body := Text.trim replacement.body
    status := .active
    sourceKind := some correctionSourceKind
    sourceRef := none
    proposalId := none
    contentHash := Digests.blake3 (Text.trim replacement.body)
    createdAt := app.appliedAt
    updatedAt := app.appliedAt
    supersedesId := some predecessor.id
    origin := ⟨"owner-command:" ++ app.operationId, .ownerCommand⟩
    lineage := none }

/-- Every fact is kept, and bound to the event of the correction. -/
def inheritedFacts (predecessor : LifecycleFacts) (eventId : String) : LifecycleFacts :=
  { predecessor with
    automaticRecallEventId := predecessor.automaticRecallEventId.map fun _ => eventId
    validityEventId := predecessor.validityEventId.map fun _ => eventId
    retentionEventId := predecessor.retentionEventId.map fun _ => eventId
    quarantineEventId := predecessor.quarantineEventId.map fun _ => eventId }

def copyTags (db : Db) (predecessorId replacementId : String) : Fallible Db :=
  runAll (fun db tag => db.insertTag ⟨replacementId, tag⟩) db
    ((db.tags.rows.filter (·.recordId = predecessorId)).map (·.tag))

/-- A null symbol sorts before every text. -/
def symbolLe : Option String → Option String → Bool
  | none, _ => true
  | some _, none => false
  | some a, some b => a ≤ b

/-- `load_paths`. -/
def loadPaths (db : Db) (recordId : String) : List MemoryPath :=
  (db.paths.rows.filter (·.recordId = recordId)).insertionSort
    (fun a b => a.path < b.path ∨ (a.path = b.path ∧ symbolLe a.symbol b.symbol = true))

/-- The copy of a path gets a fresh id and no repository. -/
def copyPath (replacementId : String) (db : Db) (path : MemoryPath) : Fallible Db :=
  { db with draws := db.draws + 1 }.insertPath
    ⟨"path_" ++ Entropy.uuid db.draws, replacementId, none, path.path, path.symbol, path.lineStart,
      path.lineEnd⟩

def createCorrectionRecord (db : Db) (predecessorId replacementId : String)
    (replacement : PrivateCorrectionReplacement) (app : Application) : Fallible Db := do
  let predecessor ← requirePrivateRecord db predecessorId
  let predecessorState ← requireFacts db predecessorId
  let db ← db.insertRecord (correctionRecord predecessor replacementId replacement app)
  let db ← updateState db replacementId app.appliedAt
    fun _ => inheritedFacts predecessorState app.eventId
  let db ← copyTags db predecessorId replacementId
  runAll (copyPath replacementId) db (loadPaths db predecessorId)

/-! ### The actions -/

/-- The facts an action on one lifecycle row sets. -/
def changedFacts (eventId : String) : PrivateLifecycleAction → LifecycleFacts → LifecycleFacts
  | .extendAutomaticRecall _ _ recallUntil, facts =>
    { facts with automaticRecallUntil := some recallUntil, automaticRecallEventId := some eventId }
  | .extendValidity _ _ validityUntil, facts =>
    { facts with validityUntil := some validityUntil, validityEventId := some eventId }
  | .retainUntil _ _ retainUntil, facts =>
    { facts with retainUntil := some retainUntil, retentionEventId := some eventId }
  | .pin _ _, facts => { facts with pinned := true, retentionEventId := some eventId }
  | .unpin _ _, facts => { facts with pinned := false, retentionEventId := some eventId }
  | .quarantine _ _ reasonCode, facts =>
    { facts with
      quarantined := true
      quarantineReasonCode := some reasonCode
      quarantineEventId := some eventId }
  | .releaseQuarantine _ _, facts =>
    { facts with
      quarantined := false
      quarantineReasonCode := none
      quarantineEventId := some eventId }
  | _, facts => facts

/-- The writes of one action; `replacementId` is the id reserved for a correction. -/
def mutateAction (app : Application) (db : Db) (action : PrivateLifecycleAction)
    (replacementId : Option String) : Fallible Db :=
  let changeState (recordId : String) : Fallible Db :=
    updateState db recordId app.appliedAt (changedFacts app.eventId action)
  match action with
  | .extendAutomaticRecall recordId _ _ => changeState recordId
  | .extendValidity recordId _ _ => changeState recordId
  | .retainUntil recordId _ _ => changeState recordId
  | .pin recordId _ => changeState recordId
  | .unpin recordId _ => changeState recordId
  | .renewFromEvidence predecessorId _ evidenceRecordId _ =>
    succeedBy db .renewedBy predecessorId evidenceRecordId (some .renewal) app
  | .correct recordId _ replacement _ _ => do
    let replacementId ← require replacementId
      "validated correction has no reserved replacement ID"
    let db ← createCorrectionRecord db recordId replacementId replacement app
    supersedeInto db .correctedBy recordId replacementId app
  | .supersede recordId _ successorRecordId _ _ =>
    succeedBy db .supersededBy recordId successorRecordId none app
  | .consolidate recordIds _ keeperRecordId =>
    supersedeMembers db .consolidatedInto keeperRecordId recordIds app
  | .resolveContradiction recordIds _ winnerRecordId =>
    supersedeMembers db .contradictionResolvedBy winnerRecordId recordIds app
  | .quarantine recordId _ _ => changeState recordId
  | .releaseQuarantine recordId _ => changeState recordId

/-- An action with the id reserved for it, when it is a correction. -/
structure PreparedAction where
  action : PrivateLifecycleAction
  replacementId : Option String

namespace PreparedAction

/-- The records an action reports: its targets and its replacement. -/
def resultTargets (p : PreparedAction) : List String :=
  SortedMap.sortedKeys (p.action.mutationTargets ++ p.replacementId.toList)

end PreparedAction

/-- The version every listed record holds. -/
def resultingVersions (db : Db) : List String → Fallible (List (String × String))
  | [] => .ok []
  | recordId :: rest => do
    let version ← db.privateRecordVersion recordId
    let versions ← resultingVersions db rest
    .ok ((recordId, version) :: versions)

/-- One turn of the loop: the writes, then the versions they left. -/
def applyAction (app : Application) (db : Db) (p : PreparedAction) :
    Fallible (Db × PrivateLifecycleActionResult) := do
  let db ← mutateAction app db p.action p.replacementId
  let versions ← resultingVersions db p.resultTargets
  .ok (db, ⟨p.action.kind, p.resultTargets, .ofList versions, p.replacementId⟩)

def applyStep (app : Application) (acc : Db × List PrivateLifecycleActionResult)
    (p : PreparedAction) : Fallible (Db × List PrivateLifecycleActionResult) := do
  let (db, result) ← applyAction app acc.1 p
  .ok (db, acc.2 ++ [result])

/-- `apply_action_group`. -/
def applyActionGroup (app : Application) (db : Db) (prepared : List PreparedAction) :
    Fallible (Db × List PrivateLifecycleActionResult) :=
  runAll (applyStep app) (db, []) prepared

/-! ### The group check -/

/-- The first of at most `tries` drawn ids that no record has. -/
def reserveId (db : Db) (destination : String) : Nat → Fallible (String × Nat)
  | 0 => bail "could not reserve a private correction record ID"
  | tries + 1 =>
    let candidate := destination ++ "-" ++ Entropy.uuid db.draws
    if db.hasRecord candidate then reserveId { db with draws := db.draws + 1 } destination tries
    else .ok (candidate, db.draws + 1)

def nextReplacementId (db : Db) (predecessorId : String) : Fallible (String × Nat) := do
  let record ← require (db.records.get? predecessorId) "Query returned no rows"
  ensure (record.destination.isPrivate = true)
    "correction replacement requires a private runtime predecessor"
  reserveId db (if record.destination = .session then "session" else "local") 8

def ensureExpectedVersions (db : Db) (action : PrivateLifecycleAction) : Fallible Unit :=
  checkAll (fun bound => db.ensurePrivateRecordVersion bound.1 bound.2)
    action.expectedVersions.entries

variable [Text.Unicode]

/-- Check one action and reserve the id of its replacement. -/
def prepareAction (now : OffsetDateTime) (db : Db) (action : PrivateLifecycleAction) :
    Fallible (Db × PreparedAction) := do
  validateActionSemantics db action now
  match action with
  | .correct recordId _ _ _ _ => do
    let (replacementId, draws) ← nextReplacementId db recordId
    .ok ({ db with draws := draws }, ⟨action, some replacementId⟩)
  | _ => .ok (db, ⟨action, none⟩)

/-- Check the actions in order; only draws are used up. -/
def prepareActions (now : OffsetDateTime) : Db → List PrivateLifecycleAction →
    Fallible (Db × List PreparedAction)
  | db, [] => .ok (db, [])
  | db, action :: actions => do
    let (db, prepared) ← prepareAction now db action
    let (db, rest) ← prepareActions now db actions
    .ok (db, prepared :: rest)

/-- `validate_action_group`. -/
def validateActionGroup (db : Db) (request : PrivateLifecycleRequest) (now : OffsetDateTime) :
    Fallible (Db × List PreparedAction) := do
  checkAll (ensureExpectedVersions db) request.actions
  prepareActions now db request.actions

/-! ### The event -/

/-- The ids an action shows in the audit: a renewal leaves its evidence out. -/
def auditTargetIds : PrivateLifecycleAction → List String
  | .renewFromEvidence predecessorId _ _ _ => [predecessorId]
  | .correct recordId _ _ _ _ => [recordId]
  | action => action.mutationTargets

def lifecycleEvent (app : Application) (grantId : String) (actions : List PrivateLifecycleAction)
    (results : List PrivateLifecycleActionResult) : MemoryEvent where
  id := app.eventId
  eventType := Recall.privateLifecycleAppliedEvent
  actor := "owner:local-cli"
  dataClass := .repository
  payload :=
    { targetRecordIds := SortedMap.sortedKeys (actions.flatMap auditTargetIds ++
        (results.filter (·.kind = "correct")).filterMap (·.replacementRecordId))
      actionKinds := actions.map (·.kind)
      fields := [("grant_id", grantId), ("application_id", app.applicationId),
        ("operation_id", app.operationId), ("applied_at", app.appliedAt)] }
  recordId := none
  proposalId := none
  createdAt := app.appliedAt

def appendContentFreeLifecycleEvent (app : Application) (grantId : String)
    (actions : List PrivateLifecycleAction) (db : Db)
    (results : List PrivateLifecycleActionResult) : Fallible Db :=
  db.insertEvent (lifecycleEvent app grantId actions results)

/-- The ids of an application, drawn after the group is checked. -/
def newApplication (db : Db) (request : PrivateLifecycleRequest) (appliedAt : String) : Application :=
  ⟨"application_" ++ Entropy.uuid db.draws, "evt_" ++ Entropy.uuid (db.draws + 1), appliedAt,
    request.operationId⟩

/-- The part of an application between the grant checks and the receipt: check the group, execute
it, append its event, and require that the generation advanced. -/
def executeGroup (db : Db) (request : PrivateLifecycleRequest) (grantId : String)
    (now : OffsetDateTime) (appliedAt : String) :
    Fallible (Db × Application × List PrivateLifecycleActionResult) := do
  let (checked, prepared) ← validateActionGroup db request now
  let app := newApplication checked request appliedAt
  let (executed, results) ← applyActionGroup app { checked with draws := checked.draws + 2 } prepared
  let recorded ← appendContentFreeLifecycleEvent app grantId request.actions executed results
  ensure (db.generation < recorded.generation) "private lifecycle generation did not advance"
  .ok (recorded, app, results)

/-! ### A record for runs on fixed inputs -/

/-- An active decision without a lineage. -/
def plainDecision (id : String) : MemoryRecord :=
  ⟨id, .decision, .semantic, .local, .repo, none, .private, "Retry policy", "Retry twice",
    .active, 1, none, none, none, ⟨none, none, none, none, none, none⟩,
    ⟨"origin-" ++ id, .localMemory⟩, none, "00", "2026-07-14T10:00:00Z", "2026-07-14T10:00:00Z",
    none⟩

def plainLifecycle (id : String) : PrivateLifecycleState :=
  ⟨.initial, id, "00000000000000000000000000000000", "2026-07-14T10:00:00Z"⟩

end PrivateLifecycle
end Memzoi
