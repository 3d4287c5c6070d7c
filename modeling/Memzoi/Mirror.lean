/-
# The mirror of the shared runtime in a worktree index

Source: `service/shared_runtime.rs` (`refresh_index_mirrors_locked_at` from the
reads on, and the functions under it), `mirror_snapshot` and `replace_mirror` of
`service/private_maintenance.rs`.

The private memory of a repository lives in a shared database; every worktree has
an index that repeats it. The shared database is read with one query after
another and no transaction around them, so other processes may write in between:
`SharedReads` has the database once for every read. The index is written in one
transaction, whose foreign keys are looked at when it ends. A row that refers to a
conflict set is written after the set, and to a record after the record, so
looking at these at once comes to the same.
-/

import Memzoi.Preservation
import Memzoi.Maintenance.Reconcile
import Mathlib

namespace Memzoi

open Fallible Preservation

namespace Db

/-! ### Maintenance grants and proposals -/

section Statements

variable [Entropy]

/-- `grant_fingerprint` and `reason_code` of `private_maintenance_grant_insert_dirty`. -/
def grantDirtyProjection (db : Db) (g : PrivateMaintenanceGrant) : PrivateMaintenanceProjection :=
  { db.projection with
    state := .dirty
    grantFingerprint := some g.grantFingerprint
    authoritativeGeneration := db.generation
    reasonCode := some "grant_fingerprint_changed"
    updatedAt := Entropy.now db.draws }

def insertMaintenanceGrant (db : Db) (g : PrivateMaintenanceGrant) : Fallible Db := do
  ensure (shortId g.grantId = true ∧ Text.sqlNonBlank g.grantFingerprint = true ∧
      Text.sqlNonBlank g.policyVersion = true ∧ Text.sqlNonBlank g.authorizedAt = true ∧
      (g.state = .revoked ↔ g.revokedAt.isSome = true))
    "CHECK constraint failed: private_maintenance_grant"
  ensure (∀ other ∈ db.grants.rows, other.grantFingerprint ≠ g.grantFingerprint)
    "UNIQUE constraint failed: private_maintenance_grant.grant_fingerprint"
  ensure (g.state = .active → db.activeGrant = none)
    "UNIQUE constraint failed: private_maintenance_grant.state"
  let grants ← require (db.grants.insert? g)
    "UNIQUE constraint failed: private_maintenance_grant.grant_id"
  let db := { db with grants := grants }
  .ok (if g.state = .active then (db.updateProjection (db.grantDirtyProjection g)).rotateRevision
    else db.rotateRevision)

/-- `DELETE FROM private_maintenance_grant`. -/
def deleteMaintenanceGrants (db : Db) : Db :=
  rotateRevision^[db.grants.rows.length] { db with grants := .empty }

/-- One row of `proposal`, with its triggers. -/
def changeProposal (db : Db) (c : RowChange MemoryProposal String) : Fallible Db := do
  let proposals ← require (c.change? db.proposals) "UNIQUE constraint failed: proposal.id"
  let changed := { db with proposals := proposals }
  .ok (if (c.before db.proposals).isSome ∨ (c.after db.proposals).isSome then changed.rotateRevision
    else changed)

end Statements

end Db

namespace SharedRuntime

/-! ### Reading -/

/-- `ORDER BY created_at, id`. -/
def eventOrder (e : MemoryEvent) : String ×ₗ String := toLex (e.createdAt, e.id)

/-- The events that lifecycle rows name. -/
def authorityEventIds (db : Db) : List String :=
  db.lifecycle.rows.flatMap fun s => [s.automaticRecallEventId, s.validityEventId,
    s.retentionEventId, s.quarantineEventId].filterMap id

def readPrivateLifecycleAuthorityEvents (db : Db) : List MemoryEvent :=
  (db.events.rows.filter fun e => e.eventType = Recall.privateLifecycleAppliedEvent ∧
    e.id ∈ authorityEventIds db).insertionSort fun a b => eventOrder a ≤ eventOrder b

def readProposals (db : Db) : List MemoryProposal :=
  db.proposals.rows.insertionSort fun a b => a.id ≤ b.id

/-- `PrivateMaintenanceMirrorSnapshot`. -/
structure MirrorSnapshot where
  grants : List PrivateMaintenanceGrant
  projection : PrivateMaintenanceProjection
  sets : List PrivateConflictSet
  members : List PrivateConflictMember
  edges : List PrivateConflictEdge
  deriving DecidableEq, Repr

def grantOrder (g : PrivateMaintenanceGrant) : String ×ₗ String := toLex (g.authorizedAt, g.grantId)

def memberOrder (m : PrivateConflictMember) : String ×ₗ String := toLex (m.conflictId, m.recordId)

def edgeOrder (e : PrivateConflictEdge) : String ×ₗ String ×ₗ String :=
  toLex (e.conflictId, toLex (e.leftRecordId, e.rightRecordId))

def mirrorSnapshot (db : Db) : MirrorSnapshot where
  grants := db.grants.rows.insertionSort fun a b => grantOrder a ≤ grantOrder b
  projection := db.projection
  sets := db.conflictSets.rows.insertionSort fun a b => a.conflictId ≤ b.conflictId
  members := db.conflictMembers.rows.insertionSort fun a b => memberOrder a ≤ memberOrder b
  edges := db.conflictEdges.rows.insertionSort fun a b => edgeOrder a ≤ edgeOrder b

def runtimeMirrorRevisionsMatch (shared index : Db) : Bool :=
  shared.revision.isSome && shared.revision = index.revision && shared.generation = index.generation

/-- `ensure_read_only_mirror_ready`. -/
def ensureReadOnlyMirrorReady (shared index : Db) : Fallible Unit :=
  ensure (runtimeMirrorRevisionsMatch shared index = true)
    "mirror refresh required before read-only access"

/-- The statement of `ensure_runtime_mirror_revision`. -/
def ensureRuntimeMirrorRevision [Entropy] (db : Db) : Db :=
  if db.revision.isSome then db else db.rotateRevision

def indexedNonRuntimeRecordIds (db : Db) : List String :=
  (db.records.rows.filter fun r => !r.destination.isPrivate).map (·.id)

/-! ### Writing -/

section Write

variable [Entropy]

/-- `DELETE FROM memory_record WHERE destination IN ('local', 'session')`. -/
def deletePrivateRecords (db : Db) : Db :=
  (db.records.rows.filter (·.destination.isPrivate)).foldl Db.deleteRecord db

/-- The turn of `insert_events_exact` for one event. -/
def insertEventExact (db : Db) (event : MemoryEvent) : Fallible Db := do
  let db := match db.events.insert? event with
    | none => db
    | some events => { db with events := events }
  ensure (db.events.get? event.id = some event)
    s!"shared event id collision during journal recovery: {event.id}"
  .ok db

def insertEventsExact (db : Db) (events : List MemoryEvent) : Fallible Db :=
  runAll insertEventExact db events

/-- `DELETE FROM event_log WHERE event_type = 'memory.private_lifecycle_applied'`. -/
def deleteLifecycleEvents (db : Db) : Db :=
  { db with
    events := db.events.deleteWhere fun e => e.eventType = Recall.privateLifecycleAppliedEvent }

def insertProposal (db : Db) (proposal : MemoryProposal) : Fallible Db :=
  db.changeProposal (.insert proposal)

/-- `DELETE FROM proposal`. -/
def deleteProposals (db : Db) : Db :=
  Db.rotateRevision^[db.proposals.rows.length] { db with proposals := .empty }

def replaceProposals (db : Db) (proposals : List MemoryProposal) : Fallible Db :=
  runAll insertProposal (deleteProposals db) proposals

def replaceMirror (db : Db) (snapshot : MirrorSnapshot) : Fallible Db := do
  let db := db.deleteConflictSets.deleteMaintenanceGrants
  let db ← runAll Db.insertMaintenanceGrant db snapshot.grants
  let db ← runAll Db.insertConflictSet db snapshot.sets
  let db ← runAll Db.insertConflictMember db snapshot.members
  let db ← runAll Db.insertConflictEdge db snapshot.edges
  .ok (db.updateProjection snapshot.projection)

end Write

/-! ### The refresh -/

/-- Something for every read of the shared database, in the order of the reads. -/
structure SharedReads (α : Type) where
  check : α
  revision : α
  generation : α
  records : α
  events : α
  maintenance : α
  proposals : α
  recheckRevision : α
  recheckGeneration : α

def SharedReads.map {α β : Type} (f : α → β) (reads : SharedReads α) : SharedReads β :=
  ⟨f reads.check, f reads.revision, f reads.generation, f reads.records, f reads.events,
    f reads.maintenance, f reads.proposals, f reads.recheckRevision, f reads.recheckGeneration⟩

/-- `if collisions.len() == 1 { "" } else { "s" }`. -/
def plural (items : List String) : String := if items.length = 1 then "" else "s"

variable [Entropy] [CaptureDocuments]

/-- `refresh_index_mirrors_locked_at` from its first look at the revisions on. -/
def refreshIndexMirrors (shared : SharedReads Db) (index : Db) : Fallible Db :=
  if runtimeMirrorRevisionsMatch shared.check index then .ok index
  else do
    let sharedRevision ← require shared.revision.revision
      "runtime mirror revision was not initialized"
    let sharedLifecycleGeneration := shared.generation.generation
    let sharedRecords ← runtimeRecordSnapshots shared.records
    let indexedRecords ← runtimeRecordSnapshots index
    let sharedLifecycleEvents := readPrivateLifecycleAuthorityEvents shared.events
    let indexedLifecycleEvents := readPrivateLifecycleAuthorityEvents index
    let sharedMaintenance := mirrorSnapshot shared.maintenance
    let collisions := (sharedRecords.map (·.record.id)).filter
      fun id => (indexedNonRuntimeRecordIds index).contains id
    ensure (collisions = [])
      ("worktree index refused shared local/session record id collision" ++ plural collisions ++
        ": " ++ ", ".intercalate collisions)
    let sharedProposals := readProposals shared.proposals
    let indexedProposals := readProposals index
    let db ← (if sharedRecords = indexedRecords then .ok index
      else restoreRuntimeRecordSnapshots true (deletePrivateRecords index) sharedRecords)
    let db ← (if sharedLifecycleEvents = indexedLifecycleEvents then .ok db
      else insertEventsExact (deleteLifecycleEvents db) sharedLifecycleEvents)
    let db ← (if sharedProposals = indexedProposals then .ok db
      else replaceProposals db sharedProposals)
    let currentSharedRevision ← require shared.recheckRevision.revision
      "shared runtime mirror revision disappeared during reconciliation"
    ensure (currentSharedRevision = sharedRevision)
      "shared runtime mirror revision changed during reconciliation"
    ensure (shared.recheckGeneration.generation = sharedLifecycleGeneration)
      "shared private lifecycle generation changed during reconciliation"
    let db ← replaceMirror (db.setGeneration sharedLifecycleGeneration) sharedMaintenance
    let db := { db with revision := some sharedRevision }
    ensure (Db.ReferencesHold db.toContents db.lifecycle) "FOREIGN KEY constraint failed"
    .ok db

end SharedRuntime
end Memzoi
