/-
# Snapshots of private records

Source: `service/runtime_records/preservation.rs`, `insert_memory_record_row` of
`write.rs` and `store_capture_provenance` of `capture.rs`.

A snapshot is a private record with all that belongs to it: its capture, its
tags and paths, its lifecycle row and the relations it is the subject of.
Snapshots are restored with ordinary statements, so the triggers run on every
row; the lifecycle rows are written last, and their tokens after their facts.

`INSERT OR IGNORE` passes over a row that breaks a constraint. The policy is
also that of the statements in the triggers, so a mirror revision that is there
stays.
-/

import Memzoi.Statements
import Memzoi.Materialization
import Memzoi.PrivateLifecycle.Semantics
import Mathlib

namespace Memzoi

open Fallible

/-- A path of a record, without the id of its row. -/
structure PathBinding where
  path : String
  symbol : Option String
  lineStart : Option Int
  lineEnd : Option Int
  deriving DecidableEq, Repr

def MemoryPath.binding (p : MemoryPath) : PathBinding := ⟨p.path, p.symbol, p.lineStart, p.lineEnd⟩

/-- `ORDER BY path ASC, COALESCE(symbol, '') ASC, COALESCE(line_start, 0) ASC`. -/
def PathBinding.key (p : PathBinding) : String ×ₗ String ×ₗ Int :=
  toLex (p.path, toLex (p.symbol.getD "", p.lineStart.getD 0))

def PrivateLifecycleRelation.order (r : PrivateLifecycleRelation) : String ×ₗ String :=
  toLex (r.createdAt, r.id)

structure RuntimeRecordSnapshot where
  record : MemoryRecord
  capture : Option CaptureProvenance
  tags : List String
  paths : List PathBinding
  lifecycleState : PrivateLifecycleState
  lifecycleRelations : List PrivateLifecycleRelation
  deriving DecidableEq, Repr

namespace Preservation

open PrivateLifecycle (capture? recordsForPreservation)

/-! ### Reading -/

def recordById (db : Db) (recordId : String) : Option (MemoryRecord × Option CaptureProvenance) :=
  (db.records.get? recordId).map fun record => (record, capture? db recordId)

def recordTags (db : Db) (recordId : String) : List String :=
  ((db.tags.rows.filter (·.recordId = recordId)).map (·.tag)).insertionSort (· ≤ ·)

def runtimeRecordPaths (db : Db) (recordId : String) : List PathBinding :=
  ((db.paths.rows.filter (·.recordId = recordId)).map MemoryPath.binding).insertionSort
    fun a b => a.key ≤ b.key

def relationsForSubject (db : Db) (recordId : String) : List PrivateLifecycleRelation :=
  (db.relations.rows.filter (·.subjectRecordId = recordId)).insertionSort fun a b => a.order ≤ b.order

def runtimeRecordSnapshot (db : Db) (record : MemoryRecord) : Fallible RuntimeRecordSnapshot := do
  let lifecycleState ← db.requireState record.id
  .ok
    { record
      capture := capture? db record.id
      tags := recordTags db record.id
      paths := runtimeRecordPaths db record.id
      lifecycleState
      lifecycleRelations := relationsForSubject db record.id }

def runtimeRecordSnapshots (db : Db) : Fallible (List RuntimeRecordSnapshot) :=
  mapAll (runtimeRecordSnapshot db) (recordsForPreservation db)

/-- `runtime_record_snapshots_for_ids`, for a set of ids in their order. -/
def runtimeRecordSnapshotsForIds (db : Db) (recordIds : List String) :
    Fallible (List RuntimeRecordSnapshot) :=
  mapAll (runtimeRecordSnapshot db)
    ((recordIds.filterMap db.records.get?).filter (·.destination.isPrivate))

/-! ### Rows that are passed over -/

section Ignore

variable [Entropy]

/-- The triggers of a statement with `OR IGNORE`. -/
def keepingRevision (db db' : Db) : Db := { db' with revision := db.revision.or db'.revision }

def insertLifecycleIfAbsent (db : Db) (s : PrivateLifecycleState) : Db :=
  match if s.admitted then db.lifecycle.insert? s else none with
  | none => db
  | some lifecycle => { db with lifecycle := lifecycle }

/-- `runtime_mirror_memory_record_ai`. -/
def recordInsertedIfAbsent (db : Db) (new : MemoryRecord) : Db :=
  if new.destination.isPrivate then
    (insertLifecycleIfAbsent { db with draws := db.draws + 1 } (db.newLifecycle new)).touch
  else db

/-- `INSERT OR IGNORE INTO memory_record`, and whether a row was inserted. -/
def insertRecordIfAbsent (db : Db) (r : MemoryRecord) : Db × Bool :=
  match if r.admitted then db.records.insert? r else none with
  | none => (db, false)
  | some records => (keepingRevision db (recordInsertedIfAbsent { db with records := records } r), true)

/-- `INSERT OR IGNORE INTO memory_tag`. -/
def insertTagIfAbsent (recordId : String) (db : Db) (tag : String) : Db :=
  match if MemoryTag.admitted ⟨recordId, tag⟩ then db.tags.insert? ⟨recordId, tag⟩ else none with
  | none => db
  | some tags => keepingRevision db ({ db with tags := tags }.childTouched recordId recordId)

/-- `INSERT OR IGNORE INTO private_lifecycle_relation`: the trigger before it refuses all the
same. -/
def insertRelationIfAbsent (db : Db) (r : PrivateLifecycleRelation) : Fallible Db := do
  ensure (db.hasPrivate r.subjectRecordId = true ∧ db.hasPrivate r.relatedRecordId = true)
    "private lifecycle relations require local/session records"
  match if r.admitted ∧ ∀ other ∈ db.relations.rows, other.uniqueKey ≠ r.uniqueKey then
      db.relations.insert? r else none with
  | none => .ok db
  | some relations =>
    let inserted := { db with relations := relations }
    .ok (keepingRevision db ((inserted.stampLifecycle r.subjectRecordId r.createdAt).stampLifecycle
      r.relatedRecordId r.createdAt).touch)

end Ignore

/-! ### Restoring -/

section Restore

variable [Entropy] [CaptureDocuments]

/-- The upsert of a capture, or the removal of the one that is there. -/
def storeCaptureProvenance (db : Db) (recordId : String) :
    Option CaptureProvenance → Fallible Db
  | some provenance => do
    CaptureDocuments.validateCaptureProvenance provenance
    .ok ({ db with captures := db.captures.upsert ⟨recordId, provenance⟩ }.childTouched recordId
      recordId)
  | none =>
    .ok (if (db.captures.get? recordId).isSome then
      { db with captures := db.captures.erase recordId }.childTouched recordId recordId else db)

/-- `insert_memory_record_row` in the mode `RestoreIfAbsent`. A deferred link to a superseded record
is looked at when the transaction ends. -/
def insertMemoryRecordRow (deferred : Bool) (db : Db) (record : MemoryRecord)
    (capture : Option CaptureProvenance) : Fallible Db :=
  match insertRecordIfAbsent db record with
  | (db, false) => .ok db
  | (db, true) => do
    ensure (deferred = true ∨ db.supersedesHolds record = true) "FOREIGN KEY constraint failed"
    storeCaptureProvenance db record.id capture

/-- The row of a path that is restored at a position. -/
def restoredPath (recordId : String) (path : PathBinding) (index : Nat) : MemoryPath :=
  ⟨recordId ++ "_restored_path_" ++ toString index, recordId, none, path.path, path.symbol,
    path.lineStart, path.lineEnd⟩

/-- The record of a snapshot, with its tags and paths. -/
def restoreParent (deferred : Bool) (db : Db) (snapshot : RuntimeRecordSnapshot) : Fallible Db := do
  let record := snapshot.record
  let db ← insertMemoryRecordRow deferred db record snapshot.capture
  ensure (recordById db record.id = some (record, snapshot.capture))
    s!"runtime record {record.id} collides with a different indexed parent record"
  let db := snapshot.tags.foldl (insertTagIfAbsent record.id) db
  runAll Db.insertPath db (snapshot.paths.mapIdx fun index path => restoredPath record.id path index)

def restoreRelation (db : Db) (relation : PrivateLifecycleRelation) : Fallible Db := do
  let db ← insertRelationIfAbsent db relation
  ensure (db.relations.get? relation.id = some relation)
    s!"private lifecycle relation {relation.id} collides with a different indexed relation"
  .ok db

/-- The facts of a lifecycle row, and then its token and its instant. -/
def restoreLifecycle (db : Db) (state : PrivateLifecycleState) : Fallible Db := do
  let id := state.recordId
  let row ← require (db.lifecycle.get? id)
    s!"private lifecycle state disappeared while restoring {id}"
  let db ← db.updateLifecycleFacts { row with toLifecycleFacts := state.toLifecycleFacts }
  let _ ← require (db.lifecycle.get? id)
    s!"private lifecycle version disappeared while restoring {id}"
  db.changeLifecycle false (.update id state)

/-- `restore_runtime_record_snapshots`, with the foreign keys deferred or not. -/
def restoreRuntimeRecordSnapshots (deferred : Bool) (db : Db)
    (snapshots : List RuntimeRecordSnapshot) : Fallible Db := do
  let db ← runAll (restoreParent deferred) db snapshots
  let db ← runAll restoreRelation db (snapshots.flatMap (·.lifecycleRelations))
  runAll restoreLifecycle db (snapshots.map (·.lifecycleState))

end Restore

end Preservation
end Memzoi
