/-
# Private lifecycle storage

Source: `service/runtime_records/private_lifecycle_storage.rs`, and the record
lookups of `service/runtime_records/query.rs`.

The reads and writes of lifecycle rows that the lifecycle commands share.
-/

import Memzoi.Triggers

namespace Memzoi
namespace Db

open Fallible

def requireState (db : Db) (recordId : String) : Fallible PrivateLifecycleState :=
  require (db.lifecycle.get? recordId) s!"private lifecycle state not found: {recordId}"

def privateRecordVersion (db : Db) (recordId : String) : Fallible String := do
  let state ← db.requireState recordId
  .ok state.recordVersion

def ensurePrivateRecordVersion (db : Db) (recordId expectedVersion : String) : Fallible Unit := do
  ensure (Text.isBlank expectedVersion = false) "expected private record version is required"
  let current ← db.privateRecordVersion recordId
  ensure (current = expectedVersion)
    s!"private record {recordId} version mismatch: expected {expectedVersion}, current {current}"

/-- `update_state_facts`: replace the facts of an existing row. -/
def updateStateFacts [Entropy] (db : Db) (state : PrivateLifecycleState) : Fallible Db := do
  let id := state.recordId
  let _ ← require (db.lifecycle.get? id) s!"private lifecycle state not found: {id}"
  db.updateLifecycleFacts state

end Db
end Memzoi
