/-
# The runtime schema: tables, constraints and triggers

Source: `schema.rs` (`CURRENT_SCHEMA`, `RUNTIME_MIRROR_TRIGGERS`).

A database is one record of keyed tables. A row operation checks the table's
constraints, changes the row and runs the triggers on that row in the order the
engine runs them; it fails as a whole, as an aborted statement does. Foreign
keys are checked when the row operation ends, as for a statement on one row.

Most triggers end with the same two statements, here `touch`: the lifecycle
generation grows by one, which marks the maintenance projection dirty while a
grant is active, and the mirror revision is drawn anew. Drawn tokens and
generated ids come from the numbered draws of `Entropy`; the database counts
how many it has used. The full-text index and its triggers are left out.
-/

import Memzoi.Origin
import Mathlib

namespace Memzoi

open Fallible Text

/-- The sources of fresh text: `lower(hex(randomblob(16)))`, the id generator, and the engine's
own clock `strftime(..., 'now')`, each by the number of the draw. -/
class Entropy where
  blob : Nat → String
  uuid : Nat → String
  now : Nat → String
  blob_hex : ∀ n, Origin.sqlLowerHex 32 (blob n) = true
  uuid_length : ∀ n, (uuid n).toList.length = 36

/-- A source whose tokens repeat after ten draws and whose ids after a thousand, for runs on fixed
inputs. -/
@[reducible] def Entropy.cycling : Entropy where
  blob n := String.ofList (List.replicate 31 ( '0') ++ [Nat.digitChar (n % 10)])
  uuid n := String.ofList (List.replicate 33 ( '0') ++ [Nat.digitChar (n / 100 % 10),
    Nat.digitChar (n / 10 % 10), Nat.digitChar (n % 10)])
  now _ := "2026-07-14T12:00:00Z"
  blob_hex n := by
    have hlt : n % 10 < 10 := Nat.mod_lt n (by omega)
    interval_cases n % 10 <;> decide
  uuid_length n := by simp

/-! ### Rows -/

structure MemoryTag where
  recordId : String
  tag : String
  deriving DecidableEq, Repr

def MemoryTag.key (t : MemoryTag) : String × String := (t.recordId, t.tag)

structure MemoryPath where
  id : String
  recordId : String
  repoId : Option String
  path : String
  symbol : Option String
  lineStart : Option Int
  lineEnd : Option Int
  deriving DecidableEq, Repr

inductive CaptureReviewOutcome where
  | accept | reject | edit | defer
  deriving DecidableEq, Repr

/-- Capture provenance: the fields the lifecycle reads, and the rest of the document. -/
structure CaptureProvenance where
  evidence : String
  reviewOutcome : CaptureReviewOutcome
  reviewedAt : String
  document : String
  deriving DecidableEq, Repr

structure MemoryCapture where
  recordId : String
  provenance : CaptureProvenance
  deriving DecidableEq, Repr

/-- The independently authorized facts of a lifecycle row. -/
structure LifecycleFacts where
  automaticRecallUntil : Option String
  validityUntil : Option String
  retainUntil : Option String
  pinned : Bool
  quarantined : Bool
  quarantineReasonCode : Option String
  automaticRecallEventId : Option String
  validityEventId : Option String
  retentionEventId : Option String
  quarantineEventId : Option String
  deriving DecidableEq, Repr

/-- The facts a trigger gives to a new private record. -/
def LifecycleFacts.initial : LifecycleFacts :=
  ⟨none, none, none, false, false, none, none, none, none, none⟩

structure PrivateLifecycleState extends LifecycleFacts where
  recordId : String
  recordVersion : String
  updatedAt : String
  deriving DecidableEq, Repr

inductive PrivateLifecycleRelationKind where
  | renewedBy | correctedBy | supersededBy | consolidatedInto | contradictionResolvedBy
  deriving DecidableEq, Repr

structure PrivateLifecycleRelation where
  id : String
  relationKind : PrivateLifecycleRelationKind
  subjectRecordId : String
  relatedRecordId : String
  applicationId : String
  createdAt : String
  deriving DecidableEq, Repr

/-- The payload of an event: the two lists lifecycle authority is read from, and its other
fields. -/
structure EventPayload where
  targetRecordIds : List String
  actionKinds : List String
  fields : List (String × String)
  deriving DecidableEq, Repr

structure MemoryEvent where
  id : String
  eventType : String
  actor : String
  dataClass : MemoryEventDataClass
  payload : EventPayload
  recordId : Option String
  proposalId : Option String
  createdAt : String
  deriving DecidableEq, Repr

structure MemoryProposal where
  id : String
  operation : String
  payload : String
  status : String
  actor : String
  validation : Option String
  createdAt : String
  updatedAt : String
  deriving DecidableEq, Repr

inductive OwnerActionGrantState where
  | active | consumed | revoked
  deriving DecidableEq, Repr

structure OwnerActionGrantRow where
  grantId : String
  requestId : String
  requestJson : String
  state : OwnerActionGrantState
  authorizedAt : String
  expiresAt : String
  revokedAt : Option String
  consumedAt : Option String
  consumedApplicationId : Option String
  deriving DecidableEq, Repr

inductive MaintenanceGrantState where
  | active | revoked
  deriving DecidableEq, Repr

structure PrivateMaintenanceGrant where
  grantId : String
  grantFingerprint : String
  state : MaintenanceGrantState
  policyVersion : String
  authorizedAt : String
  revokedAt : Option String
  deriving DecidableEq, Repr

inductive ProjectionState where
  | disabled | current | dirty | blocked
  deriving DecidableEq, Repr

/-- The single row of `private_maintenance_projection`. -/
structure PrivateMaintenanceProjection where
  state : ProjectionState
  grantFingerprint : Option String
  projectionId : Option String
  planId : Option String
  authoritativeGeneration : Nat
  policyVersion : String
  detectorDigest : Option String
  notAfter : Option String
  reasonCode : Option String
  memberCount : Nat
  edgeCount : Nat
  updatedAt : String
  deriving DecidableEq, Repr

structure PrivateConflictSet where
  conflictId : String
  projectionId : String
  findingId : String
  comparisonSetDigest : String
  grantFingerprint : String
  detectorVersion : String
  policyVersion : String
  deriving DecidableEq, Repr

structure PrivateConflictMember where
  conflictId : String
  recordId : String
  recordVersion : String
  deriving DecidableEq, Repr

def PrivateConflictMember.key (m : PrivateConflictMember) : String × String :=
  (m.conflictId, m.recordId)

structure PrivateConflictEdge where
  conflictId : String
  leftRecordId : String
  rightRecordId : String
  evidenceDigest : String
  deriving DecidableEq, Repr

def PrivateConflictEdge.key (e : PrivateConflictEdge) : String × String × String :=
  (e.conflictId, e.leftRecordId, e.rightRecordId)

/-! ### Constraints -/

/-- `CHECK (length(trim(X)) > 0)` on a column that may be null. -/
def nonBlankIfSome (value : Option String) : Bool :=
  match value with
  | some value => sqlNonBlank value
  | none => true

/-- The destinations a record can be stored with. -/
def MemoryDestination.isStored : MemoryDestination → Bool
  | repo => true
  | «local» => true
  | session => true
  | _ => false

def MemoryRecord.admitted (r : MemoryRecord) : Bool :=
  r.destination.isStored && sqlNonBlank r.title && sqlNonBlank r.body &&
    0 ≤ r.confidence && r.confidence ≤ 1

def MemoryTag.admitted (t : MemoryTag) : Bool := sqlNonBlank t.tag

def positiveIfSome (value : Option Int) : Bool :=
  match value with
  | some n => 0 < n
  | none => true

def MemoryPath.admitted (p : MemoryPath) : Bool :=
  sqlNonBlank p.path && positiveIfSome p.lineStart && positiveIfSome p.lineEnd &&
    match p.lineStart, p.lineEnd with
    | some first, some last => first ≤ last
    | _, _ => true

/-- A reason stands exactly on a quarantined row. -/
def PrivateLifecycleState.admitted (s : PrivateLifecycleState) : Bool :=
  (match s.quarantineReasonCode with
    | some reason => sqlNonBlank reason && reason.utf8ByteSize ≤ 128
    | none => true) &&
  Origin.sqlLowerHex 32 s.recordVersion && sqlNonBlank s.updatedAt &&
  s.quarantined = s.quarantineReasonCode.isSome

/-- `length(trim(id)) > 0 AND length(id) <= 128`. -/
def shortId (id : String) : Bool := sqlNonBlank id && sqlLength id.toList ≤ 128

def PrivateLifecycleRelation.admitted (r : PrivateLifecycleRelation) : Bool :=
  shortId r.id && sqlNonBlank r.applicationId && sqlNonBlank r.createdAt &&
    r.subjectRecordId ≠ r.relatedRecordId

/-- The `UNIQUE` columns of a relation. -/
def PrivateLifecycleRelation.uniqueKey (r : PrivateLifecycleRelation) :
    PrivateLifecycleRelationKind × String × String × String :=
  (r.relationKind, r.subjectRecordId, r.relatedRecordId, r.applicationId)

/-! ### The database -/

/-- The tables whose rows only their own statements change. -/
structure Contents where
  events : Table MemoryEvent.id
  records : Table MemoryRecord.id
  origins : Origin.Registry
  tags : Table MemoryTag.key
  paths : Table MemoryPath.id
  captures : Table MemoryCapture.recordId
  relations : Table PrivateLifecycleRelation.id
  proposals : Table MemoryProposal.id
  grants : Table PrivateMaintenanceGrant.grantId
  conflictSets : Table PrivateConflictSet.conflictId
  conflictMembers : Table PrivateConflictMember.key
  conflictEdges : Table PrivateConflictEdge.key

/-- One database file: the worktree index or the shared runtime. Triggers write the lifecycle
rows, the projection, the generation and the revision. -/
structure Db extends Contents where
  lifecycle : Table PrivateLifecycleState.recordId
  projection : PrivateMaintenanceProjection
  generation : Nat
  revision : Option String
  draws : Nat

namespace Contents

/-- `EXISTS (SELECT 1 FROM memory_record WHERE id = ?1 AND destination IN ('local', 'session'))`. -/
def hasPrivate (c : Contents) (id : String) : Bool :=
  match c.records.get? id with
  | some record => record.destination.isPrivate
  | none => false

def hasRecord (c : Contents) (id : String) : Bool := (c.records.get? id).isSome

/-- The active maintenance grant; a partial unique index allows one. -/
def activeGrant (c : Contents) : Option PrivateMaintenanceGrant :=
  c.grants.rows.find? (fun g => g.state = .active)

/-- The foreign key of `supersedes_id`. -/
def supersedesHolds (c : Contents) (r : MemoryRecord) : Bool :=
  match r.supersedesId with
  | some id => c.hasRecord id
  | none => true

end Contents

namespace Db

/-- A fresh database, as `CURRENT_SCHEMA` leaves it. -/
def initial (updatedAt : String) : Db where
  draws := 0
  events := Table.empty
  records := Table.empty
  origins := Table.empty
  tags := Table.empty
  paths := Table.empty
  captures := Table.empty
  lifecycle := Table.empty
  relations := Table.empty
  proposals := Table.empty
  grants := Table.empty
  projection :=
    ⟨.disabled, none, none, none, 0, "maintenance-policy/1", none, none, none, 0, 0, updatedAt⟩
  conflictSets := Table.empty
  conflictMembers := Table.empty
  conflictEdges := Table.empty
  generation := 0
  revision := none

/-- The lifecycle facts of a record, without its token. -/
def facts? (db : Db) (id : String) : Option LifecycleFacts :=
  (db.lifecycle.get? id).map (·.toLifecycleFacts)

end Db
end Memzoi
