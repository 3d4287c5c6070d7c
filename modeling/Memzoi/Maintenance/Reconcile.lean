/-
# Reconciling the conflict projection

Source: `service/private_maintenance.rs` (`reconcile_transaction`,
`append_audit`), with the constraints of `CURRENT_SCHEMA` on the three
`private_conflict_*` tables and the mirror triggers on them and on the
projection.

A reconcile plans the whole private store, replaces the conflict sets by those
of the plan's derived actions, and publishes a current projection that ends
where the plan ends. It runs in one transaction: a step that fails leaves the
store as it was.
-/

import Memzoi.Maintenance.PrivatePlan
import Memzoi.Triggers

namespace Memzoi

namespace Db

open Fallible

variable [Entropy]

/-! ### The conflict tables -/

/-- `DELETE FROM private_conflict_set`: members and edges belong to a set, so the cascade takes
them all. -/
def deleteConflictSets (db : Db) : Db :=
  { db with
    conflictSets := .empty
    conflictMembers := .empty
    conflictEdges := .empty }.rotateRevision

def insertConflictSet (db : Db) (s : PrivateConflictSet) : Fallible Db := do
  ensure (Text.sqlNonBlank s.conflictId = true ∧ Text.sqlNonBlank s.projectionId = true ∧
      Text.sqlNonBlank s.findingId = true ∧ Text.sqlNonBlank s.comparisonSetDigest = true ∧
      Text.sqlNonBlank s.grantFingerprint = true ∧ Text.sqlNonBlank s.detectorVersion = true ∧
      Text.sqlNonBlank s.policyVersion = true)
    "CHECK constraint failed: private_conflict_set"
  let conflictSets ← require (db.conflictSets.insert? s)
    "UNIQUE constraint failed: private_conflict_set.conflict_id"
  .ok { db with conflictSets := conflictSets }.rotateRevision

def insertConflictMember (db : Db) (m : PrivateConflictMember) : Fallible Db := do
  ensure (Origin.sqlLowerHex 32 m.recordVersion = true)
    "CHECK constraint failed: private_conflict_member"
  let conflictMembers ← require (db.conflictMembers.insert? m)
    "UNIQUE constraint failed: private_conflict_member"
  ensure ((db.conflictSets.get? m.conflictId).isSome = true ∧ db.hasRecord m.recordId = true)
    "FOREIGN KEY constraint failed"
  .ok { db with conflictMembers := conflictMembers }.rotateRevision

def insertConflictEdge (db : Db) (e : PrivateConflictEdge) : Fallible Db := do
  ensure (Text.sqlNonBlank e.evidenceDigest = true ∧ e.leftRecordId < e.rightRecordId)
    "CHECK constraint failed: private_conflict_edge"
  let conflictEdges ← require (db.conflictEdges.insert? e)
    "UNIQUE constraint failed: private_conflict_edge"
  ensure ((db.conflictSets.get? e.conflictId).isSome = true ∧
      db.hasRecord e.leftRecordId = true ∧ db.hasRecord e.rightRecordId = true ∧
      (db.conflictMembers.get? (e.conflictId, e.leftRecordId)).isSome = true ∧
      (db.conflictMembers.get? (e.conflictId, e.rightRecordId)).isSome = true)
    "FOREIGN KEY constraint failed"
  .ok { db with conflictEdges := conflictEdges }.rotateRevision

/-- `UPDATE private_maintenance_projection ... WHERE singleton = 1`. -/
def updateProjection (db : Db) (row : PrivateMaintenanceProjection) : Db :=
  { db with projection := row }.rotateRevision

end Db

namespace Maintenance

open Fallible
open Retention (formatTimestamp)
open Recall (maintenancePolicyVersion)

/-- The identities of a projection and of a conflict in it. -/
class ProjectionDigests where
  projection : String × String × Nat × List MaintenanceAction → String
  conflict : String × String → String

def contradictionDetectorVersion : String := "lexical-contradiction/1"
def privateMaintenanceReconciledEvent : String := "memory.private_maintenance_reconciled"

variable [Entropy]

/-! ### The conflicts of a plan -/

def insertMember (conflictId : String) (action : MaintenanceAction) (db : Db) (recordId : String) :
    Fallible Db := do
  let version ← require ((action.preconditions.recordVersions.get? recordId).bind
      MaintenanceRecordVersion.privateVersionToken)
    "private maintenance member has no private version"
  db.insertConflictMember ⟨conflictId, recordId, version⟩

def insertEdge (conflictId : String) (db : Db) (edge : MaintenanceConflictEdge) : Fallible Db :=
  db.insertConflictEdge ⟨conflictId, edge.left, edge.right, edge.evidenceDigest⟩

/-- The set of a finding under a projection. -/
def conflictSetOf (conflictId projectionId grantFingerprint : String)
    (finding : MaintenanceFinding) : PrivateConflictSet :=
  ⟨conflictId, projectionId, finding.findingId, finding.comparisonSetDigest, grantFingerprint,
    contradictionDetectorVersion, maintenancePolicyVersion⟩

variable [ProjectionDigests]

/-- The turn of the loop for one derived action: its set, its members, its edges. -/
def insertConflict (findings : List MaintenanceFinding) (projectionId grantFingerprint : String)
    (db : Db) (action : MaintenanceAction) : Fallible Db := do
  let finding ← require (findings.find? (·.findingId = action.findingId))
    "private maintenance action has no finding"
  let conflictId := ProjectionDigests.conflict (projectionId, finding.findingId)
  let db ← db.insertConflictSet (conflictSetOf conflictId projectionId grantFingerprint finding)
  let db ← runAll (insertMember conflictId action) db finding.recordIds
  runAll (insertEdge conflictId) db finding.conflictEdges

/-! ### The transaction -/

section Plan

variable [Text.Unicode] [MaintenanceDigests]

/-- The row of a projection that is current. The conflict tables were emptied before the loop, so
the counters of the loop are their sizes. -/
def currentProjection (db : Db) (plan : MaintenancePlan) (projectionId grantFingerprint now : String) :
    PrivateMaintenanceProjection where
  state := .current
  grantFingerprint := some grantFingerprint
  projectionId := some projectionId
  planId := some plan.planId
  authoritativeGeneration := db.generation
  policyVersion := maintenancePolicyVersion
  detectorDigest := some MaintenanceDigests.detectors
  notAfter := some plan.notAfter
  reasonCode := none
  memberCount := (SortedMap.sortedKeys (db.conflictMembers.rows.map (·.recordId))).length
  edgeCount := db.conflictEdges.rows.length
  updatedAt := now

/-- `append_audit` for a projection that was reconciled. -/
def reconciledEvent (db : Db) (now : String) : MemoryEvent where
  id := "evt_" ++ Entropy.uuid db.draws
  eventType := privateMaintenanceReconciledEvent
  actor := "system:private-maintenance"
  dataClass := .private
  payload :=
    { targetRecordIds := []
      actionKinds := []
      fields := [("schema", "memzoi/private-maintenance-audit/1"), ("operation", "reconcile"),
        ("outcome", "current"),
        ("grant_fingerprint", db.projection.grantFingerprint.getD ""),
        ("projection_id", db.projection.projectionId.getD ""),
        ("policy_version", db.projection.policyVersion),
        ("detector_digest", db.projection.detectorDigest.getD ""),
        ("authoritative_generation", toString db.projection.authoritativeGeneration),
        ("member_count", toString db.projection.memberCount),
        ("edge_count", toString db.projection.edgeCount), ("reason_code", "null")] }
  recordId := none
  proposalId := none
  createdAt := now

/-- `reconcile_transaction`. -/
def reconcileTransaction (runtimeFingerprint : String) (db : Db) (now : OffsetDateTime)
    (grant : PrivateMaintenanceGrant) : Fallible Db := do
  ensure (grant.policyVersion = maintenancePolicyVersion) "private maintenance policy mismatch"
  let nowText ← formatTimestamp now
  let plan ← planPrivateLifecycle runtimeFingerprint db ⟨requestSchema, some nowText, []⟩ now
  ensure (plan.authority.grantFingerprint = grant.grantFingerprint)
    "private maintenance grant changed while planning"
  let derived := plan.actionGroups.privateDerivedState
  ensure (∀ action ∈ derived, action.class_ = .suppressUnresolvedConflict)
    "private maintenance plan contains an unsupported derived action"
  let projectionId := ProjectionDigests.projection
    (plan.planId, grant.grantFingerprint, db.generation, derived)
  ensure (db.activeGrant.map (·.grantFingerprint) = some grant.grantFingerprint)
    "private maintenance grant changed during planning"
  let inserted ← runAll (insertConflict plan.findings projectionId grant.grantFingerprint)
    db.deleteConflictSets derived
  let published := inserted.updateProjection
    (currentProjection inserted plan projectionId grant.grantFingerprint nowText)
  { published with draws := published.draws + 1 }.insertEvent (reconciledEvent published nowText)

end Plan

end Maintenance
end Memzoi
