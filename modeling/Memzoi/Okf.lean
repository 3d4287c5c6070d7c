/-
# Canonical records

Source: `okf.rs` (`OkfRecordFile`, `OkfRecordSnapshot`), `proposals.rs`
(`MemoryDraft`), `materialization.rs` (`MaterializationMetadata`) and
`repository_maintenance_materialization.rs`
(`RepositoryMaintenanceMaterializationMetadata`).

A canonical record is what the parser makes of one file of the repository. Its
materialization block names the decision that wrote the revision.
-/

import Memzoi.Maintenance.Plan

namespace Memzoi

open Maintenance (OkfProposalSensitivity RepositoryContentClass)

structure MemoryDraft where
  memoryType : MemoryType
  lane : MemoryLane
  scopeKind : ScopeKind
  scopeId : Option String
  visibility : Visibility
  title : String
  body : String
  tags : List String
  sourceKind : Option String
  sourceRef : Option String
  sensitivity : OkfProposalSensitivity
  contentClass : RepositoryContentClass
  confidence : ℚ
  deriving DecidableEq, Repr

/-! ### Materialization metadata -/

inductive MaterializationAction where
  | create | update | supersede | tombstone
  deriving DecidableEq, Repr

inductive MaterializationCounterpartRelationship where
  | supersedes | supersededBy | tombstones
  deriving DecidableEq, Repr

inductive MaterializationOutputRole where
  | canonicalRecord | lifecycleCounterpart
  deriving DecidableEq, Repr

inductive MaterializationAuthorizationCapability where
  | explicitCli
  deriving DecidableEq, Repr

structure CanonicalRevision where
  schema : String
  revisionHash : String
  deriving DecidableEq, Repr

inductive ExpectedPriorRevision where
  | absent
  | revision (revision : CanonicalRevision)
  deriving DecidableEq, Repr

structure MaterializationTarget where
  recordId : String
  expectedRevision : CanonicalRevision
  deriving DecidableEq, Repr

structure MaterializationMetadata where
  schema : String
  action : MaterializationAction
  planId : String
  candidateId : String
  decisionId : String
  decisionAt : String
  safetyContract : String
  revision : CanonicalRevision
  target : Option MaterializationTarget
  reason : Option String
  deriving DecidableEq, Repr

structure MaintenanceCounterpart where
  recordId : String
  expectedPriorRevision : CanonicalRevision
  relationship : MaterializationCounterpartRelationship
  deriving DecidableEq, Repr

structure PriorCanonicalLifecycleProjection where
  status : MemoryStatus
  supersedesId : Option String
  lineage : Option RecordLineage
  action : Option MaterializationAction
  counterpartRecordId : Option String
  counterpartExpectedRevision : Option CanonicalRevision
  counterpartRelationship : Option MaterializationCounterpartRelationship
  reason : Option String
  deriving DecidableEq, Repr

structure RepositoryMaintenanceMaterializationMetadata where
  schema : String
  actionId : String
  action : MaterializationAction
  role : MaterializationOutputRole
  planId : String
  selectionId : String
  decisionId : String
  decisionAt : String
  policyVersion : String
  policyDigest : String
  safetyContract : String
  authorizationCapability : MaterializationAuthorizationCapability
  expectedPriorRevision : ExpectedPriorRevision
  intendedSemanticRevision : CanonicalRevision
  counterpart : Option MaintenanceCounterpart
  reason : String
  priorLifecycle : PriorCanonicalLifecycleProjection
  deriving DecidableEq, Repr

inductive RepositoryMaterializationMetadata where
  | direct (metadata : MaterializationMetadata)
  | maintenance (metadata : RepositoryMaintenanceMaterializationMetadata)
  deriving DecidableEq, Repr

/-! ### Records -/

structure OkfRecordFile where
  conceptId : String
  draft : MemoryDraft
  status : MemoryStatus
  appliesTo : List String
  created : String
  updated : Option String
  supersedesId : Option String
  retention : RetentionFacts
  origin : OriginDescriptor
  lineage : Option RecordLineage
  proposalId : Option String
  capture : Option CaptureProvenance
  materialization : Option RepositoryMaterializationMetadata
  deriving DecidableEq, Repr

/-- A record with the path of its file below the project root. -/
structure OkfRecordSnapshot where
  sourcePath : String
  record : OkfRecordFile
  deriving DecidableEq, Repr

end Memzoi
