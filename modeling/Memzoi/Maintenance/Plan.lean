/-
# Maintenance plans

Source: `maintenance.rs` (the plan artifact, its checks, and the helpers that
the repository planner and the private planner share) and `materialization.rs`
(`validate_canonical_record_id`).

A plan is evidence: records with their decisions at one instant, findings of
five detectors, and the actions each finding proposes. Both planners load their
records, detect, and then build and check the artifact in the same way, here
`finishPlan`. Everything content derived enters a plan through a digest; the
digests are parameters, one for each domain the source hashes under. The policy
and detector snapshots are the same constants in every plan and are left out,
and so are the copies of plan fields among its preconditions.
-/

import Memzoi.PrivateLifecycle.Semantics

namespace Memzoi
namespace Maintenance

open Fallible
open Retention (RetentionState RetentionReason formatTimestamp hours days)
open PrivateLifecycle (DuplicateProjection)

def maxRecords : Nat := 256
def maxInventoryEntries : Nat := 10000
def maxFindings : Nat := 4096
def maxActionCandidates : Nat := 4096
def maxSerializedPlanBytes : Nat := 2 * 1024 * 1024 - 4096
def maxValidityHours : Int := 24
def staleAfterDays : Int := 180
def requestSchema : String := "memzoi/maintenance-request"

/-! ### The artifact -/

inductive MaintenanceRecordVersion where
  | canonicalRepository (sourcePath revision : String)
  | privateRuntime (versionToken : String)
  deriving DecidableEq, Repr

def MaintenanceRecordVersion.privateVersionToken : MaintenanceRecordVersion → Option String
  | canonicalRepository _ _ => none
  | privateRuntime versionToken => some versionToken

structure MaintenanceRecordSnapshot where
  recordId : String
  version : MaintenanceRecordVersion
  contentHash : String
  claimDigest : String
  applicabilityDigest : String
  temporalDigest : String
  status : MemoryStatus
  currentAssertion : Bool
  retentionState : RetentionState
  retentionReason : RetentionReason
  retentionBoundary : Option String
  target : Bool
  deriving DecidableEq, Repr

inductive MaintenanceFindingKind where
  | exactDuplicate | highConfidenceContradiction | stale | expired | renewalCandidate
  deriving DecidableEq, Repr

inductive MaintenanceConfidence where
  | exact | high | reportOnly
  deriving DecidableEq, Repr

structure MaintenanceEvidence where
  code : String
  digest : String
  boundary : Option String
  deriving DecidableEq, Repr

/-- An edge between two records, the lesser id first. -/
structure MaintenanceConflictEdge where
  left : String
  right : String
  evidenceDigest : String
  reasonCode : String
  deriving DecidableEq, Repr

/-- What the id of a finding is computed from. -/
structure FindingIdentity where
  kind : MaintenanceFindingKind
  recordIds : List String
  comparisonSetDigest : String
  evidence : List MaintenanceEvidence
  confidence : MaintenanceConfidence
  conflictEdges : List MaintenanceConflictEdge
  deriving DecidableEq, Repr

structure MaintenanceFinding extends FindingIdentity where
  findingId : String
  proposedActionIds : List String
  deriving DecidableEq, Repr

inductive MaintenanceActionClass where
  | consolidateExactDuplicates | createRenewalSuccessor | suppressUnresolvedConflict
  | ownerConsolidateExactDuplicates | ownerCreateRenewalSuccessor | ownerResolveContradiction
  deriving DecidableEq, Repr

structure MaintenanceActionPreconditions where
  comparisonSetDigest : String
  recordVersions : SortedMap String MaintenanceRecordVersion
  deriving DecidableEq

/-- What the id of an action is computed from. -/
structure ActionIdentity where
  class_ : MaintenanceActionClass
  findingId : String
  recordIds : List String
  keeperRecordId : Option String
  predecessorRecordId : Option String
  evidenceRecordId : Option String
  preconditions : MaintenanceActionPreconditions
  deriving DecidableEq

structure MaintenanceAction extends ActionIdentity where
  actionId : String
  deriving DecidableEq

inductive MaintenanceActionGroupKind where
  | repositoryMaterialization | privateDerivedState | ownerAuthorizedPrivateMutation
  deriving DecidableEq, Repr

/-- The three execution domains, each with its actions. -/
structure MaintenanceActionGroups where
  repositoryMaterialization : List MaintenanceAction
  privateDerivedState : List MaintenanceAction
  ownerAuthorizedPrivateMutation : List MaintenanceAction
  deriving DecidableEq

def MaintenanceActionGroups.all (g : MaintenanceActionGroups) : List MaintenanceAction :=
  g.repositoryMaterialization ++ g.privateDerivedState ++ g.ownerAuthorizedPrivateMutation

def MaintenanceActionGroups.ofKind (g : MaintenanceActionGroups) :
    MaintenanceActionGroupKind → List MaintenanceAction
  | .repositoryMaterialization => g.repositoryMaterialization
  | .privateDerivedState => g.privateDerivedState
  | .ownerAuthorizedPrivateMutation => g.ownerAuthorizedPrivateMutation

inductive MaintenanceScope where
  | repository (repositoryFingerprint : String) (targetRecordIds : List String)
  | privateRuntime (runtimeFingerprint : String) (targetRecordIds : List String)
  deriving DecidableEq, Repr

def MaintenanceScope.targetRecordIds : MaintenanceScope → List String
  | repository _ targets => targets
  | privateRuntime _ targets => targets

inductive MaintenanceAuthorityMode where
  | reportOnly | automaticPrivateMaintenance
  deriving DecidableEq, Repr

structure MaintenanceAuthoritySnapshot where
  mode : MaintenanceAuthorityMode
  grantFingerprint : String
  deriving DecidableEq, Repr

structure MaintenancePlanRequest where
  schema : String
  evaluatedAt : Option String
  recordIds : List String
  deriving DecidableEq, Repr

structure MaintenancePlanSummary where
  records : Nat
  exactDuplicates : Nat
  contradictions : Nat
  stale : Nat
  expired : Nat
  renewalCandidates : Nat
  actionCandidates : Nat
  deriving DecidableEq, Repr

structure MaintenanceDiagnostic where
  code : String
  count : Nat
  digest : String
  deriving DecidableEq, Repr

/-- What a plan found, apart from the instants it names. -/
structure PlanContents where
  scope : MaintenanceScope
  authority : MaintenanceAuthoritySnapshot
  records : List MaintenanceRecordSnapshot
  comparisonSetDigest : String
  findings : List MaintenanceFinding
  actionGroups : MaintenanceActionGroups
  targetVersions : SortedMap String MaintenanceRecordVersion
  summary : MaintenancePlanSummary
  diagnostics : List MaintenanceDiagnostic
  deriving DecidableEq

structure PlanIdentity extends PlanContents where
  request : MaintenancePlanRequest
  evaluatedAt : String
  notAfter : String
  deriving DecidableEq

structure MaintenancePlan extends PlanIdentity where
  planId : String
  deriving DecidableEq

/-! ### Digests -/

/-- What the renewal-claim digest of a private record covers. -/
structure RenewalProjection where
  memoryType : MemoryType
  lane : MemoryLane
  destination : MemoryDestination
  scopeKind : ScopeKind
  scopeId : Option String
  visibility : Visibility
  title : String
  body : String
  deriving DecidableEq, Repr

inductive RepositoryContentClass where
  | generalRepoKnowledge | rawTranscript | privatePersonalData | screenOrActivityHistory
  | privateEndpoint | undisclosedVulnerability | unminimizedPrivateEvidence | temporaryTaskState
  | localOnlyState | unknown
  deriving DecidableEq, Repr

inductive OkfProposalSensitivity where
  | repoSafe | localOnly | sensitive | secret | rawTranscript | privatePersonalData
  | temporaryState | unknown
  deriving DecidableEq, Repr

/-- What the renewal-claim digest of a canonical record covers; the duplicate-claim digest covers
its retention too. -/
structure RepositoryClaimProjection where
  memoryType : MemoryType
  lane : MemoryLane
  scopeKind : ScopeKind
  scopeId : Option String
  visibility : Visibility
  title : String
  body : String
  tags : List String
  sensitivity : OkfProposalSensitivity
  contentClass : RepositoryContentClass
  confidence : ℚ
  appliesTo : List String
  deriving DecidableEq, Repr

/-- What the temporal digest covers; only the private planner puts the decision in. -/
structure TemporalProjection where
  status : MemoryStatus
  retention : RetentionFacts
  decision : Option (RetentionState × RetentionReason × Option String)
  supersedesId : Option String
  lineage : Option RecordLineage
  deriving DecidableEq, Repr

structure ApplicabilityProjection where
  placement : Option (MemoryDestination × Visibility)
  scopeKind : ScopeKind
  scopeId : Option String
  paths : List String
  deriving DecidableEq, Repr

/-- The identities of the planner, one for each domain, and the size of a serialized plan. -/
class MaintenanceDigests where
  duplicateClaim : DuplicateProjection → String
  renewalClaim : RenewalProjection → String
  repositoryDuplicateClaim : RepositoryClaimProjection × RetentionFacts → String
  repositoryRenewalClaim : RepositoryClaimProjection → String
  privateContent : String × String → String
  privateClaim : String × String → String
  content : String → String
  applicability : ApplicabilityProjection → String
  temporal : TemporalProjection → String
  comparisonSet : List (String × MaintenanceRecordVersion × String × String × String) → String
  findingComparisonSet : List (String × MaintenanceRecordVersion) → String
  freshness : String → String
  captureEvidence : String → String
  privateArtifactEvidence : String × List (String × MaintenanceRecordVersion) → String
  contradictionSignature : String → String
  contradictionEdge : List String → String
  finding : FindingIdentity → String
  action : ActionIdentity → String
  detectors : String
  reportOnlyGrant : String
  futureRecordCount : Nat → String
  plan : PlanIdentity → String
  planBytes : MaintenancePlan → Nat

/-! ### Checks of the parts -/

def parseTimestamp (value label : String) : Fallible OffsetDateTime :=
  require (Rfc3339.parse (Text.trim value)) s!"{label} must be an RFC 3339 timestamp"

def parseCanonicalTimestamp (value label : String) : Fallible OffsetDateTime := do
  let parsed ← parseTimestamp value label
  let text ← formatTimestamp parsed
  ensure (text = value) s!"{label} must use canonical UTC RFC 3339 form"
  .ok parsed

/-- Parse a timestamp that may be absent. -/
def parseOptional (value : Option String) (label : String) : Fallible (Option OffsetDateTime) :=
  match value with
  | none => .ok none
  | some value => do
    let at_ ← parseTimestamp value label
    .ok (some at_)

/-- A timestamp that may be absent is canonical. -/
def checkCanonical (value : Option String) (label : String) : Fallible Unit :=
  match value with
  | none => .ok ()
  | some value => do
    let _ ← parseCanonicalTimestamp value label
    .ok ()

def isLowerOrDigit (c : Char) : Bool := c.isLower || c.isDigit

def validateRecordIdSegment (segment : List Char) : Fallible Unit := do
  ensure (segment ≠ [] ∧ segment ≠ ['.'] ∧ segment ≠ ['.', '.'])
    "canonical record_id contains an invalid path segment"
  ensure (segment.all (fun c => isLowerOrDigit c || c = '-') = true)
    "canonical record_id segments must use lowercase ASCII letters, digits, and hyphens"
  ensure (segment.head?.any isLowerOrDigit = true ∧ segment.getLast?.any isLowerOrDigit = true)
    "canonical record_id segments must start and end with a letter or digit"

def validateCanonicalRecordId (recordId : String) : Fallible Unit := do
  ensure (recordId ≠ "") "canonical record_id cannot be empty"
  checkAll validateRecordIdSegment (recordId.toList.splitOn '/')

def isLowerHexByte (b : UInt8) : Bool := (48 ≤ b && b ≤ 57) || (97 ≤ b && b ≤ 102)

/-- `blake3:` and sixty-four lower-case hexadecimal digits, by the bytes of the text. -/
def validateMaterializationIdentity (identity label : String) : Fallible Unit := do
  let digest ← require
    (identity.toByteArray.data.toList.dropPrefix? "blake3:".toByteArray.data.toList)
    s!"{label} must use a blake3 identity"
  ensure (digest.length = 64 ∧ digest.all isLowerHexByte = true)
    s!"{label} must contain a lowercase 32-byte blake3 digest"

def validatePrivateRecordVersionToken (token : String) : Fallible Unit :=
  ensure (32 ≤ token.toList.length ∧ token.toList.length ≤ 64 ∧
      token.toList.all (fun c => c.isDigit || ('a' ≤ c && c ≤ 'f') || c = '-') = true ∧
      token.toList.any (· ≠ '-') = true)
    "maintenance private-runtime version token is invalid"

def ensureSortedUnique (values : List String) (label : String) : Fallible Unit :=
  ensure (values.Pairwise (· < ·)) s!"{label} must be sorted and unique"

def normalizeRecordId (recordId : String) : Fallible String := do
  let recordId := Text.trim recordId
  ensure (recordId ≠ "") "maintenance record IDs must not be empty"
  validateCanonicalRecordId recordId
  .ok recordId

def normalizeRecordIds (recordIds : List String) : Fallible (List String) := do
  let normalized ← mapAll normalizeRecordId recordIds
  .ok (SortedMap.sortedKeys normalized)

def validateRequest (request : MaintenancePlanRequest) : Fallible Unit := do
  ensure (request.schema = requestSchema) s!"maintenance request schema must be {requestSchema}"
  let _ ← parseOptional request.evaluatedAt "maintenance evaluated_at"
  let normalized ← normalizeRecordIds request.recordIds
  ensure (normalized.length ≤ maxRecords)
    "maintenance request exceeds the admitted-record selector limit"

/-- When a claim of that freshness turns stale. -/
def staleAt (freshness : OffsetDateTime) : Fallible OffsetDateTime :=
  require (freshness.checkedAdd (days staleAfterDays))
    "maintenance freshness cannot represent the staleness boundary"

def validityWindow (evaluatedAt : OffsetDateTime) : Fallible OffsetDateTime :=
  require (evaluatedAt.checkedAdd (hours maxValidityHours))
    "maintenance evaluation time cannot represent the validity window"

/-! ### The check of a plan -/

section Digests

variable [MaintenanceDigests]

def comparisonDigest (records : List MaintenanceRecordSnapshot) : String :=
  MaintenanceDigests.comparisonSet (records.map fun r =>
    (r.recordId, r.version, r.claimDigest, r.applicabilityDigest, r.temporalDigest))

/-- The snapshots of some ids, in the order of the ids. -/
def findingSnapshotComparisonDigest (records : List MaintenanceRecordSnapshot)
    (recordIds : List String) : Fallible String := do
  let values ← mapAll (fun id => do
      let record ← require (records.find? (·.recordId = id))
        s!"maintenance finding references unknown record {id}"
      .ok (record.recordId, record.version)) recordIds
  .ok (MaintenanceDigests.findingComparisonSet values)

def summarize (records : List MaintenanceRecordSnapshot) (findings : List MaintenanceFinding)
    (actionGroups : MaintenanceActionGroups) : MaintenancePlanSummary where
  records := records.length
  exactDuplicates := findings.countP (·.kind = .exactDuplicate)
  contradictions := findings.countP (·.kind = .highConfidenceContradiction)
  stale := findings.countP (·.kind = .stale)
  expired := findings.countP (·.kind = .expired)
  renewalCandidates := findings.countP (·.kind = .renewalCandidate)
  actionCandidates := actionGroups.all.length

def versionsOf (records : List MaintenanceRecordSnapshot) : SortedMap String MaintenanceRecordVersion :=
  .ofList (records.map fun r => (r.recordId, r.version))

def recordVersionOf (records : List MaintenanceRecordSnapshot) (recordId : String) :
    Option MaintenanceRecordVersion :=
  (records.find? (·.recordId = recordId)).map (·.version)

def MaintenanceScope.validate : MaintenanceScope → Fallible Unit
  | .repository fingerprint _ =>
    validateMaterializationIdentity fingerprint "maintenance repository fingerprint"
  | .privateRuntime fingerprint _ =>
    validateMaterializationIdentity fingerprint "maintenance private-runtime fingerprint"

def MaintenanceScope.snapshotCode : MaintenanceScope → String
  | .repository _ _ => "repository_snapshot_evaluated"
  | .privateRuntime _ _ => "private_runtime_snapshot_evaluated"

def MaintenanceScope.admitsVersion (scope : MaintenanceScope) (recordId : String)
    (version : MaintenanceRecordVersion) : Fallible Unit :=
  match scope, version with
  | .repository _ _, .canonicalRepository sourcePath _ =>
    ensure (sourcePath = ".memzoi/records/" ++ recordId ++ ".md")
      "maintenance record source path does not match its canonical identity"
  | .privateRuntime _ _, .privateRuntime versionToken =>
    validatePrivateRecordVersionToken versionToken
  | _, _ => bail "maintenance record version kind does not match the plan scope"

def validateRecord (scope : MaintenanceScope) (record : MaintenanceRecordSnapshot) :
    Fallible Unit := do
  validateCanonicalRecordId record.recordId
  scope.admitsVersion record.recordId record.version
  validateMaterializationIdentity record.contentHash "maintenance content hash"
  validateMaterializationIdentity record.claimDigest "maintenance claim digest"
  validateMaterializationIdentity record.applicabilityDigest "maintenance applicability digest"
  validateMaterializationIdentity record.temporalDigest "maintenance temporal digest"
  checkCanonical record.retentionBoundary "maintenance retention boundary"
  ensure (record.currentAssertion = false ∨
      (record.status = .active ∧ record.retentionState = .current))
    "maintenance current-assertion snapshot conflicts with lifecycle or retention"

def MaintenanceConflictEdge.lt (a b : MaintenanceConflictEdge) : Prop :=
  a.left < b.left ∨ (a.left = b.left ∧ (a.right < b.right ∨ (a.right = b.right ∧
    (a.evidenceDigest < b.evidenceDigest ∨
      (a.evidenceDigest = b.evidenceDigest ∧ a.reasonCode < b.reasonCode)))))

instance (a b : MaintenanceConflictEdge) : Decidable (a.lt b) :=
  inferInstanceAs (Decidable (_ ∨ _))

def conflictReasonCode : String := "high_confidence_unresolved_contradiction"

def validateConflictEdge (recordIds : List String) (edge : MaintenanceConflictEdge) :
    Fallible Unit := do
  ensure (edge.left < edge.right ∧ edge.left ∈ recordIds ∧ edge.right ∈ recordIds ∧
      edge.reasonCode = conflictReasonCode)
    "maintenance conflict edge is not canonical"
  validateMaterializationIdentity edge.evidenceDigest "maintenance conflict edge evidence digest"

def validateEvidence (evidence : MaintenanceEvidence) : Fallible Unit := do
  ensure (Text.isBlank evidence.code = false ∧ evidence.code = Text.trim evidence.code)
    "maintenance evidence code must be canonical and non-empty"
  validateMaterializationIdentity evidence.digest "maintenance evidence digest"
  checkCanonical evidence.boundary "maintenance evidence boundary"

def validateFinding (records : List MaintenanceRecordSnapshot) (finding : MaintenanceFinding) :
    Fallible Unit := do
  ensureSortedUnique finding.recordIds "maintenance finding record IDs"
  ensureSortedUnique finding.proposedActionIds "maintenance finding action IDs"
  ensure (finding.findingId = MaintenanceDigests.finding finding.toFindingIdentity)
    "maintenance finding identity does not match its evidence"
  let digest ← findingSnapshotComparisonDigest records finding.recordIds
  ensure (finding.comparisonSetDigest = digest)
    "maintenance finding comparison digest does not match its record snapshots"
  checkAll validateEvidence finding.evidence
  ensure (finding.kind = .highConfidenceContradiction ↔ finding.conflictEdges ≠ [])
    "only maintenance contradiction findings may contain incompatibility edges"
  ensure (finding.conflictEdges.Pairwise MaintenanceConflictEdge.lt)
    "maintenance conflict edges must be sorted and unique"
  checkAll (validateConflictEdge finding.recordIds) finding.conflictEdges

def MaintenanceActionClass.ofGroup : MaintenanceActionGroupKind → MaintenanceActionClass → Bool
  | .repositoryMaterialization, .consolidateExactDuplicates => true
  | .repositoryMaterialization, .createRenewalSuccessor => true
  | .privateDerivedState, .suppressUnresolvedConflict => true
  | .ownerAuthorizedPrivateMutation, .ownerConsolidateExactDuplicates => true
  | .ownerAuthorizedPrivateMutation, .ownerCreateRenewalSuccessor => true
  | .ownerAuthorizedPrivateMutation, .ownerResolveContradiction => true
  | _, _ => false

def MaintenanceActionClass.findingKind : MaintenanceActionClass → MaintenanceFindingKind
  | .consolidateExactDuplicates => .exactDuplicate
  | .ownerConsolidateExactDuplicates => .exactDuplicate
  | .createRenewalSuccessor => .renewalCandidate
  | .ownerCreateRenewalSuccessor => .renewalCandidate
  | .suppressUnresolvedConflict => .highConfidenceContradiction
  | .ownerResolveContradiction => .highConfidenceContradiction

/-- A renewal names its two records, the automatic consolidation its keeper, and no other class
names one. -/
def validateActionShape (action : MaintenanceAction) : Fallible Unit :=
  match action.class_.findingKind with
  | .renewalCandidate =>
    ensure (action.recordIds.length = 2 ∧ action.keeperRecordId = none ∧
        action.predecessorRecordId.isSome = true ∧ action.evidenceRecordId.isSome = true ∧
        action.predecessorRecordId ≠ action.evidenceRecordId ∧
        action.predecessorRecordId.any action.recordIds.contains = true ∧
        action.evidenceRecordId.any action.recordIds.contains = true)
      "maintenance renewal action has an invalid shape"
  | _ =>
    ensure (2 ≤ action.recordIds.length ∧ action.predecessorRecordId = none ∧
        action.evidenceRecordId = none ∧ action.keeperRecordId =
          (if action.class_ = .consolidateExactDuplicates then action.recordIds.head? else none))
      "maintenance duplicate-consolidation action has an invalid shape"

def validateAction (plan : PlanContents) (kind : MaintenanceActionGroupKind)
    (action : MaintenanceAction) : Fallible Unit := do
  ensure (action.class_.ofGroup kind = true)
    "maintenance action class does not match its execution domain"
  ensureSortedUnique action.recordIds "maintenance action record IDs"
  ensure (action.actionId = MaintenanceDigests.action action.toActionIdentity)
    "maintenance action identity does not match its candidate"
  let finding ← require (plan.findings.find? (·.findingId = action.findingId))
    "maintenance action references an unknown finding"
  ensure (action.recordIds = finding.recordIds)
    "maintenance action records do not match its finding"
  ensure (action.class_.findingKind = finding.kind)
    "maintenance action class does not match its finding kind"
  validateActionShape action
  ensure ((∀ id ∈ action.recordIds, action.preconditions.recordVersions.get? id =
        recordVersionOf plan.records id) ∧
      action.preconditions.recordVersions.entries.length = action.recordIds.length ∧
      action.preconditions.comparisonSetDigest = plan.comparisonSetDigest)
    "maintenance action record versions do not match its targets"

def validateGroup (plan : PlanContents) (kind : MaintenanceActionGroupKind) : Fallible Unit := do
  ensureSortedUnique ((plan.actionGroups.ofKind kind).map (·.actionId)) "maintenance actions"
  checkAll (validateAction plan kind) (plan.actionGroups.ofKind kind)

/-- The ids of the actions that name a finding, in order. -/
def proposedActionIds (actions : List MaintenanceAction) (findingId : String) : List String :=
  ((actions.filter (·.findingId = findingId)).map (·.actionId)).insertionSort (· ≤ ·)

def validateDiagnostic (diagnostic : MaintenanceDiagnostic) : Fallible Unit := do
  ensure (diagnostic.code ≠ "" ∧
      diagnostic.code.toList.all (fun c => isLowerOrDigit c || c = '_') = true)
    "maintenance diagnostics must use unique content-free codes"
  ensure (diagnostic.count ≤ maxInventoryEntries)
    "maintenance diagnostic count exceeds the bounded inventory"
  validateMaterializationIdentity diagnostic.digest "maintenance diagnostic digest"

/-- The part of `MaintenancePlan::validate` that reads no instant of the plan. -/
def PlanContents.validate (plan : PlanContents) (requestedIds : List String) : Fallible Unit := do
  plan.scope.validate
  validateMaterializationIdentity plan.authority.grantFingerprint "maintenance grant fingerprint"
  ensureSortedUnique (plan.records.map (·.recordId)) "maintenance record snapshots"
  checkAll (validateRecord plan.scope) plan.records
  ensureSortedUnique requestedIds "maintenance request record IDs"
  ensureSortedUnique plan.scope.targetRecordIds "maintenance target record IDs"
  ensure ((plan.records.filter (·.target)).map (·.recordId) = plan.scope.targetRecordIds)
    "maintenance scope targets do not match record target markers"
  ensure ((if requestedIds = [] then plan.records.map (·.recordId) else requestedIds) =
      plan.scope.targetRecordIds)
    "maintenance request selectors do not match plan scope targets"
  ensureSortedUnique (plan.findings.map (·.findingId)) "maintenance findings"
  ensure (plan.comparisonSetDigest = comparisonDigest plan.records)
    "maintenance comparison-set digest does not match record snapshots"
  checkAll (validateFinding plan.records) plan.findings
  validateGroup plan .repositoryMaterialization
  validateGroup plan .privateDerivedState
  validateGroup plan .ownerAuthorizedPrivateMutation
  ensure ((plan.actionGroups.all.map (·.actionId)).Nodup) "maintenance action IDs must be unique"
  ensure (∀ finding ∈ plan.findings,
      finding.proposedActionIds = proposedActionIds plan.actionGroups.all finding.findingId)
    "maintenance finding action references do not match plan actions"
  ensure (plan.summary = summarize plan.records plan.findings plan.actionGroups)
    "maintenance summary does not match plan contents"
  ensure ((plan.diagnostics.map (·.code)).Nodup)
    "maintenance diagnostics must use unique content-free codes"
  checkAll validateDiagnostic plan.diagnostics
  ensure (plan.targetVersions = versionsOf (plan.records.filter (·.target)))
    "maintenance target-version preconditions do not match the selected records"

/-- The instants of a plan: canonical, and at most the validity window apart. -/
def PlanIdentity.validateTimes (plan : PlanIdentity) : Fallible Unit := do
  validateRequest plan.request
  ensure (plan.request.evaluatedAt = some plan.evaluatedAt)
    "maintenance request evaluation time does not match the plan"
  let evaluatedAt ← parseCanonicalTimestamp plan.evaluatedAt "maintenance evaluated_at"
  let notAfter ← parseCanonicalTimestamp plan.notAfter "maintenance not_after"
  ensure (evaluatedAt < notAfter) "maintenance validity window must be non-empty"
  let maximum ← validityWindow evaluatedAt
  ensure (notAfter ≤ maximum) "maintenance validity exceeds the maximum policy window"

def MaintenancePlan.validate (plan : MaintenancePlan) : Fallible Unit := do
  plan.toPlanIdentity.validateTimes
  plan.toPlanContents.validate plan.request.recordIds
  ensure (plan.planId = MaintenanceDigests.plan plan.toPlanIdentity)
    "maintenance plan identity does not match its semantic contents"

def ensurePlanSize (plan : MaintenancePlan) : Fallible Unit :=
  ensure (MaintenanceDigests.planBytes plan ≤ maxSerializedPlanBytes)
    "serialized maintenance plan exceeds the supported size limit"

end Digests

end Maintenance
end Memzoi
