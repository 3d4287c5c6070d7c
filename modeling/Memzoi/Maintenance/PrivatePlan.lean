/-
# The private planner

Source: `maintenance.rs` (`plan_private_maintenance_inner`, the digests of a
private record and `detect_private_*`) and `service/private_lifecycle.rs`
(`plan_private_lifecycle_with_conn`).

The service reads every private record of the store with its base decision at
the instant of evaluation; the planner turns them into a plan. A record that was
updated after that instant stays in the plan, but no detector takes it as
current.
-/

import Memzoi.Maintenance.Detectors

namespace Memzoi
namespace Maintenance

open Fallible PrivateLifecycle
open Retention (RetentionDecision formatTimestamp)

/-- A private record as the record lookups load it, with its distinct paths in order. -/
structure PrivateRecord where
  record : MemoryRecord
  applicabilityPaths : List String
  capture : Option CaptureProvenance

instance : MaintenanceRecord PrivateRecord where
  lane r := r.record.lane
  memoryType r := r.record.memoryType
  origin r := r.record.origin
  lineage r := r.record.lineage
  capture r := r.capture

abbrev PrivateLoadedRecord := LoadedRecord PrivateRecord

structure PrivateMaintenanceRecordInput extends PrivateRecord where
  versionToken : String
  currentAssertion : Bool
  retention : RetentionDecision

/-! ### Loading -/

/-- The input of one record: its base decision at the instant. -/
def privateInput (db : Db) (evaluatedAt : OffsetDateTime) (record : MemoryRecord) :
    Fallible PrivateMaintenanceRecordInput := do
  ensurePrivateShape record
  let state ← db.requireState record.id
  let decision ← baseCurrentAssertion db record state.toLifecycleFacts evaluatedAt
  .ok ⟨⟨record, privateApplicabilityPaths db record.id, capture? db record.id⟩,
    state.recordVersion, decision.isCurrent, decision.retention⟩

section Text

variable [Text.Unicode] [MaintenanceDigests]

def renewalProjection (record : MemoryRecord) : RenewalProjection :=
  ⟨record.memoryType, record.lane, record.destination, record.scopeKind, record.scopeId,
    record.visibility, normalizeText record.title, Text.trim record.body⟩

def privateDuplicateClaimDigest (record : MemoryRecord) (applicabilityPaths : List String) : String :=
  MaintenanceDigests.duplicateClaim (exactDuplicateProjection record applicabilityPaths)

def privateRenewalClaimDigest (record : MemoryRecord) : String :=
  MaintenanceDigests.renewalClaim (renewalProjection record)

/-- The snapshot of a record at the instant. -/
def privateSnapshot (selected : List String) (input : PrivateMaintenanceRecordInput)
    (eligibleAtEvaluation : Bool) : MaintenanceRecordSnapshot where
  recordId := input.record.id
  version := .privateRuntime input.versionToken
  contentHash := MaintenanceDigests.privateContent (input.record.id, input.versionToken)
  claimDigest := MaintenanceDigests.privateClaim (input.record.id, input.versionToken)
  applicabilityDigest := MaintenanceDigests.applicability
    ⟨some (input.record.destination, input.record.visibility), input.record.scopeKind,
      input.record.scopeId, input.applicabilityPaths⟩
  temporalDigest := MaintenanceDigests.temporal
    ⟨input.record.status, input.record.retention,
      some (input.retention.state, input.retention.reason, input.retention.effectiveBoundary),
      input.record.supersedesId, input.record.lineage⟩
  status := input.record.status
  currentAssertion := input.currentAssertion && eligibleAtEvaluation
  retentionState := input.retention.state
  retentionReason := input.retention.reason
  retentionBoundary := input.retention.effectiveBoundary
  target := selected.contains input.record.id

def loadPrivateRecord (selected : List String) (evaluatedAt : OffsetDateTime)
    (input : PrivateMaintenanceRecordInput) : Fallible PrivateLoadedRecord := do
  validateCanonicalRecordId input.record.id
  validatePrivateRecordVersionToken input.versionToken
  ensure (input.record.destination.isPrivate = true)
    "private maintenance accepts only local or session runtime records"
  let freshness ← parseTimestamp input.record.updatedAt "maintenance record updated_at"
  let eligibleAtEvaluation := decide (freshness ≤ evaluatedAt)
  .ok ⟨privateSnapshot selected input eligibleAtEvaluation, input.toPrivateRecord,
    privateDuplicateClaimDigest input.record input.applicabilityPaths,
    privateRenewalClaimDigest input.record, freshness, eligibleAtEvaluation⟩

/-! ### The detectors -/

/-- `new_private_action`. -/
def newPrivateAction (class_ : MaintenanceActionClass) (predecessor evidence : Option String)
    (comparisonSetDigest : String) (finding : MaintenanceFinding)
    (group : List PrivateLoadedRecord) : MaintenanceAction :=
  newAction class_ finding none predecessor evidence comparisonSetDigest group

def detectPrivateExactDuplicates (loaded : List PrivateLoadedRecord) (selected : List String)
    (comparisonSetDigest : String) : List Detected :=
  detectExactDuplicatesWith loaded selected (privateArtifactDigest "exact_claim_projection")
    (newPrivateAction .ownerConsolidateExactDuplicates none none comparisonSetDigest)

def contradictionRecords (loaded : List PrivateLoadedRecord) : List PrivateLoadedRecord :=
  loaded.filter fun r =>
    r.snapshot.currentAssertion && privateContradictionCandidate r.record.record

/-- A loaded record with its paths, as the adjacency compares it. -/
def graphInput (r : PrivateLoadedRecord) : Candidate := (r.record.record, r.record.applicabilityPaths)

def detectPrivateContradictions (loaded : List PrivateLoadedRecord) (selected : List String)
    (comparisonSetDigest : String) (automaticMaintenanceEnabled : Bool) :
    Fallible (List Detected) := do
  let candidates := contradictionRecords loaded
  let adjacency ← privateContradictionAdjacency (candidates.map graphInput)
  .ok (detectContradictionsWith candidates adjacency selected
    (fun component => privateArtifactDigest "allowlisted_symmetric_polarity"
      (atPositions candidates component))
    (fun a b => privateArtifactDigest "allowlisted_symmetric_polarity_edge" [a, b])
    (fun finding group =>
      (if automaticMaintenanceEnabled then
          [newPrivateAction .suppressUnresolvedConflict none none comparisonSetDigest finding group]
        else [],
        [newPrivateAction .ownerResolveContradiction none none comparisonSetDigest finding group])))

def detectPrivateRenewals (loaded : List PrivateLoadedRecord) (selected : List String)
    (evaluatedAt : OffsetDateTime) (comparisonSetDigest : String) : Fallible (List Detected) :=
  detectRenewalsWith loaded selected evaluatedAt
    (fun predecessor evidence =>
      privateArtifactDigest "fresh_accepted_capture_evidence" [predecessor, evidence])
    (fun finding predecessor evidence =>
      newPrivateAction .ownerCreateRenewalSuccessor (some predecessor.id) (some evidence.id)
        comparisonSetDigest finding [predecessor, evidence])

/-- All findings of a private snapshot, detector by detector. -/
def detectPrivate (loaded : List PrivateLoadedRecord) (selected : List String)
    (evaluatedAt : OffsetDateTime) (automaticMaintenanceEnabled : Bool) :
    Fallible (List Detected) := do
  let comparisonSetDigest := comparisonDigest (loaded.map (·.snapshot))
  let duplicates := detectPrivateExactDuplicates loaded selected comparisonSetDigest
  let contradictions ← detectPrivateContradictions loaded selected comparisonSetDigest
    automaticMaintenanceEnabled
  let stale ← detectStaleness loaded selected evaluatedAt
  let expired := detectExpiry loaded selected
  let renewals ← detectPrivateRenewals loaded selected evaluatedAt comparisonSetDigest
  .ok (duplicates ++ contradictions ++ stale ++ expired ++ renewals)

/-! ### The planner -/

def planPrivateMaintenanceInner (runtimeFingerprint : String) (request : MaintenancePlanRequest)
    (inputs : List PrivateMaintenanceRecordInput) (fallbackNow : OffsetDateTime)
    (authority : MaintenanceAuthoritySnapshot) : Fallible MaintenancePlan := do
  validateRequest request
  validateMaterializationIdentity runtimeFingerprint "maintenance private-runtime fingerprint"
  ensure (inputs.length ≤ maxRecords)
    "maintenance private-runtime snapshot exceeds the admitted-record limit"
  let evaluatedAt ← evaluationTime request fallbackNow
  let evaluatedAtText ← formatTimestamp evaluatedAt
  let inputs := inputs.insertionSort (fun a b => a.record.id ≤ b.record.id)
  ensureSortedUnique (inputs.map (·.record.id)) "maintenance private-runtime records"
  let (request, selected) ← selectRecords request evaluatedAtText (inputs.map (·.record.id))
  let maximum ← validityWindow evaluatedAt
  let loaded ← mapAll (loadPrivateRecord selected evaluatedAt) inputs
  let notAfter ← notAfterOf evaluatedAt maximum loaded
  let detected ← detectPrivate loaded selected evaluatedAt
    (authority.mode = .automaticPrivateMaintenance)
  ensureLimits detected
  let (findings, derived, owner) := attachActions detected
  finishPlan (planContents (.privateRuntime runtimeFingerprint) authority loaded findings
    ⟨[], derived, owner⟩) request evaluatedAt notAfter

/-- The authority of a plan: the active maintenance grant of the store, or none. -/
def planAuthority (db : Db) : Fallible MaintenanceAuthoritySnapshot :=
  match db.activeGrant with
  | some grant => do
    validateMaterializationIdentity grant.grantFingerprint "private maintenance grant fingerprint"
    .ok ⟨.automaticPrivateMaintenance, grant.grantFingerprint⟩
  | none => .ok ⟨.reportOnly, MaintenanceDigests.reportOnlyGrant⟩

/-- The instant at which the service takes its snapshot. -/
def snapshotTime (request : MaintenancePlanRequest) (fallbackNow : OffsetDateTime) :
    Fallible OffsetDateTime :=
  match request.evaluatedAt with
  | some value => PrivateLifecycle.parseTimestamp value "evaluated_at"
  | none => .ok fallbackNow

/-- `plan_private_lifecycle_with_conn`. -/
def planPrivateLifecycle (runtimeFingerprint : String) (db : Db) (request : MaintenancePlanRequest)
    (fallbackNow : OffsetDateTime) : Fallible MaintenancePlan := do
  let records := recordsForPreservation db
  ensure (records.length ≤ maxRecords)
    "private maintenance snapshot exceeds the admitted-record limit"
  let evaluatedAt ← snapshotTime request fallbackNow
  let inputs ← mapAll (privateInput db evaluatedAt) records
  let authority ← planAuthority db
  planPrivateMaintenanceInner runtimeFingerprint request inputs fallbackNow authority

end Text

/-! ### Requests under a plan -/

/-- The private versions an action is bound to. -/
def candidateVersions (candidate : MaintenanceAction) : Versions :=
  .ofList (candidate.preconditions.recordVersions.entries.filterMap fun bound =>
    bound.2.privateVersionToken.map fun token => (bound.1, token))

def expectedVersionMapMatches (request candidate : Versions) : Bool :=
  request.entries.length = candidate.entries.length &&
    request.entries.all fun bound => candidate.get? bound.1 = some bound.2

/-- `request_action_matches_candidate`: the request action is one the plan offers, with the owner's
choice filled in. -/
def requestActionMatchesCandidate (request : PrivateLifecycleAction)
    (candidate : MaintenanceAction) : Bool :=
  match request, candidate.class_ with
  | .consolidate recordIds expectedVersions keeperRecordId, .ownerConsolidateExactDuplicates =>
    SortedMap.sortedKeys recordIds = SortedMap.sortedKeys candidate.recordIds &&
      recordIds.contains keeperRecordId &&
      expectedVersionMapMatches expectedVersions (candidateVersions candidate)
  | .resolveContradiction recordIds expectedVersions winnerRecordId, .ownerResolveContradiction =>
    SortedMap.sortedKeys recordIds = SortedMap.sortedKeys candidate.recordIds &&
      recordIds.contains winnerRecordId &&
      expectedVersionMapMatches expectedVersions (candidateVersions candidate)
  | .renewFromEvidence predecessorId predecessorVersion evidenceRecordId evidenceVersion,
      .ownerCreateRenewalSuccessor =>
    candidate.predecessorRecordId = some predecessorId &&
      candidate.evidenceRecordId = some evidenceRecordId &&
      (candidateVersions candidate).get? predecessorId = some predecessorVersion &&
      (candidateVersions candidate).get? evidenceRecordId = some evidenceVersion
  | _, _ => false

end Maintenance
end Memzoi
