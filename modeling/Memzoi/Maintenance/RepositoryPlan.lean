/-
# The repository planner

Source: `maintenance.rs` (`plan_maintenance_inner`, `validate_repository_record`,
`record_freshness`, the digests of a canonical record and `detect_*`).

The planner reads a stable snapshot of the canonical records and judges each at
the instant of evaluation. A record is as fresh as its last update or its
accepted review, whichever is later, and one that is fresher than the instant
stays in the plan, but no detector takes it as current. Reading the snapshot,
and the control a caller may stop it with, are left to the caller.
-/

import Memzoi.Maintenance.Detectors
import Memzoi.Okf

namespace Memzoi
namespace Maintenance

open Fallible
open Retention (formatTimestamp evaluateCurrentAssertion)

instance : MaintenanceRecord OkfRecordFile where
  lane r := r.draft.lane
  memoryType r := r.draft.memoryType
  origin r := r.origin
  lineage r := r.lineage
  capture r := r.capture

abbrev RepositoryLoadedRecord := LoadedRecord OkfRecordFile

/-- The content revision of a canonical record. -/
class CanonicalRevisions where
  revision : OkfRecordFile → String

/-! ### Loading -/

def validateRepositoryRecord (record : OkfRecordFile) : Fallible Unit := do
  ensure (record.draft.scopeKind = .repo) "repository maintenance refuses a non-repository scope"
  ensure (record.draft.visibility = .repo)
    "repository maintenance refuses non-repository visibility"
  ensure (record.draft.contentClass = .generalRepoKnowledge)
    "repository maintenance refuses unclassified repository content"

/-- The review of a capture that was taken over, as it was or edited. -/
def acceptedReview (capture : Option CaptureProvenance) : Option String :=
  (capture.filter fun c => c.reviewOutcome = .accept || c.reviewOutcome = .edit).map (·.reviewedAt)

def recordFreshness (record : OkfRecordFile) : Fallible OffsetDateTime := do
  let freshness ← parseTimestamp (record.updated.getD record.created) "maintenance record freshness"
  let reviewedAt ← parseOptional (acceptedReview record.capture) "capture reviewed_at"
  .ok (match reviewedAt with
    | some reviewedAt => if freshness < reviewedAt then reviewedAt else freshness
    | none => freshness)

section Text

variable [Text.Unicode] [MaintenanceDigests]

/-- Texts in order; one that stands twice stays twice. -/
def sortedStrings (values : List String) : List String := values.insertionSort (· ≤ ·)

def claimProjection (record : OkfRecordFile) : RepositoryClaimProjection :=
  let d := record.draft
  ⟨d.memoryType, d.lane, d.scopeKind, d.scopeId, d.visibility, normalizeText d.title,
    Text.trim d.body, sortedStrings d.tags, d.sensitivity, d.contentClass, d.confidence,
    sortedStrings record.appliesTo⟩

def duplicateClaimDigest (record : OkfRecordFile) : String :=
  MaintenanceDigests.repositoryDuplicateClaim (claimProjection record, record.retention)

def renewalClaimDigest (record : OkfRecordFile) : String :=
  MaintenanceDigests.repositoryRenewalClaim (claimProjection record)

variable [CanonicalRevisions]

/-- The snapshot of a record at the instant. -/
def repositorySnapshot (selected : List String) (source : OkfRecordSnapshot)
    (decision : Retention.CurrentAssertionDecision) (eligibleAtEvaluation : Bool) :
    MaintenanceRecordSnapshot where
  recordId := source.record.conceptId
  version := .canonicalRepository source.sourcePath (CanonicalRevisions.revision source.record)
  contentHash := MaintenanceDigests.content source.record.draft.body
  claimDigest := duplicateClaimDigest source.record
  applicabilityDigest := MaintenanceDigests.applicability
    ⟨none, source.record.draft.scopeKind, source.record.draft.scopeId,
      sortedStrings source.record.appliesTo⟩
  temporalDigest := MaintenanceDigests.temporal
    ⟨source.record.status, source.record.retention, none, source.record.supersedesId,
      source.record.lineage⟩
  status := source.record.status
  currentAssertion := decision.isCurrent && eligibleAtEvaluation
  retentionState := decision.retention.state
  retentionReason := decision.retention.reason
  retentionBoundary := decision.retention.effectiveBoundary
  target := selected.contains source.record.conceptId

def loadRecord (selected : List String) (evaluatedAt : OffsetDateTime) (source : OkfRecordSnapshot) :
    Fallible RepositoryLoadedRecord := do
  let record := source.record
  validateRepositoryRecord record
  let decision ← evaluateCurrentAssertion record.conceptId record.status record.draft.lane
    record.retention evaluatedAt []
  let freshness ← recordFreshness record
  let eligibleAtEvaluation := decide (freshness ≤ evaluatedAt)
  .ok ⟨repositorySnapshot selected source decision eligibleAtEvaluation, record,
    duplicateClaimDigest record, renewalClaimDigest record, freshness, eligibleAtEvaluation⟩

/-! ### The detectors -/

/-- The first record of the group is kept. -/
def consolidateAction (comparisonSetDigest : String) (finding : MaintenanceFinding)
    (group : List RepositoryLoadedRecord) : MaintenanceAction :=
  newAction .consolidateExactDuplicates finding (group.head?.map LoadedRecord.id) none none
    comparisonSetDigest group

def detectExactDuplicates (loaded : List RepositoryLoadedRecord) (selected : List String)
    (comparisonSetDigest : String) : List Detected :=
  detectExactDuplicatesWith loaded selected
    (fun group => (group.head?.map (·.duplicateClaimDigest)).getD "")
    (consolidateAction comparisonSetDigest)

def contradictionEligible (r : RepositoryLoadedRecord) : Bool :=
  r.snapshot.currentAssertion && isDurable r.record.draft.lane &&
    claimBearingType r.record.draft.memoryType &&
    !containsConditionalOrTemporalLanguage r.record.draft.body

def repositoryCandidates (loaded : List RepositoryLoadedRecord) : List RepositoryLoadedRecord :=
  loaded.filter fun r => contradictionEligible r && (polaritySignature r.record.draft.body).isSome

def sameClaimContext (left right : OkfRecordFile) : Bool :=
  left.draft.memoryType = right.draft.memoryType && left.draft.lane = right.draft.lane &&
    normalizeText left.draft.title = normalizeText right.draft.title &&
    left.draft.scopeKind = right.draft.scopeKind && left.draft.scopeId = right.draft.scopeId

def recordsAreTemporallyRelated (left right : OkfRecordFile) : Bool :=
  left.supersedesId = some right.conceptId || right.supersedesId = some left.conceptId ||
    left.lineage.any (·.predecessorId = right.conceptId) ||
    right.lineage.any (·.predecessorId = left.conceptId)

def repositoryContradicts (left right : OkfRecordFile) : Bool :=
  match polaritySignature left.draft.body, polaritySignature right.draft.body with
  | some (leftSignature, leftNegative), some (rightSignature, rightNegative) =>
    leftSignature = rightSignature && leftNegative ≠ rightNegative &&
      sameClaimContext left right && pathsOverlap left.appliesTo right.appliesTo &&
      !recordsAreTemporallyRelated left right
  | _, _ => false

/-- The edge between two positions, asked of the earlier one first. -/
def repositoryAdjacent (candidates : List RepositoryLoadedRecord) (i j : Nat) : Bool :=
  match candidates[i]?, candidates[j]? with
  | some a, some b =>
    (i < j && repositoryContradicts a.record b.record) ||
      (j < i && repositoryContradicts b.record a.record)
  | _, _ => false

def repositoryNeighbors (candidates : List RepositoryLoadedRecord) (i : Nat) : List Nat :=
  (List.range candidates.length).filter (repositoryAdjacent candidates i)

/-- The signature at the start of a component, which is its least position. -/
def componentSignature (candidates : List RepositoryLoadedRecord) (component : List Nat) : String :=
  match component.head?.bind fun i => candidates[i]? with
  | some r => ((polaritySignature r.record.draft.body).map Prod.fst).getD ""
  | none => ""

def detectContradictions (loaded : List RepositoryLoadedRecord) (selected : List String) :
    Fallible (List Detected) := do
  let candidates := repositoryCandidates loaded
  ensure (candidates.length * (candidates.length - 1) / 2 ≤ maxPairComparisons)
    "maintenance planning exceeds the pair-comparison work limit"
  .ok (detectContradictionsWith candidates (repositoryNeighbors candidates) selected
    (fun component => MaintenanceDigests.contradictionSignature (componentSignature candidates component))
    (fun a b => MaintenanceDigests.contradictionEdge (sortedStrings [a.id, b.id]))
    (fun _ _ => ([], [])))

def detectRenewals (loaded : List RepositoryLoadedRecord) (selected : List String)
    (evaluatedAt : OffsetDateTime) (comparisonSetDigest : String) : Fallible (List Detected) :=
  detectRenewalsWith loaded selected evaluatedAt
    (fun _ evidence => (evidence.record.capture.map fun c =>
      MaintenanceDigests.captureEvidence c.evidence).getD "")
    (fun finding predecessor evidence =>
      newAction .createRenewalSuccessor finding none (some predecessor.id) (some evidence.id)
        comparisonSetDigest [predecessor, evidence])

/-- All findings of a repository snapshot, detector by detector. -/
def detectRepository (loaded : List RepositoryLoadedRecord) (selected : List String)
    (evaluatedAt : OffsetDateTime) : Fallible (List Detected) := do
  let comparisonSetDigest := comparisonDigest (loaded.map (·.snapshot))
  let duplicates := detectExactDuplicates loaded selected comparisonSetDigest
  let contradictions ← detectContradictions loaded selected
  let stale ← detectStaleness loaded selected evaluatedAt
  let expired := detectExpiry loaded selected
  let renewals ← detectRenewals loaded selected evaluatedAt comparisonSetDigest
  .ok (duplicates ++ contradictions ++ stale ++ expired ++ renewals)

/-! ### The planner -/

/-- `plan_maintenance_inner` from the stable snapshot of the canonical records. -/
def planMaintenance (repositoryFingerprint : String) (source : List OkfRecordSnapshot)
    (request : MaintenancePlanRequest) (fallbackNow : OffsetDateTime) :
    Fallible MaintenancePlan := do
  validateRequest request
  let evaluatedAt ← evaluationTime request fallbackNow
  let evaluatedAtText ← formatTimestamp evaluatedAt
  let (request, selected) ← selectRecords request evaluatedAtText
    (SortedMap.sortedKeys (source.map (·.record.conceptId)))
  let maximum ← validityWindow evaluatedAt
  let loaded ← mapAll (loadRecord selected evaluatedAt) source
  let loaded := loaded.insertionSort (fun a b => a.id ≤ b.id)
  let notAfter ← notAfterOf evaluatedAt maximum loaded
  let detected ← detectRepository loaded selected evaluatedAt
  ensureLimits detected
  let (findings, _, actions) := attachActions detected
  finishPlan (planContents (.repository repositoryFingerprint)
    ⟨.reportOnly, MaintenanceDigests.reportOnlyGrant⟩ loaded findings ⟨actions, [], []⟩)
    request evaluatedAt notAfter

end Text

end Maintenance
end Memzoi
