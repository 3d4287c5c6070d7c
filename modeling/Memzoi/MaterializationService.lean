/-
# Direct materialization

Source: `service/materialization.rs`.

A call prepares one record file from a candidate, its plan and a decision, and
writes it with its row in the index, or finds the very file there already. The
transaction of the index is committed after the file is installed and the
drift inspection has passed on both; otherwise the file is put back. An
installation or a commit that fails is data of the call, and a failed
installation leaves the file alone. Whether the repository write is authorized
is a parameter.
-/

import Memzoi.DerivedIndex

namespace Memzoi

open Fallible Okf
open Maintenance (validateCanonicalRecordId validateMaterializationIdentity)
open PrivateLifecycle (Digests)

inductive MaterializationOutputOutcome where
  | written | alreadyCurrent
  deriving DecidableEq, Repr

structure MaterializationOutputResult where
  path : String
  recordId : String
  action : MaterializationAction
  semanticRevision : CanonicalRevision
  role : MaterializationOutputRole
  outcome : MaterializationOutputOutcome
  deriving DecidableEq, Repr

structure RepositoryMaterializationResult where
  schema : String
  decisionId : String
  outputs : List MaterializationOutputResult
  deriving DecidableEq, Repr

def MaterializationOutputResult.validate (output : MaterializationOutputResult) : Fallible Unit := do
  validateRepositoryRelativePath output.path
  validateCanonicalRecordId output.recordId
  output.semanticRevision.validate

def RepositoryMaterializationResult.validate (result : RepositoryMaterializationResult) :
    Fallible Unit := do
  validateSchema result.schema repositoryMaterializationResultSchema
    "repository materialization result"
  validateMaterializationIdentity result.decisionId "decision_id"
  ensure (result.outputs ≠ []) "repository materialization result must contain at least one output"
  validateUniquePaths (result.outputs.map MaterializationOutputResult.path)
  checkAll MaterializationOutputResult.validate result.outputs

/-! ### Preparation -/

/-- The file a call would write; `path` is below the records. -/
structure PreparedMaterialization where
  record : OkfRecordFile
  markdown : String
  path : String
  output : MaterializationOutputIntent

/-- `validate_materialization_candidate`. -/
def validateMaterializationCandidate (candidate : OkfRecordFile) : Fallible Unit := do
  validateCanonicalRecordId candidate.conceptId
  ensure (candidate.draft.scopeKind = .repo ∧ candidate.draft.scopeId = none)
    "materialization_candidate_not_repository_scoped"
  ensure (candidate.draft.visibility = .repo) "materialization_candidate_not_repository_visible"
  ensure (candidate.draft.sensitivity = .repoSafe) "materialization_candidate_not_repo_safe"
  ensure (candidate.draft.contentClass = .generalRepoKnowledge)
    "materialization_candidate_not_general_repository_knowledge"

section Prepare

variable [MaterializationDigests] [CaptureDocuments]

/-- The checks of `prepare_materialization` on the three documents, and the one output they agree
on. -/
def checkDocuments (plan : RepositoryMaterializationPlan)
    (decision : RepositoryMaterializationDecision) (candidate : RepositoryMaterializationCandidate) :
    Fallible MaterializationOutputIntent := do
  candidate.validate
  let expected ← repositoryMaterializationCandidatePlan candidate
  ensure (plan = expected) "materialization_candidate_plan_mismatch"
  plan.validate
  decision.validate
  ensure (decision.planId = plan.planId ∧ decision.candidateId = plan.candidateId)
    "materialization_plan_decision_identity_mismatch"
  ensure (decision.outputs = plan.outputs ∧ plan.outputs.length = 1 ∧ decision.outputs.length = 1)
    "materialization_output_intent_mismatch"
  ensure (decision.authorizationCapability = .explicitCli)
    "materialization_authorization_capability_mismatch"
  ensure (decision.policy = repositoryMaterializationPolicy) "materialization_policy_mismatch"
  let output ← require plan.outputs.head? "materialization_output_intent_mismatch"
  ensure (output.action ≠ .supersede ∧ output.action ≠ .tombstone) "multi_record_transaction_required"
  .ok output

/-- The attestation of a decision. -/
def materializationMetadata (plan : RepositoryMaterializationPlan)
    (decision : RepositoryMaterializationDecision) (output : MaterializationOutputIntent)
    (semanticRevision : CanonicalRevision) : MaterializationMetadata where
  schema := materializationMetadataSchema
  action := output.action
  planId := plan.planId
  candidateId := plan.candidateId
  decisionId := decision.decisionId
  decisionAt := decision.decisionAt
  safetyContract := decision.policy.safetyContract
  revision := semanticRevision
  target := none
  reason := none

/-- The record of a candidate under the attestation of its decision. -/
def attestedRecord (plan : RepositoryMaterializationPlan)
    (decision : RepositoryMaterializationDecision) (candidate : RepositoryMaterializationCandidate)
    (output : MaterializationOutputIntent) : Fallible OkfRecordFile := do
  let record ← repositoryMaterializationCandidateToOkfRecord candidate
  validateMaterializationCandidate record
  ensure (output.path = canonicalRecordOutputPath record.conceptId ∧
      output.recordId = record.conceptId ∧ output.role = .canonicalRecord)
    "materialization_output_intent_mismatch"
  let semanticRevision ← canonicalRevisionForProjection
    ⟨canonicalRevisionSchema, record.conceptId, record.semanticContent,
      { CanonicalLifecycleProjection.empty with action := some output.action }⟩
  ensure (output.intendedSemanticRevision = semanticRevision)
    "materialization_semantic_revision_mismatch"
  let metadata := materializationMetadata plan decision output semanticRevision
  metadata.validate
  .ok { record with materialization := some (.direct metadata) }

variable [Yaml]

/-- `prepare_materialization`. -/
def prepareMaterialization (plan : RepositoryMaterializationPlan)
    (decision : RepositoryMaterializationDecision) (candidate : RepositoryMaterializationCandidate) :
    Fallible PreparedMaterialization := do
  let output ← checkDocuments plan decision candidate
  let record ← attestedRecord plan decision candidate output
  let markdown ← renderOkfRecordMarkdown record
  let path := record.conceptId ++ ".md"
  let parsed ← parseOkfRecordMarkdown path markdown
  let parsed ← require parsed "materialization_candidate_not_canonical_record"
  ensure (parsed = record) "materialization_candidate_not_compact_canonical"
  .ok ⟨record, markdown, path, output⟩

end Prepare

/-! ### The existing file -/

structure ExistingCanonicalRecord where
  bytes : ByteArray
  semanticRevision : CanonicalRevision

section Existing

variable [Yaml] [MaterializationDigests]

/-- The record and the revision of a file. -/
def readCanonicalRecord (blob : RecordBlob) (recordId : String) :
    Fallible ExistingCanonicalRecord := do
  let markdown ← require (String.fromUTF8? blob.bytes) "materialization_current_record_not_utf8"
  let record ← parseOkfRecordMarkdown blob.path markdown
  let record ← require record "materialization_current_record_invalid"
  ensure (record.conceptId = recordId) "materialization_current_record_id_mismatch"
  let semanticRevision ← canonicalRevisionForOkfRecord record
  .ok ⟨blob.bytes, semanticRevision⟩

/-- `read_existing_canonical_record`. -/
def readExistingCanonicalRecord (files : RecordFiles) (path recordId : String) :
    Fallible (Option ExistingCanonicalRecord) :=
  match files.get? path with
  | none => .ok none
  | some blob => do
    let existing ← readCanonicalRecord blob recordId
    .ok (some existing)

end Existing

/-! ### The call -/

/-- The files and the index. -/
structure RepositoryState where
  files : RecordFiles
  index : Db

/-- The three documents of a call, and whether its file operations and its commit succeed. -/
structure MaterializationCall where
  plan : RepositoryMaterializationPlan
  decision : RepositoryMaterializationDecision
  candidate : RepositoryMaterializationCandidate
  install : Fallible Unit
  commit : Fallible Unit

/-- `verify_projection_path` and `authorize_repository_projection_batch`. -/
class MaterializationAuthority where
  verifyProjectionPath : String → Fallible Unit
  authorize : PreparedMaterialization → Option ByteArray → RepositoryMaterializationPlan →
    RepositoryMaterializationDecision → Fallible Unit

/-- An authority that refuses nothing, for runs on fixed inputs. -/
@[reducible] def MaterializationAuthority.granting : MaterializationAuthority where
  verifyProjectionPath _ := .ok ()
  authorize _ _ _ _ := .ok ()

/-- `GitReviewVisibility::is_review_visible`, or why it is not known. -/
def ensureReviewVisible [RepositoryChecks] (path : String) : Fallible Unit :=
  match RepositoryChecks.gitReviewVisibility path with
  | .ok .ignoredUntracked => bail "materialization_git_review_visibility_required"
  | .ok _ => .ok ()
  | .error _ => bail "materialization Git review visibility check failed"

/-- The check of an action against the file that is there. -/
def checkAction (output : MaterializationOutputIntent) (existing : Option ExistingCanonicalRecord) :
    Fallible Unit :=
  match output.action with
  | .create => ensure (existing.isNone = true) "materialization_create_conflict"
  | .update => do
    let existing ← require existing "materialization_update_conflict"
    match output.expectedPriorRevision with
    | .revision expected =>
      ensure (existing.semanticRevision = expected) "materialization_update_stale"
    | .absent => bail "materialization_update_requires_expected_prior_revision"
  | _ => bail "multi_record_transaction_required"

def materializationResult (prepared : PreparedMaterialization) (decisionId : String)
    (outcome : MaterializationOutputOutcome) : Fallible RepositoryMaterializationResult := do
  let result : RepositoryMaterializationResult := ⟨repositoryMaterializationResultSchema, decisionId,
    [⟨prepared.output.path, prepared.output.recordId, prepared.output.action,
      prepared.output.intendedSemanticRevision, prepared.output.role, outcome⟩]⟩
  result.validate
  .ok result

/-- `install_authorized_repository_projection`: the file takes the place of the one at its path. -/
def installFile (files : RecordFiles) (path : String) (bytes : ByteArray) : RecordFiles :=
  if (files.get? path).isSome then files.set ⟨path, bytes⟩ else files.upsert ⟨path, bytes⟩

/-- `rollback_authorized_repository_projection`. -/
def rollbackFile (files : RecordFiles) (path : String) (existing : Option ByteArray) : RecordFiles :=
  match existing with
  | some bytes => files.set ⟨path, bytes⟩
  | none => files.erase path

section Apply

variable [Entropy] [Digests] [MaterializationDigests] [CaptureDocuments] [Yaml] [RepositoryChecks]
  [MaterializationAuthority]

/-- The part of a call before anything is written: the file to write with the one it replaces, or
that it is there already. -/
def decideMaterialization (s : RepositoryState) (call : MaterializationCall) :
    Fallible (PreparedMaterialization × Option ExistingCanonicalRecord × Bool) := do
  let prepared ← prepareMaterialization call.plan call.decision call.candidate
  ensureRepositoryIndexCurrent s.files s.index.toContents
  MaterializationAuthority.verifyProjectionPath prepared.path
  let existing ← readExistingCanonicalRecord s.files prepared.path prepared.record.conceptId
  ensureReviewVisible prepared.path
  if existing.any (·.bytes = prepared.markdown.toByteArray) then .ok (prepared, existing, true)
  else do
    checkAction prepared.output existing
    MaterializationAuthority.authorize prepared (existing.map ExistingCanonicalRecord.bytes)
      call.plan call.decision
    .ok (prepared, existing, false)

/-- Whether the index agrees with the installed file, and its commit. -/
def finalizeMaterialization (files : RecordFiles) (tx : Db) (commit : Fallible Unit) :
    Fallible Unit := do
  ensureRepositoryIndexCurrent files tx.toContents
  withContext "failed to commit derived repository index after materialization" commit

/-- The part of a call that writes; the index is in a transaction until the end. -/
def writeMaterialization (s : RepositoryState) (call : MaterializationCall)
    (prepared : PreparedMaterialization) (existing : Option ExistingCanonicalRecord) :
    RepositoryState × Fallible RepositoryMaterializationResult :=
  match importOkfRecords s.index [prepared.record], call.install with
  | .error _, _ =>
    (s, bail "failed to prepare derived repository index after materialization")
  | .ok _, .error error => (s, .error error)
  | .ok tx, .ok () =>
    let installed := installFile s.files prepared.path prepared.markdown.toByteArray
    match finalizeMaterialization installed tx call.commit with
    | .error error =>
      let restored := rollbackFile installed prepared.path
        (existing.map ExistingCanonicalRecord.bytes)
      (⟨restored, s.index⟩, .error error)
    | .ok () => (⟨installed, tx⟩, materializationResult prepared call.decision.decisionId .written)

/-- `apply_repository_materialization`: the state after the call and its answer. -/
def applyRepositoryMaterialization (s : RepositoryState) (call : MaterializationCall) :
    RepositoryState × Fallible RepositoryMaterializationResult :=
  match decideMaterialization s call with
  | .error error => (s, .error error)
  | .ok (prepared, _, true) =>
    (s, materializationResult prepared call.decision.decisionId .alreadyCurrent)
  | .ok (prepared, existing, false) => writeMaterialization s call prepared existing

/-- A sequence of calls. -/
def applyAllMaterializations (s : RepositoryState) (calls : List MaterializationCall) :
    RepositoryState :=
  calls.foldl (fun s call => (applyRepositoryMaterialization s call).1) s

end Apply
end Memzoi
