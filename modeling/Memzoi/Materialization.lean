/-
# Materialization: plans, decisions and revisions

Source: `materialization.rs`, with `RepositoryMaintenanceMaterializationMetadata`
of `repository_maintenance_materialization.rs`.

A candidate is the whole content of one record file; its plan names the file,
the revision it is meant for and the revision it will have, and a decision
repeats both. Every identity is a digest of a projection under a domain of its
own, and the digests are a parameter. What the checks read from the document of
a capture provenance is a parameter too.
-/

import Memzoi.Okf

namespace Memzoi

open Fallible Retention
open Maintenance (validateCanonicalRecordId validateMaterializationIdentity RepositoryContentClass)

def repositoryMaterializationPlanSchema : String := "memzoi/repository-materialization-plan"
def repositoryMaterializationDecisionSchema : String :=
  "memzoi/repository-materialization-decision"
def repositoryMaterializationResultSchema : String := "memzoi/repository-materialization-result"
def canonicalRevisionSchema : String := "memzoi/repository-canonical-revision"
def materializationMetadataSchema : String := "memzoi/repository-materialization"
def repositoryMaintenanceMaterializationMetadataSchema : String :=
  "memzoi/repository-maintenance-materialization"
def maxMaterializationReasonBytes : Nat := 280
def repositoryMaterializationCandidateSchema : String :=
  "memzoi/repository-materialization-candidate"
def repositoryWriteSafetySchema : String := "memzoi/repository-write-safety"

/-! ### Checks of the parts -/

def validateSchema (actual expected label : String) : Fallible Unit :=
  ensure (actual = expected) s!"unsupported {label} schema {Text.debugQuote actual}"

def validateNonempty (value label : String) : Fallible Unit :=
  ensure (value ≠ "" ∧ value = Text.trim value) s!"{label} must be a non-empty trimmed string"

def validateNonemptyIfSome (value : Option String) (label : String) : Fallible Unit :=
  match value with
  | some value => validateNonempty value label
  | none => .ok ()

def validateRfc3339Timestamp (value label : String) : Fallible Unit := do
  ensure (value = Text.trim value) s!"{label} must not have surrounding whitespace"
  ensure ((Rfc3339.parse value).isSome = true) s!"{label} must be an RFC 3339 timestamp"

def validateRelativePathSegment (segment : List Char) : Fallible Unit :=
  ensure (segment ≠ [] ∧ segment ≠ ['.'] ∧ segment ≠ ['.', '.'])
    "materialization output path contains an invalid path segment"

def validateRepositoryRelativePath (path : String) : Fallible Unit := do
  ensure (path ≠ "" ∧ path.toList.head? ≠ some '/' ∧ '\\' ∉ path.toList)
    "materialization output path must be a non-empty slash-separated relative path"
  checkAll validateRelativePathSegment (path.toList.splitOn '/')

def CanonicalRevision.validate (revision : CanonicalRevision) : Fallible Unit := do
  validateSchema revision.schema canonicalRevisionSchema "canonical revision"
  validateMaterializationIdentity revision.revisionHash "canonical revision hash"

def ExpectedPriorRevision.validate : ExpectedPriorRevision → Fallible Unit
  | absent => .ok ()
  | revision r => r.validate

def MaterializationTarget.validate (target : MaterializationTarget) : Fallible Unit := do
  validateCanonicalRecordId target.recordId
  target.expectedRevision.validate

def validateMaterializationReason (reason : String) : Fallible Unit := do
  ensure (reason ≠ "" ∧ reason = Text.trim reason)
    "materialization reason must be a non-empty trimmed string"
  ensure (reason.utf8ByteSize ≤ maxMaterializationReasonBytes)
    s!"materialization reason exceeds the {maxMaterializationReasonBytes}-byte limit"
  ensure ('\n' ∉ reason.toList ∧ '\r' ∉ reason.toList)
    "materialization reason must be a single line"

/-- `validate_lifecycle_shape`. -/
def validateLifecycleShape (action : MaterializationAction) (target : Option MaterializationTarget)
    (reason : Option String) : Fallible Unit :=
  match action with
  | .create | .update =>
    ensure (target.isNone = true ∧ reason.isNone = true)
      "create and update materialization metadata cannot contain lifecycle target or reason"
  | .supersede | .tombstone => do
    let target ← require target "supersede and tombstone materialization metadata require a target"
    target.validate
    let reason ← require reason "supersede and tombstone materialization metadata require a reason"
    validateMaterializationReason reason

def MaterializationAction.counterpartRelationship :
    MaterializationAction → Option MaterializationCounterpartRelationship
  | create | update => none
  | supersede => some .supersedes
  | tombstone => some .tombstones

/-! ### Lifecycle projections -/

structure CanonicalLifecycleProjection where
  action : Option MaterializationAction
  targetExpectedRevision : Option CanonicalRevision
  counterpartRecordId : Option String
  counterpartRelationship : Option MaterializationCounterpartRelationship
  reason : Option String
  deriving DecidableEq, Repr

namespace CanonicalLifecycleProjection

/-- `CanonicalLifecycleProjection::default`. -/
def empty : CanonicalLifecycleProjection := ⟨none, none, none, none, none⟩

/-- The target a projection names; its record and its revision come together. -/
def target (p : CanonicalLifecycleProjection) : Fallible (Option MaterializationTarget) :=
  match p.counterpartRecordId, p.targetExpectedRevision with
  | some recordId, some revision => .ok (some ⟨recordId, revision⟩)
  | none, none => .ok none
  | _, _ => bail "canonical lifecycle target record and revision must be paired"

/-- The relationships an action allows. -/
def relationshipMatches (p : CanonicalLifecycleProjection) : MaterializationAction → Bool
  | .create | .update => p.counterpartRelationship.isNone
  | .supersede => p.counterpartRelationship = some .supersedes ||
      p.counterpartRelationship = some .supersededBy
  | .tombstone => p.counterpartRelationship = some .tombstones

def validate (p : CanonicalLifecycleProjection) : Fallible Unit :=
  match p.action with
  | none =>
    ensure (p.targetExpectedRevision.isNone = true ∧ p.counterpartRecordId.isNone = true ∧
        p.counterpartRelationship.isNone = true ∧ p.reason.isNone = true)
      "unattested canonical lifecycle cannot contain materialization fields"
  | some action => do
    let target ← p.target
    validateLifecycleShape action target p.reason
    ensure (p.relationshipMatches action = true)
      "canonical lifecycle counterpart relationship does not match action"

end CanonicalLifecycleProjection

/-! ### Metadata of a revision -/

namespace MaterializationMetadata

def validate (m : MaterializationMetadata) : Fallible Unit := do
  validateSchema m.schema materializationMetadataSchema "materialization metadata"
  validateMaterializationIdentity m.planId "materialization plan_id"
  validateMaterializationIdentity m.candidateId "materialization candidate_id"
  validateMaterializationIdentity m.decisionId "materialization decision_id"
  validateRfc3339Timestamp m.decisionAt "materialization decision_at"
  validateNonempty m.safetyContract "materialization safety_contract"
  m.revision.validate
  validateLifecycleShape m.action m.target m.reason

def lifecycleProjection (m : MaterializationMetadata) : CanonicalLifecycleProjection where
  action := some m.action
  targetExpectedRevision := m.target.map MaterializationTarget.expectedRevision
  counterpartRecordId := m.target.map MaterializationTarget.recordId
  counterpartRelationship := m.action.counterpartRelationship
  reason := m.reason

end MaterializationMetadata

namespace PriorCanonicalLifecycleProjection

def lifecycleProjection (p : PriorCanonicalLifecycleProjection) : CanonicalLifecycleProjection where
  action := p.action
  targetExpectedRevision := p.counterpartExpectedRevision
  counterpartRecordId := p.counterpartRecordId
  counterpartRelationship := p.counterpartRelationship
  reason := p.reason

end PriorCanonicalLifecycleProjection

/-- `RecordLineage::validate`. -/
def RecordLineage.validate (lineage : RecordLineage) : Fallible Unit :=
  Origin.requireNonEmpty "predecessor_id" lineage.predecessorId

def PriorCanonicalLifecycleProjection.validate (p : PriorCanonicalLifecycleProjection) :
    Fallible Unit := do
  match p.supersedesId with
  | some id => validateCanonicalRecordId id
  | none => .ok ()
  match p.lineage with
  | some lineage => lineage.validate
  | none => .ok ()
  p.lifecycleProjection.validate

/-- `validate_canonical_utc_timestamp`. -/
def validateCanonicalUtcTimestamp (value label : String) : Fallible Unit := do
  ensure (value = Text.trim value ∧ value.toList.getLast? = some 'Z')
    s!"{label} must use canonical UTC RFC 3339 syntax"
  let parsed ← require (Rfc3339.parse value) s!"{label} must be an RFC 3339 timestamp"
  let canonical ← withContext s!"failed to canonicalize {label}" (formatTimestamp parsed)
  ensure (canonical = value) s!"{label} must use canonical UTC RFC 3339 syntax"

def MaintenanceCounterpart.validate (c : MaintenanceCounterpart) : Fallible Unit := do
  validateCanonicalRecordId c.recordId
  c.expectedPriorRevision.validate

/-- `validate_action_role`, with the relationship an action and a role stand for. -/
def expectedRelationship (action : MaterializationAction) (role : MaterializationOutputRole) :
    Fallible (Option MaterializationCounterpartRelationship) :=
  match action, role with
  | .supersede, .canonicalRecord => .ok (some .supersedes)
  | .supersede, .lifecycleCounterpart => .ok (some .supersededBy)
  | .tombstone, .lifecycleCounterpart => .ok (some .tombstones)
  | .create, .canonicalRecord => .ok none
  | .update, .canonicalRecord => .ok none
  | _, _ => bail "maintenance result action and role are incompatible"

def validateCounterpartShape (action : MaterializationAction) (role : MaterializationOutputRole)
    (counterpart : Option MaintenanceCounterpart) : Fallible Unit := do
  let expected ← expectedRelationship action role
  match expected, counterpart with
  | none, none => .ok ()
  | some expected, some counterpart =>
    counterpart.validate
    ensure (counterpart.relationship = expected)
      "maintenance counterpart relationship does not match action and role"
  | none, some _ => bail "maintenance output cannot contain a counterpart"
  | some _, none => bail "maintenance output requires a counterpart"

namespace RepositoryMaintenanceMaterializationMetadata

def validate (m : RepositoryMaintenanceMaterializationMetadata) : Fallible Unit := do
  ensure (m.schema = repositoryMaintenanceMaterializationMetadataSchema)
    "unsupported repository maintenance materialization metadata schema"
  validateMaterializationIdentity m.actionId "maintenance action_id"
  validateMaterializationIdentity m.planId "maintenance plan_id"
  validateMaterializationIdentity m.selectionId "maintenance selection_id"
  validateMaterializationIdentity m.decisionId "maintenance decision_id"
  validateMaterializationIdentity m.policyDigest "maintenance policy_digest"
  validateCanonicalUtcTimestamp m.decisionAt "maintenance decision_at"
  validateNonempty m.policyVersion "maintenance policy_version"
  ensure (m.safetyContract = repositoryWriteSafetySchema)
    "maintenance metadata uses an unsupported safety contract"
  ensure (m.authorizationCapability = .explicitCli)
    "maintenance metadata requires explicit CLI authorization"
  m.expectedPriorRevision.validate
  m.intendedSemanticRevision.validate
  validateNonempty m.reason "maintenance reason"
  ensure (m.reason.utf8ByteSize ≤ maxMaterializationReasonBytes ∧ '\n' ∉ m.reason.toList ∧
      '\r' ∉ m.reason.toList)
    "maintenance reason is not a bounded single line"
  m.priorLifecycle.validate
  validateCounterpartShape m.action m.role m.counterpart

/-- The reason is part of the revision only of a succession or a tombstone. -/
def lifecycleProjection (m : RepositoryMaintenanceMaterializationMetadata) :
    CanonicalLifecycleProjection where
  action := some m.action
  targetExpectedRevision := m.counterpart.map MaintenanceCounterpart.expectedPriorRevision
  counterpartRecordId := m.counterpart.map MaintenanceCounterpart.recordId
  counterpartRelationship := m.counterpart.map MaintenanceCounterpart.relationship
  reason := if m.action = .supersede ∨ m.action = .tombstone then some m.reason else none

end RepositoryMaintenanceMaterializationMetadata

namespace RepositoryMaterializationMetadata

def validate : RepositoryMaterializationMetadata → Fallible Unit
  | direct m => m.validate
  | maintenance m => m.validate

def intendedSemanticRevision : RepositoryMaterializationMetadata → CanonicalRevision
  | direct m => m.revision
  | maintenance m => m.intendedSemanticRevision

def lifecycleProjection : RepositoryMaterializationMetadata → CanonicalLifecycleProjection
  | direct m => m.lifecycleProjection
  | maintenance m => m.lifecycleProjection

end RepositoryMaterializationMetadata

/-! ### Revisions -/

/-- What a revision says of a record: all of it but its id and its attestation. -/
structure CanonicalRecordSemanticContent where
  memoryType : MemoryType
  lane : MemoryLane
  scopeKind : ScopeKind
  scopeId : Option String
  visibility : Visibility
  title : String
  body : String
  tags : List String
  sourceKind : Option String
  sourceRef : Option String
  contentClass : RepositoryContentClass
  confidence : ℚ
  status : MemoryStatus
  appliesTo : List String
  created : String
  updated : Option String
  supersedesId : Option String
  retention : RetentionFacts
  origin : OriginDescriptor
  lineage : Option RecordLineage
  proposalId : Option String
  capture : Option CaptureProvenance
  deriving DecidableEq, Repr

/-- `CanonicalRecordSemanticContent::from`. -/
def OkfRecordFile.semanticContent (record : OkfRecordFile) : CanonicalRecordSemanticContent where
  memoryType := record.draft.memoryType
  lane := record.draft.lane
  scopeKind := record.draft.scopeKind
  scopeId := record.draft.scopeId
  visibility := record.draft.visibility
  title := record.draft.title
  body := record.draft.body
  tags := record.draft.tags
  sourceKind := record.draft.sourceKind
  sourceRef := record.draft.sourceRef
  contentClass := record.draft.contentClass
  confidence := record.draft.confidence
  status := record.status
  appliesTo := record.appliesTo
  created := record.created
  updated := record.updated
  supersedesId := record.supersedesId
  retention := record.retention
  origin := record.origin
  lineage := record.lineage
  proposalId := record.proposalId
  capture := record.capture

structure CanonicalRevisionProjection where
  schema : String
  recordId : String
  record : CanonicalRecordSemanticContent
  lifecycle : CanonicalLifecycleProjection
  deriving DecidableEq, Repr

/-- `CanonicalRevisionProjection::for_okf_record`. -/
def CanonicalRevisionProjection.forOkfRecord (record : OkfRecordFile) :
    CanonicalRevisionProjection where
  schema := canonicalRevisionSchema
  recordId := record.conceptId
  record := record.semanticContent
  lifecycle := (record.materialization.map
    RepositoryMaterializationMetadata.lifecycleProjection).getD .empty

def CanonicalRevisionProjection.validate (p : CanonicalRevisionProjection) : Fallible Unit := do
  validateSchema p.schema canonicalRevisionSchema "canonical revision projection"
  validateCanonicalRecordId p.recordId
  p.lifecycle.validate

/-! ### Candidates, plans and decisions -/

/-- The whole content of a record, without an attestation. -/
structure RepositoryMaterializationCandidateRecord where
  conceptId : String
  draft : MemoryDraft
  status : MemoryStatus
  appliesTo : List String
  created : String
  updated : Option String
  supersedesId : Option String
  retention : RetentionFacts
  origin : OriginDescriptor
  lineage : Option RecordLineage
  proposalId : Option String
  capture : Option CaptureProvenance
  deriving DecidableEq, Repr

/-- What a candidate's identity covers: all of it but the identity. -/
structure CandidateIdentityProjection where
  schema : String
  destination : MemoryDestination
  action : MaterializationAction
  outputPath : String
  expectedPriorRevision : ExpectedPriorRevision
  target : Option MaterializationTarget
  reason : Option String
  record : RepositoryMaterializationCandidateRecord
  deriving DecidableEq, Repr

structure RepositoryMaterializationCandidate extends CandidateIdentityProjection where
  candidateId : String
  deriving DecidableEq, Repr

structure MaterializationOutputIntent where
  path : String
  recordId : String
  action : MaterializationAction
  expectedPriorRevision : ExpectedPriorRevision
  intendedSemanticRevision : CanonicalRevision
  role : MaterializationOutputRole
  deriving DecidableEq, Repr

structure PlanIdentityProjection where
  schema : String
  candidateId : String
  outputs : List MaterializationOutputIntent
  deriving DecidableEq, Repr

structure RepositoryMaterializationPlan extends PlanIdentityProjection where
  planId : String
  deriving DecidableEq, Repr

structure MaterializationPolicy where
  policyId : String
  safetyContract : String
  deriving DecidableEq, Repr

structure DecisionIdentityProjection where
  schema : String
  planId : String
  candidateId : String
  decisionAt : String
  policy : MaterializationPolicy
  authorizationCapability : MaterializationAuthorizationCapability
  outputs : List MaterializationOutputIntent
  deriving DecidableEq, Repr

structure RepositoryMaterializationDecision extends DecisionIdentityProjection where
  decisionId : String
  deriving DecidableEq, Repr

/-- The digests, one for each domain. -/
class MaterializationDigests where
  candidateId : CandidateIdentityProjection → String
  planId : PlanIdentityProjection → String
  decisionId : DecisionIdentityProjection → String
  revisionHash : CanonicalRevisionProjection → String

/-- An identity with one telling digit. -/
def tellingIdentity (digit : Char) : String :=
  "blake3:" ++ String.ofList (List.replicate 63 ( '0') ++ [digit])

/-- Digests that tell a creation from an update, for runs on fixed inputs. -/
@[reducible] def MaterializationDigests.ofAction : MaterializationDigests where
  candidateId c := tellingIdentity (if c.action = .create then 'a' else 'b')
  planId p := tellingIdentity (if p.candidateId = tellingIdentity 'a' then 'c' else 'd')
  decisionId d := tellingIdentity (if d.candidateId = tellingIdentity 'a' then 'e' else 'f')
  revisionHash p := tellingIdentity (if p.lifecycle.action = some .create then '1' else '2')

/-- What the checks of a candidate read from the document of its capture provenance: whether its
destination, sensitivity and content class are those of the repository, and whether it is
complete. -/
class CaptureDocuments where
  repositorySafe : CaptureProvenance → Bool
  validateCaptureProvenance : CaptureProvenance → Fallible Unit

/-- No capture is known, for runs on fixed inputs. -/
@[reducible] def CaptureDocuments.unknown : CaptureDocuments where
  repositorySafe _ := false
  validateCaptureProvenance _ := bail "unknown capture provenance"

section Revisions

variable [MaterializationDigests]

def canonicalRevisionForProjection (p : CanonicalRevisionProjection) : Fallible CanonicalRevision := do
  p.validate
  .ok ⟨canonicalRevisionSchema, MaterializationDigests.revisionHash p⟩

def canonicalRevisionForOkfRecord (record : OkfRecordFile) : Fallible CanonicalRevision :=
  canonicalRevisionForProjection (.forOkfRecord record)

end Revisions

/-! ### Checks of a candidate -/

def MaterializationOutputIntent.validate (output : MaterializationOutputIntent) : Fallible Unit := do
  validateRepositoryRelativePath output.path
  validateCanonicalRecordId output.recordId
  output.expectedPriorRevision.validate
  output.intendedSemanticRevision.validate

def validateUniquePaths (paths : List String) : Fallible Unit :=
  ensure paths.Nodup "materialization outputs must not share a path"

def validatePlanPayload (plan : PlanIdentityProjection) : Fallible Unit := do
  validateSchema plan.schema repositoryMaterializationPlanSchema "repository materialization plan"
  validateMaterializationIdentity plan.candidateId "candidate_id"
  ensure (plan.outputs ≠ []) "repository materialization plan must contain at least one output"
  validateUniquePaths (plan.outputs.map MaterializationOutputIntent.path)
  checkAll MaterializationOutputIntent.validate plan.outputs

def MaterializationPolicy.validate (policy : MaterializationPolicy) : Fallible Unit := do
  validateNonempty policy.policyId "policy_id"
  validateNonempty policy.safetyContract "safety_contract"

def validateDecisionPayload (decision : DecisionIdentityProjection) : Fallible Unit := do
  validateSchema decision.schema repositoryMaterializationDecisionSchema
    "repository materialization decision"
  validateMaterializationIdentity decision.planId "plan_id"
  validateMaterializationIdentity decision.candidateId "candidate_id"
  validateRfc3339Timestamp decision.decisionAt "decision_at"
  decision.policy.validate
  ensure (decision.outputs ≠ [])
    "repository materialization decision must contain at least one output"
  validateUniquePaths (decision.outputs.map MaterializationOutputIntent.path)
  checkAll MaterializationOutputIntent.validate decision.outputs

def validateCandidateDraft (draft : MemoryDraft) : Fallible Unit := do
  ensure (draft.scopeKind = .repo) "repository materialization candidate scope_kind must be repo"
  ensure (draft.visibility = .repo) "repository materialization candidate visibility must be repo"
  ensure (draft.sensitivity = .repoSafe)
    "repository materialization candidate sensitivity must be repo-safe"
  ensure (draft.contentClass = .generalRepoKnowledge)
    "repository materialization candidate content_class must be general_repo_knowledge"
  validateNonempty draft.title "candidate record title"
  ensure (Text.isBlank draft.body = false) "candidate record body must not be empty"
  validateNonemptyIfSome draft.scopeId "candidate record scope_id"
  validateNonemptyIfSome draft.sourceKind "candidate record source_kind"
  validateNonemptyIfSome draft.sourceRef "candidate record source_ref"
  checkAll (validateNonempty · "candidate record tag") draft.tags
  ensure (0 ≤ draft.confidence ∧ draft.confidence ≤ 1)
    "candidate record confidence must be a finite value between zero and one"

section Candidates

variable [CaptureDocuments]

def validateCandidateCapture (capture : CaptureProvenance) : Fallible Unit := do
  ensure (CaptureDocuments.repositorySafe capture = true)
    "candidate record capture provenance is not repository-safe"
  withContext "candidate record capture provenance is invalid"
    (CaptureDocuments.validateCaptureProvenance capture)

/-- A check of a field that may be absent. -/
def validateIfSome {α : Type} (check : α → Fallible Unit) (value : Option α) : Fallible Unit :=
  match value with
  | some value => check value
  | none => .ok ()

def validateCandidateRecord (record : RepositoryMaterializationCandidateRecord) :
    Fallible Unit := do
  validateCanonicalRecordId record.conceptId
  validateCandidateDraft record.draft
  validateRfc3339Timestamp record.created "candidate record created"
  validateIfSome (validateRfc3339Timestamp · "candidate record updated") record.updated
  validateIfSome validateCanonicalRecordId record.supersedesId
  let createdAt ← require (Rfc3339.parse record.created) "candidate record created is invalid"
  let _ ← withContext "candidate record retention is invalid"
    (evaluateRetention record.conceptId record.draft.lane record.retention createdAt)
  withContext "candidate record origin is invalid" (Origin.validateDescriptor record.origin)
  validateIfSome (fun lineage => withContext "candidate record lineage is invalid"
    (RecordLineage.validate lineage)) record.lineage
  validateNonemptyIfSome record.proposalId "candidate record proposal_id"
  checkAll (fun path => withContext "candidate record applies_to contains an invalid path"
    (validateRepositoryRelativePath path)) record.appliesTo
  validateIfSome validateCandidateCapture record.capture

/-- `validate_candidate_action_shape`; the shape of the target was checked before. -/
def validateCandidateActionShape (candidate : CandidateIdentityProjection) : Fallible Unit :=
  let record := candidate.record
  match candidate.action with
  | .create => do
    ensure (record.status = .active) "create materialization candidates must produce active records"
    ensure (candidate.expectedPriorRevision = .absent)
      "create materialization candidates must expect an absent prior revision"
    ensure (record.supersedesId.isNone = true)
      "create materialization candidates cannot name a supersedes record"
  | .update => do
    ensure (record.status = .active) "update materialization candidates must produce active records"
    ensure (candidate.expectedPriorRevision ≠ .absent)
      "update materialization candidates must expect a prior revision"
    ensure (record.supersedesId.isNone = true)
      "update materialization candidates cannot name a supersedes record"
  | .supersede => do
    ensure (record.status = .active)
      "supersede materialization candidates must produce active records"
    ensure (candidate.expectedPriorRevision = .absent)
      "supersede materialization candidates must expect an absent prior revision"
    ensure (candidate.target.all (·.recordId ≠ record.conceptId) = true)
      "supersede materialization candidate target must differ from its concept_id"
    ensure (record.supersedesId = candidate.target.map MaterializationTarget.recordId)
      "supersede materialization candidate supersedes_id must match its target"
  | .tombstone => do
    ensure (record.status = .tombstoned)
      "tombstone materialization candidates must produce tombstoned records"
    ensure (record.supersedesId.isNone = true)
      "tombstone materialization candidates cannot name a supersedes record"
    ensure (candidate.target.all (·.recordId = record.conceptId) = true)
      "tombstone materialization candidate target must match its concept_id"
    match candidate.expectedPriorRevision with
    | .revision expected =>
      ensure (candidate.target.all (·.expectedRevision = expected) = true)
        "tombstone materialization candidate prior revision must match its target"
    | .absent => bail "tombstone materialization candidates must expect a prior revision"

def canonicalRecordOutputPath (conceptId : String) : String := s!".memzoi/records/{conceptId}.md"

def validateCandidatePayload (candidate : CandidateIdentityProjection) : Fallible Unit := do
  validateSchema candidate.schema repositoryMaterializationCandidateSchema
    "repository materialization candidate"
  ensure (candidate.destination = .repo)
    "repository materialization candidate destination must be repo"
  validateCandidateRecord candidate.record
  validateRepositoryRelativePath candidate.outputPath
  ensure (candidate.outputPath = canonicalRecordOutputPath candidate.record.conceptId)
    s!"repository materialization candidate output_path must be {canonicalRecordOutputPath candidate.record.conceptId}"
  candidate.expectedPriorRevision.validate
  validateLifecycleShape candidate.action candidate.target candidate.reason
  validateCandidateActionShape candidate

/-! ### Identities -/

variable [MaterializationDigests]

/-- `repository_materialization_plan_id`. -/
def repositoryMaterializationPlanId (plan : PlanIdentityProjection) : Fallible String := do
  validatePlanPayload plan
  .ok (MaterializationDigests.planId plan)

def repositoryMaterializationDecisionId (decision : DecisionIdentityProjection) : Fallible String := do
  validateDecisionPayload decision
  .ok (MaterializationDigests.decisionId decision)

def repositoryMaterializationCandidateId (candidate : CandidateIdentityProjection) :
    Fallible String := do
  validateCandidatePayload candidate
  .ok (MaterializationDigests.candidateId candidate)

def RepositoryMaterializationPlan.validate (plan : RepositoryMaterializationPlan) :
    Fallible Unit := do
  validatePlanPayload plan.toPlanIdentityProjection
  validateMaterializationIdentity plan.planId "plan_id"
  let expected ← repositoryMaterializationPlanId plan.toPlanIdentityProjection
  ensure (plan.planId = expected)
    "plan_id does not match the repository materialization plan identity"

def RepositoryMaterializationDecision.validate (decision : RepositoryMaterializationDecision) :
    Fallible Unit := do
  validateDecisionPayload decision.toDecisionIdentityProjection
  validateMaterializationIdentity decision.decisionId "decision_id"
  let expected ← repositoryMaterializationDecisionId decision.toDecisionIdentityProjection
  ensure (decision.decisionId = expected)
    "decision_id does not match the repository materialization decision identity"

def RepositoryMaterializationCandidate.validate (candidate : RepositoryMaterializationCandidate) :
    Fallible Unit := do
  validateCandidatePayload candidate.toCandidateIdentityProjection
  validateMaterializationIdentity candidate.candidateId "candidate_id"
  let expected ← repositoryMaterializationCandidateId candidate.toCandidateIdentityProjection
  ensure (candidate.candidateId = expected)
    "candidate_id does not match the repository materialization candidate identity"

/-! ### The plan of a candidate -/

/-- The record of a candidate, without an attestation. -/
def candidateRecord (candidate : RepositoryMaterializationCandidate) : OkfRecordFile where
  conceptId := candidate.record.conceptId
  draft := candidate.record.draft
  status := candidate.record.status
  appliesTo := candidate.record.appliesTo
  created := candidate.record.created
  updated := candidate.record.updated
  supersedesId := candidate.record.supersedesId
  retention := candidate.record.retention
  origin := candidate.record.origin
  lineage := candidate.record.lineage
  proposalId := candidate.record.proposalId
  capture := candidate.record.capture
  materialization := none

def repositoryMaterializationCandidateToOkfRecord (candidate : RepositoryMaterializationCandidate) :
    Fallible OkfRecordFile := do
  candidate.validate
  .ok (candidateRecord candidate)

def candidateLifecycleProjection (candidate : RepositoryMaterializationCandidate) :
    CanonicalLifecycleProjection where
  action := some candidate.action
  targetExpectedRevision := candidate.target.map MaterializationTarget.expectedRevision
  counterpartRecordId := candidate.target.map MaterializationTarget.recordId
  counterpartRelationship := candidate.action.counterpartRelationship
  reason := candidate.reason

/-- `build_repository_materialization_plan`. -/
def buildRepositoryMaterializationPlan (candidateId : String)
    (outputs : List MaterializationOutputIntent) : Fallible RepositoryMaterializationPlan := do
  let identity : PlanIdentityProjection := ⟨repositoryMaterializationPlanSchema, candidateId, outputs⟩
  let planId ← repositoryMaterializationPlanId identity
  let plan : RepositoryMaterializationPlan := ⟨identity, planId⟩
  plan.validate
  .ok plan

def repositoryMaterializationCandidatePlan (candidate : RepositoryMaterializationCandidate) :
    Fallible RepositoryMaterializationPlan := do
  candidate.validate
  let record ← repositoryMaterializationCandidateToOkfRecord candidate
  let revision ← canonicalRevisionForProjection
    ⟨canonicalRevisionSchema, record.conceptId, record.semanticContent,
      candidateLifecycleProjection candidate⟩
  buildRepositoryMaterializationPlan candidate.candidateId
    [⟨candidate.outputPath, record.conceptId, candidate.action, candidate.expectedPriorRevision,
      revision, .canonicalRecord⟩]

def repositoryMaterializationPolicy : MaterializationPolicy :=
  ⟨repositoryWriteSafetySchema, repositoryWriteSafetySchema⟩

end Candidates
end Memzoi
