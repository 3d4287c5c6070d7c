/-
# The repository write policy

Source: `repository_write_safety/policy.rs` (`evaluate`),
`repository_write_safety/diagnostics.rs`, `repository_write_safety/detectors.rs`
(`scan_value`) and `repository_write_safety/mod.rs`
(`authorize_repository_write`, `authorizes`).

A request is allowed when the assessment finds nothing; then a batch is minted
with the digests of what was assessed. The detectors that rest on regular
expressions, a URL parser and an entropy estimate are parameters.
-/

import Memzoi.RepositoryWriteSafety.Request
import Mathlib

namespace Memzoi
namespace RepositoryWriteSafety

open Fallible PrefixCode
open Okf (sensitivityAsStr)

inductive RepositoryWriteSafetyReasonCode where
  | destinationNotRepo | sensitivityNotRepoSafe | scopeNotRepository | scopeProjectMismatch
  | visibilityNotRepositorySafe | authorizationMissing | provenanceMissing | evidenceInvalid
  | staleSafetyDecision | credentialToken | privateKey | authorizationHeader | credentialedUrl
  | connectionString | sessionToken | cloudCredential | environmentSecret | highEntropyValue
  | rawTranscript | privatePersonalData | activityHistory | privateEndpoint
  | undisclosedVulnerability | privateEvidenceUnminimized | temporaryTaskState | localOnlyState
  | unknownContentClass | invalidEncoding | candidateTooLarge | unsafeOutputPath
  deriving DecidableEq, Repr

def RepositoryWriteSafetyReasonCode.asStr : RepositoryWriteSafetyReasonCode → String
  | destinationNotRepo => "destination_not_repo"
  | sensitivityNotRepoSafe => "sensitivity_not_repo_safe"
  | scopeNotRepository => "scope_not_repository"
  | scopeProjectMismatch => "scope_project_mismatch"
  | visibilityNotRepositorySafe => "visibility_not_repository_safe"
  | authorizationMissing => "authorization_missing"
  | provenanceMissing => "provenance_missing"
  | evidenceInvalid => "evidence_invalid"
  | staleSafetyDecision => "stale_safety_decision"
  | credentialToken => "credential_token"
  | privateKey => "private_key"
  | authorizationHeader => "authorization_header"
  | credentialedUrl => "credentialed_url"
  | connectionString => "connection_string"
  | sessionToken => "session_token"
  | cloudCredential => "cloud_credential"
  | environmentSecret => "environment_secret"
  | highEntropyValue => "high_entropy_value"
  | rawTranscript => "raw_transcript"
  | privatePersonalData => "private_personal_data"
  | activityHistory => "activity_history"
  | privateEndpoint => "private_endpoint"
  | undisclosedVulnerability => "undisclosed_vulnerability"
  | privateEvidenceUnminimized => "private_evidence_unminimized"
  | temporaryTaskState => "temporary_task_state"
  | localOnlyState => "local_only_state"
  | unknownContentClass => "unknown_content_class"
  | invalidEncoding => "invalid_encoding"
  | candidateTooLarge => "candidate_too_large"
  | unsafeOutputPath => "unsafe_output_path"

structure RepositoryWriteSafetyFinding where
  code : RepositoryWriteSafetyReasonCode
  field : String
  detector : String
  fingerprint : String
  deriving DecidableEq, Repr

structure RepositoryWriteSafetyReport where
  schema : String
  route : RepositoryWriteRoute
  allowed : Bool
  candidateFingerprint : String
  findings : List RepositoryWriteSafetyFinding
  deriving DecidableEq, Repr

/-! ### Detectors -/

/-- A regular expression of the table by its name, `contains_credentialed_url` and
`contains_high_entropy_token`, on a text. -/
class Detectors where
  isMatch : String → String → Bool
  containsCredentialedUrl : String → Bool
  containsHighEntropyToken : String → Bool

def patterns : List (String × RepositoryWriteSafetyReasonCode) :=
  [("private_key", .privateKey),
    ("authorization_header", .authorizationHeader),
    ("known_credential_prefix", .credentialToken),
    ("jwt", .sessionToken),
    ("cookie_or_session", .sessionToken),
    ("connection_string", .connectionString),
    ("environment_secret", .environmentSecret),
    ("cloud_service_account", .cloudCredential)]

def maxFieldBytes : Nat := 512 * 1024
def maxAggregateBytes : Nat := 2 * 1024 * 1024

section Evaluation

variable [Blake3]

/-- `push_finding`. -/
def finding (code : RepositoryWriteSafetyReasonCode) (field detector : String)
    (value : List UInt8) : RepositoryWriteSafetyFinding :=
  ⟨code, field, detector, findingFingerprint code.asStr field value⟩

/-- The finding where the condition holds. -/
def findingIf (condition : Bool) (code : RepositoryWriteSafetyReasonCode) (field detector : String)
    (value : List UInt8) : List RepositoryWriteSafetyFinding :=
  if condition then [finding code field detector value] else []

def scanValue [Detectors] (location : String) (kind : SafetyFieldKind) (value : List UInt8) :
    List RepositoryWriteSafetyFinding :=
  match String.fromUTF8? ⟨value.toArray⟩ with
  | none => [finding .invalidEncoding location "utf8" value]
  | some text =>
    (patterns.flatMap fun detector =>
      findingIf (Detectors.isMatch detector.1 text) detector.2 location detector.1 value) ++
    findingIf (Detectors.containsCredentialedUrl text) .credentialedUrl location "credentialed_url"
      value ++
    findingIf (!kind.entropyExempt && Detectors.containsHighEntropyToken text) .highEntropyValue
      location "bounded_entropy" value

/-- `projection_path_is_safe`: not empty, relative, and of plain components; the parser of paths
drops a dot that is not in front. -/
def projectionPathIsSafe (path : List UInt8) : Bool :=
  let slash : UInt8 := 47
  let dot : UInt8 := 46
  let pieces := path.splitOn slash
  path ≠ [] && path.head? ≠ some slash && pieces.head? ≠ some [dot] &&
    pieces.all (· ≠ [dot, dot])

/-- The reason a content class is blocked for. -/
def contentClassReason : Maintenance.RepositoryContentClass →
    Option RepositoryWriteSafetyReasonCode
  | .generalRepoKnowledge => none
  | .rawTranscript => some .rawTranscript
  | .privatePersonalData => some .privatePersonalData
  | .screenOrActivityHistory => some .activityHistory
  | .privateEndpoint => some .privateEndpoint
  | .undisclosedVulnerability => some .undisclosedVulnerability
  | .unminimizedPrivateEvidence => some .privateEvidenceUnminimized
  | .temporaryTaskState => some .temporaryTaskState
  | .localOnlyState => some .localOnlyState
  | .unknown => some .unknownContentClass

def scopeFindings (scope : RepositoryScope) : List RepositoryWriteSafetyFinding :=
  match scope.kind with
  | .repo => []
  | .project =>
    findingIf (scope.id.isNone || scope.configuredProjectId.isNone ||
        scope.id ≠ scope.configuredProjectId) .scopeProjectMismatch "scope" "metadata"
      (textBytes (scope.id.elim "<missing>" (·.text)))
  | kind => [finding .scopeNotRepository "scope" "metadata" (textBytes kind.asStr)]

def fieldFindings [Detectors] (field : SafetyField) : List RepositoryWriteSafetyFinding :=
  let size := field.value.items.length
  if maxFieldBytes < size then
    [finding .candidateTooLarge field.location.text "size_limit" (littleEndian 8 size)]
  else scanValue field.location.text field.kind field.value.items

def projectionFindings [Detectors] (projection : RepositoryProjection) (index : Nat) :
    List RepositoryWriteSafetyFinding :=
  let location := s!"projection[{index}]"
  let path := projection.path.items
  let size := projection.bytes.items.length
  let isWrite := projection.purpose = .write
  findingIf (!projectionPathIsSafe path) .unsafeOutputPath (location ++ ".path") "path_policy" path ++
    (if isWrite then scanValue (location ++ ".path") .path path else []) ++
    (if maxFieldBytes < size then
      [finding .candidateTooLarge (location ++ ".bytes") "size_limit" (littleEndian 8 size)]
    else if isWrite then
      scanValue (location ++ ".bytes") .renderedProjection projection.bytes.items
    else [])

/-- The findings of an assessment, in the order they are made. -/
def assess [Detectors] (request : RepositoryWriteRequest) : List RepositoryWriteSafetyFinding :=
  let aggregateSize := (request.fields.items.map (·.value.items.length)).sum +
    (request.projections.items.map (·.bytes.items.length)).sum
  findingIf (request.destination ≠ .repo) .destinationNotRepo "destination" "metadata"
      (textBytes (destinationAsStr request.destination)) ++
    findingIf (request.sensitivity ≠ .repoSafe) .sensitivityNotRepoSafe "sensitivity" "metadata"
      (textBytes (sensitivityAsStr request.sensitivity)) ++
    scopeFindings request.scope ++
    findingIf (request.visibility ≠ .repo && request.visibility ≠ .«public»)
      .visibilityNotRepositorySafe "visibility" "metadata" (textBytes request.visibility.asStr) ++
    findingIf (!request.authorization.isPresent) .authorizationMissing "authorization" "metadata"
      (textBytes "missing") ++
    findingIf (!request.provenance.present) .provenanceMissing "provenance" "metadata"
      (textBytes "missing") ++
    findingIf (!request.provenance.evidenceValid) .evidenceInvalid "provenance.evidence" "metadata"
      (textBytes "invalid") ++
    (contentClassReason request.provenance.contentClass).toList.map (fun code =>
      finding code "provenance.content_class" "contextual_policy" (textBytes "blocked")) ++
    request.freshness.items.flatMap (fun check =>
      findingIf (check.expected ≠ check.current) .staleSafetyDecision check.name.text "freshness"
        (textBytes check.current.text)) ++
    findingIf (maxAggregateBytes < aggregateSize) .candidateTooLarge "candidate" "size_limit"
      (littleEndian 8 aggregateSize) ++
    request.fields.items.flatMap fieldFindings ++
    request.projections.items.zipIdx.flatMap fun projection =>
      projectionFindings projection.1 projection.2

omit [Blake3] in
/-- The order of a report. -/
def findingLe (a b : RepositoryWriteSafetyFinding) : Bool :=
  let key (f : RepositoryWriteSafetyFinding) := (f.field, f.code.asStr, f.detector, f.fingerprint)
  let (field, code, detector, fingerprint) := key a
  let (field', code', detector', fingerprint') := key b
  field < field' || (field = field' && (code < code' || (code = code' &&
    (detector < detector' || (detector = detector' && fingerprint ≤ fingerprint')))))

/-- `RepositoryWriteSafetyReport::new` on the findings of the assessment. -/
def evaluate [Detectors] (request : RepositoryWriteRequest) : RepositoryWriteSafetyReport :=
  let findings := ((assess request).insertionSort fun a b => findingLe a b).destutter (· ≠ ·)
  { schema := "memzoi/repository-write-safety"
    route := request.route
    allowed := findings.isEmpty
    candidateFingerprint := candidateFingerprint request
    findings := findings }

/-! ### Authorization -/

/-- The capability to write exactly what was assessed. -/
structure AuthorizedRepositoryWriteBatch where
  route : RepositoryWriteRoute
  projectDigest : Digest
  policyContextDigest : Digest
  authorizationDigest : Digest
  projectionDigest : Digest
  deriving DecidableEq

/-- The batch of an allowed request, or the report that blocks it. -/
def authorizeRepositoryWrite [Detectors] (request : RepositoryWriteRequest) :
    Fallible (Except RepositoryWriteSafetyReport AuthorizedRepositoryWriteBatch) :=
  let report := evaluate request
  if report.allowed then do
    let projectionDigest := projectionDigest request.projections
    let projectDigest := projectDigest request.scope.currentProjectIdentity
    let policyContextDigest ← policyContextDigest request
    .ok (.ok {
      route := request.route
      projectDigest := projectDigest
      policyContextDigest := policyContextDigest
      authorizationDigest := authorizationDigest projectDigest policyContextDigest projectionDigest
      projectionDigest := projectionDigest })
  else .ok (.error report)

def AuthorizedRepositoryWriteBatch.authorizes (batch : AuthorizedRepositoryWriteBatch)
    (expectedRoute : RepositoryWriteRoute) (projectIdentity : Slice UInt8)
    (expectedPolicyContextDigest : Digest) (projections : Slice RepositoryProjection) : Bool :=
  batch.route = expectedRoute &&
    batch.projectDigest = RepositoryWriteSafety.projectDigest projectIdentity &&
    batch.policyContextDigest = expectedPolicyContextDigest &&
    batch.projectionDigest = RepositoryWriteSafety.projectionDigest projections &&
    batch.authorizationDigest = RepositoryWriteSafety.authorizationDigest batch.projectDigest
      batch.policyContextDigest batch.projectionDigest

/-- A request is allowed exactly when its assessment finds nothing. -/
theorem evaluate_allowed_iff [Detectors] {request : RepositoryWriteRequest} :
    (evaluate request).allowed = true ↔ assess request = [] := by
  rw [evaluate, List.isEmpty_iff, List.destutter_eq_nil, ← List.length_eq_zero_iff,
    List.length_insertionSort, List.length_eq_zero_iff]

end Evaluation

end RepositoryWriteSafety
end Memzoi
