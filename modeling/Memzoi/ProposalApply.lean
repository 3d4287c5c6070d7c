/-
# Applying a proposal: the files it writes

Source: `service/proposal_packets/validation.rs` (`build_file_proposal_apply_plan`,
`load_file_proposal_target`), `service/canonical_write.rs`
(`prepare_canonical_file_write`), `okf.rs` (`project_okf_record`,
`project_okf_create_proposal`, `project_okf_supersede_proposal`,
`render_memory_record`) and `proposals.rs` (`title_to_concept_slug`).

A plan holds one text for each record file it writes. A record that is
superseded or tombstoned is not edited: it is projected to a row, and the row
is rendered. Whether the records may be written at a path, and the digest of a
file, are parameters, as is what the evidence of a capture is cut down to.
-/

import Memzoi.DerivedIndex
import Memzoi.Proposals

namespace Memzoi

open Fallible Retention
open PrivateLifecycle (Digests)
open Text (Unicode)

namespace Okf

/-! ### Records as the index holds them -/

/-- `MemoryRecord`, with its capture. -/
structure ProjectedRecord extends MemoryRecord where
  capture : Option CaptureProvenance
  deriving DecidableEq

class ApplyEnvironment where
  recordsAreSafe : Bool
  isSafePath : String → Bool
  fileDigest : ByteArray → String
  compactEvidence : String → String

/-- `project_okf_record`. -/
def projectOkfRecord [Digests] (record : OkfRecordFile) : ProjectedRecord where
  id := record.conceptId
  memoryType := record.draft.memoryType
  lane := record.draft.lane
  destination := .repo
  scopeKind := record.draft.scopeKind
  scopeId := record.draft.scopeId
  visibility := record.draft.visibility
  title := record.draft.title
  body := record.draft.body
  status := record.status
  confidence := record.draft.confidence
  sourceKind := record.draft.sourceKind
  sourceRef := record.draft.sourceRef
  proposalId := record.proposalId
  capture := record.capture
  contentHash := contentHash record.draft.body
  createdAt := record.created
  updatedAt := record.updated.getD record.created
  supersedesId := record.supersedesId
  retention := record.retention
  origin := record.origin
  lineage := record.lineage

/-! ### Records of a proposal -/

def slugStep (state : List Char × Bool) (c : Char) : List Char × Bool :=
  if c.isAlphanum then (state.1 ++ [c], false)
  else if ¬ state.2 ∧ state.1 ≠ [] then (state.1 ++ [ '-'], true)
  else state

/-- `title_to_concept_slug`. -/
def titleToConceptSlug [Unicode] (title : String) : Option String :=
  let lowered := title.toList.flatMap fun c => (Unicode.lowercase (String.singleton c)).toList
  let slug := (lowered.foldl slugStep ([], false)).1.rdropWhile (· = '-')
  if slug = [] then none else some (String.ofList slug)

/-- `proposal_primary_evidence`. -/
def proposalPrimaryEvidence : List OkfProposalSource → Option String × Option String
  | [] => (none, none)
  | source :: sources =>
    match trimmedOptional source.path, trimmedOptional source.url,
        trimmedOptional source.reference with
    | some path, _, _ => (some "path", some path)
    | none, some url, _ => (some "url", some url)
    | none, none, some reference => (some "ref", some reference)
    | none, none, none => proposalPrimaryEvidence sources

/-- `compact_for_record`. -/
def compactForRecord [ApplyEnvironment] (capture : CaptureProvenance) : CaptureProvenance :=
  { capture with evidence := ApplyEnvironment.compactEvidence capture.evidence }

/-- `project_okf_new_record`. -/
def projectOkfNewRecord [Digests] [Unicode] [ApplyEnvironment] (proposal : OkfProposalFile)
    (supersedesId : Option String) : ProjectedRecord where
  id := (titleToConceptSlug proposal.title).getD
    (String.ofList (proposal.fileId.toList.map fun c => if c = '_' then '-' else c))
  memoryType := proposal.memoryType
  lane := proposal.lane
  destination := .repo
  scopeKind := proposal.scopeKind
  scopeId := proposal.scopeId
  visibility := .repo
  title := Text.trim proposal.title
  body := Text.trim proposal.body
  status := .active
  confidence := 1
  sourceKind := (proposalPrimaryEvidence proposal.sources).1
  sourceRef := (proposalPrimaryEvidence proposal.sources).2
  proposalId := some proposal.id
  capture := proposal.capture.map compactForRecord
  contentHash := contentHash proposal.body
  createdAt := proposal.timestamp
  updatedAt := proposal.timestamp
  supersedesId := supersedesId
  retention := proposal.retention
  origin := proposal.origin
  lineage := proposal.lineage

/-! ### What a proposal may apply -/

def repoApplySensitivityGuidance : Maintenance.OkfProposalSensitivity → String
  | .repoSafe => "repo-safe proposals may be applied after review"
  | .secret => "secret proposals must not become repo-shared memory"
  | .sensitive => "classify or sanitize sensitive content before applying it to the repo plane"
  | .localOnly => "local-only proposals belong in the future local/runtime memory plane"
  | .rawTranscript => "raw transcripts must not become repo-shared memory"
  | .privatePersonalData => "private personal data must not become repo-shared memory"
  | .temporaryState =>
    "temporary task state belongs in local or session memory, not canonical repo memory"
  | .unknown => "classify the proposal sensitivity before applying it to repo records"

def supersedeShape : String :=
  "OKF supersede proposals must include exactly one supersedes target and no proposal.target"

def createShape : String := "OKF create proposals cannot name a target or supersedes record"

/-- `validate_proposal_action_shape`. -/
def validateProposalActionShape (action : OkfProposalAction) (target reason : Option String)
    (supersedes : List String) : Fallible Unit :=
  match action with
  | .create => ensure (target = none ∧ supersedes = []) createShape
  | .supersede => do
    ensure (supersedes.length = 1 ∧ target = none) supersedeShape
    ensure (reason ≠ none) "OKF supersede proposals must include proposal.reason"
  | .tombstone => do
    ensure (target.getD "" ≠ "" ∧ supersedes = [])
      ("OKF tombstone proposals must include exactly one proposal.target and no supersedes " ++
        "records")
    ensure (reason ≠ none) "OKF tombstone proposals must include proposal.reason"

/-- `validate_repo_apply_proposal`. -/
def validateRepoApplyProposal (proposal : OkfProposalFile) : Fallible Unit := do
  ensure (proposal.status = .proposed)
    s!"OKF proposal {proposal.id} must have status proposed before apply"
  ensure (proposal.sensitivity = .repoSafe)
    (s!"OKF proposal sensitivity {sensitivityAsStr proposal.sensitivity} cannot be applied into " ++
      s!"repo records; {repoApplySensitivityGuidance proposal.sensitivity}")
  validateProposalActionShape proposal.proposal.action proposal.proposal.target
    proposal.proposal.reason proposal.supersedes

def requireActionReason (proposal : OkfProposalFile) (action : String) : Fallible Unit :=
  ensure (proposal.proposal.reason.any (fun reason => !Text.isBlank reason) = true)
    s!"OKF {action} proposals must include proposal.reason"

def projectOkfCreateProposal [Digests] [Unicode] [ApplyEnvironment] (proposal : OkfProposalFile) :
    Fallible ProjectedRecord := do
  validateRepoApplyProposal proposal
  ensure (proposal.proposal.action = .create)
    s!"OKF proposal action {proposal.proposal.action.asStr} is not supported by create projection"
  .ok (projectOkfNewRecord proposal none)

def projectOkfSupersedeProposal [Digests] [Unicode] [ApplyEnvironment] (proposal : OkfProposalFile)
    (targetId : String) : Fallible ProjectedRecord := do
  validateRepoApplyProposal proposal
  ensure (proposal.proposal.action = .supersede)
    s!"OKF proposal action {proposal.proposal.action.asStr} is not supported by supersede projection"
  .ok (projectOkfNewRecord proposal (some targetId))

/-! ### Rendering a row -/

/-- The frontmatter of `render_memory_record`. -/
def memoryRecordEntries [Yaml] (record : ProjectedRecord) (tags appliesTo : List String) :
    List Entry :=
  [.scalar "id" record.id.toList, .scalar "kind" "memory".toList,
    .scalar "profile" okfProfile.toList, .scalar "type" record.memoryType.asStr.toList,
    .scalar "lane" record.lane.asStr.toList, .scalar "title" record.title.toList,
    .scalar "description" (firstNonEmptyLine record.body.toList),
    .scalar "timestamp" record.createdAt.toList, .scalar "updated" record.updatedAt.toList,
    .scalar "status" record.status.asStr.toList, .scalar "scope" record.scopeKind.asStr.toList] ++
  scalarIfSome "scope_id" record.scopeId ++
  [.scalar "visibility" record.visibility.asStr.toList,
    .scalar "content_class" (contentClassAsStr .generalRepoKnowledge).toList,
    .raw "confidence" (Yaml.confidence record.confidence)] ++
  scalarIfSome "source" record.sourceKind ++
  scalarIfSome "source_ref" record.sourceRef ++
  scalarIfSome "proposal_id" record.proposalId ++
  (record.capture.map fun capture => .block "capture" (Yaml.capture capture)).toList ++
  listIfAny "tags" tags ++
  listIfAny "applies_to" appliesTo ++
  scalarIfSome "supersedes" record.supersedesId ++
  [.block "retention" (Yaml.retention record.retention),
    .block "origin" (Yaml.origin record.origin)] ++
  (record.lineage.map fun lineage => .block "lineage" (Yaml.lineage lineage)).toList

/-- `render_memory_record`. -/
def renderMemoryRecord [Yaml] (record : ProjectedRecord) (tags appliesTo : List String) :
    List Char :=
  "---\n".toList ++ (memoryRecordEntries record tags appliesTo).flatMap Entry.text ++
    "---\n\n".toList ++ "# ".toList ++ record.title.toList ++ "\n\n".toList ++
    Text.trimChars record.body.toList ++ [ '\n']

/-! ### Writes -/

inductive FileWriteMode where
  | createNew | overwrite
  deriving DecidableEq, Repr

/-- `CanonicalFileWrite`; the path is below the records. -/
structure CanonicalFileWrite where
  recordFile : OkfRecordFile
  path : String
  markdown : String
  mode : FileWriteMode
  expectedExistingHash : Option String

structure FileProposalApplyPlan where
  record : ProjectedRecord
  recordPath : String
  writes : List CanonicalFileWrite
  targetId : Option String

section Plan

variable [Yaml] [MaterializationDigests] [Digests] [Unicode] [ApplyEnvironment]

omit [Yaml] [MaterializationDigests] [Digests] [Unicode] in
/-- The file a write finds: none when it creates one. -/
def captureExisting (files : RecordFiles) (path : String) : FileWriteMode → Fallible (Option String)
  | .createNew => do
    ensure (files.get? path = none) s!"canonical memory record already exists: {path}"
    .ok none
  | .overwrite => do
    let blob ← require (files.get? path) s!"canonical memory record must be a regular file: {path}"
    .ok (some (ApplyEnvironment.fileDigest blob.bytes))

omit [Digests] [Unicode] in
/-- `prepare_canonical_file_write`: what is rendered is read again. -/
def prepareCanonicalFileWrite (files : RecordFiles) (record : ProjectedRecord)
    (tags appliesTo : List String) (mode : FileWriteMode) : Fallible CanonicalFileWrite := do
  let path := record.id ++ ".md"
  ensure (ApplyEnvironment.isSafePath path = true)
    s!"failed to inspect canonical memory record {path}"
  let expectedExistingHash ← captureExisting files path mode
  let markdown := String.ofList (renderMemoryRecord record tags appliesTo)
  let parsed ← parseOkfRecordMarkdown path markdown
  let recordFile ← require parsed "projected canonical record was ignored"
  .ok { recordFile, path, markdown, mode, expectedExistingHash }

/-! ### The target -/

omit [Yaml] [MaterializationDigests] [Digests] [Unicode] [ApplyEnvironment] in
/-- A date without a time of day, at midnight. -/
def parseDate (value : String) : Option OffsetDateTime := do
  let (date, rest) ← Rfc3339.takeDate value.toList
  let civil : Calendar.CivilDate := ⟨date.year, date.month, date.day⟩
  if rest = [] ∧ civil.valid then
    some ⟨Calendar.daysFromCivil civil * OffsetDateTime.nanosPerDay, 0⟩
  else none

omit [Yaml] [MaterializationDigests] [Digests] [Unicode] [ApplyEnvironment] in
/-- `parse_orderable_timestamp`. -/
def parseOrderableTimestamp (value label : String) : Fallible OffsetDateTime :=
  require ((Rfc3339.parse value).or (if value.utf8ByteSize = 10 then parseDate value else none))
    s!"{label} must be an RFC 3339 timestamp or YYYY-MM-DD date: {Text.debugQuote value}"

omit [Digests] [Unicode] in
/-- `load_file_proposal_target`. -/
def loadFileProposalTarget (files : RecordFiles) (proposal : OkfProposalFile)
    (targetId evaluatedAt : String) : Fallible OkfRecordFile := do
  ensure (ApplyEnvironment.recordsAreSafe = true) "canonical record root is unsafe"
  let snapshots ← readOkfRecordSnapshots files
  let target ← require ((snapshots.map RecordSnapshot.record).find? fun record =>
      record.conceptId = targetId)
    s!"proposal target does not exist: {targetId}"
  let evaluatedAt ← require (Rfc3339.parse evaluatedAt)
    "proposal target evaluation timestamp is invalid"
  let decision ← evaluateCurrentAssertion target.conceptId target.status target.draft.lane
    target.retention evaluatedAt []
  ensure (decision.isCurrent = true) s!"proposal target {targetId} is not a current assertion"
  ensure (target.draft.scopeKind = proposal.scopeKind ∧ target.draft.scopeId = proposal.scopeId)
    (s!"proposal target {targetId} is cross-scope: target={target.draft.scopeKind.asStr}:" ++
      target.draft.scopeId.getD "-" ++ s!", proposal={proposal.scopeKind.asStr}:" ++
      proposal.scopeId.getD "-")
  let targetUpdated := target.updated.getD target.created
  let updated ← parseOrderableTimestamp targetUpdated "target updated"
  let proposed ← parseOrderableTimestamp proposal.proposal.proposedAt "proposal.proposed_at"
  ensure (updated.utc ≤ proposed.utc)
    (s!"proposal target {targetId} is stale: target updated at {targetUpdated} after proposal at " ++
      proposal.proposal.proposedAt)
  .ok target

/-! ### Plans -/

omit [Unicode] in
/-- The write of a target that changes its status: the record is projected and rendered. -/
def prepareTargetWrite (files : RecordFiles) (target : OkfRecordFile) (status : MemoryStatus)
    (resolvedAt : String) : Fallible CanonicalFileWrite :=
  prepareCanonicalFileWrite files
    { projectOkfRecord target with status := status, updatedAt := resolvedAt }
    target.draft.tags target.appliesTo .overwrite

def planCreate (files : RecordFiles) (proposal : OkfProposalFile) :
    Fallible FileProposalApplyPlan := do
  ensure (proposal.proposal.target = none ∧ proposal.supersedes = []) createShape
  let record ← projectOkfCreateProposal proposal
  let write ← prepareCanonicalFileWrite files record proposal.tags proposal.appliesTo .createNew
  .ok { record, recordPath := write.path, writes := [write], targetId := none }

def planSupersede (files : RecordFiles) (proposal : OkfProposalFile) (resolvedAt : String) :
    Fallible FileProposalApplyPlan := do
  requireActionReason proposal "supersede"
  ensure (proposal.supersedes.length = 1 ∧ proposal.proposal.target = none) supersedeShape
  let targetId := proposal.supersedes.headD ""
  let target ← loadFileProposalTarget files proposal targetId resolvedAt
  let replacement ← projectOkfSupersedeProposal proposal targetId
  ensure (replacement.id ≠ targetId)
    (s!"supersede replacement record id {replacement.id} collides with its target; use a " ++
      "distinct title or proposal file id")
  let previousWrite ← prepareTargetWrite files target .superseded resolvedAt
  let replacementWrite ← prepareCanonicalFileWrite files replacement proposal.tags
    proposal.appliesTo .createNew
  .ok {
    record := replacement
    recordPath := replacementWrite.path
    writes := [previousWrite, replacementWrite]
    targetId := some targetId }

omit [Unicode] in
def planTombstone (files : RecordFiles) (proposal : OkfProposalFile) (resolvedAt : String) :
    Fallible FileProposalApplyPlan := do
  requireActionReason proposal "tombstone"
  ensure (proposal.supersedes = []) "OKF tombstone proposals cannot include supersedes records"
  let targetId ← require proposal.proposal.target
    "OKF tombstone proposals must include exactly one proposal.target"
  let target ← loadFileProposalTarget files proposal targetId resolvedAt
  let write ← prepareTargetWrite files target .tombstoned resolvedAt
  .ok {
    record := { projectOkfRecord target with status := .tombstoned, updatedAt := resolvedAt }
    recordPath := write.path
    writes := [write]
    targetId := some targetId }

/-- `build_file_proposal_apply_plan`. -/
def buildFileProposalApplyPlan (files : RecordFiles) (proposal : OkfProposalFile)
    (resolvedAt : String) : Fallible FileProposalApplyPlan := do
  validateRepoApplyProposal proposal
  match proposal.proposal.action with
  | .create => planCreate files proposal
  | .supersede => planSupersede files proposal resolvedAt
  | .tombstone => planTombstone files proposal resolvedAt

end Plan

end Okf
end Memzoi
