/-
# Proposal packets: the text of a proposal

Source: `okf.rs` (`OkfProposalFile`, `render_okf_create_proposal_markdown`,
`plan_okf_create_proposal`, `parse_okf_proposal_markdown`,
`render_resolved_okf_proposal_markdown` and the functions under them).

A packet is written twice: as the plan of a draft, and once more when it is
resolved. Both writers fill one frontmatter, print it with the YAML library,
and put the title and the body under it; what only one of them has is optional
here, as the library leaves it out there. The reader is the same for both. What
the library prints and reads is a parameter.
-/

import Memzoi.OkfMarkdown

namespace Memzoi

open Fallible Retention
open Maintenance (OkfProposalSensitivity RepositoryContentClass)

namespace Okf

/-! ### Packets -/

inductive OkfProposalAction where
  | create | supersede | tombstone
  deriving DecidableEq, Repr

inductive OkfProposalStatus where
  | proposed | applied | rejected
  deriving DecidableEq, Repr

inductive OkfProposalOutcome where
  | applied | rejected
  deriving DecidableEq, Repr

structure OkfProposalSource where
  path : Option String
  url : Option String
  reference : Option String
  deriving DecidableEq, Repr

structure OkfProposalResolution where
  outcome : OkfProposalOutcome
  resolvedBy : String
  resolvedAt : String
  reason : Option String
  recordId : Option String
  targetId : Option String
  deriving DecidableEq, Repr

structure OkfProposalMetadata where
  action : OkfProposalAction
  proposedBy : String
  proposedAt : String
  reason : Option String
  confidence : Option String
  target : Option String
  deriving DecidableEq, Repr

structure OkfProposalFile where
  fileId : String
  id : String
  kind : Option String
  profile : String
  memoryType : MemoryType
  lane : MemoryLane
  title : String
  description : String
  body : String
  status : OkfProposalStatus
  proposal : OkfProposalMetadata
  scopeKind : ScopeKind
  scopeId : Option String
  appliesTo : List String
  tags : List String
  timestamp : String
  createdBy : Option String
  sources : List OkfProposalSource
  supersedes : List String
  sensitivity : OkfProposalSensitivity
  contentClass : RepositoryContentClass
  resolution : Option OkfProposalResolution
  capture : Option CaptureProvenance
  retention : RetentionFacts
  origin : OriginDescriptor
  lineage : Option RecordLineage
  deriving DecidableEq, Repr

structure OkfCreateProposalDraft where
  proposalId : String
  memoryType : MemoryType
  lane : MemoryLane
  title : String
  body : String
  actor : String
  timestamp : String
  reason : Option String
  scopeKind : ScopeKind
  scopeId : Option String
  appliesTo : List String
  tags : List String
  sources : List OkfProposalSource
  sensitivity : OkfProposalSensitivity
  contentClass : RepositoryContentClass
  capture : Option CaptureProvenance
  retention : RetentionFacts
  origin : OriginDescriptor
  lineage : Option RecordLineage
  deriving DecidableEq, Repr

/-! ### Texts of the enumerations -/

def OkfProposalAction.asStr : OkfProposalAction → String
  | create => "create"
  | supersede => "supersede"
  | tombstone => "tombstone"

def OkfProposalStatus.asStr : OkfProposalStatus → String
  | proposed => "proposed"
  | applied => "applied"
  | rejected => "rejected"

def OkfProposalOutcome.asStr : OkfProposalOutcome → String
  | applied => "applied"
  | rejected => "rejected"

def sensitivityAsStr : OkfProposalSensitivity → String
  | .repoSafe => "repo-safe"
  | .localOnly => "local-only"
  | .sensitive => "sensitive"
  | .secret => "secret"
  | .rawTranscript => "raw-transcript"
  | .privatePersonalData => "private-personal-data"
  | .temporaryState => "temporary-state"
  | .unknown => "unknown"

def parseProposalAction : String → Fallible OkfProposalAction
  | "create" => .ok .create
  | "supersede" => .ok .supersede
  | "tombstone" => .ok .tombstone
  | other => bail s!"unknown OKF proposal action {Text.debugQuote other}"

def parseProposalStatus : String → Fallible OkfProposalStatus
  | "proposed" => .ok .proposed
  | "applied" => .ok .applied
  | "rejected" => .ok .rejected
  | other => bail s!"unknown OKF proposal status {Text.debugQuote other}"

def parseProposalOutcome : String → Fallible OkfProposalOutcome
  | "applied" => .ok .applied
  | "rejected" => .ok .rejected
  | other => bail s!"unknown OKF proposal outcome {Text.debugQuote other}"

def parseSensitivity : String → Fallible OkfProposalSensitivity
  | "repo-safe" => .ok .repoSafe
  | "local-only" => .ok .localOnly
  | "sensitive" => .ok .sensitive
  | "secret" => .ok .secret
  | "raw-transcript" => .ok .rawTranscript
  | "private-personal-data" => .ok .privatePersonalData
  | "temporary-state" => .ok .temporaryState
  | "unknown" => .ok .unknown
  | other => bail s!"unknown OKF proposal sensitivity {Text.debugQuote other}"

/-! ### Frontmatters -/

structure OkfProposalMetadataFrontmatter where
  action : Option String
  proposedBy : Option String
  proposedAt : Option String
  reason : Option String
  confidence : Option String
  target : Option String
  deriving DecidableEq, Repr

structure OkfProposalScopeFrontmatter where
  kind : Option String
  id : Option String
  paths : Option (List String)
  deriving DecidableEq, Repr

structure OkfProposalResolutionFrontmatter where
  outcome : Option String
  resolvedBy : Option String
  resolvedAt : Option String
  reason : Option String
  recordId : Option String
  targetId : Option String
  deriving DecidableEq, Repr

/-- The frontmatter as the library reads it: every field may be missing. -/
structure OkfProposalFrontmatter where
  id : Option String
  kind : Option String
  profile : Option String
  memoryType : Option String
  lane : Option String
  title : Option String
  description : Option String
  status : Option String
  proposal : Option OkfProposalMetadataFrontmatter
  scope : Option OkfProposalScopeFrontmatter
  tags : Option (List String)
  timestamp : Option String
  createdBy : Option String
  sources : Option (List OkfProposalSource)
  supersedes : Option (List String)
  sensitivity : Option String
  contentClass : Option String
  resolution : Option OkfProposalResolutionFrontmatter
  capture : Option CaptureProvenance
  retention : Option RetentionFacts
  origin : Option OriginDescriptor
  lineage : Option RecordLineage
  deriving DecidableEq, Repr

/-- `OkfCreateProposalFrontmatter` and `OkfResolvedProposalFrontmatter`; an absent value and an
empty list of tags, paths or sources are left out of the text. -/
structure OkfWrittenFrontmatter where
  id : String
  kind : Option String
  profile : String
  memoryType : MemoryType
  lane : MemoryLane
  title : String
  description : String
  status : OkfProposalStatus
  proposal : OkfProposalMetadata
  scopeKind : ScopeKind
  scopeId : Option String
  scopePaths : List String
  tags : List String
  timestamp : String
  createdBy : Option String
  sources : List OkfProposalSource
  supersedes : List String
  sensitivity : OkfProposalSensitivity
  contentClass : RepositoryContentClass
  resolution : Option OkfProposalResolution
  capture : Option CaptureProvenance
  retention : RetentionFacts
  origin : OriginDescriptor
  lineage : Option RecordLineage
  deriving DecidableEq, Repr

def OkfProposalMetadata.asRead (m : OkfProposalMetadata) : OkfProposalMetadataFrontmatter where
  action := some m.action.asStr
  proposedBy := some m.proposedBy
  proposedAt := some m.proposedAt
  reason := m.reason
  confidence := m.confidence
  target := m.target

def OkfProposalResolution.asRead (r : OkfProposalResolution) : OkfProposalResolutionFrontmatter where
  outcome := some r.outcome.asStr
  resolvedBy := some r.resolvedBy
  resolvedAt := some r.resolvedAt
  reason := r.reason
  recordId := r.recordId
  targetId := r.targetId

/-- What a written frontmatter holds, field by field, for a reader. -/
def OkfWrittenFrontmatter.asRead (w : OkfWrittenFrontmatter) : OkfProposalFrontmatter where
  id := some w.id
  kind := w.kind
  profile := some w.profile
  memoryType := some w.memoryType.asStr
  lane := some w.lane.asStr
  title := some w.title
  description := some w.description
  status := some w.status.asStr
  proposal := some w.proposal.asRead
  scope := some ⟨some w.scopeKind.asStr, w.scopeId, someIfAny w.scopePaths⟩
  tags := someIfAny w.tags
  timestamp := some w.timestamp
  createdBy := w.createdBy
  sources := someIfAny w.sources
  supersedes := some w.supersedes
  sensitivity := some (sensitivityAsStr w.sensitivity)
  contentClass := some (contentClassAsStr w.contentClass)
  resolution := w.resolution.map (·.asRead)
  capture := w.capture
  retention := some w.retention
  origin := some w.origin
  lineage := w.lineage

/-- `serde_yaml::to_string` of a frontmatter and `serde_yaml::from_str` of its text. -/
class ProposalYaml where
  write : OkfWrittenFrontmatter → List Char
  read : List Char → Except String OkfProposalFrontmatter

/-! ### Reading -/

/-- `raw_proposal_file_id`: the path below the proposals without its extension. -/
def rawProposalFileId (path : String) : Fallible String := do
  let stem ← require (((path.toList.reverse.dropPrefix? ".md".toList.reverse).map List.reverse).filter
      fun stem => (stem.splitOn '/').getLast? ≠ some [])
    "OKF proposal files must use .md extension"
  ensure ((stem.splitOn '/').all (· ≠ [ '.', '.']) = true)
    "OKF proposal path contains unsafe component"
  .ok (String.ofList stem)

def proposalFileId (path : String) : Fallible String := do
  let fileId ← rawProposalFileId path
  validateProposalIdentifier fileId
  .ok fileId

def parseProposalScope (scope : Option OkfProposalScopeFrontmatter) :
    Fallible (ScopeKind × Option String × List String) := do
  let scope ← require scope "OKF proposal frontmatter missing required field scope"
  let scopeKind ← parseRequiredEnum parseScopeKind scope.kind "scope.kind"
  let scopeId ← optionalString scope.id "scope.id"
  let appliesTo ← validateAppliesTo (scope.paths.getD [])
  .ok (scopeKind, scopeId, appliesTo)

def validateStringList (values : List String) (key : String) : Fallible (List String) :=
  mapAll (fun value => do
    let trimmed := Text.trim value
    ensure (trimmed ≠ "") s!"OKF frontmatter field {key} cannot contain empty entries"
    .ok trimmed) values

def parseProposalMetadata (metadata : Option OkfProposalMetadataFrontmatter) :
    Fallible OkfProposalMetadata := do
  let metadata ← require metadata "OKF proposal frontmatter missing required field proposal"
  let action ← parseRequiredEnum parseProposalAction metadata.action "proposal.action"
  let proposedBy ← requiredString metadata.proposedBy "proposal.proposed_by"
  let proposedAt ← requiredString metadata.proposedAt "proposal.proposed_at"
  ensureTimestampish proposedAt "proposal.proposed_at"
  let reason ← optionalString metadata.reason "proposal.reason"
  let confidence ← optionalString metadata.confidence "proposal.confidence"
  let target ← optionalString metadata.target "proposal.target"
  .ok ⟨action, proposedBy, proposedAt, reason, confidence, target⟩

def isFilled (value : Option String) : Bool := value.any fun text => !Text.isBlank text

def validateProposalSource (source : OkfProposalSource) : Fallible Unit := do
  ensure ((isFilled source.path || isFilled source.url || isFilled source.reference) = true)
    "proposal sources must include a non-empty path, url, or ref"
  validateIfSome (fun path => do
    let _ ← withContext s!"invalid proposal source path {Text.debugQuote path}"
      (validateAppliesTo [path])
    .ok ()) source.path
  ensure (source.url.all (Text.isBlank · = false) = true) "proposal source url cannot be empty"
  ensure (source.reference.all (Text.isBlank · = false) = true)
    "proposal source ref cannot be empty"

/-- `validate_proposal_sources`, which gives the sources back as they are. -/
def validateProposalSources (sources : List OkfProposalSource) : Fallible Unit :=
  checkAll validateProposalSource sources

def parseProposalResolution (resolution : Option OkfProposalResolutionFrontmatter) :
    Fallible (Option OkfProposalResolution) :=
  match resolution with
  | none => .ok none
  | some resolution => do
    let outcome ← parseRequiredEnum parseProposalOutcome resolution.outcome "resolution.outcome"
    let resolvedBy ← requiredString resolution.resolvedBy "resolution.resolved_by"
    let resolvedAt ← requiredString resolution.resolvedAt "resolution.resolved_at"
    ensureTimestampish resolvedAt "resolution.resolved_at"
    let reason ← optionalString resolution.reason "resolution.reason"
    let recordId ← optionalString resolution.recordId "resolution.record_id"
    let targetId ← optionalString resolution.targetId "resolution.target_id"
    .ok (some ⟨outcome, resolvedBy, resolvedAt, reason, recordId, targetId⟩)

def validateProposalResolution :
    OkfProposalStatus → Option OkfProposalResolution → Fallible Unit
  | .proposed, none => .ok ()
  | .proposed, some _ => bail "proposed OKF packets cannot include a resolution"
  | .applied, some resolution =>
    ensure (resolution.outcome = .applied ∧ resolution.recordId.isSome)
      "applied OKF packets require an applied outcome and record_id"
  | .rejected, some resolution =>
    ensure (resolution.outcome = .rejected ∧ resolution.reason.isSome ∧ resolution.recordId = none)
      "rejected OKF packets require a rejected outcome and reason without record_id"
  | .applied, none | .rejected, none =>
    bail "resolved OKF packets must include resolution metadata"

/-- The proposal a frontmatter and a body stand for. -/
def proposalOfFrontmatter (fileId : String) (f : OkfProposalFrontmatter) (body : List Char) :
    Fallible OkfProposalFile := do
  let id ← requiredString f.id "id"
  validateProposalIdentifier id
  validateSchemaIdentity (some id) f.kind f.profile "proposal"
  let title ← requiredString f.title "title"
  let description ← requiredString f.description "description"
  let memoryType ← parseRequiredEnum parseMemoryType f.memoryType "type"
  let lane ← parseRequiredEnum parseMemoryLane f.lane "lane"
  let status ← parseRequiredEnum parseProposalStatus f.status "status"
  let timestamp ← requiredString f.timestamp "timestamp"
  ensureTimestampish timestamp "timestamp"
  let sensitivity ← parseRequiredEnum parseSensitivity f.sensitivity "sensitivity"
  let (scopeKind, scopeId, appliesTo) ← parseProposalScope f.scope
  let supersedes ← validateStringList (f.supersedes.getD []) "supersedes"
  let proposal ← parseProposalMetadata f.proposal
  validateProposalSources (f.sources.getD [])
  let resolution ← parseProposalResolution f.resolution
  validateProposalResolution status resolution
  let retention ← require f.retention
    s!"record {id} retention is required by the current OKF proposal profile"
  validateRetentionFacts id lane retention timestamp
  let origin ← require f.origin
    s!"record {id} origin is required by the current OKF proposal profile"
  withContext s!"record {id} has invalid origin descriptor" (Origin.validateDescriptor origin)
  validateRecordLineage id f.lineage
  let body ← bodyWithoutMatchingH1 body title.toList
  ensure (Text.trimChars body ≠ []) "OKF proposal body cannot be empty"
  let contentClass ← parseRequiredEnum parseContentClass f.contentClass "content_class"
  .ok {
    fileId, id
    kind := f.kind
    profile := okfProfile
    memoryType, lane, title, description
    body := String.ofList body
    status, proposal, scopeKind, scopeId, appliesTo
    tags := f.tags.getD []
    timestamp
    createdBy := f.createdBy
    sources := f.sources.getD []
    supersedes, sensitivity, contentClass, resolution
    capture := f.capture
    retention, origin
    lineage := f.lineage }

section Markdown

variable [ProposalYaml]

def readProposalFrontmatter (fileId : String) (frontmatter : List Char) :
    Fallible OkfProposalFrontmatter :=
  match ProposalYaml.read frontmatter with
  | .ok frontmatter => .ok frontmatter
  | .error error => bail (s!"failed to parse OKF proposal frontmatter for {fileId}: " ++ error)

/-- `parse_okf_proposal_markdown`, on a path below the proposals. -/
def parseOkfProposalMarkdown (path : String) (text : List Char) :
    Fallible (Option OkfProposalFile) :=
  if isReservedRecordFile path then .ok none
  else do
    let fileId ← proposalFileId path
    let (frontmatter, body) ← splitFrontmatter text
    let frontmatter ← readProposalFrontmatter fileId frontmatter
    let proposal ← proposalOfFrontmatter fileId frontmatter body
    .ok (some proposal)

/-! ### Writing -/

/-- The text of a packet with that frontmatter. -/
def packetText (w : OkfWrittenFrontmatter) (title body : String) : List Char :=
  "---\n".toList ++ ProposalYaml.write w ++ "---\n\n".toList ++ "# ".toList ++
    Text.trimChars title.toList ++ "\n\n".toList ++ Text.trimChars body.toList ++ [ '\n']

def trimmedOptional (value : Option String) : Option String :=
  (value.map Text.trim).filter (· ≠ "")

def validateOkfCreateProposalDraft (draft : OkfCreateProposalDraft) : Fallible Unit := do
  validateProposalIdentifier (Text.trim draft.proposalId)
  ensure (Text.trim draft.title ≠ "") "OKF proposal title cannot be empty"
  ensure (Text.trim draft.body ≠ "") "OKF proposal body cannot be empty"
  ensure (Text.trim draft.actor ≠ "") "OKF proposal actor cannot be empty"
  ensure (Text.trim draft.timestamp ≠ "") "OKF proposal timestamp cannot be empty"
  ensureTimestampish (Text.trim draft.timestamp) "timestamp"
  ensure (draft.reason.all (Text.trim · ≠ "") = true) "OKF proposal reason cannot be empty"
  ensure (draft.scopeId.all (Text.trim · ≠ "") = true) "OKF proposal scope id cannot be empty"
  let _ ← validateAppliesTo draft.appliesTo
  ensure (draft.tags.all (Text.trim · ≠ "") = true)
    "OKF proposal tags cannot contain empty entries"
  validateProposalSources draft.sources
  ensure (draft.sensitivity = .repoSafe) "OKF create proposal sensitivity must be repo-safe"
  validateRetentionFacts (Text.trim draft.proposalId) draft.lane draft.retention
    (Text.trim draft.timestamp)
  withContext s!"record {Text.trim draft.proposalId} has invalid origin descriptor"
    (Origin.validateDescriptor draft.origin)
  validateRecordLineage (Text.trim draft.proposalId) draft.lineage

/-- The frontmatter `render_okf_create_proposal_markdown` prints. -/
def createFrontmatter (draft : OkfCreateProposalDraft) : OkfWrittenFrontmatter where
  id := Text.trim draft.proposalId
  kind := some "proposal"
  profile := okfProfile
  memoryType := draft.memoryType
  lane := draft.lane
  title := Text.trim draft.title
  description := String.ofList (firstNonEmptyLine draft.body.toList)
  status := .proposed
  proposal := ⟨.create, Text.trim draft.actor, Text.trim draft.timestamp,
    trimmedOptional draft.reason, none, none⟩
  scopeKind := draft.scopeKind
  scopeId := trimmedOptional draft.scopeId
  scopePaths := draft.appliesTo.map Text.trim
  tags := draft.tags.map Text.trim
  timestamp := Text.trim draft.timestamp
  createdBy := some (Text.trim draft.actor)
  sources := draft.sources.map fun source =>
    ⟨trimmedOptional source.path, trimmedOptional source.url, trimmedOptional source.reference⟩
  supersedes := []
  sensitivity := draft.sensitivity
  contentClass := draft.contentClass
  resolution := none
  capture := draft.capture
  retention := draft.retention
  origin := draft.origin
  lineage := draft.lineage

def renderOkfCreateProposalMarkdown (draft : OkfCreateProposalDraft) : Fallible (List Char) := do
  validateOkfCreateProposalDraft draft
  .ok (packetText (createFrontmatter draft) draft.title draft.body)

structure OkfCreateProposalPlan where
  proposalId : String
  path : String
  markdown : List Char
  parsed : OkfProposalFile

/-- `plan_okf_create_proposal`; whether a pending or resolved packet of that id exists is read from
the disk. -/
def planOkfCreateProposal (proposalPacketIdExists : String → Fallible Bool)
    (draft : OkfCreateProposalDraft) : Fallible OkfCreateProposalPlan := do
  validateOkfCreateProposalDraft draft
  let proposalId := Text.trim draft.proposalId
  let path := proposalId ++ ".md"
  let exists_ ← proposalPacketIdExists proposalId
  ensure (exists_ = false)
    s!"proposal packet id {proposalId} already exists in pending or resolved state"
  let markdown ← renderOkfCreateProposalMarkdown draft
  let parsed ← parseOkfProposalMarkdown path markdown
  let parsed ← require parsed s!"rendered OKF proposal {proposalId} was ignored"
  ensure (parsed.id = proposalId)
    s!"rendered OKF proposal id does not match draft id {proposalId}"
  .ok ⟨proposalId, path, markdown, parsed⟩

/-- The proposal a draft stands for: its texts trimmed, everything else as it is. -/
def OkfCreateProposalDraft.normalized (draft : OkfCreateProposalDraft) : OkfProposalFile where
  fileId := Text.trim draft.proposalId
  id := Text.trim draft.proposalId
  kind := some "proposal"
  profile := okfProfile
  memoryType := draft.memoryType
  lane := draft.lane
  title := Text.trim draft.title
  description := String.ofList (firstNonEmptyLine draft.body.toList)
  body := Text.trim draft.body
  status := .proposed
  proposal := ⟨.create, Text.trim draft.actor, Text.trim draft.timestamp,
    trimmedOptional draft.reason, none, none⟩
  scopeKind := draft.scopeKind
  scopeId := trimmedOptional draft.scopeId
  appliesTo := draft.appliesTo.map Text.trim
  tags := draft.tags.map Text.trim
  timestamp := Text.trim draft.timestamp
  createdBy := some (Text.trim draft.actor)
  sources := draft.sources.map fun source =>
    ⟨trimmedOptional source.path, trimmedOptional source.url, trimmedOptional source.reference⟩
  supersedes := []
  sensitivity := draft.sensitivity
  contentClass := draft.contentClass
  resolution := none
  capture := draft.capture
  retention := draft.retention
  origin := draft.origin
  lineage := draft.lineage

def OkfProposalOutcome.status : OkfProposalOutcome → OkfProposalStatus
  | applied => .applied
  | rejected => .rejected

/-- The frontmatter of a packet as it stands. -/
def OkfProposalFile.written (p : OkfProposalFile) : OkfWrittenFrontmatter where
  id := p.id
  kind := p.kind
  profile := p.profile
  memoryType := p.memoryType
  lane := p.lane
  title := p.title
  description := p.description
  status := p.status
  proposal := p.proposal
  scopeKind := p.scopeKind
  scopeId := p.scopeId
  scopePaths := p.appliesTo
  tags := p.tags
  timestamp := p.timestamp
  createdBy := p.createdBy
  sources := p.sources
  supersedes := p.supersedes
  sensitivity := p.sensitivity
  contentClass := p.contentClass
  resolution := p.resolution
  capture := p.capture
  retention := p.retention
  origin := p.origin
  lineage := p.lineage

/-- A packet with its outcome. -/
def OkfProposalFile.resolved (p : OkfProposalFile) (resolution : OkfProposalResolution) :
    OkfProposalFile :=
  { p with status := resolution.outcome.status, resolution := some resolution }

def renderResolvedOkfProposalMarkdown (proposal : OkfProposalFile)
    (resolution : OkfProposalResolution) : Fallible (List Char) := do
  ensure (proposal.status = .proposed ∧ proposal.resolution = none)
    "only pending proposed packets can be resolved"
  validateProposalResolution resolution.outcome.status (some resolution)
  .ok (packetText (proposal.resolved resolution).written proposal.title proposal.body)

end Markdown
end Okf
end Memzoi
