/-
# Record files: the text of a canonical record

Source: `okf.rs` (`render_okf_record_markdown`, `parse_okf_record_markdown` and
the functions under them), with the texts of the enumerations of `models.rs`
and `repository_write_safety/policy.rs`.

The writer puts the frontmatter together entry by entry: a scalar that is plain
or quoted, a list of scalars, or an indented block that the YAML library
printed. The reader cuts the frontmatter out, hands it to the YAML library, and
checks every field. What the library prints and reads is a parameter.
-/

import Memzoi.Materialization

namespace Memzoi

open Fallible Retention
open Maintenance (RepositoryContentClass isLowerOrDigit)

/-! ### Texts of the enumerations -/

def MemoryType.asStr : MemoryType → String
  | fact => "fact"
  | preference => "preference"
  | decision => "decision"
  | procedure => "procedure"
  | episode => "episode"
  | relationship => "relationship"
  | warning => "warning"
  | failedAttempt => "failed_attempt"
  | risk => "risk"
  | instructionProjection => "instruction_projection"

def ScopeKind.asStr : ScopeKind → String
  | personal => "personal"
  | repo => "repo"
  | project => "project"
  | team => "team"
  | org => "org"
  | agent => "agent"
  | importedUntrusted => "imported_untrusted"

def Visibility.asStr : Visibility → String
  | «public» => "public"
  | «private» => "private"
  | repo => "repo"
  | team => "team"
  | org => "org"

def contentClassAsStr : RepositoryContentClass → String
  | .generalRepoKnowledge => "general_repo_knowledge"
  | .rawTranscript => "raw_transcript"
  | .privatePersonalData => "private_personal_data"
  | .screenOrActivityHistory => "screen_or_activity_history"
  | .privateEndpoint => "private_endpoint"
  | .undisclosedVulnerability => "undisclosed_vulnerability"
  | .unminimizedPrivateEvidence => "unminimized_private_evidence"
  | .temporaryTaskState => "temporary_task_state"
  | .localOnlyState => "local_only_state"
  | .unknown => "unknown"

def parseMemoryType : String → Fallible MemoryType
  | "fact" => .ok .fact
  | "preference" => .ok .preference
  | "decision" => .ok .decision
  | "procedure" => .ok .procedure
  | "episode" => .ok .episode
  | "relationship" => .ok .relationship
  | "warning" => .ok .warning
  | "failed_attempt" => .ok .failedAttempt
  | "risk" => .ok .risk
  | "instruction_projection" => .ok .instructionProjection
  | other => bail s!"unknown memory type {Text.debugQuote other}"

def parseMemoryLane : String → Fallible MemoryLane
  | "session" => .ok .session
  | "semantic" => .ok .semantic
  | "episodic" => .ok .episodic
  | "procedural" => .ok .procedural
  | other => bail s!"unknown memory lane {Text.debugQuote other}"

def parseMemoryStatus : String → Fallible MemoryStatus
  | "proposed" => .ok .proposed
  | "active" => .ok .active
  | "rejected" => .ok .rejected
  | "superseded" => .ok .superseded
  | "expired" => .ok .expired
  | "tombstoned" => .ok .tombstoned
  | "redacted" => .ok .redacted
  | other => bail s!"unknown memory status {Text.debugQuote other}"

def parseScopeKind : String → Fallible ScopeKind
  | "personal" => .ok .personal
  | "repo" => .ok .repo
  | "project" => .ok .project
  | "team" => .ok .team
  | "org" => .ok .org
  | "agent" => .ok .agent
  | "imported_untrusted" => .ok .importedUntrusted
  | other => bail s!"unknown scope kind {Text.debugQuote other}"

def parseVisibility : String → Fallible Visibility
  | "public" => .ok .«public»
  | "private" => .ok .«private»
  | "repo" => .ok .repo
  | "team" => .ok .team
  | "org" => .ok .org
  | other => bail s!"unknown visibility {Text.debugQuote other}"

/-- A content class may be spelled with underscores or with hyphens. -/
def parseContentClass : String → Fallible RepositoryContentClass
  | "general_repo_knowledge" | "general-repo-knowledge" => .ok .generalRepoKnowledge
  | "raw_transcript" | "raw-transcript" => .ok .rawTranscript
  | "private_personal_data" | "private-personal-data" => .ok .privatePersonalData
  | "screen_or_activity_history" | "screen-or-activity-history" => .ok .screenOrActivityHistory
  | "private_endpoint" | "private-endpoint" => .ok .privateEndpoint
  | "undisclosed_vulnerability" | "undisclosed-vulnerability" => .ok .undisclosedVulnerability
  | "unminimized_private_evidence" | "unminimized-private-evidence" =>
    .ok .unminimizedPrivateEvidence
  | "temporary_task_state" | "temporary-task-state" => .ok .temporaryTaskState
  | "local_only_state" | "local-only-state" => .ok .localOnlyState
  | "unknown" => .ok .unknown
  | other => bail (s!"invalid repository content class {Text.debugQuote other}; expected " ++
      "general_repo_knowledge, raw_transcript, private_personal_data, " ++
      "screen_or_activity_history, private_endpoint, undisclosed_vulnerability, " ++
      "unminimized_private_evidence, temporary_task_state, local_only_state, or unknown")

namespace Okf

def okfProfile : String := "memzoi"

/-! ### Scalars -/

def isPlainYamlScalar (value : List Char) : Bool :=
  value ≠ [] && value.all fun c => c.isAlphanum || c = '-' || c = '_' || c = '.' || c = '/'

def hexDigit (n : Nat) : Char := if n < 10 then Char.ofNat (48 + n) else Char.ofNat (87 + n)

/-- A character inside a JSON string, as `serde_json::to_string` prints it. -/
def jsonEscape (c : Char) : List Char :=
  if c = '"' then [ '\\', '"']
  else if c = '\\' then [ '\\', '\\']
  else if c = '\n' then [ '\\', 'n']
  else if c = '\r' then [ '\\', 'r']
  else if c = '\t' then [ '\\', 't']
  else if c.toNat = 8 then [ '\\', 'b']
  else if c.toNat = 12 then [ '\\', 'f']
  else if c.toNat < 32 then
    [ '\\', 'u', '0', '0', hexDigit (c.toNat / 16), hexDigit (c.toNat % 16)]
  else [c]

def jsonString (value : List Char) : List Char := [ '"'] ++ value.flatMap jsonEscape ++ [ '"']

def quoteYamlString (value : List Char) : List Char :=
  if isPlainYamlScalar value then value else jsonString value

/-- `str::lines`: a carriage return before a line feed belongs to the line's end, and nothing
follows the last line feed. -/
def lines (text : List Char) : List (List Char) :=
  let pieces := text.splitOn '\n'
  let cut (line : List Char) : List Char :=
    if line.getLast? = some '\r' then line.dropLast else line
  pieces.dropLast.map cut ++ (pieces.getLast?.filter (· ≠ [])).toList

def firstNonEmptyLine (body : List Char) : List Char :=
  Text.trimChars (((lines body).find? fun line => !line.all Text.isWhitespace).getD [])

/-! ### The YAML library -/

/-- The frontmatter as the library reads it: every field may be missing. -/
structure OkfFrontmatter where
  id : Option String
  kind : Option String
  profile : Option String
  memoryType : Option String
  lane : Option String
  title : Option String
  description : Option String
  scope : Option String
  scopeId : Option String
  visibility : Option String
  contentClass : Option String
  status : Option String
  confidence : Option ℚ
  source : Option String
  sourceRef : Option String
  proposalId : Option String
  supersedes : Option String
  retention : Option RetentionFacts
  origin : Option OriginDescriptor
  lineage : Option RecordLineage
  timestamp : Option String
  updated : Option String
  appliesTo : Option (List String)
  tags : Option (List String)
  capture : Option CaptureProvenance
  materialization : Option RepositoryMaterializationMetadata
  deriving DecidableEq, Repr

/-- `serde_yaml::from_str` on a frontmatter, `serde_yaml::to_string` on the parts that are written
as blocks, and the text of a confidence. -/
class Yaml where
  frontmatter : List Char → Except String OkfFrontmatter
  confidence : ℚ → String
  capture : CaptureProvenance → String
  retention : RetentionFacts → String
  origin : OriginDescriptor → String
  lineage : RecordLineage → String
  materialization : RepositoryMaterializationMetadata → String

/-- Printers, for runs on fixed inputs. -/
@[reducible] def Yaml.printers : Yaml where
  frontmatter _ := .error "unknown frontmatter"
  confidence _ := "1.0"
  capture capture := s!"reviewed_at: {capture.reviewedAt}\n"
  retention _ := "explicit_expires_at: null\n"
  origin origin := s!"origin_key: {origin.originKey}\n"
  lineage lineage := s!"predecessor_id: {lineage.predecessorId}\n"
  materialization m := s!"revision_hash: {m.intendedSemanticRevision.revisionHash}\n"

/-! ### Writing -/

/-- One entry of a frontmatter. -/
inductive Entry where
  /-- `push_yaml_string`. -/
  | scalar (key : String) (value : List Char)
  | raw (key text : String)
  | list (key : String) (items : List String)
  /-- `push_yaml_block`. -/
  | block (key yaml : String)

def Entry.text : Entry → List Char
  | scalar key value => key.toList ++ ": ".toList ++ quoteYamlString value ++ [ '\n']
  | raw key text => key.toList ++ ": ".toList ++ text.toList ++ [ '\n']
  | list key items => key.toList ++ ":\n".toList ++
      items.flatMap fun item => "  - ".toList ++ quoteYamlString item.toList ++ [ '\n']
  | block key yaml => key.toList ++ ":\n".toList ++
      (lines yaml.toList).flatMap fun line => "  ".toList ++ line ++ [ '\n']

def scalarIfSome (key : String) (value : Option String) : List Entry :=
  (value.map fun value => .scalar key value.toList).toList

def someIfAny {α : Type} [DecidableEq α] (items : List α) : Option (List α) :=
  if items = [] then none else some items

def listIfAny (key : String) (items : List String) : List Entry :=
  if items = [] then [] else [.list key items]

section Markdown

variable [Yaml]

def frontmatterEntries (record : OkfRecordFile) : List Entry :=
  let draft := record.draft
  [.scalar "id" record.conceptId.toList, .scalar "kind" "memory".toList,
    .scalar "profile" okfProfile.toList, .scalar "type" draft.memoryType.asStr.toList,
    .scalar "lane" draft.lane.asStr.toList, .scalar "title" draft.title.toList,
    .scalar "description" (firstNonEmptyLine draft.body.toList),
    .scalar "timestamp" record.created.toList] ++
  scalarIfSome "updated" record.updated ++
  [.scalar "status" record.status.asStr.toList, .scalar "scope" draft.scopeKind.asStr.toList] ++
  scalarIfSome "scope_id" draft.scopeId ++
  [.scalar "visibility" draft.visibility.asStr.toList,
    .scalar "content_class" (contentClassAsStr draft.contentClass).toList,
    .raw "confidence" (Yaml.confidence draft.confidence)] ++
  scalarIfSome "source" draft.sourceKind ++
  scalarIfSome "source_ref" draft.sourceRef ++
  scalarIfSome "proposal_id" record.proposalId ++
  (record.capture.map fun capture => .block "capture" (Yaml.capture capture)).toList ++
  listIfAny "tags" draft.tags ++
  listIfAny "applies_to" record.appliesTo ++
  scalarIfSome "supersedes" record.supersedesId ++
  [.block "retention" (Yaml.retention record.retention),
    .block "origin" (Yaml.origin record.origin)] ++
  (record.lineage.map fun lineage => .block "lineage" (Yaml.lineage lineage)).toList ++
  (record.materialization.map fun m => .block "materialization" (Yaml.materialization m)).toList

/-- The fields of a record, as its frontmatter holds them. -/
def OkfFrontmatter.ofRecord (record : OkfRecordFile) : OkfFrontmatter where
  id := some record.conceptId
  kind := some "memory"
  profile := some okfProfile
  memoryType := some record.draft.memoryType.asStr
  lane := some record.draft.lane.asStr
  title := some record.draft.title
  description := some (String.ofList (firstNonEmptyLine record.draft.body.toList))
  scope := some record.draft.scopeKind.asStr
  scopeId := record.draft.scopeId
  visibility := some record.draft.visibility.asStr
  contentClass := some (contentClassAsStr record.draft.contentClass)
  status := some record.status.asStr
  confidence := some record.draft.confidence
  source := record.draft.sourceKind
  sourceRef := record.draft.sourceRef
  proposalId := record.proposalId
  supersedes := record.supersedesId
  retention := some record.retention
  origin := some record.origin
  lineage := record.lineage
  timestamp := some record.created
  updated := record.updated
  appliesTo := some record.appliesTo
  tags := some record.draft.tags
  capture := record.capture
  materialization := record.materialization

/-- A reader that knows the frontmatter of some records, for runs on fixed inputs. -/
@[reducible] def Yaml.knowing (records : List OkfRecordFile) : Yaml :=
  { Yaml.printers with
    frontmatter := fun text =>
      match records.find? fun r =>
        (@frontmatterEntries Yaml.printers r).flatMap Entry.text = text ++ [ '\n'] with
      | some r => .ok (OkfFrontmatter.ofRecord r)
      | none => .error "unknown frontmatter" }

variable [MaterializationDigests]

def validateRecordMaterialization (record : OkfRecordFile) : Fallible Unit :=
  match record.materialization with
  | none => .ok ()
  | some metadata => do
    withContext s!"invalid materialization metadata for {record.conceptId}" metadata.validate
    let expectedRevision ← canonicalRevisionForOkfRecord record
    ensure (metadata.intendedSemanticRevision = expectedRevision)
      s!"materialization revision does not match semantic record content for {record.conceptId}"

/-- The text of a record, whatever its attestation says. -/
def recordText (record : OkfRecordFile) : List Char :=
  "---\n".toList ++ (frontmatterEntries record).flatMap Entry.text ++ "---\n\n".toList ++
    "# ".toList ++ record.draft.title.toList ++ "\n\n".toList ++
    Text.trimChars record.draft.body.toList ++ [ '\n']

def renderOkfRecordMarkdown (record : OkfRecordFile) : Fallible String := do
  validateRecordMaterialization record
  .ok (String.ofList (recordText record))

end Markdown

/-! ### Reading -/

/-- The text before the first `pattern`, and the text after it. -/
def splitOnce (pattern : List Char) : List Char → Option (List Char × List Char)
  | [] => if pattern = [] then some ([], []) else none
  | c :: cs =>
    match (c :: cs).dropPrefix? pattern with
    | some rest => some ([], rest)
    | none => (splitOnce pattern cs).map fun (before, rest) => (c :: before, rest)

def splitFrontmatter (markdown : List Char) : Fallible (List Char × List Char) := do
  let rest ← require
    ((markdown.dropPrefix? "---\n".toList).or (markdown.dropPrefix? "---\r\n".toList))
    "OKF Markdown must start with YAML frontmatter"
  let (frontmatter, after) ← require (splitOnce "\n---".toList rest)
    "OKF Markdown frontmatter must be closed with ---"
  let body := ((after.dropPrefix? "\r\n".toList).or (after.dropPrefix? "\n".toList)).getD after
  .ok (frontmatter, body)

def requiredString (value : Option String) (key : String) : Fallible String := do
  let value ← require value s!"OKF frontmatter missing required field {key}"
  let trimmed := Text.trim value
  ensure (trimmed ≠ "") s!"OKF frontmatter field {key} cannot be empty"
  .ok trimmed

def optionalString (value : Option String) (key : String) : Fallible (Option String) :=
  match value with
  | none => .ok none
  | some value => do
    let trimmed := Text.trim value
    ensure (trimmed ≠ "") s!"OKF frontmatter field {key} cannot be empty"
    .ok (some trimmed)

def parseRequiredEnum {α : Type} (parse : String → Fallible α) (value : Option String)
    (key : String) : Fallible α := do
  let value ← requiredString value key
  parse value

def parseConfidence (value : Option ℚ) : Fallible ℚ := do
  let confidence ← require value "OKF frontmatter missing required field confidence"
  ensure (0 ≤ confidence ∧ confidence ≤ 1) "OKF confidence must be between 0.0 and 1.0"
  .ok confidence

def ensureTimestampish (value key : String) : Fallible Unit :=
  ensure (10 ≤ value.utf8ByteSize ∧
      (value.toList.take 10).all (fun c => c.isDigit || c = '-') = true)
    s!"OKF frontmatter field {key} must be timestamp-ish"

/-- A path that leaves the repository: absolute, or with a component `..`. -/
def isTraversal (path : List Char) : Bool :=
  path.head? = some '/' || (path.splitOn '/').any (· = [ '.', '.'])

def validateAppliesTo (values : List String) : Fallible (List String) :=
  mapAll (fun value => do
    let trimmed := Text.trim value
    ensure (trimmed ≠ "") "applies_to entries cannot be empty"
    ensure (isTraversal trimmed.toList = false)
      "applies_to entries must be relative and cannot contain traversal"
    .ok trimmed) values

/-- `validate_proposal_identifier` and `validate_concept_id` on one segment; the former allows
underscores. -/
def validateSegment (underscore : Bool) (what alphabet : String) (segment : List Char) :
    Fallible Unit := do
  ensure (segment ≠ [] ∧ segment ≠ [ '.'] ∧ segment ≠ [ '.', '.'])
    s!"OKF {what} id contains invalid segment {Text.debugQuote (String.ofList segment)}"
  ensure (segment.all (fun c => isLowerOrDigit c || c = '-' || (underscore && c = '_')) = true)
    s!"OKF {what} id segments must use {alphabet}"
  ensure (segment.head?.any isLowerOrDigit = true ∧ segment.getLast?.any isLowerOrDigit = true)
    s!"OKF {what} id segments must start and end with a letter or digit"

def validateProposalIdentifier (identifier : String) : Fallible Unit := do
  ensure (identifier ≠ "") "OKF proposal id cannot be empty"
  checkAll (validateSegment true "proposal"
    "lowercase ASCII letters, digits, hyphens, and underscores") (identifier.toList.splitOn '/')

def validateConceptId (concept : String) : Fallible Unit := do
  ensure (concept ≠ "") "OKF concept id cannot be empty"
  checkAll (validateSegment false "concept" "lowercase ASCII letters, digits, and hyphens")
    (concept.toList.splitOn '/')

/-- `is_reserved_record_file`, on a path below the records. -/
def isReservedRecordFile (path : String) : Bool :=
  (path.toList.splitOn '/').getLast?.any fun name =>
    name = "index.md".toList || name = "log.md".toList

/-- `concept_id`: the path below the records without its extension. -/
def conceptId (path : String) : Fallible String := do
  let stem ← require (((path.toList.reverse.dropPrefix? ".md".toList.reverse).map List.reverse).filter
      fun stem => (stem.splitOn '/').getLast? ≠ some [])
    s!"OKF record files must use .md extension: {path}"
  ensure ((stem.splitOn '/').all (· ≠ [ '.', '.']) = true)
    "OKF concept path contains unsafe component"
  let concept := String.ofList stem
  validateConceptId concept
  .ok concept

def validateSchemaIdentity (id kind profile : Option String) (expectedKind : String) :
    Fallible Unit := do
  let id ← require id "id is required by the current OKF profile"
  withContext "invalid current-profile OKF id" (validateProposalIdentifier (Text.trim id))
  let kind ← require kind "kind is required by the current OKF profile"
  ensure (Text.trim kind = expectedKind)
    s!"unsupported OKF kind {Text.debugQuote (Text.trim kind)}; expected {Text.debugQuote expectedKind}"
  let profile ← require profile "profile is required by the current OKF profile"
  ensure (Text.trim profile = okfProfile)
    (s!"unsupported OKF profile {Text.debugQuote (Text.trim profile)}; expected {okfProfile}; " ++
      "pre-1.0 artifacts must be manually upgraded or removed")

def validateRetentionFacts (recordId : String) (lane : MemoryLane) (retention : RetentionFacts)
    (evaluatedAt : String) : Fallible Unit := do
  let evaluatedAt ← require (Rfc3339.parse (Text.trim evaluatedAt))
    s!"record {recordId} has an invalid evaluation timestamp"
  let _ ← evaluateRetention recordId lane retention evaluatedAt
  .ok ()

def validateRecordLineage (recordId : String) (lineage : Option RecordLineage) : Fallible Unit :=
  match lineage with
  | none => .ok ()
  | some lineage => do
    withContext s!"record {recordId} has invalid lineage" lineage.validate
    ensure (lineage.predecessorId ≠ recordId)
      s!"record {recordId} cannot name itself as its lineage predecessor"

/-- `body_without_matching_h1`. -/
def bodyWithoutMatchingH1 (body title : List Char) : Fallible (List Char) :=
  let body := body.dropWhile fun c => c = '\r' || c = '\n'
  match body.dropPrefix? "# ".toList with
  | none => .ok (Text.trimChars body)
  | some rest => do
    let h1 := Text.trimChars (rest.takeWhile (· ≠ '\n'))
    ensure (h1 = title) "OKF H1 title must match frontmatter title"
    .ok (Text.trimChars ((rest.dropWhile (· ≠ '\n')).dropWhile fun c => c = '\r' || c = '\n'))

/-- The record a frontmatter and a body stand for. -/
def recordOfFrontmatter (conceptId : String) (f : OkfFrontmatter) (body : List Char) :
    Fallible OkfRecordFile := do
  validateSchemaIdentity f.id f.kind f.profile "memory"
  let title ← requiredString f.title "title"
  let memoryType ← parseRequiredEnum parseMemoryType f.memoryType "type"
  let lane ← parseRequiredEnum parseMemoryLane f.lane "lane"
  let scopeKind ← parseRequiredEnum parseScopeKind f.scope "scope"
  let scopeId ← optionalString f.scopeId "scope_id"
  let visibility ← parseRequiredEnum parseVisibility f.visibility "visibility"
  let contentClass ← parseRequiredEnum parseContentClass f.contentClass "content_class"
  let status ← parseRequiredEnum parseMemoryStatus f.status "status"
  let confidence ← parseConfidence f.confidence
  let sourceKind ← optionalString f.source "source"
  let sourceRef ← optionalString f.sourceRef "source_ref"
  let created ← requiredString f.timestamp "timestamp"
  ensureTimestampish created "timestamp"
  let updated ← optionalString f.updated "updated"
  validateIfSome (ensureTimestampish · "updated") updated
  let appliesTo ← validateAppliesTo (f.appliesTo.getD [])
  let supersedesId ← optionalString f.supersedes "supersedes"
  let retention ← require f.retention
    s!"record {conceptId} retention is required by the current OKF profile"
  validateRetentionFacts conceptId lane retention created
  let origin ← require f.origin
    s!"record {conceptId} origin is required by the current OKF profile"
  withContext s!"record {conceptId} has invalid origin descriptor"
    (Origin.validateDescriptor origin)
  validateRecordLineage conceptId f.lineage
  let proposalId ← optionalString f.proposalId "proposal_id"
  let body ← bodyWithoutMatchingH1 body title.toList
  .ok {
    conceptId
    draft := {
      memoryType, lane, scopeKind, scopeId, visibility, title
      body := String.ofList body
      tags := f.tags.getD []
      sourceKind, sourceRef
      sensitivity := .repoSafe
      contentClass, confidence }
    status, appliesTo, created, updated, supersedesId, retention, origin
    lineage := f.lineage
    proposalId
    capture := f.capture
    materialization := f.materialization }

section Parse

variable [Yaml] [MaterializationDigests]

omit [MaterializationDigests] in
/-- `serde_yaml::from_str` with the context of the record. -/
def readFrontmatter (concept : String) (frontmatter : List Char) : Fallible OkfFrontmatter :=
  match Yaml.frontmatter frontmatter with
  | .ok frontmatter => .ok frontmatter
  | .error error => bail (s!"failed to parse OKF frontmatter for {concept}: " ++ error)

/-- The record of a text, on a path below the records. -/
def parseRecordText (path : String) (text : List Char) : Fallible (Option OkfRecordFile) :=
  if isReservedRecordFile path then .ok none
  else do
    let concept ← conceptId path
    let (frontmatter, body) ← splitFrontmatter text
    let frontmatter ← readFrontmatter concept frontmatter
    let record ← recordOfFrontmatter concept frontmatter body
    validateRecordMaterialization record
    .ok (some record)

/-- `parse_okf_record_markdown`. -/
def parseOkfRecordMarkdown (path markdown : String) : Fallible (Option OkfRecordFile) :=
  parseRecordText path markdown.toList

/-- What is written is read by its characters. -/
theorem parse_of_render {record : OkfRecordFile} {markdown : String}
    (h : renderOkfRecordMarkdown record = .ok markdown) (path : String) :
    parseOkfRecordMarkdown path markdown = parseRecordText path (recordText record) := by
  rw [renderOkfRecordMarkdown, check_bind_eq_ok, Except.ok.injEq] at h
  rw [parseOkfRecordMarkdown, ← h.2, String.toList_ofList]

end Parse
end Okf
end Memzoi
