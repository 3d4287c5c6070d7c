/-
# Capture candidates of an ADR

Source: `capture/adapters/adr.rs` and `CaptureSourceLocator::durable_reference`
of `capture.rs`.

The frontmatter and the sections are the authorities for the title and the
status of an ADR. Its fields are captured when the titles agree and there is a
status, and they are routed to the repository when every status accepts it.
-/

import Memzoi.Capture.InstructionExtraction
import Mathlib

namespace Memzoi
namespace Capture

open Fallible SourceText Text
open Maintenance (OkfProposalSensitivity RepositoryContentClass)

def CaptureSourceLocator.durableReference : CaptureSourceLocator → String
  | projectPath path => path
  | projectDirectory path _ _ _ => path
  | suppliedBytes displayName _ _ sourceContentHash =>
    "supplied:" ++ displayName ++ "@" ++ sourceContentHash
  | gitRange repository base head _ _ _ => "git:" ++ repository ++ "@" ++ base ++ ".." ++ head

namespace Adr

def trimMatches (p : Char → Bool) (cs : List Char) : List Char := (cs.dropWhile p).rdropWhile p

def asciiLowercase (cs : List Char) : String := String.ofList (cs.map Char.toLower)

def apostrophe : Char := Char.ofNat 39

/-! ### Statuses -/

inductive AdrStatus where
  | accepted | draft | rejected | superseded | deprecated | unknown
  deriving DecidableEq, Repr

def AdrStatus.asStr : AdrStatus → String
  | accepted => "accepted"
  | draft => "draft"
  | rejected => "rejected"
  | superseded => "superseded"
  | deprecated => "deprecated"
  | unknown => "unknown"

def statusWords : List (List String × AdrStatus) :=
  [(["accepted", "adopted", "approved"], .accepted),
    (["draft", "proposed", "pending"], .draft),
    (["rejected", "declined"], .rejected),
    (["superseded", "replaced"], .superseded),
    (["deprecated", "obsolete"], .deprecated)]

def AdrStatus.fromText (value : List Char) : AdrStatus :=
  let normalized := asciiLowercase
    (trimMatches (· ∈ [ '[', ']', '"', apostrophe, backtick]) (trimChars value))
  ((statusWords.find? fun row => normalized ∈ row.1).map Prod.snd).getD .unknown

/-! ### Frontmatter -/

structure FrontmatterField where
  value : List Char
  range : ByteRange
  line : Nat

/-- The authority fields by their keys. -/
abbrev Frontmatter : Type := List (String × FrontmatterField)

def authorityKeys : List String := ["title", "status", "supersedes"]

/-- The key and the value of a line with a colon. -/
def entryOf (logical : List Char) : Option (String × List Char) :=
  if ':' ∈ logical then
    let key := asciiLowercase (trimChars (logical.takeWhile (· ≠ ':')))
    let rawValue := (logical.dropWhile (· ≠ ':')).drop 1
    some (key, trimChars (trimMatches (· ∈ [ '"', apostrophe, '[', ']']) (trimChars rawValue)))
  else none

def addField (fields : Frontmatter) (line : SourceLine) : Fallible Frontmatter :=
  match entryOf line.logical with
  | none => .ok fields
  | some (key, value) =>
    if key ∈ authorityKeys then do
      ensure ((fields.lookup key).isNone) "ADR frontmatter contains a duplicate authority field"
      .ok (fields ++ [(key, ⟨value, ⟨line.start, line.stop⟩, line.number⟩)])
    else .ok fields

def isDelimiter (logical : List Char) : Bool := trimChars logical = [ '-', '-', '-']

def frontmatter (text : List Char) : Fallible Frontmatter :=
  match sourceLines text with
  | [] => .ok []
  | first :: rest =>
    if isDelimiter first.logical then do
      let inner := rest.takeWhile fun line => !isDelimiter line.logical
      ensure (inner.length < rest.length) "ADR frontmatter is not terminated"
      runAll addField [] inner
    else .ok []

/-! ### Fields -/

structure AdrField where
  field : String
  memoryType : MemoryType
  lane : MemoryLane
  deriving DecidableEq, Repr

def supersessionField : AdrField := ⟨"supersession", .decision, .semantic⟩

def normalizedHeading (heading : String) : String :=
  asciiLowercase (trimChars ((trimChars heading.toList).rdropWhile (· = ':')))

def adrFields : List (List String × AdrField) :=
  [(["context", "problem", "motivation"], ⟨"context", .fact, .semantic⟩),
    (["decision", "chosen option"], ⟨"decision", .decision, .semantic⟩),
    (["consequences", "positive consequences", "outcome"], ⟨"consequences", .fact, .semantic⟩),
    (["risks", "risk", "negative consequences", "disadvantages"], ⟨"risk", .risk, .semantic⟩),
    (["supersedes", "superseded by", "replaces"], supersessionField)]

def adrField (heading : String) : Option AdrField :=
  (adrFields.find? fun row => normalizedHeading heading ∈ row.1).map Prod.snd

def adrMemoryTitle (documentTitle field : String) : String :=
  match field with
  | "decision" => documentTitle
  | "risk" => documentTitle ++ " — risks"
  | field => documentTitle ++ " — " ++ field

def adrTags (status : AdrStatus) (field : String) : List String :=
  ["adr", "adr-status:" ++ status.asStr, "adr-field:" ++ field]

/-! ### Authorities -/

structure AdrEvidenceSpan where
  range : ByteRange
  line : Nat
  headingPath : List String

/-- There are values, and all of them are the same. -/
def agree {α : Type} [DecidableEq α] : List α → Bool
  | [] => false
  | first :: rest => rest.all (· = first)

def firstLevelOneHeading (text : List Char) (sections : List MarkdownSection) :
    Option (String × AdrEvidenceSpan) := do
  let s ← sections.head?
  let line ← (sourceLines text).find? fun line => line.start = s.start
  let (level, heading) ← parseAtxHeading line.logical
  if level = 1 ∧ trim heading ≠ "" then
    some (heading, ⟨⟨line.start, line.stop⟩, line.number, [heading]⟩)
  else none

def titleAuthorities (fields : Frontmatter) (heading : Option (String × AdrEvidenceSpan)) :
    List (String × AdrEvidenceSpan) :=
  ((fields.lookup "title").toList.filter fun field => trimChars field.value ≠ []).map
      (fun field => (String.ofList field.value, ⟨field.range, field.line, []⟩)) ++
    heading.toList

def sectionStatus (text : List Char) (s : MarkdownSection) :
    Fallible (AdrStatus × AdrEvidenceSpan) := do
  let value ← bodyBelow text s.start s.directEnd
  .ok (.fromText value, ⟨⟨s.start, s.directEnd⟩, s.line, s.headingPath⟩)

def statusAuthorities (text : List Char) (fields : Frontmatter) (sections : List MarkdownSection) :
    Fallible (List (AdrStatus × AdrEvidenceSpan)) := do
  let found ← mapAll (sectionStatus text)
    (sections.filter fun s => normalizedHeading s.title = "status")
  .ok ((fields.lookup "status").toList.map
    (fun field => (.fromText field.value, ⟨field.range, field.line, []⟩)) ++ found)

def documentStatus (statuses : List AdrStatus) : AdrStatus :=
  if agree statuses then statuses.headD .unknown else .unknown

/-- What the diagnostics and the routing depend on. -/
structure AdrMetadata where
  titles : List (String × AdrEvidenceSpan)
  malformedTitleField : Bool
  statuses : List (AdrStatus × AdrEvidenceSpan)

namespace AdrMetadata

variable (metadata : AdrMetadata)

def status : AdrStatus := documentStatus (metadata.statuses.map Prod.fst)

def conflictingTitle : Bool :=
  1 < metadata.titles.length && !agree (metadata.titles.map fun title => trim title.1)

def conflictingStatus : Bool :=
  1 < metadata.statuses.length && !agree (metadata.statuses.map Prod.fst)

def diagnostics (sourceId : String) : List CaptureDiagnostic :=
  (if metadata.titles = [] ∨ metadata.statuses = [] ∨ metadata.status = .unknown ∨
      metadata.malformedTitleField ∨ metadata.conflictingTitle then
    [⟨"malformed_adr_metadata", some sourceId, some 1⟩] else []) ++
  (if metadata.conflictingStatus then
    [⟨"conflicting_adr_status", some sourceId, metadata.statuses.head?.map (·.2.line)⟩] else []) ++
  if metadata.conflictingTitle then
    [⟨"conflicting_adr_title", some sourceId, metadata.titles.head?.map (·.2.line)⟩] else []

end AdrMetadata

def adrMetadata (text : List Char) (fields : Frontmatter) (sections : List MarkdownSection) :
    Fallible AdrMetadata := do
  let titles := titleAuthorities fields (firstLevelOneHeading text sections)
  let malformedTitleField := (fields.lookup "title").any fun field => trimChars field.value = []
  let statuses ← statusAuthorities text fields sections
  .ok ⟨titles, malformedTitleField, statuses⟩

/-! ### Evidence -/

def applyAdrLocation (field : String) (status : AdrStatus) (target : Option String)
    (evidence : List CaptureEvidence) : List CaptureEvidence :=
  evidence.map fun item => { item with semanticLocation := some (.adr field status.asStr target) }

def compareEvidence (a b : CaptureEvidence) : Ordering :=
  (compare a.sourceId b.sourceId).then
    ((compare a.locator.durableReference b.locator.durableReference).then
      ((compare a.span.byteStart b.span.byteStart).then
        ((compare a.span.byteEnd b.span.byteEnd).then (compare a.sectionKind b.sectionKind))))

def sortAndDeduplicateEvidence (evidence : List CaptureEvidence) : List CaptureEvidence :=
  (evidence.insertionSort fun a b => compareEvidence a b ≠ .gt).destutter fun kept item =>
    ¬ (item.sourceId = kept.sourceId ∧ item.locator = kept.locator ∧ item.span = kept.span ∧
      item.sectionKind = kept.sectionKind)

section Evidence

variable [SourceDigests]

/-- The evidence of a span for a field. -/
def spanEvidence (document : CaptureSourceDocument) (field : String) (status : AdrStatus)
    (target : Option String) (span : AdrEvidenceSpan) : Fallible (List CaptureEvidence) := do
  let evidence ← evidenceFor document.request document.snapshot document.text
    ⟨span.range.start, span.range.stop, span.line, field, span.headingPath⟩
  .ok (applyAdrLocation field status target evidence)

def adrAuthorityEvidence (document : CaptureSourceDocument) (metadata : AdrMetadata) :
    Fallible (List CaptureEvidence) := do
  let ofTitles ← gatherAll (spanEvidence document "title" metadata.status none)
    (metadata.titles.map Prod.snd)
  let ofStatuses ← gatherAll (spanEvidence document "status" metadata.status none)
    (metadata.statuses.map Prod.snd)
  .ok (ofTitles ++ ofStatuses)

end Evidence

/-! ### Candidates -/

section Extraction

variable [CaptureDigests]

def adrCandidate (document : CaptureSourceDocument) (extractor : CaptureExtractorIdentity)
    (documentTitle : String) (field : AdrField) (body : List Char) (status : AdrStatus)
    (evidence : List CaptureEvidence) : CaptureCandidate :=
  let statusAllowsRepo : Bool := status = .accepted ∧ field.field ≠ "supersession"
  candidate
    ⟨field.memoryType, field.lane, adrMemoryTitle documentTitle field.field, String.ofList body,
      defaultScope document.request, adrTags status field.field⟩
    evidence extractor
    (if statusAllowsRepo then .repo else .needsReview)
    (if statusAllowsRepo then .repoSafe else .unknown)
    (if statusAllowsRepo then .generalRepoKnowledge else .unknown)
    (if statusAllowsRepo then "accepted_adr_field"
      else if field.field = "supersession" then "adr_supersession_requires_lifecycle_review"
      else "adr_status_requires_review")
    (if statusAllowsRepo then "explicit_repo_adr_passed_safeguards"
      else "adr_status_or_lifecycle_authority_is_not_repo_safe")

variable [SourceDigests]

/-- The candidate of a field with a text, with the span it was read from and the authorities as
its evidence. -/
def fieldCandidate (document : CaptureSourceDocument) (extractor : CaptureExtractorIdentity)
    (title : String) (status : AdrStatus) (authority : List CaptureEvidence) (field : AdrField)
    (body : List Char) (span : AdrEvidenceSpan) : Fallible CaptureCandidate := do
  let target := if field.field = "supersession" then some (String.ofList body) else none
  let evidence ← spanEvidence document field.field status target span
  .ok (adrCandidate document extractor title field body status
    (sortAndDeduplicateEvidence (evidence ++ authority)))

/-- The candidate of a section with its field; a section that is no field or is empty has none. -/
def adrSectionCandidate (document : CaptureSourceDocument) (extractor : CaptureExtractorIdentity)
    (title : String) (status : AdrStatus) (authority : List CaptureEvidence) (s : MarkdownSection) :
    Fallible (List (AdrField × CaptureCandidate)) :=
  match adrField s.title with
  | none => .ok []
  | some field => do
    let body ← bodyBelow document.text s.start s.directEnd
    if body = [] then .ok []
    else
      let candidate ← fieldCandidate document extractor title status authority field body
        ⟨⟨s.start, s.directEnd⟩, s.line, s.headingPath⟩
      .ok [(field, candidate)]

def supersedesCandidate (document : CaptureSourceDocument) (extractor : CaptureExtractorIdentity)
    (title : String) (status : AdrStatus) (authority : List CaptureEvidence) (fields : Frontmatter) :
    Fallible (List CaptureCandidate) :=
  match fields.lookup "supersedes" with
  | none => .ok []
  | some supersedes =>
    if trimChars supersedes.value = [] then .ok []
    else do
      let candidate ← fieldCandidate document extractor title status authority supersessionField
        supersedes.value ⟨supersedes.range, supersedes.line, []⟩
      .ok [candidate]

def malformedMetadataExtraction (sourceId : String) (sections : List MarkdownSection)
    (diagnostics : List CaptureDiagnostic) : CaptureExtraction :=
  let hasDecision := sections.any fun s => (adrField s.title).any (·.field = "decision")
  ⟨[], diagnostics ++
    (if hasDecision then [] else [⟨"adr_decision_missing", some sourceId, some 1⟩]) ++
    [⟨"unsupported_adr_content", some sourceId, some 1⟩]⟩

/-- The fields of a document under its title. -/
def extractFields (document : CaptureSourceDocument) (extractor : CaptureExtractorIdentity)
    (fields : Frontmatter) (sections : List MarkdownSection) (metadata : AdrMetadata)
    (title : String) : Fallible CaptureExtraction := do
  let sourceId := document.request.sourceId
  let authority ← adrAuthorityEvidence document metadata
  let found ← gatherAll (adrSectionCandidate document extractor title metadata.status authority)
    sections
  let superseding ← supersedesCandidate document extractor title metadata.status authority fields
  let sawDecision := found.any (·.1.field = "decision")
  let candidates := found.map Prod.snd ++ superseding
  .ok ⟨candidates, metadata.diagnostics sourceId ++
    (if sawDecision then [] else [⟨"adr_decision_missing", some sourceId, some 1⟩]) ++
    if candidates = [] then [⟨"unsupported_adr_content", some sourceId, some 1⟩] else []⟩

def extractDocument (document : CaptureSourceDocument) (extractor : CaptureExtractorIdentity) :
    Fallible CaptureExtraction := do
  let fields ← frontmatter document.text
  let sections ← markdownSections document.text
  let metadata ← adrMetadata document.text fields sections
  let malformed := malformedMetadataExtraction document.request.sourceId sections
    (metadata.diagnostics document.request.sourceId)
  match metadata.titles with
  | [] => .ok malformed
  | (title, _) :: _ =>
    if metadata.malformedTitleField ∨ metadata.conflictingTitle ∨ metadata.statuses = [] then
      .ok malformed
    else extractFields document extractor fields sections metadata title

end Extraction

end Adr
end Capture
end Memzoi
