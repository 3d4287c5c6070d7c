/-
# Capture candidates of an instruction file

Source: `capture/adapters/instruction.rs` (`extract`, `mask_ranges`,
`visible_text`, `evidence_for_visible_range`, `visible_ranges`, `trim_range`,
`instruction_scope`, `temporary_or_ambiguous`), `capture/adapters.rs`
(`line_number_at`) and `contains_instruction_review_marker` of `capture.rs`.

The headings are those of a copy of the text with blanks for the generated
lines. The text before the first heading and the text of every heading up to the
next one are candidates when something is visible there, and their evidence
leaves the generated lines out.
-/

import Memzoi.Capture.Instruction
import Memzoi.Capture.MarkdownExtraction

namespace Memzoi
namespace Capture

open Fallible SourceText Text
open Maintenance (OkfProposalSensitivity RepositoryContentClass)

structure CaptureSourceDocument where
  request : CaptureSourceRequest
  snapshot : CaptureSourceSnapshot
  text : List Char

/-! ### Review markers -/

def instructionReviewMarkers : List (List String) :=
  [["temporary"], ["current", "task"], ["this", "task"], ["session"], ["wip"], ["scratch"],
    ["personal"], ["private"], ["local", "only"]]

section Markers

variable [Text.Unicode]

def containsInstructionReviewMarker (text : List Char) : Bool :=
  let words := pieces (fun c => !Text.Unicode.isAlphanumeric c) (String.ofList (text.map Char.toLower))
  instructionReviewMarkers.any fun marker => words.tails.any fun window => marker.isPrefixOf window

def temporaryOrAmbiguous (headingPath : List String) : Bool :=
  headingPath.any fun heading => containsInstructionReviewMarker heading.toList

def temporaryOrAmbiguousText (text : List Char) : Bool :=
  (Okf.lines text).any containsInstructionReviewMarker

end Markers

namespace Instruction

def generatedProjectionHeader : List Char :=
  "<!-- Generated by memzoi. Do not edit directly. -->".toList

/-! ### Visible text -/

/-- A range that does not hold the byte. -/
def Outside (n : Nat) (range : ByteRange) : Prop := n < range.start ∨ range.stop ≤ n

instance (n : Nat) (range : ByteRange) : Decidable (Outside n range) :=
  inferInstanceAs (Decidable (_ ∨ _))

/-- The bytes of the ranges become spaces, but for line ends. -/
def maskFrom (offset : Nat) (ranges : List ByteRange) : List Char → List Char
  | [] => []
  | c :: cs =>
    (if (∀ range ∈ ranges, Outside offset range) ∨ c = '\n' ∨ c = '\r' then [c]
      else List.replicate c.utf8Size ' ') ++
      maskFrom (offset + c.utf8Size) ranges cs

def maskRanges (text : List Char) (ranges : List ByteRange) : List Char := maskFrom 0 ranges text

/-- What an exclusion leaves of a range. -/
def cut (exclusion current : ByteRange) : List ByteRange :=
  if exclusion.stop ≤ current.start ∨ current.stop ≤ exclusion.start then [current]
  else
    (if current.start < exclusion.start then [⟨current.start, exclusion.start⟩] else []) ++
      if exclusion.stop < current.stop then [⟨exclusion.stop, current.stop⟩] else []

def visibleRanges (range : ByteRange) (exclusions : List ByteRange) : List ByteRange :=
  exclusions.foldl (fun ranges exclusion => ranges.flatMap (cut exclusion)) [range]

def visibleText (text : List Char) (range : ByteRange) (exclusions : List ByteRange) :
    Fallible (List Char) := do
  let parts ← mapAll (fun range => textAt text range.start range.stop) (visibleRanges range exclusions)
  .ok (List.intercalate [ '\n'] ((parts.map trimChars).filter (· ≠ [])))

def trimRange (text : List Char) (range : ByteRange) : Fallible (Option ByteRange) := do
  let slice ← textAt text range.start range.stop
  let leading := byteLength slice - byteLength (trimStart slice)
  let trailing := byteLength slice - byteLength (trimEnd slice)
  let trimmed : ByteRange := ⟨range.start + leading, range.stop - trailing⟩
  .ok (if trimmed.start < trimmed.stop then some trimmed else none)

/-! ### Evidence -/

section Evidence

variable [SourceDigests]

/-- The evidence of one visible range. -/
def evidenceForRange (document : CaptureSourceDocument) (sectionKind : String)
    (headingPath : List String) (range : ByteRange) : Fallible (List CaptureEvidence) := do
  match ← trimRange document.text range with
  | none => .ok []
  | some range =>
    let items ← evidenceFor document.request document.snapshot document.text
      ⟨range.start, range.stop, lineAt document.text range.start, sectionKind, headingPath⟩
    .ok (items.map fun item => { item with semanticLocation := some .instruction })

def evidenceForVisibleRange (document : CaptureSourceDocument) (range : ByteRange)
    (exclusions : List ByteRange) (sectionKind : String) (headingPath : List String) :
    Fallible (List CaptureEvidence) := do
  let evidence ← gatherAll (evidenceForRange document sectionKind headingPath)
    (visibleRanges range exclusions)
  ensure (evidence ≠ []) "instruction candidate has no non-generated evidence"
  .ok evidence

end Evidence

/-! ### Extraction -/

/-- The text before the last separator; a project path has plain components only. -/
def parentPath (path : String) : Option String :=
  let parent := ((path.toList.reverse.dropWhile (· ≠ '/')).drop 1).reverse
  if parent = [] then none else some (String.ofList parent)

def instructionScope (document : CaptureSourceDocument) : CaptureScope :=
  ⟨.repo, none, (parentPath (document.request.locator.projectPath?.getD "")).toList⟩

def headingEnd (masked : List Char) (s : MarkdownSection) : Fallible Nat := do
  let span ← textAt masked s.start s.directEnd
  .ok (if '\n' ∈ span then s.start + byteLength (span.takeWhile (· ≠ '\n')) + 1 else s.directEnd)

section Extraction

variable [Text.Unicode] [SourceDigests] [CaptureDigests]

def preambleCandidate (document : CaptureSourceDocument) (extractor : CaptureExtractorIdentity)
    (exclusions : List ByteRange) (preambleEnd : Nat) : Fallible (List CaptureCandidate) := do
  let preamble ← visibleText document.text ⟨0, preambleEnd⟩ exclusions
  if trimChars preamble = [] then .ok []
  else
    let ambiguous := temporaryOrAmbiguousText preamble
    let evidence ← evidenceForVisibleRange document ⟨0, preambleEnd⟩ exclusions "instruction" []
    .ok [candidate
      ⟨.procedure, .procedural, "Repository instructions", String.ofList (trimChars preamble),
        instructionScope document, ["agent-instructions"]⟩
      evidence extractor
      (if ambiguous then .needsReview else .repo)
      (if ambiguous then .unknown else .repoSafe)
      (if ambiguous then .unknown else .generalRepoKnowledge)
      (if ambiguous then "temporary_or_ambiguous_instruction_requires_review"
        else "explicit_instruction_file_preamble")
      (if ambiguous then "instruction_sharing_or_lifetime_is_ambiguous"
        else "explicit_repo_instruction_file_passed_safeguards")]

/-- The memory that a section without a typed heading becomes. -/
def untypedInstruction : TypedHeading := ⟨.procedure, .procedural, .repo, .repoSafe, "instruction"⟩

def sectionCandidate (document : CaptureSourceDocument) (extractor : CaptureExtractorIdentity)
    (exclusions : List ByteRange) (masked : List Char) (s : MarkdownSection) :
    Fallible (List CaptureCandidate) := do
  let headingEnd ← headingEnd masked s
  let body ← visibleText document.text ⟨headingEnd, s.directEnd⟩ exclusions
  if trimChars body = [] then .ok []
  else
    let kind := match s.kind with
      | some kind => { kind with sectionKind := "instruction_" ++ kind.sectionKind }
      | none => untypedInstruction
    let ambiguous := temporaryOrAmbiguous s.headingPath || temporaryOrAmbiguousText body
    let evidence ← evidenceForVisibleRange document ⟨s.start, s.directEnd⟩ exclusions
      kind.sectionKind s.headingPath
    .ok [candidate
      ⟨kind.memoryType, kind.lane, s.title, String.ofList (trimChars body),
        instructionScope document, ["agent-instructions"]⟩
      evidence extractor
      (if ambiguous then .needsReview else kind.destination)
      (if ambiguous then .unknown else kind.sensitivity)
      (if ambiguous then .unknown else .generalRepoKnowledge)
      (if ambiguous then "temporary_or_ambiguous_instruction_requires_review"
        else "deterministic_instruction_section")
      (if ambiguous then "instruction_sharing_or_lifetime_is_ambiguous"
        else "explicit_repo_instruction_file_passed_safeguards")]

def generatedRangesOf (text : List Char) : Fallible (List ByteRange) :=
  match generatedRanges text with
  | .ok ranges => .ok ranges
  | .error message => bail message

def extract (document : CaptureSourceDocument) (extractor : CaptureExtractorIdentity) :
    Fallible CaptureExtraction := do
  let text := document.text
  let sourceId := document.request.sourceId
  if generatedProjectionHeader <+: trimStart text then
    .ok ⟨[], [⟨"generated_projection_excluded", some sourceId, some 1⟩]⟩
  else
    let exclusions ← generatedRangesOf text
    let masked := maskRanges text exclusions
    let sections ← markdownSections masked
    let preambleEnd := (sections.head?.map (·.start)).getD (byteLength text)
    let preamble ← preambleCandidate document extractor exclusions preambleEnd
    let found ← gatherAll (sectionCandidate document extractor exclusions masked) sections
    let candidates := preamble ++ found
    let unsupported := if candidates = [] ∧ exclusions = [] then
        [CaptureDiagnostic.mk "unsupported_instruction_content" (some sourceId) (some 1)] else []
    let excluded := exclusions.head?.toList.map fun range =>
      CaptureDiagnostic.mk "generated_instruction_block_excluded" (some sourceId)
        (some (lineAt text range.start))
    .ok ⟨candidates, unsupported ++ excluded⟩

end Extraction

end Instruction
end Capture
end Memzoi
