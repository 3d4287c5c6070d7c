/-
# The sections of a Markdown text

Source: `capture.rs` (`markdown_sections`, `parse_atx_heading`, `typed_heading`,
`evidence_for`).

One pass over the lines finds the headings outside fenced code. Two passes over
the headings, each with a stack, find where the sections end and under which
headings they stand. The checks for a cancelled plan are left out. A text is the
list of its characters, and offsets count bytes.
-/

import Memzoi.Capture.Candidates
import Memzoi.Lib.SourceText
import Memzoi.Lib.Text

namespace Memzoi
namespace Capture

open Fallible SourceText Text
open Maintenance (OkfProposalSensitivity)

def captureMaxMarkdownHeadings : Nat := 4096

def captureMaxEvidenceItemBytes : Nat := 16 * 1024

/-! ### Headings -/

structure MarkdownHeading where
  start : Nat
  line : Nat
  level : Nat
  heading : String
  deriving DecidableEq, Repr

def backtick : Char := Char.ofNat 96

/-- Three or more of one of the two fence characters. -/
def fenceMarker (trimmed : List Char) : Option (Char × Nat) :=
  match trimmed with
  | [] => none
  | ch :: _ =>
    let count := (trimmed.takeWhile (· = ch)).length
    if (ch = backtick ∨ ch = '~') ∧ 3 ≤ count then some (ch, count) else none

/-- A marker opens a fence, or closes the open one when it is as long and of its character. -/
def toggleFence (fence : Option (Char × Nat)) (marker : Char × Nat) : Option (Char × Nat) :=
  match fence with
  | none => some marker
  | some (ch, minimum) => if ch = marker.1 ∧ minimum ≤ marker.2 then none else fence

def parseAtxHeading (line : List Char) : Option (Nat × String) :=
  let line := trimStart line
  let level := (line.takeWhile (· = '#')).length
  if (1 ≤ level ∧ level ≤ 6) ∧ (line.drop level).head? = some ' ' then
    let heading := trimChars ((trimChars (line.drop (level + 1))).rdropWhile (· = '#'))
    some (level, String.ofList heading)
  else none

/-- What the pass over the lines has found. -/
structure ScanState where
  headings : List MarkdownHeading
  offset : Nat
  lineNumber : Nat
  fence : Option (Char × Nat)

def ScanState.initial : ScanState := ⟨[], 0, 1, none⟩

/-- One line of the pass. -/
def scanLine (state : ScanState) (line : List Char) : Fallible ScanState :=
  let logical := logicalLine line
  let state' : ScanState :=
    { state with offset := state.offset + byteLength line, lineNumber := state.lineNumber + 1 }
  match fenceMarker (trimStart logical) with
  | some marker => .ok { state' with fence := toggleFence state.fence marker }
  | none =>
    match state.fence, parseAtxHeading logical with
    | none, some (level, heading) => do
      let headings := state.headings ++ [⟨state.offset, state.lineNumber, level, heading⟩]
      ensure (headings.length ≤ captureMaxMarkdownHeadings)
        "capture source exceeds the configured Markdown heading limit"
      .ok { state' with headings }
    | _, _ => .ok state'

/-! ### Typed headings -/

structure TypedHeading where
  memoryType : MemoryType
  lane : MemoryLane
  destination : MemoryDestination
  sensitivity : OkfProposalSensitivity
  sectionKind : String
  deriving DecidableEq, Repr

def typedHeadings : List (String × TypedHeading) :=
  [("Fact:", ⟨.fact, .semantic, .repo, .repoSafe, "fact"⟩),
    ("Preference:", ⟨.preference, .semantic, .«local», .localOnly, "preference"⟩),
    ("Decision:", ⟨.decision, .semantic, .repo, .repoSafe, "decision"⟩),
    ("Procedure:", ⟨.procedure, .procedural, .repo, .repoSafe, "procedure"⟩),
    ("Episode:", ⟨.episode, .session, .session, .temporaryState, "episode"⟩),
    ("Warning:", ⟨.warning, .semantic, .repo, .repoSafe, "warning"⟩),
    ("Failed attempt:", ⟨.failedAttempt, .episodic, .repo, .repoSafe, "failed_attempt"⟩),
    ("Risk:", ⟨.risk, .semantic, .repo, .repoSafe, "risk"⟩)]

/-- The first prefix decides, and what follows it is the title. -/
def typedHeading (heading : String) : Option TypedHeading × String :=
  match typedHeadings.findSome? fun mapping =>
      (heading.toList.dropPrefix? mapping.1.toList).map fun title => (mapping.2, title) with
  | some (kind, title) => (some kind, String.ofList (trimChars title))
  | none => (none, heading)

/-! ### Sections -/

structure MarkdownSection where
  start : Nat
  stop : Nat
  directEnd : Nat
  line : Nat
  kind : Option TypedHeading
  title : String
  headingPath : List String
  deriving DecidableEq, Repr

/-- Close the sections of a level that is not less: the stack holds indices and levels, the last one
on top. -/
def closeSections (start level : Nat) :
    List (Nat × Nat) → List Nat → List (Nat × Nat) × List Nat
  | (index, openLevel) :: stack, ends =>
    if level ≤ openLevel then closeSections start level stack (ends.set index start)
    else ((index, openLevel) :: stack, ends)
  | [], ends => ([], ends)

/-- The first pass over the headings. -/
def endsFrom (index : Nat) (stack : List (Nat × Nat)) (ends : List Nat) :
    List MarkdownHeading → List Nat
  | [] => ends
  | h :: rest =>
    let (stack, ends) := closeSections h.start h.level stack ends
    endsFrom (index + 1) ((index, h.level) :: stack) ends rest

/-- The second pass over the headings, with the headings it stands under on the stack. -/
def sectionsFrom (textLength : Nat) (ends : List Nat) (index : Nat)
    (stack : List (Nat × String)) : List MarkdownHeading → List MarkdownSection
  | [] => []
  | h :: rest =>
    let stack := stack.dropWhile fun ancestor => h.level ≤ ancestor.1
    let (kind, title) := typedHeading h.heading
    { start := h.start
      stop := ends.getD index textLength
      directEnd := (rest.head?.map MarkdownHeading.start).getD textLength
      line := h.line
      kind, title
      headingPath := (stack.map Prod.snd).reverse ++ [h.heading] } ::
        sectionsFrom textLength ends (index + 1) ((h.level, h.heading) :: stack) rest

def markdownSections (text : List Char) : Fallible (List MarkdownSection) := do
  let state ← runAll scanLine .initial (splitInclusive text)
  let textLength := byteLength text
  let ends := endsFrom 0 [] (List.replicate state.headings.length textLength) state.headings
  .ok (sectionsFrom textLength ends 0 [] state.headings)

/-! ### Evidence -/

/-- `content_hash`. -/
class SourceDigests where
  contentHash : List Char → String

structure EvidenceLocation where
  start : Nat
  stop : Nat
  lineStart : Nat
  sectionKind : String
  headingPath : List String

def evidenceFor [SourceDigests] (source : CaptureSourceRequest) (snapshot : CaptureSourceSnapshot)
    (text : List Char) (location : EvidenceLocation) : Fallible (List CaptureEvidence) := do
  ensure (location.start < location.stop) "capture evidence span is invalid"
  -- both ends are character boundaries
  let excerpt ← require (slice text location.start location.stop) "capture evidence span is invalid"
  ensure (location.stop - location.start ≤ captureMaxEvidenceItemBytes)
    "capture evidence item exceeds the configured size limit"
  let lineEnd := location.lineStart + newlinesBefore (byteLength excerpt - 1) excerpt
  .ok [
    { sourceId := source.sourceId
      locator := source.locator
      sourceContentHash := snapshot.sourceContentHash
      span := ⟨location.start, location.stop, location.lineStart, lineEnd⟩
      evidenceContentHash := SourceDigests.contentHash excerpt
      text := some (String.ofList excerpt)
      headingPath := location.headingPath
      sectionKind := location.sectionKind
      semanticLocation := none }]

end Capture
end Memzoi
