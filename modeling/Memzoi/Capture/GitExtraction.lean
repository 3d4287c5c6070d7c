/-
# Capture candidates of a Git diff

Source: `capture/adapters/git_change.rs` (`extract`, `git_identity`,
`object_algorithm`, `apply_git_location`, `apply_git_old_location`, the
`require_*` checks, `excluded_git_file_diagnostic`,
`excluded_git_path_diagnostic`, `managed_projection_line`).

A typed heading among the lines that a change adds is captured for the
repository, one among the lines that it removes for review. Both cite their
lines in the diff and on their side of the change.
-/

import Memzoi.Capture.GitDiff
import Memzoi.Capture.InstructionExtraction
import Mathlib

namespace Memzoi
namespace Capture
namespace Git

open Fallible SourceText Text
open Maintenance (OkfProposalSensitivity RepositoryContentClass)

/-! ### Revisions -/

structure GitIdentity where
  repository : String
  base : String
  head : String
  algorithm : String
  deriving DecidableEq, Repr

def objectAlgorithm (value : String) : Fallible String := do
  let parts ← require (Okf.splitOnce [ ':'] value.toList) "Git diff revision object ID is malformed"
  let algorithm := String.ofList parts.1
  let expected ← require (if algorithm = "sha1" then some 40 else if algorithm = "sha256" then some 64
      else none) "Git diff revision object algorithm is unsupported"
  ensure (byteLength parts.2 = expected ∧ parts.2.all Origin.isLowerHex = true)
    "Git diff revision object ID must be full and lowercase"
  .ok algorithm

def gitRevisions (request : CaptureSourceRequest) : Fallible CaptureGitSourceContext :=
  match request.locator with
  | .gitRange repository base head _ _ _ => .ok ⟨repository, base, head⟩
  | .projectPath _ => require request.git "Git diff source is missing revision context"
  | .suppliedBytes _ _ _ _ => require request.git "Git diff source is missing revision context"
  | .projectDirectory _ _ _ _ => bail "Git-change extraction does not accept a project directory"

def gitIdentity (document : CaptureSourceDocument) : Fallible GitIdentity := do
  let revisions ← gitRevisions document.request
  let baseAlgorithm ← objectAlgorithm revisions.base
  let headAlgorithm ← objectAlgorithm revisions.head
  ensure (baseAlgorithm = headAlgorithm) "Git diff revision object algorithms do not match"
  .ok ⟨revisions.repository, revisions.base, revisions.head, baseAlgorithm⟩

/-! ### Excluded files -/

def managedProjectionMarks : List String :=
  ["<!-- memzoi:start -->", "<!-- memzoi:end -->", "generated by memzoi", "memzoi projection for"]

def managedProjectionLine (line : List Char) : Bool :=
  managedProjectionMarks.any fun mark => mark.toList <:+: (trimChars line).map Char.toLower

def changedContentIsManagedProjection (file : DiffFile) : Bool :=
  file.hunks.any fun hunk =>
    hunk.addedBlocks.flatten.any (fun line => managedProjectionLine line.content) ||
      hunk.removedBlocks.flatten.any fun line => managedProjectionLine line.content

def excludedGitPathDiagnostic (path : String) : Option String :=
  let components := ((path.toList.map Char.toLower).splitOn '/').map String.ofList
  let fileName := (components.getLast?.getD "").toList
  if components.head? = some ".memzoi" ∨
      components.any (· ∈ ["memzoi-generated", ".memzoi-generated"]) = true then
    some "git_managed_projection_excluded"
  else if components.any (· ∈ ["vendor", "vendored", "third_party", "third-party"]) = true then
    some "git_vendor_path_excluded"
  else if components.any (· ∈ ["node_modules", "bower_components", "deps", "target", "venv", ".venv",
      "__pypackages__"]) = true then
    some "git_dependency_path_excluded"
  else if components.any (· ∈ ["generated", "_generated", "gen", "build"]) = true ∨
      ".generated.".toList <:+: fileName ∨ "_generated.md".toList <:+ fileName then
    some "git_generated_path_excluded"
  else if components.any (fun component =>
      component.toList.head? = some '.' && component ≠ ".github" ||
        component ∈ ["cache", "coverage", "dist", "out", "temp", "tmp"]) = true then
    some "git_ignored_like_path_excluded"
  else none

def exclusionPriority (code : String) : Nat :=
  match code with
  | "git_managed_projection_excluded" => 0
  | "git_vendor_path_excluded" => 1
  | "git_dependency_path_excluded" => 2
  | "git_generated_path_excluded" => 3
  | _ => 4

def excludedGitFileDiagnostic (file : DiffFile) : Option String :=
  if changedContentIsManagedProjection file then some "git_managed_projection_excluded"
  else (file.oldPath.toList ++ file.newPath.toList).foldl (fun result path =>
    match excludedGitPathDiagnostic path, result with
    | none, _ => result
    | some candidate, none => some candidate
    | some candidate, some code =>
      if exclusionPriority candidate < exclusionPriority code then some candidate else result) none

/-! ### Blobs -/

def requireRegularBlobMode (value : Option String) (side : String) : Fallible Unit := do
  let value ← require value s!"Git diff {side}-side evidence requires an authoritative file mode"
  ensure (value ∈ ["100644", "100755"]) "Git diff evidence must come from a regular blob mode"

def algorithmPrefixed (value algorithm : String) : Bool :=
  (algorithm ++ ":").toList.isPrefixOf value.toList

def requireNullBlobId (value : Option String) (algorithm side : String) : Fallible Unit := do
  let value ← require value s!"Git diff {side} absent-side blob ID must be an exact null digest"
  ensure (algorithmPrefixed value algorithm = true ∧ isNullBlob (some value) = true)
    "Git diff absent-side blob ID must match the revision algorithm"

def requireBlobId (value : Option String) (algorithm side : String) : Fallible Unit := do
  let value ← require value s!"Git diff {side} blob ID must be a full algorithm-prefixed digest"
  ensure (algorithmPrefixed value algorithm = true)
    "Git diff blob algorithm does not match its revision identity"

def requireEvidenceBlobIds (file : DiffFile) (algorithm : String) : Fallible Unit := do
  requireRegularBlobMode file.newMode "new"
  match file.kind with
  | .added =>
    requireNullBlobId file.oldIndexBlob algorithm "old"
    requireBlobId file.newBlob algorithm "new"
  | .modified =>
    requireBlobId file.oldBlob algorithm "old"
    requireBlobId file.newBlob algorithm "new"
  | .renamed =>
    requireBlobId file.oldBlob algorithm "old"
    requireBlobId file.newBlob algorithm "new"
  | .deleted => bail "deleted Git content cannot be used as new-side evidence"

def requireRemovedEvidenceBlobIds (file : DiffFile) (algorithm : String) : Fallible Unit := do
  requireRegularBlobMode file.oldMode "old"
  match file.kind with
  | .deleted =>
    requireBlobId file.oldBlob algorithm "old"
    requireNullBlobId file.newIndexBlob algorithm "new"
  | .modified =>
    requireBlobId file.oldBlob algorithm "old"
    requireBlobId file.newBlob algorithm "new"
  | .renamed =>
    requireBlobId file.oldBlob algorithm "old"
    requireBlobId file.newBlob algorithm "new"
  | .added => bail "added Git content cannot be used as old-side evidence"

/-! ### Guidance -/

def guidanceTypes : List MemoryType := [.decision, .procedure, .warning, .risk, .failedAttempt]

/-- A heading that is captured, the kind of its memory and its title. -/
def guidanceHeading (content : List Char) : Option (String × TypedHeading × String) :=
  (parseAtxHeading content).bind fun heading =>
    let typed := typedHeading heading.2
    typed.1.bind fun kind =>
      if kind.memoryType ∈ guidanceTypes then some (heading.2, kind, typed.2) else none

/-- A line of a block with such a heading, and the lines up to the next heading. -/
structure Guidance where
  line : ChangedLine
  heading : String
  kind : TypedHeading
  title : String
  below : List ChangedLine

def isHeading (line : ChangedLine) : Bool := (parseAtxHeading line.content).isSome

def blockGuidance : List ChangedLine → List Guidance
  | [] => []
  | line :: rest =>
    -- the lines up to the next heading are no headings: nothing is found in them again
    match guidanceHeading line.content with
    | some (heading, kind, title) =>
      ⟨line, heading, kind, title, rest.takeWhile (!isHeading ·)⟩ :: blockGuidance rest
    | none => blockGuidance rest

namespace Guidance

def lines (g : Guidance) : List ChangedLine := g.line :: g.below

def last (g : Guidance) : ChangedLine := g.below.getLast?.getD g.line

def body (g : Guidance) : List Char :=
  trimChars ([ '\n'].intercalate (g.below.map (·.content)))

/-- There is a title and a body. -/
def filled (g : Guidance) : Bool := g.body ≠ [] ∧ trim g.title ≠ ""

end Guidance

section Extraction

variable [SourceDigests]

def gitLocation (identity : GitIdentity) (file : DiffFile) (hunk : DiffHunk) (side : String)
    (oldLineStart oldLineEnd newLineStart newLineEnd : Option Nat) : CaptureSemanticLocation :=
  .gitChange identity.repository identity.base identity.head file.oldBlob file.newBlob file.oldPath
    file.newPath file.kind.asStr (SourceDigests.contentHash hunk.header) side oldLineStart oldLineEnd
    newLineStart newLineEnd

def locate (location : CaptureSemanticLocation) (evidence : List CaptureEvidence) :
    List CaptureEvidence := evidence.map fun item => { item with semanticLocation := some location }

def applyGitLocation (evidence : List CaptureEvidence) (identity : GitIdentity) (file : DiffFile)
    (hunk : DiffHunk) (newLineStart newLineEnd : Nat) (oldLineEnd : Option Nat) :
    List CaptureEvidence :=
  locate (gitLocation identity file hunk "new" (if 0 < hunk.oldCount then some hunk.oldStart else none)
    oldLineEnd (some newLineStart) (some newLineEnd)) evidence

def applyGitOldLocation (evidence : List CaptureEvidence) (identity : GitIdentity) (file : DiffFile)
    (hunk : DiffHunk) (oldLineStart oldLineEnd : Nat) (newLineEnd : Option Nat) :
    List CaptureEvidence :=
  locate (gitLocation identity file hunk "old" (some oldLineStart) (some oldLineEnd)
    (if 0 < hunk.newCount then some hunk.newStart else none) newLineEnd) evidence

def Guidance.evidence (g : Guidance) (document : CaptureSourceDocument) :
    Fallible (List CaptureEvidence) :=
  evidenceFor document.request document.snapshot document.text
    ⟨g.line.start, g.last.stop, g.line.sourceLine, g.kind.sectionKind, [g.heading]⟩

def Guidance.draft (g : Guidance) (path : String) (tags : List String) : CaptureMemoryDraft :=
  ⟨g.kind.memoryType, g.kind.lane, trim g.title, String.ofList g.body, ⟨.repo, none, [path]⟩, tags⟩

variable [CaptureDigests]

def removedCandidate (document : CaptureSourceDocument) (extractor : CaptureExtractorIdentity)
    (identity : GitIdentity) (file : DiffFile) (hunk : DiffHunk) (g : Guidance) :
    Fallible CaptureCandidate := do
  requireRemovedEvidenceBlobIds file identity.algorithm
  let evidence ← g.evidence document
  let newLineEnd ← inclusiveLineEnd hunk.newStart hunk.newCount
  let path ← require file.oldPath "removed Git diff candidate has no safe old path"
  .ok (candidate (g.draft path ["git-change", "git-deletion"])
    (applyGitOldLocation evidence identity file hunk g.line.line g.last.line newLineEnd)
    extractor .needsReview .unknown .unknown "deleted_git_guidance_requires_review"
    "deleted_git_guidance_has_no_direct_lifecycle_authority")

def addedCandidate (document : CaptureSourceDocument) (extractor : CaptureExtractorIdentity)
    (identity : GitIdentity) (file : DiffFile) (hunk : DiffHunk) (g : Guidance) :
    Fallible CaptureCandidate := do
  requireEvidenceBlobIds file identity.algorithm
  let evidence ← g.evidence document
  let oldLineEnd ← inclusiveLineEnd hunk.oldStart hunk.oldCount
  let path ← require (file.newPath.or file.oldPath) "Git diff candidate has no safe path"
  .ok (candidate (g.draft path ["git-change"])
    (applyGitLocation evidence identity file hunk g.line.line g.last.line oldLineEnd)
    extractor .repo .repoSafe .generalRepoKnowledge "deterministic_typed_added_git_guidance"
    "explicit_repo_diff_passed_safeguards")

/-- The guidance of the blocks of a hunk, in order. -/
def hunkGuidance (blocks : List (List ChangedLine)) : List Guidance :=
  (blocks.flatMap blockGuidance).filter Guidance.filled

def fileWithoutCandidates (file : DiffFile) : String :=
  if file.hunks.any (·.deletedTypedGuidance) then "git_deleted_durable_guidance_requires_review"
  else
    match file.kind with
    | .deleted => "git_deleted_file_without_durable_candidate"
    | .renamed => "git_rename_without_durable_candidate"
    | .added => "unsupported_git_change"
    | .modified => "unsupported_git_change"

def fileExtraction (document : CaptureSourceDocument) (extractor : CaptureExtractorIdentity)
    (identity : GitIdentity) (file : DiffFile) : Fallible CaptureExtraction := do
  let diagnostic := fun code =>
    CaptureDiagnostic.mk code (some document.request.sourceId) (some file.sourceLine)
  match excludedGitFileDiagnostic file with
  | some code => .ok ⟨[], [diagnostic code]⟩
  | none => do
    let removed ← gatherAll (fun hunk =>
      mapAll (removedCandidate document extractor identity file hunk)
        (hunkGuidance hunk.removedBlocks)) file.hunks
    let added ← gatherAll (fun hunk =>
      mapAll (addedCandidate document extractor identity file hunk)
        (hunkGuidance hunk.addedBlocks)) file.hunks
    let candidates := removed ++ added
    .ok ⟨candidates, if candidates = [] then [diagnostic (fileWithoutCandidates file)] else []⟩

def extract (document : CaptureSourceDocument) (extractor : CaptureExtractorIdentity) :
    Fallible CaptureExtraction := do
  let identity ← gitIdentity document
  let files ← parseDiff document.text
  let parts ← mapAll (fileExtraction document extractor identity) files
  .ok ⟨parts.flatMap (·.candidates), parts.flatMap (·.diagnostics)⟩

end Extraction

end Git
end Capture
end Memzoi
