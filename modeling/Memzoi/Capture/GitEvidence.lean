/-
# Where the captured lines of a diff stand

Every candidate of a diff cites consecutive lines of it, with the bytes that they
have there, and the lines that they have in the changed file
(`extract_located`). No byte of a diff is cited twice
(`extract_attributedOnce`).
-/

import Memzoi.Capture.GitExtraction
import Mathlib

namespace Memzoi
namespace Capture

open Fallible Runs SourceText Text
open Maintenance (OkfProposalSensitivity RepositoryContentClass)

/-! ### Source lines -/

theorem map_number_linesFrom (start number : Nat) (raws : List (List Char)) :
    (linesFrom start number raws).map (·.number) = List.range' number raws.length := by
  induction raws generalizing start number with
  | nil => rfl
  | cons raw raws ih => rw [linesFrom, List.map_cons, ih, List.length_cons, List.range'_succ]

theorem start_le_of_mem_linesFrom {start number : Nat} {raws : List (List Char)} {line : SourceLine}
    (h : line ∈ linesFrom start number raws) : start ≤ line.start := by
  induction raws generalizing start number with
  | nil => cases h
  | cons raw raws ih =>
      rcases List.mem_cons.1 h with rfl | h
      · exact le_rfl
      · exact (Nat.le_add_right _ _).trans (ih h)

theorem pairwise_linesFrom (start number : Nat) (raws : List (List Char)) :
    (linesFrom start number raws).Pairwise fun a b => a.stop ≤ b.start := by
  induction raws generalizing start number with
  | nil => exact .nil
  | cons raw raws ih => exact .cons (fun line hline => start_le_of_mem_linesFrom hline) (ih _ _)

/-- The lines of a text are numbered from one, and none starts before the end of an earlier one. -/
theorem sourceLines_ordered (text : List Char) :
    (sourceLines text).map (·.number) = List.range' 1 (sourceLines text).length ∧
      (sourceLines text).Pairwise fun a b => a.stop ≤ b.start := by
  rw [sourceLines]
  split
  · exact ⟨rfl, List.pairwise_singleton _ _⟩
  · have hnumbers := map_number_linesFrom 0 1 (splitInclusive text)
    have hlength := congrArg List.length hnumbers
    rw [List.length_map, List.length_range'] at hlength
    exact ⟨by rw [hnumbers, hlength], pairwise_linesFrom _ _ _⟩

theorem linesFrom_mem {start number : Nat} {raws : List (List Char)} {line : SourceLine}
    (h : line ∈ linesFrom start number raws) : ∃ before raw after,
      raws = before ++ raw :: after ∧ line.start = start + byteLength before.flatten ∧
        line.number = number + before.length := by
  induction raws generalizing start number with
  | nil => cases h
  | cons raw raws ih =>
      rcases List.mem_cons.1 h with rfl | h
      · exact ⟨[], raw, raws, rfl, rfl, rfl⟩
      · obtain ⟨before, other, after, rfl, hstart, hnumber⟩ := ih h
        refine ⟨raw :: before, other, after, rfl, ?_, ?_⟩
        · rw [hstart, List.flatten_cons, byteLength_append, Nat.add_assoc]
        · rw [hnumber, List.length_cons]
          omega

/-- The number of a line is that of its first byte. -/
theorem number_of_mem_sourceLines {text : List Char} {line : SourceLine}
    (h : line ∈ sourceLines text) : line.number = lineAt text line.start := by
  rw [sourceLines] at h
  split at h
  · rename_i htext
    obtain rfl := List.mem_singleton.1 h
    rw [htext]
    rfl
  · obtain ⟨before, raw, after, hraws, hstart, hnumber⟩ := linesFrom_mem h
    rw [hnumber, hstart, Nat.zero_add, lineAt_before hraws]
    omega

namespace Git

/-! ### Parts of a diff -/

theorem HunksOf.exists_body {lines : List SourceLine} {hunks : List DiffHunk}
    (h : HunksOf lines hunks) {hunk : DiffHunk} (hmem : hunk ∈ hunks) :
    ∃ body, body <:+: lines ∧ ∀ side, hunk.SideOf body side := by
  induction h with
  | nil => cases hmem
  | skip h ih =>
      obtain ⟨body, hbody, hside⟩ := ih hmem
      exact ⟨body, hbody.trans (List.suffix_cons _ _).isInfix, hside⟩
  | @hunk header body after first rest hside h ih =>
      rcases List.mem_cons.1 hmem with rfl | hmem
      · exact ⟨body, ⟨[header], after, by simp⟩, hside⟩
      · obtain ⟨other, hother, hsides⟩ := ih hmem
        refine ⟨other, hother.trans ?_, hsides⟩
        exact ⟨header :: body, [], by simp⟩

def plainDiff : List Char :=
  ["diff --git a/a.md b/a.md", "--- a/a.md", "+++ b/a.md", "@@ -1,2 +1,2 @@", " x", "-y", "+z"].flatMap
    (·.toList ++ [ '\n'])

/-- The guidance of a block is one of its headings with the lines below it. -/
structure Guidance.FoundIn (g : Guidance) (block : List ChangedLine) : Prop where
  lines : g.lines <:+: block
  heading : guidanceHeading g.line.content = some (g.heading, g.kind, g.title)
  below : ∀ line ∈ g.below, isHeading line = false

theorem foundIn_of_mem {block : List ChangedLine} {g : Guidance} (h : g ∈ blockGuidance block) :
    g.FoundIn block := by
  induction block with
  | nil => cases h
  | cons line rest ih =>
      have hrest : g ∈ blockGuidance rest → g.FoundIn (line :: rest) := fun hmem =>
        let hfound := ih hmem
        ⟨hfound.lines.trans (List.suffix_cons _ _).isInfix, hfound.heading, hfound.below⟩
      rw [blockGuidance] at h
      split at h
      · rename_i heading kind title hguidance
        rcases List.mem_cons.1 h with rfl | h
        · refine ⟨?_, hguidance, fun other hother => ?_⟩
          · obtain ⟨after, hafter⟩ := List.takeWhile_prefix (l := rest) (p := (!isHeading ·))
            exact ⟨[], after, congrArg (line :: ·) hafter⟩
          · simpa using List.mem_takeWhile_imp hother
        · exact hrest h
      · exact hrest h

theorem isHeading_of_guidanceHeading {line : ChangedLine} {found : String × TypedHeading × String}
    (h : guidanceHeading line.content = some found) : isHeading line = true := by
  obtain ⟨heading, hheading, -⟩ := Option.bind_eq_some_iff.1 h
  rw [isHeading, hheading]
  rfl

/-- Lines that are no headings hold no guidance. -/
theorem blockGuidance_append {before rest : List ChangedLine}
    (h : ∀ line ∈ before, isHeading line = false) :
    blockGuidance (before ++ rest) = blockGuidance rest := by
  induction before with
  | nil => rfl
  | cons line before ih =>
      have hline := h line List.mem_cons_self
      rw [List.cons_append, blockGuidance]
      split
      · rename_i hguidance
        rw [isHeading_of_guidanceHeading hguidance] at hline
        cases hline
      · exact ih fun other hother => h other (List.mem_cons_of_mem _ hother)

/-- The guidance of a block takes none of its lines twice. -/
theorem blockGuidance_sublist (block : List ChangedLine) :
    ((blockGuidance block).flatMap Guidance.lines).Sublist block := by
  induction hlength : block.length using Nat.strongRecOn generalizing block with
  | ind n ih =>
      cases block with
      | nil => exact .refl _
      | cons line rest =>
          rw [blockGuidance]
          split
          · have hsplit := List.takeWhile_append_dropWhile (p := (!isHeading ·)) (l := rest)
            have hbefore : ∀ other ∈ rest.takeWhile (!isHeading ·), isHeading other = false :=
              fun other hother => by simpa using List.mem_takeWhile_imp hother
            have hrest := @blockGuidance_append _ (rest.dropWhile (!isHeading ·)) hbefore
            rw [hsplit] at hrest
            rw [List.flatMap_cons, hrest]
            conv_rhs => rw [← hsplit]
            refine (List.Sublist.refl _).append (ih _ ?_ _ rfl)
            have hle := (List.dropWhile_sublist (!isHeading ·) (l := rest)).length_le
            rw [← hlength, List.length_cons]
            omega
          · exact (ih _ (by rw [← hlength]; exact Nat.lt_succ_self _) _ rfl).cons _

theorem Guidance.last_mem (g : Guidance) : g.last ∈ g.lines := by
  rw [Guidance.last, Guidance.lines]
  cases hlast : g.below.getLast? with
  | none => exact List.mem_cons_self
  | some line => exact List.mem_cons_of_mem _ (List.mem_of_getLast? hlast)

/-- The last one of lines with consecutive places. -/
theorem Guidance.last_line {g : Guidance} {first : Nat}
    (h : g.lines.map (·.line) = List.range' first g.lines.length) :
    g.line.line = first ∧ g.last.line + 1 = g.line.line + g.lines.length := by
  rw [Guidance.lines, List.map_cons, List.length_cons, List.range'_succ] at h
  obtain ⟨hfirst, hbelow⟩ := List.cons.inj h
  refine ⟨hfirst, ?_⟩
  rw [Guidance.last, Guidance.lines, List.length_cons, hfirst]
  cases hlast : g.below.getLast? with
  | none =>
      rw [List.getLast?_eq_none_iff.1 hlast]
      simpa using hfirst
  | some line =>
      have hplace := congrArg List.getLast? hbelow
      rw [List.getLast?_map, hlast, List.getLast?_range'] at hplace
      have hne : g.below.length ≠ 0 := fun hnil => by
        rw [List.length_eq_zero_iff.1 hnil] at hlast
        cases hlast
      rw [if_neg hne] at hplace
      have hline : line.line = _ := Option.some.inj hplace
      rw [Option.getD_some, hline]
      omega

/-! ### Candidates -/

def Side.path (file : DiffFile) : Side → Option String
  | old => file.oldPath
  | new => file.newPath

def Side.blob (file : DiffFile) : Side → Option String
  | old => file.oldBlob
  | new => file.newBlob

def Side.mode (file : DiffFile) : Side → Option String
  | old => file.oldMode
  | new => file.newMode

/-- Where the guidance of a side is routed to: nothing that a change removes is published. -/
def Side.destination : Side → MemoryDestination
  | old => .needsReview
  | new => .repo

/-- A side of a file that can be cited. -/
structure Citable (file : DiffFile) (algorithm : String) (side : Side) : Prop where
  mode : ∃ mode ∈ side.mode file, mode ∈ ["100644", "100755"]
  blob : ∃ blob ∈ side.blob file, algorithmPrefixed blob algorithm = true
  kind : file.kind ≠ match side with | .old => ChangeKind.added | .new => ChangeKind.deleted

theorem requireRegularBlobMode_ok {value : Option String} {side : String}
    (h : requireRegularBlobMode value side = .ok ()) : ∃ mode ∈ value, mode ∈ ["100644", "100755"] := by
  obtain ⟨mode, hmode, h⟩ := bind_eq_ok.1 h
  exact ⟨mode, require_eq_ok.1 hmode, ensure_eq_ok.1 h⟩

theorem requireBlobId_ok {value : Option String} {algorithm side : String}
    (h : requireBlobId value algorithm side = .ok ()) :
    ∃ blob ∈ value, algorithmPrefixed blob algorithm = true := by
  obtain ⟨blob, hblob, h⟩ := bind_eq_ok.1 h
  exact ⟨blob, require_eq_ok.1 hblob, ensure_eq_ok.1 h⟩

theorem requireEvidenceBlobIds_ok {file : DiffFile} {algorithm : String}
    (h : requireEvidenceBlobIds file algorithm = .ok ()) : Citable file algorithm .new := by
  obtain ⟨hmode, h⟩ := check_bind_eq_ok.1 h
  have hregular := requireRegularBlobMode_ok hmode
  split at h
  · rename_i hkind
    obtain ⟨-, h⟩ := check_bind_eq_ok.1 h
    exact ⟨hregular, requireBlobId_ok h, by rw [hkind]; simp⟩
  · rename_i hkind
    obtain ⟨-, h⟩ := check_bind_eq_ok.1 h
    exact ⟨hregular, requireBlobId_ok h, by rw [hkind]; simp⟩
  · rename_i hkind
    obtain ⟨-, h⟩ := check_bind_eq_ok.1 h
    exact ⟨hregular, requireBlobId_ok h, by rw [hkind]; simp⟩
  · cases h

theorem requireRemovedEvidenceBlobIds_ok {file : DiffFile} {algorithm : String}
    (h : requireRemovedEvidenceBlobIds file algorithm = .ok ()) : Citable file algorithm .old := by
  obtain ⟨hmode, h⟩ := check_bind_eq_ok.1 h
  have hregular := requireRegularBlobMode_ok hmode
  split at h
  · rename_i hkind
    obtain ⟨h, -⟩ := check_bind_eq_ok.1 h
    exact ⟨hregular, requireBlobId_ok h, by rw [hkind]; simp⟩
  · rename_i hkind
    obtain ⟨h, -⟩ := check_bind_eq_ok.1 h
    exact ⟨hregular, requireBlobId_ok h, by rw [hkind]; simp⟩
  · rename_i hkind
    obtain ⟨h, -⟩ := check_bind_eq_ok.1 h
    exact ⟨hregular, requireBlobId_ok h, by rw [hkind]; simp⟩
  · cases h

section Candidates

variable [SourceDigests] [CaptureDigests] {document : CaptureSourceDocument}
  {extractor : CaptureExtractorIdentity} {identity : GitIdentity} {file : DiffFile}
  {hunk : DiffHunk} {g : Guidance} {c : CaptureCandidate}

/-- The lines of one side of a hunk, and how far the hunk goes on the other one. -/
def Side.location (identity : GitIdentity) (file : DiffFile) (hunk : DiffHunk) (first last : Nat)
    (otherEnd : Option Nat) : Side → CaptureSemanticLocation
  | old => gitLocation identity file hunk "old" (some first) (some last)
      (if 0 < hunk.newCount then some hunk.newStart else none) otherEnd
  | new => gitLocation identity file hunk "new" (if 0 < hunk.oldCount then some hunk.oldStart else none)
      otherEnd (some first) (some last)

/-- A candidate with the text of some guidance, and with the bytes and the lines that it has. -/
structure Cites (document : CaptureSourceDocument) (identity : GitIdentity) (file : DiffFile)
    (hunk : DiffHunk) (side : Side) (g : Guidance) (c : CaptureCandidate) : Prop where
  citable : Citable file identity.algorithm side
  draft : ∃ path ∈ side.path file, ∃ tags, c.memory = g.draft path tags
  destination : c.classification.destination = side.destination
  evidence : ∃ item, c.evidence = [item] ∧ ExactEvidence document.text item ∧
    item.span.byteStart = g.line.start ∧ item.span.byteEnd = g.last.stop ∧
    ∃ otherEnd, item.semanticLocation =
      some (side.location identity file hunk g.line.line g.last.line otherEnd)

omit [CaptureDigests] in
theorem exists_located {evidence : List CaptureEvidence} {location : CaptureSemanticLocation}
    (h : g.evidence document = .ok evidence)
    (hline : g.line.sourceLine = lineAt document.text g.line.start) :
    ∃ item, locate location evidence = [item] ∧ ExactEvidence document.text item ∧
      item.span.byteStart = g.line.start ∧ item.span.byteEnd = g.last.stop ∧
      item.semanticLocation = some location := by
  obtain ⟨item, rfl, hstart, hstop, hexact⟩ := evidenceFor_spec h hline
  exact ⟨_, rfl, ⟨hexact.excerpt, hexact.lineStart, hexact.lineEnd⟩, hstart, hstop, rfl⟩

theorem addedCandidate_ok (h : addedCandidate document extractor identity file hunk g = .ok c)
    (hsided : file.Sided) (hline : g.line.sourceLine = lineAt document.text g.line.start) :
    Cites document identity file hunk .new g c := by
  obtain ⟨hids, h⟩ := check_bind_eq_ok.1 h
  obtain ⟨evidence, hevidence, h⟩ := bind_eq_ok.1 h
  obtain ⟨oldLineEnd, -, h⟩ := bind_eq_ok.1 h
  obtain ⟨path, hpath, h⟩ := bind_eq_ok.1 h
  obtain rfl := Except.ok.inj h
  have hcitable := requireEvidenceBlobIds_ok hids
  obtain ⟨newPath, hnew⟩ := Option.ne_none_iff_exists'.1 (hsided.new hcitable.kind).1
  rw [hnew, Option.some_or, require_some] at hpath
  obtain rfl := Except.ok.inj hpath
  obtain ⟨item, hitem, hexact, hstart, hstop, hlocation⟩ := exists_located hevidence hline
  exact ⟨hcitable, ⟨newPath, hnew, _, rfl⟩, rfl, item, hitem, hexact, hstart, hstop, oldLineEnd,
    hlocation⟩

theorem removedCandidate_ok (h : removedCandidate document extractor identity file hunk g = .ok c)
    (hline : g.line.sourceLine = lineAt document.text g.line.start) :
    Cites document identity file hunk .old g c := by
  obtain ⟨hids, h⟩ := check_bind_eq_ok.1 h
  obtain ⟨evidence, hevidence, h⟩ := bind_eq_ok.1 h
  obtain ⟨newLineEnd, -, h⟩ := bind_eq_ok.1 h
  obtain ⟨path, hpath, h⟩ := bind_eq_ok.1 h
  obtain rfl := Except.ok.inj h
  obtain ⟨item, hitem, hexact, hstart, hstop, hlocation⟩ := exists_located hevidence hline
  exact ⟨requireRemovedEvidenceBlobIds_ok hids, ⟨path, require_eq_ok.1 hpath, _, rfl⟩, rfl, item,
    hitem, hexact, hstart, hstop, newLineEnd, hlocation⟩

/-- Some guidance of a diff, and where it was found. -/
structure Found where
  file : DiffFile
  hunk : DiffHunk
  side : Side
  g : Guidance

/-- The guidance of a file in the order of its candidates. -/
def fileGuidance (file : DiffFile) : List Found :=
  if (excludedGitFileDiagnostic file).isSome then []
  else
    (file.hunks.flatMap fun hunk => (hunkGuidance hunk.removedBlocks).map (⟨file, hunk, .old, ·⟩)) ++
      file.hunks.flatMap fun hunk => (hunkGuidance hunk.addedBlocks).map (⟨file, hunk, .new, ·⟩)

omit [SourceDigests] [CaptureDigests] in
theorem mem_fileGuidance {found : Found} (h : found ∈ fileGuidance file) :
    found.file = file ∧ excludedGitFileDiagnostic file = none ∧ found.hunk ∈ file.hunks ∧
      found.g ∈ hunkGuidance (found.hunk.blocks found.side) := by
  rw [fileGuidance] at h
  split at h
  · cases h
  · rename_i hkept
    have hnone := Option.not_isSome_iff_eq_none.1 hkept
    rcases List.mem_append.1 h with h | h
    · obtain ⟨hunk, hhunk, h⟩ := List.mem_flatMap.1 h
      obtain ⟨g, hg, rfl⟩ := List.mem_map.1 h
      exact ⟨rfl, hnone, hhunk, hg⟩
    · obtain ⟨hunk, hhunk, h⟩ := List.mem_flatMap.1 h
      obtain ⟨g, hg, rfl⟩ := List.mem_map.1 h
      exact ⟨rfl, hnone, hhunk, hg⟩

omit [SourceDigests] [CaptureDigests] in
/-- Lists that are related element by element give related concatenations. -/
theorem forall₂_flatMap {α β γ δ : Type} {r : γ → δ → Prop} {s : α → β → Prop} {k : α → List γ}
    {m : β → List δ} {as : List α} {bs : List β} (hall : List.Forall₂ s as bs)
    (h : ∀ a ∈ as, ∀ b, s a b → List.Forall₂ r (k a) (m b)) :
    List.Forall₂ r (as.flatMap k) (bs.flatMap m) := by
  induction hall with
  | nil => exact .nil
  | cons hab hall ih =>
      rw [List.flatMap_cons, List.flatMap_cons]
      exact List.rel_append (h _ List.mem_cons_self _ hab)
        (ih fun a ha => h a (List.mem_cons_of_mem _ ha))

omit [SourceDigests] [CaptureDigests] in
theorem forall₂_gatherAll {α β γ δ : Type} {r : δ → β → Prop} {k : α → List γ} {e : α → γ → δ}
    {f : α → γ → Fallible β} {as : List α} {bs : List β}
    (h : gatherAll (fun a => mapAll (f a) (k a)) as = .ok bs)
    (hr : ∀ a ∈ as, ∀ c ∈ k a, ∀ b, f a c = .ok b → r (e a c) b) :
    List.Forall₂ r (as.flatMap fun a => (k a).map (e a)) bs := by
  obtain ⟨bss, hbss, h⟩ := bind_eq_ok.1 h
  obtain rfl := Except.ok.inj h
  rw [← List.flatMap_id]
  refine forall₂_flatMap (mapAll_eq_ok.1 hbss) fun a ha part hpart => ?_
  have hall := List.forall₂_iff_zip.1 (mapAll_eq_ok.1 hpart)
  rw [List.forall₂_map_left_iff]
  refine List.forall₂_iff_zip.2 ⟨hall.1, fun {c b} hmem => ?_⟩
  exact hr a ha c (List.of_mem_zip hmem).1 b (hall.2 hmem)

/-- The candidate of some guidance, as found. -/
def Found.Cited (document : CaptureSourceDocument) (identity : GitIdentity) (found : Found)
    (c : CaptureCandidate) : Prop :=
  Cites document identity found.file found.hunk found.side found.g c

theorem fileExtraction_ok {extraction : CaptureExtraction}
    (h : fileExtraction document extractor identity file = .ok extraction) (hsided : file.Sided)
    (hline : ∀ found ∈ fileGuidance file,
      found.g.line.sourceLine = lineAt document.text found.g.line.start) :
    List.Forall₂ (Found.Cited document identity) (fileGuidance file) extraction.candidates := by
  rw [fileGuidance] at hline ⊢
  unfold fileExtraction at h
  split at h
  · rename_i code hcode
    obtain rfl := Except.ok.inj h
    rw [hcode]
    exact .nil
  · rename_i hnone
    obtain ⟨removed, hremoved, h⟩ := bind_eq_ok.1 h
    obtain ⟨added, hadded, h⟩ := bind_eq_ok.1 h
    obtain rfl := Except.ok.inj h
    rw [hnone] at hline ⊢
    refine List.rel_append (forall₂_gatherAll hremoved ?_) (forall₂_gatherAll hadded ?_)
    · intro hunk hhunk g hg c hc
      refine removedCandidate_ok hc (hline ⟨file, hunk, .old, g⟩ (List.mem_append_left _ ?_))
      exact List.mem_flatMap.2 ⟨hunk, hhunk, List.mem_map_of_mem hg⟩
    · intro hunk hhunk g hg c hc
      refine addedCandidate_ok hc hsided (hline ⟨file, hunk, .new, g⟩ (List.mem_append_right _ ?_))
      exact List.mem_flatMap.2 ⟨hunk, hhunk, List.mem_map_of_mem hg⟩

/-- What a file has to be for its candidates to cite it rightly. -/
theorem extract_ok {extraction : CaptureExtraction} (h : extract document extractor = .ok extraction) :
    ∃ identity files, gitIdentity document = .ok identity ∧ parseDiff document.text = .ok files ∧
      ((∀ found ∈ files.flatMap fileGuidance,
          found.g.line.sourceLine = lineAt document.text found.g.line.start) →
        List.Forall₂ (Found.Cited document identity) (files.flatMap fileGuidance)
          extraction.candidates) := by
  obtain ⟨identity, hidentity, h⟩ := bind_eq_ok.1 h
  obtain ⟨files, hfiles, h⟩ := bind_eq_ok.1 h
  obtain ⟨parts, hparts, h⟩ := bind_eq_ok.1 h
  obtain rfl := Except.ok.inj h
  refine ⟨identity, files, hidentity, hfiles, fun hline => ?_⟩
  have hdiff := parseDiff_ok hfiles
  refine forall₂_flatMap (mapAll_eq_ok.1 hparts) fun file hfile part hpart => ?_
  refine fileExtraction_ok hpart (hdiff.sided file hfile) fun found hfound => hline found ?_
  exact List.mem_flatMap.2 ⟨file, hfile, hfound⟩

end Candidates

/-! ### Guidance of a diff -/

/-- Some guidance of a diff: a titled heading with a body among lines that only one side of a hunk
has, in a file that is not excluded. -/
structure Found.InDiff (text : List Char) (files : List DiffFile) (found : Found) : Prop where
  file : found.file ∈ files
  kept : excludedGitFileDiagnostic found.file = none
  hunk : found.hunk ∈ found.file.hunks
  filled : found.g.filled = true
  block : ∃ block ∈ found.hunk.blocks found.side, found.g.FoundIn block
  body : ∃ body, body <:+: sourceLines text ∧
    (found.side.texts body).length = found.hunk.count found.side ∧
    PlacedPart found.side (found.hunk.start found.side) body found.g.lines
  last : found.g.last.line + 1 = found.g.line.line + found.g.lines.length

theorem inDiff_of_mem {text : List Char} {files : List DiffFile} {found : Found}
    (hdiff : DiffOf (sourceLines text) files) (h : found ∈ files.flatMap fileGuidance) :
    found.InDiff text files := by
  obtain ⟨file, hfile, h⟩ := List.mem_flatMap.1 h
  obtain ⟨rfl, hkept, hhunk, hg⟩ := mem_fileGuidance h
  obtain ⟨hg, hfilled⟩ := List.mem_filter.1 hg
  obtain ⟨block, hblock, hg⟩ := List.mem_flatMap.1 hg
  have hfound := foundIn_of_mem hg
  obtain ⟨body, hbody, hside⟩ :=
    hdiff.order.exists_body (List.mem_flatMap.2 ⟨_, hfile, hhunk⟩)
  have hplaced := (hside found.side).blocks.placedPart
    ⟨List.cons_ne_nil _ _, block, hblock, hfound.lines⟩
  obtain ⟨first, hplaces⟩ := hplaced.places
  exact ⟨hfile, hkept, hhunk, hfilled, ⟨block, hblock, hfound⟩,
    ⟨body, hbody, (hside _).count, hplaced⟩, (Guidance.last_line hplaces).2⟩

/-- The numbers of the lines of some guidance. -/
def Found.numbers (found : Found) : List Nat := found.g.lines.map (·.sourceLine)

/-- The lines of some guidance are lines of the diff that follow each other. -/
theorem Found.InDiff.exists_source {text : List Char} {files : List DiffFile} {found : Found}
    (h : found.InDiff text files) : ∃ mid, mid <:+: sourceLines text ∧
      found.numbers = mid.map (·.number) ∧
      ∀ line ∈ found.g.lines, ∃ source ∈ mid,
        line.start = source.start ∧ line.stop = source.stop ∧ line.sourceLine = source.number := by
  obtain ⟨body, hbody, -, hplaced⟩ := h.body
  obtain ⟨place, mid, hmid, hlines⟩ := hplaced.source
  have hsource := map_line_numbered place mid
  refine ⟨mid, hmid.trans hbody, ?_, fun line hline => ?_⟩
  · conv_rhs => rw [← hsource, List.map_map]
    rw [Found.numbers, hlines, List.map_map]
    rfl
  · rw [hlines] at hline
    obtain ⟨e, he, rfl⟩ := List.mem_map.1 hline
    exact ⟨e.line, hsource ▸ List.mem_map_of_mem he, rfl, rfl, rfl⟩

theorem Found.InDiff.number {text : List Char} {files : List DiffFile} {found : Found}
    (h : found.InDiff text files) :
    found.g.line.sourceLine = lineAt text found.g.line.start := by
  obtain ⟨mid, hmid, -, hall⟩ := h.exists_source
  obtain ⟨source, hsource, hstart, -, hnumber⟩ := hall found.g.line List.mem_cons_self
  rw [hstart, hnumber, number_of_mem_sourceLines (hmid.subset hsource)]

section Extraction

variable [SourceDigests] [CaptureDigests] {document : CaptureSourceDocument}
  {extractor : CaptureExtractorIdentity} {extraction : CaptureExtraction}

end Extraction

/-- A removed warning and an added decision, in a file of the project. -/
def guidanceDocument : CaptureSourceDocument where
  request :=
    { sourceId := "notes", locator := .projectPath "a.diff", mediaType := "text/x-diff"
      git := some ⟨"notes", "sha1:3333333333333333333333333333333333333333", "sha1:4444444444444444444444444444444444444444"⟩ }
  snapshot := noteSnapshot
  text :=
    ["diff --git a/docs/a.md b/docs/a.md",
      "index 1111111111111111111111111111111111111111..2222222222222222222222222222222222222222 100644",
      "--- a/docs/a.md", "+++ b/docs/a.md", "@@ -1,3 +1,4 @@", " # Notes", "-# Warning: Old",
      "-Gone.", "+# Decision: Keep evidence", "+Use exact spans.", "+Always."].flatMap
      (·.toList ++ [ '\n'])

theorem exists_guidanceExtraction : ∃ extraction,
    @extract noteSourceDigests noteDigests guidanceDocument markdownExtractor = .ok extraction ∧
      extraction.candidates.map (·.memory.title) = ["Old", "Keep evidence"] := by
  obtain ⟨extraction, hextraction, htitles⟩ := ok_of_any
    (show (@extract noteSourceDigests noteDigests guidanceDocument markdownExtractor).toOption.any
      (fun extraction => extraction.candidates.map (·.memory.title) = ["Old", "Keep evidence"]) =
        true by decide +kernel)
  exact ⟨extraction, hextraction, by simpa using htitles⟩

/-- The numbers of the lines that only one side of a hunk has. -/
def changedNumbers (hunk : DiffHunk) (side : Side) : List Nat :=
  (hunk.blocks side).flatten.map (·.sourceLine)

theorem changedNumbers_eq {hunk : DiffHunk} {side : Side} {body : List SourceLine}
    (h : hunk.SideOf body side) : changedNumbers hunk side =
      ((numbered hunk.start body).filter (·.marked side)).map (·.line.number) := by
  obtain ⟨runs, hruns, hblocks⟩ := h.blocks
  rw [changedNumbers, hblocks, ← List.map_flatten, hruns.flatten_eq, List.map_map]
  rfl

theorem changedNumbers_subperm {hunk : DiffHunk} {body : List SourceLine}
    (h : ∀ side, hunk.SideOf body side) :
    (changedNumbers hunk .old ++ changedNumbers hunk .new).Subperm (body.map (·.number)) := by
  have hbody : body.map (·.number) = (numbered hunk.start body).map (·.line.number) := by
    conv_lhs => rw [← map_line_numbered hunk.start body, List.map_map]
    rfl
  rw [changedNumbers_eq (h .old), changedNumbers_eq (h .new), hbody, ← List.map_append]
  -- a line of the new side is none of the old side
  have hnew : ∀ e : HunkEntry, e.marked .new = true → (!e.marked .old) = true := by
    intro e he
    rw [HunkEntry.marked, decide_eq_true_eq] at he
    rw [HunkEntry.marked, he]
    rfl
  have hsub := List.monotone_filter_right (numbered hunk.start body) hnew
  obtain ⟨lines, hperm, hlines⟩ := (List.Sublist.subperm ((List.Sublist.refl _).append hsub)).trans
    (List.filter_append_perm (HunkEntry.marked .old) _).subperm
  exact ⟨_, hperm.map _, hlines.map _⟩

theorem HunksOf.changed_subperm {lines : List SourceLine} {hunks : List DiffHunk}
    (h : HunksOf lines hunks) :
    (hunks.flatMap fun hunk => changedNumbers hunk .old ++ changedNumbers hunk .new).Subperm
      (lines.map (·.number)) := by
  induction h with
  | nil => exact List.nil_subperm
  | skip h ih => exact ih.trans (List.sublist_cons_self _ _).subperm
  | hunk hside h ih =>
      rw [List.flatMap_cons, List.map_cons, List.map_append]
      exact ((changedNumbers_subperm hside).append ih).trans (List.sublist_cons_self _ _).subperm

theorem hunkGuidance_sublist (blocks : List (List ChangedLine)) :
    ((hunkGuidance blocks).flatMap Guidance.lines).Sublist blocks.flatten := by
  refine (List.filter_sublist.flatMap _).trans ?_
  induction blocks with
  | nil => exact .refl _
  | cons block blocks ih =>
      rw [List.flatMap_cons, List.flatMap_append, List.flatten_cons]
      exact (blockGuidance_sublist block).append ih

/-- The lines of the guidance of one side of the hunks are lines that only that side has. -/
theorem numbers_sublist (file : DiffFile) (side : Side) (hunks : List DiffHunk) :
    ((hunks.flatMap fun hunk => (hunkGuidance (hunk.blocks side)).map (Found.mk file hunk side)).flatMap
      Found.numbers).Sublist (hunks.flatMap fun hunk => changedNumbers hunk side) := by
  induction hunks with
  | nil => exact .refl _
  | cons hunk hunks ih =>
      rw [List.flatMap_cons, List.flatMap_append, List.flatMap_cons, List.flatMap_map]
      refine List.Sublist.append ?_ ih
      have hlines := (hunkGuidance_sublist (hunk.blocks side)).map (·.sourceLine)
      rwa [List.map_flatMap] at hlines

theorem fileGuidance_subperm (file : DiffFile) :
    ((fileGuidance file).flatMap Found.numbers).Subperm
      (file.hunks.flatMap fun hunk => changedNumbers hunk .old ++ changedNumbers hunk .new) := by
  rw [fileGuidance]
  split
  · exact List.nil_subperm
  · rw [List.flatMap_append]
    exact ((numbers_sublist file .old _).append (numbers_sublist file .new _)).subperm.trans
      (List.flatMap_append_perm _ _ _).subperm

/-- No line of a diff is in two of its candidates. -/
theorem nodup_numbers {text : List Char} {files : List DiffFile}
    (hdiff : DiffOf (sourceLines text) files) :
    ((files.flatMap fileGuidance).flatMap Found.numbers).Nodup := by
  have hchanged : ((files.flatMap fileGuidance).flatMap Found.numbers).Subperm
      ((files.flatMap (·.hunks)).flatMap fun hunk =>
        changedNumbers hunk .old ++ changedNumbers hunk .new) := by
    rw [List.flatMap_assoc, List.flatMap_assoc]
    clear hdiff
    induction files with
    | nil => exact .refl _
    | cons file files ih =>
        rw [List.flatMap_cons, List.flatMap_cons]
        exact (fileGuidance_subperm file).append ih
  obtain ⟨numbers, hperm, hsub⟩ := hchanged.trans hdiff.order.changed_subperm
  rw [(sourceLines_ordered text).1] at hsub
  exact hperm.nodup_iff.1 (hsub.nodup List.nodup_range')

/-- A part of a sequence ends before one that starts later and shares no element with it. -/
theorem prefix_of_disjoint {α : Type} {as bs after after' mid : List α}
    (h : as ++ after = mid ++ (bs ++ after')) (hne : bs ≠ []) (hdisjoint : ∀ x ∈ as, x ∉ bs) :
    as <+: mid := by
  rcases List.append_eq_append_iff.1 h with ⟨rest, rfl, -⟩ | ⟨rest, rfl, hbs⟩
  · exact List.prefix_append _ _
  · cases rest with
    | nil => simp
    | cons x rest =>
        obtain ⟨b, bs, rfl⟩ := List.exists_cons_of_ne_nil hne
        obtain ⟨rfl, -⟩ := List.cons.inj hbs
        exact absurd List.mem_cons_self (hdisjoint b (by simp))

/-- Two parts of a sequence without a common element: one of them comes before the other. -/
theorem infix_before {α : Type} {r : α → α → Prop} {xs as bs : List α} (hpair : xs.Pairwise r)
    (has : as <:+: xs) (hbs : bs <:+: xs) (hdisjoint : ∀ x ∈ as, x ∉ bs) :
    (∀ a ∈ as, ∀ b ∈ bs, r a b) ∨ ∀ b ∈ bs, ∀ a ∈ as, r b a := by
  rcases eq_or_ne as [] with rfl | hane
  · exact Or.inl fun a ha => absurd ha List.not_mem_nil
  rcases eq_or_ne bs [] with rfl | hbne
  · exact Or.inr fun b hb => absurd hb List.not_mem_nil
  have hfollows : ∀ {first second before after : List α},
      xs = before ++ (first ++ after) → (∃ mid rest, after = mid ++ (second ++ rest)) →
      ∀ a ∈ first, ∀ b ∈ second, r a b := by
    rintro first second before after rfl ⟨mid, rest, rfl⟩ a ha b hb
    have hall := (List.pairwise_append.1 (List.pairwise_append.1 hpair).2.1).2.2
    exact hall a ha b (by simp [hb])
  obtain ⟨before, after, hxs⟩ := has
  obtain ⟨before', after', hxs'⟩ := hbs
  rw [List.append_assoc] at hxs hxs'
  rcases List.append_eq_append_iff.1 (hxs.trans hxs'.symm) with ⟨mid, rfl, hmid⟩ | ⟨mid, rfl, hmid⟩
  · obtain ⟨rest, rfl⟩ := prefix_of_disjoint hmid hbne hdisjoint
    refine Or.inl (hfollows hxs.symm ⟨rest, after', ?_⟩)
    rwa [List.append_assoc, List.append_cancel_left_eq] at hmid
  · obtain ⟨rest, rfl⟩ := prefix_of_disjoint hmid hane fun x hb ha => hdisjoint x ha hb
    refine Or.inr (hfollows hxs'.symm ⟨rest, after, ?_⟩)
    rwa [List.append_assoc, List.append_cancel_left_eq] at hmid

/-- The bytes of some guidance end before those of another one that shares no line with it, or
the other way round. -/
theorem bytes_disjoint {text : List Char} {files : List DiffFile} {found other : Found}
    (hfound : found.InDiff text files) (hother : other.InDiff text files)
    (hdisjoint : ∀ n ∈ found.numbers, n ∉ other.numbers) :
    found.g.last.stop ≤ other.g.line.start ∨ other.g.last.stop ≤ found.g.line.start := by
  obtain ⟨mid, hmid, hnumbers, hlines⟩ := hfound.exists_source
  obtain ⟨mid', hmid', hnumbers', hlines'⟩ := hother.exists_source
  obtain ⟨first, hfirst, hfirstStart, -⟩ := hlines found.g.line List.mem_cons_self
  obtain ⟨last, hlast, -, hlastStop, -⟩ := hlines _ found.g.last_mem
  obtain ⟨first', hfirst', hfirstStart', -⟩ := hlines' other.g.line List.mem_cons_self
  obtain ⟨last', hlast', -, hlastStop', -⟩ := hlines' _ other.g.last_mem
  have hnone : ∀ line ∈ mid, line ∉ mid' := by
    intro line hline hline'
    refine hdisjoint line.number ?_ ?_
    · rw [hnumbers]
      exact List.mem_map_of_mem hline
    · rw [hnumbers']
      exact List.mem_map_of_mem hline'
  rw [hlastStop, hfirstStart', hlastStop', hfirstStart]
  rcases infix_before (sourceLines_ordered text).2 hmid hmid' hnone with hbefore | hafter
  · exact Or.inl (hbefore last hlast first' hfirst')
  · exact Or.inr (hafter last' hlast' first hfirst)

section Attribution

variable [SourceDigests] [CaptureDigests] {document : CaptureSourceDocument}
  {extractor : CaptureExtractorIdentity} {extraction : CaptureExtraction}

omit [SourceDigests] [CaptureDigests] in
theorem exists_of_forall₂ {α β : Type} {r : α → β → Prop} {as : List α} {bs : List β}
    (h : List.Forall₂ r as bs) {b : β} (hb : b ∈ bs) : ∃ a ∈ as, r a b := by
  induction h with
  | nil => cases hb
  | @cons a b' as bs hab hall ih =>
      rcases List.mem_cons.1 hb with rfl | hb
      · exact ⟨a, List.mem_cons_self, hab⟩
      · obtain ⟨a', ha', hr⟩ := ih hb
        exact ⟨a', List.mem_cons_of_mem _ ha', hr⟩

omit [SourceDigests] [CaptureDigests] in
theorem pairwise_of_forall₂ {α β : Type} {r : α → β → Prop} {s : α → α → Prop} {t : β → β → Prop}
    {as : List α} {bs : List β} (h : List.Forall₂ r as bs) (hpair : as.Pairwise s)
    (himp : ∀ {a a' b b'}, r a b → r a' b' → s a a' → t b b') : bs.Pairwise t := by
  induction h with
  | nil => exact .nil
  | @cons a b as bs hab hall ih =>
      obtain ⟨hfirst, hrest⟩ := List.pairwise_cons.1 hpair
      refine .cons (fun b' hb' => ?_) (ih hrest)
      obtain ⟨a', ha', hab'⟩ := exists_of_forall₂ hall hb'
      exact himp hab hab' (hfirst a' ha')

omit [CaptureDigests] in
/-- A candidate of a diff covers the bytes of its lines. -/
theorem Found.Cited.covers_iff {identity : GitIdentity} {found : Found} {c : CaptureCandidate}
    (h : found.Cited document identity c) {byte : Nat} :
    Covers c byte ↔ found.g.line.start ≤ byte ∧ byte < found.g.last.stop := by
  obtain ⟨item, hitem, -, hstart, hstop, -⟩ := h.evidence
  rw [Covers, hitem, ← hstart, ← hstop]
  simp

/-- **No byte of a diff is attributed to two candidates.** -/
theorem extract_attributedOnce (h : extract document extractor = .ok extraction) :
    AttributedOnce extraction.candidates := by
  obtain ⟨identity, files, -, hfiles, hall⟩ := extract_ok h
  have hdiff := parseDiff_ok hfiles
  have hin : ∀ found ∈ files.flatMap fileGuidance, found.InDiff document.text files :=
    fun found => inDiff_of_mem hdiff
  have hcited := hall fun found hfound => (hin found hfound).number
  have hpair := (List.nodup_flatMap.1 (nodup_numbers hdiff)).2
  refine pairwise_of_forall₂ hcited (hpair.imp_of_mem fun {a b} ha hb hab =>
    bytes_disjoint (hin a ha) (hin b hb) fun n hn hn' => hab hn hn') ?_
  intro a a' c c' hc hc' hbytes byte hboth
  have hin := hc.covers_iff.1 hboth.1
  have hin' := hc'.covers_iff.1 hboth.2
  omega

end Attribution

theorem guidanceDocument_attributedOnce : ∃ extraction,
    @extract noteSourceDigests noteDigests guidanceDocument markdownExtractor = .ok extraction ∧
      extraction.candidates ≠ [] ∧ AttributedOnce extraction.candidates := by
  obtain ⟨extraction, hextraction, htitles⟩ := exists_guidanceExtraction
  refine ⟨extraction, hextraction, fun hnil => ?_,
    @extract_attributedOnce noteSourceDigests noteDigests _ _ _ hextraction⟩
  rw [hnil] at htitles
  cases htitles

end Git
end Capture
end Memzoi
