/-
# The files of a Git diff

Source: `capture/adapters/git_change.rs` (`parse_diff`, `finalize_diff_file`,
`parse_index_line`, `parse_index_pair`, `full_object_id`, `is_null_blob`,
`parse_patch_path`, `parse_prefixed_path`, `parse_plain_path`).

A file of a diff is a header, lines that say what became of it, and hunks. In an
accepted diff the hunks follow each other, none inside another one, and a file
claims the sides that its kind of change has and no other (`parseDiff_ok`). The
checks for a cancelled plan are left out.
-/

import Memzoi.Capture.GitHunk
import Memzoi.Origin

namespace Memzoi
namespace Capture
namespace Git

open Fallible SourceText Text

def captureMaxGitChangedFiles : Nat := 512

def captureMaxGitDiffHunks : Nat := 4096

/-! ### Files -/

inductive ChangeKind where
  | added | modified | deleted | renamed
  deriving DecidableEq, Repr

def ChangeKind.asStr : ChangeKind → String
  | added => "added"
  | modified => "modified"
  | deleted => "deleted"
  | renamed => "renamed"

structure DiffFile where
  sourceLine : Nat
  oldPath : Option String
  newPath : Option String
  oldBlob : Option String
  newBlob : Option String
  oldIndexBlob : Option String
  newIndexBlob : Option String
  oldMode : Option String
  newMode : Option String
  indexMode : Option String
  indexPresent : Bool
  kind : ChangeKind
  hunks : List DiffHunk
  deriving DecidableEq, Repr

def DiffFile.at (sourceLine : Nat) : DiffFile :=
  { sourceLine
    oldPath := none, newPath := none, oldBlob := none, newBlob := none, oldIndexBlob := none
    newIndexBlob := none, oldMode := none, newMode := none, indexMode := none
    indexPresent := false, kind := .modified, hunks := [] }

/-- What the lines of a file have said so far. -/
structure FileState where
  file : DiffFile
  modeKind : Option ChangeKind
  renameFrom : Option String
  renameTo : Option String
  oldMarker : Option (Option String)
  newMarker : Option (Option String)
  sawIndex : Bool
  hunkCount : Nat

/-! ### Paths and objects -/

def parsePlainPath (path : List Char) : Fallible String := do
  let drivePrefixed := (path.drop 1).head? = some ':' ∧ path.head?.any Char.isAlpha = true
  ensure (path ≠ [] ∧ byteLength path ≤ 4096 ∧ path.head? ≠ some '"' ∧ path.head? ≠ some '/' ∧
      '\\' ∉ path ∧ Char.ofNat 0 ∉ path ∧
      path.any (· ∈ [ ' ', '\t', '\n', Char.ofNat 12, '\r']) = false ∧
      path.any isControl = false ∧ ¬ drivePrefixed ∧
      (path.splitOn '/').any (· ∈ [[], [ '.'], [ '.', '.']]) = false)
    "Git diff path must be a safe POSIX project-relative path"
  .ok (String.ofList path)

def parsePrefixedPath (path : List Char) (root : String) : Fallible String := do
  let path ← require (path.dropPrefix? root.toList) s!"Git diff path must use the {root} prefix"
  parsePlainPath path

def parsePatchPath (path : List Char) (root : String) : Fallible (Option String) := do
  let path := path.takeWhile (· ≠ '\t')
  if path = "/dev/null".toList then .ok none
  else
    let path ← parsePrefixedPath path root
    .ok (some path)

def fullObjectId (value : List Char) : Option String :=
  let algorithm := if byteLength value = 40 then some "sha1"
    else if byteLength value = 64 then some "sha256" else none
  algorithm.bind fun algorithm =>
    if value.all Origin.isLowerHex then some (algorithm ++ ":" ++ String.ofList value) else none

def isNullBlob (value : Option String) : Bool :=
  (value.bind fun value => (Okf.splitOnce [ ':'] value.toList).map Prod.snd).any fun digest =>
    digest ≠ [] ∧ digest.all (· = '0')

/-! ### Authorities -/

def gitModes : List String := ["100644", "100755", "120000", "160000"]

def validateGitMode (value : List Char) : Fallible Unit :=
  ensure (String.ofList value ∈ gitModes) "Git diff file mode is invalid"

/-- Fill a slot that is empty. -/
def setOnce {α : Type} (slot : Option α) (value : α) (label : String) : Fallible (Option α) := do
  ensure (slot.isNone = true) s!"Git diff contains a duplicate {label} authority"
  .ok (some value)

def setModeOnce (slot : Option String) (value : List Char) (label : String) :
    Fallible (Option String) := setOnce slot (String.ofList value) label

def setPathOnce (slot : Option String) (value label : String) : Fallible (Option String) :=
  setOnce slot value label

def setMarkerOnce (slot : Option (Option String)) (value : Option String) (label : String) :
    Fallible (Option (Option String)) := setOnce slot value label

def setChangeMode (slot : Option ChangeKind) (value : ChangeKind) : Fallible (Option ChangeKind) := do
  ensure (slot.isNone = true) "Git diff contains duplicate or contradictory file mode authorities"
  .ok (some value)

def parseIndexPair (pair : List Char) (file : DiffFile) : Fallible DiffFile := do
  let parts ← require (Okf.splitOnce [ '.', '.'] pair) "Git diff index line is malformed"
  .ok { file with oldIndexBlob := fullObjectId parts.1, newIndexBlob := fullObjectId parts.2 }

def parseIndexLine (value : List Char) (file : DiffFile) : Fallible DiffFile := do
  let fields := (pieces isWhitespace (String.ofList value)).map String.toList
  let pair ← require fields.head? "Git diff index line is empty"
  let indexMode ← (match fields.tail.head? with
    | none => .ok file.indexMode
    | some mode => do
      validateGitMode mode
      setModeOnce file.indexMode mode "index mode")
  ensure (fields.length ≤ 2) "Git diff index line contains unexpected fields"
  parseIndexPair pair { file with indexMode }

/-- A line of a file outside its hunks; a line that says nothing is passed over. -/
def authorityLine (s : FileState) (logical : List Char) : Fallible FileState :=
  if let some mode := logical.dropPrefix? "new file mode ".toList then do
    validateGitMode mode
    let newMode ← setModeOnce s.file.newMode mode "new-file mode"
    let modeKind ← setChangeMode s.modeKind .added
    .ok { s with file := { s.file with newMode }, modeKind }
  else if let some mode := logical.dropPrefix? "deleted file mode ".toList then do
    validateGitMode mode
    let oldMode ← setModeOnce s.file.oldMode mode "deleted-file mode"
    let modeKind ← setChangeMode s.modeKind .deleted
    .ok { s with file := { s.file with oldMode }, modeKind }
  else if let some mode := logical.dropPrefix? "old mode ".toList then do
    validateGitMode mode
    let oldMode ← setModeOnce s.file.oldMode mode "old mode"
    .ok { s with file := { s.file with oldMode } }
  else if let some mode := logical.dropPrefix? "new mode ".toList then do
    validateGitMode mode
    let newMode ← setModeOnce s.file.newMode mode "new mode"
    .ok { s with file := { s.file with newMode } }
  else if let some path := logical.dropPrefix? "rename from ".toList then do
    let path ← parsePlainPath path
    let renameFrom ← setPathOnce s.renameFrom path "rename from"
    .ok { s with renameFrom }
  else if let some path := logical.dropPrefix? "rename to ".toList then do
    let path ← parsePlainPath path
    let renameTo ← setPathOnce s.renameTo path "rename to"
    .ok { s with renameTo }
  else if let some objects := logical.dropPrefix? "index ".toList then do
    ensure (s.sawIndex = false) "Git diff contains a duplicate index authority"
    let file ← parseIndexLine objects { s.file with indexPresent := true }
    .ok { s with file, sawIndex := true }
  else if let some path := logical.dropPrefix? "--- ".toList then do
    let path ← parsePatchPath path "a/"
    let oldMarker ← setMarkerOnce s.oldMarker path "old file marker"
    .ok { s with oldMarker }
  else if let some path := logical.dropPrefix? "+++ ".toList then do
    let path ← parsePatchPath path "b/"
    let newMarker ← setMarkerOnce s.newMarker path "new file marker"
    .ok { s with newMarker }
  else .ok s

def addHunk (s : FileState) (hunk : DiffHunk) : Fallible FileState := do
  let hunkCount ← checkedAdd s.hunkCount 1 "Git diff hunk count overflows"
  ensure (hunkCount ≤ captureMaxGitDiffHunks) "Git diff exceeds the configured hunk limit"
  .ok { s with file := { s.file with hunks := s.file.hunks ++ [hunk] }, hunkCount }

def startsWith (logical : List Char) (start : String) : Bool := start.toList.isPrefixOf logical

def isCombined (logical : List Char) : Bool :=
  startsWith logical "diff --cc " || startsWith logical "diff --combined " ||
    startsWith logical "@@@ "

def isBinary (logical : List Char) : Bool :=
  startsWith logical "Binary files " || startsWith logical "GIT binary patch"

def combinedUnsupported : String :=
  "combined Git diffs are unsupported; select one explicit merge parent"

/-- The lines of a file up to the next header, and how many they are. The lines of a hunk are
read with it and passed over here. -/
def fileLines (s : FileState) : Nat → List SourceLine → Fallible (FileState × Nat)
  | _, [] => .ok (s, 0)
  | skip + 1, _ :: rest => do
    let more ← fileLines s skip rest
    .ok (more.1, more.2 + 1)
  | 0, line :: rest =>
    if startsWith line.logical "diff --git " then .ok (s, 0)
    else do
      ensure (isCombined line.logical = false) combinedUnsupported
      ensure (isBinary line.logical = false) "binary Git changes are unsupported"
      let next ← (if startsWith line.logical "@@ " then do
          let hunk ← parseHunk line rest
          let s ← addHunk s hunk.1
          .ok (s, hunk.2)
        else do
          let s ← authorityLine s line.logical
          .ok (s, 0))
      let more ← fileLines next.1 next.2 rest
      .ok (more.1, more.2 + 1)

/-! ### Consistency -/

def renameOf (s : FileState) : Fallible (Option (String × String)) :=
  match s.renameFrom, s.renameTo with
  | some source, some target => .ok (some (source, target))
  | none, none => .ok none
  | _, _ => bail "Git diff rename authority must include both rename from and rename to"

/-- The side is marked as missing. -/
def missing (marker : Option (Option String)) : Bool := marker = some none

def markerKind (s : FileState) : Option ChangeKind :=
  if missing s.oldMarker then some .added
  else if missing s.newMarker then some .deleted else none

def withIndexMode (file : DiffFile) (kind : ChangeKind) : Fallible DiffFile :=
  match file.indexMode with
  | none => .ok file
  | some mode => do
    ensure (kind ≠ .added ∧ kind ≠ .deleted)
      "Git added/deleted index cannot claim a shared file mode"
    ensure (file.oldMode.all (· = mode) = true ∧ file.newMode.all (· = mode) = true)
      "Git diff index and side mode authorities contradict each other"
    .ok { file with
      oldMode := some (file.oldMode.getD mode), newMode := some (file.newMode.getD mode) }

/-- The sides of a file by what became of it. -/
def withSides (s : FileState) (file : DiffFile) (rename : Option (String × String))
    (headerOldPath headerNewPath : String) : ChangeKind → Fallible DiffFile
  | .added => do
    ensure (file.oldMode = none) "Git added file cannot claim an old-side mode"
    ensure ((s.oldMarker = none ∨ missing s.oldMarker = true) ∧ missing s.newMarker = false)
      "Git added-file markers contradict create authority"
    ensure (file.indexPresent = true →
        isNullBlob file.oldIndexBlob = true ∧ file.newIndexBlob ≠ none ∧
          isNullBlob file.newIndexBlob = false)
      "Git added-file index must contain exact null-old and non-null-new blobs"
    .ok { file with
      oldPath := none, newPath := some headerNewPath, oldBlob := none, newBlob := file.newIndexBlob
      kind := .added }
  | .deleted => do
    ensure (file.newMode = none) "Git deleted file cannot claim a new-side mode"
    ensure ((s.newMarker = none ∨ missing s.newMarker = true) ∧ missing s.oldMarker = false)
      "Git deleted-file markers contradict delete authority"
    ensure (file.indexPresent = true →
        file.oldIndexBlob ≠ none ∧ isNullBlob file.oldIndexBlob = false ∧
          isNullBlob file.newIndexBlob = true)
      "Git deleted-file index must contain non-null-old and exact null-new blobs"
    .ok { file with
      oldPath := some headerOldPath, newPath := none, oldBlob := file.oldIndexBlob, newBlob := none
      kind := .deleted }
  | .renamed => do
    ensure (missing s.oldMarker = false ∧ missing s.newMarker = false)
      "Git rename markers cannot use /dev/null"
    let rename ← require rename "checked rename authority"
    ensure (isNullBlob file.oldIndexBlob = false ∧ isNullBlob file.newIndexBlob = false)
      "Git rename index cannot cite a null blob on a present side"
    .ok { file with
      oldPath := some rename.1, newPath := some rename.2, oldBlob := file.oldIndexBlob
      newBlob := file.newIndexBlob, kind := .renamed }
  | .modified => do
    ensure (missing s.oldMarker = false ∧ missing s.newMarker = false)
      "Git modified-file markers cannot use /dev/null"
    ensure (isNullBlob file.oldIndexBlob = false ∧ isNullBlob file.newIndexBlob = false)
      "Git modified index cannot cite a null blob on a present side"
    .ok { file with
      oldPath := some headerOldPath, newPath := some headerNewPath, oldBlob := file.oldIndexBlob
      newBlob := file.newIndexBlob, kind := .modified }

def finalizeDiffFile (s : FileState) (headerOldPath headerNewPath : String) : Fallible DiffFile := do
  let rename ← renameOf s
  ensure (rename = none ∨ s.modeKind = none)
    "Git diff rename and create/delete authorities contradict each other"
  ensure (rename ≠ none ∨ headerOldPath = headerNewPath)
    "Git diff header paths differ without exact rename authority"
  ensure (rename.all (· = (headerOldPath, headerNewPath)) = true)
    "Git diff header and rename paths contradict each other"
  ensure (s.oldMarker.join.all (· = headerOldPath) = true)
    "Git diff header and old file marker paths contradict each other"
  ensure (s.newMarker.join.all (· = headerNewPath) = true)
    "Git diff header and new file marker paths contradict each other"
  ensure (missing s.oldMarker = false ∨ missing s.newMarker = false)
    "Git diff cannot create and delete the same file"
  ensure (s.modeKind = none ∨ markerKind s = none ∨ s.modeKind = markerKind s)
    "Git diff file mode and /dev/null marker authorities contradict each other"
  let kind := if rename.isSome then ChangeKind.renamed
    else (s.modeKind.or (markerKind s)).getD .modified
  ensure (s.file.oldMode.isSome = s.file.newMode.isSome ∨ kind = .added ∨ kind = .deleted)
    "Git diff mode-change authority must include both old and new modes"
  let file ← withIndexMode s.file kind
  ensure (file.hunks = [] ∨ s.oldMarker ≠ none ∧ s.newMarker ≠ none)
    "Git diff hunks require exact old and new file markers"
  withSides s file rename headerOldPath headerNewPath kind

/-! ### Diffs -/

def headerPaths (rest : List Char) : Fallible (String × String) := do
  let paths := (pieces isWhitespace (String.ofList rest)).map String.toList
  let oldHeader ← require paths.head? "Git diff header is missing old path"
  let newHeader ← require paths.tail.head? "Git diff header is missing new path"
  ensure (paths.length ≤ 2 ∧ oldHeader.head? ≠ some '"' ∧ newHeader.head? ≠ some '"')
    "quoted or whitespace-containing Git diff paths are unsupported"
  let oldPath ← parsePrefixedPath oldHeader "a/"
  let newPath ← parsePrefixedPath newHeader "b/"
  .ok (oldPath, newPath)

def fileHeader (line : SourceLine) : Fallible (String × String) := do
  ensure (isCombined line.logical = false) combinedUnsupported
  let rest ← require (line.logical.dropPrefix? "diff --git ".toList)
    "Git diff must begin each file with a strict diff --git header"
  headerPaths rest

def diffFiles (files : List DiffFile) (hunkCount : Nat) : Nat → List SourceLine →
    Fallible (List DiffFile)
  | _, [] => .ok files
  | skip + 1, _ :: rest => diffFiles files hunkCount skip rest
  | 0, line :: rest =>
    if line.logical = [] ∧ rest = [] then .ok files
    else do
      let paths ← fileHeader line
      let read ← fileLines ⟨.at line.number, none, none, none, none, none, false, hunkCount⟩ 0 rest
      let file ← finalizeDiffFile read.1 paths.1 paths.2
      ensure (files.length + 1 ≤ captureMaxGitChangedFiles)
        "Git diff exceeds the configured file limit"
      diffFiles (files ++ [file]) read.1.hunkCount read.2 rest

def parseDiff (text : List Char) : Fallible (List DiffFile) := do
  let files ← diffFiles [] 0 0 (sourceLines text)
  ensure (files ≠ []) "Git diff contains no file changes"
  .ok files

/-! ### Hunks in order -/

/-- The hunks follow each other in the lines, each with its header and its body. -/
inductive HunksOf : List SourceLine → List DiffHunk → Prop
  | nil {lines : List SourceLine} : HunksOf lines []
  | skip {line : SourceLine} {lines : List SourceLine} {hunks : List DiffHunk}
      (h : HunksOf lines hunks) : HunksOf (line :: lines) hunks
  | hunk {header : SourceLine} {body after : List SourceLine} {hunk : DiffHunk}
      {hunks : List DiffHunk} (hside : ∀ side, hunk.SideOf body side)
      (h : HunksOf after hunks) : HunksOf (header :: (body ++ after)) (hunk :: hunks)

theorem HunksOf.append_left {lines : List SourceLine} {hunks : List DiffHunk}
    (h : HunksOf lines hunks) (before : List SourceLine) : HunksOf (before ++ lines) hunks := by
  induction before with
  | nil => exact h
  | cons line before ih => exact ih.skip

theorem HunksOf.append {lines others : List SourceLine} {hunks more : List DiffHunk}
    (h : HunksOf lines hunks) (hmore : HunksOf others more) :
    HunksOf (lines ++ others) (hunks ++ more) := by
  induction h with
  | nil => exact hmore.append_left _
  | skip h ih => exact ih.skip
  | hunk hside h ih =>
      rw [List.cons_append, List.append_assoc]
      exact .hunk hside ih

section Lines

variable {s s' : FileState}

theorem parseIndexLine_ok {value : List Char} {file file' : DiffFile}
    (h : parseIndexLine value file = .ok file') :
    file'.hunks = file.hunks ∧ file'.indexPresent = file.indexPresent := by
  obtain ⟨pair, -, h⟩ := bind_eq_ok.1 h
  obtain ⟨indexMode, -, h⟩ := bind_eq_ok.1 h
  obtain ⟨-, h⟩ := check_bind_eq_ok.1 h
  obtain ⟨parts, -, h⟩ := bind_eq_ok.1 h
  obtain rfl := Except.ok.inj h
  exact ⟨rfl, rfl⟩

/-- The blobs of the index line come from an index line. -/
def FileState.Indexed (s : FileState) : Prop :=
  s.file.indexPresent = false → s.file.oldIndexBlob = none ∧ s.file.newIndexBlob = none

/-- Only a hunk adds to the hunks of a file. -/
theorem authorityLine_ok {logical : List Char} (h : authorityLine s logical = .ok s') :
    s'.file.hunks = s.file.hunks ∧ s'.hunkCount = s.hunkCount ∧ (s.Indexed → s'.Indexed) := by
  unfold authorityLine at h
  split at h
  · obtain ⟨-, h⟩ := check_bind_eq_ok.1 h
    obtain ⟨mode, -, h⟩ := bind_eq_ok.1 h
    obtain ⟨kind, -, h⟩ := bind_eq_ok.1 h
    obtain rfl := Except.ok.inj h
    exact ⟨rfl, rfl, id⟩
  split at h
  · obtain ⟨-, h⟩ := check_bind_eq_ok.1 h
    obtain ⟨mode, -, h⟩ := bind_eq_ok.1 h
    obtain ⟨kind, -, h⟩ := bind_eq_ok.1 h
    obtain rfl := Except.ok.inj h
    exact ⟨rfl, rfl, id⟩
  split at h
  · obtain ⟨-, h⟩ := check_bind_eq_ok.1 h
    obtain ⟨mode, -, h⟩ := bind_eq_ok.1 h
    obtain rfl := Except.ok.inj h
    exact ⟨rfl, rfl, id⟩
  split at h
  · obtain ⟨-, h⟩ := check_bind_eq_ok.1 h
    obtain ⟨mode, -, h⟩ := bind_eq_ok.1 h
    obtain rfl := Except.ok.inj h
    exact ⟨rfl, rfl, id⟩
  split at h
  · obtain ⟨path, -, h⟩ := bind_eq_ok.1 h
    obtain ⟨slot, -, h⟩ := bind_eq_ok.1 h
    obtain rfl := Except.ok.inj h
    exact ⟨rfl, rfl, id⟩
  split at h
  · obtain ⟨path, -, h⟩ := bind_eq_ok.1 h
    obtain ⟨slot, -, h⟩ := bind_eq_ok.1 h
    obtain rfl := Except.ok.inj h
    exact ⟨rfl, rfl, id⟩
  split at h
  · obtain ⟨-, h⟩ := check_bind_eq_ok.1 h
    obtain ⟨file, hfile, h⟩ := bind_eq_ok.1 h
    obtain rfl := Except.ok.inj h
    obtain ⟨hhunks, hpresent⟩ := parseIndexLine_ok hfile
    refine ⟨hhunks, rfl, fun _ habsent => ?_⟩
    cases hpresent.symm.trans habsent
  split at h
  · obtain ⟨path, -, h⟩ := bind_eq_ok.1 h
    obtain ⟨slot, -, h⟩ := bind_eq_ok.1 h
    obtain rfl := Except.ok.inj h
    exact ⟨rfl, rfl, id⟩
  split at h
  · obtain ⟨path, -, h⟩ := bind_eq_ok.1 h
    obtain ⟨slot, -, h⟩ := bind_eq_ok.1 h
    obtain rfl := Except.ok.inj h
    exact ⟨rfl, rfl, id⟩
  · obtain rfl := Except.ok.inj h
    exact ⟨rfl, rfl, id⟩

theorem addHunk_ok {hunk : DiffHunk} (h : addHunk s hunk = .ok s') :
    s'.file.hunks = s.file.hunks ++ [hunk] ∧ s'.hunkCount = s.hunkCount + 1 ∧
      s'.hunkCount ≤ captureMaxGitDiffHunks ∧ (s.Indexed → s'.Indexed) := by
  obtain ⟨count, hcount, h⟩ := bind_eq_ok.1 h
  obtain ⟨hle, h⟩ := check_bind_eq_ok.1 h
  obtain rfl := Except.ok.inj h
  obtain ⟨-, rfl⟩ := checkedAdd_eq_ok.1 hcount
  exact ⟨rfl, rfl, ensure_eq_ok.1 hle, id⟩

/-- What the lines of a file add to it: the first `skip` of them are already read. -/
structure LinesAdded (s : FileState) (skip : Nat) (lines : List SourceLine) (s' : FileState)
    (used : Nat) (hunks : List DiffHunk) : Prop where
  within : used ≤ lines.length
  skipped : skip ≤ lines.length → skip ≤ used
  all : s'.file.hunks = s.file.hunks ++ hunks
  count : s'.hunkCount = s.hunkCount + hunks.length
  limit : s.hunkCount ≤ captureMaxGitDiffHunks → s'.hunkCount ≤ captureMaxGitDiffHunks
  indexed : s.Indexed → s'.Indexed
  order : HunksOf ((lines.take used).drop skip) hunks

theorem fileLines_ok {skip : Nat} {lines : List SourceLine} {read : FileState × Nat}
    (h : fileLines s skip lines = .ok read) : ∃ hunks, LinesAdded s skip lines read.1 read.2 hunks := by
  induction lines generalizing s skip read with
  | nil =>
      rw [fileLines] at h
      obtain rfl := Except.ok.inj h
      exact ⟨[], le_rfl, id, by simp, by simp, id, id, .nil⟩
  | cons line rest ih =>
      cases skip with
      | succ skip =>
          rw [fileLines] at h
          obtain ⟨more, hmore, h⟩ := bind_eq_ok.1 h
          obtain rfl := Except.ok.inj h
          obtain ⟨hunks, hadded⟩ := ih hmore
          refine ⟨hunks, Nat.succ_le_succ hadded.within, fun hle => ?_, hadded.all, hadded.count,
            hadded.limit, hadded.indexed, hadded.order⟩
          exact Nat.succ_le_succ (hadded.skipped (Nat.le_of_succ_le_succ hle))
      | zero =>
          rw [fileLines] at h
          split at h
          · -- the header of the next file
            obtain rfl := Except.ok.inj h
            exact ⟨[], Nat.zero_le _, fun _ => Nat.zero_le _, by simp, by simp, id, id, .nil⟩
          obtain ⟨-, h⟩ := check_bind_eq_ok.1 h
          obtain ⟨-, h⟩ := check_bind_eq_ok.1 h
          obtain ⟨next, hnext, h⟩ := bind_eq_ok.1 h
          obtain ⟨more, hmore, h⟩ := bind_eq_ok.1 h
          obtain rfl := Except.ok.inj h
          obtain ⟨hunks, hadded⟩ := ih hmore
          have hused := hadded.within
          split at hnext
          · -- the body of a hunk is read with its header, and passed over by `skip`
            obtain ⟨hunk, hhunk, hnext⟩ := bind_eq_ok.1 hnext
            obtain ⟨s₁, hs₁, hnext⟩ := bind_eq_ok.1 hnext
            obtain rfl := Except.ok.inj hnext
            obtain ⟨hlength, hsides⟩ := parseHunk_ok hhunk
            obtain ⟨hall, hcount, hlimit, hindexed⟩ := addHunk_ok hs₁
            have hskipped : hunk.2 ≤ more.2 := hadded.skipped hlength
            refine ⟨hunk.1 :: hunks, Nat.succ_le_succ hused, fun _ => Nat.zero_le _, ?_, ?_, ?_,
              fun h => hadded.indexed (hindexed h), ?_⟩
            · rw [hadded.all, hall, List.append_assoc]
              rfl
            · rw [hadded.count, hcount, List.length_cons]
              omega
            · exact fun _ => hadded.limit hlimit
            · have hbody : (rest.take more.2).take hunk.2 = rest.take hunk.2 := by
                rw [List.take_take, Nat.min_eq_left hskipped]
              show HunksOf (line :: rest.take more.2) _
              rw [← List.take_append_drop hunk.2 (rest.take more.2), hbody]
              exact .hunk hsides hadded.order
          · obtain ⟨s₁, hs₁, hnext⟩ := bind_eq_ok.1 hnext
            obtain rfl := Except.ok.inj hnext
            obtain ⟨hall, hcount, hindexed⟩ := authorityLine_ok hs₁
            refine ⟨hunks, Nat.succ_le_succ hused, fun _ => Nat.zero_le _, ?_, ?_, ?_,
              fun h => hadded.indexed (hindexed h), ?_⟩
            · rw [hadded.all, hall]
            · rw [hadded.count, hcount]
            · rw [← hcount]
              exact hadded.limit
            · exact hadded.order.skip

end Lines

/-! ### Sides of a file -/

/-- A path below the project, component by component. -/
def SafePath (path : String) : Prop :=
  path ≠ "" ∧ ∀ component ∈ path.toList.splitOn '/', component ∉ [[], [ '.'], [ '.', '.']]

/-- A file has the sides of its kind of change, each with a path and without a null blob, and
claims nothing about a side that it does not have. -/
structure DiffFile.Sided (file : DiffFile) : Prop where
  old : file.kind ≠ .added → file.oldPath ≠ none ∧ isNullBlob file.oldBlob = false
  new : file.kind ≠ .deleted → file.newPath ≠ none ∧ isNullBlob file.newBlob = false
  created : file.kind = .added → file.oldPath = none ∧ file.oldBlob = none ∧ file.oldMode = none
  removed : file.kind = .deleted → file.newPath = none ∧ file.newBlob = none ∧ file.newMode = none
  kept : file.kind = .modified → file.oldPath = file.newPath
  modes : file.kind = .modified ∨ file.kind = .renamed →
    file.oldMode.isSome = file.newMode.isSome
  safe : ∀ path, path ∈ file.oldPath ∨ path ∈ file.newPath → SafePath path

theorem parsePlainPath_ok {path : List Char} {value : String} (h : parsePlainPath path = .ok value) :
    SafePath value := by
  obtain ⟨hsafe, h⟩ := check_bind_eq_ok.1 h
  obtain rfl := Except.ok.inj h
  obtain ⟨hne, -, -, -, -, -, -, -, -, hcomponents⟩ := ensure_eq_ok.1 hsafe
  refine ⟨fun heq => hne (by simpa using congrArg String.toList heq), fun component hmem hbad => ?_⟩
  rw [String.toList_ofList] at hmem
  have hnone := List.any_eq_false.1 hcomponents component hmem
  exact hnone (by simpa using hbad)

theorem parsePrefixedPath_ok {path : List Char} {root value : String}
    (h : parsePrefixedPath path root = .ok value) : SafePath value := by
  obtain ⟨rest, -, h⟩ := bind_eq_ok.1 h
  exact parsePlainPath_ok h

theorem headerPaths_ok {rest : List Char} {paths : String × String}
    (h : headerPaths rest = .ok paths) : SafePath paths.1 ∧ SafePath paths.2 := by
  obtain ⟨oldHeader, -, h⟩ := bind_eq_ok.1 h
  obtain ⟨newHeader, -, h⟩ := bind_eq_ok.1 h
  obtain ⟨-, h⟩ := check_bind_eq_ok.1 h
  obtain ⟨oldPath, hold, h⟩ := bind_eq_ok.1 h
  obtain ⟨newPath, hnew, h⟩ := bind_eq_ok.1 h
  obtain rfl := Except.ok.inj h
  exact ⟨parsePrefixedPath_ok hold, parsePrefixedPath_ok hnew⟩

section Finalize

variable {s : FileState} {file file' : DiffFile} {kind : ChangeKind}

/-- What the mode of the index line leaves as it is. -/
structure SameIndex (file file' : DiffFile) : Prop where
  hunks : file'.hunks = file.hunks
  old : file'.oldIndexBlob = file.oldIndexBlob
  new : file'.newIndexBlob = file.newIndexBlob
  present : file'.indexPresent = file.indexPresent
  modes : file.oldMode.isSome = file.newMode.isSome → file'.oldMode.isSome = file'.newMode.isSome

theorem withIndexMode_ok (h : withIndexMode file kind = .ok file') : SameIndex file file' := by
  unfold withIndexMode at h
  split at h
  · obtain rfl := Except.ok.inj h
    exact ⟨rfl, rfl, rfl, rfl, id⟩
  · obtain ⟨-, h⟩ := check_bind_eq_ok.1 h
    obtain ⟨-, h⟩ := check_bind_eq_ok.1 h
    obtain rfl := Except.ok.inj h
    exact ⟨rfl, rfl, rfl, rfl, fun _ => rfl⟩

theorem isNullBlob_none : isNullBlob none = false := rfl

/-- One case for each kind of change. -/
theorem withSides_ok {rename : Option (String × String)} {headerOldPath headerNewPath : String}
    (h : withSides s file rename headerOldPath headerNewPath kind = .ok file')
    (hindexed : file.indexPresent = false → file.oldIndexBlob = none ∧ file.newIndexBlob = none)
    (hrename : rename.all (· = (headerOldPath, headerNewPath)) = true)
    (hmodes : file.oldMode.isSome = file.newMode.isSome ∨ kind = .added ∨ kind = .deleted)
    (hsame : kind = .modified → headerOldPath = headerNewPath)
    (hold : SafePath headerOldPath) (hnew : SafePath headerNewPath) :
    file'.hunks = file.hunks ∧ file'.Sided := by
  cases kind with
  | added =>
      obtain ⟨hmode, h⟩ := check_bind_eq_ok.1 h
      obtain ⟨-, h⟩ := check_bind_eq_ok.1 h
      obtain ⟨hindex, h⟩ := check_bind_eq_ok.1 h
      obtain rfl := Except.ok.inj h
      have hblob : isNullBlob file.newIndexBlob = false := by
        cases hpresent : file.indexPresent with
        | true => exact (ensure_eq_ok.1 hindex hpresent).2.2
        | false => rw [(hindexed hpresent).2, isNullBlob_none]
      refine ⟨rfl, fun hne => absurd rfl hne, fun _ => ⟨Option.some_ne_none _, hblob⟩,
        fun _ => ⟨rfl, rfl, ensure_eq_ok.1 hmode⟩, ?_, ?_, ?_, ?_⟩
      · rintro ⟨⟩
      · rintro ⟨⟩
      · rintro (h | h) <;> cases h
      · rintro path (h | h)
        · cases h
        · obtain rfl := Option.some.inj h
          exact hnew
  | deleted =>
      obtain ⟨hmode, h⟩ := check_bind_eq_ok.1 h
      obtain ⟨-, h⟩ := check_bind_eq_ok.1 h
      obtain ⟨hindex, h⟩ := check_bind_eq_ok.1 h
      obtain rfl := Except.ok.inj h
      have hblob : isNullBlob file.oldIndexBlob = false := by
        cases hpresent : file.indexPresent with
        | true => exact (ensure_eq_ok.1 hindex hpresent).2.1
        | false => rw [(hindexed hpresent).1, isNullBlob_none]
      refine ⟨rfl, fun _ => ⟨Option.some_ne_none _, hblob⟩, fun hne => absurd rfl hne, ?_,
        fun _ => ⟨rfl, rfl, ensure_eq_ok.1 hmode⟩, ?_, ?_, ?_⟩
      · rintro ⟨⟩
      · rintro ⟨⟩
      · rintro (h | h) <;> cases h
      · rintro path (h | h)
        · obtain rfl := Option.some.inj h
          exact hold
        · cases h
  | renamed =>
      obtain ⟨-, h⟩ := check_bind_eq_ok.1 h
      obtain ⟨paths, hpaths, h⟩ := bind_eq_ok.1 h
      obtain ⟨hindex, h⟩ := check_bind_eq_ok.1 h
      obtain rfl := Except.ok.inj h
      obtain ⟨holdBlob, hnewBlob⟩ := ensure_eq_ok.1 hindex
      obtain rfl : paths = (headerOldPath, headerNewPath) := by
        rw [require_eq_ok.1 hpaths] at hrename
        simpa using hrename
      refine ⟨rfl, fun _ => ⟨Option.some_ne_none _, holdBlob⟩,
        fun _ => ⟨Option.some_ne_none _, hnewBlob⟩, ?_, ?_, ?_, fun _ => ?_, ?_⟩
      · rintro ⟨⟩
      · rintro ⟨⟩
      · rintro ⟨⟩
      · rcases hmodes with h | h | h
        · exact h
        · cases h
        · cases h
      · rintro path (h | h)
        · obtain rfl := Option.some.inj h
          exact hold
        · obtain rfl := Option.some.inj h
          exact hnew
  | modified =>
      obtain ⟨-, h⟩ := check_bind_eq_ok.1 h
      obtain ⟨hindex, h⟩ := check_bind_eq_ok.1 h
      obtain rfl := Except.ok.inj h
      obtain ⟨holdBlob, hnewBlob⟩ := ensure_eq_ok.1 hindex
      refine ⟨rfl, fun _ => ⟨Option.some_ne_none _, holdBlob⟩,
        fun _ => ⟨Option.some_ne_none _, hnewBlob⟩, ?_, ?_, fun _ => congrArg some (hsame rfl),
        fun _ => ?_, ?_⟩
      · rintro ⟨⟩
      · rintro ⟨⟩
      · rcases hmodes with h | h | h
        · exact h
        · cases h
        · cases h
      · rintro path (h | h)
        · obtain rfl := Option.some.inj h
          exact hold
        · obtain rfl := Option.some.inj h
          exact hnew

theorem finalizeDiffFile_ok {headerOldPath headerNewPath : String}
    (h : finalizeDiffFile s headerOldPath headerNewPath = .ok file) (hindexed : s.Indexed)
    (hold : SafePath headerOldPath) (hnew : SafePath headerNewPath) :
    file.hunks = s.file.hunks ∧ file.Sided := by
  obtain ⟨rename, -, h⟩ := bind_eq_ok.1 h
  obtain ⟨-, h⟩ := check_bind_eq_ok.1 h
  obtain ⟨hpaths, h⟩ := check_bind_eq_ok.1 h
  obtain ⟨hrename, h⟩ := check_bind_eq_ok.1 h
  obtain ⟨-, h⟩ := check_bind_eq_ok.1 h
  obtain ⟨-, h⟩ := check_bind_eq_ok.1 h
  obtain ⟨-, h⟩ := check_bind_eq_ok.1 h
  obtain ⟨-, h⟩ := check_bind_eq_ok.1 h
  obtain ⟨hmodes, h⟩ := check_bind_eq_ok.1 h
  obtain ⟨indexed, hindex, h⟩ := bind_eq_ok.1 h
  obtain ⟨-, h⟩ := check_bind_eq_ok.1 h
  have hsame := withIndexMode_ok hindex
  have hkept : (if rename.isSome then ChangeKind.renamed
      else (s.modeKind.or (markerKind s)).getD .modified) = .modified →
      headerOldPath = headerNewPath := by
    refine fun hkind => (ensure_eq_ok.1 hpaths).resolve_left fun hne => ?_
    -- a rename is never taken for a modification
    rw [if_pos (Option.isSome_iff_ne_none.2 hne)] at hkind
    cases hkind
  obtain ⟨hhunks, hsided⟩ := withSides_ok h
    (by rw [hsame.present, hsame.old, hsame.new]; exact hindexed) (ensure_eq_ok.1 hrename)
    ((ensure_eq_ok.1 hmodes).imp_left hsame.modes) hkept hold hnew
  exact ⟨hhunks.trans hsame.hunks, hsided⟩

end Finalize

/-! ### Accepted diffs -/

/-- What an accepted diff says: how much it is, its hunks in the order of their lines, and the
sides of its files. -/
structure DiffOf (lines : List SourceLine) (files : List DiffFile) : Prop where
  fileLimit : files.length ≤ captureMaxGitChangedFiles
  hunkLimit : (files.flatMap (·.hunks)).length ≤ captureMaxGitDiffHunks
  order : HunksOf lines (files.flatMap (·.hunks))
  sided : ∀ file ∈ files, file.Sided

theorem diffFiles_ok {files read : List DiffFile} {hunkCount skip : Nat} {lines : List SourceLine}
    (h : diffFiles files hunkCount skip lines = .ok read)
    (hfiles : files.length ≤ captureMaxGitChangedFiles)
    (hcount : (files.flatMap (·.hunks)).length = hunkCount)
    (hlimit : hunkCount ≤ captureMaxGitDiffHunks) (hsided : ∀ file ∈ files, file.Sided) :
    ∃ more, read = files ++ more ∧ HunksOf (lines.drop skip) (more.flatMap (·.hunks)) ∧
      read.length ≤ captureMaxGitChangedFiles ∧
      (read.flatMap (·.hunks)).length ≤ captureMaxGitDiffHunks ∧ ∀ file ∈ read, file.Sided := by
  induction lines generalizing files hunkCount skip with
  | nil =>
      rw [diffFiles] at h
      obtain rfl := Except.ok.inj h
      exact ⟨[], by simp, .nil, hfiles, hcount.trans_le hlimit, hsided⟩
  | cons line rest ih =>
      cases skip with
      | succ skip =>
          rw [diffFiles] at h
          exact ih h hfiles hcount hlimit hsided
      | zero =>
          rw [diffFiles] at h
          split at h
          · obtain rfl := Except.ok.inj h
            exact ⟨[], by simp, .nil, hfiles, hcount.trans_le hlimit, hsided⟩
          obtain ⟨paths, hpaths, h⟩ := bind_eq_ok.1 h
          obtain ⟨filed, hfiled, h⟩ := bind_eq_ok.1 h
          obtain ⟨file, hfile, h⟩ := bind_eq_ok.1 h
          obtain ⟨hroom, h⟩ := check_bind_eq_ok.1 h
          obtain ⟨-, hpaths⟩ := check_bind_eq_ok.1 hpaths
          obtain ⟨header, -, hpaths⟩ := bind_eq_ok.1 hpaths
          obtain ⟨hold, hnew⟩ := headerPaths_ok hpaths
          obtain ⟨hunks, hadded⟩ := fileLines_ok hfiled
          obtain ⟨hhunks, hside⟩ :=
            finalizeDiffFile_ok hfile (hadded.indexed fun _ => ⟨rfl, rfl⟩) hold hnew
          have hall : file.hunks = hunks := hhunks.trans hadded.all
          obtain ⟨more, rfl, horder, hrest⟩ := ih h (by simpa using ensure_eq_ok.1 hroom)
            (by rw [hadded.count, ← hcount, ← hall]; simp) (hadded.limit hlimit)
            (by simpa [or_imp, forall_and] using ⟨hsided, hside⟩)
          refine ⟨file :: more, by simp, ?_, hrest⟩
          rw [List.flatMap_cons, hall]
          show HunksOf (line :: rest) _
          rw [← List.take_append_drop filed.2 rest]
          exact (hadded.order.append horder).skip

theorem parseDiff_ok {text : List Char} {files : List DiffFile} (h : parseDiff text = .ok files) :
    DiffOf (sourceLines text) files := by
  obtain ⟨read, hread, h⟩ := bind_eq_ok.1 h
  obtain ⟨-, h⟩ := check_bind_eq_ok.1 h
  obtain rfl := Except.ok.inj h
  obtain ⟨more, rfl, horder, hfiles, hhunks, hsided⟩ :=
    diffFiles_ok hread (Nat.zero_le _) rfl (Nat.zero_le _) (by simp)
  exact ⟨hfiles, hhunks, horder, hsided⟩

end Git
end Capture
end Memzoi
