/-
# Hunks of a Git diff

Source: `capture/adapters/git_change.rs` (`parse_hunk`, `parse_hunk_header`,
`parse_range`, `inclusive_line_end`).

A hunk is read until both of its sides have the lines that its header counts.
What the reader keeps are the runs of added and of removed lines, each line with
its place on its side (`parseHunk_ok`), so that a run stands at its place in
every file that has the side of the hunk (`Placed.of_numbered`).
-/

import Memzoi.Capture.Instruction
import Memzoi.Capture.MarkdownSections
import Memzoi.Lib.Runs
import Memzoi.OkfMarkdown
import Mathlib

namespace Memzoi
namespace Capture
namespace Git

open Fallible Runs Text

/-! ### Numbers -/

/-- `u64::checked_add`. -/
def checkedAdd (a b : Nat) (message : String) : Fallible Nat :=
  require (if a + b < 2 ^ 64 then some (a + b) else none) message

@[simp] theorem checkedAdd_eq_ok {a b n : Nat} {message : String} :
    checkedAdd a b message = .ok n ↔ a + b < 2 ^ 64 ∧ a + b = n := by
  rw [checkedAdd, require_eq_ok]
  split <;> simp_all

/-- `str::parse::<u64>`, which takes a plus sign. -/
def parseU64 (text : List Char) : Option Nat :=
  let digits := (text.dropPrefix? [ '+']).getD text
  let n := digits.foldl (fun n c => 10 * n + (c.toNat - 48)) 0
  if digits ≠ [] ∧ digits.all Char.isDigit = true ∧ n < 2 ^ 64 then some n else none

def inclusiveLineEnd (start count : Nat) : Fallible (Option Nat) :=
  if count = 0 then .ok none
  else do
    ensure (start ≠ 0) "Git diff non-empty line range cannot start at zero"
    let stop ← checkedAdd start (count - 1) "Git diff line range overflows"
    .ok (some stop)

def parseRange (value : List Char) : Fallible (Nat × Nat) := do
  let parts := (Okf.splitOnce [ ','] value).getD (value, [ '1'])
  let start ← require (parseU64 parts.1) "Git diff line start is invalid"
  let count ← require (parseU64 parts.2) "Git diff line count is invalid"
  .ok (start, count)

/-! ### Hunks -/

/-- A line of one side, with its place on that side. -/
structure ChangedLine where
  content : List Char
  start : Nat
  stop : Nat
  sourceLine : Nat
  line : Nat
  deriving DecidableEq, Repr

/-- The line ranges of a hunk on its two sides. -/
structure HunkRanges where
  oldStart : Nat
  oldCount : Nat
  newStart : Nat
  newCount : Nat
  deriving DecidableEq, Repr

structure DiffHunk extends HunkRanges where
  header : List Char
  addedBlocks : List (List ChangedLine)
  removedBlocks : List (List ChangedLine)
  deletedTypedGuidance : Bool
  deriving DecidableEq, Repr

def parseHunkHeader (header : List Char) : Fallible HunkRanges := do
  let rest ← require (header.dropPrefix? "@@ -".toList) "Git diff hunk header must start with @@ -"
  let oldParts ← require (Okf.splitOnce " +".toList rest)
    "Git diff hunk header is missing the new range"
  let newParts ← require (Okf.splitOnce " @@".toList oldParts.2)
    "Git diff hunk header is not terminated"
  let old ← parseRange oldParts.1
  let new ← parseRange newParts.1
  let _ ← inclusiveLineEnd old.1 old.2
  let _ ← inclusiveLineEnd new.1 new.2
  .ok ⟨old.1, old.2, new.1, new.2⟩

/-- Where the reader of a hunk stands. -/
structure HunkState where
  oldUsed : Nat
  newUsed : Nat
  addedBlocks : List (List ChangedLine)
  removedBlocks : List (List ChangedLine)
  deletedTypedGuidance : Bool
  previousAdded : Bool
  previousRemoved : Bool

def HunkState.initial : HunkState := ⟨0, 0, [], [], false, false, false⟩

/-- Put a line behind the last block, or behind a new one. -/
def pushLine (joins : Bool) (line : ChangedLine) (blocks : List (List ChangedLine))
    (message : String) : Fallible (List (List ChangedLine)) :=
  let blocks := if joins then blocks else blocks ++ [[]]
  match blocks.getLast? with
  | some last => .ok (blocks.dropLast ++ [last ++ [line]])
  | none => .error (.panic message)

def isTypedHeading (content : List Char) : Bool :=
  ((parseAtxHeading content).bind fun heading => (typedHeading heading.2).1).isSome

def noNewline : List Char := "\\ No newline at end of file".toList

def hunkLine (ranges : HunkRanges) (s : HunkState) (line : SourceLine) : Fallible HunkState :=
  match line.logical with
  | '+' :: content => do
    let newLine ← checkedAdd ranges.newStart s.newUsed "Git diff new line coordinate overflows"
    let addedBlocks ← pushLine s.previousAdded
      ⟨content, line.start, line.stop, line.number, newLine⟩ s.addedBlocks "added block exists"
    let newUsed ← checkedAdd s.newUsed 1 "Git diff new line count overflows"
    .ok { s with addedBlocks, newUsed, previousAdded := true, previousRemoved := false }
  | '-' :: content => do
    let oldLine ← checkedAdd ranges.oldStart s.oldUsed "Git diff old line coordinate overflows"
    let removedBlocks ← pushLine s.previousRemoved
      ⟨content, line.start, line.stop, line.number, oldLine⟩ s.removedBlocks
      "removed block exists"
    let oldUsed ← checkedAdd s.oldUsed 1 "Git diff old line count overflows"
    .ok { s with
      removedBlocks, oldUsed
      deletedTypedGuidance := s.deletedTypedGuidance || isTypedHeading content
      previousAdded := false, previousRemoved := true }
  | ' ' :: _ => do
    let oldUsed ← checkedAdd s.oldUsed 1 "Git diff old line count overflows"
    let newUsed ← checkedAdd s.newUsed 1 "Git diff new line count overflows"
    .ok { s with oldUsed, newUsed, previousAdded := false, previousRemoved := false }
  | logical => do
    ensure (logical = noNewline) "Git diff hunk contains an invalid line prefix"
    .ok { s with previousAdded := false, previousRemoved := false }

/-- Read lines until both sides are full; how many they were comes with the state. -/
def hunkBody (ranges : HunkRanges) : HunkState → List SourceLine → Fallible (HunkState × Nat)
  | s, [] => .ok (s, 0)
  | s, line :: rest =>
    if s.oldUsed = ranges.oldCount ∧ s.newUsed = ranges.newCount then .ok (s, 0)
    else do
      let s ← hunkLine ranges s line
      let body ← hunkBody ranges s rest
      .ok (body.1, body.2 + 1)

def parseHunk (header : SourceLine) (rest : List SourceLine) : Fallible (DiffHunk × Nat) := do
  let ranges ← parseHunkHeader header.logical
  let body ← hunkBody ranges HunkState.initial rest
  ensure (body.1.oldUsed = ranges.oldCount ∧ body.1.newUsed = ranges.newCount)
    "Git diff hunk line counts do not match its header"
  .ok (
    { ranges with
      header := header.logical
      addedBlocks := body.1.addedBlocks
      removedBlocks := body.1.removedBlocks
      deletedTypedGuidance := body.1.deletedTypedGuidance },
    body.2)

/-! ### Sides -/

inductive Side where
  | old | new
  deriving DecidableEq, Repr

/-- The first character of a line that only the side has. -/
def Side.mark : Side → Char
  | old => '-'
  | new => '+'

/-- The text of a line on a side. -/
def Side.text (side : Side) (line : SourceLine) : Option (List Char) :=
  match line.logical with
  | [] => none
  | c :: content => if c = side.mark ∨ c = ' ' then some content else none

def Side.texts (side : Side) (lines : List SourceLine) : List (List Char) :=
  lines.filterMap side.text

def HunkRanges.start (ranges : HunkRanges) : Side → Nat
  | .old => ranges.oldStart
  | .new => ranges.newStart

def HunkRanges.count (ranges : HunkRanges) : Side → Nat
  | .old => ranges.oldCount
  | .new => ranges.newCount

def DiffHunk.blocks (hunk : DiffHunk) : Side → List (List ChangedLine)
  | .old => hunk.removedBlocks
  | .new => hunk.addedBlocks

/-- A line of a hunk, with where the sides stand there. -/
structure HunkEntry where
  line : SourceLine
  place : Side → Nat

def numbered (place : Side → Nat) : List SourceLine → List HunkEntry
  | [] => []
  | line :: rest =>
    ⟨line, place⟩ :: numbered (fun side => place side + (side.text line).toList.length) rest

/-- The line is one that only the side has. -/
def HunkEntry.marked (side : Side) (e : HunkEntry) : Bool := e.line.logical.head? = some side.mark

def HunkEntry.changed (side : Side) (e : HunkEntry) : ChangedLine :=
  ⟨e.line.logical.tail, e.line.start, e.line.stop, e.line.number, e.place side⟩

theorem numbered_append (place : Side → Nat) (lines others : List SourceLine) :
    numbered place (lines ++ others) = numbered place lines ++
      numbered (fun side => place side + (side.texts lines).length) others := by
  induction lines generalizing place with
  | nil => rfl
  | cons line lines ih =>
      rw [List.cons_append, numbered, ih, numbered, List.cons_append]
      have hplace : ∀ side : Side, place side + (side.text line).toList.length +
          (side.texts lines).length = place side + (side.texts (line :: lines)).length := by
        intro side
        rw [Side.texts, Side.texts, List.filterMap_cons]
        cases side.text line
        · simp
        · simp [Nat.add_assoc, Nat.add_comm 1]
      simp only [hplace]

theorem map_line_numbered (place : Side → Nat) (lines : List SourceLine) :
    (numbered place lines).map (·.line) = lines := by
  induction lines generalizing place with
  | nil => rfl
  | cons line lines ih => rw [numbered, List.map_cons, ih]

@[simp] theorem length_numbered (place : Side → Nat) (lines : List SourceLine) :
    (numbered place lines).length = lines.length := by
  rw [← List.length_map (·.line), map_line_numbered]

/-- A part of the numbered lines are the lines there, numbered from there on. -/
theorem exists_of_numbered_eq {place : Side → Nat} {lines : List SourceLine}
    {before part after : List HunkEntry}
    (h : numbered place lines = before ++ part ++ after) :
    ∃ first mid last, lines = first ++ mid ++ last ∧
      part = numbered (fun side => place side + (side.texts first).length) mid := by
  have hlines := congrArg (List.map (·.line)) h
  rw [map_line_numbered, List.map_append, List.map_append] at hlines
  refine ⟨_, _, _, hlines, ?_⟩
  rw [hlines, numbered_append, numbered_append] at h
  have hfirst := (List.append_inj h (by simp)).1
  exact (List.append_inj hfirst (by simp)).2.symm

section Marked

variable {side : Side} {place : Side → Nat} {lines : List SourceLine}

theorem text_of_marked {e : HunkEntry} (h : e.marked side = true) :
    side.text e.line = some (e.changed side).content := by
  obtain ⟨⟨start, stop, number, logical⟩, place⟩ := e
  cases logical with
  | nil => simp [HunkEntry.marked] at h
  | cons c content =>
      obtain rfl : c = side.mark := by simpa [HunkEntry.marked] using h
      exact if_pos (Or.inl rfl)

/-- Lines that only one side has are that side, and each of them is a line further on. -/
theorem marked_numbered (h : ∀ e ∈ numbered place lines, e.marked side = true) :
    side.texts lines = (numbered place lines).map (fun e => (e.changed side).content) ∧
      (numbered place lines).map (fun e => (e.changed side).line) =
        List.range' (place side) lines.length := by
  induction lines generalizing place with
  | nil => exact ⟨rfl, rfl⟩
  | cons line lines ih =>
      have htext := text_of_marked (h ⟨line, place⟩ List.mem_cons_self)
      obtain ⟨htexts, hline⟩ := ih fun e he => h e (List.mem_cons_of_mem _ he)
      refine ⟨?_, ?_⟩
      · rw [Side.texts, List.filterMap_cons_some htext, numbered, List.map_cons]
        exact congrArg _ htexts
      · rw [numbered, List.map_cons, hline, htext, List.length_cons, List.range'_succ]
        rfl

end Marked

/-! ### Places -/

/-- The lines stand in a file from a line on; the first line of the file is line 1. -/
def Placed (file : List (List Char)) (start : Nat) (lines : List (List Char)) : Prop :=
  ∃ before after, file = before ++ lines ++ after ∧ before.length + 1 = start

theorem Placed.part {file first mid last : List (List Char)} {start : Nat}
    (h : Placed file start (first ++ mid ++ last)) : Placed file (start + first.length) mid := by
  obtain ⟨before, after, rfl, rfl⟩ := h
  refine ⟨before ++ first, last ++ after, by simp, ?_⟩
  rw [List.length_append]
  omega

/-- Lines of a block that follow each other. -/
structure PartOf (blocks : List (List ChangedLine)) (part : List ChangedLine) : Prop where
  nonempty : part ≠ []
  block : ∃ block ∈ blocks, part <:+: block

/-- Consecutive lines with their places, in every file in which the side stands at its start. -/
structure PlacedPart (side : Side) (start : Nat) (lines : List SourceLine)
    (part : List ChangedLine) : Prop where
  source : ∃ place mid, mid <:+: lines ∧ part = (numbered place mid).map (·.changed side)
  places : ∃ first, part.map (·.line) = List.range' first part.length
  placed : ∀ file, Placed file start (side.texts lines) →
    ∀ line ∈ part.head?, Placed file line.line (part.map (·.content))

theorem placedPart_of_marked {side : Side} {place : Side → Nat} {lines : List SourceLine}
    {before part after : List HunkEntry} (h : numbered place lines = before ++ part ++ after)
    (hmarked : ∀ e ∈ part, e.marked side = true) :
    PlacedPart side (place side) lines (part.map (·.changed side)) := by
  obtain ⟨first, mid, last, rfl, rfl⟩ := exists_of_numbered_eq h
  obtain ⟨htexts, hline⟩ := marked_numbered hmarked
  refine ⟨⟨_, mid, ⟨first, last, rfl⟩, rfl⟩,
    ⟨_, by rw [List.map_map, List.length_map, length_numbered]; exact hline⟩,
    fun file hfile line hhead => ?_⟩
  rw [Side.texts, List.filterMap_append, List.filterMap_append] at hfile
  have hmid := hfile.part
  rw [← Side.texts, ← Side.texts, htexts] at hmid
  have hplace : line.line = place side + (side.texts first).length := by
    cases mid with
    | nil => cases hhead
    | cons l mid =>
        obtain rfl := Option.some.inj hhead
        rfl
  rw [hplace, List.map_map]
  exact hmid

/-! ### Reading -/

def HunkState.used (s : HunkState) : Side → Nat
  | .old => s.oldUsed
  | .new => s.newUsed

def HunkState.blocks (s : HunkState) : Side → List (List ChangedLine)
  | .old => s.removedBlocks
  | .new => s.addedBlocks

/-- The line before is one that only the side has. -/
def HunkState.previous (s : HunkState) : Side → Bool
  | .old => s.previousRemoved
  | .new => s.previousAdded

section Reading

variable {ranges : HunkRanges} {s s' : HunkState} {line : SourceLine}

/-- What a line does to one side. -/
structure LineRead (ranges : HunkRanges) (s : HunkState) (line : SourceLine) (s' : HunkState)
    (side : Side) : Prop where
  used : s'.used side = s.used side + (side.text line).toList.length
  previous : s'.previous side = decide (line.logical.head? = some side.mark)
  pushed : line.logical.head? = some side.mark → ∃ message, pushLine (s.previous side)
    ⟨line.logical.tail, line.start, line.stop, line.number, ranges.start side + s.used side⟩
    (s.blocks side) message = .ok (s'.blocks side)
  kept : line.logical.head? ≠ some side.mark → s'.blocks side = s.blocks side

theorem lineRead_of_ne {side : Side} (hne : line.logical.head? ≠ some side.mark)
    (hused : s'.used side = s.used side + (side.text line).toList.length)
    (hprevious : s'.previous side = false) (hblocks : s'.blocks side = s.blocks side) :
    LineRead ranges s line s' side :=
  ⟨hused, by rw [hprevious, decide_eq_false hne], fun heq => absurd heq hne, fun _ => hblocks⟩

theorem hunkLine_ok (h : hunkLine ranges s line = .ok s') (side : Side) :
    LineRead ranges s line s' side := by
  unfold hunkLine at h
  split at h
  · rename_i content hlogical
    obtain ⟨newLine, hline, h⟩ := bind_eq_ok.1 h
    obtain ⟨blocks, hblocks, h⟩ := bind_eq_ok.1 h
    obtain ⟨used, hused, h⟩ := bind_eq_ok.1 h
    obtain rfl := Except.ok.inj h
    obtain ⟨-, rfl⟩ := checkedAdd_eq_ok.1 hline
    obtain ⟨-, rfl⟩ := checkedAdd_eq_ok.1 hused
    cases side with
    | new =>
        exact ⟨by simp [HunkState.used, Side.text, hlogical, Side.mark], by rw [hlogical]; rfl,
          fun _ => ⟨_, by rw [hlogical]; exact hblocks⟩, fun hne => absurd (by rw [hlogical]; rfl) hne⟩
    | old =>
        exact lineRead_of_ne (by simp [hlogical, Side.mark])
          (by simp [HunkState.used, Side.text, hlogical, Side.mark]) rfl rfl
  · rename_i content hlogical
    obtain ⟨oldLine, hline, h⟩ := bind_eq_ok.1 h
    obtain ⟨blocks, hblocks, h⟩ := bind_eq_ok.1 h
    obtain ⟨used, hused, h⟩ := bind_eq_ok.1 h
    obtain rfl := Except.ok.inj h
    obtain ⟨-, rfl⟩ := checkedAdd_eq_ok.1 hline
    obtain ⟨-, rfl⟩ := checkedAdd_eq_ok.1 hused
    cases side with
    | old =>
        exact ⟨by simp [HunkState.used, Side.text, hlogical, Side.mark], by rw [hlogical]; rfl,
          fun _ => ⟨_, by rw [hlogical]; exact hblocks⟩, fun hne => absurd (by rw [hlogical]; rfl) hne⟩
    | new =>
        exact lineRead_of_ne (by simp [hlogical, Side.mark])
          (by simp [HunkState.used, Side.text, hlogical, Side.mark]) rfl rfl
  · -- a line of both sides
    rename_i content hlogical
    obtain ⟨oldUsed, hold, h⟩ := bind_eq_ok.1 h
    obtain ⟨newUsed, hnew, h⟩ := bind_eq_ok.1 h
    obtain rfl := Except.ok.inj h
    obtain ⟨-, rfl⟩ := checkedAdd_eq_ok.1 hold
    obtain ⟨-, rfl⟩ := checkedAdd_eq_ok.1 hnew
    cases side <;> exact lineRead_of_ne (by simp [hlogical, Side.mark])
      (by simp [HunkState.used, Side.text, hlogical]) rfl rfl
  · -- the marker of a missing newline is on no side
    obtain ⟨hmarker, h⟩ := check_bind_eq_ok.1 h
    obtain rfl := Except.ok.inj h
    have hlogical : line.logical = '\\' :: noNewline.tail := ensure_eq_ok.1 hmarker
    cases side <;> exact lineRead_of_ne (by simp [hlogical, Side.mark])
      (by simp [HunkState.used, Side.text, hlogical, Side.mark]) rfl rfl

/-- The blocks of a side are the runs of the lines that only it has. -/
def BlocksOf (ranges : HunkRanges) (side : Side) (lines : List SourceLine)
    (blocks : List (List ChangedLine)) : Prop :=
  ∃ runs, RunsOf (·.marked side) (numbered ranges.start lines) runs ∧
    blocks = runs.map (List.map (·.changed side))

/-- What the state tells about the lines read so far. -/
structure LinesRead (ranges : HunkRanges) (lines : List SourceLine) (s : HunkState) (side : Side) :
    Prop where
  used : s.used side = (side.texts lines).length
  previous : s.previous side = true ↔ Open (·.marked side) (numbered ranges.start lines)
  blocks : BlocksOf ranges side lines (s.blocks side)

theorem linesRead_initial (ranges : HunkRanges) (side : Side) :
    LinesRead ranges [] HunkState.initial side := by
  cases side <;> exact ⟨rfl, iff_of_false (by decide) not_open_nil, [], .nil, rfl⟩

theorem numbered_concat {ranges : HunkRanges} {lines : List SourceLine}
    (hread : ∀ side, LinesRead ranges lines s side) :
    numbered ranges.start (lines ++ [line]) = numbered ranges.start lines ++
      [⟨line, fun side => ranges.start side + s.used side⟩] := by
  rw [numbered_append, numbered, numbered]
  simp only [(hread _).used]

theorem LinesRead.step {lines : List SourceLine} (hread : ∀ side, LinesRead ranges lines s side)
    (h : hunkLine ranges s line = .ok s') (side : Side) :
    LinesRead ranges (lines ++ [line]) s' side := by
  obtain ⟨hused, hprevious, hblocks⟩ := hread side
  have hline := hunkLine_ok h side
  refine ⟨?_, ?_, ?_⟩
  · rw [hline.used, hused, Side.texts, Side.texts, List.filterMap_append, List.length_append]
    cases hline : side.text line <;> simp [hline]
  · rw [hline.previous, numbered_concat hread, open_concat]
    rfl
  · rw [BlocksOf, numbered_concat hread]
    obtain ⟨runs, hruns, hold⟩ := hblocks
    by_cases hmark : line.logical.head? = some side.mark
    · obtain ⟨message, hpush⟩ := hline.pushed hmark
      rw [pushLine, hold] at hpush
      have hmarked : HunkEntry.marked side ⟨line, fun side => ranges.start side + s.used side⟩ =
          true := decide_eq_true hmark
      by_cases hopen : s.previous side = true
      · obtain ⟨others, run, rfl, hlonger⟩ := hruns.prolong (hprevious.1 hopen) hmarked
        refine ⟨_, hlonger, ?_⟩
        simpa [hopen, HunkEntry.changed] using hpush.symm
      · refine ⟨_, hruns.single (mt hprevious.2 hopen) hmarked, ?_⟩
        simpa [hopen, HunkEntry.changed] using hpush.symm
    · rw [hline.kept hmark]
      exact ⟨runs, hruns.gap (decide_eq_false hmark), hold⟩

theorem hunkBody_read {lines rest : List SourceLine} {body : HunkState × Nat}
    (hread : ∀ side, LinesRead ranges lines s side) (h : hunkBody ranges s rest = .ok body) :
    body.2 ≤ rest.length ∧
      ∀ side, LinesRead ranges (lines ++ rest.take body.2) body.1 side := by
  induction rest generalizing s lines body with
  | nil =>
      obtain rfl := Except.ok.inj h
      exact ⟨le_rfl, by simpa using hread⟩
  | cons line rest ih =>
      rw [hunkBody] at h
      split at h
      · obtain rfl := Except.ok.inj h
        exact ⟨Nat.zero_le _, by simpa using hread⟩
      · obtain ⟨s', hs', h⟩ := bind_eq_ok.1 h
        obtain ⟨body', hbody', h⟩ := bind_eq_ok.1 h
        obtain rfl := Except.ok.inj h
        obtain ⟨hlength, hall⟩ := ih (LinesRead.step hread hs') hbody'
        refine ⟨Nat.succ_le_succ hlength, ?_⟩
        simpa using hall

end Reading

/-- A side of a hunk: the lines that its header counts, and the runs that only it has. -/
structure DiffHunk.SideOf (hunk : DiffHunk) (lines : List SourceLine) (side : Side) : Prop where
  count : (side.texts lines).length = hunk.count side
  blocks : BlocksOf hunk.toHunkRanges side lines (hunk.blocks side)

theorem parseHunk_ok {header : SourceLine} {rest : List SourceLine} {hunk : DiffHunk} {used : Nat}
    (h : parseHunk header rest = .ok (hunk, used)) :
    used ≤ rest.length ∧ ∀ side, hunk.SideOf (rest.take used) side := by
  obtain ⟨ranges, -, h⟩ := bind_eq_ok.1 h
  obtain ⟨body, hbody, h⟩ := bind_eq_ok.1 h
  obtain ⟨hfull, h⟩ := check_bind_eq_ok.1 h
  obtain ⟨rfl, rfl⟩ := Prod.mk.inj (Except.ok.inj h)
  obtain ⟨hlength, hread⟩ := hunkBody_read (linesRead_initial ranges) hbody
  obtain ⟨hold, hnew⟩ := ensure_eq_ok.1 hfull
  refine ⟨hlength, fun side => ?_⟩
  obtain ⟨hused, -, hblocks⟩ := hread side
  rw [List.nil_append] at hused hblocks
  cases side with
  | old => exact ⟨hused.symm.trans hold, hblocks⟩
  | new => exact ⟨hused.symm.trans hnew, hblocks⟩

/-- Lines of a block that follow each other are at their places. -/
theorem BlocksOf.placedPart {ranges : HunkRanges} {side : Side} {lines : List SourceLine}
    {blocks : List (List ChangedLine)} (h : BlocksOf ranges side lines blocks)
    {part : List ChangedLine} (hpart : PartOf blocks part) :
    PlacedPart side (ranges.start side) lines part := by
  obtain ⟨runs, hruns, rfl⟩ := h
  obtain ⟨block, hblock, first, last, hsplit⟩ := hpart.block
  obtain ⟨run, hrun, rfl⟩ := List.mem_map.1 hblock
  obtain ⟨before, after, hat⟩ := hruns.exists_runAt hrun
  obtain ⟨front, last', rfl, hfront, rfl⟩ := List.map_eq_append_iff.1 hsplit.symm
  obtain ⟨first', mid, rfl, rfl, rfl⟩ := List.map_eq_append_iff.1 hfront
  have hentries : numbered ranges.start lines = (before ++ first') ++ mid ++ (last' ++ after) := by
    rw [hat.eq]
    simp
  refine placedPart_of_marked hentries fun e he => hat.holds e ?_
  exact List.mem_append_left _ (List.mem_append_right _ he)

end Git
end Capture
end Memzoi
