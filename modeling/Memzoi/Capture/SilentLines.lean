/-
# Headings around silent lines

Source: `capture.rs` (`markdown_sections`).

Lines that are no heading and leave the fence as it is are silent. The headings
of a text with silent lines in it stand before or behind these, and other silent
lines in their place only move what is behind.
-/

import Memzoi.Capture.SectionTree

namespace Memzoi
namespace Capture

open Fallible SourceText Text Outline

/-- No heading is found in the lines, and the same fence is open behind them. -/
structure Silent (fence : Option (Char × Nat)) (lines : List (List Char)) : Prop where
  headings : ∀ offset lineNumber, headingsIn offset lineNumber fence lines = []
  fence : lines.foldl fenceStep fence = fence

/-- A line that is silent behind a fence. -/
def SilentLine (fence : Option (Char × Nat)) (line : List Char) : Prop :=
  (fence = none → parseAtxHeading (logicalLine line) = none) ∧ fenceStep fence line = fence

theorem silent_of_lines {fence : Option (Char × Nat)} {lines : List (List Char)}
    (h : ∀ line ∈ lines, SilentLine fence line) : Silent fence lines := by
  induction lines with
  | nil => exact ⟨fun _ _ => rfl, rfl⟩
  | cons line lines ih =>
      obtain ⟨hheading, hfence⟩ := h line List.mem_cons_self
      obtain ⟨hrest, hrestFence⟩ := ih fun l hl => h l (List.mem_cons_of_mem _ hl)
      constructor
      · intro offset lineNumber
        have hnone : lineHeading offset lineNumber fence line = none := by
          rw [lineHeading]
          split
          · rename_i hopen
            rw [hheading hopen]
            rfl
          · rfl
        rw [headingsIn, hnone, hfence, hrest]
        rfl
      · rw [List.foldl_cons, hfence, hrestFence]

/-! ### Places -/

/-- A place before or behind some lines of a text. -/
inductive Place where
  | before (n : Nat)
  | behind (n : Nat)
  deriving DecidableEq, Repr

/-- The place in a text where what is behind starts at an offset. -/
def Place.at (behindStart : Nat) : Place → Nat
  | before n => n
  | behind n => behindStart + n

structure PlacedHeading where
  start : Place
  line : Place
  level : Nat
  heading : String

/-- The heading in a text where what is behind starts at an offset and a line number. -/
def PlacedHeading.at (behindStart behindLine : Nat) (h : PlacedHeading) : MarkdownHeading :=
  ⟨h.start.at behindStart, h.line.at behindLine, h.level, h.heading⟩

/-- The headings of some lines before and some lines behind. -/
def placedHeadings (before after : List (List Char)) : List PlacedHeading :=
  ((headingsIn 0 1 none before).map fun h =>
      ⟨.before h.start, .before h.line, h.level, h.heading⟩) ++
    (headingsIn 0 0 (fenceAfter before) after).map fun h =>
      ⟨.behind h.start, .behind h.line, h.level, h.heading⟩

theorem headingsIn_moved (bytes count : Nat) {offset lineNumber : Nat} {fence : Option (Char × Nat)}
    {lines : List (List Char)} :
    headingsIn (bytes + offset) (count + lineNumber) fence lines =
      (headingsIn offset lineNumber fence lines).map fun h =>
        { h with start := bytes + h.start, line := count + h.line } := by
  induction lines generalizing offset lineNumber fence with
  | nil => rfl
  | cons line lines ih =>
      rw [headingsIn, headingsIn, Nat.add_assoc, Nat.add_assoc, ih, List.map_append]
      refine congrArg (· ++ _) ?_
      rw [lineHeading, lineHeading]
      split
      · cases parseAtxHeading (logicalLine line) <;> rfl
      · rfl

section Around

variable {before silent after : List (List Char)} {text : List Char}

/-- The headings of a text around silent lines. -/
theorem headingsOf_around (hlines : splitInclusive text = before ++ (silent ++ after))
    (hsilent : Silent (fenceAfter before) silent) :
    headingsOf text = (placedHeadings before after).map
      (PlacedHeading.at (byteLength before.flatten + byteLength silent.flatten)
        (1 + before.length + silent.length)) := by
  rw [headingsOf, hlines, headingsIn_append, headingsIn_append]
  show _ ++ (headingsIn _ _ (fenceAfter before) silent ++
    headingsIn _ _ (silent.foldl fenceStep (fenceAfter before)) after) = _
  rw [hsilent.headings, hsilent.fence, List.nil_append, Nat.zero_add, placedHeadings,
    List.map_append, List.map_map, List.map_map]
  have hmoved := @headingsIn_moved (byteLength before.flatten + byteLength silent.flatten)
    (1 + before.length + silent.length) 0 0 (fenceAfter before) after
  rw [Nat.add_zero, Nat.add_zero] at hmoved
  rw [hmoved]
  refine congrArg (· ++ _) ?_
  exact (List.map_id _).symm

end Around

/-! ### Sections -/

/-- A heading among the placed headings. -/
abbrev Position : Type := List PlacedHeading × PlacedHeading × List PlacedHeading

/-- Where the part of a heading ends: at the next heading, or at the end of the lines behind. -/
def nextPlace (behindLength : Nat) (rest : List PlacedHeading) : Place :=
  (rest.head?.map PlacedHeading.start).getD (.behind behindLength)

/-- The section in a text where what is behind starts at an offset and a line number. -/
def sectionFor (behindLength behindStart behindLine : Nat) (p : Position) : MarkdownSection :=
  sectionAt (behindStart + behindLength)
    (p.1.map (PlacedHeading.at behindStart behindLine), p.2.1.at behindStart behindLine,
      p.2.2.map (PlacedHeading.at behindStart behindLine))

section SectionFor

variable {behindLength behindStart behindLine : Nat} {p : Position}

@[simp] theorem sectionFor_start :
    (sectionFor behindLength behindStart behindLine p).start = p.2.1.start.at behindStart := rfl

@[simp] theorem sectionFor_kind :
    (sectionFor behindLength behindStart behindLine p).kind = (typedHeading p.2.1.heading).1 := rfl

@[simp] theorem sectionFor_title :
    (sectionFor behindLength behindStart behindLine p).title = (typedHeading p.2.1.heading).2 := rfl

@[simp] theorem sectionFor_directEnd :
    (sectionFor behindLength behindStart behindLine p).directEnd =
      (nextPlace behindLength p.2.2).at behindStart := by
  show headPlace _ _ (p.2.2.map _) = _
  rw [headPlace, nextPlace]
  cases p.2.2 <;> rfl

@[simp] theorem sectionFor_headingPath :
    (sectionFor behindLength behindStart behindLine p).headingPath =
      (openItems PlacedHeading.level (p.1 ++ [p.2.1])).map PlacedHeading.heading := by
  show (openItems _ (p.1.map _ ++ [_])).map _ = _
  have hopen := @openItems_map _ _ MarkdownHeading.level
    (PlacedHeading.at behindStart behindLine) (p.1 ++ [p.2.1])
  rw [List.map_append] at hopen
  rw [List.map_singleton] at hopen
  rw [hopen, List.map_map]
  rfl

end SectionFor

/-- A place that is not behind the lines before the silent ones. -/
def Place.Fits (beforeLength : Nat) : Place → Prop
  | before n => n ≤ beforeLength
  | behind _ => True

section Around

variable {before silent silent' after : List (List Char)} {text text' : List Char}
  {sections : List MarkdownSection}

theorem byteLength_around (hlines : splitInclusive text = before ++ (silent ++ after)) :
    byteLength text = byteLength before.flatten + byteLength silent.flatten +
      byteLength after.flatten := by
  have htext : (splitInclusive text).flatten = text := Segments.flatten_segments text
  rw [← htext, hlines, List.flatten_append, List.flatten_append, byteLength_append,
    byteLength_append, Nat.add_assoc]

theorem markdownSections_around (hlines : splitInclusive text = before ++ (silent ++ after))
    (hsilent : Silent (fenceAfter before) silent) (h : markdownSections text = .ok sections) :
    sections = (positions [] (placedHeadings before after)).map
      (sectionFor (byteLength after.flatten)
        (byteLength before.flatten + byteLength silent.flatten)
        (1 + before.length + silent.length)) := by
  rw [markdownSections_eq h, headingsOf_around hlines hsilent, byteLength_around hlines]
  have hpositions := positions_map (PlacedHeading.at
    (byteLength before.flatten + byteLength silent.flatten) (1 + before.length + silent.length)) []
    (placedHeadings before after)
  rw [List.map_nil] at hpositions
  rw [hpositions, List.map_map]
  rfl

/-- Other silent lines in the place of some keep the sections. -/
theorem exists_sections_around (hlines : splitInclusive text = before ++ (silent ++ after))
    (hlines' : splitInclusive text' = before ++ (silent' ++ after))
    (hsilent : Silent (fenceAfter before) silent) (hsilent' : Silent (fenceAfter before) silent')
    (h : markdownSections text = .ok sections) :
    ∃ sections', markdownSections text' = .ok sections' := by
  have hfew := exists_markdownSections.1 ⟨sections, h⟩
  rw [headingsOf_around hlines hsilent, List.length_map] at hfew
  refine exists_markdownSections.2 ?_
  rw [headingsOf_around hlines' hsilent', List.length_map]
  exact hfew

/-- A placed heading has its line before or behind the silent lines. -/
theorem exists_line_of_mem {h : PlacedHeading} (hh : h ∈ placedHeadings before after) :
    (∃ front line back, before = front ++ line :: back ∧ h.start = .before (byteLength front.flatten)) ∨
      ∃ front line back, after = front ++ line :: back ∧
        h.start = .behind (byteLength front.flatten) := by
  rcases List.mem_append.1 hh with hmem | hmem
  · obtain ⟨g, hg, rfl⟩ := List.mem_map.1 hmem
    obtain ⟨front, line, back, hlines, -, -, hstart, -⟩ := mem_headingsIn.1 hg
    exact Or.inl ⟨front, line, back, hlines, by rw [hstart, Nat.zero_add]⟩
  · obtain ⟨g, hg, rfl⟩ := List.mem_map.1 hmem
    obtain ⟨front, line, back, hlines, -, -, hstart, -⟩ := mem_headingsIn.1 hg
    exact Or.inr ⟨front, line, back, hlines, by rw [hstart, Nat.zero_add]⟩

theorem fits_start {h : PlacedHeading} (hh : h ∈ placedHeadings before after) :
    h.start.Fits (byteLength before.flatten) := by
  rcases exists_line_of_mem hh with ⟨front, line, back, rfl, hstart⟩ | ⟨front, line, back, -, hstart⟩
  · rw [hstart, List.flatten_append, byteLength_append]
    exact Nat.le_add_right _ _
  · rw [hstart]
    trivial

theorem fits_nextPlace {p : Position} (hp : p ∈ positions [] (placedHeadings before after))
    (behindLength : Nat) : (nextPlace behindLength p.2.2).Fits (byteLength before.flatten) := by
  obtain ⟨front, -, hitems⟩ := mem_positions.1 hp
  rw [nextPlace]
  cases hrest : p.2.2 with
  | nil => trivial
  | cons g rest =>
      have hg : g ∈ placedHeadings before after := by
        rw [hitems, hrest]
        exact List.mem_append_right _ (List.mem_cons_of_mem _ List.mem_cons_self)
      exact fits_start hg

end Around

end Capture
end Memzoi
