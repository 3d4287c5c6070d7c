/-
# The lines below the headings

Source: `capture.rs` (`markdown_sections`) and `capture/adapters/adr.rs`
(`section_body`).

A text is the lines before its first heading and, for every heading, the lines
below it up to the next one. The text below a section's heading is that of these
lines, and without the lines inside fenced code the headings are the same.
-/

import Memzoi.Capture.SilentLines
import Memzoi.Capture.MarkdownExtraction
import Mathlib

namespace Memzoi
namespace Capture

open Fallible SourceText Text Outline

/-- A heading with the lines below it. -/
structure HeadingPart where
  level : Nat
  heading : String
  below : List (List Char)
  deriving DecidableEq, Repr

def HeadingPart.title (part : HeadingPart) : String := (typedHeading part.heading).2

def HeadingPart.text (part : HeadingPart) : List Char := trimChars part.below.flatten

def headingAt (fence : Option (Char × Nat)) (line : List Char) : Option (Nat × String) :=
  if fence = none then parseAtxHeading (logicalLine line) else none

/-- The lines before the first heading, and the headings with the lines below them. -/
def partsIn (fence : Option (Char × Nat)) : List (List Char) → List (List Char) × List HeadingPart
  | [] => ([], [])
  | line :: rest =>
    let (front, parts) := partsIn (fenceStep fence line) rest
    match headingAt fence line with
    | some (level, heading) => ([], ⟨level, heading, front⟩ :: parts)
    | none => (line :: front, parts)

theorem lineHeading_eq (offset lineNumber : Nat) (fence : Option (Char × Nat)) (line : List Char) :
    lineHeading offset lineNumber fence line =
      (headingAt fence line).map fun parsed => ⟨offset, lineNumber, parsed.1, parsed.2⟩ := by
  rw [lineHeading, headingAt]
  split <;> rfl

theorem partsIn_heading {fence : Option (Char × Nat)} {line : List Char} {parsed : Nat × String}
    (h : headingAt fence line = some parsed) (rest : List (List Char)) :
    partsIn fence (line :: rest) = ([], ⟨parsed.1, parsed.2, (partsIn (fenceStep fence line) rest).1⟩ ::
      (partsIn (fenceStep fence line) rest).2) := by
  rw [partsIn, h]

theorem partsIn_plain {fence : Option (Char × Nat)} {line : List Char}
    (h : headingAt fence line = none) (rest : List (List Char)) :
    partsIn fence (line :: rest) = (line :: (partsIn (fenceStep fence line) rest).1,
      (partsIn (fenceStep fence line) rest).2) := by
  rw [partsIn, h]

/-! ### Sections -/

section Sections

variable {text : List Char} {pre lines : List (List Char)}

/-- A slice behind a line is a slice from the line on. -/
theorem slice_line {line mid : List Char} {stop : Nat}
    (hlines : splitInclusive text = pre ++ line :: lines)
    (h : slice text (byteLength (pre ++ [line]).flatten) stop = some mid) :
    slice text (byteLength pre.flatten) stop = some (line ++ mid) := by
  obtain ⟨front, post, htext, hstart, hstop⟩ := slice_eq_some.1 h
  have hsplit : (pre ++ [line]).flatten ++ lines.flatten = front ++ (mid ++ post) := by
    rw [← List.append_assoc front, ← htext, flatten_lines hlines]
    simp
  obtain ⟨rfl, -⟩ := append_inj_byteLength hsplit hstart.symm
  refine slice_eq_some.2 ⟨pre.flatten, post, ?_, rfl, ?_⟩
  · rw [htext]
    simp
  · rw [← hstop]
    simp

/-- What is behind the end of the first line. -/
theorem drop_line {line tail : List Char} (hne : line ≠ []) (hinner : '\n' ∉ line.dropLast)
    (hend : line.getLast? = some '\n' ∨ tail = []) :
    ((line ++ tail).dropWhile (· ≠ '\n')).drop 1 = tail := by
  rcases List.eq_nil_or_concat' line with hnil | ⟨init, last, rfl⟩
  · exact absurd hnil hne
  rw [List.dropLast_concat] at hinner
  have hkept : ∀ c ∈ init, decide (c ≠ '\n') = true := fun c hc =>
    decide_eq_true fun heq : c = '\n' => hinner (heq ▸ hc)
  rw [List.append_assoc, List.dropWhile_append_of_pos hkept]
  by_cases hlast : last = '\n'
  · rw [hlast, List.singleton_append, List.dropWhile_cons_of_neg (by simp), List.drop_one,
      List.tail_cons]
  · rcases hend with hend | rfl
    · rw [List.getLast?_concat] at hend
      exact absurd (Option.some.inj hend) hlast
    · rw [List.append_nil, List.dropWhile_cons_of_pos (by simpa using hlast)]
      rfl

theorem bodyBelow_line {line : List Char} {stop : Nat} {below : List (List Char)}
    (hlines : splitInclusive text = pre ++ line :: lines) (hbelow : lines = [] → below = [])
    (h : slice text (byteLength pre.flatten) stop = some (line ++ below.flatten)) :
    bodyBelow text (byteLength pre.flatten) stop = .ok (trimChars below.flatten) := by
  have hsegment : line ≠ [] ∧ '\n' ∉ line.dropLast := Segments.segment_of_mem
    (hlines ▸ List.mem_append_right _ List.mem_cons_self)
  have hend : line.getLast? = some '\n' ∨ below.flatten = [] := by
    cases lines with
    | nil => exact Or.inr (by rw [hbelow rfl]; rfl)
    | cons next after =>
        have hdelimited := Segments.delimiter_of_before
          (show splitInclusive text = (pre ++ [line]) ++ next :: after by rw [hlines]; simp) line
          (List.mem_append_right _ (List.mem_singleton_self line))
        rw [hdelimited]
        exact Or.inl List.getLast?_concat
  rw [bodyBelow, textAt, h, ok_bind, drop_line hsegment.1 hsegment.2 hend]

/-- What a heading's part is of a position among the headings. -/
structure PartAt (text : List Char) (p : List MarkdownHeading × MarkdownHeading × List MarkdownHeading)
    (part : HeadingPart) : Prop where
  level : p.2.1.level = part.level
  heading : p.2.1.heading = part.heading
  body : bodyBelow text p.2.1.start (headPlace MarkdownHeading.start (byteLength text) p.2.2) =
    .ok part.text

/-- The headings from a line on, and the text up to the first of them. -/
theorem partsIn_spec {lineNumber : Nat} {fence : Option (Char × Nat)} {before : List MarkdownHeading}
    (hlines : splitInclusive text = pre ++ lines) :
    slice text (byteLength pre.flatten) (headPlace MarkdownHeading.start (byteLength text)
        (headingsIn (byteLength pre.flatten) lineNumber fence lines)) =
      some (partsIn fence lines).1.flatten ∧
    List.Forall₂ (PartAt text)
      (positions before (headingsIn (byteLength pre.flatten) lineNumber fence lines))
      (partsIn fence lines).2 := by
  induction lines generalizing pre lineNumber fence before with
  | nil =>
      have htext : text = pre.flatten := by
        have hflat : (splitInclusive text).flatten = text := Segments.flatten_segments text
        rw [← hflat, hlines, List.append_nil]
      refine ⟨slice_eq_some.2 ⟨pre.flatten, [], ?_, rfl, ?_⟩, List.Forall₂.nil⟩
      · rw [htext]
        simp [partsIn]
      · show byteLength (pre.flatten ++ []) = byteLength text
        rw [List.append_nil, htext]
  | cons line lines ih =>
      have hnext : splitInclusive text = (pre ++ [line]) ++ lines := by
        rw [hlines]
        simp
      have hoffset : byteLength (pre ++ [line]).flatten = byteLength pre.flatten + byteLength line := by
        simp
      rw [headingsIn, lineHeading_eq]
      cases hheading : headingAt fence line with
      | none =>
          obtain ⟨hslice, hparts⟩ := @ih (pre ++ [line]) (lineNumber + 1) (fenceStep fence line) before hnext
          have hfront := slice_line hlines hslice
          rw [hoffset] at hfront hparts
          rw [partsIn_plain hheading]
          exact ⟨hfront, hparts⟩
      | some parsed =>
          obtain ⟨hslice, hparts⟩ := @ih (pre ++ [line]) (lineNumber + 1) (fenceStep fence line)
            (before ++ [⟨byteLength pre.flatten, lineNumber, parsed.1, parsed.2⟩]) hnext
          have hbody := slice_line hlines hslice
          rw [hoffset] at hbody hparts
          rw [partsIn_heading hheading]
          refine ⟨slice_eq_some.2 ⟨pre.flatten, (line :: lines).flatten, ?_, rfl, ?_⟩,
            List.Forall₂.cons ⟨rfl, rfl, ?_⟩ hparts⟩
          · rw [flatten_lines hlines]
            simp
          · rw [List.flatten_nil, List.append_nil]
            rfl
          · refine bodyBelow_line hlines (fun hnil => ?_) hbody
            rw [hnil]
            rfl

/-- The sections of a text are its headings with the lines below them. -/
theorem sections_parts {sections : List MarkdownSection} (h : markdownSections text = .ok sections) :
    List.Forall₂ (PartAt text) (positions [] (headingsOf text))
      (partsIn none (splitInclusive text)).2 ∧
    List.Forall₂ (fun s part => s.title = part.title ∧
        bodyBelow text s.start s.directEnd = .ok part.text) sections
      (partsIn none (splitInclusive text)).2 := by
  have hparts := (@partsIn_spec text [] (splitInclusive text) 1 none [] rfl).2
  refine ⟨hparts, ?_⟩
  rw [markdownSections_eq h, List.forall₂_map_left_iff]
  refine hparts.imp fun {p part} hpart => ⟨?_, hpart.body⟩
  show (typedHeading p.2.1.heading).2 = _
  rw [hpart.heading]
  rfl

end Sections

/-- Silent lines only stand before the first heading. -/
theorem partsIn_silent {front : List (List Char)} (h : ∀ line ∈ front, SilentLine none line)
    (lines : List (List Char)) :
    partsIn none (front ++ lines) = (front ++ (partsIn none lines).1, (partsIn none lines).2) := by
  induction front with
  | nil => rfl
  | cons line front ih =>
      obtain ⟨hheading, hfence⟩ := h line List.mem_cons_self
      have hplain : headingAt none line = none := by
        rw [headingAt, if_pos rfl]
        exact hheading rfl
      rw [List.cons_append, partsIn_plain hplain, hfence,
        ih fun other hother => h other (List.mem_cons_of_mem _ hother)]
      rfl

/-! ### Fenced code -/

/-- The lines outside fenced code, with those that open and close it. -/
def outside (fence : Option (Char × Nat)) : List (List Char) → List (List Char)
  | [] => []
  | line :: rest =>
    if fence.isSome ∧ (fenceStep fence line).isSome then outside (fenceStep fence line) rest
    else line :: outside (fenceStep fence line) rest

/-- The part without the lines inside fenced code. -/
def HeadingPart.outside (part : HeadingPart) : HeadingPart :=
  { part with below := Capture.outside none part.below }

/-- A line inside a fence keeps it or closes it. -/
theorem fenceStep_of_isSome {fence : Option (Char × Nat)} {line : List Char}
    (h : fence.isSome = true) (h' : (fenceStep fence line).isSome = true) :
    fenceStep fence line = fence := by
  obtain ⟨⟨ch, minimum⟩, rfl⟩ := Option.isSome_iff_exists.1 h
  rw [fenceStep] at h' ⊢
  split
  · rename_i marker hmarker
    rw [hmarker] at h'
    dsimp only [toggleFence] at h' ⊢
    split
    · rename_i hclosed
      rw [if_pos hclosed] at h'
      cases h'
    · rfl
  · rfl

theorem partsIn_outside (fence : Option (Char × Nat)) (lines : List (List Char)) :
    partsIn fence (outside fence lines) =
      (outside fence (partsIn fence lines).1, (partsIn fence lines).2.map HeadingPart.outside) := by
  induction lines generalizing fence with
  | nil => rfl
  | cons line lines ih =>
      by_cases hinside : fence.isSome ∧ (fenceStep fence line).isSome
      · have hsame := fenceStep_of_isSome hinside.1 hinside.2
        have hplain : headingAt fence line = none := by
          rw [headingAt, if_neg]
          rintro rfl
          cases hinside.1
        rw [partsIn_plain hplain, outside, if_pos hinside, outside, if_pos hinside, hsame, ih]
      · rw [outside, if_neg hinside]
        cases hheading : headingAt fence line with
        | none => rw [partsIn_plain hheading, partsIn_plain hheading, ih, outside, if_neg hinside]
        | some parsed =>
            have hfence : fenceStep fence line = none := by
              rw [headingAt] at hheading
              split at hheading
              · rename_i hnone
                rw [fenceStep, fenceMarker_of_parseAtxHeading hheading, hnone]
              · cases hheading
            rw [partsIn_heading hheading, partsIn_heading hheading, ih, hfence]
            rfl

/-- A fence line is among the lines. -/
def HasFence (lines : List (List Char)) : Prop :=
  ∃ line ∈ lines, (fenceMarker (trimStart (logicalLine line))).isSome = true

instance (lines : List (List Char)) : Decidable (HasFence lines) :=
  inferInstanceAs (Decidable (∃ line ∈ lines, _))

theorem fenceStep_plain {fence : Option (Char × Nat)} {line : List Char}
    (h : ¬ (fenceMarker (trimStart (logicalLine line))).isSome = true) :
    fenceStep fence line = fence := by
  rw [fenceStep, Option.not_isSome_iff_eq_none.1 h]

/-- Nothing is left out where no fence is. -/
theorem outside_of_not_hasFence {lines : List (List Char)} (h : ¬ HasFence lines) :
    outside none lines = lines := by
  induction lines with
  | nil => rfl
  | cons line lines ih =>
      have hplain : fenceStep none line = none :=
        fenceStep_plain fun hmarker => h ⟨line, List.mem_cons_self, hmarker⟩
      rw [outside, if_neg (by simp), hplain,
        ih fun ⟨other, hother, hmarker⟩ => h ⟨other, List.mem_cons_of_mem _ hother, hmarker⟩]

/-- The first fence line is outside fenced code. -/
theorem hasFence_outside (lines : List (List Char)) :
    HasFence (outside none lines) ↔ HasFence lines := by
  by_cases hfence : HasFence lines
  · refine iff_of_true ?_ hfence
    induction lines with
    | nil => exact hfence
    | cons line lines ih =>
        rw [outside, if_neg (by simp)]
        by_cases hmarker : (fenceMarker (trimStart (logicalLine line))).isSome = true
        · exact ⟨line, List.mem_cons_self, hmarker⟩
        · obtain ⟨other, hother, hother'⟩ := hfence
          have hrest : HasFence lines := by
            rcases List.mem_cons.1 hother with rfl | hmem
            · exact absurd hother' hmarker
            · exact ⟨other, hmem, hother'⟩
          rw [fenceStep_plain hmarker]
          obtain ⟨found, hfound, hfound'⟩ := ih hrest
          exact ⟨found, List.mem_cons_of_mem _ hfound, hfound'⟩
  · rw [outside_of_not_hasFence hfence]

/-! ### Sections and fenced code -/

section Reading

/-- What a section is of the headings. -/
def MarkdownSection.reading (s : MarkdownSection) : Option TypedHeading × String × List String :=
  (s.kind, s.title, s.headingPath)

def MarkdownHeading.mark (h : MarkdownHeading) : Nat × String := (h.level, h.heading)

def HeadingPart.mark (part : HeadingPart) : Nat × String := (part.level, part.heading)

def readingAt (p : List (Nat × String) × (Nat × String) × List (Nat × String)) :
    Option TypedHeading × String × List String :=
  ((typedHeading p.2.1.2).1, (typedHeading p.2.1.2).2,
    (openItems Prod.fst (p.1 ++ [p.2.1])).map Prod.snd)

variable {text text' : List Char} {sections sections' : List MarkdownSection}

/-- The levels and the texts of the headings decide. -/
theorem reading_of_sections (h : markdownSections text = .ok sections) :
    sections.map MarkdownSection.reading =
      (positions [] ((partsIn none (splitInclusive text)).2.map HeadingPart.mark)).map readingAt := by
  have hmarks : (headingsOf text).map MarkdownHeading.mark =
      (partsIn none (splitInclusive text)).2.map HeadingPart.mark := by
    have hparts : List.Forall₂ (fun p part => p = HeadingPart.mark part)
        ((positions [] (headingsOf text)).map fun p => p.2.1.mark)
        (partsIn none (splitInclusive text)).2 :=
      List.forall₂_map_left_iff.2 ((sections_parts h).1.imp fun {p part} hpart =>
        Prod.ext hpart.level hpart.heading)
    rw [← List.forall₂_eq_eq_eq, List.forall₂_map_right_iff]
    rw [List.forall₂_map_left_iff] at hparts
    rw [← map_positions [] (headingsOf text), List.map_map, List.forall₂_map_left_iff]
    exact hparts
  rw [← hmarks, show ([] : List (Nat × String)) = [].map MarkdownHeading.mark from rfl, positions_map,
    List.map_map, markdownSections_eq h, List.map_map]
  refine List.map_congr_left fun p _ => ?_
  show ((typedHeading p.2.1.heading).1, (typedHeading p.2.1.heading).2,
    (openItems MarkdownHeading.level (p.1 ++ [p.2.1])).map MarkdownHeading.heading) = _
  rw [Function.comp_apply, readingAt]
  dsimp only
  rw [← List.map_singleton (f := MarkdownHeading.mark), ← List.map_append, openItems_map, List.map_map]
  rfl

end Reading

def fencedNote : List Char := "# Notes\n```\nplain\n```\n## Decision: Tabs\nUse tabs.\n".toList

def fencedHeading : List Char := "# Notes\n```\n# Hidden\n```\n## Decision: Tabs\nUse tabs.\n".toList

end Capture
end Memzoi
