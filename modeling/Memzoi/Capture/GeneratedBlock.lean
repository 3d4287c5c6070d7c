/-
# Generated lines do not matter

Source: `capture/adapters/instruction.rs` (`extract`, `generated_ranges`,
`mask_ranges`).

The blanks in the place of the generated lines are silent, and every visible
range is either before or behind them. So the title, the body and the
classification of a candidate are read from the lines outside.
-/

import Memzoi.Capture.InstructionPartition
import Memzoi.Capture.SilentLines
import Memzoi.Lib.Occurrence

namespace Memzoi
namespace Capture
namespace Instruction

open Fallible SourceText Text Outline
open Maintenance (OkfProposalSensitivity RepositoryContentClass)

/-! ### Blanks -/

/-- A character of a generated line in the masked text. -/
def blankChar (c : Char) : List Char :=
  if c = '\n' ∨ c = '\r' then [c] else List.replicate c.utf8Size ' '

def blank (cs : List Char) : List Char := cs.flatMap blankChar

theorem maskFrom_append (offset : Nat) (ranges : List ByteRange) (cs ds : List Char) :
    maskFrom offset ranges (cs ++ ds) =
      maskFrom offset ranges cs ++ maskFrom (offset + byteLength cs) ranges ds := by
  induction cs generalizing offset with
  | nil => simp [maskFrom]
  | cons c cs ih => simp [maskFrom, ih, Nat.add_assoc]

theorem maskFrom_outside {offset : Nat} {range : ByteRange} {cs : List Char}
    (h : ∀ n, offset ≤ n → n < offset + byteLength cs → Outside n range) :
    maskFrom offset [range] cs = cs := by
  induction cs generalizing offset with
  | nil => rfl
  | cons c cs ih =>
      have hpos := c.utf8Size_pos
      rw [byteLength_cons] at h
      rw [maskFrom, if_pos, ih, List.singleton_append]
      · intro n hle hlt
        exact h n (by omega) (by omega)
      · left
        simpa using h offset (Nat.le_refl _) (by omega)

theorem maskFrom_inside {offset : Nat} {range : ByteRange} {cs : List Char}
    (h : ∀ n, offset ≤ n → n < offset + byteLength cs → ¬ Outside n range) :
    maskFrom offset [range] cs = blank cs := by
  induction cs generalizing offset with
  | nil => rfl
  | cons c cs ih =>
      have hpos := c.utf8Size_pos
      rw [byteLength_cons] at h
      have hout : ¬ Outside offset range := h offset (Nat.le_refl _) (by omega)
      rw [maskFrom, ih]
      · show _ = blankChar c ++ blank cs
        rw [blankChar]
        simp [hout]
      · intro n hle hlt
        exact h n (by omega) (by omega)

/-- The block between two parts of a text is masked, and nothing else. -/
theorem maskRanges_block (front block back : List Char) :
    maskRanges (front ++ (block ++ back))
        [{ start := byteLength front, stop := byteLength front + byteLength block }] =
      front ++ (blank block ++ back) := by
  rw [maskRanges, maskFrom_append, maskFrom_append, maskFrom_outside, maskFrom_inside,
    maskFrom_outside]
  · exact fun n hle _ => Or.inr (by dsimp only; omega)
  · rintro n hle hlt (hbefore | hbehind)
    · dsimp only at hbefore
      omega
    · dsimp only at hbehind
      omega
  · exact fun n _ hlt => Or.inl (by dsimp only; omega)

theorem byteLength_blank (cs : List Char) : byteLength (blank cs) = byteLength cs := by
  have h := maskRanges_block [] cs []
  rw [List.nil_append, List.nil_append, List.append_nil, List.append_nil] at h
  rw [← h, maskRanges, byteLength_maskFrom]

theorem isWhitespace_of_mem_blank {cs : List Char} {c : Char} (h : c ∈ blank cs) :
    isWhitespace c = true := by
  obtain ⟨d, -, hc⟩ := List.mem_flatMap.1 h
  rw [blankChar] at hc
  split at hc
  · rename_i hend
    obtain rfl := List.mem_singleton.1 hc
    rcases hend with rfl | rfl <;> rfl
  · obtain rfl := List.eq_of_mem_replicate hc
    rfl

theorem newline_mem_blank {cs : List Char} : '\n' ∈ blank cs ↔ '\n' ∈ cs := by
  constructor
  · intro h
    obtain ⟨d, hd, hc⟩ := List.mem_flatMap.1 h
    rw [blankChar] at hc
    split at hc
    · obtain rfl := List.mem_singleton.1 hc
      exact hd
    · exact absurd (List.eq_of_mem_replicate hc) (by decide)
  · exact fun h => List.mem_flatMap.2 ⟨'\n', h, by simp [blankChar]⟩

/-- A line of blanks is silent. -/
theorem silentLine_blank (fence : Option (Char × Nat)) (line : List Char) :
    SilentLine fence (blank line) := by
  have hall : ∀ c ∈ logicalLine (blank line), isWhitespace c = true := fun _ hc =>
    isWhitespace_of_mem_blank ((prefix_logicalLine _).subset hc)
  have hnone : trimStart (logicalLine (blank line)) = [] := List.dropWhile_eq_nil_iff.2 hall
  constructor
  · intro _
    rw [parseAtxHeading, hnone]
    rfl
  · rw [fenceStep, hnone]
    rfl

/-! ### The lines of a masked text -/

theorem blank_append (cs ds : List Char) : blank (cs ++ ds) = blank cs ++ blank ds :=
  List.flatMap_append

theorem flatten_map_blank (lines : List (List Char)) :
    (lines.map blank).flatten = blank lines.flatten := by
  induction lines with
  | nil => rfl
  | cons line lines ih => rw [List.map_cons, List.flatten_cons, ih, List.flatten_cons, blank_append]

theorem blank_concat_newline (init : List Char) : blank (init ++ [ '\n']) = blank init ++ [ '\n'] := by
  rw [blank_append]
  rfl

/-- A line of blanks ends where the line ends. -/
theorem blank_line {line : List Char} (hne : line ≠ []) (hinner : '\n' ∉ line.dropLast) :
    blank line ≠ [] ∧ '\n' ∉ (blank line).dropLast := by
  constructor
  · intro hnil
    have hpos := byteLength_pos hne
    rw [← byteLength_blank, hnil] at hpos
    exact absurd hpos (by simp)
  · rcases List.eq_nil_or_concat' line with hnil | ⟨init, last, rfl⟩
    · exact absurd hnil hne
    rw [List.dropLast_concat] at hinner
    by_cases hlast : last = '\n'
    · rw [hlast, blank_concat_newline, List.dropLast_concat, newline_mem_blank]
      exact hinner
    · intro hmem
      have hline := newline_mem_blank.1 (List.dropLast_subset _ hmem)
      rcases List.mem_append.1 hline with hinit | heq
      · exact hinner hinit
      · exact hlast (List.mem_singleton.1 heq).symm

theorem getLast?_blank {line : List Char} (h : line.getLast? = some '\n') :
    (blank line).getLast? = some '\n' := by
  obtain ⟨init, rfl⟩ := List.getLast?_eq_some_iff.1 h
  rw [blank_concat_newline]
  exact List.getLast?_concat

/-- Masking keeps the lines, with blanks for some of them. -/
theorem splitInclusive_block {before block after : List (List Char)} {text : List Char}
    (hlines : splitInclusive text = before ++ (block ++ after)) :
    splitInclusive (before.flatten ++ (blank block.flatten ++ after.flatten)) =
      before ++ (block.map blank ++ after) := by
  have hsegments := Segments.isSegments_segments (d := '\n') text
  rw [show Segments.segments '\n' text = before ++ (block ++ after) from hlines] at hsegments
  have hblank : Segments.IsSegments '\n' (before ++ (block.map blank ++ after)) := by
    obtain ⟨hinner, hended⟩ := hsegments
    obtain ⟨hbefore, hback, hcross⟩ := List.pairwise_append.1 hended
    obtain ⟨hblock, hafter, hcross'⟩ := List.pairwise_append.1 hback
    constructor
    · intro s hs
      rcases List.mem_append.1 hs with hs | hs
      · exact hinner s (List.mem_append_left _ hs)
      rcases List.mem_append.1 hs with hs | hs
      · obtain ⟨line, hline, rfl⟩ := List.mem_map.1 hs
        obtain ⟨hne, hnewline⟩ :=
          hinner line (List.mem_append_right _ (List.mem_append_left _ hline))
        exact blank_line hne hnewline
      · exact hinner s (List.mem_append_right _ (List.mem_append_right _ hs))
    · refine List.pairwise_append.2 ⟨hbefore, List.pairwise_append.2 ⟨?_, hafter, ?_⟩, ?_⟩
      · rw [List.pairwise_map]
        exact hblock.imp fun hend => getLast?_blank hend
      · intro s hs t ht
        obtain ⟨line, hline, rfl⟩ := List.mem_map.1 hs
        exact getLast?_blank (hcross' line hline t ht)
      · intro s hs t ht
        rcases List.mem_append.1 ht with ht | ht
        · obtain ⟨line, hline, rfl⟩ := List.mem_map.1 ht
          exact hcross s hs line (List.mem_append_left _ hline)
        · exact hcross s hs t (List.mem_append_right _ ht)
  have hflatten := hblank.segments_flatten
  rw [List.flatten_append, List.flatten_append, flatten_map_blank] at hflatten
  exact hflatten

/-! ### Visible places -/

/-- The visible ranges between two places, as pairs of places. -/
def visiblePlaces (beforeLength : Nat) : Place → Place → List (Place × Place)
  | .before s, .behind m =>
    (if s < beforeLength then [(.before s, .before beforeLength)] else []) ++
      if 0 < m then [(.behind 0, .behind m)] else []
  | p, q => [(p, q)]

def rangeAt (behindStart : Nat) (places : Place × Place) : ByteRange :=
  ⟨places.1.at behindStart, places.2.at behindStart⟩

section Places

variable {beforeLength behindStart : Nat} {p q : Place}

theorem cut_mk (a b s e : Nat) : cut ⟨a, b⟩ ⟨s, e⟩ =
    if b ≤ s ∨ e ≤ a then [⟨s, e⟩]
    else (if s < a then [⟨s, a⟩] else []) ++ if b < e then [⟨b, e⟩] else [] := rfl

theorem visibleRanges_eq (hblock : beforeLength < behindStart) (hp : p.Fits beforeLength)
    (hq : q.Fits beforeLength) (hle : p.at behindStart ≤ q.at behindStart) :
    visibleRanges ⟨p.at behindStart, q.at behindStart⟩ [⟨beforeLength, behindStart⟩] =
      (visiblePlaces beforeLength p q).map (rangeAt behindStart) := by
  show cut _ _ ++ [] = _
  rw [List.append_nil]
  cases p with
  | before s =>
      cases q with
      | before e => exact if_pos (Or.inr hq)
      | behind m =>
          have hs : s ≤ beforeLength := hp
          show cut ⟨beforeLength, behindStart⟩ ⟨s, behindStart + m⟩ = _
          rw [cut_mk, if_neg (by omega), visiblePlaces, List.map_append]
          refine congrArg₂ _ ?_ ?_
          · split <;> rfl
          · by_cases hm : 0 < m
            · rw [if_pos (by omega), if_pos hm]
              rfl
            · rw [if_neg (by omega), if_neg hm]
              rfl
  | behind k =>
      cases q with
      | before e =>
          have he : e ≤ beforeLength := hq
          dsimp only [Place.at] at hle
          omega
      | behind m => exact if_pos (Or.inl (Nat.le_add_right _ _))

/-- Both places of a visible range are on one side of the block. -/
theorem sameSide_of_mem {places : Place × Place} (hp : p.Fits beforeLength) (hq : q.Fits beforeLength)
    (hle : p.at behindStart ≤ q.at behindStart) (hblock : beforeLength < behindStart)
    (h : places ∈ visiblePlaces beforeLength p q) :
    (∃ s e, places = (.before s, .before e) ∧ e ≤ beforeLength) ∨
      ∃ k m, places = (.behind k, .behind m) := by
  cases p with
  | before s =>
      cases q with
      | before e => exact Or.inl ⟨s, e, List.mem_singleton.1 h, hq⟩
      | behind m =>
          rcases List.mem_append.1 h with h | h
          · split at h
            · exact Or.inl ⟨s, beforeLength, List.mem_singleton.1 h, Nat.le_refl _⟩
            · cases h
          · split at h
            · exact Or.inr ⟨0, m, List.mem_singleton.1 h⟩
            · cases h
  | behind k =>
      cases q with
      | before e =>
          have he : e ≤ beforeLength := hq
          dsimp only [Place.at] at hle
          omega
      | behind m => exact Or.inr ⟨k, m, List.mem_singleton.1 h⟩

end Places

/-- A text with a block in it, or with another one. -/
theorem slice_around {front block block' back : List Char} {places : Place × Place}
    (hside : (∃ s e, places = (.before s, .before e) ∧ e ≤ byteLength front) ∨
      ∃ k m, places = (.behind k, .behind m)) :
    slice (front ++ (block ++ back)) (places.1.at (byteLength front + byteLength block))
        (places.2.at (byteLength front + byteLength block)) =
      slice (front ++ (block' ++ back)) (places.1.at (byteLength front + byteLength block'))
        (places.2.at (byteLength front + byteLength block')) := by
  rcases hside with ⟨s, e, rfl, he⟩ | ⟨k, m, rfl⟩
  · dsimp only [Place.at]
    rw [slice_append_of_le _ he, slice_append_of_le _ he]
  · dsimp only [Place.at]
    rw [← List.append_assoc, ← List.append_assoc, ← byteLength_append, ← byteLength_append,
      slice_append_add, slice_append_add]

/-! ### Evidence around a block -/

section Evidence

variable [SourceDigests] {document document' : CaptureSourceDocument} {sectionKind : String}
  {headingPath : List String} {range range' : ByteRange}

/-- Whether a range can be cited, and whether it is blank, depends on its text only. -/
theorem evidenceForRange_around {items : List CaptureEvidence}
    (hslice : slice document.text range.start range.stop =
      slice document'.text range'.start range'.stop)
    (h : evidenceForRange document sectionKind headingPath range = .ok items) :
    ∃ items', evidenceForRange document' sectionKind headingPath range' = .ok items' ∧
      (items = [] ↔ items' = []) := by
  obtain ⟨found, hfound, h⟩ := bind_eq_ok.1 h
  obtain ⟨span, hspan, hcase⟩ := trimRange_spec hfound
  have hspan' := hslice.symm.trans hspan
  have hfound' : ∃ found', trimRange document'.text range' = .ok found' :=
    ⟨_, bind_eq_ok.2 ⟨span, textAt_eq_ok.2 hspan', rfl⟩⟩
  obtain ⟨found', hfound'⟩ := hfound'
  obtain ⟨span', hspan'', hcase'⟩ := trimRange_spec hfound'
  obtain rfl := Option.some.inj (hspan''.symm.trans hspan')
  rcases hcase with ⟨hblank, rfl⟩ | ⟨trimmed, rfl, -, htrimmed, hvisible⟩
  · rcases hcase' with ⟨-, rfl⟩ | ⟨-, -, -, -, hvisible⟩
    · obtain rfl := Except.ok.inj h
      exact ⟨[], bind_eq_ok.2 ⟨none, hfound', rfl⟩, Iff.rfl⟩
    · exact absurd hblank hvisible
  · rcases hcase' with ⟨hblank, -⟩ | ⟨trimmed', rfl, hproper', htrimmed', -⟩
    · exact absurd hblank hvisible
    · obtain ⟨evidence, hevidence, h⟩ := bind_eq_ok.1 h
      obtain ⟨item, rfl, -⟩ := evidenceFor_spec hevidence rfl
      obtain rfl := Except.ok.inj h
      obtain ⟨-, -, hlimit⟩ := exists_evidenceFor_iff.1 ⟨_, hevidence⟩
      obtain ⟨pre, post, -, hstart, hstop⟩ := slice_eq_some.1 htrimmed
      obtain ⟨pre', post', -, hstart', hstop'⟩ := slice_eq_some.1 htrimmed'
      rw [byteLength_append] at hstop hstop'
      have hevidence' : ∃ evidence', evidenceFor document'.request document'.snapshot document'.text
          ⟨trimmed'.start, trimmed'.stop, lineAt document'.text trimmed'.start, sectionKind,
            headingPath⟩ = .ok evidence' := by
        refine exists_evidenceFor_iff.2 ⟨hproper'.proper, ⟨_, htrimmed'⟩, ?_⟩
        dsimp only at hlimit ⊢
        omega
      obtain ⟨evidence', hevidence'⟩ := hevidence'
      obtain ⟨item', rfl, -⟩ := evidenceFor_spec hevidence' rfl
      exact ⟨_, bind_eq_ok.2 ⟨some trimmed', hfound', bind_eq_ok.2 ⟨_, hevidence', rfl⟩⟩, by simp⟩

end Evidence

/-! ### Two texts around a block -/

/-- Two texts that differ in a block of lines only. -/
structure Around (before block block' after : List (List Char)) (text text' : List Char) : Prop where
  lines : splitInclusive text = before ++ (block ++ after)
  lines' : splitInclusive text' = before ++ (block' ++ after)
  nonempty : block.flatten ≠ []
  nonempty' : block'.flatten ≠ []

/-- Where what is behind a block starts. -/
abbrev behindStart (before block : List (List Char)) : Nat :=
  byteLength before.flatten + byteLength block.flatten

/-- The range of a block. -/
abbrev blockRange (before block : List (List Char)) : ByteRange :=
  ⟨byteLength before.flatten, behindStart before block⟩

theorem flatten_of_lines {before block after : List (List Char)} {text : List Char}
    (hlines : splitInclusive text = before ++ (block ++ after)) :
    text = before.flatten ++ (block.flatten ++ after.flatten) := by
  have htext : (splitInclusive text).flatten = text := Segments.flatten_segments text
  rw [hlines, List.flatten_append, List.flatten_append] at htext
  exact htext.symm

theorem Place.at_le_at {beforeLength b b' : Nat} {p q : Place} (hb : beforeLength < b)
    (hb' : beforeLength < b') (hp : p.Fits beforeLength) (hq : q.Fits beforeLength)
    (hle : p.at b ≤ q.at b) : p.at b' ≤ q.at b' := by
  cases p with
  | before s =>
      cases q with
      | before e => exact hle
      | behind m =>
          have hs : s ≤ beforeLength := hp
          dsimp only [Place.at]
          omega
  | behind k =>
      cases q with
      | before e =>
          have he : e ≤ beforeLength := hq
          dsimp only [Place.at] at hle
          omega
      | behind m =>
          dsimp only [Place.at] at hle ⊢
          omega

section Around

variable {before block block' after : List (List Char)} {p q : Place}

theorem mapAll_map {α β γ : Type} (f : β → Fallible γ) (g : α → β) (as : List α) :
    mapAll f (as.map g) = mapAll (f ∘ g) as := by
  induction as with
  | nil => rfl
  | cons a as ih => rw [List.map_cons, mapAll, mapAll, ih]; rfl

theorem flatten_eq_nil_congr {α β : Type} {parts : List (List α)} {parts' : List (List β)}
    (h : List.Forall₂ (fun part part' => part = [] ↔ part' = []) parts parts') :
    parts.flatten = [] ↔ parts'.flatten = [] := by
  induction h with
  | nil => simp
  | cons hpart _ ih =>
      rw [List.flatten_cons, List.flatten_cons, List.append_eq_nil_iff, List.append_eq_nil_iff]
      exact and_congr hpart ih

theorem map_flatten_congr {α β : Type} {f : α → β} {parts parts' : List (List α)}
    (h : List.Forall₂ (fun part part' => part.map f = part'.map f) parts parts') :
    parts.flatten.map f = parts'.flatten.map f := by
  induction h with
  | nil => rfl
  | cons hpart _ ih =>
      rw [List.flatten_cons, List.flatten_cons, List.map_append, List.map_append]
      exact congrArg₂ _ hpart ih

/-- What is visible between two places does not depend on the block. -/
theorem visibleText_around {text text' : List Char} (h : Around before block block' after text text')
    (hp : p.Fits (byteLength before.flatten)) (hq : q.Fits (byteLength before.flatten))
    (hle : p.at (behindStart before block) ≤ q.at (behindStart before block)) :
    visibleText text ⟨p.at (behindStart before block), q.at (behindStart before block)⟩
        [blockRange before block] =
      visibleText text' ⟨p.at (behindStart before block'), q.at (behindStart before block')⟩
        [blockRange before block'] := by
  have hblock : byteLength before.flatten < behindStart before block :=
    Nat.lt_add_of_pos_right (byteLength_pos h.nonempty)
  have hblock' : byteLength before.flatten < behindStart before block' :=
    Nat.lt_add_of_pos_right (byteLength_pos h.nonempty')
  have hle' := Place.at_le_at hblock hblock' hp hq hle
  rw [visibleText, visibleText, visibleRanges_eq hblock hp hq hle,
    visibleRanges_eq hblock' hp hq hle', mapAll_map, mapAll_map]
  refine congrArg (· >>= _) (mapAll_congr fun places hplaces => ?_)
  have hside := sameSide_of_mem hp hq hle hblock hplaces
  have hslice := @slice_around before.flatten block.flatten block'.flatten after.flatten places hside
  rw [← flatten_of_lines h.lines, ← flatten_of_lines h.lines'] at hslice
  show textAt text _ _ = textAt text' _ _
  rw [textAt, textAt]
  dsimp only [rangeAt]
  rw [hslice]

variable [SourceDigests] {document document' : CaptureSourceDocument} {sectionKind : String}
  {headingPath : List String}

theorem evidence_around {evidence : List CaptureEvidence}
    (h : Around before block block' after document.text document'.text)
    (hp : p.Fits (byteLength before.flatten)) (hq : q.Fits (byteLength before.flatten))
    (hle : p.at (behindStart before block) ≤ q.at (behindStart before block))
    (hok : evidenceForVisibleRange document
      ⟨p.at (behindStart before block), q.at (behindStart before block)⟩ [blockRange before block]
      sectionKind headingPath = .ok evidence) :
    ∃ evidence', evidenceForVisibleRange document'
      ⟨p.at (behindStart before block'), q.at (behindStart before block')⟩ [blockRange before block']
      sectionKind headingPath = .ok evidence' := by
  have hblock : byteLength before.flatten < behindStart before block :=
    Nat.lt_add_of_pos_right (byteLength_pos h.nonempty)
  have hblock' : byteLength before.flatten < behindStart before block' :=
    Nat.lt_add_of_pos_right (byteLength_pos h.nonempty')
  have hle' := Place.at_le_at hblock hblock' hp hq hle
  rw [evidenceForVisibleRange, visibleRanges_eq hblock hp hq hle, gatherAll, mapAll_map] at hok
  obtain ⟨found, hfound, hok⟩ := bind_eq_ok.1 hok
  obtain ⟨parts, hparts, hjoined⟩ := bind_eq_ok.1 hfound
  obtain rfl := Except.ok.inj hjoined
  obtain ⟨hcited, -⟩ := check_bind_eq_ok.1 hok
  obtain ⟨parts', hparts', hrelated⟩ := mapAll_related hparts fun items _ places hplaces hitems => by
    have hside := sameSide_of_mem hp hq hle hblock hplaces
    have hslice := @slice_around before.flatten block.flatten block'.flatten after.flatten places hside
    rw [← flatten_of_lines h.lines, ← flatten_of_lines h.lines'] at hslice
    exact evidenceForRange_around (show slice document.text (rangeAt _ places).start
      (rangeAt _ places).stop = slice document'.text (rangeAt _ places).start
        (rangeAt _ places).stop from hslice) hitems
  have hflatten : parts.flatten = [] ↔ parts'.flatten = [] := flatten_eq_nil_congr hrelated
  refine ⟨parts'.flatten, ?_⟩
  rw [evidenceForVisibleRange, visibleRanges_eq hblock' hp hq hle', gatherAll, mapAll_map]
  exact bind_eq_ok.2 ⟨_, bind_eq_ok.2 ⟨parts', hparts', rfl⟩,
    check_bind_eq_ok.2 ⟨ensure_of fun hnil => ensure_eq_ok.1 hcited (hflatten.2 hnil), rfl⟩⟩

end Around

/-! ### Sections around a block -/

section Sections

variable {before block after : List (List Char)} {text : List Char}
  {sections : List MarkdownSection} {p : Position}

/-- The section of a position in a text with a block. -/
abbrev blockSection (before block after : List (List Char)) (p : Position) : MarkdownSection :=
  sectionFor (byteLength after.flatten) (behindStart before block)
    (1 + before.length + block.length) p

theorem maskRanges_lines (hlines : splitInclusive text = before ++ (block ++ after)) :
    splitInclusive (maskRanges text [blockRange before block]) =
      before ++ (block.map blank ++ after) := by
  rw [flatten_of_lines hlines, maskRanges_block]
  exact splitInclusive_block hlines

theorem silent_blanks (fence : Option (Char × Nat)) : Silent fence (block.map blank) :=
  silent_of_lines fun line hline => by
    obtain ⟨other, -, rfl⟩ := List.mem_map.1 hline
    exact silentLine_blank fence other

theorem sections_of_masked (hlines : splitInclusive text = before ++ (block ++ after))
    (hsections : markdownSections (maskRanges text [blockRange before block]) = .ok sections) :
    sections = (positions [] (placedHeadings before after)).map (blockSection before block after) := by
  have hsame := markdownSections_around (maskRanges_lines hlines) (silent_blanks _) hsections
  rw [flatten_map_blank, byteLength_blank, List.length_map] at hsame
  exact hsame

/-- A heading line ends at the same place whatever the block is. -/
theorem exists_bodyStart (hp : p ∈ positions [] (placedHeadings before after)) :
    ∃ bodyStart : Place, bodyStart.Fits (byteLength before.flatten) ∧
      ∀ block text sections, splitInclusive text = before ++ (block ++ after) →
        markdownSections (maskRanges text [blockRange before block]) = .ok sections →
          headingEnd (maskRanges text [blockRange before block]) (blockSection before block after p) =
              .ok (bodyStart.at (behindStart before block)) ∧
            bodyStart.at (behindStart before block) ≤
              (nextPlace (byteLength after.flatten) p.2.2).at (behindStart before block) := by
  obtain ⟨front, -, hitems⟩ := mem_positions.1 hp
  have hmem : p.2.1 ∈ placedHeadings before after :=
    hitems ▸ List.mem_append_right _ List.mem_cons_self
  rcases exists_line_of_mem hmem with ⟨first, line, rest, hbefore, hstart⟩ |
    ⟨first, line, rest, hafter, hstart⟩
  · refine ⟨.before (byteLength first.flatten + byteLength line), ?_, ?_⟩
    · show _ ≤ _
      rw [hbefore, List.flatten_append, List.flatten_cons, byteLength_append, byteLength_append]
      omega
    · intro block text sections hlines hsections
      have hmasked := maskRanges_lines hlines
      have hs : blockSection before block after p ∈ sections := by
        rw [sections_of_masked hlines hsections]
        exact List.mem_map_of_mem hp
      have hplace : (blockSection before block after p).start = byteLength first.flatten := by
        rw [sectionFor_start, hstart]
        rfl
      obtain ⟨hend, hle⟩ := @headingEnd_of_lines _ _ _ line first
        (rest ++ (block.map blank ++ after)) hsections hs (by rw [hmasked, hbefore]; simp) hplace
      rw [hplace] at hend hle
      rw [sectionFor_directEnd] at hle
      exact ⟨hend, hle⟩
  · refine ⟨.behind (byteLength first.flatten + byteLength line), trivial, ?_⟩
    intro block text sections hlines hsections
    have hmasked := maskRanges_lines hlines
    have hs : blockSection before block after p ∈ sections := by
      rw [sections_of_masked hlines hsections]
      exact List.mem_map_of_mem hp
    have hplace : (blockSection before block after p).start =
        byteLength (before ++ (block.map blank ++ first)).flatten := by
      rw [sectionFor_start, hstart, List.flatten_append, List.flatten_append, flatten_map_blank,
        byteLength_append, byteLength_append, byteLength_blank]
      show behindStart before block + _ = _
      rw [behindStart, Nat.add_assoc]
    obtain ⟨hend, hle⟩ := @headingEnd_of_lines _ _ _ line
      (before ++ (block.map blank ++ first)) rest hsections hs (by rw [hmasked, hafter]; simp) hplace
    have hmoved : (blockSection before block after p).start + byteLength line =
        behindStart before block + (byteLength first.flatten + byteLength line) := by
      rw [sectionFor_start, hstart]
      exact Nat.add_assoc _ _ _
    rw [hmoved] at hend hle
    rw [sectionFor_directEnd] at hle
    exact ⟨hend, hle⟩

end Sections

/-! ### Candidates around a block -/

/-- What a candidate says and where it goes. -/
def routed (c : CaptureCandidate) : String × String × CaptureClassification :=
  (c.memory.title, c.memory.body, c.classification)

theorem routed_candidate [CaptureDigests] (memory : CaptureMemoryDraft)
    (evidence : List CaptureEvidence) (extractor : CaptureExtractorIdentity)
    (destination : MemoryDestination) (sensitivity : OkfProposalSensitivity)
    (contentClass : RepositoryContentClass) (destinationReason sensitivityReason : String) :
    routed (candidate memory evidence extractor destination sensitivity contentClass
        destinationReason sensitivityReason) =
      (memory.title, memory.body,
        ⟨destination, destinationReason, sensitivity, sensitivityReason, contentClass,
          destination.policy⟩) := rfl

section Candidates

variable {document document' : CaptureSourceDocument} {before block block' after : List (List Char)}
  {sections sections' : List MarkdownSection} {p : Position}

theorem at_le_of_section (hp : p ∈ positions [] (placedHeadings before after))
    (hlines : splitInclusive document.text = before ++ (block ++ after))
    (hsections : markdownSections (maskRanges document.text [blockRange before block]) = .ok sections) :
    p.2.1.start.at (behindStart before block) ≤
      (nextPlace (byteLength after.flatten) p.2.2).at (behindStart before block) := by
  have hs : blockSection before block after p ∈ sections := by
    rw [sections_of_masked hlines hsections]
    exact List.mem_map_of_mem hp
  have hle := start_le_directEnd hsections _ hs
  rw [sectionFor_directEnd] at hle
  exact hle

theorem fits_of_position (hp : p ∈ positions [] (placedHeadings before after)) :
    p.2.1.start.Fits (byteLength before.flatten) := by
  obtain ⟨front, -, hitems⟩ := mem_positions.1 hp
  have hmem : p.2.1 ∈ placedHeadings before after :=
    hitems ▸ List.mem_append_right _ List.mem_cons_self
  exact fits_start hmem

theorem preambleEnd_eq (hlines : splitInclusive document.text = before ++ (block ++ after))
    (hsections : markdownSections (maskRanges document.text [blockRange before block]) = .ok sections) :
    (sections.head?.map (·.start)).getD (byteLength document.text) =
      (nextPlace (byteLength after.flatten) (placedHeadings before after)).at
        (behindStart before block) := by
  rw [sections_of_masked hlines hsections, byteLength_around hlines, nextPlace]
  cases placedHeadings before after <;> rfl

theorem fits_firstPlace :
    (nextPlace (byteLength after.flatten) (placedHeadings before after)).Fits
      (byteLength before.flatten) := by
  rw [nextPlace]
  cases hplaced : placedHeadings before after with
  | nil => trivial
  | cons g rest =>
      have hg : g ∈ placedHeadings before after := hplaced ▸ List.mem_cons_self
      exact fits_start hg

variable [Text.Unicode] [SourceDigests] [CaptureDigests] {extractor : CaptureExtractorIdentity}
  {items : List CaptureCandidate}

theorem sectionCandidate_around (h : Around before block block' after document.text document'.text)
    (hp : p ∈ positions [] (placedHeadings before after))
    (hsections : markdownSections (maskRanges document.text [blockRange before block]) = .ok sections)
    (hsections' : markdownSections (maskRanges document'.text [blockRange before block']) =
      .ok sections')
    (hok : sectionCandidate document extractor [blockRange before block]
      (maskRanges document.text [blockRange before block]) (blockSection before block after p) =
        .ok items) :
    ∃ items', sectionCandidate document' extractor [blockRange before block']
        (maskRanges document'.text [blockRange before block']) (blockSection before block' after p) =
          .ok items' ∧ items.map routed = items'.map routed := by
  obtain ⟨bodyStart, hfits, hends⟩ := exists_bodyStart hp
  obtain ⟨hend, hle⟩ := hends block _ sections h.lines hsections
  obtain ⟨hend', -⟩ := hends block' _ sections' h.lines' hsections'
  have hnext := fits_nextPlace hp (byteLength after.flatten)
  have hbody := visibleText_around h hfits hnext hle
  have hwhole := at_le_of_section hp h.lines hsections
  rw [sectionCandidate, hend, ok_bind] at hok
  rw [sectionCandidate, hend', ok_bind]
  simp only [sectionFor_start, sectionFor_directEnd, sectionFor_kind, sectionFor_title,
    sectionFor_headingPath] at hok ⊢
  rw [hbody] at hok
  obtain ⟨body, hvisible, hok⟩ := bind_eq_ok.1 hok
  rw [hvisible, ok_bind]
  split at hok
  · rename_i hblank
    obtain rfl := Except.ok.inj hok
    exact ⟨[], if_pos hblank, rfl⟩
  · rename_i hvisible
    rw [if_neg hvisible]
    obtain ⟨evidence, hevidence, hok⟩ := bind_eq_ok.1 hok
    obtain rfl := Except.ok.inj hok
    obtain ⟨evidence', hevidence'⟩ := evidence_around h (fits_of_position hp) hnext hwhole hevidence
    refine ⟨_, bind_eq_ok.2 ⟨evidence', hevidence', rfl⟩, ?_⟩
    rw [List.map_singleton, List.map_singleton, routed_candidate, routed_candidate]

theorem preambleCandidate_around (h : Around before block block' after document.text document'.text)
    (hok : preambleCandidate document extractor [blockRange before block]
      ((nextPlace (byteLength after.flatten) (placedHeadings before after)).at
        (behindStart before block)) = .ok items) :
    ∃ items', preambleCandidate document' extractor [blockRange before block']
        ((nextPlace (byteLength after.flatten) (placedHeadings before after)).at
          (behindStart before block')) = .ok items' ∧ items.map routed = items'.map routed := by
  have hfits : (Place.before 0).Fits (byteLength before.flatten) := Nat.zero_le _
  have hfirst := @fits_firstPlace before after
  have hbody := visibleText_around h hfits hfirst (Nat.zero_le _)
  rw [preambleCandidate] at hok
  rw [preambleCandidate]
  change visibleText document.text ⟨0, _⟩ _ = visibleText document'.text ⟨0, _⟩ _ at hbody
  rw [hbody] at hok
  obtain ⟨body, hvisible, hok⟩ := bind_eq_ok.1 hok
  rw [hvisible, ok_bind]
  split at hok
  · rename_i hblank
    obtain rfl := Except.ok.inj hok
    exact ⟨[], if_pos hblank, rfl⟩
  · rename_i hvisible
    rw [if_neg hvisible]
    obtain ⟨evidence, hevidence, hok⟩ := bind_eq_ok.1 hok
    obtain rfl := Except.ok.inj hok
    obtain ⟨evidence', hevidence'⟩ := evidence_around h hfits hfirst (Nat.zero_le _) hevidence
    refine ⟨_, bind_eq_ok.2 ⟨evidence', hevidence', rfl⟩, ?_⟩
    rw [List.map_singleton, List.map_singleton, routed_candidate, routed_candidate]

end Candidates

/-! ### The header of a projection -/

theorem header_not_marker (rest : List Char) :
    ¬ generatedProjectionHeader <+: memzoiStart ++ rest := by
  intro h
  have hmarker : memzoiStart <+: generatedProjectionHeader :=
    List.prefix_of_prefix_length_le (List.prefix_append _ _) h (by decide +kernel)
  exact absurd hmarker (by decide +kernel)

/-- Lines in front of a marker end with a newline. -/
theorem flatten_eq_concat {before rest : List (List Char)} {text line : List Char}
    (hlines : splitInclusive text = before ++ line :: rest) (hne : before ≠ []) :
    ∃ init, before.flatten = init ++ [ '\n'] := by
  rcases List.eq_nil_or_concat' before with hnil | ⟨lines, last, rfl⟩
  · exact absurd hnil hne
  have hend := Segments.delimiter_of_before hlines last (List.mem_append_right _ List.mem_cons_self)
  refine ⟨lines.flatten ++ last.dropLast, ?_⟩
  rw [List.flatten_append, List.flatten_singleton, List.append_assoc, ← hend]

/-- A projection header stands in front of the block or nowhere. -/
theorem header_iff {before rest : List (List Char)} {text first : List Char}
    (hlines : splitInclusive text = before ++ first :: rest)
    (hfirst : trimChars (logicalLine first) = memzoiStart) :
    generatedProjectionHeader <+: trimStart text ↔
      generatedProjectionHeader <+: trimStart before.flatten := by
  have htext := flatten_lines hlines
  by_cases hblank : trimStart before.flatten = []
  · -- the marker is the first thing to see
    have hall : ∀ c ∈ before.flatten, isWhitespace c = true := List.dropWhile_eq_nil_iff.1 hblank
    obtain ⟨lead, trail, hline, hlead, -, -⟩ := exists_trimChars (logicalLine first)
    obtain ⟨tail, htail⟩ := prefix_logicalLine first
    have hstart : trimStart text = memzoiStart ++ (trail ++ tail ++ rest.flatten) := by
      rw [htext, trimStart_append _ hall, ← htail, hline, hfirst]
      simp only [List.append_assoc]
      rw [trimStart_append _ hlead]
      rfl
    rw [hstart, hblank]
    refine iff_of_false (header_not_marker _) ?_
    decide +kernel
  · have hne : before ≠ [] := by
      rintro rfl
      exact hblank rfl
    obtain ⟨init, hinit⟩ := flatten_eq_concat hlines hne
    obtain ⟨shown, hshown⟩ : ∃ shown, trimStart before.flatten = shown ++ [ '\n'] := by
      obtain ⟨lead, hsuffix⟩ := List.dropWhile_suffix (l := before.flatten) isWhitespace
      rcases List.eq_nil_or_concat' (trimStart before.flatten) with hnil | ⟨shown, last, hlast⟩
      · exact absurd hnil hblank
      · have heq : lead ++ (shown ++ [last]) = init ++ [ '\n'] := by
          rw [← hlast, ← hinit]
          exact hsuffix
        rw [← List.append_assoc] at heq
        have hnewline := (List.append_inj' heq rfl).2
        exact ⟨shown, by rw [hlast, hnewline]⟩
    have hstart : trimStart text = trimStart before.flatten ++ (first ++ rest.flatten) := by
      have hshowing : ¬ (List.dropWhile isWhitespace before.flatten).isEmpty = true := fun hempty =>
        hblank (List.isEmpty_iff.1 hempty)
      rw [htext, trimStart, List.dropWhile_append, if_neg hshowing]
      rfl
    rw [hstart, hshown, List.append_assoc, List.singleton_append]
    have hinside : '\n' ∉ generatedProjectionHeader := by decide +kernel
    constructor
    · intro h
      exact (Occurrence.prefix_of_prefix_append_delimiter hinside h).trans (List.prefix_append _ _)
    · intro h
      exact (Occurrence.prefix_of_prefix_append_delimiter hinside h).trans (List.prefix_append _ _)

/-! ### Instruction capture -/

theorem proper_of_generated {text : List Char} {exclusions : List ByteRange}
    (h : Generated text exclusions) : ∀ x ∈ exclusions, x.start ≤ x.stop := by
  cases h with
  | none => simp
  | block =>
      intro x hx
      obtain rfl := List.mem_singleton.1 hx
      dsimp only
      rw [byteLength_append]
      exact Nat.le_add_right _ _

section Extract

variable [Text.Unicode] [SourceDigests] [CaptureDigests] {document document' : CaptureSourceDocument}
  {extractor : CaptureExtractorIdentity} {extraction : CaptureExtraction}

/-- The steps of an extraction from a text that is not a projection. -/
theorem extract_steps (hheader : ¬ generatedProjectionHeader <+: trimStart document.text)
    (hok : extract document extractor = .ok extraction) :
    ∃ exclusions sections preamble found, generatedRanges document.text = .ok exclusions ∧
      markdownSections (maskRanges document.text exclusions) = .ok sections ∧
      preambleCandidate document extractor exclusions
        ((sections.head?.map (·.start)).getD (byteLength document.text)) = .ok preamble ∧
      gatherAll (sectionCandidate document extractor exclusions
        (maskRanges document.text exclusions)) sections = .ok found ∧
      extraction.candidates = preamble ++ found := by
  rw [extract] at hok
  dsimp only at hok
  rw [if_neg hheader] at hok
  obtain ⟨exclusions, hexclusions, hok⟩ := bind_eq_ok.1 hok
  obtain ⟨sections, hsections, hok⟩ := bind_eq_ok.1 hok
  obtain ⟨preamble, hpreamble, hok⟩ := bind_eq_ok.1 hok
  obtain ⟨found, hfound, hok⟩ := bind_eq_ok.1 hok
  obtain rfl := Except.ok.inj hok
  refine ⟨exclusions, sections, preamble, found, ?_, hsections, hpreamble, hfound, rfl⟩
  rw [generatedRangesOf] at hexclusions
  split at hexclusions
  · rename_i ranges hranges
    obtain rfl := Except.ok.inj hexclusions
    exact hranges
  · cases hexclusions

theorem extract_of_steps {exclusions : List ByteRange} {sections : List MarkdownSection}
    {preamble found : List CaptureCandidate}
    (hheader : ¬ generatedProjectionHeader <+: trimStart document.text)
    (hexclusions : generatedRanges document.text = .ok exclusions)
    (hsections : markdownSections (maskRanges document.text exclusions) = .ok sections)
    (hpreamble : preambleCandidate document extractor exclusions
      ((sections.head?.map (·.start)).getD (byteLength document.text)) = .ok preamble)
    (hfound : gatherAll (sectionCandidate document extractor exclusions
      (maskRanges document.text exclusions)) sections = .ok found) :
    ∃ extraction, extract document extractor = .ok extraction ∧
      extraction.candidates = preamble ++ found := by
  have hranges : generatedRangesOf document.text = .ok exclusions := by
    rw [generatedRangesOf, hexclusions]
  rw [extract]
  dsimp only
  rw [if_neg hheader, hranges, ok_bind, hsections, ok_bind, hpreamble, ok_bind, hfound, ok_bind]
  exact ⟨_, rfl, rfl⟩

/-- Other lines between the markers change no title, body or classification. -/
theorem extract_around {before inner inner' after : List (List Char)} {first last : List Char}
    (hlines : splitInclusive document.text = before ++ first :: (inner ++ last :: after))
    (hlines' : splitInclusive document'.text = before ++ first :: (inner' ++ last :: after))
    (hfirst : trimChars (logicalLine first) = memzoiStart)
    (hlast : trimChars (logicalLine last) = memzoiEnd) (hinner' : ∀ raw ∈ inner', Unmarked raw)
    (hheader : ¬ generatedProjectionHeader <+: trimStart document.text)
    (hok : extract document extractor = .ok extraction) :
    ∃ extraction', extract document' extractor = .ok extraction' ∧
      extraction'.candidates.map routed = extraction.candidates.map routed := by
  obtain ⟨exclusions, sections, preamble, found, hexclusions, hsections, hpreamble, hfound, hjoined⟩ :=
    extract_steps hheader hok
  obtain ⟨hbefore, hinner, hafter⟩ := unmarked_of_ok hexclusions hlines hfirst hlast
  have hheader' : ¬ generatedProjectionHeader <+: trimStart document'.text := fun h =>
    hheader ((header_iff hlines hfirst).2 ((header_iff hlines' hfirst).1 h))
  have hrange : ∀ inner : List (List Char),
      ({ start := byteLength before.flatten
         stop := byteLength (before.flatten ++ (first ++ (inner.flatten ++ last))) } : ByteRange) =
        blockRange before (first :: (inner ++ [last])) := by
    intro inner
    rw [blockRange, behindStart, List.flatten_cons, List.flatten_append, List.flatten_singleton,
      byteLength_append]
  have hblock := generatedRanges_of_lines hlines hfirst hlast hbefore hinner hafter
  have hblock' := generatedRanges_of_lines hlines' hfirst hlast hbefore hinner' hafter
  rw [hrange] at hblock hblock'
  obtain rfl := Except.ok.inj (hblock.symm.trans hexclusions)
  have hne : first ≠ [] := (Segments.segment_of_mem
    (show first ∈ splitInclusive document.text from
      hlines ▸ List.mem_append_right _ List.mem_cons_self)).1
  have haround : Around before (first :: (inner ++ [last])) (first :: (inner' ++ [last])) after
      document.text document'.text := by
    refine ⟨by rw [hlines]; simp, by rw [hlines']; simp, ?_, ?_⟩
    · exact fun h => hne (List.append_eq_nil_iff.1 h).1
    · exact fun h => hne (List.append_eq_nil_iff.1 h).1
  obtain ⟨sections', hsections'⟩ := exists_sections_around (maskRanges_lines haround.lines)
    (maskRanges_lines haround.lines') (silent_blanks _) (silent_blanks _) hsections
  rw [preambleEnd_eq haround.lines hsections] at hpreamble
  obtain ⟨preamble', hpreamble', hrouted⟩ := preambleCandidate_around haround hpreamble
  rw [← preambleEnd_eq haround.lines' hsections'] at hpreamble'
  rw [sections_of_masked haround.lines hsections, gatherAll, mapAll_map] at hfound
  obtain ⟨parts, hparts, hflat⟩ := bind_eq_ok.1 hfound
  obtain rfl := Except.ok.inj hflat
  obtain ⟨parts', hparts', hrelated⟩ := mapAll_related hparts fun items _ p hp hitems =>
    sectionCandidate_around haround hp hsections hsections' hitems
  have hfound' : gatherAll (sectionCandidate document' extractor
      [blockRange before (first :: (inner' ++ [last]))]
      (maskRanges document'.text [blockRange before (first :: (inner' ++ [last]))])) sections' =
        .ok parts'.flatten := by
    rw [sections_of_masked haround.lines' hsections', gatherAll, mapAll_map]
    exact bind_eq_ok.2 ⟨parts', hparts', rfl⟩
  obtain ⟨extraction', hextract', hcandidates'⟩ :=
    extract_of_steps hheader' hblock' hsections' hpreamble' hfound'
  refine ⟨extraction', hextract', ?_⟩
  rw [hcandidates', hjoined, List.map_append, List.map_append, hrouted, map_flatten_congr hrelated]

/-- **Instruction capture partitions the visible text, and nothing else decides.** -/
theorem extract_partition (hheader : ¬ generatedProjectionHeader <+: trimStart document.text)
    (hok : extract document extractor = .ok extraction) :
    (∃ exclusions, Generated document.text exclusions ∧
      Partition document.text exclusions extraction.candidates) ∧
    ∀ (before inner inner' after : List (List Char)) (first last : List Char)
      (document' : CaptureSourceDocument),
      splitInclusive document.text = before ++ first :: (inner ++ last :: after) →
      trimChars (logicalLine first) = memzoiStart → trimChars (logicalLine last) = memzoiEnd →
      splitInclusive document'.text = before ++ first :: (inner' ++ last :: after) →
      (∀ raw ∈ inner', Unmarked raw) →
        ∃ extraction', extract document' extractor = .ok extraction' ∧
          extraction'.candidates.map routed = extraction.candidates.map routed := by
  refine ⟨?_, fun before inner inner' after first last document' hlines hfirst hlast hlines' hinner' =>
    extract_around hlines hlines' hfirst hlast hinner' hheader hok⟩
  obtain ⟨exclusions, sections, preamble, found, hexclusions, hsections, hpreamble, hfound, hjoined⟩ :=
    extract_steps hheader hok
  have hgenerated := generated_of_ok hexclusions
  refine ⟨exclusions, hgenerated, ?_⟩
  have hend : (sections.head?.map (·.start)).getD (byteLength document.text) =
      preambleEnd (maskRanges document.text exclusions) sections := by
    rw [preambleEnd, maskRanges, byteLength_maskFrom]
  rw [hend] at hpreamble
  rw [hjoined]
  exact partition_of_ok (proper_of_generated hgenerated) hsections hpreamble hfound

end Extract

def agentsText : List Char :=
  "Use tabs.\n<!-- memzoi:start -->\n# Generated\n<!-- memzoi:end -->\n# Tests\nRun them.\n".toList

def agentsDocument : CaptureSourceDocument :=
  { request := { noteSource with locator := .projectPath "AGENTS.md" }
    snapshot := noteSnapshot
    text := agentsText }

/-- The text before the block and the section behind it. -/
theorem agents_partition : ∃ extraction exclusions,
    @extract .ascii noteSourceDigests noteDigests agentsDocument markdownExtractor = .ok extraction ∧
      extraction.candidates.length = 2 ∧ Generated agentsText exclusions ∧
      Partition agentsText exclusions extraction.candidates := by
  obtain ⟨extraction, hextraction, hlength⟩ := ok_of_any
    (show (@extract .ascii noteSourceDigests noteDigests agentsDocument markdownExtractor).toOption.any
      (fun extraction => extraction.candidates.length = 2) = true by decide +kernel)
  obtain ⟨⟨exclusions, hgenerated, hpartition⟩, -⟩ :=
    @extract_partition .ascii noteSourceDigests noteDigests agentsDocument markdownExtractor extraction
      (by decide +kernel) hextraction
  exact ⟨extraction, exclusions, hextraction, by simpa using hlength, hgenerated, hpartition⟩

end Instruction
end Capture
end Memzoi
