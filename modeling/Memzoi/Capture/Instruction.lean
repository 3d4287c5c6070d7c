/-
# The generated part of an instruction file

Source: `capture/adapters.rs` (`source_lines`) and
`capture/adapters/instruction.rs` (`generated_ranges`).

The lines between a start and an end marker are generated, markers included, and
no capture reads them.
-/

import Memzoi.Lib.SourceText
import Memzoi.Lib.Text

namespace Memzoi
namespace Capture

open SourceText Text

/-! ### Lines -/

structure SourceLine where
  start : Nat
  stop : Nat
  number : Nat
  logical : List Char
  deriving DecidableEq, Repr

/-- The pieces of a text as its lines, from an offset and a number on. -/
def linesFrom (start number : Nat) : List (List Char) → List SourceLine
  | [] => []
  | raw :: rest =>
    { start, stop := start + byteLength raw, number, logical := logicalLine raw } ::
      linesFrom (start + byteLength raw) (number + 1) rest

def sourceLines (text : List Char) : List SourceLine :=
  -- the pieces make up the text, so only the empty text has a line besides them
  if text = [] then [{ start := 0, stop := 0, number := 1, logical := [] }]
  else linesFrom 0 1 (splitInclusive text)

theorem linesFrom_append (start number : Nat) (raws others : List (List Char)) :
    linesFrom start number (raws ++ others) = linesFrom start number raws ++
      linesFrom (start + byteLength raws.flatten) (number + raws.length) others := by
  induction raws generalizing start number with
  | nil => simp [linesFrom]
  | cons raw raws ih =>
      rw [List.cons_append, linesFrom, ih, linesFrom, List.cons_append, List.flatten_cons,
        byteLength_append, List.length_cons]
      simp only [Nat.add_assoc, Nat.add_comm 1]

/-! ### Markers -/

/-- A range of bytes of a text. -/
structure ByteRange where
  start : Nat
  stop : Nat
  deriving DecidableEq, Repr

namespace Instruction

def memzoiStart : List Char := "<!-- memzoi:start -->".toList

def memzoiEnd : List Char := "<!-- memzoi:end -->".toList

def malformedMarkers : String := "instruction source contains malformed Memzoi generated markers"

/-- The lines that hold a marker and nothing else. -/
def markerLines (marker : List Char) (lines : List SourceLine) : List SourceLine :=
  lines.filter fun line => trimChars line.logical = marker

def generatedRanges (text : List Char) : Except String (List ByteRange) :=
  let lines := sourceLines text
  match markerLines memzoiStart lines, markerLines memzoiEnd lines with
  | [], [] => .ok []
  | [first], [last] =>
    if first.start < last.start then .ok [{ start := first.start, stop := last.stop }]
    else .error malformedMarkers
  | _, _ => .error malformedMarkers

section Markers

variable {marker : List Char} {raws : List (List Char)} {start number : Nat}

theorem markerLines_append (lines others : List SourceLine) :
    markerLines marker (lines ++ others) = markerLines marker lines ++ markerLines marker others :=
  List.filter_append _ _

theorem markerLines_eq_nil (h : ∀ raw ∈ raws, trimChars (logicalLine raw) ≠ marker) :
    markerLines marker (linesFrom start number raws) = [] := by
  induction raws generalizing start number with
  | nil => rfl
  | cons raw raws ih =>
      rw [linesFrom, markerLines, List.filter_cons_of_neg (by simpa using h raw List.mem_cons_self)]
      exact ih fun other hother => h other (List.mem_cons_of_mem _ hother)

/-- The trimmed text of a line is part of the text. -/
theorem trimmed_infix {text raw : List Char} (hraw : raw ∈ splitInclusive text) :
    trimChars (logicalLine raw) <:+: text := by
  have htrim : trimChars (logicalLine raw) <:+: logicalLine raw :=
    (List.rdropWhile_prefix _ _).isInfix.trans (List.dropWhile_suffix _).isInfix
  have hpiece : raw <:+: text := by
    have h := List.infix_of_mem_flatten hraw
    rwa [Segments.flatten_segments] at h
  exact htrim.trans ((prefix_logicalLine raw).isInfix.trans hpiece)

/-- A text without a marker has no line with it. -/
theorem markerLines_of_not_infix {text : List Char} (h : ¬ marker <:+: text) :
    markerLines marker (linesFrom start number (splitInclusive text)) = [] :=
  markerLines_eq_nil fun _ hraw heq => h (heq ▸ trimmed_infix hraw)

theorem memzoiStart_ne_end : memzoiStart ≠ memzoiEnd := by decide +kernel

/-- A line that is not a marker. -/
def Unmarked (raw : List Char) : Prop :=
  trimChars (logicalLine raw) ≠ memzoiStart ∧ trimChars (logicalLine raw) ≠ memzoiEnd

/-- One start marker and one end marker after it: the lines from the one to the other are
generated. -/
theorem generatedRanges_of_lines {text first last : List Char} {before inner after : List (List Char)}
    (hlines : splitInclusive text = before ++ first :: (inner ++ last :: after))
    (hfirst : trimChars (logicalLine first) = memzoiStart)
    (hlast : trimChars (logicalLine last) = memzoiEnd) (hbefore : ∀ raw ∈ before, Unmarked raw)
    (hinner : ∀ raw ∈ inner, Unmarked raw) (hafter : ∀ raw ∈ after, Unmarked raw) :
    generatedRanges text =
      .ok [{ start := byteLength before.flatten
             stop := byteLength (before.flatten ++ (first ++ (inner.flatten ++ last))) }] := by
  have hne : text ≠ [] := by
    rintro rfl
    exact List.cons_ne_nil _ _ (List.append_eq_nil_iff.1 hlines.symm).2
  have hfirstNe : trimChars (logicalLine first) ≠ memzoiEnd := hfirst ▸ memzoiStart_ne_end
  have hlastNe : trimChars (logicalLine last) ≠ memzoiStart := hlast ▸ memzoiStart_ne_end.symm
  have hsource : sourceLines text = linesFrom 0 1 (before ++ first :: (inner ++ last :: after)) := by
    rw [sourceLines, if_neg hne, hlines]
  have hpos : 0 < byteLength first := byteLength_pos
    (Segments.segment_of_mem (hlines ▸ List.mem_append_right _ List.mem_cons_self)).1
  rw [linesFrom_append, linesFrom, linesFrom_append, linesFrom] at hsource
  have hstarts : ∃ number, markerLines memzoiStart (sourceLines text) =
      [{ start := 0 + byteLength before.flatten
         stop := 0 + byteLength before.flatten + byteLength first
         number, logical := logicalLine first }] := by
    refine ⟨1 + before.length, ?_⟩
    rw [hsource, markerLines_append, markerLines_eq_nil fun raw hraw => (hbefore raw hraw).1,
      List.nil_append, markerLines, List.filter_cons_of_pos (by simpa using hfirst)]
    refine congrArg _ ?_
    show markerLines _ _ = _
    rw [markerLines_append, markerLines_eq_nil fun raw hraw => (hinner raw hraw).1, List.nil_append,
      markerLines, List.filter_cons_of_neg (by simpa using hlastNe)]
    exact markerLines_eq_nil fun raw hraw => (hafter raw hraw).1
  have hends : ∃ number, markerLines memzoiEnd (sourceLines text) =
      [{ start := 0 + byteLength before.flatten + byteLength first + byteLength inner.flatten
         stop := 0 + byteLength before.flatten + byteLength first + byteLength inner.flatten +
           byteLength last
         number, logical := logicalLine last }] := by
    refine ⟨1 + before.length + 1 + inner.length, ?_⟩
    rw [hsource, markerLines_append, markerLines_eq_nil fun raw hraw => (hbefore raw hraw).2,
      List.nil_append, markerLines, List.filter_cons_of_neg (by simpa using hfirstNe)]
    show markerLines _ _ = _
    rw [markerLines_append, markerLines_eq_nil fun raw hraw => (hinner raw hraw).2, List.nil_append,
      markerLines, List.filter_cons_of_pos (by simpa using hlast)]
    refine congrArg _ ?_
    exact markerLines_eq_nil fun raw hraw => (hafter raw hraw).2
  obtain ⟨number, hstarts⟩ := hstarts
  obtain ⟨other, hends⟩ := hends
  rw [generatedRanges, hstarts, hends]
  dsimp only
  rw [if_pos (by omega)]
  simp only [byteLength_append, Nat.zero_add, Nat.add_assoc]

/-- The generated ranges of a text: none, or the lines from the start marker to the end marker. -/
inductive Generated (text : List Char) : List ByteRange → Prop
  | none (unmarked : ∀ raw ∈ splitInclusive text, Unmarked raw) : Generated text []
  | block {before inner after : List (List Char)} {first last : List Char}
      (lines : splitInclusive text = before ++ first :: (inner ++ last :: after))
      (start : trimChars (logicalLine first) = memzoiStart)
      (stop : trimChars (logicalLine last) = memzoiEnd) :
      Generated text
        [{ start := byteLength before.flatten
           stop := byteLength (before.flatten ++ (first ++ (inner.flatten ++ last))) }]

theorem mem_markerLines {line : SourceLine} (h : line ∈ markerLines marker (linesFrom start number raws)) :
    ∃ before raw after, raws = before ++ raw :: after ∧ trimChars (logicalLine raw) = marker ∧
      line.start = start + byteLength before.flatten := by
  induction raws generalizing start number with
  | nil => cases h
  | cons raw raws ih =>
      rw [linesFrom, markerLines] at h
      obtain ⟨hmem, hmarker⟩ := List.mem_filter.1 h
      rw [decide_eq_true_eq] at hmarker
      rcases List.mem_cons.1 hmem with rfl | hmem
      · exact ⟨[], raw, raws, rfl, hmarker, by simp⟩
      · obtain ⟨before, other, after, rfl, htrim, hstart⟩ :=
          ih (List.mem_filter.2 ⟨hmem, by simpa using hmarker⟩)
        refine ⟨raw :: before, other, after, rfl, htrim, ?_⟩
        rw [hstart, List.flatten_cons, byteLength_append, Nat.add_assoc]

theorem length_markerLines : (markerLines marker (linesFrom start number raws)).length =
    raws.countP fun raw => trimChars (logicalLine raw) = marker := by
  induction raws generalizing start number with
  | nil => rfl
  | cons raw raws ih =>
      have hrest := @ih (start + byteLength raw) (number + 1)
      rw [markerLines] at hrest
      rw [linesFrom, markerLines, List.filter_cons, List.countP_cons]
      split <;> simp_all

/-- Either there is no marker, or there is one of each. -/
theorem markers_of_ok {text : List Char} {ranges : List ByteRange} (hne : text ≠ [])
    (h : generatedRanges text = .ok ranges) :
    (ranges = [] ∧ markerLines memzoiStart (linesFrom 0 1 (splitInclusive text)) = [] ∧
        markerLines memzoiEnd (linesFrom 0 1 (splitInclusive text)) = []) ∨
      ∃ first last, markerLines memzoiStart (linesFrom 0 1 (splitInclusive text)) = [first] ∧
        markerLines memzoiEnd (linesFrom 0 1 (splitInclusive text)) = [last] ∧
        first.start < last.start := by
  rw [generatedRanges, sourceLines, if_neg hne] at h
  split at h
  · rename_i hstarts hends
    exact Or.inl ⟨(Except.ok.inj h).symm, hstarts, hends⟩
  · rename_i first last hstarts hends
    split at h
    · rename_i hlt
      exact Or.inr ⟨first, last, hstarts, hends, hlt⟩
    · cases h
  · cases h

/-- With one start marker and one end marker every other line is neither. -/
theorem unmarked_of_ok {text first last : List Char} {before inner after : List (List Char)}
    {ranges : List ByteRange} (h : generatedRanges text = .ok ranges)
    (hlines : splitInclusive text = before ++ first :: (inner ++ last :: after))
    (hfirst : trimChars (logicalLine first) = memzoiStart)
    (hlast : trimChars (logicalLine last) = memzoiEnd) :
    (∀ raw ∈ before, Unmarked raw) ∧ (∀ raw ∈ inner, Unmarked raw) ∧ ∀ raw ∈ after, Unmarked raw := by
  have hne : text ≠ [] := by
    rintro rfl
    exact List.cons_ne_nil _ _ (List.append_eq_nil_iff.1 hlines.symm).2
  have hcounts : ((splitInclusive text).countP fun raw => trimChars (logicalLine raw) = memzoiStart) ≤ 1 ∧
      ((splitInclusive text).countP fun raw => trimChars (logicalLine raw) = memzoiEnd) ≤ 1 := by
    rw [← @length_markerLines memzoiStart _ 0 1, ← @length_markerLines memzoiEnd _ 0 1]
    rcases markers_of_ok hne h with ⟨-, hstarts, hends⟩ | ⟨f, l, hstarts, hends, -⟩
    · rw [hstarts, hends]
      exact ⟨Nat.zero_le _, Nat.zero_le _⟩
    · rw [hstarts, hends]
      exact ⟨Nat.le_refl _, Nat.le_refl _⟩
  rw [hlines] at hcounts
  simp only [List.countP_append, List.countP_cons, hfirst, hlast, decide_true, if_true] at hcounts
  obtain ⟨hstarts, hends⟩ := hcounts
  have hzero : ∀ {raws : List (List Char)},
      (raws.countP fun raw => trimChars (logicalLine raw) = memzoiStart) = 0 →
      (raws.countP fun raw => trimChars (logicalLine raw) = memzoiEnd) = 0 →
        ∀ raw ∈ raws, Unmarked raw := by
    intro raws hstart hend raw hraw
    have hnot := List.countP_eq_zero.1 hstart raw hraw
    have hnot' := List.countP_eq_zero.1 hend raw hraw
    exact ⟨by simpa using hnot, by simpa using hnot'⟩
  exact ⟨hzero (by omega) (by omega), hzero (by omega) (by omega), hzero (by omega) (by omega)⟩

theorem generated_of_ok {text : List Char} {ranges : List ByteRange}
    (h : generatedRanges text = .ok ranges) : Generated text ranges := by
  by_cases hne : text = []
  · subst hne
    have hnone : generatedRanges [] = .ok [] := by decide +kernel
    obtain rfl := Except.ok.inj (hnone.symm.trans h)
    exact .none fun raw hraw => absurd hraw (by simp)
  rcases markers_of_ok hne h with ⟨rfl, hstarts, hends⟩ | ⟨first, last, hstarts, hends, hlt⟩
  · refine .none fun raw hraw => ?_
    have hstart := congrArg List.length hstarts
    have hend := congrArg List.length hends
    rw [length_markerLines] at hstart hend
    have hnot := List.countP_eq_zero.1 hstart raw hraw
    have hnot' := List.countP_eq_zero.1 hend raw hraw
    exact ⟨by simpa using hnot, by simpa using hnot'⟩
  · obtain ⟨before, f, rest, hlines, hfirst, hfirstStart⟩ :=
      mem_markerLines (hstarts ▸ List.mem_singleton_self first)
    obtain ⟨front, l, after, hlines', hlast, hlastStart⟩ :=
      mem_markerLines (hends ▸ List.mem_singleton_self last)
    rcases List.append_eq_append_iff.1 (hlines.symm.trans hlines') with
      ⟨mid, hfront, hrest⟩ | ⟨mid, hbefore, -⟩
    · cases mid with
      | nil =>
          rw [List.append_nil] at hfront
          rw [hfront] at hlastStart
          omega
      | cons g inner =>
          obtain ⟨rfl, rfl⟩ := List.cons.inj hrest
          obtain ⟨hbefore, hinner, hafter⟩ := unmarked_of_ok h hlines hfirst hlast
          have hranges := generatedRanges_of_lines hlines hfirst hlast hbefore hinner hafter
          obtain rfl := Except.ok.inj (hranges.symm.trans h)
          exact .block hlines hfirst hlast
    · rw [hbefore, List.flatten_append, byteLength_append] at hfirstStart
      omega

end Markers

end Instruction
end Capture
end Memzoi
