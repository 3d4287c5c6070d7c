/-
# Instruction capture partitions the visible text

Source: `capture/adapters/instruction.rs` (`extract`, `visible_ranges`,
`trim_range`).

The text is split at its headings, and each part is cut at the generated lines.
What is left of a part is trimmed, so a visible character of the part is in the
evidence if the part is captured, and is on the heading line if it is not.
-/

import Memzoi.Capture.InstructionExtraction

namespace Memzoi
namespace Capture
namespace Instruction

open Fallible SourceText Text

/-! ### Visible ranges -/

def Inside (n : Nat) (range : ByteRange) : Prop := range.start ≤ n ∧ n < range.stop

/-- The ranges that some exclusions leave of a range. -/
structure Leaves (exclusions : List ByteRange) (range : ByteRange) (ranges : List ByteRange) :
    Prop where
  ordered : ranges.Pairwise fun r s => r.stop ≤ s.start
  proper : ∀ r ∈ ranges, r.start ≤ r.stop
  within : ∀ r ∈ ranges, range.start ≤ r.start ∧ r.stop ≤ range.stop
  apart : ∀ r ∈ ranges, ∀ x ∈ exclusions, r.stop ≤ x.start ∨ x.stop ≤ r.start
  covers : ∀ n, Inside n range → (∀ x ∈ exclusions, Outside n x) → ∃ r ∈ ranges, Inside n r

theorem mem_cut {x range r : ByteRange} (hmeet : x.start < range.stop) (hmeet' : range.start < x.stop) :
    r ∈ cut x range ↔ (range.start < x.start ∧ r = ⟨range.start, x.start⟩) ∨
      (x.stop < range.stop ∧ r = ⟨x.stop, range.stop⟩) := by
  rw [cut, if_neg (by omega), List.mem_append]
  refine or_congr ?_ ?_
  · split <;> simp_all
  · split <;> simp_all

theorem leaves_cut {x range : ByteRange} (hx : x.start ≤ x.stop) (hrange : range.start ≤ range.stop) :
    Leaves [x] range (cut x range) := by
  by_cases hapart : x.stop ≤ range.start ∨ range.stop ≤ x.start
  · rw [cut, if_pos hapart]
    constructor
    · exact List.pairwise_singleton _ _
    · simpa using hrange
    · simp
    · simpa using hapart.symm
    · exact fun n hn _ => ⟨range, List.mem_singleton_self _, hn⟩
  · have hmeet : x.start < range.stop := by omega
    have hmeet' : range.start < x.stop := by omega
    constructor
    · rw [cut, if_neg hapart]
      split <;> split <;> simp [hx]
    · intro r hr
      rcases (mem_cut hmeet hmeet').1 hr with ⟨hlt, rfl⟩ | ⟨hlt, rfl⟩
      · exact Nat.le_of_lt hlt
      · exact Nat.le_of_lt hlt
    · intro r hr
      rcases (mem_cut hmeet hmeet').1 hr with ⟨-, rfl⟩ | ⟨-, rfl⟩
      · exact ⟨Nat.le_refl _, Nat.le_of_lt hmeet⟩
      · exact ⟨Nat.le_of_lt hmeet', Nat.le_refl _⟩
    · intro r hr y hy
      obtain rfl := List.mem_singleton.1 hy
      rcases (mem_cut hmeet hmeet').1 hr with ⟨-, rfl⟩ | ⟨-, rfl⟩
      · exact Or.inl (Nat.le_refl _)
      · exact Or.inr (Nat.le_refl _)
    · rintro n ⟨hstart, hstop⟩ hout
      rcases hout x (List.mem_singleton_self x) with hbefore | hbehind
      · exact ⟨_, (mem_cut hmeet hmeet').2 (Or.inl ⟨by omega, rfl⟩), hstart, hbefore⟩
      · exact ⟨_, (mem_cut hmeet hmeet').2 (Or.inr ⟨by omega, rfl⟩), hbehind, hstop⟩

/-- One exclusion more. -/
theorem Leaves.step {exclusions ranges : List ByteRange} {x range : ByteRange}
    (h : Leaves exclusions range ranges) (hx : x.start ≤ x.stop) :
    Leaves (exclusions ++ [x]) range (ranges.flatMap (cut x)) := by
  have hcut : ∀ r ∈ ranges, Leaves [x] r (cut x r) := fun r hr => leaves_cut hx (h.proper r hr)
  constructor
  · refine List.pairwise_flatMap.2 ⟨fun r hr => (hcut r hr).ordered, ?_⟩
    refine h.ordered.imp_of_mem fun {r s} hr hs hle a ha b hb => ?_
    have hra := (hcut r hr).within a ha
    have hsb := (hcut s hs).within b hb
    omega
  · intro a ha
    obtain ⟨r, hr, ha⟩ := List.mem_flatMap.1 ha
    exact (hcut r hr).proper a ha
  · intro a ha
    obtain ⟨r, hr, ha⟩ := List.mem_flatMap.1 ha
    have hra := (hcut r hr).within a ha
    have hr := h.within r hr
    omega
  · intro a ha y hy
    obtain ⟨r, hr, ha⟩ := List.mem_flatMap.1 ha
    rcases List.mem_append.1 hy with hy | hy
    · have hra := (hcut r hr).within a ha
      have hry := h.apart r hr y hy
      omega
    · exact (hcut r hr).apart a ha y hy
  · intro n hn hout
    obtain ⟨r, hr, hnr⟩ := h.covers n hn fun y hy => hout y (List.mem_append_left _ hy)
    obtain ⟨a, ha, hna⟩ := (hcut r hr).covers n hnr fun y hy => hout y (List.mem_append_right _ hy)
    exact ⟨a, List.mem_flatMap.2 ⟨r, hr, ha⟩, hna⟩

theorem leaves_visibleRanges {exclusions : List ByteRange} {range : ByteRange}
    (hproper : ∀ x ∈ exclusions, x.start ≤ x.stop) (hrange : range.start ≤ range.stop) :
    Leaves exclusions range (visibleRanges range exclusions) := by
  induction exclusions using List.reverseRecOn with
  | nil =>
      constructor
      · exact List.pairwise_singleton _ _
      · simpa [visibleRanges] using hrange
      · simp [visibleRanges]
      · intro r _ x hx
        cases hx
      · exact fun n hn _ => ⟨range, List.mem_singleton_self _, hn⟩
  | append_singleton exclusions x ih =>
      have hstep := (ih fun y hy => hproper y (List.mem_append_left _ hy)).step
        (hproper x (List.mem_append_right _ List.mem_cons_self))
      rw [visibleRanges, List.foldl_append]
      exact hstep

/-! ### Trimmed ranges -/

section Trimmed

variable {text : List Char} {range : ByteRange}

theorem textAt_eq_ok {start stop : Nat} {span : List Char} :
    textAt text start stop = .ok span ↔ slice text start stop = some span := by
  rw [textAt]
  cases slice text start stop with
  | none => simp
  | some found => simp

/-- The trimmed range of a span, if anything is visible in it. -/
structure Trimmed (text : List Char) (range trimmed : ByteRange) : Prop where
  within : range.start ≤ trimmed.start ∧ trimmed.stop ≤ range.stop
  proper : trimmed.start < trimmed.stop
  covers : ∀ pre c post, text = pre ++ c :: post → isWhitespace c = false →
    Inside (byteLength pre) range →
      trimmed.start ≤ byteLength pre ∧ byteLength pre + c.utf8Size ≤ trimmed.stop

theorem trimRange_spec {found : Option ByteRange} (h : trimRange text range = .ok found) :
    ∃ span, slice text range.start range.stop = some span ∧
      ((trimChars span = [] ∧ found = none) ∨ ∃ trimmed, found = some trimmed ∧
        Trimmed text range trimmed ∧
        slice text trimmed.start trimmed.stop = some (trimChars span) ∧ trimChars span ≠ []) := by
  obtain ⟨span, hspan, h⟩ := bind_eq_ok.1 h
  obtain rfl := Except.ok.inj h
  have hslice := textAt_eq_ok.1 hspan
  obtain ⟨before, behind, htext, hbefore, hstop⟩ := slice_eq_some.1 hslice
  rw [byteLength_append] at hstop
  refine ⟨span, hslice, ?_⟩
  obtain ⟨lead, trail, hsplit, hlead, htrail, hstart⟩ := exists_trimChars span
  by_cases hblank : trimChars span = []
  · left
    have hall := trimChars_eq_nil.1 hblank
    have htrimmed : trimEnd span = [] := trimEnd_eq_nil.2 hall
    refine ⟨hblank, if_neg ?_⟩
    dsimp only
    rw [htrimmed, byteLength_nil]
    omega
  · right
    have hend := trimEnd_of_split hsplit rfl hblank htrail
    have hbytes := congrArg byteLength hsplit
    simp only [byteLength_append] at hbytes
    have hpos := byteLength_pos hblank
    have hleading : byteLength span - byteLength (trimStart span) = byteLength lead := by
      rw [hstart, byteLength_append]
      omega
    have htrailing : byteLength span - byteLength (trimEnd span) = byteLength trail := by
      rw [hend, byteLength_append]
      omega
    have hproper : range.start + byteLength lead < range.stop - byteLength trail := by omega
    dsimp only
    rw [hleading, htrailing, if_pos hproper]
    refine ⟨_, rfl, ⟨⟨Nat.le_add_right _ _, Nat.sub_le _ _⟩, hproper, ?_⟩, ?_, hblank⟩
    swap
    · refine slice_eq_some.2 ⟨before ++ lead, trail ++ behind, ?_, ?_, ?_⟩
      · rw [htext]
        conv_lhs => rw [hsplit]
        simp only [List.append_assoc]
      · rw [byteLength_append, hbefore]
      · simp only [byteLength_append]
        omega
    rintro pre c post hpre hvisible ⟨hafter, hbefore'⟩
    -- the character is neither in the white space in front nor in the one at the end
    rw [htext, hsplit] at hpre
    have hfront : byteLength before + byteLength lead ≤ byteLength pre := by
      by_contra hearly
      have hwhole : before ++ (lead ++ (trimChars span ++ trail ++ behind)) = pre ++ c :: post := by
        rw [← hpre]
        simp only [List.append_assoc]
      obtain ⟨front, back, rfl, -⟩ :=
        exists_of_start_in_piece hwhole (by omega) (by omega)
      rw [hlead c (List.mem_append_right _ List.mem_cons_self)] at hvisible
      cases hvisible
    have hback : byteLength pre < byteLength before + byteLength lead + byteLength (trimChars span) := by
      by_contra hlate
      have hwhole : (before ++ lead ++ trimChars span) ++ (trail ++ behind) = pre ++ c :: post := by
        rw [← hpre]
        simp only [List.append_assoc]
      obtain ⟨front, back, rfl, -⟩ := exists_of_start_in_piece hwhole
        (by simp only [byteLength_append]; omega) (by simp only [byteLength_append]; omega)
      rw [htrail c (List.mem_append_right _ List.mem_cons_self)] at hvisible
      cases hvisible
    have hwhole : (before ++ lead) ++ (trimChars span ++ (trail ++ behind)) = pre ++ c :: post := by
      rw [← hpre]
      simp only [List.append_assoc]
    obtain ⟨front, back, hcore, hpre', -⟩ := exists_of_start_in_piece hwhole
      (by simp only [byteLength_append]; omega) (by simp only [byteLength_append]; omega)
    have hsize := congrArg byteLength hcore
    rw [byteLength_append, byteLength_cons] at hsize
    have hplace := congrArg byteLength hpre'
    simp only [byteLength_append] at hplace
    dsimp only
    omega

end Trimmed

/-! ### The evidence of a part -/

/-- The evidence of a part of the text: what is visible in it. -/
structure PartEvidence (text : List Char) (exclusions : List ByteRange) (range : ByteRange)
    (evidence : List CaptureEvidence) : Prop where
  ordered : evidence.Pairwise fun e f => e.span.byteEnd ≤ f.span.byteStart
  proper : ∀ e ∈ evidence, e.span.byteStart < e.span.byteEnd
  within : ∀ e ∈ evidence, range.start ≤ e.span.byteStart ∧ e.span.byteEnd ≤ range.stop
  apart : ∀ e ∈ evidence, ∀ x ∈ exclusions,
    e.span.byteEnd ≤ x.start ∨ x.stop ≤ e.span.byteStart
  exact : ∀ e ∈ evidence, ExactEvidence text e
  covers : ∀ pre c post, text = pre ++ c :: post → isWhitespace c = false →
    Inside (byteLength pre) range → (∀ x ∈ exclusions, Outside (byteLength pre) x) →
      ∃ e ∈ evidence, e.span.byteStart ≤ byteLength pre ∧
        byteLength pre + c.utf8Size ≤ e.span.byteEnd

section Parts

variable [SourceDigests] {document : CaptureSourceDocument} {exclusions : List ByteRange}
  {range : ByteRange} {sectionKind : String} {headingPath : List String}

theorem evidenceForRange_spec {items : List CaptureEvidence}
    (h : evidenceForRange document sectionKind headingPath range = .ok items) :
    ∃ span, slice document.text range.start range.stop = some span ∧
      ((trimChars span = [] ∧ items = []) ∨ ∃ item trimmed, items = [item] ∧
        Trimmed document.text range trimmed ∧ item.span.byteStart = trimmed.start ∧
        item.span.byteEnd = trimmed.stop ∧ ExactEvidence document.text item) := by
  obtain ⟨found, hfound, h⟩ := bind_eq_ok.1 h
  obtain ⟨span, hslice, ⟨hblank, rfl⟩ | ⟨trimmed, rfl, htrimmed, -, -⟩⟩ := trimRange_spec hfound
  · exact ⟨span, hslice, Or.inl ⟨hblank, (Except.ok.inj h).symm⟩⟩
  · obtain ⟨evidence, hevidence, h⟩ := bind_eq_ok.1 h
    obtain ⟨item, rfl, hstart, hend, hexact⟩ := evidenceFor_spec hevidence rfl
    obtain rfl := Except.ok.inj h
    exact ⟨span, hslice, Or.inr ⟨_, trimmed, rfl, htrimmed, hstart, hend,
      ⟨hexact.excerpt, hexact.lineStart, hexact.lineEnd⟩⟩⟩

theorem partEvidence_of_ok {evidence : List CaptureEvidence}
    (hproper : ∀ x ∈ exclusions, x.start ≤ x.stop) (hrange : range.start ≤ range.stop)
    (h : evidenceForVisibleRange document range exclusions sectionKind headingPath = .ok evidence) :
    PartEvidence document.text exclusions range evidence ∧ evidence ≠ [] := by
  have hleaves := leaves_visibleRanges hproper hrange
  obtain ⟨found, hfound, h⟩ := bind_eq_ok.1 h
  obtain ⟨hne, h⟩ := check_bind_eq_ok.1 h
  obtain rfl := Except.ok.inj h
  have hitem : ∀ e ∈ found, ∃ r ∈ visibleRanges range exclusions, ∃ trimmed,
      Trimmed document.text r trimmed ∧ e.span.byteStart = trimmed.start ∧
        e.span.byteEnd = trimmed.stop ∧ ExactEvidence document.text e := by
    intro e he
    obtain ⟨r, hr, items, hitems, he⟩ := (mem_of_gatherAll hfound e).1 he
    obtain ⟨-, -, ⟨-, rfl⟩ | ⟨item, trimmed, rfl, htrimmed, hstart, hend, hexact⟩⟩ :=
      evidenceForRange_spec hitems
    · cases he
    · obtain rfl := List.mem_singleton.1 he
      exact ⟨r, hr, trimmed, htrimmed, hstart, hend, hexact⟩
  refine ⟨?_, ensure_eq_ok.1 hne⟩
  constructor
  · rw [pairwise_gatherAll hfound]
    · refine hleaves.ordered.imp fun {r s} hle items hitems items' hitems' e he f hf => ?_
      obtain ⟨-, -, ⟨-, rfl⟩ | ⟨item, trimmed, rfl, htrimmed, -, hend, -⟩⟩ :=
        evidenceForRange_spec hitems
      · cases he
      obtain ⟨-, -, ⟨-, rfl⟩ | ⟨item', trimmed', rfl, htrimmed', hstart', -, -⟩⟩ :=
        evidenceForRange_spec hitems'
      · cases hf
      obtain rfl := List.mem_singleton.1 he
      obtain rfl := List.mem_singleton.1 hf
      have hwithin := htrimmed.within
      have hwithin' := htrimmed'.within
      omega
    · intro r _ items hitems
      obtain ⟨-, -, ⟨-, rfl⟩ | ⟨item, -, rfl, -⟩⟩ := evidenceForRange_spec hitems
      · exact List.Pairwise.nil
      · exact List.pairwise_singleton _ _
  · intro e he
    obtain ⟨r, -, trimmed, htrimmed, hstart, hend, -⟩ := hitem e he
    rw [hstart, hend]
    exact htrimmed.proper
  · intro e he
    obtain ⟨r, hr, trimmed, htrimmed, hstart, hend, -⟩ := hitem e he
    have hwithin := htrimmed.within
    have hpart := hleaves.within r hr
    omega
  · intro e he x hx
    obtain ⟨r, hr, trimmed, htrimmed, hstart, hend, -⟩ := hitem e he
    have hwithin := htrimmed.within
    have hpart := hleaves.apart r hr x hx
    omega
  · intro e he
    obtain ⟨-, -, -, -, -, -, hexact⟩ := hitem e he
    exact hexact
  · intro pre c post htext hvisible hinside hout
    obtain ⟨r, hr, hin⟩ := hleaves.covers _ hinside hout
    obtain ⟨parts, hparts, hok⟩ := bind_eq_ok.1 hfound
    obtain ⟨items, -, hitems⟩ := exists_of_mapAll hparts hr
    obtain ⟨span, hslice, hcase⟩ := evidenceForRange_spec hitems
    rcases hcase with ⟨hblank, -⟩ | ⟨item, trimmed, rfl, htrimmed, hstart, hend, -⟩
    · obtain ⟨before, behind, hsplit, hbefore, hstop⟩ := slice_eq_some.1 hslice
      rw [byteLength_append] at hstop
      have hwhole : before ++ (span ++ behind) = pre ++ c :: post := by
        rw [← htext, hsplit, List.append_assoc]
      obtain ⟨front, back, rfl, -⟩ := exists_of_start_in_piece hwhole (by rw [hbefore]; exact hin.1)
        (by rw [hbefore, ← hbefore, hstop]; exact hin.2)
      rw [trimChars_eq_nil.1 hblank c (List.mem_append_right _ List.mem_cons_self)] at hvisible
      cases hvisible
    · obtain ⟨hfirst, hlast⟩ := htrimmed.covers pre c post htext hvisible hin
      refine ⟨item, (mem_of_gatherAll hfound item).2
        ⟨r, hr, [item], hitems, List.mem_singleton_self _⟩, ?_, ?_⟩
      · rw [hstart]
        exact hfirst
      · rw [hend]
        exact hlast

end Parts

/-! ### Blank parts -/

theorem mem_intercalate {separator piece : List Char} {pieces : List (List Char)} {c : Char}
    (hpiece : piece ∈ pieces) (hc : c ∈ piece) : c ∈ List.intercalate separator pieces := by
  induction pieces with
  | nil => cases hpiece
  | cons first rest ih =>
      cases rest with
      | nil =>
          obtain rfl := List.mem_singleton.1 hpiece
          rwa [List.intercalate_singleton]
      | cons second rest =>
          rw [List.intercalate_cons_cons]
          rcases List.mem_cons.1 hpiece with rfl | hpiece
          · exact List.mem_append_left _ (List.mem_append_left _ hc)
          · exact List.mem_append_right _ (ih hpiece)

/-- In a part without visible text no character is visible. -/
theorem not_visible_of_blank {text pre post body : List Char} {c : Char}
    {exclusions : List ByteRange} {range : ByteRange} (hproper : ∀ x ∈ exclusions, x.start ≤ x.stop)
    (hbody : visibleText text range exclusions = .ok body) (hblank : trimChars body = [])
    (htext : text = pre ++ c :: post) (hinside : Inside (byteLength pre) range)
    (hout : ∀ x ∈ exclusions, Outside (byteLength pre) x) : isWhitespace c = true := by
  have hrange : range.start ≤ range.stop := Nat.le_of_lt (Nat.lt_of_le_of_lt hinside.1 hinside.2)
  obtain ⟨r, hr, hin⟩ := (leaves_visibleRanges hproper hrange).covers _ hinside hout
  obtain ⟨parts, hparts, hbody⟩ := bind_eq_ok.1 hbody
  obtain rfl := Except.ok.inj hbody
  obtain ⟨span, hspan, hslice⟩ := exists_of_mapAll hparts hr
  obtain ⟨before, behind, hsplit, hbefore, hstop⟩ := slice_eq_some.1 (textAt_eq_ok.1 hslice)
  rw [byteLength_append] at hstop
  have hwhole : before ++ (span ++ behind) = pre ++ c :: post := by
    rw [← htext, hsplit, List.append_assoc]
  obtain ⟨front, back, rfl, -⟩ := exists_of_start_in_piece hwhole (by rw [hbefore]; exact hin.1)
    (by rw [hstop]; exact hin.2)
  by_contra hvisible
  have hne : trimChars (front ++ c :: back) ≠ [] := fun hnil =>
    hvisible (trimChars_eq_nil.1 hnil c (List.mem_append_right _ List.mem_cons_self))
  have hmem : trimChars (front ++ c :: back) ∈ (parts.map trimChars).filter (· ≠ []) :=
    List.mem_filter.2 ⟨List.mem_map_of_mem hspan, by simpa using hne⟩
  have hall : trimChars (trimChars (front ++ c :: back)) = [] := trimChars_eq_nil.2 fun d hd =>
    trimChars_eq_nil.1 hblank d (mem_intercalate hmem hd)
  rw [trimChars_trimChars] at hall
  exact hne hall

/-! ### Parts -/

/-- A part of a text, and where the text below its heading starts. -/
structure Part where
  start : Nat
  bodyStart : Nat
  stop : Nat

/-- The parts of a text: what is before the first heading, and each heading up to the next one. -/
inductive PartOf (masked : List Char) : Part → Prop
  | preamble {stop : Nat} (first : ∀ g, HeadingLine masked g → stop ≤ g.start)
      (place : stop = byteLength masked ∨ ∃ g, HeadingLine masked g ∧ g.start = stop) :
      PartOf masked ⟨0, 0, stop⟩
  | heading {h : MarkdownHeading} {before after : List (List Char)} {line : List Char} {stop : Nat}
      (hline : HeadingLine masked h) (lines : splitInclusive masked = before ++ line :: after)
      (start : h.start = byteLength before.flatten)
      (next : FirstAfter masked (fun _ => True) h.start stop) :
      PartOf masked ⟨h.start, h.start + byteLength line, stop⟩

section PartLemmas

variable {masked line : List Char} {before after : List (List Char)} {g : MarkdownHeading}

/-- A heading that starts behind a line's start starts behind the line. -/
theorem line_end_le (hlines : splitInclusive masked = before ++ line :: after)
    (hg : HeadingLine masked g) (hlt : byteLength before.flatten < g.start) :
    byteLength before.flatten + byteLength line ≤ g.start := by
  obtain ⟨before', line', after', hlines', -, -, hstart, -⟩ := hg
  rcases List.append_eq_append_iff.1 (hlines.symm.trans hlines') with
    ⟨mid, hbefore, hrest⟩ | ⟨mid, hbefore, -⟩
  · cases mid with
    | nil =>
        rw [List.append_nil] at hbefore
        rw [hstart, hbefore] at hlt
        omega
    | cons first mid =>
        obtain ⟨rfl, -⟩ := List.cons.inj hrest
        rw [hstart, hbefore, List.flatten_append, List.flatten_cons, byteLength_append,
          byteLength_append]
        omega
  · rw [hbefore, List.flatten_append, byteLength_append] at hlt
    omega

/-- The line of a heading is part of what the heading reaches up to. -/
theorem line_le_next {stop : Nat} (hlines : splitInclusive masked = before ++ line :: after)
    (hnext : FirstAfter masked (fun _ => True) (byteLength before.flatten) stop) :
    byteLength before.flatten + byteLength line ≤ stop := by
  rcases hnext.place with heq | ⟨g, hg, hlt, -, heq⟩
  · have htotal := congrArg byteLength (flatten_lines hlines)
    simp only [byteLength_append] at htotal
    omega
  · rw [← heq]
    exact line_end_le hlines hg hlt

/-- The end of the heading line. -/
theorem headingEnd_eq {s : MarkdownSection} {n : Nat} (hend : headingEnd masked s = .ok n)
    (hlines : splitInclusive masked = before ++ line :: after)
    (hstart : s.start = byteLength before.flatten)
    (hnext : FirstAfter masked (fun _ => True) s.start s.directEnd) :
    n = s.start + byteLength line := by
  obtain ⟨span, hspan, hend⟩ := bind_eq_ok.1 hend
  obtain rfl := Except.ok.inj hend
  have htext := flatten_lines hlines
  have hpos : 0 < byteLength line := byteLength_pos
    (Segments.segment_of_mem (hlines ▸ List.mem_append_right _ List.mem_cons_self)).1
  have hle := line_le_next hlines (hstart ▸ hnext)
  obtain ⟨pre, post, hsplit, hpre, hstop⟩ := slice_eq_some.1 (textAt_eq_ok.1 hspan)
  rw [byteLength_append] at hstop
  -- the span starts with the line
  have hwhole : pre ++ (span ++ post) = before.flatten ++ (line ++ after.flatten) := by
    rw [← htext, hsplit, List.append_assoc]
  obtain ⟨hpre', hspan'⟩ := append_inj_byteLength hwhole (by omega)
  obtain ⟨rest, rfl, hafter⟩ := prefix_of_byteLength_le hspan'.symm (by omega)
  obtain ⟨hne, hinner⟩ := Segments.segment_of_mem
    (show line ∈ splitInclusive masked from hlines ▸ List.mem_append_right before List.mem_cons_self)
  rcases List.eq_nil_or_concat' line with hnil | ⟨init, last, rfl⟩
  · exact absurd hnil hne
  rw [List.dropLast_concat] at hinner
  by_cases hlast : last = '\n'
  · subst hlast
    have htake : (init ++ [ '\n'] ++ rest).takeWhile (· ≠ '\n') = init := by
      rw [List.append_assoc, List.takeWhile_append_of_pos, List.singleton_append,
        List.takeWhile_cons_of_neg (by simp), List.append_nil]
      intro c hc
      rw [decide_eq_true_eq]
      rintro rfl
      exact hinner hc
    have hone : byteLength [ '\n'] = 1 := rfl
    rw [if_pos (by simp), htake, byteLength_append, hone]
    omega
  · -- only the last line of a text has no newline
    have hlast' : after = [] := by
      by_contra hmore
      obtain ⟨following, others, rfl⟩ := List.exists_cons_of_ne_nil hmore
      have hdelimiter := Segments.delimiter_of_before
        (show Segments.segments '\n' masked = (before ++ [init ++ [last]]) ++ following :: others by
          rw [List.append_assoc]
          exact hlines) (init ++ [last]) (List.mem_append_right _ List.mem_cons_self)
      rw [List.dropLast_concat] at hdelimiter
      exact hlast (List.cons.inj (List.append_cancel_left hdelimiter)).1
    subst hlast'
    obtain ⟨rfl, rfl⟩ := List.append_eq_nil_iff.1 hafter.symm
    rw [List.append_nil] at hstop ⊢
    have hnone : '\n' ∉ init ++ [last] := by
      rw [List.mem_append, List.mem_singleton]
      rintro (hmem | heq)
      · exact hinner hmem
      · exact hlast heq.symm
    rw [if_neg hnone]
    omega

end PartLemmas

theorem byteLength_maskFrom (offset : Nat) (ranges : List ByteRange) (cs : List Char) :
    byteLength (maskFrom offset ranges cs) = byteLength cs := by
  induction cs generalizing offset with
  | nil => rfl
  | cons c cs ih =>
      rw [maskFrom, byteLength_append, ih, byteLength_cons]
      split
      · rw [byteLength_cons, byteLength_nil, Nat.add_zero]
      · have hspaces : ∀ n, byteLength (List.replicate n ' ') = n := by
          intro n
          induction n with
          | zero => rfl
          | succ n ih =>
              rw [List.replicate_succ, byteLength_cons, ih]
              exact Nat.add_comm 1 n
        rw [hspaces]

section Sections

variable {masked : List Char} {sections : List MarkdownSection} {n : Nat}

theorem start_le_directEnd (hsections : markdownSections masked = .ok sections) :
    ∀ s ∈ sections, s.start ≤ s.directEnd := by
  intro s hs
  obtain ⟨h, hline, hsection⟩ := (sectionTree_of_ok hsections).headed s hs
  rcases hsection.directEnd.place with heq | ⟨g, -, hlt, -, heq⟩
  · rw [heq, hsection.start]
    exact Nat.le_of_lt hline.start_lt
  · rw [← heq, hsection.start]
    exact Nat.le_of_lt hlt

/-- The heading line of a section has an end. -/
theorem headingEnd_of_lines {s : MarkdownSection} {line : List Char} {before after : List (List Char)}
    (hsections : markdownSections masked = .ok sections) (hs : s ∈ sections)
    (hlines : splitInclusive masked = before ++ line :: after)
    (hstart : s.start = byteLength before.flatten) :
    headingEnd masked s = .ok (s.start + byteLength line) ∧
      s.start + byteLength line ≤ s.directEnd := by
  obtain ⟨h, hline, hsection⟩ := (sectionTree_of_ok hsections).headed s hs
  have hnext := hsection.directEnd
  rw [← hsection.start] at hnext
  have hle := line_le_next hlines (hstart ▸ hnext)
  obtain ⟨span, hspan⟩ := exists_slice hsection.startBoundary hsection.directEnd.isCharBoundary
    (by omega : s.start ≤ s.directEnd)
  have hend : ∃ n, headingEnd masked s = .ok n :=
    ⟨_, bind_eq_ok.2 ⟨span, textAt_eq_ok.2 hspan, rfl⟩⟩
  obtain ⟨n, hend⟩ := hend
  rw [hend, headingEnd_eq hend hlines hstart hnext]
  exact ⟨rfl, by omega⟩

theorem partOf_section {s : MarkdownSection} (hsections : markdownSections masked = .ok sections)
    (hs : s ∈ sections) (hend : headingEnd masked s = .ok n) :
    PartOf masked ⟨s.start, n, s.directEnd⟩ := by
  obtain ⟨h, hline, hsection⟩ := (sectionTree_of_ok hsections).headed s hs
  obtain ⟨before, line, after, hlines, -, -, hstart, -⟩ := id hline
  have hnext := hsection.directEnd
  rw [← hsection.start] at hnext
  obtain rfl := headingEnd_eq hend hlines (hsection.start.trans hstart) hnext
  rw [hsection.start]
  exact .heading hline hlines hstart hsection.directEnd

/-- Where the text before the first heading ends. -/
def preambleEnd (masked : List Char) (sections : List MarkdownSection) : Nat :=
  (sections.head?.map (·.start)).getD (byteLength masked)

theorem preambleEnd_le (hsections : markdownSections masked = .ok sections) :
    ∀ s ∈ sections, preambleEnd masked sections ≤ s.start := by
  intro s hs
  cases sections with
  | nil => cases hs
  | cons first rest =>
      show first.start ≤ s.start
      rcases List.mem_cons.1 hs with rfl | hs
      · exact Nat.le_refl _
      · exact Nat.le_of_lt
          ((List.pairwise_cons.1 (sectionTree_of_ok hsections).ordered).1 s hs)

theorem partOf_preamble (hsections : markdownSections masked = .ok sections) :
    PartOf masked ⟨0, 0, preambleEnd masked sections⟩ := by
  have htree := sectionTree_of_ok hsections
  refine .preamble (fun g hg => ?_) ?_
  · obtain ⟨s, hs, hstart⟩ := htree.complete g hg
    rw [← hstart]
    exact preambleEnd_le hsections s hs
  · cases sections with
    | nil => exact Or.inl rfl
    | cons first rest =>
        obtain ⟨h, hline, hsection⟩ := htree.headed first List.mem_cons_self
        exact Or.inr ⟨h, hline, hsection.start.symm⟩

/-- A byte is before the first heading or in the part of a heading. -/
theorem mem_part (hsections : markdownSections masked = .ok sections) (hn : n < byteLength masked) :
    n < preambleEnd masked sections ∨ ∃ s ∈ sections, s.start ≤ n ∧ n < s.directEnd := by
  have htree := sectionTree_of_ok hsections
  by_cases hpreamble : n < preambleEnd masked sections
  · exact Or.inl hpreamble
  right
  -- the last section that starts at the byte or before it
  rcases List.eq_nil_or_concat' (sections.filter (·.start ≤ n)) with hnil | ⟨init, s, hfilter⟩
  · exfalso
    cases sections with
    | nil => exact hpreamble hn
    | cons first rest =>
        have hnone := List.filter_eq_nil_iff.1 hnil first List.mem_cons_self
        rw [decide_eq_true_eq] at hnone
        exact hnone (Nat.le_of_not_lt hpreamble)
  · obtain ⟨hs, hstart⟩ := List.mem_filter.1
      (show s ∈ sections.filter (·.start ≤ n) from hfilter ▸ List.mem_append_right _ List.mem_cons_self)
    rw [decide_eq_true_eq] at hstart
    refine ⟨s, hs, hstart, ?_⟩
    obtain ⟨h, -, hsection⟩ := htree.headed s hs
    refine hsection.directEnd.lt_of_lt_all hn fun g hg hlt _ => ?_
    by_contra hbehind
    obtain ⟨t, ht, htstart⟩ := htree.complete g hg
    have hmem : t ∈ init ++ [s] := hfilter ▸ List.mem_filter.2 ⟨ht, by simp; omega⟩
    have hordered := htree.ordered.filter (fun s => decide (s.start ≤ n))
    rw [hfilter] at hordered
    have hsstart := hsection.start
    rcases List.mem_append.1 hmem with hinit | hlast
    · have hless := (List.pairwise_append.1 hordered).2.2 t hinit s List.mem_cons_self
      omega
    · obtain rfl := List.mem_singleton.1 hlast
      omega

end Sections

/-! ### Captured parts -/

/-- A candidate of a part. -/
structure CapturedPart (text : List Char) (exclusions : List ByteRange) (part : Part)
    (c : CaptureCandidate) : Prop where
  evidence : PartEvidence text exclusions ⟨part.start, part.stop⟩ c.evidence
  cited : c.evidence ≠ []
  body : ∃ body, visibleText text ⟨part.bodyStart, part.stop⟩ exclusions = .ok body ∧
    c.memory.body = String.ofList (trimChars body)

/-- A part without visible text below its heading. -/
def BlankPart (text : List Char) (exclusions : List ByteRange) (part : Part) : Prop :=
  ∃ body, visibleText text ⟨part.bodyStart, part.stop⟩ exclusions = .ok body ∧ trimChars body = []

section Candidates

variable [Text.Unicode] [SourceDigests] [CaptureDigests] {document : CaptureSourceDocument}
  {extractor : CaptureExtractorIdentity} {exclusions : List ByteRange} {items : List CaptureCandidate}

theorem preambleCandidate_spec {stop : Nat} (hproper : ∀ x ∈ exclusions, x.start ≤ x.stop)
    (h : preambleCandidate document extractor exclusions stop = .ok items) :
    (BlankPart document.text exclusions ⟨0, 0, stop⟩ ∧ items = []) ∨
      ∃ c, items = [c] ∧ CapturedPart document.text exclusions ⟨0, 0, stop⟩ c := by
  obtain ⟨body, hbody, h⟩ := bind_eq_ok.1 h
  split at h
  · rename_i hblank
    exact Or.inl ⟨⟨body, hbody, hblank⟩, (Except.ok.inj h).symm⟩
  · obtain ⟨evidence, hevidence, h⟩ := bind_eq_ok.1 h
    obtain ⟨hpart, hcited⟩ := partEvidence_of_ok hproper (Nat.zero_le _) hevidence
    exact Or.inr ⟨_, (Except.ok.inj h).symm, hpart, hcited, body, hbody, rfl⟩

theorem sectionCandidate_spec {masked : List Char} {s : MarkdownSection}
    (hproper : ∀ x ∈ exclusions, x.start ≤ x.stop) (hrange : s.start ≤ s.directEnd)
    (h : sectionCandidate document extractor exclusions masked s = .ok items) :
    ∃ n, headingEnd masked s = .ok n ∧
      ((BlankPart document.text exclusions ⟨s.start, n, s.directEnd⟩ ∧ items = []) ∨
        ∃ c, items = [c] ∧ CapturedPart document.text exclusions ⟨s.start, n, s.directEnd⟩ c) := by
  obtain ⟨n, hend, h⟩ := bind_eq_ok.1 h
  obtain ⟨body, hbody, h⟩ := bind_eq_ok.1 h
  refine ⟨n, hend, ?_⟩
  split at h
  · rename_i hblank
    exact Or.inl ⟨⟨body, hbody, hblank⟩, (Except.ok.inj h).symm⟩
  · obtain ⟨evidence, hevidence, h⟩ := bind_eq_ok.1 h
    obtain ⟨hpart, hcited⟩ := partEvidence_of_ok hproper hrange hevidence
    exact Or.inr ⟨_, (Except.ok.inj h).symm, hpart, hcited, body, hbody, rfl⟩

end Candidates

/-! ### The partition -/

/-- The candidates of a text, around the generated lines. -/
structure Partition (text : List Char) (exclusions : List ByteRange)
    (candidates : List CaptureCandidate) : Prop where
  increasing : (candidates.flatMap (·.evidence)).Pairwise fun e f =>
    e.span.byteEnd ≤ f.span.byteStart
  captured : ∀ c ∈ candidates, ∃ part, PartOf (maskRanges text exclusions) part ∧
    CapturedPart text exclusions part c
  covered : ∀ pre c post, text = pre ++ c :: post → isWhitespace c = false →
    (∀ x ∈ exclusions, Outside (byteLength pre) x) →
      (∃ candidate ∈ candidates, ∃ e ∈ candidate.evidence,
        e.span.byteStart ≤ byteLength pre ∧ byteLength pre + c.utf8Size ≤ e.span.byteEnd) ∨
      ∃ part, PartOf (maskRanges text exclusions) part ∧ BlankPart text exclusions part ∧
        part.start ≤ byteLength pre ∧ byteLength pre < part.bodyStart

section Extract

variable [Text.Unicode] [SourceDigests] [CaptureDigests] {document : CaptureSourceDocument}
  {extractor : CaptureExtractorIdentity} {exclusions : List ByteRange}
  {sections : List MarkdownSection} {masked : List Char} {preamble found : List CaptureCandidate}

theorem increasing_found (hproper : ∀ x ∈ exclusions, x.start ≤ x.stop)
    (hsections : markdownSections masked = .ok sections)
    (hfound : gatherAll (sectionCandidate document extractor exclusions masked) sections = .ok found) :
    (found.flatMap (·.evidence)).Pairwise fun e f => e.span.byteEnd ≤ f.span.byteStart := by
  have htree := sectionTree_of_ok hsections
  have hnonempty := start_le_directEnd hsections
  refine List.pairwise_flatMap.2 ⟨fun c hc => ?_, ?_⟩
  · obtain ⟨s, hs, items, hitems, hc⟩ := (mem_of_gatherAll hfound c).1 hc
    obtain ⟨n, -, ⟨-, rfl⟩ | ⟨d, rfl, hpart⟩⟩ := sectionCandidate_spec hproper (hnonempty s hs) hitems
    · cases hc
    · obtain rfl := List.mem_singleton.1 hc
      exact hpart.evidence.ordered
  · rw [pairwise_gatherAll hfound]
    · refine htree.ordered.imp_of_mem fun {s t} hs ht hlt items hitems items' hitems' c hc d hd e he f hf => ?_
      obtain ⟨n, -, ⟨-, rfl⟩ | ⟨c', rfl, hpart⟩⟩ :=
        sectionCandidate_spec hproper (hnonempty s hs) hitems
      · cases hc
      obtain ⟨n', -, ⟨-, rfl⟩ | ⟨d', rfl, hpart'⟩⟩ :=
        sectionCandidate_spec hproper (hnonempty t ht) hitems'
      · cases hd
      obtain rfl := List.mem_singleton.1 hc
      obtain rfl := List.mem_singleton.1 hd
      have hwithin := hpart.evidence.within e he
      have hwithin' := hpart'.evidence.within f hf
      obtain ⟨h, -, hsection⟩ := htree.headed s hs
      obtain ⟨g, hg, hsection'⟩ := htree.headed t ht
      have hstart := hsection.start
      have hstart' := hsection'.start
      have hnext := hsection.directEnd.first g hg (by omega) trivial
      dsimp only at hwithin hwithin'
      omega
    · intro s hs items hitems
      obtain ⟨n, -, ⟨-, rfl⟩ | ⟨c, rfl, -⟩⟩ := sectionCandidate_spec hproper (hnonempty s hs) hitems
      · exact List.Pairwise.nil
      · exact List.pairwise_singleton _ _

theorem partition_of_ok (hproper : ∀ x ∈ exclusions, x.start ≤ x.stop)
    (hsections : markdownSections (maskRanges document.text exclusions) = .ok sections)
    (hpreamble : preambleCandidate document extractor exclusions
      (preambleEnd (maskRanges document.text exclusions) sections) = .ok preamble)
    (hfound : gatherAll (sectionCandidate document extractor exclusions
      (maskRanges document.text exclusions)) sections = .ok found) :
    Partition document.text exclusions (preamble ++ found) := by
  have htree := sectionTree_of_ok hsections
  have hnonempty := start_le_directEnd hsections
  have hfoundPart : ∀ d ∈ found, ∃ s ∈ sections, ∃ n,
      headingEnd (maskRanges document.text exclusions) s = .ok n ∧
        CapturedPart document.text exclusions ⟨s.start, n, s.directEnd⟩ d := by
    intro d hd
    obtain ⟨s, hs, items, hitems, hd⟩ := (mem_of_gatherAll hfound d).1 hd
    obtain ⟨n, hn, ⟨-, rfl⟩ | ⟨d', rfl, hpart⟩⟩ := sectionCandidate_spec hproper (hnonempty s hs) hitems
    · cases hd
    · obtain rfl := List.mem_singleton.1 hd
      exact ⟨s, hs, n, hn, hpart⟩
  constructor
  · rw [List.flatMap_append]
    refine List.pairwise_append.2 ⟨?_, increasing_found hproper hsections hfound, ?_⟩
    · rcases preambleCandidate_spec hproper hpreamble with ⟨-, rfl⟩ | ⟨c, rfl, hpart⟩
      · exact List.Pairwise.nil
      · simpa using hpart.evidence.ordered
    · intro e he f hf
      obtain ⟨c, hc, hce⟩ := List.mem_flatMap.1 he
      obtain ⟨d, hd, hdf⟩ := List.mem_flatMap.1 hf
      obtain ⟨s, hs, n, -, hpart'⟩ := hfoundPart d hd
      rcases preambleCandidate_spec hproper hpreamble with ⟨-, rfl⟩ | ⟨c', rfl, hpart⟩
      · cases hc
      obtain rfl := List.mem_singleton.1 hc
      have hwithin := hpart.evidence.within e hce
      have hwithin' := hpart'.evidence.within f hdf
      have hbehind := preambleEnd_le hsections s hs
      dsimp only at hwithin hwithin'
      omega
  · intro c hc
    rcases List.mem_append.1 hc with hc | hc
    · rcases preambleCandidate_spec hproper hpreamble with ⟨-, rfl⟩ | ⟨c', rfl, hpart⟩
      · cases hc
      obtain rfl := List.mem_singleton.1 hc
      exact ⟨_, partOf_preamble hsections, hpart⟩
    · obtain ⟨s, hs, n, hn, hpart⟩ := hfoundPart c hc
      exact ⟨_, partOf_section hsections hs hn, hpart⟩
  · intro pre c post htext hvisible hout
    have hn : byteLength pre < byteLength (maskRanges document.text exclusions) := by
      have hpos := c.utf8Size_pos
      rw [maskRanges, byteLength_maskFrom, htext, byteLength_append, byteLength_cons]
      omega
    have hblank : ∀ part : Part, BlankPart document.text exclusions part →
        part.bodyStart ≤ byteLength pre → byteLength pre < part.stop → False := by
      rintro part ⟨body, hbody, hnone⟩ hle hlt
      rw [not_visible_of_blank hproper hbody hnone htext ⟨hle, hlt⟩ hout] at hvisible
      cases hvisible
    rcases mem_part hsections hn with hfirst | ⟨s, hs, hstart, hstop⟩
    · rcases preambleCandidate_spec hproper hpreamble with ⟨hnone, -⟩ | ⟨d, rfl, hpart⟩
      · exact absurd hfirst (hblank _ hnone (Nat.zero_le _))
      · obtain ⟨e, he, hcover⟩ :=
          hpart.evidence.covers pre c post htext hvisible ⟨Nat.zero_le _, hfirst⟩ hout
        exact Or.inl ⟨d, by simp, e, he, hcover⟩
    · obtain ⟨parts, hparts, -⟩ := bind_eq_ok.1 hfound
      obtain ⟨items, -, hitems⟩ := exists_of_mapAll hparts hs
      obtain ⟨n, hend, ⟨hnone, -⟩ | ⟨d, rfl, hpart⟩⟩ :=
        sectionCandidate_spec hproper (hnonempty s hs) hitems
      · refine Or.inr ⟨_, partOf_section hsections hs hend, hnone, hstart, ?_⟩
        exact Nat.lt_of_not_le fun hle => hblank _ hnone hle hstop
      · obtain ⟨e, he, hcover⟩ :=
          hpart.evidence.covers pre c post htext hvisible ⟨hstart, hstop⟩ hout
        have hd : d ∈ found :=
          (mem_of_gatherAll hfound d).2 ⟨s, hs, [d], hitems, List.mem_singleton_self d⟩
        exact Or.inl ⟨d, List.mem_append_right _ hd, e, he, hcover⟩

end Extract

end Instruction
end Capture
end Memzoi
