/-
# Sections form a tree over the text

Source: `capture.rs` (`markdown_sections`).

The headings of a text are its heading lines outside fenced code. The first pass
over them keeps an index on its stack as long as no heading ends its section, and
the second pass keeps the heading, so both come to what `Outline` says about a
sequence with levels: a section reaches up to the next heading of its level or of
a lesser one, and its path holds the headings that are open at it.
-/

import Memzoi.Capture.MarkdownSections
import Memzoi.Lib.Outline

namespace Memzoi
namespace Capture

open Fallible SourceText Text Outline

/-! ### Heading lines -/

def fenceStep (fence : Option (Char × Nat)) (line : List Char) : Option (Char × Nat) :=
  match fenceMarker (trimStart (logicalLine line)) with
  | some marker => toggleFence fence marker
  | none => fence

/-- The fence that is open behind some lines. -/
def fenceAfter (lines : List (List Char)) : Option (Char × Nat) := lines.foldl fenceStep none

/-- A heading line outside fenced code. -/
def HeadingLine (text : List Char) (h : MarkdownHeading) : Prop :=
  ∃ before line after, splitInclusive text = before ++ line :: after ∧ fenceAfter before = none ∧
    parseAtxHeading (logicalLine line) = some (h.level, h.heading) ∧
    h.start = byteLength before.flatten ∧ h.line = before.length + 1

/-- The heading that a line is, at an offset, a line number and behind an open fence. -/
def lineHeading (offset lineNumber : Nat) (fence : Option (Char × Nat)) (line : List Char) :
    Option MarkdownHeading :=
  if fence = none then
    (parseAtxHeading (logicalLine line)).map fun parsed =>
      ⟨offset, lineNumber, parsed.1, parsed.2⟩
  else none

def headingsIn (offset lineNumber : Nat) (fence : Option (Char × Nat)) :
    List (List Char) → List MarkdownHeading
  | [] => []
  | line :: rest =>
    (lineHeading offset lineNumber fence line).toList ++
      headingsIn (offset + byteLength line) (lineNumber + 1) (fenceStep fence line) rest

def headingsOf (text : List Char) : List MarkdownHeading :=
  headingsIn 0 1 none (splitInclusive text)

/-- A heading starts with the character of a heading, not of a fence. -/
theorem fenceMarker_of_parseAtxHeading {line : List Char} {parsed : Nat × String}
    (h : parseAtxHeading line = some parsed) : fenceMarker (trimStart line) = none := by
  rw [parseAtxHeading] at h
  dsimp only at h
  split at h
  · rename_i hlevel
    cases hline : trimStart line with
    | nil => rfl
    | cons c cs =>
        have hc : c = '#' := by
          by_contra hne
          rw [hline, List.takeWhile_cons_of_neg (by simpa using hne)] at hlevel
          exact absurd hlevel.1.1 (by simp)
        subst hc
        rw [fenceMarker]
        exact if_neg fun hfence => absurd hfence.1 (by decide)
  · cases h

section Headings

variable {offset lineNumber : Nat} {fence : Option (Char × Nat)} {lines : List (List Char)}

theorem lineHeading_eq_some {line : List Char} {h : MarkdownHeading} :
    lineHeading offset lineNumber fence line = some h ↔
      fence = none ∧ parseAtxHeading (logicalLine line) = some (h.level, h.heading) ∧
        h.start = offset ∧ h.line = lineNumber := by
  rw [lineHeading]
  constructor
  · intro heq
    split at heq
    · rename_i hfence
      obtain ⟨parsed, hparsed, rfl⟩ := Option.map_eq_some_iff.1 heq
      exact ⟨hfence, hparsed, rfl, rfl⟩
    · cases heq
  · rintro ⟨hfence, hparsed, rfl, rfl⟩
    rw [if_pos hfence, hparsed]
    rfl

theorem headings_of_scanLine {state state' : ScanState} {line : List Char}
    (h : scanLine state line = .ok state') :
    state' = { headings := state.headings ++
                 (lineHeading state.offset state.lineNumber state.fence line).toList
               offset := state.offset + byteLength line
               lineNumber := state.lineNumber + 1
               fence := fenceStep state.fence line } := by
  obtain ⟨headings, offset, lineNumber, fence⟩ := state
  rw [scanLine] at h
  dsimp only at h ⊢
  cases hmarker : fenceMarker (trimStart (logicalLine line)) with
  | some marker =>
      have hnone : parseAtxHeading (logicalLine line) = none := by
        by_contra hne
        obtain ⟨parsed, hparsed⟩ := Option.ne_none_iff_exists'.1 hne
        rw [fenceMarker_of_parseAtxHeading hparsed] at hmarker
        cases hmarker
      rw [hmarker] at h
      obtain rfl := Except.ok.inj h
      simp [lineHeading, fenceStep, hmarker, hnone]
  | none =>
      have hstep : fenceStep fence line = fence := by rw [fenceStep, hmarker]
      rw [hmarker] at h
      cases hfence : fence with
      | some open' =>
          rw [hfence] at h hstep
          obtain rfl := Except.ok.inj h
          simp [lineHeading, hstep]
      | none =>
          rw [hfence] at h hstep
          cases hparsed : parseAtxHeading (logicalLine line) with
          | none =>
              rw [hparsed] at h
              obtain rfl := Except.ok.inj h
              simp [lineHeading, hstep, hparsed]
          | some parsed =>
              rw [hparsed] at h
              obtain ⟨-, h⟩ := check_bind_eq_ok.1 h
              obtain rfl := Except.ok.inj h
              simp [lineHeading, hstep, hparsed]

theorem headingsIn_append (lines others : List (List Char)) :
    headingsIn offset lineNumber fence (lines ++ others) =
      headingsIn offset lineNumber fence lines ++
        headingsIn (offset + byteLength lines.flatten) (lineNumber + lines.length)
          (lines.foldl fenceStep fence) others := by
  induction lines generalizing offset lineNumber fence with
  | nil => simp [headingsIn]
  | cons line lines ih =>
      rw [List.cons_append, headingsIn, ih, headingsIn, List.append_assoc, List.flatten_cons,
        byteLength_append, List.length_cons, List.foldl_cons]
      simp only [Nat.add_assoc, Nat.add_comm 1]

theorem headings_of_scan {state state' : ScanState} (h : runAll scanLine state lines = .ok state') :
    state'.headings = state.headings ++
      headingsIn state.offset state.lineNumber state.fence lines := by
  induction lines generalizing state with
  | nil =>
      rw [runAll_nil] at h
      obtain rfl := Except.ok.inj h
      simp [headingsIn]
  | cons line lines ih =>
      obtain ⟨mid, hline, hrest⟩ := runAll_cons.1 h
      obtain rfl := headings_of_scanLine hline
      rw [ih hrest, List.append_assoc, headingsIn]

/-- The pass fails only when there are too many headings. -/
theorem exists_scan {state : ScanState} (hfew : (state.headings ++
    headingsIn state.offset state.lineNumber state.fence lines).length ≤ captureMaxMarkdownHeadings) :
    ∃ state', runAll scanLine state lines = .ok state' := by
  induction lines generalizing state with
  | nil => exact ⟨state, rfl⟩
  | cons line lines ih =>
      rw [headingsIn, ← List.append_assoc] at hfew
      have hline : ∃ mid, scanLine state line = .ok mid := by
        rw [scanLine]
        dsimp only
        split
        · exact ⟨_, rfl⟩
        · split
          · rename_i level heading hfence hparsed
            have hheading : lineHeading state.offset state.lineNumber state.fence line =
                some ⟨state.offset, state.lineNumber, level, heading⟩ :=
              lineHeading_eq_some.2 ⟨hfence, hparsed, rfl, rfl⟩
            rw [hheading, List.length_append] at hfew
            exact ⟨_, check_bind_eq_ok.2 ⟨ensure_of (Nat.le_trans (Nat.le_add_right _ _) hfew), rfl⟩⟩
          · exact ⟨_, rfl⟩
      obtain ⟨mid, hmid⟩ := hline
      obtain rfl := headings_of_scanLine hmid
      obtain ⟨state', hstate'⟩ := @ih ⟨_, _, _, _⟩ hfew
      exact ⟨state', runAll_cons.2 ⟨_, hmid, hstate'⟩⟩

theorem few_of_scanLine {state state' : ScanState} {line : List Char}
    (hfew : state.headings.length ≤ captureMaxMarkdownHeadings)
    (h : scanLine state line = .ok state') :
    state'.headings.length ≤ captureMaxMarkdownHeadings := by
  rw [scanLine] at h
  dsimp only at h
  split at h
  · obtain rfl := Except.ok.inj h
    exact hfew
  · split at h
    · obtain ⟨hbound, h⟩ := check_bind_eq_ok.1 h
      obtain rfl := Except.ok.inj h
      exact ensure_eq_ok.1 hbound
    · obtain rfl := Except.ok.inj h
      exact hfew

theorem few_of_scan {state state' : ScanState}
    (hfew : state.headings.length ≤ captureMaxMarkdownHeadings)
    (h : runAll scanLine state lines = .ok state') :
    state'.headings.length ≤ captureMaxMarkdownHeadings :=
  runAll_invariant (fun s : ScanState => s.headings.length ≤ captureMaxMarkdownHeadings)
    (fun _ _ _ _ hinv hstep => few_of_scanLine hinv hstep) hfew h

theorem mem_headingsIn {h : MarkdownHeading} :
    h ∈ headingsIn offset lineNumber fence lines ↔
      ∃ before line after, lines = before ++ line :: after ∧
        before.foldl fenceStep fence = none ∧
        parseAtxHeading (logicalLine line) = some (h.level, h.heading) ∧
        h.start = offset + byteLength before.flatten ∧ h.line = before.length + lineNumber := by
  induction lines generalizing offset lineNumber fence with
  | nil => simp [headingsIn]
  | cons line lines ih =>
      rw [headingsIn, List.mem_append, ih, Option.mem_toList]
      constructor
      · rintro (hhead | ⟨before, other, after, rfl, hfence, hparsed, hstart, hline⟩)
        · obtain ⟨hfence, hparsed, hstart, hline⟩ := lineHeading_eq_some.1 hhead
          exact ⟨[], line, lines, rfl, hfence, hparsed, by simpa using hstart, by simpa using hline⟩
        · refine ⟨line :: before, other, after, rfl, hfence, hparsed, ?_, ?_⟩
          · rw [hstart, List.flatten_cons, byteLength_append]
            omega
          · rw [hline, List.length_cons]
            omega
      · rintro ⟨before, other, after, hlines, hfence, hparsed, hstart, hline⟩
        cases before with
        | nil =>
            obtain ⟨rfl, rfl⟩ := List.cons.inj hlines
            exact Or.inl (lineHeading_eq_some.2
              ⟨hfence, hparsed, by simpa using hstart, by simpa using hline⟩)
        | cons first before =>
            obtain ⟨rfl, rfl⟩ := List.cons.inj hlines
            refine Or.inr ⟨before, other, after, rfl, hfence, hparsed, ?_, ?_⟩
            · rw [hstart, List.flatten_cons, byteLength_append]
              omega
            · rw [hline, List.length_cons]
              omega

theorem increasing_headingsIn (hlines : ∀ line ∈ lines, line ≠ []) :
    (headingsIn offset lineNumber fence lines).Pairwise fun a b => a.start < b.start := by
  induction lines generalizing offset lineNumber fence with
  | nil => exact List.Pairwise.nil
  | cons line lines ih =>
      have hpos := byteLength_pos (hlines line List.mem_cons_self)
      rw [headingsIn]
      refine List.pairwise_append.2 ⟨?_, ih fun l hl => hlines l (List.mem_cons_of_mem _ hl), ?_⟩
      · cases lineHeading offset lineNumber fence line with
        | none => exact List.Pairwise.nil
        | some a => exact List.pairwise_singleton _ _
      · intro a ha b hb
        obtain ⟨-, -, hfirst, -⟩ := lineHeading_eq_some.1 (Option.mem_toList.1 ha)
        obtain ⟨before, -, -, -, -, -, hstart, -⟩ := mem_headingsIn.1 hb
        omega

end Headings

section Text

variable {text : List Char} {h g : MarkdownHeading}

theorem mem_headingsOf : h ∈ headingsOf text ↔ HeadingLine text h := by
  rw [headingsOf, mem_headingsIn]
  simp only [Nat.zero_add]
  rfl

theorem increasing_headingsOf : (headingsOf text).Pairwise fun a b => a.start < b.start :=
  increasing_headingsIn fun _ hline => (Segments.segment_of_mem hline).1

/-- A text up to a line, the line and what is behind it. -/
theorem flatten_lines {line : List Char} {before after : List (List Char)}
    (hlines : splitInclusive text = before ++ line :: after) :
    text = before.flatten ++ (line ++ after.flatten) := by
  have htext : (splitInclusive text).flatten = text := Segments.flatten_segments text
  rw [hlines, List.flatten_append, List.flatten_cons] at htext
  exact htext.symm

theorem HeadingLine.start_lt (hline : HeadingLine text h) : h.start < byteLength text := by
  obtain ⟨before, line, after, hlines, -, -, hstart, -⟩ := hline
  have hpos : 0 < byteLength line := byteLength_pos
    (Segments.segment_of_mem (hlines ▸ List.mem_append_right _ List.mem_cons_self)).1
  have hbytes := congrArg byteLength (flatten_lines hlines)
  simp only [byteLength_append] at hbytes
  omega

theorem HeadingLine.isCharBoundary (hline : HeadingLine text h) :
    isCharBoundary text h.start = true := by
  obtain ⟨before, line, after, hlines, -, -, hstart, -⟩ := hline
  exact isCharBoundary_iff.2 ⟨before.flatten, _, flatten_lines hlines, hstart.symm⟩

theorem HeadingLine.line_eq (hline : HeadingLine text h) : h.line = lineAt text h.start := by
  obtain ⟨before, line, after, hlines, -, -, hstart, hnumber⟩ := hline
  rw [hstart, lineAt_before hlines, hnumber]

/-- A heading is known by where it starts. -/
theorem HeadingLine.eq_of_start (hline : HeadingLine text h) (hother : HeadingLine text g)
    (hstart : h.start = g.start) : h = g := by
  have hnodup : ((headingsOf text).map (·.start)).Nodup :=
    List.Pairwise.map _ (fun _ _ => Nat.ne_of_lt) increasing_headingsOf
  exact List.inj_on_of_nodup_map hnodup (mem_headingsOf.2 hline) (mem_headingsOf.2 hother) hstart

end Text

/-! ### Where sections end -/

/-- A stack of open sections: a higher one comes later and has a greater level. -/
def Stacked (stack : List (Nat × Nat)) : Prop :=
  stack.Pairwise fun above below => below.1 < above.1 ∧ below.2 < above.2

theorem Stacked.level_eq {stack : List (Nat × Nat)} (hstack : Stacked stack) {k l l' : Nat}
    (h : (k, l) ∈ stack) (h' : (k, l') ∈ stack) : l = l' := by
  have hnodup : (stack.map Prod.fst).Nodup :=
    List.Pairwise.map _ (fun _ _ hless => Nat.ne_of_gt hless.1) hstack
  exact congrArg Prod.snd (List.inj_on_of_nodup_map hnodup h h' rfl)

section Ends

variable {start level index : Nat} {stack : List (Nat × Nat)} {ends : List Nat}

theorem closeSections_length :
    (closeSections start level stack ends).2.length = ends.length := by
  induction stack generalizing ends with
  | nil => rfl
  | cons top stack ih =>
      rw [closeSections]
      split
      · rw [ih, List.length_set]
      · rfl

theorem closeSections_stack (hstack : Stacked stack) :
    (closeSections start level stack ends).1 = stack.filter (·.2 < level) := by
  induction stack generalizing ends with
  | nil => rfl
  | cons top stack ih =>
      obtain ⟨htop, hrest⟩ := List.pairwise_cons.1 hstack
      rw [closeSections]
      split
      · rename_i hle
        rw [ih hrest, List.filter_cons_of_neg (by simpa using hle)]
      · rename_i hlt
        refine (List.filter_eq_self.2 fun entry hentry => ?_).symm
        rcases List.mem_cons.1 hentry with rfl | hentry
        · simpa using hlt
        · have hbelow := (htop entry hentry).2
          simp only [decide_eq_true_eq]
          omega

theorem closeSections_kept (hstack : Stacked stack) {k : Nat}
    (hkept : ∀ l, (k, l) ∈ stack → l < level) :
    (closeSections start level stack ends).2[k]? = ends[k]? := by
  induction stack generalizing ends with
  | nil => rfl
  | cons top stack ih =>
      obtain ⟨htop, hrest⟩ := List.pairwise_cons.1 hstack
      rw [closeSections]
      split
      · rename_i hle
        have hne : top.1 ≠ k := by
          rintro rfl
          have hless := hkept top.2 List.mem_cons_self
          omega
        rw [ih hrest fun l hl => hkept l (List.mem_cons_of_mem _ hl), List.getElem?_set_ne hne]
      · rfl

/-- The closed sections end at the heading. -/
theorem closeSections_closed (hstack : Stacked stack) {k l : Nat} (hk : k < ends.length)
    (hopen : (k, l) ∈ stack) (hl : level ≤ l) :
    (closeSections start level stack ends).2[k]? = some start := by
  induction stack generalizing ends with
  | nil => cases hopen
  | cons top stack ih =>
      obtain ⟨htop, hrest⟩ := List.pairwise_cons.1 hstack
      rcases List.mem_cons.1 hopen with rfl | hopen
      · have hgone : ∀ l', (k, l') ∈ stack → l' < level := by
          intro l' hl'
          have hbelow := (htop _ hl').1
          dsimp only at hbelow
          omega
        rw [closeSections, if_pos hl, closeSections_kept hrest hgone, List.getElem?_set_self hk]
      · have hbelow := (htop _ hopen).2
        dsimp only at hbelow
        rw [closeSections, if_pos (show level ≤ top.2 by omega)]
        exact ih hrest (by rw [List.length_set]; exact hk) hopen

/-- An open stack of sections before an index. -/
structure OpenBelow (index : Nat) (stack : List (Nat × Nat)) : Prop where
  stacked : Stacked stack
  below : ∀ entry ∈ stack, entry.1 < index

theorem OpenBelow.step (hopen : OpenBelow index stack) :
    OpenBelow (index + 1) ((index, level) :: (closeSections start level stack ends).1) := by
  rw [closeSections_stack hopen.stacked]
  constructor
  · refine List.pairwise_cons.2 ⟨fun entry hentry => ?_, hopen.stacked.filter _⟩
    obtain ⟨hmem, hless⟩ := List.mem_filter.1 hentry
    exact ⟨hopen.below entry hmem, by simpa using hless⟩
  · intro entry hentry
    rcases List.mem_cons.1 hentry with rfl | hentry
    · exact Nat.lt_succ_self _
    · have hbelow := hopen.below entry (List.mem_filter.1 hentry).1
      omega

variable {headings : List MarkdownHeading} {k : Nat}

/-- A section that is closed keeps its end. -/
theorem endsFrom_kept (hopen : OpenBelow index stack) (hk : k < index)
    (hclosed : ∀ l, (k, l) ∉ stack) : (endsFrom index stack ends headings)[k]? = ends[k]? := by
  induction headings generalizing index stack ends with
  | nil => rfl
  | cons h rest ih =>
      rw [endsFrom]
      dsimp only
      rw [ih hopen.step (by omega) ?_,
        closeSections_kept hopen.stacked fun l hl => absurd hl (hclosed l)]
      intro l hl
      rcases List.mem_cons.1 hl with heq | hl
      · have hindex := congrArg Prod.fst heq
        dsimp only at hindex
        omega
      · rw [closeSections_stack hopen.stacked] at hl
        exact hclosed l (List.mem_filter.1 hl).1

/-- An open section ends at the next heading of its level or of a lesser one. -/
theorem endsFrom_open (hopen : OpenBelow index stack) {l stop : Nat} (hmem : (k, l) ∈ stack)
    (hstop : ends[k]? = some stop) :
    (endsFrom index stack ends headings)[k]? =
      some (reach MarkdownHeading.level MarkdownHeading.start stop l headings) := by
  induction headings generalizing index stack ends with
  | nil => exact hstop
  | cons h rest ih =>
      have hk : k < ends.length := (List.getElem?_eq_some_iff.1 hstop).1
      have hindex := hopen.below _ hmem
      dsimp only at hindex
      have honly : ∀ l', (k, l') ∈ stack → l' = l := fun _ hl' => hopen.stacked.level_eq hl' hmem
      rw [endsFrom]
      dsimp only
      by_cases hl : h.level ≤ l
      · have hgone : ∀ l', (k, l') ∉ (index, h.level) ::
            (closeSections h.start h.level stack ends).1 := by
          intro l' hl'
          rcases List.mem_cons.1 hl' with heq | hl'
          · have hkindex := congrArg Prod.fst heq
            dsimp only at hkindex
            omega
          · rw [closeSections_stack hopen.stacked] at hl'
            obtain ⟨hin, hless⟩ := List.mem_filter.1 hl'
            obtain rfl := honly l' hin
            simp only [decide_eq_true_eq] at hless
            omega
        rw [endsFrom_kept hopen.step (by omega) hgone, closeSections_closed hopen.stacked hk hmem hl,
          reach, next, List.find?_cons_of_pos (by simpa using hl)]
        rfl
      · have hkept : (closeSections h.start h.level stack ends).2[k]? = some stop := by
          rw [closeSections_kept hopen.stacked ?_, hstop]
          intro l' hl'
          obtain rfl := honly l' hl'
          omega
        rw [ih hopen.step (List.mem_cons_of_mem _ ?_) hkept, reach, reach, next, next,
          List.find?_cons_of_neg (by simpa using hl)]
        rw [closeSections_stack hopen.stacked]
        exact List.mem_filter.2 ⟨hmem, by simpa using hl⟩

/-- So does a section that is opened on the way. -/
theorem endsFrom_opened (hopen : OpenBelow index stack) {front back : List MarkdownHeading}
    {h : MarkdownHeading} {stop : Nat} (hstop : ends[index + front.length]? = some stop) :
    (endsFrom index stack ends (front ++ h :: back))[index + front.length]? =
      some (reach MarkdownHeading.level MarkdownHeading.start stop h.level back) := by
  induction front generalizing index stack ends with
  | nil =>
      rw [List.nil_append, endsFrom]
      dsimp only
      refine endsFrom_open hopen.step List.mem_cons_self ?_
      rw [closeSections_kept hopen.stacked, hstop]
      intro l hl
      have hbelow := hopen.below _ hl
      simp only [List.length_nil] at hbelow
      omega
  | cons g front ih =>
      have hlength : index + (g :: front).length = index + 1 + front.length := by
        rw [List.length_cons]
        omega
      rw [List.cons_append, endsFrom]
      dsimp only
      rw [hlength] at hstop ⊢
      refine ih hopen.step ?_
      rw [closeSections_kept hopen.stacked, hstop]
      intro l hl
      have hbelow := hopen.below _ hl
      dsimp only at hbelow
      omega

end Ends

/-! ### The sections of a text -/

/-- The section of a heading between others. -/
def sectionAt (textLength : Nat) (p : List MarkdownHeading × MarkdownHeading × List MarkdownHeading) :
    MarkdownSection :=
  { start := p.2.1.start
    stop := reach MarkdownHeading.level MarkdownHeading.start textLength p.2.1.level p.2.2
    directEnd := headPlace MarkdownHeading.start textLength p.2.2
    line := p.2.1.line
    kind := (typedHeading p.2.1.heading).1
    title := (typedHeading p.2.1.heading).2
    headingPath :=
      (openItems MarkdownHeading.level (p.1 ++ [p.2.1])).map MarkdownHeading.heading }

theorem sectionsFrom_eq {textLength : Nat} {ends : List Nat} {before rest : List MarkdownHeading}
    (hends : ∀ front h back, rest = front ++ h :: back →
      ends[before.length + front.length]? =
        some (reach MarkdownHeading.level MarkdownHeading.start textLength h.level back)) :
    sectionsFrom textLength ends before.length
        ((openItems MarkdownHeading.level before).reverse.map fun h => (h.level, h.heading)) rest =
      (positions before rest).map (sectionAt textLength) := by
  induction rest generalizing before with
  | nil => rfl
  | cons h rest ih =>
      have hpushed := congrArg List.reverse (@push_reverse _ MarkdownHeading.level before h)
      rw [List.reverse_reverse, push, List.reverse_cons] at hpushed
      have hrest : sectionsFrom textLength ends (before ++ [h]).length
          ((openItems MarkdownHeading.level (before ++ [h])).reverse.map
            fun h => (h.level, h.heading)) rest =
          (positions (before ++ [h]) rest).map (sectionAt textLength) := by
        refine ih fun front g back hback => ?_
        have hend := hends (h :: front) g back (by rw [hback]; rfl)
        rw [List.length_cons] at hend
        rw [List.length_append, List.length_singleton, Nat.add_assoc, Nat.add_comm 1]
        exact hend
      rw [← hpushed, List.reverse_append, List.reverse_reverse, List.length_append] at hrest
      have hend := hends [] h rest rfl
      rw [List.length_nil, Nat.add_zero] at hend
      rw [sectionsFrom, positions, List.map_cons, sectionAt, ← hpushed]
      dsimp only
      rw [List.dropWhile_map, List.getD_eq_getElem?_getD, hend]
      refine congrArg₂ List.cons ?_ hrest
      simp [Function.comp_def, headPlace]

theorem markdownSections_eq {text : List Char} {sections : List MarkdownSection}
    (h : markdownSections text = .ok sections) :
    sections = (positions [] (headingsOf text)).map (sectionAt (byteLength text)) := by
  rw [markdownSections] at h
  obtain ⟨state, hscan, h⟩ := bind_eq_ok.1 h
  obtain rfl := Except.ok.inj h
  have hheadings : state.headings = headingsOf text := headings_of_scan hscan
  rw [hheadings]
  refine @sectionsFrom_eq (byteLength text) _ [] (headingsOf text) fun front g back hback => ?_
  have hopen : OpenBelow 0 [] := ⟨List.Pairwise.nil, fun _ h => absurd h (by simp)⟩
  have hfirst : (List.replicate (headingsOf text).length (byteLength text))[0 + front.length]? =
      some (byteLength text) := by
    rw [List.getElem?_replicate, if_pos]
    rw [hback, List.length_append, List.length_cons]
    omega
  have hends := @endsFrom_opened _ _ _ hopen front back g _ hfirst
  rw [← hback] at hends
  exact hends

/-- A text has sections unless it has too many headings. -/
theorem exists_markdownSections {text : List Char} :
    (∃ sections, markdownSections text = .ok sections) ↔
      (headingsOf text).length ≤ captureMaxMarkdownHeadings := by
  constructor
  · rintro ⟨sections, h⟩
    obtain ⟨state, hscan, -⟩ := bind_eq_ok.1 h
    have hfew := few_of_scan (Nat.zero_le _) hscan
    rw [headings_of_scan hscan] at hfew
    exact hfew
  · intro hfew
    obtain ⟨state, hscan⟩ := @exists_scan (splitInclusive text) .initial hfew
    exact ⟨_, bind_eq_ok.2 ⟨state, hscan, rfl⟩⟩

/-! ### The tree -/

/-- The first place behind a start where such a heading stands, or else the end of the text. -/
structure FirstAfter (text : List Char) (p : MarkdownHeading → Prop) (start stop : Nat) : Prop where
  first : ∀ g, HeadingLine text g → start < g.start → p g → stop ≤ g.start
  place : stop = byteLength text ∨ ∃ g, HeadingLine text g ∧ start < g.start ∧ p g ∧ g.start = stop

def Encloses (outer inner : MarkdownSection) : Prop :=
  outer.start < inner.start ∧ inner.stop ≤ outer.stop

instance (outer inner : MarkdownSection) : Decidable (Encloses outer inner) :=
  inferInstanceAs (Decidable (_ ∧ _))

/-- The section that a heading has among the sections of its text. -/
structure SectionOf (text : List Char) (sections : List MarkdownSection) (h : MarkdownHeading)
    (s : MarkdownSection) : Prop where
  start : s.start = h.start
  typed : (s.kind, s.title) = typedHeading h.heading
  startBoundary : isCharBoundary text s.start = true
  stopBoundary : isCharBoundary text s.stop = true
  nonempty : s.start < s.stop
  stop : FirstAfter text (·.level ≤ h.level) h.start s.stop
  directEnd : FirstAfter text (fun _ => True) h.start s.directEnd
  directEnd_le : s.directEnd ≤ s.stop
  line : s.line = lineAt text s.start
  headingPath : s.headingPath =
    (sections.filter (Encloses · s)).filterMap (·.headingPath.getLast?) ++ [h.heading]

structure SectionTree (text : List Char) (sections : List MarkdownSection) : Prop where
  ordered : sections.Pairwise fun s t => s.start < t.start
  laminar : sections.Pairwise fun s t => s.stop ≤ t.start ∨ Encloses s t
  headed : ∀ s ∈ sections, ∃ h, HeadingLine text h ∧ SectionOf text sections h s
  complete : ∀ h, HeadingLine text h → ∃ s ∈ sections, s.start = h.start

section Tree

variable {text : List Char} {before mid rest : List MarkdownHeading} {h g : MarkdownHeading}

theorem FirstAfter.isCharBoundary {p : MarkdownHeading → Prop} {start stop : Nat}
    (hfirst : FirstAfter text p start stop) : isCharBoundary text stop = true := by
  rcases hfirst.place with rfl | ⟨g, hg, -, -, rfl⟩
  · exact isCharBoundary_iff.2 ⟨text, [], by simp, rfl⟩
  · exact hg.isCharBoundary

/-- The place is unique. -/
theorem FirstAfter.unique {p : MarkdownHeading → Prop} {start stop stop' : Nat}
    (hfirst : FirstAfter text p start stop) (hfirst' : FirstAfter text p start stop') :
    stop = stop' := by
  have hle : ∀ a b, FirstAfter text p start a → FirstAfter text p start b → a ≤ b := by
    intro a b ha hb
    rcases hb.place with rfl | ⟨g, hg, hlt, hp, rfl⟩
    · rcases ha.place with rfl | ⟨g, hg, -, -, rfl⟩
      · exact Nat.le_refl _
      · exact Nat.le_of_lt hg.start_lt
    · exact ha.first g hg hlt hp
  exact Nat.le_antisymm (hle _ _ hfirst hfirst') (hle _ _ hfirst' hfirst)

/-- The headings behind a heading are those that start behind it. -/
theorem mem_rest_iff (hsplit : headingsOf text = before ++ h :: rest) :
    g ∈ rest ↔ HeadingLine text g ∧ h.start < g.start := by
  have hsorted : (before ++ h :: rest).Pairwise fun a b => a.start < b.start :=
    hsplit ▸ increasing_headingsOf
  obtain ⟨-, hback, hcross⟩ := List.pairwise_append.1 hsorted
  obtain ⟨hhead, -⟩ := List.pairwise_cons.1 hback
  rw [← mem_headingsOf, hsplit, List.mem_append, List.mem_cons]
  constructor
  · intro hg
    exact ⟨Or.inr (Or.inr hg), hhead g hg⟩
  · rintro ⟨hg | rfl | hg, hlt⟩
    · have hless := hcross g hg h List.mem_cons_self
      omega
    · omega
    · exact hg

theorem increasing_rest (hsplit : headingsOf text = before ++ h :: rest) :
    (h :: rest).Pairwise fun a b => a.start < b.start := by
  have hsorted : (before ++ h :: rest).Pairwise fun a b => a.start < b.start :=
    hsplit ▸ increasing_headingsOf
  exact (List.pairwise_append.1 hsorted).2.1

theorem lt_byteLength (hsplit : headingsOf text = before ++ h :: rest) :
    ∀ g ∈ rest, g.start < byteLength text := fun _ hg =>
  ((mem_rest_iff hsplit).1 hg).1.start_lt

theorem firstAfter_reach (hsplit : headingsOf text = before ++ h :: rest) (l : Nat) :
    FirstAfter text (·.level ≤ l) h.start
      (reach MarkdownHeading.level MarkdownHeading.start (byteLength text) l rest) := by
  constructor
  · intro g hg hlt hl
    exact reach_le (List.pairwise_cons.1 (increasing_rest hsplit)).2
      ((mem_rest_iff hsplit).2 ⟨hg, hlt⟩) hl
  · rcases reach_eq MarkdownHeading.level MarkdownHeading.start (byteLength text) l rest with
      ⟨-, heq⟩ | ⟨g, hg, hl, -, heq⟩
    · exact Or.inl heq
    · obtain ⟨hline, hlt⟩ := (mem_rest_iff hsplit).1 hg
      exact Or.inr ⟨g, hline, hlt, hl, heq.symm⟩

theorem firstAfter_headPlace (hsplit : headingsOf text = before ++ h :: rest) :
    FirstAfter text (fun _ => True) h.start
      (headPlace MarkdownHeading.start (byteLength text) rest) := by
  have hrest := (List.pairwise_cons.1 (increasing_rest hsplit)).2
  cases rest with
  | nil =>
      refine ⟨fun g hg hlt _ => ?_, Or.inl rfl⟩
      exact absurd ((mem_rest_iff hsplit).2 ⟨hg, hlt⟩) (by simp)
  | cons first rest =>
      obtain ⟨hline, hlt⟩ := (mem_rest_iff hsplit).1 List.mem_cons_self
      refine ⟨fun g hg hlt _ => ?_, Or.inr ⟨first, hline, hlt, trivial, rfl⟩⟩
      rcases List.mem_cons.1 ((mem_rest_iff hsplit).2 ⟨hg, hlt⟩) with rfl | hg
      · exact Nat.le_refl _
      · exact Nat.le_of_lt ((List.pairwise_cons.1 hrest).1 g hg)

theorem start_lt_stop (hsplit : headingsOf text = before ++ h :: rest) :
    h.start < (sectionAt (byteLength text) (before, h, rest)).stop :=
  lt_reach (increasing_rest hsplit)
    (mem_headingsOf.1 (hsplit ▸ List.mem_append_right _ List.mem_cons_self)).start_lt

/-- An earlier section encloses a later one exactly when its heading is open at the later heading. -/
theorem encloses_iff (hsplit : headingsOf text = before ++ h :: (mid ++ g :: rest)) :
    Encloses (sectionAt (byteLength text) (before, h, mid ++ g :: rest))
        (sectionAt (byteLength text) (before ++ h :: mid, g, rest)) ↔
      next MarkdownHeading.level h.level (mid ++ [g]) = none := by
  have hsorted := increasing_rest hsplit
  have hother : headingsOf text = (before ++ h :: mid) ++ g :: rest := by
    rw [hsplit, List.append_assoc]
    rfl
  have hback := increasing_rest hother
  constructor
  · rintro ⟨-, hle⟩
    by_contra hended
    have hdisjoint : (sectionAt (byteLength text) (before, h, mid ++ g :: rest)).stop ≤ g.start :=
      reach_disjoint (List.pairwise_cons.1 hsorted).2 hended
    have hpos := start_lt_stop hother
    omega
  · intro hopen
    refine ⟨(List.pairwise_cons.1 hsorted).1 g (List.mem_append_right _ List.mem_cons_self), ?_⟩
    exact reach_nested (List.pairwise_cons.1 hback).2 (lt_byteLength hother) hopen

/-- Otherwise it ends before the later one. -/
theorem stop_le_or_encloses (hsplit : headingsOf text = before ++ h :: (mid ++ g :: rest)) :
    (sectionAt (byteLength text) (before, h, mid ++ g :: rest)).stop ≤ g.start ∨
      Encloses (sectionAt (byteLength text) (before, h, mid ++ g :: rest))
        (sectionAt (byteLength text) (before ++ h :: mid, g, rest)) := by
  by_cases hopen : next MarkdownHeading.level h.level (mid ++ [g]) = none
  · exact Or.inr ((encloses_iff hsplit).2 hopen)
  · exact Or.inl (reach_disjoint (List.pairwise_cons.1 (increasing_rest hsplit)).2 hopen)

theorem getLast?_headingPath (textLength : Nat)
    (p : List MarkdownHeading × MarkdownHeading × List MarkdownHeading) :
    (sectionAt textLength p).headingPath.getLast? = some p.2.1.heading := by
  rw [sectionAt, openItems_concat, List.map_append]
  exact List.getLast?_concat

/-- The headings that are open at a heading are those of the sections around its section. -/
theorem enclosing_eq (hsplit : headingsOf text = before ++ h :: rest) :
    ((positions [] (headingsOf text)).map (sectionAt (byteLength text))).filter
        (Encloses · (sectionAt (byteLength text) (before, h, rest))) =
      ((positions [] before).filter fun p =>
        next MarkdownHeading.level p.2.1.level (p.2.2 ++ [h]) = none).map fun p =>
          sectionAt (byteLength text) (p.1, p.2.1, p.2.2 ++ h :: rest) := by
  have hlater : ((positions before (h :: rest)).map (sectionAt (byteLength text))).filter
      (Encloses · (sectionAt (byteLength text) (before, h, rest))) = [] := by
    rw [List.filter_eq_nil_iff]
    intro s hs
    obtain ⟨p, hp, rfl⟩ := List.mem_map.1 hs
    obtain ⟨front, -, hitems⟩ := mem_positions.1 hp
    have hle : h.start ≤ p.2.1.start := by
      rcases List.mem_cons.1 (hitems ▸ List.mem_append_right front List.mem_cons_self :
        p.2.1 ∈ h :: rest) with heq | hmem
      · rw [heq]
      · exact Nat.le_of_lt ((mem_rest_iff hsplit).1 hmem).2
    rw [decide_eq_true_eq]
    rintro ⟨hlt, -⟩
    dsimp only [sectionAt] at hlt
    omega
  rw [hsplit, positions_append, List.map_append, List.filter_append, List.nil_append, hlater,
    List.append_nil, List.map_map, List.filter_map]
  refine congrArg _ (List.filter_congr fun p hp => ?_)
  obtain ⟨front, hfront, hbefore⟩ := mem_positions.1 hp
  rw [List.nil_append] at hfront
  subst hfront
  have hwhole : headingsOf text = p.1 ++ p.2.1 :: (p.2.2 ++ h :: rest) := by
    rw [hsplit, hbefore, List.append_assoc]
    rfl
  have hiff := encloses_iff hwhole
  rw [← hbefore] at hiff
  exact decide_eq_decide.2 hiff

/-- The path of a section names the sections around it and then the section itself. -/
theorem headingPath_eq (hsplit : headingsOf text = before ++ h :: rest) :
    (sectionAt (byteLength text) (before, h, rest)).headingPath =
      ((((positions [] (headingsOf text)).map (sectionAt (byteLength text))).filter
        (Encloses · (sectionAt (byteLength text) (before, h, rest)))).filterMap
          (·.headingPath.getLast?)) ++ [h.heading] := by
  have hopen : openItems MarkdownHeading.level (before ++ [h]) =
      ((positions [] before).filter fun p =>
        next MarkdownHeading.level p.2.1.level (p.2.2 ++ [h]) = none).map (·.2.1) ++ [h] := by
    rw [openItems_eq [], positions_append, List.filter_append, List.map_append, List.filter_map,
      List.map_map]
    rfl
  rw [enclosing_eq hsplit, List.filterMap_map]
  have hlast : (fun s : MarkdownSection => s.headingPath.getLast?) ∘
      (fun p : List MarkdownHeading × MarkdownHeading × List MarkdownHeading =>
        sectionAt (byteLength text) (p.1, p.2.1, p.2.2 ++ h :: rest)) =
        some ∘ fun p => p.2.1.heading := by
    funext p
    exact getLast?_headingPath _ _
  rw [hlast, List.filterMap_eq_map, sectionAt, hopen, List.map_append, List.map_map]
  rfl

/-- **Sections form a tree over the text.** -/
theorem sectionTree_of_ok {sections : List MarkdownSection}
    (hok : markdownSections text = .ok sections) : SectionTree text sections := by
  obtain rfl := markdownSections_eq hok
  refine ⟨?_, ?_, ?_, ?_⟩
  · rw [List.pairwise_map, pairwise_positions]
    intro before h mid g rest hsplit
    exact (List.pairwise_cons.1 (increasing_rest hsplit)).1 g
      (List.mem_append_right _ List.mem_cons_self)
  · rw [List.pairwise_map, pairwise_positions]
    intro before h mid g rest hsplit
    exact stop_le_or_encloses hsplit
  · intro s hs
    obtain ⟨⟨before, h, rest⟩, hp, rfl⟩ := List.mem_map.1 hs
    obtain ⟨front, hfront, hsplit⟩ := mem_positions.1 hp
    dsimp only [List.nil_append] at hfront hsplit
    subst hfront
    have hline : HeadingLine text h :=
      mem_headingsOf.1 (hsplit ▸ List.mem_append_right _ List.mem_cons_self)
    have hstop := firstAfter_reach hsplit h.level
    exact ⟨h, hline, {
      start := rfl
      typed := rfl
      startBoundary := hline.isCharBoundary
      stopBoundary := hstop.isCharBoundary
      nonempty := start_lt_stop hsplit
      stop := hstop
      directEnd := firstAfter_headPlace hsplit
      directEnd_le := headPlace_le_reach (List.pairwise_cons.1 (increasing_rest hsplit)).2
        (lt_byteLength hsplit)
      line := hline.line_eq
      headingPath := headingPath_eq hsplit }⟩
  · intro h hline
    obtain ⟨before, rest, hsplit⟩ := List.append_of_mem (mem_headingsOf.2 hline)
    exact ⟨sectionAt (byteLength text) (before, h, rest),
      List.mem_map.2 ⟨(before, h, rest), mem_positions.2 ⟨before, rfl, hsplit⟩, rfl⟩, rfl⟩

end Tree

end Capture
end Memzoi
