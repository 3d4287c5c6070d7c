/-
# Capture candidates of a Markdown text

Source: `capture.rs` (`extract_candidates`, `unsupported_markdown_diagnostics`,
`first_heading`).

Every section with a typed heading, a title and a body is a candidate, with the
whole section as its evidence. A section stands in the evidence of the sections
around it, so a typed section inside another one is attributed twice
(`NestedTyped`); the instruction and the ADR adapters stop at the next heading.
-/

import Memzoi.Capture.SectionTree
import Memzoi.Capture.Review
import Memzoi.OkfMarkdown
import Mathlib

namespace Memzoi
namespace Capture

open Fallible SourceText Text Outline
open Maintenance (OkfProposalSensitivity)

def captureMaxCandidates : Nat := 100

def captureMaxEvidenceBytes : Nat := 256 * 1024

/-! ### Extraction -/

structure CaptureExtraction where
  candidates : List CaptureCandidate
  diagnostics : List CaptureDiagnostic

def firstHeading (text : List Char) : Option String :=
  (Okf.lines text).findSome? fun line => (parseAtxHeading line).map Prod.snd

/-- Indexing a text with a range. -/
def textAt (text : List Char) (start stop : Nat) : Fallible (List Char) :=
  match slice text start stop with
  | some span => .ok span
  | none => .error (.panic "byte index is not a char boundary")

/-- The text behind the first line of a span, trimmed. -/
def bodyBelow (text : List Char) (start stop : Nat) : Fallible (List Char) := do
  let span ← textAt text start stop
  .ok (trimChars ((span.dropWhile (· ≠ '\n')).drop 1))

def unsupportedAt (source : CaptureSourceRequest) (line : Nat) : CaptureDiagnostic :=
  ⟨"unsupported_markdown_content", some source.sourceId, some line⟩

/-- The diagnostics of the sections, each with those behind it. -/
def sectionDiagnostics (source : CaptureSourceRequest) (text : List Char) :
    List MarkdownSection → Fallible (List CaptureDiagnostic)
  | [] => .ok []
  | s :: rest => do
    if s.kind.isSome then sectionDiagnostics source text rest
    else
      let body ← bodyBelow text s.start s.directEnd
      let hasDescendant := (rest.takeWhile (·.start < s.stop)).head?.isSome
      let diagnostics ← sectionDiagnostics source text rest
      .ok (if body ≠ [] ∨ hasDescendant = false then unsupportedAt source s.line :: diagnostics
        else diagnostics)

def unsupportedMarkdownDiagnostics (source : CaptureSourceRequest) (text : List Char)
    (sections : List MarkdownSection) : Fallible (List CaptureDiagnostic) := do
  let preamble ← textAt text 0 ((sections.head?.map (·.start)).getD (byteLength text))
  let diagnostics ← sectionDiagnostics source text sections
  .ok (if trimChars preamble ≠ [] then unsupportedAt source 1 :: diagnostics else diagnostics)

section Extraction

variable [SourceDigests] [CaptureDigests]

/-- The candidate of a typed section; a section without a title or without a body has none. -/
def typedCandidate (source : CaptureSourceRequest) (snapshot : CaptureSourceSnapshot)
    (text : List Char) (extractor : CaptureExtractorIdentity) (typed : MarkdownSection × TypedHeading) :
    Fallible (List CaptureCandidate) := do
  let (s, kind) := typed
  let body ← bodyBelow text s.start s.stop
  if trim s.title = "" ∨ body = [] then .ok []
  else
    let evidence ← evidenceFor source snapshot text
      ⟨s.start, s.stop, s.line, kind.sectionKind, s.headingPath⟩
    let (destination, sensitivity, destinationReason, sensitivityReason) :=
      if kind.destination = .repo then
        (MemoryDestination.needsReview, OkfProposalSensitivity.unknown,
          "generic_markdown_requires_contextual_review", "generic_markdown_sensitivity_unknown")
      else
        (kind.destination, kind.sensitivity, "deterministic_typed_markdown_section",
          "deterministic_typed_markdown_profile")
    .ok [candidate
      ⟨kind.memoryType, kind.lane, trim s.title, String.ofList body, defaultScope source, []⟩
      evidence extractor destination sensitivity (captureContentClass destination sensitivity)
      destinationReason sensitivityReason]

/-- The one candidate of a text without a typed heading. -/
def unclassifiedCandidate (source : CaptureSourceRequest) (snapshot : CaptureSourceSnapshot)
    (text : List Char) (extractor : CaptureExtractorIdentity) : Fallible CaptureCandidate := do
  let evidence ← evidenceFor source snapshot text ⟨0, byteLength text, 1, "unclassified", []⟩
  let title := (firstHeading text).getD "Unclassified Markdown source"
  .ok (candidate
    ⟨.fact, .semantic, title, String.ofList (trimChars text), defaultScope source, []⟩
    evidence extractor .needsReview .unknown .unknown "unrecognized_markdown_requires_review"
    "unrecognized_markdown_sensitivity_unknown")

def evidenceBytes (candidates : List CaptureCandidate) : Nat :=
  ((candidates.flatMap (·.evidence)).map fun e => e.span.byteEnd - e.span.byteStart).sum

/-- The sections with a typed heading. -/
def typedSections (sections : List MarkdownSection) : List (MarkdownSection × TypedHeading) :=
  sections.filterMap fun s => s.kind.map fun kind => (s, kind)

def extractCandidates (source : CaptureSourceRequest) (snapshot : CaptureSourceSnapshot)
    (text : List Char) (extractor : CaptureExtractorIdentity) : Fallible CaptureExtraction := do
  let sections ← markdownSections text
  let typed := typedSections sections
  ensure (typed.length ≤ captureMaxCandidates)
    "capture source exceeds the configured candidate limit"
  if typed = [] then
    let unclassified ← unclassifiedCandidate source snapshot text extractor
    .ok ⟨[unclassified], []⟩
  else
    let diagnostics ← unsupportedMarkdownDiagnostics source text sections
    let candidates ← gatherAll (typedCandidate source snapshot text extractor) typed
    ensure (candidates ≠ []) "capture source has typed headings but no non-empty typed sections"
    ensure (evidenceBytes candidates ≤ captureMaxEvidenceBytes)
      "capture source exceeds the configured evidence limit"
    .ok ⟨candidates, diagnostics⟩

end Extraction

/-! ### Evidence -/

/-- The evidence is the text of its span, with the lines of the first and of the last byte. -/
structure ExactEvidence (text : List Char) (evidence : CaptureEvidence) : Prop where
  excerpt : ∃ excerpt, slice text evidence.span.byteStart evidence.span.byteEnd = some excerpt ∧
    evidence.text = some (String.ofList excerpt)
  lineStart : evidence.span.lineStart = lineAt text evidence.span.byteStart
  lineEnd : evidence.span.lineEnd = lineAt text (evidence.span.byteEnd - 1)

section Evidence

variable [SourceDigests] {source : CaptureSourceRequest} {snapshot : CaptureSourceSnapshot}
  {text : List Char}

theorem evidenceFor_spec {location : EvidenceLocation} {evidence : List CaptureEvidence}
    (h : evidenceFor source snapshot text location = .ok evidence)
    (hline : location.lineStart = lineAt text location.start) :
    ∃ item, evidence = [item] ∧ item.span.byteStart = location.start ∧
      item.span.byteEnd = location.stop ∧ ExactEvidence text item := by
  obtain ⟨hlt, h⟩ := check_bind_eq_ok.1 h
  obtain ⟨excerpt, hexcerpt, h⟩ := bind_eq_ok.1 h
  obtain ⟨-, h⟩ := check_bind_eq_ok.1 h
  obtain rfl := Except.ok.inj h
  have hslice := require_eq_ok.1 hexcerpt
  refine ⟨_, rfl, rfl, rfl, ⟨excerpt, hslice, rfl⟩, hline, ?_⟩
  obtain ⟨pre, post, rfl, hstart, hstop⟩ := slice_eq_some.1 hslice
  have hless := ensure_eq_ok.1 hlt
  rw [byteLength_append] at hstop
  have hlast : location.stop - 1 = byteLength pre + (byteLength excerpt - 1) := by omega
  show location.lineStart + newlinesBefore (byteLength excerpt - 1) excerpt = lineAt _ _
  rw [hline, hlast, lineAt, lineAt, ← hstart, List.append_assoc, newlinesBefore_append,
    newlinesBefore_byteLength, newlinesBefore_prefix post (Nat.sub_le _ _)]
  omega

/-- A span can be cited when it is a slice of the text that is not too large. -/
theorem exists_evidenceFor_iff {location : EvidenceLocation} :
    (∃ evidence, evidenceFor source snapshot text location = .ok evidence) ↔
      location.start < location.stop ∧
        (∃ excerpt, slice text location.start location.stop = some excerpt) ∧
        location.stop - location.start ≤ captureMaxEvidenceItemBytes := by
  constructor
  · rintro ⟨evidence, h⟩
    obtain ⟨hlt, hslice⟩ := check_bind_eq_ok.1 h
    obtain ⟨excerpt, hexcerpt, hsize⟩ := bind_eq_ok.1 hslice
    obtain ⟨hbound, -⟩ := check_bind_eq_ok.1 hsize
    exact ⟨ensure_eq_ok.1 hlt, ⟨excerpt, require_eq_ok.1 hexcerpt⟩, ensure_eq_ok.1 hbound⟩
  · rintro ⟨hlt, ⟨excerpt, hexcerpt⟩, hbound⟩
    exact ⟨_, check_bind_eq_ok.2 ⟨ensure_of hlt, bind_eq_ok.2 ⟨excerpt, require_eq_ok.2 hexcerpt,
      check_bind_eq_ok.2 ⟨ensure_of hbound, rfl⟩⟩⟩⟩

end Evidence

/-! ### Captured sections -/

/-- Something stands below a heading, before the next heading of its level or of a lesser one. -/
def HasBody (text : List Char) (h : MarkdownHeading) : Prop :=
  ∃ pre c post, text = pre ++ c :: post ∧ isWhitespace c = false ∧
    h.line < lineAt text (byteLength pre) ∧
    ∀ g, HeadingLine text g → h.start < g.start → g.level ≤ h.level → byteLength pre < g.start

/-- A typed heading with a title and a body. -/
structure Captured (text : List Char) (h : MarkdownHeading) : Prop where
  typed : (typedHeading h.heading).1.isSome = true
  title : trim (typedHeading h.heading).2 ≠ ""
  body : HasBody text h

/-- A typed section with a title and a body inside another one. -/
def NestedTyped (text : List Char) : Prop :=
  ∃ h g, HeadingLine text h ∧ HeadingLine text g ∧ Captured text h ∧ Captured text g ∧
    h.start < g.start ∧
    ∀ k, HeadingLine text k → h.start < k.start → k.start ≤ g.start → h.level < k.level

section Body

variable {text : List Char} {h : MarkdownHeading} {stop : Nat} {body : List Char}

theorem lineAt_append (pre rest : List Char) :
    lineAt (pre ++ rest) (byteLength pre) = 1 + pre.count '\n' := by
  rw [lineAt, newlinesBefore_byteLength]

theorem FirstAfter.lt_of_lt_all {p : MarkdownHeading → Prop} {start n : Nat}
    (hstop : FirstAfter text p start stop) (hend : n < byteLength text)
    (hall : ∀ g, HeadingLine text g → start < g.start → p g → n < g.start) : n < stop := by
  rcases hstop.place with rfl | ⟨g, hg, hlt, hp, rfl⟩
  · exact hend
  · exact hall g hg hlt hp

/-- The text behind the first newline of a span. -/
theorem mem_below {span : List Char} {c : Char} :
    c ∈ (span.dropWhile (· ≠ '\n')).drop 1 ↔
      ∃ front back, span = front ++ c :: back ∧ '\n' ∈ front := by
  induction span with
  | nil => simp
  | cons d span ih =>
      by_cases hd : d = '\n'
      · rw [List.dropWhile_cons_of_neg (by simpa using hd), List.drop_one, List.tail_cons]
        constructor
        · intro hc
          obtain ⟨front, back, rfl⟩ := List.append_of_mem hc
          exact ⟨d :: front, back, rfl, by simp [hd]⟩
        · rintro ⟨front, back, hspan, hmem⟩
          cases front with
          | nil => cases hmem
          | cons e front =>
              obtain ⟨-, rfl⟩ := List.cons.inj hspan
              exact List.mem_append_right _ List.mem_cons_self
      · rw [List.dropWhile_cons_of_pos (by simpa using hd), ih]
        constructor
        · rintro ⟨front, back, rfl, hmem⟩
          exact ⟨d :: front, back, rfl, List.mem_cons_of_mem _ hmem⟩
        · rintro ⟨front, back, hspan, hmem⟩
          cases front with
          | nil => cases hmem
          | cons e front =>
              obtain ⟨rfl, rfl⟩ := List.cons.inj hspan
              refine ⟨front, back, rfl, (List.mem_cons.1 hmem).resolve_left fun heq => hd heq.symm⟩

theorem body_ne_nil_iff (hline : HeadingLine text h)
    (hstop : FirstAfter text (·.level ≤ h.level) h.start stop)
    (hbody : bodyBelow text h.start stop = .ok body) : body ≠ [] ↔ HasBody text h := by
  obtain ⟨span, hspan, hbody⟩ := bind_eq_ok.1 hbody
  obtain rfl := Except.ok.inj hbody
  have hslice : slice text h.start stop = some span := by
    rw [textAt] at hspan
    split at hspan
    · rename_i found hfound
      obtain rfl := Except.ok.inj hspan
      exact hfound
    · cases hspan
  obtain ⟨before, behind, htext, hbefore, hend⟩ := slice_eq_some.1 hslice
  rw [byteLength_append] at hend
  have hnumber : h.line = 1 + before.count '\n' := by
    rw [hline.line_eq, htext, ← hbefore, List.append_assoc, lineAt_append]
  rw [Ne, trimChars_eq_nil]
  push Not
  constructor
  · rintro ⟨c, hc, hvisible⟩
    obtain ⟨front, back, rfl, hnewline⟩ := mem_below.1 hc
    refine ⟨before ++ front, c, back ++ behind, by rw [htext]; simp, by simpa using hvisible, ?_, ?_⟩
    · have hcount := List.count_pos_iff.2 hnewline
      have hwhole : text = (before ++ front) ++ (c :: back ++ behind) := by
        rw [htext]
        simp
      rw [hnumber, hwhole, lineAt_append, List.count_append]
      omega
    · intro g hg hlt hlevel
      have hfirst := hstop.first g hg hlt hlevel
      have hpos := c.utf8Size_pos
      rw [byteLength_append, byteLength_cons] at hend
      rw [byteLength_append]
      omega
  · rintro ⟨pre, c, post, hpre, hvisible, hbelow, hall⟩
    have hpos := c.utf8Size_pos
    have hbytes := congrArg byteLength hpre
    rw [byteLength_append, byteLength_cons] at hbytes
    have hlt : byteLength pre < stop := hstop.lt_of_lt_all (by omega) hall
    rw [hnumber, hpre, lineAt_append] at hbelow
    have heq : before ++ (span ++ behind) = pre ++ (c :: post) := by
      rw [← hpre, htext, List.append_assoc]
    rcases Nat.le_total (byteLength pre) (byteLength before) with hle | hle
    · obtain ⟨mid, rfl, -⟩ := prefix_of_byteLength_le heq.symm hle
      rw [List.count_append] at hbelow
      omega
    · obtain ⟨mid, rfl, hmid⟩ := prefix_of_byteLength_le heq hle
      rw [byteLength_append] at hlt
      obtain ⟨rest, hrest, hrest'⟩ := prefix_of_byteLength_le hmid.symm (by omega)
      cases rest with
      | nil =>
          rw [List.append_nil] at hrest
          subst hrest
          omega
      | cons d rest =>
          obtain ⟨rfl, -⟩ := List.cons.inj hrest'
          rw [List.count_append] at hbelow
          refine ⟨c, mem_below.2 ⟨mid, rest, hrest, List.count_pos_iff.1 (by omega)⟩, ?_⟩
          simpa using hvisible

end Body

/-! ### Attribution -/

/-- A byte of the source is attributed to a candidate. -/
def Covers (candidate : CaptureCandidate) (byte : Nat) : Prop :=
  ∃ evidence ∈ candidate.evidence, evidence.span.byteStart ≤ byte ∧ byte < evidence.span.byteEnd

/-- No byte is attributed to two candidates. -/
def AttributedOnce (candidates : List CaptureCandidate) : Prop :=
  candidates.Pairwise fun c d => ∀ byte, ¬ (Covers c byte ∧ Covers d byte)

section Attribution

variable [SourceDigests] [CaptureDigests] {source : CaptureSourceRequest}
  {snapshot : CaptureSourceSnapshot} {text : List Char} {extractor : CaptureExtractorIdentity}

/-- What a section without a title or a body, and any other section, is captured as. -/
theorem typedCandidate_spec {sections : List MarkdownSection} {s : MarkdownSection} {kind : TypedHeading} {h : MarkdownHeading} {found : List CaptureCandidate}
    (hline : HeadingLine text h) (hsection : SectionOf text sections h s) (hkind : s.kind = some kind)
    (hok : typedCandidate source snapshot text extractor (s, kind) = .ok found) :
    (¬ Captured text h ∧ found = []) ∨
      Captured text h ∧ ∃ c, found = [c] ∧ (∀ e ∈ c.evidence, ExactEvidence text e) ∧
        ∀ byte, Covers c byte ↔ s.start ≤ byte ∧ byte < s.stop := by
  obtain ⟨body, hbody, hok⟩ := bind_eq_ok.1 hok
  have htyped := hsection.typed
  have hstop := hsection.stop
  rw [hsection.start] at hbody
  have hnonblank := body_ne_nil_iff hline hstop hbody
  have htitle : s.title = (typedHeading h.heading).2 := congrArg Prod.snd htyped
  have hsome : (typedHeading h.heading).1 = some kind := hkind ▸ (congrArg Prod.fst htyped).symm
  split at hok
  · rename_i hempty
    refine Or.inl ⟨fun hcaptured => ?_, (Except.ok.inj hok).symm⟩
    rcases hempty with hempty | hempty
    · exact hcaptured.title (htitle ▸ hempty)
    · exact hnonblank.2 hcaptured.body hempty
  · rename_i hfull
    obtain ⟨htitled, hbodied⟩ := not_or.1 hfull
    obtain ⟨evidence, hevidence, hok⟩ := bind_eq_ok.1 hok
    obtain ⟨item, rfl, hstart, hend, hexact⟩ := evidenceFor_spec hevidence hsection.line
    refine Or.inr ⟨⟨by rw [hsome]; rfl, htitle ▸ htitled, hnonblank.1 hbodied⟩, ?_⟩
    obtain rfl := Except.ok.inj hok
    refine ⟨_, rfl, ?_, ?_⟩
    · intro e he
      obtain rfl := List.mem_singleton.1 he
      exact hexact
    · intro byte
      dsimp only at hstart hend
      show (∃ e ∈ [item], _) ↔ _
      rw [← hstart, ← hend]
      simp

instance : Std.Symm fun c d : CaptureCandidate => ∀ byte, ¬ (Covers c byte ∧ Covers d byte) where
  symm _ _ h byte hboth := h byte hboth.symm

omit [SourceDigests] [CaptureDigests] in
/-- A typed section starts in another one when a later heading is not behind its end. -/
theorem nestedTyped_of_lt {sections : List MarkdownSection} {s : MarkdownSection}
    {h g : MarkdownHeading} (hline : HeadingLine text h) (hother : HeadingLine text g)
    (hsection : SectionOf text sections h s) (hcaptured : Captured text h)
    (hcaptured' : Captured text g) (hlt : h.start < g.start) (hinside : g.start < s.stop) :
    NestedTyped text := by
  refine ⟨h, g, hline, hother, hcaptured, hcaptured', hlt, fun k hk hstart hle => ?_⟩
  by_contra hlevel
  have hfirst := hsection.stop.first k hk hstart (by omega)
  omega

variable {sections : List MarkdownSection} {candidates : List CaptureCandidate}

omit [SourceDigests] [CaptureDigests] in
theorem mem_typedSections {s : MarkdownSection} {kind : TypedHeading} :
    (s, kind) ∈ typedSections sections ↔ s ∈ sections ∧ s.kind = some kind := by
  rw [typedSections, List.mem_filterMap]
  constructor
  · rintro ⟨t, ht, heq⟩
    obtain ⟨kind', hkind, hpair⟩ := Option.map_eq_some_iff.1 heq
    obtain ⟨rfl, rfl⟩ := Prod.mk.inj hpair
    exact ⟨ht, hkind⟩
  · rintro ⟨hs, hkind⟩
    exact ⟨s, hs, by rw [hkind]; rfl⟩

omit [SourceDigests] [CaptureDigests] in
theorem exists_typedSection (htree : SectionTree text sections) {h : MarkdownHeading}
    (hline : HeadingLine text h) (hcaptured : Captured text h) :
    ∃ s kind, (s, kind) ∈ typedSections sections ∧ SectionOf text sections h s ∧
      s.kind = some kind := by
  obtain ⟨s, hs, hstart⟩ := htree.complete h hline
  obtain ⟨h', hline', hsection⟩ := htree.headed s hs
  obtain rfl := hline'.eq_of_start hline (hsection.start.symm.trans hstart)
  obtain ⟨kind, hkind⟩ := Option.isSome_iff_exists.1 hcaptured.typed
  have hsome := (congrArg Prod.fst hsection.typed).trans hkind
  exact ⟨s, kind, mem_typedSections.2 ⟨hs, hsome⟩, hsection, hsome⟩

/-- A captured heading has a candidate with the bytes of its section. -/
theorem exists_candidate (htree : SectionTree text sections)
    (hok : gatherAll (typedCandidate source snapshot text extractor) (typedSections sections) =
      .ok candidates) {h : MarkdownHeading} (hline : HeadingLine text h)
    (hcaptured : Captured text h) : ∃ c ∈ candidates, ∃ s, SectionOf text sections h s ∧
      ∀ byte, Covers c byte ↔ s.start ≤ byte ∧ byte < s.stop := by
  obtain ⟨s, kind, hmem, hsection, hkind⟩ := exists_typedSection htree hline hcaptured
  obtain ⟨parts, hparts, -⟩ := bind_eq_ok.1 hok
  obtain ⟨part, -, hpart⟩ := exists_of_mapAll hparts hmem
  rcases typedCandidate_spec hline hsection hkind hpart with
    ⟨hnot, -⟩ | ⟨-, c, rfl, -, hcovers⟩
  · exact absurd hcaptured hnot
  · exact ⟨c, (mem_of_gatherAll hok c).2 ⟨(s, kind), hmem, [c], hpart, List.mem_singleton_self c⟩,
      s, hsection, hcovers⟩

theorem not_nestedTyped_of_attributedOnce (htree : SectionTree text sections)
    (hok : gatherAll (typedCandidate source snapshot text extractor) (typedSections sections) =
      .ok candidates) (honce : AttributedOnce candidates) : ¬ NestedTyped text := by
  rintro ⟨h, g, hline, hother, hcaptured, hcaptured', hlt, hlevels⟩
  obtain ⟨c, hc, s, hsection, hcovers⟩ := exists_candidate htree hok hline hcaptured
  obtain ⟨d, hd, t, hsection', hcovers'⟩ := exists_candidate htree hok hother hcaptured'
  have hinside : g.start < s.stop := hsection.stop.lt_of_lt_all hother.start_lt fun k hk hstart hle => by
    by_contra hbefore
    have hless := hlevels k hk hstart (by omega)
    omega
  have hstart := hsection.start
  have hstart' := hsection'.start
  have hnonempty := hsection'.nonempty
  have hne : c ≠ d := by
    rintro rfl
    have hfirst := (hcovers' h.start).1 ((hcovers h.start).2 (by omega))
    omega
  refine honce.forall hc hd hne g.start ⟨(hcovers _).2 (by omega), (hcovers' _).2 (by omega)⟩

theorem attributedOnce_of_not_nestedTyped (htree : SectionTree text sections)
    (hok : gatherAll (typedCandidate source snapshot text extractor) (typedSections sections) =
      .ok candidates) (hnested : ¬ NestedTyped text) : AttributedOnce candidates := by
  have hspec : ∀ typed ∈ typedSections sections, ∃ h, HeadingLine text h ∧
      SectionOf text sections h typed.1 ∧ typed.1.kind = some typed.2 := by
    rintro ⟨s, kind⟩ hmem
    obtain ⟨hs, hkind⟩ := mem_typedSections.1 hmem
    obtain ⟨h, hline, hsection⟩ := htree.headed s hs
    exact ⟨h, hline, hsection, hkind⟩
  rw [AttributedOnce, pairwise_gatherAll hok]
  · have hordered : (typedSections sections).Pairwise fun a b => a.1.start < b.1.start := by
      rw [typedSections, List.pairwise_filterMap]
      refine htree.ordered.imp fun hlt a ha b hb => ?_
      obtain ⟨kind, -, rfl⟩ := Option.map_eq_some_iff.1 ha
      obtain ⟨kind', -, rfl⟩ := Option.map_eq_some_iff.1 hb
      exact hlt
    refine hordered.imp_of_mem fun {a b} ha hb hlt part hpart part' hpart' c hc d hd byte hboth => ?_
    obtain ⟨h, hline, hsection, hkind⟩ := hspec a ha
    obtain ⟨g, hother, hsection', hkind'⟩ := hspec b hb
    rcases typedCandidate_spec hline hsection hkind hpart with ⟨-, rfl⟩ | ⟨hcaptured, c', rfl, -, hcovers⟩
    · cases hc
    rcases typedCandidate_spec hother hsection' hkind' hpart' with
      ⟨-, rfl⟩ | ⟨hcaptured', d', rfl, -, hcovers'⟩
    · cases hd
    obtain rfl := List.mem_singleton.1 hc
    obtain rfl := List.mem_singleton.1 hd
    have hin := (hcovers byte).1 hboth.1
    have hin' := (hcovers' byte).1 hboth.2
    have hstart := hsection.start
    have hstart' := hsection'.start
    exact hnested (nestedTyped_of_lt hline hother hsection hcaptured hcaptured' (by omega) (by omega))
  · rintro ⟨s, kind⟩ hmem part hpart
    obtain ⟨h, hline, hsection, hkind⟩ := hspec _ hmem
    rcases typedCandidate_spec hline hsection hkind hpart with ⟨-, rfl⟩ | ⟨-, c, rfl, -, -⟩
    · exact List.Pairwise.nil
    · exact List.pairwise_singleton _ _

theorem attributedOnce_iff {extraction : CaptureExtraction}
    (htree : SectionTree text sections) (hsections : markdownSections text = .ok sections)
    (hextract : extractCandidates source snapshot text extractor = .ok extraction) :
    AttributedOnce extraction.candidates ↔ ¬ NestedTyped text := by
  rw [extractCandidates, hsections, ok_bind] at hextract
  obtain ⟨-, hextract⟩ := check_bind_eq_ok.1 hextract
  split at hextract
  · -- no heading is typed
    rename_i hnone
    obtain ⟨unclassified, -, hextract⟩ := bind_eq_ok.1 hextract
    obtain rfl := Except.ok.inj hextract
    refine iff_of_true (List.pairwise_singleton _ _) ?_
    rintro ⟨h, -, hline, -, hcaptured, -⟩
    obtain ⟨s, kind, hmem, -⟩ := exists_typedSection htree hline hcaptured
    exact absurd hmem (by rw [hnone]; simp)
  · obtain ⟨diagnostics, -, hextract⟩ := bind_eq_ok.1 hextract
    obtain ⟨candidates, hcandidates, hextract⟩ := bind_eq_ok.1 hextract
    obtain ⟨-, hextract⟩ := check_bind_eq_ok.1 hextract
    obtain ⟨-, hextract⟩ := check_bind_eq_ok.1 hextract
    obtain rfl := Except.ok.inj hextract
    exact ⟨not_nestedTyped_of_attributedOnce htree hcandidates,
      attributedOnce_of_not_nestedTyped htree hcandidates⟩

/-- **Sections form a tree, and only a typed section inside another one is attributed twice.** -/
theorem markdownSections_attribution (hsections : markdownSections text = .ok sections) :
    SectionTree text sections ∧
      (∀ s ∈ sections, ∀ sectionKind evidence,
        evidenceFor source snapshot text ⟨s.start, s.stop, s.line, sectionKind, s.headingPath⟩ =
            .ok evidence →
          ∀ e ∈ evidence, e.span.byteStart = s.start ∧ e.span.byteEnd = s.stop ∧
            ExactEvidence text e) ∧
      ∀ extraction, extractCandidates source snapshot text extractor = .ok extraction →
        (AttributedOnce extraction.candidates ↔ ¬ NestedTyped text) := by
  have htree := sectionTree_of_ok hsections
  refine ⟨htree, ?_, fun extraction => attributedOnce_iff htree hsections⟩
  intro s hs sectionKind evidence hevidence e he
  obtain ⟨h, -, hsection⟩ := htree.headed s hs
  obtain ⟨item, rfl, hstart, hend, hexact⟩ := evidenceFor_spec hevidence hsection.line
  obtain rfl := List.mem_singleton.1 he
  exact ⟨hstart, hend, hexact⟩

end Attribution

/-! ### A typed section in another one -/

@[reducible] def noteDigests : CaptureDigests where
  draft _ := 0
  claim _ := 0
  candidate _ := 0

@[reducible] def noteSourceDigests : SourceDigests where
  contentHash _ := "blake3:00"

def noteSource : CaptureSourceRequest :=
  { sourceId := "notes", locator := .projectPath "notes.md", mediaType := "text/markdown", git := none }

def noteSnapshot : CaptureSourceSnapshot :=
  { sourceId := "notes"
    locator := .projectPath "notes.md"
    mediaType := "text/markdown"
    byteLength := 27
    sourceContentHash := "blake3:00"
    members := []
    policyInputs := [] }

def markdownExtractor : CaptureExtractorIdentity := ⟨"profile", "markdown", "blake3:00"⟩

def nestedFacts : List Char := "# Fact: A\nx\n## Fact: B\ny\n".toList

def siblingFacts : List Char := "# Fact: A\nx\n# Fact: B\ny\n".toList

theorem sibling_facts_sections : ∃ sections, markdownSections siblingFacts = .ok sections ∧
    SectionTree siblingFacts sections ∧ sections.length = 2 := by
  obtain ⟨sections, hsections, hlength⟩ := ok_of_any
    (show (markdownSections siblingFacts).toOption.any (fun sections => sections.length = 2) = true by
      decide +kernel)
  exact ⟨sections, hsections, (@markdownSections_attribution noteSourceDigests noteDigests noteSource
    noteSnapshot siblingFacts markdownExtractor sections hsections).1, by simpa using hlength⟩

/-- The fact below is part of the evidence of the fact above it. -/
theorem nested_fact_attributed_twice : ∃ sections extraction,
    markdownSections nestedFacts = .ok sections ∧
      @extractCandidates noteSourceDigests noteDigests noteSource noteSnapshot nestedFacts
        markdownExtractor = .ok extraction ∧ ¬ AttributedOnce extraction.candidates := by
  obtain ⟨sections, hsections, -⟩ := ok_of_any
    (show (markdownSections nestedFacts).toOption.any (fun _ => true) = true by decide +kernel)
  obtain ⟨extraction, hextraction, hspans⟩ := ok_of_any
    (show (@extractCandidates noteSourceDigests noteDigests noteSource noteSnapshot nestedFacts
        markdownExtractor).toOption.any (fun extraction =>
          extraction.candidates.map (fun c => c.evidence.map (·.span)) =
            [[⟨0, 25, 1, 4⟩], [⟨12, 25, 3, 4⟩]]) = true by decide +kernel)
  refine ⟨sections, extraction, hsections, hextraction, fun honce => ?_⟩
  rw [decide_eq_true_eq] at hspans
  obtain ⟨c, rest, hcandidates, hc, hrest⟩ := List.map_eq_cons_iff.1 hspans
  obtain ⟨d, rest, rfl, hd, -⟩ := List.map_eq_cons_iff.1 hrest
  obtain ⟨e, items, hevidence, he, -⟩ := List.map_eq_cons_iff.1 hc
  obtain ⟨f, items', hevidence', hf, -⟩ := List.map_eq_cons_iff.1 hd
  rw [AttributedOnce, hcandidates] at honce
  refine (List.pairwise_cons.1 honce).1 d List.mem_cons_self 12
    ⟨⟨e, hevidence ▸ List.mem_cons_self, ?_⟩, ⟨f, hevidence' ▸ List.mem_cons_self, ?_⟩⟩
  · rw [he]
    decide
  · rw [hf]
    decide

end Capture
end Memzoi
