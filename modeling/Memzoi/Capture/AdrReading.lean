/-
# What an ADR is read as

Source: `capture/adapters/adr.rs` (`extract_document`, `adr_authority_evidence`,
`adr_candidate`).

A document with its own authorities only is read under its own title and status,
and each of its fields is captured from its own text (`readAs_ownReading`). So a
field is published exactly when the document's own statuses accept it, and two
documents that differ in indented lines and fenced code only are read alike.
-/

import Memzoi.Capture.AdrAuthority

namespace Memzoi
namespace Capture
namespace Adr

open Fallible SourceText Text Outline

/-! ### Agreement -/

section Agreement

variable {α : Type} [DecidableEq α] {values : List α}

theorem agree_eq_true : agree values = true ↔ values ≠ [] ∧ ∀ a ∈ values, ∀ b ∈ values, a = b := by
  cases values with
  | nil => simp [agree]
  | cons first rest =>
      rw [agree, List.all_eq_true]
      constructor
      · intro hall
        have hfirst : ∀ a ∈ first :: rest, a = first := by
          intro a ha
          rcases List.mem_cons.1 ha with rfl | ha
          · rfl
          · exact of_decide_eq_true (hall a ha)
        exact ⟨List.cons_ne_nil _ _, fun a ha b hb => (hfirst a ha).trans (hfirst b hb).symm⟩
      · rintro ⟨-, hsame⟩ a ha
        exact decide_eq_true (hsame a (List.mem_cons_of_mem _ ha) first List.mem_cons_self)

/-- One value agrees with itself. -/
theorem conflicting_eq (hne : values ≠ []) :
    (decide (1 < values.length) && !agree values) = !agree values := by
  rcases values with - | ⟨first, - | ⟨second, rest⟩⟩
  · exact absurd rfl hne
  · rfl
  · rw [List.length_cons, List.length_cons, decide_eq_true (by omega), Bool.true_and]

end Agreement

theorem documentStatus_eq_accepted {statuses : List AdrStatus} :
    documentStatus statuses = .accepted ↔ statuses ≠ [] ∧ ∀ s ∈ statuses, s = .accepted := by
  rw [documentStatus]
  cases statuses with
  | nil => simp [agree]
  | cons first rest =>
      rw [List.headD_cons]
      constructor
      · intro h
        split at h
        · rename_i hagree
          have hsame := (agree_eq_true.1 hagree).2
          exact ⟨List.cons_ne_nil _ _, fun s hs => (hsame s hs first List.mem_cons_self).trans h⟩
        · cases h
      · rintro ⟨-, hall⟩
        have hagree : agree (first :: rest) = true :=
          agree_eq_true.2 ⟨List.cons_ne_nil _ _, fun a ha b hb => (hall a ha).trans (hall b hb).symm⟩
        rw [if_pos hagree]
        exact hall first List.mem_cons_self

/-! ### The authorities that the source finds -/

section Metadata

variable {text : List Char} {sections : List MarkdownSection} {parts : List HeadingPart}

theorem find?_linesFrom {start number : Nat} {before : List (List Char)} {line : List Char}
    {after : List (List Char)} (hbefore : ∀ l ∈ before, l ≠ []) :
    (linesFrom start number (before ++ line :: after)).find?
        (fun l => l.start = start + byteLength before.flatten) =
      some ⟨start + byteLength before.flatten,
        start + byteLength before.flatten + byteLength line, number + before.length,
        logicalLine line⟩ := by
  induction before generalizing start number with
  | nil =>
      rw [List.nil_append, linesFrom, List.find?_cons_of_pos (by simp)]
      simp
  | cons first before ih =>
      have hpos := byteLength_pos (hbefore first List.mem_cons_self)
      have hrest := @ih (start + byteLength first) (number + 1)
        fun l hl => hbefore l (List.mem_cons_of_mem _ hl)
      rw [Nat.add_assoc, ← byteLength_append] at hrest
      rw [List.cons_append, linesFrom, List.flatten_cons,
        List.find?_cons_of_neg (by rw [byteLength_append]; simp; omega), hrest, List.length_cons,
        Nat.add_assoc number, Nat.add_comm 1]

/-- The title of the source's first section is the first heading's. -/
theorem firstLevelOneHeading_spec (h : markdownSections text = .ok sections) :
    (firstLevelOneHeading text sections).map Prod.fst =
      rootHeading (partsIn none (splitInclusive text)).2 := by
  obtain ⟨hparts, -⟩ := sections_parts h
  obtain rfl := markdownSections_eq h
  cases hheadings : headingsOf text with
  | nil =>
      rw [hheadings] at hparts
      rw [List.forall₂_nil_left_iff.1 hparts]
      rfl
  | cons g rest =>
      rw [hheadings, positions] at hparts
      obtain ⟨part, others, hpart, -, hall⟩ := List.forall₂_cons_left_iff.1 hparts
      have hline : HeadingLine text g := mem_headingsOf.1 (hheadings ▸ List.mem_cons_self)
      obtain ⟨before, line, after, hlines, -, hparsed, hstart, -⟩ := hline
      have hne : text ≠ [] := by
        rintro rfl
        exact List.cons_ne_nil _ _ (List.append_eq_nil_iff.1 hlines.symm).2
      have hfind := @find?_linesFrom 0 1 before line after fun l hl =>
        (Segments.segment_of_mem (hlines ▸ List.mem_append_left _ hl)).1
      rw [Nat.zero_add, ← hlines, ← hstart] at hfind
      have hsource : sourceLines text = linesFrom 0 1 (splitInclusive text) := if_neg hne
      rw [hall, rootHeading, List.head?_cons, Option.bind_some, ← hpart.level, ← hpart.heading,
        firstLevelOneHeading, positions, List.map_cons, List.head?_cons, hsource]
      show Option.map Prod.fst (Option.bind (List.find? (fun l : SourceLine => l.start = g.start) _) _) = _
      rw [hfind, Option.bind_some]
      show Option.map Prod.fst (Option.bind (parseAtxHeading (logicalLine line)) _) = _
      rw [hparsed, Option.bind_some]
      dsimp only
      split <;> rfl

theorem statuses_spec {found : List (AdrStatus × AdrEvidenceSpan)}
    (hparts : List.Forall₂ (fun s part => s.title = HeadingPart.title part ∧
      bodyBelow text s.start s.directEnd = .ok (HeadingPart.text part)) sections parts)
    (h : mapAll (sectionStatus text)
      (sections.filter fun s => normalizedHeading s.title = "status") = .ok found) :
    found.map Prod.fst = (parts.filter (IsStatus ·)).map fun part => .fromText part.text := by
  induction hparts generalizing found with
  | nil =>
      obtain rfl := Except.ok.inj h
      rfl
  | @cons s part sections parts hhead _ ih =>
      by_cases hstatus : IsStatus part
      · have hsection : normalizedHeading s.title = "status" := by rw [hhead.1]; exact hstatus
        rw [List.filter_cons_of_pos (by simpa using hsection)] at h
        obtain ⟨first, hfirst, h⟩ := bind_eq_ok.1 h
        obtain ⟨rest, hrest, h⟩ := bind_eq_ok.1 h
        obtain rfl := Except.ok.inj h
        rw [sectionStatus, hhead.2, ok_bind] at hfirst
        obtain rfl := Except.ok.inj hfirst
        rw [List.map_cons, ih hrest, List.filter_cons_of_pos (by simpa using hstatus), List.map_cons]
      · have hsection : normalizedHeading s.title ≠ "status" := by rw [hhead.1]; exact hstatus
        rw [List.filter_cons_of_neg (by simpa using hsection)] at h
        rw [ih h, List.filter_cons_of_neg (by simpa using hstatus)]

/-- The source reads the document's own authorities. -/
theorem metadata_spec {fields : Frontmatter} {metadata : AdrMetadata} (hown : OwnAuthorities text)
    (hfields : frontmatter text = .ok fields) (hsections : markdownSections text = .ok sections)
    (h : adrMetadata text fields sections = .ok metadata) :
    metadata.titles.map Prod.fst = ownTitles text ∧
      metadata.statuses.map Prod.fst = ownStatuses text ∧
      metadata.malformedTitleField = (ownValues text "title").any (trimChars · = []) := by
  obtain ⟨hvalues, hparts⟩ := frontmatter_spec hown hfields
  have hbody := (sections_parts hsections).2
  rw [hparts] at hbody
  obtain ⟨statuses, hstatuses, h⟩ := bind_eq_ok.1 h
  obtain rfl := Except.ok.inj h
  obtain ⟨found, hfound, hstatuses⟩ := bind_eq_ok.1 hstatuses
  obtain rfl := Except.ok.inj hstatuses
  refine ⟨?_, ?_, ?_⟩
  · have htitles := hvalues "title" (by decide)
    have hheading := firstLevelOneHeading_spec hsections
    rw [hparts] at hheading
    rw [ownTitles, ← htitles, ← hheading]
    cases firstLevelOneHeading text sections <;>
      simp [titleAuthorities, List.filter_map, Function.comp_def]
  · have hstatus := hvalues "status" (by decide)
    rw [ownStatuses, ← hstatus, ← statuses_spec hbody hfound]
    simp
  · have htitles := hvalues "title" (by decide)
    rw [← htitles]
    cases fields.lookup "title" <;> simp

end Metadata

/-! ### The candidates of the fields -/

section Candidates

variable [SourceDigests] [CaptureDigests] {document : CaptureSourceDocument}
  {extractor : CaptureExtractorIdentity} {title : String} {status : AdrStatus}
  {authority : List CaptureEvidence} {sections : List MarkdownSection} {parts : List HeadingPart}

omit [SourceDigests] in
theorem classification_adrCandidate (field : AdrField) (body : List Char)
    (evidence : List CaptureEvidence) :
    (adrCandidate document extractor title field body status evidence).classification =
      adrClassification status field.field := by
  rw [adrClassification]
  split
  · rename_i hrepo
    simp only [adrCandidate, candidate, CaptureCandidate.identified, decide_eq_true hrepo, if_true]
  · rename_i hreview
    simp only [adrCandidate, candidate, CaptureCandidate.identified, decide_eq_false hreview,
      Bool.false_eq_true, if_false]

theorem contents_of_fieldCandidate {field : AdrField} {body : List Char} {span : AdrEvidenceSpan}
    {c : CaptureCandidate} (hbody : body ≠ [])
    (h : fieldCandidate document extractor title status authority field body span = .ok c) :
    some (contents c) = describe document.request title status ⟨some field, body⟩ := by
  obtain ⟨evidence, -, h⟩ := bind_eq_ok.1 h
  obtain rfl := Except.ok.inj h
  rw [describe, if_neg hbody, Option.map_some, contents, classification_adrCandidate]
  rfl

theorem sectionCandidates_spec {found : List (AdrField × CaptureCandidate)}
    (hparts : List.Forall₂ (fun s part => s.title = HeadingPart.title part ∧
      bodyBelow document.text s.start s.directEnd = .ok (HeadingPart.text part)) sections parts)
    (h : gatherAll (adrSectionCandidate document extractor title status authority) sections =
      .ok found) :
    (found.map Prod.snd).map contents =
      (parts.map fun part => (⟨adrField part.title, part.text⟩ : FieldText)).filterMap
        (describe document.request title status) := by
  obtain ⟨lists, hlists, heq⟩ := bind_eq_ok.1 h
  obtain rfl := Except.ok.inj heq
  clear h heq
  induction hparts generalizing lists with
  | nil =>
      obtain rfl := Except.ok.inj hlists
      rfl
  | @cons s part sections parts hhead _ ih =>
      obtain ⟨first, hfirst, hlists⟩ := bind_eq_ok.1 hlists
      obtain ⟨rest, hrest, hlists⟩ := bind_eq_ok.1 hlists
      obtain rfl := Except.ok.inj hlists
      have hcontents : (first.map Prod.snd).map contents =
          (describe document.request title status ⟨adrField part.title, part.text⟩).toList := by
        rw [adrSectionCandidate, hhead.1] at hfirst
        cases hfield : adrField part.title with
        | none =>
            rw [hfield] at hfirst
            obtain rfl := Except.ok.inj hfirst
            rw [describe]
            split <;> rfl
        | some field =>
            rw [hfield] at hfirst
            dsimp only at hfirst
            rw [hhead.2, ok_bind] at hfirst
            split at hfirst
            · rename_i hempty
              obtain rfl := Except.ok.inj hfirst
              rw [describe, if_pos hempty]
              rfl
            · rename_i hbody
              obtain ⟨c, hc, hfirst⟩ := bind_eq_ok.1 hfirst
              obtain rfl := Except.ok.inj hfirst
              rw [← contents_of_fieldCandidate hbody hc]
              rfl
      rw [List.flatten_cons, List.map_append, List.map_append, hcontents, ih _ hrest, List.map_cons,
        List.filterMap_cons]
      cases describe document.request title status ⟨adrField part.title, part.text⟩ <;> rfl

omit [SourceDigests] [CaptureDigests] in
/-- A value of the frontmatter is trimmed. -/
theorem trimChars_valueOf {key : String} {line value : List Char}
    (h : valueOf key line = some value) : trimChars value = value := by
  obtain ⟨entry, hentry, h⟩ := Option.bind_eq_some_iff.1 h
  rw [entryOf] at hentry
  split at hentry
  · obtain rfl := Option.some.inj hentry
    dsimp only at h
    split at h
    · obtain rfl := Option.some.inj h
      exact trimChars_trimChars _
    · cases h
  · cases hentry

theorem supersedesCandidate_spec {text : List Char} {fields : Frontmatter}
    {found : List CaptureCandidate}
    (hvalues : (fields.lookup "supersedes").toList.map FrontmatterField.value =
      ownValues text "supersedes")
    (h : supersedesCandidate document extractor title status authority fields = .ok found) :
    found.map contents =
      ((ownValues text "supersedes").map fun value => (⟨some supersessionField, value⟩ : FieldText)
        ).filterMap (describe document.request title status) := by
  have htrimmed : ∀ value ∈ ownValues text "supersedes", trimChars value = value := by
    intro value hvalue
    obtain ⟨line, -, hline⟩ := List.mem_filterMap.1 hvalue
    exact trimChars_valueOf hline
  rw [← hvalues] at htrimmed ⊢
  rw [supersedesCandidate] at h
  cases hfield : fields.lookup "supersedes" with
  | none =>
      rw [hfield] at h
      obtain rfl := Except.ok.inj h
      rfl
  | some supersedes =>
      rw [hfield] at h htrimmed
      dsimp only at h
      rw [htrimmed supersedes.value (by simp)] at h
      rw [Option.toList_some, List.map_singleton, List.map_singleton, List.filterMap_cons]
      split at h
      · rename_i hempty
        obtain rfl := Except.ok.inj h
        rw [describe, if_pos hempty]
        rfl
      · rename_i hbody
        obtain ⟨c, hc, h⟩ := bind_eq_ok.1 h
        obtain rfl := Except.ok.inj h
        rw [← contents_of_fieldCandidate hbody hc]
        rfl

/-- **A document with its own authorities only is read as these give it.** -/
theorem readAs_ownReading {extraction : CaptureExtraction} (hown : OwnAuthorities document.text)
    (h : extractDocument document extractor = .ok extraction) :
    ReadAs document extraction (ownReading document.text) := by
  obtain ⟨fields, hfields, h⟩ := bind_eq_ok.1 h
  obtain ⟨sections, hsections, h⟩ := bind_eq_ok.1 h
  obtain ⟨metadata, hmetadata, h⟩ := bind_eq_ok.1 h
  obtain ⟨htitles, hstatuses, hmalformed⟩ := metadata_spec hown hfields hsections hmetadata
  obtain ⟨hvalues, hparts⟩ := frontmatter_spec hown hfields
  have hbody := (sections_parts hsections).2
  rw [hparts] at hbody
  rw [ownReading, ← htitles]
  cases hfirst : metadata.titles with
  | nil =>
      rw [hfirst] at h
      obtain rfl := Except.ok.inj h
      rfl
  | cons first rest =>
      obtain ⟨title, span⟩ := first
      rw [hfirst] at h
      dsimp only at h
      have hconflict : metadata.conflictingTitle =
          !agree ((metadata.titles.map Prod.fst).map trim) := by
        have hagree := @conflicting_eq _ _ (metadata.titles.map fun title => trim title.1)
          (by rw [hfirst]; simp)
        rw [List.length_map] at hagree
        rw [AdrMetadata.conflictingTitle, hagree, List.map_map]
        rfl
      have hnone : (metadata.statuses = []) ↔ ownStatuses document.text = [] := by
        rw [← hstatuses, List.map_eq_nil_iff]
      have hiff : (metadata.malformedTitleField = true ∨ metadata.conflictingTitle = true ∨
          metadata.statuses = []) ↔
          ((ownValues document.text "title").any (trimChars · = []) = true ∨
            agree ((title :: rest.map Prod.fst).map trim) = false ∨
              ownStatuses document.text = []) := by
        rw [hmalformed, hconflict, hnone, hfirst, Bool.not_eq_true']
        rfl
      rw [List.map_cons]
      dsimp only
      split at h
      · rename_i hmal
        rw [if_pos (hiff.1 hmal)]
        obtain rfl := Except.ok.inj h
        rfl
      · rename_i hfine
        rw [if_neg fun hmal => hfine (hiff.2 hmal)]
        obtain ⟨authority, -, h⟩ := bind_eq_ok.1 h
        obtain ⟨found, hfound, h⟩ := bind_eq_ok.1 h
        obtain ⟨superseding, hsuperseding, h⟩ := bind_eq_ok.1 h
        obtain rfl := Except.ok.inj h
        have hstatus : metadata.status = documentStatus (ownStatuses document.text) := by
          rw [← hstatuses]
          rfl
        rw [hstatus] at hfound hsuperseding
        show (found.map Prod.snd ++ superseding).map contents = _
        rw [List.map_append, sectionCandidates_spec hbody hfound,
          supersedesCandidate_spec (hvalues "supersedes" (by decide)) hsuperseding, fieldTexts,
          List.filterMap_append]

end Candidates

/-! ### Texts with the same own lines -/

section Same

variable {text text' : List Char}

theorem ownValues_congr (h : ownText text' = ownText text) (key : String) :
    ownValues text' key = ownValues text key := by rw [ownValues, ownValues, h]

theorem outside_parts (text : List Char) :
    (bodyParts text).map HeadingPart.outside = (partsIn none (ownText text).2).2 := by
  rw [bodyParts, ownText, partsIn_outside]

@[simp] theorem title_outside (part : HeadingPart) : part.outside.title = part.title := rfl

theorem rootHeading_outside (parts : List HeadingPart) :
    rootHeading (parts.map HeadingPart.outside) = rootHeading parts := by
  cases parts <;> rfl

theorem parts_congr (h : ownText text' = ownText text) :
    (bodyParts text').map HeadingPart.outside = (bodyParts text).map HeadingPart.outside := by
  rw [outside_parts, outside_parts, h]

theorem ownTitles_congr (h : ownText text' = ownText text) : ownTitles text' = ownTitles text := by
  rw [ownTitles, ownTitles, ownValues_congr h, ← rootHeading_outside, parts_congr h,
    rootHeading_outside]

/-- A status section without fenced code has a status whatever stands in fenced code. -/
theorem fromText_outside (hown : OwnAuthorities text) {part : HeadingPart} (hpart : part ∈ bodyParts text)
    (hstatus : IsStatus part) :
    AdrStatus.fromText part.text =
      if HasFence part.outside.below then .unknown else .fromText part.outside.text := by
  split
  · rename_i hfence
    exact hown.status part hpart hstatus ((hasFence_outside _).1 hfence)
  · rename_i hfence
    have hplain := outside_of_not_hasFence fun h => hfence ((hasFence_outside part.below).2 h)
    rw [HeadingPart.text, HeadingPart.text, HeadingPart.outside, hplain]

theorem filter_isStatus_outside (parts : List HeadingPart) :
    (parts.map HeadingPart.outside).filter (IsStatus ·) =
      (parts.filter (IsStatus ·)).map HeadingPart.outside := by
  induction parts with
  | nil => rfl
  | cons part parts ih =>
      have hiff : IsStatus part.outside ↔ IsStatus part := by rw [IsStatus, IsStatus, title_outside]
      rw [List.map_cons]
      by_cases hstatus : IsStatus part
      · have houtside := hiff.2 hstatus
        rw [List.filter_cons_of_pos (by simpa using houtside),
          List.filter_cons_of_pos (by simpa using hstatus), List.map_cons, ih]
      · have houtside := mt hiff.1 hstatus
        rw [List.filter_cons_of_neg (by simpa using houtside),
          List.filter_cons_of_neg (by simpa using hstatus), ih]

theorem sectionStatuses_eq (hown : OwnAuthorities text) :
    ((bodyParts text).filter (IsStatus ·)).map (fun part => AdrStatus.fromText part.text) =
      (((bodyParts text).map HeadingPart.outside).filter (IsStatus ·)).map fun part =>
        if HasFence part.below then .unknown else .fromText part.text := by
  rw [filter_isStatus_outside, List.map_map]
  refine List.map_congr_left fun part hpart => ?_
  obtain ⟨hmem, hstatus⟩ := List.mem_filter.1 hpart
  rw [Function.comp_apply, fromText_outside hown hmem (of_decide_eq_true hstatus)]

theorem ownStatuses_congr (hown : OwnAuthorities text) (hown' : OwnAuthorities text')
    (h : ownText text' = ownText text) : ownStatuses text' = ownStatuses text := by
  rw [ownStatuses, ownStatuses, ownValues_congr h, sectionStatuses_eq hown, sectionStatuses_eq hown',
    parts_congr h]

theorem ownReading_congr (hown : OwnAuthorities text) (hown' : OwnAuthorities text')
    (h : ownText text' = ownText text) : ownReading text' = ownReading text := by
  rw [ownReading, ownReading, ownTitles_congr h, ownValues_congr h, ownStatuses_congr hown hown' h]

theorem fields_congr (h : ownText text' = ownText text) :
    (fieldTexts text').map FieldText.field = (fieldTexts text).map FieldText.field := by
  have hfields : ∀ text, (fieldTexts text).map FieldText.field =
      ((bodyParts text).map HeadingPart.outside).map (fun part => adrField part.title) ++
        (ownValues text "supersedes").map fun _ => some supersessionField := by
    intro text
    rw [fieldTexts, List.map_append, List.map_map, List.map_map, List.map_map]
    refine congrArg₂ _ (List.map_congr_left fun part _ => ?_) rfl
    rw [Function.comp_apply, Function.comp_apply, title_outside]
  rw [hfields, hfields, parts_congr h, ownValues_congr h]

end Same

/-! ### What is published -/

section Published

variable {document document' : CaptureSourceDocument} {extractor : CaptureExtractorIdentity}
  {extraction extraction' : CaptureExtraction}

theorem describe_eq_some {source : CaptureSourceRequest} {title : String} {status : AdrStatus}
    {found : FieldText} {captured : CaptureMemoryDraft × CaptureClassification}
    (h : describe source title status found = some captured) :
    ∃ field, found.field = some field ∧ captured.1.tags = adrTags status field.field ∧
      captured.2 = adrClassification status field.field := by
  rw [describe] at h
  split at h
  · cases h
  · obtain ⟨field, hfield, rfl⟩ := Option.map_eq_some_iff.1 h
    exact ⟨field, hfield, rfl, rfl⟩

theorem destination_adrClassification (status : AdrStatus) (field : String) :
    (adrClassification status field).destination = .repo ↔
      field ≠ "supersession" ∧ status = .accepted := by
  rw [adrClassification]
  split
  · rename_i hrepo
    exact iff_of_true rfl hrepo.symm
  · rename_i hreview
    refine iff_of_false ?_ fun h => hreview h.symm
    intro h
    cases h

theorem mem_adrTags_supersession (status : AdrStatus) (field : String) :
    "adr-field:supersession" ∈ adrTags status field ↔ field = "supersession" := by
  have hstatus : "adr-field:supersession" ≠ "adr-status:" ++ status.asStr := by
    cases status <;> decide
  have hfield : "adr-field:supersession" = "adr-field:" ++ field ↔ field = "supersession" := by
    constructor
    · intro h
      have hchars := congrArg String.toList h
      rw [String.toList_append] at hchars
      exact String.toList_injective (List.append_cancel_left
        (hchars.symm.trans (String.toList_append (s := "adr-field:") (t := "supersession"))))
    · rintro rfl
      rfl
  simp only [adrTags, List.mem_cons, List.not_mem_nil, or_false, hstatus, false_or, hfield]
  exact or_iff_right (by decide)

theorem ownReading_eq_some {text : List Char} {title : String} {status : AdrStatus}
    (h : ownReading text = some (title, status)) :
    status = documentStatus (ownStatuses text) ∧
      ∀ a ∈ ownTitles text, ∀ b ∈ ownTitles text, trim a = trim b := by
  rw [ownReading] at h
  split at h
  · cases h
  · rename_i first titles htitles
    split at h
    · cases h
    · rename_i hfine
      obtain ⟨-, rfl⟩ := Prod.mk.inj (Option.some.inj h)
      push Not at hfine
      have hagree := (agree_eq_true.1 (by simpa using hfine.2.1)).2
      refine ⟨rfl, fun a ha b hb => ?_⟩
      rw [htitles] at ha hb
      exact hagree _ (List.mem_map_of_mem ha) _ (List.mem_map_of_mem hb)

/-- A candidate is a text of the document under the reading. -/
theorem exists_describe_of_mem {reading : Option (String × AdrStatus)} {c : CaptureCandidate}
    (hread : ReadAs document extraction reading) (hc : c ∈ extraction.candidates) :
    ∃ title status found, reading = some (title, status) ∧ found ∈ fieldTexts document.text ∧
      describe document.request title status found = some (contents c) := by
  cases reading with
  | none =>
      rw [ReadAs] at hread
      rw [hread] at hc
      cases hc
  | some pair =>
      obtain ⟨title, status⟩ := pair
      have hmem : contents c ∈ extraction.candidates.map contents := List.mem_map_of_mem hc
      rw [ReadAs] at hread
      rw [hread] at hmem
      obtain ⟨found, hfound, hdescribe⟩ := List.mem_filterMap.1 hmem
      exact ⟨title, status, found, rfl, hfound, hdescribe⟩

variable [SourceDigests] [CaptureDigests]

/-- **Only its own unanimous status publishes an ADR.** -/
theorem extractDocument_published (hown : OwnAuthorities document.text)
    (h : extractDocument document extractor = .ok extraction) (c : CaptureCandidate)
    (hc : c ∈ extraction.candidates) :
    c.classification.destination = .repo ↔
      "adr-field:supersession" ∉ c.memory.tags ∧ ownStatuses document.text ≠ [] ∧
        (∀ status ∈ ownStatuses document.text, status = .accepted) ∧
        ∀ a ∈ ownTitles document.text, ∀ b ∈ ownTitles document.text, trim a = trim b := by
  obtain ⟨title, status, found, hreading, -, hdescribe⟩ :=
    exists_describe_of_mem (readAs_ownReading hown h) hc
  obtain ⟨hstatus, htitles⟩ := ownReading_eq_some hreading
  obtain ⟨field, -, htags, hclass⟩ := describe_eq_some hdescribe
  have htags' : c.memory.tags = adrTags status field.field := htags
  have hclass' : c.classification = adrClassification status field.field := hclass
  rw [hclass', htags', destination_adrClassification, mem_adrTags_supersession, hstatus,
    documentStatus_eq_accepted]
  constructor
  · rintro ⟨hfield, hne, haccepted⟩
    exact ⟨hfield, hne, haccepted, htitles⟩
  · rintro ⟨hfield, hne, haccepted, -⟩
    exact ⟨hfield, hne, haccepted⟩

end Published

/-! ### A run -/

def adrText : List Char :=
  "---\ntitle: Tabs\nstatus: accepted\nlinks:\n  owner: me\n---\n# Tabs\n## Decision\nUse tabs.\n## Notes\n```\nnone\n```\n".toList

def adrText' : List Char :=
  "---\ntitle: Tabs\nstatus: accepted\nlinks:\n---\n# Tabs\n## Decision\nUse tabs.\n## Notes\n```\n## Status\n```\n".toList

def adrDocument (text : List Char) : CaptureSourceDocument :=
  { request := noteSource, snapshot := noteSnapshot, text := text }

theorem ownAuthorities_adrText : OwnAuthorities (adrDocument adrText).text ∧
    OwnAuthorities (adrDocument adrText').text :=
  ⟨⟨by decide +kernel, by decide +kernel, by decide +kernel⟩,
    ⟨by decide +kernel, by decide +kernel, by decide +kernel⟩⟩

/-- The decision is published. -/
theorem adrText_published : ∃ extraction, ∃ c ∈ extraction.candidates,
    @extractDocument noteDigests noteSourceDigests (adrDocument adrText) markdownExtractor =
        .ok extraction ∧
      c.memory.body = "Use tabs." ∧ c.classification.destination = .repo := by
  obtain ⟨extraction, hextraction, hany⟩ := ok_of_any
    (show (@extractDocument noteDigests noteSourceDigests (adrDocument adrText)
        markdownExtractor).toOption.any (fun extraction => extraction.candidates.any fun c =>
          c.memory.body = "Use tabs." ∧ "adr-field:supersession" ∉ c.memory.tags) = true by
      decide +kernel)
  obtain ⟨c, hc, hbody⟩ := List.any_eq_true.1 hany
  obtain ⟨hbody, htags⟩ := of_decide_eq_true hbody
  exact ⟨extraction, c, hc, hextraction, hbody, (@extractDocument_published _ _ _ noteSourceDigests
    noteDigests ownAuthorities_adrText.1 hextraction c hc).2
      ⟨htags, by decide +kernel, by decide +kernel, by decide +kernel⟩⟩

end Adr
end Capture
end Memzoi
