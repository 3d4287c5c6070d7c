/-
# Records are read back

Source: `okf.rs` (`parse_okf_record_markdown`, `render_okf_record_markdown`).

What the reader gives is in the form its checks leave. Its text is cut where
the writer closed the frontmatter, whatever the entries hold, and each entry is
read on its own: the record comes back when every text does, the title is one
line, and the path is not that of a null.
-/

import Memzoi.OkfScalars

namespace Memzoi
namespace Okf

open Fallible YamlScalar Retention
open Maintenance (isLowerOrDigit)

/-! ### Concept ids -/

theorem mem_of_mem_intersperse {α : Type} {separator x : α} {xs : List α}
    (h : x ∈ xs.intersperse separator) : x = separator ∨ x ∈ xs := by
  induction xs with
  | nil => exact Or.inr h
  | cons a xs ih =>
      cases xs with
      | nil => exact Or.inr h
      | cons b xs =>
          rw [List.intersperse_cons_cons] at h
          rcases List.mem_cons.1 h with rfl | h
          · exact Or.inr List.mem_cons_self
          · rcases List.mem_cons.1 h with rfl | h
            · exact Or.inl rfl
            · exact (ih h).imp_right (List.mem_cons_of_mem a)

theorem mem_splitOn {α : Type} [DecidableEq α] (separator : α) {x : α} {xs : List α} (hx : x ∈ xs) :
    x = separator ∨ ∃ piece ∈ xs.splitOn separator, x ∈ piece := by
  have hjoin : [separator].intercalate (xs.splitOn separator) = xs :=
    List.intercalate_splitOn separator
  rw [← hjoin, List.intercalate] at hx
  obtain ⟨piece, hpiece, hmem⟩ := List.mem_flatten.1 hx
  rcases mem_of_mem_intersperse hpiece with rfl | h
  · exact Or.inl (List.mem_singleton.1 hmem)
  · exact Or.inr ⟨piece, h, hmem⟩

theorem notMem_of_mem_splitOn {α : Type} [DecidableEq α] {separator : α} {xs piece : List α}
    (h : piece ∈ xs.splitOn separator) : separator ∉ piece := by
  induction xs generalizing piece with
  | nil =>
      rw [List.splitOn_nil, List.mem_singleton] at h
      rw [h]
      exact List.not_mem_nil
  | cons x xs ih =>
      rw [List.splitOn_cons_eq_if_modifyHead] at h
      split at h
      · rcases List.mem_cons.1 h with rfl | h
        · exact List.not_mem_nil
        · exact ih h
      · rename_i hx
        obtain ⟨first, rest, hsplit⟩ := List.exists_cons_of_ne_nil (List.splitOn_ne_nil separator xs)
        rw [hsplit, List.modifyHead_cons] at h
        rcases List.mem_cons.1 h with rfl | h
        · have hne : separator ≠ x := fun heq => hx (by rw [heq, beq_self_eq_true])
          have hfirst : separator ∉ first := ih (hsplit ▸ List.mem_cons_self)
          simp [hne, hfirst]
        · exact ih (hsplit ▸ List.mem_cons_of_mem first h)

theorem conceptId_char {concept : String} (h : validateConceptId concept = .ok ()) {c : Char}
    (hc : c ∈ concept.toList) : isLowerOrDigit c = true ∨ c = '-' ∨ c = '/' := by
  obtain ⟨_, hall⟩ := check_bind_eq_ok.1 h
  rcases mem_splitOn '/' hc with hslash | ⟨segment, hsegment, hmem⟩
  · exact Or.inr (Or.inr hslash)
  · obtain ⟨_, hvalid⟩ := check_bind_eq_ok.1 (checkAll_eq_ok.1 hall segment hsegment)
    obtain ⟨halphabet, _⟩ := check_bind_eq_ok.1 hvalid
    have hchar := List.all_eq_true.1 (ensure_eq_ok.1 halphabet) c hmem
    simp only [Bool.false_and, Bool.or_false, Bool.or_eq_true, decide_eq_true_eq] at hchar
    exact hchar.imp_right Or.inl

theorem conceptId_isPlain {concept : String} (h : validateConceptId concept = .ok ()) :
    isPlainYamlScalar concept.toList = true := by
  obtain ⟨hne, _⟩ := check_bind_eq_ok.1 h
  have hne : concept.toList ≠ [] := fun hnil =>
    ensure_eq_ok.1 hne (String.toList_inj.1 (hnil.trans rfl))
  rw [isPlainYamlScalar, decide_eq_true hne, Bool.true_and, List.all_eq_true]
  intro c hc
  simp only [Bool.or_eq_true, decide_eq_true_eq]
  rcases conceptId_char h hc with halnum | rfl | rfl
  · refine Or.inl (Or.inl (Or.inl (Or.inl ?_)))
    rw [isLowerOrDigit, Bool.or_eq_true] at halnum
    rw [Char.isAlphanum, Char.isAlpha, Bool.or_eq_true, Bool.or_eq_true]
    exact halnum.imp_left Or.inr
  · decide
  · decide

theorem isWhitespace_of_isPlain {value : List Char} (h : isPlainYamlScalar value = true) {c : Char}
    (hc : c ∈ value) : Text.isWhitespace c = false := by
  have hbounds := isPlain_char h hc
  simp only [Text.isWhitespace, Bool.or_eq_false_iff, Bool.and_eq_false_iff, decide_eq_false_iff_not]
  omega

theorem conceptId_trim {concept : String} (h : validateConceptId concept = .ok ()) :
    Text.trim concept = concept := by
  have hplain := conceptId_isPlain h
  rw [Text.trim, Text.trimChars_eq_self, String.ofList_toList]
  · exact fun c hc => isWhitespace_of_isPlain hplain (List.mem_of_head? hc)
  · exact fun c hc => isWhitespace_of_isPlain hplain (List.mem_of_getLast? hc)

/-- A concept id is a proposal identifier without underscores. -/
theorem validateProposalIdentifier_of_conceptId {concept : String}
    (h : validateConceptId concept = .ok ()) : validateProposalIdentifier concept = .ok () := by
  obtain ⟨hne, hall⟩ := check_bind_eq_ok.1 h
  refine check_bind_eq_ok.2 ⟨ensure_of (ensure_eq_ok.1 hne), checkAll_eq_ok.2 fun segment hsegment => ?_⟩
  obtain ⟨hname, hvalid⟩ := check_bind_eq_ok.1 (checkAll_eq_ok.1 hall segment hsegment)
  obtain ⟨halphabet, hends⟩ := check_bind_eq_ok.1 hvalid
  refine check_bind_eq_ok.2 ⟨ensure_of (ensure_eq_ok.1 hname), check_bind_eq_ok.2
    ⟨ensure_of ?_, ensure_of (ensure_eq_ok.1 hends)⟩⟩
  rw [List.all_eq_true]
  intro c hc
  have hchar := List.all_eq_true.1 (ensure_eq_ok.1 halphabet) c hc
  simp only [Bool.false_and, Bool.or_false] at hchar
  rw [hchar, Bool.true_or]

/-- A concept id names itself, unless it is the word for nothing. -/
theorem identity_read_iff {concept : String} (h : validateConceptId concept = .ok ()) :
    (∃ found, readField concept = some found ∧
      validateSchemaIdentity found (some "memory") (some okfProfile) "memory" = .ok ()) ↔
      concept ≠ "null" := by
  constructor
  · rintro ⟨found, hread, hidentity⟩ rfl
    have hnull : readField "null" = some none := by decide
    rw [hnull] at hread
    cases hread
    cases hidentity
  · intro hne
    have hplain := conceptId_isPlain h
    have hdash : concept.toList ≠ [ '-'] := by
      intro hdash
      obtain rfl : concept = "-" := String.toList_inj.1 (hdash.trans rfl)
      revert h
      decide
    have hkept := keptText_of_isPlain hplain hdash
    have hnull : concept.toList ∉ nullWords := by
      intro hmem
      simp only [nullWords, List.mem_cons, List.not_mem_nil, or_false] at hmem
      rcases hmem with hmem | hmem | hmem
      · exact hne (String.toList_inj.1 hmem)
      · obtain rfl : concept = "Null" := String.toList_inj.1 hmem
        revert h
        decide
      · obtain rfl : concept = "NULL" := String.toList_inj.1 hmem
        revert h
        decide
    refine ⟨some concept, readField_eq_some_iff.2 ⟨hkept.toReadableText, hnull,
      (ofList_fold_eq_iff.2 hkept.unfolded).symm⟩, ?_⟩
    refine bind_eq_ok.2 ⟨concept, rfl, check_bind_eq_ok.2 ⟨withContext_eq_ok.2 ?_, rfl⟩⟩
    rw [conceptId_trim h]
    exact validateProposalIdentifier_of_conceptId h

/-! ### The form reading leaves -/

/-- A record whose fields pass their checks and are in the form the checks leave. -/
structure NormalRecord (r : OkfRecordFile) : Prop where
  concept : validateConceptId r.conceptId = .ok ()
  title : Clean r.draft.title
  scopeId : ∀ s ∈ r.draft.scopeId, Clean s
  confidence : 0 ≤ r.draft.confidence ∧ r.draft.confidence ≤ 1
  source : ∀ s ∈ r.draft.sourceKind, Clean s
  sourceRef : ∀ s ∈ r.draft.sourceRef, Clean s
  created : Clean r.created
  createdTimestamp : ensureTimestampish r.created "timestamp" = .ok ()
  updated : ∀ s ∈ r.updated, Clean s
  updatedTimestamp : validateIfSome (ensureTimestampish · "updated") r.updated = .ok ()
  appliesTo : validateAppliesTo r.appliesTo = .ok r.appliesTo
  supersedes : ∀ s ∈ r.supersedesId, Clean s
  retention : validateRetentionFacts r.conceptId r.draft.lane r.retention r.created = .ok ()
  origin : Origin.validateDescriptor r.origin = .ok ()
  lineage : validateRecordLineage r.conceptId r.lineage = .ok ()
  proposalId : ∀ s ∈ r.proposalId, Clean s
  body : Text.trimChars r.draft.body.toList = r.draft.body.toList
  sensitivity : r.draft.sensitivity = .repoSafe

/-- How a record is read from a frontmatter and a body. -/
structure RecordReadAs (concept : String) (f : OkfFrontmatter) (body : List Char)
    (r : OkfRecordFile) : Prop where
  conceptId : r.conceptId = concept
  identity : validateSchemaIdentity f.id f.kind f.profile "memory" = .ok ()
  title : requiredString f.title "title" = .ok r.draft.title
  memoryType : parseRequiredEnum parseMemoryType f.memoryType "type" = .ok r.draft.memoryType
  lane : parseRequiredEnum parseMemoryLane f.lane "lane" = .ok r.draft.lane
  scope : parseRequiredEnum parseScopeKind f.scope "scope" = .ok r.draft.scopeKind
  scopeId : optionalString f.scopeId "scope_id" = .ok r.draft.scopeId
  visibility : parseRequiredEnum parseVisibility f.visibility "visibility" = .ok r.draft.visibility
  contentClass : parseRequiredEnum parseContentClass f.contentClass "content_class" =
    .ok r.draft.contentClass
  status : parseRequiredEnum parseMemoryStatus f.status "status" = .ok r.status
  confidence : parseConfidence f.confidence = .ok r.draft.confidence
  source : optionalString f.source "source" = .ok r.draft.sourceKind
  sourceRef : optionalString f.sourceRef "source_ref" = .ok r.draft.sourceRef
  created : requiredString f.timestamp "timestamp" = .ok r.created
  createdTimestamp : ensureTimestampish r.created "timestamp" = .ok ()
  updated : optionalString f.updated "updated" = .ok r.updated
  updatedTimestamp : validateIfSome (ensureTimestampish · "updated") r.updated = .ok ()
  appliesTo : validateAppliesTo (f.appliesTo.getD []) = .ok r.appliesTo
  supersedes : optionalString f.supersedes "supersedes" = .ok r.supersedesId
  retention : validateRetentionFacts concept r.draft.lane r.retention r.created = .ok ()
  origin : Origin.validateDescriptor r.origin = .ok ()
  lineage : validateRecordLineage concept r.lineage = .ok ()
  proposalId : optionalString f.proposalId "proposal_id" = .ok r.proposalId
  body : bodyWithoutMatchingH1 body r.draft.title.toList = .ok r.draft.body.toList
  kept : r.draft.tags = f.tags.getD [] ∧ r.draft.sensitivity = .repoSafe ∧
    f.retention = some r.retention ∧ f.origin = some r.origin ∧ r.lineage = f.lineage ∧
    r.capture = f.capture ∧ r.materialization = f.materialization

theorem recordReadAs_of_read {concept : String} {f : OkfFrontmatter} {body : List Char}
    {r : OkfRecordFile} (h : recordOfFrontmatter concept f body = .ok r) :
    RecordReadAs concept f body r := by
  obtain ⟨hidentity, h⟩ := check_bind_eq_ok.1 h
  obtain ⟨title, htitle, h⟩ := bind_eq_ok.1 h
  obtain ⟨memoryType, hmemoryType, h⟩ := bind_eq_ok.1 h
  obtain ⟨lane, hlane, h⟩ := bind_eq_ok.1 h
  obtain ⟨scopeKind, hscope, h⟩ := bind_eq_ok.1 h
  obtain ⟨scopeId, hscopeId, h⟩ := bind_eq_ok.1 h
  obtain ⟨visibility, hvisibility, h⟩ := bind_eq_ok.1 h
  obtain ⟨contentClass, hcontentClass, h⟩ := bind_eq_ok.1 h
  obtain ⟨status, hstatus, h⟩ := bind_eq_ok.1 h
  obtain ⟨confidence, hconfidence, h⟩ := bind_eq_ok.1 h
  obtain ⟨sourceKind, hsource, h⟩ := bind_eq_ok.1 h
  obtain ⟨sourceRef, hsourceRef, h⟩ := bind_eq_ok.1 h
  obtain ⟨created, hcreated, h⟩ := bind_eq_ok.1 h
  obtain ⟨hcreatedTimestamp, h⟩ := check_bind_eq_ok.1 h
  obtain ⟨updated, hupdated, h⟩ := bind_eq_ok.1 h
  obtain ⟨hupdatedTimestamp, h⟩ := check_bind_eq_ok.1 h
  obtain ⟨appliesTo, happliesTo, h⟩ := bind_eq_ok.1 h
  obtain ⟨supersedesId, hsupersedes, h⟩ := bind_eq_ok.1 h
  obtain ⟨retention, hkeptRetention, h⟩ := bind_eq_ok.1 h
  obtain ⟨hretention, h⟩ := check_bind_eq_ok.1 h
  obtain ⟨origin, hkeptOrigin, h⟩ := bind_eq_ok.1 h
  obtain ⟨horigin, h⟩ := check_bind_eq_ok.1 h
  obtain ⟨hlineage, h⟩ := check_bind_eq_ok.1 h
  obtain ⟨proposalId, hproposalId, h⟩ := bind_eq_ok.1 h
  obtain ⟨under, hunder, h⟩ := bind_eq_ok.1 h
  cases h
  have hchars : (String.ofList under).toList = under := String.toList_ofList
  exact {
    conceptId := rfl
    identity := hidentity
    title := htitle
    memoryType := hmemoryType
    lane := hlane
    scope := hscope
    scopeId := hscopeId
    visibility := hvisibility
    contentClass := hcontentClass
    status := hstatus
    confidence := hconfidence
    source := hsource
    sourceRef := hsourceRef
    created := hcreated
    createdTimestamp := hcreatedTimestamp
    updated := hupdated
    updatedTimestamp := hupdatedTimestamp
    appliesTo := happliesTo
    supersedes := hsupersedes
    retention := hretention
    origin := withContext_eq_ok.1 horigin
    lineage := hlineage
    proposalId := hproposalId
    body := hunder.trans (congrArg Except.ok hchars.symm)
    kept := ⟨rfl, rfl, require_eq_ok.1 hkeptRetention, require_eq_ok.1 hkeptOrigin, rfl, rfl,
      rfl⟩ }

theorem read_of_recordReadAs {concept : String} {f : OkfFrontmatter} {body : List Char}
    {r : OkfRecordFile} (h : RecordReadAs concept f body r) :
    recordOfFrontmatter concept f body = .ok r := by
  obtain ⟨htags, hsensitivity, hretention, horigin, hlineage, hcapture, hmaterialization⟩ := h.kept
  unfold recordOfFrontmatter
  refine check_bind_eq_ok.2 ⟨h.identity, bind_eq_ok.2 ⟨_, h.title, bind_eq_ok.2 ⟨_, h.memoryType,
    bind_eq_ok.2 ⟨_, h.lane, bind_eq_ok.2 ⟨_, h.scope, bind_eq_ok.2 ⟨_, h.scopeId,
    bind_eq_ok.2 ⟨_, h.visibility, bind_eq_ok.2 ⟨_, h.contentClass, bind_eq_ok.2 ⟨_, h.status,
    bind_eq_ok.2 ⟨_, h.confidence, bind_eq_ok.2 ⟨_, h.source, bind_eq_ok.2 ⟨_, h.sourceRef,
    bind_eq_ok.2 ⟨_, h.created, check_bind_eq_ok.2 ⟨h.createdTimestamp,
    bind_eq_ok.2 ⟨_, h.updated, check_bind_eq_ok.2 ⟨h.updatedTimestamp,
    bind_eq_ok.2 ⟨_, h.appliesTo, bind_eq_ok.2 ⟨_, h.supersedes,
    bind_eq_ok.2 ⟨_, require_eq_ok.2 hretention, check_bind_eq_ok.2 ⟨h.retention,
    bind_eq_ok.2 ⟨_, require_eq_ok.2 horigin,
    check_bind_eq_ok.2 ⟨withContext_eq_ok.2 h.origin,
    check_bind_eq_ok.2 ⟨hlineage ▸ h.lineage, bind_eq_ok.2 ⟨_, h.proposalId,
    bind_eq_ok.2 ⟨_, h.body, congrArg Except.ok ?_⟩⟩⟩⟩⟩⟩⟩⟩⟩⟩⟩⟩⟩⟩⟩⟩⟩⟩⟩⟩⟩⟩⟩⟩⟩
  rw [String.ofList_toList, ← htags, ← hsensitivity, ← hlineage, ← hcapture, ← hmaterialization,
    ← h.conceptId]

/-- What reading gives is in the form reading leaves. -/
theorem RecordReadAs.normal {concept : String} {f : OkfFrontmatter} {body : List Char}
    {r : OkfRecordFile} (h : RecordReadAs concept f body r)
    (hconcept : validateConceptId concept = .ok ()) : NormalRecord r where
  concept := h.conceptId ▸ hconcept
  title := requiredString_clean h.title
  scopeId := optionalString_clean h.scopeId
  confidence := by
    obtain ⟨confidence, _, hconfidence⟩ := bind_eq_ok.1 h.confidence
    obtain ⟨hbounds, hsame⟩ := check_bind_eq_ok.1 hconfidence
    rw [← Except.ok.inj hsame]
    exact ensure_eq_ok.1 hbounds
  source := optionalString_clean h.source
  sourceRef := optionalString_clean h.sourceRef
  created := requiredString_clean h.created
  createdTimestamp := h.createdTimestamp
  updated := optionalString_clean h.updated
  updatedTimestamp := h.updatedTimestamp
  appliesTo := validateAppliesTo_again h.appliesTo
  supersedes := optionalString_clean h.supersedes
  retention := h.conceptId ▸ h.retention
  origin := h.origin
  lineage := h.conceptId ▸ h.lineage
  proposalId := optionalString_clean h.proposalId
  body := trimmed_bodyWithoutMatchingH1 h.body
  sensitivity := h.kept.2.1

/-! ### The frontmatter as it is written -/

/-- A text of lines none of which begins with a dash. -/
structure Lined (text : List Char) : Prop where
  head : text.head? ≠ some '-'
  chain : text.IsChain fun a b => ¬ (a = '\n' ∧ b = '-')

theorem Lined.nil : Lined [] := ⟨by simp, .nil⟩

theorem Lined.append {a b : List Char} (ha : Lined a) (hb : Lined b) : Lined (a ++ b) := by
  constructor
  · cases a with
    | nil => exact hb.head
    | cons c a => exact ha.head
  · refine List.isChain_append.2 ⟨ha.chain, hb.chain, fun x _ y hy hdash => ?_⟩
    exact hb.head (hdash.2 ▸ hy)

theorem Lined.flatMap {α : Type} {f : α → List Char} {as : List α} (h : ∀ a ∈ as, Lined (f a)) :
    Lined (as.flatMap f) := by
  induction as with
  | nil => exact .nil
  | cons a as ih =>
      rw [List.flatMap_cons]
      exact (h a List.mem_cons_self).append (ih fun b hb => h b (List.mem_cons_of_mem a hb))

/-- One line that does not begin with a dash. -/
theorem lined_line {line : List Char} (hhead : line.head? ≠ some '-') (h : '\n' ∉ line) :
    Lined (line ++ [ '\n']) := by
  constructor
  · cases line with
    | nil => decide
    | cons c line => exact hhead
  · have hline : line.Pairwise fun a b => ¬ (a = '\n' ∧ b = '-') :=
      List.pairwise_of_forall_mem_list fun a ha b _ hdash => h (hdash.1 ▸ ha)
    refine List.isChain_append.2 ⟨hline.isChain, .singleton _, fun x hx y _ hdash => ?_⟩
    exact h (hdash.1 ▸ List.mem_of_getLast? hx)

/-- A text of such lines holds no closing mark. -/
theorem Lined.noMark {text : List Char} (h : Lined text) : NoMark text := by
  rintro ⟨before, after, hmark⟩
  have hchain := h.chain
  rw [← hmark, List.isChain_append, List.isChain_append] at hchain
  have hfirst := hchain.1.2.1
  revert hfirst
  decide

theorem hexDigit_ne_newline : ∀ n < 16, hexDigit n ≠ '\n' := by decide

theorem newline_notMem_jsonEscape (c : Char) : '\n' ∉ jsonEscape c := by
  unfold jsonEscape
  split_ifs with hquote hslash hlf hcr htab hback hfeed hcontrol
  iterate 7 decide
  · have hhigh := hexDigit_ne_newline (c.toNat / 16) (by omega)
    have hlow := hexDigit_ne_newline (c.toNat % 16) (Nat.mod_lt _ (by omega))
    simp [hhigh.symm, hlow.symm]
  · simpa using Ne.symm hlf

theorem newline_notMem_quote (value : List Char) : '\n' ∉ quoteYamlString value := by
  intro h
  by_cases hplain : isPlainYamlScalar value = true
  · rw [quote_of_isPlain hplain] at h
    have hbounds := isPlain_char hplain h
    revert hbounds
    decide
  · rw [quote_of_not_isPlain hplain] at h
    simp only [List.mem_cons, List.mem_append, List.mem_flatMap, List.not_mem_nil] at h
    rcases h with h | ⟨c, _, h⟩ | h | h
    · cases h
    · exact newline_notMem_jsonEscape c h
    · cases h
    · exact h

theorem newline_notMem_lines {text line : List Char} (h : line ∈ lines text) : '\n' ∉ line := by
  unfold lines at h
  rcases List.mem_append.1 h with h | h
  · obtain ⟨piece, hpiece, rfl⟩ := List.mem_map.1 h
    have hnot := notMem_of_mem_splitOn ((List.dropLast_sublist _).subset hpiece)
    split
    · exact fun hmem => hnot ((List.dropLast_sublist piece).subset hmem)
    · exact hnot
  · obtain ⟨hlast, _⟩ := Option.filter_eq_some_iff.1 (Option.mem_toList.1 h)
    exact notMem_of_mem_splitOn (List.mem_of_getLast? hlast)

/-- What stands at the start of the lines of an entry. -/
def Entry.key : Entry → List Char
  | scalar key _ | raw key _ | list key _ | block key _ => key.toList

/-- A key is no line end and no mark. -/
def Keyed (key : List Char) : Prop := key.head? ≠ some '-' ∧ '\n' ∉ key

instance (key : List Char) : Decidable (Keyed key) := inferInstanceAs (Decidable (_ ∧ _))

theorem Keyed.line {key rest : List Char} (h : Keyed key) (hrest : '\n' ∉ rest) :
    Lined (key ++ ( ':' :: rest) ++ [ '\n']) := by
  refine lined_line ?_ ?_
  · cases key with
    | nil => simp
    | cons c key => exact h.1
  · simp [h.2, hrest]

/-- The text of an entry is a text of lines, none of which begins with a dash. -/
theorem Entry.lined {e : Entry} (hkey : Keyed e.key)
    (hraw : ∀ key text, e = .raw key text → '\n' ∉ text.toList) : Lined e.text := by
  cases e with
  | scalar key value =>
      have hline := hkey.line
        (show '\n' ∉ ' ' :: quoteYamlString value by simp [newline_notMem_quote value])
      simpa [Entry.text, Entry.key] using hline
  | raw key text =>
      have hline := hkey.line (show '\n' ∉ ' ' :: text.toList by simp [hraw key text rfl])
      simpa [Entry.text, Entry.key] using hline
  | list key items =>
      have hline := hkey.line (List.not_mem_nil : '\n' ∉ [])
      have hitems : Lined (items.flatMap fun item =>
          "  - ".toList ++ quoteYamlString item.toList ++ [ '\n']) :=
        Lined.flatMap fun item _ => lined_line (by simp) (by simp [newline_notMem_quote])
      simpa [Entry.text, Entry.key] using hline.append hitems
  | block key yaml =>
      have hline := hkey.line (List.not_mem_nil : '\n' ∉ [])
      have hlines : Lined ((lines yaml.toList).flatMap fun line => "  ".toList ++ line ++ [ '\n']) :=
        Lined.flatMap fun line hline => lined_line (by simp) (by simp [newline_notMem_lines hline])
      simpa [Entry.text, Entry.key] using hline.append hlines

theorem Entry.text_concat (e : Entry) : ∃ text, e.text = text ++ [ '\n'] := by
  cases e with
  | scalar key value => exact ⟨_, rfl⟩
  | raw key text => exact ⟨_, rfl⟩
  | list key items =>
      rcases List.eq_nil_or_concat items with rfl | ⟨before, item, rfl⟩
      · exact ⟨key.toList ++ [ ':'], by simp [Entry.text]⟩
      · rw [List.concat_eq_append, Entry.text, List.flatMap_append, List.flatMap_singleton]
        simp only [← List.append_assoc]
        exact ⟨_, rfl⟩
  | block key yaml =>
      rcases List.eq_nil_or_concat (lines yaml.toList) with hlines | ⟨before, line, hlines⟩
      · exact ⟨key.toList ++ [ ':'], by simp [Entry.text, hlines]⟩
      · rw [Entry.text, hlines, List.concat_eq_append, List.flatMap_append, List.flatMap_singleton]
        simp only [← List.append_assoc]
        exact ⟨_, rfl⟩

section Texts

variable [Yaml] {r : OkfRecordFile}

/-- An entry whose text is a text of lines. -/
structure Entry.Written (raw : String) (e : Entry) : Prop where
  keyed : Keyed e.key
  text : ∀ key text, e = .raw key text → text = raw

omit [Yaml] in
theorem written_scalar {raw key : String} (value : List Char) (h : Keyed key.toList) :
    Entry.Written raw (.scalar key value) := ⟨h, fun _ _ heq => by cases heq⟩

omit [Yaml] in
theorem written_scalarIfSome {raw key : String} (value : Option String) (h : Keyed key.toList) :
    ∀ e ∈ scalarIfSome key value, e.Written raw := by
  intro e he
  obtain ⟨text, _, rfl⟩ := Option.map_eq_some_iff.1 (Option.mem_toList.1 he)
  exact written_scalar _ h

omit [Yaml] in
theorem written_listIfAny {raw key : String} (items : List String) (h : Keyed key.toList) :
    ∀ e ∈ listIfAny key items, e.Written raw := by
  intro e he
  unfold listIfAny at he
  split at he
  · cases he
  · rw [List.mem_singleton.1 he]
    exact ⟨h, fun _ _ heq => by cases heq⟩

omit [Yaml] in
theorem written_block {raw key : String} (yaml : String) (h : Keyed key.toList) :
    Entry.Written raw (.block key yaml) := ⟨h, fun _ _ heq => by cases heq⟩

omit [Yaml] in
theorem written_blockIfSome {α : Type} {raw key : String} (print : α → String) (value : Option α)
    (h : Keyed key.toList) :
    ∀ e ∈ (value.map fun x => Entry.block key (print x)).toList, e.Written raw := by
  intro e he
  obtain ⟨x, _, rfl⟩ := Option.map_eq_some_iff.1 (Option.mem_toList.1 he)
  exact written_block _ h

theorem frontmatterEntries_written (r : OkfRecordFile) :
    ∀ e ∈ frontmatterEntries r, e.Written (Yaml.confidence r.draft.confidence) := by
  unfold frontmatterEntries
  simp only [List.forall_mem_append, List.forall_mem_cons, List.not_mem_nil, false_implies,
    implies_true, and_true]
  have hraw : Entry.Written (Yaml.confidence r.draft.confidence)
      (.raw "confidence" (Yaml.confidence r.draft.confidence)) := by
    refine ⟨(by decide : Keyed "confidence".toList), fun key text heq => ?_⟩
    cases heq
    rfl
  and_intros
  all_goals first
    | exact written_scalar _ (by decide)
    | exact written_scalarIfSome _ (by decide)
    | exact written_listIfAny _ (by decide)
    | exact written_block _ (by decide)
    | exact written_blockIfSome _ _ (by decide)
    | exact hraw

/-- The frontmatter of a written record, without its last line end. -/
def yamlText (r : OkfRecordFile) : List Char :=
  ((frontmatterEntries r).flatMap Entry.text).dropLast

theorem yamlText_concat (r : OkfRecordFile) :
    (frontmatterEntries r).flatMap Entry.text = yamlText r ++ [ '\n'] := by
  have hconcat : ∃ text, (frontmatterEntries r).flatMap Entry.text = text ++ [ '\n'] := by
    rcases List.eq_nil_or_concat (frontmatterEntries r) with hnil | ⟨before, e, hentries⟩
    · exact absurd hnil (by simp [frontmatterEntries])
    · obtain ⟨text, htext⟩ := e.text_concat
      rw [hentries, List.concat_eq_append, List.flatMap_append, List.flatMap_singleton, htext,
        ← List.append_assoc]
      exact ⟨_, rfl⟩
  obtain ⟨text, htext⟩ := hconcat
  rw [yamlText, htext, List.dropLast_concat]

/-! ### Reading a written record -/

/-- What the YAML library makes of the entries of a record: every text is read by itself, the words
of the enumerations are words, and the confidence and the blocks are read back. -/
def readBack (r : OkfRecordFile) : Option OkfFrontmatter := do
  let id ← readField r.conceptId
  let title ← readField r.draft.title
  let description ← readField (String.ofList (firstNonEmptyLine r.draft.body.toList))
  let timestamp ← readField r.created
  let updated ← readOptionalField r.updated
  let scopeId ← readOptionalField r.draft.scopeId
  let source ← readOptionalField r.draft.sourceKind
  let sourceRef ← readOptionalField r.draft.sourceRef
  let proposalId ← readOptionalField r.proposalId
  let tags ← readItems r.draft.tags
  let appliesTo ← readItems r.appliesTo
  let supersedes ← readOptionalField r.supersedesId
  some { OkfFrontmatter.ofRecord r with
    id, title, description, timestamp, updated, scopeId, source, sourceRef, proposalId
    tags := someIfAny tags
    appliesTo := someIfAny appliesTo
    supersedes }

/-- The YAML library on the frontmatter of one record. -/
structure YamlReads (r : OkfRecordFile) : Prop where
  confidence : '\n' ∉ (Yaml.confidence r.draft.confidence).toList
  frontmatter : (Yaml.frontmatter (yamlText r)).toOption = readBack r

theorem yamlText_noMark {r : OkfRecordFile} (h : YamlReads r) : NoMark (yamlText r) := by
  have hlined : Lined (yamlText r ++ [ '\n']) := by
    rw [← yamlText_concat]
    refine Lined.flatMap fun e he => ?_
    obtain ⟨hkey, hraw⟩ := frontmatterEntries_written r e he
    exact e.lined hkey fun key text heq => hraw key text heq ▸ h.confidence
  rintro ⟨before, after, hmark⟩
  exact hlined.noMark ⟨before, after ++ [ '\n'], by rw [← List.append_assoc, hmark]⟩

/-- What stands under the frontmatter of a record. -/
def recordBody (r : OkfRecordFile) : List Char :=
  [ '\n'] ++ "# ".toList ++ r.draft.title.toList ++ "\n\n".toList ++
    Text.trimChars r.draft.body.toList ++ [ '\n']

theorem splitFrontmatter_recordText {r : OkfRecordFile} (h : YamlReads r) :
    splitFrontmatter (recordText r) = .ok (yamlText r, recordBody r) := by
  have htext : recordText r =
      "---\n".toList ++ (yamlText r ++ ("\n---".toList ++ ( '\n' :: recordBody r))) := by
    unfold recordText recordBody
    rw [yamlText_concat]
    simp only [String.reduceToList, List.append_assoc, List.cons_append, List.nil_append]
  rw [htext, splitFrontmatter_of_noMark (yamlText_noMark h)]

/-- A record whose texts YAML gives back, and whose title and path can be read. -/
structure KeptRecord (r : OkfRecordFile) : Prop where
  path : r.conceptId ≠ "null"
  heading : '\n' ∉ r.draft.title.toList
  title : KeptField r.draft.title.toList
  description : ReadableText (firstNonEmptyLine r.draft.body.toList)
  created : KeptField r.created.toList
  updated : ∀ s ∈ r.updated, KeptField s.toList
  scopeId : ∀ s ∈ r.draft.scopeId, KeptField s.toList
  source : ∀ s ∈ r.draft.sourceKind, KeptField s.toList
  sourceRef : ∀ s ∈ r.draft.sourceRef, KeptField s.toList
  proposalId : ∀ s ∈ r.proposalId, KeptField s.toList
  tags : ∀ s ∈ r.draft.tags, KeptText s.toList
  appliesTo : ∀ s ∈ r.appliesTo, KeptText s.toList
  supersedes : ∀ s ∈ r.supersedesId, KeptField s.toList

/-- What is found in the frontmatter of a record, entry by entry. -/
structure FoundIn (r : OkfRecordFile) (f : OkfFrontmatter) (tags appliesTo : List String) :
    Prop where
  id : readField r.conceptId = some f.id
  title : readField r.draft.title = some f.title
  description : ReadableText (firstNonEmptyLine r.draft.body.toList)
  timestamp : readField r.created = some f.timestamp
  updated : readOptionalField r.updated = some f.updated
  scopeId : readOptionalField r.draft.scopeId = some f.scopeId
  source : readOptionalField r.draft.sourceKind = some f.source
  sourceRef : readOptionalField r.draft.sourceRef = some f.sourceRef
  proposalId : readOptionalField r.proposalId = some f.proposalId
  tags : readItems r.draft.tags = some tags ∧ f.tags = someIfAny tags
  appliesTo : readItems r.appliesTo = some appliesTo ∧ f.appliesTo = someIfAny appliesTo
  supersedes : readOptionalField r.supersedesId = some f.supersedes
  named : f.kind = some "memory" ∧ f.profile = some okfProfile
  contentClass : f.contentClass = some (contentClassAsStr r.draft.contentClass)
  materialization : f.materialization = r.materialization

omit [Yaml] in
theorem found_of_readBack {f : OkfFrontmatter} (h : readBack r = some f) :
    ∃ tags appliesTo, FoundIn r f tags appliesTo := by
  obtain ⟨id, hid, h⟩ := Option.bind_eq_some_iff.1 h
  obtain ⟨title, htitle, h⟩ := Option.bind_eq_some_iff.1 h
  obtain ⟨description, hdescription, h⟩ := Option.bind_eq_some_iff.1 h
  obtain ⟨timestamp, htimestamp, h⟩ := Option.bind_eq_some_iff.1 h
  obtain ⟨updated, hupdated, h⟩ := Option.bind_eq_some_iff.1 h
  obtain ⟨scopeId, hscopeId, h⟩ := Option.bind_eq_some_iff.1 h
  obtain ⟨source, hsource, h⟩ := Option.bind_eq_some_iff.1 h
  obtain ⟨sourceRef, hsourceRef, h⟩ := Option.bind_eq_some_iff.1 h
  obtain ⟨proposalId, hproposalId, h⟩ := Option.bind_eq_some_iff.1 h
  obtain ⟨tags, htags, h⟩ := Option.bind_eq_some_iff.1 h
  obtain ⟨appliesTo, happliesTo, h⟩ := Option.bind_eq_some_iff.1 h
  obtain ⟨supersedes, hsupersedes, h⟩ := Option.bind_eq_some_iff.1 h
  cases h
  have hdescribed := readField_isSome_iff.1 (Option.isSome_of_eq_some hdescription)
  rw [String.toList_ofList] at hdescribed
  exact ⟨tags, appliesTo, hid, htitle, hdescribed, htimestamp, hupdated, hscopeId, hsource,
    hsourceRef, hproposalId, ⟨htags, rfl⟩, ⟨happliesTo, rfl⟩, hsupersedes, ⟨rfl, rfl⟩, rfl, rfl⟩

omit [Yaml] in
theorem heading_iff (hnormal : NormalRecord r) :
    bodyWithoutMatchingH1 (recordBody r) r.draft.title.toList = .ok r.draft.body.toList ↔
      '\n' ∉ r.draft.title.toList := by
  have htrimmed := hnormal.title.trimChars
  constructor
  · exact oneLine_of_heading htrimmed
  · intro hnewline
    rw [recordBody, bodyWithoutMatchingH1_written htrimmed, if_neg hnewline, hnormal.body]

omit [Yaml] in
/-- A record in the form reading leaves is read back exactly when its texts are kept. -/
theorem readBack_iff (hnormal : NormalRecord r) :
    (∃ f, readBack r = some f ∧ RecordReadAs r.conceptId f (recordBody r) r) ↔ KeptRecord r := by
  constructor
  · rintro ⟨f, hback, hread⟩
    obtain ⟨tags, appliesTo, hfound⟩ := found_of_readBack hback
    obtain ⟨hkind, hprofile⟩ := hfound.named
    obtain ⟨htags, hfoundTags⟩ := hfound.tags
    obtain ⟨happliesTo, hfoundPaths⟩ := hfound.appliesTo
    have hidentity := hread.identity
    rw [hkind, hprofile] at hidentity
    have hkeptTags : r.draft.tags = tags := by
      rw [hread.kept.1, hfoundTags, getD_someIfAny]
    have hpaths := hread.appliesTo
    rw [hfoundPaths, getD_someIfAny] at hpaths
    exact {
      path := (identity_read_iff hnormal.concept).1 ⟨_, hfound.id, hidentity⟩
      heading := (heading_iff hnormal).1 hread.body
      title := (requiredString_read_iff hnormal.title).1 ⟨_, hfound.title, hread.title⟩
      description := hfound.description
      created := (requiredString_read_iff hnormal.created).1 ⟨_, hfound.timestamp, hread.created⟩
      updated := (optionalString_read_iff hnormal.updated).1 ⟨_, hfound.updated, hread.updated⟩
      scopeId := (optionalString_read_iff hnormal.scopeId).1 ⟨_, hfound.scopeId, hread.scopeId⟩
      source := (optionalString_read_iff hnormal.source).1 ⟨_, hfound.source, hread.source⟩
      sourceRef := (optionalString_read_iff hnormal.sourceRef).1
        ⟨_, hfound.sourceRef, hread.sourceRef⟩
      proposalId := (optionalString_read_iff hnormal.proposalId).1
        ⟨_, hfound.proposalId, hread.proposalId⟩
      tags := readItems_eq_self_iff.1 (hkeptTags ▸ htags)
      appliesTo := (validateAppliesTo_read_iff hnormal.appliesTo).1 ⟨_, happliesTo, hpaths⟩
      supersedes := (optionalString_read_iff hnormal.supersedes).1
        ⟨_, hfound.supersedes, hread.supersedes⟩ }
  · intro h
    obtain ⟨id, hid, hidentity⟩ := (identity_read_iff hnormal.concept).2 h.path
    obtain ⟨title, htitle, hreadTitle⟩ := (requiredString_read_iff hnormal.title).2 h.title
    have hdescribed : ReadableText
        (String.ofList (firstNonEmptyLine r.draft.body.toList)).toList := by
      rw [String.toList_ofList]
      exact h.description
    obtain ⟨description, hdescription⟩ :=
      Option.isSome_iff_exists.1 (readField_isSome_iff.2 hdescribed)
    obtain ⟨timestamp, htimestamp, hcreated⟩ := (requiredString_read_iff hnormal.created).2 h.created
    obtain ⟨updated, hupdated, hreadUpdated⟩ := (optionalString_read_iff hnormal.updated).2 h.updated
    obtain ⟨scopeId, hscopeId, hreadScopeId⟩ := (optionalString_read_iff hnormal.scopeId).2 h.scopeId
    obtain ⟨source, hsource, hreadSource⟩ := (optionalString_read_iff hnormal.source).2 h.source
    obtain ⟨sourceRef, hsourceRef, hreadSourceRef⟩ :=
      (optionalString_read_iff hnormal.sourceRef).2 h.sourceRef
    obtain ⟨proposalId, hproposalId, hreadProposalId⟩ :=
      (optionalString_read_iff hnormal.proposalId).2 h.proposalId
    obtain ⟨appliesTo, happliesTo, hreadAppliesTo⟩ :=
      (validateAppliesTo_read_iff hnormal.appliesTo).2 h.appliesTo
    obtain ⟨supersedes, hsupersedes, hreadSupersedes⟩ :=
      (optionalString_read_iff hnormal.supersedes).2 h.supersedes
    have htags := readItems_eq_self_iff.2 h.tags
    refine ⟨{ OkfFrontmatter.ofRecord r with
      id, title, description, timestamp, updated, scopeId, source, sourceRef, proposalId
      tags := someIfAny r.draft.tags
      appliesTo := someIfAny appliesTo
      supersedes }, ?_, ?_⟩
    · exact Option.bind_eq_some_iff.2 ⟨id, hid, Option.bind_eq_some_iff.2 ⟨title, htitle,
        Option.bind_eq_some_iff.2 ⟨description, hdescription,
        Option.bind_eq_some_iff.2 ⟨timestamp, htimestamp,
        Option.bind_eq_some_iff.2 ⟨updated, hupdated, Option.bind_eq_some_iff.2 ⟨scopeId, hscopeId,
        Option.bind_eq_some_iff.2 ⟨source, hsource,
        Option.bind_eq_some_iff.2 ⟨sourceRef, hsourceRef,
        Option.bind_eq_some_iff.2 ⟨proposalId, hproposalId,
        Option.bind_eq_some_iff.2 ⟨r.draft.tags, htags,
        Option.bind_eq_some_iff.2 ⟨appliesTo, happliesTo,
        Option.bind_eq_some_iff.2 ⟨supersedes, hsupersedes, rfl⟩⟩⟩⟩⟩⟩⟩⟩⟩⟩⟩⟩
    · exact {
        conceptId := rfl
        identity := hidentity
        title := hreadTitle
        memoryType := parseMemoryType_asStr _ _
        lane := parseMemoryLane_asStr _ _
        scope := parseScopeKind_asStr _ _
        scopeId := hreadScopeId
        visibility := parseVisibility_asStr _ _
        contentClass := parseContentClass_asStr _ _
        status := parseMemoryStatus_asStr _ _
        confidence := bind_eq_ok.2 ⟨_, rfl, check_bind_eq_ok.2 ⟨ensure_of hnormal.confidence, rfl⟩⟩
        source := hreadSource
        sourceRef := hreadSourceRef
        created := hcreated
        createdTimestamp := hnormal.createdTimestamp
        updated := hreadUpdated
        updatedTimestamp := hnormal.updatedTimestamp
        appliesTo := by
          rw [getD_someIfAny]
          exact hreadAppliesTo
        supersedes := hreadSupersedes
        retention := hnormal.retention
        origin := hnormal.origin
        lineage := hnormal.lineage
        proposalId := hreadProposalId
        body := (heading_iff hnormal).2 h.heading
        kept := ⟨(getD_someIfAny r.draft.tags).symm, hnormal.sensitivity, rfl, rfl, rfl, rfl, rfl⟩ }

variable [MaterializationDigests] {path : String}

/-- A record without an attestation is read from its text as from what YAML reads back. -/
theorem parse_recordText_iff {w q : OkfRecordFile} (hreserved : isReservedRecordFile path = false)
    (hconcept : conceptId path = .ok w.conceptId) (hyaml : YamlReads w)
    (hplain : w.materialization = none) :
    parseRecordText path (recordText w) = .ok (some q) ↔
      ∃ f, readBack w = some f ∧ RecordReadAs w.conceptId f (recordBody w) q := by
  have hfrontmatter : ∀ f, readFrontmatter w.conceptId (yamlText w) = .ok f ↔
      readBack w = some f := by
    intro f
    rw [← hyaml.frontmatter, readFrontmatter]
    cases Yaml.frontmatter (yamlText w) with
    | error e => exact ⟨fun h => absurd h bail_ne_ok, fun h => by cases h⟩
    | ok found =>
        constructor
        · intro h
          rw [Except.ok.inj h]
          rfl
        · intro h
          rw [Option.some.inj h]
  unfold parseRecordText
  rw [hreserved, if_neg (by decide), hconcept, ok_bind, splitFrontmatter_recordText hyaml, ok_bind]
  constructor
  · intro h
    obtain ⟨f, hf, h⟩ := bind_eq_ok.1 h
    obtain ⟨record, hrecord, h⟩ := bind_eq_ok.1 h
    obtain ⟨_, h⟩ := check_bind_eq_ok.1 h
    cases h
    exact ⟨f, (hfrontmatter f).1 hf, recordReadAs_of_read hrecord⟩
  · rintro ⟨f, hback, hread⟩
    refine bind_eq_ok.2 ⟨f, (hfrontmatter f).2 hback, bind_eq_ok.2 ⟨q, read_of_recordReadAs hread,
      check_bind_eq_ok.2 ⟨?_, rfl⟩⟩⟩
    have hnone : q.materialization = none := by
      obtain ⟨_, _, hfound⟩ := found_of_readBack hback
      rw [hread.kept.2.2.2.2.2.2, hfound.materialization, hplain]
    rw [validateRecordMaterialization, hnone]

omit [MaterializationDigests] in
theorem normal_of_parse [MaterializationDigests] {text : List Char}
    (h : parseRecordText path text = .ok (some r)) :
    isReservedRecordFile path = false ∧ conceptId path = .ok r.conceptId ∧ NormalRecord r := by
  unfold parseRecordText at h
  split at h
  · cases h
  · rename_i hreserved
    obtain ⟨concept, hconcept, h⟩ := bind_eq_ok.1 h
    obtain ⟨⟨frontmatter, body⟩, _, h⟩ := bind_eq_ok.1 h
    obtain ⟨f, _, h⟩ := bind_eq_ok.1 h
    obtain ⟨record, hrecord, h⟩ := bind_eq_ok.1 h
    obtain ⟨_, h⟩ := check_bind_eq_ok.1 h
    cases h
    have hread := recordReadAs_of_read hrecord
    have hvalid : validateConceptId concept = .ok () := by
      obtain ⟨stem, _, hstem⟩ := bind_eq_ok.1 hconcept
      obtain ⟨_, hstem⟩ := check_bind_eq_ok.1 hstem
      obtain ⟨hvalid, hstem⟩ := check_bind_eq_ok.1 hstem
      rw [← Except.ok.inj hstem]
      exact hvalid
    exact ⟨by simpa using hreserved, hread.conceptId ▸ hconcept, hread.normal hvalid⟩

theorem renderOkfRecordMarkdown_plain (hplain : r.materialization = none) :
    renderOkfRecordMarkdown r = .ok (String.ofList (recordText r)) := by
  rw [renderOkfRecordMarkdown, validateRecordMaterialization, hplain]
  rfl

omit [MaterializationDigests] in
theorem parse_ofList [MaterializationDigests] (text : List Char) :
    parseOkfRecordMarkdown path (String.ofList text) = parseRecordText path text := by
  rw [parseOkfRecordMarkdown, String.toList_ofList]

end Texts

/-! ### A record about retries -/

/-- A YAML library that prints plain blocks and knows some frontmatters. -/
@[reducible] def Yaml.reading (known : List (List Char × Option OkfFrontmatter)) : Yaml :=
  { Yaml.printers with
    confidence := fun _ => "0.9"
    retention := fun _ => "\x7b\x7d\n"
    origin := fun origin => s!"origin_key: {origin.originKey}\nroute: repository_proposal\n"
    frontmatter := fun text =>
      match (known.find? fun entry => entry.1 = text).bind (·.2) with
      | some f => .ok f
      | none => .error "invalid frontmatter" }

def retryRecord (source : Option String) : OkfRecordFile where
  conceptId := "retry-policy"
  draft := {
    memoryType := .decision
    lane := .semantic
    scopeKind := .repo
    scopeId := none
    visibility := .repo
    title := "Retry policy"
    body := "Retry twice"
    tags := []
    sourceKind := source
    sourceRef := none
    sensitivity := .repoSafe
    contentClass := .generalRepoKnowledge
    confidence := 9 / 10 }
  status := .active
  appliesTo := []
  created := "2026-07-14T10:00:00Z"
  updated := none
  supersedesId := none
  retention := ⟨none, none, none, none, none, none⟩
  origin := ⟨"retry-policy", .repositoryProposal⟩
  lineage := none
  proposalId := none
  capture := none
  materialization := none

/-- The library, on the record as it is written and on a frontmatter with its source in quotes. -/
@[reducible] def recordLibrary (source : String) (quoted : List Char) : Yaml :=
  .reading [(@yamlText (.reading []) (retryRecord (some source)),
      readBack (retryRecord (some source))),
    (quoted, some (OkfFrontmatter.ofRecord (retryRecord (some source))))]

def quotedYaml (source : String) : List Char :=
  List.intercalate [ '\n'] (["id: retry-policy", "kind: memory", "profile: memzoi", "type: decision",
    "lane: semantic", "title: Retry policy", "description: Retry twice",
    "timestamp: \"2026-07-14T10:00:00Z\"", "status: active", "scope: repo", "visibility: repo",
    "content_class: general_repo_knowledge", "confidence: 0.9", source, "retention: \x7b\x7d",
    "origin:", "  origin_key: retry-policy", "  route: repository_proposal"].map String.toList)

def quotedText (source : String) : List Char :=
  "---\n".toList ++ quotedYaml source ++ "\n---\n\n# Retry policy\n\nRetry twice\n".toList

@[reducible] def docsLibrary : Yaml := recordLibrary "docs" (quotedYaml "source: docs")

@[reducible] def nullLibrary : Yaml := recordLibrary "null" (quotedYaml "source: \"null\"")

theorem retry_record_texts :
    (@parseRecordText docsLibrary .ofAction "retry-policy.md" (quotedText "source: docs") =
        .ok (some (retryRecord (some "docs"))) ∧
      (@Yaml.frontmatter docsLibrary (@yamlText docsLibrary (retryRecord (some "docs")))).toOption =
        readBack (retryRecord (some "docs"))) ∧
    (@parseRecordText nullLibrary .ofAction "retry-policy.md" (quotedText "source: \"null\"") =
        .ok (some (retryRecord (some "null"))) ∧
      (@Yaml.frontmatter nullLibrary (@yamlText nullLibrary (retryRecord (some "null")))).toOption =
        readBack (retryRecord (some "null")) ∧
      @parseRecordText nullLibrary .ofAction "retry-policy.md"
        (@recordText nullLibrary (retryRecord (some "null"))) = .ok (some (retryRecord none))) := by
  decide +kernel

end Okf
end Memzoi
