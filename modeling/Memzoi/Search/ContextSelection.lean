/-
# What a context pack shows

Source: `context.rs` (`deduplicate_candidates`, `select_for_budget`,
`render_prompt`).

`compare_ranked_results` is the order of a key that ends in the record id
(`rankKey`), so the results of a ranking, whose ids differ, are in one order and
the pack does not depend on how they came. A candidate that the first
deduplication drops gives way to one with its content hash, and that one may
give way to another with its text, so what is kept covers a candidate in two
steps. A prompt is cut exactly when its header and its rendered lines have more
words than the budget; the estimated sizes leave out the three words of the
header and count two words for a source.
-/

import Memzoi.Lib.PrefixCode
import Memzoi.Search.ContextPack
import Mathlib

namespace Memzoi
namespace Search

open Fallible

/-! ### The order of ranked results -/

/-- Score, destination and time from high to low, then the id. -/
abbrev RankKey : Type := F64ᵒᵈ ×ₗ ℕᵒᵈ ×ₗ Stringᵒᵈ ×ₗ String

def rankKey (result : SearchResult) : RankKey :=
  toLex (OrderDual.toDual (rankingScore result),
    toLex (OrderDual.toDual (destinationPriority result.record.destination),
      toLex (OrderDual.toDual result.record.updatedAt, result.record.id)))

theorem compareRankedResults_eq (left right : SearchResult) :
    compareRankedResults left right = compare (rankKey left) (rankKey right) := rfl

theorem ranksBefore_iff (left right : SearchResult) :
    ranksBefore left right = true ↔ rankKey left < rankKey right := by
  rw [ranksBefore, decide_eq_true_eq, compareRankedResults_eq, compare_lt_iff_lt]

/-- The first result ranks at least as high as the second. -/
theorem compareRankedResults_ne_gt {left right : SearchResult} :
    compareRankedResults left right ≠ .gt ↔ rankKey left ≤ rankKey right := by
  rw [compareRankedResults_eq, ← compare_le_iff_le]

theorem id_eq_of_rankKey {left right : SearchResult} (h : rankKey left = rankKey right) :
    left.record.id = right.record.id :=
  congrArg (fun key : RankKey => (ofLex (ofLex (ofLex key).2).2).2) h

/-- Ranked results of different records. -/
structure RankedSet where
  results : List SearchResult
  distinct : (results.map (·.record.id)).Nodup

/-- In a ranking, a result is known by its key. -/
theorem RankedSet.rankKey_injOn (ranking : RankedSet) :
    ∀ x ∈ ranking.results, ∀ y ∈ ranking.results, rankKey x = rankKey y → x = y :=
  fun _ hx _ hy h => List.inj_on_of_nodup_map ranking.distinct hx hy (id_eq_of_rankKey h)

/-! ### Collecting -/

/-- A text match comes before a path match of the same record. -/
def candidateRank (candidate : ContextCandidate) : Bool := !candidate.matchedFts

theorem preferredOver_iff (candidate existing : ContextCandidate) :
    candidate.preferredOver existing = true ↔ candidateRank candidate < candidateRank existing := by
  rw [ContextCandidate.preferredOver, candidateRank, candidateRank]
  cases candidate.matchedFts <;> cases existing.matchedFts <;> decide

/-- Each search gives a record at most once. -/
def OneOfEachKind (found : List ContextCandidate) : Prop :=
  ∀ x ∈ found, ∀ y ∈ found, x.recordId = y.recordId → x.matchedFts = y.matchedFts → x = y

/-- The map does not depend on the order in which the candidates come. -/
theorem collect_eq_of_perm {found found' : List ContextCandidate} (hone : OneOfEachKind found)
    (hperm : found.Perm found') : collect found = collect found' :=
  BestByKey.best_eq_of_perm preferredOver_iff hperm fun x hx y hy hid hrank =>
    hone x hx y hy hid (Bool.not_inj hrank)

/-- The values of the map in any order, ranked. -/
def RankedSet.ofCollected (rankCandidate : ContextCandidate → SearchRanking)
    (found values : List ContextCandidate) (h : values.Perm (collect found).values) : RankedSet where
  results := values.map (ranked rankCandidate)
  distinct := by
    rw [List.map_map]
    have hids : ((collect found).values.map ContextCandidate.recordId).Nodup :=
      BestByKey.nodup_values (BestByKey.isBest_best preferredOver_iff found)
    exact (h.map ContextCandidate.recordId).nodup_iff.2 hids

/-! ### Deduplication -/

/-- A loop in which every result has a key. -/
theorem foldl_bestStep_some (key : SearchResult → String) (results : List SearchResult)
    (best : SortedMap String SearchResult) (unkeyed : List SearchResult) :
    results.foldl (bestStep (some ∘ key)) (best, unkeyed) =
      (results.foldl (fun best result => BestByKey.keep ranksBefore best (key result) result) best,
        unkeyed) := by
  induction results generalizing best with
  | nil => rfl
  | cons result results ih => exact ih (BestByKey.keep ranksBefore best (key result) result)

theorem bestByKey_some (results : List SearchResult) (key : SearchResult → String) :
    bestByKey results (some ∘ key) = (BestByKey.best ranksBefore key results).values := by
  rw [bestByKey, foldl_bestStep_some]
  exact List.nil_append _

theorem isBest_ranked (key : SearchResult → String) (results : List SearchResult) :
    BestByKey.IsBest key rankKey results (BestByKey.best ranksBefore key results) :=
  BestByKey.isBest_best ranksBefore_iff results

/-- Two deduplications of one ranking give one list. -/
theorem deduplicateCandidates_eq_of_perm {ranking ranking' : RankedSet}
    (h : ranking.results.Perm ranking'.results) :
    deduplicateCandidates ranking.results = deduplicateCandidates ranking'.results := by
  have hhash : bestByKey ranking.results (some ∘ hashKey) =
      bestByKey ranking'.results (some ∘ hashKey) := by
    rw [bestByKey_some, bestByKey_some]
    exact congrArg _ (BestByKey.best_eq_of_perm ranksBefore_iff h fun x hx y hy _ hrank =>
      ranking.rankKey_injOn x hx y hy hrank)
  rw [deduplicateCandidates, hhash, deduplicateCandidates]

theorem toLower_eq_newline {c : Char} (h : c.toLower = '\n') : c = '\n' := by
  rw [Char.toLower] at h
  split at h
  · rename_i hupper
    obtain ⟨hlow, hhigh⟩ := hupper
    rw [ge_iff_le, UInt32.le_iff_toNat_le] at hlow
    rw [UInt32.le_iff_toNat_le] at hhigh
    have hlower : (c.val + ('a'.val - 'A'.val)).toNat = c.val.toNat + 32 := by
      rw [UInt32.toNat_add]
      have hletter : 'Z'.val.toNat = 90 := rfl
      have hshift : ('a'.val - 'A'.val).toNat = 32 := rfl
      omega
    have hnewline : (c.val + ('a'.val - 'A'.val)).toNat = 10 :=
      congrArg (fun c : Char => c.val.toNat) h
    omega
  · exact h

/-- A normalized text is one line. -/
theorem newline_notMem_normalizeText (text : String) : '\n' ∉ (normalizeText text).toList := by
  rw [normalizeText, String.toList_ofList, List.mem_map]
  rintro ⟨c, hc, hlower⟩
  rw [toLower_eq_newline hlower, Text.collapseWhitespace, String.toList_intercalate] at hc
  obtain hsep | ⟨part, hpart, hmem⟩ := Text.mem_of_mem_intercalate hc
  · exact absurd hsep (by decide)
  · obtain ⟨piece, hpiece, rfl⟩ := List.mem_map.1 hpart
    obtain ⟨word, hword, rfl⟩ := List.mem_map.1 hpiece
    rw [String.toList_ofList] at hmem
    obtain ⟨-, hsolid⟩ := Text.of_mem_words hword
    exact absurd (hsolid '\n' hmem) (by decide)

/-- Results under one text key agree on the normalized title and body. -/
theorem normalizeText_of_textKey {left right : SearchResult} (h : textKey left = textKey right) :
    normalizeText left.record.title = normalizeText right.record.title ∧
      normalizeText left.record.body = normalizeText right.record.body := by
  have hchars := congrArg String.toList h
  simp only [textKey, String.toList_append, List.append_assoc, List.append_cancel_left_eq] at hchars
  obtain ⟨htitle, hbody⟩ := PrefixCode.eq_of_marked (newline_notMem_normalizeText _)
    (newline_notMem_normalizeText _) hchars
  exact ⟨String.toList_inj.1 htitle, String.toList_inj.1 hbody⟩

/-- Each candidate gives way to one with its content hash, and that one to one with its text. -/
theorem exists_covering {results : List SearchResult} {c : SearchResult} (hc : c ∈ results) :
    ∃ d ∈ results, ∃ e ∈ deduplicateCandidates results,
      hashKey d = hashKey c ∧ textKey e = textKey d ∧ rankKey d ≤ rankKey c ∧
        rankKey e ≤ rankKey d := by
  obtain ⟨d, hd, hhash, hdc⟩ := BestByKey.exists_value_le (isBest_ranked hashKey results) hc
  obtain ⟨e, he, htext, hed⟩ := BestByKey.exists_value_le (isBest_ranked textKey _) hd
  refine ⟨d, BestByKey.mem_of_mem_values (isBest_ranked hashKey results) hd, e, ?_, hhash, htext,
    hdc, hed⟩
  rw [deduplicateCandidates, bestByKey_some, bestByKey_some]
  exact he

/-! ### Selection -/

/-- What a selection holds. -/
def ContextSelection.results (selection : ContextSelection) : List SearchResult :=
  (selection.selected ++ selection.omitted).map (·.result)

/-- The loop puts every result on one of the two lists. -/
theorem results_selectFrom (budget : Nat) (results : List SearchResult) (used : Nat)
    (selection : ContextSelection) :
    (selectFrom budget results used selection).results.Perm (selection.results ++ results) := by
  induction results generalizing used selection with
  | nil => rw [selectFrom, List.append_nil]
  | cons result results ih =>
      simp only [selectFrom]
      split
      · refine (ih _ _).trans ?_
        simp only [ContextSelection.results, List.map_append, List.append_assoc, List.map_cons,
          List.map_nil]
        refine List.Perm.append_left _ ?_
        exact (List.perm_append_comm_assoc _ _ _).trans (List.Perm.refl _)
      · refine (ih _ _).trans ?_
        simp [ContextSelection.results]

/-- Every item carries the estimate of its result. -/
theorem estimatedSize_selectFrom {budget : Nat} {results : List SearchResult} {used : Nat}
    {selection : ContextSelection}
    (h : ∀ item ∈ selection.selected, item.estimatedSize = estimateResult item.result) :
    ∀ item ∈ (selectFrom budget results used selection).selected,
      item.estimatedSize = estimateResult item.result := by
  induction results generalizing used selection with
  | nil => exact h
  | cons result results ih =>
      simp only [selectFrom]
      split
      · refine ih fun item hitem => ?_
        rcases List.mem_append.1 hitem with hitem | hitem
        · exact h item hitem
        · rw [List.mem_singleton.1 hitem]
      · exact ih h

theorem estimatedSize_contextSelection {input : ContextPackInput} {results : List SearchResult} :
    ∀ item ∈ (contextSelection input results).selected,
      item.estimatedSize = estimateResult item.result := by
  rw [contextSelection, selectForBudget]
  exact estimatedSize_selectFrom fun item hitem => absurd hitem List.not_mem_nil

theorem mem_contextSelection {input : ContextPackInput} {results : List SearchResult}
    {result : SearchResult} : result ∈ (contextSelection input results).results ↔
      result ∈ deduplicateCandidates results := by
  rw [contextSelection, selectForBudget, (results_selectFrom _ _ _ _).mem_iff, sortedCandidates]
  simp [ContextSelection.results]

/-! ### The prompt -/

/-- The words of a rendered prompt are those of its lines. -/
theorem words_promptLines (lines : List String) :
    estimateWords ("\n".intercalate lines) = (lines.map estimateWords).sum := by
  have hnewline : "\n".toList = [ '\n'] := rfl
  rw [estimateWords, String.toList_intercalate, hnewline, Text.words_intercalate rfl,
    List.length_flatMap, List.map_map]
  rfl

/-- The words a prompt needs: the header and the line and source of each record. -/
def neededWords (results : List SearchResult) (citations : List MemoryCitation) : Nat :=
  3 + ((results.zipWith renderLine citations).map estimateWords).sum

theorem words_rendered (results : List SearchResult) (citations : List MemoryCitation) :
    estimateWords ("\n".intercalate (promptLines results citations)) =
      neededWords results citations := by
  rw [words_promptLines, promptLines, List.map_cons, List.sum_cons, neededWords]
  rfl

theorem words_truncateWords (text : String) (budget : Nat) :
    estimateWords (truncateWords text budget) ≤ budget := by
  rw [truncateWords]
  split
  · assumption
  · rw [estimateWords, String.toList_ofList, Text.words_intercalate_take]
    exact List.length_take_le _ _

/-- The prompt holds at most the budget, and is cut exactly when it needs more. -/
theorem renderPrompt_spec (results : List SearchResult) (citations : List MemoryCitation)
    (budget : Nat) :
    let rendered := renderPrompt results citations budget
    estimateWords rendered.1 ≤ budget ∧
      (rendered.2.2 = true ↔ budget < neededWords results citations) ∧
      (rendered.2.2 = false →
        rendered.1 = "\n".intercalate (promptLines results citations)) := by
  intro rendered
  rw [← words_rendered]
  by_cases hfits : estimateWords ("\n".intercalate (promptLines results citations)) ≤ budget
  · have hwhole : rendered = ("\n".intercalate (promptLines results citations),
        estimateWords ("\n".intercalate (promptLines results citations)), false) := by
      simp [rendered, renderPrompt, hfits]
    rw [hwhole]
    exact ⟨hfits, iff_of_false (by simp) (not_lt.2 hfits), fun _ => rfl⟩
  · have hcut : rendered = (truncateWords ("\n".intercalate (promptLines results citations)) budget,
        estimateWords (truncateWords ("\n".intercalate (promptLines results citations)) budget),
        true) := by
      simp [rendered, renderPrompt, hfits]
    rw [hcut]
    exact ⟨words_truncateWords _ _, iff_of_true rfl (not_le.1 hfits), nofun⟩

/-! ### What the estimate leaves out -/

/-- An id without white space, a title that ends in a word, and a source of at most two words. -/
structure PlainLine (result : SearchResult) (citation : MemoryCitation) : Prop where
  id : Text.Solid citation.recordId.toList
  title : ∃ c ∈ result.record.title.toList.getLast?, Text.isWhitespace c = false
  source : estimateWords (citedSource result citation) ≤ 2

theorem estimateWords_spaced (before after : String) :
    estimateWords (before ++ (" " ++ after)) = estimateWords before + estimateWords after := by
  have hspace : (" " ++ after).toList = ' ' :: after.toList := String.toList_append
  rw [estimateWords, String.toList_append, hspace, Text.words_append_cons rfl, List.length_append]
  rfl

/-- The texts around the fields of a line, taken apart at their white space. -/
theorem regroup {opening marker closing colon label : String}
    (recordId memoryType provenance destination scope title body source : String)
    (hopening : opening = "-" ++ " " ++ "[") (hmarker : marker = "]" ++ " " ++ "(")
    (hclosing : closing = ")" ++ " ") (hcolon : colon = ":" ++ " ")
    (hlabel : label = "\n " ++ " " ++ "Source:" ++ " ") :
    opening ++ recordId ++ marker ++ memoryType ++ "/provenance=" ++ provenance ++
        "/destination=" ++ destination ++ "/scope=" ++ scope ++ closing ++ title ++ colon ++ body ++
        label ++ source =
      "-" ++ (" " ++ (("[" ++ recordId ++ "]") ++ (" " ++ (("(" ++ (memoryType ++ "/provenance=" ++
        provenance ++ "/destination=" ++ destination ++ "/scope=" ++ scope) ++ ")") ++ (" " ++
        ((title ++ ":") ++ (" " ++ (body ++ ("\n " ++ (" " ++ ("Source:" ++ (" " ++
          source)))))))))))) := by
  subst hopening hmarker hclosing hcolon hlabel
  simp only [-String.reduceAppend, String.append_assoc]

/-- The bracketed facts of a line. -/
def lineFacts (result : SearchResult) (citation : MemoryCitation) : String :=
  result.record.memoryType.asStr ++ "/provenance=" ++ citation.provenance.asStr ++
    "/destination=" ++ citation.destination.asStr ++ "/scope=" ++ result.record.scopeKind.asStr

/-- A line with the white space between its parts in sight. -/
theorem renderLine_eq (result : SearchResult) (citation : MemoryCitation) :
    renderLine result citation =
      "-" ++ (" " ++ (("[" ++ citation.recordId ++ "]") ++ (" " ++ (("(" ++
        lineFacts result citation ++ ")") ++ (" " ++ ((result.record.title ++ ":") ++ (" " ++
        (result.record.body ++ ("\n " ++ (" " ++ ("Source:" ++ (" " ++
        citedSource result citation)))))))))))) :=
  regroup citation.recordId _ _ _ _ result.record.title result.record.body
    (citedSource result citation) (by decide) (by decide) (by decide) (by decide) (by decide)

/-- The bracketed facts of a line are one word. -/
theorem solid_lineFacts (result : SearchResult) (citation : MemoryCitation) :
    Text.Solid (lineFacts result citation).toList := by
  have htype : Text.Solid result.record.memoryType.asStr.toList := by
    cases result.record.memoryType <;> decide
  have hprovenance : Text.Solid citation.provenance.asStr.toList := by
    cases citation.provenance <;> decide
  have hdestination : Text.Solid citation.destination.asStr.toList := by
    cases citation.destination <;> decide
  have hscope : Text.Solid result.record.scopeKind.asStr.toList := by
    cases result.record.scopeKind <;> decide
  simp only [lineFacts, String.toList_append, Text.solid_append]
  refine ⟨⟨⟨⟨⟨⟨htype, ?_⟩, hprovenance⟩, ?_⟩, hdestination⟩, ?_⟩, hscope⟩ <;> decide

theorem estimateWords_solid {text : String} (h : Text.Solid text.toList) (hne : text.toList ≠ []) :
    estimateWords text = 1 := by
  rw [estimateWords, Text.words_of_solid h hne, List.length_singleton]

/-- The words of a plain line. -/
theorem words_renderLine {result : SearchResult} {citation : MemoryCitation}
    (h : PlainLine result citation) : estimateWords (renderLine result citation) =
      estimateWords result.record.title + estimateWords result.record.body + 4 +
        estimateWords (citedSource result citation) := by
  obtain ⟨c, hlast, hc⟩ := h.title
  have hdash : estimateWords "-" = 1 := by decide
  have hid : estimateWords ("[" ++ citation.recordId ++ "]") = 1 := by
    refine estimateWords_solid ?_ (by simp)
    rw [String.toList_append, String.toList_append]
    exact Text.solid_append.2 ⟨Text.solid_append.2 ⟨by decide, h.id⟩, by decide⟩
  have hfacts : estimateWords ("(" ++ lineFacts result citation ++ ")") = 1 := by
    refine estimateWords_solid ?_ (by simp)
    rw [String.toList_append, String.toList_append]
    exact Text.solid_append.2
      ⟨Text.solid_append.2 ⟨by decide, solid_lineFacts result citation⟩, by decide⟩
  have htitle : estimateWords (result.record.title ++ ":") = estimateWords result.record.title := by
    rw [estimateWords, String.toList_append]
    exact Text.length_words_append_solid hlast hc (by decide)
  have hbody : estimateWords (result.record.body ++ ("\n " ++ (" " ++ ("Source:" ++ (" " ++
      citedSource result citation))))) = estimateWords result.record.body + 1 +
        estimateWords (citedSource result citation) := by
    have hline : result.record.body ++ ("\n " ++ (" " ++ ("Source:" ++ (" " ++
        citedSource result citation)))) = (result.record.body ++ "\n ") ++ (" " ++ ("Source:" ++
          (" " ++ citedSource result citation))) := by
      simp only [String.append_assoc]
    have hbreak : estimateWords (result.record.body ++ "\n ") = estimateWords result.record.body := by
      have hchars : (result.record.body ++ "\n ").toList = result.record.body.toList ++ '\n' :: [ ' '] :=
        String.toList_append
      rw [estimateWords, hchars, Text.words_append_cons rfl]
      simp [Text.words_cons (c := ' ') rfl, estimateWords]
    have hlabel : estimateWords "Source:" = 1 := by decide
    rw [hline, estimateWords_spaced, estimateWords_spaced, hbreak, hlabel]
    omega
  rw [renderLine_eq, estimateWords_spaced, estimateWords_spaced, estimateWords_spaced,
    estimateWords_spaced, hdash, hid, hfacts, htitle, hbody]
  omega

/-- A plain line has no more words than its estimate. -/
theorem words_zipWith_renderLine {results : List SearchResult} {citations : List MemoryCitation}
    (h : ∀ shown ∈ results.zip citations, PlainLine shown.1 shown.2) :
    ((results.zipWith renderLine citations).map estimateWords).sum ≤
      (results.map estimateResult).sum := by
  induction results generalizing citations with
  | nil => exact Nat.le_refl 0
  | cons result results ih =>
      cases citations with
      | nil => exact Nat.zero_le _
      | cons citation citations =>
          have hline : PlainLine result citation := h (result, citation) List.mem_cons_self
          have hrest := ih fun shown hshown => h shown (List.mem_cons_of_mem _ hshown)
          have hwords := words_renderLine hline
          have hsource := hline.source
          simp only [List.zipWith_cons_cons, List.map_cons, List.sum_cons]
          rw [hwords, estimateResult]
          omega

/-! ### The pack -/

theorem hash_of_hashKey {left right : SearchResult} (h : hashKey left = hashKey right) :
    left.record.contentHash = right.record.contentHash := by
  have hchars := congrArg String.toList h
  simp only [hashKey, String.toList_append, List.append_cancel_left_eq] at hchars
  exact String.toList_inj.1 hchars

/-- The parts of a pack. -/
theorem buildContextPack_spec {input : ContextPackInput} {results : List SearchResult}
    {pack : ContextPack} (h : buildContextPack input results = .ok pack) :
    pack.records = (contextSelection input results).selected.map (·.result) ∧
      mapAll primaryCitation pack.records = .ok pack.citations ∧
      pack.included = (contextSelection input results).selected.zipWith includedItem
        pack.citations ∧
      pack.prompt = (renderPrompt pack.records pack.citations (effectiveBudget input)).1 ∧
      pack.budget.truncated =
        (renderPrompt pack.records pack.citations (effectiveBudget input)).2.2 := by
  obtain ⟨citations, hcitations, hpack⟩ := bind_eq_ok.1 h
  cases hpack
  simpa only [assemblePack_records, assemblePack_citations, assemblePack_included,
    assemblePack_prompt, assemblePack_truncated, true_and, and_true] using hcitations

/-- The estimated sizes in a pack are the estimates of its records. -/
theorem estimatedSize_included {input : ContextPackInput} {results : List SearchResult}
    {pack : ContextPack} (h : buildContextPack input results = .ok pack) :
    pack.included.map (·.estimatedSize) = pack.records.map estimateResult := by
  obtain ⟨hrecords, hcitations, hincluded, -, -⟩ := buildContextPack_spec h
  have hlength := (mapAll_eq_ok.1 hcitations).length_eq
  rw [hrecords, List.length_map] at hlength
  have hsizes : (contextSelection input results).selected.map (·.estimatedSize) =
      (contextSelection input results).selected.map fun item => estimateResult item.result :=
    List.map_congr_left estimatedSize_contextSelection
  have hitems : pack.included.map (·.estimatedSize) =
      ((contextSelection input results).selected.zip pack.citations).map fun shown =>
        shown.1.estimatedSize := by
    rw [hincluded, ← List.map_uncurry_zip_eq_zipWith, List.map_map]
    rfl
  rw [hitems, hrecords, List.map_map]
  calc
    _ = (((contextSelection input results).selected.zip pack.citations).map Prod.fst).map
          (·.estimatedSize) := by
        rw [List.map_map]
        rfl
    _ = _ := by
        rw [List.map_fst_zip hlength.le, hsizes]
        rfl

/-- The pack does not depend on the order of the ranking. -/
theorem buildContextPack_eq_of_perm {input : ContextPackInput} {ranking ranking' : RankedSet}
    (h : ranking.results.Perm ranking'.results) :
    buildContextPack input ranking.results = buildContextPack input ranking'.results := by
  have hsorted : sortedCandidates ranking.results = sortedCandidates ranking'.results := by
    rw [sortedCandidates, deduplicateCandidates_eq_of_perm h, sortedCandidates]
  simp only [buildContextPack, contextSelection, hsorted]

/-- **What a context pack shows**: the prompt holds at most the budget, the pack depends neither on
the order of the ranking nor on the order in which the candidates were collected, what is dropped
gives way in two steps to something selected or left out by the budget, and the prompt is whole
exactly when the header and the lines fit, as they do when the estimated sizes leave three words for
the header and every line is plain. -/
theorem contextPack_shows_selection {input : ContextPackInput} {ranking : RankedSet}
    {pack : ContextPack} (h : buildContextPack input ranking.results = .ok pack) :
    estimateWords pack.prompt ≤ effectiveBudget input ∧
      (∀ ranking' : RankedSet, ranking'.results.Perm ranking.results →
        buildContextPack input ranking'.results = .ok pack) ∧
      (∀ (rankCandidate : ContextCandidate → SearchRanking)
        (found found' values values' : List ContextCandidate)
        (hvalues : values.Perm (collect found).values)
        (hvalues' : values'.Perm (collect found').values), OneOfEachKind found → found.Perm found' →
          buildContextPack input (RankedSet.ofCollected rankCandidate found values hvalues).results =
            buildContextPack input
              (RankedSet.ofCollected rankCandidate found' values' hvalues').results) ∧
      (∀ c ∈ ranking.results, c ∉ (contextSelection input ranking.results).results →
        ∃ d ∈ ranking.results, ∃ e ∈ (contextSelection input ranking.results).results,
          d.record.contentHash = c.record.contentHash ∧
            normalizeText e.record.title = normalizeText d.record.title ∧
            normalizeText e.record.body = normalizeText d.record.body ∧
            compareRankedResults d c ≠ .gt ∧ compareRankedResults e d ≠ .gt) ∧
      (pack.budget.truncated = true ↔
        effectiveBudget input < neededWords pack.records pack.citations) ∧
      (pack.budget.truncated = false → ∀ shown ∈ pack.records.zip pack.citations,
        (renderLine shown.1 shown.2).toList <:+: pack.prompt.toList) ∧
      ((∀ shown ∈ pack.records.zip pack.citations, PlainLine shown.1 shown.2) →
        (pack.included.map (·.estimatedSize)).sum + 3 ≤ effectiveBudget input →
        pack.budget.truncated = false) := by
  obtain ⟨hrecords, hcitations, -, hprompt, htruncated⟩ := buildContextPack_spec h
  obtain ⟨hwords, hcut, hwhole⟩ :=
    renderPrompt_spec pack.records pack.citations (effectiveBudget input)
  rw [← hprompt, ← htruncated] at hwhole
  rw [← hprompt] at hwords
  rw [← htruncated] at hcut
  refine ⟨hwords, fun ranking' hperm => ?_, ?_, ?_, hcut, ?_, ?_⟩
  · rw [buildContextPack_eq_of_perm hperm, h]
  · intro rankCandidate found found' values values' hvalues hvalues' hone hperm
    refine buildContextPack_eq_of_perm (List.Perm.map _ ?_)
    rw [collect_eq_of_perm hone hperm] at hvalues
    exact hvalues.trans hvalues'.symm
  · intro c hc _
    obtain ⟨d, hd, e, he, hhash, htext, hdc, hed⟩ := exists_covering hc
    obtain ⟨htitle, hbody⟩ := normalizeText_of_textKey htext
    exact ⟨d, hd, e, mem_contextSelection.2 he, hash_of_hashKey hhash, htitle, hbody,
      compareRankedResults_ne_gt.2 hdc, compareRankedResults_ne_gt.2 hed⟩
  · rintro hfull ⟨result, citation⟩ hshown
    rw [hwhole hfull, String.toList_intercalate]
    refine Text.infix_intercalate (List.mem_map_of_mem (List.mem_cons_of_mem _ ?_))
    rw [← List.map_uncurry_zip_eq_zipWith]
    exact List.mem_map.2 ⟨(result, citation), hshown, rfl⟩
  · intro hplain hsizes
    rw [estimatedSize_included h] at hsizes
    have hlines := words_zipWith_renderLine hplain
    rw [← Bool.not_eq_true, hcut, neededWords]
    omega

/-! ### A chain of duplicates -/

/-- A repository decision found by a search. -/
def deployNote (id title body contentHash : String) (score : F64) : SearchResult where
  record :=
    { id, memoryType := .decision, lane := .semantic, destination := .repo, scopeKind := .repo
      scopeId := none, visibility := .repo, title, body, status := .active, confidence := 1
      sourceKind := none, sourceRef := none, proposalId := none
      retention := ⟨none, none, none, none, none, none⟩, origin := ⟨"deploy", .repositoryMaterialization⟩
      lineage := none, contentHash, createdAt := "2026-01-01T00:00:00Z"
      updatedAt := "2026-01-01T00:00:00Z", supersedesId := none }
  score
  snippet := none
  rationale := none
  ranking := none
  paths := []
  citations := []

/-- Two decisions with one body, and one with the title of the second and another spacing. -/
def deployNotes : RankedSet where
  results :=
    [deployNote "rec-1" "Notes" "Go blue."
        "6557dee8c1b97d4e3b7b3b65d2f999bf96bfef6c068bccbcf2a03322352b25af" ⟨0x3ff0000000000000⟩,
      deployNote "rec-2" "Plan" "Go blue."
        "6557dee8c1b97d4e3b7b3b65d2f999bf96bfef6c068bccbcf2a03322352b25af" ⟨0x4000000000000000⟩,
      deployNote "rec-3" "Plan" "Go  blue."
        "8f31543711591fbf36d658419a518171bb5b47a5253712b77db2c85e8acc4242" ⟨0x4008000000000000⟩]
  distinct := by decide

def deployRequest (tokenBudget : Nat) : ContextPackInput :=
  ⟨"deploy", none, some tokenBudget, false, false⟩

/-- With three words more than the estimate, the one record that is left is shown whole. -/
theorem deploy_plan_shown : ∃ pack, buildContextPack (deployRequest 12) deployNotes.results = .ok pack ∧
    pack.budget.truncated = false ∧
    ∀ shown ∈ pack.records.zip pack.citations,
      (renderLine shown.1 shown.2).toList <:+: pack.prompt.toList := by
  obtain ⟨pack, hpack, hwhole⟩ := ok_of_any
    (show (buildContextPack (deployRequest 12) deployNotes.results).toOption.any
      (fun pack => !pack.budget.truncated) = true by decide +kernel)
  rw [Bool.not_eq_true'] at hwhole
  exact ⟨pack, hpack, hwhole, (contextPack_shows_selection hpack).2.2.2.2.2.1 hwhole⟩

/-- The notes are dropped though nothing that is kept has their content hash or their text, and the
prompt is cut though the estimated sizes fit the budget. -/
theorem deploy_notes_lost : ∃ pack, buildContextPack (deployRequest 9) deployNotes.results = .ok pack ∧
    (∃ c ∈ deployNotes.results,
      c ∉ (contextSelection (deployRequest 9) deployNotes.results).results ∧
        ∀ e ∈ (contextSelection (deployRequest 9) deployNotes.results).results,
          e.record.contentHash ≠ c.record.contentHash ∧
            ¬ (normalizeText e.record.title = normalizeText c.record.title ∧
              normalizeText e.record.body = normalizeText c.record.body)) ∧
    (pack.included.map (·.estimatedSize)).sum ≤ effectiveBudget (deployRequest 9) ∧
    pack.budget.truncated = true := by
  obtain ⟨pack, hpack, hcheck⟩ := ok_of_any
    (show (buildContextPack (deployRequest 9) deployNotes.results).toOption.any
      (fun pack => decide ((pack.included.map (·.estimatedSize)).sum ≤ 9) && pack.budget.truncated) =
        true by decide +kernel)
  rw [Bool.and_eq_true, decide_eq_true_eq] at hcheck
  exact ⟨pack, hpack, by decide +kernel, hcheck⟩

end Search
end Memzoi
