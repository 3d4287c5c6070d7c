/-
# When a precheck loses a warning

Source: `precheck.rs` (`precheck_at_with_audit`, `compare_precheck_candidates`).

The merged candidates are the expected records, with a path all of them and
without one those that the search does not cut off, and each carries the scores
that it is reached with. The warnings are the first of these, so they are the
first expected ones unless a record that is cut off would have been one of them.
-/

import Memzoi.Search.GovernanceRecall

namespace Memzoi
namespace Search

open Fallible

/-! ### The order of candidates -/

abbrev PrecheckKey : Type := ℕᵒᵈ ×ₗ Boolᵒᵈ ×ₗ F64ᵒᵈ ×ₗ ℕᵒᵈ ×ₗ ℚᵒᵈ ×ₗ Stringᵒᵈ ×ₗ String

/-- Scores, priority, confidence and time from high to low, then the id. -/
def precheckKey (candidate : PrecheckCandidate) : PrecheckKey :=
  toLex (OrderDual.toDual candidate.pathScore,
    toLex (OrderDual.toDual candidate.lexicalScore.isSome,
      toLex (OrderDual.toDual (candidate.lexicalScore.getD ⟨0⟩),
        toLex (OrderDual.toDual (governancePriority candidate.result.record.memoryType),
          toLex (OrderDual.toDual candidate.result.record.confidence,
            toLex (OrderDual.toDual candidate.result.record.updatedAt,
              candidate.result.record.id))))))

theorem comparePrecheckCandidates_eq (left right : PrecheckCandidate) :
    comparePrecheckCandidates left right = compare (precheckKey left) (precheckKey right) := rfl

theorem comparePrecheckCandidates_ne_gt {left right : PrecheckCandidate} :
    comparePrecheckCandidates left right ≠ .gt ↔ precheckKey left ≤ precheckKey right := by
  rw [comparePrecheckCandidates_eq, ← compare_le_iff_le]

theorem comparePrecheckCandidates_eq_lt {left right : PrecheckCandidate} :
    comparePrecheckCandidates left right = .lt ↔ precheckKey left < precheckKey right := by
  rw [comparePrecheckCandidates_eq, compare_lt_iff_lt]

theorem id_eq_of_precheckKey {left right : PrecheckCandidate}
    (h : precheckKey left = precheckKey right) :
    left.result.record.id = right.result.record.id :=
  congrArg (fun key : PrecheckKey =>
    (ofLex (ofLex (ofLex (ofLex (ofLex (ofLex key).2).2).2).2).2).2) h

/-! ### The merged candidates -/

/-- What a result of the search makes of the entry under its id. -/
def lexicalEntry (result : SearchResult) : Option PrecheckCandidate → PrecheckCandidate
  | some candidate =>
    { candidate with
      lexicalScore := some ((candidate.lexicalScore.map (·.max result.score)).getD result.score) }
  | none => ⟨result, 0, some result.score⟩

theorem get?_insertPathCandidate (candidates : SortedMap String PrecheckCandidate)
    (found : SearchResult × Nat) (id : String) : (insertPathCandidate candidates found).get? id =
      if found.1.record.id = id then some ⟨found.1, found.2, none⟩ else candidates.get? id :=
  SortedMap.get?_insert candidates found.1.record.id id _

theorem get?_insertLexicalCandidate (candidates : SortedMap String PrecheckCandidate)
    (result : SearchResult) (id : String) : (insertLexicalCandidate candidates result).get? id =
      if result.record.id = id then some (lexicalEntry result (candidates.get? id))
      else candidates.get? id := by
  unfold insertLexicalCandidate
  cases hget : candidates.get? result.record.id with
  | none =>
      refine (SortedMap.get?_insert candidates result.record.id id _).trans ?_
      by_cases hid : result.record.id = id
      · rw [if_pos hid, if_pos hid, ← hid, hget]
        rfl
      · rw [if_neg hid, if_neg hid]
  | some candidate =>
      refine (SortedMap.get?_insert candidates result.record.id id _).trans ?_
      by_cases hid : result.record.id = id
      · rw [if_pos hid, if_pos hid, ← hid, hget]
        rfl
      · rw [if_neg hid, if_neg hid]

/-- The entry under an id: the one of the path query, with the score of the search. -/
theorem get?_mergeCandidates {byPath : List (SearchResult × Nat)} {byText : List SearchResult}
    (hpath : (byPath.map (·.1.record.id)).Nodup)
    (htext : ((byText.filter fun result => isGovernanceMemory result.record).map
      (·.record.id)).Nodup) (id : String) :
    (mergeCandidates byPath byText).get? id =
      match (byText.filter fun result => isGovernanceMemory result.record).find?
          (fun result => result.record.id = id) with
      | some result => some (lexicalEntry result ((byPath.find? fun found =>
          found.1.record.id = id).map fun found => ⟨found.1, found.2, none⟩))
      | none => (byPath.find? fun found => found.1.record.id = id).map fun found =>
          ⟨found.1, found.2, none⟩ := by
  have hfirst : (byPath.foldl insertPathCandidate .empty).get? id =
      (byPath.find? fun found => found.1.record.id = id).map fun found =>
        (⟨found.1, found.2, none⟩ : PrecheckCandidate) := by
    rw [SortedMap.get?_foldl_update (fun found : SearchResult × Nat => found.1.record.id)
      (fun found _ => ⟨found.1, found.2, none⟩) get?_insertPathCandidate hpath]
    cases byPath.find? fun found => found.1.record.id = id <;> rfl
  rw [mergeCandidates, SortedMap.get?_foldl_update _ lexicalEntry get?_insertLexicalCandidate htext,
    hfirst]
  cases (byText.filter fun result => isGovernanceMemory result.record).find?
    (fun result => result.record.id = id) <;> rfl

theorem prop_of_find? {β : Type} {p : β → Prop} [DecidablePred p] {bs : List β} {b : β}
    (h : bs.find? (fun b => decide (p b)) = some b) : p b :=
  of_decide_eq_true (List.find?_some (p := fun b => decide (p b)) h)

section Merged

variable [Text.Unicode] [FullText] {db : Db} {input : PrecheckInput} {evaluatedAt : String}

/-- The record is a candidate of the precheck. -/
def reached (db : Db) (input : PrecheckInput) (evaluatedAt : String) (record : MemoryRecord) : Prop :=
  (normalizedPath input.path).isSome = true ∨ cutOff db input evaluatedAt record = false

theorem eq_of_id {x y : MemoryRecord} (hx : x ∈ expectedRecords db input evaluatedAt)
    (hy : y ∈ expectedRecords db input evaluatedAt) (h : x.id = y.id) : x = y :=
  Table.eq_of_key (mem_governanceRecords.1 (mem_expectedRecords.1 hx).1).1
    (mem_governanceRecords.1 (mem_expectedRecords.1 hy).1).1 h

omit [Text.Unicode] [FullText] in
theorem pathScoreOf_none (hpath : normalizedPath input.path = none) (record : MemoryRecord) :
    pathScoreOf db input record = 0 := by
  rw [pathScoreOf, hpath]

/-- What a merged candidate says about its record. -/
structure IsCandidate (db : Db) (input : PrecheckInput) (evaluatedAt : String)
    (candidate : PrecheckCandidate) : Prop where
  expected : candidate.result.record ∈ expectedRecords db input evaluatedAt
  reached : reached db input evaluatedAt candidate.result.record
  key : precheckKey candidate =
    precheckKey (reachedCandidate db input evaluatedAt candidate.result.record)
  cites : ∀ path, normalizedPath input.path = some path →
    CitesBest db path candidate.result.record.id candidate.result.citations

omit [Text.Unicode] [FullText] in
theorem key_of_scores {candidate : PrecheckCandidate} {lexicalScore : Option F64}
    (hscore : candidate.pathScore = pathScoreOf db input candidate.result.record)
    (hlexical : candidate.lexicalScore = lexicalScore) :
    precheckKey candidate = precheckKey (plainCandidate candidate.result.record
      (pathScoreOf db input candidate.result.record) lexicalScore) := by
  rw [← hscore, ← hlexical]
  rfl

/-- A candidate of the path query that the search did not score. -/
theorem isCandidate_path (hagree : NormalizationsAgree db input evaluatedAt)
    {byPath : List (SearchResult × Nat)} {byText : List SearchResult}
    (hpath : pathCandidates db input evaluatedAt = .ok byPath)
    (htext : lexicalResults db input evaluatedAt = .ok byText) {found : SearchResult × Nat}
    (hfound : found ∈ byPath)
    (hnone : (byText.filter fun result => isGovernanceMemory result.record).find?
      (fun result => result.record.id = found.1.record.id) = none) :
    IsCandidate db input evaluatedAt ⟨found.1, found.2, none⟩ := by
  obtain ⟨-, hspec, -⟩ := pathCandidates_spec hagree hpath
  obtain ⟨-, -, hall⟩ := lexicalResults_spec htext
  obtain ⟨hexpected, hscore, hcites⟩ := hspec found hfound
  have hgiven : (normalizedPath input.path).isSome = true := by
    cases hnormal : normalizedPath input.path with
    | some path => rfl
    | none =>
        rw [pathCandidates, hnormal] at hpath
        cases hpath
        cases hfound
  have hunscored : (textRank db input found.1.record).isSome = false ∨
      cutOff db input evaluatedAt found.1.record = true := by
    by_contra hnot
    rw [not_or, Bool.not_eq_false, Bool.not_eq_true] at hnot
    obtain ⟨result, hresult, hrecord⟩ := hall found.1.record hexpected hnot.1 hnot.2
    have hmiss := List.find?_eq_none.1 hnone result hresult
    rw [hrecord] at hmiss
    exact hmiss (decide_eq_true rfl)
  refine ⟨hexpected, Or.inl hgiven, ?_, hcites⟩
  rw [reachedCandidate]
  split
  · exact key_of_scores hscore rfl
  · rename_i hkept
    have hrank : textRank db input found.1.record = none := by
      rw [← Option.not_isSome_iff_eq_none]
      rcases hunscored with hrank | hcut
      · rw [hrank]
        exact Bool.false_ne_true
      · exact absurd hcut hkept
    rw [fullCandidate, hrank]
    exact key_of_scores hscore rfl

/-- A candidate that the search scored. -/
theorem isCandidate_text (hagree : NormalizationsAgree db input evaluatedAt)
    {byPath : List (SearchResult × Nat)} {byText : List SearchResult}
    (hpath : pathCandidates db input evaluatedAt = .ok byPath)
    (htext : lexicalResults db input evaluatedAt = .ok byText) {result : SearchResult}
    (hresult : result ∈ byText.filter fun result => isGovernanceMemory result.record) :
    IsCandidate db input evaluatedAt (lexicalEntry result ((byPath.find? fun found =>
      found.1.record.id = result.record.id).map fun found => ⟨found.1, found.2, none⟩)) := by
  obtain ⟨-, hspec, hcovers⟩ := pathCandidates_spec hagree hpath
  obtain ⟨-, hscored, -⟩ := lexicalResults_spec htext
  obtain ⟨hexpected, hkept, hrank⟩ := hscored result hresult
  have hreached : reachedCandidate db input evaluatedAt result.record =
      fullCandidate db input result.record := by
    rw [reachedCandidate, hkept]
    rfl
  cases hfind : byPath.find? fun found => found.1.record.id = result.record.id with
  | none =>
      have hnormal : normalizedPath input.path = none := by
        cases hnormal : normalizedPath input.path with
        | none => rfl
        | some path =>
            obtain ⟨found, hfound, hrecord⟩ := hcovers path hnormal result.record hexpected
            have hmiss := List.find?_eq_none.1 hfind found hfound
            rw [hrecord] at hmiss
            exact absurd (decide_eq_true rfl) hmiss
      refine ⟨hexpected, Or.inr hkept, ?_, fun path hpath' => ?_⟩
      · show precheckKey ⟨result, 0, some result.score⟩ =
          precheckKey (reachedCandidate db input evaluatedAt result.record)
        rw [hreached, fullCandidate, hrank]
        exact key_of_scores (pathScoreOf_none hnormal result.record).symm rfl
      · rw [hnormal] at hpath'
        cases hpath'
  | some found =>
      obtain ⟨hexpected', hscore, hcites⟩ := hspec found (List.mem_of_find?_eq_some hfind)
      have hid := prop_of_find? hfind
      have hrecord : found.1.record = result.record := eq_of_id hexpected' hexpected hid
      have hreached' : reached db input evaluatedAt found.1.record := by
        rw [hrecord]
        exact Or.inr hkept
      refine ⟨hexpected', hreached', ?_, hcites⟩
      show precheckKey ⟨found.1, found.2, some result.score⟩ =
        precheckKey (reachedCandidate db input evaluatedAt found.1.record)
      rw [hrecord, hreached, fullCandidate, hrank, ← hrecord]
      exact key_of_scores hscore rfl

/-- The merged candidates are those of the expected records that are reached, each once. -/
theorem mergeCandidates_spec (hagree : NormalizationsAgree db input evaluatedAt)
    {byPath : List (SearchResult × Nat)} {byText : List SearchResult}
    (hpath : pathCandidates db input evaluatedAt = .ok byPath)
    (htext : lexicalResults db input evaluatedAt = .ok byText) :
    ((mergeCandidates byPath byText).values.map (·.result.record.id)).Nodup ∧
      (∀ candidate ∈ (mergeCandidates byPath byText).values,
        IsCandidate db input evaluatedAt candidate) ∧
      ∀ record ∈ expectedRecords db input evaluatedAt, reached db input evaluatedAt record →
        ∃ candidate ∈ (mergeCandidates byPath byText).values, candidate.result.record = record := by
  obtain ⟨hpathIds, hspec, hcovers⟩ := pathCandidates_spec hagree hpath
  obtain ⟨htextIds, hscored, hall⟩ := lexicalResults_spec htext
  have hget := get?_mergeCandidates hpathIds htextIds
  have hentry : ∀ id candidate, (mergeCandidates byPath byText).get? id = some candidate →
      candidate.result.record.id = id ∧ IsCandidate db input evaluatedAt candidate := by
    intro id candidate hcandidate
    rw [hget] at hcandidate
    split at hcandidate
    · rename_i result hfind
      have hid := prop_of_find? hfind
      subst hid
      have hcandidate' := isCandidate_text hagree hpath htext (List.mem_of_find?_eq_some hfind)
      rw [Option.some.inj hcandidate] at hcandidate'
      refine ⟨?_, hcandidate'⟩
      rw [← Option.some.inj hcandidate]
      cases hfound : byPath.find? fun found => found.1.record.id = result.record.id with
      | none => rfl
      | some found =>
          have hid := prop_of_find? hfound
          exact hid
    · rename_i hnone
      obtain ⟨found, hfound, rfl⟩ := Option.map_eq_some_iff.1 hcandidate
      have hid := prop_of_find? hfound
      subst hid
      exact ⟨rfl, isCandidate_path hagree hpath htext (List.mem_of_find?_eq_some hfound) hnone⟩
  refine ⟨SortedMap.nodup_map_values fun id candidate h => (hentry id candidate h).1, ?_, ?_⟩
  · intro candidate hcandidate
    obtain ⟨id, hid⟩ := SortedMap.mem_values.1 hcandidate
    exact (hentry id candidate hid).2
  · intro record hrecord hreached
    have hsome : ∃ candidate, (mergeCandidates byPath byText).get? record.id = some candidate := by
      rw [hget]
      split
      · exact ⟨_, rfl⟩
      · rename_i hnone
        cases hnormal : normalizedPath input.path with
        | some path =>
            obtain ⟨found, hfound, hrecord'⟩ := hcovers path hnormal record hrecord
            cases hfind : byPath.find? fun found => found.1.record.id = record.id with
            | some found' => exact ⟨_, rfl⟩
            | none =>
                have hmiss := List.find?_eq_none.1 hfind found hfound
                rw [hrecord'] at hmiss
                exact absurd (decide_eq_true rfl) hmiss
        | none =>
            have hkept : cutOff db input evaluatedAt record = false := by
              rcases hreached with hgiven | hkept
              · rw [hnormal] at hgiven
                cases hgiven
              · exact hkept
            have hmatch := (mem_expectedRecords.1 hrecord).2
            rw [matchesInput, hnormal] at hmatch
            obtain ⟨result, hresult, hrecord'⟩ := hall record hrecord hmatch hkept
            have hmiss := List.find?_eq_none.1 hnone result hresult
            rw [hrecord'] at hmiss
            exact absurd (decide_eq_true rfl) hmiss
    obtain ⟨candidate, hcandidate⟩ := hsome
    obtain ⟨hid, hspec'⟩ := hentry _ _ hcandidate
    exact ⟨candidate, SortedMap.mem_values.2 ⟨_, hcandidate⟩, eq_of_id hspec'.expected hrecord hid⟩

/-! ### The warnings -/

omit [Text.Unicode] [FullText] in
theorem warning_spec {result : SearchResult} {warning : PrecheckWarning}
    (h : warningFromResult result = .ok warning) : warning.recordId = result.record.id := by
  obtain ⟨citation, -, hwarning⟩ := bind_eq_ok.1 h
  cases hwarning
  rfl

omit [Text.Unicode] [FullText] in
/-- A warning cites what the result cites. -/
theorem warning_cites {result : SearchResult} {warning : PrecheckWarning} {path : Option String}
    (h : warningFromResult result = .ok warning) (hcited : result.citations.map (·.path) = [path]) :
    warning.citations.map (·.path) = [path] := by
  obtain ⟨citation, hcitation, hwarning⟩ := bind_eq_ok.1 h
  cases hwarning
  obtain ⟨first, hfirst, hpath⟩ : ∃ first, result.citations = [first] ∧ first.path = path := by
    cases hlist : result.citations with
    | nil => rw [hlist] at hcited; cases hcited
    | cons first rest =>
        rw [hlist, List.map_cons, List.cons.injEq, List.map_eq_nil_iff] at hcited
        exact ⟨first, by rw [hcited.2], hcited.1⟩
  rw [warningCitation, hfirst] at hcitation
  cases hcitation
  rw [List.map_singleton, hpath]

/-- The claim on a precheck: every expected record when there is room, the first ones otherwise, and
the best path of each record. -/
structure LosesNothing (db : Db) (input : PrecheckInput) (evaluatedAt : String)
    (warnings : List PrecheckWarning) : Prop where
  all : (expectedRecords db input evaluatedAt).length ≤ precheckResultLimit →
    ∀ record ∈ expectedRecords db input evaluatedAt, record.id ∈ warnings.map (·.recordId)
  first : precheckResultLimit < (expectedRecords db input evaluatedAt).length →
    ∀ id, id ∈ warnings.map (·.recordId) ↔ id ∈ (firstExpected db input evaluatedAt).map (·.id)
  cites : ∀ path, normalizedPath input.path = some path → ∀ warning ∈ warnings,
    ∃ record ∈ governanceRecords db input evaluatedAt, warning.recordId = record.id ∧
      CitesBest db path record.id warning.citations

omit [Text.Unicode] [FullText] in
/-- Sorting by a comparison is sorting by its key. -/
theorem insertionSort_eq_sorted {α : Type} (key : α → PrecheckCandidate) (xs : List α) :
    xs.insertionSort (fun a b => comparePrecheckCandidates (key a) (key b) ≠ .gt) =
      TopRanked.sorted (precheckKey ∘ key) xs := by
  have hsame := List.map_insertionSort
    (fun a b => comparePrecheckCandidates (key a) (key b) ≠ .gt)
    (fun a b => precheckKey (key a) ≤ precheckKey (key b)) id xs
    fun _ _ _ _ => comparePrecheckCandidates_ne_gt
  rw [List.map_id, List.map_id] at hsame
  exact hsame

theorem firstExpected_eq : firstExpected db input evaluatedAt =
    TopRanked.top (precheckKey ∘ fullCandidate db input) precheckResultLimit
      (expectedRecords db input evaluatedAt) := by
  rw [firstExpected, insertionSort_eq_sorted]
  rfl

/-- The records of the warnings, as the first of those that are reached. -/
theorem warnings_spec (hagree : NormalizationsAgree db input evaluatedAt)
    {warnings : List PrecheckWarning} (h : precheckAt db input evaluatedAt = .ok warnings) :
    ∃ found : List MemoryRecord,
      (found.map (·.id)).Nodup ∧
      (∀ record, record ∈ found ↔ record ∈ expectedRecords db input evaluatedAt ∧
        reached db input evaluatedAt record) ∧
      warnings.map (·.recordId) =
        (TopRanked.top (precheckKey ∘ reachedCandidate db input evaluatedAt) precheckResultLimit
          found).map (·.id) ∧
      ∀ path, normalizedPath input.path = some path → ∀ warning ∈ warnings,
        ∃ record ∈ governanceRecords db input evaluatedAt, warning.recordId = record.id ∧
          CitesBest db path record.id warning.citations := by
  obtain ⟨byPath, hpath, h₁⟩ := bind_eq_ok.1 h
  obtain ⟨byText, htext, hwarnings⟩ := bind_eq_ok.1 h₁
  obtain ⟨hids, hspec, hcovers⟩ := mergeCandidates_spec hagree hpath htext
  generalize hvalues : (mergeCandidates byPath byText).values = values at hids hspec hcovers
  have hsorted : values.insertionSort (fun a b => comparePrecheckCandidates a b ≠ .gt) =
      TopRanked.sorted precheckKey values :=
    insertionSort_eq_sorted id values
  simp only [hvalues, hsorted] at hwarnings
  change mapAll _ (TopRanked.top precheckKey precheckResultLimit values) = _ at hwarnings
  refine ⟨values.map (·.result.record), ?_, ?_, ?_, ?_⟩
  · rw [List.map_map]
    exact hids
  · intro record
    rw [List.mem_map]
    constructor
    · rintro ⟨candidate, hcandidate, rfl⟩
      exact ⟨(hspec candidate hcandidate).expected, (hspec candidate hcandidate).reached⟩
    · rintro ⟨hexpected, hreached⟩
      exact hcovers record hexpected hreached
  · have hrecords := map_of_mapAll (g := fun warning => warning.recordId)
      (k := fun candidate : PrecheckCandidate => candidate.result.record.id)
      (fun candidate warning hwarning => warning_spec hwarning) hwarnings
    have htop : (TopRanked.top precheckKey precheckResultLimit values).map (·.result.record) =
        TopRanked.top (precheckKey ∘ reachedCandidate db input evaluatedAt) precheckResultLimit
          (values.map (·.result.record)) :=
      TopRanked.map_top fun candidate hcandidate => (hspec candidate hcandidate).key
    rw [hrecords, ← htop, List.map_map]
    rfl
  · intro path hgiven warning hwarning
    obtain ⟨candidate, hcandidate, hresult⟩ := (mem_of_mapAll hwarnings warning).1 hwarning
    have hmem : candidate ∈ values :=
      (TopRanked.sorted_perm precheckKey values).mem_iff.1 (List.mem_of_mem_take hcandidate)
    obtain ⟨hexpected, -, -, hcites⟩ := hspec candidate hmem
    refine ⟨candidate.result.record, (mem_expectedRecords.1 hexpected).1, warning_spec hresult, ?_⟩
    obtain ⟨binding, hbinding, hmatch, hcited, hmost⟩ := hcites path hgiven
    exact ⟨binding, hbinding, hmatch, warning_cites hresult hcited, hmost⟩

/-- A candidate without its text score ranks no higher. -/
theorem precheckKey_full_le (record : MemoryRecord) :
    precheckKey (fullCandidate db input record) ≤
      precheckKey (reachedCandidate db input evaluatedAt record) := by
  rw [reachedCandidate]
  split
  · rename_i hcut
    rw [cutOff, Bool.and_eq_true] at hcut
    obtain ⟨rank, hrank⟩ := Option.isSome_iff_exists.1 hcut.1
    rw [fullCandidate, hrank]
    refine (Prod.Lex.toLex_le_toLex).2 (Or.inr ⟨rfl, ?_⟩)
    refine (Prod.Lex.toLex_le_toLex).2 (Or.inl ?_)
    show OrderDual.toDual true < OrderDual.toDual false
    decide
  · exact le_refl _

theorem reachedCandidate_id (record : MemoryRecord) :
    (reachedCandidate db input evaluatedAt record).result.record.id = record.id := by
  rw [reachedCandidate]
  split <;> rfl

theorem nodup_expectedRecords : (expectedRecords db input evaluatedAt).Nodup :=
  (List.Nodup.of_map _ db.records.nodup).filter _ |>.filter _

theorem expected_injOn (candidateOf : MemoryRecord → PrecheckCandidate)
    (hid : ∀ record, (candidateOf record).result.record.id = record.id) :
    ∀ x ∈ expectedRecords db input evaluatedAt, ∀ y ∈ expectedRecords db input evaluatedAt,
      (precheckKey ∘ candidateOf) x = (precheckKey ∘ candidateOf) y → x = y := by
  intro x hx y hy hkey
  refine eq_of_id hx hy ?_
  rw [← hid x, ← hid y]
  exact id_eq_of_precheckKey hkey

theorem isTop_firstExpected : TopRanked.IsTop (precheckKey ∘ fullCandidate db input)
    precheckResultLimit (expectedRecords db input evaluatedAt)
    (firstExpected db input evaluatedAt) := by
  rw [firstExpected_eq]
  exact TopRanked.isTop_top nodup_expectedRecords
    (expected_injOn (fullCandidate db input) fun _ => rfl)

/-- The claim holds exactly when the warnings are of the first expected records. -/
theorem losesNothing_iff {warnings : List PrecheckWarning} {chosen : List MemoryRecord}
    (hsub : chosen ⊆ expectedRecords db input evaluatedAt)
    (hwarnings : warnings.map (·.recordId) = chosen.map (·.id))
    (hcites : ∀ path, normalizedPath input.path = some path → ∀ warning ∈ warnings,
      ∃ record ∈ governanceRecords db input evaluatedAt, warning.recordId = record.id ∧
        CitesBest db path record.id warning.citations) :
    LosesNothing db input evaluatedAt warnings ↔
      ∀ x, x ∈ chosen ↔ x ∈ firstExpected db input evaluatedAt := by
  have hfirst : firstExpected db input evaluatedAt ⊆ expectedRecords db input evaluatedAt :=
    isTop_firstExpected.subset
  have hmem : ∀ records : List MemoryRecord, records ⊆ expectedRecords db input evaluatedAt →
      ∀ x ∈ expectedRecords db input evaluatedAt, x.id ∈ records.map (·.id) → x ∈ records := by
    intro records hrecords x hx hid
    obtain ⟨y, hy, hyx⟩ := List.mem_map.1 hid
    rwa [← eq_of_id (hrecords hy) hx hyx]
  constructor
  · rintro ⟨hall, hsome, -⟩ x
    rw [hwarnings] at hall hsome
    by_cases hroom : (expectedRecords db input evaluatedAt).length ≤ precheckResultLimit
    · have heq := isTop_firstExpected.eq_all hroom
      exact ⟨fun hx => heq (hsub hx), fun hx => hmem _ hsub x (hfirst hx) (hall hroom x (hfirst hx))⟩
    · have hids := hsome (not_le.1 hroom) x.id
      constructor
      · exact fun hx => hmem _ hfirst x (hsub hx) (hids.1 (List.mem_map_of_mem hx))
      · exact fun hx => hmem _ hsub x (hfirst hx) (hids.2 (List.mem_map_of_mem hx))
  · intro hsame
    refine ⟨fun hroom record hrecord => ?_, fun _ id => ?_, hcites⟩
    · rw [hwarnings]
      exact List.mem_map_of_mem ((hsame record).2 (isTop_firstExpected.eq_all hroom hrecord))
    · rw [hwarnings, List.mem_map, List.mem_map]
      exact exists_congr fun record => and_congr_left fun _ => hsame record

end Merged

/-! ### One warning among a hundred facts -/

/-- A repository fact about deploys, under a short id. -/
def deployFact (n : Nat) : MemoryRecord :=
  { id := String.ofList [ 'f', Nat.digitChar (n / 10), Nat.digitChar (n % 10)], memoryType := .fact
    lane := .semantic, destination := .repo, scopeKind := .repo, scopeId := none, visibility := .repo
    title := "Deploy", body := "deploy", status := .active, confidence := 1, sourceKind := none
    sourceRef := none, proposalId := none, retention := ⟨none, none, none, none, none, none⟩
    origin := ⟨"deploy", .repositoryMaterialization⟩, lineage := none
    contentHash := "b3", createdAt := "2026-01-01T00:00:00Z", updatedAt := "2026-01-01T00:00:00Z"
    supersedesId := none }

def deployWarning : MemoryRecord :=
  { deployFact 0 with
    id := "warning", memoryType := .warning, title := "Deploy drops data"
    body := "A second deploy drops the database" }

def deployRows : List MemoryRecord := (List.range 100).map deployFact ++ [deployWarning]

theorem nodup_deployRows : (deployRows.map (·.id)).Nodup := by
  have hchain : (deployRows.map (·.id)).IsChain (· < ·) := by decide +kernel
  exact (List.isChain_iff_pairwise.1 hchain).imp fun hlt => ne_of_lt hlt

def deployDb : Db :=
  { Db.initial "2026-01-01T00:00:00Z" with records := ⟨deployRows, nodup_deployRows⟩ }

/-- The ranks of the engine for the word of the precheck: the longer text ranks lower. -/
@[reducible] def deployIndex : FullText where
  rank? _ _ record :=
    some (if record.memoryType = .fact then ⟨0xbeb749bd1f11a0c3⟩ else ⟨0xbea7c2007192b173⟩)

def deployInput : PrecheckInput := ⟨none, some "deploy", none, none⟩

/-- One risk that is bound to a directory. -/
def sourceRisk : MemoryRecord :=
  { deployFact 0 with id := "risk", memoryType := .risk, title := "Locks", body := "Held too long" }

def sourceDb : Db :=
  { Db.initial "2026-01-01T00:00:00Z" with
    records := ⟨[sourceRisk], by decide⟩
    paths := ⟨[⟨"path_1", "risk", none, "src/**", none, none, none⟩], by decide⟩ }

def sourceInput : PrecheckInput := ⟨some "src/lib.rs", none, none, none⟩

end Search
end Memzoi
