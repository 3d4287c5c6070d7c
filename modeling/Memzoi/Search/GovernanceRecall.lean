/-
# Which governance records a precheck loses

Source: `precheck.rs` (`precheck_at_with_audit`, `path_governance_candidates`,
`best_matching_path`) and `search.rs` (`search_memory_at_with_audit`).

With a path every governance record that matches it is a candidate, whatever the
search cuts off; the search only adds scores. Without a path the candidates are
what the search gives, and the search counts every record that matches the text
against its limit before the precheck keeps the governance records. So a record
is lost exactly when it is one of the first twenty-five and the search cuts it
off. The path query trims the requested path once more than the search does,
which matters for a path that ends in white space before its slashes
(`NormalizationsAgree`).
-/

import Memzoi.Lib.TopRanked
import Memzoi.Search.Precheck
import Mathlib

namespace Memzoi
namespace Search

open Fallible
open Maintenance (pathMatchesRequest trimPath globBase pathIsOrIsUnder)

/-! ### The matchers agree -/

/-- A path has a score exactly when it matches. -/
theorem pathMatchScore_ne_zero_iff (storedPath requestedPath : String) :
    pathMatchScore storedPath requestedPath ≠ 0 ↔
      pathMatchesRequest storedPath requestedPath = true := by
  rw [pathMatchScore, pathMatchesRequest]
  by_cases hblank : trimPath storedPath = [] ∨ trimPath requestedPath = []
  · simp [hblank]
  · by_cases hsame : trimPath storedPath = trimPath requestedPath
    · simp only [if_neg hblank, if_pos hsame]
      decide
    · simp only [if_neg hblank, if_neg hsame]
      cases globBase (trimPath storedPath) with
      | some base => simp
      | none =>
          cases globBase (trimPath requestedPath) with
          | some base => simp
          | none =>
              cases pathIsOrIsUnder (trimPath requestedPath) (trimPath storedPath) <;>
                cases pathIsOrIsUnder (trimPath storedPath) (trimPath requestedPath) <;> simp

/-! ### The best path -/

/-- No path of those read matches, or the one found so far matches and no other scores higher. -/
inductive BestSoFar (requestedPath : String) (paths : List PathBinding) :
    Option (PathBinding × Nat) → Prop
  | nothing (hnone : ∀ path ∈ paths, pathMatchesRequest path.path requestedPath = false) :
      BestSoFar requestedPath paths none
  | found {best : PathBinding} (hmem : best ∈ paths)
      (hmatch : pathMatchesRequest best.path requestedPath = true)
      (hmost : ∀ path ∈ paths,
        pathMatchScore path.path requestedPath ≤ pathMatchScore best.path requestedPath) :
      BestSoFar requestedPath paths (some (best, pathMatchScore best.path requestedPath))

/-- A path that does not match leaves the best one as it is. -/
theorem betterPath_of_not_matches {requestedPath : String} {path : PathBinding}
    (h : pathMatchesRequest path.path requestedPath = false) (best : Option (PathBinding × Nat)) :
    betterPath requestedPath best path = best := by
  rw [betterPath, h]
  rfl

theorem betterPath_of_matches {requestedPath : String} {path : PathBinding}
    (h : pathMatchesRequest path.path requestedPath = true) (best : Option (PathBinding × Nat)) :
    betterPath requestedPath best path =
      if replacesBest path (pathMatchScore path.path requestedPath) best then
        some (path, pathMatchScore path.path requestedPath)
      else best := by
  have hscore := (pathMatchScore_ne_zero_iff path.path requestedPath).2 h
  rw [betterPath]
  simp only [h, Bool.not_true, Bool.false_or, decide_eq_true_eq, if_neg hscore]

theorem score_eq_zero {storedPath requestedPath : String}
    (h : pathMatchesRequest storedPath requestedPath = false) :
    pathMatchScore storedPath requestedPath = 0 := by
  by_contra hne
  rw [(pathMatchScore_ne_zero_iff storedPath requestedPath).1 hne] at h
  cases h

/-- One turn of the loop. -/
theorem bestSoFar_betterPath {requestedPath : String} {paths : List PathBinding}
    {best : Option (PathBinding × Nat)} (h : BestSoFar requestedPath paths best)
    (path : PathBinding) :
    BestSoFar requestedPath (paths ++ [path]) (betterPath requestedPath best path) := by
  cases hmatch : pathMatchesRequest path.path requestedPath with
  | true =>
      rw [betterPath_of_matches hmatch]
      cases h with
      | nothing hnone =>
          rw [replacesBest, if_pos rfl]
          refine .found (List.mem_append_right _ List.mem_cons_self) hmatch fun other hother => ?_
          rcases List.mem_append.1 hother with hother | hother
          · rw [score_eq_zero (hnone other hother)]
            exact Nat.zero_le _
          · rw [List.mem_singleton.1 hother]
      | @found best hmem hbest hmost =>
          cases hreplaces : replacesBest path (pathMatchScore path.path requestedPath)
              (some (best, pathMatchScore best.path requestedPath)) with
          | true =>
              rw [if_pos rfl]
              have hle : pathMatchScore best.path requestedPath ≤
                  pathMatchScore path.path requestedPath := by
                rw [replacesBest, Bool.or_eq_true, Bool.and_eq_true, decide_eq_true_eq,
                  decide_eq_true_eq] at hreplaces
                omega
              refine .found (List.mem_append_right _ List.mem_cons_self) hmatch
                fun other hother => ?_
              rcases List.mem_append.1 hother with hother | hother
              · exact (hmost other hother).trans hle
              · rw [List.mem_singleton.1 hother]
          | false =>
              rw [if_neg Bool.false_ne_true]
              have hle : pathMatchScore path.path requestedPath ≤
                  pathMatchScore best.path requestedPath := by
                rw [replacesBest, Bool.or_eq_false_iff, decide_eq_false_iff_not] at hreplaces
                omega
              refine .found (List.mem_append_left _ hmem) hbest fun other hother => ?_
              rcases List.mem_append.1 hother with hother | hother
              · exact hmost other hother
              · rw [List.mem_singleton.1 hother]
                exact hle
  | false =>
      rw [betterPath_of_not_matches hmatch]
      cases h with
      | nothing hnone =>
          refine .nothing fun other hother => ?_
          rcases List.mem_append.1 hother with hother | hother
          · exact hnone other hother
          · rw [List.mem_singleton.1 hother]
            exact hmatch
      | found hmem hbest hmost =>
          refine .found (List.mem_append_left _ hmem) hbest fun other hother => ?_
          rcases List.mem_append.1 hother with hother | hother
          · exact hmost other hother
          · rw [List.mem_singleton.1 hother, score_eq_zero hmatch]
            exact Nat.zero_le _

/-- The whole loop. -/
theorem bestSoFar_bestMatchingPath (paths : List PathBinding) (requestedPath : String) :
    BestSoFar requestedPath paths (bestMatchingPath paths requestedPath) := by
  induction paths using List.reverseRecOn with
  | nil => exact .nothing fun path hpath => absurd hpath List.not_mem_nil
  | append_singleton paths path ih =>
      rw [bestMatchingPath] at ih ⊢
      rw [List.foldl_concat]
      exact bestSoFar_betterPath ih path

/-! ### What a precheck should find -/

def isCurrent (db : Db) (evaluatedAt : String) (record : MemoryRecord) : Bool :=
  Recall.currentAssertion db record evaluatedAt = .ok true

/-- The repository governance records in scope that may be recalled. -/
def governanceRecords (db : Db) (input : PrecheckInput) (evaluatedAt : String) :
    List MemoryRecord :=
  db.records.rows.filter fun record =>
    record.destination = .repo && isGovernanceMemory record &&
      input.scopeKind.all (record.scopeKind = ·) && isCurrent db evaluatedAt record

section Expected

variable [Text.Unicode] [FullText]

/-- The rank of a record whose title or body matches the text of the action and the command. -/
def textRank (db : Db) (input : PrecheckInput) (record : MemoryRecord) : Option F64 :=
  match lexicalQuery input with
  | some query => if ftsQuery query = "" then none else FullText.rank? db (ftsQuery query) record
  | none => none

def matchesInput (db : Db) (input : PrecheckInput) (record : MemoryRecord) : Bool :=
  match normalizedPath input.path with
  | some path => hasMatchingPath db path record
  | none => (textRank db input record).isSome

/-- The records that match by path when one is given, and by text when none is. -/
def expectedRecords (db : Db) (input : PrecheckInput) (evaluatedAt : String) : List MemoryRecord :=
  (governanceRecords db input evaluatedAt).filter (matchesInput db input)

/-- Every repository record that the search finds, in its order and without its limit. -/
def searchOrder (db : Db) (input : PrecheckInput) (evaluatedAt : String) :
    List (MemoryRecord × F64) :=
  (db.records.rows.filterMap fun record =>
    if passesFilters db (lexicalSearch input "") record && isCurrent db evaluatedAt record then
      (textRank db input record).map (Prod.mk record)
    else none).insertionSort fun a b => compareRows a b ≠ .gt

/-- The record matches the text, and the limit of the search cuts it off. -/
def cutOff (db : Db) (input : PrecheckInput) (evaluatedAt : String) (record : MemoryRecord) : Bool :=
  (textRank db input record).isSome &&
    record ∉ ((searchOrder db input evaluatedAt).take searchResultLimitMax).map Prod.fst

/-- The score of the best path. -/
def pathScoreOf (db : Db) (input : PrecheckInput) (record : MemoryRecord) : Nat :=
  match normalizedPath input.path with
  | some path => ((loadPaths db record.id).map fun binding => pathMatchScore binding.path path).foldr
      max 0
  | none => 0

/-- A candidate with the data that candidates are compared by. -/
def plainCandidate (record : MemoryRecord) (pathScore : Nat) (lexicalScore : Option F64) :
    PrecheckCandidate :=
  ⟨⟨record, ⟨0⟩, none, none, none, [], []⟩, pathScore, lexicalScore⟩

def fullCandidate (db : Db) (input : PrecheckInput) (record : MemoryRecord) : PrecheckCandidate :=
  plainCandidate record (pathScoreOf db input record) ((textRank db input record).map F64.neg)

/-- The candidate without the score that the search does not give it. -/
def reachedCandidate (db : Db) (input : PrecheckInput) (evaluatedAt : String)
    (record : MemoryRecord) : PrecheckCandidate :=
  if cutOff db input evaluatedAt record then
    plainCandidate record (pathScoreOf db input record) none
  else fullCandidate db input record

/-- The first expected records, as many as a precheck returns. -/
def firstExpected (db : Db) (input : PrecheckInput) (evaluatedAt : String) : List MemoryRecord :=
  ((expectedRecords db input evaluatedAt).insertionSort fun a b =>
    comparePrecheckCandidates (fullCandidate db input a) (fullCandidate db input b) ≠ .gt).take
      precheckResultLimit

end Expected

/-- The requested path scores alike with and without the second trim of the path query. -/
def NormalizationsAgree (db : Db) (input : PrecheckInput) (evaluatedAt : String) : Prop :=
  ∀ path, normalizedPath input.path = some path →
    ∀ record ∈ governanceRecords db input evaluatedAt, ∀ binding ∈ loadPaths db record.id,
      pathMatchScore binding.path (String.ofList (trimPath path)) =
        pathMatchScore binding.path path

/-- The result cites a path of the record that matches, and none that matches scores higher. -/
def CitesBest (db : Db) (requestedPath : String) (recordId : String)
    (citations : List MemoryCitation) : Prop :=
  ∃ binding ∈ loadPaths db recordId, pathMatchesRequest binding.path requestedPath = true ∧
    citations.map (·.path) = [some binding.path] ∧
    ∀ other ∈ loadPaths db recordId, pathMatchesRequest other.path requestedPath = true →
      pathMatchScore other.path requestedPath ≤ pathMatchScore binding.path requestedPath

/-! ### The path query -/

theorem mem_governanceRecords {db : Db} {input : PrecheckInput} {evaluatedAt : String}
    {record : MemoryRecord} : record ∈ governanceRecords db input evaluatedAt ↔
      record ∈ db.records.rows ∧ record.destination = .repo ∧ isGovernanceMemory record = true ∧
        input.scopeKind.all (record.scopeKind = ·) = true ∧
        Recall.currentAssertion db record evaluatedAt = .ok true := by
  rw [governanceRecords, List.mem_filter]
  simp only [isCurrent, Bool.and_eq_true, decide_eq_true_eq, and_assoc]

/-- The records of the path query are the governance records with a path that matches. -/
theorem mem_pathGovernanceRecords {db : Db} {input : PrecheckInput} {requested evaluatedAt : String}
    {records : List MemoryRecord}
    (h : pathGovernanceRecords db input.scopeKind requested evaluatedAt = .ok records)
    (record : MemoryRecord) : record ∈ records ↔
      record ∈ governanceRecords db input evaluatedAt ∧
        hasMatchingPath db requested record = true := by
  obtain ⟨rows, hrows, hrecords⟩ := bind_eq_ok.1 h
  cases hrecords
  rw [List.mem_insertionSort, mem_of_keepAll hrows, mem_governanceRecords]
  split
  · rename_i hfilters
    simp only [Bool.and_eq_true, decide_eq_true_eq] at hfilters
    tauto
  · rename_i hfilters
    simp only [Bool.and_eq_true, decide_eq_true_eq] at hfilters
    refine iff_of_false ?_ ?_
    · rintro ⟨-, hfalse⟩
      cases hfalse
    · tauto

theorem nodup_pathGovernanceRecords {db : Db} {scopeKind : Option ScopeKind}
    {requested evaluatedAt : String} {records : List MemoryRecord}
    (h : pathGovernanceRecords db scopeKind requested evaluatedAt = .ok records) :
    (records.map (·.id)).Nodup := by
  obtain ⟨rows, hrows, hrecords⟩ := bind_eq_ok.1 h
  cases hrecords
  have hperm := (List.perm_insertionSort (fun a b : MemoryRecord =>
    b.updatedAt < a.updatedAt ∨ (a.updatedAt = b.updatedAt ∧ a.id ≤ b.id)) rows).map (·.id)
  exact hperm.nodup_iff.2 (db.records.nodup.sublist ((sublist_of_keepAll hrows).map _))

/-- A record has a best path exactly when one of its paths matches. -/
theorem exists_bestMatchingPath {paths : List PathBinding} {requestedPath : String}
    (h : paths.any (fun path => pathMatchesRequest path.path requestedPath) = true) :
    ∃ best ∈ paths, pathMatchesRequest best.path requestedPath = true ∧
      bestMatchingPath paths requestedPath =
        some (best, pathMatchScore best.path requestedPath) ∧
      ∀ path ∈ paths,
        pathMatchScore path.path requestedPath ≤ pathMatchScore best.path requestedPath := by
  have hbest := bestSoFar_bestMatchingPath paths requestedPath
  generalize bestMatchingPath paths requestedPath = best at hbest ⊢
  cases hbest with
  | nothing hnone =>
      obtain ⟨path, hpath, hmatch⟩ := List.any_eq_true.1 h
      rw [hnone path hpath] at hmatch
      cases hmatch
  | found hmem hmatch hmost => exact ⟨_, hmem, hmatch, rfl, hmost⟩

theorem citationFor_path {record : MemoryRecord} {path : Option PathBinding}
    {citation : MemoryCitation} (h : citationFor record path = .ok citation) :
    citation.path = path.map (·.path) := by
  obtain ⟨plane, -, hcitation⟩ := bind_eq_ok.1 h
  cases hcitation
  rfl

theorem pathResult_spec {db : Db} {record : MemoryRecord} {best : PathBinding × Nat}
    {found : SearchResult × Nat} (h : pathResult db record best = .ok found) :
    found.1.record = record ∧ found.2 = best.2 ∧
      found.1.citations.map (·.path) = [some best.1.path] := by
  obtain ⟨citation, hcitation, hfound⟩ := bind_eq_ok.1 h
  cases hfound
  exact ⟨rfl, rfl, by rw [List.map_singleton, citationFor_path hcitation]; rfl⟩

/-- The greatest number of a list, or zero. -/
theorem foldr_max_eq {numbers : List Nat} {most : Nat} (hmem : most ∈ numbers)
    (hmost : ∀ number ∈ numbers, number ≤ most) : numbers.foldr max 0 = most := by
  refine Nat.le_antisymm ?_ (List.le_max_of_le' 0 hmem (Nat.le_refl most))
  exact List.max_le_of_forall_le numbers most hmost

section PathCandidates

variable [Text.Unicode] [FullText] {db : Db} {input : PrecheckInput} {evaluatedAt : String}

theorem mem_expectedRecords {record : MemoryRecord} :
    record ∈ expectedRecords db input evaluatedAt ↔
      record ∈ governanceRecords db input evaluatedAt ∧ matchesInput db input record = true := by
  rw [expectedRecords, List.mem_filter]

theorem matchesInput_path {path : String} (hpath : normalizedPath input.path = some path)
    (record : MemoryRecord) : matchesInput db input record = hasMatchingPath db path record := by
  rw [matchesInput, hpath]

omit [Text.Unicode] [FullText] in
/-- The two matches of a governance record agree. -/
theorem hasMatchingPath_trimPath (hagree : NormalizationsAgree db input evaluatedAt) {path : String}
    (hpath : normalizedPath input.path = some path) {record : MemoryRecord}
    (hrecord : record ∈ governanceRecords db input evaluatedAt) :
    hasMatchingPath db (String.ofList (trimPath path)) record = hasMatchingPath db path record := by
  rw [hasMatchingPath, hasMatchingPath, Bool.eq_iff_iff, List.any_eq_true, List.any_eq_true]
  refine exists_congr fun binding => and_congr_right fun hbinding => ?_
  rw [← pathMatchScore_ne_zero_iff, ← pathMatchScore_ne_zero_iff,
    hagree path hpath record hrecord binding hbinding]

omit [Text.Unicode] [FullText] in
/-- A record of the path query with its best path. -/
theorem best_of_hasMatchingPath (hagree : NormalizationsAgree db input evaluatedAt) {path : String}
    (hpath : normalizedPath input.path = some path) {record : MemoryRecord}
    (hrecord : record ∈ governanceRecords db input evaluatedAt)
    (hmatch : hasMatchingPath db (String.ofList (trimPath path)) record = true) :
    ∃ best ∈ loadPaths db record.id,
      bestMatchingPath (loadPaths db record.id) (String.ofList (trimPath path)) =
        some (best, pathScoreOf db input record) ∧
      pathMatchesRequest best.path path = true ∧
      ∀ other ∈ loadPaths db record.id,
        pathMatchScore other.path path ≤ pathMatchScore best.path path := by
  have hscores := hagree path hpath record hrecord
  obtain ⟨best, hmem, hbest, hfound, hmost⟩ := exists_bestMatchingPath hmatch
  rw [← pathMatchScore_ne_zero_iff, hscores best hmem, pathMatchScore_ne_zero_iff] at hbest
  have hmost' : ∀ other ∈ loadPaths db record.id,
      pathMatchScore other.path path ≤ pathMatchScore best.path path := by
    intro other hother
    rw [← hscores other hother, ← hscores best hmem]
    exact hmost other hother
  have hscore : pathScoreOf db input record = pathMatchScore best.path path := by
    rw [pathScoreOf, hpath]
    refine foldr_max_eq (List.mem_map_of_mem hmem) fun number hnumber => ?_
    obtain ⟨other, hother, rfl⟩ := List.mem_map.1 hnumber
    exact hmost' other hother
  rw [hscores best hmem, ← hscore] at hfound
  exact ⟨best, hmem, hfound, hbest, hmost'⟩

/-- What the path query finds: every expected record, with its score and its best path. -/
theorem pathCandidates_spec (hagree : NormalizationsAgree db input evaluatedAt)
    {found : List (SearchResult × Nat)} (h : pathCandidates db input evaluatedAt = .ok found) :
    (found.map (·.1.record.id)).Nodup ∧
      (∀ candidate ∈ found, candidate.1.record ∈ expectedRecords db input evaluatedAt ∧
        candidate.2 = pathScoreOf db input candidate.1.record ∧
        ∀ path, normalizedPath input.path = some path →
          CitesBest db path candidate.1.record.id candidate.1.citations) ∧
      (∀ path, normalizedPath input.path = some path →
        ∀ record ∈ expectedRecords db input evaluatedAt,
          ∃ candidate ∈ found, candidate.1.record = record) := by
  cases hpath : normalizedPath input.path with
  | none =>
      rw [pathCandidates, hpath] at h
      cases h
      refine ⟨List.nodup_nil, fun candidate hcandidate => absurd hcandidate List.not_mem_nil, ?_⟩
      intro path hpath'
      cases hpath'
  | some path =>
      rw [pathCandidates, hpath] at h
      unfold pathGovernanceCandidates at h
      by_cases hempty : String.ofList (trimPath path) = ""
      · simp only [hempty, if_true] at h
        cases h
        refine ⟨List.nodup_nil, fun candidate hcandidate => absurd hcandidate List.not_mem_nil, ?_⟩
        intro path' hpath' record hrecord
        obtain rfl := Option.some.inj hpath'
        have hblank : trimPath path = [] := by
          rw [← String.toList_inj, String.toList_ofList] at hempty
          exact hempty
        have hmatch := (mem_expectedRecords.1 hrecord).2
        rw [matchesInput_path hpath, hasMatchingPath, List.any_eq_true] at hmatch
        obtain ⟨binding, -, hbinding⟩ := hmatch
        rw [pathMatchesRequest, if_pos (Or.inr hblank)] at hbinding
        cases hbinding
      · simp only [hempty, if_false] at h
        obtain ⟨records, hrecords, hfound⟩ := bind_eq_ok.1 h
        have hmem := mem_pathGovernanceRecords hrecords
        -- every record of the query has a best path, so none is skipped
        have hbest : ∀ record ∈ records, ∃ best ∈ loadPaths db record.id,
            (bestMatchingPath (loadPaths db record.id) (String.ofList (trimPath path))).map
              (Prod.mk record) = some (record, (best, pathScoreOf db input record)) ∧
            pathMatchesRequest best.path path = true ∧
            ∀ other ∈ loadPaths db record.id,
              pathMatchScore other.path path ≤ pathMatchScore best.path path := by
          intro record hrecord
          obtain ⟨hgovernance, hmatch⟩ := (hmem record).1 hrecord
          obtain ⟨best, hbinding, hfind, hrest⟩ :=
            best_of_hasMatchingPath hagree hpath hgovernance hmatch
          exact ⟨best, hbinding, by rw [hfind]; rfl, hrest⟩
        have hexpected : ∀ record, record ∈ records ↔
            record ∈ expectedRecords db input evaluatedAt := by
          intro record
          rw [hmem, mem_expectedRecords, matchesInput_path hpath]
          exact and_congr_right fun hgovernance => by
            rw [hasMatchingPath_trimPath hagree hpath hgovernance]
        refine ⟨?_, ?_, ?_⟩
        · have hids := map_of_mapAll (g := fun candidate => candidate.1.record.id)
            (k := fun found => found.1.id)
            (fun record candidate hcandidate => by rw [(pathResult_spec hcandidate).1]) hfound
          have hnone : ∀ record ∈ records,
              ((bestMatchingPath (loadPaths db record.id) (String.ofList (trimPath path))).map
                (Prod.mk record)).map (fun found => found.1.id) = some record.id := by
            intro record hrecord
            obtain ⟨best, -, hfind, -⟩ := hbest record hrecord
            rw [hfind]
            rfl
          rw [hids, List.map_filterMap, List.filterMap_congr hnone]
          show (records.filterMap (some ∘ (·.id))).Nodup
          rw [List.filterMap_eq_map]
          exact nodup_pathGovernanceRecords hrecords
        · intro candidate hcandidate
          obtain ⟨pair, hpair, hresult⟩ := (mem_of_mapAll hfound candidate).1 hcandidate
          obtain ⟨record, hrecord, hfind⟩ := List.mem_filterMap.1 hpair
          obtain ⟨best, hbinding, hfind', hmatch, hmost⟩ := hbest record hrecord
          rw [hfind'] at hfind
          obtain rfl := Option.some.inj hfind
          obtain ⟨hrecord', hscore, hcited⟩ := pathResult_spec hresult
          rw [hrecord']
          refine ⟨(hexpected record).1 hrecord, hscore, fun path' hpath' => ?_⟩
          obtain rfl := Option.some.inj hpath'
          exact ⟨best, hbinding, hmatch, hcited, fun other hother _ => hmost other hother⟩
        · intro path' _ record hrecord
          have hrecord' := (hexpected record).2 hrecord
          obtain ⟨best, -, hfind, -⟩ := hbest record hrecord'
          obtain ⟨candidate, hcandidate, hresult⟩ := exists_of_mapAll hfound
            (List.mem_filterMap.2 ⟨record, hrecord', hfind⟩)
          exact ⟨candidate, hcandidate, (pathResult_spec hresult).1⟩

end PathCandidates

/-! ### The search -/

theorem normalizedPath_again (path : Option String) :
    normalizedPath (normalizedPath path) = normalizedPath path := by
  cases path with
  | none => rfl
  | some path =>
      by_cases hblank : Text.trim path = ""
      · have hnone : normalizedPath (some path) = none := by
          rw [normalizedPath, Option.map_some, hblank]
          rfl
        rw [hnone]
        rfl
      · have hsome : normalizedPath (some path) = some (Text.trim path) := by
          rw [normalizedPath, Option.map_some]
          simp [hblank]
        rw [hsome, normalizedPath, Option.map_some, Text.trim_trim]
        simp [hblank]

section LexicalResults

variable [Text.Unicode] [FullText] {db : Db} {input : PrecheckInput} {evaluatedAt : String}

/-- A row of the search is of a current record in scope that matches text and path. -/
theorem mem_searchOrder {row : MemoryRecord × F64} : row ∈ searchOrder db input evaluatedAt ↔
    row.1 ∈ db.records.rows ∧ passesFilters db (lexicalSearch input "") row.1 = true ∧
      isCurrent db evaluatedAt row.1 = true ∧ textRank db input row.1 = some row.2 := by
  rw [searchOrder, List.mem_insertionSort, List.mem_filterMap]
  constructor
  · rintro ⟨record, hrecord, hrow⟩
    split at hrow
    · rename_i hfilters
      obtain ⟨rank, hrank, rfl⟩ := Option.map_eq_some_iff.1 hrow
      rw [Bool.and_eq_true] at hfilters
      exact ⟨hrecord, hfilters.1, hfilters.2, hrank⟩
    · cases hrow
  · rintro ⟨hrecord, hfilters, hcurrent, hrank⟩
    refine ⟨row.1, hrecord, ?_⟩
    rw [if_pos (by rw [hfilters, hcurrent]; rfl), hrank]
    rfl

theorem nodup_searchOrder : ((searchOrder db input evaluatedAt).map (·.1.id)).Nodup := by
  have hperm := (List.perm_insertionSort (fun a b : MemoryRecord × F64 => compareRows a b ≠ .gt)
    (db.records.rows.filterMap fun record =>
      if passesFilters db (lexicalSearch input "") record && isCurrent db evaluatedAt record then
        (textRank db input record).map (Prod.mk record)
      else none)).map (·.1.id)
  refine hperm.nodup_iff.2 ?_
  rw [List.map_filterMap]
  refine db.records.nodup.sublist ?_
  induction db.records.rows with
  | nil => exact List.Sublist.refl _
  | cons record records ih =>
      rw [List.filterMap_cons, List.map_cons]
      split
      · exact ih.cons _
      · rename_i id hid
        obtain ⟨row, hrow, rfl⟩ := Option.map_eq_some_iff.1 hid
        have hrecord : row.1 = record := by
          split at hrow
          · obtain ⟨rank, -, rfl⟩ := Option.map_eq_some_iff.1 hrow
            rfl
          · cases hrow
        rw [hrecord]
        exact ih.cons_cons _

/-- The rows of the query are those of the order without a limit. -/
theorem rankedRows_eq {query : String} (hquery : lexicalQuery input = some query)
    (hfts : ftsQuery query ≠ "") {rows : List (MemoryRecord × F64)}
    (h : rankedRows db (lexicalSearch input query) (ftsQuery query) evaluatedAt = .ok rows) :
    rows = searchOrder db input evaluatedAt := by
  obtain ⟨current, hcurrent, hrows⟩ := bind_eq_ok.1 h
  cases hrows
  have hkept : current = _ := filter_of_keepAll
    (p := fun row : MemoryRecord × F64 => isCurrent db evaluatedAt row.1)
    (fun row => by rw [isCurrent, decide_eq_true_iff]) hcurrent
  rw [hkept, List.filter_filterMap, searchOrder]
  refine congrArg _ (List.filterMap_congr fun record _ => ?_)
  have hrank : textRank db input record = FullText.rank? db (ftsQuery query) record := by
    rw [textRank, hquery]
    exact if_neg hfts
  have hsame : passesFilters db (lexicalSearch input query) record =
      passesFilters db (lexicalSearch input "") record := rfl
  rw [hrank, hsame]
  cases passesFilters db (lexicalSearch input "") record with
  | false => rfl
  | true =>
      cases hfound : FullText.rank? db (ftsQuery query) record with
      | none => simp
      | some rank =>
          cases hcur : isCurrent db evaluatedAt record <;> simp [hcur]

omit [Text.Unicode] [FullText] in
theorem searchResult_spec {search : SearchInput} {row : MemoryRecord × F64} {result : SearchResult}
    (h : searchResult db search row = .ok result) :
    result.record = row.1 ∧ result.score = row.2.neg := by
  obtain ⟨citation, -, hresult⟩ := bind_eq_ok.1 h
  cases hresult
  exact ⟨rfl, rfl⟩

/-- The results of the search are those of the first hundred rows. -/
theorem lexicalResults_rows {results : List SearchResult}
    (h : lexicalResults db input evaluatedAt = .ok results) :
    ∃ search : SearchInput, mapAll (searchResult db search)
      ((searchOrder db input evaluatedAt).take searchResultLimitMax) = .ok results := by
  have hnothing : (∀ record, textRank db input record = none) →
      searchOrder db input evaluatedAt = [] := by
    intro hnone
    refine List.eq_nil_iff_forall_not_mem.2 fun row hrow => ?_
    have hrank := (mem_searchOrder.1 hrow).2.2.2
    rw [hnone] at hrank
    cases hrank
  cases hquery : lexicalQuery input with
  | none =>
      rw [lexicalResults, hquery] at h
      cases h
      rw [hnothing fun record => by rw [textRank, hquery]]
      exact ⟨lexicalSearch input "", rfl⟩
  | some query =>
      rw [lexicalResults, hquery] at h
      unfold searchMemoryAt at h
      by_cases hfts : ftsQuery query = ""
      · have hfts' : ftsQuery (lexicalSearch input query).query = "" := hfts
        simp only [hfts', if_true] at h
        cases h
        rw [hnothing fun record => by simp [textRank, hquery, hfts]]
        exact ⟨lexicalSearch input "", rfl⟩
      · have hfts' : ¬ ftsQuery (lexicalSearch input query).query = "" := hfts
        simp only [hfts', if_false] at h
        obtain ⟨-, -, h₁⟩ := bind_eq_ok.1 h
        obtain ⟨rows, hrows, h₂⟩ := bind_eq_ok.1 h₁
        rw [rankedRows_eq hquery hfts hrows] at h₂
        exact ⟨lexicalSearch input query, h₂⟩

/-- A governance record that the search finds is expected. -/
theorem expected_of_searchOrder {row : MemoryRecord × F64}
    (hrow : row ∈ searchOrder db input evaluatedAt) (hgovernance : isGovernanceMemory row.1 = true) :
    row.1 ∈ expectedRecords db input evaluatedAt := by
  obtain ⟨hrecord, hfilters, hcurrent, hrank⟩ := mem_searchOrder.1 hrow
  rw [passesFilters] at hfilters
  simp only [lexicalSearch, Option.getD_none, Option.map_none, Option.all_none, Bool.and_true,
    Bool.and_eq_true, normalizedPath_again] at hfilters
  obtain ⟨⟨hrepo, hscope⟩, hpath⟩ := hfilters
  refine mem_expectedRecords.2 ⟨mem_governanceRecords.2
    ⟨hrecord, of_decide_eq_true hrepo, hgovernance, hscope, of_decide_eq_true hcurrent⟩, ?_⟩
  rw [matchesInput]
  cases hgiven : normalizedPath input.path with
  | some path =>
      rw [hgiven] at hpath
      exact hpath
  | none => rw [hrank]; rfl

/-- An expected record that matches the text is in the order of the search. -/
theorem searchOrder_of_expected {record : MemoryRecord} {rank : F64}
    (h : record ∈ expectedRecords db input evaluatedAt)
    (hrank : textRank db input record = some rank) :
    (record, rank) ∈ searchOrder db input evaluatedAt := by
  obtain ⟨hgovernance, hmatch⟩ := mem_expectedRecords.1 h
  obtain ⟨hrecord, hrepo, -, hscope, hcurrent⟩ := mem_governanceRecords.1 hgovernance
  refine mem_searchOrder.2 ⟨hrecord, ?_, decide_eq_true hcurrent, hrank⟩
  rw [passesFilters]
  simp only [lexicalSearch, Option.getD_none, Option.map_none, Option.all_none, Bool.and_true,
    Bool.and_eq_true, normalizedPath_again]
  refine ⟨⟨decide_eq_true hrepo, hscope⟩, ?_⟩
  rw [matchesInput] at hmatch
  cases hgiven : normalizedPath input.path with
  | some path =>
      rw [hgiven] at hmatch
      exact hmatch
  | none => rfl

/-- What the search gives the precheck: the expected records that match the text and are not cut
off, with their scores. -/
theorem lexicalResults_spec {results : List SearchResult}
    (h : lexicalResults db input evaluatedAt = .ok results) :
    ((results.filter fun result => isGovernanceMemory result.record).map (·.record.id)).Nodup ∧
      (∀ result ∈ results.filter fun result => isGovernanceMemory result.record,
        result.record ∈ expectedRecords db input evaluatedAt ∧
          cutOff db input evaluatedAt result.record = false ∧
          (textRank db input result.record).map F64.neg = some result.score) ∧
      (∀ record ∈ expectedRecords db input evaluatedAt,
        (textRank db input record).isSome = true → cutOff db input evaluatedAt record = false →
          ∃ result ∈ results.filter fun result => isGovernanceMemory result.record,
            result.record = record) := by
  obtain ⟨search, hresults⟩ := lexicalResults_rows h
  refine ⟨?_, ?_, ?_⟩
  · have hids := map_of_mapAll (g := fun result => result.record.id) (k := fun row => row.1.id)
      (fun row result hresult => by rw [(searchResult_spec hresult).1]) hresults
    have hnodup : (results.map (·.record.id)).Nodup := by
      rw [hids, List.map_take]
      exact nodup_searchOrder.sublist (List.take_sublist _ _)
    exact hnodup.sublist (List.filter_sublist.map _)
  · intro result hresult
    obtain ⟨hmem, hgovernance⟩ := List.mem_filter.1 hresult
    obtain ⟨row, hrow, hrow'⟩ := (mem_of_mapAll hresults result).1 hmem
    obtain ⟨hrecord, hscore⟩ := searchResult_spec hrow'
    rw [hrecord] at hgovernance ⊢
    have horder := List.mem_of_mem_take hrow
    refine ⟨expected_of_searchOrder horder hgovernance, ?_, ?_⟩
    · rw [cutOff, Bool.and_eq_false_iff, decide_eq_false_iff_not, not_not]
      exact Or.inr (List.mem_map_of_mem hrow)
    · rw [(mem_searchOrder.1 horder).2.2.2, hscore]
      rfl
  · intro record hrecord hrank hcut
    rw [cutOff, hrank, Bool.true_and, decide_eq_false_iff_not, not_not] at hcut
    obtain ⟨row, hrow, rfl⟩ := List.mem_map.1 hcut
    obtain ⟨result, hresult, hrow'⟩ := exists_of_mapAll hresults hrow
    have hrecord' := (searchResult_spec hrow').1
    have hgovernance := (mem_governanceRecords.1 (mem_expectedRecords.1 hrecord).1).2.2.1
    refine ⟨result, List.mem_filter.2 ⟨hresult, ?_⟩, hrecord'⟩
    rw [hrecord']
    exact hgovernance

end LexicalResults

end Search
end Memzoi
