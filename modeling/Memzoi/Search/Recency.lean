/-
# The order of time in recall and export

Source: `context.rs` (`path_candidates`, `compare_ranked_results`), `search.rs`
(`search_memory_at_with_audit`), `precheck.rs` (`path_governance_records`,
`compare_precheck_candidates`) and `events.rs` (`for_each_merged_event`).

Every place that orders by time compares the texts of the timestamps. So of two
records the later one is the later one in all of them, whatever the limit,
exactly when its text comes after the other one's, which the written fields
decide (`recency_iff`): for stamps in UTC from the program's own writer this
fails in one second only, where the fraction of the later stamp continues that
of the earlier one (`Rfc3339.format_lt_iff`).
-/

import Memzoi.EventExport
import Memzoi.Lib.Rfc3339Order
import Memzoi.Lib.TopRanked
import Memzoi.Search.ContextSelection
import Memzoi.Search.LostWarnings

namespace Memzoi
namespace Search

open Fallible TopRanked
open Maintenance (pathMatchesRequest trimPath)

/-! ### Path candidates of a context -/

/-- `ORDER BY updated_at DESC, id ASC`. -/
def recentFirst (a b : MemoryRecord) : Prop :=
  b.updatedAt < a.updatedAt ∨ (a.updatedAt = b.updatedAt ∧ a.id ≤ b.id)

instance : DecidableRel recentFirst := fun _ _ => inferInstanceAs (Decidable (_ ∨ _))

/-- The records of the query, without its limit. -/
def contextPathRecords (db : Db) (destination : MemoryDestination)
    (requestedPath evaluatedAt : String) : Fallible (List MemoryRecord) := do
  let rows ← keepAll
    (fun record =>
      if record.destination = destination && hasMatchingPath db requestedPath record then
        Recall.currentAssertion db record evaluatedAt
      else .ok false)
    db.records.rows
  .ok (rows.insertionSort recentFirst)

def contextPathResult (db : Db) (pathPrefix : String) (record : MemoryRecord) :
    Fallible SearchResult := do
  let paths := loadPaths db record.id
  let citation ← citationFor record (paths.find? fun path => pathMatchesRequest path.path pathPrefix)
  .ok
    { record
      score := ⟨0⟩
      snippet := none
      rationale := some "path match"
      ranking := none
      paths
      citations := [citation] }

def contextPathCandidates (db : Db) (destination : MemoryDestination) (pathPrefix : String)
    (limit : Nat) (evaluatedAt : String) : Fallible (List SearchResult) := do
  let requestedPath := String.ofList (trimPath pathPrefix)
  if requestedPath = "" then .ok []
  else
    let records ← contextPathRecords db destination requestedPath evaluatedAt
    mapAll (contextPathResult db pathPrefix)
      ((records.take limit).filter fun record => hasMatchingPath db pathPrefix record)

/-! ### The keys of the orders -/

abbrev RecentKey : Type := Stringᵒᵈ ×ₗ String

/-- Time from late to early, then the id. -/
def recentKey (record : MemoryRecord) : RecentKey :=
  toLex (OrderDual.toDual record.updatedAt, record.id)

theorem recentFirst_iff (a b : MemoryRecord) : recentFirst a b ↔ recentKey a ≤ recentKey b := by
  rw [recentFirst, recentKey, recentKey, Prod.Lex.toLex_le_toLex, OrderDual.toDual_lt_toDual,
    OrderDual.toDual_inj]

abbrev RowKey : Type := Int ×ₗ Stringᵒᵈ ×ₗ String

/-- The rank of a row, then its record by time. -/
def rowKey (row : MemoryRecord × F64) : RowKey := toLex (row.2.numKey, recentKey row.1)

theorem compareRows_ne_gt (a b : MemoryRecord × F64) :
    compareRows a b ≠ .gt ↔ rowKey a ≤ rowKey b := by
  have heq : compareRows a b = compare (rowKey a) (rowKey b) := rfl
  rw [heq, ← compare_le_iff_le]

theorem pairwise_sortedCandidates (results : List SearchResult) :
    (sortedCandidates results).Pairwise fun a b => rankKey a ≤ rankKey b := by
  have hr : ∀ a b : SearchResult, compareRankedResults a b ≠ .gt ↔ rankKey a ≤ rankKey b :=
    fun _ _ => compareRankedResults_ne_gt
  exact pairwise_insertionSort hr _

theorem pairwise_precheckCandidates (candidates : List PrecheckCandidate) :
    (candidates.insertionSort fun a b => comparePrecheckCandidates a b ≠ .gt).Pairwise
      fun a b => precheckKey a ≤ precheckKey b := by
  have hr : ∀ a b : PrecheckCandidate,
      comparePrecheckCandidates a b ≠ .gt ↔ precheckKey a ≤ precheckKey b :=
    fun _ _ => comparePrecheckCandidates_ne_gt
  exact pairwise_insertionSort hr _

/-- Equal up to the time: score and destination. -/
def EqualRank (x y : SearchResult) : Prop :=
  rankingScore x = rankingScore y ∧
    destinationPriority x.record.destination = destinationPriority y.record.destination

/-- Equal up to the time: scores, priority and confidence. -/
structure EqualPrecheckRank (x y : PrecheckCandidate) : Prop where
  path : x.pathScore = y.pathScore
  matched : x.lexicalScore.isSome = y.lexicalScore.isSome
  lexical : x.lexicalScore.getD ⟨0⟩ = y.lexicalScore.getD ⟨0⟩
  priority : governancePriority x.result.record.memoryType =
    governancePriority y.result.record.memoryType
  confidence : x.result.record.confidence = y.result.record.confidence

section Keys

variable {earlier later : String}

theorem recentKey_lt {x y : MemoryRecord} (hx : x.updatedAt = later) (hy : y.updatedAt = earlier)
    (hne : earlier ≠ later) : recentKey x < recentKey y ↔ earlier < later := by
  rw [recentKey, recentKey, Prod.Lex.toLex_lt_toLex, hx, hy, OrderDual.toDual_lt_toDual,
    OrderDual.toDual_inj]
  constructor
  · rintro (h | ⟨h, -⟩)
    · exact h
    · exact absurd h.symm hne
  · exact Or.inl

theorem rowKey_lt {x y : MemoryRecord × F64} (hrank : x.2.numKey = y.2.numKey)
    (hx : x.1.updatedAt = later) (hy : y.1.updatedAt = earlier) (hne : earlier ≠ later) :
    rowKey x < rowKey y ↔ earlier < later := by
  rw [rowKey, rowKey, Prod.Lex.toLex_lt_toLex, hrank, ← recentKey_lt hx hy hne]
  simp

theorem rankKey_lt {x y : SearchResult} (hrank : EqualRank x y) (hx : x.record.updatedAt = later)
    (hy : y.record.updatedAt = earlier) (hne : earlier ≠ later) :
    rankKey x < rankKey y ↔ earlier < later := by
  obtain ⟨hscore, hdestination⟩ := hrank
  rw [← recentKey_lt hx hy hne, rankKey, rankKey, hscore, hdestination, recentKey, recentKey]
  simp [Prod.Lex.toLex_lt_toLex]

theorem precheckKey_lt {x y : PrecheckCandidate} (hrank : EqualPrecheckRank x y)
    (hx : x.result.record.updatedAt = later) (hy : y.result.record.updatedAt = earlier)
    (hne : earlier ≠ later) : precheckKey x < precheckKey y ↔ earlier < later := by
  rw [← recentKey_lt hx hy hne, precheckKey, precheckKey, hrank.path, hrank.matched, hrank.lexical,
    hrank.priority, hrank.confidence, recentKey, recentKey]
  simp [Prod.Lex.toLex_lt_toLex]

theorem EqualRank.symm {x y : SearchResult} (h : EqualRank x y) : EqualRank y x :=
  ⟨h.1.symm, h.2.symm⟩

theorem EqualPrecheckRank.symm {x y : PrecheckCandidate} (h : EqualPrecheckRank x y) :
    EqualPrecheckRank y x :=
  ⟨h.path.symm, h.matched.symm, h.lexical.symm, h.priority.symm, h.confidence.symm⟩

theorem eventKey_lt {x y : MemoryEvent} (hx : x.createdAt = earlier) (hy : y.createdAt = later)
    (hne : earlier ≠ later) :
    EventExport.eventKey x < EventExport.eventKey y ↔ earlier < later := by
  rw [EventExport.eventKey, EventExport.eventKey, Prod.Lex.toLex_lt_toLex, hx, hy]
  exact or_iff_left fun h => hne h.1

end Keys

/-! ### Every order at once -/

/-- In every place that orders by time, of two records of equal rank, or of two events, the later
one is placed as the later one, under every limit, exactly when `p`. -/
structure OrderedByTime [FullText] [EventExport.PayloadReader] (earlier later : String) (p : Prop) :
    Prop where
  search : ∀ (db : Db) (input : SearchInput) (query evaluatedAt : String)
    (rows : List (MemoryRecord × F64)), rankedRows db input query evaluatedAt = .ok rows →
      ∀ x ∈ rows, ∀ y ∈ rows, x.2.numKey = y.2.numKey → x.1.updatedAt = later →
        y.1.updatedAt = earlier → (KeptFirst rows x y ↔ p)
  context : ∀ (db : Db) (destination : MemoryDestination) (requestedPath evaluatedAt : String)
    (records : List MemoryRecord),
      contextPathRecords db destination requestedPath evaluatedAt = .ok records →
        ∀ x ∈ records, ∀ y ∈ records, x.updatedAt = later → y.updatedAt = earlier →
          (KeptFirst records x y ↔ p)
  precheck : ∀ (db : Db) (scopeKind : Option ScopeKind) (requestedPath evaluatedAt : String)
    (records : List MemoryRecord),
      pathGovernanceRecords db scopeKind requestedPath evaluatedAt = .ok records →
        ∀ x ∈ records, ∀ y ∈ records, x.updatedAt = later → y.updatedAt = earlier →
          (KeptFirst records x y ↔ p)
  rankedResults : ∀ (results : List SearchResult), ∀ x ∈ sortedCandidates results,
    ∀ y ∈ sortedCandidates results, EqualRank x y → x.record.updatedAt = later →
      y.record.updatedAt = earlier → (KeptFirst (sortedCandidates results) x y ↔ p)
  precheckCandidates : ∀ (candidates : List PrecheckCandidate), ∀ x ∈ candidates,
    ∀ y ∈ candidates, EqualPrecheckRank x y → x.result.record.updatedAt = later →
      y.result.record.updatedAt = earlier →
        (KeptFirst (candidates.insertionSort fun a b => comparePrecheckCandidates a b ≠ .gt) x y ↔ p)
  events : ∀ (first second : EventExport.EventLog),
    ∀ x ∈ EventExport.exportedEvents first second, ∀ y ∈ EventExport.exportedEvents first second,
      x.createdAt = earlier → y.createdAt = later →
        (KeptFirst (EventExport.exportedEvents first second) x y ↔ p)

/-- **Recency**: of two timestamps that the importer accepts, the later one is later in every order
of recall and export exactly when the fields written in the earlier text come before those written
in the later one. -/
theorem recency_iff [FullText] [EventExport.PayloadReader] {earlier later : String}
    {s t : OffsetDateTime} (hs : Rfc3339.parse earlier = some s) (ht : Rfc3339.parse later = some t)
    (hlt : s < t) : OrderedByTime earlier later (Rfc3339.WrittenBefore earlier later) := by
  have hne : earlier ≠ later := by
    rintro rfl
    obtain rfl := Option.some.inj (hs.symm.trans ht)
    exact lt_irrefl s.utc hlt
  have htext := Rfc3339.text_lt_iff hs ht
  constructor
  · intro db input query evaluatedAt rows hrows x hx y hy hrank hlater hearlier
    obtain ⟨current, -, h⟩ := bind_eq_ok.1 hrows
    obtain rfl := pure_eq_ok.1 h
    rw [← htext]
    exact keptFirst_iff_of_tie (pairwise_insertionSort compareRows_ne_gt current) hx hy
      (rowKey_lt hrank hlater hearlier hne) (rowKey_lt hrank.symm hearlier hlater hne.symm) hne
  · intro db destination requestedPath evaluatedAt records hrecords x hx y hy hlater hearlier
    obtain ⟨rows, -, h⟩ := bind_eq_ok.1 hrecords
    obtain rfl := pure_eq_ok.1 h
    rw [← htext]
    exact keptFirst_iff_of_tie (pairwise_insertionSort recentFirst_iff rows) hx hy
      (recentKey_lt hlater hearlier hne) (recentKey_lt hearlier hlater hne.symm) hne
  · intro db scopeKind requestedPath evaluatedAt records hrecords x hx y hy hlater hearlier
    obtain ⟨rows, -, h⟩ := bind_eq_ok.1 hrecords
    obtain rfl := pure_eq_ok.1 h
    rw [← htext]
    exact keptFirst_iff_of_tie (pairwise_insertionSort recentFirst_iff rows) hx hy
      (recentKey_lt hlater hearlier hne) (recentKey_lt hearlier hlater hne.symm) hne
  · intro results x hx y hy hrank hlater hearlier
    rw [← htext]
    exact keptFirst_iff_of_tie (pairwise_sortedCandidates results) hx hy
      (rankKey_lt hrank hlater hearlier hne) (rankKey_lt hrank.symm hearlier hlater hne.symm) hne
  · intro candidates x hx y hy hrank hlater hearlier
    have hperm := List.perm_insertionSort
      (fun a b => comparePrecheckCandidates a b ≠ .gt) candidates
    rw [← htext]
    exact keptFirst_iff_of_tie (pairwise_precheckCandidates candidates)
      (hperm.mem_iff.2 hx) (hperm.mem_iff.2 hy) (precheckKey_lt hrank hlater hearlier hne)
      (precheckKey_lt hrank.symm hearlier hlater hne.symm) hne
  · intro first second x hx y hy hearlier hlater
    rw [← htext]
    exact keptFirst_iff_of_tie (EventExport.pairwise_exportedEvents first second) hx hy
      (eventKey_lt hearlier hlater hne) (eventKey_lt hlater hearlier hne.symm) hne

/-! ### Half a second -/

/-- A repository decision of a context, by its last update. -/
def decisionAt (id updatedAt : String) : SearchResult where
  record :=
    { id, memoryType := .decision, lane := .semantic, destination := .repo, scopeKind := .repo
      scopeId := none, visibility := .repo, title := "Storage", body := "Use SQLite."
      status := .active, confidence := 1, sourceKind := none, sourceRef := none, proposalId := none
      retention := ⟨none, none, none, none, none, none⟩
      origin := ⟨"recent", .repositoryMaterialization⟩, lineage := none, contentHash := "b3"
      createdAt := "2026-07-14T08:30:00Z", updatedAt, supersedesId := none }
  score := ⟨0⟩
  snippet := none
  rationale := none
  ranking := none
  paths := []
  citations := []

@[reducible] def noText : FullText where
  rank? _ _ _ := none

theorem minute_order : @OrderedByTime noText EventExport.emptyPayloads "2026-07-14T08:30:00Z"
    "2026-07-14T08:31:00Z"
    (Rfc3339.WrittenBefore "2026-07-14T08:30:00Z" "2026-07-14T08:31:00Z") :=
  @recency_iff noText EventExport.emptyPayloads "2026-07-14T08:30:00Z" "2026-07-14T08:31:00Z"
    ⟨1784017800000000000, 0⟩ ⟨1784017860000000000, 0⟩ (by decide +kernel) (by decide +kernel)
    (by decide)

/-- The writer leaves out the fraction of a whole second, and the record of half a second later is
placed behind. -/
theorem half_second_behind :
    Rfc3339.format ⟨1784017800000000000, 0⟩ = some "2026-07-14T08:30:00Z" ∧
      Rfc3339.format ⟨1784017800500000000, 0⟩ = some "2026-07-14T08:30:00.5Z" ∧
      EqualRank (decisionAt "rec-1" "2026-07-14T08:30:00Z")
        (decisionAt "rec-2" "2026-07-14T08:30:00.5Z") ∧
      compareRankedResults (decisionAt "rec-1" "2026-07-14T08:30:00Z")
        (decisionAt "rec-2" "2026-07-14T08:30:00.5Z") = .lt := by
  have hne : "2026-07-14T08:30:00.5Z" ≠ "2026-07-14T08:30:00Z" := by decide
  have htext : "2026-07-14T08:30:00.5Z" < "2026-07-14T08:30:00Z" := by decide +kernel
  refine ⟨by decide +kernel, by decide +kernel, ⟨rfl, rfl⟩, ?_⟩
  have hrank : EqualRank (decisionAt "rec-1" "2026-07-14T08:30:00Z")
      (decisionAt "rec-2" "2026-07-14T08:30:00.5Z") := ⟨rfl, rfl⟩
  rw [compareRankedResults_eq, compare_lt_iff_lt]
  exact (rankKey_lt hrank rfl rfl hne).2 htext

end Search
end Memzoi
