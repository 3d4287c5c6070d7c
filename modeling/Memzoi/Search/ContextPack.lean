/-
# Building a context pack

Source: `context.rs` (`build_context_pack_at_with_audit` and the functions under
it).

The candidates that the searches give are collected in a map under their record
ids, ranked, and deduplicated twice: by content hash, then by normalized title
and body. The best ones are selected while their estimated sizes fit the budget,
and rendered. Sizes and the budget are counts of words. The order in which the
map gives its values back is not fixed, so the pack is a function of a list of
ranked results; the arithmetic of the ranking is a parameter.
-/

import Memzoi.Lib.BestByKey
import Memzoi.Lib.Words
import Memzoi.Search.Results

namespace Memzoi
namespace Search

open Fallible

def maxOmittedItems : Nat := 10

structure ContextPackInput where
  task : String
  pathPrefix : Option String
  tokenBudget : Option Nat
  includeLocal : Bool
  includeSession : Bool
  deriving DecidableEq, Repr

def requestedDestinations (input : ContextPackInput) : List MemoryDestination :=
  [.repo] ++ (if input.includeLocal then [.«local»] else []) ++
    (if input.includeSession then [.session] else [])

/-! ### Collecting candidates -/

structure ContextCandidate where
  result : SearchResult
  matchedFts : Bool
  deriving DecidableEq, Repr

def ContextCandidate.recordId (candidate : ContextCandidate) : String := candidate.result.record.id

def ContextCandidate.preferredOver (candidate existing : ContextCandidate) : Bool :=
  candidate.matchedFts && !existing.matchedFts

/-- `insert_candidate` over the candidates of all searches, in the order they come. -/
def collect (found : List ContextCandidate) : SortedMap String ContextCandidate :=
  BestByKey.best ContextCandidate.preferredOver ContextCandidate.recordId found

/-- A candidate with the score and the reasons of `rank_candidate`. -/
def ranked (rankCandidate : ContextCandidate → SearchRanking) (candidate : ContextCandidate) :
    SearchResult :=
  let ranking := rankCandidate candidate
  { candidate.result with
    score := ranking.score
    rationale := some ("; ".intercalate ranking.reasons)
    ranking := some ranking }

/-! ### Ranking and deduplication -/

def destinationPriority : MemoryDestination → Nat
  | .repo => 3
  | .«local» => 2
  | .session => 1
  | .discard => 0
  | .needsReview => 0

def rankingScore (result : SearchResult) : F64 :=
  (result.ranking.map (·.score)).getD result.score

def compareRankedResults (left right : SearchResult) : Ordering :=
  ((rankingScore right).totalCmp (rankingScore left)).then
    ((compare (destinationPriority right.record.destination)
        (destinationPriority left.record.destination)).then
      ((compare right.record.updatedAt left.record.updatedAt).then
        (compare left.record.id right.record.id)))

/-- `compare_ranked_results(result, existing) == Ordering::Less`. -/
def ranksBefore (result existing : SearchResult) : Bool := compareRankedResults result existing = .lt

def normalizeText (text : String) : String :=
  String.ofList ((Text.collapseWhitespace text).toList.map Char.toLower)

/-- One turn of `best_by_key`, over the best results and the results without a key. -/
def bestStep (keyFor : SearchResult → Option String)
    (state : SortedMap String SearchResult × List SearchResult) (result : SearchResult) :
    SortedMap String SearchResult × List SearchResult :=
  match keyFor result with
  | none => (state.1, state.2 ++ [result])
  | some key => (BestByKey.keep ranksBefore state.1 key result, state.2)

def bestByKey (results : List SearchResult) (keyFor : SearchResult → Option String) :
    List SearchResult :=
  let state := results.foldl (bestStep keyFor) (.empty, [])
  state.2 ++ state.1.values

def hashKey (result : SearchResult) : String := "hash:" ++ result.record.contentHash

def textKey (result : SearchResult) : String :=
  "text:" ++ normalizeText result.record.title ++ "\n" ++ normalizeText result.record.body

def deduplicateCandidates (results : List SearchResult) : List SearchResult :=
  bestByKey (bestByKey results (some ∘ hashKey)) (some ∘ textKey)

/-- The deduplicated results, best one first. -/
def sortedCandidates (results : List SearchResult) : List SearchResult :=
  (deduplicateCandidates results).insertionSort fun a b => compareRankedResults a b ≠ .gt

/-! ### Selection -/

def estimateWords (text : String) : Nat := (Text.words text.toList).length

def estimateResult (result : SearchResult) : Nat :=
  estimateWords result.record.title + estimateWords result.record.body + 6

structure SelectedContextItem where
  result : SearchResult
  estimatedSize : Nat
  deriving DecidableEq, Repr

structure ContextSelection where
  selected : List SelectedContextItem
  omitted : List SelectedContextItem
  deriving DecidableEq, Repr

/-- The loop over the results, with the words used so far. -/
def selectFrom (budget : Nat) : List SearchResult → Nat → ContextSelection → ContextSelection
  | [], _, selection => selection
  | result :: results, used, selection =>
    let estimate := estimateResult result
    let item : SelectedContextItem := ⟨result, estimate⟩
    if selection.selected = [] ∨ used + estimate ≤ budget then
      selectFrom budget results (used + estimate)
        { selection with selected := selection.selected ++ [item] }
    else selectFrom budget results used { selection with omitted := selection.omitted ++ [item] }

def selectForBudget (results : List SearchResult) (budget : Nat) : ContextSelection :=
  selectFrom budget results 0 ⟨[], []⟩

/-! ### Rendering -/

def primaryCitation (result : SearchResult) : Fallible MemoryCitation := do
  let expectedProvenance ← recordPlane result.record
  match result.citations.head? with
  | some citation =>
    if citation.provenance = expectedProvenance ∧ citation.destination = result.record.destination
    then .ok citation
    else bail ("memory recall invariant violated: citation for " ++ result.record.id ++
      " has provenance=" ++ citation.provenance.asStr ++ " and destination=" ++
      citation.destination.asStr ++ ", expected provenance=" ++ expectedProvenance.asStr ++
      " and destination=" ++ result.record.destination.asStr)
  | none => citationFor result.record result.paths.head?

def sourceLabel (record : MemoryRecord) : String :=
  match record.destination with
  | .repo => "unknown"
  | .«local» => "local memory"
  | .session => "session memory"
  | .discard => "non-repo memory"
  | .needsReview => "non-repo memory"

/-- What a rendered line cites as the source of a record. -/
def citedSource (result : SearchResult) (citation : MemoryCitation) : String :=
  citation.sourceRef.getD (sourceLabel result.record)

def renderLine (result : SearchResult) (citation : MemoryCitation) : String :=
  "- [" ++ citation.recordId ++ "] (" ++ result.record.memoryType.asStr ++ "/provenance=" ++
    citation.provenance.asStr ++ "/destination=" ++ citation.destination.asStr ++ "/scope=" ++
    result.record.scopeKind.asStr ++ ") " ++ result.record.title ++ ": " ++ result.record.body ++
    "\n  Source: " ++ citedSource result citation

/-- The lines of a prompt. -/
def promptLines (results : List SearchResult) (citations : List MemoryCitation) : List String :=
  "# Memzoi Context" :: results.zipWith renderLine citations

def truncateWords (text : String) (budget : Nat) : String :=
  let words := Text.words text.toList
  if words.length ≤ budget then text
  else String.ofList ([ ' '].intercalate (words.take budget))

/-- The prompt, its words, and whether it was cut. -/
def renderPrompt (results : List SearchResult) (citations : List MemoryCitation) (budget : Nat) :
    String × Nat × Bool :=
  let rendered := "\n".intercalate (promptLines results citations)
  let renderedWords := estimateWords rendered
  if renderedWords ≤ budget then (rendered, renderedWords, false)
  else
    let truncated := truncateWords rendered budget
    (truncated, estimateWords truncated, true)

/-! ### The pack -/

structure ContextPackIncludedItem where
  recordId : String
  title : String
  memoryType : MemoryType
  lane : MemoryLane
  scopeKind : ScopeKind
  path : Option String
  citation : MemoryCitation
  provenance : MemoryPlane
  destination : MemoryDestination
  score : F64
  rationale : Option String
  estimatedSize : Nat
  deriving DecidableEq, Repr

def includedItem (item : SelectedContextItem) (citation : MemoryCitation) :
    ContextPackIncludedItem :=
  { recordId := item.result.record.id
    title := item.result.record.title
    memoryType := item.result.record.memoryType
    lane := item.result.record.lane
    scopeKind := item.result.record.scopeKind
    path := item.result.paths.head?.map (·.path)
    citation
    provenance := citation.provenance
    destination := item.result.record.destination
    score := item.result.score
    rationale := item.result.rationale
    estimatedSize := item.estimatedSize }

structure ContextPackOmittedItem where
  recordId : String
  title : String
  memoryType : MemoryType
  lane : MemoryLane
  destination : MemoryDestination
  estimatedSize : Nat
  reason : String
  deriving DecidableEq, Repr

def omittedItem (item : SelectedContextItem) : ContextPackOmittedItem :=
  ⟨item.result.record.id, item.result.record.title, item.result.record.memoryType,
    item.result.record.lane, item.result.record.destination, item.estimatedSize, "budget_exceeded"⟩

structure ContextPackBudget where
  requested : Option Nat
  effective : Nat
  estimatedUsed : Nat
  candidateRecords : Nat
  selectedRecords : Nat
  renderedWords : Nat
  truncated : Bool
  deriving DecidableEq, Repr

/-- The pack without its drawn id, its time and its empty lists. -/
structure ContextPack where
  task : String
  prompt : String
  records : List SearchResult
  citations : List MemoryCitation
  requestedDestinations : List MemoryDestination
  includedDestinations : List MemoryDestination
  budget : ContextPackBudget
  included : List ContextPackIncludedItem
  omitted : List ContextPackOmittedItem
  deriving DecidableEq, Repr

def effectiveBudget (input : ContextPackInput) : Nat := max (input.tokenBudget.getD 400) 1

/-- What is selected of the ranked results, and what the budget leaves out. -/
def contextSelection (input : ContextPackInput) (results : List SearchResult) : ContextSelection :=
  selectForBudget (sortedCandidates results) (effectiveBudget input)

/-- The pack of a selection, its citations and its rendered prompt. -/
def assemblePack (input : ContextPackInput) (candidateRecords : Nat) (selection : ContextSelection)
    (citations : List MemoryCitation) (rendered : String × Nat × Bool) : ContextPack :=
  let records := selection.selected.map (·.result)
  { task := input.task
    prompt := rendered.1
    records
    citations
    requestedDestinations := requestedDestinations input
    includedDestinations := (requestedDestinations input).filter fun destination =>
      records.any fun result => result.record.destination = destination
    budget :=
      { requested := input.tokenBudget
        effective := effectiveBudget input
        estimatedUsed := rendered.2.1
        candidateRecords
        selectedRecords := records.length
        renderedWords := rendered.2.1
        truncated := rendered.2.2 }
    included := selection.selected.zipWith includedItem citations
    omitted := (selection.omitted.take maxOmittedItems).map omittedItem }

section assemblePack

variable (input : ContextPackInput) (candidateRecords : Nat) (selection : ContextSelection)
  (citations : List MemoryCitation) (rendered : String × Nat × Bool)

@[simp] theorem assemblePack_records :
    (assemblePack input candidateRecords selection citations rendered).records =
      selection.selected.map (·.result) := rfl

@[simp] theorem assemblePack_citations :
    (assemblePack input candidateRecords selection citations rendered).citations = citations := rfl

@[simp] theorem assemblePack_included :
    (assemblePack input candidateRecords selection citations rendered).included =
      selection.selected.zipWith includedItem citations := rfl

@[simp] theorem assemblePack_prompt :
    (assemblePack input candidateRecords selection citations rendered).prompt = rendered.1 := rfl

@[simp] theorem assemblePack_truncated :
    (assemblePack input candidateRecords selection citations rendered).budget.truncated =
      rendered.2.2 := rfl

end assemblePack

def buildContextPack (input : ContextPackInput) (results : List SearchResult) :
    Fallible ContextPack := do
  let selection := contextSelection input results
  let records := selection.selected.map (·.result)
  let citations ← mapAll primaryCitation records
  .ok (assemblePack input (sortedCandidates results).length selection citations
    (renderPrompt records citations (effectiveBudget input)))

end Search
end Memzoi
