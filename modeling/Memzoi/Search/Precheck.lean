/-
# The precheck

Source: `precheck.rs`.

Governance records come from two queries: one over the path bindings, and one
over the text of the action and the command, which is the general search cut off
at its limit. The two are merged under the record ids, ordered and cut off.
-/

import Memzoi.Search.Query

namespace Memzoi
namespace Search

open Fallible
open Maintenance (pathMatchesRequest trimPath globBase pathIsOrIsUnder)

def precheckResultLimit : Nat := 25

structure PrecheckInput where
  path : Option String
  action : Option String
  command : Option String
  scopeKind : Option ScopeKind
  deriving DecidableEq, Repr

structure PrecheckCandidate where
  result : SearchResult
  pathScore : Nat
  lexicalScore : Option F64
  deriving DecidableEq, Repr

structure PrecheckWarning where
  id : String
  recordId : String
  message : String
  severity : String
  citations : List MemoryCitation
  suggestedNextStep : String
  deriving DecidableEq, Repr

def lexicalQuery (input : PrecheckInput) : Option String :=
  let query := " ".intercalate
    (([input.action, input.command].reduceOption.map Text.trim).filter (· ≠ ""))
  if query = "" then none else some query

/-! ### Paths -/

def pathMatchScore (storedPath requestedPath : String) : Nat :=
  let stored := trimPath storedPath
  let requested := trimPath requestedPath
  if stored = [] ∨ requested = [] then 0
  else if stored = requested then 5
  else
    match globBase stored with
    | some base => if pathIsOrIsUnder requested base then 4 else 0
    | none =>
      match globBase requested with
      | some base => if pathIsOrIsUnder stored base then 4 else 0
      | none =>
        if pathIsOrIsUnder requested stored then 3
        else if pathIsOrIsUnder stored requested then 2
        else 0

/-- The path takes the place of the best one so far. -/
def replacesBest (path : PathBinding) (score : Nat) : Option (PathBinding × Nat) → Bool
  | none => true
  | some (bestPath, bestScore) =>
    bestScore < score || (score = bestScore && path.path < bestPath.path)

/-- One turn of the loop over the paths. -/
def betterPath (requestedPath : String) (best : Option (PathBinding × Nat)) (path : PathBinding) :
    Option (PathBinding × Nat) :=
  let score := pathMatchScore path.path requestedPath
  if !pathMatchesRequest path.path requestedPath || score = 0 then best
  else if replacesBest path score best then some (path, score)
  else best

def bestMatchingPath (paths : List PathBinding) (requestedPath : String) :
    Option (PathBinding × Nat) :=
  paths.foldl (betterPath requestedPath) none

def isGovernanceMemory (record : MemoryRecord) : Bool :=
  record.memoryType = .risk || record.memoryType = .warning || record.memoryType = .failedAttempt

/-- The result of a record found by its best path. -/
def pathResult (db : Db) (record : MemoryRecord) (best : PathBinding × Nat) :
    Fallible (SearchResult × Nat) := do
  let citation ← citationFor record (some best.1)
  .ok
    ({ record
       score := F64.ofNat best.2
       snippet := none
       rationale := some "path binding match"
       ranking := none
       paths := loadPaths db record.id
       citations := [citation] }, best.2)

/-- The records of the query: repository governance records in scope that are current and have a
path that matches, by time and id. -/
def pathGovernanceRecords (db : Db) (scopeKind : Option ScopeKind)
    (requestedPath evaluatedAt : String) : Fallible (List MemoryRecord) := do
  let rows ← keepAll
    (fun record =>
      if record.destination = .repo && isGovernanceMemory record &&
          scopeKind.all (record.scopeKind = ·) && hasMatchingPath db requestedPath record then
        Recall.currentAssertion db record evaluatedAt
      else .ok false)
    db.records.rows
  .ok (rows.insertionSort fun a b =>
    b.updatedAt < a.updatedAt ∨ (a.updatedAt = b.updatedAt ∧ a.id ≤ b.id))

def pathGovernanceCandidates (db : Db) (scopeKind : Option ScopeKind)
    (requestedPath evaluatedAt : String) : Fallible (List (SearchResult × Nat)) := do
  let requested := String.ofList (trimPath requestedPath)
  if requested = "" then .ok []
  else
    let records ← pathGovernanceRecords db scopeKind requested evaluatedAt
    mapAll (fun found => pathResult db found.1 found.2)
      (records.filterMap fun record =>
        (bestMatchingPath (loadPaths db record.id) requested).map (Prod.mk record))

/-! ### The order of candidates -/

def governancePriority : MemoryType → Nat
  | .risk => 3
  | .warning => 2
  | .failedAttempt => 1
  | _ => 0

def comparePrecheckCandidates (left right : PrecheckCandidate) : Ordering :=
  (compare right.pathScore left.pathScore).then
    ((compare right.lexicalScore.isSome left.lexicalScore.isSome).then
      (((right.lexicalScore.getD ⟨0⟩).totalCmp (left.lexicalScore.getD ⟨0⟩)).then
        ((compare (governancePriority right.result.record.memoryType)
            (governancePriority left.result.record.memoryType)).then
          ((compare right.result.record.confidence left.result.record.confidence).then
            ((compare right.result.record.updatedAt left.result.record.updatedAt).then
              (compare left.result.record.id right.result.record.id))))))

/-! ### Warnings -/

def severityFor : MemoryType → String
  | .risk => "high"
  | .warning => "warning"
  | .failedAttempt => "warning"
  | _ => "info"

def suggestedNextStep : MemoryType → String
  | .risk => "Review the cited risk before editing and consider a targeted test."
  | .warning => "Review the cited warning before proceeding."
  | .failedAttempt => "Check the failed-attempt memory and avoid repeating the same approach."
  | _ => "Review the cited memory before proceeding."

/-- The citation of a warning: the first one of the result, or one of the record. -/
def warningCitation (result : SearchResult) : Fallible MemoryCitation :=
  match result.citations.head? with
  | some citation => .ok citation
  | none => do
    let _ ← require result.record.destination.policy.plane
      ("precheck result '" ++ result.record.id ++ "' has a destination without a memory plane")
    citationFor result.record result.paths.head?

def warningFromResult (result : SearchResult) : Fallible PrecheckWarning := do
  let citation ← warningCitation result
  .ok
    { id := "warn_" ++ result.record.id
      recordId := result.record.id
      message := result.record.title ++ ": " ++ result.record.body
      severity := severityFor result.record.memoryType
      citations := [citation]
      suggestedNextStep := suggestedNextStep result.record.memoryType }

/-! ### The precheck -/

/-- The search for the text of the action and the command. -/
def lexicalSearch (input : PrecheckInput) (query : String) : SearchInput :=
  { query
    scopeKind := input.scopeKind
    scopeId := none
    memoryType := none
    lane := none
    destination := none
    pathPrefix := normalizedPath input.path
    limit := 100 }

/-- The entry of a result of the path query. -/
def insertPathCandidate (candidates : SortedMap String PrecheckCandidate)
    (found : SearchResult × Nat) : SortedMap String PrecheckCandidate :=
  candidates.insert found.1.record.id ⟨found.1, found.2, none⟩

/-- The entry of a result of the search, or its score in the entry that is there. -/
def insertLexicalCandidate (candidates : SortedMap String PrecheckCandidate)
    (result : SearchResult) : SortedMap String PrecheckCandidate :=
  match candidates.get? result.record.id with
  | some candidate =>
    candidates.insert result.record.id
      { candidate with
        lexicalScore := some ((candidate.lexicalScore.map (·.max result.score)).getD result.score) }
  | none => candidates.insert result.record.id ⟨result, 0, some result.score⟩

def mergeCandidates (byPath : List (SearchResult × Nat)) (byText : List SearchResult) :
    SortedMap String PrecheckCandidate :=
  (byText.filter fun result => isGovernanceMemory result.record).foldl insertLexicalCandidate
    (byPath.foldl insertPathCandidate .empty)

section Precheck

variable [Text.Unicode] [FullText]

def pathCandidates (db : Db) (input : PrecheckInput) (evaluatedAt : String) :
    Fallible (List (SearchResult × Nat)) :=
  match normalizedPath input.path with
  | some requestedPath => pathGovernanceCandidates db input.scopeKind requestedPath evaluatedAt
  | none => .ok []

def lexicalResults (db : Db) (input : PrecheckInput) (evaluatedAt : String) :
    Fallible (List SearchResult) :=
  match lexicalQuery input with
  | some query => searchMemoryAt db (lexicalSearch input query) evaluatedAt
  | none => .ok []

def precheckAt (db : Db) (input : PrecheckInput) (evaluatedAt : String) :
    Fallible (List PrecheckWarning) := do
  let byPath ← pathCandidates db input evaluatedAt
  let byText ← lexicalResults db input evaluatedAt
  let ordered := (mergeCandidates byPath byText).values.insertionSort fun a b => comparePrecheckCandidates a b ≠ .gt
  mapAll (fun candidate => warningFromResult candidate.result) (ordered.take precheckResultLimit)

end Precheck

end Search
end Memzoi
