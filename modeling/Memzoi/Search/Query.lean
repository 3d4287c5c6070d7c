/-
# Searching the index

Source: `search.rs` (`search_memory_at_with_audit` and the functions under it).

The full-text index is a parameter: for a query it gives the rank of a record's
row, or none when the row does not match. The rows that match are filtered,
ordered by rank and cut off at the limit. The audit event of a search is left
out.
-/

import Memzoi.Maintenance.Contradiction
import Memzoi.Recall
import Memzoi.Search.Results

namespace Memzoi
namespace Search

open Fallible
open Maintenance (pathMatchesRequest)

def searchResultLimitMax : Nat := 100

/-- `memory_fts MATCH ?1` and `bm25(memory_fts)`: the rank of the row of a record, if it matches. -/
class FullText where
  rank? : Db → String → MemoryRecord → Option F64

structure SearchInput where
  query : String
  scopeKind : Option ScopeKind
  scopeId : Option String
  memoryType : Option MemoryType
  lane : Option MemoryLane
  destination : Option MemoryDestination
  pathPrefix : Option String
  limit : Nat
  deriving DecidableEq, Repr

/-- `path.map(str::trim).filter(|path| !path.is_empty())`. -/
def normalizedPath (path : Option String) : Option String :=
  (path.map Text.trim).filter (· ≠ "")

def ftsQuery [Text.Unicode] (query : String) : String :=
  " OR ".intercalate ((Text.pieces (fun ch => !Text.Unicode.isAlphanumeric ch && ch ≠ '_') query).map
    fun term => "\"" ++ String.ofList (term.toList.filter (· ≠ '"')) ++ "\"")

def normalizedLimit (limit : Nat) : Nat :=
  if limit = 0 then 10 else min limit searchResultLimitMax

/-- `ORDER BY path ASC, symbol ASC`: a null comes first. -/
def bindingLe (a b : PathBinding) : Bool :=
  a.path < b.path || (a.path = b.path &&
    match a.symbol, b.symbol with
    | none, _ => true
    | some _, none => false
    | some x, some y => x ≤ y)

def loadPaths (db : Db) (recordId : String) : List PathBinding :=
  ((db.paths.rows.filter (·.recordId = recordId)).map fun path =>
    (⟨path.path, path.symbol, path.lineStart, path.lineEnd⟩ : PathBinding)).insertionSort
      fun a b => bindingLe a b

/-- A path of the record matches the request. -/
def hasMatchingPath (db : Db) (requestedPath : String) (record : MemoryRecord) : Bool :=
  (loadPaths db record.id).any fun path => pathMatchesRequest path.path requestedPath

/-- The filters of the query, with the trimmed scope id and path. -/
def passesFilters (db : Db) (input : SearchInput) (record : MemoryRecord) : Bool :=
  record.destination = input.destination.getD .repo &&
    input.scopeKind.all (record.scopeKind = ·) &&
    (input.scopeId.map Text.trim).all (record.scopeId = some ·) &&
    input.memoryType.all (record.memoryType = ·) && input.lane.all (record.lane = ·) &&
    (normalizedPath input.pathPrefix).all fun path => hasMatchingPath db path record

/-- `ORDER BY filtered_fts.rank ASC, updated_at DESC, id ASC`. -/
def compareRows (left right : MemoryRecord × F64) : Ordering :=
  (compare left.2.numKey right.2.numKey).then
    ((compare right.1.updatedAt left.1.updatedAt).then (compare left.1.id right.1.id))

/-- The rows that match, in order: what the query gives without its limit. -/
def rankedRows [FullText] (db : Db) (input : SearchInput) (query evaluatedAt : String) :
    Fallible (List (MemoryRecord × F64)) := do
  let filtered := db.records.rows.filterMap fun record =>
    if passesFilters db input record then (FullText.rank? db query record).map (Prod.mk record)
    else none
  let current ← keepAll (fun row => Recall.currentAssertion db row.1 evaluatedAt) filtered
  .ok (current.insertionSort fun a b => compareRows a b ≠ .gt)

/-- `text.to_ascii_lowercase()`. -/
def asciiLowercase (text : String) : List Char := text.toList.map Char.toLower

def snippet (record : MemoryRecord) (query : String) : String :=
  if asciiLowercase query <:+: asciiLowercase record.title then record.title
  else String.ofList (record.body.toList.take 240)

def searchResult (db : Db) (input : SearchInput) (row : MemoryRecord × F64) :
    Fallible SearchResult := do
  let paths := loadPaths db row.1.id
  let citationPath := ((normalizedPath input.pathPrefix).bind fun requestedPath =>
    paths.find? fun path => pathMatchesRequest path.path requestedPath).or paths.head?
  let citation ← citationFor row.1 citationPath
  .ok
    { record := row.1
      score := row.2.neg
      snippet := some (snippet row.1 input.query)
      rationale := some "fts5 title/body match"
      ranking := none
      paths
      citations := [citation] }

def searchMemoryAt [Text.Unicode] [FullText] (db : Db) (input : SearchInput) (evaluatedAt : String) :
    Fallible (List SearchResult) := do
  let query := ftsQuery input.query
  if query = "" then .ok []
  else
    ensure (input.scopeId.all fun scopeId => !Text.isBlank scopeId) "scope_id cannot be empty"
    let rows ← rankedRows db input query evaluatedAt
    mapAll (searchResult db input) (rows.take (normalizedLimit input.limit))

end Search
end Memzoi
