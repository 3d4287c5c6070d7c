/-
# Search results and their citations

Source: `models.rs` (`SearchResult`, `SearchRanking`, `MemoryCitation`) and
`search.rs` (`citation_for`).

The provenance of a capture, which a citation copies from the record, is left
out, and so are the signals that a ranking reports next to its score.
-/

import Memzoi.Lib.Float64
import Memzoi.MemoryPolicy
import Memzoi.OkfMarkdown

namespace Memzoi
namespace Search

open Fallible

/-- A path of a record, as it is read with the record. -/
structure PathBinding where
  path : String
  symbol : Option String
  lineStart : Option Int
  lineEnd : Option Int
  deriving DecidableEq, Repr

structure MemoryCitation where
  recordId : String
  memoryType : MemoryType
  scopeKind : ScopeKind
  provenance : MemoryPlane
  destination : MemoryDestination
  visibility : Visibility
  sourceKind : Option String
  sourceRef : Option String
  path : Option String
  deriving DecidableEq, Repr

structure SearchRanking where
  score : F64
  reasons : List String
  deriving DecidableEq, Repr

structure SearchResult where
  record : MemoryRecord
  score : F64
  snippet : Option String
  rationale : Option String
  ranking : Option SearchRanking
  paths : List PathBinding
  citations : List MemoryCitation
  deriving DecidableEq, Repr

/-- The plane a record is read from. -/
def recordPlane (record : MemoryRecord) : Fallible MemoryPlane :=
  require record.destination.policy.plane
    ("memory recall invariant violated: destination " ++ record.destination.asStr ++
      " has no memory plane")

def citationFor (record : MemoryRecord) (path : Option PathBinding) : Fallible MemoryCitation := do
  let provenance ← recordPlane record
  .ok
    { recordId := record.id
      memoryType := record.memoryType
      scopeKind := record.scopeKind
      provenance
      destination := record.destination
      visibility := record.visibility
      sourceKind := record.sourceKind
      sourceRef := record.sourceRef
      path := path.map (·.path) }

end Search
end Memzoi
