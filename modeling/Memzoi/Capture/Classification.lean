/-
# Classification of capture candidates

Source: `capture.rs` (`InventoryEntry`, `CaptureInventorySnapshot`,
`classify_actions`, `classify_actions_with_reserved`,
`apply_runtime_inventory_availability`, `reserve_proposal_id`).

The loop compares each candidate that is not a replay with the inventory and
with the candidates before it, whatever these were marked. A match of the exact
key makes a duplicate and, failing that, a match of the conflict key a conflict;
every other candidate takes the route of its destination. The cancellation of a
planning run is left out.
-/

import Memzoi.Capture.Candidates
import Mathlib

namespace Memzoi
namespace Capture

open Fallible

/-! ### The inventory -/

structure InventoryEntry where
  kind : CaptureMatchKind
  id : String
  destination : MemoryDestination
  memoryType : MemoryType
  lane : MemoryLane
  title : String
  body : String
  scope : CaptureScope
  status : String
  updatedAt : Option String
  deriving DecidableEq, Repr

structure CaptureInventorySnapshot where
  entries : List InventoryEntry
  reservedIds : List String
  runtimeAvailable : Bool
  deriving DecidableEq, Repr

/-- `entry_memory`. -/
def InventoryEntry.memory (entry : InventoryEntry) : CaptureMemoryDraft :=
  ⟨entry.memoryType, entry.lane, entry.title, entry.body, entry.scope, []⟩

/-- The entry of a candidate that is classified. -/
def CaptureCandidate.earlierEntry (candidate : CaptureCandidate) : InventoryEntry where
  kind := .earlierCandidate
  id := candidate.candidateId
  destination := candidate.classification.destination
  memoryType := candidate.memory.memoryType
  lane := candidate.memory.lane
  title := candidate.memory.title
  body := candidate.memory.body
  scope := candidate.memory.scope
  status := "planned"
  updatedAt := none

/-! ### Proposal identifiers -/

/-- `while slug.contains("--")`: runs of hyphens become one. -/
def collapseHyphens : List Char → List Char
  | [] => []
  | ch :: rest =>
    if ch = '-' ∧ rest.head? = some '-' then collapseHyphens rest else ch :: collapseHyphens rest

def slug (title : String) : String :=
  let hyphens := title.toList.map fun ch => if ch.isAlphanum then ch.toLower else '-'
  let trimmed := ((collapseHyphens hyphens).dropWhile (· = '-')).rdropWhile (· = '-')
  let slug := trimmed.take 48
  if slug = [] then "memory" else String.ofList slug

/-- The search for a free suffix; the counter is an `i32`, and its successor is taken first. -/
def reserveFrom (base : String) (used : List String) : Nat → Nat → Fallible (String × List String)
  | 0, _ => .error (.panic "attempt to add with overflow")
  | steps + 1, suffix =>
    let candidate := if suffix = 1 then base else s!"{base}-{suffix}"
    if candidate ∈ used then reserveFrom base used steps (suffix + 1)
    else .ok (candidate, candidate :: used)

def reserveProposalId (title : String) (used : List String) : Fallible (String × List String) :=
  reserveFrom s!"mem_capture_{slug title}" used (2 ^ 31 - 2) 1

/-! ### One candidate -/

/-- `sort_by` with kind and identifier. -/
def sortMatches (found : List CaptureMatch) : List CaptureMatch :=
  found.insertionSort fun a b =>
    a.kind.rank < b.kind.rank ∨ (a.kind.rank = b.kind.rank ∧ a.id ≤ b.id)

section Classify

variable [Text.Unicode] [CaptureDigests]

def InventoryEntry.toMatch (entry : InventoryEntry) : CaptureMatch where
  kind := entry.kind
  id := entry.id
  destination := some entry.destination
  contentHash := draftKey entry.memory
  status := entry.status
  updatedAt := entry.updatedAt

def duplicatesOf (entries : List InventoryEntry) (memory : CaptureMemoryDraft) :
    List CaptureMatch :=
  sortMatches ((entries.filter fun entry => draftKey entry.memory = draftKey memory).map
    InventoryEntry.toMatch)

def conflictsOf (entries : List InventoryEntry) (memory : CaptureMemoryDraft) :
    List CaptureMatch :=
  sortMatches ((entries.filter fun entry => draftKey entry.memory ≠ draftKey memory ∧
    conflictKey entry.memory = conflictKey memory).map InventoryEntry.toMatch)

def pendingProposalPath (proposalId : String) : String :=
  s!".memzoi/proposals/pending/{proposalId}.md"

/-- The action of the route, with the identifiers that are used after it. -/
def routeAction (route : MemoryWriteRoute) (title : String) (used : List String) :
    Fallible (CaptureAction × List String) :=
  match route with
  | .fileBackedProposal => do
    let (proposalId, used) ← reserveProposalId title used
    .ok (.createProposal proposalId (pendingProposalPath proposalId), used)
  | .runtimeLocal => .ok (.createRuntime .runtimeLocal, used)
  | .runtimeSession => .ok (.createRuntime .runtimeSession, used)
  | .noWrite => .ok (.noWrite "needs_review", used)

def conflictClassification (classification : CaptureClassification) : CaptureClassification :=
  { classification with
    destination := .needsReview
    destinationReason := "possible_conflict_requires_lifecycle_resolution"
    policy := MemoryDestination.needsReview.policy }

def applyRuntimeInventoryAvailability (runtimeAvailable : Bool) (candidate : CaptureCandidate) :
    CaptureCandidate :=
  if runtimeAvailable then candidate
  else
    match candidate.action with
    | .createRuntime _ =>
      { candidate with
        classification := { candidate.classification with
          destination := .needsReview
          destinationReason := "runtime_inventory_unavailable_requires_review"
          policy := MemoryDestination.needsReview.policy }
        action := .noWrite "runtime_inventory_unavailable" }
    | _ => candidate

/-- One turn of the loop for a candidate that is not a replay, against the inventory and the
candidates before it. -/
def classifyCandidate (entries : List InventoryEntry) (runtimeAvailable : Bool)
    (used : List String) (candidate : CaptureCandidate) :
    Fallible (CaptureCandidate × List String) :=
  let duplicates := duplicatesOf entries candidate.memory
  let conflicts := conflictsOf entries candidate.memory
  if duplicates ≠ [] then .ok ({ candidate with action := .duplicate duplicates }.identified, used)
  else if conflicts ≠ [] then
    .ok ({ candidate with
      classification := conflictClassification candidate.classification
      action := .conflict conflicts }.identified, used)
  else do
    let (action, used) ←
      routeAction candidate.classification.policy.writeRoute candidate.memory.title used
    .ok ((applyRuntimeInventoryAvailability runtimeAvailable
      { candidate with action := action }).identified, used)

/-! ### The loop -/

/-- The variables of the loop. -/
structure ClassifyState where
  earlier : List InventoryEntry
  usedIds : List String
  done : List CaptureCandidate

def classifyStep (inventory : List InventoryEntry) (runtimeAvailable : Bool)
    (state : ClassifyState) (candidate : CaptureCandidate) : Fallible ClassifyState :=
  if candidate.action.isReplay then
    .ok { state with done := state.done ++ [candidate.identified] }
  else do
    let (planned, usedIds) ←
      classifyCandidate (inventory ++ state.earlier) runtimeAvailable state.usedIds candidate
    .ok ⟨state.earlier ++ [planned.earlierEntry], usedIds, state.done ++ [planned]⟩

def classifyActionsWithReserved (inventory : List InventoryEntry)
    (candidates : List CaptureCandidate) (usedIds : List String) (runtimeAvailable : Bool) :
    Fallible (List CaptureCandidate × List String) := do
  let state ← runAll (classifyStep inventory runtimeAvailable) ⟨[], usedIds, []⟩ candidates
  .ok (state.done, state.usedIds)

def classifyActions (inventory : CaptureInventorySnapshot) (candidates : List CaptureCandidate) :
    Fallible (List CaptureCandidate) := do
  let (planned, _) ← classifyActionsWithReserved inventory.entries candidates inventory.reservedIds
    inventory.runtimeAvailable
  .ok planned

end Classify

end Capture
end Memzoi
