/-
# Capture candidates

Source: `capture.rs` (the types of sources, evidence and candidates,
`draft_key`, `conflict_key`, `domain_id`, `preliminary_action`, `candidate`,
`default_scope`) and `MemoryWriteRoute` of `memory_policy.rs`.

A candidate is a memory draft with the evidence it was read from, a
classification and an action. Its identity covers the claim, the confidence, the
classification and the action. The digests of canonical JSON are a parameter,
one function for each domain the source hashes under.
-/

import Memzoi.Maintenance.Plan
import Memzoi.MemoryPolicy
import Memzoi.Origin

namespace Memzoi
namespace Capture

open Fallible
open Maintenance (OkfProposalSensitivity RepositoryContentClass)
open Origin (OriginOutcomeKind)

/-! ### Sources -/

structure CaptureGitSourceContext where
  repository : String
  base : String
  head : String
  deriving DecidableEq, Repr

inductive CaptureSourceLocator where
  | projectPath (path : String)
  | projectDirectory (path : String) (recursive : Bool) (ignorePolicy : String)
      (includes : List String)
  | suppliedBytes (displayName mediaType : String) (byteLength : Nat) (sourceContentHash : String)
  | gitRange (repository base head mergeParent : String) (renameDetection : Bool)
      (diffFormat : String)
  deriving DecidableEq, Repr

def CaptureSourceLocator.projectPath? : CaptureSourceLocator → Option String
  | projectPath path => some path
  | projectDirectory path _ _ _ => some path
  | _ => none

structure CaptureSourceRequest where
  sourceId : String
  locator : CaptureSourceLocator
  mediaType : String
  git : Option CaptureGitSourceContext
  deriving DecidableEq, Repr

structure CaptureSourceMemberSnapshot where
  path : String
  byteLength : Nat
  sourceContentHash : String
  deriving DecidableEq, Repr

structure CapturePolicyInputSnapshot where
  path : String
  sourceContentHash : String
  engineIdentity : String
  deriving DecidableEq, Repr

structure CaptureSourceSnapshot where
  sourceId : String
  locator : CaptureSourceLocator
  mediaType : String
  byteLength : Nat
  sourceContentHash : String
  members : List CaptureSourceMemberSnapshot
  policyInputs : List CapturePolicyInputSnapshot
  deriving DecidableEq, Repr

structure CaptureExtractorIdentity where
  kind : String
  id : String
  implementationDigest : String
  deriving DecidableEq, Repr

/-! ### Evidence -/

structure CaptureEvidenceSpan where
  byteStart : Nat
  byteEnd : Nat
  lineStart : Nat
  lineEnd : Nat
  deriving DecidableEq, Repr

inductive CaptureSemanticLocation where
  | instruction
  | adr (field status : String) (target : Option String)
  | gitChange (repository base head : String) (oldBlob newBlob oldPath newPath : Option String)
      (changeKind hunk side : String) (oldLineStart oldLineEnd newLineStart newLineEnd : Option Nat)
  deriving DecidableEq, Repr

structure CaptureEvidence where
  sourceId : String
  locator : CaptureSourceLocator
  sourceContentHash : String
  span : CaptureEvidenceSpan
  evidenceContentHash : String
  text : Option String
  headingPath : List String
  sectionKind : String
  semanticLocation : Option CaptureSemanticLocation
  deriving DecidableEq, Repr

/-! ### Drafts and candidates -/

structure CaptureScope where
  kind : ScopeKind
  id : Option String
  paths : List String
  deriving DecidableEq, Repr

structure CaptureMemoryDraft where
  memoryType : MemoryType
  lane : MemoryLane
  title : String
  body : String
  scope : CaptureScope
  tags : List String
  deriving DecidableEq, Repr

structure CaptureClassification where
  destination : MemoryDestination
  destinationReason : String
  sensitivity : OkfProposalSensitivity
  sensitivityReason : String
  contentClass : RepositoryContentClass
  policy : MemoryDestinationPolicy
  deriving DecidableEq, Repr

inductive CaptureMatchKind where
  | canonicalRecord | pendingProposal | runtimeRecord | earlierCandidate
  deriving DecidableEq, Repr

def CaptureMatchKind.rank : CaptureMatchKind → Nat
  | canonicalRecord => 0
  | pendingProposal => 1
  | runtimeRecord => 2
  | earlierCandidate => 3

structure CaptureMatch where
  kind : CaptureMatchKind
  id : String
  destination : Option MemoryDestination
  contentHash : String
  status : String
  updatedAt : Option String
  deriving DecidableEq, Repr

inductive CaptureAction where
  | replay (outcome : OriginOutcomeKind) (destination : Option MemoryDestination)
      (recordId proposalId : Option String)
  | createProposal (proposalId path : String)
  | createRuntime (route : MemoryWriteRoute)
  | duplicate (found : List CaptureMatch)
  | conflict (found : List CaptureMatch)
  | noWrite (reasonCode : String)
  | blocked (code : String)
  deriving DecidableEq, Repr

structure CaptureCandidate where
  claimId : String
  candidateId : String
  memory : CaptureMemoryDraft
  evidence : List CaptureEvidence
  extraction : CaptureExtractorIdentity
  confidence : ℚ
  classification : CaptureClassification
  action : CaptureAction
  deriving DecidableEq, Repr

namespace CaptureAction

def isReplay : CaptureAction → Bool
  | replay _ _ _ _ => true
  | _ => false

def isDuplicate : CaptureAction → Bool
  | duplicate _ => true
  | _ => false

def isConflict : CaptureAction → Bool
  | conflict _ => true
  | _ => false

/-- The action writes a proposal or a private record. -/
def creates : CaptureAction → Bool
  | createProposal _ _ => true
  | createRuntime _ => true
  | _ => false

/-- A review can route a candidate with this action to a write, as it stands or edited. -/
def routable : CaptureAction → Bool
  | createProposal _ _ => true
  | createRuntime _ => true
  | noWrite _ => true
  | _ => false

def proposalId? : CaptureAction → Option String
  | createProposal proposalId _ => some proposalId
  | _ => none

theorem isReplay_of_creates {action : CaptureAction} (h : action.creates = true) :
    action.isReplay = false := by
  cases action <;> first | rfl | exact absurd h (by simp [creates])

theorem creates_of_proposalId? {action : CaptureAction} {id : String}
    (h : action.proposalId? = some id) : action.creates = true := by
  cases action <;> first | rfl | exact absurd h (by simp [proposalId?])

end CaptureAction

/-! ### Digests -/

/-- A BLAKE3 hash. -/
abbrev Hash : Type := BitVec 256

/-- `to_hex`: 64 digits, the highest one first. -/
def hexDigits (hash : Hash) : List Char :=
  (List.range 64).map fun i => Nat.digitChar (hash.toNat / 16 ^ (63 - i) % 16)

def toHex (hash : Hash) : String := String.ofList (hexDigits hash)

/-- The part of a draft that `draft_key` covers. -/
abbrev ExactDraft : Type := MemoryType × MemoryLane × String × String × CaptureScope

class CaptureDigests where
  draft : ExactDraft → Hash
  claim : CaptureMemoryDraft × List CaptureEvidence × CaptureExtractorIdentity → Hash
  candidate : String × ℚ × CaptureClassification × CaptureAction → Hash

/-- `domain_id`, from the digest under the domain. -/
def domainId (label : String) (hash : Hash) : String := label ++ "_" ++ toHex hash

section Keys

variable [Text.Unicode]

def draftKey [CaptureDigests] (memory : CaptureMemoryDraft) : String :=
  "blake3:" ++ toHex (CaptureDigests.draft (memory.memoryType, memory.lane,
    Text.Unicode.lowercase (Text.trim memory.title), Text.trim memory.body, memory.scope))

def conflictKey (memory : CaptureMemoryDraft) : MemoryType × String × ScopeKind × Option String :=
  (memory.memoryType, Text.Unicode.lowercase (Text.trim memory.title), memory.scope.kind,
    memory.scope.id)

end Keys

/-! ### New candidates -/

def defaultScope (source : CaptureSourceRequest) : CaptureScope :=
  ⟨.repo, none, source.locator.projectPath?.toList⟩

def preliminaryAction (classification : CaptureClassification) : CaptureAction :=
  match classification.policy.writeRoute with
  | .fileBackedProposal => .createProposal "" ""
  | .runtimeLocal => .createRuntime .runtimeLocal
  | .runtimeSession => .createRuntime .runtimeSession
  | .noWrite => .noWrite "needs_review"

section Candidate

variable [CaptureDigests]

/-- The candidate under the identity of its content. -/
def CaptureCandidate.identified (candidate : CaptureCandidate) : CaptureCandidate :=
  { candidate with
    candidateId := domainId "candidate" (CaptureDigests.candidate
      (candidate.claimId, candidate.confidence, candidate.classification, candidate.action)) }

def candidate (memory : CaptureMemoryDraft) (evidence : List CaptureEvidence)
    (extractor : CaptureExtractorIdentity) (destination : MemoryDestination)
    (sensitivity : OkfProposalSensitivity) (contentClass : RepositoryContentClass)
    (destinationReason sensitivityReason : String) : CaptureCandidate :=
  let classification : CaptureClassification :=
    ⟨destination, destinationReason, sensitivity, sensitivityReason, contentClass, destination.policy⟩
  CaptureCandidate.identified {
    claimId := domainId "claim" (CaptureDigests.claim (memory, evidence, extractor))
    candidateId := ""
    memory := memory
    evidence := evidence
    extraction := extractor
    confidence := 1
    classification := classification
    action := preliminaryAction classification }

end Candidate

end Capture
end Memzoi
