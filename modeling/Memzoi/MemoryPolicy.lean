/-
# What a destination permits

Source: `memory_policy.rs`, and `MemoryDestinationClassification` of
`models.rs`.
-/

import Memzoi.Models

namespace Memzoi

inductive MemoryPlane where
  | git | runtime
  deriving DecidableEq, Repr

def MemoryPlane.asStr : MemoryPlane → String
  | git => "git"
  | runtime => "runtime"

def MemoryDestination.asStr : MemoryDestination → String
  | repo => "repo"
  | «local» => "local"
  | session => "session"
  | discard => "discard"
  | needsReview => "needs_review"

inductive MemoryWriteRoute where
  | fileBackedProposal | runtimeLocal | runtimeSession | noWrite
  deriving DecidableEq, Repr

def MemoryWriteRoute.asStr : MemoryWriteRoute → String
  | fileBackedProposal => "file_backed_proposal"
  | runtimeLocal => "runtime_local"
  | runtimeSession => "runtime_session"
  | noWrite => "no_write"

inductive MemoryReviewRequirement where
  | proposalReview | noReview | humanDecision
  deriving DecidableEq, Repr

def MemoryReviewRequirement.asStr : MemoryReviewRequirement → String
  | proposalReview => "proposal_review"
  | noReview => "no_review"
  | humanDecision => "human_decision"

structure MemoryDestinationPolicy where
  destination : MemoryDestination
  plane : Option MemoryPlane
  writeRoute : MemoryWriteRoute
  review : MemoryReviewRequirement
  deriving DecidableEq, Repr

def MemoryDestination.policy : MemoryDestination → MemoryDestinationPolicy
  | repo => ⟨repo, some .git, .fileBackedProposal, .proposalReview⟩
  | «local» => ⟨«local», some .runtime, .runtimeLocal, .noReview⟩
  | session => ⟨session, some .runtime, .runtimeSession, .noReview⟩
  | discard => ⟨discard, none, .noWrite, .noReview⟩
  | needsReview => ⟨needsReview, none, .noWrite, .humanDecision⟩

def MemoryDestination.all : List MemoryDestination :=
  [repo, «local», session, discard, needsReview]

inductive RepoMemoryExclusion where
  | secrets | rawChatTranscripts | privatePersonalData | temporaryTaskState | localOnlyState
  deriving DecidableEq, Repr

def RepoMemoryExclusion.asStr : RepoMemoryExclusion → String
  | secrets => "secrets"
  | rawChatTranscripts => "raw_chat_transcripts"
  | privatePersonalData => "private_personal_data"
  | temporaryTaskState => "temporary_task_state"
  | localOnlyState => "local_only_state"

structure TwoPlaneMemoryPolicy where
  canonicalRecordsGlob : String
  runtimeProjectRootTemplate : String
  repoExclusions : List RepoMemoryExclusion
  futureDestinations : List String
  deriving DecidableEq, Repr

def twoPlaneMemoryPolicy : TwoPlaneMemoryPolicy where
  canonicalRecordsGlob := ".memzoi/records/*.md"
  runtimeProjectRootTemplate := "$\x7bMEMZOI_HOME:-~/.memzoi\x7d/projects/<project-key>/"
  repoExclusions :=
    [.secrets, .rawChatTranscripts, .privatePersonalData, .temporaryTaskState, .localOnlyState]
  futureDestinations := ["team", "cloud"]

structure MemoryDestinationClassification where
  destination : MemoryDestination
  reason : String
  deriving DecidableEq, Repr

/-- The route of a destination is one that writes. -/
def MemoryDestination.writes (destination : MemoryDestination) : Bool :=
  destination.policy.writeRoute ≠ .noWrite

/-- A destination writes exactly when it has a storage plane. -/
theorem MemoryDestination.writes_eq_plane (destination : MemoryDestination) :
    destination.writes = destination.policy.plane.isSome := by
  cases destination <;> rfl

end Memzoi
