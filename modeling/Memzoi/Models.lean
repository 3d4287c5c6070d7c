/-
# The data model: enumerations, records and retention facts

Source: `models.rs`, `retention.rs` (`RetentionFacts`), `origin.rs`
(`OriginDescriptor`, `RecordLineage`) and `capture.rs` (`CaptureProvenance`).

A column whose `CHECK` lists its values is an enumeration here, and a JSON
column holds the value its decoder gives. Timestamps stay text.
-/

import Memzoi.Lib.Fallible
import Memzoi.Lib.Rfc3339
import Memzoi.Lib.Text
import Mathlib

namespace Memzoi

inductive MemoryType where
  | fact | preference | decision | procedure | episode | relationship | warning
  | failedAttempt | risk | instructionProjection
  deriving DecidableEq, Repr

inductive MemoryLane where
  | session | semantic | episodic | procedural
  deriving DecidableEq, Repr

inductive MemoryDestination where
  | repo | «local» | session | discard | needsReview
  deriving DecidableEq, Repr

inductive MemoryStatus where
  | proposed | active | rejected | superseded | expired | tombstoned | redacted
  deriving DecidableEq, Repr

inductive ScopeKind where
  | personal | repo | project | team | org | agent | importedUntrusted
  deriving DecidableEq, Repr

inductive Visibility where
  | «public» | «private» | repo | team | org
  deriving DecidableEq, Repr

inductive MemoryEventDataClass where
  | repository | «private»
  deriving DecidableEq, Repr

def MemoryLane.asStr : MemoryLane → String
  | session => "session"
  | semantic => "semantic"
  | episodic => "episodic"
  | procedural => "procedural"

def MemoryStatus.asStr : MemoryStatus → String
  | proposed => "proposed"
  | active => "active"
  | rejected => "rejected"
  | superseded => "superseded"
  | expired => "expired"
  | tombstoned => "tombstoned"
  | redacted => "redacted"

/-- `destination IN ('local', 'session')`. -/
def MemoryDestination.isPrivate : MemoryDestination → Bool
  | «local» => true
  | session => true
  | _ => false

/-! ### Retention facts -/

structure EpisodicRetentionExtension where
  until_ : String
  authorizationEventId : String
  deriving DecidableEq, Repr

structure RetentionFacts where
  occurredAt : Option String
  startedAt : Option String
  lastContinuedAt : Option String
  closedAt : Option String
  explicitExpiresAt : Option String
  episodicExtension : Option EpisodicRetentionExtension
  deriving DecidableEq, Repr

/-! ### Origins and lineage -/

inductive OriginRoute where
  | capture | import_ | sessionEnd | localMemory | checkpointCreate | checkpointContinue
  | checkpointClose | checkpointSuccessor | repositoryProposal | repositoryMaterialization
  | ownerCommand
  deriving DecidableEq, Repr

def OriginRoute.asStr : OriginRoute → String
  | capture => "capture"
  | import_ => "import"
  | sessionEnd => "session_end"
  | localMemory => "local_memory"
  | checkpointCreate => "checkpoint_create"
  | checkpointContinue => "checkpoint_continue"
  | checkpointClose => "checkpoint_close"
  | checkpointSuccessor => "checkpoint_successor"
  | repositoryProposal => "repository_proposal"
  | repositoryMaterialization => "repository_materialization"
  | ownerCommand => "owner_command"

/-- Two routes with one text are one route, so a stored route text names its route. -/
theorem OriginRoute.asStr_injective : Function.Injective OriginRoute.asStr := by
  intro a b h
  cases a <;> cases b <;> first | rfl | exact absurd h (by decide)

structure OriginDescriptor where
  originKey : String
  route : OriginRoute
  deriving DecidableEq, Repr

inductive RecordLineageKind where
  | renewal | sessionSuccessor
  deriving DecidableEq, Repr

structure RecordLineage where
  kind : RecordLineageKind
  predecessorId : String
  deriving DecidableEq, Repr

/-! ### Records -/

/-- The row of `memory_record`: every stored column of a record. -/
structure MemoryRecord where
  id : String
  memoryType : MemoryType
  lane : MemoryLane
  destination : MemoryDestination
  scopeKind : ScopeKind
  scopeId : Option String
  visibility : Visibility
  title : String
  body : String
  status : MemoryStatus
  confidence : ℚ
  sourceKind : Option String
  sourceRef : Option String
  proposalId : Option String
  retention : RetentionFacts
  origin : OriginDescriptor
  lineage : Option RecordLineage
  contentHash : String
  createdAt : String
  updatedAt : String
  supersedesId : Option String
  deriving DecidableEq, Repr

end Memzoi
