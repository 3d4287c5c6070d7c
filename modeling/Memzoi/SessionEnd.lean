/-
# Session-end documents

Source: `session_end.rs`, with the results of a promotion from
`service/session_end_route_apply.rs` (`successful_session_end_result`,
`blocked_result`).

A document lists candidates, each with the destination it is written to. What
the YAML library reads from a text, and the JSON text a result is stored as, are
parameters; a stored result is read back.
-/

import Memzoi.OkfMarkdown
import Mathlib

namespace Memzoi

open Fallible
open Maintenance (OkfProposalSensitivity RepositoryContentClass)

structure SessionEndScope where
  kind : ScopeKind
  id : Option String
  paths : List String
  deriving DecidableEq, Repr

structure SessionEndCandidate where
  destination : MemoryDestination
  memoryType : MemoryType
  lane : MemoryLane
  title : String
  body : String
  sensitivity : OkfProposalSensitivity
  contentClass : RepositoryContentClass
  reason : Option String
  scope : Option SessionEndScope
  tags : List String
  deriving DecidableEq, Repr

structure SessionEndDocument where
  task : String
  candidates : List SessionEndCandidate
  deriving DecidableEq, Repr

inductive SessionEndCandidateStatus where
  | written | skipped | blocked
  deriving DecidableEq, Repr

inductive SessionEndWrite where
  | proposalFile (proposalId path : String)
  | runtimeRecord (recordId : String) (destination : MemoryDestination)
  deriving DecidableEq, Repr

structure SessionEndCandidateResult where
  index : Nat
  destination : MemoryDestination
  memoryType : MemoryType
  lane : MemoryLane
  title : String
  sensitivity : OkfProposalSensitivity
  status : SessionEndCandidateStatus
  reason : Option String
  write : Option SessionEndWrite
  deriving DecidableEq, Repr

structure SessionEndResult where
  task : String
  candidates : List SessionEndCandidateResult
  deriving DecidableEq, Repr

/-- `serde_yaml::from_str` on a document, and the JSON text of a result, which is read back. -/
class SessionEndTexts where
  readDocument : List Char → Except String SessionEndDocument
  printResult : SessionEndResult → String
  readResult : String → Option SessionEndResult
  readResult_printResult : ∀ result, readResult (printResult result) = some result

/-! ### Validation -/

def OkfProposalSensitivity.asStr : OkfProposalSensitivity → String
  | .repoSafe => "repo-safe"
  | .localOnly => "local-only"
  | .sensitive => "sensitive"
  | .secret => "secret"
  | .rawTranscript => "raw-transcript"
  | .privatePersonalData => "private-personal-data"
  | .temporaryState => "temporary-state"
  | .unknown => "unknown"

def repoSensitivityBlockReason (sensitivity : OkfProposalSensitivity) : String :=
  s!"repo destination requires sensitivity repo-safe; got {OkfProposalSensitivity.asStr sensitivity}; " ++
    "classify the candidate as repo-safe or choose a non-repo destination"

/-- `validate_relative_path`. -/
def validateScopePath (value : String) : Fallible Unit := do
  let trimmed := Text.trim value
  ensure (trimmed ≠ "") "path cannot be empty"
  ensure (Okf.isTraversal trimmed.toList = false)
    "path must be relative and cannot contain traversal"

def validateSessionEndScope (index : Nat) (scope : SessionEndScope) : Fallible Unit := do
  ensure (scope.id.all (Text.isBlank · = false) = true)
    s!"session-end candidate {index} scope.id cannot be empty"
  checkAll (fun path => withContext s!"invalid session-end candidate {index} scope path"
    (validateScopePath path)) scope.paths

def validateSessionEndCandidate (index : Nat) (candidate : SessionEndCandidate) : Fallible Unit := do
  ensure (Text.isBlank candidate.title = false) s!"session-end candidate {index} title is required"
  ensure (Text.isBlank candidate.body = false) s!"session-end candidate {index} body is required"
  ensure (candidate.reason.all (Text.isBlank · = false) = true)
    s!"session-end candidate {index} reason cannot be empty"
  ensure (candidate.tags.all (Text.isBlank · = false) = true)
    s!"session-end candidate {index} tags cannot contain empty entries"
  validateIfSome (validateSessionEndScope index) candidate.scope
  ensure (candidate.destination = .session → candidate.memoryType = .episode)
    s!"session-end candidate {index} with destination session must use type episode"
  ensure (candidate.destination = .session → candidate.lane = .session)
    s!"session-end candidate {index} with destination session must use lane session"

def validateSessionEndDocument (document : SessionEndDocument) : Fallible Unit := do
  ensure (Text.isBlank document.task = false) "session-end task is required"
  ensure (document.candidates ≠ []) "session-end input must include at least one candidate"
  checkAll (fun (p : SessionEndCandidate × Nat) => validateSessionEndCandidate p.2 p.1)
    document.candidates.zipIdx

/-- `session_end_yaml`: the frontmatter of a Markdown input, or the whole input. -/
def sessionEndYaml (input : List Char) : Fallible (List Char) := do
  ensure (Text.trimChars input ≠ []) "session-end input cannot be empty"
  let document := input.dropWhile Text.isWhitespace
  match (document.dropPrefix? "---\n".toList).or (document.dropPrefix? "---\r\n".toList) with
  | none => .ok input
  | some rest => do
    let (yaml, _) ← require (Okf.splitOnce "\n---".toList rest)
      "session-end Markdown input is missing closing frontmatter delimiter"
    .ok (if yaml.getLast? = some '\r' then yaml.dropLast else yaml)

def parseSessionEndDocument [SessionEndTexts] (input : String) : Fallible SessionEndDocument := do
  let yaml ← sessionEndYaml input.toList
  let document ←
    match SessionEndTexts.readDocument yaml with
    | .ok document => .ok document
    | .error error => bail ("failed to parse session-end structured input as YAML: " ++ error)
  validateSessionEndDocument document
  .ok document

/-! ### Results -/

/-- What a candidate that performs no write is answered with. -/
def noWriteReason : MemoryDestination → Option String
  | .discard => some "discard destination performs no write"
  | .needsReview => some "candidate requires human review before writing"
  | _ => none

def candidateStatus : MemoryDestination → SessionEndCandidateStatus
  | .discard => .skipped
  | .needsReview => .blocked
  | _ => .written

/-- `successful_session_end_result`, on one candidate with its write. -/
def writtenCandidateResult (index : Nat) (candidate : SessionEndCandidate)
    (write : Option SessionEndWrite) : SessionEndCandidateResult where
  index := index
  destination := candidate.destination
  memoryType := candidate.memoryType
  lane := candidate.lane
  title := Text.trim candidate.title
  sensitivity := candidate.sensitivity
  status := candidateStatus candidate.destination
  reason := noWriteReason candidate.destination
  write := write

/-- The text a refused candidate is shown with; the others keep no text of their own. -/
def blockedCandidateResult (refused : Bool) (index : Nat) (candidate : SessionEndCandidate) :
    SessionEndCandidateResult where
  index := index
  destination := candidate.destination
  memoryType := candidate.memoryType
  lane := candidate.lane
  title :=
    if refused then
      if candidate.sensitivity ≠ .repoSafe then "Redacted non-repo-safe candidate"
      else "Redacted unsafe repository candidate"
    else "Redacted blocked session-end candidate"
  sensitivity := candidate.sensitivity
  status := if !refused && candidate.destination = .discard then .skipped else .blocked
  reason :=
    if refused then
      if candidate.sensitivity ≠ .repoSafe then
        some (repoSensitivityBlockReason candidate.sensitivity)
      else some ("repository safety policy blocked this candidate; inspect the hash-only safety " ++
        "report and sanitize the source before retrying")
    else (noWriteReason candidate.destination).or
      (some "session-end batch contains an unsafe repo candidate; no writes were performed")
  write := none

/-- `blocked_result`, by the indices of the refused candidates. -/
def blockedResult (document : SessionEndDocument) (refused : List Nat) : SessionEndResult where
  task := "Redacted blocked session-end task"
  candidates := document.candidates.zipIdx.map fun p =>
    blockedCandidateResult (decide (p.2 ∈ refused)) p.2 p.1

/-! ### Results as numbers -/

instance encodableChar : Encodable Char := Encodable.ofLeftInverse Char.toNat Char.ofNat Char.ofNat_toNat

instance encodableString : Encodable String :=
  Encodable.ofLeftInverse String.toList String.ofList fun _ => String.ofList_toList

deriving instance Encodable for MemoryDestination
deriving instance Encodable for MemoryType
deriving instance Encodable for MemoryLane
deriving instance Encodable for OkfProposalSensitivity
deriving instance Encodable for SessionEndCandidateStatus
deriving instance Encodable for SessionEndWrite
deriving instance Encodable for SessionEndCandidateResult
deriving instance Encodable for SessionEndResult

/-- A result printed in unary, for runs on fixed inputs that promote nothing. -/
@[reducible] def SessionEndTexts.numbered : SessionEndTexts where
  readDocument _ := .error "unsupported document"
  printResult result := String.ofList (List.replicate (Encodable.encode result) ( '1'))
  readResult text := Encodable.decode text.toList.length
  readResult_printResult result := by
    rw [String.toList_ofList, List.length_replicate, Encodable.encodek]

end Memzoi
