/-
# Capture reviews

Source: `capture.rs` (the plan and review types, `build_capture_review_inner`,
`validate_prior_review_lineage`, `validate_capture_plan_live_state`,
`rebuild_edited_candidate`, `normalize_reviewed_memory`,
`validate_selected_review_matches`, `validate_review_identity`).

A review decides every candidate of a plan once, after the plan is compared with
the live state. The candidates that it accepts or edits are then compared with
each other. A review that names a predecessor is built after the predecessor has
been built again from its own decisions. What the extractor, the source and the
origin registry give at the time of a review is the state of `LiveCapture`; the
checks of a request, of prohibited content and of an evidence profile are
parameters. The safeguards, the preconditions and the summary of a plan are
compared with the live state only and belong to `checkPlan`.
-/

import Memzoi.Capture.Classification
import Memzoi.Lib.SortedMap

namespace Memzoi
namespace Capture

open Fallible
open Maintenance (OkfProposalSensitivity RepositoryContentClass)
open Origin (OriginOutcome)

/-! ### Plans -/

structure CaptureRequest where
  schema : String
  sources : List CaptureSourceRequest
  profile : String
  deriving DecidableEq, Repr

inductive CapturePlanStatus where
  | ready | blocked
  deriving DecidableEq, Repr

inductive CaptureDataClass where
  | repoSafe | «private» | blocked
  deriving DecidableEq, Repr

structure CaptureDiagnostic where
  code : String
  sourceId : Option String
  line : Option Nat
  deriving DecidableEq, Repr

structure CapturePlan where
  schema : String
  planId : String
  status : CapturePlanStatus
  dataClass : CaptureDataClass
  request : CaptureRequest
  sources : List CaptureSourceSnapshot
  extractor : CaptureExtractorIdentity
  candidates : List CaptureCandidate
  diagnostics : List CaptureDiagnostic
  deriving DecidableEq, Repr

/-! ### Reviews -/

inductive CaptureReviewOutcome where
  | accept | reject | edit | defer
  deriving DecidableEq, Repr

structure CaptureReviewDecisionInput where
  candidateId : String
  outcome : CaptureReviewOutcome
  reasonCode : Option String
  memory : Option CaptureMemoryDraft
  requestedDestination : Option MemoryDestination
  contentClass : Option RepositoryContentClass
  deriving DecidableEq, Repr

structure CaptureReviewInput where
  schema : String
  planId : String
  priorReviewId : Option String
  decisions : List CaptureReviewDecisionInput
  deriving DecidableEq, Repr

structure CaptureReviewDecision where
  candidateId : String
  outcome : CaptureReviewOutcome
  reasonCode : Option String
  reviewedCandidate : Option CaptureCandidate
  deriving DecidableEq, Repr

structure CaptureReview where
  schema : String
  reviewId : String
  planId : String
  priorReviewId : Option String
  dataClass : CaptureDataClass
  reviewedBy : String
  reviewedAt : String
  decisions : List CaptureReviewDecision
  deriving DecidableEq, Repr

/-- The candidates that a review accepts or edits. -/
def CaptureReview.selected (review : CaptureReview) : List CaptureCandidate :=
  review.decisions.filterMap (·.reviewedCandidate)

def capturePlanSchema : String := "memzoi/capture-plan"
def captureReviewInputSchema : String := "memzoi/capture-review-input"
def captureReviewSchema : String := "memzoi/capture-review"
def captureMaxPathBytes : Nat := 4096
def captureMaxSerializedReviewBytes : Nat := 2 * 1024 * 1024 - 4096

/-- The digests of the artifacts, and the size of a serialized review. -/
class ReviewDigests extends CaptureDigests where
  plan : CapturePlan → Hash
  review : CaptureReview → Hash
  reviewBytes : CaptureReview → Nat

/-- The memory shape and the classification that the evidence of a candidate calls for. -/
structure CoreCandidatePolicy where
  memoryType : MemoryType
  lane : MemoryLane
  destination : MemoryDestination
  sensitivity : OkfProposalSensitivity
  destinationReason : String
  sensitivityReason : String
  deriving DecidableEq, Repr

/-- `validate_request`, `core_candidate_policy`, and whether `prohibited_finding` finds anything. -/
class ReviewRules where
  validateRequest : CaptureRequest → Fallible Unit
  candidatePolicy : CaptureRequest → CaptureCandidate → Fallible CoreCandidatePolicy
  isProhibited : String → Bool

/-- The state that a review is built on. -/
structure LiveCapture where
  evaluatedAt : String
  checkPlan : CapturePlan → Fallible Unit
  inventory : Fallible CaptureInventorySnapshot
  extract : CapturePlan → Fallible (List CaptureCandidate × List CaptureDiagnostic)
  originReplay : CaptureCandidate → Fallible (Option OriginOutcome)

/-! ### Reviewed memory -/

section Memory

variable [ReviewRules]

def hasControl (s : String) : Bool := s.toList.any Text.isControl

def validateReviewScopePath (value : String) : Fallible Unit :=
  let components := value.toList.splitOn '/'
  ensure (value ≠ "" ∧ value.utf8ByteSize ≤ captureMaxPathBytes ∧ value.toList.head? ≠ some '/' ∧
      '\\' ∉ value.toList ∧ hasControl value = false ∧
      [] ∉ components ∧ [ '.'] ∉ components ∧ [ '.', '.'] ∉ components)
    "reviewed capture scope path must be project-relative"

def normalizeReviewedPath (path : String) : Fallible String := do
  let path := Text.trim path
  validateReviewScopePath path
  ensure (ReviewRules.isProhibited path = false) "reviewed capture edit contains prohibited content"
  .ok path

def normalizeReviewedTag (tag : String) : Fallible String := do
  let tag := Text.trim tag
  ensure (tag ≠ "" ∧ hasControl tag = false) "reviewed capture tag is invalid"
  ensure (ReviewRules.isProhibited tag = false) "reviewed capture edit contains prohibited content"
  .ok tag

def normalizeReviewedScopeId : Option String → Fallible (Option String)
  | none => .ok none
  | some id => do
    let id := Text.trim id
    ensure (id ≠ "" ∧ hasControl id = false) "reviewed capture scope id is invalid"
    ensure (ReviewRules.isProhibited id = false) "reviewed capture edit contains prohibited content"
    .ok (some id)

def normalizeReviewedMemory (memory : CaptureMemoryDraft) : Fallible CaptureMemoryDraft := do
  let title := Text.trim memory.title
  let body := Text.trim memory.body
  ensure (title ≠ "" ∧ body ≠ "") "reviewed capture memory title and body are required"
  ensure (hasControl title = false) "reviewed capture memory title contains control characters"
  let id ← normalizeReviewedScopeId memory.scope.id
  let paths ← mapAll normalizeReviewedPath memory.scope.paths
  let tags ← mapAll normalizeReviewedTag memory.tags
  .ok { memory with
    title := title
    body := body
    scope := ⟨memory.scope.kind, id, SortedMap.sortedKeys paths⟩
    tags := SortedMap.sortedKeys tags }

end Memory

def captureContentClass (destination : MemoryDestination) (sensitivity : OkfProposalSensitivity) :
    RepositoryContentClass :=
  match sensitivity with
  | .rawTranscript => .rawTranscript
  | .privatePersonalData => .privatePersonalData
  | .temporaryState => .temporaryTaskState
  | .localOnly => .localOnlyState
  | .repoSafe => if destination = .repo then .generalRepoKnowledge else .unknown
  | _ => .unknown

/-! ### Edits -/

def isAdrSupersession (evidence : CaptureEvidence) : Bool :=
  match evidence.semanticLocation with
  | some (.adr field _ _) => field = "supersession"
  | _ => false

/-- The sensitivity and the reasons of the destination that an edit asks for. -/
def reviewedRoute (original : CaptureCandidate) (destination : MemoryDestination)
    (contentClass : Option RepositoryContentClass) :
    Fallible (OkfProposalSensitivity × String × String) :=
  match destination with
  | .repo => do
    ensure (contentClass = some .generalRepoKnowledge)
      ("reviewed capture edits routed to repo require explicit general_repo_knowledge " ++
        "classification")
    ensure (original.evidence.any isAdrSupersession = false)
      ("ADR supersession candidates require an explicit lifecycle proposal and cannot be " ++
        "converted to a create proposal")
    ensure (original.classification.sensitivity = .repoSafe ∨
        original.classification.sensitivity = .unknown)
      "reviewed capture evidence is not classified repo-safe and cannot be routed to repo"
    .ok (.repoSafe, "reviewer_requested_repo_after_safeguards",
      if original.classification.sensitivity = .repoSafe then
        "retained_evidence_was_already_repo_safe"
      else "retained_evidence_passed_prohibited_content_safeguards")
  | .«local» =>
    .ok (.localOnly, "reviewer_requested_private_local_route", "reviewed_content_is_local_only")
  | .session =>
    .ok (.temporaryState, "reviewer_requested_private_session_route",
      "reviewed_content_is_temporary_state")
  | .discard =>
    .ok (original.classification.sensitivity, "reviewer_requested_discard",
      "review_preserved_original_sensitivity")
  | .needsReview => bail "edit decisions must request repo, local, session, or discard"

/-- The action of an edit is the one its destination asks for. -/
def checkReviewedAction (action : CaptureAction) (destination : MemoryDestination) :
    Fallible Unit :=
  match action, destination with
  | .createProposal _ _, .repo => .ok ()
  | .createRuntime _, .«local» => .ok ()
  | .createRuntime _, .session => .ok ()
  | .noWrite _, .discard => .ok ()
  | .duplicate _, _ => bail "reviewed capture edit duplicates existing memory"
  | .conflict _, _ => bail "reviewed capture edit conflicts with existing memory"
  | _, _ => bail "reviewed capture edit did not produce the requested safe route"

section Review

variable [Text.Unicode] [ReviewDigests] [ReviewRules]

def rebuildEditedCandidate (inventory : CaptureInventorySnapshot) (reserved : List String)
    (original : CaptureCandidate) (memory : CaptureMemoryDraft) (destination : MemoryDestination)
    (contentClass : Option RepositoryContentClass) : Fallible (CaptureCandidate × List String) := do
  let memory ← normalizeReviewedMemory memory
  ensure (ReviewRules.isProhibited (memory.title ++ "\n" ++ memory.body) = false)
    "reviewed capture edit contains prohibited content"
  let (sensitivity, destinationReason, sensitivityReason) ←
    reviewedRoute original destination contentClass
  let edited := candidate memory original.evidence original.extraction destination sensitivity
    (contentClass.getD (captureContentClass destination sensitivity)) destinationReason
    sensitivityReason
  let (classified, reserved) ← classifyActionsWithReserved inventory.entries [edited] reserved
    inventory.runtimeAvailable
  let reviewed := classified.headD edited
  checkReviewedAction reviewed.action destination
  .ok (reviewed, reserved)

/-! ### Decisions -/

def requireRouteableReviewAction : CaptureAction → Fallible Unit
  | .replay _ _ _ _ => .ok ()
  | .createProposal _ _ => .ok ()
  | .createRuntime _ => .ok ()
  | .duplicate _ => bail "duplicate capture candidates cannot be accepted as new memory"
  | .conflict _ => bail "conflicting capture candidates require lifecycle resolution"
  | .noWrite _ => bail "no-write capture candidates must be edited, rejected, or deferred"
  | .blocked _ => bail "blocked capture candidates cannot be reviewed"

def validateReasonCode : Option String → Fallible Unit
  | none => .ok ()
  | some reason => do
    let reason := Text.trim reason
    ensure (reason ≠ "" ∧ reason.utf8ByteSize ≤ 128 ∧
        reason.toList.all (fun c => c.isAlphanum || c = '-' || c = '_' || c = '.') = true)
      "capture review reason_code is invalid"
    ensure (ReviewRules.isProhibited reason = false)
      "capture review reason_code contains prohibited content"

/-- The decision asks for no change of the candidate. -/
def CaptureReviewDecisionInput.isPlain (decision : CaptureReviewDecisionInput) : Prop :=
  decision.memory = none ∧ decision.requestedDestination = none ∧ decision.contentClass = none

instance (decision : CaptureReviewDecisionInput) : Decidable decision.isPlain :=
  inferInstanceAs (Decidable (_ ∧ _ ∧ _))

/-- The candidate that a decision selects, with the identifiers reserved after it. -/
def reviewCandidate (inventory : CaptureInventorySnapshot) (reserved : List String)
    (candidate : CaptureCandidate) (decision : CaptureReviewDecisionInput) :
    Fallible (Option CaptureCandidate × List String) :=
  match decision.outcome with
  | .accept => do
    ensure decision.isPlain "accept decisions cannot edit capture candidates"
    requireRouteableReviewAction candidate.action
    .ok (some candidate, reserved)
  | .reject | .defer => do
    ensure decision.isPlain "reject and defer decisions cannot edit capture candidates"
    .ok (none, reserved)
  | .edit => do
    ensure (candidate.action.isDuplicate = false)
      "duplicate capture candidates require regeneration or lifecycle resolution"
    ensure (candidate.action.isConflict = false)
      "conflicting capture candidates require lifecycle resolution"
    let memory ← require decision.memory "edit decisions require a complete memory draft"
    let destination :=
      decision.requestedDestination.getD candidate.classification.destination
    let (reviewed, reserved) ← rebuildEditedCandidate inventory reserved candidate memory destination
      decision.contentClass
    .ok (some reviewed, reserved)

/-- One turn of the loop over the candidates. -/
def decideCandidate (inventory : CaptureInventorySnapshot) (reserved : List String)
    (candidate : CaptureCandidate) (decision : CaptureReviewDecisionInput) :
    Fallible (CaptureReviewDecision × List String) := do
  let reasonCode := decision.reasonCode.map Text.trim
  validateReasonCode reasonCode
  let (reviewed, reserved) ← reviewCandidate inventory reserved candidate decision
  .ok (⟨candidate.candidateId, decision.outcome, reasonCode, reviewed⟩, reserved)

/-- The loop over the candidates, with the inputs that are left over. -/
def decideAll (inventory : CaptureInventorySnapshot) :
    SortedMap String CaptureReviewDecisionInput → List String → List CaptureCandidate →
      Fallible (SortedMap String CaptureReviewDecisionInput × List CaptureReviewDecision)
  | inputs, _, [] => .ok (inputs, [])
  | inputs, reserved, candidate :: rest => do
    let input ← require (inputs.get? candidate.candidateId)
      "capture review omitted a plan candidate"
    let (decision, reserved) ← decideCandidate inventory reserved candidate input
    let (left, decisions) ← decideAll inventory (inputs.erase candidate.candidateId) reserved rest
    .ok (left, decision :: decisions)

/-- `inputs.insert(id, decision)` for a candidate without a decision. -/
def collectDecision (inputs : SortedMap String CaptureReviewDecisionInput)
    (decision : CaptureReviewDecisionInput) :
    Fallible (SortedMap String CaptureReviewDecisionInput) := do
  ensure (inputs.contains decision.candidateId = false)
    "capture review contains a duplicate candidate decision"
  .ok (inputs.insert decision.candidateId decision)

def collectDecisions (decisions : List CaptureReviewDecisionInput) :
    Fallible (SortedMap String CaptureReviewDecisionInput) :=
  runAll collectDecision .empty decisions

/-- The identifier that the acceptance of a candidate keeps reserved. -/
def acceptedProposalId (inputs : SortedMap String CaptureReviewDecisionInput)
    (candidate : CaptureCandidate) : Option String :=
  if (inputs.get? candidate.candidateId).any (·.outcome = .accept) then candidate.action.proposalId?
  else none

def reserveAccepted (inputs : SortedMap String CaptureReviewDecisionInput)
    (reserved : List String) (candidate : CaptureCandidate) : Fallible (List String) :=
  match acceptedProposalId inputs candidate with
  | none => .ok reserved
  | some proposalId => do
    ensure (proposalId ∉ reserved) "capture proposal reservation became stale"
    .ok (proposalId :: reserved)

/-- The comparison of a selected candidate with a draft before it. -/
def compareSelected (candidate : CaptureCandidate) (memory : CaptureMemoryDraft) :
    Fallible Unit := do
  ensure (draftKey memory ≠ draftKey candidate.memory)
    "reviewed capture candidates would create an exact duplicate"
  ensure (conflictKey memory ≠ conflictKey candidate.memory)
    "reviewed capture candidates would create a possible conflict"

/-- One turn of the loop over the selected candidates, with the drafts before it. -/
def validateSelected (earlier : List CaptureMemoryDraft) (candidate : CaptureCandidate) :
    Fallible (List CaptureMemoryDraft) := do
  checkAll (compareSelected candidate) earlier
  .ok (earlier ++ [candidate.memory])

def validateSelectedReviewMatches (selected : List CaptureCandidate) :
    Fallible (List CaptureMemoryDraft) :=
  runAll validateSelected [] selected

/-- The decisions of a review, against the live inventory. -/
def decidePlan (live : LiveCapture) (plan : CapturePlan)
    (inputs : SortedMap String CaptureReviewDecisionInput) :
    Fallible (List CaptureReviewDecision) := do
  let inventory ← live.inventory
  let reserved ← runAll (reserveAccepted inputs) inventory.reservedIds plan.candidates
  let (left, decisions) ← decideAll inventory inputs reserved plan.candidates
  ensure (left.entries = []) "capture review names an unknown candidate"
  let _ ← validateSelectedReviewMatches (decisions.filterMap (·.reviewedCandidate))
  .ok decisions

/-! ### The live state of a plan -/

def validatePlanIdentity (plan : CapturePlan) : Fallible Unit := do
  ensure (plan.schema = capturePlanSchema) "unsupported capture plan schema"
  ReviewRules.validateRequest plan.request
  ensure (plan.planId = domainId "capture" (ReviewDigests.plan { plan with planId := "" }))
    "capture plan identity mismatch"

def captureOriginIsAdmissible (candidate : CaptureCandidate) : Bool :=
  candidate.classification.sensitivity ≠ .unknown &&
    candidate.classification.sensitivity ≠ .secret &&
    candidate.classification.sensitivity ≠ .rawTranscript

def applyCaptureOriginReplays (live : LiveCapture) (candidates : List CaptureCandidate) :
    Fallible (List CaptureCandidate) :=
  mapAll
    (fun candidate =>
      if captureOriginIsAdmissible candidate then do
        let outcome ← live.originReplay candidate
        match outcome with
        | some found =>
          .ok { candidate with
            action := .replay found.outcome found.destination found.recordId found.proposalId }
        | none => .ok candidate
      else .ok candidate)
    candidates

/-- The candidate of a plan as its evidence profile makes it. -/
def expectedCandidate (plan : CapturePlan) (planned : CaptureCandidate) :
    Fallible CaptureCandidate := do
  let policy ← ReviewRules.candidatePolicy plan.request planned
  ensure (planned.memory.memoryType = policy.memoryType ∧ planned.memory.lane = policy.lane)
    "capture candidate memory shape is inconsistent with its evidence profile"
  let normalized ← normalizeReviewedMemory planned.memory
  ensure (normalized.title = planned.memory.title ∧ normalized.body = planned.memory.body ∧
      normalized.scope = planned.memory.scope ∧
      normalized.tags.length = planned.memory.tags.length ∧
      SortedMap.sortedKeys normalized.tags = SortedMap.sortedKeys planned.memory.tags)
    "capture candidate memory is not in canonical form"
  .ok (candidate planned.memory planned.evidence plan.extractor policy.destination
    policy.sensitivity (captureContentClass policy.destination policy.sensitivity)
    policy.destinationReason policy.sensitivityReason)

def actionMatchesPrivateRuntime : CaptureAction → Bool
  | .duplicate found => found.any fun m => m.kind = .runtimeRecord
  | .conflict found => found.any fun m => m.kind = .runtimeRecord
  | _ => false

def candidateIsRepoSafeForPlan (candidate : CaptureCandidate) : Bool :=
  candidate.classification.sensitivity = .repoSafe && candidate.classification.destination = .repo &&
    !actionMatchesPrivateRuntime candidate.action

/-- The diagnostics of a plan, with the one of a private inventory that could not be read. -/
def withRuntimeDiagnostic (candidates : List CaptureCandidate)
    (diagnostics : List CaptureDiagnostic) : List CaptureDiagnostic :=
  if candidates.any (fun c => c.action = .noWrite "runtime_inventory_unavailable") then
    diagnostics ++ [⟨"runtime_inventory_unavailable", none, none⟩]
  else diagnostics

def validateCapturePlanLiveState (live : LiveCapture) (plan : CapturePlan) : Fallible Unit := do
  validatePlanIdentity plan
  ensure (plan.status = .ready) "blocked capture plans have no live review state"
  live.checkPlan plan
  let inventory ← live.inventory
  ensure (plan.extractor.kind = "deterministic")
    "capture profile requires a trusted issuance attestation before replay"
  let (extracted, diagnostics) ← live.extract plan
  let extracted ← applyCaptureOriginReplays live extracted
  let replayed ← classifyActions inventory extracted
  ensure (replayed = plan.candidates ∧ withRuntimeDiagnostic replayed diagnostics = plan.diagnostics)
    "capture plan no longer matches deterministic extraction output"
  let expected ← mapAll (expectedCandidate plan) plan.candidates
  let expected ← applyCaptureOriginReplays live expected
  let expected ← classifyActions inventory expected
  ensure (expected = plan.candidates)
    "capture candidate identity, classification, or action changed"
  ensure (plan.dataClass =
      if expected.all candidateIsRepoSafeForPlan then .repoSafe else .«private»)
    "capture plan classification or summary changed"

/-! ### Reviews -/

def validateCaptureActor (actor : String) : Fallible Unit :=
  let actor := Text.trim actor
  ensure (actor ≠ "" ∧ actor.utf8ByteSize ≤ 256 ∧ hasControl actor = false ∧
      ReviewRules.isProhibited actor = false)
    "capture actor identity is invalid"

/-- The plan can be reviewed, and the input is for it. -/
def checkReviewInput (plan : CapturePlan) (input : CaptureReviewInput) : Fallible Unit := do
  validatePlanIdentity plan
  ensure (plan.status = .ready) "blocked capture plans cannot be reviewed"
  ensure (input.schema = captureReviewInputSchema) "unsupported capture review input schema"
  ensure (input.planId = plan.planId) "capture review input does not match the plan"

/-- The reviewer and the instants of a review are valid. -/
def checkReviewer (live : LiveCapture) (reviewedBy reviewedAt : String) : Fallible Unit := do
  validateCaptureActor reviewedBy
  ensure ((Rfc3339.parse reviewedAt).isSome = true) "capture reviewed_at must be RFC 3339"
  ensure ((Rfc3339.parse live.evaluatedAt).isSome = true) "capture evaluated_at must be RFC 3339"

def reviewDataClass (planClass : CaptureDataClass) (decisions : List CaptureReviewDecision) :
    CaptureDataClass :=
  if planClass = .blocked then .blocked
  else if planClass = .«private» ∨ (decisions.filterMap (·.reviewedCandidate)).any (fun c =>
      c.classification.destination ≠ .repo || c.classification.sensitivity ≠ .repoSafe) = true then
    .«private»
  else .repoSafe

def CaptureReview.identified (review : CaptureReview) : CaptureReview :=
  { review with
    reviewId := domainId "review" (ReviewDigests.review { review with reviewId := "" }) }

/-- The review of the decisions, if it is not too large. -/
def finishReview (plan : CapturePlan) (input : CaptureReviewInput) (reviewedBy reviewedAt : String)
    (decisions : List CaptureReviewDecision) : Fallible CaptureReview := do
  let review := CaptureReview.identified {
    schema := captureReviewSchema
    reviewId := ""
    planId := plan.planId
    priorReviewId := input.priorReviewId
    dataClass := reviewDataClass plan.dataClass decisions
    reviewedBy := reviewedBy
    reviewedAt := reviewedAt
    decisions := decisions }
  ensure (ReviewDigests.reviewBytes review ≤ captureMaxSerializedReviewBytes)
    "capture review exceeds the configured serialized output limit"
  .ok review

/-- `build_capture_review_inner` with the check of the lineage as it is passed. -/
def buildCaptureReviewAfter (lineage : Fallible Unit) (live : LiveCapture) (plan : CapturePlan)
    (input : CaptureReviewInput) (reviewedBy reviewedAt : String) : Fallible CaptureReview := do
  checkReviewInput plan input
  lineage
  let reviewedBy := Text.trim reviewedBy
  let reviewedAt := Text.trim reviewedAt
  checkReviewer live reviewedBy reviewedAt
  withContext "stale capture plan" (validateCapturePlanLiveState live plan)
  let inputs ← collectDecisions input.decisions
  ensure (inputs.keys.length = plan.candidates.length)
    "capture review must decide every plan candidate exactly once"
  let decisions ← decidePlan live plan inputs
  finishReview plan input reviewedBy reviewedAt decisions

/-! ### Lineage -/

def validCaptureIdentity (value label : String) : Bool :=
  match value.toList.dropPrefix? (label ++ "_").toList with
  | some digest =>
    digest.length = 64 && digest.all fun c =>
      c.isDigit || ( 'a' ≤ c && c ≤ 'f') || ( 'A' ≤ c && c ≤ 'F')
  | none => false

/-- A stored decision selects a candidate exactly when its outcome does. -/
def validateStoredOutcome (decision : CaptureReviewDecision) : Fallible Unit :=
  match decision.outcome, decision.reviewedCandidate with
  | .accept, none | .edit, none =>
    bail "accepted and edited capture decisions require a reviewed candidate"
  | .reject, some _ | .defer, some _ =>
    bail "rejected and deferred capture decisions cannot route a candidate"
  | _, _ => .ok ()

/-- One turn of the loop over the stored decisions, with the candidates before it. -/
def validateStoredDecision (seen : List String) (decision : CaptureReviewDecision) :
    Fallible (List String) := do
  ensure (decision.candidateId ∉ seen) "capture review contains a duplicate candidate decision"
  validateReasonCode decision.reasonCode
  validateStoredOutcome decision
  .ok (decision.candidateId :: seen)

def validateReviewIdentity (review : CaptureReview) : Fallible Unit := do
  ensure (review.schema = captureReviewSchema) "unsupported capture review schema"
  ensure (Text.trim review.planId ≠ "" ∧ Text.trim review.reviewedBy ≠ "" ∧ review.decisions ≠ [])
    "capture review is incomplete"
  match review.priorReviewId with
  | some priorReviewId => do
    ensure (validCaptureIdentity priorReviewId "review" = true) "capture prior_review_id is invalid"
    ensure (priorReviewId ≠ review.reviewId) "capture review cannot name itself as its prior review"
  | none => .ok ()
  ensure ((Rfc3339.parse (Text.trim review.reviewedAt)).isSome = true)
    "capture reviewed_at must be RFC 3339"
  let _ ← runAll validateStoredDecision [] review.decisions
  ensure (review.reviewId = review.identified.reviewId) "capture review identity mismatch"

def reviewDecisionAsInput (decision : CaptureReviewDecision) :
    Fallible CaptureReviewDecisionInput :=
  if decision.outcome = .edit then do
    let candidate ← require decision.reviewedCandidate
      "edited prior review decision is missing its candidate"
    .ok ⟨decision.candidateId, decision.outcome, decision.reasonCode, some candidate.memory,
      some candidate.classification.destination, some candidate.classification.contentClass⟩
  else .ok ⟨decision.candidateId, decision.outcome, decision.reasonCode, none, none, none⟩

def normalizedReviewDecisionInput (decision : CaptureReviewDecisionInput) :
    CaptureReviewDecisionInput :=
  { decision with reasonCode := decision.reasonCode.map Text.trim }

/-- The check of the lineage when there is no predecessor. -/
def requireNoPrior (input : CaptureReviewInput) : Fallible Unit :=
  ensure (input.priorReviewId = none)
    "a prior review artifact is required for deferred-review lineage"

/-- The predecessor, built again from its own decisions. -/
def replayReview (live : LiveCapture) (plan : CapturePlan) (prior : CaptureReview) :
    Fallible CaptureReview := do
  let decisions ← mapAll reviewDecisionAsInput prior.decisions
  let input : CaptureReviewInput := ⟨captureReviewInputSchema, plan.planId, none, decisions⟩
  withContext "capture prior review is not a complete semantic review of the plan"
    (buildCaptureReviewAfter (requireNoPrior input) live plan input prior.reviewedBy
      prior.reviewedAt)

/-- The decisions by candidate, where a later one takes the place of an earlier one. -/
def decisionsById (decisions : List CaptureReviewDecisionInput) :
    SortedMap String CaptureReviewDecisionInput :=
  .ofList (decisions.map fun decision => (decision.candidateId, decision))

/-- A decision that was not deferred is repeated. -/
def checkTerminalDecision (next : SortedMap String CaptureReviewDecisionInput)
    (prior : CaptureReviewDecision) : Fallible Unit :=
  if prior.outcome = .defer then .ok ()
  else do
    let current ← require (next.get? prior.candidateId)
      "later capture review omitted a prior terminal decision"
    let expected ← reviewDecisionAsInput prior
    ensure (normalizedReviewDecisionInput current = normalizedReviewDecisionInput expected)
      "later capture reviews may change only previously deferred decisions"

def validatePriorReviewLineage (live : LiveCapture) (plan : CapturePlan)
    (input : CaptureReviewInput) (prior : Option CaptureReview) : Fallible Unit := do
  ensure (input.priorReviewId.all (validCaptureIdentity · "review") = true)
    "capture prior_review_id is invalid"
  match prior with
  | none => requireNoPrior input
  | some prior => do
    validateReviewIdentity prior
    ensure (input.priorReviewId = some prior.reviewId)
      "capture prior review artifact does not match prior_review_id"
    ensure (prior.planId = plan.planId) "capture prior review belongs to a different plan"
    ensure (prior.priorReviewId = none)
      ("capture review lineage beyond one predecessor requires a complete review chain and is " ++
        "unsupported")
    let replayed ← replayReview live plan prior
    ensure (replayed.decisions = prior.decisions ∧ replayed.dataClass = prior.dataClass)
      "capture prior review is not a complete semantic review of the plan"
    checkAll (checkTerminalDecision (decisionsById input.decisions)) prior.decisions

def buildCaptureReview (live : LiveCapture) (plan : CapturePlan) (input : CaptureReviewInput)
    (prior : Option CaptureReview) (reviewedBy reviewedAt : String) : Fallible CaptureReview :=
  buildCaptureReviewAfter (validatePriorReviewLineage live plan input prior) live plan input
    reviewedBy reviewedAt

end Review

end Capture
end Memzoi
