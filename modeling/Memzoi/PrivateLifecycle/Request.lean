/-
# Lifecycle requests

Source: `private_lifecycle.rs`.

A request is a list of owner actions under one operation id. `validate` checks
each action on its own, and then that the actions are disjoint: no record is
changed by two of them, and no record is both changed and used as evidence
(`validate_disjoint`). The group can then be executed in any order.
-/

import Memzoi.Models
import Memzoi.Lib.SortedMap
import Mathlib

namespace Memzoi
namespace PrivateLifecycle

open Fallible

def requestSchema : String := "memzoi/private-lifecycle-request"
def maxActions : Nat := 64
def maxTargets : Nat := 256
def maxReasonCodeBytes : Nat := 128
def maxOperationIdBytes : Nat := 256

/-- Record ids with the version each is bound to. -/
abbrev Versions := SortedMap String String

inductive PrivateLifecycleSource where
  | direct
  | maintenancePlan (planId : String) (selectedActionIds : List String)
  deriving DecidableEq

structure PrivateCorrectionReplacement where
  title : String
  body : String
  deriving DecidableEq

inductive PrivateLifecycleAction where
  | extendAutomaticRecall (recordId expectedVersion recallUntil : String)
  | extendValidity (recordId expectedVersion validityUntil : String)
  | retainUntil (recordId expectedVersion retainUntil : String)
  | pin (recordId expectedVersion : String)
  | unpin (recordId expectedVersion : String)
  | renewFromEvidence (predecessorId expectedPredecessorVersion evidenceRecordId
      expectedEvidenceVersion : String)
  | correct (recordId expectedVersion : String) (replacement : PrivateCorrectionReplacement)
      (reasonCode : String) (evidenceVersions : Versions)
  | supersede (recordId expectedVersion successorRecordId expectedSuccessorVersion
      reasonCode : String)
  | consolidate (recordIds : List String) (expectedVersions : Versions) (keeperRecordId : String)
  | resolveContradiction (recordIds : List String) (expectedVersions : Versions)
      (winnerRecordId : String)
  | quarantine (recordId expectedVersion reasonCode : String)
  | releaseQuarantine (recordId expectedVersion : String)
  deriving DecidableEq

namespace PrivateLifecycleAction

def kind : PrivateLifecycleAction → String
  | extendAutomaticRecall .. => "extend_automatic_recall"
  | extendValidity .. => "extend_validity"
  | retainUntil .. => "retain_until"
  | pin .. => "pin"
  | unpin .. => "unpin"
  | renewFromEvidence .. => "renew_from_evidence"
  | correct .. => "correct"
  | supersede .. => "supersede"
  | consolidate .. => "consolidate"
  | resolveContradiction .. => "resolve_contradiction"
  | quarantine .. => "quarantine"
  | releaseQuarantine .. => "release_quarantine"

/-- The records whose lifecycle, content, status or relations the action can change. -/
def mutationTargets : PrivateLifecycleAction → List String
  | extendAutomaticRecall recordId _ _ => [recordId]
  | extendValidity recordId _ _ => [recordId]
  | retainUntil recordId _ _ => [recordId]
  | pin recordId _ => [recordId]
  | unpin recordId _ => [recordId]
  | quarantine recordId _ _ => [recordId]
  | releaseQuarantine recordId _ => [recordId]
  | renewFromEvidence predecessorId _ evidenceRecordId _ => [predecessorId, evidenceRecordId]
  | correct recordId _ _ _ _ => [recordId]
  | supersede recordId _ successorRecordId _ _ => [recordId, successorRecordId]
  | consolidate recordIds _ _ => recordIds
  | resolveContradiction recordIds _ _ => recordIds

/-- Every version the action is bound to, those of its evidence included. -/
def expectedVersions : PrivateLifecycleAction → Versions
  | extendAutomaticRecall recordId version _ => .ofList [(recordId, version)]
  | extendValidity recordId version _ => .ofList [(recordId, version)]
  | retainUntil recordId version _ => .ofList [(recordId, version)]
  | pin recordId version => .ofList [(recordId, version)]
  | unpin recordId version => .ofList [(recordId, version)]
  | quarantine recordId version _ => .ofList [(recordId, version)]
  | releaseQuarantine recordId version => .ofList [(recordId, version)]
  | renewFromEvidence predecessorId predecessorVersion evidenceRecordId evidenceVersion =>
    .ofList [(predecessorId, predecessorVersion), (evidenceRecordId, evidenceVersion)]
  | correct recordId version _ _ evidenceVersions =>
    (SortedMap.ofList [(recordId, version)]).extend evidenceVersions.entries
  | supersede recordId version successorRecordId successorVersion _ =>
    .ofList [(recordId, version), (successorRecordId, successorVersion)]
  | consolidate _ versions _ => versions
  | resolveContradiction _ versions _ => versions

end PrivateLifecycleAction

/-- What the identity of a request is computed from. -/
structure RequestIdentity where
  schema : String
  operationId : String
  source : PrivateLifecycleSource
  actions : List PrivateLifecycleAction
  deriving DecidableEq

/-- The digests of the program: of a request's canonical identity, and of a text. -/
class Digests where
  requestId : RequestIdentity → String
  blake3 : String → String

/-- A digest of the operation alone, for runs on fixed inputs. -/
@[reducible] def Digests.ofOperation : Digests where
  requestId identity := "lifecycle_request_" ++ identity.operationId
  blake3 body := body

structure PrivateLifecycleRequest where
  schema : String
  requestId : String
  operationId : String
  source : PrivateLifecycleSource
  actions : List PrivateLifecycleAction
  deriving DecidableEq

/-! ### Checks of the parts -/

def validateIdentifier (value label : String) : Fallible Unit := do
  ensure (Text.isBlank value = false) s!"{label} is required"
  ensure (value = Text.trim value) s!"{label} must not contain leading or trailing whitespace"
  ensure (value.toList.any Text.isControl = false) s!"{label} must not contain control characters"

def validateOperationId (value : String) : Fallible Unit := do
  validateIdentifier value "operation_id"
  ensure (value.utf8ByteSize ≤ maxOperationIdBytes)
    s!"operation_id exceeds {maxOperationIdBytes} UTF-8 bytes"

def validateVersion (value : String) : Fallible Unit := do
  validateIdentifier value "expected private record version"
  ensure (value.utf8ByteSize = 32 ∧
      value.toList.all (fun c => c.isDigit || ('a' ≤ c && c ≤ 'f')) = true)
    "expected private record version must be a 32-character lowercase hexadecimal token"

def validateReasonCode (value : String) : Fallible Unit := do
  validateIdentifier value "reason_code"
  ensure (value.utf8ByteSize ≤ maxReasonCodeBytes)
    s!"reason_code exceeds {maxReasonCodeBytes} UTF-8 bytes"
  ensure (value.toList.all (fun c => c.isLower || c.isDigit || "_-.:/".toList.contains c) = true)
    "reason_code must be machine-readable ASCII"

/-- `private_lifecycle::parse_timestamp`: the text is not trimmed. -/
def parseTimestamp (value label : String) : Fallible OffsetDateTime :=
  require (Rfc3339.parse value) s!"{label} must be an RFC 3339 timestamp"

def checkTimestamp (value label : String) : Fallible Unit := do
  let _ ← parseTimestamp value label
  .ok ()

def validateSelectionSet (label : String) (recordIds : List String) (expectedVersions : Versions)
    (selectedRecordId : String) : Fallible Unit := do
  ensure (2 ≤ recordIds.length) s!"{label} requires at least two records"
  let records := SortedMap.sortedKeys recordIds
  ensure (records.length = recordIds.length) s!"{label} contains duplicate record_ids"
  ensure (records = expectedVersions.keys)
    s!"{label} expected_versions must match record_ids exactly"
  ensure (selectedRecordId ∈ records)
    s!"{label} owner selection must be a member of the complete record set"

def validateBoundVersion (bound : String × String) : Fallible Unit := do
  validateIdentifier bound.1 "private record_id"
  validateVersion bound.2

/-- The checks of an action's own fields, after its ids, versions and targets. -/
def validateActionFields : PrivateLifecycleAction → Fallible Unit
  | .extendAutomaticRecall _ _ recallUntil => checkTimestamp recallUntil "recall_until"
  | .extendValidity _ _ validityUntil => checkTimestamp validityUntil "validity_until"
  | .retainUntil _ _ retainUntil => checkTimestamp retainUntil "retain_until"
  | .renewFromEvidence predecessorId _ evidenceRecordId _ =>
    ensure (predecessorId ≠ evidenceRecordId)
      "renewal evidence must be distinct from its predecessor"
  | .correct recordId _ replacement reasonCode evidenceVersions => do
    ensure (Text.isBlank replacement.title = false) "correction title is required"
    ensure (Text.isBlank replacement.body = false) "correction body is required"
    validateReasonCode reasonCode
    ensure (evidenceVersions.entries ≠ [])
      "correction requires at least one exact versioned evidence record"
    ensure (evidenceVersions.contains recordId = false)
      "correction target cannot also be correction evidence"
  | .supersede recordId _ successorRecordId _ reasonCode => do
    ensure (recordId ≠ successorRecordId) "a record cannot supersede itself"
    validateReasonCode reasonCode
  | .consolidate recordIds expectedVersions keeperRecordId =>
    validateSelectionSet "consolidation" recordIds expectedVersions keeperRecordId
  | .resolveContradiction recordIds expectedVersions winnerRecordId =>
    validateSelectionSet "contradiction resolution" recordIds expectedVersions winnerRecordId
  | .quarantine _ _ reasonCode => validateReasonCode reasonCode
  | .pin _ _ => .ok ()
  | .unpin _ _ => .ok ()
  | .releaseQuarantine _ _ => .ok ()

def validateAction (action : PrivateLifecycleAction) : Fallible Unit := do
  let kind := action.kind
  checkAll validateBoundVersion action.expectedVersions.entries
  ensure (action.mutationTargets.length = (SortedMap.sortedKeys action.mutationTargets).length)
    s!"{kind} contains duplicate record targets"
  validateActionFields action

/-! ### The whole request -/

/-- What the loop over the actions has seen so far. -/
structure SeenActions where
  mutationTargets : List String
  evidenceOnly : List String
  boundVersions : Versions

def SeenActions.none : SeenActions := ⟨[], [], .empty⟩

def seeTarget (seen : SeenActions) (target : String) : Fallible SeenActions := do
  ensure (target ∉ seen.evidenceOnly)
    s!"private lifecycle mutation target {target} is also used as evidence"
  ensure (target ∉ seen.mutationTargets)
    s!"private lifecycle mutation target {target} participates in more than one action"
  let targets := target :: seen.mutationTargets
  ensure (targets.length ≤ maxTargets)
    s!"private lifecycle request exceeds {maxTargets} distinct mutation targets"
  .ok { seen with mutationTargets := targets }

/-- An id that is not a target of the action itself is evidence. -/
def seeVersion (actionTargets : List String) (seen : SeenActions) (bound : String × String) :
    Fallible SeenActions := do
  let (recordId, version) := bound
  ensure ((seen.boundVersions.get? recordId).getD version = version)
    s!"private record {recordId} has conflicting expected versions"
  let seen := { seen with boundVersions := seen.boundVersions.insert recordId version }
  if recordId ∈ actionTargets then .ok seen
  else do
    ensure (recordId ∉ seen.mutationTargets)
      s!"private evidence record {recordId} is also a mutation target"
    .ok { seen with evidenceOnly := recordId :: seen.evidenceOnly }

def seeAction (seen : SeenActions) (action : PrivateLifecycleAction) : Fallible SeenActions := do
  validateAction action
  let actionTargets := SortedMap.sortedKeys action.mutationTargets
  let seen ← runAll seeTarget seen actionTargets
  runAll (seeVersion actionTargets) seen action.expectedVersions.entries

def validateSource : PrivateLifecycleSource → Fallible Unit
  | .direct => .ok ()
  | .maintenancePlan planId selectedActionIds => do
    validateIdentifier planId "maintenance plan_id"
    ensure (selectedActionIds ≠ []) "planned lifecycle request must select at least one action"
    ensure ((SortedMap.sortedKeys selectedActionIds).length = selectedActionIds.length)
      "planned lifecycle request contains duplicate selected_action_ids"
    checkAll (validateIdentifier · "selected maintenance action_id") selectedActionIds

namespace PrivateLifecycleRequest

def identity (request : PrivateLifecycleRequest) : RequestIdentity :=
  ⟨request.schema, request.operationId, request.source, request.actions⟩

variable [Digests]

def computeRequestId (request : PrivateLifecycleRequest) : String :=
  Digests.requestId request.identity

def validate (request : PrivateLifecycleRequest) : Fallible Unit := do
  ensure (request.schema = requestSchema) "unsupported private lifecycle request schema"
  validateOperationId request.operationId
  ensure (1 ≤ request.actions.length ∧ request.actions.length ≤ maxActions)
    s!"private lifecycle request must contain between 1 and {maxActions} actions"
  validateSource request.source
  let _ ← runAll seeAction .none request.actions
  ensure (request.requestId = request.computeRequestId)
    "private lifecycle request_id does not match its canonical contents"

end PrivateLifecycleRequest

/-! ### What a valid request satisfies -/

theorem seeTarget_ok {seen seen' : SeenActions} {target : String}
    (h : seeTarget seen target = .ok seen') :
    target ∉ seen.evidenceOnly ∧ target ∉ seen.mutationTargets ∧
      seen' = { seen with mutationTargets := target :: seen.mutationTargets } := by
  simp only [seeTarget, bind_eq_ok, ensure_eq_ok, exists_const, Except.ok.injEq] at h
  obtain ⟨hevidence, htarget, -, rfl⟩ := h
  exact ⟨hevidence, htarget, rfl⟩

/-- After its targets are seen, they are new and stand before the earlier ones. -/
theorem seeTargets_ok {targets : List String} {seen seen' : SeenActions}
    (h : runAll seeTarget seen targets = .ok seen') :
    seen'.mutationTargets = targets.reverse ++ seen.mutationTargets ∧
      seen'.evidenceOnly = seen.evidenceOnly ∧
      (∀ t ∈ targets, t ∉ seen.mutationTargets ∧ t ∉ seen.evidenceOnly) ∧ targets.Nodup := by
  induction targets generalizing seen with
  | nil =>
      cases h
      simp
  | cons target targets ih =>
      obtain ⟨mid, hmid, h⟩ := runAll_cons.1 h
      obtain ⟨hevidence, htarget, rfl⟩ := seeTarget_ok hmid
      obtain ⟨htargets, hsame, hnew, hnodup⟩ := ih h
      refine ⟨by rw [htargets]; simp, hsame, ?_, ?_⟩
      · intro t ht
        rcases List.mem_cons.1 ht with rfl | ht
        · exact ⟨htarget, hevidence⟩
        · obtain ⟨hmut, hev⟩ := hnew t ht
          exact ⟨fun hmem => hmut (List.mem_cons_of_mem _ hmem), hev⟩
      · rw [List.nodup_cons]
        exact ⟨fun hmem => (hnew target hmem).1 List.mem_cons_self, hnodup⟩

/-- Every id bound outside the targets is evidence and is no target so far. -/
theorem seeVersions_ok {targets : List String} {bounds : List (String × String)}
    {seen seen' : SeenActions} (h : runAll (seeVersion targets) seen bounds = .ok seen') :
    seen'.mutationTargets = seen.mutationTargets ∧
      (∀ id ∈ seen.evidenceOnly, id ∈ seen'.evidenceOnly) ∧
      ∀ b ∈ bounds, b.1 ∉ targets → b.1 ∈ seen'.evidenceOnly ∧ b.1 ∉ seen.mutationTargets := by
  induction bounds generalizing seen with
  | nil =>
      cases h
      simp
  | cons bound bounds ih =>
      obtain ⟨mid, hmid, h⟩ := runAll_cons.1 h
      obtain ⟨hmut, hgrow, hrest⟩ := ih h
      obtain ⟨id, version⟩ := bound
      simp only [seeVersion, check_bind_eq_ok] at hmid
      obtain ⟨-, hmid⟩ := hmid
      split at hmid
      · rename_i hin
        cases hmid
        refine ⟨hmut, hgrow, ?_⟩
        intro b hb hout
        rcases List.mem_cons.1 hb with rfl | hb
        · exact absurd hin hout
        · exact hrest b hb hout
      · simp only [check_bind_eq_ok, ensure_eq_ok, Except.ok.injEq] at hmid
        obtain ⟨hnot, rfl⟩ := hmid
        refine ⟨hmut, fun x hx => hgrow x (List.mem_cons_of_mem _ hx), ?_⟩
        intro b hb hout
        rcases List.mem_cons.1 hb with rfl | hb
        · exact ⟨hgrow id List.mem_cons_self, hnot⟩
        · exact hrest b hb hout

/-- The ids an action is bound to without changing them. -/
def PrivateLifecycleAction.evidence (action : PrivateLifecycleAction) : List String :=
  action.expectedVersions.keys.filter (· ∉ action.mutationTargets)

/-- Actions that do not interfere: they change different records, and none changes a record another
one reads as evidence. -/
structure Disjoint (actions : List PrivateLifecycleAction) : Prop where
  targets : (actions.flatMap (·.mutationTargets)).Nodup
  evidence : ∀ a ∈ actions, ∀ b ∈ actions, ∀ id ∈ a.evidence, id ∉ b.mutationTargets

/-- What the loop knows about the actions it has passed. -/
structure Passed (done : List PrivateLifecycleAction) (seen : SeenActions) : Prop where
  targets : ∀ t, t ∈ seen.mutationTargets ↔ t ∈ done.flatMap (·.mutationTargets)
  evidence : ∀ a ∈ done, ∀ id ∈ a.evidence, id ∈ seen.evidenceOnly
  disjoint : Disjoint done

theorem Passed.seeAction {done : List PrivateLifecycleAction} {seen seen' : SeenActions}
    {action : PrivateLifecycleAction} (hpassed : Passed done seen)
    (h : seeAction seen action = .ok seen') : Passed (done ++ [action]) seen' := by
  obtain ⟨_, hvalid, h⟩ := bind_eq_ok.1 h
  obtain ⟨mid, hmid, h⟩ := bind_eq_ok.1 h
  obtain ⟨hmidTargets, hmidEvidence, hnew, -⟩ := seeTargets_ok hmid
  obtain ⟨htargets, hgrow, hevidence⟩ := seeVersions_ok h
  simp only [SortedMap.mem_sortedKeys] at hnew hevidence
  simp only [validateAction, check_bind_eq_ok, ensure_eq_ok] at hvalid
  have hnodup : action.mutationTargets.Nodup := SortedMap.length_sortedKeys_iff.1 hvalid.2.1
  have hmem : ∀ t, t ∈ mid.mutationTargets ↔ t ∈ action.mutationTargets ∨ t ∈ seen.mutationTargets := by
    intro t
    rw [hmidTargets]
    simp
  have hmine : ∀ id ∈ action.evidence, id ∈ seen'.evidenceOnly ∧ id ∉ mid.mutationTargets := by
    intro id hid
    obtain ⟨hkey, hout⟩ := List.mem_filter.1 hid
    obtain ⟨b, hb, rfl⟩ := List.mem_map.1 hkey
    exact hevidence b hb (by simpa using hout)
  refine ⟨?_, ?_, ?_, ?_⟩
  · intro t
    rw [htargets, hmem, hpassed.targets]
    simp [or_comm]
  · intro a ha id hid
    rcases List.mem_append.1 ha with ha | ha
    · have hold := hpassed.evidence a ha id hid
      rw [← hmidEvidence] at hold
      exact hgrow id hold
    · rw [List.mem_singleton.1 ha] at hid
      exact (hmine id hid).1
  · -- the new targets are not among the earlier ones
    rw [List.flatMap_append, List.flatMap_singleton, List.nodup_append]
    refine ⟨hpassed.disjoint.targets, hnodup, ?_⟩
    rintro t ht u hu rfl
    exact (hnew t hu).1 ((hpassed.targets t).2 ht)
  · intro a ha b hb id hid hmut
    have hold : id ∈ seen.mutationTargets ↔ id ∈ done.flatMap (·.mutationTargets) :=
      hpassed.targets id
    rcases List.mem_append.1 ha with ha | ha
    · rcases List.mem_append.1 hb with hb | hb
      · exact hpassed.disjoint.evidence a ha b hb id hid hmut
      · rw [List.mem_singleton.1 hb] at hmut
        exact (hnew id hmut).2 (hpassed.evidence a ha id hid)
    · rw [List.mem_singleton.1 ha] at hid
      obtain ⟨-, hout⟩ := hmine id hid
      rw [hmem] at hout
      rcases List.mem_append.1 hb with hb | hb
      · exact hout (Or.inr (hold.2 (List.mem_flatMap.2 ⟨b, hb, hmut⟩)))
      · rw [List.mem_singleton.1 hb] at hmut
        exact hout (Or.inl hmut)

theorem Passed.seeActions {done actions : List PrivateLifecycleAction} {seen seen' : SeenActions}
    (hpassed : Passed done seen) (h : runAll PrivateLifecycle.seeAction seen actions = .ok seen') :
    Passed (done ++ actions) seen' := by
  induction actions generalizing done seen with
  | nil =>
      cases h
      rw [List.append_nil]
      exact hpassed
  | cons action actions ih =>
      obtain ⟨mid, hmid, h⟩ := runAll_cons.1 h
      have hnext := ih (hpassed.seeAction hmid) h
      rwa [List.append_assoc, List.singleton_append] at hnext

theorem validateAction_of_run {actions : List PrivateLifecycleAction} {seen seen' : SeenActions}
    (h : runAll seeAction seen actions = .ok seen') : ∀ a ∈ actions, validateAction a = .ok () := by
  induction actions generalizing seen with
  | nil =>
      intro a ha
      cases ha
  | cons action actions ih =>
      intro a ha
      obtain ⟨mid, hmid, hrest⟩ := runAll_cons.1 h
      rcases List.mem_cons.1 ha with rfl | ha
      · exact (check_bind_eq_ok.1 hmid).1
      · exact ih hrest a ha

section Valid

variable [Digests] {request : PrivateLifecycleRequest}

/-- The loop over the actions of a valid request ends. -/
theorem seeActions_of_validate (h : request.validate = .ok ()) :
    ∃ seen, runAll seeAction .none request.actions = .ok seen := by
  simp only [PrivateLifecycleRequest.validate, check_bind_eq_ok] at h
  obtain ⟨seen, hseen, -⟩ := bind_eq_ok.1 h.2.2.2.2
  exact ⟨seen, hseen⟩

/-- The actions of a valid request do not interfere. -/
theorem validate_disjoint (h : request.validate = .ok ()) : Disjoint request.actions := by
  obtain ⟨seen, hseen⟩ := seeActions_of_validate h
  have hnone : Passed [] SeenActions.none :=
    ⟨fun t => by simp [SeenActions.none], fun a ha => by simp at ha,
      ⟨List.nodup_nil, fun a ha => by simp at ha⟩⟩
  exact (hnone.seeActions hseen).disjoint

/-- Each action of a valid request passes its own checks. -/
theorem validate_action (h : request.validate = .ok ()) :
    ∀ a ∈ request.actions, validateAction a = .ok () := by
  obtain ⟨seen, hseen⟩ := seeActions_of_validate h
  exact validateAction_of_run hseen

end Valid

end PrivateLifecycle
end Memzoi
