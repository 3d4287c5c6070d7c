/-
# What a review selects

Source: `capture.rs` (`build_capture_review_inner`, `rebuild_edited_candidate`,
`validate_selected_review_matches`).

A selected candidate is one of the plan, which the live state classifies in the
same way, or an edit that is classified against the live inventory alone. The
pairs among them are left to the last pass, which compares every two selected
drafts. An edit is rebuilt in the same way from its own draft and
classification (`decideCandidate_again`), and other reserved identifiers change
nothing but the identifier of its proposal (`decideCandidate_reserved`).
-/

import Memzoi.Capture.ClassificationRules
import Memzoi.Capture.Review

namespace Memzoi
namespace Capture

open Fallible
open Maintenance (OkfProposalSensitivity RepositoryContentClass)

/-! ### Normalized memory -/

section Memory

variable [ReviewRules]

theorem normalizeReviewedPath_again {path normalized : String}
    (h : normalizeReviewedPath path = .ok normalized) :
    normalizeReviewedPath normalized = .ok normalized := by
  obtain ⟨hpath, h⟩ := check_bind_eq_ok.1 h
  obtain ⟨hallowed, h⟩ := check_bind_eq_ok.1 h
  obtain rfl := pure_eq_ok.1 h
  unfold normalizeReviewedPath
  rw [Text.trim_trim]
  exact check_bind_eq_ok.2 ⟨hpath, check_bind_eq_ok.2 ⟨hallowed, rfl⟩⟩

theorem normalizeReviewedTag_again {tag normalized : String}
    (h : normalizeReviewedTag tag = .ok normalized) :
    normalizeReviewedTag normalized = .ok normalized := by
  obtain ⟨htag, h⟩ := check_bind_eq_ok.1 h
  obtain ⟨hallowed, h⟩ := check_bind_eq_ok.1 h
  obtain rfl := pure_eq_ok.1 h
  unfold normalizeReviewedTag
  rw [Text.trim_trim]
  exact check_bind_eq_ok.2 ⟨htag, check_bind_eq_ok.2 ⟨hallowed, rfl⟩⟩

theorem normalizeReviewedScopeId_again {id normalized : Option String}
    (h : normalizeReviewedScopeId id = .ok normalized) :
    normalizeReviewedScopeId normalized = .ok normalized := by
  cases id with
  | none =>
      obtain rfl := pure_eq_ok.1 h
      rfl
  | some id =>
      obtain ⟨hid, h⟩ := check_bind_eq_ok.1 h
      obtain ⟨hallowed, h⟩ := check_bind_eq_ok.1 h
      obtain rfl := pure_eq_ok.1 h
      unfold normalizeReviewedScopeId
      dsimp only
      rw [Text.trim_trim]
      exact check_bind_eq_ok.2 ⟨hid, check_bind_eq_ok.2 ⟨hallowed, rfl⟩⟩

omit [ReviewRules] in
/-- Sorted results map to themselves, and sorting them again changes nothing. -/
theorem mapAll_sortedKeys_again {f : String → Fallible String} {xs ys : List String}
    (hf : ∀ x y, f x = .ok y → f y = .ok y) (h : mapAll f xs = .ok ys) :
    mapAll f (SortedMap.sortedKeys ys) = .ok (SortedMap.sortedKeys ys) ∧
      SortedMap.sortedKeys (SortedMap.sortedKeys ys) = SortedMap.sortedKeys ys := by
  constructor
  · refine mapAll_eq_self fun y hy => ?_
    obtain ⟨x, _, hx⟩ := (mem_of_mapAll h y).1 (SortedMap.mem_sortedKeys.1 hy)
    exact hf x y hx
  · exact SortedMap.sortedKeys_eq_of_pairwise (SortedMap.pairwise_sortedKeys ys) fun _ => Iff.rfl

/-- Normalized memory is in the form normalizing gives. -/
theorem normalizeReviewedMemory_again {memory normalized : CaptureMemoryDraft}
    (h : normalizeReviewedMemory memory = .ok normalized) :
    normalizeReviewedMemory normalized = .ok normalized := by
  obtain ⟨htexts, h⟩ := check_bind_eq_ok.1 h
  obtain ⟨htitle, h⟩ := check_bind_eq_ok.1 h
  obtain ⟨id, hid, h⟩ := bind_eq_ok.1 h
  obtain ⟨paths, hpaths, h⟩ := bind_eq_ok.1 h
  obtain ⟨tags, htags, h⟩ := bind_eq_ok.1 h
  obtain rfl := pure_eq_ok.1 h
  obtain ⟨hpaths', hpathKeys⟩ :=
    mapAll_sortedKeys_again (fun _ _ => normalizeReviewedPath_again) hpaths
  obtain ⟨htags', htagKeys⟩ := mapAll_sortedKeys_again (fun _ _ => normalizeReviewedTag_again) htags
  unfold normalizeReviewedMemory
  dsimp only
  rw [Text.trim_trim, Text.trim_trim]
  refine check_bind_eq_ok.2 ⟨htexts, check_bind_eq_ok.2 ⟨htitle, ?_⟩⟩
  refine bind_eq_ok.2 ⟨id, normalizeReviewedScopeId_again hid, ?_⟩
  refine bind_eq_ok.2 ⟨_, hpaths', bind_eq_ok.2 ⟨_, htags', ?_⟩⟩
  rw [hpathKeys, htagKeys]

end Memory

/-! ### Edits -/

/-- The route of a destination does not depend on a content class that it does not ask for. -/
theorem reviewedRoute_again {original : CaptureCandidate} {destination : MemoryDestination}
    {contentClass : Option RepositoryContentClass}
    {route : OkfProposalSensitivity × String × String}
    (h : reviewedRoute original destination contentClass = .ok route) :
    reviewedRoute original destination
      (some (contentClass.getD (captureContentClass destination route.1))) = .ok route := by
  cases destination with
  | repo =>
      obtain ⟨hclass, hrest⟩ := check_bind_eq_ok.1 h
      obtain rfl := ensure_eq_ok.1 hclass
      exact h
  | _ => exact h

theorem candidate_isReplay [CaptureDigests] (memory : CaptureMemoryDraft)
    (evidence : List CaptureEvidence) (extractor : CaptureExtractorIdentity)
    (destination : MemoryDestination) (sensitivity : OkfProposalSensitivity)
    (contentClass : RepositoryContentClass) (destinationReason sensitivityReason : String) :
    (candidate memory evidence extractor destination sensitivity contentClass destinationReason
      sensitivityReason).action.isReplay = false := by
  cases destination <;> rfl

section Review

variable [Text.Unicode] [ReviewDigests] [ReviewRules]

omit [ReviewRules] in
/-- A list of one candidate is classified against the inventory alone. -/
theorem classify_singleton {inventory : List InventoryEntry} {used used' : List String}
    {available : Bool} {c : CaptureCandidate} {planned : List CaptureCandidate}
    (hc : c.action.isReplay = false) :
    classifyActionsWithReserved inventory [c] used available = .ok (planned, used') ↔
      ∃ p, classifyCandidate inventory available used c = .ok (p, used') ∧ planned = [p] := by
  unfold classifyActionsWithReserved
  simp only [runAll, classifyStep, hc, Bool.false_eq_true, if_false, List.append_nil,
    List.nil_append]
  constructor
  · intro h
    obtain ⟨state, hstate, h⟩ := bind_eq_ok.1 h
    obtain ⟨state₁, hstep, hstate⟩ := bind_eq_ok.1 hstate
    obtain ⟨⟨p, used₁⟩, hp, hstep⟩ := bind_eq_ok.1 hstep
    obtain rfl := pure_eq_ok.1 hstep
    obtain rfl := pure_eq_ok.1 hstate
    obtain ⟨rfl, rfl⟩ := Prod.mk.inj (pure_eq_ok.1 h)
    exact ⟨p, hp, rfl⟩
  · rintro ⟨p, hp, rfl⟩
    rw [hp]
    rfl

/-- The route, the draft and the classified candidate of an edit. -/
theorem rebuildEditedCandidate_eq_ok {inventory : CaptureInventorySnapshot}
    {used used' : List String} {original reviewed : CaptureCandidate} {memory : CaptureMemoryDraft}
    {destination : MemoryDestination} {contentClass : Option RepositoryContentClass} :
    rebuildEditedCandidate inventory used original memory destination contentClass =
        .ok (reviewed, used') ↔
      ∃ draft route, normalizeReviewedMemory memory = .ok draft ∧
        ReviewRules.isProhibited (draft.title ++ "\n" ++ draft.body) = false ∧
        reviewedRoute original destination contentClass = .ok route ∧
        classifyCandidate inventory.entries inventory.runtimeAvailable used
          (candidate draft original.evidence original.extraction destination route.1
            (contentClass.getD (captureContentClass destination route.1)) route.2.1 route.2.2) =
          .ok (reviewed, used') ∧
        checkReviewedAction reviewed.action destination = .ok () := by
  constructor
  · intro h
    obtain ⟨draft, hdraft, h⟩ := bind_eq_ok.1 h
    obtain ⟨hallowed, h⟩ := check_bind_eq_ok.1 h
    obtain ⟨route, hroute, h⟩ := bind_eq_ok.1 h
    obtain ⟨⟨classified, used₁⟩, hclassify, h⟩ := bind_eq_ok.1 h
    obtain ⟨haction, h⟩ := check_bind_eq_ok.1 h
    obtain ⟨rfl, rfl⟩ := Prod.mk.inj (pure_eq_ok.1 h)
    obtain ⟨p, hp, rfl⟩ := (classify_singleton (candidate_isReplay ..)).1 hclassify
    exact ⟨draft, route, hdraft, ensure_eq_ok.1 hallowed, hroute, hp, haction⟩
  · rintro ⟨draft, route, hdraft, hallowed, hroute, hp, haction⟩
    refine bind_eq_ok.2 ⟨draft, hdraft, check_bind_eq_ok.2 ⟨ensure_of hallowed, ?_⟩⟩
    refine bind_eq_ok.2 ⟨route, hroute, bind_eq_ok.2 ⟨([reviewed], used'), ?_, ?_⟩⟩
    · exact (classify_singleton (candidate_isReplay ..)).2 ⟨reviewed, hp, rfl⟩
    · exact check_bind_eq_ok.2 ⟨haction, rfl⟩

omit [ReviewDigests] [ReviewRules] in
/-- An edit with the action its destination asks for took the route of the destination. -/
theorem classifyCandidate_of_checked [CaptureDigests] {entries : List InventoryEntry}
    {available : Bool} {used used' : List String} {c planned : CaptureCandidate}
    {destination : MemoryDestination} (hpolicy : c.classification.policy = destination.policy)
    (h : classifyCandidate entries available used c = .ok (planned, used'))
    (hchecked : checkReviewedAction planned.action destination = .ok ()) :
    ∃ action, routeAction destination.policy.writeRoute c.memory.title used = .ok (action, used') ∧
      planned = { c with action := action }.identified := by
  unfold classifyCandidate at h
  dsimp only at h
  split at h
  · obtain ⟨rfl, rfl⟩ := Prod.mk.inj (pure_eq_ok.1 h)
    cases hchecked
  · split at h
    · obtain ⟨rfl, rfl⟩ := Prod.mk.inj (pure_eq_ok.1 h)
      cases hchecked
    · obtain ⟨⟨action, used₁⟩, hroute, h⟩ := bind_eq_ok.1 h
      obtain ⟨rfl, rfl⟩ := Prod.mk.inj (pure_eq_ok.1 h)
      rw [hpolicy] at hroute
      refine ⟨action, hroute, ?_⟩
      revert hchecked
      unfold applyRuntimeInventoryAvailability
      split
      · exact fun _ => rfl
      · split
        · -- a private write without the private inventory writes nothing, which is checked
          rename_i route haction
          obtain rfl : action = .createRuntime route := haction
          intro hchecked
          exfalso
          cases destination with
          | discard => cases hroute
          | _ => cases hchecked
        · exact fun _ => rfl

/-! ### Other reserved identifiers -/

/-- The candidate as a proposal under an identifier. -/
def CaptureCandidate.withProposal (c : CaptureCandidate) (proposalId : String) :
    CaptureCandidate :=
  { c with action := .createProposal proposalId (pendingProposalPath proposalId) }.identified

/-- The reviewed candidates are the same, or the same but for the identifier of the proposal and
what is made of it. -/
def SameButReserved (x y : Option CaptureCandidate) : Prop :=
  x = y ∨ ∃ c id id', x = some (CaptureCandidate.withProposal c id) ∧
    y = some (CaptureCandidate.withProposal c id')

omit [Text.Unicode] [ReviewDigests] [ReviewRules] in
theorem routeAction_reserved {route : MemoryWriteRoute} {title : String}
    {used used' used₂ used₂' : List String} {action action₂ : CaptureAction}
    (h : routeAction route title used = .ok (action, used'))
    (h₂ : routeAction route title used₂ = .ok (action₂, used₂')) :
    action = action₂ ∨ ∃ id id', action = .createProposal id (pendingProposalPath id) ∧
      action₂ = .createProposal id' (pendingProposalPath id') := by
  cases route with
  | fileBackedProposal =>
      obtain ⟨⟨id, rest⟩, _, h⟩ := bind_eq_ok.1 h
      obtain ⟨⟨id₂, rest₂⟩, _, h₂⟩ := bind_eq_ok.1 h₂
      obtain ⟨rfl, -⟩ := Prod.mk.inj (pure_eq_ok.1 h)
      obtain ⟨rfl, -⟩ := Prod.mk.inj (pure_eq_ok.1 h₂)
      exact Or.inr ⟨id, id₂, rfl, rfl⟩
  | _ =>
      left
      have hsame := (Prod.mk.inj (pure_eq_ok.1 h)).1
      exact hsame.symm.trans (Prod.mk.inj (pure_eq_ok.1 h₂)).1

variable {inventory : CaptureInventorySnapshot} {used used' used₂ used₂' : List String}

/-- An edit with other identifiers reserved is the same but for its own. -/
theorem rebuildEditedCandidate_reserved {original reviewed reviewed₂ : CaptureCandidate}
    {memory : CaptureMemoryDraft} {destination : MemoryDestination}
    {contentClass : Option RepositoryContentClass}
    (h : rebuildEditedCandidate inventory used original memory destination contentClass =
      .ok (reviewed, used'))
    (h₂ : rebuildEditedCandidate inventory used₂ original memory destination contentClass =
      .ok (reviewed₂, used₂')) : SameButReserved (some reviewed) (some reviewed₂) := by
  obtain ⟨draft, route, hdraft, -, hroute, hp, haction⟩ := rebuildEditedCandidate_eq_ok.1 h
  obtain ⟨draft₂, route₂, hdraft₂, -, hroute₂, hp₂, haction₂⟩ := rebuildEditedCandidate_eq_ok.1 h₂
  obtain rfl := Except.ok.inj (hdraft.symm.trans hdraft₂)
  obtain rfl := Except.ok.inj (hroute.symm.trans hroute₂)
  obtain ⟨action, hrun, rfl⟩ := classifyCandidate_of_checked rfl hp haction
  obtain ⟨action₂, hrun₂, rfl⟩ := classifyCandidate_of_checked rfl hp₂ haction₂
  rcases routeAction_reserved hrun hrun₂ with rfl | ⟨id, id₂, rfl, rfl⟩
  · exact Or.inl rfl
  · exact Or.inr ⟨_, id, id₂, rfl, rfl⟩

/-- An edit is rebuilt in the same way from its own draft and classification. -/
theorem rebuildEditedCandidate_again {original reviewed : CaptureCandidate}
    {memory : CaptureMemoryDraft} {destination : MemoryDestination}
    {contentClass : Option RepositoryContentClass}
    (h : rebuildEditedCandidate inventory used original memory destination contentClass =
      .ok (reviewed, used')) :
    normalizeReviewedMemory memory = .ok reviewed.memory ∧
      reviewed.classification.destination = destination ∧
      contentClass.getD reviewed.classification.contentClass =
        reviewed.classification.contentClass ∧
      rebuildEditedCandidate inventory used original reviewed.memory destination
        (some reviewed.classification.contentClass) = .ok (reviewed, used') := by
  obtain ⟨draft, route, hdraft, hallowed, hroute, hp, haction⟩ := rebuildEditedCandidate_eq_ok.1 h
  obtain ⟨action, hrun, rfl⟩ := classifyCandidate_of_checked rfl hp haction
  refine ⟨hdraft, rfl, ?_, rebuildEditedCandidate_eq_ok.2 ⟨draft, route,
    normalizeReviewedMemory_again hdraft, hallowed, reviewedRoute_again hroute, hp, haction⟩⟩
  cases contentClass <;> rfl

/-! ### Decisions -/

/-- The input that a stored decision stands for. -/
def CaptureReviewDecision.asInput (decision : CaptureReviewDecision) :
    CaptureReviewDecisionInput :=
  if decision.outcome = .edit then
    ⟨decision.candidateId, decision.outcome, decision.reasonCode,
      decision.reviewedCandidate.map (·.memory),
      decision.reviewedCandidate.map (·.classification.destination),
      decision.reviewedCandidate.map (·.classification.contentClass)⟩
  else ⟨decision.candidateId, decision.outcome, decision.reasonCode, none, none, none⟩

variable {c : CaptureCandidate} {d d₂ : CaptureReviewDecisionInput} {r r₂ : CaptureReviewDecision}

omit [Text.Unicode] [ReviewDigests] in
theorem validateReasonCode_trim {reason : Option String} :
    validateReasonCode (reason.map Text.trim) = validateReasonCode reason := by
  cases reason with
  | none => rfl
  | some reason =>
      simp only [Option.map_some, validateReasonCode, Text.trim_trim]

omit [Text.Unicode] [ReviewDigests] [ReviewRules] in
theorem trim_map_trim {reason : Option String} :
    (reason.map Text.trim).map Text.trim = reason.map Text.trim := by
  cases reason with
  | none => rfl
  | some reason => simp only [Option.map_some, Text.trim_trim]

theorem decideCandidate_eq_ok :
    decideCandidate inventory used c d = .ok (r, used') ↔
      validateReasonCode (d.reasonCode.map Text.trim) = .ok () ∧
        reviewCandidate inventory used c d = .ok (r.reviewedCandidate, used') ∧
        r.candidateId = c.candidateId ∧ r.outcome = d.outcome ∧
        r.reasonCode = d.reasonCode.map Text.trim := by
  constructor
  · intro h
    obtain ⟨hreason, h⟩ := check_bind_eq_ok.1 h
    obtain ⟨⟨reviewed, used₁⟩, hreviewed, h⟩ := bind_eq_ok.1 h
    obtain ⟨rfl, rfl⟩ := Prod.mk.inj (pure_eq_ok.1 h)
    exact ⟨hreason, hreviewed, rfl, rfl, rfl⟩
  · rintro ⟨hreason, hreviewed, hid, houtcome, hcode⟩
    refine check_bind_eq_ok.2 ⟨hreason, bind_eq_ok.2 ⟨_, hreviewed, ?_⟩⟩
    obtain ⟨id, outcome, code, reviewed⟩ := r
    obtain rfl : id = c.candidateId := hid
    obtain rfl : outcome = d.outcome := houtcome
    obtain rfl : code = d.reasonCode.map Text.trim := hcode
    rfl

/-- What a decision selects: the candidate as it stands, nothing, or an edit of it. -/
theorem reviewCandidate_cases {reviewed : Option CaptureCandidate}
    (h : reviewCandidate inventory used c d = .ok (reviewed, used')) :
    (d.outcome = .accept ∧ d.isPlain ∧ requireRouteableReviewAction c.action = .ok () ∧
        reviewed = some c ∧ used' = used) ∨
      ((d.outcome = .reject ∨ d.outcome = .defer) ∧ d.isPlain ∧ reviewed = none ∧ used' = used) ∨
      (d.outcome = .edit ∧ c.action.isDuplicate = false ∧ c.action.isConflict = false ∧
        ∃ memory edited, d.memory = some memory ∧ reviewed = some edited ∧
          rebuildEditedCandidate inventory used c memory
            (d.requestedDestination.getD c.classification.destination) d.contentClass =
            .ok (edited, used')) := by
  unfold reviewCandidate at h
  split at h
  · rename_i houtcome
    obtain ⟨hplain, h⟩ := check_bind_eq_ok.1 h
    obtain ⟨hroute, h⟩ := check_bind_eq_ok.1 h
    obtain ⟨rfl, rfl⟩ := Prod.mk.inj (pure_eq_ok.1 h)
    exact Or.inl ⟨houtcome, ensure_eq_ok.1 hplain, hroute, rfl, rfl⟩
  · rename_i houtcome
    obtain ⟨hplain, h⟩ := check_bind_eq_ok.1 h
    obtain ⟨rfl, rfl⟩ := Prod.mk.inj (pure_eq_ok.1 h)
    exact Or.inr (Or.inl ⟨Or.inl houtcome, ensure_eq_ok.1 hplain, rfl, rfl⟩)
  · rename_i houtcome
    obtain ⟨hplain, h⟩ := check_bind_eq_ok.1 h
    obtain ⟨rfl, rfl⟩ := Prod.mk.inj (pure_eq_ok.1 h)
    exact Or.inr (Or.inl ⟨Or.inr houtcome, ensure_eq_ok.1 hplain, rfl, rfl⟩)
  · rename_i houtcome
    obtain ⟨hduplicate, h⟩ := check_bind_eq_ok.1 h
    obtain ⟨hconflict, h⟩ := check_bind_eq_ok.1 h
    obtain ⟨memory, hmemory, h⟩ := bind_eq_ok.1 h
    obtain ⟨⟨edited, used₁⟩, hedited, h⟩ := bind_eq_ok.1 h
    obtain ⟨rfl, rfl⟩ := Prod.mk.inj (pure_eq_ok.1 h)
    exact Or.inr (Or.inr ⟨houtcome, ensure_eq_ok.1 hduplicate, ensure_eq_ok.1 hconflict, memory,
      edited, require_eq_ok.1 hmemory, rfl, hedited⟩)

/-- A decision is made again in the same way from the input that it stands for. -/
theorem decideCandidate_again (h : decideCandidate inventory used c d = .ok (r, used')) :
    decideCandidate inventory used c r.asInput = .ok (r, used') := by
  obtain ⟨hreason, hreviewed, hid, houtcome, hcode⟩ := decideCandidate_eq_ok.1 h
  have hcode' : r.asInput.reasonCode = r.reasonCode := by
    unfold CaptureReviewDecision.asInput
    split <;> rfl
  have houtcome' : r.asInput.outcome = r.outcome := by
    unfold CaptureReviewDecision.asInput
    split <;> rfl
  refine decideCandidate_eq_ok.2 ⟨?_, ?_, hid, houtcome'.symm, ?_⟩
  · rw [hcode', hcode, trim_map_trim]
    exact hreason
  · rcases reviewCandidate_cases hreviewed with ⟨ho, -, hroute, hr, rfl⟩ | ⟨ho, -, hr, rfl⟩ |
      ⟨ho, hduplicate, hconflict, memory, edited, hmemory, hr, hedited⟩
    · have hr' : r.outcome = .accept := houtcome.trans ho
      have hinput : r.asInput = ⟨r.candidateId, .accept, r.reasonCode, none, none, none⟩ := by
        rw [CaptureReviewDecision.asInput, hr', if_neg (by decide)]
      rw [hinput, hr]
      exact check_bind_eq_ok.2 ⟨ensure_of ⟨rfl, rfl, rfl⟩, check_bind_eq_ok.2 ⟨hroute, rfl⟩⟩
    · have hinput : r.asInput = ⟨r.candidateId, r.outcome, r.reasonCode, none, none, none⟩ := by
        rw [CaptureReviewDecision.asInput, if_neg]
        rw [houtcome]
        rcases ho with ho | ho <;> rw [ho] <;> decide
      rw [hinput, hr, houtcome]
      rcases ho with ho | ho <;> rw [ho]
      · exact check_bind_eq_ok.2 ⟨ensure_of ⟨rfl, rfl, rfl⟩, rfl⟩
      · exact check_bind_eq_ok.2 ⟨ensure_of ⟨rfl, rfl, rfl⟩, rfl⟩
    · obtain ⟨-, hdestination, -, hagain⟩ := rebuildEditedCandidate_again hedited
      have hinput : r.asInput = ⟨r.candidateId, .edit, r.reasonCode, some edited.memory,
          some edited.classification.destination, some edited.classification.contentClass⟩ := by
        rw [CaptureReviewDecision.asInput, houtcome, ho, if_pos rfl, hr]
        rfl
      rw [hinput, hr]
      refine check_bind_eq_ok.2 ⟨ensure_of hduplicate, check_bind_eq_ok.2
        ⟨ensure_of hconflict, bind_eq_ok.2 ⟨_, rfl, bind_eq_ok.2 ⟨(edited, used'), ?_, rfl⟩⟩⟩⟩
      show rebuildEditedCandidate inventory used c edited.memory edited.classification.destination _ = _
      rw [hdestination]
      exact hagain
  · rw [hcode', hcode, trim_map_trim]

/-- With other identifiers reserved a decision is the same but for the one of its proposal. -/
theorem decideCandidate_reserved (h : decideCandidate inventory used c d = .ok (r, used'))
    (h₂ : decideCandidate inventory used₂ c d = .ok (r₂, used₂')) :
    r₂.candidateId = r.candidateId ∧ r₂.outcome = r.outcome ∧ r₂.reasonCode = r.reasonCode ∧
      SameButReserved r.reviewedCandidate r₂.reviewedCandidate := by
  obtain ⟨-, hreviewed, hid, houtcome, hcode⟩ := decideCandidate_eq_ok.1 h
  obtain ⟨-, hreviewed₂, hid₂, houtcome₂, hcode₂⟩ := decideCandidate_eq_ok.1 h₂
  refine ⟨hid₂.trans hid.symm, houtcome₂.trans houtcome.symm, hcode₂.trans hcode.symm, ?_⟩
  rcases reviewCandidate_cases hreviewed with ⟨ho, -, -, hr, -⟩ | ⟨ho, -, hr, -⟩ |
      ⟨ho, -, -, memory, edited, hmemory, hr, hedited⟩
  · rcases reviewCandidate_cases hreviewed₂ with ⟨-, -, -, hr₂, -⟩ | ⟨ho₂, -⟩ | ⟨ho₂, -⟩
    · exact Or.inl (hr.trans hr₂.symm)
    · rw [ho] at ho₂
      rcases ho₂ with ho₂ | ho₂ <;> cases ho₂
    · cases ho.symm.trans ho₂
  · rcases reviewCandidate_cases hreviewed₂ with ⟨ho₂, -⟩ | ⟨-, -, hr₂, -⟩ | ⟨ho₂, -⟩
    · rw [ho₂] at ho
      rcases ho with ho | ho <;> cases ho
    · exact Or.inl (hr.trans hr₂.symm)
    · rw [ho₂] at ho
      rcases ho with ho | ho <;> cases ho
  · rcases reviewCandidate_cases hreviewed₂ with ⟨ho₂, -⟩ | ⟨ho₂, -⟩ |
      ⟨-, -, -, memory₂, edited₂, hmemory₂, hr₂, hedited₂⟩
    · cases ho.symm.trans ho₂
    · rw [ho] at ho₂
      rcases ho₂ with ho₂ | ho₂ <;> cases ho₂
    · obtain rfl := Option.some.inj (hmemory.symm.trans hmemory₂)
      rw [hr, hr₂]
      exact rebuildEditedCandidate_reserved hedited hedited₂

/-! ### The loop over the candidates -/

/-- The decisions on a list of candidates, each with the identifiers reserved before it. -/
inductive Decided (inventory : CaptureInventorySnapshot) :
    List String → List CaptureCandidate → List CaptureReviewDecisionInput →
      List CaptureReviewDecision → Prop
  | nil (used : List String) : Decided inventory used [] [] []
  | cons {used used' : List String} {c : CaptureCandidate} {d : CaptureReviewDecisionInput}
      {r : CaptureReviewDecision} {cs : List CaptureCandidate}
      {ds : List CaptureReviewDecisionInput} {rs : List CaptureReviewDecision}
      (head : decideCandidate inventory used c d = .ok (r, used'))
      (tail : Decided inventory used' cs ds rs) :
      Decided inventory used (c :: cs) (d :: ds) (r :: rs)

/-- The inputs are those of the candidates, in their order. -/
def InputsOf (inputs : SortedMap String CaptureReviewDecisionInput) (cs : List CaptureCandidate)
    (ds : List CaptureReviewDecisionInput) : Prop :=
  cs.map (fun c => inputs.get? c.candidateId) = ds.map some

variable {cs : List CaptureCandidate} {ds : List CaptureReviewDecisionInput}
  {rs : List CaptureReviewDecision} {inputs left : SortedMap String CaptureReviewDecisionInput}

omit [Text.Unicode] [ReviewDigests] [ReviewRules] in
/-- Without the input of another candidate the inputs of candidates are the same. -/
theorem inputsOf_erase {id : String} (hid : id ∉ cs.map (·.candidateId)) :
    InputsOf (inputs.erase id) cs ds ↔ InputsOf inputs cs ds := by
  have hsame : cs.map (fun c => (inputs.erase id).get? c.candidateId) =
      cs.map (fun c => inputs.get? c.candidateId) := by
    refine List.map_congr_left fun c hc => ?_
    rw [SortedMap.get?_erase, if_neg]
    exact fun h => hid (h ▸ List.mem_map_of_mem hc)
  rw [InputsOf, InputsOf, hsame]

theorem Decided.candidateIds (h : Decided inventory used cs ds rs) :
    rs.map (·.candidateId) = cs.map (·.candidateId) := by
  induction h with
  | nil => rfl
  | cons head tail ih =>
      rw [List.map_cons, List.map_cons, ih, (decideCandidate_eq_ok.1 head).2.2.1]

theorem decideAll_eq_ok (h : decideAll inventory inputs used cs = .ok (left, rs)) :
    (cs.map (·.candidateId)).Nodup ∧ (∃ ds, Decided inventory used cs ds rs ∧ InputsOf inputs cs ds) ∧
      ∀ id, left.get? id = if id ∈ cs.map (·.candidateId) then none else inputs.get? id := by
  induction cs generalizing inputs used rs with
  | nil =>
      obtain ⟨rfl, rfl⟩ := Prod.mk.inj (pure_eq_ok.1 h)
      exact ⟨List.nodup_nil, ⟨[], .nil used, rfl⟩, fun id => rfl⟩
  | cons c cs ih =>
      obtain ⟨d, hd, h⟩ := bind_eq_ok.1 h
      obtain ⟨⟨r, used'⟩, hr, h⟩ := bind_eq_ok.1 h
      obtain ⟨⟨left', rs'⟩, hrest, h⟩ := bind_eq_ok.1 h
      obtain ⟨rfl, rfl⟩ := Prod.mk.inj (pure_eq_ok.1 h)
      obtain ⟨hnodup, ⟨ds, hdecided, hinputs⟩, hleft⟩ := ih hrest
      have hfresh : c.candidateId ∉ cs.map (·.candidateId) := by
        intro hmem
        obtain ⟨c', hc', hid⟩ := List.mem_map.1 hmem
        have hget : (inputs.erase c.candidateId).get? c'.candidateId ∈ ds.map some := by
          rw [← hinputs]
          exact List.mem_map_of_mem hc'
        obtain ⟨d', -, hd'⟩ := List.mem_map.1 hget
        rw [SortedMap.get?_erase, if_pos hid.symm] at hd'
        cases hd'
      refine ⟨List.nodup_cons.2 ⟨hfresh, hnodup⟩, ⟨d :: ds, .cons hr hdecided, ?_⟩, fun id => ?_⟩
      · have htail := (inputsOf_erase hfresh).1 hinputs
        rw [InputsOf, List.map_cons, List.map_cons, require_eq_ok.1 hd, htail]
      · rw [hleft, SortedMap.get?_erase, List.map_cons]
        by_cases hmem : id ∈ cs.map (·.candidateId)
        · rw [if_pos hmem, if_pos (List.mem_cons_of_mem _ hmem)]
        · by_cases hid : c.candidateId = id
          · rw [if_neg hmem, if_pos hid, if_pos (hid ▸ List.mem_cons_self)]
          · rw [if_neg hmem, if_neg hid, if_neg]
            rw [List.mem_cons]
            rintro (rfl | hmem')
            · exact hid rfl
            · exact hmem hmem'

theorem decideAll_of_decided (hnodup : (cs.map (·.candidateId)).Nodup)
    (h : Decided inventory used cs ds rs) (hinputs : InputsOf inputs cs ds) :
    ∃ left, decideAll inventory inputs used cs = .ok (left, rs) := by
  induction h generalizing inputs with
  | nil => exact ⟨inputs, rfl⟩
  | @cons used used' c d r cs ds rs head tail ih =>
      obtain ⟨hfresh, hnodup⟩ := List.nodup_cons.1 hnodup
      obtain ⟨hget, hrest⟩ := List.cons.inj hinputs
      obtain ⟨left, hleft⟩ := ih hnodup ((inputsOf_erase hfresh).2 hrest)
      refine ⟨left, bind_eq_ok.2 ⟨d, require_eq_ok.2 hget, ?_⟩⟩
      exact bind_eq_ok.2 ⟨(r, used'), head, bind_eq_ok.2 ⟨(left, rs), hleft, rfl⟩⟩

/-- The decisions are made again in the same way from the inputs that they stand for. -/
theorem Decided.again (h : Decided inventory used cs ds rs) :
    Decided inventory used cs (rs.map (·.asInput)) rs := by
  induction h with
  | nil used => exact .nil used
  | cons head tail ih => exact .cons (decideCandidate_again head) ih

/-! ### Reserved identifiers -/

omit [Text.Unicode] [ReviewDigests] [ReviewRules] in
/-- What the reservation of accepted proposals does. -/
theorem reserveAccepted_spec (h : runAll (reserveAccepted inputs) used cs = .ok used') :
    used ⊆ used' ∧ cs.filterMap (acceptedProposalId inputs) ⊆ used' ∧
      (cs.filterMap (acceptedProposalId inputs)).Nodup ∧
      ∀ id ∈ cs.filterMap (acceptedProposalId inputs), id ∉ used := by
  induction cs generalizing used with
  | nil =>
      obtain rfl := pure_eq_ok.1 h
      exact ⟨fun _ h => h, List.nil_subset _, List.nodup_nil, fun id hid => absurd hid List.not_mem_nil⟩
  | cons c cs ih =>
      obtain ⟨used₁, hstep, hrest⟩ := runAll_cons.1 h
      obtain ⟨hused, haccepted, hnodup, hfresh⟩ := ih hrest
      unfold reserveAccepted at hstep
      split at hstep
      · rename_i hnone
        obtain rfl := pure_eq_ok.1 hstep
        rw [List.filterMap_cons_none hnone]
        exact ⟨hused, haccepted, hnodup, hfresh⟩
      · rename_i id hsome
        obtain ⟨hfree, hstep⟩ := check_bind_eq_ok.1 hstep
        obtain rfl := pure_eq_ok.1 hstep
        rw [List.filterMap_cons_some hsome]
        refine ⟨fun x hx => hused (List.mem_cons_of_mem _ hx),
          List.cons_subset.2 ⟨hused List.mem_cons_self, haccepted⟩,
          List.nodup_cons.2 ⟨fun hid => hfresh id hid List.mem_cons_self, hnodup⟩, ?_⟩
        intro x hx hmem
        rcases List.mem_cons.1 hx with rfl | hx
        · exact ensure_eq_ok.1 hfree hmem
        · exact hfresh x hx (List.mem_cons_of_mem _ hmem)

/-- An edit is classified against the inventory. -/
theorem classified_of_rebuild {original reviewed : CaptureCandidate} {memory : CaptureMemoryDraft}
    {destination : MemoryDestination} {contentClass : Option RepositoryContentClass}
    (h : rebuildEditedCandidate inventory used original memory destination contentClass =
      .ok (reviewed, used')) :
    ∃ edited, Classified inventory.entries used edited reviewed used' := by
  obtain ⟨draft, route, -, -, -, hp, -⟩ := rebuildEditedCandidate_eq_ok.1 h
  exact ⟨_, classifyCandidate_spec hp⟩

/-- The identifier of the proposal that a decision selects. -/
def CaptureReviewDecision.selectedId (r : CaptureReviewDecision) : Option String :=
  r.reviewedCandidate.bind (·.action.proposalId?)

/-- The identifier of a selected proposal: the one of the plan, reserved before the loop, or a new
one. -/
theorem decideCandidate_reserves (h : decideCandidate inventory used c d = .ok (r, used'))
    (hd : inputs.get? c.candidateId = some d) :
    (r.selectedId = acceptedProposalId inputs c ∧ used' = used) ∨
      (acceptedProposalId inputs c = none ∧ used' = r.selectedId.toList ++ used ∧
        ∀ id, r.selectedId = some id → id ∉ used) := by
  obtain ⟨-, hreviewed, -⟩ := decideCandidate_eq_ok.1 h
  rcases reviewCandidate_cases hreviewed with ⟨ho, -, -, hr, rfl⟩ | ⟨ho, -, hr, rfl⟩ |
      ⟨ho, -, -, memory, edited, -, hr, hedited⟩
  · left
    rw [CaptureReviewDecision.selectedId, hr, acceptedProposalId, hd]
    simp [ho]
  · left
    rw [CaptureReviewDecision.selectedId, hr, acceptedProposalId, hd]
    rcases ho with ho | ho <;> simp [ho]
  · right
    obtain ⟨original, hclassified⟩ := classified_of_rebuild hedited
    rw [CaptureReviewDecision.selectedId, hr, acceptedProposalId, hd]
    exact ⟨by simp [ho], hclassified.reserves, hclassified.free⟩

/-- The selected proposals have identifiers of their own: those of the accepted candidates, and new
ones. -/
theorem Decided.ids (h : Decided inventory used cs ds rs) (hinputs : InputsOf inputs cs ds)
    (haccepted : cs.filterMap (acceptedProposalId inputs) ⊆ used)
    (hnodup : (cs.filterMap (acceptedProposalId inputs)).Nodup) :
    (rs.filterMap (·.selectedId)).Nodup ∧
      ∀ id ∈ rs.filterMap (·.selectedId),
        id ∈ cs.filterMap (acceptedProposalId inputs) ∨ id ∉ used := by
  induction h with
  | nil => exact ⟨List.nodup_nil, fun id hid => absurd hid List.not_mem_nil⟩
  | @cons used used' c d r cs ds rs head tail ih =>
      obtain ⟨hget, hrest⟩ := List.cons.inj hinputs
      rcases decideCandidate_reserves head hget with ⟨hid, rfl⟩ | ⟨hnone, hused, hfree⟩
      · cases hsome : acceptedProposalId inputs c with
        | none =>
            rw [List.filterMap_cons_none hsome] at haccepted hnodup ⊢
            rw [List.filterMap_cons_none (hid.trans hsome)]
            exact ih hrest haccepted hnodup
        | some id =>
            rw [List.filterMap_cons_some hsome] at haccepted hnodup ⊢
            rw [List.filterMap_cons_some (hid.trans hsome)]
            obtain ⟨hmem, haccepted⟩ := List.cons_subset.1 haccepted
            obtain ⟨hnew, hnodup⟩ := List.nodup_cons.1 hnodup
            obtain ⟨hids, hfrom⟩ := ih hrest haccepted hnodup
            refine ⟨List.nodup_cons.2 ⟨fun h => ?_, hids⟩, fun x hx => ?_⟩
            · exact (hfrom id h).elim hnew fun hnot => hnot hmem
            · rcases List.mem_cons.1 hx with rfl | hx
              · exact Or.inl List.mem_cons_self
              · exact (hfrom x hx).imp_left (List.mem_cons_of_mem _)
      · rw [List.filterMap_cons_none hnone] at haccepted hnodup ⊢
        have hsub : used ⊆ used' := by
          rw [hused]
          exact List.subset_append_right _ _
        obtain ⟨hids, hfrom⟩ := ih hrest (List.Subset.trans haccepted hsub) hnodup
        cases hsome : r.selectedId with
        | none =>
            rw [List.filterMap_cons_none hsome]
            exact ⟨hids, fun x hx => (hfrom x hx).imp_right fun hnot hmem => hnot (hsub hmem)⟩
        | some id =>
            rw [List.filterMap_cons_some hsome]
            rw [hsome] at hused
            have hmem : id ∈ used' := hused ▸ List.mem_cons_self
            refine ⟨List.nodup_cons.2 ⟨fun h => ?_, hids⟩, fun x hx => ?_⟩
            · exact (hfrom id h).elim (fun h => hfree id hsome (haccepted h)) fun hnot => hnot hmem
            · rcases List.mem_cons.1 hx with rfl | hx
              · exact Or.inr (hfree x hsome)
              · exact (hfrom x hx).imp_right fun hnot hmem => hnot (hsub hmem)

/-! ### Selected candidates -/

omit [ReviewRules] in
/-- No two candidates that pass the comparison clash, nor does one with a draft before them. -/
theorem validateSelectedReviewMatches_spec {selected : List CaptureCandidate}
    {memories : List CaptureMemoryDraft} (h : validateSelectedReviewMatches selected = .ok memories) :
    selected.Pairwise fun a b => ¬ Clash a.memory b.memory := by
  have hrun : ∀ {selected : List CaptureCandidate} {earlier memories : List CaptureMemoryDraft},
      runAll validateSelected earlier selected = .ok memories →
      (∀ m ∈ earlier, ∀ c ∈ selected, ¬ Clash m c.memory) ∧
        selected.Pairwise fun a b => ¬ Clash a.memory b.memory := by
    intro selected
    induction selected with
    | nil => exact fun _ => ⟨fun _ _ c hc => absurd hc List.not_mem_nil, List.Pairwise.nil⟩
    | cons c cs ih =>
        intro earlier memories h
        obtain ⟨earlier', hstep, hrest⟩ := runAll_cons.1 h
        obtain ⟨hcheck, hstep⟩ := check_bind_eq_ok.1 hstep
        obtain rfl := pure_eq_ok.1 hstep
        obtain ⟨hapart, hpairs⟩ := ih hrest
        refine ⟨fun m hm x hx => ?_, List.pairwise_cons.2 ⟨fun x hx => ?_, hpairs⟩⟩
        · rcases List.mem_cons.1 hx with rfl | hx
          · obtain ⟨hexact, hconflict⟩ := check_bind_eq_ok.1 (checkAll_eq_ok.1 hcheck m hm)
            rintro (hclash | hclash)
            · exact ensure_eq_ok.1 hexact hclash
            · exact ensure_eq_ok.1 hconflict hclash
          · exact hapart m (List.mem_append_left _ hm) x hx
        · exact hapart c.memory (List.mem_append_right _ List.mem_cons_self) x hx
  exact (hrun h).2

/-- A selected candidate is one of the plan that can be accepted, or an edit that is classified
against the inventory. -/
theorem Decided.selected (h : Decided inventory used cs ds rs) {x : CaptureCandidate}
    (hx : x ∈ rs.filterMap (·.reviewedCandidate)) :
    (x ∈ cs ∧ requireRouteableReviewAction x.action = .ok ()) ∨
      ∃ edited used₁ used₂, Classified inventory.entries used₁ edited x used₂ := by
  induction h with
  | nil => cases hx
  | cons head tail ih =>
      rw [List.mem_filterMap] at hx ih
      obtain ⟨r, hr, hreviewed⟩ := hx
      rcases List.mem_cons.1 hr with rfl | hr
      · obtain ⟨-, hcase, -⟩ := decideCandidate_eq_ok.1 head
        rw [hreviewed] at hcase
        rcases reviewCandidate_cases hcase with ⟨-, -, hroute, heq, -⟩ | ⟨-, -, heq, -⟩ |
            ⟨-, -, -, memory, edited, -, heq, hedited⟩
        · obtain rfl := Option.some.inj heq
          exact Or.inl ⟨List.mem_cons_self, hroute⟩
        · cases heq
        · obtain rfl := Option.some.inj heq
          obtain ⟨original, hclassified⟩ := classified_of_rebuild hedited
          exact Or.inr ⟨original, _, _, hclassified⟩
      · exact (ih ⟨r, hr, hreviewed⟩).imp_left fun h => ⟨List.mem_cons_of_mem _ h.1, h.2⟩

/-- What the decisions of a review select creates no memory twice, when the live state classifies
the candidates of the plan as the plan does. -/
theorem decidePlan_createsOnce {live : LiveCapture} {plan : CapturePlan}
    (hlive : live.inventory = .ok inventory)
    (hplan : CreatesOnce inventory.entries inventory.reservedIds plan.candidates)
    (h : decidePlan live plan inputs = .ok rs) :
    CreatesOnce inventory.entries inventory.reservedIds (rs.filterMap (·.reviewedCandidate)) := by
  obtain ⟨inventory', hinventory, h⟩ := bind_eq_ok.1 h
  obtain rfl := Except.ok.inj (hlive.symm.trans hinventory)
  obtain ⟨reserved, hreserved, h⟩ := bind_eq_ok.1 h
  obtain ⟨⟨left, decisions⟩, hdecide, h⟩ := bind_eq_ok.1 h
  obtain ⟨-, h⟩ := check_bind_eq_ok.1 h
  obtain ⟨memories, hmatches, h⟩ := bind_eq_ok.1 h
  obtain rfl := pure_eq_ok.1 h
  obtain ⟨-, ⟨ds, hdecided, hinputs⟩, -⟩ := decideAll_eq_ok hdecide
  obtain ⟨hsub, haccepted, hnodup, hfresh⟩ := reserveAccepted_spec hreserved
  obtain ⟨hids, hfrom⟩ := hdecided.ids hinputs haccepted hnodup
  have hflat : (decisions.filterMap (·.reviewedCandidate)).filterMap (·.action.proposalId?) =
      decisions.filterMap (·.selectedId) := by
    rw [List.filterMap_filterMap]
    rfl
  constructor
  · exact (validateSelectedReviewMatches_spec hmatches).filter _
  · intro x hx hcreates
    rcases hdecided.selected hx with ⟨hmem, -⟩ | ⟨edited, used₁, used₂, hclassified⟩
    · exact hplan.fresh x hmem hcreates
    · rw [hclassified.memory]
      exact hclassified.apart hcreates
  · rw [hflat]
    exact hids
  · rw [hflat]
    intro id hid hmem
    exact (hfrom id hid).elim (fun h => hfresh id h hmem) fun hnot => hnot (hsub hmem)

/-! ### The review -/

/-- The steps of a review that is built. -/
theorem buildCaptureReviewAfter_eq_ok {lineage : Fallible Unit} {live : LiveCapture}
    {plan : CapturePlan} {input : CaptureReviewInput} {reviewedBy reviewedAt : String}
    {review : CaptureReview} :
    buildCaptureReviewAfter lineage live plan input reviewedBy reviewedAt = .ok review ↔
      checkReviewInput plan input = .ok () ∧ lineage = .ok () ∧
        checkReviewer live (Text.trim reviewedBy) (Text.trim reviewedAt) = .ok () ∧
        validateCapturePlanLiveState live plan = .ok () ∧
        ∃ inputs decisions, collectDecisions input.decisions = .ok inputs ∧
          inputs.keys.length = plan.candidates.length ∧
          decidePlan live plan inputs = .ok decisions ∧
          finishReview plan input (Text.trim reviewedBy) (Text.trim reviewedAt) decisions =
            .ok review := by
  constructor
  · intro h
    obtain ⟨hinput, h⟩ := check_bind_eq_ok.1 h
    obtain ⟨hlineage, h⟩ := check_bind_eq_ok.1 h
    obtain ⟨hreviewer, h⟩ := check_bind_eq_ok.1 h
    obtain ⟨hlive, h⟩ := check_bind_eq_ok.1 h
    obtain ⟨inputs, hinputs, h⟩ := bind_eq_ok.1 h
    obtain ⟨hlength, h⟩ := check_bind_eq_ok.1 h
    obtain ⟨decisions, hdecisions, hreview⟩ := bind_eq_ok.1 h
    exact ⟨hinput, hlineage, hreviewer, withContext_eq_ok.1 hlive, inputs, decisions, hinputs,
      ensure_eq_ok.1 hlength, hdecisions, hreview⟩
  · rintro ⟨hinput, hlineage, hreviewer, hlive, inputs, decisions, hinputs, hlength, hdecisions,
      hreview⟩
    refine check_bind_eq_ok.2 ⟨hinput, check_bind_eq_ok.2 ⟨hlineage, check_bind_eq_ok.2
      ⟨hreviewer, check_bind_eq_ok.2 ⟨withContext_eq_ok.2 hlive, ?_⟩⟩⟩⟩
    exact bind_eq_ok.2 ⟨inputs, hinputs, check_bind_eq_ok.2
      ⟨ensure_of hlength, bind_eq_ok.2 ⟨decisions, hdecisions, hreview⟩⟩⟩

omit [Text.Unicode] [ReviewRules] in
theorem finishReview_eq_ok {plan : CapturePlan} {input : CaptureReviewInput}
    {reviewedBy reviewedAt : String} {decisions : List CaptureReviewDecision}
    {review : CaptureReview}
    (h : finishReview plan input reviewedBy reviewedAt decisions = .ok review) :
    review = CaptureReview.identified ⟨captureReviewSchema, "", plan.planId, input.priorReviewId,
      reviewDataClass plan.dataClass decisions, reviewedBy, reviewedAt, decisions⟩ := by
  obtain ⟨-, h⟩ := check_bind_eq_ok.1 h
  exact (pure_eq_ok.1 h).symm

end Review

end Capture
end Memzoi
