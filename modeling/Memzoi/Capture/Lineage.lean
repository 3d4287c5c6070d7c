/-
# The lineage of a review with deferred decisions

Source: `capture.rs` (`validate_prior_review_lineage`,
`review_decision_as_input`, `normalized_review_decision_input`).

A predecessor is read back into an input, built again, and compared with the
later input. The input that is read back names the draft, the destination and
the content class of every edit as they were normalized and filled in, but from
the later input only the reason is normalized. So an edit can be repeated word
for word exactly when it was written in that form (`lineageHolds_iff`).
-/

import Memzoi.Capture.CreatedOnce

namespace Memzoi
namespace Capture

open Fallible
open Maintenance (RepositoryContentClass)

/-! ### Identities -/

theorem length_hexDigits (hash : Hash) : (hexDigits hash).length = 64 := by
  rw [hexDigits, List.length_map, List.length_range]

theorem isHexDigit_digitChar : ∀ n < 16, ((Nat.digitChar n).isDigit ||
    ( 'a' ≤ Nat.digitChar n && Nat.digitChar n ≤ 'f') ||
    ( 'A' ≤ Nat.digitChar n && Nat.digitChar n ≤ 'F')) = true := by decide

/-- An identity that the source makes is one that it accepts. -/
theorem validCaptureIdentity_domainId (label : String) (hash : Hash) :
    validCaptureIdentity (domainId label hash) label = true := by
  have hdrop : (domainId label hash).toList.dropPrefix? (label ++ "_").toList =
      some (hexDigits hash) := by
    rw [domainId, toHex, String.toList_append, String.toList_ofList]
    exact List.dropPrefix?_append_of_beq _ (by simp)
  rw [validCaptureIdentity, hdrop]
  refine Bool.and_eq_true_iff.2 ⟨decide_eq_true (length_hexDigits hash), ?_⟩
  rw [hexDigits, List.all_map, List.all_eq_true]
  intro i _
  exact isHexDigit_digitChar _ (Nat.mod_lt _ (by decide))

/-- An identity is not blank. -/
theorem trim_domainId_ne_empty (c : Char) (cs : List Char) (hash : Hash)
    (hc : Text.isWhitespace c = false) : Text.trim (domainId (String.ofList (c :: cs)) hash) ≠ "" := by
  have hblank : Text.isBlank (domainId (String.ofList (c :: cs)) hash) = false := by
    rw [Text.isBlank, domainId, String.toList_append, String.toList_append, String.toList_ofList]
    simp [hc]
  obtain ⟨d, ds, hds, -⟩ := Text.exists_head_trim hblank
  intro h
  rw [h] at hds
  cases hds

/-! ### Inputs by candidate -/

section Inputs

variable {ds : List CaptureReviewDecisionInput}
  {inputs : SortedMap String CaptureReviewDecisionInput}

/-- The decisions are collected when they name no candidate twice. -/
theorem collectDecisions_eq_ok : collectDecisions ds = .ok inputs ↔
    (ds.map (·.candidateId)).Nodup ∧ inputs = decisionsById ds := by
  have hrun : ∀ (ds : List CaptureReviewDecisionInput)
      (m inputs : SortedMap String CaptureReviewDecisionInput),
      runAll collectDecision m ds = .ok inputs ↔
      ((ds.map (·.candidateId)).Nodup ∧ ∀ id ∈ ds.map (·.candidateId), m.get? id = none) ∧
        inputs = m.extend (ds.map fun d => (d.candidateId, d)) := by
    intro ds
    induction ds with
    | nil =>
        intro m inputs
        rw [runAll_nil]
        constructor
        · intro h
          exact ⟨⟨List.nodup_nil, fun id hid => absurd hid List.not_mem_nil⟩,
            (Except.ok.inj h).symm⟩
        · rintro ⟨-, rfl⟩
          rfl
    | cons d ds ih =>
        intro m inputs
        rw [runAll_cons]
        constructor
        · rintro ⟨m', hstep, hrest⟩
          obtain ⟨hnew, hstep⟩ := check_bind_eq_ok.1 hstep
          obtain rfl := pure_eq_ok.1 hstep
          obtain ⟨⟨hnodup, hfresh⟩, rfl⟩ := (ih _ _).1 hrest
          have hd : m.get? d.candidateId = none := by
            simpa [SortedMap.contains] using ensure_eq_ok.1 hnew
          have hnone : ∀ id ∈ ds.map (·.candidateId), d.candidateId ≠ id ∧ m.get? id = none := by
            intro id hid
            have hget := hfresh id hid
            rw [SortedMap.get?_insert] at hget
            by_cases hne : d.candidateId = id
            · rw [if_pos hne] at hget
              cases hget
            · rw [if_neg hne] at hget
              exact ⟨hne, hget⟩
          refine ⟨⟨List.nodup_cons.2 ⟨fun hmem => (hnone _ hmem).1 rfl, hnodup⟩, ?_⟩, rfl⟩
          intro id hid
          rcases List.mem_cons.1 hid with rfl | hid
          · exact hd
          · exact (hnone id hid).2
        · rintro ⟨⟨hnodup, hfresh⟩, rfl⟩
          obtain ⟨hnew, hnodup⟩ := List.nodup_cons.1 hnodup
          refine ⟨m.insert d.candidateId d, check_bind_eq_ok.2 ⟨ensure_of ?_, rfl⟩, (ih _ _).2
            ⟨⟨hnodup, fun id hid => ?_⟩, rfl⟩⟩
          · rw [SortedMap.contains, hfresh d.candidateId List.mem_cons_self]
            rfl
          · have hne : d.candidateId ≠ id := by
              rintro rfl
              exact hnew hid
            rw [SortedMap.get?_insert, if_neg hne]
            exact hfresh id (List.mem_cons_of_mem _ hid)
  rw [collectDecisions, hrun ds .empty inputs]
  exact and_congr_left fun _ => and_iff_left fun id _ => SortedMap.get?_empty id

theorem get?_decisionsById (hnodup : (ds.map (·.candidateId)).Nodup) (id : String) :
    (decisionsById ds).get? id = ds.find? fun d => d.candidateId = id := by
  have hmap : ((ds.map fun d => (d.candidateId, d)).map Prod.fst).Nodup := by
    rw [List.map_map]
    exact hnodup
  rw [decisionsById, SortedMap.ofList, SortedMap.extend,
    SortedMap.get?_foldl_update Prod.fst (fun e _ => e.2)
      (fun m e k => SortedMap.get?_insert m e.1 k e.2) hmap, List.find?_map]
  have hcomp : ((fun e : String × CaptureReviewDecisionInput => decide (e.1 = id)) ∘
      fun d : CaptureReviewDecisionInput => (d.candidateId, d)) =
      fun d => decide (d.candidateId = id) := rfl
  rw [hcomp]
  cases ds.find? fun d => d.candidateId = id <;> rfl

theorem mem_of_get?_decisionsById (hnodup : (ds.map (·.candidateId)).Nodup) {id : String}
    {d : CaptureReviewDecisionInput} (h : (decisionsById ds).get? id = some d) :
    d ∈ ds ∧ d.candidateId = id := by
  rw [get?_decisionsById hnodup] at h
  have hid := List.find?_some h
  exact ⟨List.mem_of_find?_eq_some h, of_decide_eq_true hid⟩

theorem get?_decisionsById_of_mem (hnodup : (ds.map (·.candidateId)).Nodup)
    {d : CaptureReviewDecisionInput} (h : d ∈ ds) :
    (decisionsById ds).get? d.candidateId = some d := by
  rw [get?_decisionsById hnodup]
  cases hfind : ds.find? fun e => e.candidateId = d.candidateId with
  | none => exact absurd (decide_eq_true rfl) (List.find?_eq_none.1 hfind d h)
  | some e =>
      have hid := List.find?_some hfind
      rw [List.inj_on_of_nodup_map hnodup (List.mem_of_find?_eq_some hfind) h (of_decide_eq_true hid)]

theorem keys_decisionsById (hnodup : (ds.map (·.candidateId)).Nodup) :
    (decisionsById ds).keys.length = ds.length := by
  have hperm : (decisionsById ds).keys.Perm (ds.map (·.candidateId)) := by
    refine (List.perm_ext_iff_of_nodup (SortedMap.nodup_keys _) hnodup).2 fun id => ?_
    rw [decisionsById, SortedMap.ofList, SortedMap.mem_keys_extend, List.map_map]
    exact or_iff_right List.not_mem_nil
  rw [hperm.length_eq, List.length_map]

end Inputs

/-! ### The predecessor, built again -/

section Again

variable [Text.Unicode] [ReviewDigests] [ReviewRules] {inventory : CaptureInventorySnapshot}
  {used used' : List String} {cs : List CaptureCandidate} {ds : List CaptureReviewDecisionInput}
  {rs : List CaptureReviewDecision} {inputs inputs' : SortedMap String CaptureReviewDecisionInput}
  {live : LiveCapture} {plan : CapturePlan}

omit [Text.Unicode] [ReviewDigests] [ReviewRules] in
theorem asInput_candidateId (r : CaptureReviewDecision) : r.asInput.candidateId = r.candidateId := by
  unfold CaptureReviewDecision.asInput
  split <;> rfl

omit [Text.Unicode] [ReviewDigests] [ReviewRules] in
theorem asInput_outcome (r : CaptureReviewDecision) : r.asInput.outcome = r.outcome := by
  unfold CaptureReviewDecision.asInput
  split <;> rfl

/-- A decision of the loop, with its candidate and its input. -/
theorem Decided.of_decision (h : Decided inventory used cs ds rs) (hinputs : InputsOf inputs cs ds)
    {r : CaptureReviewDecision} (hr : r ∈ rs) :
    ∃ c ∈ cs, ∃ d used₁ used₂, inputs.get? c.candidateId = some d ∧
      decideCandidate inventory used₁ c d = .ok (r, used₂) := by
  induction h with
  | nil => cases hr
  | @cons used used' c d r' cs ds rs head tail ih =>
      obtain ⟨hget, hrest⟩ := List.cons.inj hinputs
      rcases List.mem_cons.1 hr with rfl | hr
      · exact ⟨c, List.mem_cons_self, d, used, used', hget, head⟩
      · obtain ⟨c', hc', hfound⟩ := ih hrest hr
        exact ⟨c', List.mem_cons_of_mem _ hc', hfound⟩

/-- The decision of a candidate of the loop. -/
theorem Decided.of_candidate (h : Decided inventory used cs ds rs) (hinputs : InputsOf inputs cs ds)
    {c : CaptureCandidate} (hc : c ∈ cs) :
    ∃ r ∈ rs, ∃ d used₁ used₂, inputs.get? c.candidateId = some d ∧
      decideCandidate inventory used₁ c d = .ok (r, used₂) := by
  induction h with
  | nil => cases hc
  | @cons used used' c' d r cs ds rs head tail ih =>
      obtain ⟨hget, hrest⟩ := List.cons.inj hinputs
      rcases List.mem_cons.1 hc with rfl | hc
      · exact ⟨r, List.mem_cons_self, d, used, used', hget, head⟩
      · obtain ⟨r', hr', hfound⟩ := ih hrest hc
        exact ⟨r', List.mem_cons_of_mem _ hr', hfound⟩

/-- The inputs that decisions stand for are the inputs of their candidates. -/
theorem Decided.inputsOf (h : Decided inventory used cs ds rs)
    (hnodup : (cs.map (·.candidateId)).Nodup) :
    ((rs.map (·.asInput)).map (·.candidateId)).Nodup ∧
      InputsOf (decisionsById (rs.map (·.asInput))) cs (rs.map (·.asInput)) := by
  have hids : (rs.map (·.asInput)).map (·.candidateId) = cs.map (·.candidateId) := by
    rw [List.map_map, ← h.candidateIds]
    exact List.map_congr_left fun r _ => asInput_candidateId r
  have hdistinct : ((rs.map (·.asInput)).map (·.candidateId)).Nodup := hids ▸ hnodup
  refine ⟨hdistinct, ?_⟩
  have hcs : cs.map (fun c => (decisionsById (rs.map (·.asInput))).get? c.candidateId) =
      (cs.map (·.candidateId)).map (decisionsById (rs.map (·.asInput))).get? := by
    rw [List.map_map]
    rfl
  rw [InputsOf, hcs, ← hids, List.map_map]
  exact List.map_congr_left fun d hd => get?_decisionsById_of_mem hdistinct hd

/-- The same candidates are accepted. -/
theorem Decided.accepted (h : Decided inventory used cs ds rs) (hinputs : InputsOf inputs cs ds)
    (hinputs' : InputsOf inputs' cs (rs.map (·.asInput))) :
    ∀ c ∈ cs, acceptedProposalId inputs' c = acceptedProposalId inputs c := by
  induction h with
  | nil => exact fun c hc => absurd hc List.not_mem_nil
  | @cons used used' c d r cs ds rs head tail ih =>
      obtain ⟨hget, hrest⟩ := List.cons.inj hinputs
      obtain ⟨hget', hrest'⟩ := List.cons.inj hinputs'
      intro x hx
      rcases List.mem_cons.1 hx with rfl | hx
      · obtain ⟨-, -, -, houtcome, -⟩ := decideCandidate_eq_ok.1 head
        dsimp only at hget hget'
        rw [acceptedProposalId, acceptedProposalId, hget, hget', Option.any_some, Option.any_some,
          asInput_outcome, houtcome]
      · exact ih hrest hrest' x hx

omit [Text.Unicode] [ReviewDigests] [ReviewRules] in
theorem reserveAccepted_congr
    (h : ∀ c ∈ cs, acceptedProposalId inputs' c = acceptedProposalId inputs c) (used : List String) :
    runAll (reserveAccepted inputs') used cs = runAll (reserveAccepted inputs) used cs := by
  induction cs generalizing used with
  | nil => rfl
  | cons c cs ih =>
      have hhead : reserveAccepted inputs' used c = reserveAccepted inputs used c := by
        rw [reserveAccepted, reserveAccepted, h c List.mem_cons_self]
      rw [runAll, runAll, hhead]
      refine congrArg _ (funext fun used' => ?_)
      exact ih (fun x hx => h x (List.mem_cons_of_mem _ hx)) used'

/-- The parts of the decisions on a plan. -/
theorem decidePlan_eq_ok (h : decidePlan live plan inputs = .ok rs) :
    ∃ inventory reserved ds, live.inventory = .ok inventory ∧
      runAll (reserveAccepted inputs) inventory.reservedIds plan.candidates = .ok reserved ∧
      (plan.candidates.map (·.candidateId)).Nodup ∧
      Decided inventory reserved plan.candidates ds rs ∧ InputsOf inputs plan.candidates ds ∧
      (∀ id d, inputs.get? id = some d → id ∈ plan.candidates.map (·.candidateId)) ∧
      ∃ memories, validateSelectedReviewMatches (rs.filterMap (·.reviewedCandidate)) =
        .ok memories := by
  obtain ⟨inventory, hinventory, h⟩ := bind_eq_ok.1 h
  obtain ⟨reserved, hreserved, h⟩ := bind_eq_ok.1 h
  obtain ⟨⟨left, decisions⟩, hdecide, h⟩ := bind_eq_ok.1 h
  obtain ⟨hempty, h⟩ := check_bind_eq_ok.1 h
  obtain ⟨memories, hmatches, h⟩ := bind_eq_ok.1 h
  obtain rfl := pure_eq_ok.1 h
  obtain ⟨hnodup, ⟨ds, hdecided, hinputs⟩, hleft⟩ := decideAll_eq_ok hdecide
  refine ⟨inventory, reserved, ds, hinventory, hreserved, hnodup, hdecided, hinputs,
    fun id d hd => ?_, memories, hmatches⟩
  -- an input of no candidate would be left over
  by_contra hid
  have hnone : left.get? id = none := by
    rw [SortedMap.get?, ensure_eq_ok.1 hempty]
    rfl
  rw [hleft, if_neg hid, hd] at hnone
  cases hnone

/-- The decisions on a plan are made again from the inputs that they stand for. -/
theorem decidePlan_again (h : decidePlan live plan inputs = .ok rs) :
    decidePlan live plan (decisionsById (rs.map (·.asInput))) = .ok rs := by
  obtain ⟨inventory, reserved, ds, hinventory, hreserved, hnodup, hdecided, hinputs, -, memories,
    hmatches⟩ := decidePlan_eq_ok h
  obtain ⟨hdistinct, hinputs'⟩ := hdecided.inputsOf hnodup
  obtain ⟨left, hdecide⟩ := decideAll_of_decided hnodup hdecided.again hinputs'
  have hleft : left = .empty := by
    refine SortedMap.ext_get? fun id => ?_
    rw [(decideAll_eq_ok hdecide).2.2, SortedMap.get?_empty]
    split
    · rfl
    · rename_i hid
      cases hget : (decisionsById (rs.map (·.asInput))).get? id with
      | none => rfl
      | some d =>
          obtain ⟨hd, rfl⟩ := mem_of_get?_decisionsById hdistinct hget
          obtain ⟨r, hr, rfl⟩ := List.mem_map.1 hd
          rw [asInput_candidateId, ← hdecided.candidateIds] at hid
          exact absurd (List.mem_map_of_mem hr) hid
  refine bind_eq_ok.2 ⟨inventory, hinventory, bind_eq_ok.2 ⟨reserved, ?_, bind_eq_ok.2
    ⟨(left, rs), hdecide, check_bind_eq_ok.2 ⟨ensure_of ?_, bind_eq_ok.2
      ⟨memories, hmatches, rfl⟩⟩⟩⟩⟩
  · rw [reserveAccepted_congr (hdecided.accepted hinputs hinputs')]
    exact hreserved
  · rw [hleft]
    rfl

variable {review : CaptureReview} {input : CaptureReviewInput} {reviewedBy reviewedAt : String}
  {lineage : Fallible Unit} {c : CaptureCandidate} {d : CaptureReviewDecisionInput}
  {r : CaptureReviewDecision}

/-- A decision that is made can be read back. -/
theorem reviewDecisionAsInput_of_decided (h : decideCandidate inventory used c d = .ok (r, used')) :
    reviewDecisionAsInput r = .ok r.asInput ∧ validateStoredOutcome r = .ok () := by
  obtain ⟨-, hreviewed, -, houtcome, -⟩ := decideCandidate_eq_ok.1 h
  unfold reviewDecisionAsInput CaptureReviewDecision.asInput validateStoredOutcome
  rcases reviewCandidate_cases hreviewed with ⟨ho, -, -, hr, -⟩ | ⟨ho, -, hr, -⟩ |
      ⟨ho, -, -, memory, edited, -, hr, -⟩
  · rw [houtcome, ho, hr]
    exact ⟨rfl, rfl⟩
  · rcases ho with ho | ho
    · rw [houtcome, ho, hr]
      exact ⟨rfl, rfl⟩
    · rw [houtcome, ho, hr]
      exact ⟨rfl, rfl⟩
  · rw [houtcome, ho, hr]
    exact ⟨rfl, rfl⟩

/-- The steps of a review, with the decisions of its candidates. -/
theorem decided_of_review
    (h : buildCaptureReviewAfter lineage live plan input reviewedBy reviewedAt = .ok review) :
    ∃ inventory reserved ds, (plan.candidates.map (·.candidateId)).Nodup ∧
      Decided inventory reserved plan.candidates ds review.decisions ∧
      (input.decisions.map (·.candidateId)).Nodup ∧
      InputsOf (decisionsById input.decisions) plan.candidates ds ∧
      live.inventory = .ok inventory ∧
      decidePlan live plan (decisionsById input.decisions) = .ok review.decisions := by
  obtain ⟨-, -, -, -, inputs, decisions, hinputs, -, hdecisions, hfinish⟩ :=
    buildCaptureReviewAfter_eq_ok.1 h
  obtain ⟨hdistinct, rfl⟩ := collectDecisions_eq_ok.1 hinputs
  have hreview := finishReview_eq_ok hfinish
  obtain rfl : review.decisions = decisions := by
    rw [hreview]
    rfl
  obtain ⟨inventory, reserved, ds, hinventory, -, hnodup, hdecided, hds, -⟩ :=
    decidePlan_eq_ok hdecisions
  exact ⟨inventory, reserved, ds, hnodup, hdecided, hdistinct, hds, hinventory, hdecisions⟩

/-- The inputs of the stored decisions. -/
theorem mapAll_asInput
    (h : buildCaptureReviewAfter lineage live plan input reviewedBy reviewedAt = .ok review) :
    mapAll reviewDecisionAsInput review.decisions =
      .ok (review.decisions.map (·.asInput)) := by
  obtain ⟨inventory, reserved, ds, -, hdecided, -, hds, -⟩ := decided_of_review h
  have hall : ∀ {rs : List CaptureReviewDecision},
      (∀ r ∈ rs, reviewDecisionAsInput r = .ok r.asInput) →
        mapAll reviewDecisionAsInput rs = .ok (rs.map (·.asInput)) := by
    intro rs
    induction rs with
    | nil => exact fun _ => rfl
    | cons r rs ih =>
        intro hrs
        refine bind_eq_ok.2 ⟨_, hrs r List.mem_cons_self, bind_eq_ok.2 ⟨_, ih fun x hx => ?_, rfl⟩⟩
        exact hrs x (List.mem_cons_of_mem _ hx)
  refine hall fun r hr => ?_
  obtain ⟨c, -, d, used₁, used₂, -, hdecide⟩ := hdecided.of_decision hds hr
  exact (reviewDecisionAsInput_of_decided hdecide).1

/-- A review without a predecessor is built again from its own decisions. -/
theorem replayReview_of_ok
    (h : buildCaptureReviewAfter lineage live plan input reviewedBy reviewedAt = .ok review)
    (hprior : input.priorReviewId = none) : replayReview live plan review = .ok review := by
  obtain ⟨inventory, reserved, ds, hnodup, hdecided, -, hds, -, hdecisions⟩ := decided_of_review h
  obtain ⟨hinput, -, hreviewer, hlive, inputs, decisions, -, -, -, hfinish⟩ :=
    buildCaptureReviewAfter_eq_ok.1 h
  have hreview := finishReview_eq_ok hfinish
  have hby : review.reviewedBy = Text.trim reviewedBy := by rw [hreview]; rfl
  have hat : review.reviewedAt = Text.trim reviewedAt := by rw [hreview]; rfl
  have hsame : review.decisions = decisions := by rw [hreview]; rfl
  obtain ⟨hdistinct, -⟩ := hdecided.inputsOf hnodup
  refine bind_eq_ok.2 ⟨_, mapAll_asInput h, withContext_eq_ok.2 ?_⟩
  refine buildCaptureReviewAfter_eq_ok.2 ⟨?_, ensure_of rfl, ?_, hlive, _, review.decisions,
    collectDecisions_eq_ok.2 ⟨hdistinct, rfl⟩, ?_, decidePlan_again hdecisions, ?_⟩
  · obtain ⟨hplan, hrest⟩ := check_bind_eq_ok.1 hinput
    obtain ⟨hready, -⟩ := check_bind_eq_ok.1 hrest
    exact check_bind_eq_ok.2 ⟨hplan, check_bind_eq_ok.2 ⟨hready, check_bind_eq_ok.2
      ⟨ensure_of rfl, ensure_of rfl⟩⟩⟩
  · rw [hby, hat, Text.trim_trim, Text.trim_trim]
    exact hreviewer
  · have hlength := congrArg List.length hdecided.candidateIds
    rw [List.length_map, List.length_map] at hlength
    rw [keys_decisionsById hdistinct, List.length_map, hlength]
  · rw [hby, hat, Text.trim_trim, Text.trim_trim, hsame]
    rw [← hfinish]
    unfold finishReview
    rw [hprior]

omit [Text.Unicode] [ReviewDigests] in
/-- Stored decisions pass their checks when each does and none names a candidate again. -/
theorem storedDecisions_valid {seen : List String} (hnodup : (rs.map (·.candidateId)).Nodup)
    (hfresh : ∀ r ∈ rs, r.candidateId ∉ seen)
    (hvalid : ∀ r ∈ rs, validateReasonCode r.reasonCode = .ok () ∧
      validateStoredOutcome r = .ok ()) :
    ∃ seen', runAll validateStoredDecision seen rs = .ok seen' := by
  induction rs generalizing seen with
  | nil => exact ⟨seen, rfl⟩
  | cons r rs ih =>
      obtain ⟨hnew, hnodup⟩ := List.nodup_cons.1 hnodup
      obtain ⟨hreason, houtcome⟩ := hvalid r List.mem_cons_self
      have hrest : ∀ x ∈ rs, x.candidateId ∉ r.candidateId :: seen := by
        intro x hx hmem
        rcases List.mem_cons.1 hmem with heq | hmem
        · exact hnew (List.mem_map.2 ⟨x, hx, heq⟩)
        · exact hfresh x (List.mem_cons_of_mem _ hx) hmem
      obtain ⟨seen', hseen'⟩ := ih hnodup hrest fun x hx => hvalid x (List.mem_cons_of_mem _ hx)
      refine ⟨seen', runAll_cons.2 ⟨_, ?_, hseen'⟩⟩
      exact check_bind_eq_ok.2 ⟨ensure_of (hfresh r List.mem_cons_self), check_bind_eq_ok.2
        ⟨hreason, check_bind_eq_ok.2 ⟨houtcome, rfl⟩⟩⟩

/-- The stored form of a review passes its check unless it decides nothing. -/
theorem validateReviewIdentity_iff
    (h : buildCaptureReviewAfter lineage live plan input reviewedBy reviewedAt = .ok review)
    (hprior : input.priorReviewId = none) :
    validateReviewIdentity review = .ok () ↔ plan.candidates ≠ [] := by
  obtain ⟨inventory, reserved, ds, hnodup, hdecided, -, hds, -⟩ := decided_of_review h
  obtain ⟨hinput, -, hreviewer, -, inputs, decisions, -, -, -, hfinish⟩ :=
    buildCaptureReviewAfter_eq_ok.1 h
  have hreview := finishReview_eq_ok hfinish
  have hids := hdecided.candidateIds
  have hnonempty : review.decisions ≠ [] ↔ plan.candidates ≠ [] := by
    have hlength := congrArg List.length hids
    rw [List.length_map, List.length_map] at hlength
    rw [← List.length_pos_iff, ← List.length_pos_iff, hlength]
  constructor
  · intro hvalid
    obtain ⟨-, hvalid⟩ := check_bind_eq_ok.1 hvalid
    obtain ⟨hcomplete, -⟩ := check_bind_eq_ok.1 hvalid
    exact hnonempty.1 (ensure_eq_ok.1 hcomplete).2.2
  · intro hplan
    obtain ⟨hidentity, -⟩ := check_bind_eq_ok.1 hinput
    obtain ⟨-, hidentity⟩ := check_bind_eq_ok.1 hidentity
    obtain ⟨-, hidentity⟩ := check_bind_eq_ok.1 hidentity
    obtain ⟨hactor, hinstants⟩ := check_bind_eq_ok.1 hreviewer
    obtain ⟨hat, -⟩ := check_bind_eq_ok.1 hinstants
    have hplanId : Text.trim plan.planId ≠ "" := by
      rw [ensure_eq_ok.1 hidentity]
      exact trim_domainId_ne_empty 'c' [ 'a', 'p', 't', 'u', 'r', 'e'] _ (by decide)
    have hstored : ∃ seen, runAll validateStoredDecision [] review.decisions = .ok seen := by
      refine storedDecisions_valid (hids ▸ hnodup) (fun r _ => List.not_mem_nil) fun r hr => ?_
      obtain ⟨c, -, d, used₁, used₂, -, hdecide⟩ := hdecided.of_decision hds hr
      obtain ⟨hreason, -, -, -, hcode⟩ := decideCandidate_eq_ok.1 hdecide
      exact ⟨hcode ▸ hreason, (reviewDecisionAsInput_of_decided hdecide).2⟩
    obtain ⟨seen, hseen⟩ := hstored
    refine check_bind_eq_ok.2 ⟨ensure_of (by rw [hreview]; rfl), check_bind_eq_ok.2
      ⟨ensure_of ⟨?_, ?_, hnonempty.2 hplan⟩, ?_⟩⟩
    · rw [hreview]
      exact hplanId
    · rw [hreview]
      exact (ensure_eq_ok.1 hactor).1
    · have hnone : review.priorReviewId = none := by rw [hreview]; exact hprior
      rw [hnone]
      refine check_bind_eq_ok.2 ⟨rfl, check_bind_eq_ok.2 ⟨ensure_of ?_, bind_eq_ok.2
        ⟨seen, hseen, ensure_of ?_⟩⟩⟩
      · rw [hreview]
        show (Rfc3339.parse (Text.trim (Text.trim reviewedAt))).isSome = true
        rw [Text.trim_trim]
        exact ensure_eq_ok.1 hat
      · rw [hreview]
        rfl

/-! ### Later reviews -/

/-- An edit that names its memory in normal form, its destination and its content class. -/
structure WrittenOut (d : CaptureReviewDecisionInput) : Prop where
  memory : ∃ memory, d.memory = some memory ∧ normalizeReviewedMemory memory = .ok memory
  destination : d.requestedDestination.isSome = true
  contentClass : d.contentClass.isSome = true

/-- The later input decides every candidate that was not deferred as the earlier one did, word for
word. -/
def Repeats (input : CaptureReviewInput) (review : CaptureReview) (later : CaptureReviewInput) :
    Prop :=
  ∀ r ∈ review.decisions, r.outcome ≠ .defer →
    (decisionsById later.decisions).get? r.candidateId =
      (decisionsById input.decisions).get? r.candidateId

/-- The later input decides a candidate that was not deferred with another outcome, memory,
destination, class or reason; white space around a reason is no part of it. -/
def ChangesTerminal (input : CaptureReviewInput) (review : CaptureReview)
    (later : CaptureReviewInput) : Prop :=
  ∃ r ∈ review.decisions, r.outcome ≠ .defer ∧ ∃ d ∈ input.decisions, ∃ d' ∈ later.decisions,
    d.candidateId = r.candidateId ∧ d'.candidateId = r.candidateId ∧
      normalizedReviewDecisionInput d' ≠ normalizedReviewDecisionInput d

/-- What a later review owes to its predecessor, on the same state. -/
structure LineageHolds (live : LiveCapture) (plan : CapturePlan) (input : CaptureReviewInput)
    (review : CaptureReview) : Prop where
  accepted : ∀ later : CaptureReviewInput, later.priorReviewId = some review.reviewId →
    Repeats input review later → validatePriorReviewLineage live plan later (some review) = .ok ()
  kept : ∀ (later : CaptureReviewInput) (laterBy laterAt : String) (next : CaptureReview),
    later.priorReviewId = some review.reviewId → Repeats input review later →
    buildCaptureReview live plan later (some review) laterBy laterAt = .ok next →
    ∀ r ∈ review.decisions, r.outcome ≠ .defer → ∃ r' ∈ next.decisions,
      r'.candidateId = r.candidateId ∧ r'.outcome = r.outcome ∧ r'.reasonCode = r.reasonCode ∧
        SameButReserved r.reviewedCandidate r'.reviewedCandidate
  rejected : ∀ (later : CaptureReviewInput) (laterBy laterAt : String) (next : CaptureReview),
    later.priorReviewId = some review.reviewId → ChangesTerminal input review later →
    buildCaptureReview live plan later (some review) laterBy laterAt ≠ .ok next

omit [Text.Unicode] [ReviewDigests] [ReviewRules] in
theorem normalizedReviewDecisionInput_again :
    normalizedReviewDecisionInput (normalizedReviewDecisionInput d) =
      normalizedReviewDecisionInput d := by
  unfold normalizedReviewDecisionInput
  rw [trim_map_trim]

/-- Only the normalized reason matters for a decision. -/
theorem decideCandidate_normalized : decideCandidate inventory used c
    (normalizedReviewDecisionInput d) = decideCandidate inventory used c d := by
  unfold decideCandidate normalizedReviewDecisionInput
  dsimp only
  rw [trim_map_trim]
  rfl

/-- An input reads the same as what is read back from its decision exactly when it is written out,
as far as it is an edit. -/
theorem normalized_eq_asInput_iff (h : decideCandidate inventory used c d = .ok (r, used'))
    (hd : d.candidateId = c.candidateId) :
    normalizedReviewDecisionInput d = normalizedReviewDecisionInput r.asInput ↔
      (d.outcome = .edit → WrittenOut d) := by
  obtain ⟨-, hreviewed, hid, houtcome, hcode⟩ := decideCandidate_eq_ok.1 h
  have hplain : d.outcome ≠ .edit → d.isPlain →
      (normalizedReviewDecisionInput d = normalizedReviewDecisionInput r.asInput ↔
        (d.outcome = .edit → WrittenOut d)) := by
    intro hedit hplain
    refine iff_of_true ?_ fun h => absurd h hedit
    have hinput : r.asInput = ⟨r.candidateId, r.outcome, r.reasonCode, none, none, none⟩ := by
      rw [CaptureReviewDecision.asInput, if_neg (by rw [houtcome]; exact hedit)]
    obtain ⟨hmemory, hdestination, hclass⟩ := hplain
    rw [hinput, hid, houtcome, hcode]
    unfold normalizedReviewDecisionInput
    rw [trim_map_trim, ← hd, hmemory, hdestination, hclass]
  rcases reviewCandidate_cases hreviewed with ⟨ho, hno, -⟩ | ⟨ho, hno, -⟩ |
      ⟨ho, -, -, memory, edited, hmemory, hr, hedited⟩
  · exact hplain (by rw [ho]; decide) hno
  · exact hplain (by rcases ho with ho | ho <;> rw [ho] <;> decide) hno
  · obtain ⟨hnormal, hdestination, hclass, -⟩ := rebuildEditedCandidate_again hedited
    have hinput : r.asInput = ⟨c.candidateId, .edit, d.reasonCode.map Text.trim,
        some edited.memory, some edited.classification.destination,
        some edited.classification.contentClass⟩ := by
      rw [CaptureReviewDecision.asInput, houtcome, ho, if_pos rfl, hr, hid, hcode]
      rfl
    rw [hinput]
    constructor
    · intro heq _
      have hmemory' : d.memory = some edited.memory :=
        congrArg CaptureReviewDecisionInput.memory heq
      have hdestination' : d.requestedDestination = some edited.classification.destination :=
        congrArg CaptureReviewDecisionInput.requestedDestination heq
      have hclass' : d.contentClass = some edited.classification.contentClass :=
        congrArg CaptureReviewDecisionInput.contentClass heq
      refine ⟨⟨edited.memory, hmemory', normalizeReviewedMemory_again hnormal⟩, ?_, ?_⟩
      · rw [hdestination']
        rfl
      · rw [hclass']
        rfl
    · intro hwritten
      obtain ⟨⟨memory', hmemory', hnormal'⟩, hasDestination, hasClass⟩ := hwritten ho
      obtain rfl := Option.some.inj (hmemory'.symm.trans hmemory)
      obtain rfl := Except.ok.inj (hnormal'.symm.trans hnormal)
      obtain ⟨destination, hdestination'⟩ := Option.isSome_iff_exists.1 hasDestination
      obtain ⟨contentClass, hclass'⟩ := Option.isSome_iff_exists.1 hasClass
      rw [hdestination', Option.getD_some] at hdestination
      rw [hclass', Option.getD_some] at hclass
      unfold normalizedReviewDecisionInput
      rw [trim_map_trim, ← hd, ho, hmemory', hdestination', hclass', hdestination, hclass]

omit [Text.Unicode] [ReviewDigests] [ReviewRules] in
/-- A decision that was not deferred is repeated when its candidate has the same input as the one
that is read back. -/
theorem checkTerminalDecision_eq_ok {next : SortedMap String CaptureReviewDecisionInput}
    (hr : reviewDecisionAsInput r = .ok r.asInput) (hterminal : r.outcome ≠ .defer) :
    checkTerminalDecision next r = .ok () ↔ ∃ current, next.get? r.candidateId = some current ∧
      normalizedReviewDecisionInput current = normalizedReviewDecisionInput r.asInput := by
  unfold checkTerminalDecision
  rw [if_neg hterminal, hr]
  constructor
  · intro h
    obtain ⟨current, hcurrent, h⟩ := bind_eq_ok.1 h
    exact ⟨current, require_eq_ok.1 hcurrent, ensure_eq_ok.1 h⟩
  · rintro ⟨current, hcurrent, hsame⟩
    exact bind_eq_ok.2 ⟨current, require_eq_ok.2 hcurrent, ensure_of hsame⟩

/-- The check of the lineage, for a predecessor that was built on the same state. -/
theorem validatePriorReviewLineage_iff
    (h : buildCaptureReviewAfter lineage live plan input reviewedBy reviewedAt = .ok review)
    (hprior : input.priorReviewId = none) {later : CaptureReviewInput}
    (hnames : later.priorReviewId = some review.reviewId) :
    validatePriorReviewLineage live plan later (some review) = .ok () ↔
      plan.candidates ≠ [] ∧ ∀ r ∈ review.decisions, r.outcome ≠ .defer →
        ∃ current, (decisionsById later.decisions).get? r.candidateId = some current ∧
          normalizedReviewDecisionInput current = normalizedReviewDecisionInput r.asInput := by
  obtain ⟨inventory, reserved, ds, -, hdecided, -, hds, -⟩ := decided_of_review h
  obtain ⟨-, -, -, -, inputs, decisions, -, -, -, hfinish⟩ := buildCaptureReviewAfter_eq_ok.1 h
  have hreview := finishReview_eq_ok hfinish
  have hread : ∀ r ∈ review.decisions, reviewDecisionAsInput r = .ok r.asInput := by
    intro r hr
    obtain ⟨c, -, d, used₁, used₂, -, hdecide⟩ := hdecided.of_decision hds hr
    exact (reviewDecisionAsInput_of_decided hdecide).1
  have hterminal : checkAll (checkTerminalDecision (decisionsById later.decisions))
      review.decisions = .ok () ↔ ∀ r ∈ review.decisions, r.outcome ≠ .defer →
        ∃ current, (decisionsById later.decisions).get? r.candidateId = some current ∧
          normalizedReviewDecisionInput current = normalizedReviewDecisionInput r.asInput := by
    rw [checkAll_eq_ok]
    refine forall_congr' fun r => forall_congr' fun hr => ?_
    by_cases hdefer : r.outcome = .defer
    · refine iff_of_true ?_ fun h => absurd hdefer h
      rw [checkTerminalDecision, if_pos hdefer]
    · rw [checkTerminalDecision_eq_ok (hread r hr) hdefer]
      exact ⟨fun h _ => h, fun h => h hdefer⟩
  rw [← validateReviewIdentity_iff h hprior, ← hterminal]
  constructor
  · intro hvalid
    obtain ⟨-, hvalid⟩ := check_bind_eq_ok.1 hvalid
    obtain ⟨hidentity, hvalid⟩ := check_bind_eq_ok.1 hvalid
    obtain ⟨-, hvalid⟩ := check_bind_eq_ok.1 hvalid
    obtain ⟨-, hvalid⟩ := check_bind_eq_ok.1 hvalid
    obtain ⟨-, hvalid⟩ := check_bind_eq_ok.1 hvalid
    obtain ⟨replayed, -, hvalid⟩ := bind_eq_ok.1 hvalid
    obtain ⟨-, hvalid⟩ := check_bind_eq_ok.1 hvalid
    exact ⟨hidentity, hvalid⟩
  · rintro ⟨hidentity, hvalid⟩
    refine check_bind_eq_ok.2 ⟨ensure_of ?_, check_bind_eq_ok.2 ⟨hidentity, check_bind_eq_ok.2
      ⟨ensure_of hnames, check_bind_eq_ok.2 ⟨ensure_of ?_, check_bind_eq_ok.2 ⟨ensure_of ?_,
        bind_eq_ok.2 ⟨review, replayReview_of_ok h hprior, check_bind_eq_ok.2
          ⟨ensure_of ⟨rfl, rfl⟩, hvalid⟩⟩⟩⟩⟩⟩⟩
    · rw [hnames, hreview]
      exact validCaptureIdentity_domainId "review" _
    · rw [hreview]
      rfl
    · rw [hreview]
      exact hprior

/-- **Deferred review lineage**: a later review can repeat the decisions of its predecessor word for
word, and can change none of them, exactly when the plan has a candidate and every edit of the
predecessor is written out. -/
theorem lineageHolds_iff
    (h : buildCaptureReview live plan input none reviewedBy reviewedAt = .ok review) :
    LineageHolds live plan input review ↔
      plan.candidates ≠ [] ∧ ∀ d ∈ input.decisions, d.outcome = .edit → WrittenOut d := by
  have hprior : input.priorReviewId = none := by
    obtain ⟨-, hlineage, -⟩ := buildCaptureReviewAfter_eq_ok.1 h
    obtain ⟨-, hlineage⟩ := check_bind_eq_ok.1 hlineage
    exact ensure_eq_ok.1 hlineage
  obtain ⟨inventory, reserved, ds, hnodup, hdecided, hdistinct, hds, hinventory, hdecisions⟩ :=
    decided_of_review h
  -- the input of a decision is one of the inputs, and its candidate is one of the plan
  have hinputOf : ∀ r ∈ review.decisions, ∃ c d used₁ used₂, d ∈ input.decisions ∧
      d.candidateId = r.candidateId ∧ d.candidateId = c.candidateId ∧ c ∈ plan.candidates ∧
      decideCandidate inventory used₁ c d = .ok (r, used₂) := by
    intro r hr
    obtain ⟨c, hc, d, used₁, used₂, hget, hdecide⟩ := hdecided.of_decision hds hr
    obtain ⟨hd, hid⟩ := mem_of_get?_decisionsById hdistinct hget
    exact ⟨c, d, used₁, used₂, hd, hid.trans (decideCandidate_eq_ok.1 hdecide).2.2.1.symm, hid, hc,
      hdecide⟩
  constructor
  · intro hholds
    have hagain := (validatePriorReviewLineage_iff h hprior rfl).1
      (hholds.accepted { input with priorReviewId := some review.reviewId } rfl fun r _ _ => rfl)
    refine ⟨hagain.1, fun d hd hedit => ?_⟩
    have hget := get?_decisionsById_of_mem hdistinct hd
    obtain ⟨-, -, -, -, -, -, -, -, hknown, -⟩ := decidePlan_eq_ok hdecisions
    obtain ⟨c, hc, hid⟩ := List.mem_map.1 (hknown _ d hget)
    obtain ⟨r, hr, d', used₁, used₂, hget', hdecide⟩ := hdecided.of_candidate hds hc
    rw [hid, hget] at hget'
    obtain rfl := Option.some.inj hget'
    obtain ⟨-, -, hrid, houtcome, -⟩ := decideCandidate_eq_ok.1 hdecide
    have hterminal : r.outcome ≠ .defer := by
      rw [houtcome, hedit]
      decide
    obtain ⟨current, hcurrent, hsame⟩ := hagain.2 r hr hterminal
    rw [hrid, hid, hget] at hcurrent
    obtain rfl := Option.some.inj hcurrent
    exact (normalized_eq_asInput_iff hdecide hid.symm).1 hsame hedit
  · rintro ⟨hplan, hwritten⟩
    have hsame : ∀ r ∈ review.decisions, ∀ d ∈ input.decisions, d.candidateId = r.candidateId →
        normalizedReviewDecisionInput d = normalizedReviewDecisionInput r.asInput := by
      intro r hr d hd hid
      obtain ⟨c, d', used₁, used₂, hd', hid', hc', -, hdecide⟩ := hinputOf r hr
      obtain rfl := List.inj_on_of_nodup_map hdistinct hd hd' (hid.trans hid'.symm)
      exact (normalized_eq_asInput_iff hdecide hc').2 (hwritten d hd)
    constructor
    · intro later hnames hrepeats
      refine (validatePriorReviewLineage_iff h hprior hnames).2 ⟨hplan, fun r hr hterminal => ?_⟩
      obtain ⟨c, d, used₁, used₂, hd, hid, -, -, -⟩ := hinputOf r hr
      refine ⟨d, ?_, hsame r hr d hd hid⟩
      rw [hrepeats r hr hterminal, ← hid]
      exact get?_decisionsById_of_mem hdistinct hd
    · intro later laterBy laterAt next hnames hrepeats hnext r hr hterminal
      obtain ⟨inventory', reserved', ds', -, hdecided', hdistinct', hds', hinventory', -⟩ :=
        decided_of_review hnext
      obtain rfl := Except.ok.inj (hinventory.symm.trans hinventory')
      obtain ⟨c, d, used₁, used₂, hd, hid, hidc, hc, hdecide⟩ := hinputOf r hr
      obtain ⟨r', hr', d', used₁', used₂', hget', hdecide'⟩ := hdecided'.of_candidate hds' hc
      -- the later input of the candidate is the earlier one
      rw [← hidc, hid, hrepeats r hr hterminal, ← hid, get?_decisionsById_of_mem hdistinct hd]
        at hget'
      obtain rfl := Option.some.inj hget'
      exact ⟨r', hr', decideCandidate_reserved hdecide hdecide'⟩
    · rintro later laterBy laterAt next hnames ⟨r, hr, hterminal, d, hd, d', hd', hid, hid', hne⟩
        hnext
      obtain ⟨-, hlineage, -⟩ := buildCaptureReviewAfter_eq_ok.1 hnext
      obtain ⟨-, -, -, -, -, hdistinct', -⟩ := decided_of_review hnext
      obtain ⟨-, hrepeated⟩ := (validatePriorReviewLineage_iff h hprior hnames).1 hlineage
      obtain ⟨current, hcurrent, hcompared⟩ := hrepeated r hr hterminal
      rw [← hid', get?_decisionsById_of_mem hdistinct' hd'] at hcurrent
      obtain rfl := Option.some.inj hcurrent
      exact hne (hcompared.trans (hsame r hr d hd hid).symm)

end Again

/-! ### Two reviews of the notes on storage -/

/-- The digests of the reviews below. -/
@[reducible] def lineageDigests : ReviewDigests where
  draft d :=
    if d.2.2.2.1 = "Use files." then
      0x5a6d9cd3f31f440fca92ac8e3de6c5e7c96614162c050d5d245455d69ce063ff#256
    else 0xa676f30be735117c3f369304694062d3933e518aa25cd86994fcb2cd16f52038#256
  claim x :=
    if x.1.body = "Use plain files." then
      0x7ea9fb55f4a115465fdffc2c3b6e81e49c085f04176f4caff524e07e180a9426#256
    else if x.2.1.any fun e => e.span.byteStart = 0 then
      0x197c661647edb2f1edb30683e56cd62dc16161fcac3ea85504171ea5f72bb22d#256
    else 0x45d851ed6f6c547328dbdddd7cea93f6b5d78183f31f21939d82dab38500a0de#256
  candidate x :=
    match x.2.2.2 with
    | .createRuntime _ => 0xb7951e25c6e738e3f8e4120749b529ee2900dcf05646a38bf5b71bc3f33b2df9#256
    | .duplicate _ => 0xfc1be0f88c17bb8651e9cd121226bdeb5c2c6fc127e8a4b9a558b80058527518#256
    | _ => 0xc55c21ecca7de9735e2056bddc54434082150c3ce9231684a453ef0030900100#256
  plan _ := 1
  review r := if r.decisions.any fun d => d.outcome = .defer then 2 else 3
  reviewBytes _ := 4096

/-- The policy of a typed section of plain notes. -/
@[reducible] def notesRules : ReviewRules where
  validateRequest _ := .ok ()
  candidatePolicy _ _ := .ok ⟨.decision, .semantic, .needsReview, .unknown,
    "generic_markdown_requires_contextual_review", "generic_markdown_sensitivity_unknown"⟩
  isProhibited _ := false

def liveNotes : LiveCapture where
  evaluatedAt := "2026-01-02T00:00:00Z"
  checkPlan _ := .ok ()
  inventory := .ok ⟨[], [], true⟩
  extract _ := .ok (storageSections notesClassification, [])
  originReplay _ := .ok none

/-- The plan of the two sections: the second one repeats the first one. -/
def notesPlan : CapturePlan where
  schema := capturePlanSchema
  planId := domainId "capture" 1
  status := .ready
  dataClass := .«private»
  request := ⟨"memzoi/capture-request",
    [⟨"notes", .projectPath "docs/storage.md", "text/markdown", none⟩], "markdown-deterministic"⟩
  sources := [⟨"notes", .projectPath "docs/storage.md", "text/markdown", 63,
    "blake3:4974538ffe8962315a36f2c24d3b04daa72c8d9355c38d4fc8646373a0d99891", [], []⟩]
  extractor := ⟨"deterministic", "memzoi-markdown",
    "blake3:cf9248362b99b8410cd26c8349b32c6f84706637016f9c11e89b3486b2fddf2d"⟩
  candidates := (@classifyActions .ascii lineageDigests.toCaptureDigests ⟨[], [], true⟩
    (storageSections notesClassification)).toOption.getD []
  diagnostics := []

def firstNote : String :=
  domainId "candidate" 0xc55c21ecca7de9735e2056bddc54434082150c3ce9231684a453ef0030900100#256

def secondNote : String :=
  domainId "candidate" 0xfc1be0f88c17bb8651e9cd121226bdeb5c2c6fc127e8a4b9a558b80058527518#256

/-- Revise the first section for the private store, under a content class. -/
def reviseNote (contentClass : Option RepositoryContentClass) : CaptureReviewDecisionInput :=
  ⟨firstNote, .edit, some "revised", some { storageMemory with body := "Use plain files." },
    some .«local», contentClass⟩

/-- Revise the first section, and decide the second one. -/
def notesInput (priorReviewId : Option String) (contentClass : Option RepositoryContentClass)
    (second : CaptureReviewOutcome) : CaptureReviewInput :=
  ⟨captureReviewInputSchema, notesPlan.planId, priorReviewId,
    [reviseNote contentClass, ⟨secondNote, second, none, none, none, none⟩]⟩

/-- The edit names no content class, as it need not for the private store. Repeated word for word
with the deferred section rejected, it counts as a change. -/
theorem repeated_edit_rejected : ∃ review,
    @buildCaptureReview .ascii lineageDigests notesRules liveNotes notesPlan
        (notesInput none none .defer) none "reviewer" "2026-01-02T00:00:00Z" = .ok review ∧
      Repeats (notesInput none none .defer) review
        (notesInput (some review.reviewId) none .reject) ∧
      @validatePriorReviewLineage .ascii lineageDigests notesRules liveNotes notesPlan
          (notesInput (some review.reviewId) none .reject) (some review) =
        bail "later capture reviews may change only previously deferred decisions" := by
  obtain ⟨review, hreview, hcheck⟩ := ok_of_any
    (show (@buildCaptureReview .ascii lineageDigests notesRules liveNotes notesPlan
      (notesInput none none .defer) none "reviewer" "2026-01-02T00:00:00Z").toOption.any
        (fun review =>
          review.decisions.all (fun r => r.outcome = .defer ||
            (decisionsById (notesInput (some review.reviewId) none .reject).decisions).get?
                r.candidateId =
              (decisionsById (notesInput none none .defer).decisions).get? r.candidateId) &&
          @validatePriorReviewLineage .ascii lineageDigests notesRules liveNotes notesPlan
              (notesInput (some review.reviewId) none .reject) (some review) =
            bail "later capture reviews may change only previously deferred decisions") = true by
      decide +kernel)
  obtain ⟨hrepeats, hrejected⟩ := Bool.and_eq_true_iff.1 hcheck
  refine ⟨review, hreview, fun r hr hterminal => ?_, of_decide_eq_true hrejected⟩
  rcases Bool.or_eq_true_iff.1 (List.all_eq_true.1 hrepeats r hr) with hdefer | hsame
  · exact absurd (of_decide_eq_true hdefer) hterminal
  · exact of_decide_eq_true hsame

/-- With its content class the edit can be repeated. -/
theorem written_edit_holds : ∃ review,
    @buildCaptureReview .ascii lineageDigests notesRules liveNotes notesPlan
        (notesInput none (some .localOnlyState) .defer) none "reviewer" "2026-01-02T00:00:00Z" =
      .ok review ∧
      @LineageHolds .ascii lineageDigests notesRules liveNotes notesPlan
        (notesInput none (some .localOnlyState) .defer) review := by
  obtain ⟨review, hreview, hcheck⟩ := ok_of_any
    (show (@buildCaptureReview .ascii lineageDigests notesRules liveNotes notesPlan
      (notesInput none (some .localOnlyState) .defer) none "reviewer"
        "2026-01-02T00:00:00Z").toOption.any (fun _ => decide (notesPlan.candidates ≠ []) &&
          decide (@normalizeReviewedMemory notesRules
            { storageMemory with body := "Use plain files." } =
              .ok { storageMemory with body := "Use plain files." })) = true by decide +kernel)
  obtain ⟨hplan, hnormal⟩ := Bool.and_eq_true_iff.1 hcheck
  refine ⟨review, hreview, (@lineageHolds_iff .ascii lineageDigests notesRules _ _ _ _ _ _
    hreview).2 ⟨of_decide_eq_true hplan, fun d hd hedit => ?_⟩⟩
  rcases List.mem_cons.1 hd with rfl | hd
  · exact @WrittenOut.mk notesRules _ ⟨_, rfl, of_decide_eq_true hnormal⟩ rfl rfl
  · obtain rfl := List.mem_singleton.1 hd
    cases hedit

end Capture
end Memzoi
