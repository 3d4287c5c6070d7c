/-
# What a blocked import plan reveals

Source: `import.rs` (`build_plan`, `fingerprint_plan`).

Two documents that differ in the sources and in the private texts of their
repository candidates that are not repo-safe go through the loop in step: such a
candidate is never listed under its hash, never looked up, and is copied with
placeholders. What is left of it in the plan is the content hash of its trimmed
body, and through it the identifier of the plan.
-/

import Memzoi.Import.Duplicates

namespace Memzoi
namespace Import

open Fallible
open Origin (OriginOutcome)
open PrivateLifecycle (Digests)

/-! ### Documents that agree -/

/-- The kind of scope a candidate names, or the one it has without a scope. -/
def ImportCandidateInput.scopeKind (raw : ImportCandidateInput) : ScopeKind :=
  (raw.scope.getD ⟨.repo, none, []⟩).kind

/-- The candidates agree on everything but title, body, reason, tags, scope id and scope paths. -/
structure AgreeOutsideTexts (a b : ImportCandidateInput) : Prop where
  destination : a.destination = b.destination
  memoryType : a.memoryType = b.memoryType
  lane : a.lane = b.lane
  sensitivity : a.sensitivity = b.sensitivity
  contentClass : a.contentClass = b.contentClass
  scopeKind : a.scopeKind = b.scopeKind

/-- The documents agree on everything but the sources and the texts of their repository candidates
that are not repo-safe. -/
structure AgreeOutsideBlocked (a b : ImportDocument) : Prop where
  schema : a.schema = b.schema
  originKey : a.originKey = b.originKey
  candidates : List.Forall₂ (fun c d => c = d ∨ (c.nonRepoSafe ∧ AgreeOutsideTexts c d))
    a.candidates b.candidates

/-- The plan's candidate is one whose texts are redacted. -/
def ImportPlanCandidate.redacted (c : ImportPlanCandidate) : Bool :=
  c.classification.destination = .repo && c.sensitivity ≠ .repoSafe

/-- The plan without its identifier and the content hashes of its redacted candidates. -/
def ImportPlan.withoutHashes (plan : ImportPlan) : ImportPlan :=
  { plan with
    planId := ""
    candidates := plan.candidates.map fun c => if c.redacted then { c with contentHash := "" } else c }

/-! ### Two runs in step -/

/-- Normalized candidates that differ in their texts only. -/
structure AgreeRedacted (c d : ImportCandidate) : Prop where
  nonRepoSafe : c.nonRepoSafe
  index : c.index = d.index
  originKey : c.originKey = d.originKey
  destination : c.classification.destination = d.classification.destination
  policy : c.policy = d.policy
  memoryType : c.memoryType = d.memoryType
  lane : c.lane = d.lane
  sensitivity : c.sensitivity = d.sensitivity
  contentClass : c.contentClass = d.contentClass
  scopeKind : c.scope.kind = d.scope.kind

/-- The plan's copies differ in the content hash only, and there only when they are redacted. -/
def AgreePlanned (x y : ImportPlanCandidate) : Prop :=
  x = { y with contentHash := x.contentHash } ∧ (x.redacted ∨ x.contentHash = y.contentHash)

/-- The variables of the loop, up to hashes of redacted candidates. -/
structure AgreeState (s t : PlanState) : Prop where
  usedIds : s.usedIds = t.usedIds
  summary : s.summary = t.summary
  prior : s.prior = t.prior
  candidates : List.Forall₂ AgreePlanned s.candidates t.candidates

section Normalization

variable [Digests]

omit [Digests] in
theorem normalizeScope_kind {index : Nat} {raw : ImportCandidateInput} {scope : ImportScope}
    (h : normalizeScope index raw.scope = .ok scope) : scope.kind = raw.scopeKind := by
  obtain ⟨-, h⟩ := check_bind_eq_ok.1 h
  obtain ⟨-, h⟩ := check_bind_eq_ok.1 h
  obtain rfl := pure_eq_ok.1 h
  rfl

theorem agreeRedacted_of_normalize {originKey : String} {a b : ImportCandidateInput} {index : Nat}
    {c d : ImportCandidate} (hsafe : a.nonRepoSafe) (hagree : AgreeOutsideTexts a b)
    (hc : normalizeCandidate originKey a index = .ok c)
    (hd : normalizeCandidate originKey b index = .ok d) : AgreeRedacted c d := by
  obtain ⟨-, hc⟩ := check_bind_eq_ok.1 hc
  obtain ⟨-, hc⟩ := check_bind_eq_ok.1 hc
  obtain ⟨-, hc⟩ := check_bind_eq_ok.1 hc
  obtain ⟨-, hc⟩ := check_bind_eq_ok.1 hc
  obtain ⟨scope, hscope, hc⟩ := bind_eq_ok.1 hc
  obtain ⟨memoryType, htype, hc⟩ := bind_eq_ok.1 hc
  obtain rfl := pure_eq_ok.1 hc
  obtain ⟨-, hd⟩ := check_bind_eq_ok.1 hd
  obtain ⟨-, hd⟩ := check_bind_eq_ok.1 hd
  obtain ⟨-, hd⟩ := check_bind_eq_ok.1 hd
  obtain ⟨-, hd⟩ := check_bind_eq_ok.1 hd
  obtain ⟨scope', hscope', hd⟩ := bind_eq_ok.1 hd
  obtain ⟨memoryType', htype', hd⟩ := bind_eq_ok.1 hd
  obtain rfl := pure_eq_ok.1 hd
  obtain ⟨hdestination, hmemory, hlane, hsensitivity, hclass, hkind⟩ := hagree
  have hinfer : inferType a = inferType b := by rw [inferType, inferType, hlane, hdestination]
  rw [require_eq_ok, hmemory, hinfer] at htype
  rw [require_eq_ok, htype] at htype'
  obtain rfl := Option.some.inj htype'
  refine ⟨hsafe, rfl, rfl, hdestination, ?_, ?_, ?_, hsensitivity, hclass, ?_⟩
  · exact congrArg MemoryDestination.policy hdestination
  · simp only [hdestination]
  · simp only [hdestination, hlane]
  · rw [normalizeScope_kind hscope, normalizeScope_kind hscope', hkind]

/-- The documents normalize to candidates that agree. -/
theorem agree_normalized {a b : ImportDocument} {cs ds : List ImportCandidate}
    (h : AgreeOutsideBlocked a b) (hcs : normalizeDocument a = .ok cs)
    (hds : normalizeDocument b = .ok ds) :
    List.Forall₂ (fun c d => c = d ∨ AgreeRedacted c d) cs ds := by
  obtain ⟨hlength, hget⟩ := normalizeDocument_get hcs
  obtain ⟨hlength', hget'⟩ := normalizeDocument_get hds
  obtain ⟨hsame, hagree⟩ := List.forall₂_iff_get.1 h.candidates
  refine List.forall₂_iff_get.2 ⟨by omega, fun i hi hi' => ?_⟩
  obtain ⟨c, hc, hnorm⟩ := hget i _ (List.getElem?_eq_getElem (by omega))
  obtain ⟨d, hd, hnorm'⟩ := hget' i _ (List.getElem?_eq_getElem (by omega))
  obtain ⟨_, rfl⟩ := List.getElem?_eq_some_iff.1 hc
  obtain ⟨_, rfl⟩ := List.getElem?_eq_some_iff.1 hd
  rw [← h.originKey] at hnorm'
  rcases hagree i (by omega) (by omega) with hraw | ⟨hsafe, hraw⟩
  · simp only [List.get_eq_getElem] at hraw
    rw [← hraw] at hnorm'
    exact .inl (Except.ok.inj (hnorm.symm.trans hnorm'))
  · exact .inr (agreeRedacted_of_normalize hsafe hraw hnorm hnorm')

end Normalization

section Loop

variable [Digests] [ImportEnvironment] {context : PlanContext}

omit [Digests] [ImportEnvironment] in
theorem AgreeRedacted.nonRepoSafe_right {c d : ImportCandidate} (h : AgreeRedacted c d) :
    d.nonRepoSafe = true := by
  have hc := h.nonRepoSafe
  rwa [ImportCandidate.nonRepoSafe, h.destination, h.sensitivity] at hc

omit [Digests] [ImportEnvironment] in
theorem blockedRepo_of_nonRepoSafe (hblocked : context.hasBlockedRepoCandidate = true)
    {c : ImportCandidate} (hc : c.nonRepoSafe = true) : context.blockedRepo c = true := by
  rw [ImportCandidate.nonRepoSafe, Bool.and_eq_true] at hc
  rw [PlanContext.blockedRepo, hc.1, hblocked, Bool.and_self]

/-- A redacted candidate gets one action, whatever its texts are. -/
theorem action_agree (hblocked : context.hasBlockedRepoCandidate = true) {s t : PlanState}
    (hids : s.usedIds = t.usedIds) (hsummary : s.summary = t.summary) {c d : ImportCandidate}
    (h : AgreeRedacted c d) (found found' : List ImportDuplicate) :
    context.action s found c = context.action t found' d := by
  rw [PlanContext.action, PlanContext.action,
    blockedRepo_of_nonRepoSafe hblocked h.nonRepoSafe,
    blockedRepo_of_nonRepoSafe hblocked h.nonRepoSafe_right, h.originKey, h.nonRepoSafe,
    h.nonRepoSafe_right, h.sensitivity, hids, hsummary]
  rfl

omit [Digests] [ImportEnvironment] in
/-- Its copies differ in the content hash only. -/
theorem planned_agree {c d : ImportCandidate} (h : AgreeRedacted c d)
    (found : List ImportDuplicate) (action : ImportCandidateAction) :
    AgreePlanned (c.planned found action) (d.planned found action) := by
  have hsensitivity : c.sensitivity ≠ .repoSafe := by
    have hc := h.nonRepoSafe
    rw [ImportCandidate.nonRepoSafe, Bool.and_eq_true] at hc
    simpa using hc.2
  constructor
  · simp only [ImportCandidate.planned, h.nonRepoSafe, h.nonRepoSafe_right, if_true, h.index,
      h.originKey, h.policy, h.memoryType, h.lane, h.sensitivity, h.contentClass, h.scopeKind]
  · left
    simp [ImportPlanCandidate.redacted, ImportCandidate.planned, h.nonRepoSafe, hsensitivity]

/-- **One turn keeps the two runs in step.** -/
theorem step_agree (hblocked : context.hasBlockedRepoCandidate = true) {s t s' t' : PlanState}
    {c d : ImportCandidate} (h : AgreeState s t) (hcd : c = d ∨ AgreeRedacted c d)
    (hs : context.step s c = .ok s') (ht : context.step t d = .ok t') : AgreeState s' t' := by
  obtain ⟨usedIds, summary, prior, cs⟩ := s
  obtain ⟨usedIds', summary', prior', ds⟩ := t
  obtain ⟨rfl, rfl, rfl, hcandidates⟩ := h
  obtain ⟨⟨action, summary₁, usedIds₁⟩, haction, hs⟩ := bind_eq_ok.1 hs
  obtain rfl := pure_eq_ok.1 hs
  obtain ⟨⟨action', summary₂, usedIds₂⟩, haction', ht⟩ := bind_eq_ok.1 ht
  obtain rfl := pure_eq_ok.1 ht
  rcases hcd with rfl | hcd
  · -- the action reads the identifiers and the counters only
    obtain ⟨rfl, rfl, rfl⟩ : action = action' ∧ summary₁ = summary₂ ∧ usedIds₁ = usedIds₂ := by
      simpa using Except.ok.inj (haction.symm.trans haction')
    exact ⟨rfl, rfl, rfl, List.rel_append hcandidates (.cons ⟨rfl, .inr rfl⟩ .nil)⟩
  · have hc := blockedRepo_of_nonRepoSafe hblocked hcd.nonRepoSafe
    have hd := blockedRepo_of_nonRepoSafe hblocked hcd.nonRepoSafe_right
    have hfound : context.duplicates prior c = context.duplicates prior d := by
      rw [PlanContext.duplicates, PlanContext.duplicates, hc, hd]
      rfl
    rw [action_agree hblocked rfl rfl hcd _ (context.duplicates prior d)] at haction
    obtain ⟨rfl, rfl, rfl⟩ : action = action' ∧ summary₁ = summary₂ ∧ usedIds₁ = usedIds₂ := by
      simpa using Except.ok.inj (haction.symm.trans haction')
    refine ⟨rfl, rfl, ?_, List.rel_append hcandidates (.cons ?_ .nil)⟩
    · show (if context.blockedRepo c then prior else _) = if context.blockedRepo d then prior else _
      rw [hc, hd, if_pos rfl, if_pos rfl]
    · rw [hfound]
      exact planned_agree hcd _ _

/-- **The whole loop keeps the two runs in step.** -/
theorem runAll_agree (hblocked : context.hasBlockedRepoCandidate = true) {s t s' t' : PlanState}
    {cs ds : List ImportCandidate} (h : AgreeState s t)
    (hagree : List.Forall₂ (fun c d => c = d ∨ AgreeRedacted c d) cs ds)
    (hs : runAll context.step s cs = .ok s') (ht : runAll context.step t ds = .ok t') :
    AgreeState s' t' := by
  induction hagree generalizing s t with
  | nil =>
    obtain rfl : s = s' := by simpa using hs
    obtain rfl : t = t' := by simpa using ht
    exact h
  | cons hcd _ ih =>
    obtain ⟨s₁, hs₁, hs⟩ := runAll_cons.1 hs
    obtain ⟨t₁, ht₁, ht⟩ := runAll_cons.1 ht
    exact ih (step_agree hblocked h hcd hs₁ ht₁) hs ht

/-- A plan's content hashes are those of the bodies. -/
theorem plan_contentHash {actor : String} {doc : ImportDocument}
    {existing : List ExistingDuplicate} {reserved : List String}
    {replays : SortedMap String OriginOutcome} {plan : ImportPlan}
    (h : buildPlan actor doc existing reserved replays = .ok plan) {i : Nat}
    {raw : ImportCandidateInput} {c : ImportPlanCandidate} (hraw : doc.candidates[i]? = some raw)
    (hc : plan.candidates[i]? = some c) : c.contentHash = contentHash raw.body := by
  obtain ⟨cs, state, hcs, hstate, rfl⟩ := buildPlan_eq_ok h
  obtain ⟨hplanned, -⟩ := planned_of_runAll (planned_start _) hstate
  obtain ⟨d, hd, hnorm⟩ := (normalizeDocument_get hcs).2 i raw hraw
  obtain ⟨found, action, hget, -⟩ := hplanned.action i d hd
  obtain rfl := Option.some.inj (hc.symm.trans hget)
  exact (normalizeCandidate_fields hnorm).2.2.2.2

omit [Digests] [ImportEnvironment] in
/-- Copies that differ in redacted hashes only are the same without them, and the same altogether
when the hashes are. -/
theorem agreePlanned_withoutHashes {xs ys : List ImportPlanCandidate}
    (h : List.Forall₂ AgreePlanned xs ys) :
    xs.map (fun c => if c.redacted then { c with contentHash := "" } else c) =
        ys.map (fun c => if c.redacted then { c with contentHash := "" } else c) ∧
      (xs.map (·.contentHash) = ys.map (·.contentHash) → xs = ys) := by
  induction h with
  | nil => exact ⟨rfl, fun _ => rfl⟩
  | @cons x y xs ys hxy _ ih =>
    obtain ⟨hsame, hredacted⟩ := hxy
    have hboth : x.redacted = y.redacted := by rw [hsame]; rfl
    constructor
    · rw [List.map_cons, List.map_cons, ih.1]
      refine congrArg (· :: _) ?_
      rw [← hboth]
      split
      next => rw [hsame]
      next hx =>
        rw [hsame, hredacted.resolve_left hx]
    · intro hhashes
      obtain ⟨hhead, htail⟩ := List.cons.inj hhashes
      have hhead : x.contentHash = y.contentHash := hhead
      rw [ih.2 htail, hsame, hhead]

end Loop

/-- The bodies of a plan's candidates decide its content hashes. -/
theorem contentHashes_eq [Digests] [ImportEnvironment] {actor : String} {a b : ImportDocument}
    {existing : List ExistingDuplicate} {reserved : List String}
    {replays : SortedMap String OriginOutcome} {p q : ImportPlan}
    (hp : buildPlan actor a existing reserved replays = .ok p)
    (hq : buildPlan actor b existing reserved replays = .ok q)
    (hlength : a.candidates.length = b.candidates.length)
    (hbodies : ∀ i, a.bodyAt i = b.bodyAt i) :
    p.candidates.map (·.contentHash) = q.candidates.map (·.contentHash) := by
  have hlp := (plan_actions hp).1
  have hlq := (plan_actions hq).1
  refine List.ext_getElem (by simp only [List.length_map]; omega) fun i hi hi' => ?_
  rw [List.length_map] at hi hi'
  rw [List.getElem_map, List.getElem_map]
  have ha : a.candidates[i]? = some a.candidates[i] := List.getElem?_eq_getElem (by omega)
  have hb : b.candidates[i]? = some b.candidates[i] := List.getElem?_eq_getElem (by omega)
  have hbody := hbodies i
  rw [ImportDocument.bodyAt, ImportDocument.bodyAt, ha, hb] at hbody
  rw [plan_contentHash hp ha (List.getElem?_eq_getElem hi),
    plan_contentHash hq hb (List.getElem?_eq_getElem hi')]
  exact congrArg Digests.blake3 (Option.some.inj hbody)

theorem AgreeOutsideBlocked.any_nonRepoSafe {a b : ImportDocument} (h : AgreeOutsideBlocked a b) :
    a.candidates.any ImportCandidateInput.nonRepoSafe =
      b.candidates.any ImportCandidateInput.nonRepoSafe := by
  have hmap : a.candidates.map ImportCandidateInput.nonRepoSafe =
      b.candidates.map ImportCandidateInput.nonRepoSafe := by
    rw [← List.forall₂_eq_eq_eq, List.forall₂_map_left_iff, List.forall₂_map_right_iff]
    refine h.candidates.imp fun c d hcd => ?_
    rcases hcd with rfl | ⟨-, hcd⟩
    · rfl
    · rw [ImportCandidateInput.nonRepoSafe, ImportCandidateInput.nonRepoSafe, hcd.destination,
        hcd.sensitivity]
  simpa [List.any_map] using congrArg (List.any · id) hmap

/-- The plans of two documents that agree are put together from states in step. -/
theorem agreeState_of_plans [Digests] [ImportEnvironment] {actor : String} {a b : ImportDocument}
    {existing : List ExistingDuplicate} {reserved : List String}
    {replays : SortedMap String OriginOutcome} {p q : ImportPlan}
    (hagree : AgreeOutsideBlocked a b)
    (hblocked : a.candidates.any ImportCandidateInput.nonRepoSafe = true)
    (hp : buildPlan actor a existing reserved replays = .ok p)
    (hq : buildPlan actor b existing reserved replays = .ok q) :
    ∃ s t, AgreeState s t ∧ p = assemblePlan actor a true s ∧ q = assemblePlan actor b true t := by
  obtain ⟨cs, s, hcs, hs, rfl⟩ := buildPlan_eq_ok hp
  obtain ⟨ds, t, hds, ht, rfl⟩ := buildPlan_eq_ok hq
  have hc := (any_nonRepoSafe hcs).trans hblocked
  have hd := (any_nonRepoSafe hds).trans (hagree.any_nonRepoSafe.symm.trans hblocked)
  rw [hc] at hs ⊢
  rw [hd] at ht ⊢
  have hcandidates := agree_normalized hagree hcs hds
  rw [← hcandidates.length_eq] at ht
  exact ⟨s, t, runAll_agree rfl ⟨rfl, rfl, rfl, .nil⟩ hcandidates hs ht, rfl, rfl⟩

/-- **A blocked plan holds no more of a redacted candidate than its content hash.** Two documents
that agree outside the sources and the redacted texts have plans that differ in the hashes of those
candidates and the plan identifier only; each hash is that of the candidate's trimmed body; and the
plans are equal in every field when the trimmed bodies are. -/
theorem blocked_plan_reveals_hashes_only [Digests] [ImportEnvironment] (actor : String)
    (a b : ImportDocument) (existing : List ExistingDuplicate) (reserved : List String)
    (replays : SortedMap String OriginOutcome) (p q : ImportPlan)
    (hagree : AgreeOutsideBlocked a b) (hblocked : a.candidates.any ImportCandidateInput.nonRepoSafe)
    (hp : buildPlan actor a existing reserved replays = .ok p)
    (hq : buildPlan actor b existing reserved replays = .ok q) :
    p.withoutHashes = q.withoutHashes ∧
      (∀ (i : Nat) (raw : ImportCandidateInput) (c : ImportPlanCandidate),
        a.candidates[i]? = some raw → p.candidates[i]? = some c →
        c.contentHash = contentHash raw.body) ∧
      ((∀ i, a.bodyAt i = b.bodyAt i) → p = q) := by
  obtain ⟨s, t, hagreeState, hps, hqt⟩ := agreeState_of_plans hagree hblocked hp hq
  obtain ⟨hwithout, hequal⟩ := agreePlanned_withoutHashes hagreeState.candidates
  refine ⟨?_, fun i raw c hraw hc => plan_contentHash hp hraw hc, fun hbodies => ?_⟩
  · rw [hps, hqt, ImportPlan.withoutHashes, ImportPlan.withoutHashes]
    simp only [assemblePlan, hagree.originKey, hagreeState.summary, hwithout, if_true]
  · have hhashes := contentHashes_eq hp hq hagree.candidates.length_eq hbodies
    rw [hps, hqt] at hhashes
    have hcandidates : s.candidates = t.candidates := hequal hhashes
    rw [hps, hqt]
    simp only [assemblePlan, hagree.originKey, hagreeState.summary, hcandidates, if_true]

/-- The plan of a document with a private repository candidate. -/
def privatePlan (body : String) : Fallible ImportPlan :=
  @buildPlan sampleDigests emptyEnvironment "cli" (sampleDocument [sampleCandidate .repo body]) []
    [] .empty

theorem agree_privateDocuments (body body' : String) :
    AgreeOutsideBlocked (sampleDocument [sampleCandidate .repo body])
      (sampleDocument [sampleCandidate .repo body']) :=
  ⟨rfl, rfl, .cons (.inr ⟨rfl, rfl, rfl, rfl, rfl, rfl, rfl⟩) .nil⟩

/-- Plans of documents that differ in a private body, without their hashes. -/
theorem private_bodies_planned : ∃ p q, privatePlan "Use tabs." = .ok p ∧
    privatePlan "Use spaces." = .ok q ∧ p.withoutHashes = q.withoutHashes := by
  have hplanned : ((privatePlan "Use tabs.").toOption.any (fun _ => true) &&
      (privatePlan "Use spaces.").toOption.any (fun _ => true)) = true := by
    decide +kernel
  rw [Bool.and_eq_true] at hplanned
  obtain ⟨p, hp, -⟩ := ok_of_any hplanned.1
  obtain ⟨q, hq, -⟩ := ok_of_any hplanned.2
  exact ⟨p, q, hp, hq, (@blocked_plan_reveals_hashes_only sampleDigests emptyEnvironment _ _ _ _ _ _
    p q (agree_privateDocuments _ _) rfl hp hq).1⟩

/-- Plans of documents that differ in a private body only differ in its content hash. -/
theorem private_bodies_told_apart :
    AgreeOutsideBlocked (sampleDocument [sampleCandidate .repo "Use tabs."])
        (sampleDocument [sampleCandidate .repo "Use spaces."]) ∧
      ∃ p q, privatePlan "Use tabs." = .ok p ∧ privatePlan "Use spaces." = .ok q ∧ p ≠ q := by
  have hplanned : ((privatePlan "Use tabs.").toOption.any (fun plan => plan.candidates.map
        (·.contentHash) = ["5cd3f86ef5b87196dadc9ea30ae69feb85c5e71cfa5c46056d236bc009e2905e"]) &&
      (privatePlan "Use spaces.").toOption.any (fun plan => plan.candidates.map
        (·.contentHash) = ["46fe672a584dce1229c74eab80f7a8d0a23d290c8192acc5b1ecf204b68869dd"])) =
      true := by
    decide +kernel
  rw [Bool.and_eq_true] at hplanned
  obtain ⟨p, hp, htabs⟩ := ok_of_any hplanned.1
  obtain ⟨q, hq, hspaces⟩ := ok_of_any hplanned.2
  refine ⟨agree_privateDocuments _ _, p, q, hp, hq, ?_⟩
  rintro rfl
  have hsame := (of_decide_eq_true htabs).symm.trans (of_decide_eq_true hspaces)
  exact absurd hsame (by decide +kernel)

end Import
end Memzoi
