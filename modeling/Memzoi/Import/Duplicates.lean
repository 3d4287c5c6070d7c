/-
# What an import drops as a duplicate

Source: `import.rs` (`build_plan`).

The loop lists every candidate that is not a blocked repository candidate under
its content hash, also one that is discarded or left for review, and a later
candidate with the same body is a duplicate of it. So content is kept exactly
where the first candidate that is listed with a body writes it or some candidate
replays a write of it (`OriginalWrites`).
-/

import Memzoi.Import.Plan

namespace Memzoi
namespace Import

open Fallible
open Origin (OriginOutcome OriginOutcomeKind)
open PrivateLifecycle (Digests)

/-! ### Actions -/

/-- The action writes the candidate. -/
def ImportCandidateAction.writes : ImportCandidateAction → Bool
  | createProposal _ _ => true
  | createRuntime _ => true
  | _ => false

/-- The action stands for an earlier run that wrote the candidate. -/
def ImportCandidateAction.replaysWrite : ImportCandidateAction → Bool
  | replay .created _ _ _ => true
  | _ => false

def ImportCandidateAction.isDuplicate : ImportCandidateAction → Bool
  | duplicate _ => true
  | _ => false

/-- The candidates the counters count. -/
def ImportPlanSummary.decided (summary : ImportPlanSummary) : Nat :=
  summary.createProposals + summary.localWrites + summary.sessionWrites + summary.duplicates +
    summary.discarded + summary.needsReview + summary.replays

/-- What the loop makes of a candidate: `repeats` says that its body is there already. -/
inductive ActionOf (replay : Option OriginOutcome) (blocked : Bool) (repeats : Prop)
    (route : MemoryWriteRoute) : ImportCandidateAction → Prop
  | replayed {outcome : OriginOutcome} (hreplay : replay = some outcome) :
      ActionOf replay blocked repeats route
        (.replay outcome.outcome outcome.destination outcome.recordId outcome.proposalId)
  | stopped {reason : String} (hreplay : replay = none) (hblocked : blocked = true) :
      ActionOf replay blocked repeats route (.blocked reason)
  | repeated {found : List ImportDuplicate} (hreplay : replay = none) (hblocked : blocked = false)
      (hrepeats : repeats) : ActionOf replay blocked repeats route (.duplicate found)
  | written {action : ImportCandidateAction} (hreplay : replay = none) (hblocked : blocked = false)
      (hrepeats : ¬ repeats) (hroute : route ≠ .noWrite) (haction : action.writes = true) :
      ActionOf replay blocked repeats route action
  | dropped {action : ImportCandidateAction} {reason : String} (hreplay : replay = none)
      (hblocked : blocked = false) (hrepeats : ¬ repeats) (hroute : route = .noWrite)
      (haction : action = .blocked reason ∨ action = .noWrite reason) :
      ActionOf replay blocked repeats route action

section ActionOf

variable {replay : Option OriginOutcome} {blocked : Bool} {repeats : Prop}
  {route : MemoryWriteRoute} {action : ImportCandidateAction}

theorem ActionOf.isDuplicate_iff (h : ActionOf replay blocked repeats route action) :
    action.isDuplicate ↔ replay = none ∧ blocked = false ∧ repeats := by
  cases h with
  | replayed hreplay => simp [ImportCandidateAction.isDuplicate, hreplay]
  | stopped hreplay hblocked => simp [ImportCandidateAction.isDuplicate, hblocked]
  | repeated hreplay hblocked hrepeats =>
    simp [ImportCandidateAction.isDuplicate, hreplay, hblocked, hrepeats]
  | written hreplay hblocked hrepeats hroute haction =>
    cases action <;> simp_all [ImportCandidateAction.isDuplicate, ImportCandidateAction.writes]
  | dropped hreplay hblocked hrepeats hroute haction =>
    rcases haction with rfl | rfl <;> simp [ImportCandidateAction.isDuplicate, hrepeats]

theorem ActionOf.writes_iff (h : ActionOf replay blocked repeats route action) :
    action.writes ↔ replay = none ∧ blocked = false ∧ ¬ repeats ∧ route ≠ .noWrite := by
  cases h with
  | replayed hreplay => simp [ImportCandidateAction.writes, hreplay]
  | stopped hreplay hblocked => simp [ImportCandidateAction.writes, hblocked]
  | repeated hreplay hblocked hrepeats => simp [ImportCandidateAction.writes, hrepeats]
  | written hreplay hblocked hrepeats hroute haction =>
    simp [haction, hreplay, hblocked, hrepeats, hroute]
  | dropped hreplay hblocked hrepeats hroute haction =>
    rcases haction with rfl | rfl <;> simp [ImportCandidateAction.writes, hroute]

theorem ActionOf.replaysWrite_iff (h : ActionOf replay blocked repeats route action) :
    action.replaysWrite ↔ ∃ outcome, replay = some outcome ∧ outcome.outcome = .created := by
  cases h with
  | @replayed outcome hreplay =>
    cases houtcome : outcome.outcome <;>
      simp [ImportCandidateAction.replaysWrite, houtcome, hreplay]
  | stopped hreplay hblocked => simp [ImportCandidateAction.replaysWrite, hreplay]
  | repeated hreplay hblocked hrepeats => simp [ImportCandidateAction.replaysWrite, hreplay]
  | written hreplay hblocked hrepeats hroute haction =>
    cases action <;> simp_all [ImportCandidateAction.replaysWrite, ImportCandidateAction.writes]
  | dropped hreplay hblocked hrepeats hroute haction =>
    rcases haction with rfl | rfl <;> simp [ImportCandidateAction.replaysWrite, hreplay]

end ActionOf

/-! ### Sorting drops no duplicate -/

theorem sortDuplicates_eq_nil {duplicates : List ImportDuplicate} :
    sortDuplicates duplicates = [] ↔ duplicates = [] := by
  rw [sortDuplicates, List.destutter_eq_nil, ← List.length_eq_zero_iff, List.length_insertionSort,
    List.length_eq_zero_iff]

theorem byHash_eq_nil {existing : List ExistingDuplicate} {hash : String} :
    byHash existing hash = [] ↔ ∀ e ∈ existing, e.hash ≠ hash := by
  rw [byHash, sortDuplicates_eq_nil, List.map_eq_nil_iff, List.filter_eq_nil_iff]
  simp

/-! ### One turn of the loop -/

section Loop

variable [Digests] [ImportEnvironment] {context : PlanContext}

/-- The body of the candidate is in the inventory, or a listed candidate has it. -/
def Repeats (context : PlanContext) (prior : SortedMap String Nat) (c : ImportCandidate) : Prop :=
  (∃ e ∈ context.existing, e.hash = c.contentHash) ∨ (prior.get? c.contentHash).isSome

omit [Digests] [ImportEnvironment] in
theorem duplicates_ne_nil_iff {prior : SortedMap String Nat} {c : ImportCandidate}
    (hreplay : context.originReplays.get? c.originKey = none)
    (hblocked : context.blockedRepo c = false) :
    context.duplicates prior c ≠ [] ↔ Repeats context prior c := by
  rw [PlanContext.duplicates, hreplay, hblocked, if_neg (by simp), Ne, sortDuplicates_eq_nil,
    List.append_eq_nil_iff, byHash_eq_nil, Repeats]
  cases prior.get? c.contentHash with
  | none => simp
  | some index => simp

/-- The action of a candidate, and one more candidate on the counters. -/
theorem action_spec {state : PlanState} {c : ImportCandidate} {action : ImportCandidateAction}
    {summary : ImportPlanSummary} {usedIds : List String}
    (h : context.action state (context.duplicates state.prior c) c =
      .ok (action, summary, usedIds)) :
    ActionOf (context.originReplays.get? c.originKey) (context.blockedRepo c)
        (Repeats context state.prior c) c.policy.writeRoute action ∧
      summary.total = state.summary.total ∧ summary.decided = state.summary.decided + 1 := by
  rw [PlanContext.action] at h
  split at h
  next outcome hreplay =>
    obtain ⟨rfl, rfl, -⟩ : _ ∧ _ ∧ _ := by simpa using h
    exact ⟨.replayed hreplay, rfl, by simp only [ImportPlanSummary.decided]; omega⟩
  next hreplay =>
  split at h
  next hblocked =>
    obtain ⟨rfl, rfl, -⟩ : _ ∧ _ ∧ _ := by simpa using h
    exact ⟨.stopped hreplay hblocked, rfl, by simp only [ImportPlanSummary.decided]; omega⟩
  next hblocked =>
  rw [Bool.not_eq_true] at hblocked
  have hrepeats : context.duplicates state.prior c ≠ [] ↔ Repeats context state.prior c :=
    duplicates_ne_nil_iff hreplay hblocked
  split at h
  next hdup =>
    obtain ⟨rfl, rfl, -⟩ : _ ∧ _ ∧ _ := by simpa using h
    exact ⟨.repeated hreplay hblocked (hrepeats.1 hdup), rfl,
      by simp only [ImportPlanSummary.decided]; omega⟩
  next hdup =>
  have hnew : ¬ Repeats context state.prior c := fun hr => hdup (hrepeats.2 hr)
  split at h
  next hroute =>
    obtain ⟨⟨id, ids⟩, -, h⟩ := bind_eq_ok.1 h
    obtain ⟨rfl, rfl, -⟩ : _ ∧ _ ∧ _ := by simpa using h
    exact ⟨.written hreplay hblocked hnew (by simp [hroute]) rfl, rfl,
      by simp only [ImportPlanSummary.decided]; omega⟩
  next hroute =>
    obtain ⟨rfl, rfl, -⟩ : _ ∧ _ ∧ _ := by simpa using h
    exact ⟨.written hreplay hblocked hnew (by simp [hroute]) rfl, rfl,
      by simp only [ImportPlanSummary.decided]; omega⟩
  next hroute =>
    obtain ⟨rfl, rfl, -⟩ : _ ∧ _ ∧ _ := by simpa using h
    exact ⟨.written hreplay hblocked hnew (by simp [hroute]) rfl, rfl,
      by simp only [ImportPlanSummary.decided]; omega⟩
  next hroute =>
    split at h
    next =>
      obtain ⟨rfl, rfl, -⟩ : _ ∧ _ ∧ _ := by simpa using h
      exact ⟨.dropped hreplay hblocked hnew hroute (.inl rfl), rfl,
        by simp only [ImportPlanSummary.decided]; omega⟩
    next =>
      obtain ⟨rfl, rfl, -⟩ : _ ∧ _ ∧ _ := by simpa using h
      exact ⟨.dropped hreplay hblocked hnew hroute (.inr rfl), rfl,
        by simp only [ImportPlanSummary.decided]; omega⟩

/-- The listed candidates: those that are not blocked repository candidates. -/
def Listed (context : PlanContext) (cs : List ImportCandidate) (hash : String) : Prop :=
  ∃ d ∈ cs, context.blockedRepo d = false ∧ d.contentHash = hash

omit [Digests] [ImportEnvironment] in
theorem isSome_orInsert {prior : SortedMap String Nat} {hash key : String} {index : Nat} :
    ((orInsert prior hash index).get? key).isSome ↔ hash = key ∨ (prior.get? key).isSome := by
  rw [orInsert]
  split
  next hsome =>
    constructor
    · exact .inr
    · rintro (rfl | h)
      · exact hsome
      · exact h
  next =>
    rw [SortedMap.get?_insert]
    by_cases hkey : hash = key <;> simp [hkey]

/-- What holds after the candidates `cs`. -/
structure Planned (context : PlanContext) (cs : List ImportCandidate) (state : PlanState) : Prop where
  length : state.candidates.length = cs.length
  decided : state.summary.decided = cs.length
  listed : ∀ hash, (state.prior.get? hash).isSome ↔ Listed context cs hash
  action : ∀ i c, cs[i]? = some c → ∃ duplicates action,
    state.candidates[i]? = some (c.planned duplicates action) ∧
    ActionOf (context.originReplays.get? c.originKey) (context.blockedRepo c)
      ((∃ e ∈ context.existing, e.hash = c.contentHash) ∨
        Listed context (cs.take i) c.contentHash) c.policy.writeRoute action

omit [Digests] [ImportEnvironment] in
theorem planned_start {existing : List ExistingDuplicate} {reserved : List String} (total : Nat) :
    Planned context [] (.start existing reserved total) :=
  ⟨rfl, rfl, fun hash => by simp [Listed, PlanState.start], fun i c hc => by simp at hc⟩

/-- **One turn keeps it**, with one more candidate. -/
theorem planned_step {cs : List ImportCandidate} {c : ImportCandidate} {state state' : PlanState}
    (h : Planned context cs state) (hstep : context.step state c = .ok state') :
    Planned context (cs ++ [c]) state' ∧ state'.summary.total = state.summary.total := by
  obtain ⟨⟨action, summary, usedIds⟩, haction, hstate⟩ := bind_eq_ok.1 hstep
  obtain rfl := pure_eq_ok.1 hstate
  obtain ⟨hof, htotal, hdecided⟩ := action_spec haction
  refine ⟨⟨by simp [h.length], ?_, fun hash => ?_, fun i d hd => ?_⟩, htotal⟩
  · show summary.decided = _
    rw [hdecided, h.decided]
    simp
  · have happend : Listed context (cs ++ [c]) hash ↔
        Listed context cs hash ∨ (context.blockedRepo c = false ∧ c.contentHash = hash) := by
      simp [Listed, or_and_right, exists_or]
    show ((if context.blockedRepo c then state.prior
      else orInsert state.prior c.contentHash c.index).get? hash).isSome ↔ _
    rw [happend, ← h.listed hash]
    cases hblocked : context.blockedRepo c with
    | true => simp
    | false => simp [isSome_orInsert, or_comm]
  · rcases Nat.lt_or_ge i cs.length with hi | hi
    · rw [List.getElem?_append_left hi] at hd
      obtain ⟨duplicates, action', hget, hof'⟩ := h.action i d hd
      refine ⟨duplicates, action', ?_, ?_⟩
      · show (state.candidates ++ _)[i]? = _
        rw [List.getElem?_append_left (by rw [h.length]; exact hi), hget]
      · rwa [List.take_append_of_le_length (Nat.le_of_lt hi)]
    · obtain rfl : i = cs.length := by
        have hlt := (List.getElem?_eq_some_iff.1 hd).1
        simp only [List.length_append, List.length_cons, List.length_nil] at hlt
        omega
      obtain rfl : c = d := by simpa using hd
      refine ⟨context.duplicates state.prior c, action, ?_, ?_⟩
      · show (state.candidates ++ _)[cs.length]? = _
        rw [← h.length, List.getElem?_concat_length]
      · rw [List.take_left']
        rw [Repeats, h.listed] at hof
        exact hof
        rfl

/-- **The whole loop keeps it.** -/
theorem planned_of_runAll {cs : List ImportCandidate} {start state : PlanState}
    (hstart : Planned context [] start) (h : runAll context.step start cs = .ok state) :
    Planned context cs state ∧ state.summary.total = start.summary.total := by
  induction cs using List.reverseRecOn generalizing state with
  | nil =>
    obtain rfl : start = state := by simpa using h
    exact ⟨hstart, rfl⟩
  | append_singleton cs c ih =>
    obtain ⟨middle, hmiddle, hlast⟩ := runAll_append.1 h
    obtain ⟨state', hstep, hend⟩ := runAll_cons.1 hlast
    obtain rfl : state' = state := by simpa using hend
    obtain ⟨hplanned, htotal⟩ := ih hmiddle
    obtain ⟨hplanned', htotal'⟩ := planned_step hplanned hstep
    exact ⟨hplanned', htotal'.trans htotal⟩

end Loop

/-! ### Documents -/

section Documents

variable [Digests]

/-- What later steps use of a normalized candidate. -/
theorem normalizeCandidate_fields {originKey : String} {raw : ImportCandidateInput} {index : Nat}
    {c : ImportCandidate} (h : normalizeCandidate originKey raw index = .ok c) :
    c.originKey = s!"{originKey}:{index}" ∧ c.classification.destination = raw.destination ∧
      c.policy = raw.destination.policy ∧ c.sensitivity = raw.sensitivity ∧
      c.contentHash = contentHash raw.body := by
  obtain ⟨-, h⟩ := check_bind_eq_ok.1 h
  obtain ⟨-, h⟩ := check_bind_eq_ok.1 h
  obtain ⟨-, h⟩ := check_bind_eq_ok.1 h
  obtain ⟨-, h⟩ := check_bind_eq_ok.1 h
  obtain ⟨scope, -, h⟩ := bind_eq_ok.1 h
  obtain ⟨memoryType, -, h⟩ := bind_eq_ok.1 h
  obtain rfl := pure_eq_ok.1 h
  exact ⟨rfl, rfl, rfl, rfl, rfl⟩

/-- The candidates of a document, normalized one by one. -/
theorem normalizeDocument_get {doc : ImportDocument} {cs : List ImportCandidate}
    (h : normalizeDocument doc = .ok cs) :
    cs.length = doc.candidates.length ∧ ∀ i raw, doc.candidates[i]? = some raw →
      ∃ c, cs[i]? = some c ∧ normalizeCandidate doc.originKey raw i = .ok c := by
  obtain ⟨hlength, hget⟩ := List.forall₂_iff_get.1 (mapAll_eq_ok.1 h)
  rw [List.length_zipIdx] at hlength
  refine ⟨hlength.symm, fun i raw hraw => ?_⟩
  obtain ⟨hi, hraw⟩ := List.getElem?_eq_some_iff.1 hraw
  have hc := hget i (by rwa [List.length_zipIdx]) (by omega)
  refine ⟨cs[i], List.getElem?_eq_getElem (by omega), ?_⟩
  simpa [hraw] using hc

/-- A repository candidate that is not marked as safe for the repository. -/
def ImportCandidateInput.nonRepoSafe (raw : ImportCandidateInput) : Bool :=
  raw.destination = .repo && raw.sensitivity ≠ .repoSafe

/-- A candidate of this document stays blocked: it is bound for the repository, and some such
candidate is not repo-safe. -/
def ImportDocument.blocks (doc : ImportDocument) (raw : ImportCandidateInput) : Bool :=
  raw.destination = .repo && doc.candidates.any ImportCandidateInput.nonRepoSafe

theorem any_nonRepoSafe {doc : ImportDocument} {cs : List ImportCandidate}
    (h : normalizeDocument doc = .ok cs) :
    cs.any ImportCandidate.nonRepoSafe = doc.candidates.any ImportCandidateInput.nonRepoSafe := by
  have hmap : cs.map ImportCandidate.nonRepoSafe =
      doc.candidates.zipIdx.map fun raw => raw.1.nonRepoSafe := by
    refine map_of_mapAll (fun raw c hc => ?_) h
    obtain ⟨-, hdestination, -, hsensitivity, -⟩ := normalizeCandidate_fields hc
    rw [ImportCandidate.nonRepoSafe, hdestination, hsensitivity, ImportCandidateInput.nonRepoSafe]
  have hraw : doc.candidates.zipIdx.map (fun raw => raw.1.nonRepoSafe) =
      doc.candidates.map ImportCandidateInput.nonRepoSafe := by
    calc doc.candidates.zipIdx.map (fun raw => raw.1.nonRepoSafe)
        = (doc.candidates.zipIdx.map Prod.fst).map ImportCandidateInput.nonRepoSafe := by
          rw [List.map_map]
          rfl
      _ = doc.candidates.map ImportCandidateInput.nonRepoSafe := by rw [List.zipIdx_map_fst]
  simpa [List.any_map] using congrArg (List.any · id) (hmap.trans hraw)

/-- The candidate at `i` is listed under the hash. -/
def ListedAt (doc : ImportDocument) (hash : String) (i : Nat) : Prop :=
  ∃ raw, doc.candidates[i]? = some raw ∧ doc.blocks raw = false ∧ contentHash raw.body = hash

omit [Digests] in
theorem listed_take_iff {context : PlanContext} {cs : List ImportCandidate} {hash : String}
    {i : Nat} : Listed context (cs.take i) hash ↔ ∃ j < i, ∃ c, cs[j]? = some c ∧
      context.blockedRepo c = false ∧ c.contentHash = hash := by
  constructor
  · rintro ⟨c, hc, hlisted⟩
    obtain ⟨j, hj, rfl⟩ := List.mem_take_iff_getElem.1 hc
    exact ⟨j, by omega, _, List.getElem?_eq_getElem (by omega), hlisted⟩
  · rintro ⟨j, hj, c, hc, hlisted⟩
    obtain ⟨hlt, rfl⟩ := List.getElem?_eq_some_iff.1 hc
    exact ⟨_, List.mem_take_iff_getElem.2 ⟨j, by omega, rfl⟩, hlisted⟩

/-- **What a plan makes of each candidate**, in terms of the document alone. -/
theorem plan_actions [ImportEnvironment] {actor : String} {doc : ImportDocument}
    {existing : List ExistingDuplicate} {reserved : List String}
    {replays : SortedMap String OriginOutcome} {plan : ImportPlan}
    (h : buildPlan actor doc existing reserved replays = .ok plan) :
    plan.candidates.length = doc.candidates.length ∧
      plan.summary.total = doc.candidates.length ∧
      plan.summary.decided = doc.candidates.length ∧
      ∀ i raw, doc.candidates[i]? = some raw → ∃ c, plan.candidates[i]? = some c ∧
        ActionOf (replays.get? s!"{doc.originKey}:{i}") (doc.blocks raw)
          ((∃ e ∈ existing, e.hash = contentHash raw.body) ∨
            ∃ j < i, ListedAt doc (contentHash raw.body) j)
          raw.destination.policy.writeRoute c.action := by
  obtain ⟨cs, state, hcs, hstate, rfl⟩ := buildPlan_eq_ok h
  obtain ⟨hlength, hget⟩ := normalizeDocument_get hcs
  obtain ⟨hplanned, htotal⟩ := planned_of_runAll (planned_start _) hstate
  have hblocks : ∀ {raw : ImportCandidateInput} {i : Nat} {c : ImportCandidate},
      normalizeCandidate doc.originKey raw i = .ok c →
      PlanContext.blockedRepo ⟨existing, replays, cs.any ImportCandidate.nonRepoSafe⟩ c =
        doc.blocks raw := fun hc => by
    rw [PlanContext.blockedRepo, (normalizeCandidate_fields hc).2.1, any_nonRepoSafe hcs,
      ImportDocument.blocks]
  refine ⟨hplanned.length.trans hlength, htotal.trans hlength, hplanned.decided.trans hlength,
    fun i raw hraw => ?_⟩
  obtain ⟨c, hc, hnorm⟩ := hget i raw hraw
  obtain ⟨duplicates, action, hplan, hof⟩ := hplanned.action i c hc
  obtain ⟨hkey, -, hpolicy, -, hhash⟩ := normalizeCandidate_fields hnorm
  have hlisted : Listed ⟨existing, replays, cs.any ImportCandidate.nonRepoSafe⟩ (cs.take i)
      (contentHash raw.body) ↔ ∃ j < i, ListedAt doc (contentHash raw.body) j := by
    rw [listed_take_iff]
    refine exists_congr fun j => and_congr_right fun hj => ?_
    constructor
    · rintro ⟨d, hd, hfree, hsame⟩
      have hlt := (List.getElem?_eq_some_iff.1 hd).1
      have hraw' : doc.candidates[j]? = some doc.candidates[j] :=
        List.getElem?_eq_getElem (by omega)
      obtain ⟨d', hd', hnorm'⟩ := hget j _ hraw'
      obtain rfl : d = d' := Option.some.inj (hd.symm.trans hd')
      rw [hblocks hnorm'] at hfree
      exact ⟨_, hraw', hfree, (normalizeCandidate_fields hnorm').2.2.2.2.symm.trans hsame⟩
    · rintro ⟨raw', hraw', hfree, hsame⟩
      obtain ⟨d, hd, hnorm'⟩ := hget j _ hraw'
      refine ⟨d, hd, (hblocks hnorm').trans hfree, ?_⟩
      rw [(normalizeCandidate_fields hnorm').2.2.2.2, hsame]
  rw [hkey, hblocks hnorm, hhash, hpolicy, hlisted] at hof
  exact ⟨_, hplan, hof⟩

/-! ### What is kept -/

/-- The trimmed body of the candidate at `i`. -/
def ImportDocument.bodyAt (doc : ImportDocument) (i : Nat) : Option String :=
  doc.candidates[i]?.map fun raw => Text.trim raw.body

/-- A duplicate has the body of an inventory entry, of an earlier candidate that is written, or of
one that replays its write; no two written candidates share a body; and the counters count every
candidate once. -/
structure KeepsContent (doc : ImportDocument) (inventory : List InventoryEntry)
    (plan : ImportPlan) : Prop where
  kept : ∀ i c, plan.candidates[i]? = some c → c.action.isDuplicate →
    (∃ e ∈ inventory, doc.bodyAt i = some (Text.trim e.body)) ∨
    ∃ j < i, ∃ d, plan.candidates[j]? = some d ∧ doc.bodyAt j = doc.bodyAt i ∧
      (d.action.writes ∨ d.action.replaysWrite)
  distinct : ∀ i j c d, i < j → plan.candidates[i]? = some c → plan.candidates[j]? = some d →
    c.action.writes → d.action.writes → doc.bodyAt i ≠ doc.bodyAt j
  counted : plan.candidates.length = doc.candidates.length ∧
    plan.summary.total = doc.candidates.length ∧ plan.summary.decided = doc.candidates.length

/-- The candidate at `i` is free to be written and has the body. -/
def FreeAt (doc : ImportDocument) (body : String) (i : Nat) : Prop :=
  ∃ raw, doc.candidates[i]? = some raw ∧ doc.blocks raw = false ∧ Text.trim raw.body = body

/-- Whenever a free candidate repeats the body of an earlier free one, and no inventory entry has
it, the first of them is bound for a plane and not replayed, or an earlier candidate with the body
replays a write. -/
def OriginalWrites (doc : ImportDocument) (inventory : List InventoryEntry)
    (replays : SortedMap String OriginOutcome) : Prop :=
  ∀ i raw, doc.candidates[i]? = some raw → doc.blocks raw = false →
    replays.get? s!"{doc.originKey}:{i}" = none →
    (∀ e ∈ inventory, Text.trim e.body ≠ Text.trim raw.body) →
    (∃ j < i, FreeAt doc (Text.trim raw.body) j) →
    ∃ j < i, ∃ raw', doc.candidates[j]? = some raw' ∧ Text.trim raw'.body = Text.trim raw.body ∧
      ((∃ outcome, replays.get? s!"{doc.originKey}:{j}" = some outcome ∧
          outcome.outcome = .created) ∨
        (replays.get? s!"{doc.originKey}:{j}" = none ∧ doc.blocks raw' = false ∧
          raw'.destination.writes ∧ ∀ k < j, ¬ FreeAt doc (Text.trim raw.body) k))

/-- The candidate's body is in the inventory, or an earlier free candidate has it. -/
def RepeatsBody (doc : ImportDocument) (inventory : List InventoryEntry) (body : String) (i : Nat) :
    Prop :=
  (∃ e ∈ inventory, Text.trim e.body = body) ∨ ∃ j < i, FreeAt doc body j

theorem contentHash_eq_iff (hhash : Function.Injective Digests.blake3) {a b : String} :
    contentHash a = contentHash b ↔ Text.trim a = Text.trim b := hhash.eq_iff

/-- What a plan makes of each candidate, in terms of bodies. -/
theorem plan_actions_by_body [ImportEnvironment] {actor : String} {doc : ImportDocument}
    {inventory : List InventoryEntry} {reserved : List String}
    {replays : SortedMap String OriginOutcome} {plan : ImportPlan}
    (hhash : Function.Injective Digests.blake3)
    (h : buildPlan actor doc (inventory.map InventoryEntry.toDuplicate) reserved replays =
      .ok plan) {i : Nat} {c : ImportPlanCandidate} (hc : plan.candidates[i]? = some c) :
    ∃ raw, doc.candidates[i]? = some raw ∧
      ActionOf (replays.get? s!"{doc.originKey}:{i}") (doc.blocks raw)
        (RepeatsBody doc inventory (Text.trim raw.body) i) raw.destination.policy.writeRoute
        c.action := by
  obtain ⟨hlength, -, -, hactions⟩ := plan_actions h
  have hi := (List.getElem?_eq_some_iff.1 hc).1
  have hraw : doc.candidates[i]? = some doc.candidates[i] := List.getElem?_eq_getElem (by omega)
  obtain ⟨c', hc', hof⟩ := hactions i _ hraw
  obtain rfl : c = c' := Option.some.inj (hc.symm.trans hc')
  refine ⟨_, hraw, ?_⟩
  have hrepeats : (∃ e ∈ inventory.map InventoryEntry.toDuplicate,
        e.hash = contentHash doc.candidates[i].body) ∨
      (∃ j < i, ListedAt doc (contentHash doc.candidates[i].body) j) ↔
      RepeatsBody doc inventory (Text.trim doc.candidates[i].body) i := by
    refine or_congr ?_ (exists_congr fun j => and_congr_right fun _ => exists_congr fun raw' =>
      and_congr_right fun _ => and_congr_right fun _ => contentHash_eq_iff hhash)
    simp [InventoryEntry.toDuplicate, contentHash_eq_iff hhash]
  rwa [hrepeats] at hof

/-- **When an import drops nothing that is not kept**: exactly when every repeated body is written
by its original. -/
theorem duplicates_kept_iff [ImportEnvironment] (actor : String) (doc : ImportDocument)
    (inventory : List InventoryEntry) (reserved : List String)
    (replays : SortedMap String OriginOutcome) (plan : ImportPlan)
    (hhash : Function.Injective Digests.blake3)
    (hplan : buildPlan actor doc (inventory.map InventoryEntry.toDuplicate) reserved replays =
      .ok plan) :
    KeepsContent doc inventory plan ↔ OriginalWrites doc inventory replays := by
  obtain ⟨hlength, htotal, hdecided, -⟩ := plan_actions hplan
  have hget : ∀ i raw, doc.candidates[i]? = some raw → ∃ c, plan.candidates[i]? = some c ∧
      ActionOf (replays.get? s!"{doc.originKey}:{i}") (doc.blocks raw)
        (RepeatsBody doc inventory (Text.trim raw.body) i) raw.destination.policy.writeRoute
        c.action := fun i raw hraw => by
    have hi := (List.getElem?_eq_some_iff.1 hraw).1
    have hc : plan.candidates[i]? = some plan.candidates[i] := List.getElem?_eq_getElem (by omega)
    obtain ⟨raw', hraw', hof⟩ := plan_actions_by_body hhash hplan hc
    obtain rfl : raw = raw' := Option.some.inj (hraw.symm.trans hraw')
    exact ⟨_, hc, hof⟩
  constructor
  · intro hkeeps i raw hraw hfree hreplay hinventory hearlier
    obtain ⟨c, hc, hof⟩ := hget i raw hraw
    have hdup := hof.isDuplicate_iff.2 ⟨hreplay, hfree, .inr hearlier⟩
    have hbody : doc.bodyAt i = some (Text.trim raw.body) := by rw [ImportDocument.bodyAt, hraw]; rfl
    rcases hkeeps.kept i c hc hdup with ⟨e, he, hsame⟩ | ⟨j, hj, d, hd, hsame, hwritten⟩
    · exact absurd (Option.some.inj (hsame.symm.trans hbody)) (hinventory e he)
    · obtain ⟨raw', hraw', hof'⟩ := plan_actions_by_body hhash hplan hd
      rw [hbody, ImportDocument.bodyAt, hraw'] at hsame
      have hsame : Text.trim raw'.body = Text.trim raw.body := Option.some.inj hsame
      refine ⟨j, hj, raw', hraw', hsame, ?_⟩
      rcases hwritten with hwrites | hreplays
      · obtain ⟨hreplay', hfree', hnew, hroute⟩ := hof'.writes_iff.1 hwrites
        refine .inr ⟨hreplay', hfree', by simpa [MemoryDestination.writes] using hroute, ?_⟩
        exact fun k hk hfreeAt => hnew (.inr ⟨k, hk, hsame ▸ hfreeAt⟩)
      · exact .inl (hof'.replaysWrite_iff.1 hreplays)
  · intro horiginal
    refine ⟨fun i c hc hdup => ?_, fun i j c d hij hc hd hwc hwd hsame => ?_,
      hlength, htotal, hdecided⟩
    · obtain ⟨raw, hraw, hof⟩ := plan_actions_by_body hhash hplan hc
      obtain ⟨hreplay, hfree, hrepeats⟩ := hof.isDuplicate_iff.1 hdup
      have hbody : doc.bodyAt i = some (Text.trim raw.body) := by
        rw [ImportDocument.bodyAt, hraw]; rfl
      by_cases hinventory : ∃ e ∈ inventory, Text.trim e.body = Text.trim raw.body
      · obtain ⟨e, he, hsame⟩ := hinventory
        exact .inl ⟨e, he, by rw [hbody, hsame]⟩
      · have hearlier := hrepeats.resolve_left hinventory
        obtain ⟨j, hj, raw', hraw', hsame, hkept⟩ := horiginal i raw hraw hfree hreplay
          (fun e he h => hinventory ⟨e, he, h⟩) hearlier
        obtain ⟨d, hd, hof'⟩ := hget j raw' hraw'
        refine .inr ⟨j, hj, d, hd, by rw [hbody, ImportDocument.bodyAt, hraw', ← hsame]; rfl, ?_⟩
        rcases hkept with hreplays | ⟨hreplay', hfree', hwrites, hfirst⟩
        · exact .inr (hof'.replaysWrite_iff.2 hreplays)
        · refine .inl (hof'.writes_iff.2 ⟨hreplay', hfree', ?_,
            by simpa [MemoryDestination.writes] using hwrites⟩)
          rw [hsame]
          rintro (hin | ⟨k, hk, hfreeAt⟩)
          · exact hinventory hin
          · exact hfirst k hk hfreeAt
    · -- the earlier one is listed under its hash, so the later one repeats it
      obtain ⟨raw, hraw, hof⟩ := plan_actions_by_body hhash hplan hc
      obtain ⟨raw', hraw', hof'⟩ := plan_actions_by_body hhash hplan hd
      obtain ⟨-, hfree, -, -⟩ := hof.writes_iff.1 hwc
      obtain ⟨-, -, hnew, -⟩ := hof'.writes_iff.1 hwd
      rw [ImportDocument.bodyAt, ImportDocument.bodyAt, hraw, hraw'] at hsame
      exact hnew (.inr ⟨i, hij, raw, hraw, hfree, Option.some.inj hsame⟩)

end Documents

/-! ### Runs -/

/-- The digests of the bodies in the runs below; other texts are told apart by a mark. -/
def sampleDigest (text : String) : String :=
  if text = "Use tabs." then "5cd3f86ef5b87196dadc9ea30ae69feb85c5e71cfa5c46056d236bc009e2905e"
  else if text = "Use spaces." then
    "46fe672a584dce1229c74eab80f7a8d0a23d290c8192acc5b1ecf204b68869dd"
  else "other:" ++ text

theorem sampleDigest_injective : Function.Injective sampleDigest := by
  have hmark : ∀ text digest : String, digest.toList.head? ≠ some 'o' →
      digest ≠ "other:" ++ text := fun text digest hhead h => by
    refine hhead ?_
    rw [h, String.toList_append]
    rfl
  have htabs := fun text => hmark text
    "5cd3f86ef5b87196dadc9ea30ae69feb85c5e71cfa5c46056d236bc009e2905e" (by decide +kernel)
  have hspaces := fun text => hmark text
    "46fe672a584dce1229c74eab80f7a8d0a23d290c8192acc5b1ecf204b68869dd" (by decide +kernel)
  intro a b h
  rw [sampleDigest, sampleDigest] at h
  split_ifs at h with ha hb hb' ha' hb hb' hb hb'
  · rw [ha, hb]
  · exact absurd h (by decide +kernel)
  · exact absurd h (htabs b)
  · exact absurd h (by decide +kernel)
  · rw [ha', hb']
  · exact absurd h (hspaces b)
  · exact absurd h.symm (htabs a)
  · exact absurd h.symm (hspaces a)
  · rw [← String.toList_inj] at h ⊢
    rw [String.toList_append, String.toList_append] at h
    exact List.append_cancel_left h

@[reducible] def sampleDigests : Digests where
  requestId identity := identity.operationId
  blake3 := sampleDigest

/-- No packet is on disk. -/
@[reducible] def emptyEnvironment : ImportEnvironment where
  packetExists _ := .ok false
  planJson plan := plan.schema ++ plan.originKey

def sampleCandidate (destination : MemoryDestination) (body : String) : ImportCandidateInput where
  destination := destination
  reason := "Style"
  memoryType := some .fact
  lane := none
  title := "Indentation"
  body := body
  sensitivity := .localOnly
  contentClass := .unknown
  scope := none
  tags := []

def sampleDocument (candidates : List ImportCandidateInput) : ImportDocument where
  schema := "memzoi/import"
  originKey := "notes"
  sources := [⟨none, none, some "issue"⟩]
  candidates := candidates

/-- The plan of a document on an empty inventory. -/
def samplePlan (candidates : List ImportCandidateInput) : Fallible ImportPlan :=
  @buildPlan sampleDigests emptyEnvironment "cli" (sampleDocument candidates)
    (([] : List InventoryEntry).map (@InventoryEntry.toDuplicate sampleDigests)) [] .empty

/-- A copy of a written candidate. -/
theorem copy_in_one_import : ∃ plan,
    samplePlan [sampleCandidate .«local» "Use tabs.", sampleCandidate .session "Use tabs. "] =
      .ok plan ∧
    (KeepsContent
        (sampleDocument [sampleCandidate .«local» "Use tabs.", sampleCandidate .session "Use tabs. "])
        [] plan ↔
      OriginalWrites
        (sampleDocument [sampleCandidate .«local» "Use tabs.", sampleCandidate .session "Use tabs. "])
        [] .empty) := by
  have hplanned : (samplePlan [sampleCandidate .«local» "Use tabs.",
      sampleCandidate .session "Use tabs. "]).toOption.any (fun _ => true) = true := by
    decide +kernel
  obtain ⟨plan, hplan, -⟩ := ok_of_any hplanned
  exact ⟨plan, hplan, @duplicates_kept_iff sampleDigests emptyEnvironment _ _ _ _ _ plan
    sampleDigest_injective hplan⟩

/-- The copy of a discarded candidate is dropped, and nothing with its body is kept. -/
theorem copy_of_discarded_dropped : ∃ plan,
    samplePlan [sampleCandidate .discard "Use tabs.", sampleCandidate .«local» "Use tabs."] =
      .ok plan ∧
    ¬ KeepsContent
      (sampleDocument [sampleCandidate .discard "Use tabs.", sampleCandidate .«local» "Use tabs."])
      [] plan := by
  have hplanned : (samplePlan [sampleCandidate .discard "Use tabs.",
      sampleCandidate .«local» "Use tabs."]).toOption.any (fun plan =>
        plan.candidates.map (fun c => (c.action.isDuplicate, c.action.writes,
          c.action.replaysWrite)) = [(false, false, false), (true, false, false)]) = true := by
    decide +kernel
  obtain ⟨plan, hplan, hactions⟩ := ok_of_any hplanned
  refine ⟨plan, hplan, fun hkeeps => ?_⟩
  obtain ⟨first, second, hcandidates⟩ : ∃ first second, plan.candidates = [first, second] :=
    List.length_eq_two.1 (by simpa using congrArg List.length (of_decide_eq_true hactions))
  have hboth := of_decide_eq_true hactions
  simp only [hcandidates, List.map_cons, List.map_nil, List.cons.injEq, Prod.mk.injEq] at hboth
  obtain ⟨⟨-, hwrites, hreplays⟩, ⟨hdup, -⟩, -⟩ := hboth
  rcases hkeeps.kept 1 second (by rw [hcandidates]; rfl) hdup with ⟨e, he, -⟩ | ⟨j, hj, d, hd, -, h⟩
  · cases he
  · obtain rfl : j = 0 := by omega
    obtain rfl : first = d := by simpa [hcandidates] using hd
    rw [hwrites, hreplays] at h
    exact absurd h (by decide)

end Import
end Memzoi
