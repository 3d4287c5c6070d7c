/-
# Contradictions and automatic recall

A reconcile publishes the conflicts it found in the records that were current
at its instant. Recall trusts the projection until it ends, and a record that
is eligible later was eligible then, so every contradictory pair stays out of
recall, unless the planner left one of the two out because it was updated after
that instant (`no_contradiction_leak_iff`).
-/

import Memzoi.Maintenance.PlanAgreement
import Memzoi.Maintenance.ReconcileRules
import Memzoi.PrivateLifecycle.Inspection

namespace Memzoi
namespace Maintenance

open Fallible PrivateLifecycle
open Retention (CurrentAssertionDecision RetentionState formatTimestamp format_of_formatTimestamp
  parse_of_formatTimestamp parseTimestamp_format)

/-- The base policy makes the private record eligible for automatic recall at an instant. -/
def Eligible (db : Db) (text : String) (r : MemoryRecord) : Prop :=
  r ∈ recordsForPreservation db ∧ Recall.baseCurrentAssertion db r text = .ok true

/-- The two records form an edge of `private_contradiction_adjacency`. -/
def ContradictionEdge [Text.Unicode] (db : Db) (r s : MemoryRecord) : Prop :=
  privateContradictionCandidate r = true ∧ privateContradictionCandidate s = true ∧
    contradicts (candidateOf db r) (candidateOf db s) = true

/-- The record was last updated no later than the instant. -/
def UpdatedAtMost (r : MemoryRecord) (t : OffsetDateTime) : Prop :=
  ∀ f, parseTimestamp r.updatedAt "maintenance record updated_at" = .ok f → f ≤ t

/-! ### Edges that suppress -/

theorem anySuppresses_ne_false {db : Db} {id text : String} {edges : List PrivateConflictEdge}
    {e : PrivateConflictEdge} (he : e ∈ edges)
    (hsuppresses : Recall.edgeSuppresses db id text e = .ok true) :
    Recall.anySuppresses db id text edges ≠ .ok false := by
  induction edges with
  | nil => cases he
  | cons x edges ih =>
      intro h
      obtain ⟨b, hb, h⟩ := bind_eq_ok.1 h
      cases b with
      | true => cases h
      | false =>
          rcases List.mem_cons.1 he with rfl | he
          · rw [hsuppresses] at hb
            cases hb
          · exact ih he h

theorem anySuppresses_false {db : Db} {id text : String} {edges : List PrivateConflictEdge}
    (h : ∀ e ∈ edges, Recall.edgeSuppresses db id text e = .ok false) :
    Recall.anySuppresses db id text edges = .ok false := by
  induction edges with
  | nil => rfl
  | cons x edges ih =>
      refine bind_eq_ok.2 ⟨false, h x List.mem_cons_self, ?_⟩
      exact ih fun e he => h e (List.mem_cons_of_mem _ he)

section Run

variable [ProjectionDigests] [Text.Unicode] [MaintenanceDigests]

variable {fingerprint : String} {db db' : Db} {t₀ : OffsetDateTime} {plan : MaintenancePlan}
  {projectionId grantFingerprint : String} {request : MaintenancePlanRequest}
  {e : OffsetDateTime} {authority : MaintenanceAuthoritySnapshot} {selected : List String}
  {loaded : List PrivateLoadedRecord} {detected : List Detected} {notAfter : OffsetDateTime}

/-! ### The base policy before and after -/

/-- The event of a reconcile authorizes nothing. -/
theorem hasAuthority_reconciled
    (run : ReconcileRun fingerprint db db' t₀ plan projectionId grantFingerprint)
    (eventId : Option String) (recordId : String) (kinds : List String) :
    Recall.hasAuthority db'.toContents eventId recordId kinds =
      Recall.hasAuthority db.toContents eventId recordId kinds := by
  obtain ⟨event, hinsert, htype⟩ := run.events
  unfold Recall.hasAuthority
  cases eventId with
  | none => rfl
  | some id =>
      rw [Option.bind_some, Option.bind_some, Table.get?_insert? hinsert]
      by_cases hid : event.id = id
      · have hfresh := Table.insert?_fresh hinsert
        rw [hid] at hfresh
        have hother : decide (privateMaintenanceReconciledEvent =
            Recall.privateLifecycleAppliedEvent) = false := by decide
        rw [if_pos hid, hfresh]
        show (decide (event.eventType = Recall.privateLifecycleAppliedEvent) && _ && _) = false
        rw [htype, hother]
        rfl
      · rw [if_neg hid]

theorem base_reconciled
    (run : ReconcileRun fingerprint db db' t₀ plan projectionId grantFingerprint)
    (r : MemoryRecord) (text : String) :
    Recall.baseCurrentAssertion db' r text = Recall.baseCurrentAssertion db r text := by
  have hauthorized : ∀ id facts, Recall.lifecycleAuthorized db'.toContents id facts =
      Recall.lifecycleAuthorized db.toContents id facts := by
    intro id facts
    unfold Recall.lifecycleAuthorized
    rw [hasAuthority_reconciled run, hasAuthority_reconciled run, hasAuthority_reconciled run]
  unfold Recall.baseCurrentAssertion
  rw [run.lifecycle]
  simp only [hauthorized]

theorem recordsForPreservation_reconciled
    (run : ReconcileRun fingerprint db db' t₀ plan projectionId grantFingerprint) :
    recordsForPreservation db' = recordsForPreservation db := by
  unfold recordsForPreservation
  rw [run.records]

theorem candidateOf_reconciled
    (run : ReconcileRun fingerprint db db' t₀ plan projectionId grantFingerprint)
    (r : MemoryRecord) : candidateOf db' r = candidateOf db r := by
  unfold candidateOf privateApplicabilityPaths
  rw [run.paths]

theorem eligible_reconciled
    (run : ReconcileRun fingerprint db db' t₀ plan projectionId grantFingerprint) {text : String}
    {r : MemoryRecord} : Eligible db' text r ↔ Eligible db text r := by
  unfold Eligible
  rw [recordsForPreservation_reconciled run, base_reconciled run]

theorem edge_reconciled
    (run : ReconcileRun fingerprint db db' t₀ plan projectionId grantFingerprint)
    {r s : MemoryRecord} : ContradictionEdge db' r s ↔ ContradictionEdge db r s := by
  unfold ContradictionEdge
  rw [candidateOf_reconciled run, candidateOf_reconciled run]

/-! ### The conflicts of a plan -/

/-- The finding for a component of contradictions. -/
def componentFinding (loaded : List PrivateLoadedRecord) (component : List Nat) :
    MaintenanceFinding :=
  (contradictionDetected loaded "" true component).finding

omit [ProjectionDigests] in
/-- The ids of the findings of a plan are in order, each once. -/
theorem findings_sorted (run : PlanRun fingerprint db request t₀ plan e authority selected loaded
    detected notAfter) : (plan.findings.map (·.findingId)).Pairwise (· < ·) := by
  obtain ⟨_, hvalid⟩ := check_bind_eq_ok.1 run.valid
  obtain ⟨hvalid, _⟩ := check_bind_eq_ok.1 hvalid
  unfold PlanContents.validate at hvalid
  obtain ⟨_, hvalid⟩ := check_bind_eq_ok.1 hvalid
  obtain ⟨_, hvalid⟩ := check_bind_eq_ok.1 hvalid
  obtain ⟨_, hvalid⟩ := check_bind_eq_ok.1 hvalid
  obtain ⟨_, hvalid⟩ := check_bind_eq_ok.1 hvalid
  obtain ⟨_, hvalid⟩ := check_bind_eq_ok.1 hvalid
  obtain ⟨_, hvalid⟩ := check_bind_eq_ok.1 hvalid
  obtain ⟨_, hvalid⟩ := check_bind_eq_ok.1 hvalid
  obtain ⟨_, hvalid⟩ := check_bind_eq_ok.1 hvalid
  obtain ⟨hsorted, _⟩ := check_bind_eq_ok.1 hvalid
  exact ensure_eq_ok.1 hsorted

omit [ProjectionDigests] in
/-- A finding is found under its id. -/
theorem findingOf_of_mem (run : PlanRun fingerprint db request t₀ plan e authority selected loaded
    detected notAfter) (a : MaintenanceAction) {f : MaintenanceFinding} (hf : f ∈ plan.findings)
    (hid : f.findingId = a.findingId) : FindingOf plan.findings a f := by
  have hnodup : (plan.findings.map (·.findingId)).Nodup :=
    (findings_sorted run).imp fun h => ne_of_lt h
  cases hfind : plan.findings.find? (fun g => decide (g.findingId = a.findingId)) with
  | none => exact absurd hid (by simpa using List.find?_eq_none.1 hfind f hf)
  | some g =>
      have hg : g ∈ plan.findings := List.mem_of_find?_eq_some hfind
      have hgid : g.findingId = a.findingId := by simpa using List.find?_some hfind
      rw [List.inj_on_of_nodup_map hnodup hg hf (hgid.trans hid.symm)] at hfind
      exact hfind

omit [ProjectionDigests] in
/-- A derived action suppresses a component, and its finding is the component's. -/
theorem derived_cases (run : PlanRun fingerprint db request t₀ plan e authority selected loaded
    detected notAfter) {a : MaintenanceAction} (ha : a ∈ plan.actionGroups.privateDerivedState)
    {finding : MaintenanceFinding} (hfinding : FindingOf plan.findings a finding) :
    ∃ component ∈ contradictionComponents (neighbors (planCandidates loaded))
        (planCandidates loaded).length,
      finding.toFindingIdentity = (componentFinding loaded component).toFindingIdentity ∧
        a.preconditions.recordVersions = .ofList ((atPositions (contradictionRecords loaded)
          component).map LoadedRecord.versioned) := by
  have hderived : plan.actionGroups.privateDerivedState = (attachActions detected).2.1 :=
    congrArg (fun c => c.actionGroups.privateDerivedState) run.contents
  have hfindings : plan.findings = (attachActions detected).1 :=
    congrArg (fun c => c.findings) run.contents
  rw [hderived] at ha
  obtain ⟨det, hdet, hin⟩ := mem_derivedActions.1 ha
  have hmade := mem_findings.2 ⟨det, hdet, rfl⟩
  rw [← hfindings] at hmade
  obtain ⟨contradictions, stale, renewals, hcontradictions, hstale, hrenewals, rfl⟩ :=
    detectPrivate_eq_ok run.found
  rcases List.mem_append.1 hdet with hdet | hdet
  · rcases List.mem_append.1 hdet with hdet | hdet
    · rcases List.mem_append.1 hdet with hdet | hdet
      · rcases List.mem_append.1 hdet with hdet | hdet
        · obtain ⟨group, _, rfl⟩ := List.mem_map.1 hdet
          cases hin
        · obtain ⟨component, hcomponent, _, rfl⟩ := (mem_contradictions hcontradictions det).1 hdet
          have hshape : a = newPrivateAction .suppressUnresolvedConflict none none
              (comparisonDigest (loaded.map (·.snapshot))) (componentFinding loaded component)
              (atPositions (contradictionRecords loaded) component) := by
            unfold contradictionDetected at hin
            dsimp only at hin
            split at hin
            · exact List.mem_singleton.1 hin
            · cases hin
          have hid : (componentFinding loaded component).findingId = a.findingId := by
            rw [hshape]
            rfl
          have hfound := findingOf_of_mem run a hmade hid
          have hsame := Option.some.inj (hfound.symm.trans hfinding)
          refine ⟨component, hcomponent, by rw [← hsame]; rfl, ?_⟩
          rw [hshape]
          rfl
      · rw [(no_action_of_stale hstale hdet).1] at hin
        cases hin
    · rw [(no_action_of_expired hdet).1] at hin
      cases hin
  · obtain ⟨p, ev, boundary, boundaryText, _, rfl⟩ := pair_of_renewal hrenewals hdet
    cases hin

omit [ProjectionDigests] in
/-- Under a grant every selected component has its derived action. -/
theorem derived_of_component (run : PlanRun fingerprint db request t₀ plan e authority selected
    loaded detected notAfter) (hmode : authority.mode = .automaticPrivateMaintenance)
    {component : List Nat} (hcomponent : component ∈ contradictionComponents
      (neighbors (planCandidates loaded)) (planCandidates loaded).length)
    (htouches : touches selected (atPositions (contradictionRecords loaded) component) = true) :
    ∃ a ∈ plan.actionGroups.privateDerivedState, ∃ finding, FindingOf plan.findings a finding ∧
      finding.toFindingIdentity = (componentFinding loaded component).toFindingIdentity ∧
        a.preconditions.recordVersions = .ofList ((atPositions (contradictionRecords loaded)
          component).map LoadedRecord.versioned) := by
  have hderived : plan.actionGroups.privateDerivedState = (attachActions detected).2.1 :=
    congrArg (fun c => c.actionGroups.privateDerivedState) run.contents
  have hfindings : plan.findings = (attachActions detected).1 :=
    congrArg (fun c => c.findings) run.contents
  obtain ⟨contradictions, stale, renewals, hcontradictions, _, _, hdetected⟩ :=
    detectPrivate_eq_ok run.found
  have hdet := (mem_contradictions hcontradictions _).2 ⟨component, hcomponent, htouches, rfl⟩
  have hmem := List.mem_append_left renewals (List.mem_append_left (detectExpiry loaded selected)
    (List.mem_append_left stale (List.mem_append_right
      (detectPrivateExactDuplicates loaded selected (comparisonDigest (loaded.map (·.snapshot))))
      hdet)))
  rw [← hdetected] at hmem
  have hmade := mem_findings.2 ⟨_, hmem, rfl⟩
  rw [← hfindings] at hmade
  rw [decide_eq_true hmode] at hmem hmade
  exact ⟨_, hderived ▸ mem_derivedActions.2 ⟨_, hmem, List.mem_cons_self⟩, _,
    findingOf_of_mem run _ hmade rfl, rfl, rfl⟩

omit [ProjectionDigests] in
/-- The records a contradiction was looked for in: current ones that were not updated later. -/
theorem mem_contradictionRecords (run : PlanRun fingerprint db request t₀ plan e authority selected
    loaded detected notAfter) {l : PrivateLoadedRecord} :
    l ∈ contradictionRecords loaded ↔ ∃ r s d f, LoadsAs db e r s d f ∧ d.isCurrent = true ∧ f ≤ e ∧
      privateContradictionCandidate r = true ∧ l = loadedOf db selected e r s d f := by
  unfold contradictionRecords
  rw [List.mem_filter, Bool.and_eq_true]
  constructor
  · rintro ⟨hl, hcurrent, hcandidate⟩
    obtain ⟨r, s, d, f, hloads, rfl⟩ := (run.mem_loaded l).1 hl
    obtain ⟨hd, hf⟩ := Bool.and_eq_true_iff.1 hcurrent
    exact ⟨r, s, d, f, hloads, hd, of_decide_eq_true hf, hcandidate, rfl⟩
  · rintro ⟨r, s, d, f, hloads, hd, hf, hcandidate, rfl⟩
    exact ⟨(run.mem_loaded _).2 ⟨r, s, d, f, hloads, rfl⟩,
      Bool.and_eq_true_iff.2 ⟨hd, decide_eq_true hf⟩, hcandidate⟩

/-- A record that was updated after the instant is a member of no conflict. -/
theorem not_member_of_later (run : PlanRun fingerprint db request t₀ plan e authority selected
    loaded detected notAfter)
    (reconciled : ReconcileRun fingerprint db db' t₀ plan projectionId grantFingerprint)
    {r : MemoryRecord} (hr : r ∈ recordsForPreservation db) {f : OffsetDateTime}
    (hf : parseTimestamp r.updatedAt "maintenance record updated_at" = .ok f) (hlate : ¬ f ≤ e)
    (conflictId : String) : Recall.memberIsFresh db' conflictId r.id = false := by
  unfold Recall.memberIsFresh
  cases hm : db'.conflictMembers.get? (conflictId, r.id) with
  | none => rfl
  | some m =>
      obtain ⟨a, ha, finding, _, hconflict, id, hid, hmember⟩ :=
        (reconciled.members m).1 (Table.mem_of_get? hm)
      obtain ⟨component, _, hidentity, _⟩ := derived_cases run ha hconflict.finding_of
      have hkey : m.recordId = r.id := congrArg Prod.snd (Table.key_of_get? hm)
      have hrecords : finding.recordIds = SortedMap.sortedKeys
          ((atPositions (contradictionRecords loaded) component).map LoadedRecord.id) :=
        congrArg FindingIdentity.recordIds hidentity
      rw [hrecords, SortedMap.mem_sortedKeys, List.mem_map] at hid
      obtain ⟨l, hl, hlid⟩ := hid
      obtain ⟨i, _, hget⟩ := List.mem_filterMap.1 hl
      obtain ⟨r', s, d, f', hloads, _, hle, _, rfl⟩ :=
        (mem_contradictionRecords run).1 (List.mem_of_getElem? hget)
      obtain rfl : r' = r := record_unique hloads.mem hr (by
        rw [← hkey, hmember.2.1, ← hlid]
        rfl)
      cases hf.symm.trans hloads.freshness
      exact absurd hle hlate

/-! ### The instant of a reconcile -/

omit [Text.Unicode] [MaintenanceDigests] [ProjectionDigests] in
/-- A later eligible record was eligible before. -/
theorem eligible_earlier {t : OffsetDateTime} {text text₀ : String} (hle : t₀ ≤ t)
    (htext : formatTimestamp t = .ok text) (htext₀ : formatTimestamp t₀ = .ok text₀)
    {r : MemoryRecord} (h : Eligible db text r) : Eligible db text₀ r := by
  obtain ⟨hr, hbase⟩ := h
  have hprivate := (mem_recordsForPreservation.1 hr).2
  obtain ⟨hactive, s, hs, hauthorized, hcurrent⟩ :=
    (Recall.baseCurrentAssertion_private hprivate).1 hbase
  obtain ⟨d, hd, hcurrent⟩ := (privateAssertionIsCurrent_of_active hactive htext).1 hcurrent
  obtain ⟨d₀, hd₀, hcurrent₀⟩ := Retention.current_earlier hle hd hcurrent
  refine ⟨hr, (Recall.baseCurrentAssertion_private hprivate).2
    ⟨hactive, s, hs, hauthorized, ?_⟩⟩
  exact (privateAssertionIsCurrent_of_active hactive htext₀).2 ⟨d₀, hd₀, hcurrent₀⟩

omit [ProjectionDigests] in
/-- A reconcile plans at its own instant. -/
theorem instant_of_reconcile {nowText : String} (hnow : formatTimestamp t₀ = .ok nowText)
    (run : PlanRun fingerprint db ⟨requestSchema, some nowText, []⟩ t₀ plan e authority selected
      loaded detected notAfter) : e = ⟨t₀.utc, 0⟩ := by
  have hparse : Rfc3339.parse (Text.trim nowText) = some e := require_eq_ok.1 run.instant
  rw [Rfc3339.trim_format (format_of_formatTimestamp hnow), parse_of_formatTimestamp hnow] at hparse
  exact (Option.some.inj hparse).symm

omit [ProjectionDigests] in
/-- It selects every private record. -/
theorem selected_of_reconcile {nowText : String}
    (run : PlanRun fingerprint db ⟨requestSchema, some nowText, []⟩ t₀ plan e authority selected
      loaded detected notAfter) : selected = loaded.map LoadedRecord.id := by
  obtain ⟨ids, hids, hselected⟩ := run.selects
  have hnil : ids = [] := (Except.ok.inj hids).symm
  rw [hselected, if_pos hnil]

omit [ProjectionDigests] in
/-- Under an active grant it plans with automatic authority. -/
theorem automatic_of_granted (run : PlanRun fingerprint db request t₀ plan e authority selected
    loaded detected notAfter) (hgranted : (db.activeGrant.map (·.grantFingerprint)).isSome = true) :
    authority.mode = .automaticPrivateMaintenance := by
  have hauthority := run.authorized
  unfold planAuthority at hauthority
  cases hgrant : db.activeGrant with
  | none =>
      rw [hgrant] at hgranted
      cases hgranted
  | some grant =>
      rw [hgrant] at hauthority
      obtain ⟨_, hauthority⟩ := check_bind_eq_ok.1 hauthority
      rw [← Except.ok.inj hauthority]

omit [ProjectionDigests] in
/-- A plan is valid for some time. -/
theorem instant_lt_notAfter (run : PlanRun fingerprint db request t₀ plan e authority selected
    loaded detected notAfter) : e < notAfter := by
  obtain ⟨htimes, _⟩ := check_bind_eq_ok.1 run.valid
  obtain ⟨_, htimes⟩ := check_bind_eq_ok.1 htimes
  obtain ⟨_, htimes⟩ := check_bind_eq_ok.1 htimes
  obtain ⟨evaluated, hevaluated, htimes⟩ := bind_eq_ok.1 htimes
  obtain ⟨ends, hends, htimes⟩ := bind_eq_ok.1 htimes
  obtain ⟨hlt, _⟩ := check_bind_eq_ok.1 htimes
  have hread : ∀ {t u : OffsetDateTime} {text label : String}, formatTimestamp t = .ok text →
      parseCanonicalTimestamp text label = .ok u → u = ⟨t.utc, 0⟩ := by
    intro t u text label htext hu
    obtain ⟨parsed, hparsed, hu⟩ := bind_eq_ok.1 hu
    obtain ⟨_, _, hu⟩ := bind_eq_ok.1 hu
    obtain ⟨_, hu⟩ := check_bind_eq_ok.1 hu
    have hparse : Rfc3339.parse (Text.trim text) = some parsed := require_eq_ok.1 hparsed
    rw [Rfc3339.trim_format (format_of_formatTimestamp htext),
      parse_of_formatTimestamp htext] at hparse
    exact (Except.ok.inj hu).symm.trans (Option.some.inj hparse).symm
  have hlt := ensure_eq_ok.1 hlt
  rw [hread run.evaluatedAt hevaluated, hread run.notAfterText hends] at hlt
  exact hlt

/-- Recall trusts the projection of a reconcile until the plan ends. -/
theorem projectionAllows_reconciled
    (run : PlanRun fingerprint db request t₀ plan e authority selected loaded detected notAfter)
    (reconciled : ReconcileRun fingerprint db db' t₀ plan projectionId grantFingerprint)
    {t : OffsetDateTime} {text : String} (htext : formatTimestamp t = .ok text) :
    Recall.projectionAllows db' text = .ok (decide (t < notAfter)) := by
  unfold Recall.projectionAllows
  rw [reconciled.state, reconciled.ends]
  show (if _ then Recall.timestampBefore (some text) (some plan.notAfter) else _) = _
  rw [if_pos ⟨reconciled.projected.1.trans reconciled.generation.symm, reconciled.projected.2.1⟩]
  exact bind_eq_ok.2 ⟨_, parseTimestamp_format htext _,
    bind_eq_ok.2 ⟨_, parseTimestamp_format run.notAfterText _, rfl⟩⟩

/-! ### Pairs the projection knows -/

omit [ProjectionDigests] in
/-- A record that was eligible and updated by the instant is one a contradiction was looked for
in. -/
theorem contradictionRecord_of_eligible {nowText : String}
    (hnow : formatTimestamp t₀ = .ok nowText)
    (run : PlanRun fingerprint db ⟨requestSchema, some nowText, []⟩ t₀ plan e authority selected
      loaded detected notAfter) {r : MemoryRecord} (heligible : Eligible db nowText r)
    (hupdated : UpdatedAtMost r t₀) (hcandidate : privateContradictionCandidate r = true) :
    ∃ s d f, LoadsAs db e r s d f ∧ loadedOf db selected e r s d f ∈ contradictionRecords loaded := by
  obtain ⟨hr, hbase⟩ := heligible
  obtain ⟨s, d, f, hloads⟩ := run.loads r hr
  have hinstant := instant_of_reconcile hnow run
  obtain ⟨hactive, s', hs', _, hcurrent⟩ :=
    (Recall.baseCurrentAssertion_private (mem_recordsForPreservation.1 hr).2).1 hbase
  cases hloads.state.symm.trans hs'
  obtain ⟨d', hd', hcurrent⟩ := (privateAssertionIsCurrent_of_active hactive hnow).1 hcurrent
  have hdecision := (check_bind_eq_ok.1 hloads.decision).2
  rw [hinstant, evaluatedAssertion_utc] at hdecision
  cases hdecision.symm.trans hd'
  have hf : f ≤ e := by
    rw [hinstant]
    exact hupdated f hloads.freshness
  exact ⟨s, d, f, hloads,
    (mem_contradictionRecords run).2 ⟨r, s, d, f, hloads, hcurrent, hf, hcandidate, rfl⟩⟩

omit [ProjectionDigests] in
/-- Two contradictory records lie in one component, and the finding for it has their edge. -/
theorem component_of_edge {l m : PrivateLoadedRecord} (hl : l ∈ contradictionRecords loaded)
    (hm : m ∈ contradictionRecords loaded)
    (hcontradicts : contradicts (graphInput l) (graphInput m) = true) :
    ∃ component ∈ contradictionComponents (neighbors (planCandidates loaded))
        (planCandidates loaded).length,
      l ∈ atPositions (contradictionRecords loaded) component ∧
      m ∈ atPositions (contradictionRecords loaded) component ∧
      ∃ edge ∈ (componentFinding loaded component).conflictEdges,
        (edge.left = l.id ∧ edge.right = m.id) ∨ (edge.left = m.id ∧ edge.right = l.id) := by
  obtain ⟨i, hi, hget⟩ := List.getElem_of_mem hl
  obtain ⟨j, hj, hget'⟩ := List.getElem_of_mem hm
  have hgetl : (contradictionRecords loaded)[i]? = some l := List.getElem?_eq_some_iff.2 ⟨hi, hget⟩
  have hgetm : (contradictionRecords loaded)[j]? = some m := List.getElem?_eq_some_iff.2 ⟨hj, hget'⟩
  have hpi : (planCandidates loaded)[i]? = some (graphInput l) := by
    rw [getElem?_planCandidates, hgetl, Option.map_some]
  have hpj : (planCandidates loaded)[j]? = some (graphInput m) := by
    rw [getElem?_planCandidates, hgetm, Option.map_some]
  have hne : i ≠ j := by
    rintro rfl
    cases hgetl.symm.trans hgetm
    rw [contradicts_irrefl] at hcontradicts
    cases hcontradicts
  have hij : j ∈ neighbors (planCandidates loaded) i :=
    mem_neighbors.2 (adjacent_iff.2 ⟨hne, _, _, hpi, hpj, hcontradicts⟩)
  obtain ⟨hsound, hcomplete⟩ := contradictionComponents_spec (planCandidates loaded)
  obtain ⟨component, hcomponent, hin⟩ :=
    hcomplete i (List.getElem?_eq_some_iff.1 hpi).1 (List.ne_nil_of_mem hij)
  obtain ⟨start, _, _, _, hreach⟩ := hsound component hcomponent
  have hjn : j ∈ component := (hreach j).2 (((hreach i).1 hin).tail hij)
  refine ⟨component, hcomponent, List.mem_filterMap.2 ⟨i, hin, hgetl⟩,
    List.mem_filterMap.2 ⟨j, hjn, hgetm⟩, ?_⟩
  -- the edge is listed from the lesser position
  have hedge : ∀ {a b : Nat} {x y : PrivateLoadedRecord}, a ∈ component → b ∈ component → a < b →
      b ∈ neighbors (planCandidates loaded) a → (contradictionRecords loaded)[a]? = some x →
      (contradictionRecords loaded)[b]? = some y →
      ∃ edge ∈ (componentFinding loaded component).conflictEdges,
        (edge.left = x.id ∧ edge.right = y.id) ∨ (edge.left = y.id ∧ edge.right = x.id) := by
    intro a b x y ha hb hlt hab hx hy
    refine ⟨conflictEdge (fun a b =>
      privateArtifactDigest "allowlisted_symmetric_polarity_edge" [a, b]) x y, ?_, ?_⟩
    · refine (List.mem_insertionSort _).2 (List.mem_filterMap.2 ⟨(a, b), ?_, ?_⟩)
      · refine List.mem_flatMap.2 ⟨a, ha, List.mem_map.2 ⟨b, List.mem_filter.2 ⟨hab, ?_⟩, rfl⟩⟩
        simp [hlt, hb]
      · dsimp only
        rw [hx, hy]
    · unfold conflictEdge
      split
      · exact Or.inl ⟨rfl, rfl⟩
      · exact Or.inr ⟨rfl, rfl⟩
  rcases Nat.lt_or_gt_of_ne hne with hlt | hlt
  · exact hedge hin hjn hlt hij hgetl hgetm
  · obtain ⟨edge, hmem, hends⟩ := hedge hjn hin hlt (neighbors_symm _ _ hij) hgetm hgetl
    exact ⟨edge, hmem, hends.symm⟩

omit [ProjectionDigests] in
/-- The versions an action is bound to are the tokens its records were loaded with. -/
theorem version_of_loaded (run : PlanRun fingerprint db request t₀ plan e authority selected
    loaded detected notAfter) {group : List PrivateLoadedRecord} (hgroup : ∀ l ∈ group, l ∈ loaded)
    {r : MemoryRecord} {s : PrivateLifecycleState} {d : CurrentAssertionDecision}
    {f : OffsetDateTime} (hloads : LoadsAs db e r s d f)
    (hin : loadedOf db selected e r s d f ∈ group) :
    ((SortedMap.ofList (group.map LoadedRecord.versioned)).get? r.id).bind
      MaintenanceRecordVersion.privateVersionToken = some s.recordVersion := by
  have hkey : r.id ∈ (SortedMap.ofList (group.map LoadedRecord.versioned)).keys := by
    refine SortedMap.mem_keys_extend.2 (Or.inr ?_)
    rw [List.map_map]
    exact List.mem_map.2 ⟨_, hin, rfl⟩
  obtain ⟨⟨id, v⟩, hentry, hid⟩ := List.mem_map.1 hkey
  obtain rfl : id = r.id := hid
  rw [SortedMap.get?_of_mem hentry]
  obtain ⟨l, hl, hv⟩ := List.mem_map.1 (SortedMap.mem_of_mem_ofList hentry)
  obtain ⟨r', s', d', f', hloads', rfl⟩ := (run.mem_loaded l).1 (hgroup l hl)
  obtain rfl : r' = r := record_unique hloads'.mem hloads.mem (congrArg Prod.fst hv)
  cases hloads.state.symm.trans hloads'.state
  have hv : MaintenanceRecordVersion.privateRuntime s.recordVersion = v := congrArg Prod.snd hv
  rw [← hv]
  rfl

/-- A pair the projection knows: both were eligible and updated when it was made. -/
structure KnownPair (db : Db) (t₀ : OffsetDateTime) (nowText : String) (r s : MemoryRecord) : Prop
    where
  left : Eligible db nowText r ∧ UpdatedAtMost r t₀
  right : Eligible db nowText s ∧ UpdatedAtMost s t₀
  edge : ContradictionEdge db r s

/-- Such a pair has its edge among the rows, with two fresh members of a set of the projection. -/
theorem edge_of_known {nowText : String} (hnow : formatTimestamp t₀ = .ok nowText)
    (run : PlanRun fingerprint db ⟨requestSchema, some nowText, []⟩ t₀ plan e authority selected
      loaded detected notAfter)
    (reconciled : ReconcileRun fingerprint db db' t₀ plan projectionId grantFingerprint)
    {r s : MemoryRecord} (h : KnownPair db t₀ nowText r s) :
    ∃ row ∈ db'.conflictEdges.rows,
      ((row.leftRecordId = r.id ∧ row.rightRecordId = s.id) ∨
        (row.leftRecordId = s.id ∧ row.rightRecordId = r.id)) ∧
      Recall.setInProjection db' row.conflictId = true ∧
      Recall.memberIsFresh db' row.conflictId r.id = true ∧
      Recall.memberIsFresh db' row.conflictId s.id = true := by
  obtain ⟨hr, hs, hcontradicts⟩ := h.edge
  obtain ⟨sr, dr, fr, hloadsr, hlr⟩ :=
    contradictionRecord_of_eligible hnow run h.left.1 h.left.2 hr
  obtain ⟨ss, ds, fs, hloadss, hls⟩ :=
    contradictionRecord_of_eligible hnow run h.right.1 h.right.2 hs
  obtain ⟨component, hcomponent, hinr, hins, edge, hedge, hends⟩ :=
    component_of_edge hlr hls hcontradicts
  have hgroup : ∀ l ∈ atPositions (contradictionRecords loaded) component, l ∈ loaded := by
    intro l hl
    obtain ⟨i, _, hget⟩ := List.mem_filterMap.1 hl
    exact (List.mem_filter.1 (List.mem_of_getElem? hget)).1
  have htouches : touches selected (atPositions (contradictionRecords loaded) component) = true := by
    have hall : ∀ id ∈ loaded.map LoadedRecord.id, id ∈ selected := by
      rw [selected_of_reconcile run]
      exact fun id hid => hid
    exact touches_of_mem (List.mem_map_of_mem hinr) (hall _ (List.mem_map_of_mem (hgroup _ hinr)))
  have hgranted : (db.activeGrant.map (·.grantFingerprint)).isSome = true := by
    rw [reconciled.granted]
    rfl
  obtain ⟨a, ha, finding, hfinding, hidentity, hversions⟩ :=
    derived_of_component run (automatic_of_granted run hgranted) hcomponent htouches
  have hconflict : Conflict plan.findings projectionId a finding
      (ProjectionDigests.conflict (projectionId, finding.findingId)) := ⟨hfinding, rfl⟩
  have hrecords : finding.recordIds = SortedMap.sortedKeys
      ((atPositions (contradictionRecords loaded) component).map LoadedRecord.id) :=
    congrArg FindingIdentity.recordIds hidentity
  have hedges : finding.conflictEdges = (componentFinding loaded component).conflictEdges :=
    congrArg FindingIdentity.conflictEdges hidentity
  -- each of the two has its member row, with the token it still holds
  have hfresh : ∀ {x : MemoryRecord} {sx : PrivateLifecycleState} {dx : CurrentAssertionDecision}
      {fx : OffsetDateTime}, LoadsAs db e x sx dx fx →
      loadedOf db selected e x sx dx fx ∈ atPositions (contradictionRecords loaded) component →
      Recall.memberIsFresh db' (ProjectionDigests.conflict (projectionId, finding.findingId))
        x.id = true := by
    intro x sx dx fx hloads hin
    have hrow := (reconciled.members ⟨_, x.id, sx.recordVersion⟩).2 ⟨a, ha, finding, _, hconflict,
      x.id, by
        rw [hrecords, SortedMap.mem_sortedKeys]
        exact List.mem_map.2 ⟨_, hin, rfl⟩,
      rfl, rfl, by
        rw [hversions]
        exact version_of_loaded run hgroup hloads hin⟩
    have hget : db'.conflictMembers.get? (_, x.id) = some _ := Table.get?_of_mem hrow
    unfold Recall.memberIsFresh
    rw [hget, reconciled.lifecycle, hloads.state]
    exact decide_eq_true rfl
  refine ⟨_, (reconciled.edges _).2 ⟨a, ha, finding, _, hconflict, edge, hedges ▸ hedge, rfl⟩,
    hends, ?_, hfresh hloadsr hinr, hfresh hloadss hins⟩
  have hset := (reconciled.sets _).2 ⟨a, ha, finding, _, hconflict, rfl⟩
  have hget : db'.conflictSets.get? _ = some _ := Table.get?_of_mem hset
  unfold Recall.setInProjection
  rw [show (edgeRow (ProjectionDigests.conflict (projectionId, finding.findingId)) edge).conflictId =
    (conflictSetOf (ProjectionDigests.conflict (projectionId, finding.findingId)) projectionId
      grantFingerprint finding).conflictId from rfl, hget, reconciled.projected.2.2.1,
    reconciled.projected.2.2.2, reconciled.projected.2.1]
  simp [conflictSetOf]

omit [ProjectionDigests] [Text.Unicode] [MaintenanceDigests] in
/-- A record with such an edge to an eligible one is not recalled. -/
theorem not_recalled_of_edge {text : String} {r s : MemoryRecord}
    (hr : r ∈ recordsForPreservation db') (hs : Eligible db' text s) {row : PrivateConflictEdge}
    (hrow : row ∈ db'.conflictEdges.rows)
    (hends : (row.leftRecordId = r.id ∧ row.rightRecordId = s.id) ∨
      (row.leftRecordId = s.id ∧ row.rightRecordId = r.id))
    (hset : Recall.setInProjection db' row.conflictId = true)
    (hfresh : Recall.memberIsFresh db' row.conflictId r.id = true)
    (hfresh' : Recall.memberIsFresh db' row.conflictId s.id = true)
    (hstate : db'.projection.state = .current) :
    Recall.currentAssertion db' r text ≠ .ok true := by
  intro hrecalled
  obtain ⟨_, hallowed, hsuppressed⟩ :=
    (currentAssertion_private (mem_recordsForPreservation.1 hr).2).1 hrecalled
  unfold Recall.conflictSuppresses at hsuppressed
  rw [hstate] at hsuppressed
  obtain ⟨allowed, hallowed', hsuppressed⟩ := bind_eq_ok.1 hsuppressed
  cases hallowed.symm.trans hallowed'
  refine anySuppresses_ne_false hrow ?_ hsuppressed
  have hother : Recall.otherEnd row r.id = s.id := by
    unfold Recall.otherEnd
    rcases hends with ⟨hleft, hright⟩ | ⟨hleft, hright⟩
    · rw [if_pos hleft, hright]
    · split
      · rename_i hsame
        rw [hright, ← hsame, hleft]
      · exact hleft
  have hat : row.leftRecordId = r.id ∨ row.rightRecordId = r.id := by
    rcases hends with ⟨hleft, _⟩ | ⟨_, hright⟩
    · exact Or.inl hleft
    · exact Or.inr hright
  unfold Recall.edgeSuppresses
  rw [hother, if_pos ⟨hat, hset, hfresh, hfresh'⟩, (mem_recordsForPreservation.1 hs.1).1]
  exact hs.2

omit [ProjectionDigests] [Text.Unicode] [MaintenanceDigests] in
/-- With no edge that suppresses it, an eligible record is recalled while the projection stands. -/
theorem recalled_of_no_member {text : String} {r : MemoryRecord} (hr : Eligible db' text r)
    (hstate : db'.projection.state = .current)
    (hallowed : Recall.projectionAllows db' text = .ok true)
    (hmember : ∀ conflictId, Recall.memberIsFresh db' conflictId r.id = false) :
    Recall.currentAssertion db' r text = .ok true := by
  refine (currentAssertion_private (mem_recordsForPreservation.1 hr.1).2).2 ⟨hr.2, hallowed, ?_⟩
  unfold Recall.conflictSuppresses
  rw [hstate]
  refine bind_eq_ok.2 ⟨true, hallowed, anySuppresses_false fun row _ => ?_⟩
  unfold Recall.edgeSuppresses
  rw [if_neg]
  rintro ⟨_, _, hfresh, _⟩
  rw [hmember] at hfresh
  cases hfresh

/-! ### No leak -/

/-- From the instant on, no two eligible records that contradict each other are recalled: the
projection stands and both are members of one of its conflicts, or it ended and recall is closed. -/
def NoLeak (db : Db) (t₀ : OffsetDateTime) : Prop :=
  ∀ t text, t₀ ≤ t → formatTimestamp t = .ok text → ∀ r s, Eligible db text r → Eligible db text s →
    ContradictionEdge db r s →
      (Recall.currentAssertion db r text ≠ .ok true ∧
        Recall.currentAssertion db s text ≠ .ok true) ∧
      ((Recall.projectionAllows db text = .ok true ∧ ∃ conflictId,
          Recall.setInProjection db conflictId = true ∧
          Recall.memberIsFresh db conflictId r.id = true ∧
          Recall.memberIsFresh db conflictId s.id = true) ∨
        Recall.projectionAllows db text = .ok false)

/-- Every contradictory pair that was eligible at the instant had been updated by then. -/
def PairsUpdated (db : Db) (t₀ : OffsetDateTime) : Prop :=
  ∀ text₀, formatTimestamp t₀ = .ok text₀ → ∀ r s, Eligible db text₀ r → Eligible db text₀ s →
    ContradictionEdge db r s → UpdatedAtMost r t₀ ∧ UpdatedAtMost s t₀

variable [Entropy] {grant : PrivateMaintenanceGrant}

theorem noLeak_of_updated (h : reconcileTransaction fingerprint db t₀ grant = .ok db')
    (hupdated : PairsUpdated db t₀) : NoLeak db' t₀ := by
  obtain ⟨plan, projectionId, reconciled⟩ := reconcileTransaction_run h
  obtain ⟨nowText, hnow, hplan⟩ := reconciled.planned
  obtain ⟨e, authority, selected, loaded, detected, notAfter, run⟩ := planPrivateLifecycle_run hplan
  intro t text hle htext r s hr hs hedge
  have hr₀ := eligible_earlier hle htext hnow ((eligible_reconciled reconciled).1 hr)
  have hs₀ := eligible_earlier hle htext hnow ((eligible_reconciled reconciled).1 hs)
  have hedge₀ := (edge_reconciled reconciled).1 hedge
  obtain ⟨hur, hus⟩ := hupdated nowText hnow r s hr₀ hs₀ hedge₀
  obtain ⟨row, hrow, hends, hset, hfreshr, hfreshs⟩ :=
    edge_of_known hnow run reconciled ⟨⟨hr₀, hur⟩, ⟨hs₀, hus⟩, hedge₀⟩
  refine ⟨⟨not_recalled_of_edge hr.1 hs hrow hends hset hfreshr hfreshs reconciled.state,
    not_recalled_of_edge hs.1 hr hrow hends.symm hset hfreshs hfreshr reconciled.state⟩, ?_⟩
  have hallows := projectionAllows_reconciled run reconciled htext
  by_cases hahead : t < notAfter
  · rw [decide_eq_true hahead] at hallows
    exact Or.inl ⟨hallows, row.conflictId, hset, hfreshr, hfreshs⟩
  · rw [decide_eq_false hahead] at hallows
    exact Or.inr hallows

theorem updated_of_noLeak (h : reconcileTransaction fingerprint db t₀ grant = .ok db')
    (hleak : NoLeak db' t₀) : PairsUpdated db t₀ := by
  obtain ⟨plan, projectionId, reconciled⟩ := reconcileTransaction_run h
  obtain ⟨nowText, hnow, hplan⟩ := reconciled.planned
  obtain ⟨e, authority, selected, loaded, detected, notAfter, run⟩ := planPrivateLifecycle_run hplan
  have hinstant := instant_of_reconcile hnow run
  intro text₀ htext₀ r s hr hs hedge
  have hr' := (eligible_reconciled reconciled).2 hr
  have hs' := (eligible_reconciled reconciled).2 hs
  obtain ⟨⟨hnotr, hnots⟩, _⟩ :=
    hleak t₀ text₀ (le_refl t₀.utc) htext₀ r s hr' hs' ((edge_reconciled reconciled).2 hedge)
  -- the plan ends after its instant, so the projection stands
  have hallowed : Recall.projectionAllows db' text₀ = .ok true := by
    have hahead : t₀ < notAfter := by
      have hlt := instant_lt_notAfter run
      rwa [hinstant] at hlt
    rw [projectionAllows_reconciled run reconciled htext₀, decide_eq_true hahead]
  have hlate : ∀ {x : MemoryRecord}, Eligible db' text₀ x → x ∈ recordsForPreservation db →
      Recall.currentAssertion db' x text₀ ≠ .ok true → UpdatedAtMost x t₀ := by
    intro x hx hmem hnot f hf
    by_contra hafter
    refine hnot (recalled_of_no_member hx reconciled.state hallowed fun conflictId =>
      not_member_of_later run reconciled hmem hf ?_ conflictId)
    rw [hinstant]
    exact hafter
  exact ⟨hlate hr' hr.1 hnotr, hlate hs' hs.1 hnots⟩

/-- **No contradiction leaks** after a reconcile exactly when every contradictory pair it could see
had been updated by its instant. -/
theorem no_contradiction_leak_iff (h : reconcileTransaction fingerprint db t₀ grant = .ok db') :
    NoLeak db' t₀ ↔ PairsUpdated db t₀ :=
  ⟨updated_of_noLeak h, noLeak_of_updated h⟩

end Run

/-! ### Two decisions that contradict each other -/

@[reducible] def plainProjections : ProjectionDigests :=
  ⟨fun _ => "projection", fun _ => "conflict"⟩

/-- As the plain digests, with an id for each of two claims that contradict each other and for each
of the two actions that follow. -/
@[reducible] def contradictionDigests : MaintenanceDigests :=
  let zero := "blake3:0000000000000000000000000000000000000000000000000000000000000000"
  let one := "blake3:0000000000000000000000000000000000000000000000000000000000000001"
  { plainDigests with
    duplicateClaim := fun c => if c.body = "Retries are enabled" then zero else one
    action := fun a => if a.class_ = .suppressUnresolvedConflict then zero else one }

def retriesEnabled (updatedAt : String) : MemoryRecord :=
  { plainDecision "enabled" with body := "Retries are enabled", updatedAt := updatedAt }

def retriesNotEnabled : MemoryRecord :=
  { plainDecision "not-enabled" with body := "Retries are not enabled" }

def activeGrant : PrivateMaintenanceGrant :=
  ⟨"grant", "blake3:0000000000000000000000000000000000000000000000000000000000000000", .active,
    Recall.maintenancePolicyVersion, "2026-07-14T10:00:00Z", none⟩

/-- A store under a grant whose two decisions contradict each other, one updated at an instant. -/
def contradictoryDecisions (updatedAt : String) : Db :=
  { Db.initial "2026-07-14T10:00:00Z" with
    records := ⟨[retriesEnabled updatedAt, retriesNotEnabled],
      by simp [retriesEnabled, retriesNotEnabled, plainDecision]⟩
    lifecycle := ⟨[plainLifecycle "enabled", plainLifecycle "not-enabled"],
      by simp [plainLifecycle]⟩
    grants := ⟨[activeGrant], by simp⟩ }

def reconcileAfternoon (updatedAt : String) : Fallible Db :=
  @reconcileTransaction Entropy.cycling plainProjections Text.Unicode.ascii contradictionDigests
    "blake3:0000000000000000000000000000000000000000000000000000000000000000"
    (contradictoryDecisions updatedAt) afternoon activeGrant

theorem no_leak_of_morning_update :
    ∃ db', reconcileAfternoon "2026-07-14T10:00:00Z" = .ok db' ∧
      @NoLeak Text.Unicode.ascii db' afternoon := by
  have hrun : (reconcileAfternoon "2026-07-14T10:00:00Z").toBool = true := by decide +kernel
  cases h : reconcileAfternoon "2026-07-14T10:00:00Z" with
  | error failure =>
      rw [h] at hrun
      cases hrun
  | ok db' =>
      refine ⟨db', rfl, (@no_contradiction_leak_iff plainProjections Text.Unicode.ascii
        contradictionDigests _ _ _ _ Entropy.cycling _ h).2 ?_⟩
      have hup : ∀ r ∈ recordsForPreservation (contradictoryDecisions "2026-07-14T10:00:00Z"),
          r.updatedAt = "2026-07-14T10:00:00Z" := by decide +kernel
      have hread : parseTimestamp "2026-07-14T10:00:00Z" "maintenance record updated_at" =
          .ok ⟨1784023200000000000, 0⟩ := by decide +kernel
      have hbefore : ∀ r ∈ recordsForPreservation (contradictoryDecisions "2026-07-14T10:00:00Z"),
          UpdatedAtMost r afternoon := by
        intro r hr f hf
        rw [hup r hr, hread] at hf
        cases hf
        decide
      intro text₀ _ r s hr hs _
      exact ⟨hbefore r hr.1, hbefore s hs.1⟩

/-- A decision updated after the reconcile contradicts another one, and both are recalled. -/
theorem leak_of_evening_update :
    (∀ r ∈ (contradictoryDecisions "2026-07-14T20:00:00Z").records.rows, r.admitted = true) ∧
    ∃ db', reconcileAfternoon "2026-07-14T20:00:00Z" = .ok db' ∧
      ¬ @NoLeak Text.Unicode.ascii db' afternoon := by
  have hrun : (reconcileAfternoon "2026-07-14T20:00:00Z").toBool = true := by decide +kernel
  refine ⟨by decide, ?_⟩
  cases h : reconcileAfternoon "2026-07-14T20:00:00Z" with
  | error failure =>
      rw [h] at hrun
      cases hrun
  | ok db' =>
      refine ⟨db', rfl, fun hleak => ?_⟩
      have hupdated := @updated_of_noLeak plainProjections Text.Unicode.ascii
        contradictionDigests _ _ _ _ Entropy.cycling _ h hleak
      have htext : formatTimestamp afternoon = .ok "2026-07-14T13:00:00Z" := by decide +kernel
      have hedge : @ContradictionEdge Text.Unicode.ascii
          (contradictoryDecisions "2026-07-14T20:00:00Z") (retriesEnabled "2026-07-14T20:00:00Z")
          retriesNotEnabled := ⟨by decide +kernel, by decide +kernel, by decide +kernel⟩
      have hpair := hupdated _ htext _ _ ⟨by decide +kernel, by decide +kernel⟩
        ⟨by decide +kernel, by decide +kernel⟩ hedge
      have hread : parseTimestamp "2026-07-14T20:00:00Z" "maintenance record updated_at" =
          .ok ⟨1784059200000000000, 0⟩ := by decide +kernel
      exact absurd (hpair.1 _ hread) (by decide)

end Maintenance
end Memzoi
