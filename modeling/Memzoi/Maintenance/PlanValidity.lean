/-
# How long a plan stays accurate

A plan names the instant until which it claims to hold. Both planners are run
again before that instant. Nothing a detector looks at changes until then as
long as no record that was left out as too fresh comes in, and so the second run
finds what the first one found (`plans_stay_accurate`).

The loaded records of two runs are compared position by position (`SameView`):
a record that is eligible is loaded in the same way, and of one that is not only
the retention state may differ, which no detector reads there.
-/

import Memzoi.Maintenance.RepositoryPlan
import Memzoi.Maintenance.PlanAgreement

namespace Memzoi
namespace Maintenance

open Fallible PrivateLifecycle
open Retention (CurrentAssertionDecision Undisturbed evaluateCurrentAssertion formatTimestamp format_of_formatTimestamp
  parse_of_formatTimestamp)

/-! ### Two views of one snapshot -/

section View

variable {ρ : Type}

/-- One record loaded twice. -/
structure SameView (l l' : LoadedRecord ρ) : Prop where
  marked : l.snapshot.currentAssertion = true → l.eligibleAtEvaluation = true
  rest : l' = { l with
    snapshot := { l.snapshot with retentionState := l'.snapshot.retentionState } }
  eligible : l.eligibleAtEvaluation = true → l' = l

theorem SameView.refl {l : LoadedRecord ρ}
    (h : l.snapshot.currentAssertion = true → l.eligibleAtEvaluation = true) : SameView l l :=
  ⟨h, rfl, fun _ => rfl⟩

/-- The two lists show the same records in the same order. -/
abbrev SameViews : List (LoadedRecord ρ) → List (LoadedRecord ρ) → Prop := List.Forall₂ SameView

variable {loaded loaded' : List (LoadedRecord ρ)}

/-- What does not read the retention state has one value on both. -/
theorem map_sameViews {β : Type} {f : LoadedRecord ρ → β} (h : SameViews loaded loaded')
    (hf : ∀ (l : LoadedRecord ρ) s, f { l with snapshot := { l.snapshot with retentionState := s } } = f l) :
    loaded'.map f = loaded.map f := by
  induction h with
  | nil => rfl
  | cons hview _ ih =>
      rw [List.map_cons, List.map_cons, ih, hview.rest, hf]

/-- A filter that lets only eligible records pass keeps the same records of both. -/
theorem filter_sameViews {p : LoadedRecord ρ → Bool} (h : SameViews loaded loaded')
    (hp : ∀ l : LoadedRecord ρ, (l.snapshot.currentAssertion = true → l.eligibleAtEvaluation = true) →
      p l = true → l.eligibleAtEvaluation = true) :
    loaded'.filter p = loaded.filter p := by
  induction h with
  | nil => rfl
  | @cons l l' ls ls' hview _ ih =>
      by_cases heligible : l.eligibleAtEvaluation = true
      · rw [hview.eligible heligible, List.filter_cons, List.filter_cons, ih]
      · have hout : p l = false := by
          rw [← Bool.not_eq_true]
          exact fun hpl => heligible (hp l hview.marked hpl)
        have hout' : p l' = false := by
          rw [← Bool.not_eq_true]
          intro hpl
          have hin := hp l' (by rw [hview.rest]; exact hview.marked) hpl
          rw [hview.rest] at hin
          exact heligible hin
        rw [List.filter_cons_of_neg (by simp [hout']), List.filter_cons_of_neg (by simp [hout]), ih]

variable [MaintenanceRecord ρ] [MaintenanceDigests]

omit [MaintenanceRecord ρ] in
theorem comparisonDigest_sameViews (h : SameViews loaded loaded') :
    comparisonDigest (loaded'.map (·.snapshot)) = comparisonDigest (loaded.map (·.snapshot)) := by
  unfold comparisonDigest
  rw [List.map_map, List.map_map]
  exact congrArg _ (map_sameViews h fun l s => rfl)

/-! ### The detectors see the same -/

omit [MaintenanceRecord ρ] in
theorem detectExactDuplicatesWith_sameViews (h : SameViews loaded loaded') (selected : List String)
    (evidenceDigest : List (LoadedRecord ρ) → String)
    (action : MaintenanceFinding → List (LoadedRecord ρ) → MaintenanceAction) :
    detectExactDuplicatesWith loaded' selected evidenceDigest action =
      detectExactDuplicatesWith loaded selected evidenceDigest action := by
  have hcurrent : loaded'.filter (·.snapshot.currentAssertion) =
      loaded.filter (·.snapshot.currentAssertion) := filter_sameViews h fun l hmarked => hmarked
  unfold detectExactDuplicatesWith duplicateGroups
  rw [hcurrent]

omit [MaintenanceRecord ρ] in
theorem detectExpiry_sameViews (h : SameViews loaded loaded') (selected : List String) :
    detectExpiry loaded' selected = detectExpiry loaded selected := by
  unfold detectExpiry
  rw [filter_sameViews h]
  intro l _ hl
  simp only [Bool.and_eq_true] at hl
  exact hl.1.1

omit [MaintenanceDigests] in
theorem renewal_sameViews (h : SameViews loaded loaded') :
    renewalPredecessors loaded' = renewalPredecessors loaded ∧
      ∀ p, renewalPartners loaded' p = renewalPartners loaded p := by
  have heligible : ∀ l : LoadedRecord ρ, l.renewalEligible = true → l.eligibleAtEvaluation = true := by
    intro l hl
    unfold LoadedRecord.renewalEligible at hl
    simp only [Bool.and_eq_true] at hl
    exact hl.1.1
  constructor
  · refine filter_sameViews h fun l _ hl => heligible l ?_
    simp only [Bool.and_eq_true] at hl
    exact hl.1.1.1
  · refine fun p => filter_sameViews h fun l _ hl => heligible l ?_
    simp only [Bool.and_eq_true] at hl
    exact hl.1.1.1

/-! ### The detectors see the same later -/

variable {e t notAfter maximum : OffsetDateTime}

omit [MaintenanceRecord ρ] [MaintenanceDigests] in
/-- A plan ends before every end that lies ahead of its instant. -/
theorem le_foldl_earlierEnd {ends : List OffsetDateTime} {bound : OffsetDateTime} :
    ends.foldl (earlierEnd e) bound ≤ bound ∧
      ∀ c ∈ ends, e < c → ends.foldl (earlierEnd e) bound ≤ c := by
  induction ends generalizing bound with
  | nil => exact ⟨le_refl bound.utc, fun c hc => absurd hc List.not_mem_nil⟩
  | cons c ends ih =>
      obtain ⟨hbound, hends⟩ := @ih (earlierEnd e bound c)
      have hstep : earlierEnd e bound c ≤ bound ∧ (e < c → earlierEnd e bound c ≤ c) := by
        unfold earlierEnd
        simp only [OffsetDateTime.le_def, OffsetDateTime.lt_def]
        split <;> omega
      rw [List.foldl_cons]
      simp only [OffsetDateTime.le_def, OffsetDateTime.lt_def] at hbound hends hstep ⊢
      refine ⟨by omega, fun x hx hahead => ?_⟩
      rcases List.mem_cons.1 hx with rfl | hx
      · have := hstep.2 hahead
        omega
      · exact hends x hx hahead

omit [MaintenanceRecord ρ] [MaintenanceDigests] in
/-- It ends after its instant, when its window does. -/
theorem lt_foldl_earlierEnd {ends : List OffsetDateTime} {bound : OffsetDateTime} (h : e < bound) :
    e < ends.foldl (earlierEnd e) bound := by
  induction ends generalizing bound with
  | nil => exact h
  | cons c ends ih =>
      rw [List.foldl_cons]
      refine ih ?_
      unfold earlierEnd
      split
      · rename_i hc
        exact hc.1
      · exact h

omit [MaintenanceDigests] in
/-- Every end of a loaded record that lies ahead comes no sooner than the plan's. -/
theorem notAfter_le_end (h : notAfterOf e maximum loaded = .ok notAfter) {r : LoadedRecord ρ}
    (hr : r ∈ loaded) {ends : List OffsetDateTime} (hends : r.ends = .ok ends) {c : OffsetDateTime}
    (hc : c ∈ ends) (hahead : e < c) : notAfter ≤ c := by
  obtain ⟨all, hall, h⟩ := bind_eq_ok.1 h
  rw [← Except.ok.inj h]
  exact le_foldl_earlierEnd.2 c ((mem_of_gatherAll hall c).2 ⟨r, hr, ends, hends, hc⟩) hahead

omit [MaintenanceDigests] in
/-- Every loaded record has its ends. -/
theorem ends_total (h : notAfterOf e maximum loaded = .ok notAfter) {r : LoadedRecord ρ}
    (hr : r ∈ loaded) : ∃ ends, r.ends = .ok ends := by
  obtain ⟨all, hall, _⟩ := bind_eq_ok.1 h
  obtain ⟨parts, hparts, _⟩ := bind_eq_ok.1 hall
  obtain ⟨ends, _, hends⟩ := exists_of_mapAll hparts hr
  exact ⟨ends, hends⟩

/-- No record turns stale before the plan ends. -/
theorem detectStaleness_later (hle : e ≤ t) (hlt : t < notAfter)
    (h : notAfterOf e maximum loaded = .ok notAfter)
    (hmarked : ∀ l ∈ loaded, l.snapshot.currentAssertion = true → l.eligibleAtEvaluation = true)
    (selected : List String) :
    detectStaleness loaded selected t = detectStaleness loaded selected e := by
  refine gatherAll_congr fun r hr => ?_
  obtain ⟨hr, hpass⟩ := List.mem_filter.1 hr
  cases hstale : staleAt r.freshness with
  | error failure => rfl
  | ok stale =>
      simp only [Bool.and_eq_true] at hpass
      have hages : r.agesOut = true := by
        unfold LoadedRecord.agesOut
        rw [hmarked r hr hpass.1.1.1, hpass.1.1.1, hpass.1.1.2, hpass.1.2]
        rfl
      obtain ⟨ends, hends⟩ := ends_total h hr
      have hmem : stale ∈ ends := by
        obtain ⟨boundary, _, hrest⟩ := bind_eq_ok.1 hends
        obtain ⟨stale', hstale', hrest⟩ := bind_eq_ok.1 hrest
        unfold LoadedRecord.staleEnd at hstale'
        rw [if_pos hages, hstale] at hstale'
        cases hstale'
        rw [← Except.ok.inj hrest]
        exact List.mem_append_right _ (List.mem_singleton.2 rfl)
      have hahead := notAfter_le_end h hr hends hmem
      have hsame : t < stale ↔ e < stale := by
        simp only [OffsetDateTime.le_def, OffsetDateTime.lt_def] at hle hlt hahead ⊢
        omega
      show (if t < stale then _ else _) = (if e < stale then _ else _)
      simp only [hsame]

/-- No accepted review of an eligible record lies after the first instant and up to the second. -/
def ReviewsQuiet (loaded : List (LoadedRecord ρ)) (e t : OffsetDateTime) : Prop :=
  ∀ l ∈ loaded, l.eligibleAtEvaluation = true → ∀ capture,
    MaintenanceRecord.capture l.record = some capture →
    (capture.reviewOutcome = .accept ∨ capture.reviewOutcome = .edit) →
    ∀ reviewedAt, Rfc3339.parse (Text.trim capture.reviewedAt) = some reviewedAt →
      e < reviewedAt → t < reviewedAt

omit [MaintenanceDigests] in
theorem mem_renewalPartners {p r : LoadedRecord ρ} (h : r ∈ renewalPartners loaded p) :
    r ∈ loaded ∧ r.eligibleAtEvaluation = true := by
  obtain ⟨hr, hpass⟩ := List.mem_filter.1 h
  unfold LoadedRecord.renewalEligible at hpass
  simp only [Bool.and_eq_true] at hpass
  exact ⟨hr, hpass.1.1.1.1.1⟩

/-- With no review in between the same pair is kept. -/
theorem renewalPair_later (hle : e ≤ t) (hquiet : ReviewsQuiet loaded e t) (selected : List String)
    (p : LoadedRecord ρ) (boundary : OffsetDateTime) {r : LoadedRecord ρ}
    (hr : r ∈ renewalPartners loaded p) :
    renewalPair selected p boundary t r = renewalPair selected p boundary e r := by
  obtain ⟨hr, heligible⟩ := mem_renewalPartners hr
  unfold renewalPair
  split
  · rfl
  · cases hcapture : MaintenanceRecord.capture r.record with
    | none => rfl
    | some capture =>
        show renewsWith p capture boundary t = renewsWith p capture boundary e
        unfold renewsWith
        split
        · rfl
        · rename_i haccepted
          cases hread : parseTimestamp capture.reviewedAt "renewal reviewed_at" with
          | error failure => rfl
          | ok reviewedAt =>
              have haccepted : capture.reviewOutcome = .accept ∨ capture.reviewOutcome = .edit := by
                by_contra hno
                exact haccepted (not_or.1 hno)
              have hahead := hquiet r hr heligible capture hcapture haccepted reviewedAt
                (require_eq_ok.1 hread)
              have hsame : reviewedAt ≤ t ↔ reviewedAt ≤ e := by
                simp only [OffsetDateTime.le_def, OffsetDateTime.lt_def] at hle hahead ⊢
                omega
              rw [ok_bind, ok_bind]
              simp only [hsame]

theorem detectRenewalsWith_later (hle : e ≤ t) (hquiet : ReviewsQuiet loaded e t)
    (selected : List String) (evidenceDigest : LoadedRecord ρ → LoadedRecord ρ → String)
    (action : MaintenanceFinding → LoadedRecord ρ → LoadedRecord ρ → MaintenanceAction) :
    detectRenewalsWith loaded selected t evidenceDigest action =
      detectRenewalsWith loaded selected e evidenceDigest action := by
  have hkept : ∀ p boundary, keepAll (renewalPair selected p boundary t) (renewalPartners loaded p) =
      keepAll (renewalPair selected p boundary e) (renewalPartners loaded p) := by
    intro p boundary
    exact keepAll_congr fun r hr => renewalPair_later hle hquiet selected p boundary hr
  unfold detectRenewalsWith
  simp only [hkept]

/-! ### The check of the artifact -/

omit [MaintenanceRecord ρ] [MaintenanceDigests] in
/-- The snapshots of two views, record by record: the state of one that is not current may differ. -/
theorem snapshots_sameViews (h : SameViews loaded loaded') :
    List.Forall₂ (fun a b : MaintenanceRecordSnapshot =>
      b = { a with retentionState := b.retentionState } ∧ (a.currentAssertion = true → b = a))
      (loaded.map (·.snapshot)) (loaded'.map (·.snapshot)) := by
  induction h with
  | nil => exact .nil
  | @cons l l' ls ls' hview _ ih =>
      refine .cons ⟨?_, fun hcurrent => ?_⟩ ih
      · conv_lhs => rw [hview.rest]
      · rw [hview.eligible (hview.marked hcurrent)]

/-- Snapshots that agree but for the state of records that are not current. -/
structure SameSnapshots (records records' : List MaintenanceRecordSnapshot) : Prop where
  each : List.Forall₂ (fun a b : MaintenanceRecordSnapshot =>
    b = { a with retentionState := b.retentionState } ∧ (a.currentAssertion = true → b = a))
    records records'

namespace SameSnapshots

variable {records records' : List MaintenanceRecordSnapshot}

omit [MaintenanceDigests] in
theorem map_eq {β : Type} {f : MaintenanceRecordSnapshot → β} (h : SameSnapshots records records')
    (hf : ∀ (a : MaintenanceRecordSnapshot) s, f { a with retentionState := s } = f a) :
    records'.map f = records.map f := by
  obtain ⟨h⟩ := h
  induction h with
  | nil => rfl
  | @cons a b as bs hab _ ih =>
      rw [List.map_cons, List.map_cons, ih, hab.1, hf]

omit [MaintenanceDigests] in
theorem targets (h : SameSnapshots records records') :
    SameSnapshots (records.filter (·.target)) (records'.filter (·.target)) := by
  obtain ⟨h⟩ := h
  induction h with
  | nil => exact ⟨.nil⟩
  | @cons a b as bs hab _ ih =>
      have htarget : b.target = a.target := congrArg (·.target) hab.1
      cases ha : a.target with
      | true =>
          rw [List.filter_cons_of_pos ha, List.filter_cons_of_pos (htarget.trans ha)]
          exact ⟨.cons hab ih.each⟩
      | false =>
          rw [List.filter_cons_of_neg (by simp [ha]), List.filter_cons_of_neg (by simp [htarget, ha])]
          exact ih

omit [MaintenanceDigests] in
theorem find_version (h : SameSnapshots records records') (id : String) :
    (records'.find? (·.recordId = id)).map (fun r => (r.recordId, r.version)) =
      (records.find? (·.recordId = id)).map (fun r => (r.recordId, r.version)) := by
  obtain ⟨h⟩ := h
  induction h with
  | nil => rfl
  | @cons a b as bs hab _ ih =>
      have hid : b.recordId = a.recordId := congrArg (·.recordId) hab.1
      have hversion : b.version = a.version := congrArg (·.version) hab.1
      by_cases ha : a.recordId = id
      · rw [List.find?_cons_of_pos (by simpa using hid.trans ha),
          List.find?_cons_of_pos (by simpa using ha)]
        simp [hid, hversion]
      · rw [List.find?_cons_of_neg (by simpa [hid] using ha),
          List.find?_cons_of_neg (by simpa using ha)]
        exact ih

omit [MaintenanceDigests] in
theorem recordVersionOf_eq (h : SameSnapshots records records') :
    recordVersionOf records' = recordVersionOf records := by
  funext id
  have hfind := congrArg (Option.map Prod.snd) (h.find_version id)
  simp only [Option.map_map] at hfind
  exact hfind

theorem findingDigest_eq (h : SameSnapshots records records') (ids : List String) :
    findingSnapshotComparisonDigest records' ids = findingSnapshotComparisonDigest records ids := by
  unfold findingSnapshotComparisonDigest
  congr 1
  refine mapAll_congr fun id _ => ?_
  have hfind := h.find_version id
  cases hr : records.find? (·.recordId = id) with
  | none =>
      rw [hr] at hfind
      rw [Option.map_eq_none_iff.1 hfind]
  | some r =>
      rw [hr] at hfind
      obtain ⟨r', hr', hsame⟩ := Option.map_eq_some_iff.1 hfind
      rw [hr']
      exact congrArg Except.ok hsame

omit [MaintenanceDigests] in
theorem checkRecords_eq (h : SameSnapshots records records') (scope : MaintenanceScope) :
    checkAll (validateRecord scope) records' = checkAll (validateRecord scope) records := by
  obtain ⟨h⟩ := h
  induction h with
  | nil => rfl
  | @cons a b as bs hab _ ih =>
      have hrecord : validateRecord scope b = validateRecord scope a := by
        cases hcurrent : a.currentAssertion with
        | true => rw [hab.2 hcurrent]
        | false =>
            rw [hab.1]
            unfold validateRecord
            simp [hcurrent]
      rw [checkAll, checkAll, hrecord, ih]

theorem comparisonDigest_eq (h : SameSnapshots records records') :
    comparisonDigest records' = comparisonDigest records := by
  unfold comparisonDigest
  rw [h.map_eq fun a s => rfl]

/-- The check of a plan does not tell the two apart. -/
theorem validate_eq {plan : PlanContents} (h : SameSnapshots plan.records records')
    (requestedIds : List String) :
    ({ plan with records := records' } : PlanContents).validate requestedIds =
      plan.validate requestedIds := by
  have hfinding : ∀ f, validateFinding records' f = validateFinding plan.records f := by
    intro f
    unfold validateFinding
    rw [h.findingDigest_eq]
  have hgroup : ∀ kind, validateGroup { plan with records := records' } kind =
      validateGroup plan kind := by
    intro kind
    have haction : ∀ a, validateAction { plan with records := records' } kind a =
        validateAction plan kind a := by
      intro a
      unfold validateAction
      rw [h.recordVersionOf_eq]
    unfold validateGroup
    rw [funext haction]
  have hlength : records'.length = plan.records.length := h.each.length_eq.symm
  unfold PlanContents.validate
  simp only [h.checkRecords_eq, h.map_eq (f := fun r => r.recordId) fun a s => rfl,
    h.targets.map_eq (f := fun r => r.recordId) fun a s => rfl, h.comparisonDigest_eq,
    funext hfinding, hgroup, summarize, hlength, versionsOf,
    h.targets.map_eq (f := fun r => (r.recordId, r.version)) fun a s => rfl]
  congr!

end SameSnapshots

omit [MaintenanceRecord ρ] [MaintenanceDigests] in
theorem insertionSort_sameViews (h : SameViews loaded loaded') :
    SameViews (loaded.insertionSort (fun a b => a.id ≤ b.id))
      (loaded'.insertionSort (fun a b => a.id ≤ b.id)) := by
  have hid : ∀ {l l' : LoadedRecord ρ}, SameView l l' → l'.id = l.id := by
    intro l l' hview
    rw [hview.rest]
    rfl
  have hinsert : ∀ {l l' : LoadedRecord ρ} {ls ls' : List (LoadedRecord ρ)}, SameView l l' →
      SameViews ls ls' → SameViews (ls.orderedInsert (fun a b => a.id ≤ b.id) l)
        (ls'.orderedInsert (fun a b => a.id ≤ b.id) l') := by
    intro l l' ls ls' hview hviews
    induction hviews with
    | nil => exact .cons hview .nil
    | @cons x x' xs xs' hx hxs ih =>
        rw [List.orderedInsert, List.orderedInsert, hid hview, hid hx]
        split
        · exact .cons hview (.cons hx hxs)
        · exact .cons hx ih
  induction h with
  | nil => exact .nil
  | cons hview _ ih => exact hinsert hview ih

omit [MaintenanceRecord ρ] in
/-- The planners put together the same contents, but for the snapshots themselves. -/
theorem planContents_sameViews (h : SameViews loaded loaded')
    (scope : List String → MaintenanceScope) (authority : MaintenanceAuthoritySnapshot)
    (findings : List MaintenanceFinding) (actionGroups : MaintenanceActionGroups) :
    planContents scope authority loaded' findings actionGroups =
      { planContents scope authority loaded findings actionGroups with
        records := loaded'.map (·.snapshot) } := by
  have hsnapshots : SameSnapshots (loaded.map (·.snapshot)) (loaded'.map (·.snapshot)) :=
    ⟨snapshots_sameViews h⟩
  have hcount : loaded'.countP (fun r => !r.eligibleAtEvaluation) =
      loaded.countP (fun r => !r.eligibleAtEvaluation) := by
    have hmap := map_sameViews (f := fun r => r.eligibleAtEvaluation) h fun l s => rfl
    have hall := congrArg (List.countP fun b => !b) hmap
    rwa [List.countP_map, List.countP_map] at hall
  have hlength : loaded'.length = loaded.length := h.length_eq.symm
  unfold planContents futureDiagnostics summarize versionsOf
  simp only [hsnapshots.targets.map_eq (f := fun r => r.recordId) fun a s => rfl,
    hsnapshots.targets.map_eq (f := fun r => (r.recordId, r.version)) fun a s => rfl,
    hsnapshots.comparisonDigest_eq, hcount, List.length_map, hlength]

omit [MaintenanceRecord ρ] in
theorem validate_sameViews (h : SameViews loaded loaded')
    (scope : List String → MaintenanceScope) (authority : MaintenanceAuthoritySnapshot)
    (findings : List MaintenanceFinding) (actionGroups : MaintenanceActionGroups)
    (requestedIds : List String) :
    (planContents scope authority loaded' findings actionGroups).validate requestedIds =
      (planContents scope authority loaded findings actionGroups).validate requestedIds := by
  rw [planContents_sameViews h]
  exact SameSnapshots.validate_eq ⟨snapshots_sameViews h⟩ requestedIds

/-! ### The end of a later run -/

/-- The window that opens at an instant can be written. -/
def WindowWritten (t : OffsetDateTime) : Prop :=
  ∃ maximum, validityWindow t = .ok maximum ∧ Retention.written maximum

omit [MaintenanceDigests] in
theorem lt_window {t maximum : OffsetDateTime} (h : validityWindow t = .ok maximum) :
    t < maximum ∧ maximum = ⟨t.utc + Retention.hours maxValidityHours, t.offset⟩ := by
  have hadd := require_eq_ok.1 h
  unfold OffsetDateTime.checkedAdd at hadd
  dsimp only at hadd
  split at hadd
  · cases hadd
    refine ⟨?_, rfl⟩
    have hpositive : (0 : Int) < Retention.hours maxValidityHours := by decide
    simp only [OffsetDateTime.lt_def]
    omega
  · cases hadd

omit [MaintenanceDigests] in
/-- The records end a later plan somewhere in its own window. -/
theorem notAfterOf_later (h : notAfterOf e maximum loaded = .ok notAfter)
    (hviews : SameViews loaded loaded') {maximum' : OffsetDateTime} (hlt : t < maximum') :
    ∃ notAfter', notAfterOf t maximum' loaded' = .ok notAfter' ∧ t < notAfter' ∧
      notAfter' ≤ maximum' := by
  obtain ⟨ends, hends, _⟩ := bind_eq_ok.1 h
  have hsame : gatherAll LoadedRecord.ends loaded' = gatherAll LoadedRecord.ends loaded := by
    unfold gatherAll
    have hall : ∀ {ls ls' : List (LoadedRecord ρ)}, SameViews ls ls' →
        mapAll LoadedRecord.ends ls' = mapAll LoadedRecord.ends ls := by
      intro ls ls' hviews
      induction hviews with
      | nil => rfl
      | @cons l l' ls ls' hview _ ih =>
          have hl : LoadedRecord.ends l' = LoadedRecord.ends l := by
            rw [hview.rest]
            rfl
          rw [mapAll, mapAll, hl, ih]
    rw [hall hviews]
  refine ⟨_, bind_eq_ok.2 ⟨ends, hsame.trans hends, rfl⟩, lt_foldl_earlierEnd hlt, ?_⟩
  exact le_foldl_earlierEnd.1

/-- The plan is refused for its size alone. -/
def TooLarge (x : Fallible MaintenancePlan) : Prop :=
  x = bail "serialized maintenance plan exceeds the supported size limit"

/-- What was checked at one instant passes at a later one. -/
theorem finishPlan_later {contents contents' : PlanContents} {request request' : MaintenancePlanRequest}
    {plan : MaintenancePlan} {notAfter' maximum' : OffsetDateTime} {text : String}
    (h : finishPlan contents request e notAfter = .ok plan)
    (hcontents : ∀ ids, contents'.validate ids = contents.validate ids)
    (hschema : request'.schema = request.schema) (hids : request'.recordIds = request.recordIds)
    (htext : formatTimestamp t = .ok text) (hevaluated : request'.evaluatedAt = some text)
    (hwindow : validityWindow t = .ok maximum') (hwritten : Retention.written maximum')
    (hahead : t < notAfter') (hle : notAfter' ≤ maximum') :
    (∃ plan', finishPlan contents' request' t notAfter' = .ok plan' ∧
      plan'.toPlanContents = contents') ∨ TooLarge (finishPlan contents' request' t notAfter') := by
  obtain ⟨eText, _, h⟩ := bind_eq_ok.1 h
  obtain ⟨nText, _, h⟩ := bind_eq_ok.1 h
  obtain ⟨hvalid, _⟩ := check_bind_eq_ok.1 h
  obtain ⟨htimes, hvalid⟩ := check_bind_eq_ok.1 hvalid
  obtain ⟨hvalid, _⟩ := check_bind_eq_ok.1 hvalid
  obtain ⟨hrequest, _⟩ := check_bind_eq_ok.1 htimes
  -- the two instants of the later plan can be written and read back
  have hwrittenT : Retention.written t := Retention.formatTimestamp_ok_iff.1 ⟨text, htext⟩
  have hwrittenN : Retention.written notAfter' := by
    unfold Retention.written at hwritten hwrittenT ⊢
    simp only [OffsetDateTime.le_def, OffsetDateTime.lt_def] at hahead hle
    omega
  obtain ⟨ntext, hntext⟩ := Retention.formatTimestamp_ok_iff.2 hwrittenN
  have hread : ∀ {u : OffsetDateTime} {s : String} (label : String), formatTimestamp u = .ok s →
      parseCanonicalTimestamp s label = .ok ⟨u.utc, 0⟩ := by
    intro u s label hs
    have hparse : parseTimestamp s label = .ok ⟨u.utc, 0⟩ := by
      refine require_eq_ok.2 ?_
      rw [Rfc3339.trim_format (format_of_formatTimestamp hs)]
      exact parse_of_formatTimestamp hs
    have hagain : formatTimestamp ⟨u.utc, 0⟩ = .ok s := by
      obtain ⟨s', hs'⟩ := Retention.formatTimestamp_ok_iff.2
        (show Retention.written ⟨u.utc, 0⟩ from Retention.formatTimestamp_ok_iff.1 ⟨s, hs⟩)
      have hsame := (format_of_formatTimestamp hs').symm.trans (format_of_formatTimestamp hs)
      rw [hs', Option.some.inj hsame]
    exact bind_eq_ok.2 ⟨_, hparse, bind_eq_ok.2 ⟨s, hagain, check_bind_eq_ok.2 ⟨ensure_of rfl, rfl⟩⟩⟩
  have hrequest' : validateRequest request' = .ok () := by
    obtain ⟨hs, hrequest⟩ := check_bind_eq_ok.1 hrequest
    obtain ⟨_, _, hrequest⟩ := bind_eq_ok.1 hrequest
    obtain ⟨ids, hnormal, hlimit⟩ := bind_eq_ok.1 hrequest
    refine check_bind_eq_ok.2 ⟨ensure_of (hschema.trans (ensure_eq_ok.1 hs)), ?_⟩
    refine bind_eq_ok.2 ⟨some ⟨t.utc, 0⟩, ?_, bind_eq_ok.2 ⟨ids, by rw [hids]; exact hnormal, hlimit⟩⟩
    rw [hevaluated]
    refine bind_eq_ok.2 ⟨⟨t.utc, 0⟩, require_eq_ok.2 ?_, rfl⟩
    rw [Rfc3339.trim_format (format_of_formatTimestamp htext)]
    exact parse_of_formatTimestamp htext
  have hmaximum := (lt_window hwindow).2
  have hutc : validityWindow ⟨t.utc, 0⟩ = .ok ⟨maximum'.utc, 0⟩ := by
    refine require_eq_ok.2 ?_
    unfold OffsetDateTime.checkedAdd
    rw [hmaximum] at hwritten ⊢
    have hmin := OffsetDateTime.minLocal_lt
    have hmax := OffsetDateTime.maxLocal_eq
    have hrepresentable : OffsetDateTime.representable
        ⟨t.utc + Retention.hours maxValidityHours, 0⟩ := by
      unfold OffsetDateTime.representable
      rw [Retention.localNanos_utc]
      unfold Retention.written at hwritten
      dsimp only at hwritten
      omega
    exact if_pos hrepresentable
  set identity : PlanIdentity := ⟨contents', request', text, ntext⟩ with hidentity
  have hplan : (⟨identity, MaintenanceDigests.plan identity⟩ : MaintenancePlan).validate = .ok () := by
    refine check_bind_eq_ok.2 ⟨?_, check_bind_eq_ok.2 ⟨?_, ensure_of rfl⟩⟩
    · exact check_bind_eq_ok.2 ⟨hrequest', check_bind_eq_ok.2 ⟨ensure_of hevaluated,
        bind_eq_ok.2 ⟨_, hread _ htext, bind_eq_ok.2 ⟨_, hread _ hntext,
          check_bind_eq_ok.2 ⟨ensure_of hahead, bind_eq_ok.2 ⟨_, hutc, ensure_of hle⟩⟩⟩⟩⟩⟩
    · show contents'.validate request'.recordIds = .ok ()
      rw [hcontents, hids]
      exact hvalid
  have hrun : finishPlan contents' request' t notAfter' =
      ensurePlanSize ⟨identity, MaintenanceDigests.plan identity⟩ >>= fun _ =>
        .ok ⟨identity, MaintenanceDigests.plan identity⟩ := by
    unfold finishPlan
    rw [htext, ok_bind, hntext, ok_bind]
    dsimp only
    rw [← hidentity, hplan, ok_bind]
  rw [hrun]
  by_cases hsize : MaintenanceDigests.planBytes ⟨identity, MaintenanceDigests.plan identity⟩ ≤
      maxSerializedPlanBytes
  · exact Or.inl ⟨_, check_bind_eq_ok.2 ⟨ensure_of hsize, rfl⟩, rfl⟩
  · refine Or.inr ?_
    unfold TooLarge ensurePlanSize
    rw [ensure_of_not hsize]
    rfl

end View

/-! ### The same plan again -/

/-- The second request asks for what the first one asks for, at whatever instant. -/
def SameSelection (request request' : MaintenancePlanRequest) : Prop :=
  request'.schema = request.schema ∧ request'.recordIds = request.recordIds

/-- A later run finds what the plan has and proposes the same, or refuses its artifact for its
size. -/
def StaysAccurate (plan : MaintenancePlan) (later : Fallible MaintenancePlan) : Prop :=
  (∃ plan', later = .ok plan' ∧ plan'.findings = plan.findings ∧
    plan'.actionGroups = plan.actionGroups) ∨ TooLarge later

theorem validateRequest_later {request request' : MaintenancePlanRequest}
    (hsame : SameSelection request request') {now' t : OffsetDateTime}
    (hinstant : evaluationTime request' now' = .ok t) (h : validateRequest request = .ok ()) :
    validateRequest request' = .ok () := by
  obtain ⟨hschema, hids⟩ := hsame
  obtain ⟨hs, h⟩ := check_bind_eq_ok.1 h
  obtain ⟨_, _, h⟩ := bind_eq_ok.1 h
  obtain ⟨ids, hnormal, hlimit⟩ := bind_eq_ok.1 h
  refine check_bind_eq_ok.2 ⟨ensure_of (hschema.trans (ensure_eq_ok.1 hs)), ?_⟩
  have hread : ∃ at_, parseOptional request'.evaluatedAt "maintenance evaluated_at" = .ok at_ := by
    unfold evaluationTime at hinstant
    unfold parseOptional
    cases hevaluated : request'.evaluatedAt with
    | none => exact ⟨_, rfl⟩
    | some value =>
        rw [hevaluated] at hinstant
        exact ⟨some t, bind_eq_ok.2 ⟨t, hinstant, rfl⟩⟩
  obtain ⟨at_, hat⟩ := hread
  exact bind_eq_ok.2 ⟨at_, hat, bind_eq_ok.2 ⟨ids, by rw [hids]; exact hnormal, hlimit⟩⟩

theorem selectRecords_later {request request' : MaintenancePlanRequest}
    (hsame : SameSelection request request') {text text' : String} {ids selected : List String}
    {chosen : MaintenancePlanRequest} (h : selectRecords request text ids = .ok (chosen, selected)) :
    ∃ chosen', selectRecords request' text' ids = .ok (chosen', selected) ∧
      chosen'.schema = chosen.schema ∧ chosen'.recordIds = chosen.recordIds ∧
      chosen'.evaluatedAt = some text' := by
  obtain ⟨hschema, hids⟩ := hsame
  obtain ⟨recordIds, hnormal, h⟩ := bind_eq_ok.1 h
  obtain ⟨hall, h⟩ := check_bind_eq_ok.1 h
  cases h
  refine ⟨_, bind_eq_ok.2 ⟨recordIds, by rw [hids]; exact hnormal,
    check_bind_eq_ok.2 ⟨hall, rfl⟩⟩, hschema, rfl, rfl⟩

/-- The end a plan names, as it is read back. -/
theorem notAfter_of_finish [MaintenanceDigests] {contents : PlanContents}
    {request : MaintenancePlanRequest} {e notAfter n : OffsetDateTime} {plan : MaintenancePlan}
    (h : finishPlan contents request e notAfter = .ok plan)
    (hn : Rfc3339.parse plan.notAfter = some n) : n.utc = notAfter.utc ∧ Retention.written notAfter := by
  obtain ⟨_, hnotAfter, _⟩ := finishPlan_eq_ok h
  rw [parse_of_formatTimestamp hnotAfter] at hn
  rw [← Option.some.inj hn]
  exact ⟨rfl, Retention.formatTimestamp_ok_iff.1 ⟨_, hnotAfter⟩⟩

/-- An instant between two that can be written can be written. -/
theorem written_between {e t n : OffsetDateTime} {text : String} (h : formatTimestamp e = .ok text)
    (hn : Retention.written n) (hle : e ≤ t) (hlt : t < n) :
    ∃ text', formatTimestamp t = .ok text' := by
  refine Retention.formatTimestamp_ok_iff.2 ?_
  have he : Retention.written e := Retention.formatTimestamp_ok_iff.1 ⟨text, h⟩
  unfold Retention.written at he hn ⊢
  simp only [OffsetDateTime.le_def, OffsetDateTime.lt_def] at hle hlt
  omega

section Private

variable [Text.Unicode] [MaintenanceDigests]

/-- Nothing the private detectors wait for happens after the first instant and up to the second,
apart from the ends the plan counts: no record comes in that was updated too late, none of those
passes its boundary, and no accepted review becomes due. -/
structure PrivateQuiet (db : Db) (e t : OffsetDateTime) : Prop where
  updates : ∀ r ∈ recordsForPreservation db, ∀ f,
    parseTimestamp r.updatedAt "maintenance record updated_at" = .ok f → e < f → t < f
  boundaries : ∀ r s d f, LoadsAs db e r s d f → e < f → Undisturbed d.retention e t
  reviews : ∀ r s d f, LoadsAs db e r s d f → f ≤ e → ∀ capture, capture? db r.id = some capture →
    (capture.reviewOutcome = .accept ∨ capture.reviewOutcome = .edit) →
    ∀ reviewedAt, Rfc3339.parse (Text.trim capture.reviewedAt) = some reviewedAt →
      e < reviewedAt → t < reviewedAt

variable {fingerprint : String} {db : Db} {request request' : MaintenancePlanRequest}
  {now now' e t n : OffsetDateTime} {plan : MaintenancePlan}
  {authority : MaintenanceAuthoritySnapshot} {selected : List String}
  {loaded : List PrivateLoadedRecord} {detected : List Detected} {notAfter : OffsetDateTime}

omit [Text.Unicode] [MaintenanceDigests] in
theorem ofNotLe {a b : OffsetDateTime} (h : ¬ a ≤ b) : b < a := by
  simp only [OffsetDateTime.le_def, OffsetDateTime.lt_def] at h ⊢
  omega

/-- Every record is judged as before. -/
theorem undisturbed_of_quiet
    (run : PlanRun fingerprint db request now plan e authority selected loaded detected notAfter)
    (hlt : t < notAfter) (hquiet : PrivateQuiet db e t) {r : MemoryRecord}
    {s : PrivateLifecycleState} {d : CurrentAssertionDecision} {f : OffsetDateTime}
    (hloads : LoadsAs db e r s d f) : Undisturbed d.retention e t := by
  by_cases hf : f ≤ e
  · -- the boundary of a record that is not too fresh is an end of the plan
    intro text b hboundary hparse hahead
    obtain ⟨maximum, _, hnotAfter⟩ := run.ends
    have hmem := (run.mem_loaded (loadedOf db selected e r s d f)).2 ⟨r, s, d, f, hloads, rfl⟩
    obtain ⟨ends, hends⟩ := ends_total hnotAfter hmem
    have hb : b ∈ ends := by
      obtain ⟨boundary, hread, hrest⟩ := bind_eq_ok.1 hends
      obtain ⟨stale, _, hrest⟩ := bind_eq_ok.1 hrest
      rw [← Except.ok.inj hrest]
      refine List.mem_append_left _ ?_
      have heligible : (loadedOf db selected e r s d f).eligibleAtEvaluation = true :=
        decide_eq_true hf
      rw [if_pos heligible]
      have hsome : (loadedOf db selected e r s d f).snapshot.retentionBoundary = some text := hboundary
      rw [hsome] at hread
      obtain ⟨b', hb', hread⟩ := bind_eq_ok.1 hread
      have hparse' : Rfc3339.parse (Text.trim text) = some b' := require_eq_ok.1 hb'
      rw [Rfc3339.trim_of_parse hparse, hparse] at hparse'
      rw [← Except.ok.inj hread, Option.some.inj hparse']
      exact List.mem_singleton.2 rfl
    have hend := notAfter_le_end hnotAfter hmem hends hb hahead
    simp only [OffsetDateTime.le_def, OffsetDateTime.lt_def] at hend hlt ⊢
    omega
  · exact hquiet.boundaries r s d f hloads (ofNotLe hf)

/-- The service hands on what it handed on before. -/
theorem privateInput_later
    (run : PlanRun fingerprint db request now plan e authority selected loaded detected notAfter)
    (hle : e ≤ t) (hlt : t < notAfter) (hquiet : PrivateQuiet db e t) {r : MemoryRecord}
    (hr : r ∈ recordsForPreservation db) : privateInput db t r = privateInput db e r := by
  obtain ⟨s, d, f, hloads⟩ := run.loads r hr
  have hlater : baseCurrentAssertion db r s.toLifecycleFacts t = .ok d := by
    obtain ⟨hverified, hdecision⟩ := check_bind_eq_ok.1 hloads.decision
    exact check_bind_eq_ok.2 ⟨hverified, Retention.evaluatePrivate_later hle hdecision
      (undisturbed_of_quiet run hlt hquiet hloads)⟩
  have hstate : db.requireState r.id = .ok s := require_eq_ok.2 hloads.state
  unfold privateInput
  simp only [hstate, ok_bind, hlater, hloads.decision]

omit [Text.Unicode] [MaintenanceDigests] in
/-- The planner reads the instant the service reads. -/
theorem evaluationTime_of_snapshot (h : snapshotTime request' now' = .ok t) :
    evaluationTime request' now' = .ok t := by
  unfold snapshotTime at h
  unfold evaluationTime
  cases hevaluated : request'.evaluatedAt with
  | none =>
      rw [hevaluated] at h
      exact h
  | some value =>
      rw [hevaluated] at h
      have hparse : Rfc3339.parse value = some t := require_eq_ok.1 h
      refine require_eq_ok.2 ?_
      rw [Rfc3339.trim_of_parse hparse, hparse]

/-- The planner loads what it loaded before. -/
theorem loadPrivateRecord_later (hle : e ≤ t) (selected : List String)
    {input : PrivateMaintenanceRecordInput}
    (hquiet : ∀ f, parseTimestamp input.record.updatedAt "maintenance record updated_at" = .ok f →
      e < f → t < f) :
    loadPrivateRecord selected t input = loadPrivateRecord selected e input := by
  unfold loadPrivateRecord
  cases hf : parseTimestamp input.record.updatedAt "maintenance record updated_at" with
  | error failure => rfl
  | ok f =>
      have hsame : decide (f ≤ t) = decide (f ≤ e) := by
        have hahead := hquiet f hf
        simp only [OffsetDateTime.le_def, OffsetDateTime.lt_def] at hle hahead ⊢
        exact decide_eq_decide.2 (by omega)
      simp only [hsame, ok_bind]

theorem private_plan_later (hplan : planPrivateLifecycle fingerprint db request now = .ok plan)
    (hinstant : snapshotTime request now = .ok e) (hsame : SameSelection request request')
    (hinstant' : snapshotTime request' now' = .ok t) (hle : e ≤ t)
    (hn : Rfc3339.parse plan.notAfter = some n) (hlt : t < n) (hquiet : PrivateQuiet db e t)
    (hwindow : WindowWritten t) :
    StaysAccurate plan (planPrivateLifecycle fingerprint db request' now') := by
  obtain ⟨e', authority', _, loaded', detected', notAfter', run⟩ := planPrivateLifecycle_run hplan
  cases (snapshotTime_unique hinstant run.instant)
  have hltRun : t < notAfter' := by
    rw [parse_of_formatTimestamp run.notAfterText] at hn
    rw [← Option.some.inj hn] at hlt
    exact hlt
  unfold planPrivateLifecycle at hplan
  obtain ⟨hcount, hplan⟩ := check_bind_eq_ok.1 hplan
  obtain ⟨e₁, he₁, hplan⟩ := bind_eq_ok.1 hplan
  cases hinstant.symm.trans he₁
  obtain ⟨inputs, hinputs, hplan⟩ := bind_eq_ok.1 hplan
  obtain ⟨authority, hauthority, hplan⟩ := bind_eq_ok.1 hplan
  unfold planPrivateMaintenanceInner at hplan
  obtain ⟨hrequest, hplan⟩ := check_bind_eq_ok.1 hplan
  obtain ⟨hidentity, hplan⟩ := check_bind_eq_ok.1 hplan
  obtain ⟨hlimit, hplan⟩ := check_bind_eq_ok.1 hplan
  obtain ⟨e₂, he₂, hplan⟩ := bind_eq_ok.1 hplan
  cases run.instant.symm.trans he₂
  obtain ⟨eText, heText, hplan⟩ := bind_eq_ok.1 hplan
  obtain ⟨hsorted, hplan⟩ := check_bind_eq_ok.1 hplan
  obtain ⟨⟨chosen, selected⟩, hselect, hplan⟩ := bind_eq_ok.1 hplan
  obtain ⟨maximum, hmaximum, hplan⟩ := bind_eq_ok.1 hplan
  obtain ⟨loaded, hloaded, hplan⟩ := bind_eq_ok.1 hplan
  obtain ⟨notAfter, hnotAfter, hplan⟩ := bind_eq_ok.1 hplan
  obtain ⟨detected, hdetected, hplan⟩ := bind_eq_ok.1 hplan
  obtain ⟨hlimits, hplan⟩ := check_bind_eq_ok.1 hplan
  obtain ⟨hutc, hwritten⟩ := notAfter_of_finish hplan hn
  have hltEnd : t < notAfter := by
    simp only [OffsetDateTime.lt_def] at hlt ⊢
    omega
  -- the service and the planner load the same records again
  have hinputs' : mapAll (privateInput db t) (recordsForPreservation db) = .ok inputs := by
    rw [← hinputs]
    exact mapAll_congr fun r hr => privateInput_later run hle hltRun hquiet hr
  have hmem : ∀ input ∈ inputs.insertionSort (fun a b => a.record.id ≤ b.record.id),
      ∃ r s d f, LoadsAs db e r s d f ∧ input = inputOf db r s d := by
    intro input hinput
    rw [List.mem_insertionSort] at hinput
    obtain ⟨r, hr, hok⟩ := (mem_of_mapAll hinputs input).1 hinput
    obtain ⟨s, d, f, hloads⟩ := run.loads r hr
    obtain ⟨_, s', d', hs', hd', rfl⟩ := privateInput_eq_ok hok
    cases hloads.state.symm.trans hs'
    cases hloads.decision.symm.trans hd'
    exact ⟨r, s, d, f, hloads, rfl⟩
  have hloaded' : mapAll (loadPrivateRecord selected t)
      (inputs.insertionSort (fun a b => a.record.id ≤ b.record.id)) = .ok loaded := by
    rw [← hloaded]
    refine mapAll_congr fun input hinput => ?_
    obtain ⟨r, s, d, f, hloads, rfl⟩ := hmem input hinput
    exact loadPrivateRecord_later hle selected (hquiet.updates r hloads.mem)
  have hloads : ∀ l ∈ loaded, ∃ r s d f, LoadsAs db e r s d f ∧ l = loadedOf db selected e r s d f := by
    intro l hl
    obtain ⟨input, hinput, hok⟩ := (mem_of_mapAll hloaded l).1 hl
    obtain ⟨r, s, d, f, hloads, rfl⟩ := hmem input hinput
    obtain ⟨f', hf', rfl⟩ := loadPrivateRecord_eq_ok hok
    cases hloads.freshness.symm.trans hf'
    exact ⟨r, s, d, f, hloads, rfl⟩
  have hmarked : ∀ l ∈ loaded, l.snapshot.currentAssertion = true → l.eligibleAtEvaluation = true := by
    intro l hl hcurrent
    obtain ⟨r, s, d, f, _, rfl⟩ := hloads l hl
    exact (Bool.and_eq_true_iff.1 hcurrent).2
  have hreviews : ReviewsQuiet loaded e t := by
    intro l hl heligible capture hcapture haccepted reviewedAt hparse hahead
    obtain ⟨r, s, d, f, hloads, rfl⟩ := hloads l hl
    exact hquiet.reviews r s d f hloads (of_decide_eq_true heligible) capture hcapture haccepted
      reviewedAt hparse hahead
  have hdetected' : detectPrivate loaded selected t
      (decide (authority.mode = .automaticPrivateMaintenance)) = .ok detected := by
    have hrenewals : ∀ digest, detectPrivateRenewals loaded selected t digest =
        detectPrivateRenewals loaded selected e digest :=
      fun digest => detectRenewalsWith_later hle hreviews selected _ _
    rw [← hdetected]
    unfold detectPrivate
    simp only [detectStaleness_later hle hltEnd hnotAfter hmarked, hrenewals]
  -- and the artifact passes its check again
  obtain ⟨text, htext⟩ := written_between heText hwritten hle hltEnd
  obtain ⟨maximum', hmaximum', hwrittenMax⟩ := hwindow
  have hviews : SameViews loaded loaded :=
    List.forall₂_same.2 fun l hl => SameView.refl (hmarked l hl)
  obtain ⟨notAfter₂, hnotAfter₂, hahead, hbound⟩ :=
    notAfterOf_later hnotAfter hviews (lt_window hmaximum').1
  obtain ⟨chosen', hselect', hschema, hids, hevaluated⟩ := selectRecords_later hsame hselect
  have hfinish := finishPlan_later hplan (fun _ => rfl) hschema hids htext hevaluated hmaximum'
    hwrittenMax hahead hbound
  have hrun : planPrivateLifecycle fingerprint db request' now' =
      finishPlan (planContents (.privateRuntime fingerprint) authority loaded
        (attachActions detected).1 ⟨[], (attachActions detected).2.1, (attachActions detected).2.2⟩)
        chosen' t notAfter₂ := by
    have hinstant'' := evaluationTime_of_snapshot hinstant'
    unfold planPrivateLifecycle planPrivateMaintenanceInner
    simp only [hcount, hinstant', hinputs', hauthority, validateRequest_later hsame hinstant'' hrequest,
      hidentity, hlimit, hinstant'', htext, hsorted, hselect', hmaximum', hloaded', hnotAfter₂,
      hdetected', hlimits, ok_bind]
  have hcontents := (finishPlan_eq_ok hplan).2.2.1
  rw [hrun]
  rcases hfinish with ⟨plan', hplan', hcontents'⟩ | hlarge
  · have hsame : plan'.toPlanContents = plan.toPlanContents := hcontents'.trans hcontents.symm
    exact Or.inl ⟨plan', hplan', congrArg PlanContents.findings hsame,
      congrArg PlanContents.actionGroups hsame⟩
  · exact Or.inr hlarge

end Private

section Repository

variable [Text.Unicode] [MaintenanceDigests] [CanonicalRevisions]

/-- No canonical record becomes fresh enough after the first instant and up to the second. -/
def RepositoryQuiet (source : List OkfRecordSnapshot) (e t : OffsetDateTime) : Prop :=
  ∀ s ∈ source, ∀ f, recordFreshness s.record = .ok f → e < f → t < f

variable {fingerprint : String} {source : List OkfRecordSnapshot}
  {request request' : MaintenancePlanRequest} {now now' e t n : OffsetDateTime}
  {plan : MaintenancePlan} {selected : List String} {l : RepositoryLoadedRecord}
  {s : OkfRecordSnapshot}

/-- What a canonical record is loaded as. -/
theorem loadRecord_eq_ok (h : loadRecord selected e s = .ok l) :
    ∃ d f, evaluateCurrentAssertion s.record.conceptId s.record.status s.record.draft.lane
        s.record.retention e [] = .ok d ∧ recordFreshness s.record = .ok f ∧
      l = ⟨repositorySnapshot selected s d (decide (f ≤ e)), s.record, duplicateClaimDigest s.record,
        renewalClaimDigest s.record, f, decide (f ≤ e)⟩ := by
  obtain ⟨_, h⟩ := check_bind_eq_ok.1 h
  obtain ⟨d, hd, h⟩ := bind_eq_ok.1 h
  obtain ⟨f, hf, h⟩ := bind_eq_ok.1 h
  cases h
  exact ⟨d, f, hd, hf, rfl⟩

omit [Text.Unicode] [MaintenanceDigests] [CanonicalRevisions] in
/-- A record is at least as fresh as its accepted review. -/
theorem reviewed_le_freshness {record : OkfRecordFile} {f : OffsetDateTime}
    (h : recordFreshness record = .ok f) {capture : CaptureProvenance}
    (hcapture : record.capture = some capture)
    (haccepted : capture.reviewOutcome = .accept ∨ capture.reviewOutcome = .edit)
    {reviewedAt : OffsetDateTime}
    (hparse : Rfc3339.parse (Text.trim capture.reviewedAt) = some reviewedAt) : reviewedAt ≤ f := by
  obtain ⟨freshness, _, h⟩ := bind_eq_ok.1 h
  obtain ⟨read, hread, h⟩ := bind_eq_ok.1 h
  have hreview : acceptedReview record.capture = some capture.reviewedAt := by
    unfold acceptedReview
    rw [hcapture]
    rcases haccepted with haccepted | haccepted <;> simp [haccepted]
  rw [hreview] at hread
  obtain ⟨reviewed, hreviewed, hread⟩ := bind_eq_ok.1 hread
  have hsame : reviewed = reviewedAt :=
    Option.some.inj ((require_eq_ok.1 hreviewed).symm.trans hparse)
  cases hread
  cases h
  rw [hsame]
  show reviewedAt ≤ if freshness < reviewedAt then reviewedAt else freshness
  split
  · exact le_refl reviewedAt.utc
  · rename_i hnot
    simp only [OffsetDateTime.lt_def, OffsetDateTime.le_def] at hnot ⊢
    omega

/-- A record is loaded again, and shown the same. -/
theorem loadRecord_later (hle : e ≤ t) (h : loadRecord selected e s = .ok l)
    (hquiet : ∀ f, recordFreshness s.record = .ok f → e < f → t < f)
    (hboundary : l.eligibleAtEvaluation = true → ∀ text b, l.snapshot.retentionBoundary = some text →
      Rfc3339.parse text = some b → e < b → t < b) :
    ∃ l', loadRecord selected t s = .ok l' ∧ SameView l l' := by
  have hvalid := (check_bind_eq_ok.1 h).1
  obtain ⟨d, f, hd, hf, rfl⟩ := loadRecord_eq_ok h
  obtain ⟨d', hd', hsameBoundary, hreason, hsame⟩ := Retention.evaluateCurrent_total hle hd
  have hfresh : decide (f ≤ t) = decide (f ≤ e) := by
    have hahead := hquiet f hf
    simp only [OffsetDateTime.le_def, OffsetDateTime.lt_def] at hle hahead ⊢
    exact decide_eq_decide.2 (by omega)
  refine ⟨_, check_bind_eq_ok.2 ⟨hvalid, bind_eq_ok.2 ⟨d', hd', bind_eq_ok.2 ⟨f, hf, rfl⟩⟩⟩, ?_⟩
  rw [hfresh]
  have hmark : ∀ x : Bool, (x && decide (f ≤ e)) = true → decide (f ≤ e) = true :=
    fun x hx => (Bool.and_eq_true_iff.1 hx).2
  by_cases heligible : f ≤ e
  · rw [hsame (hboundary (decide_eq_true heligible))]
    exact SameView.refl (hmark _)
  · refine ⟨hmark _, ?_, fun hyes => absurd (of_decide_eq_true hyes) heligible⟩
    unfold repositorySnapshot
    rw [decide_eq_false heligible, Bool.and_false, Bool.and_false, hreason, hsameBoundary]

omit [CanonicalRevisions] in
/-- The detectors of the planner find the same on both views, at both instants. -/
theorem detectRepository_later {loaded loaded' : List RepositoryLoadedRecord}
    {maximum notAfter : OffsetDateTime} (hle : e ≤ t) (hlt : t < notAfter)
    (hends : notAfterOf e maximum loaded = .ok notAfter)
    (hmarked : ∀ l ∈ loaded, l.snapshot.currentAssertion = true → l.eligibleAtEvaluation = true)
    (hreviews : ReviewsQuiet loaded e t) (hviews : SameViews loaded loaded')
    (selected : List String) :
    detectRepository loaded' selected t = detectRepository loaded selected e := by
  have hcontradictions : detectContradictions loaded' selected = detectContradictions loaded selected := by
    have hcandidates : repositoryCandidates loaded' = repositoryCandidates loaded := by
      refine filter_sameViews hviews fun l hmarked hl => hmarked ?_
      unfold contradictionEligible at hl
      simp only [Bool.and_eq_true] at hl
      exact hl.1.1.1.1
    unfold detectContradictions
    simp only [hcandidates]
  have hstale : detectStaleness loaded' selected t = detectStaleness loaded selected e := by
    rw [← detectStaleness_later hle hlt hends hmarked selected]
    unfold detectStaleness
    rw [filter_sameViews hviews]
    intro l hmarked hl
    simp only [Bool.and_eq_true] at hl
    exact hmarked hl.1.1.1
  have hrenewals : ∀ digest, detectRenewals loaded' selected t digest =
      detectRenewals loaded selected e digest := by
    intro digest
    refine Eq.trans ?_ (detectRenewalsWith_later hle hreviews selected _ _)
    unfold detectRenewals detectRenewalsWith
    simp only [(renewal_sameViews hviews).1, (renewal_sameViews hviews).2]
  unfold detectRepository detectExactDuplicates
  simp only [comparisonDigest_sameViews hviews, hcontradictions, hstale, hrenewals,
    detectExactDuplicatesWith_sameViews hviews, detectExpiry_sameViews hviews]

theorem repository_plan_later (hplan : planMaintenance fingerprint source request now = .ok plan)
    (hinstant : evaluationTime request now = .ok e) (hsame : SameSelection request request')
    (hinstant' : evaluationTime request' now' = .ok t) (hle : e ≤ t)
    (hn : Rfc3339.parse plan.notAfter = some n) (hlt : t < n) (hquiet : RepositoryQuiet source e t)
    (hwindow : WindowWritten t) :
    StaysAccurate plan (planMaintenance fingerprint source request' now') := by
  unfold planMaintenance at hplan
  obtain ⟨hrequest, hplan⟩ := check_bind_eq_ok.1 hplan
  obtain ⟨e₁, he₁, hplan⟩ := bind_eq_ok.1 hplan
  cases hinstant.symm.trans he₁
  obtain ⟨eText, heText, hplan⟩ := bind_eq_ok.1 hplan
  obtain ⟨⟨chosen, selected⟩, hselect, hplan⟩ := bind_eq_ok.1 hplan
  obtain ⟨maximum, hmaximum, hplan⟩ := bind_eq_ok.1 hplan
  obtain ⟨unsorted, hloaded, hplan⟩ := bind_eq_ok.1 hplan
  obtain ⟨notAfter, hnotAfter, hplan⟩ := bind_eq_ok.1 hplan
  obtain ⟨detected, hdetected, hplan⟩ := bind_eq_ok.1 hplan
  obtain ⟨hlimits, hplan⟩ := check_bind_eq_ok.1 hplan
  obtain ⟨hutc, hwritten⟩ := notAfter_of_finish hplan hn
  have hltEnd : t < notAfter := by
    simp only [OffsetDateTime.lt_def] at hlt ⊢
    omega
  have hsource : ∀ l ∈ unsorted.insertionSort (fun a b => a.id ≤ b.id),
      ∃ s ∈ source, loadRecord selected e s = .ok l := by
    intro l hl
    rw [List.mem_insertionSort] at hl
    exact (mem_of_mapAll hloaded l).1 hl
  -- every record is loaded again, and shown the same
  have hviewOf : ∀ l ∈ unsorted, ∀ s ∈ source, loadRecord selected e s = .ok l →
      ∃ l', loadRecord selected t s = .ok l' ∧ SameView l l' := by
    intro l hl s hs hok
    refine loadRecord_later hle hok (hquiet s hs) ?_
    intro heligible text b hboundary hparse hahead
    have hmem : l ∈ unsorted.insertionSort (fun a b => a.id ≤ b.id) :=
      (List.mem_insertionSort _).2 hl
    obtain ⟨ends, hends⟩ := ends_total hnotAfter hmem
    have hb : b ∈ ends := by
      obtain ⟨boundary, hread, hrest⟩ := bind_eq_ok.1 hends
      obtain ⟨stale, _, hrest⟩ := bind_eq_ok.1 hrest
      rw [← Except.ok.inj hrest]
      refine List.mem_append_left _ ?_
      rw [if_pos heligible]
      rw [hboundary] at hread
      obtain ⟨b', hb', hread⟩ := bind_eq_ok.1 hread
      have hparse' : Rfc3339.parse (Text.trim text) = some b' := require_eq_ok.1 hb'
      rw [Rfc3339.trim_of_parse hparse, hparse] at hparse'
      rw [← Except.ok.inj hread, Option.some.inj hparse']
      exact List.mem_singleton.2 rfl
    have hend := notAfter_le_end hnotAfter hmem hends hb hahead
    simp only [OffsetDateTime.le_def, OffsetDateTime.lt_def] at hend hltEnd ⊢
    omega
  obtain ⟨unsorted', hloaded', hunsorted⟩ : ∃ unsorted', mapAll (loadRecord selected t) source =
      .ok unsorted' ∧ SameViews unsorted unsorted' := mapAll_related hloaded hviewOf
  have hviews := insertionSort_sameViews hunsorted
  have hmarked : ∀ l ∈ unsorted.insertionSort (fun a b => a.id ≤ b.id),
      l.snapshot.currentAssertion = true → l.eligibleAtEvaluation = true := by
    intro l hl hcurrent
    obtain ⟨s, _, hok⟩ := hsource l hl
    obtain ⟨d, f, _, _, rfl⟩ := loadRecord_eq_ok hok
    exact (Bool.and_eq_true_iff.1 hcurrent).2
  -- a record is no fresher than its accepted review, so no review lies ahead of an eligible one
  have hreviews : ReviewsQuiet (unsorted.insertionSort (fun a b => a.id ≤ b.id)) e t := by
    intro l hl heligible capture hcapture haccepted reviewedAt hparse hahead
    obtain ⟨s, _, hok⟩ := hsource l hl
    obtain ⟨d, f, _, hf, rfl⟩ := loadRecord_eq_ok hok
    have hreviewed := reviewed_le_freshness hf hcapture haccepted hparse
    have heligible : f ≤ e := of_decide_eq_true heligible
    simp only [OffsetDateTime.le_def, OffsetDateTime.lt_def] at hreviewed heligible hahead
    omega
  have hdetected' := (detectRepository_later hle hltEnd hnotAfter hmarked hreviews hviews
    selected).trans hdetected
  obtain ⟨text, htext⟩ := written_between heText hwritten hle hltEnd
  obtain ⟨maximum', hmaximum', hwrittenMax⟩ := hwindow
  obtain ⟨notAfter₂, hnotAfter₂, hahead, hbound⟩ :=
    notAfterOf_later hnotAfter hviews (lt_window hmaximum').1
  obtain ⟨chosen', hselect', hschema, hids, hevaluated⟩ := selectRecords_later hsame hselect
  have hfinish := finishPlan_later hplan (validate_sameViews hviews _ _ _ _) hschema hids htext
    hevaluated hmaximum' hwrittenMax hahead hbound
  have hrun : planMaintenance fingerprint source request' now' =
      finishPlan (planContents (.repository fingerprint)
        ⟨.reportOnly, MaintenanceDigests.reportOnlyGrant⟩
        (unsorted'.insertionSort (fun a b => a.id ≤ b.id)) (attachActions detected).1
        ⟨(attachActions detected).2.2, [], []⟩) chosen' t notAfter₂ := by
    unfold planMaintenance
    simp only [validateRequest_later hsame hinstant' hrequest, hinstant', htext, hselect',
      hmaximum', hloaded', hnotAfter₂, hdetected', hlimits, ok_bind]
  have hcontents := (finishPlan_eq_ok hplan).2.2.1
  rw [hrun]
  rcases hfinish with ⟨plan', hplan', hcontents'⟩ | hlarge
  · refine Or.inl ⟨plan', hplan', ?_, ?_⟩
    · rw [hcontents', hcontents]
      rfl
    · rw [hcontents', hcontents]
      rfl
  · exact Or.inr hlarge

/-- **A plan stays accurate** until its end, of private records and of canonical ones, as long as
nothing comes in that was too fresh for it. -/
theorem plans_stay_accurate :
    (∀ {fingerprint : String} {db : Db} {request request' : MaintenancePlanRequest}
      {now now' e t n : OffsetDateTime} {plan : MaintenancePlan},
      planPrivateLifecycle fingerprint db request now = .ok plan →
      snapshotTime request now = .ok e → SameSelection request request' →
      snapshotTime request' now' = .ok t → e ≤ t →
      Rfc3339.parse plan.notAfter = some n → t < n → PrivateQuiet db e t → WindowWritten t →
      StaysAccurate plan (planPrivateLifecycle fingerprint db request' now')) ∧
    ∀ {fingerprint : String} {source : List OkfRecordSnapshot}
      {request request' : MaintenancePlanRequest} {now now' e t n : OffsetDateTime}
      {plan : MaintenancePlan}, planMaintenance fingerprint source request now = .ok plan →
      evaluationTime request now = .ok e → SameSelection request request' →
      evaluationTime request' now' = .ok t → e ≤ t →
      Rfc3339.parse plan.notAfter = some n → t < n → RepositoryQuiet source e t → WindowWritten t →
      StaysAccurate plan (planMaintenance fingerprint source request' now') :=
  ⟨fun hplan hinstant hsame hinstant' hle hn hlt hquiet hwindow =>
      private_plan_later hplan hinstant hsame hinstant' hle hn hlt hquiet hwindow,
    fun hplan hinstant hsame hinstant' hle hn hlt hquiet hwindow =>
      repository_plan_later hplan hinstant hsame hinstant' hle hn hlt hquiet hwindow⟩

end Repository

/-! ### Planned at one, and again at three -/

/-- Three in the afternoon. -/
def lateAfternoon : OffsetDateTime := ⟨1784041200000000000, 0⟩

/-- The expired decision and its renewal, captured at ten and reviewed at some instant. -/
def renewedAt (reviewedAt : String) : Db :=
  { expiredAndRenewed none with
    captures := ⟨[⟨"evidence", ⟨"review", .accept, reviewedAt, ""⟩⟩], by simp⟩ }

def planRenewedAt (reviewedAt : String) (now : OffsetDateTime) : Fallible MaintenancePlan :=
  @planPrivateLifecycle Text.Unicode.ascii plainDigests
    "blake3:0000000000000000000000000000000000000000000000000000000000000000"
    (renewedAt reviewedAt) ⟨requestSchema, none, []⟩ now

@[reducible] def plainRevisions : CanonicalRevisions := ⟨fun r => r.conceptId⟩

/-- A canonical decision, last updated at some instant. -/
def canonicalDecision (id updated : String) : OkfRecordSnapshot :=
  ⟨".memzoi/records/" ++ id ++ ".md",
    { conceptId := id
      draft := ⟨.decision, .semantic, .repo, none, .repo, "Retry policy", "Retry twice", [], none,
        none, .repoSafe, .generalRepoKnowledge, 1⟩
      status := .active
      appliesTo := []
      created := "2026-07-14T10:00:00Z"
      updated := some updated
      supersedesId := none
      retention := ⟨none, none, none, none, none, none⟩
      origin := ⟨"origin-" ++ id, .repositoryProposal⟩
      lineage := none
      proposalId := none
      capture := none
      materialization := none }⟩

def planDecisions (updated : String) (now : OffsetDateTime) : Fallible MaintenancePlan :=
  @planMaintenance Text.Unicode.ascii plainDigests plainRevisions
    "blake3:0000000000000000000000000000000000000000000000000000000000000000"
    [canonicalDecision "first" "2026-07-14T10:00:00Z", canonicalDecision "second" updated]
    ⟨requestSchema, none, []⟩ now

theorem windowWritten_lateAfternoon : WindowWritten lateAfternoon :=
  ⟨⟨1784127600000000000, 0⟩, by decide, by decide⟩

/-- With everything updated and reviewed before the first plan, both plans stay accurate. -/
theorem plans_of_the_afternoon :
    (∃ plan, planRenewedAt "2026-07-14T12:00:00Z" afternoon = .ok plan ∧
      StaysAccurate plan (planRenewedAt "2026-07-14T12:00:00Z" lateAfternoon)) ∧
    ∃ plan, planDecisions "2026-07-14T10:00:00Z" afternoon = .ok plan ∧
      StaysAccurate plan (planDecisions "2026-07-14T10:00:00Z" lateAfternoon) := by
  have hprivate : ((planRenewedAt "2026-07-14T12:00:00Z" afternoon).toOption.any fun plan =>
      Rfc3339.parse plan.notAfter = some ⟨1784120400000000000, 0⟩) = true := by decide +kernel
  have hrepository : ((planDecisions "2026-07-14T10:00:00Z" afternoon).toOption.any fun plan =>
      Rfc3339.parse plan.notAfter = some ⟨1784120400000000000, 0⟩) = true := by decide +kernel
  have hten : parseTimestamp "2026-07-14T10:00:00Z" "maintenance record updated_at" =
      .ok ⟨1784023200000000000, 0⟩ := by decide +kernel
  constructor
  · cases hplan : planRenewedAt "2026-07-14T12:00:00Z" afternoon with
    | error failure =>
        rw [hplan] at hprivate
        cases hprivate
    | ok plan =>
        rw [hplan] at hprivate
        have hupdated : ∀ r ∈ recordsForPreservation (renewedAt "2026-07-14T12:00:00Z"),
            r.updatedAt = "2026-07-14T10:00:00Z" := by decide +kernel
        have hbefore : ∀ r ∈ recordsForPreservation (renewedAt "2026-07-14T12:00:00Z"), ∀ f,
            parseTimestamp r.updatedAt "maintenance record updated_at" = .ok f →
            ¬ afternoon < f := by
          intro r hr f hf
          rw [hupdated r hr, hten] at hf
          cases hf
          decide
        refine ⟨plan, rfl, (@plans_stay_accurate Text.Unicode.ascii plainDigests plainRevisions).1
          hplan rfl ⟨rfl, rfl⟩ rfl (by decide) (of_decide_eq_true hprivate) (by decide) ⟨?_, ?_, ?_⟩
          windowWritten_lateAfternoon⟩
        · exact fun r hr f hf hlate => absurd hlate (hbefore r hr f hf)
        · exact fun r s d f hloads hlate => absurd hlate (hbefore r hloads.mem f hloads.freshness)
        · intro r s d f hloads _ capture hcapture _ reviewedAt hparse hahead
          have hreviews : ∀ r ∈ recordsForPreservation (renewedAt "2026-07-14T12:00:00Z"),
              ∀ c ∈ (capture? (renewedAt "2026-07-14T12:00:00Z") r.id).toList,
                c.reviewedAt = "2026-07-14T12:00:00Z" := by decide +kernel
          have hnoon : Rfc3339.parse (Text.trim "2026-07-14T12:00:00Z") =
              some ⟨1784030400000000000, 0⟩ := by decide +kernel
          rw [hreviews r hloads.mem capture (by rw [hcapture]; exact List.mem_singleton.2 rfl),
            hnoon] at hparse
          cases hparse
          exact absurd hahead (by decide)
  · cases hplan : planDecisions "2026-07-14T10:00:00Z" afternoon with
    | error failure =>
        rw [hplan] at hrepository
        cases hrepository
    | ok plan =>
        rw [hplan] at hrepository
        refine ⟨plan, rfl, (@plans_stay_accurate Text.Unicode.ascii plainDigests plainRevisions).2
          hplan rfl ⟨rfl, rfl⟩ rfl (by decide) (of_decide_eq_true hrepository) (by decide) ?_
          windowWritten_lateAfternoon⟩
        intro s hs f hf hahead
        have hfresh : recordFreshness s.record = .ok ⟨1784023200000000000, 0⟩ := by
          rcases List.mem_cons.1 hs with rfl | hs
          · decide +kernel
          · rw [List.mem_singleton.1 hs]
            decide +kernel
        cases hfresh.symm.trans hf
        exact absurd hahead (by decide)

/-- A review at two, or an update at two, is in neither plan's end, and a finding comes in with it. -/
theorem late_review_and_late_update :
    (afternoon ≤ lateAfternoon ∧ lateAfternoon < ⟨1784120400000000000, 0⟩) ∧
    (∃ plan, planRenewedAt "2026-07-14T14:00:00Z" afternoon = .ok plan ∧
      Rfc3339.parse plan.notAfter = some ⟨1784120400000000000, 0⟩ ∧
      ¬ StaysAccurate plan (planRenewedAt "2026-07-14T14:00:00Z" lateAfternoon)) ∧
    ∃ plan, planDecisions "2026-07-14T14:00:00Z" afternoon = .ok plan ∧
      Rfc3339.parse plan.notAfter = some ⟨1784120400000000000, 0⟩ ∧
      ¬ StaysAccurate plan (planDecisions "2026-07-14T14:00:00Z" lateAfternoon) := by
  -- the later plan has another number of findings
  have hdiffers : ∀ {x y : Fallible MaintenancePlan}, (x.toOption.any fun plan =>
      Rfc3339.parse plan.notAfter = some ⟨1784120400000000000, 0⟩ &&
        y.toOption.any fun plan' => plan'.findings.length ≠ plan.findings.length) = true →
      ∃ plan, x = .ok plan ∧ Rfc3339.parse plan.notAfter = some ⟨1784120400000000000, 0⟩ ∧
        ¬ StaysAccurate plan y := by
    intro x y h
    cases x with
    | error failure => cases h
    | ok plan =>
        obtain ⟨hparse, h⟩ := Bool.and_eq_true_iff.1 h
        refine ⟨plan, rfl, of_decide_eq_true hparse, ?_⟩
        rintro (⟨plan', rfl, hfindings, _⟩ | hlarge)
        · have hlength := of_decide_eq_true h
          rw [hfindings] at hlength
          exact hlength rfl
        · rw [hlarge] at h
          cases h
  exact ⟨by decide, hdiffers (by decide +kernel), hdiffers (by decide +kernel)⟩

end Maintenance
end Memzoi
