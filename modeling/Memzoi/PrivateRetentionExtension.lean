/-
# Private recall extends the base policy

Source: `retention.rs`, `evaluate_private_current_assertion_decision` against
`evaluate_retention_inner`.

Without overrides the private evaluator computes the boundary of the record a
second time, by other code, and with them it takes the earlier of two clocks.
It agrees with the base evaluator (`Conservative`) on every record but one kind:
it also adds the ninety days of the recall cap to an episode that has no
override to compare with them, and refuses the record when they leave the
calendar (`conservative_iff`).
-/

import Memzoi.RetentionPanics

namespace Memzoi
namespace Retention

open Fallible OffsetDateTime

/-- A lifecycle row without overrides and without quarantine. -/
def noLifecycle : PrivateLifecycleReadFacts := ⟨none, none, none, none, false, none⟩

/-- The instant of the boundary a decision names. -/
def boundaryAt (d : RetentionDecision) : Option Int :=
  (instant? d.effectiveBoundary).map (·.utc)

/-- The instants of the clocks a record is decided by. -/
def clocks (facts : RetentionFacts) (lifecycle : PrivateLifecycleReadFacts) : List Int :=
  ((recallClock facts lifecycle).toList ++ (validityClock facts lifecycle).toList).map (·.utc)

/-- The private evaluator extends the base evaluator on these facts: it gives the base decision
without a lifecycle; accepted overrides, which a session has none of, never move the boundary to an
earlier instant, and the boundary is then the earlier of the two clocks; a record is query-only from
its boundary on, and stays so. -/
structure Conservative (lane : MemoryLane) (facts : RetentionFacts) : Prop where
  unchanged : ∀ recordId status t base, evaluateRetention recordId lane facts t = .ok base →
    ∃ d, evaluatePrivateCurrentAssertionDecision recordId status lane facts t noLifecycle = .ok d ∧
      d.retention = base
  never_earlier : ∀ recordId status lifecycle t d,
    evaluatePrivateCurrentAssertionDecision recordId status lane facts t lifecycle = .ok d →
      ∃ base, evaluateRetention recordId lane facts t = .ok base ∧
        ∀ b ∈ boundaryAt d.retention, ∃ b₀ ∈ boundaryAt base, b₀ ≤ b
  session_fixed : lane = .session → ∀ recordId status lifecycle t d,
    evaluatePrivateCurrentAssertionDecision recordId status lane facts t lifecycle = .ok d →
      lifecycle.automaticRecallUntil = none ∧ lifecycle.validityUntil = none ∧
        evaluateRetention recordId lane facts t = .ok d.retention
  earliest_clock : lane ≠ .session → ∀ recordId status lifecycle t d,
    evaluatePrivateCurrentAssertionDecision recordId status lane facts t lifecycle = .ok d →
      boundaryAt d.retention = (clocks facts lifecycle).min?
  query_only_later : ∀ recordId status lifecycle t t' d, t ≤ t' →
    evaluatePrivateCurrentAssertionDecision recordId status lane facts t lifecycle = .ok d →
      d.retention.state = .queryOnly →
      ∃ d', evaluatePrivateCurrentAssertionDecision recordId status lane facts t' lifecycle = .ok d' ∧
        d'.retention.state = .queryOnly
  query_only_iff : ∀ recordId status lifecycle t d,
    evaluatePrivateCurrentAssertionDecision recordId status lane facts t lifecycle = .ok d →
      (d.retention.state = .queryOnly ↔ ∃ b ∈ boundaryAt d.retention, b ≤ t.utc)

/-! ### Decisions and their boundaries -/

theorem boundaryAt_of_decision {boundary : Option Boundary} {t : OffsetDateTime}
    {d : RetentionDecision} (h : decisionFromBoundary boundary t = .ok d) :
    boundaryAt d = boundary.map (·.at_.utc) := by
  cases boundary with
  | none =>
      rw [decisionFromBoundary_none.1 h]
      rfl
  | some b =>
      obtain ⟨text, htext, rfl⟩ := decisionFromBoundary_some.1 h
      rw [boundaryAt, instant?_of_format htext]
      rfl

theorem queryOnly_iff {boundary : Option Boundary} {t : OffsetDateTime} {d : RetentionDecision}
    (h : decisionFromBoundary boundary t = .ok d) :
    d.state = .queryOnly ↔ ∃ b ∈ boundaryAt d, b ≤ t.utc := by
  rw [boundaryAt_of_decision h]
  cases boundary with
  | none =>
      rw [decisionFromBoundary_none.1 h]
      simp
  | some b =>
      obtain ⟨text, -, rfl⟩ := decisionFromBoundary_some.1 h
      simp

/-- A record has a decision when its lane has a boundary that can be written. -/
theorem evaluateRetention_eq_ok {recordId : String} {lane : MemoryLane} {facts : RetentionFacts}
    {t : OffsetDateTime} {d : RetentionDecision} :
    evaluateRetention recordId lane facts t = .ok d ↔ ∃ explicit boundary,
      parseOptional facts.explicitExpiresAt "explicit_expires_at" = .ok explicit ∧
        laneBoundary lane facts explicit = .ok boundary ∧ decisionFromBoundary boundary t = .ok d := by
  rw [evaluateRetention, withContext_eq_ok, evaluateRetentionInner, bind_eq_ok]
  constructor
  · rintro ⟨explicit, hexplicit, h⟩
    obtain ⟨boundary, hboundary, hd⟩ := bind_eq_ok.1 h
    exact ⟨explicit, boundary, hexplicit, hboundary, hd⟩
  · rintro ⟨explicit, boundary, hexplicit, hboundary, hd⟩
    exact ⟨explicit, hexplicit, bind_eq_ok.2 ⟨boundary, hboundary, hd⟩⟩

/-! ### What the evaluator accepts -/

theorem validity_extends_of_ok {facts : RetentionFacts} {validity o : Option OffsetDateTime}
    {lane : MemoryLane} (h : extendedValidityBoundary facts validity lane = .ok o) :
    ∀ t ∈ validity, ∃ base, instant? facts.explicitExpiresAt = some base ∧ base.utc < t.utc := by
  intro t ht
  rw [Option.mem_def.1 ht] at h
  obtain ⟨base, hbase, h⟩ := bind_eq_ok.1 h
  obtain ⟨at_, hat, h⟩ := bind_eq_ok.1 h
  obtain ⟨hlt, -⟩ := check_bind_eq_ok.1 h
  rw [require_eq_ok.1 hat] at hbase
  exact ⟨at_, instant?_of_parseOptional hbase, ensure_eq_ok.1 hlt⟩

theorem recall_extends_of_ok {facts : RetentionFacts} {recallAt : Option OffsetDateTime} {b : Boundary}
    (h : episodicRecallBoundary facts recallAt = .ok b) :
    ∀ t ∈ recallAt, ∃ occurred, instant? facts.occurredAt = some occurred ∧
      (ordinaryEnd occurred).utc < t.utc ∧ t.utc ≤ (maximumEnd occurred).utc := by
  intro t ht
  rw [Option.mem_def.1 ht] at h
  obtain ⟨occurred, hoccurred, h⟩ := bind_eq_ok.1 h
  obtain ⟨ordinary, hordinary, h⟩ := bind_eq_ok.1 h
  obtain ⟨maximum, hmaximum, h⟩ := bind_eq_ok.1 h
  obtain ⟨hlt, h⟩ := check_bind_eq_ok.1 h
  obtain ⟨hle, -⟩ := check_bind_eq_ok.1 h
  obtain ⟨-, rfl⟩ := addDuration_eq_ok.1 hordinary
  obtain ⟨-, rfl⟩ := addDuration_eq_ok.1 hmaximum
  exact ⟨occurred, instant?_of_required hoccurred, ensure_eq_ok.1 hlt, ensure_eq_ok.1 hle⟩

/-- The overrides of a record that the evaluator decides extend the clocks of the record. -/
theorem overrides_of_ok {recordId : String} {status : MemoryStatus} {lane : MemoryLane}
    {facts : RetentionFacts} {lifecycle : PrivateLifecycleReadFacts} {t : OffsetDateTime}
    {d : CurrentAssertionDecision}
    (h : evaluatePrivateCurrentAssertionDecision recordId status lane facts t lifecycle = .ok d) :
    ∃ base recallAt validity, evaluateRetention recordId lane facts t = .ok base ∧
      Overrides lane facts lifecycle recallAt validity ∧
      privateRetention lane facts base recallAt validity t = .ok d.retention := by
  obtain ⟨base, hbase, h⟩ := bind_eq_ok.1 h
  obtain ⟨recallAt, hrecallAt, h⟩ := bind_eq_ok.1 h
  obtain ⟨validity, hvalidity, h⟩ := bind_eq_ok.1 h
  obtain ⟨retention, hretention, h⟩ := bind_eq_ok.1 h
  obtain ⟨quarantine, hquarantine, h⟩ := bind_eq_ok.1 h
  cases h
  have hnone : ∀ {o : Option OffsetDateTime} {message : String} {P : OffsetDateTime → Prop},
      ensure (o.isNone = true) message = .ok () → ∀ t ∈ o, P t := by
    intro o message P ho t ht
    rw [Option.isNone_iff_eq_none.1 (ensure_eq_ok.1 ho)] at ht
    cases ht
  refine ⟨base, recallAt, validity, hbase, ⟨hrecallAt, hvalidity, ?_, ?_, ⟨quarantine, hquarantine⟩⟩,
    hretention⟩
  · cases lane with
    | session => exact hnone (check_bind_eq_ok.1 hretention).1
    | episodic =>
        obtain ⟨b, hb, -⟩ := bind_eq_ok.1 hretention
        exact fun t ht => ⟨rfl, recall_extends_of_ok hb t ht⟩
    | semantic => exact hnone (check_bind_eq_ok.1 hretention).1
    | procedural => exact hnone (check_bind_eq_ok.1 hretention).1
  · cases lane with
    | session => exact hnone (check_bind_eq_ok.1 (check_bind_eq_ok.1 hretention).2).1
    | episodic =>
        obtain ⟨_, _, hrest⟩ := bind_eq_ok.1 hretention
        obtain ⟨_, hboundary, _⟩ := bind_eq_ok.1 hrest
        obtain ⟨_, hextended, _⟩ := bind_eq_ok.1 hboundary
        exact fun t ht => ⟨by decide, validity_extends_of_ok hextended t ht⟩
    | semantic =>
        obtain ⟨_, hboundary, _⟩ := bind_eq_ok.1 (check_bind_eq_ok.1 hretention).2
        obtain ⟨_, hextended, _⟩ := bind_eq_ok.1 hboundary
        exact fun t ht => ⟨by decide, validity_extends_of_ok hextended t ht⟩
    | procedural =>
        obtain ⟨_, hboundary, _⟩ := bind_eq_ok.1 (check_bind_eq_ok.1 hretention).2
        obtain ⟨_, hextended, _⟩ := bind_eq_ok.1 hboundary
        exact fun t ht => ⟨by decide, validity_extends_of_ok hextended t ht⟩

/-! ### The private boundary -/

theorem Overrides.durable {lane : MemoryLane} {facts : RetentionFacts}
    {lifecycle : PrivateLifecycleReadFacts} {recallAt validity explicit : Option OffsetDateTime}
    (h : Overrides lane facts lifecycle recallAt validity)
    (hlane : lane = .semantic ∨ lane = .procedural)
    (hexplicit : parseOptional facts.explicitExpiresAt "explicit_expires_at" = .ok explicit)
    (base : RetentionDecision) (t : OffsetDateTime) :
    privateRetention lane facts base recallAt validity t =
      decisionFromBoundary ((validity.or explicit).map (⟨·, .explicitExpiry⟩)) t := by
  have hnone : (none : Option OffsetDateTime).isNone = true := rfl
  rcases hlane with rfl | rfl
  · rw [h.recall_none (by decide)]
    simp only [privateRetention, validityBoundary, h.extendedValidity hexplicit, ensure_of hnone,
      ok_bind]
  · rw [h.recall_none (by decide)]
    simp only [privateRetention, validityBoundary, h.extendedValidity hexplicit, ensure_of hnone,
      ok_bind]

/-- The recall boundary of an episode, under an accepted override. -/
def recallBoundary (occurred : OffsetDateTime) (recallAt : Option OffsetDateTime) : Boundary :=
  match recallAt with
  | some at_ => ⟨at_, .episodicAuthorizedExtension⟩
  | none => ⟨ordinaryEnd occurred, .episodicOrdinaryWindow⟩

theorem Overrides.episodic {facts : RetentionFacts} {lifecycle : PrivateLifecycleReadFacts}
    {recallAt validity explicit : Option OffsetDateTime} {occurred : OffsetDateTime}
    (h : Overrides .episodic facts lifecycle recallAt validity)
    (hoccurred : requiredTimestamp facts.occurredAt "occurred_at" .episodic = .ok occurred)
    (hexplicit : parseOptional facts.explicitExpiresAt "explicit_expires_at" = .ok explicit)
    (hordinary : (ordinaryEnd occurred).representable) (base : RetentionDecision) (t : OffsetDateTime)
    {d : RetentionDecision} : privateRetention .episodic facts base recallAt validity t = .ok d ↔
      (maximumEnd occurred).representable ∧
        decisionFromBoundary (some (episodicEnd (recallBoundary occurred recallAt)
          ((validity.or explicit).map (⟨·, .explicitExpiry⟩)))) t = .ok d := by
  have hvalidity : validityBoundary facts validity .episodic =
      .ok ((validity.or explicit).map (⟨·, .explicitExpiry⟩)) := by
    simp only [validityBoundary, h.extendedValidity hexplicit, ok_bind]
  have hrecall := fun b => h.episodicRecall (b := b) hoccurred hordinary
  simp only [privateRetention, hvalidity, ok_bind]
  rw [bind_eq_ok]
  constructor
  · rintro ⟨b, hb, hd⟩
    obtain ⟨hmaximum, rfl⟩ := (hrecall b).1 hb
    refine ⟨hmaximum, ?_⟩
    cases recallAt <;> exact hd
  · rintro ⟨hmaximum, hd⟩
    refine ⟨recallBoundary occurred recallAt, (hrecall _).2 ⟨hmaximum, ?_⟩, hd⟩
    cases recallAt <;> rfl

/-- The hand-written choice of the private evaluator is the one of the base evaluator. -/
theorem episodicEnd_explicit (policy : Boundary) (explicit : Option OffsetDateTime) :
    episodicEnd policy (explicit.map (⟨·, .explicitExpiry⟩)) = minWithExplicit policy explicit := by
  cases explicit <;> rfl

/-- The earlier of two boundaries, as an instant. -/
theorem episodicEnd_at (recallAt : Boundary) (validity : Option OffsetDateTime)
    (reason : RetentionReason) :
    some (episodicEnd recallAt (validity.map (⟨·, reason⟩))).at_.utc =
      ((some recallAt.at_).toList ++ validity.toList |>.map (·.utc)).min? := by
  cases validity with
  | none => rfl
  | some v =>
      have hmin : ([recallAt.at_.utc, v.utc] : List Int).min? =
          some (min recallAt.at_.utc v.utc) := rfl
      simp only [Option.toList_some, List.singleton_append, List.map_cons, List.map_nil, hmin,
        episodicEnd, Option.map_some, Option.some.injEq]
      split
      · rename_i hlt
        rw [min_eq_right (le_of_lt hlt)]
      · rename_i hlt
        rw [min_eq_left (not_lt.1 hlt)]

/-! ### One lane at a time -/

/-- The clocks of an episode. -/
theorem clocks_episodic {facts : RetentionFacts} {lifecycle : PrivateLifecycleReadFacts}
    {recallAt validity explicit : Option OffsetDateTime} {occurred : OffsetDateTime}
    (h : Overrides .episodic facts lifecycle recallAt validity)
    (hoccurred : instant? facts.occurredAt = some occurred)
    (hexplicit : instant? facts.explicitExpiresAt = explicit) :
    clocks facts lifecycle =
      ((some (recallBoundary occurred recallAt).at_).toList ++
        (validity.or explicit).toList |>.map (·.utc)) := by
  rw [clocks, recallClock, validityClock, instant?_of_verified h.recall_read,
    instant?_of_verified h.validity_read, hoccurred, hexplicit]
  cases recallAt <;> rfl

/-- The clocks of a durable record. -/
theorem clocks_durable {lane : MemoryLane} {facts : RetentionFacts}
    {lifecycle : PrivateLifecycleReadFacts} {recallAt validity explicit : Option OffsetDateTime}
    (h : Overrides lane facts lifecycle recallAt validity) (hlane : lane ≠ .episodic)
    (hoccurred : facts.occurredAt = none) (hexplicit : instant? facts.explicitExpiresAt = explicit) :
    clocks facts lifecycle = (validity.or explicit).toList.map (·.utc) := by
  rw [clocks, recallClock, validityClock, instant?_of_verified h.recall_read,
    instant?_of_verified h.validity_read, h.recall_none hlane, hoccurred, hexplicit]
  rfl

/-- What the evaluator decides of an accepted episode. -/
theorem episodic_of_ok {recordId : String} {facts : RetentionFacts} {t : OffsetDateTime}
    {base : RetentionDecision} (h : evaluateRetention recordId .episodic facts t = .ok base) :
    ∃ occurred explicit,
      requiredTimestamp facts.occurredAt "occurred_at" .episodic = .ok occurred ∧
      parseOptional facts.explicitExpiresAt "explicit_expires_at" = .ok explicit ∧
      (ordinaryEnd occurred).representable ∧ decisionFromBoundary
        (some (minWithExplicit ⟨ordinaryEnd occurred, .episodicOrdinaryWindow⟩ explicit)) t = .ok base := by
  obtain ⟨explicit, boundary, hexplicit, hboundary, hd⟩ := evaluateRetention_eq_ok.1 h
  obtain ⟨-, -, occurred, hoccurred, hrepresentable, rfl⟩ := episodicBoundary_eq_ok.1 hboundary
  exact ⟨occurred, explicit, hoccurred, hexplicit, hrepresentable, hd⟩

/-- What the evaluator decides of an accepted durable record. -/
theorem durable_of_ok {recordId : String} {lane : MemoryLane} {facts : RetentionFacts}
    {t : OffsetDateTime} {base : RetentionDecision} (hlane : lane = .semantic ∨ lane = .procedural)
    (h : evaluateRetention recordId lane facts t = .ok base) :
    ∃ explicit, facts.occurredAt = none ∧
      parseOptional facts.explicitExpiresAt "explicit_expires_at" = .ok explicit ∧
      decisionFromBoundary (explicit.map (⟨·, .explicitExpiry⟩)) t = .ok base := by
  obtain ⟨explicit, boundary, hexplicit, hboundary, hd⟩ := evaluateRetention_eq_ok.1 h
  rcases hlane with rfl | rfl
  · obtain ⟨hoccurred, -, -, rfl⟩ := durableBoundary_eq_ok.1 hboundary
    exact ⟨explicit, hoccurred, hexplicit, hd⟩
  · obtain ⟨hoccurred, -, -, rfl⟩ := durableBoundary_eq_ok.1 hboundary
    exact ⟨explicit, hoccurred, hexplicit, hd⟩

theorem overrides_noLifecycle (lane : MemoryLane) (facts : RetentionFacts) :
    Overrides lane facts noLifecycle none none :=
  ⟨rfl, rfl, (fun t ht => by cases ht), (fun t ht => by cases ht), ⟨[], rfl⟩⟩

/-- Without overrides the private decision is the base decision, when the window stays in the
calendar. -/
theorem privateRetention_noLifecycle {recordId : String} {lane : MemoryLane} {facts : RetentionFacts}
    {t : OffsetDateTime} {base : RetentionDecision}
    (h : evaluateRetention recordId lane facts t = .ok base) (hwindow : WindowInCalendar lane facts) :
    privateRetention lane facts base none none t = .ok base := by
  have hplain := overrides_noLifecycle lane facts
  cases lane with
  | session => rfl
  | episodic =>
      obtain ⟨occurred, explicit, hoccurred, hexplicit, hordinary, hd⟩ := episodic_of_ok h
      refine (hplain.episodic hoccurred hexplicit hordinary base t).2
        ⟨hwindow occurred (instant?_of_required hoccurred), ?_⟩
      rw [Option.none_or, episodicEnd_explicit]
      exact hd
  | semantic =>
      obtain ⟨explicit, -, hexplicit, hd⟩ := durable_of_ok (Or.inl rfl) h
      rw [hplain.durable (Or.inl rfl) hexplicit base t, Option.none_or]
      exact hd
  | procedural =>
      obtain ⟨explicit, -, hexplicit, hd⟩ := durable_of_ok (Or.inr rfl) h
      rw [hplain.durable (Or.inr rfl) hexplicit base t, Option.none_or]
      exact hd

/-- An override only moves the validity to a later instant. -/
theorem Overrides.validity_le {lane : MemoryLane} {facts : RetentionFacts}
    {lifecycle : PrivateLifecycleReadFacts} {recallAt validity explicit : Option OffsetDateTime}
    (h : Overrides lane facts lifecycle recallAt validity)
    (hexplicit : instant? facts.explicitExpiresAt = explicit) :
    ∀ v ∈ validity.or explicit, ∃ e ∈ explicit, e.utc ≤ v.utc := by
  intro v hv
  cases validity with
  | none => exact ⟨v, hv, le_refl _⟩
  | some w =>
      obtain rfl : w = v := Option.some.inj hv
      obtain ⟨-, base, hbase, hlt⟩ := h.validity_extends w rfl
      exact ⟨base, hexplicit.symm.trans hbase, le_of_lt hlt⟩

/-- An override only moves the recall to a later instant. -/
theorem Overrides.recall_le {facts : RetentionFacts} {lifecycle : PrivateLifecycleReadFacts}
    {recallAt validity : Option OffsetDateTime} {occurred : OffsetDateTime}
    (h : Overrides .episodic facts lifecycle recallAt validity)
    (hoccurred : instant? facts.occurredAt = some occurred) :
    (ordinaryEnd occurred).utc ≤ (recallBoundary occurred recallAt).at_.utc := by
  cases recallAt with
  | none => exact le_refl _
  | some r =>
      obtain ⟨-, occurred', hoccurred', hlt, -⟩ := h.recall_extends r rfl
      rw [hoccurred, Option.some.injEq] at hoccurred'
      rw [hoccurred']
      exact le_of_lt hlt

/-- The base boundary does not lie past the private one. -/
theorem base_le_private {recallAt : Boundary} {policy : Boundary}
    {explicit validity : Option OffsetDateTime} {reason : RetentionReason}
    (hrecall : policy.at_.utc ≤ recallAt.at_.utc)
    (hvalidity : ∀ v ∈ validity, ∃ e ∈ explicit, e.utc ≤ v.utc) :
    (minWithExplicit policy explicit).at_.utc ≤
      (episodicEnd recallAt (validity.map (⟨·, reason⟩))).at_.utc := by
  obtain ⟨hpolicy, hexplicit⟩ := minWithExplicit_le policy explicit
  cases validity with
  | none => exact le_trans hpolicy hrecall
  | some v =>
      obtain ⟨e, he, hle⟩ := hvalidity v rfl
      have hfirst := hexplicit e he
      simp only [episodicEnd, Option.map_some]
      split
      · exact le_trans hfirst hle
      · exact le_trans hpolicy hrecall

/-! ### The private evaluator against the base evaluator -/

section Accepted

variable {recordId : String} {status : MemoryStatus} {lane : MemoryLane} {facts : RetentionFacts}
  {lifecycle : PrivateLifecycleReadFacts} {t : OffsetDateTime} {d : CurrentAssertionDecision}

/-- The session lane answers with the base decision. -/
theorem session_of_ok
    (h : evaluatePrivateCurrentAssertionDecision recordId status .session facts t lifecycle = .ok d) :
    lifecycle.automaticRecallUntil = none ∧ lifecycle.validityUntil = none ∧
      evaluateRetention recordId .session facts t = .ok d.retention := by
  obtain ⟨base, recallAt, validity, hbase, hoverrides, hretention⟩ := overrides_of_ok h
  have hrecall := isSome_of_verified hoverrides.recall_read
  have hvalidity := isSome_of_verified hoverrides.validity_read
  rw [hoverrides.recall_none (by decide), Option.isSome_none] at hrecall
  rw [hoverrides.validity_none rfl, Option.isSome_none] at hvalidity
  rw [hoverrides.recall_none (by decide), hoverrides.validity_none rfl] at hretention
  have hsame : base = d.retention := Except.ok.inj hretention
  rw [← hsame]
  exact ⟨Option.not_isSome_iff_eq_none.1 (by simp [← hrecall]),
    Option.not_isSome_iff_eq_none.1 (by simp [← hvalidity]), hbase⟩

/-- An episode ends with the earlier of its clocks, not before its base boundary. -/
theorem episodic_boundary_of_ok
    (h : evaluatePrivateCurrentAssertionDecision recordId status .episodic facts t lifecycle = .ok d) :
    boundaryAt d.retention = (clocks facts lifecycle).min? ∧
      ∃ base, evaluateRetention recordId .episodic facts t = .ok base ∧
        ∀ b ∈ boundaryAt d.retention, ∃ b₀ ∈ boundaryAt base, b₀ ≤ b := by
  obtain ⟨base, recallAt, validity, hbase, hoverrides, hretention⟩ := overrides_of_ok h
  obtain ⟨occurred, explicit, hoccurred, hexplicit, hordinary, hd⟩ := episodic_of_ok hbase
  obtain ⟨-, hprivate⟩ := (hoverrides.episodic hoccurred hexplicit hordinary base t).1 hretention
  have hat := instant?_of_required hoccurred
  have hexpires := instant?_of_parseOptional hexplicit
  have hboundary := boundaryAt_of_decision hprivate
  rw [Option.map_some] at hboundary
  refine ⟨?_, base, hbase, ?_⟩
  · rw [hboundary, episodicEnd_at, clocks_episodic hoverrides hat hexpires]
  · intro b hb
    rw [hboundary, Option.mem_some] at hb
    refine ⟨_, boundaryAt_of_decision hd, ?_⟩
    rw [← hb]
    exact base_le_private (hoverrides.recall_le hat) (hoverrides.validity_le hexpires)

/-- A durable record ends with its validity clock, not before its base boundary. -/
theorem durable_boundary_of_ok (hlane : lane = .semantic ∨ lane = .procedural)
    (h : evaluatePrivateCurrentAssertionDecision recordId status lane facts t lifecycle = .ok d) :
    boundaryAt d.retention = (clocks facts lifecycle).min? ∧
      ∃ base, evaluateRetention recordId lane facts t = .ok base ∧
        ∀ b ∈ boundaryAt d.retention, ∃ b₀ ∈ boundaryAt base, b₀ ≤ b := by
  obtain ⟨base, recallAt, validity, hbase, hoverrides, hretention⟩ := overrides_of_ok h
  obtain ⟨explicit, hoccurred, hexplicit, hd⟩ := durable_of_ok hlane hbase
  have hepisodic : lane ≠ .episodic := by rcases hlane with rfl | rfl <;> decide
  have hexpires := instant?_of_parseOptional hexplicit
  rw [hoverrides.durable hlane hexplicit base t] at hretention
  have hboundary := boundaryAt_of_decision hretention
  have hbaseBoundary := boundaryAt_of_decision hd
  have hlater := hoverrides.validity_le hexpires
  rw [clocks_durable hoverrides hepisodic hoccurred hexpires]
  cases hclock : validity.or explicit with
  | none =>
      rw [hclock] at hboundary
      exact ⟨hboundary, base, hbase, fun b hb => by rw [hboundary] at hb; cases hb⟩
  | some v =>
      rw [hclock] at hboundary
      refine ⟨hboundary, base, hbase, fun b hb => ?_⟩
      obtain ⟨e, he, hle⟩ := hlater v hclock
      rw [Option.mem_def.1 he] at hbaseBoundary
      refine ⟨e.utc, hbaseBoundary, ?_⟩
      obtain rfl : v.utc = b := Option.some.inj (hboundary.symm.trans hb)
      exact hle

end Accepted

/-- The window of a record that the private evaluator decides ends in the calendar. -/
theorem window_of_unchanged {lane : MemoryLane} {facts : RetentionFacts} (h : Conservative lane facts)
    (hevaluable : Evaluable lane facts) : WindowInCalendar lane facts := by
  obtain ⟨base, hbase⟩ := hevaluable "" ⟨0, 0⟩
  obtain ⟨d, hd, -⟩ := h.unchanged "" .active ⟨0, 0⟩ base hbase
  exact ((evaluatePrivate_ok_iff (fun _ => hevaluable) (overrides_noLifecycle lane facts) ⟨0, 0⟩).1
    ⟨d, hd⟩).1

/-- **The private evaluator extends the base evaluator exactly when the window of the record stays
in the calendar.** The window only matters to an episode: the seven days of a session that has a
decision are in the calendar, and a durable record has no window. -/
theorem conservative_iff (lane : MemoryLane) (facts : RetentionFacts) :
    Conservative lane facts ↔ (Evaluable lane facts → WindowInCalendar lane facts) := by
  refine ⟨window_of_unchanged, fun hwindow => ⟨?_, ?_, ?_, ?_, ?_, ?_⟩⟩
  · intro recordId status t base hbase
    have hretention := privateRetention_noLifecycle hbase (hwindow (evaluable_of_ok hbase))
    refine ⟨⟨(baseExclusions status base ++ []).isEmpty, base, baseExclusions status base ++ []⟩,
      ?_, rfl⟩
    exact bind_eq_ok.2 ⟨base, hbase, bind_eq_ok.2 ⟨none, rfl, bind_eq_ok.2 ⟨none, rfl,
      bind_eq_ok.2 ⟨base, hretention, rfl⟩⟩⟩⟩
  · intro recordId status lifecycle t d h
    cases lane with
    | session =>
        obtain ⟨-, -, hbase⟩ := session_of_ok h
        exact ⟨d.retention, hbase, fun b hb => ⟨b, hb, le_refl b⟩⟩
    | episodic => exact (episodic_boundary_of_ok h).2
    | semantic => exact (durable_boundary_of_ok (Or.inl rfl) h).2
    | procedural => exact (durable_boundary_of_ok (Or.inr rfl) h).2
  · rintro rfl recordId status lifecycle t d h
    exact session_of_ok h
  · intro hsession recordId status lifecycle t d h
    cases lane with
    | session => exact absurd rfl hsession
    | episodic => exact (episodic_boundary_of_ok h).1
    | semantic => exact (durable_boundary_of_ok (Or.inl rfl) h).1
    | procedural => exact (durable_boundary_of_ok (Or.inr rfl) h).1
  · intro recordId status lifecycle t t' d hle h hstate
    obtain ⟨boundary, quarantine, hall⟩ := evaluatePrivate_boundary h
    obtain ⟨r, hr, hat⟩ := hall t
    obtain ⟨r', hr', hat'⟩ := hall t'
    cases h.symm.trans hat
    refine ⟨_, hat', (queryOnly_iff hr').2 ?_⟩
    obtain ⟨b, hb, hpassed⟩ := (queryOnly_iff hr).1 hstate
    rw [boundaryAt_of_decision hr, ← boundaryAt_of_decision hr'] at hb
    exact ⟨b, hb, le_trans hpassed hle⟩
  · intro recordId status lifecycle t d h
    obtain ⟨boundary, quarantine, hall⟩ := evaluatePrivate_boundary h
    obtain ⟨r, hr, hat⟩ := hall t
    cases h.symm.trans hat
    exact queryOnly_iff hr

/-- An episode two months before the end of the calendar. -/
def occursNearTheEnd : RetentionFacts where
  occurredAt := some "9999-11-01T00:00:00Z"
  startedAt := none
  lastContinuedAt := none
  closedAt := none
  explicitExpiresAt := none
  episodicExtension := none

/-- The base evaluator decides the episode, and the private evaluator refuses it for a window that
no override uses. -/
theorem evaluatePrivate_refuses_base :
    evaluateRetention "record" .episodic occursNearTheEnd ⟨0, 0⟩ =
        .ok ⟨.current, some "9999-12-01T00:00:00Z", .episodicOrdinaryWindow⟩ ∧
      evaluatePrivateCurrentAssertionDecision "record" .active .episodic occursNearTheEnd ⟨0, 0⟩
          noLifecycle =
        bail "maximum episodic recall window is outside the supported timestamp range" := by
  decide +kernel

end Retention
end Memzoi
