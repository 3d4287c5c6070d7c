/-
# What the private evaluator accepts

Source: `retention.rs`, `evaluate_private_current_assertion_decision`.

A private record carries up to four clocks: the two of its own facts, and the
two overrides of its lifecycle row. When each override extends the clock it
overrides (`Overrides`), the evaluator decides exactly the records whose clocks
stay in the calendar (`evaluatePrivate_ok_iff`): the ninety-day window of an
episodic record is an instant, and the earliest clock has a UTC year of four
digits, so that it can be written.
-/

import Memzoi.RetentionRules

namespace Memzoi
namespace Retention

open Fallible OffsetDateTime

/-! ### Stored clocks as instants -/

/-- The instant a stored clock reads as. -/
def instant? (value : Option String) : Option OffsetDateTime :=
  value.bind fun text => if Text.trim text = "" then none else Rfc3339.parse (Text.trim text)

theorem parseTimestamp_eq_ok {text field : String} {t : OffsetDateTime} :
    parseTimestamp text field = .ok t ↔ instant? (some text) = some t := by
  simp only [parseTimestamp, instant?, check_bind_eq_ok, ensure_eq_ok, require_eq_ok,
    Option.bind_some]
  split
  · rename_i h
    simp [h]
  · rename_i h
    simp [h]

theorem instant?_of_parseOptional {value : Option String} {field : String}
    {o : Option OffsetDateTime} (h : parseOptional value field = .ok o) : instant? value = o := by
  cases value with
  | none =>
      cases h
      rfl
  | some text =>
      obtain ⟨t, ht, h⟩ := bind_eq_ok.1 h
      cases h
      exact parseTimestamp_eq_ok.1 ht

theorem instant?_of_required {value : Option String} {field : String} {lane : MemoryLane}
    {t : OffsetDateTime} (h : requiredTimestamp value field lane = .ok t) :
    instant? value = some t := by
  obtain ⟨text, htext, h⟩ := bind_eq_ok.1 h
  rw [require_eq_ok.1 htext]
  exact parseTimestamp_eq_ok.1 h

theorem instant?_of_verified {boundary eventId : Option String} {field : String}
    {o : Option OffsetDateTime} (h : verifiedLifecycleBoundary boundary eventId field = .ok o) :
    instant? boundary = o := by
  unfold verifiedLifecycleBoundary at h
  split at h
  · cases h
    rfl
  · obtain ⟨-, h⟩ := check_bind_eq_ok.1 h
    obtain ⟨t, ht, h⟩ := bind_eq_ok.1 h
    cases h
    exact parseTimestamp_eq_ok.1 ht
  · cases h
  · cases h

/-- A boundary that is read is there. -/
theorem isSome_of_verified {boundary eventId : Option String} {field : String}
    {o : Option OffsetDateTime} (h : verifiedLifecycleBoundary boundary eventId field = .ok o) :
    o.isSome = boundary.isSome := by
  unfold verifiedLifecycleBoundary at h
  split at h
  · cases h
    rfl
  · obtain ⟨-, h⟩ := check_bind_eq_ok.1 h
    obtain ⟨t, -, h⟩ := bind_eq_ok.1 h
    cases h
    rfl
  · cases h
  · cases h

@[simp] theorem requiredTimestamp_some {text field : String} {lane : MemoryLane} :
    requiredTimestamp (some text) field lane = parseTimestamp text field := by
  simp only [requiredTimestamp, require_some, ok_bind]

/-! ### The clocks of a private record -/

/-- The end of the ordinary window of an episodic record. -/
def ordinaryEnd (occurred : OffsetDateTime) : OffsetDateTime :=
  ⟨occurred.utc + days episodicOrdinaryDays, occurred.offset⟩

/-- The end of the window past which recall cannot be extended. -/
def maximumEnd (occurred : OffsetDateTime) : OffsetDateTime :=
  ⟨occurred.utc + days episodicMaximumRecallDays, occurred.offset⟩

/-- The end of the seven days of a session. -/
def sessionEnd (started : OffsetDateTime) : OffsetDateTime :=
  ⟨started.utc + days sessionMaximumDays, started.offset⟩

/-- When automatic recall of an episodic record ends. -/
def recallClock (facts : RetentionFacts) (lifecycle : PrivateLifecycleReadFacts) :
    Option OffsetDateTime :=
  (instant? lifecycle.automaticRecallUntil).or ((instant? facts.occurredAt).map ordinaryEnd)

/-- When the validity of a record ends. -/
def validityClock (facts : RetentionFacts) (lifecycle : PrivateLifecycleReadFacts) :
    Option OffsetDateTime :=
  (instant? lifecycle.validityUntil).or (instant? facts.explicitExpiresAt)

/-- The overrides read as instants, each on a lane that has it and past the clock it extends. -/
structure Overrides (lane : MemoryLane) (facts : RetentionFacts)
    (lifecycle : PrivateLifecycleReadFacts) (recallAt validity : Option OffsetDateTime) : Prop where
  recall_read : verifiedLifecycleBoundary lifecycle.automaticRecallUntil
    lifecycle.automaticRecallEventId "automatic_recall_until" = .ok recallAt
  validity_read : verifiedLifecycleBoundary lifecycle.validityUntil
    lifecycle.validityEventId "validity_until" = .ok validity
  recall_extends : ∀ t ∈ recallAt, lane = .episodic ∧ ∃ occurred,
    instant? facts.occurredAt = some occurred ∧ (ordinaryEnd occurred).utc < t.utc ∧
      t.utc ≤ (maximumEnd occurred).utc
  validity_extends : ∀ t ∈ validity, lane ≠ .session ∧ ∃ base,
    instant? facts.explicitExpiresAt = some base ∧ base.utc < t.utc
  quarantine_read : ∃ exclusions,
    quarantineExclusions lifecycle.quarantined lifecycle.quarantineReason = .ok exclusions

/-- The fixed window of a record, seven days of a session and ninety days of an episode, ends in
the calendar. -/
def WindowInCalendar (lane : MemoryLane) (facts : RetentionFacts) : Prop :=
  match lane with
  | .session => ∀ started ∈ instant? facts.startedAt, (sessionEnd started).representable
  | .episodic => ∀ occurred ∈ instant? facts.occurredAt, (maximumEnd occurred).representable
  | _ => True

/-- The clock a record is decided by can be written. -/
def ClocksInCalendar (lane : MemoryLane) (facts : RetentionFacts)
    (lifecycle : PrivateLifecycleReadFacts) : Prop :=
  match lane with
  | .session => True
  | .episodic => ∃ t, (recallClock facts lifecycle = some t ∨ validityClock facts lifecycle = some t) ∧
      t.utc ≤ maxWritten
  | _ => ∀ t ∈ validityClock facts lifecycle, t.utc ≤ maxWritten

/-- The clocks of a record stay in the calendar. -/
def InCalendar (lane : MemoryLane) (facts : RetentionFacts)
    (lifecycle : PrivateLifecycleReadFacts) : Prop :=
  WindowInCalendar lane facts ∧ ClocksInCalendar lane facts lifecycle

/-! ### Records without overrides -/

theorem decision_iff_written {b : Boundary} {t : OffsetDateTime} :
    (∃ d, decisionFromBoundary (some b) t = .ok d) ↔ written b.at_ := by
  simp only [decisionFromBoundary_some, ← formatTimestamp_ok_iff]
  constructor
  · rintro ⟨d, text, htext, -⟩
    exact ⟨text, htext⟩
  · rintro ⟨text, htext⟩
    exact ⟨_, text, htext, rfl⟩

/-- What an episodic record needs to have a decision of its own. -/
theorem evaluable_episodic {facts : RetentionFacts} (h : Evaluable .episodic facts) :
    ∃ occurred explicit, requiredTimestamp facts.occurredAt "occurred_at" .episodic = .ok occurred ∧
      parseOptional facts.explicitExpiresAt "explicit_expires_at" = .ok explicit ∧
        (ordinaryEnd occurred).representable ∧
          written (minWithExplicit ⟨ordinaryEnd occurred, .episodicOrdinaryWindow⟩ explicit).at_ := by
  obtain ⟨d, hd⟩ := h "" ⟨0, 0⟩
  simp only [evaluateRetention, withContext_eq_ok, evaluateRetentionInner, laneBoundary] at hd
  obtain ⟨explicit, hexplicit, hd⟩ := bind_eq_ok.1 hd
  obtain ⟨boundary, hboundary, hd⟩ := bind_eq_ok.1 hd
  simp only [episodicBoundary, check_bind_eq_ok] at hboundary
  obtain ⟨occurred, hoccurred, hboundary⟩ := bind_eq_ok.1 hboundary.2
  obtain ⟨ordinary, hordinary, hboundary⟩ := bind_eq_ok.1 hboundary
  obtain ⟨-, hboundary⟩ := check_bind_eq_ok.1 hboundary
  obtain ⟨hrepresentable, rfl⟩ := addDuration_eq_ok.1 hordinary
  cases hboundary
  exact ⟨occurred, explicit, hoccurred, hexplicit, hrepresentable, decision_iff_written.1 ⟨d, hd⟩⟩

/-- What a semantic or procedural record needs to have a decision of its own. -/
theorem evaluable_durable {lane : MemoryLane} {facts : RetentionFacts} (h : Evaluable lane facts)
    (hsession : lane ≠ .session) (hepisodic : lane ≠ .episodic) :
    ∃ explicit, parseOptional facts.explicitExpiresAt "explicit_expires_at" = .ok explicit ∧
      ∀ t ∈ explicit, written t := by
  obtain ⟨d, hd⟩ := h "" ⟨0, 0⟩
  simp only [evaluateRetention, withContext_eq_ok, evaluateRetentionInner] at hd
  obtain ⟨explicit, hexplicit, hd⟩ := bind_eq_ok.1 hd
  obtain ⟨boundary, hboundary, hd⟩ := bind_eq_ok.1 hd
  have hdurable : boundary = explicit.map (⟨·, .explicitExpiry⟩) := by
    cases lane with
    | session => exact absurd rfl hsession
    | episodic => exact absurd rfl hepisodic
    | semantic =>
        simp only [laneBoundary, durableBoundary, check_bind_eq_ok, Except.ok.injEq] at hboundary
        exact hboundary.2.2.2.symm
    | procedural =>
        simp only [laneBoundary, durableBoundary, check_bind_eq_ok, Except.ok.injEq] at hboundary
        exact hboundary.2.2.2.symm
  subst hdurable
  refine ⟨explicit, hexplicit, fun t ht => ?_⟩
  rw [Option.mem_def.1 ht] at hd
  exact decision_iff_written.1 ⟨d, hd⟩

/-! ### Records with overrides -/

theorem Overrides.recall_none {lane : MemoryLane} {facts : RetentionFacts}
    {lifecycle : PrivateLifecycleReadFacts} {recallAt validity : Option OffsetDateTime}
    (h : Overrides lane facts lifecycle recallAt validity) (hlane : lane ≠ .episodic) :
    recallAt = none := by
  cases recallAt with
  | none => rfl
  | some t => exact absurd (h.recall_extends t rfl).1 hlane

theorem Overrides.validity_none {lane : MemoryLane} {facts : RetentionFacts}
    {lifecycle : PrivateLifecycleReadFacts} {recallAt validity : Option OffsetDateTime}
    (h : Overrides lane facts lifecycle recallAt validity) (hlane : lane = .session) :
    validity = none := by
  cases validity with
  | none => rfl
  | some t => exact absurd hlane (h.validity_extends t rfl).1

/-- The validity under an override that extends it. -/
theorem Overrides.extendedValidity {lane : MemoryLane} {facts : RetentionFacts}
    {lifecycle : PrivateLifecycleReadFacts} {recallAt validity explicit : Option OffsetDateTime}
    (h : Overrides lane facts lifecycle recallAt validity)
    (hexplicit : parseOptional facts.explicitExpiresAt "explicit_expires_at" = .ok explicit) :
    extendedValidityBoundary facts validity lane = .ok (validity.or explicit) := by
  cases validity with
  | none => simp only [extendedValidityBoundary, hexplicit, ok_bind, Option.none_or]
  | some t =>
      obtain ⟨-, base, hbase, hlt⟩ := h.validity_extends t rfl
      obtain rfl : explicit = some base :=
        (instant?_of_parseOptional hexplicit).symm.trans hbase
      have hlt' : base < t := hlt
      simp only [extendedValidityBoundary, hexplicit, ok_bind, require_some, ensure_of hlt',
        Option.some_or]

/-- The recall boundary under an override that extends it. -/
theorem Overrides.episodicRecall {facts : RetentionFacts} {lifecycle : PrivateLifecycleReadFacts}
    {recallAt validity : Option OffsetDateTime} {occurred : OffsetDateTime}
    (h : Overrides .episodic facts lifecycle recallAt validity)
    (hoccurred : requiredTimestamp facts.occurredAt "occurred_at" .episodic = .ok occurred)
    (hordinary : (ordinaryEnd occurred).representable) {b : Boundary} :
    episodicRecallBoundary facts recallAt = .ok b ↔ (maximumEnd occurred).representable ∧
      b = match recallAt with
        | some at_ => ⟨at_, .episodicAuthorizedExtension⟩
        | none => ⟨ordinaryEnd occurred, .episodicOrdinaryWindow⟩ := by
  have hadd : addDuration occurred (days episodicOrdinaryDays) "ordinary episodic window" =
      .ok (ordinaryEnd occurred) := addDuration_eq_ok.2 ⟨hordinary, rfl⟩
  simp only [episodicRecallBoundary, hoccurred, hadd, ok_bind]
  rw [bind_eq_ok]
  have hbounds : ∀ t ∈ recallAt, (ordinaryEnd occurred).utc < t.utc ∧
      t.utc ≤ (maximumEnd occurred).utc := by
    intro t ht
    obtain ⟨-, occurred', hoccurred', hlt, hle⟩ := h.recall_extends t ht
    rw [instant?_of_required hoccurred, Option.some.injEq] at hoccurred'
    rw [hoccurred']
    exact ⟨hlt, hle⟩
  constructor
  · rintro ⟨maximum, hmaximum, hb⟩
    obtain ⟨hrepresentable, -⟩ := addDuration_eq_ok.1 hmaximum
    refine ⟨hrepresentable, ?_⟩
    cases recallAt with
    | none => exact (Except.ok.inj hb).symm
    | some t =>
        simp only [check_bind_eq_ok, Except.ok.injEq] at hb
        exact hb.2.2.symm
  · rintro ⟨hrepresentable, rfl⟩
    refine ⟨maximumEnd occurred, addDuration_eq_ok.2 ⟨hrepresentable, rfl⟩, ?_⟩
    cases recallAt with
    | none => rfl
    | some t =>
        obtain ⟨hlt, hle⟩ := hbounds t rfl
        have hlt' : ordinaryEnd occurred < t := hlt
        have hle' : t ≤ maximumEnd occurred := hle
        simp only [ensure_of hlt', ensure_of hle', ok_bind]

theorem minWithExplicit_le (policy : Boundary) (explicit : Option OffsetDateTime) :
    (minWithExplicit policy explicit).at_.utc ≤ policy.at_.utc ∧
      ∀ t ∈ explicit, (minWithExplicit policy explicit).at_.utc ≤ t.utc := by
  cases explicit with
  | none => exact ⟨le_refl _, fun t ht => by cases ht⟩
  | some e =>
      unfold minWithExplicit
      dsimp only
      split
      · rename_i hlt
        exact ⟨le_of_lt hlt, fun t ht => by cases ht; exact le_refl _⟩
      · rename_i hlt
        exact ⟨le_refl _, fun t ht => by cases ht; exact not_lt.1 hlt⟩

/-- The boundary an episodic record is decided by: its validity when that ends first, its recall
otherwise. -/
def episodicEnd (recallAt : Boundary) (validity : Option Boundary) : Boundary :=
  match validity with
  | some validity => if validity.at_ < recallAt.at_ then validity else recallAt
  | none => recallAt

/-- The earlier of two clocks can be written when one of them does not lie past the calendar. -/
theorem written_episodicEnd (recallAt : Boundary) {validity : Option OffsetDateTime}
    {reason : RetentionReason} (hrecall : minWritten ≤ recallAt.at_.utc)
    (hvalidity : ∀ t ∈ validity, minWritten ≤ t.utc) :
    written (episodicEnd recallAt (validity.map (⟨·, reason⟩))).at_ ↔
      ∃ t, (some recallAt.at_ = some t ∨ validity = some t) ∧ t.utc ≤ maxWritten := by
  cases validity with
  | none =>
      constructor
      · intro h
        exact ⟨recallAt.at_, Or.inl rfl, h.2⟩
      · rintro ⟨t, ht | ht, hle⟩
        · cases ht
          exact ⟨hrecall, hle⟩
        · cases ht
  | some v =>
      have hlow := hvalidity v rfl
      simp only [episodicEnd, Option.map_some]
      split
      · rename_i hlt
        have hlt' : v.utc < recallAt.at_.utc := hlt
        constructor
        · intro h
          exact ⟨v, Or.inr rfl, h.2⟩
        · rintro ⟨t, ht | ht, hle⟩
          · cases ht
            exact ⟨hlow, by dsimp only; omega⟩
          · cases ht
            exact ⟨hlow, hle⟩
      · rename_i hlt
        have hge : recallAt.at_.utc ≤ v.utc := not_lt.1 hlt
        constructor
        · intro h
          exact ⟨recallAt.at_, Or.inl rfl, h.2⟩
        · rintro ⟨t, ht | ht, hle⟩
          · cases ht
            exact ⟨hrecall, hle⟩
          · cases ht
            exact ⟨hrecall, by omega⟩

theorem episodicDecision_iff {facts : RetentionFacts} {lifecycle : PrivateLifecycleReadFacts}
    {recallAt validity : Option OffsetDateTime} {base : RetentionDecision} {t : OffsetDateTime}
    (hbase : Evaluable .episodic facts)
    (h : Overrides .episodic facts lifecycle recallAt validity) :
    (∃ d, privateRetention .episodic facts base recallAt validity t = .ok d) ↔
      InCalendar .episodic facts lifecycle := by
  obtain ⟨occurred, explicit, hoccurred, hexplicit, hordinary, hlow, -⟩ := evaluable_episodic hbase
  obtain ⟨hminOrdinary, hminExplicit⟩ :=
    minWithExplicit_le ⟨ordinaryEnd occurred, .episodicOrdinaryWindow⟩ explicit
  have hinstant := instant?_of_required hoccurred
  have hrecallClock : recallClock facts lifecycle = some (recallAt.getD (ordinaryEnd occurred)) := by
    rw [recallClock, instant?_of_verified h.recall_read, hinstant]
    cases recallAt <;> rfl
  have hvalidityClock : validityClock facts lifecycle = validity.or explicit := by
    rw [validityClock, instant?_of_verified h.validity_read, instant?_of_parseOptional hexplicit]
  have hvalidity : validityBoundary facts validity .episodic =
      .ok ((validity.or explicit).map (⟨·, .explicitExpiry⟩)) := by
    simp only [validityBoundary, h.extendedValidity hexplicit, ok_bind]
  -- the overrides only move a clock to a later instant
  have hrecallLow : minWritten ≤ (recallAt.getD (ordinaryEnd occurred)).utc := by
    have hordinaryLow : minWritten ≤ (ordinaryEnd occurred).utc := le_trans hlow hminOrdinary
    cases recallAt with
    | none => exact hordinaryLow
    | some r =>
        obtain ⟨-, occurred', hoccurred', hlt, -⟩ := h.recall_extends r rfl
        rw [hinstant, Option.some.injEq] at hoccurred'
        rw [← hoccurred'] at hlt
        exact le_trans hordinaryLow (le_of_lt hlt)
  have hvalidityLow : ∀ v ∈ validity.or explicit, minWritten ≤ v.utc := by
    intro v hv
    cases validity with
    | none => exact le_trans hlow (hminExplicit v hv)
    | some w =>
        obtain ⟨-, base, hbase', hlt⟩ := h.validity_extends w rfl
        obtain rfl : explicit = some base := (instant?_of_parseOptional hexplicit).symm.trans hbase'
        obtain rfl : w = v := Option.some.inj hv
        exact le_trans hlow (le_trans (hminExplicit base rfl) (le_of_lt hlt))
  have hdecision : (∃ d, privateRetention .episodic facts base recallAt validity t = .ok d) ↔
      (maximumEnd occurred).representable ∧ ∃ t, (some (recallAt.getD (ordinaryEnd occurred)) = some t ∨
        validity.or explicit = some t) ∧ t.utc ≤ maxWritten := by
    simp only [privateRetention, hvalidity, ok_bind]
    have hboundary := fun b => h.episodicRecall (b := b) hoccurred hordinary
    constructor
    · rintro ⟨d, hd⟩
      obtain ⟨b, hb, hd⟩ := bind_eq_ok.1 hd
      obtain ⟨hrepresentable, rfl⟩ := (hboundary b).1 hb
      refine ⟨hrepresentable, ?_⟩
      have hwritten := decision_iff_written.1 ⟨d, hd⟩
      cases recallAt with
      | none => exact (written_episodicEnd _ hrecallLow hvalidityLow).1 hwritten
      | some r => exact (written_episodicEnd _ hrecallLow hvalidityLow).1 hwritten
    · rintro ⟨hrepresentable, hclock⟩
      rw [(hboundary _).2 ⟨hrepresentable, rfl⟩]
      refine decision_iff_written.2 ?_
      cases recallAt with
      | none => exact (written_episodicEnd ⟨_, _⟩ hrecallLow hvalidityLow).2 hclock
      | some r => exact (written_episodicEnd ⟨_, _⟩ hrecallLow hvalidityLow).2 hclock
  rw [hdecision, InCalendar, WindowInCalendar, ClocksInCalendar, hrecallClock, hvalidityClock,
    hinstant]
  simp only [Option.mem_some_iff, forall_eq']

theorem durableDecision_iff {lane : MemoryLane} {facts : RetentionFacts}
    {lifecycle : PrivateLifecycleReadFacts} {recallAt validity : Option OffsetDateTime}
    {base : RetentionDecision} {t : OffsetDateTime} (hbase : Evaluable lane facts)
    (h : Overrides lane facts lifecycle recallAt validity) (hsession : lane ≠ .session)
    (hepisodic : lane ≠ .episodic) :
    (∃ d, privateRetention lane facts base recallAt validity t = .ok d) ↔
      ∀ t ∈ validityClock facts lifecycle, t.utc ≤ maxWritten := by
  obtain ⟨explicit, hexplicit, hwritten⟩ := evaluable_durable hbase hsession hepisodic
  have hvalidityClock : validityClock facts lifecycle = validity.or explicit := by
    rw [validityClock, instant?_of_verified h.validity_read, instant?_of_parseOptional hexplicit]
  have hretention : privateRetention lane facts base recallAt validity t =
      decisionFromBoundary ((validity.or explicit).map (⟨·, .explicitExpiry⟩)) t := by
    rw [h.recall_none hepisodic]
    cases lane with
    | session => exact absurd rfl hsession
    | episodic => exact absurd rfl hepisodic
    | semantic =>
        simp only [privateRetention, validityBoundary, h.extendedValidity hexplicit,
          ensure_of (show (none : Option OffsetDateTime).isNone = true from rfl), ok_bind]
    | procedural =>
        simp only [privateRetention, validityBoundary, h.extendedValidity hexplicit,
          ensure_of (show (none : Option OffsetDateTime).isNone = true from rfl), ok_bind]
  rw [hretention, hvalidityClock]
  cases hclock : validity.or explicit with
  | none => simp [decisionFromBoundary_none]
  | some v =>
      rw [Option.map_some, decision_iff_written]
      simp only [Option.mem_some_iff, forall_eq']
      constructor
      · intro hv
        exact hv.2
      · intro hle
        refine ⟨?_, hle⟩
        cases validity with
        | none => exact (hwritten v hclock).1
        | some w =>
            obtain ⟨-, base, hbase', hlt⟩ := h.validity_extends w rfl
            obtain rfl : explicit = some base :=
              (instant?_of_parseOptional hexplicit).symm.trans hbase'
            obtain rfl : w = v := Option.some.inj hclock
            exact le_trans (hwritten base rfl).1 (le_of_lt hlt)

/-- The window of a session that has a decision ends in the calendar. -/
theorem window_of_evaluable {facts : RetentionFacts} (h : Evaluable .session facts) :
    WindowInCalendar .session facts := by
  obtain ⟨c, hreads, hvalid⟩ := evaluable_session_iff.1 h
  intro started hstarted
  rw [instant?_of_required hreads.started] at hstarted
  obtain rfl : c.started = started := Option.some.inj hstarted
  exact hvalid.maximum_representable

theorem privateRetention_iff {lane : MemoryLane} {facts : RetentionFacts}
    {lifecycle : PrivateLifecycleReadFacts} {recallAt validity : Option OffsetDateTime}
    (base : RetentionDecision) (t : OffsetDateTime) (hbase : Evaluable lane facts)
    (h : Overrides lane facts lifecycle recallAt validity) :
    (∃ d, privateRetention lane facts base recallAt validity t = .ok d) ↔
      InCalendar lane facts lifecycle := by
  cases lane with
  | session =>
      rw [h.recall_none (by decide), h.validity_none rfl]
      exact iff_of_true ⟨base, rfl⟩ ⟨window_of_evaluable hbase, trivial⟩
  | episodic => exact episodicDecision_iff hbase h
  | semantic =>
      rw [durableDecision_iff hbase h (by decide) (by decide)]
      exact ⟨fun hclocks => ⟨trivial, hclocks⟩, fun hin => hin.2⟩
  | procedural =>
      rw [durableDecision_iff hbase h (by decide) (by decide)]
      exact ⟨fun hclocks => ⟨trivial, hclocks⟩, fun hin => hin.2⟩

/-- A record that has a decision of its own when its window ends in the calendar, and whose
overrides extend its clocks, is decided exactly when its clocks stay in the calendar, whatever the
instant. -/
theorem evaluatePrivate_ok_iff {recordId : String} {status : MemoryStatus} {lane : MemoryLane}
    {facts : RetentionFacts} {lifecycle : PrivateLifecycleReadFacts}
    {recallAt validity : Option OffsetDateTime} (hbase : WindowInCalendar lane facts → Evaluable lane facts)
    (h : Overrides lane facts lifecycle recallAt validity) (t : OffsetDateTime) :
    (∃ d, evaluatePrivateCurrentAssertionDecision recordId status lane facts t lifecycle = .ok d) ↔
      InCalendar lane facts lifecycle := by
  constructor
  · rintro ⟨d, hd⟩
    obtain ⟨base, hdecision, hd⟩ := bind_eq_ok.1 hd
    obtain ⟨recallAt', hrecall, hd⟩ := bind_eq_ok.1 hd
    obtain ⟨validity', hvalidity, hd⟩ := bind_eq_ok.1 hd
    obtain ⟨retention, hretention, -⟩ := bind_eq_ok.1 hd
    obtain rfl : recallAt = recallAt' := Except.ok.inj (h.recall_read.symm.trans hrecall)
    obtain rfl : validity = validity' := Except.ok.inj (h.validity_read.symm.trans hvalidity)
    exact (privateRetention_iff _ _ (evaluable_of_ok hdecision) h).1 ⟨retention, hretention⟩
  · intro hin
    have hevaluable := hbase hin.1
    obtain ⟨base, hdecision⟩ := hevaluable recordId t
    obtain ⟨retention, hretention⟩ := (privateRetention_iff base t hevaluable h).2 hin
    obtain ⟨exclusions, hexclusions⟩ := h.quarantine_read
    simp only [evaluatePrivateCurrentAssertionDecision, hdecision, h.recall_read, h.validity_read,
      hretention, hexclusions, ok_bind]
    exact ⟨_, rfl⟩

/-! ### One boundary decides -/

/-- A boundary that can be decided at one instant can be decided at every instant. -/
theorem decisionFromBoundary_total {boundary : Option Boundary} {t₀ : OffsetDateTime}
    {d : RetentionDecision} (h : decisionFromBoundary boundary t₀ = .ok d) (t : OffsetDateTime) :
    ∃ d', decisionFromBoundary boundary t = .ok d' := by
  cases boundary with
  | none => exact ⟨_, rfl⟩
  | some b =>
      obtain ⟨text, htext, -⟩ := decisionFromBoundary_some.1 h
      exact ⟨_, decisionFromBoundary_some.2 ⟨text, htext, rfl⟩⟩

/-- One boundary decides a record at every instant. -/
theorem evaluateRetention_boundary {recordId : String} {lane : MemoryLane} {facts : RetentionFacts}
    {t₀ : OffsetDateTime} {d : RetentionDecision}
    (h : evaluateRetention recordId lane facts t₀ = .ok d) :
    ∃ boundary, ∀ t, ∃ d', decisionFromBoundary boundary t = .ok d' ∧
      evaluateRetention recordId lane facts t = .ok d' := by
  obtain ⟨explicit, hexplicit, h⟩ := bind_eq_ok.1 (withContext_eq_ok.1 h)
  obtain ⟨boundary, hboundary, h⟩ := bind_eq_ok.1 h
  refine ⟨boundary, fun t => ?_⟩
  obtain ⟨d', hd'⟩ := decisionFromBoundary_total h t
  exact ⟨d', hd', withContext_eq_ok.2 (bind_eq_ok.2 ⟨explicit, hexplicit,
    bind_eq_ok.2 ⟨boundary, hboundary, hd'⟩⟩)⟩

/-- One boundary decides a private record at every instant, under whatever overrides it has. -/
theorem privateRetention_boundary {recordId : String} {lane : MemoryLane} {facts : RetentionFacts}
    {recallAt validity : Option OffsetDateTime} {t₀ : OffsetDateTime} {base d : RetentionDecision}
    (hbase : evaluateRetention recordId lane facts t₀ = .ok base)
    (h : privateRetention lane facts base recallAt validity t₀ = .ok d) :
    ∃ boundary, ∀ t, ∃ base' d', evaluateRetention recordId lane facts t = .ok base' ∧
      decisionFromBoundary boundary t = .ok d' ∧
        privateRetention lane facts base' recallAt validity t = .ok d' := by
  obtain ⟨baseBoundary, hbases⟩ := evaluateRetention_boundary hbase
  -- off the session lane the decision has a boundary of its own, whatever the base says
  have hown : ∀ boundary, (∀ base' t, privateRetention lane facts base' recallAt validity t =
        decisionFromBoundary boundary t) →
      ∃ boundary, ∀ t, ∃ base' d', evaluateRetention recordId lane facts t = .ok base' ∧
        decisionFromBoundary boundary t = .ok d' ∧
          privateRetention lane facts base' recallAt validity t = .ok d' := by
    intro boundary heq
    refine ⟨boundary, fun t => ?_⟩
    obtain ⟨base', -, hbase'⟩ := hbases t
    obtain ⟨d', hd'⟩ := decisionFromBoundary_total ((heq base t₀).symm.trans h) t
    exact ⟨base', d', hbase', hd', (heq base' t).trans hd'⟩
  cases lane with
  | session =>
      obtain ⟨hrecall, h⟩ := check_bind_eq_ok.1 h
      obtain ⟨hvalidity, h⟩ := check_bind_eq_ok.1 h
      refine ⟨baseBoundary, fun t => ?_⟩
      obtain ⟨base', hd', hbase'⟩ := hbases t
      exact ⟨base', base', hbase', hd',
        check_bind_eq_ok.2 ⟨hrecall, check_bind_eq_ok.2 ⟨hvalidity, rfl⟩⟩⟩
  | episodic =>
      obtain ⟨recallBoundary, hrecall, hrest⟩ := bind_eq_ok.1 h
      obtain ⟨validityAt, hvalidity, _⟩ := bind_eq_ok.1 hrest
      cases validityAt with
      | none =>
          refine hown (some recallBoundary) fun base' t => ?_
          simp only [privateRetention, hrecall, hvalidity, ok_bind]
      | some v =>
          refine hown (some (if v.at_ < recallBoundary.at_ then v else recallBoundary))
            fun base' t => ?_
          simp only [privateRetention, hrecall, hvalidity, ok_bind]
  | semantic =>
      obtain ⟨hnone, hrest⟩ := check_bind_eq_ok.1 h
      obtain ⟨boundary, hboundary, _⟩ := bind_eq_ok.1 hrest
      refine hown boundary fun base' t => ?_
      simp only [privateRetention, hnone, hboundary, ok_bind]
  | procedural =>
      obtain ⟨hnone, hrest⟩ := check_bind_eq_ok.1 h
      obtain ⟨boundary, hboundary, _⟩ := bind_eq_ok.1 hrest
      refine hown boundary fun base' t => ?_
      simp only [privateRetention, hnone, hboundary, ok_bind]

/-- One boundary and one list of quarantine exclusions give the decision on a private record at
every instant. -/
theorem evaluatePrivate_boundary {recordId : String} {status : MemoryStatus} {lane : MemoryLane}
    {facts : RetentionFacts} {lifecycle : PrivateLifecycleReadFacts} {t₀ : OffsetDateTime}
    {d : CurrentAssertionDecision}
    (h : evaluatePrivateCurrentAssertionDecision recordId status lane facts t₀ lifecycle = .ok d) :
    ∃ boundary quarantine, ∀ t, ∃ r, decisionFromBoundary boundary t = .ok r ∧
      evaluatePrivateCurrentAssertionDecision recordId status lane facts t lifecycle =
        .ok ⟨(baseExclusions status r ++ quarantine).isEmpty, r,
          baseExclusions status r ++ quarantine⟩ := by
  obtain ⟨base, hbase, h⟩ := bind_eq_ok.1 h
  obtain ⟨recallAt, hrecallAt, h⟩ := bind_eq_ok.1 h
  obtain ⟨validity, hvalidity, h⟩ := bind_eq_ok.1 h
  obtain ⟨retention, hretention, h⟩ := bind_eq_ok.1 h
  obtain ⟨quarantine, hquarantine, h⟩ := bind_eq_ok.1 h
  obtain ⟨boundary, hboundary⟩ := privateRetention_boundary hbase hretention
  refine ⟨boundary, quarantine, fun t => ?_⟩
  obtain ⟨base', r, hbase', hr, hretention'⟩ := hboundary t
  exact ⟨r, hr, bind_eq_ok.2 ⟨base', hbase', bind_eq_ok.2 ⟨recallAt, hrecallAt,
    bind_eq_ok.2 ⟨validity, hvalidity, bind_eq_ok.2 ⟨r, hretention',
      bind_eq_ok.2 ⟨quarantine, hquarantine, rfl⟩⟩⟩⟩⟩⟩

/-- A record that is current was current before: its boundary lies ahead. -/
theorem current_earlier {recordId : String} {status : MemoryStatus} {lane : MemoryLane}
    {facts : RetentionFacts} {lifecycle : PrivateLifecycleReadFacts} {t₀ t : OffsetDateTime}
    {d : CurrentAssertionDecision} (hle : t₀ ≤ t)
    (h : evaluatePrivateCurrentAssertionDecision recordId status lane facts t lifecycle = .ok d)
    (hcurrent : d.isCurrent = true) :
    ∃ d₀, evaluatePrivateCurrentAssertionDecision recordId status lane facts t₀ lifecycle = .ok d₀ ∧
      d₀.isCurrent = true := by
  obtain ⟨boundary, quarantine, hall⟩ := evaluatePrivate_boundary h
  obtain ⟨r, hr, hat⟩ := hall t
  obtain ⟨r₀, hr₀, hat₀⟩ := hall t₀
  cases h.symm.trans hat
  refine ⟨_, hat₀, ?_⟩
  have hnil := List.append_eq_nil_iff.1 (List.isEmpty_iff.1 hcurrent)
  have hstate : r₀.state = .current := by
    have hnow : r.state = .current := (baseExclusions_eq_nil.1 hnil.1).2
    cases boundary with
    | none =>
        rw [decisionFromBoundary_none.1 hr₀]
    | some b =>
        obtain ⟨text, htext, rfl⟩ := decisionFromBoundary_some.1 hr
        obtain ⟨text₀, htext₀, rfl⟩ := decisionFromBoundary_some.1 hr₀
        have hahead : ¬ b.at_ ≤ t := by
          intro hpassed
          simp [hpassed] at hnow
        have hahead₀ : ¬ b.at_ ≤ t₀ := by
          simp only [le_def] at hle hahead ⊢
          omega
        show (if b.at_ ≤ t₀ then RetentionState.queryOnly else .current) = .current
        rw [if_neg hahead₀]
  rw [baseExclusions_eq_nil.2 ⟨(baseExclusions_eq_nil.1 hnil.1).1, hstate⟩, hnil.2]
  rfl

/-- The boundary of a decision, if it has one, does not lie after the first instant and up to the
second. -/
def Undisturbed (d : RetentionDecision) (t₀ t : OffsetDateTime) : Prop :=
  ∀ text b, d.effectiveBoundary = some text → Rfc3339.parse text = some b → t₀ < b → t < b

/-- With no boundary between two instants a decision stands. -/
theorem decisionFromBoundary_later {boundary : Option Boundary} {t₀ t : OffsetDateTime}
    {d : RetentionDecision} (hle : t₀ ≤ t) (h : decisionFromBoundary boundary t₀ = .ok d)
    (hquiet : Undisturbed d t₀ t) : decisionFromBoundary boundary t = .ok d := by
  cases boundary with
  | none => exact h
  | some b =>
      obtain ⟨text, htext, rfl⟩ := decisionFromBoundary_some.1 h
      refine decisionFromBoundary_some.2 ⟨text, htext, ?_⟩
      have hahead := hquiet text ⟨b.at_.utc, 0⟩ rfl (parse_of_formatTimestamp htext)
      have hsame : b.at_ ≤ t₀ ↔ b.at_ ≤ t := by
        simp only [le_def, lt_def] at hle hahead ⊢
        omega
      simp only [hsame]

theorem evaluatePrivate_later {recordId : String} {status : MemoryStatus} {lane : MemoryLane}
    {facts : RetentionFacts} {lifecycle : PrivateLifecycleReadFacts} {t₀ t : OffsetDateTime}
    {d : CurrentAssertionDecision} (hle : t₀ ≤ t)
    (h : evaluatePrivateCurrentAssertionDecision recordId status lane facts t₀ lifecycle = .ok d)
    (hquiet : Undisturbed d.retention t₀ t) :
    evaluatePrivateCurrentAssertionDecision recordId status lane facts t lifecycle = .ok d := by
  obtain ⟨boundary, quarantine, hall⟩ := evaluatePrivate_boundary h
  obtain ⟨r₀, hr₀, hat₀⟩ := hall t₀
  obtain ⟨r, hr, hat⟩ := hall t
  cases h.symm.trans hat₀
  cases (decisionFromBoundary_later hle hr₀ hquiet).symm.trans hr
  exact hat

/-- A decision at one instant has one at every other, with the same boundary and reason. -/
theorem evaluateCurrent_total {recordId : String} {status : MemoryStatus} {lane : MemoryLane}
    {facts : RetentionFacts} {exclusions : List CurrentAssertionExclusion} {t₀ t : OffsetDateTime}
    {d : CurrentAssertionDecision} (hle : t₀ ≤ t)
    (h : evaluateCurrentAssertion recordId status lane facts t₀ exclusions = .ok d) :
    ∃ d', evaluateCurrentAssertion recordId status lane facts t exclusions = .ok d' ∧
      d'.retention.effectiveBoundary = d.retention.effectiveBoundary ∧
      d'.retention.reason = d.retention.reason ∧
      (Undisturbed d.retention t₀ t → d' = d) := by
  obtain ⟨r₀, hr₀, h⟩ := bind_eq_ok.1 h
  obtain ⟨boundary, hall⟩ := evaluateRetention_boundary hr₀
  obtain ⟨r₀', hd₀, hr₀'⟩ := hall t₀
  cases hr₀.symm.trans hr₀'
  obtain ⟨r, hd, hr⟩ := hall t
  cases h
  refine ⟨_, bind_eq_ok.2 ⟨r, hr, rfl⟩, ?_, ?_, fun hquiet => ?_⟩
  · cases boundary with
    | none => rw [decisionFromBoundary_none.1 hd, decisionFromBoundary_none.1 hd₀]
    | some b =>
        obtain ⟨text, htext, rfl⟩ := decisionFromBoundary_some.1 hd
        obtain ⟨text₀, htext₀, rfl⟩ := decisionFromBoundary_some.1 hd₀
        cases htext.symm.trans htext₀
        rfl
  · cases boundary with
    | none => rw [decisionFromBoundary_none.1 hd, decisionFromBoundary_none.1 hd₀]
    | some b =>
        obtain ⟨text, htext, rfl⟩ := decisionFromBoundary_some.1 hd
        obtain ⟨text₀, htext₀, rfl⟩ := decisionFromBoundary_some.1 hd₀
        rfl
  · cases (decisionFromBoundary_later hle hd₀ hquiet).symm.trans hd
    rfl

/-! ### New records -/

/-- The two ways the facts of a new record are made: checked at a creation boundary, or from the
clock of the service alone. -/
inductive Created (lane : MemoryLane) : RetentionFacts → Prop
  | checked {createdAt : String} {occurredAt explicitExpiresAt : Option String}
      {facts : RetentionFacts}
      (h : retentionFactsForCreation lane createdAt occurredAt explicitExpiresAt = .ok facts) :
      Created lane facts
  | byLane {now : OffsetDateTime} {createdAt : String} (h : formatTimestamp now = .ok createdAt) :
      Created lane (retentionFactsForLane lane createdAt)

/-- The facts that creation checks have a decision. -/
theorem evaluable_of_creation {lane : MemoryLane} {createdAt : String}
    {occurredAt explicitExpiresAt : Option String} {facts : RetentionFacts}
    (h : retentionFactsForCreation lane createdAt occurredAt explicitExpiresAt = .ok facts) :
    Evaluable lane facts := by
  obtain ⟨_, -, h⟩ := bind_eq_ok.1 h
  obtain ⟨_, -, h⟩ := bind_eq_ok.1 h
  obtain ⟨facts', -, h⟩ := bind_eq_ok.1 h
  obtain ⟨_, hdecision, h⟩ := bind_eq_ok.1 h
  cases h
  exact evaluable_of_ok hdecision

/-- The clock of the service, read back from the facts of a new record. -/
theorem instant?_of_format {now : OffsetDateTime} {text : String}
    (h : formatTimestamp now = .ok text) : instant? (some text) = some ⟨now.utc, 0⟩ :=
  parseTimestamp_eq_ok.1 (parseTimestamp_format h "")

theorem retentionFactsForLane_session (now : String) :
    retentionFactsForLane .session now = ⟨none, some now, none, none, none, none⟩ := rfl

theorem retentionFactsForLane_episodic (now : String) :
    retentionFactsForLane .episodic now = ⟨some now, none, none, none, none, none⟩ := rfl

theorem evaluable_session_byLane {now : OffsetDateTime} {text : String}
    (h : formatTimestamp now = .ok text)
    (hwindow : WindowInCalendar .session (retentionFactsForLane .session text)) :
    Evaluable .session (retentionFactsForLane .session text) := by
  have hwritten : written now := formatTimestamp_ok_iff.1 ⟨text, h⟩
  have hmax : (sessionEnd ⟨now.utc, 0⟩).representable := hwindow _ (instant?_of_format h)
  have hmin := minLocal_lt
  have hlimit := maxLocal_eq
  have hhours : (0 : Int) < hours sessionInactivityHours := by decide
  have hdays : hours sessionInactivityHours ≤ days sessionMaximumDays := by decide
  rw [sessionEnd, representable, localNanos_utc] at hmax
  dsimp only at hmax
  have hreads : ReadsAs (retentionFactsForLane .session text) ⟨⟨now.utc, 0⟩, none, none, none⟩ := by
    rw [retentionFactsForLane_session]
    refine ⟨rfl, rfl, ?_, rfl, rfl, rfl⟩
    rw [requiredTimestamp_some]
    exact parseTimestamp_format h "started_at"
  refine evaluable_session_iff.2 ⟨_, hreads, ?_, ?_, ?_, ?_, ?_⟩
  · rw [SessionClocks.maximum, representable, localNanos_utc]
    exact hmax
  · rw [SessionClocks.lease, SessionClocks.leaseBase, Option.getD_none, representable,
      localNanos_utc]
    obtain ⟨hlow, -⟩ := hwritten
    dsimp only
    omega
  · intro t ht
    cases ht
  · intro t ht
    cases ht
  · -- without a closure or an expiry the session ends with its lease or its seven days
    obtain ⟨hlow, -⟩ := hwritten
    rcases SessionClocks.boundary_cases ⟨⟨now.utc, 0⟩, none, none, none⟩ with hb | hb | hb | hb
    · rw [hb, SessionClocks.lease, SessionClocks.leaseBase, Option.getD_none, written]
      dsimp only
      omega
    · rw [hb, SessionClocks.maximum, written]
      dsimp only
      omega
    · cases hb
    · cases hb

theorem evaluable_episodic_byLane {now : OffsetDateTime} {text : String}
    (h : formatTimestamp now = .ok text)
    (hwindow : WindowInCalendar .episodic (retentionFactsForLane .episodic text)) :
    Evaluable .episodic (retentionFactsForLane .episodic text) := by
  have hwritten : written now := formatTimestamp_ok_iff.1 ⟨text, h⟩
  have hmax : (maximumEnd ⟨now.utc, 0⟩).representable := hwindow _ (instant?_of_format h)
  have hmin := minLocal_lt
  have hlimit := maxLocal_eq
  have hpositive : (0 : Int) < days episodicOrdinaryDays := by decide
  have hdays : days episodicOrdinaryDays ≤ days episodicMaximumRecallDays := by decide
  obtain ⟨hlow, -⟩ := hwritten
  rw [maximumEnd, representable, localNanos_utc] at hmax
  dsimp only at hmax
  have hordinary : (ordinaryEnd ⟨now.utc, 0⟩).representable := by
    rw [ordinaryEnd, representable, localNanos_utc]
    dsimp only
    omega
  have hend : written (ordinaryEnd ⟨now.utc, 0⟩) := by
    rw [ordinaryEnd, written]
    dsimp only
    omega
  have hboundary : laneBoundary .episodic (retentionFactsForLane .episodic text) none =
      .ok (some ⟨ordinaryEnd ⟨now.utc, 0⟩, .episodicOrdinaryWindow⟩) := by
    have hadd : addDuration ⟨now.utc, 0⟩ (days episodicOrdinaryDays) "ordinary episodic window" =
        .ok (ordinaryEnd ⟨now.utc, 0⟩) := addDuration_eq_ok.2 ⟨hordinary, rfl⟩
    simp only [retentionFactsForLane_episodic, laneBoundary, episodicBoundary, rejectSessionFields,
      rejectField, requiredTimestamp_some, parseTimestamp_format h, hadd, ok_bind, ensure, Option.isNone_none, if_true, minWithExplicit]
  obtain ⟨d, hd⟩ := (decision_iff_written (b := ⟨ordinaryEnd ⟨now.utc, 0⟩, .episodicOrdinaryWindow⟩)
    (t := ⟨0, 0⟩)).2 hend
  have hevaluated : evaluateRetention "" .episodic (retentionFactsForLane .episodic text) ⟨0, 0⟩ =
      .ok d := withContext_eq_ok.2 (bind_eq_ok.2 ⟨none, rfl, bind_eq_ok.2 ⟨_, hboundary, hd⟩⟩)
  exact evaluable_of_ok hevaluated

/-- A new record whose window ends in the calendar has a decision of its own. -/
theorem Created.evaluable {lane : MemoryLane} {facts : RetentionFacts} (h : Created lane facts)
    (hwindow : WindowInCalendar lane facts) : Evaluable lane facts := by
  cases h with
  | checked h => exact evaluable_of_creation h
  | byLane h =>
      cases lane with
      | session => exact evaluable_session_byLane h hwindow
      | episodic => exact evaluable_episodic_byLane h hwindow
      | semantic => exact fun recordId t => ⟨_, rfl⟩
      | procedural => exact fun recordId t => ⟨_, rfl⟩

end Retention
end Memzoi
