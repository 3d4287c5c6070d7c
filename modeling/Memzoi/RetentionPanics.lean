/-
# When retention evaluation panics

Source: `retention.rs` (`evaluate_retention_inner`, `decision_from_boundary`,
`format_timestamp`).

Reading and adding are checked. The one unchecked step is the last one, the
conversion of the boundary to UTC before it is written: an instant with a
negative offset can lie inside the calendar where it was written and past its
end in UTC. The boundary is the earliest of the record's ends (`LaneEnds`), so
the evaluator panics exactly when every one of them lies past the last instant
of the calendar (`evaluateRetention_panics_iff`).
-/

import Memzoi.PrivateRetentionRules

namespace Memzoi
namespace Retention

open Fallible OffsetDateTime

/-! ### The ends of a record -/

/-- The clocks of a session that the evaluator adds up and compares without an error. -/
structure SessionClocks.Ordered (c : SessionClocks) : Prop where
  maximum_representable : c.maximum.representable
  lease_representable : c.lease.representable
  continued_order : ∀ t ∈ c.continued, c.started.utc ≤ t.utc ∧ t.utc < c.maximum.utc
  closed_order : ∀ t ∈ c.closed, c.started.utc ≤ t.utc

def SessionClocks.ends (c : SessionClocks) : List OffsetDateTime :=
  c.lease :: c.maximum :: (c.closed.toList ++ c.explicit.toList)

/-- The instants at which a record stops being current, when its facts are those of its lane and
its timestamps can be read. -/
inductive LaneEnds (facts : RetentionFacts) : MemoryLane → List OffsetDateTime → Prop
  | session {c : SessionClocks} (reads : ReadsAs facts c) (ordered : c.Ordered) :
      LaneEnds facts .session c.ends
  | episodic {occurred : OffsetDateTime} {explicit : Option OffsetDateTime}
      (fields : rejectSessionFields facts .episodic = .ok ())
      (extension : facts.episodicExtension = none)
      (occurred_read : requiredTimestamp facts.occurredAt "occurred_at" .episodic = .ok occurred)
      (explicit_read : parseOptional facts.explicitExpiresAt "explicit_expires_at" = .ok explicit)
      (representable : (ordinaryEnd occurred).representable) :
      LaneEnds facts .episodic (ordinaryEnd occurred :: explicit.toList)
  | durable {lane : MemoryLane} {explicit : Option OffsetDateTime}
      (durable : lane = .semantic ∨ lane = .procedural) (occurred : facts.occurredAt = none)
      (fields : rejectSessionFields facts lane = .ok ()) (extension : facts.episodicExtension = none)
      (explicit_read : parseOptional facts.explicitExpiresAt "explicit_expires_at" = .ok explicit) :
      LaneEnds facts lane explicit.toList

/-- The boundary is the earliest of the ends, and there is none without an end. -/
def Earliest (boundary : Option Boundary) (ends : List OffsetDateTime) : Prop :=
  match boundary with
  | none => ends = []
  | some b => b.at_ ∈ ends ∧ ∀ t ∈ ends, b.at_.utc ≤ t.utc

/-- Every end of the record lies past the last instant of the calendar. -/
def EndsPastCalendar (lane : MemoryLane) (facts : RetentionFacts) : Prop :=
  ∃ ends, LaneEnds facts lane ends ∧ ends ≠ [] ∧ ∀ t ∈ ends, maxLocal < t.utc

theorem Earliest.past_iff {boundary : Option Boundary} {ends : List OffsetDateTime}
    (h : Earliest boundary ends) :
    (ends ≠ [] ∧ ∀ t ∈ ends, maxLocal < t.utc) ↔ ∃ b, boundary = some b ∧ maxLocal < b.at_.utc := by
  cases boundary with
  | none =>
      constructor
      · rintro ⟨hne, -⟩
        exact absurd h hne
      · rintro ⟨b, hb, -⟩
        cases hb
  | some b =>
      obtain ⟨hmem, hle⟩ := h
      constructor
      · rintro ⟨-, hpast⟩
        exact ⟨b, rfl, hpast _ hmem⟩
      · rintro ⟨b', hb, hpast⟩
        cases hb
        exact ⟨List.ne_nil_of_mem hmem, fun t ht => lt_of_lt_of_le hpast (hle t ht)⟩

/-! ### Boundaries are earliest ends -/

theorem earliest_session (c : SessionClocks) : Earliest (some c.boundary) c.ends := by
  obtain ⟨hlease, hmaximum, hclosed, hexplicit⟩ := c.boundary_le
  refine ⟨?_, ?_⟩
  · rw [SessionClocks.ends]
    simp only [List.mem_cons, List.mem_append, Option.mem_toList]
    exact c.boundary_cases
  · intro t ht
    simp only [SessionClocks.ends, List.mem_cons, List.mem_append, Option.mem_toList] at ht
    rcases ht with rfl | rfl | ht | ht
    · exact hlease
    · exact hmaximum
    · exact hclosed t ht
    · exact hexplicit t ht

theorem earliest_minWithExplicit (policy : Boundary) (explicit : Option OffsetDateTime) :
    Earliest (some (minWithExplicit policy explicit)) (policy.at_ :: explicit.toList) := by
  obtain ⟨hpolicy, hexplicit⟩ := minWithExplicit_le policy explicit
  refine ⟨?_, ?_⟩
  · cases explicit with
    | none => exact List.mem_cons_self
    | some e =>
        unfold minWithExplicit
        dsimp only
        split
        · exact List.mem_cons_of_mem _ (List.mem_singleton_self e)
        · exact List.mem_cons_self
  · intro t ht
    rcases List.mem_cons.1 ht with rfl | ht
    · exact hpolicy
    · exact hexplicit t (Option.mem_toList.1 ht)

theorem earliest_explicit (explicit : Option OffsetDateTime) :
    Earliest (explicit.map (⟨·, .explicitExpiry⟩)) explicit.toList := by
  cases explicit with
  | none => rfl
  | some e => exact ⟨List.mem_singleton_self e, fun t ht => by rw [List.mem_singleton.1 ht]⟩

theorem sessionBoundary_eq_ok {facts : RetentionFacts} {explicit : Option OffsetDateTime}
    (hexplicit : parseOptional facts.explicitExpiresAt "explicit_expires_at" = .ok explicit)
    {boundary : Option Boundary} :
    sessionBoundary facts explicit = .ok boundary ↔
      ∃ c, ReadsAs facts c ∧ c.Ordered ∧ boundary = some c.boundary := by
  simp only [sessionBoundary, rejectField, bind_eq_ok, ensure_eq_ok, Option.isNone_iff_eq_none,
    checkSessionOrder_eq_ok, addDuration_eq_ok]
  constructor
  · rintro ⟨⟨⟩, hoccurred, ⟨⟩, hextension, started, hstarted, continued, hcontinued, closed, hclosed,
      maximum, ⟨hmaximum, rfl⟩, ⟨⟩, hordered, lease, ⟨hlease, rfl⟩, hboundary⟩
    cases hboundary
    exact ⟨⟨started, continued, closed, explicit⟩,
      ⟨hoccurred, hextension, hstarted, hcontinued, hclosed, hexplicit⟩,
      ⟨hmaximum, hlease, hordered.1, hordered.2⟩, rfl⟩
  · rintro ⟨c, hreads, hordered, rfl⟩
    obtain rfl : explicit = c.explicit := Except.ok.inj (hexplicit.symm.trans hreads.explicit)
    exact ⟨(), hreads.occurred, (), hreads.extension, c.started, hreads.started, c.continued,
      hreads.continued, c.closed, hreads.closed, _, ⟨hordered.maximum_representable, rfl⟩, (),
      ⟨hordered.continued_order, hordered.closed_order⟩, _, ⟨hordered.lease_representable, rfl⟩, rfl⟩

theorem episodicBoundary_eq_ok {facts : RetentionFacts} {explicit : Option OffsetDateTime}
    {boundary : Option Boundary} :
    episodicBoundary facts explicit = .ok boundary ↔
      rejectSessionFields facts .episodic = .ok () ∧ facts.episodicExtension = none ∧
        ∃ occurred, requiredTimestamp facts.occurredAt "occurred_at" .episodic = .ok occurred ∧
          (ordinaryEnd occurred).representable ∧
          boundary = some (minWithExplicit ⟨ordinaryEnd occurred, .episodicOrdinaryWindow⟩ explicit) := by
  simp only [episodicBoundary, bind_eq_ok, ensure_eq_ok, addDuration_eq_ok,
    Option.isNone_iff_eq_none, Except.ok.injEq]
  constructor
  · rintro ⟨⟨⟩, hfields, occurred, hoccurred, ordinary, ⟨hrepresentable, rfl⟩, ⟨⟩, hextension, rfl⟩
    exact ⟨hfields, hextension, occurred, hoccurred, hrepresentable, rfl⟩
  · rintro ⟨hfields, hextension, occurred, hoccurred, hrepresentable, rfl⟩
    exact ⟨(), hfields, occurred, hoccurred, _, ⟨hrepresentable, rfl⟩, (), hextension, rfl⟩

theorem durableBoundary_eq_ok {lane : MemoryLane} {facts : RetentionFacts}
    {explicit : Option OffsetDateTime} {boundary : Option Boundary} :
    durableBoundary lane facts explicit = .ok boundary ↔
      facts.occurredAt = none ∧ rejectSessionFields facts lane = .ok () ∧
        facts.episodicExtension = none ∧ boundary = explicit.map (⟨·, .explicitExpiry⟩) := by
  simp only [durableBoundary, rejectField, check_bind_eq_ok, ensure_eq_ok,
    Option.isNone_iff_eq_none, Except.ok.injEq]
  rw [eq_comm (a := boundary)]

/-- The boundary of a record is the earliest of its ends. -/
theorem laneBoundary_eq_ok {lane : MemoryLane} {facts : RetentionFacts}
    {explicit : Option OffsetDateTime} {boundary : Option Boundary}
    (hexplicit : parseOptional facts.explicitExpiresAt "explicit_expires_at" = .ok explicit)
    (h : laneBoundary lane facts explicit = .ok boundary) :
    ∃ ends, LaneEnds facts lane ends ∧ Earliest boundary ends := by
  cases lane with
  | session =>
      obtain ⟨c, hreads, hordered, rfl⟩ := (sessionBoundary_eq_ok hexplicit).1 h
      exact ⟨c.ends, .session hreads hordered, earliest_session c⟩
  | episodic =>
      obtain ⟨hfields, hextension, occurred, hoccurred, hrepresentable, rfl⟩ :=
        episodicBoundary_eq_ok.1 h
      exact ⟨_, .episodic hfields hextension hoccurred hexplicit hrepresentable,
        earliest_minWithExplicit _ _⟩
  | semantic =>
      obtain ⟨hoccurred, hfields, hextension, rfl⟩ := durableBoundary_eq_ok.1 h
      exact ⟨_, .durable (Or.inl rfl) hoccurred hfields hextension hexplicit, earliest_explicit _⟩
  | procedural =>
      obtain ⟨hoccurred, hfields, hextension, rfl⟩ := durableBoundary_eq_ok.1 h
      exact ⟨_, .durable (Or.inr rfl) hoccurred hfields hextension hexplicit, earliest_explicit _⟩

/-- A record with ends has a boundary, the earliest of them. -/
theorem LaneEnds.boundary {lane : MemoryLane} {facts : RetentionFacts} {ends : List OffsetDateTime}
    (h : LaneEnds facts lane ends) :
    ∃ explicit boundary, parseOptional facts.explicitExpiresAt "explicit_expires_at" = .ok explicit ∧
      laneBoundary lane facts explicit = .ok boundary ∧ Earliest boundary ends := by
  cases h with
  | @session c hreads hordered =>
      exact ⟨c.explicit, _, hreads.explicit,
        (sessionBoundary_eq_ok hreads.explicit).2 ⟨c, hreads, hordered, rfl⟩, earliest_session c⟩
  | @episodic occurred explicit hfields hextension hoccurred hexplicit hrepresentable =>
      exact ⟨explicit, _, hexplicit,
        episodicBoundary_eq_ok.2 ⟨hfields, hextension, occurred, hoccurred, hrepresentable, rfl⟩,
        earliest_minWithExplicit _ _⟩
  | @durable _ explicit hlane hoccurred hfields hextension hexplicit =>
      have hboundary : durableBoundary lane facts explicit =
          .ok (explicit.map (⟨·, .explicitExpiry⟩)) :=
        durableBoundary_eq_ok.2 ⟨hoccurred, hfields, hextension, rfl⟩
      rcases hlane with rfl | rfl
      · exact ⟨explicit, _, hexplicit, hboundary, earliest_explicit explicit⟩
      · exact ⟨explicit, _, hexplicit, hboundary, earliest_explicit explicit⟩

/-! ### Nothing but the last conversion panics -/

theorem not_panics_parseTimestamp (value field : String) : ¬ Panics (parseTimestamp value field) :=
  not_panics_bind (not_panics_ensure _ _) fun _ => not_panics_require _ _

theorem not_panics_parseOptional (value : Option String) (field : String) :
    ¬ Panics (parseOptional value field) := by
  cases value with
  | none => exact not_panics_ok none
  | some text =>
      exact not_panics_bind (not_panics_parseTimestamp text field) fun _ => not_panics_ok _

theorem not_panics_requiredTimestamp (value : Option String) (field : String) (lane : MemoryLane) :
    ¬ Panics (requiredTimestamp value field lane) :=
  not_panics_bind (not_panics_require _ _) fun _ => not_panics_parseTimestamp _ _

theorem not_panics_addDuration (timestamp : OffsetDateTime) (duration : Int) (name : String) :
    ¬ Panics (addDuration timestamp duration name) :=
  not_panics_require _ _

theorem not_panics_rejectField {α : Type} (field : Option α) (name : String) (lane : MemoryLane) :
    ¬ Panics (rejectField field name lane) :=
  not_panics_ensure _ _

theorem not_panics_rejectSessionFields (facts : RetentionFacts) (lane : MemoryLane) :
    ¬ Panics (rejectSessionFields facts lane) :=
  not_panics_bind (not_panics_rejectField _ _ _) fun _ =>
    not_panics_bind (not_panics_rejectField _ _ _) fun _ => not_panics_rejectField _ _ _

theorem not_panics_checkSessionOrder (started maximum : OffsetDateTime)
    (continued closed : Option OffsetDateTime) :
    ¬ Panics (checkSessionOrder started maximum continued closed) := by
  cases continued with
  | none =>
      cases closed with
      | none => exact not_panics_ok ()
      | some c => exact not_panics_ensure _ _
  | some continued =>
      refine not_panics_bind (not_panics_ensure _ _) fun _ => ?_
      refine not_panics_bind (not_panics_ensure _ _) fun _ => ?_
      cases closed with
      | none => exact not_panics_ok ()
      | some c => exact not_panics_ensure _ _

theorem not_panics_sessionBoundary (facts : RetentionFacts) (explicit : Option OffsetDateTime) :
    ¬ Panics (sessionBoundary facts explicit) := by
  refine not_panics_bind (not_panics_rejectField _ _ _) fun _ => ?_
  refine not_panics_bind (not_panics_rejectField _ _ _) fun _ => ?_
  refine not_panics_bind (not_panics_requiredTimestamp _ _ _) fun started => ?_
  refine not_panics_bind (not_panics_parseOptional _ _) fun continued => ?_
  refine not_panics_bind (not_panics_parseOptional _ _) fun closed => ?_
  refine not_panics_bind (not_panics_addDuration _ _ _) fun maximum => ?_
  refine not_panics_bind (not_panics_checkSessionOrder _ _ _ _) fun _ => ?_
  exact not_panics_bind (not_panics_addDuration _ _ _) fun lease => not_panics_ok _

theorem not_panics_episodicBoundary (facts : RetentionFacts) (explicit : Option OffsetDateTime) :
    ¬ Panics (episodicBoundary facts explicit) := by
  refine not_panics_bind (not_panics_rejectSessionFields _ _) fun _ => ?_
  refine not_panics_bind (not_panics_requiredTimestamp _ _ _) fun occurred => ?_
  refine not_panics_bind (not_panics_addDuration _ _ _) fun ordinary => ?_
  exact not_panics_bind (not_panics_ensure _ _) fun _ => not_panics_ok _

theorem not_panics_durableBoundary (lane : MemoryLane) (facts : RetentionFacts)
    (explicit : Option OffsetDateTime) : ¬ Panics (durableBoundary lane facts explicit) := by
  refine not_panics_bind (not_panics_rejectField _ _ _) fun _ => ?_
  refine not_panics_bind (not_panics_rejectSessionFields _ _) fun _ => ?_
  exact not_panics_bind (not_panics_rejectField _ _ _) fun _ => not_panics_ok _

theorem not_panics_laneBoundary (lane : MemoryLane) (facts : RetentionFacts)
    (explicit : Option OffsetDateTime) : ¬ Panics (laneBoundary lane facts explicit) := by
  cases lane with
  | session => exact not_panics_sessionBoundary facts explicit
  | episodic => exact not_panics_episodicBoundary facts explicit
  | semantic => exact not_panics_durableBoundary .semantic facts explicit
  | procedural => exact not_panics_durableBoundary .procedural facts explicit

/-- The conversion to UTC panics exactly outside the calendar. -/
theorem formatTimestamp_panics_iff {t : OffsetDateTime} :
    Panics (formatTimestamp t) ↔ ¬ (minLocal ≤ t.utc ∧ t.utc ≤ maxLocal) := by
  have hrepresentable : (⟨t.utc, 0⟩ : OffsetDateTime).representable ↔
      minLocal ≤ t.utc ∧ t.utc ≤ maxLocal := by
    rw [representable, localNanos_utc]
  rw [← hrepresentable]
  unfold formatTimestamp checkedToOffset
  dsimp only
  split
  · rename_i h
    split at h
    · cases h
    · rename_i hnot
      exact iff_of_true ⟨_, rfl⟩ hnot
  · rename_i h
    split at h
    · rename_i hin
      exact iff_of_false (not_panics_require _ _) (not_not_intro hin)
    · cases h

/-! ### Where the ends come from -/

theorem minLocal_le_of_instant? {value : Option String} {t : OffsetDateTime}
    (h : instant? value = some t) : minLocal ≤ t.utc := by
  unfold instant? at h
  obtain ⟨text, -, h⟩ := Option.bind_eq_some_iff.1 h
  split at h
  · cases h
  · exact Rfc3339.minLocal_le_of_parse h

/-- No end of a record lies before the calendar. -/
theorem LaneEnds.minLocal_le {lane : MemoryLane} {facts : RetentionFacts} {ends : List OffsetDateTime}
    (h : LaneEnds facts lane ends) : ∀ t ∈ ends, minLocal ≤ t.utc := by
  have hread : ∀ {value : Option String} {field : String} {o : Option OffsetDateTime},
      parseOptional value field = .ok o → ∀ t ∈ o.toList, minLocal ≤ t.utc := by
    intro value field o ho t ht
    rw [← instant?_of_parseOptional ho, Option.mem_toList] at ht
    exact minLocal_le_of_instant? ht
  intro t ht
  cases h with
  | @session c hreads hordered =>
      have hstarted := minLocal_le_of_instant? (instant?_of_required hreads.started)
      simp only [SessionClocks.ends, List.mem_cons, List.mem_append] at ht
      rcases ht with rfl | rfl | ht | ht
      · have hbase : c.started.utc ≤ c.leaseBase.utc := by
          unfold SessionClocks.leaseBase
          cases hcontinued : c.continued with
          | none => exact le_refl _
          | some s => exact (hordered.continued_order s hcontinued).1
        have hhours : (0 : Int) ≤ hours sessionInactivityHours := by decide
        rw [SessionClocks.lease]
        dsimp only
        omega
      · have hdays : (0 : Int) ≤ days sessionMaximumDays := by decide
        rw [SessionClocks.maximum]
        dsimp only
        omega
      · exact hread hreads.closed t ht
      · exact hread hreads.explicit t ht
  | @episodic occurred explicit hfields hextension hoccurred hexplicit hrepresentable =>
      rcases List.mem_cons.1 ht with rfl | ht
      · have hstart := minLocal_le_of_instant? (instant?_of_required hoccurred)
        have hdays : (0 : Int) ≤ days episodicOrdinaryDays := by decide
        rw [ordinaryEnd]
        dsimp only
        omega
      · exact hread hexplicit t ht
  | durable hlane hoccurred hfields hextension hexplicit => exact hread hexplicit t ht

/-- The evaluator panics exactly on a boundary past the calendar. -/
theorem evaluateRetentionInner_panics_iff {lane : MemoryLane} {facts : RetentionFacts}
    {t : OffsetDateTime} : Panics (evaluateRetentionInner lane facts t) ↔
      ∃ explicit boundary b, parseOptional facts.explicitExpiresAt "explicit_expires_at" = .ok explicit ∧
        laneBoundary lane facts explicit = .ok boundary ∧ boundary = some b ∧ maxLocal < b.at_.utc := by
  rw [evaluateRetentionInner, bind_panics_of (not_panics_parseOptional _ _)]
  constructor
  · rintro ⟨explicit, hexplicit, h⟩
    obtain ⟨boundary, hboundary, h⟩ := (bind_panics_of (not_panics_laneBoundary _ _ _)).1 h
    obtain ⟨ends, hends, hearliest⟩ := laneBoundary_eq_ok hexplicit hboundary
    cases boundary with
    | none => exact absurd h (not_panics_ok _)
    | some b =>
        rw [decisionFromBoundary, bind_panics] at h
        rcases h with h | ⟨text, -, h⟩
        · have hlow := hends.minLocal_le _ hearliest.1
          have hout := formatTimestamp_panics_iff.1 h
          exact ⟨explicit, _, b, hexplicit, hboundary, rfl, by omega⟩
        · exact absurd h (not_panics_ok _)
  · rintro ⟨explicit, _, b, hexplicit, hboundary, rfl, hpast⟩
    refine ⟨explicit, hexplicit, bind_panics.2 (Or.inr ⟨_, hboundary, ?_⟩)⟩
    exact bind_panics.2 (Or.inl (formatTimestamp_panics_iff.2 (by omega)))

/-- **Retention evaluation never aborts, unless the record ends past the calendar.** On any
timestamp texts and at any instant, the evaluator answers with a decision or an error exactly when
the record does not have all its ends past the last instant of the calendar. -/
theorem evaluateRetention_answers_iff (recordId : String) (lane : MemoryLane) (facts : RetentionFacts)
    (t : OffsetDateTime) :
    ((∃ d, evaluateRetention recordId lane facts t = .ok d) ∨
        ∃ message, evaluateRetention recordId lane facts t = bail message) ↔
      ¬ EndsPastCalendar lane facts := by
  rw [← not_panics_iff, evaluateRetention, withContext_panics, evaluateRetentionInner_panics_iff]
  refine not_congr ⟨?_, ?_⟩
  · rintro ⟨explicit, boundary, b, hexplicit, hboundary, hb, hpast⟩
    obtain ⟨ends, hends, hearliest⟩ := laneBoundary_eq_ok hexplicit hboundary
    exact ⟨ends, hends, hearliest.past_iff.2 ⟨b, hb, hpast⟩⟩
  · rintro ⟨ends, hends, hpast⟩
    obtain ⟨explicit, boundary, hexplicit, hboundary, hearliest⟩ := hends.boundary
    obtain ⟨b, hb, hpast⟩ := hearliest.past_iff.1 hpast
    exact ⟨explicit, boundary, b, hexplicit, hboundary, hb, hpast⟩

/-- The last minute of the last representable year, one minute west of UTC. -/
def expiresWestOfUtc : RetentionFacts where
  occurredAt := none
  startedAt := none
  lastContinuedAt := none
  closedAt := none
  explicitExpiresAt := some "9999-12-31T23:59:59-00:01"
  episodicExtension := none

/-- An expiry that RFC 3339 accepts makes the evaluation of a semantic record panic. -/
theorem evaluateRetention_panics_westOfUtc :
    evaluateRetention "record" .semantic expiresWestOfUtc ⟨0, 0⟩ =
      .error (.panic "local datetime out of valid range") := by
  decide +kernel

end Retention
end Memzoi
