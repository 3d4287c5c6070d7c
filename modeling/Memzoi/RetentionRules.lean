/-
# What the retention evaluators accept

Source: `retention.rs`.

The evaluators in inverted form: what a decision says about the facts, and
which facts have a decision. A timestamp the program wrote itself is read back
as the same instant (`parseTimestamp_format`), an instant can be written exactly
when its UTC year has four digits (`formatTimestamp_ok_iff`), and whether a
record has a decision does not depend on the instant it is asked for.
-/

import Memzoi.Retention

namespace Memzoi
namespace Retention

open Fallible OffsetDateTime

/-! ### Timestamps -/

/-- The UTC year of the instant has four digits. -/
def written (t : OffsetDateTime) : Prop := minWritten ≤ t.utc ∧ t.utc ≤ maxWritten

instance (t : OffsetDateTime) : Decidable (written t) := inferInstanceAs (Decidable (_ ∧ _))

theorem localNanos_utc (utc : Int) : (⟨utc, 0⟩ : OffsetDateTime).localNanos = utc := by
  simp [localNanos]

/-- An instant can be written exactly when its UTC year has four digits. -/
theorem formatTimestamp_ok_iff {t : OffsetDateTime} :
    (∃ text, formatTimestamp t = .ok text) ↔ written t := by
  have hwritten := Rfc3339.format_utc_isSome t.utc
  have hmin := minLocal_lt
  have hmax := maxLocal_eq
  unfold formatTimestamp checkedToOffset written
  dsimp only
  constructor
  · rintro ⟨text, h⟩
    split at h
    · cases h
    · rename_i u hu
      split at hu
      · cases hu
        rw [← hwritten]
        exact Option.isSome_iff_exists.2 ⟨text, require_eq_ok.1 h⟩
      · cases hu
  · intro h
    have hrepresentable : representable { t with offset := 0 } := by
      unfold representable
      rw [localNanos_utc]
      omega
    obtain ⟨text, htext⟩ := Option.isSome_iff_exists.1 (hwritten.2 h)
    exact ⟨text, by simp [hrepresentable, htext]⟩

/-- The text an instant is written as, in UTC. -/
theorem format_of_formatTimestamp {t : OffsetDateTime} {text : String}
    (h : formatTimestamp t = .ok text) : Rfc3339.format ⟨t.utc, 0⟩ = some text := by
  unfold formatTimestamp checkedToOffset at h
  dsimp only at h
  split at h
  · cases h
  · rename_i u hu
    split at hu
    · cases hu; exact require_eq_ok.1 h
    · cases hu

/-- The reader gives back the instant that was written. -/
theorem parse_of_formatTimestamp {t : OffsetDateTime} {text : String}
    (h : formatTimestamp t = .ok text) : Rfc3339.parse text = some ⟨t.utc, 0⟩ :=
  Rfc3339.parse_format rfl (format_of_formatTimestamp h)

/-- A timestamp the program wrote is read back as the same instant. -/
theorem parseTimestamp_format {t : OffsetDateTime} {text : String}
    (h : formatTimestamp t = .ok text) (field : String) :
    parseTimestamp text field = .ok ⟨t.utc, 0⟩ := by
  have htrim : Text.trim text = text := Rfc3339.trim_format (format_of_formatTimestamp h)
  have hparse := parse_of_formatTimestamp h
  unfold parseTimestamp
  rw [htrim]
  have hne : text ≠ "" := by
    rintro rfl
    have hempty : Rfc3339.parse "" = none := by decide
    rw [hempty] at hparse
    cases hparse
  simp [hne, hparse]

/-- Adding a duration succeeds inside the calendar, and gives the later instant. -/
theorem addDuration_eq_ok {t u : OffsetDateTime} {d : Int} {name : String} :
    addDuration t d name = .ok u ↔
      ({ t with utc := t.utc + d } : OffsetDateTime).representable ∧ u = ⟨t.utc + d, t.offset⟩ := by
  unfold addDuration checkedAdd
  rw [require_eq_ok]
  dsimp only
  split
  · rename_i h
    simp only [Option.some.injEq, h, true_and]
    exact eq_comm
  · rename_i h
    simp [h]

/-- In UTC the calendar ends where four-digit years end. -/
theorem addDuration_utc_iff {utc d : Int} {name : String} (h : minWritten ≤ utc) (hd : 0 ≤ d) :
    (∃ u, addDuration ⟨utc, 0⟩ d name = .ok u) ↔ utc + d ≤ maxWritten := by
  have hmin := minLocal_lt
  have hmax := maxLocal_eq
  simp only [addDuration_eq_ok, representable, localNanos_utc]
  constructor
  · rintro ⟨u, ⟨-, hle⟩, -⟩; omega
  · intro hle; exact ⟨_, ⟨by omega, by omega⟩, rfl⟩

/-! ### Decisions -/

/-- What a decision says, given its boundary. -/
theorem decisionFromBoundary_some {b : Boundary} {t : OffsetDateTime} {d : RetentionDecision} :
    decisionFromBoundary (some b) t = .ok d ↔
      ∃ text, formatTimestamp b.at_ = .ok text ∧
        d = ⟨if b.at_ ≤ t then .queryOnly else .current, some text, b.reason⟩ := by
  simp only [decisionFromBoundary, bind_eq_ok, Except.ok.injEq]
  constructor
  · rintro ⟨text, htext, rfl⟩; exact ⟨text, htext, rfl⟩
  · rintro ⟨text, htext, rfl⟩; exact ⟨text, htext, rfl⟩

theorem decisionFromBoundary_none {t : OffsetDateTime} {d : RetentionDecision} :
    decisionFromBoundary none t = .ok d ↔ d = ⟨.current, none, .noAgeLimit⟩ := by
  rw [decisionFromBoundary, Except.ok.injEq]
  exact eq_comm

/-- A record has a decision at every instant. -/
def Evaluable (lane : MemoryLane) (facts : RetentionFacts) : Prop :=
  ∀ recordId t, ∃ d, evaluateRetention recordId lane facts t = .ok d

/-- Whether there is a decision does not depend on the instant, nor on the record's id. -/
theorem evaluable_of_ok {recordId : String} {lane : MemoryLane} {facts : RetentionFacts}
    {t : OffsetDateTime} {d : RetentionDecision}
    (h : evaluateRetention recordId lane facts t = .ok d) : Evaluable lane facts := by
  intro recordId' t'
  obtain ⟨explicit, hexplicit, h⟩ := bind_eq_ok.1 (withContext_eq_ok.1 h)
  obtain ⟨boundary, hboundary, h⟩ := bind_eq_ok.1 h
  have hdecision : ∃ d', decisionFromBoundary boundary t' = .ok d' := by
    cases boundary with
    | none => exact ⟨_, rfl⟩
    | some b =>
        obtain ⟨text, htext, -⟩ := decisionFromBoundary_some.1 h
        exact ⟨_, decisionFromBoundary_some.2 ⟨text, htext, rfl⟩⟩
  obtain ⟨d', hd'⟩ := hdecision
  refine ⟨d', withContext_eq_ok.2 ?_⟩
  simp only [evaluateRetentionInner, hexplicit, hboundary, ok_bind, hd']

/-! ### Sessions -/

theorem minByAt_mem (b : Boundary) (cs : List Boundary) : minByAt b cs ∈ b :: cs := by
  induction cs generalizing b with
  | nil => exact List.mem_singleton_self b
  | cons c cs ih =>
      rw [minByAt]
      have hmem := ih (if c.at_ < b.at_ then c else b)
      split at hmem
      · rename_i hlt
        rw [if_pos hlt]
        exact List.mem_cons_of_mem _ hmem
      · rename_i hlt
        rw [if_neg hlt]
        rcases List.mem_cons.1 hmem with h | h
        · rw [h]; exact List.mem_cons_self
        · exact List.mem_cons_of_mem _ (List.mem_cons_of_mem _ h)

theorem minByAt_le (b : Boundary) (cs : List Boundary) :
    ∀ c ∈ b :: cs, (minByAt b cs).at_.utc ≤ c.at_.utc := by
  induction cs generalizing b with
  | nil =>
      intro c hc
      rw [List.mem_singleton.1 hc]
      exact le_refl _
  | cons d cs ih =>
      rw [minByAt]
      have hle := ih (if d.at_ < b.at_ then d else b)
      have hhead : (if d.at_ < b.at_ then d else b).at_.utc ≤ b.at_.utc ∧
          (if d.at_ < b.at_ then d else b).at_.utc ≤ d.at_.utc := by
        split
        · rename_i hlt; exact ⟨le_of_lt hlt, le_refl _⟩
        · rename_i hlt; exact ⟨le_refl _, not_lt.1 hlt⟩
      have hmin := hle _ List.mem_cons_self
      intro c hc
      rcases List.mem_cons.1 hc with rfl | hc
      · exact le_trans hmin hhead.1
      · rcases List.mem_cons.1 hc with rfl | hc
        · exact le_trans hmin hhead.2
        · exact hle c (List.mem_cons_of_mem _ hc)

/-- The clocks of a session, as instants. -/
structure SessionClocks where
  started : OffsetDateTime
  continued : Option OffsetDateTime
  closed : Option OffsetDateTime
  explicit : Option OffsetDateTime

namespace SessionClocks

def leaseBase (c : SessionClocks) : OffsetDateTime := c.continued.getD c.started

def maximum (c : SessionClocks) : OffsetDateTime :=
  ⟨c.started.utc + days sessionMaximumDays, c.started.offset⟩

def lease (c : SessionClocks) : OffsetDateTime :=
  ⟨c.leaseBase.utc + hours sessionInactivityHours, c.leaseBase.offset⟩

/-- The boundary of the session. -/
def boundary (c : SessionClocks) : Boundary :=
  minByAt ⟨c.lease, .sessionInactivityLease⟩ (sessionCandidates c.maximum c.closed c.explicit)

/-- The clocks the evaluator accepts: in order, in the calendar, with a boundary it can write. -/
structure Valid (c : SessionClocks) : Prop where
  maximum_representable : c.maximum.representable
  lease_representable : c.lease.representable
  continued_order : ∀ t ∈ c.continued, c.started.utc ≤ t.utc ∧ t.utc < c.maximum.utc
  closed_order : ∀ t ∈ c.closed, c.started.utc ≤ t.utc
  boundary_written : written c.boundary.at_

/-- No boundary lies past one of its candidates. -/
theorem boundary_le (c : SessionClocks) :
    c.boundary.at_.utc ≤ c.lease.utc ∧ c.boundary.at_.utc ≤ c.maximum.utc ∧
      (∀ t ∈ c.closed, c.boundary.at_.utc ≤ t.utc) ∧
      ∀ t ∈ c.explicit, c.boundary.at_.utc ≤ t.utc := by
  have hle : ∀ b ∈ (⟨c.lease, .sessionInactivityLease⟩ : Boundary) ::
      sessionCandidates c.maximum c.closed c.explicit, c.boundary.at_.utc ≤ b.at_.utc :=
    minByAt_le _ _
  refine ⟨hle ⟨c.lease, .sessionInactivityLease⟩ (by simp),
    hle ⟨c.maximum, .sessionMaximumAge⟩ (by simp [sessionCandidates]), ?_, ?_⟩
  · intro t ht
    exact hle ⟨t, .sessionClosed⟩ (by simp [sessionCandidates, Option.mem_def.1 ht])
  · intro t ht
    exact hle ⟨t, .explicitExpiry⟩ (by simp [sessionCandidates, Option.mem_def.1 ht])

/-- The boundary is one of its candidates. -/
theorem boundary_cases (c : SessionClocks) :
    c.boundary.at_ = c.lease ∨ c.boundary.at_ = c.maximum ∨ c.boundary.at_ ∈ c.closed ∨
      c.boundary.at_ ∈ c.explicit := by
  have hmem : c.boundary ∈ (⟨c.lease, .sessionInactivityLease⟩ : Boundary) ::
      sessionCandidates c.maximum c.closed c.explicit := minByAt_mem _ _
  generalize c.boundary = b at hmem ⊢
  simp only [sessionCandidates, List.mem_cons, List.mem_append, List.mem_map,
    Option.mem_toList] at hmem
  rcases hmem with rfl | rfl | ⟨t, ht, rfl⟩ | ⟨t, ht, rfl⟩
  · exact Or.inl rfl
  · exact Or.inr (Or.inl rfl)
  · exact Or.inr (Or.inr (Or.inl ht))
  · exact Or.inr (Or.inr (Or.inr ht))

end SessionClocks

/-- The facts of a session whose clocks read as `c`. -/
structure ReadsAs (facts : RetentionFacts) (c : SessionClocks) : Prop where
  occurred : facts.occurredAt = none
  extension : facts.episodicExtension = none
  started : requiredTimestamp facts.startedAt "started_at" .session = .ok c.started
  continued : parseOptional facts.lastContinuedAt "last_continued_at" = .ok c.continued
  closed : parseOptional facts.closedAt "closed_at" = .ok c.closed
  explicit : parseOptional facts.explicitExpiresAt "explicit_expires_at" = .ok c.explicit

theorem checkSessionOrder_eq_ok {started maximum : OffsetDateTime}
    {continued closed : Option OffsetDateTime} {u : Unit} :
    checkSessionOrder started maximum continued closed = .ok u ↔
      (∀ t ∈ continued, started.utc ≤ t.utc ∧ t.utc < maximum.utc) ∧
        ∀ t ∈ closed, started.utc ≤ t.utc := by
  unfold checkSessionOrder
  cases continued <;> cases closed <;> simp [and_assoc]

/-- A session has a decision exactly when its facts read as clocks the evaluator accepts, and
the decision compares the instant with their boundary. -/
theorem evaluateRetention_session_iff {recordId : String} {facts : RetentionFacts}
    {t : OffsetDateTime} {d : RetentionDecision} :
    evaluateRetention recordId .session facts t = .ok d ↔
      ∃ c, ReadsAs facts c ∧ c.Valid ∧ decisionFromBoundary (some c.boundary) t = .ok d := by
  simp only [evaluateRetention, withContext_eq_ok, evaluateRetentionInner, laneBoundary,
    sessionBoundary, rejectField, bind_eq_ok, ensure_eq_ok, Option.isNone_iff_eq_none,
    checkSessionOrder_eq_ok, addDuration_eq_ok]
  constructor
  · rintro ⟨explicit, hexplicit, boundary, ⟨⟨⟩, hoccurred, ⟨⟩, hextension, started, hstarted,
      continued, hcontinued, closed, hclosed, maximum, ⟨hmaximum, rfl⟩, ⟨⟩, hordered, lease,
      ⟨hlease, rfl⟩, hboundary⟩, hd⟩
    cases hboundary
    have hwritten : ∃ text, formatTimestamp _ = .ok text :=
      ⟨_, (decisionFromBoundary_some.1 hd).choose_spec.1⟩
    exact ⟨⟨started, continued, closed, explicit⟩,
      ⟨hoccurred, hextension, hstarted, hcontinued, hclosed, hexplicit⟩,
      ⟨hmaximum, hlease, hordered.1, hordered.2, formatTimestamp_ok_iff.1 hwritten⟩, hd⟩
  · rintro ⟨c, hreads, hvalid, hd⟩
    exact ⟨c.explicit, hreads.explicit, _, ⟨(), hreads.occurred, (), hreads.extension, c.started,
      hreads.started, c.continued, hreads.continued, c.closed, hreads.closed, _,
      ⟨hvalid.maximum_representable, rfl⟩, (), ⟨hvalid.continued_order, hvalid.closed_order⟩, _,
      ⟨hvalid.lease_representable, rfl⟩, rfl⟩, hd⟩

/-- Whether a session has a decision at all is whether its clocks are accepted. -/
theorem evaluable_session_iff {facts : RetentionFacts} :
    Evaluable .session facts ↔ ∃ c, ReadsAs facts c ∧ c.Valid := by
  constructor
  · intro h
    obtain ⟨d, hd⟩ := h "" ⟨0, 0⟩
    obtain ⟨c, hreads, hvalid, -⟩ := evaluateRetention_session_iff.1 hd
    exact ⟨c, hreads, hvalid⟩
  · rintro ⟨c, hreads, hvalid⟩ recordId t
    obtain ⟨text, htext⟩ := formatTimestamp_ok_iff.2 hvalid.boundary_written
    exact ⟨_, evaluateRetention_session_iff.2
      ⟨c, hreads, hvalid, decisionFromBoundary_some.2 ⟨text, htext, rfl⟩⟩⟩

/-- Facts read as one tuple of clocks. -/
theorem ReadsAs.unique {facts : RetentionFacts} {c c' : SessionClocks} (h : ReadsAs facts c)
    (h' : ReadsAs facts c') : c = c' := by
  obtain ⟨started, continued, closed, explicit⟩ := c
  obtain ⟨started', continued', closed', explicit'⟩ := c'
  have hstarted := h.started.symm.trans h'.started
  have hcontinued := h.continued.symm.trans h'.continued
  have hclosed := h.closed.symm.trans h'.closed
  have hexplicit := h.explicit.symm.trans h'.explicit
  cases hstarted
  cases hcontinued
  cases hclosed
  cases hexplicit
  rfl

theorem parseOptional_some {text field : String} {t : OffsetDateTime}
    (h : parseTimestamp text field = .ok t) : parseOptional (some text) field = .ok (some t) := by
  simp only [parseOptional, h, ok_bind]

theorem parseOptional_eq_none {value : Option String} {field : String} :
    parseOptional value field = .ok none ↔ value = none := by
  cases value with
  | none => simp [parseOptional]
  | some text => simp [parseOptional]

/-- The text of an instant, as a new continuation. -/
theorem ReadsAs.continue_ {facts : RetentionFacts} {c : SessionClocks} {now : OffsetDateTime}
    {text : String} (h : ReadsAs facts c) (htext : formatTimestamp now = .ok text) :
    ReadsAs { facts with lastContinuedAt := some text }
      { c with continued := some ⟨now.utc, 0⟩ } :=
  ⟨h.occurred, h.extension, h.started, parseOptional_some (parseTimestamp_format htext _),
    h.closed, h.explicit⟩

/-- The text of an instant, as a closure. -/
theorem ReadsAs.close {facts : RetentionFacts} {c : SessionClocks} {now : OffsetDateTime}
    {text : String} (h : ReadsAs facts c) (htext : formatTimestamp now = .ok text) :
    ReadsAs { facts with closedAt := some text } { c with closed := some ⟨now.utc, 0⟩ } :=
  ⟨h.occurred, h.extension, h.started, h.continued,
    parseOptional_some (parseTimestamp_format htext _), h.explicit⟩

/-- The lease anchor does not precede the start. -/
theorem SessionClocks.Valid.started_le_leaseBase {c : SessionClocks} (h : c.Valid) :
    c.started.utc ≤ c.leaseBase.utc := by
  unfold leaseBase
  cases hcontinued : c.continued with
  | none => exact le_refl _
  | some t => exact (h.continued_order t hcontinued).1

/-- A continuation before the boundary is accepted exactly when its own lease ends inside the
calendar. -/
theorem SessionClocks.Valid.continue_iff {c : SessionClocks} {now : OffsetDateTime} (h : c.Valid)
    (hclosed : c.closed = none) (hlater : c.leaseBase.utc < now.utc)
    (hcurrent : now.utc < c.boundary.at_.utc) (hnow : written now) :
    SessionClocks.Valid { c with continued := some ⟨now.utc, 0⟩ } ↔
      now.utc + hours sessionInactivityHours ≤ maxWritten := by
  have hmin := minLocal_lt
  have hmax := maxLocal_eq
  have hhours : (0 : Int) < hours sessionInactivityHours := by decide
  obtain ⟨hlow, hhigh⟩ := hnow
  have hlease : ∀ c' : SessionClocks, c'.continued = some ⟨now.utc, 0⟩ →
      c'.lease = ⟨now.utc + hours sessionInactivityHours, 0⟩ := by
    intro c' hc'
    rw [lease, leaseBase, hc']
    rfl
  constructor
  · intro hvalid
    have hrep := hvalid.lease_representable
    rw [hlease _ rfl, representable, localNanos_utc] at hrep
    omega
  · intro hle
    obtain ⟨-, hbmax, -, hbexplicit⟩ := c.boundary_le
    have hstarted := h.started_le_leaseBase
    refine ⟨h.maximum_representable, ?_, ?_, ?_, ?_⟩
    · rw [hlease _ rfl, representable, localNanos_utc]
      omega
    · intro t ht
      cases ht
      exact ⟨by dsimp only; omega, lt_of_lt_of_le hcurrent hbmax⟩
    · intro t ht
      rw [hclosed] at ht
      cases ht
    · -- from below by the old boundary or the clock, from above by the new lease
      generalize hc' : ({ c with continued := some ⟨now.utc, 0⟩ } : SessionClocks) = c'
      obtain ⟨hblease, -⟩ := c'.boundary_le
      have hcontinued : c'.continued = some ⟨now.utc, 0⟩ := by rw [← hc']
      rw [hlease c' hcontinued] at hblease
      refine ⟨?_, le_trans hblease hle⟩
      have hbw := h.boundary_written.1
      rcases c'.boundary_cases with hb | hb | hb | hb
      · rw [hb, hlease c' hcontinued]
        dsimp only
        omega
      · rw [hb, ← hc']
        exact le_trans hbw hbmax
      · rw [← hc'] at hb
        rw [hclosed] at hb
        cases hb
      · have hexplicit : c'.explicit = c.explicit := by rw [← hc']
        rw [hexplicit] at hb
        exact le_trans hbw (hbexplicit _ hb)

/-- A closure is accepted exactly when it does not precede the start. -/
theorem SessionClocks.Valid.close_iff {c : SessionClocks} {now : OffsetDateTime} (h : c.Valid)
    (hnow : written now) :
    SessionClocks.Valid { c with closed := some ⟨now.utc, 0⟩ } ↔ c.started.utc ≤ now.utc := by
  constructor
  · intro hvalid
    exact hvalid.closed_order ⟨now.utc, 0⟩ rfl
  · intro hle
    refine ⟨h.maximum_representable, h.lease_representable, h.continued_order, ?_, ?_⟩
    · intro t ht
      cases ht
      exact hle
    · obtain ⟨hblease, hbmax, -, hbexplicit⟩ := c.boundary_le
      have hbw := h.boundary_written.1
      generalize hc' : ({ c with closed := some ⟨now.utc, 0⟩ } : SessionClocks) = c'
      have hclosed : c'.closed = some ⟨now.utc, 0⟩ := by rw [← hc']
      have hlease : c'.lease = c.lease := by rw [← hc']; rfl
      have hmaximum : c'.maximum = c.maximum := by rw [← hc']; rfl
      have hexplicit : c'.explicit = c.explicit := by rw [← hc']
      obtain ⟨-, -, hbclosed, -⟩ := c'.boundary_le
      refine ⟨?_, le_trans (hbclosed _ hclosed) hnow.2⟩
      rcases c'.boundary_cases with hb | hb | hb | hb
      · rw [hb, hlease]
        exact le_trans hbw hblease
      · rw [hb, hmaximum]
        exact le_trans hbw hbmax
      · rw [hclosed, Option.mem_some] at hb
        rw [← hb]
        exact hnow.1
      · rw [hexplicit] at hb
        exact le_trans hbw (hbexplicit _ hb)

/-- From the seven-day cap on, the decision of a session is query-only. -/
theorem queryOnly_of_maximum {recordId : String} {facts : RetentionFacts} {t started : OffsetDateTime}
    {d : RetentionDecision} (h : evaluateRetention recordId .session facts t = .ok d)
    (hstarted : requiredTimestamp facts.startedAt "started_at" .session = .ok started)
    (hcap : started.utc + days sessionMaximumDays ≤ t.utc) : d.state = .queryOnly := by
  obtain ⟨c, hreads, -, hd⟩ := evaluateRetention_session_iff.1 h
  obtain ⟨text, -, rfl⟩ := decisionFromBoundary_some.1 hd
  have hc : c.started = started := Except.ok.inj (hreads.started.symm.trans hstarted)
  have hmax := c.boundary_le.2.1
  rw [SessionClocks.maximum, hc] at hmax
  exact if_pos (le_trans hmax hcap)

/-! ### Ordinary use -/

theorem baseExclusions_eq_nil {status : MemoryStatus} {d : RetentionDecision} :
    baseExclusions status d = [] ↔ status = .active ∧ d.state = .current := by
  unfold baseExclusions
  cases hstate : d.state with
  | current => by_cases hstatus : status = .active <;> simp [hstatus]
  | queryOnly => simp

/-- A session record in ordinary use is current by its own retention facts. -/
theorem retention_of_sessionAssertion {recordId : String} {facts : RetentionFacts}
    {t : OffsetDateTime} {lifecycle : PrivateLifecycleReadFacts}
    (h : evaluatePrivateCurrentAssertion recordId .session facts t lifecycle = .ok true) :
    ∃ d, evaluateRetention recordId .session facts t = .ok d ∧ d.state = .current := by
  obtain ⟨decision, hdecision, hcurrent⟩ := bind_eq_ok.1 h
  simp only [evaluatePrivateCurrentAssertionDecision, privateRetention, bind_eq_ok, ensure_eq_ok,
    exists_const, Except.ok.injEq] at hdecision
  obtain ⟨base, hbase, _, -, _, -, retention, ⟨-, -, rfl⟩, quarantine, -, rfl⟩ := hdecision
  simp only [Except.ok.injEq, List.isEmpty_iff, List.append_eq_nil_iff] at hcurrent
  exact ⟨_, hbase, (baseExclusions_eq_nil.1 hcurrent.1).2⟩

end Retention
end Memzoi
