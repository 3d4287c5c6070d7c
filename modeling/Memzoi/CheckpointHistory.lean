/-
# Checkpoint histories

Source: `service/runtime_records/lifecycle.rs`.

`CheckpointCall.run_cases` says everything a successful call does to its
checkpoint. From it come the step facts about closure and the lease anchor,
and, by induction on the calls, the same facts about whole histories.
-/

import Memzoi.Checkpoint

namespace Memzoi
namespace Checkpoint

open Fallible Retention OffsetDateTime Recall

/-! ### A current checkpoint -/

/-- A checkpoint that is a current assertion is within its retention boundary. -/
theorem retention_of_checkpointRecord {db : Db} {recordId : String} {now : OffsetDateTime}
    {r found : MemoryRecord} (hr : db.records.get? recordId = some r) (hlane : r.lane = .session)
    (h : checkpointRecord db recordId now = .ok (some found)) :
    ∃ d, evaluateRetention r.id .session r.retention ⟨now.utc, 0⟩ = .ok d ∧
      d.state = .current := by
  obtain ⟨text, htext, h⟩ := bind_eq_ok.1 h
  simp only [hr] at h
  split at h
  · rename_i hshape
    obtain ⟨current, hcurrent, h⟩ := bind_eq_ok.1 h
    cases current with
    | false => cases h
    | true =>
        have hprivate : r.destination.isPrivate = true := by rw [hshape.1]; rfl
        obtain ⟨-, s, -, -, hassertion⟩ :=
          (baseCurrentAssertion_private hprivate).1 (base_of_currentAssertion hcurrent)
        simp only [privateAssertionIsCurrent, parseTimestamp_format htext, ok_bind, hlane]
          at hassertion
        exact retention_of_sessionAssertion hassertion
  · cases h

/-! ### What a successful call does -/

theorem checkpointForLifecycle_ok {db : Db} {recordId : String} {r : MemoryRecord} :
    checkpointForLifecycle db recordId = .ok r ↔
      db.records.get? recordId = some r ∧ isCheckpoint r = true := by
  simp only [checkpointForLifecycle, ensureCheckpointShape, bind_eq_ok, require_eq_ok,
    ensure_eq_ok, exists_const, Except.ok.injEq]
  constructor
  · rintro ⟨r', hr', hshape, rfl⟩; exact ⟨hr', hshape⟩
  · rintro ⟨hr, hshape⟩; exact ⟨r, hr, hshape, rfl⟩

theorem isCheckpoint_iff {r : MemoryRecord} :
    isCheckpoint r = true ↔ r.destination = .session ∧ r.lane = .session ∧
      r.sourceKind = some checkpointSourceKind := by
  simp [isCheckpoint, and_assoc]

variable [Entropy]

/-- The write of a call: the one row gets the new facts and the instant. -/
theorem recordMutation_ok {db db' : Db} {actor eventType field : String}
    {command : CheckpointCommand} {version recordId timestamp : String}
    {retention : RetentionFacts} {m : CheckpointLifecycleMutation} {r : MemoryRecord}
    (hr : db.records.get? recordId = some r)
    (h : recordMutation db actor eventType field command version recordId retention timestamp =
      .ok (db', m)) :
    m.record = { r with retention := retention, updatedAt := timestamp } ∧
      db'.records = db.records.set m.record ∧ m.applied = true := by
  obtain ⟨db₁, hupdate, h⟩ := bind_eq_ok.1 h
  obtain ⟨record, hrecord, h⟩ := bind_eq_ok.1 h
  obtain ⟨_, -, h⟩ := bind_eq_ok.1 h
  obtain ⟨⟨db₂, event⟩, hevent, h⟩ := bind_eq_ok.1 h
  cases h
  simp only [updateRetention, hr, require_some, ok_bind, check_bind_eq_ok, ensure_eq_ok] at hupdate
  obtain ⟨hshape, hupdate⟩ := hupdate
  have hprivate : r.destination.isPrivate = true := by rw [(isCheckpoint_iff.1 hshape).1]; rfl
  obtain ⟨hcontents, -⟩ := Db.updateRecord_ok hupdate hprivate
  have hrecords : db₁.records =
      db.records.set { r with retention := retention, updatedAt := timestamp } := by
    rw [hcontents]
  obtain rfl : r.id = recordId := Table.key_of_get? hr
  have hself : (db.records.set { r with retention := retention, updatedAt := timestamp }).get? r.id =
      some { r with retention := retention, updatedAt := timestamp } := Table.get?_set_self hr
  have hnew : record = { r with retention := retention, updatedAt := timestamp } := by
    have hget := (checkpointForLifecycle_ok.1 hrecord).1
    rw [hrecords, hself] at hget
    exact (Option.some.inj hget).symm
  have hevents : db'.records = db₁.records := by
    simp only [appendEvent, Db.insertEvent, bind_eq_ok, require_eq_ok, Except.ok.injEq,
      Prod.mk.injEq] at hevent
    obtain ⟨db₃, ⟨events, -, rfl⟩, rfl, -⟩ := hevent
    rfl
  exact ⟨hnew, by rw [hevents, hrecords, ← hnew], rfl⟩

namespace CheckpointCall

/-- Everything a successful call does: a continuation of an open, current checkpoint whose lease
anchor is earlier, a closure of an open one, or nothing on one that is closed already. -/
theorem run_cases {db db' : Db} {call : CheckpointCall} {m : CheckpointLifecycleMutation}
    (h : call.run db = .ok (db', m)) :
    ∃ r text, db.records.get? call.command.checkpointId = some r ∧ isCheckpoint r = true ∧
      formatTimestamp call.now = .ok text ∧
      ((∃ actor command now anchor at_ d, call = .continue_ actor command now ∧
          r.retention.closedAt = none ∧
          evaluateRetention r.id .session r.retention ⟨now.utc, 0⟩ = .ok d ∧ d.state = .current ∧
          r.retention.lastContinuedAt.or r.retention.startedAt = some anchor ∧
          Rfc3339.parse anchor = some at_ ∧ at_.utc < now.utc ∧
          m.record = { r with
            retention := { r.retention with lastContinuedAt := some text }, updatedAt := text } ∧
          db'.records = db.records.set m.record) ∨
        (∃ actor command now d, call = .close actor command now ∧
          evaluateRetention r.id .session r.retention now = .ok d ∧
          ((r.retention.closedAt = none ∧
              m.record = { r with
                retention := { r.retention with closedAt := some text }, updatedAt := text } ∧
              db'.records = db.records.set m.record) ∨
            (r.retention.closedAt.isSome = true ∧ m.record = r ∧ db' = db)))) := by
  obtain ⟨text, htext, h⟩ := bind_eq_ok.1 h
  cases call with
  | continue_ actor command now =>
      simp only [continueCheckpoint, bind_eq_ok, ensure_eq_ok, exists_const, require_eq_ok,
        Option.isNone_iff_eq_none, lt_def] at h
      obtain ⟨_, -, r, hr, _, -, version, -, hclosed, current, hcurrent, hsome, anchor, hanchor,
        at_, hat, hlater, h⟩ := h
      obtain ⟨hget, hshape⟩ := checkpointForLifecycle_ok.1 hr
      obtain ⟨found, rfl⟩ := Option.isSome_iff_exists.1 hsome
      have hid : r.id = command.checkpointId := Table.key_of_get? hget
      rw [hid] at hcurrent h
      obtain ⟨d, hd, hstate⟩ :=
        retention_of_checkpointRecord hget (isCheckpoint_iff.1 hshape).2.1 hcurrent
      obtain ⟨hrecord, hrecords, -⟩ := recordMutation_ok hget h
      exact ⟨r, text, hget, hshape, htext, Or.inl ⟨actor, command, now, anchor, at_, d, rfl, hclosed,
        hd, hstate, hanchor, hat, hlater, hrecord, hrecords⟩⟩
  | close actor command now =>
      simp only [closeCheckpoint, bind_eq_ok, ensure_eq_ok, exists_const] at h
      obtain ⟨_, -, r, hr, _, -, version, -, state, -, -, -, d, hd, h⟩ := h
      obtain ⟨hget, hshape⟩ := checkpointForLifecycle_ok.1 hr
      rw [(isCheckpoint_iff.1 hshape).2.1] at hd
      have hid : r.id = command.checkpointId := Table.key_of_get? hget
      split at h
      · rename_i hclosed
        cases h
        exact ⟨r, text, hget, hshape, htext, Or.inr ⟨actor, command, now, d, rfl, hd,
          Or.inr ⟨hclosed, rfl, rfl⟩⟩⟩
      · rename_i hopen
        rw [hid] at h
        obtain ⟨hrecord, hrecords, -⟩ := recordMutation_ok hget h
        exact ⟨r, text, hget, hshape, htext, Or.inr ⟨actor, command, now, d, rfl, hd,
          Or.inl ⟨by simpa using hopen, hrecord, hrecords⟩⟩⟩

end CheckpointCall

/-! ### Which calls leave facts with a decision -/

/-- The clock reading a call needs: the lease of a continuation ends inside the calendar, and a
closure that is recorded does not precede the start. -/
def ClockHolds (db : Db) : CheckpointCall → Prop
  | .continue_ _ _ now => now.utc + hours sessionInactivityHours ≤ maxWritten
  | .close _ command now => ∀ r started, db.records.get? command.checkpointId = some r →
      r.retention.closedAt = none →
      requiredTimestamp r.retention.startedAt "started_at" .session = .ok started →
      started.utc ≤ now.utc

/-- The anchor the next continuation has to pass. -/
def leaseAnchor (facts : RetentionFacts) : Option OffsetDateTime :=
  (facts.lastContinuedAt.or facts.startedAt).bind Rfc3339.parse

omit [Entropy] in
/-- The anchor the evaluator adds the lease to is the one a continuation has to pass. -/
theorem leaseBase_of_anchor {facts : RetentionFacts} {c : SessionClocks} {at_ : OffsetDateTime}
    (hreads : ReadsAs facts c) (h : leaseAnchor facts = some at_) : c.leaseBase = at_ := by
  obtain ⟨text, htext, hparse⟩ := Option.bind_eq_some_iff.1 h
  have hread : ∀ {field t}, parseTimestamp text field = .ok t → t = at_ := by
    intro field t ht
    simp only [parseTimestamp, Rfc3339.trim_of_parse hparse, check_bind_eq_ok, require_eq_ok] at ht
    exact Option.some.inj (ht.2.symm.trans hparse)
  have hcontinued := hreads.continued
  have hstarted := hreads.started
  unfold SessionClocks.leaseBase
  cases hlast : facts.lastContinuedAt with
  | none =>
      rw [hlast] at hcontinued htext
      have hnone : c.continued = none := (Except.ok.inj hcontinued).symm
      rw [Option.none_or] at htext
      rw [hnone]
      simp only [requiredTimestamp, htext, require_some, ok_bind] at hstarted
      exact hread hstarted
  | some last =>
      rw [hlast] at hcontinued htext
      cases htext
      obtain ⟨t, ht, hsome⟩ := bind_eq_ok.1 hcontinued
      rw [← Except.ok.inj hsome]
      exact hread ht

/-- A successful call leaves facts with a decision exactly when its clock reading holds. -/
theorem evaluable_iff_clockHolds {db db' : Db} {call : CheckpointCall}
    {m : CheckpointLifecycleMutation} (h : call.run db = .ok (db', m)) :
    Evaluable m.record.lane m.record.retention ↔ ClockHolds db call := by
  obtain ⟨r, text, hr, hshape, htext, hcase⟩ := CheckpointCall.run_cases h
  have hnow : written call.now := formatTimestamp_ok_iff.1 ⟨text, htext⟩
  have hlane := (isCheckpoint_iff.1 hshape).2.1
  obtain ⟨actor, command, now, anchor, at_, d, rfl, hclosed, hd, hstate, hanchor, hat, hlater,
    hrecord, -⟩ | ⟨actor, command, now, d, rfl, hd, hcase⟩ := hcase
  · obtain ⟨c, hreads, hvalid, hboundary⟩ := evaluateRetention_session_iff.1 hd
    have hnone : c.closed = none := by
      have hreadsClosed := hreads.closed
      rw [hclosed] at hreadsClosed
      exact (Except.ok.inj hreadsClosed).symm
    have hbase : c.leaseBase.utc < now.utc := by
      rw [leaseBase_of_anchor hreads (by rw [leaseAnchor, hanchor]; exact hat)]
      exact hlater
    have hcurrent : now.utc < c.boundary.at_.utc := by
      obtain ⟨_, -, rfl⟩ := decisionFromBoundary_some.1 hboundary
      by_contra hle
      have hquery : c.boundary.at_ ≤ (⟨now.utc, 0⟩ : OffsetDateTime) := not_lt.1 hle
      rw [if_pos hquery] at hstate
      cases hstate
    have hiff := hvalid.continue_iff hnone hbase hcurrent hnow
    have hnew := hreads.continue_ htext
    rw [hrecord]
    dsimp only
    rw [hlane, evaluable_session_iff, ClockHolds, ← hiff]
    constructor
    · rintro ⟨c', hreads', hvalid'⟩
      rwa [hreads'.unique hnew] at hvalid'
    · intro hvalid'
      exact ⟨_, hnew, hvalid'⟩
  · obtain ⟨c, hreads, hvalid, -⟩ := evaluateRetention_session_iff.1 hd
    obtain ⟨hclosed, hrecord, -⟩ | ⟨hclosed, hrecord, -⟩ := hcase
    · have hiff := hvalid.close_iff hnow
      have hnew := hreads.close htext
      have hclock : ClockHolds db (.close actor command now) ↔ c.started.utc ≤ now.utc := by
        constructor
        · intro hclock
          exact hclock r c.started hr hclosed hreads.started
        · intro hle r' started hr' _ hstarted
          cases Option.some.inj (hr.symm.trans hr')
          cases Except.ok.inj (hreads.started.symm.trans hstarted)
          exact hle
      rw [hrecord]
      dsimp only
      rw [hlane, evaluable_session_iff, hclock]
      refine Iff.trans ?_ hiff
      constructor
      · rintro ⟨c', hreads', hvalid'⟩
        rwa [hreads'.unique hnew] at hvalid'
      · intro hvalid'
        exact ⟨_, hnew, hvalid'⟩
    · -- the checkpoint was closed before, and nothing is recorded
      rw [hrecord, hlane]
      constructor
      · intro _ r' started hr' hopen
        cases Option.some.inj (hr.symm.trans hr')
        rw [hopen] at hclosed
        cases hclosed
      · intro _
        exact evaluable_session_iff.2 ⟨c, hreads, hvalid⟩

/-! ### Histories of one checkpoint -/

/-- A later row of the same checkpoint. Only the two clocks and the row's instant may differ; a
closure stays, and stops the lease; a new lease anchor is later than the one before. -/
structure Follows (r r' : MemoryRecord) : Prop where
  same : r' = { r with
    retention := { r.retention with
      lastContinuedAt := r'.retention.lastContinuedAt, closedAt := r'.retention.closedAt }
    updatedAt := r'.updatedAt }
  closed : ∀ t, r.retention.closedAt = some t →
    r'.retention.closedAt = some t ∧ r'.retention.lastContinuedAt = r.retention.lastContinuedAt
  anchor : r'.retention.lastContinuedAt = r.retention.lastContinuedAt ∨
    ∃ text t', r'.retention.lastContinuedAt = some text ∧ Rfc3339.parse text = some t' ∧
      ∀ t, leaseAnchor r.retention = some t → t.utc < t'.utc

namespace Follows

omit [Entropy]

theorem refl (r : MemoryRecord) : Follows r r :=
  ⟨rfl, fun _ h => ⟨h, rfl⟩, Or.inl rfl⟩

theorem id_eq {r r' : MemoryRecord} (h : Follows r r') : r'.id = r.id := by rw [h.same]

theorem startedAt {r r' : MemoryRecord} (h : Follows r r') :
    r'.retention.startedAt = r.retention.startedAt := by rw [h.same]

theorem isCheckpoint_eq {r r' : MemoryRecord} (h : Follows r r') :
    isCheckpoint r' = isCheckpoint r := by
  rw [h.same]
  rfl

/-- The anchor of a later row is the same or later. -/
theorem leaseAnchor_cases {r r' : MemoryRecord} (h : Follows r r') :
    leaseAnchor r'.retention = leaseAnchor r.retention ∨
      ∃ t', leaseAnchor r'.retention = some t' ∧
        ∀ t, leaseAnchor r.retention = some t → t.utc < t'.utc := by
  rcases h.anchor with hlast | ⟨text, t', hlast, hparse, hlater⟩
  · left
    rw [leaseAnchor, leaseAnchor, hlast, h.startedAt]
  · right
    refine ⟨t', ?_, hlater⟩
    rw [leaseAnchor, hlast]
    exact hparse

theorem trans {r r' r'' : MemoryRecord} (h : Follows r r') (h' : Follows r' r'') :
    Follows r r'' := by
  refine ⟨?_, ?_, ?_⟩
  · have hsame := h'.same
    rw [h.same] at hsame
    exact hsame
  · intro t ht
    obtain ⟨hclosed, hlast⟩ := h.closed t ht
    obtain ⟨hclosed', hlast'⟩ := h'.closed t hclosed
    exact ⟨hclosed', hlast'.trans hlast⟩
  · rcases h'.anchor with hlast' | ⟨text, t'', hlast', hparse, hlater'⟩
    · rw [hlast']
      exact h.anchor
    · refine Or.inr ⟨text, t'', hlast', hparse, ?_⟩
      intro t ht
      rcases h.leaseAnchor_cases with hsame | ⟨t', ht', hlater⟩
      · exact hlater' t (hsame.trans ht)
      · have hfirst := hlater t ht
        have hsecond := hlater' t' ht'
        omega

end Follows

/-- A successful call on a checkpoint leaves a row that follows the one before. -/
theorem follows_of_run {db db' : Db} {call : CheckpointCall} {m : CheckpointLifecycleMutation}
    (h : call.run db = .ok (db', m)) :
    ∃ r, db.records.get? call.command.checkpointId = some r ∧ isCheckpoint r = true ∧
      Follows r m.record ∧ (db'.records = db.records.set m.record ∨ m.record = r ∧ db' = db) := by
  obtain ⟨r, text, hr, hshape, htext, hcase⟩ := CheckpointCall.run_cases h
  refine ⟨r, hr, hshape, ?_⟩
  obtain ⟨actor, command, now, anchor, at_, d, rfl, hclosed, -, -, hanchor, hat, hlater, hrecord,
    hrecords⟩ | ⟨actor, command, now, d, rfl, -, hcase⟩ := hcase
  · refine ⟨⟨by rw [hrecord], ?_, ?_⟩, Or.inl hrecords⟩
    · intro t ht
      rw [hclosed] at ht
      cases ht
    · refine Or.inr ⟨text, ⟨now.utc, 0⟩, by rw [hrecord], parse_of_formatTimestamp htext, ?_⟩
      intro t ht
      rw [leaseAnchor, hanchor] at ht
      have hsame : at_ = t := Option.some.inj (hat.symm.trans ht)
      rw [← hsame]
      exact hlater
  · obtain ⟨hclosed, hrecord, hrecords⟩ | ⟨-, hrecord, hdb⟩ := hcase
    · refine ⟨⟨by rw [hrecord], ?_, Or.inl (by rw [hrecord])⟩, Or.inl hrecords⟩
      intro t ht
      rw [hclosed] at ht
      cases ht
    · rw [hrecord]
      exact ⟨Follows.refl r, Or.inr ⟨rfl, hdb⟩⟩

/-- The row a successful call returns is the row it leaves in the table. -/
theorem stored_of_run {db db' : Db} {call : CheckpointCall} {m : CheckpointLifecycleMutation}
    (h : call.run db = .ok (db', m)) :
    m.record.id = call.command.checkpointId ∧ db'.records.get? m.record.id = some m.record ∧
      ∀ k, m.record.id ≠ k → db'.records.get? k = db.records.get? k := by
  obtain ⟨r, hr, -, hfollows, hcase⟩ := follows_of_run h
  have hid : m.record.id = call.command.checkpointId := hfollows.id_eq.trans (Table.key_of_get? hr)
  rw [← hid] at hr
  refine ⟨hid, ?_⟩
  rcases hcase with hrecords | ⟨hrecord, hdb⟩
  · rw [hrecords]
    exact ⟨Table.get?_set_self hr, fun k hk => Table.get?_set_of_ne _ hk⟩
  · rw [hdb]
    exact ⟨hr.trans (by rw [hrecord]), fun _ _ => rfl⟩

/-- One call, failed or not, on this checkpoint or another. -/
theorem step_follows {db : Db} (call : CheckpointCall) {id : String} {r : MemoryRecord}
    (hr : db.records.get? id = some r) :
    ∃ r', (call.step db).records.get? id = some r' ∧ Follows r r' ∧
      (Evaluable r.lane r.retention → ClockHolds db call → Evaluable r'.lane r'.retention) := by
  unfold CheckpointCall.step
  split
  · rename_i db' m h
    obtain ⟨r₀, hr₀, -, hfollows, -⟩ := follows_of_run h
    obtain ⟨hid, hstored, hother⟩ := stored_of_run h
    by_cases hthis : m.record.id = id
    · rw [← hthis, hid, hr₀] at hr
      cases hr
      exact ⟨m.record, hthis ▸ hstored, hfollows, fun _ => (evaluable_iff_clockHolds h).2⟩
    · exact ⟨r, (hother id hthis).trans hr, Follows.refl r, fun heval _ => heval⟩
  · exact ⟨r, hr, Follows.refl r, fun heval _ => heval⟩

/-- Every call of the run meets its clock condition, in the state it is made in. -/
def ClockHoldsAlong (db : Db) : List CheckpointCall → Prop
  | [] => True
  | call :: calls => ClockHolds db call ∧ ClockHoldsAlong (call.step db) calls

theorem runCalls_follows (calls : List CheckpointCall) {db : Db} {id : String} {r : MemoryRecord}
    (hr : db.records.get? id = some r) :
    ∃ r', (runCalls db calls).records.get? id = some r' ∧ Follows r r' ∧
      (Evaluable r.lane r.retention → ClockHoldsAlong db calls →
        Evaluable r'.lane r'.retention) := by
  induction calls generalizing db r with
  | nil => exact ⟨r, hr, Follows.refl r, fun heval _ => heval⟩
  | cons call calls ih =>
      obtain ⟨r₁, hr₁, hfirst, heval₁⟩ := step_follows call hr
      obtain ⟨r', hr', hrest, heval'⟩ := ih hr₁
      exact ⟨r', hr', hfirst.trans hrest,
        fun heval hclocks => heval' (heval₁ heval hclocks.1) hclocks.2⟩

/-- No continuation of a closed checkpoint succeeds. -/
theorem continue_open {db db' : Db} {actor : String} {command : CheckpointCommand}
    {now : OffsetDateTime} {m : CheckpointLifecycleMutation} {r : MemoryRecord}
    (h : (CheckpointCall.continue_ actor command now).run db = .ok (db', m))
    (hr : db.records.get? command.checkpointId = some r) :
    r.retention.closedAt = none ∧
      ∃ t t', leaseAnchor r.retention = some t ∧ leaseAnchor m.record.retention = some t' ∧
        t.utc < t'.utc := by
  obtain ⟨r₀, text, hr₀, -, htext, hcase⟩ := CheckpointCall.run_cases h
  cases Option.some.inj (hr.symm.trans hr₀)
  obtain ⟨_, _, now', anchor, at_, d, hcall, hclosed, -, -, hanchor, hat, hlater, hrecord, -⟩ |
    ⟨_, _, _, _, hcall, -⟩ := hcase
  · cases hcall
    refine ⟨hclosed, at_, ⟨now.utc, 0⟩, ?_, ?_, hlater⟩
    · rw [leaseAnchor, hanchor]
      exact hat
    · rw [hrecord, leaseAnchor]
      exact parse_of_formatTimestamp htext
  · cases hcall

/-- Every history of a checkpoint, with any clock readings. The row reached follows the first one:
a closure is never changed or removed, and the lease anchor only grows. It has a decision at every
instant when the first one had and every call met its clock condition, and a further successful call
leaves facts with a decision exactly when it meets that condition. No continuation of a closed
checkpoint succeeds, a continuation leaves a strictly later anchor, and from seven days after the
start on the checkpoint is neither current by its facts nor found as a current record. -/
theorem checkpoint_lifecycle (db : Db) (calls : List CheckpointCall) (id : String) (r : MemoryRecord)
    (hr : db.records.get? id = some r) (hshape : isCheckpoint r = true) :
    ∃ r', (runCalls db calls).records.get? id = some r' ∧ Follows r r' ∧
      (Evaluable r.lane r.retention → ClockHoldsAlong db calls → Evaluable r'.lane r'.retention) ∧
      (∀ call db' m, call.run (runCalls db calls) = .ok (db', m) →
        db'.records.get? call.command.checkpointId = some m.record ∧
          (Evaluable m.record.lane m.record.retention ↔ ClockHolds (runCalls db calls) call)) ∧
      (∀ actor command now db' m, command.checkpointId = id →
        (CheckpointCall.continue_ actor command now).run (runCalls db calls) = .ok (db', m) →
        r.retention.closedAt = none ∧ r'.retention.closedAt = none ∧
          ∃ t t', leaseAnchor r'.retention = some t ∧ leaseAnchor m.record.retention = some t' ∧
            t.utc < t'.utc) ∧
      ∀ started t, requiredTimestamp r.retention.startedAt "started_at" .session = .ok started →
        started.utc + days sessionMaximumDays ≤ t.utc →
        (∀ d, evaluateRetention id r'.lane r'.retention t = .ok d → d.state = .queryOnly) ∧
          ∀ found, checkpointRecord (runCalls db calls) id t ≠ .ok (some found) := by
  obtain ⟨r', hr', hfollows, heval⟩ := runCalls_follows calls hr
  have hlane : r'.lane = .session := by
    rw [← hfollows.isCheckpoint_eq] at hshape
    exact (isCheckpoint_iff.1 hshape).2.1
  refine ⟨r', hr', hfollows, heval, ?_, ?_, ?_⟩
  · intro call db' m h
    obtain ⟨hid, hstored, -⟩ := stored_of_run h
    exact ⟨hid ▸ hstored, evaluable_iff_clockHolds h⟩
  · rintro actor command now db' m rfl h
    obtain ⟨hopen, hlater⟩ := continue_open h hr'
    refine ⟨?_, hopen, hlater⟩
    cases hclosed : r.retention.closedAt with
    | none => rfl
    | some t =>
        rw [(hfollows.closed t hclosed).1] at hopen
        cases hopen
  · intro started t hstarted hcap
    rw [← hfollows.startedAt] at hstarted
    constructor
    · intro d hd
      rw [hlane] at hd
      exact queryOnly_of_maximum hd hstarted hcap
    · intro found hfound
      obtain ⟨d, hd, hstate⟩ := retention_of_checkpointRecord hr' hlane hfound
      have hquery : d.state = .queryOnly := queryOnly_of_maximum hd hstarted hcap
      rw [hquery] at hstate
      cases hstate

/-! ### A closure before the start -/

omit [Entropy]

/-- An open checkpoint that was started at ten. -/
def startedAtTen : MemoryRecord :=
  ⟨"local_1", .procedure, .session, .session, .repo, none, .private, "Checkpoint", "Next step",
    .active, 1, some checkpointSourceKind, none, none,
    ⟨none, some "2026-07-14T10:00:00Z", none, none, none, none⟩, ⟨"op-1", .checkpointCreate⟩, none,
    "00", "2026-07-14T10:00:00Z", "2026-07-14T10:00:00Z", none⟩

/-- A store with that checkpoint alone. -/
def storeAtTen : Db :=
  { Db.initial "2026-07-14T10:00:00Z" with
    records := ⟨[startedAtTen], by decide⟩
    lifecycle := ⟨[⟨.initial, "local_1", "00000000000000000000000000000000",
      "2026-07-14T10:00:00Z"⟩], by decide⟩ }

/-- Its closure, on a clock that reads 2026-07-14T09:00:00Z. -/
def closeAtNine : CheckpointCall :=
  .close "cli" ⟨"op-2", "local_1", "00000000000000000000000000000000"⟩ ⟨1784019600000000000, 0⟩

theorem checkpoint_lifecycle_storeAtTen :
    ∃ r', (@runCalls Entropy.cycling storeAtTen [closeAtNine]).records.get? "local_1" = some r' ∧
      Follows startedAtTen r' := by
  obtain ⟨r', hr', hfollows, -⟩ :=
    @checkpoint_lifecycle Entropy.cycling storeAtTen [closeAtNine] "local_1" startedAtTen rfl rfl
  exact ⟨r', hr', hfollows⟩

/-- The closure succeeds, and no instant has a decision on the facts it leaves. -/
theorem closeAtNine_not_evaluable :
    ∃ db' m, @CheckpointCall.run Entropy.cycling storeAtTen closeAtNine = .ok (db', m) ∧
      ∀ t d, evaluateRetention "local_1" m.record.lane m.record.retention t ≠ .ok d := by
  have hsome : (@CheckpointCall.run Entropy.cycling storeAtTen closeAtNine).toOption.isSome = true := by
    decide +kernel
  cases hrun : @CheckpointCall.run Entropy.cycling storeAtTen closeAtNine with
  | error e =>
      rw [hrun] at hsome
      cases hsome
  | ok result =>
      obtain ⟨db', m⟩ := result
      refine ⟨db', m, rfl, ?_⟩
      intro t d hd
      have hclock := (@evaluable_iff_clockHolds Entropy.cycling _ _ _ _ hrun).1 (evaluable_of_ok hd)
      have hstarted : requiredTimestamp startedAtTen.retention.startedAt "started_at" .session =
          .ok ⟨1784023200000000000, 0⟩ := by decide +kernel
      have hle := hclock startedAtTen _ rfl rfl hstarted
      exact absurd hle (by decide)

end Checkpoint
end Memzoi
