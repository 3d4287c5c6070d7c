/-
# The lifecycle row of one record

Source: `service/private_lifecycle.rs` (`verify_lifecycle_authority`,
`validate_action_semantics`, `create_correction_record`).

What is kept of every private record: each fact of its lifecycle row stands
with an event that authorized it (`Authorized`), and each override reads as an
instant past the clock it extends (`Extended`). A new record has no facts, an
action changes facts it was admitted on, and a correction inherits them; both
properties survive all three. Whether the record also stays in the calendar is
a condition of its own, on the instants the owner asks for (`KeepsCalendar`).
-/

import Memzoi.PrivateLifecycle.Admission
import Memzoi.PrivateRetentionRules

namespace Memzoi
namespace PrivateLifecycle

open Fallible Retention

/-! ### Authority -/

/-- An event that names the record and one of the action kinds. -/
structure Authorizes (event : MemoryEvent) (recordId : String) (kinds : List String) : Prop where
  eventType : event.eventType = Recall.privateLifecycleAppliedEvent
  fields : event.payload.fields.map Prod.fst = auditFields
  record : event.payload.targetRecordIds.contains recordId = true
  kind : event.payload.actionKinds.any kinds.contains = true

/-- The fact bound to that event id is authorized, under the stored events. -/
def AuthorizedBy (events : String → Option MemoryEvent) (eventId : Option String)
    (recordId : String) (kinds : List String) : Prop :=
  ∃ id event, eventId = some id ∧ events id = some event ∧ Authorizes event recordId kinds

def recallKinds : List String := ["extend_automatic_recall", "correct"]
def validityKinds : List String := ["extend_validity", "correct"]
def retentionKinds : List String := ["retain_until", "pin", "unpin", "correct"]
def quarantineKinds (quarantined : Bool) : List String :=
  if quarantined then ["quarantine", "correct"] else ["release_quarantine", "correct"]

/-- Every fact of a lifecycle row stands with the event that authorized it. -/
structure Authorized (events : String → Option MemoryEvent) (recordId : String)
    (facts : LifecycleFacts) : Prop where
  recall_paired : facts.automaticRecallUntil.isSome = facts.automaticRecallEventId.isSome
  validity_paired : facts.validityUntil.isSome = facts.validityEventId.isSome
  recallAt : facts.automaticRecallEventId.isSome = true →
    AuthorizedBy events facts.automaticRecallEventId recordId recallKinds
  validity : facts.validityEventId.isSome = true →
    AuthorizedBy events facts.validityEventId recordId validityKinds
  retention : facts.retentionEventId.isSome = true →
    AuthorizedBy events facts.retentionEventId recordId retentionKinds
  retained : facts.retentionEventId.isSome = true ∨
    (facts.retainUntil.isNone = true ∧ facts.pinned = false)
  quarantine : facts.quarantineEventId.isSome = true →
    AuthorizedBy events facts.quarantineEventId recordId (quarantineKinds facts.quarantined)
  quarantined : facts.quarantineEventId.isSome = true ∨ facts.quarantined = false

theorem requireAuthorizingEvent_ok {db : Db} {eventId : Option String} {recordId fact : String}
    {kinds : List String} :
    requireAuthorizingEvent db eventId recordId kinds fact = .ok () ↔
      AuthorizedBy db.events.get? eventId recordId kinds := by
  simp only [requireAuthorizingEvent, bind_eq_ok, require_eq_ok, ensure_eq_ok, exists_const,
    Option.filter_eq_some_iff, decide_eq_true_eq]
  constructor
  · rintro ⟨id, rfl, event, ⟨hevent, htype⟩, hfields, hrecord, hkind⟩
    exact ⟨id, event, rfl, hevent, htype, hfields, hrecord, hkind⟩
  · rintro ⟨id, event, rfl, hevent, htype, hfields, hrecord, hkind⟩
    exact ⟨id, rfl, event, ⟨hevent, htype⟩, hfields, hrecord, hkind⟩

theorem requireIfSet_ok {db : Db} {set : Bool} {eventId : Option String} {recordId fact : String}
    {kinds : List String} :
    requireIfSet db set eventId recordId kinds fact = .ok () ↔
      (set = true → AuthorizedBy db.events.get? eventId recordId kinds) := by
  unfold requireIfSet
  cases set with
  | false => simp
  | true => simpa using requireAuthorizingEvent_ok

/-- The check of a lifecycle row is what `Authorized` says. -/
theorem verifyLifecycleAuthority_ok {db : Db} {recordId : String} {facts : LifecycleFacts} :
    verifyLifecycleAuthority db recordId facts = .ok () ↔
      Authorized db.events.get? recordId facts := by
  simp only [verifyLifecycleAuthority, check_bind_eq_ok, ensure_eq_ok, requireIfSet_ok]
  constructor
  · rintro ⟨hrecall, hvalidity, hr, hv, hretention, hretained, hquarantine, hquarantined⟩
    exact ⟨hrecall, hvalidity, fun h => hr (hrecall ▸ h), fun h => hv (hvalidity ▸ h), hretention,
      hretained, hquarantine, hquarantined⟩
  · rintro ⟨hrecall, hvalidity, hr, hv, hretention, hretained, hquarantine, hquarantined⟩
    exact ⟨hrecall, hvalidity, fun h => hr (hrecall ▸ h), fun h => hv (hvalidity ▸ h), hretention,
      hretained, hquarantine, hquarantined⟩

theorem AuthorizedBy.mono {events events' : String → Option MemoryEvent} {eventId : Option String}
    {recordId : String} {kinds : List String} (h : AuthorizedBy events eventId recordId kinds)
    (hsub : ∀ id event, events id = some event → events' id = some event) :
    AuthorizedBy events' eventId recordId kinds := by
  obtain ⟨id, event, rfl, hevent, hauthorizes⟩ := h
  exact ⟨id, event, rfl, hsub id event hevent, hauthorizes⟩

/-- More events authorize no less. -/
theorem Authorized.mono {events events' : String → Option MemoryEvent} {recordId : String}
    {facts : LifecycleFacts} (h : Authorized events recordId facts)
    (hsub : ∀ id event, events id = some event → events' id = some event) :
    Authorized events' recordId facts where
  recall_paired := h.recall_paired
  validity_paired := h.validity_paired
  recallAt hset := (h.recallAt hset).mono hsub
  validity hset := (h.validity hset).mono hsub
  retention hset := (h.retention hset).mono hsub
  retained := h.retained
  quarantine hset := (h.quarantine hset).mono hsub
  quarantined := h.quarantined

theorem authorized_initial {events : String → Option MemoryEvent} {recordId : String} :
    Authorized events recordId .initial where
  recall_paired := rfl
  validity_paired := rfl
  recallAt hset := by cases hset
  validity hset := by cases hset
  retention hset := by cases hset
  retained := Or.inr ⟨rfl, rfl⟩
  quarantine hset := by cases hset
  quarantined := Or.inr rfl

/-- The event of an application names the record under an action kind. -/
structure Named (events : String → Option MemoryEvent) (eventId recordId kind : String) : Prop where
  named : ∃ event, events eventId = some event ∧ Authorizes event recordId [kind]

theorem Named.authorizedBy {events : String → Option MemoryEvent} {eventId recordId kind : String}
    {kinds : List String} (h : Named events eventId recordId kind) (hkind : kind ∈ kinds) :
    AuthorizedBy events (some eventId) recordId kinds := by
  obtain ⟨event, hevent, hauthorizes⟩ := h.named
  refine ⟨eventId, event, rfl, hevent, { hauthorizes with kind := ?_ }⟩
  obtain ⟨k, hk, hmem⟩ := List.any_eq_true.1 hauthorizes.kind
  rw [List.contains_iff_mem, List.mem_singleton] at hmem
  subst hmem
  exact List.any_eq_true.2 ⟨k, hk, List.contains_iff_mem.2 hkind⟩

/-- The record whose lifecycle facts an action changes. -/
def factsTarget : PrivateLifecycleAction → Option String
  | .extendAutomaticRecall recordId _ _ => some recordId
  | .extendValidity recordId _ _ => some recordId
  | .retainUntil recordId _ _ => some recordId
  | .pin recordId _ => some recordId
  | .unpin recordId _ => some recordId
  | .quarantine recordId _ _ => some recordId
  | .releaseQuarantine recordId _ => some recordId
  | _ => none

/-- The facts an action sets are authorized by its own event, the others as before. -/
theorem Authorized.changed {events : String → Option MemoryEvent} {recordId eventId : String}
    {facts : LifecycleFacts} {a : PrivateLifecycleAction} (h : Authorized events recordId facts)
    (hnamed : Named events eventId recordId a.kind) :
    Authorized events recordId (changedFacts eventId a facts) := by
  cases a with
  | extendAutomaticRecall =>
      exact { h with
        recall_paired := rfl
        recallAt := fun _ => hnamed.authorizedBy List.mem_cons_self }
  | extendValidity =>
      exact { h with
        validity_paired := rfl
        validity := fun _ => hnamed.authorizedBy List.mem_cons_self }
  | retainUntil =>
      exact { h with
        retention := fun _ => hnamed.authorizedBy List.mem_cons_self
        retained := Or.inl rfl }
  | pin =>
      exact { h with
        retention := fun _ =>
          hnamed.authorizedBy (List.mem_cons_of_mem _ List.mem_cons_self)
        retained := Or.inl rfl }
  | unpin =>
      exact { h with
        retention := fun _ =>
          hnamed.authorizedBy (List.mem_cons_of_mem _ (List.mem_cons_of_mem _ List.mem_cons_self))
        retained := Or.inl rfl }
  | quarantine =>
      exact { h with
        quarantine := fun _ => hnamed.authorizedBy List.mem_cons_self
        quarantined := Or.inl rfl }
  | releaseQuarantine =>
      exact { h with
        quarantine := fun _ => hnamed.authorizedBy List.mem_cons_self
        quarantined := Or.inl rfl }
  | renewFromEvidence => exact h
  | correct => exact h
  | supersede => exact h
  | consolidate => exact h
  | resolveContradiction => exact h

/-- The facts a correction inherits are authorized by the event of the correction. -/
theorem Authorized.inherited {events : String → Option MemoryEvent}
    {recordId replacementId eventId : String} {facts : LifecycleFacts}
    (h : Authorized events recordId facts) (hnamed : Named events eventId replacementId "correct") :
    Authorized events replacementId (inheritedFacts facts eventId) := by
  have hbound : ∀ {old : Option String} {kinds : List String}, "correct" ∈ kinds →
      (old.map fun _ => eventId).isSome = true →
        AuthorizedBy events (old.map fun _ => eventId) replacementId kinds := by
    intro old kinds hkinds hset
    cases old with
    | none => cases hset
    | some _ => exact hnamed.authorizedBy hkinds
  have hpaired : ∀ old : Option String, (old.map fun _ => eventId).isSome = old.isSome :=
    fun old => Option.isSome_map
  have hquarantine : ∀ quarantined, "correct" ∈ quarantineKinds quarantined := by
    intro quarantined
    cases quarantined <;> decide
  exact {
    recall_paired := h.recall_paired.trans (hpaired _).symm
    validity_paired := h.validity_paired.trans (hpaired _).symm
    recallAt := hbound (by decide)
    validity := hbound (by decide)
    retention := hbound (by decide)
    retained := h.retained.imp_left (hpaired _).trans
    quarantine := hbound (hquarantine _)
    quarantined := h.quarantined.imp_left (hpaired _).trans }

/-! ### Clocks -/

/-- The overrides of a lifecycle row extend the clocks of a record that has a decision without
them, when its window ends in the calendar. -/
structure Extended (lane : MemoryLane) (retention : RetentionFacts) (facts : LifecycleFacts) :
    Prop where
  evaluable : WindowInCalendar lane retention → Evaluable lane retention
  overrides : ∃ recallAt validity,
    Overrides lane retention (Recall.readFacts facts) recallAt validity

theorem extended_initial {lane : MemoryLane} {retention : RetentionFacts}
    (h : WindowInCalendar lane retention → Evaluable lane retention) : Extended lane retention .initial where
  evaluable := h
  overrides := ⟨none, none, rfl, rfl, fun t ht => absurd ht (Option.not_mem_none t),
    fun t ht => absurd ht (Option.not_mem_none t), [], rfl⟩

/-- What an action on lifecycle facts is admitted on, of the facts it changes. -/
def AdmitsFacts (lane : MemoryLane) (retention : RetentionFacts) (facts : LifecycleFacts) :
    PrivateLifecycleAction → Prop
  | .extendAutomaticRecall _ _ recallUntil =>
    lane = .episodic ∧ ∃ requested occurred, Rfc3339.parse recallUntil = some requested ∧
      instant? retention.occurredAt = some occurred ∧
      (facts.automaticRecallUntil = none → (ordinaryEnd occurred).utc < requested.utc) ∧
      (∀ current, instant? facts.automaticRecallUntil = some current → current.utc < requested.utc) ∧
      requested.utc ≤ (maximumEnd occurred).utc
  | .extendValidity _ _ validityUntil =>
    lane ≠ .session ∧ ∃ requested prior, Rfc3339.parse validityUntil = some requested ∧
      instant? (facts.validityUntil.or retention.explicitExpiresAt) = some prior ∧
      prior.utc < requested.utc
  | .quarantine _ _ reasonCode => Text.isBlank reasonCode = false
  | _ => True

/-- The clock an extension sets, or the other clock of the record, ends in the calendar. -/
def KeepsCalendar (lane : MemoryLane) (retention : RetentionFacts) (facts : LifecycleFacts) :
    PrivateLifecycleAction → Prop
  | .extendAutomaticRecall _ _ recallUntil =>
    ∃ t, (Rfc3339.parse recallUntil = some t ∨
      validityClock retention (Recall.readFacts facts) = some t) ∧ t.utc ≤ OffsetDateTime.maxWritten
  | .extendValidity _ _ validityUntil =>
    ∃ t, (Rfc3339.parse validityUntil = some t ∨
      (lane = .episodic ∧ recallClock retention (Recall.readFacts facts) = some t)) ∧
        t.utc ≤ OffsetDateTime.maxWritten
  | _ => True

theorem instant?_of_parse {text : String} {t : OffsetDateTime} (h : Rfc3339.parse text = some t) :
    instant? (some text) = some t := by
  have htrim : Text.trim text = text := Rfc3339.trim_of_parse h
  have hne : text ≠ "" := by
    rintro rfl
    have hempty : Rfc3339.parse "" = none := by decide
    rw [hempty] at h
    cases h
  rw [instant?, Option.bind_some, htrim, if_neg hne, h]

theorem verified_of_parse {text eventId field : String} {t : OffsetDateTime}
    (h : Rfc3339.parse text = some t) (hevent : Text.isBlank eventId = false) :
    verifiedLifecycleBoundary (some text) (some eventId) field = .ok (some t) := by
  simp only [verifiedLifecycleBoundary, ensure_of hevent, ok_bind,
    parseTimestamp_eq_ok.2 (instant?_of_parse h)]

/-- The facts an admitted action sets extend the clocks again. -/
theorem Extended.changed {lane : MemoryLane} {retention : RetentionFacts} {facts : LifecycleFacts}
    {a : PrivateLifecycleAction} {eventId : String} (h : Extended lane retention facts)
    (hadm : AdmitsFacts lane retention facts a) (hevent : Text.isBlank eventId = false) :
    Extended lane retention (changedFacts eventId a facts) := by
  obtain ⟨hevaluable, recallAt, validity, hover⟩ := h
  refine ⟨hevaluable, ?_⟩
  cases a with
  | extendAutomaticRecall _ _ recallUntil =>
      obtain ⟨hlane, requested, occurred, hparse, hoccurred, hfirst, hlater, hmax⟩ := hadm
      refine ⟨some requested, validity, { hover with
        recall_read := verified_of_parse hparse hevent
        recall_extends := ?_ }⟩
      intro t ht
      obtain rfl : requested = t := Option.some.inj ht
      refine ⟨hlane, occurred, hoccurred, ?_, hmax⟩
      cases hcurrent : facts.automaticRecallUntil with
      | none => exact hfirst hcurrent
      | some text =>
          -- the override that is replaced already lay past the ordinary window
          have hread : instant? facts.automaticRecallUntil = recallAt :=
            instant?_of_verified hover.recall_read
          cases recallAt with
          | none =>
              have hset := isSome_of_verified hover.recall_read
              rw [show (Recall.readFacts facts).automaticRecallUntil = some text from hcurrent] at hset
              cases hset
          | some current =>
              obtain ⟨-, occurred', hoccurred', hlt, -⟩ := hover.recall_extends current rfl
              obtain rfl : occurred = occurred' := Option.some.inj (hoccurred.symm.trans hoccurred')
              exact lt_trans hlt (hlater current hread)
  | extendValidity _ _ validityUntil =>
      obtain ⟨hlane, requested, prior, hparse, hprior, hlater⟩ := hadm
      refine ⟨recallAt, some requested, { hover with
        validity_read := verified_of_parse hparse hevent
        validity_extends := ?_ }⟩
      intro t ht
      obtain rfl : requested = t := Option.some.inj ht
      refine ⟨hlane, ?_⟩
      cases hcurrent : facts.validityUntil with
      | none =>
          rw [hcurrent, Option.none_or] at hprior
          exact ⟨prior, hprior, hlater⟩
      | some text =>
          rw [hcurrent, Option.some_or, ← hcurrent] at hprior
          have hread : instant? facts.validityUntil = validity :=
            instant?_of_verified hover.validity_read
          obtain ⟨-, base, hbase, hlt⟩ := hover.validity_extends prior (hread.symm.trans hprior)
          exact ⟨base, hbase, lt_trans hlt hlater⟩
  | quarantine _ _ reasonCode =>
      have hreason : Text.isBlank reasonCode = false := hadm
      refine ⟨recallAt, validity, { hover with quarantine_read := ⟨[.quarantine reasonCode], ?_⟩ }⟩
      simp only [Recall.readFacts, changedFacts, quarantineExclusions, hreason]
      rfl
  | releaseQuarantine =>
      exact ⟨recallAt, validity, { hover with quarantine_read := ⟨[], rfl⟩ }⟩
  | retainUntil => exact ⟨recallAt, validity, { hover with }⟩
  | pin => exact ⟨recallAt, validity, { hover with }⟩
  | unpin => exact ⟨recallAt, validity, { hover with }⟩
  | renewFromEvidence => exact ⟨recallAt, validity, hover⟩
  | correct => exact ⟨recallAt, validity, hover⟩
  | supersede => exact ⟨recallAt, validity, hover⟩
  | consolidate => exact ⟨recallAt, validity, hover⟩
  | resolveContradiction => exact ⟨recallAt, validity, hover⟩

theorem verified_inherited {boundary old : Option String} {eventId field : String}
    {o : Option OffsetDateTime} (hevent : Text.isBlank eventId = false)
    (h : verifiedLifecycleBoundary boundary old field = .ok o) :
    verifiedLifecycleBoundary boundary (old.map fun _ => eventId) field = .ok o := by
  cases old with
  | none => exact h
  | some _ =>
      cases boundary with
      | none => exact h
      | some text =>
          obtain ⟨-, hread⟩ := check_bind_eq_ok.1 h
          exact check_bind_eq_ok.2 ⟨ensure_of hevent, hread⟩

/-- The facts a correction inherits extend the same clocks. -/
theorem Extended.inherited {lane : MemoryLane} {retention : RetentionFacts} {facts : LifecycleFacts}
    {eventId : String} (h : Extended lane retention facts) (hevent : Text.isBlank eventId = false) :
    Extended lane retention (inheritedFacts facts eventId) := by
  obtain ⟨hevaluable, recallAt, validity, hover⟩ := h
  exact ⟨hevaluable, recallAt, validity, { hover with
    recall_read := verified_inherited hevent hover.recall_read
    validity_read := verified_inherited hevent hover.validity_read }⟩

theorem clock_of_parse {text : String} {o : Option OffsetDateTime} {t : OffsetDateTime}
    (h : Rfc3339.parse text = some t) : (instant? (some text)).or o = some t := by
  rw [instant?_of_parse h, Option.some_or]

/-- An action that meets its condition leaves the clocks in the calendar. -/
theorem inCalendar_changed {lane : MemoryLane} {retention : RetentionFacts} {facts : LifecycleFacts}
    {a : PrivateLifecycleAction} {eventId : String}
    (h : InCalendar lane retention (Recall.readFacts facts))
    (hkeeps : KeepsCalendar lane retention facts a) :
    InCalendar lane retention (Recall.readFacts (changedFacts eventId a facts)) := by
  cases a with
  | extendAutomaticRecall =>
      obtain ⟨t, ht, hle⟩ := hkeeps
      cases lane with
      | session => exact h
      | episodic => exact ⟨h.1, t, ht.imp_left clock_of_parse, hle⟩
      | semantic => exact h
      | procedural => exact h
  | extendValidity recordId version validityUntil =>
      obtain ⟨t, ht, hle⟩ := hkeeps
      have hdurable : lane ≠ .episodic → ∀ u ∈ validityClock retention
          (Recall.readFacts (changedFacts eventId (.extendValidity recordId version validityUntil)
            facts)), u.utc ≤ OffsetDateTime.maxWritten := by
        intro hlane u hu
        rcases ht with ht | ⟨hepisodic, -⟩
        · obtain rfl : t = u := Option.some.inj ((clock_of_parse ht).symm.trans hu)
          exact hle
        · exact absurd hepisodic hlane
      cases lane with
      | session => exact h
      | episodic =>
          refine ⟨h.1, t, ?_, hle⟩
          rcases ht with ht | ⟨-, ht⟩
          · exact Or.inr (clock_of_parse ht)
          · exact Or.inl ht
      | semantic => exact ⟨trivial, hdurable (by decide)⟩
      | procedural => exact ⟨trivial, hdurable (by decide)⟩
  | _ => exact h

/-- A new record is in the calendar when its window is. -/
theorem inCalendar_initial {lane : MemoryLane} {retention : RetentionFacts}
    (h : WindowInCalendar lane retention → Evaluable lane retention)
    (hwindow : WindowInCalendar lane retention) :
    InCalendar lane retention (Recall.readFacts .initial) := by
  have hevaluable := h hwindow
  have hdurable : lane ≠ .session → lane ≠ .episodic →
      ∀ t ∈ validityClock retention (Recall.readFacts .initial),
        t.utc ≤ OffsetDateTime.maxWritten := by
    intro hsession hepisodic t ht
    obtain ⟨explicit, hexplicit, hwritten⟩ := evaluable_durable hevaluable hsession hepisodic
    have hclock : instant? retention.explicitExpiresAt = some t := ht
    rw [instant?_of_parseOptional hexplicit] at hclock
    exact (hwritten t hclock).2
  refine ⟨hwindow, ?_⟩
  cases lane with
  | session => trivial
  | semantic => exact hdurable (by decide) (by decide)
  | procedural => exact hdurable (by decide) (by decide)
  | episodic =>
      obtain ⟨occurred, explicit, hoccurred, hexplicit, -, -, hhigh⟩ := evaluable_episodic hevaluable
      have hordinary : recallClock retention (Recall.readFacts .initial) =
          some (ordinaryEnd occurred) := by
        rw [recallClock, instant?_of_required hoccurred]
        rfl
      have hvalidity : validityClock retention (Recall.readFacts .initial) = explicit := by
        rw [validityClock, instant?_of_parseOptional hexplicit]
        rfl
      cases explicit with
      | none => exact ⟨ordinaryEnd occurred, Or.inl hordinary, hhigh⟩
      | some e =>
          rw [minWithExplicit] at hhigh
          dsimp only at hhigh
          split at hhigh
          · exact ⟨e, Or.inr hvalidity, hhigh⟩
          · exact ⟨ordinaryEnd occurred, Or.inl hordinary, hhigh⟩

/-! ### Admission by the semantic checks -/

theorem requireFacts_ok {db : Db} {recordId : String} {facts : LifecycleFacts} :
    requireFacts db recordId = .ok facts ↔ db.facts? recordId = some facts := by
  simp only [requireFacts, Db.requireState, bind_eq_ok, require_eq_ok, Except.ok.injEq, Db.facts?,
    Option.map_eq_some_iff]

theorem parse_of_parseTimestamp {text label : String} {t : OffsetDateTime}
    (h : PrivateLifecycle.parseTimestamp text label = .ok t) : Rfc3339.parse text = some t :=
  require_eq_ok.1 h

theorem isBlank_of_reasonCode {reasonCode : String} (h : validateReasonCode reasonCode = .ok ()) :
    Text.isBlank reasonCode = false := by
  simp only [validateReasonCode, validateIdentifier, check_bind_eq_ok, ensure_eq_ok] at h
  exact h.1.1

theorem admitsFacts_recall {db : Db} {recordId version recallUntil : String} {now : OffsetDateTime}
    {r : MemoryRecord} {facts : LifecycleFacts}
    (h : validateExtendAutomaticRecall db recordId recallUntil now = .ok ())
    (hr : db.records.get? recordId = some r) (hfacts : db.facts? recordId = some facts) :
    AdmitsFacts r.lane r.retention facts (.extendAutomaticRecall recordId version recallUntil) := by
  obtain ⟨r', hr', h⟩ := bind_eq_ok.1 h
  obtain rfl : r = r' := Option.some.inj (hr.symm.trans (requirePrivateRecord_ok.1 hr').1)
  simp only [check_bind_eq_ok, ensure_eq_ok] at h
  obtain ⟨hlane, -, h⟩ := h
  obtain ⟨facts', hfacts', h⟩ := bind_eq_ok.1 h
  obtain rfl : facts = facts' := Option.some.inj (hfacts.symm.trans (requireFacts_ok.1 hfacts'))
  obtain ⟨occurredText, hoccurredText, h⟩ := bind_eq_ok.1 h
  obtain ⟨occurred, hoccurred, h⟩ := bind_eq_ok.1 h
  obtain ⟨ordinary, hordinary, h⟩ := bind_eq_ok.1 h
  obtain ⟨current, hcurrent, h⟩ := bind_eq_ok.1 h
  obtain ⟨requested, hrequested, h⟩ := bind_eq_ok.1 h
  obtain ⟨maximum, hmaximum, h⟩ := bind_eq_ok.1 h
  simp only [check_bind_eq_ok, ensure_eq_ok] at h
  obtain ⟨⟨hlater, -⟩, hmax⟩ := h
  have hadded : ∀ {d end_ message}, require (occurred.checkedAdd d) message = .ok end_ →
      end_ = ⟨occurred.utc + d, occurred.offset⟩ := by
    intro d end_ message hend
    have hadd : addDuration occurred d "" = .ok end_ := require_eq_ok.2 (require_eq_ok.1 hend)
    exact (addDuration_eq_ok.1 hadd).2
  have hordinaryEnd : ordinary = ordinaryEnd occurred := hadded hordinary
  have hmaximumEnd : maximum = maximumEnd occurred := hadded hmaximum
  refine ⟨hlane, requested, occurred, parse_of_parseTimestamp hrequested, ?_, ?_, ?_, ?_⟩
  · rw [require_eq_ok.1 hoccurredText]
    exact instant?_of_parse (parse_of_parseTimestamp hoccurred)
  · intro hnone
    rw [currentRecallBoundary, hnone] at hcurrent
    cases hcurrent
    rw [← hordinaryEnd]
    exact hlater
  · intro t ht
    cases hset : facts.automaticRecallUntil with
    | none =>
        rw [hset] at ht
        cases ht
    | some text =>
        rw [currentRecallBoundary, hset] at hcurrent
        rw [hset] at ht
        rw [instant?_of_parse (parse_of_parseTimestamp hcurrent)] at ht
        obtain rfl : current = t := Option.some.inj ht
        exact hlater
  · rw [← hmaximumEnd]
    exact hmax

theorem admitsFacts_validity {db : Db} {recordId version validityUntil : String}
    {now : OffsetDateTime} {r : MemoryRecord} {facts : LifecycleFacts}
    (h : validateExtendValidity db recordId validityUntil now = .ok ())
    (hr : db.records.get? recordId = some r) (hfacts : db.facts? recordId = some facts) :
    AdmitsFacts r.lane r.retention facts (.extendValidity recordId version validityUntil) := by
  obtain ⟨r', hr', h⟩ := bind_eq_ok.1 h
  obtain rfl : r = r' := Option.some.inj (hr.symm.trans (requirePrivateRecord_ok.1 hr').1)
  simp only [check_bind_eq_ok, ensure_eq_ok] at h
  obtain ⟨hlane, -, h⟩ := h
  obtain ⟨facts', hfacts', h⟩ := bind_eq_ok.1 h
  obtain rfl : facts = facts' := Option.some.inj (hfacts.symm.trans (requireFacts_ok.1 hfacts'))
  obtain ⟨priorText, hpriorText, h⟩ := bind_eq_ok.1 h
  obtain ⟨prior, hprior, h⟩ := bind_eq_ok.1 h
  obtain ⟨requested, hrequested, h⟩ := bind_eq_ok.1 h
  obtain ⟨hlater, -⟩ := ensure_eq_ok.1 h
  refine ⟨hlane, requested, prior, parse_of_parseTimestamp hrequested, ?_, hlater⟩
  rw [require_eq_ok.1 hpriorText]
  exact instant?_of_parse (parse_of_parseTimestamp hprior)

/-- The semantic check admits the change of the facts. -/
theorem admitsFacts_of_semantics [Text.Unicode] {db : Db} {a : PrivateLifecycleAction}
    {now : OffsetDateTime} {r : MemoryRecord} {facts : LifecycleFacts} {id : String}
    (hvalid : validateAction a = .ok ()) (h : validateActionSemantics db a now = .ok ())
    (hid : factsTarget a = some id) (hr : db.records.get? id = some r)
    (hfacts : db.facts? id = some facts) : AdmitsFacts r.lane r.retention facts a := by
  simp only [validateAction, check_bind_eq_ok] at hvalid
  obtain ⟨-, -, hfields⟩ := hvalid
  cases a with
  | extendAutomaticRecall =>
      obtain rfl := Option.some.inj hid
      exact admitsFacts_recall h hr hfacts
  | extendValidity =>
      obtain rfl := Option.some.inj hid
      exact admitsFacts_validity h hr hfacts
  | quarantine => exact isBlank_of_reasonCode hfields
  | _ => trivial

end PrivateLifecycle
end Memzoi
