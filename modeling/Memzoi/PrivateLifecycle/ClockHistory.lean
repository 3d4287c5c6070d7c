/-
# The lifecycle clocks of a store

Source: `service/private_lifecycle.rs` (`apply_action_group`,
`create_correction_record`) and `retention.rs`.

Two properties of a record's lifecycle row are carried through every change of a
store: its facts are authorized and extend its clocks, which no admitted action
breaks, and its clocks stay in the calendar, which an action keeps when the
instant it asks for does (`KeepsCalendar`). Both are instances of one rule about
properties of single records (`EachRecord.act`). The evaluator then decides
every record exactly when its clocks are in the calendar.
-/

import Memzoi.PrivateLifecycle.ClockRules

namespace Memzoi
namespace PrivateLifecycle

open Fallible Retention

/-! ### Properties of every private record -/

/-- A property of a private record, by its id, lane, base facts and lifecycle facts. -/
abbrev RecordProperty := String → MemoryLane → RetentionFacts → LifecycleFacts → Prop

/-- Every private record has a lifecycle row, and the two satisfy the property. -/
def EachRecord (G : RecordProperty) (v : View) : Prop :=
  ∀ id r, v.records id = some r → r.destination.isPrivate = true →
    ∃ facts, v.facts id = some facts ∧ G id r.lane r.retention facts

namespace EachRecord

variable {G : RecordProperty} {v : View}

theorem mono {G' : RecordProperty} (h : EachRecord G v)
    (hsub : ∀ id lane retention facts, G id lane retention facts → G' id lane retention facts) :
    EachRecord G' v := by
  intro id r hr hprivate
  obtain ⟨facts, hfacts, hG⟩ := h id r hr hprivate
  exact ⟨facts, hfacts, hsub id r.lane r.retention facts hG⟩

/-- A change of a row that keeps lane, base facts and destination changes no property. -/
theorem changeRecord {id : String} {update : MemoryRecord → MemoryRecord} (h : EachRecord G v)
    (hkeeps : ∀ r, (update r).lane = r.lane ∧ (update r).retention = r.retention ∧
      (update r).destination = r.destination) : EachRecord G (v.changeRecord id update) := by
  intro x r hr hprivate
  have hfacts : ∀ facts, v.facts x = some facts →
      (v.changeRecord id update).facts x = some facts := by
    intro facts hx
    show Function.update v.facts id _ x = _
    by_cases hid : x = id
    · subst hid
      rw [Function.update_self, hx]
      rfl
    · rw [Function.update_of_ne hid, hx]
  rcases View.changeRecord_cases hr with ⟨-, hsame⟩ | ⟨-, old, hold, rfl⟩
  · obtain ⟨facts, hx, hG⟩ := h x r hsame hprivate
    exact ⟨facts, hfacts facts hx, hG⟩
  · obtain ⟨hlane, hretention, hdestination⟩ := hkeeps old
    rw [hdestination] at hprivate
    obtain ⟨facts, hx, hG⟩ := h x old hold hprivate
    rw [hlane, hretention]
    exact ⟨facts, hfacts facts hx, hG⟩

theorem supersedeInto {kind : PrivateLifecycleRelationKind} {s t : String} {app : Application}
    (h : EachRecord G v) : EachRecord G (v.supersedeInto kind s t app) :=
  h.changeRecord fun _ => ⟨rfl, rfl, rfl⟩

theorem succeedBy {kind : PrivateLifecycleRelationKind} {a b : String}
    {lineage : Option RecordLineageKind} {app : Application} (h : EachRecord G v) :
    EachRecord G (v.succeedBy kind a b lineage app) := by
  have hsuperseded : EachRecord G (v.changeRecord a (View.supersede app)) :=
    h.changeRecord fun _ => ⟨rfl, rfl, rfl⟩
  have hlinked : EachRecord G ((v.changeRecord a (View.supersede app)).changeRecord b
      (View.link app a lineage)) := hsuperseded.changeRecord fun _ => ⟨rfl, rfl, rfl⟩
  exact hlinked

theorem supersedeMembers {kind : PrivateLifecycleRelationKind} {kept : String} {ids : List String}
    {app : Application} (h : EachRecord G v) :
    EachRecord G (v.supersedeMembers kind kept ids app) := by
  unfold View.supersedeMembers
  induction ids generalizing v with
  | nil => exact h
  | cons id ids ih =>
      rw [List.foldl_cons]
      split
      · exact ih h
      · exact ih h.supersedeInto

theorem changeFacts {id : String} {update : LifecycleFacts → LifecycleFacts} (h : EachRecord G v)
    (hupdate : ∀ r facts, v.records id = some r → v.facts id = some facts →
      G id r.lane r.retention facts → G id r.lane r.retention (update facts)) :
    EachRecord G (v.changeFacts id update) := by
  intro x r hr hprivate
  obtain ⟨facts, hfacts, hG⟩ := h x r hr hprivate
  by_cases hx : x = id
  · subst hx
    refine ⟨update facts, ?_, hupdate r facts hr hfacts hG⟩
    show Function.update v.facts x _ x = _
    rw [Function.update_self, hfacts]
    rfl
  · exact ⟨facts, (Function.update_of_ne hx _ _).trans hfacts, hG⟩

theorem createCorrection [Digests] {recordId replacementId : String}
    {replacement : PrivateCorrectionReplacement} {app : Application} (h : EachRecord G v)
    (hinherit : ∀ r facts, v.records recordId = some r → v.facts recordId = some facts →
      G recordId r.lane r.retention facts →
        G replacementId r.lane r.retention (inheritedFacts facts app.eventId)) :
    EachRecord G (v.createCorrection recordId replacementId replacement app) := by
  intro x r hr hprivate
  have hrecords : (v.createCorrection recordId replacementId replacement app).records =
      Function.update v.records replacementId
        ((v.records recordId).map (correctionRecord · replacementId replacement app)) := rfl
  have hfacts : (v.createCorrection recordId replacementId replacement app).facts =
      Function.update v.facts replacementId
        ((v.facts recordId).map (inheritedFacts · app.eventId)) := rfl
  rw [hrecords] at hr
  rw [hfacts]
  by_cases hx : x = replacementId
  · subst hx
    rw [Function.update_self, Option.map_eq_some_iff] at hr
    obtain ⟨predecessor, hpredecessor, rfl⟩ := hr
    obtain ⟨facts, hold, hG⟩ := h recordId predecessor hpredecessor hprivate
    refine ⟨inheritedFacts facts app.eventId, ?_, hinherit predecessor facts hpredecessor hold hG⟩
    rw [Function.update_self, hold]
    rfl
  · rw [Function.update_of_ne hx] at hr ⊢
    exact h x r hr hprivate

/-- A property that the new facts of an action and the facts of a correction have again is kept by
the action. -/
theorem act [Digests] {p : PreparedAction} {app : Application} (h : EachRecord G v)
    (hchange : ∀ id, factsTarget p.action = some id → ∀ r facts, v.records id = some r →
      v.facts id = some facts → G id r.lane r.retention facts →
        G id r.lane r.retention (changedFacts app.eventId p.action facts))
    (hinherit : ∀ id ∈ p.created, ∀ recordId ∈ p.action.mutationTargets, ∀ r facts,
      v.records recordId = some r → v.facts recordId = some facts →
        G recordId r.lane r.retention facts →
          G id r.lane r.retention (inheritedFacts facts app.eventId)) :
    EachRecord G (v.act app p) := by
  obtain ⟨action, replacementId⟩ := p
  cases action with
  | renewFromEvidence => exact h.succeedBy
  | supersede => exact h.succeedBy
  | consolidate => exact h.supersedeMembers
  | resolveContradiction => exact h.supersedeMembers
  | correct recordId =>
      cases replacementId with
      | none => exact h
      | some rid =>
          exact (h.createCorrection (hinherit rid List.mem_cons_self recordId
            List.mem_cons_self)).supersedeInto
  | extendAutomaticRecall recordId => exact h.changeFacts (hchange recordId rfl)
  | extendValidity recordId => exact h.changeFacts (hchange recordId rfl)
  | retainUntil recordId => exact h.changeFacts (hchange recordId rfl)
  | pin recordId => exact h.changeFacts (hchange recordId rfl)
  | unpin recordId => exact h.changeFacts (hchange recordId rfl)
  | quarantine recordId => exact h.changeFacts (hchange recordId rfl)
  | releaseQuarantine recordId => exact h.changeFacts (hchange recordId rfl)

end EachRecord

theorem factsTarget_mem {a : PrivateLifecycleAction} {id : String} (h : factsTarget a = some id) :
    id ∈ a.mutationTargets := by
  cases a with
  | renewFromEvidence => cases h
  | supersede => cases h
  | correct => cases h
  | consolidate => cases h
  | resolveContradiction => cases h
  | _ => rw [← Option.some.inj h]; exact List.mem_cons_self

/-! ### The event of a group -/

theorem payload_lifecycleEvent {app : Application} {grantId : String}
    {actions : List PrivateLifecycleAction} {results : List PrivateLifecycleActionResult}
    {id kind : String}
    (hid : id ∈ actions.flatMap auditTargetIds ∨
      id ∈ (results.filter (·.kind = "correct")).filterMap (·.replacementRecordId))
    (hkind : kind ∈ actions.map (·.kind)) :
    Authorizes (lifecycleEvent app grantId actions results) id [kind] where
  eventType := rfl
  fields := rfl
  record := by
    refine List.contains_iff_mem.2 (SortedMap.mem_sortedKeys.2 ?_)
    exact List.mem_append.2 hid
  kind := List.any_eq_true.2 ⟨kind, hkind, List.contains_iff_mem.2 List.mem_cons_self⟩

theorem auditTargetIds_of_factsTarget {a : PrivateLifecycleAction} {id : String}
    (h : factsTarget a = some id) : id ∈ auditTargetIds a := by
  cases a with
  | renewFromEvidence => cases h
  | supersede => cases h
  | correct => cases h
  | consolidate => cases h
  | resolveContradiction => cases h
  | _ => rw [← Option.some.inj h]; exact List.mem_cons_self

section Executed

variable [Entropy] [Digests] [Text.Unicode] {db db' : Db} {request : PrivateLifecycleRequest}
  {grantId appliedAt : String} {now : OffsetDateTime} {app : Application}
  {results : List PrivateLifecycleActionResult} {prepared : List PreparedAction}

theorem Executed.event_stored (h : Executed db db' request grantId now app results prepared) :
    db'.events.get? app.eventId =
      some (lifecycleEvent app grantId request.actions results) := by
  rw [Table.get?_insert? h.event]
  exact if_pos rfl

theorem Executed.events_grow (h : Executed db db' request grantId now app results prepared) :
    ∀ id event, db.events.get? id = some event → db'.events.get? id = some event := by
  intro id event hevent
  rw [Table.get?_insert? h.event, if_neg]
  · exact hevent
  · rintro rfl
    rw [Table.insert?_fresh h.event] at hevent
    cases hevent

theorem Executed.eventId_not_blank
    (h : Executed db db' request grantId now app results prepared) :
    Text.isBlank app.eventId = false := by
  obtain ⟨n, hn⟩ := h.eventId
  rw [hn, Text.isBlank, String.toList_append]
  rfl

/-- The event of a group names the record whose facts an action of the group changes. -/
theorem Executed.named_target (h : Executed db db' request grantId now app results prepared)
    {p : PreparedAction} (hp : p ∈ prepared) {id : String} (hid : factsTarget p.action = some id) :
    Named db'.events.get? app.eventId id p.action.kind := by
  have hmem : p.action ∈ request.actions := h.checked.map_action ▸ List.mem_map_of_mem hp
  exact ⟨_, h.event_stored, payload_lifecycleEvent
    (Or.inl (List.mem_flatMap.2 ⟨_, hmem, auditTargetIds_of_factsTarget hid⟩))
    (List.mem_map_of_mem hmem)⟩

/-- The event of a group names the replacement a correction of the group creates. -/
theorem Executed.named_created (h : Executed db db' request grantId now app results prepared)
    {p : PreparedAction} (hp : p ∈ prepared) {id : String} (hid : id ∈ p.created) :
    Named db'.events.get? app.eventId id "correct" := by
  have hmem : p.action ∈ request.actions := h.checked.map_action ▸ List.mem_map_of_mem hp
  obtain ⟨action, replacementId⟩ := p
  cases action with
  | correct recordId version replacement reasonCode evidenceVersions =>
      obtain rfl : replacementId = some id := by
        cases replacementId with
        | none => cases hid
        | some rid => rw [List.mem_singleton.1 hid]
      have hresult : ("correct", some id) ∈
          results.map (fun r => (r.kind, r.replacementRecordId)) := by
        rw [h.reported]
        exact List.mem_map.2 ⟨_, hp, rfl⟩
      obtain ⟨result, hresult, heq⟩ := List.mem_map.1 hresult
      obtain ⟨hkind, hreplacement⟩ := Prod.mk.inj heq
      refine ⟨_, h.event_stored, payload_lifecycleEvent (Or.inr ?_) (List.mem_map.2 ⟨_, hmem, rfl⟩)⟩
      exact List.mem_filterMap.2
        ⟨result, List.mem_filter.2 ⟨hresult, decide_eq_true hkind⟩, hreplacement⟩
  | _ => cases hid

/-- A property is kept by a group when it is kept by each change of facts that meets a condition,
and every action of the group meets the condition on the store before the group. -/
theorem Executed.eachRecord (h : Executed db db' request grantId now app results prepared)
    (hvalid : request.validate = .ok ()) {G : RecordProperty}
    {K : MemoryLane → RetentionFacts → LifecycleFacts → PrivateLifecycleAction → Prop}
    (hchange : ∀ p ∈ prepared, ∀ id, factsTarget p.action = some id →
      ∀ lane retention facts, K lane retention facts p.action → G id lane retention facts →
        G id lane retention (changedFacts app.eventId p.action facts))
    (hinherit : ∀ p ∈ prepared, ∀ id ∈ p.created, ∀ recordId lane retention facts,
      G recordId lane retention facts →
        G id lane retention (inheritedFacts facts app.eventId))
    (hmeets : ∀ a ∈ request.actions, ∀ id, factsTarget a = some id → ∀ r facts,
      db.records.get? id = some r → db.facts? id = some facts → K r.lane r.retention facts a)
    (hinv : EachRecord G (view db)) : EachRecord G (view db') := by
  refine h.runs.invariant (fun v p => p ∈ prepared ∧ Admits v p.action ∧
    ∀ id, factsTarget p.action = some id → ∀ r facts, v.records id = some r →
      v.facts id = some facts → K r.lane r.retention facts p.action) ?_ ?_ ?_
    (h.checked.disjoint hvalid) ?_ hinv
  · rintro v w p ⟨hp, hadm, hK⟩ hagree
    refine ⟨hp, hadm.local_ hagree, fun id hid r facts hr hfacts => ?_⟩
    have hsame := hagree id (factsTarget_mem hid)
    rw [hsame.records] at hr
    rw [hsame.facts] at hfacts
    exact hK id hid r facts hr hfacts
  · rintro v p ⟨-, hadm, -⟩ id hid
    obtain ⟨r, hr⟩ := hadm.isPrivate id hid
    rw [hr.stored]
    exact Option.some_ne_none r
  · rintro v p hv ⟨hp, -, hK⟩ -
    refine hv.act (fun id hid r facts hr hfacts => ?_) (fun id hid recordId _ r facts _ _ => ?_)
    · exact hchange p hp id hid r.lane r.retention facts (hK id hid r facts hr hfacts)
    · exact hinherit p hp id hid recordId r.lane r.retention facts
  · intro p hp
    have hmem : p.action ∈ request.actions := h.checked.map_action ▸ List.mem_map_of_mem hp
    exact ⟨hp, h.checked.admits (validate_action hvalid) p hp, hmeets p.action hmem⟩

end Executed

/-! ### The two properties -/

/-- The facts of a record are authorized and extend its clocks. -/
structure SoundBy (events : String → Option MemoryEvent) (id : String) (lane : MemoryLane)
    (retention : RetentionFacts) (facts : LifecycleFacts) : Prop where
  authorized : Authorized events id facts
  extended : Extended lane retention facts

/-- Every private record of the store is sound. -/
def Sound (db : Db) : Prop := EachRecord (SoundBy db.events.get?) (view db)

/-- The clocks of every private record of the store are in the calendar. -/
def AllInCalendar (db : Db) : Prop :=
  EachRecord (fun _ lane retention facts =>
    InCalendar lane retention (Recall.readFacts facts)) (view db)

/-- Every action of the group that extends a clock keeps it in the calendar. -/
def GroupKeepsCalendar (db : Db) (request : PrivateLifecycleRequest) : Prop :=
  ∀ a ∈ request.actions, ∀ id, factsTarget a = some id → ∀ r facts,
    db.records.get? id = some r → db.facts? id = some facts →
      KeepsCalendar r.lane r.retention facts a

section Group

variable [Entropy] [Digests] [Text.Unicode] {db db' : Db} {request : PrivateLifecycleRequest}
  {grantId appliedAt : String} {now : OffsetDateTime} {app : Application}
  {results : List PrivateLifecycleActionResult} {prepared : List PreparedAction}

theorem Executed.sound (h : Executed db db' request grantId now app results prepared)
    (hvalid : request.validate = .ok ()) (hsound : Sound db) : Sound db' := by
  have hevent := h.eventId_not_blank
  refine h.eachRecord hvalid (K := AdmitsFacts) ?_ ?_ ?_ (hsound.mono ?_)
  · intro p hp id hid lane retention facts hadm hG
    exact ⟨hG.authorized.changed (h.named_target hp hid), hG.extended.changed hadm hevent⟩
  · intro p hp id hid recordId lane retention facts hG
    exact ⟨hG.authorized.inherited (h.named_created hp hid), hG.extended.inherited hevent⟩
  · intro a ha id hid r facts hr hfacts
    exact admitsFacts_of_semantics (validate_action hvalid a ha) (h.checked.semantics a ha) hid hr
      hfacts
  · intro id lane retention facts hG
    exact ⟨hG.authorized.mono h.events_grow, hG.extended⟩

theorem Executed.inCalendar (h : Executed db db' request grantId now app results prepared)
    (hvalid : request.validate = .ok ()) (hkeeps : GroupKeepsCalendar db request)
    (hin : AllInCalendar db) : AllInCalendar db' := by
  refine h.eachRecord hvalid (K := KeepsCalendar) ?_ ?_ hkeeps hin
  · intro p hp id hid lane retention facts hK hG
    exact inCalendar_changed hG hK
  · intro p hp id hid recordId lane retention facts hG
    exact hG

end Group

/-! ### New records -/

theorem eachRecord_of_insertRecord [Entropy] {db db' : Db} {r : MemoryRecord} {G : RecordProperty}
    (h : db.insertRecord r = .ok db') (hprivate : r.destination.isPrivate = true)
    (hnew : G r.id r.lane r.retention .initial) (hinv : EachRecord G (view db)) :
    EachRecord G (view db') ∧ db'.events = db.events := by
  obtain ⟨records, hrecords, hcontents, -, hfacts⟩ := Db.insertRecord_ok h hprivate
  refine ⟨?_, by rw [hcontents]⟩
  intro id x hx hxprivate
  have hx' : db'.records.get? id = some x := hx
  rw [hcontents, Table.get?_insert? hrecords] at hx'
  show ∃ facts, db'.facts? id = some facts ∧ _
  rw [hfacts]
  by_cases hid : r.id = id
  · rw [if_pos hid] at hx' ⊢
    obtain rfl : r = x := Option.some.inj hx'
    exact ⟨_, rfl, hid ▸ hnew⟩
  · rw [if_neg hid] at hx' ⊢
    exact hinv id x hx' hxprivate

/-! ### Every change of a store -/

section History

variable [Entropy] [Digests] [Text.Unicode]

/-- A change of a private store: a new record, with the facts its lane gives it at the service's
clock or with facts checked at a creation boundary, or an application of a request. -/
inductive Change where
  | create (record : MemoryRecord) (now : OffsetDateTime)
  | createChecked (record : MemoryRecord) (createdAt : String)
      (occurredAt explicitExpiresAt : Option String)
  | apply (request : PrivateLifecycleRequest) (grantId : String) (now : OffsetDateTime)
      (appliedAt : String)

/-- Insert a private record with the given facts. -/
def insertPrivate (db : Db) (record : MemoryRecord) (retention : RetentionFacts) : Fallible Db := do
  ensurePrivateShape record
  db.insertRecord { record with retention := retention }

def Change.run (db : Db) : Change → Fallible Db
  | .create record now => do
    let createdAt ← formatTimestamp now
    insertPrivate db record (retentionFactsForLane record.lane createdAt)
  | .createChecked record createdAt occurredAt explicitExpiresAt => do
    let retention ← retentionFactsForCreation record.lane createdAt occurredAt explicitExpiresAt
    insertPrivate db record retention
  | .apply request grantId now appliedAt => do
    request.validate
    let (db, _, _) ← executeGroup db request grantId now appliedAt
    .ok db

/-- One change after another; a change that fails leaves the store as it was. -/
def runChanges (db : Db) : List Change → Db
  | [] => db
  | change :: changes =>
    match change.run db with
    | .ok db' => runChanges db' changes
    | .error _ => runChanges db changes

/-- The condition under which a change keeps the clocks in the calendar: the window of a new record
ends there, and so does a clock that an action sets, or the other clock of its record. -/
def Change.KeepsCalendar (db : Db) : Change → Prop
  | .create record now => ∀ createdAt, formatTimestamp now = .ok createdAt →
    WindowInCalendar record.lane (retentionFactsForLane record.lane createdAt)
  | .createChecked record createdAt occurredAt explicitExpiresAt => ∀ retention,
    retentionFactsForCreation record.lane createdAt occurredAt explicitExpiresAt = .ok retention →
      WindowInCalendar record.lane retention
  | .apply request _ _ _ => GroupKeepsCalendar db request

def KeepsCalendarAlong (db : Db) : List Change → Prop
  | [] => True
  | change :: changes =>
    change.KeepsCalendar db ∧
      match change.run db with
      | .ok db' => KeepsCalendarAlong db' changes
      | .error _ => KeepsCalendarAlong db changes

omit [Digests] [Text.Unicode] in
theorem insertPrivate_keeps {db db' : Db} {record : MemoryRecord} {retention : RetentionFacts}
    (h : insertPrivate db record retention = .ok db') (hcreated : Created record.lane retention) :
    (Sound db → Sound db') ∧
      (WindowInCalendar record.lane retention → AllInCalendar db → AllInCalendar db') := by
  obtain ⟨hshape, hinsert⟩ := check_bind_eq_ok.1 h
  have hprivate : record.destination.isPrivate = true := (ensure_eq_ok.1 hshape).1
  have hevaluable := hcreated.evaluable
  constructor
  · intro hsound
    obtain ⟨hrecords, hevents⟩ := eachRecord_of_insertRecord hinsert hprivate
      ⟨authorized_initial, extended_initial hevaluable⟩ hsound
    rw [Sound, hevents]
    exact hrecords
  · intro hwindow hin
    exact (eachRecord_of_insertRecord hinsert hprivate (inCalendar_initial hevaluable hwindow)
      hin).1

/-- Every change keeps the records sound, and a change that meets its condition keeps their clocks
in the calendar. -/
theorem Change.run_keeps {db db' : Db} {change : Change} (h : change.run db = .ok db') :
    (Sound db → Sound db') ∧ (change.KeepsCalendar db → AllInCalendar db → AllInCalendar db') := by
  cases change with
  | create record now =>
      obtain ⟨createdAt, hcreatedAt, h⟩ := bind_eq_ok.1 h
      obtain ⟨hsound, hin⟩ := insertPrivate_keeps h (.byLane hcreatedAt)
      exact ⟨hsound, fun hkeeps => hin (hkeeps createdAt hcreatedAt)⟩
  | createChecked record createdAt occurredAt explicitExpiresAt =>
      obtain ⟨retention, hretention, h⟩ := bind_eq_ok.1 h
      obtain ⟨hsound, hin⟩ := insertPrivate_keeps h (.checked hretention)
      exact ⟨hsound, fun hkeeps => hin (hkeeps retention hretention)⟩
  | apply request grantId now appliedAt =>
      obtain ⟨hvalid, h⟩ := check_bind_eq_ok.1 h
      obtain ⟨⟨applied, app, results⟩, hgroup, h⟩ := bind_eq_ok.1 h
      cases h
      obtain ⟨prepared, hexecuted⟩ := executed_of_executeGroup hgroup
      exact ⟨hexecuted.sound hvalid, hexecuted.inCalendar hvalid⟩

theorem runChanges_keeps (changes : List Change) {db : Db} (hsound : Sound db) :
    Sound (runChanges db changes) ∧
      (AllInCalendar db → KeepsCalendarAlong db changes → AllInCalendar (runChanges db changes)) := by
  induction changes generalizing db with
  | nil => exact ⟨hsound, fun hin _ => hin⟩
  | cons change changes ih =>
      unfold runChanges KeepsCalendarAlong
      cases hrun : change.run db with
      | error e =>
          obtain ⟨hlast, hkeeps⟩ := ih hsound
          exact ⟨hlast, fun hin hmeets => hkeeps hin hmeets.2⟩
      | ok next =>
          obtain ⟨hstep, hstepCalendar⟩ := Change.run_keeps hrun
          obtain ⟨hlast, hkeeps⟩ := ih (hstep hsound)
          exact ⟨hlast, fun hin hmeets => hkeeps (hstepCalendar hmeets.1 hin) hmeets.2⟩

omit [Entropy] [Digests] [Text.Unicode] in
/-- What soundness says of one record, field by field. -/
theorem Extended.bounds {lane : MemoryLane} {retention : RetentionFacts} {facts : LifecycleFacts}
    (h : Extended lane retention facts) :
    (lane = .session → facts.automaticRecallUntil = none ∧ facts.validityUntil = none) ∧
    (∀ text, facts.automaticRecallUntil = some text → lane = .episodic ∧ ∃ until_ occurred,
      instant? (some text) = some until_ ∧ instant? retention.occurredAt = some occurred ∧
        (ordinaryEnd occurred).utc < until_.utc ∧ until_.utc ≤ (maximumEnd occurred).utc) ∧
    (∀ text, facts.validityUntil = some text → lane ≠ .session ∧ ∃ until_ base,
      instant? (some text) = some until_ ∧ instant? retention.explicitExpiresAt = some base ∧
        base.utc < until_.utc) := by
  obtain ⟨-, recallAt, validity, hover⟩ := h
  have hrecall : ∀ text, facts.automaticRecallUntil = some text → ∃ t, recallAt = some t ∧
      instant? (some text) = some t := by
    intro text htext
    have hset := isSome_of_verified hover.recall_read
    have hread := instant?_of_verified hover.recall_read
    rw [show (Recall.readFacts facts).automaticRecallUntil = some text from htext] at hset hread
    obtain ⟨t, rfl⟩ := Option.isSome_iff_exists.1 hset
    exact ⟨t, rfl, hread⟩
  have hvalidity : ∀ text, facts.validityUntil = some text → ∃ t, validity = some t ∧
      instant? (some text) = some t := by
    intro text htext
    have hset := isSome_of_verified hover.validity_read
    have hread := instant?_of_verified hover.validity_read
    rw [show (Recall.readFacts facts).validityUntil = some text from htext] at hset hread
    obtain ⟨t, rfl⟩ := Option.isSome_iff_exists.1 hset
    exact ⟨t, rfl, hread⟩
  refine ⟨?_, ?_, ?_⟩
  · intro hlane
    constructor
    · cases htext : facts.automaticRecallUntil with
      | none => rfl
      | some text =>
          obtain ⟨t, ht, -⟩ := hrecall text htext
          obtain ⟨hepisodic, -⟩ := hover.recall_extends t ht
          exact absurd (hlane.symm.trans hepisodic) (by decide)
    · cases htext : facts.validityUntil with
      | none => rfl
      | some text =>
          obtain ⟨t, ht, -⟩ := hvalidity text htext
          exact absurd hlane (hover.validity_extends t ht).1
  · intro text htext
    obtain ⟨t, ht, hread⟩ := hrecall text htext
    obtain ⟨hlane, occurred, hoccurred, hlt, hle⟩ := hover.recall_extends t ht
    exact ⟨hlane, t, occurred, hread, hoccurred, hlt, hle⟩
  · intro text htext
    obtain ⟨t, ht, hread⟩ := hvalidity text htext
    obtain ⟨hlane, base, hbase, hlt⟩ := hover.validity_extends t ht
    exact ⟨hlane, t, base, hread, hbase, hlt⟩

/-- A store whose private records are as they were created. -/
def Fresh (db : Db) : Prop :=
  EachRecord (fun _ lane retention facts => Created lane retention ∧ facts = .initial) (view db)

/-- Along any changes of a store of fresh records, the lifecycle row of every private record is
authorized, its overrides extend the clocks of the record, and the evaluator decides the record, at
every instant, exactly when its clocks are in the calendar. They are when every record was created
and every action applied in the calendar. -/
theorem lifecycle_clocks (start : Db) (changes : List Change) (hstart : Fresh start) (id : String)
    (r : MemoryRecord) (hr : (runChanges start changes).records.get? id = some r)
    (hprivate : r.destination.isPrivate = true) :
    ∃ facts, (runChanges start changes).facts? id = some facts ∧
      verifyLifecycleAuthority (runChanges start changes) id facts = .ok () ∧
      (r.lane = .session → facts.automaticRecallUntil = none ∧ facts.validityUntil = none) ∧
      (∀ text, facts.automaticRecallUntil = some text → r.lane = .episodic ∧ ∃ until_ occurred,
        instant? (some text) = some until_ ∧ instant? r.retention.occurredAt = some occurred ∧
          (ordinaryEnd occurred).utc < until_.utc ∧ until_.utc ≤ (maximumEnd occurred).utc) ∧
      (∀ text, facts.validityUntil = some text → r.lane ≠ .session ∧ ∃ until_ base,
        instant? (some text) = some until_ ∧ instant? r.retention.explicitExpiresAt = some base ∧
          base.utc < until_.utc) ∧
      (∀ t, (∃ d, evaluatedAssertion r facts t = .ok d) ↔
        InCalendar r.lane r.retention (Recall.readFacts facts)) ∧
      (AllInCalendar start → KeepsCalendarAlong start changes →
        ∀ t, ∃ d, evaluatedAssertion r facts t = .ok d) := by
  have hstartSound : Sound start := by
    refine hstart.mono ?_
    rintro x lane retention facts ⟨hcreated, rfl⟩
    exact ⟨authorized_initial, extended_initial hcreated.evaluable⟩
  obtain ⟨hsound, hcalendar⟩ := runChanges_keeps changes hstartSound
  obtain ⟨facts, hfacts, hG⟩ := hsound id r hr hprivate
  obtain ⟨hsession, hrecall, hvalidity⟩ := hG.extended.bounds
  obtain ⟨recallAt, validity, hover⟩ := hG.extended.overrides
  have hdecided : ∀ t, (∃ d, evaluatedAssertion r facts t = .ok d) ↔
      InCalendar r.lane r.retention (Recall.readFacts facts) :=
    evaluatePrivate_ok_iff hG.extended.evaluable hover
  refine ⟨facts, hfacts, verifyLifecycleAuthority_ok.2 hG.authorized, hsession, hrecall, hvalidity,
    hdecided, ?_⟩
  intro hstartCalendar hmeets t
  obtain ⟨facts', hfacts', hin⟩ := hcalendar hstartCalendar hmeets id r hr hprivate
  obtain rfl : facts = facts' := Option.some.inj (hfacts.symm.trans hfacts')
  exact (hdecided t).2 hin

end History

/-! ### An episode at the end of the calendar -/

/-- An episode about to be created; its facts come with its creation. -/
def episode : MemoryRecord :=
  ⟨"local_1", .episode, .episodic, .local, .personal, none, .private, "Outage", "The cache was cold",
    .active, 1, some "memzoi-local", none, none, ⟨none, none, none, none, none, none⟩,
    ⟨"op-0", .localMemory⟩, none, "00", "2026-07-14T10:00:00Z", "2026-07-14T10:00:00Z", none⟩

/-- Created on 2026-07-14. -/
def createEpisode : Change := .create episode ⟨1784023200000000000, 0⟩

/-- Its automatic recall, extended to 2026-09-01. -/
def extendEpisode : Change :=
  .apply
    { schema := requestSchema
      requestId := "lifecycle_request_op-1"
      operationId := "op-1"
      source := .direct
      actions := [.extendAutomaticRecall "local_1" "00000000000000000000000000000000"
        "2026-09-01T00:00:00Z"] }
    "grant_1" ⟨1784023200000000000, 0⟩ "2026-07-14T10:00:00Z"

theorem fresh_initial (updatedAt : String) : Fresh (Db.initial updatedAt) := by
  intro id r hr
  cases hr

theorem lifecycle_clocks_extendEpisode :
    ∃ facts, (@runChanges Entropy.cycling Digests.ofOperation Text.Unicode.ascii
        (Db.initial "2026-07-14T10:00:00Z") [createEpisode, extendEpisode]).facts? "local_1" =
          some facts ∧ facts.automaticRecallUntil = some "2026-09-01T00:00:00Z" ∧
      verifyLifecycleAuthority (@runChanges Entropy.cycling Digests.ofOperation Text.Unicode.ascii
        (Db.initial "2026-07-14T10:00:00Z") [createEpisode, extendEpisode]) "local_1" facts =
          .ok () := by
  have hset : ((@runChanges Entropy.cycling Digests.ofOperation Text.Unicode.ascii
      (Db.initial "2026-07-14T10:00:00Z") [createEpisode, extendEpisode]).facts?
        "local_1").map (·.automaticRecallUntil) = some (some "2026-09-01T00:00:00Z") := by
    decide +kernel
  have hprivate : ((@runChanges Entropy.cycling Digests.ofOperation Text.Unicode.ascii
      (Db.initial "2026-07-14T10:00:00Z") [createEpisode, extendEpisode]).records.get?
        "local_1").map (·.destination.isPrivate) = some true := by decide +kernel
  obtain ⟨r, hr, hrprivate⟩ := Option.map_eq_some_iff.1 hprivate
  obtain ⟨facts, hfacts, hverify, -⟩ := @lifecycle_clocks Entropy.cycling Digests.ofOperation
    Text.Unicode.ascii _ [createEpisode, extendEpisode] (fresh_initial _) "local_1" r hr hrprivate
  rw [hfacts] at hset
  exact ⟨facts, hfacts, Option.some.inj hset, hverify⟩

/-- Created on 9999-11-01: its ordinary window ends in that year, its ninety days do not. -/
def createAtTheEnd : Change := .create episode ⟨253397030400000000000, 0⟩

/-- The record is created, and the evaluator decides it at no instant. -/
theorem createAtTheEnd_not_evaluable :
    ∃ r facts, (@runChanges Entropy.cycling Digests.ofOperation Text.Unicode.ascii
        (Db.initial "9999-11-01T00:00:00Z") [createAtTheEnd]).records.get? "local_1" = some r ∧
      (@runChanges Entropy.cycling Digests.ofOperation Text.Unicode.ascii
        (Db.initial "9999-11-01T00:00:00Z") [createAtTheEnd]).facts? "local_1" = some facts ∧
      ∀ t d, evaluatedAssertion r facts t ≠ .ok d := by
  refine ⟨{ episode with retention := retentionFactsForLane .episodic "9999-11-01T00:00:00Z" },
    .initial, by decide +kernel, by decide +kernel, ?_⟩
  intro t d hd
  have hformat : formatTimestamp ⟨253397030400000000000, 0⟩ = .ok "9999-11-01T00:00:00Z" := by
    decide +kernel
  have hcreated : Created .episodic (retentionFactsForLane .episodic "9999-11-01T00:00:00Z") :=
    .byLane hformat
  obtain ⟨recallAt, validity, hover⟩ := (extended_initial hcreated.evaluable).overrides
  have hin := (evaluatePrivate_ok_iff hcreated.evaluable hover t).1 ⟨d, hd⟩
  have hwindow := hin.1 _ (instant?_of_format hformat)
  exact absurd hwindow (by decide)

end PrivateLifecycle
end Memzoi
