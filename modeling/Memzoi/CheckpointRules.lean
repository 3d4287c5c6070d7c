/-
# What checkpoint commands keep and write

Source: `service.rs` and `service/session_end_route_apply.rs`, as the commands
are in `Memzoi.CheckpointCommands`.

`Carries` is what an answer rests on: origin rows, events and checkpoints stay.
Every write of a command carries them, and so does a group of lifecycle actions.
`transaction_cases` then says everything a command that succeeds does: it reads
its answer back from a finalized row, it is blocked, or it writes one.
-/

import Memzoi.CheckpointCommands
import Memzoi.CheckpointHistory
import Memzoi.OriginHistory
import Memzoi.VersionLocks
import Memzoi.PrivateLifecycle.Admission

namespace Memzoi
namespace Checkpoint

open Fallible Retention OffsetDateTime Origin
open PrivateLifecycle (Digests View view Application PreparedAction)

/-! ### What an answer rests on -/

/-- A checkpoint with its lifecycle row. -/
def HoldsCheckpoint (v : View) (id : String) : Prop :=
  ∃ r facts, v.records id = some r ∧ isCheckpoint r = true ∧ v.facts id = some facts

/-- Every event is still there, and every checkpoint is. -/
structure Keeps (db db' : Db) : Prop where
  events : ∀ id event, db.events.get? id = some event → db'.events.get? id = some event
  checkpoints : ∀ id, HoldsCheckpoint (view db) id → HoldsCheckpoint (view db') id

/-- Every origin row is still there too, up to its own extension. -/
structure Carries (db db' : Db) : Prop extends Keeps db db' where
  origins : ∀ key row, db.origins.get? key = some row →
    ∃ row', db'.origins.get? key = some row' ∧ row.Extends row'

theorem Keeps.refl (db : Db) : Keeps db db :=
  ⟨fun _ _ h => h, fun _ h => h⟩

theorem Keeps.trans {db₁ db₂ db₃ : Db} (h : Keeps db₁ db₂) (h' : Keeps db₂ db₃) : Keeps db₁ db₃ :=
  ⟨fun id event hevent => h'.events id event (h.events id event hevent),
    fun id hid => h'.checkpoints id (h.checkpoints id hid)⟩

theorem Carries.refl (db : Db) : Carries db db :=
  ⟨Keeps.refl db, fun _ row hrow => ⟨row, hrow, rfl, rfl, fun _ => rfl⟩⟩

theorem Carries.trans {db₁ db₂ db₃ : Db} (h : Carries db₁ db₂) (h' : Carries db₂ db₃) :
    Carries db₁ db₃ := by
  refine ⟨h.toKeeps.trans h'.toKeeps, fun key row hrow => ?_⟩
  obtain ⟨next, hnext, hextends⟩ := h.origins key row hrow
  obtain ⟨last, hlast, hrest⟩ := h'.origins key next hnext
  exact ⟨last, hlast, hextends.trans hrest⟩

/-- A step that leaves the origins alone. -/
theorem Keeps.carries {db db' : Db} (h : Keeps db db') (horigins : db'.origins = db.origins) :
    Carries db db' :=
  ⟨h, fun key row hrow => ⟨row, by rw [horigins]; exact hrow, rfl, rfl, fun _ => rfl⟩⟩

/-- Only the origins differ. -/
theorem keeps_origins (db : Db) (origins : Registry) : Keeps db { db with origins := origins } :=
  ⟨fun _ _ h => h, fun _ h => h⟩

theorem keeps_draws (db : Db) (draws : Nat) : Keeps db { db with draws := draws } :=
  ⟨fun _ _ h => h, fun _ h => h⟩

theorem get?_event_of_insert {db : Db} {e : MemoryEvent} {events : Table MemoryEvent.id}
    (h : db.events.insert? e = some events) {id : String} {event : MemoryEvent}
    (hevent : db.events.get? id = some event) : events.get? id = some event := by
  rw [Table.get?_insert? h, if_neg, hevent]
  rintro rfl
  rw [Table.insert?_fresh h] at hevent
  cases hevent

/-! ### The writes -/

section Writes

variable [Entropy]

/-- An appended event is the last one, and everything else stays. -/
theorem appendEvent_ok {db db' : Db} {eventType actor recordId : String}
    {fields : List (String × String)} {event : MemoryEvent}
    (h : appendEvent db eventType actor recordId fields = .ok (db', event)) :
    event.eventType = eventType ∧ event.recordId = some recordId ∧ event.payload.fields = fields ∧
      db'.events.rows = db.events.rows ++ [event] ∧ db'.events.get? event.id = some event ∧
      db'.origins = db.origins ∧ db'.records = db.records ∧ db'.lifecycle = db.lifecycle ∧
      Keeps db db' := by
  obtain ⟨mid, hinsert, h⟩ := bind_eq_ok.1 h
  obtain ⟨events, hevents, hmid⟩ := bind_eq_ok.1 hinsert
  cases hmid
  cases h
  have hnew := require_eq_ok.1 hevents
  refine ⟨rfl, rfl, rfl, Table.insert?_rows hnew, ?_, rfl, rfl, rfl, ?_⟩
  · rw [Table.get?_insert? hnew, if_pos rfl]
  · exact ⟨fun id event hevent => get?_event_of_insert hnew hevent, fun _ h => h⟩

/-- A new private record leaves every other one alone. -/
theorem insertRecord_keeps {db db' : Db} {r : MemoryRecord} (h : db.insertRecord r = .ok db')
    (hprivate : r.destination.isPrivate = true) :
    Keeps db db' ∧ db'.origins = db.origins ∧ db'.events = db.events ∧
      db'.records.get? r.id = some r ∧ db'.facts? r.id = some .initial := by
  obtain ⟨records, hrecords, hcontents, hnone, hfacts⟩ := Db.insertRecord_ok h hprivate
  have hrows : db'.records = records := by rw [hcontents]
  have hevents : db'.events = db.events := by rw [hcontents]
  refine ⟨⟨fun _ _ hevent => by rw [hevents]; exact hevent, ?_⟩, by rw [hcontents], hevents, ?_, ?_⟩
  · rintro id ⟨old, facts, hold, hshape, hstored⟩
    have hne : r.id ≠ id := by
      rintro rfl
      exact absurd ((Table.insert?_fresh hrecords).symm.trans hold) (by simp)
    refine ⟨old, facts, ?_, hshape, ?_⟩
    · show db'.records.get? id = some old
      rw [hrows, Table.get?_insert? hrecords, if_neg hne]
      exact hold
    · show db'.facts? id = some facts
      rw [hfacts, if_neg hne]
      exact hstored
  · rw [hrows, Table.get?_insert? hrecords, if_pos rfl]
  · rw [hfacts, if_pos rfl]

/-- A row that stays a checkpoint is changed, and every other one is left alone. -/
theorem updateRecord_keeps {db db' : Db} {old new : MemoryRecord}
    (h : db.updateRecord old new = .ok db') (hold : db.records.get? new.id = some old)
    (hshape : isCheckpoint new = true) :
    Keeps db db' ∧ db'.origins = db.origins ∧ db'.events = db.events := by
  have hprivate : new.destination.isPrivate = true := by rw [(isCheckpoint_iff.1 hshape).1]; rfl
  obtain ⟨hcontents, hfacts⟩ := Db.updateRecord_ok h hprivate
  have hrows : db'.records = db.records.set new := by rw [hcontents]
  have hevents : db'.events = db.events := by rw [hcontents]
  refine ⟨⟨fun _ _ hevent => by rw [hevents]; exact hevent, ?_⟩, by rw [hcontents], hevents⟩
  rintro id ⟨row, facts, hrow, hrow_shape, hstored⟩
  by_cases hid : new.id = id
  · refine ⟨new, db.factsOrInitial id, ?_, hshape, ?_⟩
    · show db'.records.get? id = some new
      rw [hrows, ← hid]
      exact Table.get?_set_self hold
    · show db'.facts? id = some (db.factsOrInitial id)
      rw [hfacts, if_pos hid]
  · refine ⟨row, facts, ?_, hrow_shape, ?_⟩
    · show db'.records.get? id = some row
      rw [hrows, Table.get?_set_of_ne _ hid]
      exact hrow
    · show db'.facts? id = some facts
      rw [hfacts, if_neg hid]
      exact hstored

omit [Entropy] in
/-- The version of a checkpoint is read from its lifecycle row. -/
theorem checkpointRecordVersion_ok {db : Db} {id version : String} :
    checkpointRecordVersion db id = .ok version ↔
      (∃ r, db.records.get? id = some r ∧ isCheckpoint r = true) ∧
        db.version? id = some version := by
  simp only [checkpointRecordVersion, Db.privateRecordVersion, Db.requireState, bind_eq_ok,
    require_eq_ok, checkpointForLifecycle_ok, Db.version?, Option.map_eq_some_iff, Except.ok.injEq]
  constructor
  · rintro ⟨r, hr, state, hstate, hversion⟩
    exact ⟨⟨r, hr⟩, state, hstate, hversion⟩
  · rintro ⟨⟨r, hr⟩, state, hstate, hversion⟩
    exact ⟨r, hr, state, hstate, hversion⟩

omit [Entropy] in
theorem holdsCheckpoint_iff {db : Db} {id : String} :
    HoldsCheckpoint (view db) id ↔ ∃ version, checkpointRecordVersion db id = .ok version := by
  constructor
  · rintro ⟨r, facts, hr, hshape, hfacts⟩
    obtain ⟨state, hstate, -⟩ := Option.map_eq_some_iff.1 hfacts
    exact ⟨state.recordVersion, checkpointRecordVersion_ok.2
      ⟨⟨r, hr, hshape⟩, Option.map_eq_some_iff.2 ⟨state, hstate, rfl⟩⟩⟩
  · rintro ⟨version, hversion⟩
    obtain ⟨⟨r, hr, hshape⟩, hversion⟩ := checkpointRecordVersion_ok.1 hversion
    obtain ⟨state, hstate, -⟩ := Option.map_eq_some_iff.1 hversion
    exact ⟨r, state.toLifecycleFacts, hr, hshape, Option.map_eq_some_iff.2 ⟨state, hstate, rfl⟩⟩

/-- A stored event that holds a version. -/
def Versioned (db : Db) (event : MemoryEvent) : Prop :=
  db.events.get? event.id = some event ∧
    (event.payload.fields.lookup "record_version").isSome = true

/-- The event of a mutation holds the version it left. -/
theorem recordMutation_keeps {db db' : Db} {actor eventType field : String}
    {command : CheckpointCommand} {version recordId timestamp : String}
    {retention : RetentionFacts} {m : CheckpointLifecycleMutation}
    (h : recordMutation db actor eventType field command version recordId retention timestamp =
      .ok (db', m)) :
    Keeps db db' ∧ db'.origins = db.origins ∧ m.record.id = recordId ∧
      HoldsCheckpoint (view db') recordId ∧ m.applied = true ∧
      ∃ event, m.event = some event ∧ Versioned db' event := by
  obtain ⟨mid, hupdate, h⟩ := bind_eq_ok.1 h
  obtain ⟨record, hrecord, h⟩ := bind_eq_ok.1 h
  obtain ⟨recordVersion, hversion, h⟩ := bind_eq_ok.1 h
  obtain ⟨⟨last, event⟩, hevent, h⟩ := bind_eq_ok.1 h
  cases h
  obtain ⟨r, hr, hupdate⟩ := bind_eq_ok.1 hupdate
  obtain ⟨hshape, hupdate⟩ := check_bind_eq_ok.1 hupdate
  rw [require_eq_ok] at hr
  rw [ensure_eq_ok] at hshape
  have hold : db.records.get? r.id = some r := Table.get?_of_mem (Table.mem_of_get? hr)
  obtain ⟨hkept, horigins, -⟩ := updateRecord_keeps hupdate hold hshape
  obtain ⟨-, -, hfields, -, hstored, horigins', -, -, hkept'⟩ := appendEvent_ok hevent
  have hid : record.id = recordId := Table.key_of_get? (checkpointForLifecycle_ok.1 hrecord).1
  refine ⟨hkept.trans hkept', horigins'.trans horigins, hid, ?_, rfl, event, rfl, hstored, ?_⟩
  · rw [hid] at hversion
    exact hkept'.checkpoints _ (holdsCheckpoint_iff.2 ⟨recordVersion, hversion⟩)
  · rw [hfields]
    exact List.lookup_isSome_iff.2 ⟨("record_version", recordVersion), by simp, by simp⟩

/-- A closure changes nothing of a checkpoint that is closed already. -/
theorem closeCheckpoint_keeps {db db' : Db} {actor : String} {command : CheckpointCommand}
    {now : OffsetDateTime} {timestamp : String} {m : CheckpointLifecycleMutation}
    (h : closeCheckpoint db actor command now timestamp = .ok (db', m)) :
    Keeps db db' ∧ db'.origins = db.origins ∧ m.record.id = command.checkpointId ∧
      HoldsCheckpoint (view db') command.checkpointId ∧
      ∃ r, db.records.get? command.checkpointId = some r ∧
        ((r.retention.closedAt.isSome = true ∧ db' = db ∧ m.event = none ∧ m.applied = false) ∨
          (r.retention.closedAt.isSome = false ∧ m.applied = true ∧
            ∃ event, m.event = some event ∧ Versioned db' event)) := by
  simp only [closeCheckpoint, check_bind_eq_ok] at h
  obtain ⟨-, h⟩ := h
  obtain ⟨r, hr, h⟩ := bind_eq_ok.1 h
  simp only [check_bind_eq_ok] at h
  obtain ⟨-, h⟩ := h
  obtain ⟨version, hversion, h⟩ := bind_eq_ok.1 h
  obtain ⟨state, -, h⟩ := bind_eq_ok.1 h
  simp only [check_bind_eq_ok] at h
  obtain ⟨-, -, h⟩ := h
  obtain ⟨_, -, h⟩ := bind_eq_ok.1 h
  obtain ⟨hget, -⟩ := checkpointForLifecycle_ok.1 hr
  have hid : r.id = command.checkpointId := Table.key_of_get? hget
  rw [hid] at h hversion
  split at h
  · rename_i hclosed
    cases h
    exact ⟨Keeps.refl _, rfl, hid, holdsCheckpoint_iff.2 ⟨version, hversion⟩, r, hget,
      Or.inl ⟨hclosed, rfl, rfl, rfl⟩⟩
  · rename_i hopen
    obtain ⟨hkept, horigins, hrecord, hholds, happlied, hevent⟩ := recordMutation_keeps h
    exact ⟨hkept, horigins, hrecord, hholds, r, hget,
      Or.inr ⟨Bool.not_eq_true _ ▸ hopen, happlied, hevent⟩⟩

theorem continueCheckpoint_keeps {db db' : Db} {actor : String} {command : CheckpointCommand}
    {now : OffsetDateTime} {timestamp : String} {m : CheckpointLifecycleMutation}
    (h : continueCheckpoint db actor command now timestamp = .ok (db', m)) :
    Keeps db db' ∧ db'.origins = db.origins ∧ HoldsCheckpoint (view db') m.record.id ∧
      ∃ event, m.event = some event ∧ Versioned db' event := by
  simp only [continueCheckpoint, bind_eq_ok, ensure_eq_ok, exists_const] at h
  obtain ⟨_, -, r, -, _, -, version, -, -, current, -, -, anchor, -, leaseAnchor, -, -, h⟩ := h
  obtain ⟨hkept, horigins, hrecord, hholds, -, hevent⟩ := recordMutation_keeps h
  exact ⟨hkept, horigins, hrecord ▸ hholds, hevent⟩

variable [CheckpointService] [Digests]

/-- A new checkpoint is a checkpoint, and its event is the last one. -/
theorem createCheckpointRecord_keeps {db db' : Db} {actor : String} {input : CheckpointInput}
    {now : String} {origin : OriginDescriptor} {lineage : Option RecordLineage} {r : MemoryRecord}
    (h : createCheckpointRecord db actor input now origin lineage = .ok (db', r)) :
    Keeps db db' ∧ db'.origins = db.origins ∧ HoldsCheckpoint (view db') r.id ∧
      ∃ event, Versioned db' event ∧
        latestCheckpointEventId db' r.id "memory.checkpoint_created" = .ok event.id := by
  obtain ⟨⟨id, draws⟩, -, h⟩ := bind_eq_ok.1 h
  simp only [check_bind_eq_ok] at h
  obtain ⟨-, -, -, h⟩ := h
  obtain ⟨mid, hinsert, h⟩ := bind_eq_ok.1 h
  obtain ⟨version, hversion, h⟩ := bind_eq_ok.1 h
  obtain ⟨⟨last, event⟩, hevent, h⟩ := bind_eq_ok.1 h
  cases h
  obtain ⟨hkept, horigins, -, -, -⟩ := insertRecord_keeps hinsert rfl
  obtain ⟨htype, hrecord, hfields, hrows, hstored, horigins', -, -, hkept'⟩ := appendEvent_ok hevent
  refine ⟨((keeps_draws db draws).trans hkept).trans hkept', horigins'.trans horigins,
    hkept'.checkpoints _ (holdsCheckpoint_iff.2 ⟨version, hversion⟩), event, ⟨hstored, ?_⟩, ?_⟩
  · rw [hfields]
    exact List.lookup_isSome_iff.2 ⟨("record_version", version), by simp, by simp⟩
  · rw [latestCheckpointEventId, hrows, List.filter_append, List.filter_singleton]
    simp [htype, hrecord]

theorem createLocalMemory_keeps {db db' : Db} {actor : String} {input : LocalMemoryInput}
    {now : String} {r : MemoryRecord} (h : createLocalMemory db actor input now = .ok (db', r)) :
    Keeps db db' ∧ db'.origins = db.origins := by
  obtain ⟨⟨id, draws⟩, -, h⟩ := bind_eq_ok.1 h
  simp only [check_bind_eq_ok] at h
  obtain ⟨-, -, -, h⟩ := h
  obtain ⟨mid, hinsert, h⟩ := bind_eq_ok.1 h
  obtain ⟨⟨last, event⟩, hevent, h⟩ := bind_eq_ok.1 h
  cases h
  obtain ⟨hkept, horigins, -, -, -⟩ := insertRecord_keeps hinsert rfl
  obtain ⟨-, -, -, -, -, horigins', -, -, hkept'⟩ := appendEvent_ok hevent
  exact ⟨((keeps_draws db draws).trans hkept).trans hkept', horigins'.trans horigins⟩

theorem writeCandidate_keeps {db db' : Db} {actor timestamp : String}
    {candidate : SessionEndCandidate} {write : Option (String × MemoryDestination)}
    (h : writeCandidate db actor timestamp candidate = .ok (db', write)) :
    Keeps db db' ∧ db'.origins = db.origins := by
  unfold writeCandidate at h
  split at h
  · obtain ⟨⟨last, record⟩, hcreate, h⟩ := bind_eq_ok.1 h
    cases h
    exact createLocalMemory_keeps hcreate
  · obtain ⟨⟨last, record⟩, hcreate, h⟩ := bind_eq_ok.1 h
    cases h
    obtain ⟨hkept, horigins, -⟩ := createCheckpointRecord_keeps hcreate
    exact ⟨(keeps_draws db _).trans hkept, horigins⟩
  · cases h
    exact ⟨Keeps.refl _, rfl⟩

theorem writeCandidates_keeps {actor timestamp : String} {candidates : List SessionEndCandidate}
    {db db' : Db} {writes : List (Option (String × MemoryDestination))}
    (h : writeCandidates actor timestamp db candidates = .ok (db', writes)) :
    Keeps db db' ∧ db'.origins = db.origins := by
  induction candidates generalizing db writes with
  | nil =>
      cases h
      exact ⟨Keeps.refl _, rfl⟩
  | cons candidate candidates ih =>
      obtain ⟨⟨mid, write⟩, hfirst, h⟩ := bind_eq_ok.1 h
      obtain ⟨⟨last, rest⟩, hrest, h⟩ := bind_eq_ok.1 h
      cases h
      obtain ⟨hkept, horigins⟩ := writeCandidate_keeps hfirst
      obtain ⟨hkept', horigins'⟩ := ih hrest
      exact ⟨hkept.trans hkept', horigins'.trans horigins⟩

end Writes

/-! ### Lifecycle actions -/

section Lifecycle

/-- A change of a row that stays a checkpoint. -/
theorem HoldsCheckpoint.changeRecord {v : View} {id a : String} {f : MemoryRecord → MemoryRecord}
    (h : HoldsCheckpoint v id) (hf : ∀ r, isCheckpoint (f r) = isCheckpoint r) :
    HoldsCheckpoint (v.changeRecord a f) id := by
  obtain ⟨r, facts, hr, hshape, hfacts⟩ := h
  by_cases hid : id = a
  · subst hid
    refine ⟨f r, facts, View.changeRecord_self hr, (hf r).trans hshape, ?_⟩
    simp only [View.changeRecord, Function.update_self, hfacts, Option.getD_some]
  · refine ⟨r, facts, (View.changeRecord_of_ne hid).trans hr, hshape, ?_⟩
    simp only [View.changeRecord, Function.update_of_ne hid, hfacts]

theorem HoldsCheckpoint.changeFacts {v : View} {id a : String} {f : LifecycleFacts → LifecycleFacts}
    (h : HoldsCheckpoint v id) : HoldsCheckpoint (v.changeFacts a f) id := by
  obtain ⟨r, facts, hr, hshape, hfacts⟩ := h
  by_cases hid : id = a
  · subst hid
    refine ⟨r, f facts, hr, hshape, ?_⟩
    simp only [View.changeFacts, Function.update_self, hfacts, Option.map_some]
  · refine ⟨r, facts, hr, hshape, ?_⟩
    simp only [View.changeFacts, Function.update_of_ne hid, hfacts]

theorem HoldsCheckpoint.supersedeInto {v : View} {id a b : String}
    {kind : PrivateLifecycleRelationKind} {app : Application} (h : HoldsCheckpoint v id) :
    HoldsCheckpoint (v.supersedeInto kind a b app) id :=
  h.changeRecord fun _ => rfl

theorem HoldsCheckpoint.succeedBy {v : View} {id a b : String}
    {kind : PrivateLifecycleRelationKind} {lineage : Option RecordLineageKind} {app : Application}
    (h : HoldsCheckpoint v id) : HoldsCheckpoint (v.succeedBy kind a b lineage app) id := by
  have hfirst : HoldsCheckpoint (v.changeRecord a (View.supersede app)) id :=
    h.changeRecord fun _ => rfl
  have hsecond : HoldsCheckpoint ((v.changeRecord a (View.supersede app)).changeRecord b
      (View.link app a lineage)) id := hfirst.changeRecord fun _ => rfl
  exact hsecond

theorem HoldsCheckpoint.supersedeMembers {kind : PrivateLifecycleRelationKind} {kept id : String}
    {ids : List String} {app : Application} {v : View} (h : HoldsCheckpoint v id) :
    HoldsCheckpoint (v.supersedeMembers kind kept ids app) id := by
  unfold View.supersedeMembers
  induction ids generalizing v with
  | nil => exact h
  | cons x ids ih =>
      rw [List.foldl_cons]
      split
      · exact ih h
      · exact ih h.supersedeInto

variable [Digests]

/-- An action leaves every checkpoint a checkpoint, as the record it creates is new. -/
theorem HoldsCheckpoint.act {v : View} {id : String} {app : Application} {p : PreparedAction}
    (h : HoldsCheckpoint v id) (hfresh : ∀ id ∈ p.created, v.records id = none) :
    HoldsCheckpoint (v.act app p) id := by
  obtain ⟨action, replacementId⟩ := p
  cases action with
  | renewFromEvidence => exact h.succeedBy
  | supersede => exact h.succeedBy
  | consolidate => exact h.supersedeMembers
  | resolveContradiction => exact h.supersedeMembers
  | correct recordId _ replacement _ _ =>
      cases replacementId with
      | none => exact h
      | some rid =>
          have hnone : v.records rid = none := hfresh rid (List.mem_singleton_self rid)
          have hne : id ≠ rid := by
            rintro rfl
            obtain ⟨r, -, hr, -⟩ := h
            rw [hnone] at hr
            cases hr
          have hcreate : HoldsCheckpoint (v.createCorrection recordId rid replacement app) id := by
            obtain ⟨r, facts, hr, hshape, hfacts⟩ := h
            exact ⟨r, facts, (Function.update_of_ne hne _ _).trans hr, hshape,
              (Function.update_of_ne hne _ _).trans hfacts⟩
          exact hcreate.supersedeInto
  | extendAutomaticRecall => exact h.changeFacts
  | extendValidity => exact h.changeFacts
  | retainUntil => exact h.changeFacts
  | pin => exact h.changeFacts
  | unpin => exact h.changeFacts
  | quarantine => exact h.changeFacts
  | releaseQuarantine => exact h.changeFacts

theorem holdsCheckpoint_of_runs {app : Application} {prepared : List PreparedAction} {v v' : View}
    {id : String} (hruns : PrivateLifecycle.Runs app v prepared v') (h : HoldsCheckpoint v id) :
    HoldsCheckpoint v' id := by
  induction prepared generalizing v with
  | nil => exact hruns ▸ h
  | cons p prepared ih => exact ih hruns.2 (h.act hruns.1)

variable [Entropy] [Text.Unicode]

/-- A group of actions keeps what a checkpoint command reads, and leaves the origins alone. -/
theorem executeGroup_keeps {db db' : Db} {request : PrivateLifecycle.PrivateLifecycleRequest}
    {grantId : String} {now : OffsetDateTime} {appliedAt : String} {app : Application}
    {results : List PrivateLifecycle.PrivateLifecycleActionResult}
    (h : PrivateLifecycle.executeGroup db request grantId now appliedAt = .ok (db', app, results)) :
    Keeps db db' ∧ db'.origins = db.origins := by
  obtain ⟨prepared, hexecuted⟩ := PrivateLifecycle.executed_of_executeGroup h
  refine ⟨⟨fun id event hevent => get?_event_of_insert hexecuted.event hevent,
    fun id hid => holdsCheckpoint_of_runs hexecuted.runs hid⟩, ?_⟩
  obtain ⟨⟨checked, _⟩, hchecked, h⟩ := bind_eq_ok.1 h
  obtain ⟨⟨executed, _⟩, hactions, h⟩ := bind_eq_ok.1 h
  obtain ⟨recorded, hrecorded, h⟩ := bind_eq_ok.1 h
  obtain ⟨-, h⟩ := check_bind_eq_ok.1 h
  cases h
  obtain ⟨⟨n, rfl⟩, -⟩ := PrivateLifecycle.validateActionGroup_ok hchecked
  obtain ⟨-, hrest⟩ := PrivateLifecycle.runs_of_applyActionGroup hactions
  obtain ⟨events, -, hrecorded⟩ := bind_eq_ok.1 hrecorded
  cases hrecorded
  exact hrest.origins

end Lifecycle

/-! ### The origin of an operation -/

/-- A text that can be read passes the check of a timestamp. -/
theorem validateTimestamp_of_parse {label text : String} {t : OffsetDateTime}
    (h : Rfc3339.parse text = some t) : validateTimestamp label text = .ok () := by
  have hblank : Text.isBlank text = false := by
    by_contra hblank
    rw [Bool.not_eq_false, Text.isBlank, List.all_eq_true] at hblank
    have htrim := Rfc3339.trim_of_parse h
    rw [Text.trim, Text.trimChars, List.dropWhile_eq_nil_iff.2 hblank] at htrim
    have hempty : Rfc3339.parse (String.ofList (List.rdropWhile Text.isWhitespace [])) = none := by
      decide
    rw [← htrim, hempty] at h
    cases h
  simp only [validateTimestamp, requireNonEmpty, check_bind_eq_ok, ensure_eq_ok]
  exact ⟨hblank, by rw [h]; rfl⟩

section Origins

variable [CheckpointService]

/-- The origin row of an operation holds an outcome. -/
structure Answered (registry : Registry) (operation : CheckpointOperation)
    (outcome : OriginOutcome) : Prop where
  identity : validateIdentity (operationIdentity operation) = .ok ()
  fingerprint : validateFingerprint (operationFingerprint operation) = .ok ()
  row : ∃ row, registry.get? (operationIdentity operation).key = some row ∧
    row.boundTo (operationIdentity operation) (operationFingerprint operation) ∧
    row.columns.state = .finalized ∧
    row.columns.intoOutcome (operationIdentity operation) = .ok outcome

/-- A finalized row stays, so the operation stays answered. -/
theorem Answered.later {db db' : Db} {operation : CheckpointOperation} {outcome : OriginOutcome}
    (h : Answered db.origins operation outcome) (hcarries : Carries db db') :
    Answered db'.origins operation outcome := by
  obtain ⟨row, hrow, hbound, hstate, houtcome⟩ := h.row
  obtain ⟨row', hrow', -, -, hsame⟩ := hcarries.origins _ row hrow
  rw [hsame hstate] at hrow'
  exact ⟨h.identity, h.fingerprint, row, hrow', hbound, hstate, houtcome⟩

theorem Answered.lookup {registry : Registry} {operation : CheckpointOperation}
    {outcome : OriginOutcome} (h : Answered registry operation outcome) :
    lookupOrigin registry (operationIdentity operation) (operationFingerprint operation) =
      .ok (.replay outcome) := by
  obtain ⟨row, hrow, hbound, hstate, houtcome⟩ := h.row
  exact lookupOrigin_finalized hrow hbound hstate houtcome h.identity h.fingerprint

/-- A lookup that replays an outcome found it under the operation. -/
theorem answered_of_lookup {registry : Registry} {operation : CheckpointOperation}
    {outcome : OriginOutcome} (h : lookupOrigin registry (operationIdentity operation)
      (operationFingerprint operation) = .ok (.replay outcome)) :
    Answered registry operation outcome := by
  have hchecked := h
  unfold lookupOrigin at hchecked
  simp only [check_bind_eq_ok] at hchecked
  refine ⟨hchecked.1, hchecked.2.1, ?_⟩
  cases hkey : registry.get? (operationIdentity operation).key with
  | none => cases lookupOrigin_unseen hkey h
  | some row =>
      obtain ⟨hbound, ⟨-, hanswer⟩ | ⟨hstate, outcome', houtcome, hanswer⟩⟩ :=
        lookupOrigin_row hkey h
      · cases hanswer
      · cases hanswer
        exact ⟨row, rfl, hbound, hstate, houtcome⟩

/-- The key of an operation is claimed by a prepared row. -/
structure Claimed (registry registry' : Registry) (operation : CheckpointOperation)
    (timestamp : String) : Prop where
  identity : validateIdentity (operationIdentity operation) = .ok ()
  fingerprint : validateFingerprint (operationFingerprint operation) = .ok ()
  row : ∃ row : OriginRow, row.columns = preparedColumns (operationIdentity operation)
    (operationFingerprint operation) timestamp ∧ registry.insert? row = some registry'

/-- A preparation replays the outcome of an answered operation, or claims a free key. -/
theorem prepare_cases {registry registry' : Registry} {operation : CheckpointOperation}
    {timestamp : String} {answer : OriginPreparation}
    (h : prepareOrigin registry (operationIdentity operation) (operationFingerprint operation)
      timestamp = (.ok answer, registry')) :
    (answer = .acquired ∧ Claimed registry registry' operation timestamp) ∨
      (∃ outcome, answer = .replay outcome ∧ registry' = registry ∧
        Answered registry operation outcome) ∨ ∃ origin, answer = .pending origin := by
  obtain ⟨hidentity, hfingerprint, ⟨rfl, hrow⟩ | ⟨rfl, looked, hlooked, hanswer⟩⟩ :=
    prepareOrigin_ok h
  · exact Or.inl ⟨rfl, hidentity, hfingerprint, hrow⟩
  · cases answer with
    | acquired => cases looked <;> cases hanswer
    | pending origin => exact Or.inr (Or.inr ⟨origin, rfl⟩)
    | replay outcome =>
        cases looked with
        | replay outcome' =>
            cases hanswer
            exact Or.inr (Or.inl ⟨outcome, rfl, rfl, answered_of_lookup hlooked⟩)
        | _ => cases hanswer

omit [CheckpointService] in
/-- What is read from the origin of an operation, and from its event. -/
theorem checkpointResult_ok {db : Db} {operationId id : String} {outcome : OriginOutcome}
    (hid : outcome.recordId = some id) (replayed : Bool) {result : CheckpointCommandResult} :
    checkpointResultFromOrigin db operationId outcome replayed = .ok result ↔
      ∃ version, checkpointRecordVersion db id = .ok version ∧ result = ⟨operationId, id,
        (eventRecordVersion db outcome.lifecycleEventId).getD version, outcome.lifecycleEventId,
        outcome.outcome = .created, replayed⟩ := by
  simp only [checkpointResultFromOrigin, hid, require_some, ok_bind, bind_eq_ok, Except.ok.injEq]
  constructor
  · rintro ⟨r, -, version, hversion, rfl⟩
    exact ⟨version, hversion, rfl⟩
  · rintro ⟨version, hversion, rfl⟩
    obtain ⟨r, hr, -⟩ := bind_eq_ok.1 hversion
    exact ⟨r, hr, version, hversion, rfl⟩

end Origins

/-! ### What a command writes -/

/-- The checkpoint that a closure finds closed. -/
def closedTarget (db : Db) : CheckpointOperation → Option String
  | .close command =>
    ((db.records.get? command.checkpointId).filter (·.retention.closedAt.isSome)).map (·.id)
  | _ => none

section Commands

variable [CheckpointService]

/-- The writes of a command between the two halves of its origin. The outcome names an event that
holds the version, except on a checkpoint that was closed before, where nothing is written. -/
structure Writes (db db' : Db) (operation : CheckpointOperation) (outcome : OriginOutcome) :
    Prop where
  keeps : Keeps db db'
  origins : db'.origins = db.origins
  identity : outcome.identity = operationIdentity operation
  fingerprint : outcome.inputFingerprint = operationFingerprint operation
  source : ∃ id, outcome.recordId = some id ∧ HoldsCheckpoint (view db') id ∧
    ((closedTarget db operation = none ∧
        ∃ event, outcome.lifecycleEventId = some event.id ∧ Versioned db' event) ∨
      (closedTarget db operation = some id ∧ outcome.lifecycleEventId = none ∧ db' = db))

/-! ### Finishing the origin -/

/-- What a command wrote, from the store before it to the one it leaves. -/
structure Completes (db db' : Db) (operation : CheckpointOperation) (outcome : OriginOutcome) :
    Prop where
  unseen : db.origins.get? (operationIdentity operation).key = none
  answered : Answered db'.origins operation outcome
  carries : Carries db db'
  rows : ∀ key row, db'.origins.get? key = some row →
    db.origins.get? key = some row ∨ row.columns.lifecycleEventId = outcome.lifecycleEventId
  source : ∃ id, outcome.recordId = some id ∧ HoldsCheckpoint (view db') id ∧
    ((closedTarget db operation = none ∧
        ∃ event, outcome.lifecycleEventId = some event.id ∧ Versioned db' event) ∨
      (closedTarget db operation = some id ∧ outcome.lifecycleEventId = none ∧
        db'.lifecycle = db.lifecycle))

theorem finishOperation_ok {db mid : Db} {origins : Registry} {operation : CheckpointOperation}
    {timestamp : String} {outcome : OriginOutcome} {promotion : Option SessionEndResult}
    {t : Transaction} (hclaimed : Claimed db.origins origins operation timestamp)
    (hwrites : Writes { db with origins := origins } mid operation outcome)
    (h : finishOperation mid operation outcome promotion = .ok t) :
    ∃ last result, t = .written last ⟨promotion, some result⟩ ∧
      last = { mid with origins := last.origins } ∧ Completes db last operation outcome ∧
      checkpointResultFromOrigin last operation.operationId outcome false = .ok result := by
  obtain ⟨row, hcolumns, hinsert⟩ := hclaimed.row
  have hkey : row.key = (operationIdentity operation).key := by rw [OriginRow.key, hcolumns]; rfl
  have hunseen := Table.insert?_fresh hinsert
  rw [hkey] at hunseen
  have hmid : mid.origins = origins := hwrites.origins
  have hrow : mid.origins.get? outcome.identity.key = some row := by
    rw [hmid, hwrites.identity, Table.get?_insert? hinsert, if_pos hkey]
  have hstate : row.columns.state = .prepared := by rw [hcolumns]; rfl
  unfold finishOperation at h
  split at h
  · cases h
  · rename_i recorded registry hfinal
    obtain ⟨rfl, hregistry⟩ := finalizeOrigin_prepared hrow hstate hfinal
    obtain ⟨result, hresult, h⟩ := bind_eq_ok.1 h
    cases h
    have hcolumns' : (row.finalizePrepared recorded).columns = row.columns.finalize recorded := by
      rw [OriginRow.finalizePrepared, if_pos hstate]
    refine ⟨_, result, rfl, rfl, ⟨hunseen, ⟨hclaimed.identity, hclaimed.fingerprint, ?_⟩,
      ⟨?_, ?_⟩, ?_, ?_⟩, hresult⟩
    · refine ⟨row.finalizePrepared recorded, ?_, ?_, ?_, ?_⟩
      · rw [hregistry, ← hwrites.identity, Table.get?_update_self, hrow]
        rfl
      · rw [OriginRow.boundTo, hcolumns']
        exact ⟨by rw [OriginColumns.finalize, hcolumns]; rfl,
          by rw [OriginColumns.finalize, hcolumns]; rfl⟩
      · rw [hcolumns']
        rfl
      · rw [hcolumns', OriginColumns.finalize, OriginColumns.intoOutcome, hcolumns]
        simp only [require_some, ok_bind, preparedColumns, ← hwrites.identity,
          ← hwrites.fingerprint]
    · exact ((keeps_origins db origins).trans hwrites.keeps).trans (keeps_origins mid _)
    · intro key old hold
      refine ⟨old, ?_, rfl, rfl, fun _ => rfl⟩
      show registry.get? key = some old
      have hne : (operationIdentity operation).key ≠ key := by
        rintro rfl
        rw [hunseen] at hold
        cases hold
      rw [hregistry, hwrites.identity, Table.get?_update_of_ne _ _ _ hne, hmid,
        Table.get?_insert? hinsert, hkey, if_neg hne]
      exact hold
    · intro key new hnew
      have hnew : registry.get? key = some new := hnew
      rw [hregistry, Table.get?_update, hmid, Table.get?_insert? hinsert, hkey,
        hwrites.identity] at hnew
      split at hnew
      · cases hnew
        right
        show (row.finalizePrepared recorded).columns.lifecycleEventId = recorded.lifecycleEventId
        rw [hcolumns']
        rfl
      · exact Or.inl hnew
    · obtain ⟨id, hid, hholds, hcase⟩ := hwrites.source
      refine ⟨id, hid, hholds, ?_⟩
      obtain hversioned | ⟨hclosed, hnone, hsame⟩ := hcase
      · exact Or.inl hversioned
      · exact Or.inr ⟨hclosed, hnone, by rw [hsame]⟩

/-! ### The writes of each command -/

variable [Entropy]

theorem writes_of_close {db db' : Db} {actor timestamp : String} {command : CheckpointCommand}
    {now : OffsetDateTime} {m : CheckpointLifecycleMutation}
    (h : closeCheckpoint db actor command now timestamp = .ok (db', m)) :
    Writes db db' (.close command) (operationOutcome (.close command)
      (if m.applied then .created else .existingDuplicateNoWrite) m.record.id
      (m.event.map MemoryEvent.id) timestamp) := by
  obtain ⟨hkept, horigins, hid, hholds, r, hr, hcase⟩ := closeCheckpoint_keeps h
  refine ⟨hkept, horigins, rfl, rfl, m.record.id, rfl, by rw [hid]; exact hholds, ?_⟩
  obtain ⟨hclosed, hdb, hevent, -⟩ | ⟨hopen, -, event, hevent, hversioned⟩ := hcase
  · refine Or.inr ⟨?_, by rw [hevent]; rfl, hdb⟩
    simp only [closedTarget, hr, Option.filter, hclosed, if_true, Option.map_some]
    rw [hid, Table.key_of_get? hr]
  · refine Or.inl ⟨?_, event, by rw [hevent]; rfl, hversioned⟩
    simp [closedTarget, hr, Option.filter, hopen]

theorem writes_of_continue {db db' : Db} {actor timestamp : String} {command : CheckpointCommand}
    {now : OffsetDateTime} {m : CheckpointLifecycleMutation} {event : MemoryEvent}
    (h : continueCheckpoint db actor command now timestamp = .ok (db', m))
    (hevent : m.event = some event) :
    Writes db db' (.continue_ command) (operationOutcome (.continue_ command) .created m.record.id
      (some event.id) timestamp) := by
  obtain ⟨hkept, horigins, hholds, event', hevent', hversioned⟩ := continueCheckpoint_keeps h
  obtain rfl : event = event' := Option.some.inj (hevent.symm.trans hevent')
  exact ⟨hkept, horigins, rfl, rfl, m.record.id, rfl, hholds, Or.inl ⟨rfl, event, rfl, hversioned⟩⟩

variable [Digests]

theorem writes_of_create {db db' : Db} {actor timestamp : String}
    {operation : CheckpointOperation} (hother : closedTarget db operation = none)
    {input : CheckpointInput} {origin : OriginDescriptor} {r : MemoryRecord} {eventId : String}
    (h : createCheckpointRecord db actor input timestamp origin none = .ok (db', r))
    (hevent : latestCheckpointEventId db' r.id "memory.checkpoint_created" = .ok eventId) :
    Writes db db' operation (operationOutcome operation .created r.id (some eventId) timestamp) := by
  obtain ⟨hkept, horigins, hholds, event, hversioned, hlatest⟩ := createCheckpointRecord_keeps h
  rw [hlatest] at hevent
  cases hevent
  exact ⟨hkept, horigins, rfl, rfl, r.id, rfl, hholds, Or.inl ⟨hother, event, rfl, hversioned⟩⟩

theorem writes_of_successor {db mid db' : Db} {actor timestamp : String}
    {operation : CheckpointOperation} (hother : closedTarget db operation = none)
    {input : CheckpointInput} {origin : OriginDescriptor} {lineage : Option RecordLineage}
    {r : MemoryRecord} {event : MemoryEvent} {fields : List (String × String)}
    (h : createCheckpointRecord db actor input timestamp origin lineage = .ok (mid, r))
    (hversion : ∃ version, ("record_version", version) ∈ fields)
    (hevent : appendEvent mid "memory.checkpoint_succeeded" actor r.id fields = .ok (db', event)) :
    Writes db db' operation
      (operationOutcome operation .created r.id (some event.id) timestamp) := by
  obtain ⟨hkept, horigins, hholds, -⟩ := createCheckpointRecord_keeps h
  obtain ⟨-, -, hfields, -, hstored, horigins', -, -, hkept'⟩ := appendEvent_ok hevent
  refine ⟨hkept.trans hkept', horigins'.trans horigins, rfl, rfl, r.id, rfl,
    hkept'.checkpoints _ hholds, Or.inl ⟨hother, event, rfl, hstored, ?_⟩⟩
  obtain ⟨version, hversion⟩ := hversion
  rw [hfields]
  exact List.lookup_isSome_iff.2 ⟨_, hversion, by simp⟩

variable [SessionEndTexts]

theorem writes_of_promotion {db db' : Db} {actor timestamp : String}
    {command : SessionEndFromCheckpointCommand} {now : OffsetDateTime}
    {repoWrites : List (Option (String × String))} {outcome : OriginOutcome}
    {promotion : SessionEndResult}
    (h : writePromotion db actor command now timestamp repoWrites = .ok (db', outcome, promotion)) :
    Writes db db' (.promote command) outcome ∧
      ∃ eventId, outcome.lifecycleEventId = some eventId ∧
        storedPromotion db' eventId = .ok promotion := by
  obtain ⟨⟨written, writes⟩, hwrites, h⟩ := bind_eq_ok.1 h
  obtain ⟨⟨closed, m⟩, hclose, h⟩ := bind_eq_ok.1 h
  obtain ⟨result, -, h⟩ := bind_eq_ok.1 h
  obtain ⟨version, -, h⟩ := bind_eq_ok.1 h
  obtain ⟨⟨last, event⟩, hevent, h⟩ := bind_eq_ok.1 h
  cases h
  obtain ⟨hkept, horigins⟩ := writeCandidates_keeps hwrites
  obtain ⟨hkept', horigins', -, hholds, -⟩ := closeCheckpoint_keeps hclose
  obtain ⟨-, -, hfields, -, hstored, horigins'', -, -, hkept''⟩ := appendEvent_ok hevent
  refine ⟨⟨(hkept.trans hkept').trans hkept'', (horigins''.trans horigins').trans horigins, rfl, rfl,
    command.checkpointId, rfl, hkept''.checkpoints _ hholds,
    Or.inl ⟨rfl, event, rfl, hstored, ?_⟩⟩, event.id, rfl, ?_⟩
  · rw [hfields]
    exact List.lookup_isSome_iff.2 ⟨("record_version", version), by simp, by simp⟩
  · rw [storedPromotion, hstored]
    simp only [require_some, ok_bind, hfields]
    rw [show List.lookup "promotion" [("operation_id", command.operationId),
      ("checkpoint_id", command.checkpointId), ("record_version", version),
      ("promotion", SessionEndTexts.printResult promotion)] =
        some (SessionEndTexts.printResult promotion) from rfl]
    rw [require_some, ok_bind, SessionEndTexts.readResult_printResult, require_some]

/-! ### What a command does -/

/-- The promotion an answer holds: the one in the event of a session end. -/
def readPromotion (db : Db) : CheckpointOperation → OriginOutcome → Fallible (Option SessionEndResult)
  | .promote _, outcome => do
    let eventId ← require outcome.lifecycleEventId
      "checkpoint session-end origin outcome has no lifecycle event"
    let promotion ← storedPromotion db eventId
    .ok (some promotion)
  | _, _ => .ok none

/-- Everything a command that succeeds does: it reads its answer back, it is blocked, or it writes. -/
inductive Transacts (db : Db) (operation : CheckpointOperation) : Transaction → Prop where
  | replayed {outcome : OriginOutcome} {promotion : Option SessionEndResult}
      {result : CheckpointCommandResult} (answered : Answered db.origins operation outcome)
      (reads : readPromotion db operation outcome = .ok promotion)
      (found : checkpointResultFromOrigin db operation.operationId outcome true = .ok result) :
      Transacts db operation (.unwritten ⟨promotion, some result⟩)
  | blocked {command : SessionEndFromCheckpointCommand} (promotes : operation = .promote command)
      (unseen : db.origins.get? (operationIdentity operation).key = none)
      (refused : CheckpointService.unsafeRepoCandidates command.document ≠ []) :
      Transacts db operation (.unwritten ⟨some (blockedResult command.document
        (CheckpointService.unsafeRepoCandidates command.document)), none⟩)
  | written {last : Db} {outcome : OriginOutcome} {promotion : Option SessionEndResult}
      {result : CheckpointCommandResult} (completes : Completes db last operation outcome)
      (reads : readPromotion last operation outcome = .ok promotion)
      (found : checkpointResultFromOrigin last operation.operationId outcome false = .ok result) :
      Transacts db operation (.written last ⟨promotion, some result⟩)

omit [Entropy] [Digests] in
theorem withOrigin_transacts {db : Db} {operation : CheckpointOperation}
    {timestamp pending : String} {body : Db → Fallible (Db × OriginOutcome)} {t : Transaction}
    (hreads : ∀ db outcome, readPromotion db operation outcome = .ok none)
    (hbody : ∀ db₁ db₂ outcome, body db₁ = .ok (db₂, outcome) → Writes db₁ db₂ operation outcome)
    (h : withOrigin db operation timestamp pending body = .ok t) : Transacts db operation t := by
  unfold withOrigin at h
  split at h
  · cases h
  · rename_i outcome registry hprepare
    obtain ⟨hacquired, -⟩ | ⟨outcome', hreplay, -, hanswered⟩ | ⟨origin, hpending⟩ :=
      prepare_cases hprepare
    · cases hacquired
    · cases hreplay
      obtain ⟨result, hresult, h⟩ := bind_eq_ok.1 h
      cases h
      exact .replayed hanswered (hreads db outcome) hresult
    · cases hpending
  · cases h
  · rename_i origins hprepare
    obtain ⟨-, hclaimed⟩ | ⟨outcome, hreplay, -⟩ | ⟨origin, hpending⟩ := prepare_cases hprepare
    · obtain ⟨⟨mid, outcome⟩, hmid, h⟩ := bind_eq_ok.1 h
      obtain ⟨last, result, rfl, -, hcompletes, hresult⟩ :=
        finishOperation_ok hclaimed (hbody _ mid outcome hmid) h
      exact .written hcompletes (hreads last outcome) hresult
    · cases hreplay
    · cases hpending

theorem promoteFromCheckpoint_transacts {db : Db} {actor : String}
    {command : SessionEndFromCheckpointCommand} {now : OffsetDateTime}
    {repoWrites : Fallible (List (Option (String × String)))} {t : Transaction}
    (h : promoteFromCheckpoint db actor command now repoWrites = .ok t) :
    Transacts db (.promote command) t := by
  simp only [promoteFromCheckpoint, check_bind_eq_ok] at h
  obtain ⟨-, -, -, h⟩ := h
  obtain ⟨looked, hlooked, h⟩ := bind_eq_ok.1 h
  cases looked with
  | prepared origin => cases h
  | replay outcome =>
      obtain ⟨answer, hanswer, h⟩ := bind_eq_ok.1 h
      cases h
      obtain ⟨eventId, heventId, hanswer⟩ := bind_eq_ok.1 hanswer
      obtain ⟨promotion, hpromotion, hanswer⟩ := bind_eq_ok.1 hanswer
      obtain ⟨closure, hclosure, hanswer⟩ := bind_eq_ok.1 hanswer
      cases hanswer
      refine .replayed (answered_of_lookup hlooked) ?_ hclosure
      simp only [readPromotion, heventId, ok_bind, hpromotion]
  | unseen =>
      have hunseen : db.origins.get? (operationIdentity (.promote command)).key = none := by
        cases hkey : db.origins.get? (operationIdentity (.promote command)).key with
        | none => rfl
        | some row =>
            rcases (lookupOrigin_row hkey hlooked).2 with ⟨-, hanswer⟩ | ⟨-, _, -, hanswer⟩ <;>
              cases hanswer
      dsimp only [promoteInternal] at h
      split at h
      · rename_i hrefused
        cases h
        exact .blocked rfl hunseen hrefused
      · obtain ⟨timestamp, -, h⟩ := bind_eq_ok.1 h
        obtain ⟨-, h⟩ := check_bind_eq_ok.1 h
        obtain ⟨writes, -, h⟩ := bind_eq_ok.1 h
        split at h
        · cases h
        · cases h
        · cases h
        · rename_i origins hprepare
          obtain ⟨-, hclaimed⟩ | ⟨outcome, hreplay, -⟩ | ⟨origin, hpending⟩ :=
            prepare_cases hprepare
          · obtain ⟨⟨mid, outcome, promotion⟩, hmid, h⟩ := bind_eq_ok.1 h
            obtain ⟨hwrites, eventId, heventId, hstored⟩ := writes_of_promotion hmid
            obtain ⟨last, result, rfl, hlast, hcompletes, hresult⟩ :=
              finishOperation_ok hclaimed hwrites h
            refine .written hcompletes ?_ hresult
            rw [hlast]
            simp only [readPromotion, heventId, require_some, ok_bind]
            rw [show storedPromotion { mid with origins := last.origins } eventId =
              storedPromotion mid eventId from rfl, hstored, ok_bind]
          · cases hreplay
          · cases hpending

theorem OperationCall.transaction_transacts {db : Db} {call : OperationCall} {t : Transaction}
    (h : call.transaction db = .ok t) : Transacts db call.operation t := by
  unfold transaction at h
  split at h
  · rename_i command hop
    obtain ⟨-, h⟩ := check_bind_eq_ok.1 h
    obtain ⟨timestamp, -, h⟩ := bind_eq_ok.1 h
    rw [hop]
    refine withOrigin_transacts (fun _ _ => rfl) (fun db₁ db₂ outcome hbody => ?_) h
    obtain ⟨⟨mid, record⟩, hcreate, hbody⟩ := bind_eq_ok.1 hbody
    obtain ⟨eventId, hevent, hbody⟩ := bind_eq_ok.1 hbody
    cases hbody
    exact writes_of_create rfl hcreate hevent
  · rename_i command hop
    obtain ⟨-, h⟩ := check_bind_eq_ok.1 h
    obtain ⟨timestamp, -, h⟩ := bind_eq_ok.1 h
    rw [hop]
    refine withOrigin_transacts (fun _ _ => rfl) (fun db₁ db₂ outcome hbody => ?_) h
    obtain ⟨predecessor, -, hbody⟩ := bind_eq_ok.1 hbody
    obtain ⟨-, hbody⟩ := check_bind_eq_ok.1 hbody
    obtain ⟨⟨mid, record⟩, hcreate, hbody⟩ := bind_eq_ok.1 hbody
    obtain ⟨version, -, hbody⟩ := bind_eq_ok.1 hbody
    obtain ⟨⟨last, event⟩, hevent, hbody⟩ := bind_eq_ok.1 hbody
    cases hbody
    exact writes_of_successor rfl hcreate ⟨version, by simp⟩ hevent
  · rename_i command hop
    obtain ⟨timestamp, -, h⟩ := bind_eq_ok.1 h
    rw [hop]
    refine withOrigin_transacts (fun _ _ => rfl) (fun db₁ db₂ outcome hbody => ?_) h
    obtain ⟨⟨mid, m⟩, hcontinue, hbody⟩ := bind_eq_ok.1 hbody
    obtain ⟨event, hevent, hbody⟩ := bind_eq_ok.1 hbody
    cases hbody
    exact writes_of_continue hcontinue (require_eq_ok.1 hevent)
  · rename_i command hop
    obtain ⟨timestamp, -, h⟩ := bind_eq_ok.1 h
    rw [hop]
    refine withOrigin_transacts (fun _ _ => rfl) (fun db₁ db₂ outcome hbody => ?_) h
    obtain ⟨⟨mid, m⟩, hclose, hbody⟩ := bind_eq_ok.1 hbody
    cases hbody
    exact writes_of_close hclose
  · rename_i command hop
    rw [hop]
    exact promoteFromCheckpoint_transacts h

/-! ### Commands on a stored origin -/

/-- The checks a command makes on its own input. -/
def CheckpointOperation.checked : CheckpointOperation → Fallible Unit
  | .create command => ensureNonEmptyOperationId command.operationId
  | .createSuccessor command => ensureNonEmptyOperationId command.operationId
  | .promote command => do
    ensureNonEmptyOperationId command.operationId
    CheckpointService.ensureRepositoryIndexCurrent
    validateSessionEndDocument command.document
  | _ => .ok ()

/-- The clock reading can be written; only a promotion answers a repeat without writing it. -/
def OperationCall.clockReads (call : OperationCall) : Prop :=
  match call.operation with
  | .promote _ => True
  | _ => written call.now

theorem OperationCall.checked_of_transaction {db : Db} {call : OperationCall} {t : Transaction}
    (h : call.transaction db = .ok t) : call.operation.checked = .ok () := by
  unfold transaction at h
  split at h
  · rename_i command hop
    rw [hop]
    exact (check_bind_eq_ok.1 h).1
  · rename_i command hop
    rw [hop]
    exact (check_bind_eq_ok.1 h).1
  · rename_i command hop
    rw [hop]
    rfl
  · rename_i command hop
    rw [hop]
    rfl
  · rename_i command hop
    rw [hop]
    simp only [promoteFromCheckpoint, check_bind_eq_ok] at h
    simp only [CheckpointOperation.checked, check_bind_eq_ok]
    exact ⟨h.1, h.2.1, h.2.2.1⟩

/-- The answer an outcome is replayed as. -/
def replayedAnswer (db : Db) (operation : CheckpointOperation) (outcome : OriginOutcome) :
    Fallible Transaction := do
  let promotion ← readPromotion db operation outcome
  let result ← checkpointResultFromOrigin db operation.operationId outcome true
  .ok (.unwritten ⟨promotion, some result⟩)

omit [Entropy] [Digests] in
theorem withOrigin_of_answered {db : Db} {operation : CheckpointOperation}
    {timestamp pending : String} {body : Db → Fallible (Db × OriginOutcome)}
    {outcome : OriginOutcome} (hanswered : Answered db.origins operation outcome)
    (hreads : readPromotion db operation outcome = .ok none)
    (htimestamp : validateTimestamp "prepared_at" timestamp = .ok ()) :
    withOrigin db operation timestamp pending body = replayedAnswer db operation outcome := by
  have hprepare : prepareOrigin db.origins (operationIdentity operation)
      (operationFingerprint operation) timestamp = (.ok (.replay outcome), db.origins) := by
    obtain ⟨row, hrow, -⟩ := hanswered.row
    have hinsert : insertOrIgnore db.origins (preparedColumns (operationIdentity operation)
        (operationFingerprint operation) timestamp) = (db.origins, 0) := insertOrIgnore_taken hrow
    unfold prepareOrigin
    simp only [hanswered.identity, hanswered.fingerprint, htimestamp, ok_bind, hinsert,
      hanswered.lookup]
  rw [withOrigin, hprepare, replayedAnswer, hreads]
  rfl

omit [Entropy] [Digests] [SessionEndTexts] in
theorem withOrigin_of_bound {db : Db} {operation : CheckpointOperation}
    {timestamp pending : String} {body : Db → Fallible (Db × OriginOutcome)} {row : OriginRow}
    (hrow : db.origins.get? (operationIdentity operation).key = some row)
    (hbound : ¬ row.boundTo (operationIdentity operation) (operationFingerprint operation))
    {t : Transaction} : withOrigin db operation timestamp pending body ≠ .ok t := by
  intro h
  have hrefused : ∀ answer registry, prepareOrigin db.origins (operationIdentity operation)
      (operationFingerprint operation) timestamp ≠ (.ok answer, registry) := by
    intro answer registry hprepare
    obtain ⟨-, -, ⟨-, new, hcolumns, hinsert⟩ | ⟨-, looked, hlooked, -⟩⟩ := prepareOrigin_ok hprepare
    · have hfresh := Table.insert?_fresh hinsert
      rw [show new.key = (operationIdentity operation).key by rw [OriginRow.key, hcolumns]; rfl,
        hrow] at hfresh
      cases hfresh
    · exact hbound (lookupOrigin_row hrow hlooked).1
  unfold withOrigin at h
  split at h
  · cases h
  · rename_i hprepare
    exact hrefused _ _ hprepare
  · rename_i hprepare
    exact hrefused _ _ hprepare
  · rename_i hprepare
    exact hrefused _ _ hprepare

/-- A repeat of an answered operation reads its answer back, when its clock reading can be
written. -/
theorem OperationCall.transaction_of_answered {db : Db} {call : OperationCall}
    {outcome : OriginOutcome} (hanswered : Answered db.origins call.operation outcome)
    (hchecked : call.operation.checked = .ok ()) (hclock : call.clockReads) :
    call.transaction db = replayedAnswer db call.operation outcome := by
  have hwritten : written call.now → ∃ timestamp, formatTimestamp call.now = .ok timestamp ∧
      validateTimestamp "prepared_at" timestamp = .ok () := by
    intro h
    obtain ⟨timestamp, htimestamp⟩ := formatTimestamp_ok_iff.2 h
    exact ⟨timestamp, htimestamp, validateTimestamp_of_parse (parse_of_formatTimestamp htimestamp)⟩
  obtain ⟨actor, operation, now, repoWrites, commit, refresh⟩ := call
  cases operation with
  | create command =>
      obtain ⟨timestamp, htimestamp, hvalid⟩ := hwritten hclock
      simp only [CheckpointOperation.checked] at hchecked
      simp only [transaction, createCheckpointCommand, hchecked, ok_bind, htimestamp]
      exact withOrigin_of_answered hanswered rfl hvalid
  | createSuccessor command =>
      obtain ⟨timestamp, htimestamp, hvalid⟩ := hwritten hclock
      simp only [CheckpointOperation.checked] at hchecked
      simp only [transaction, createCheckpointSuccessor, hchecked, ok_bind, htimestamp]
      exact withOrigin_of_answered hanswered rfl hvalid
  | continue_ command =>
      obtain ⟨timestamp, htimestamp, hvalid⟩ := hwritten hclock
      simp only [transaction, continueCheckpointCommand, ok_bind, htimestamp]
      exact withOrigin_of_answered hanswered rfl hvalid
  | close command =>
      obtain ⟨timestamp, htimestamp, hvalid⟩ := hwritten hclock
      simp only [transaction, closeCheckpointCommand, ok_bind, htimestamp]
      exact withOrigin_of_answered hanswered rfl hvalid
  | promote command =>
      simp only [CheckpointOperation.checked, check_bind_eq_ok] at hchecked
      obtain ⟨hid, hindex, hdocument⟩ := hchecked
      simp only [transaction, promoteFromCheckpoint, hid, hindex, hdocument, ok_bind,
        hanswered.lookup, replayedAnswer, readPromotion, replayedCheckpointPromotion, bind_assoc]
      rfl

/-- A command that cannot write its clock reading fails. -/
theorem OperationCall.transaction_of_clock {db : Db} {call : OperationCall}
    (hclock : ¬ call.clockReads) {t : Transaction} : call.transaction db ≠ .ok t := by
  have hunwritten : ¬ written call.now → ∀ timestamp, formatTimestamp call.now ≠ .ok timestamp :=
    fun h timestamp htimestamp => h (formatTimestamp_ok_iff.1 ⟨timestamp, htimestamp⟩)
  obtain ⟨actor, operation, now, repoWrites, commit, refresh⟩ := call
  intro h
  cases operation with
  | create command =>
      obtain ⟨-, h⟩ := check_bind_eq_ok.1 h
      obtain ⟨timestamp, htimestamp, -⟩ := bind_eq_ok.1 h
      exact hunwritten hclock timestamp htimestamp
  | createSuccessor command =>
      obtain ⟨-, h⟩ := check_bind_eq_ok.1 h
      obtain ⟨timestamp, htimestamp, -⟩ := bind_eq_ok.1 h
      exact hunwritten hclock timestamp htimestamp
  | continue_ command =>
      obtain ⟨timestamp, htimestamp, -⟩ := bind_eq_ok.1 h
      exact hunwritten hclock timestamp htimestamp
  | close command =>
      obtain ⟨timestamp, htimestamp, -⟩ := bind_eq_ok.1 h
      exact hunwritten hclock timestamp htimestamp
  | promote command => exact hclock trivial

/-- An operation id that is bound to another input is refused. -/
theorem OperationCall.transaction_of_bound {db : Db} {call : OperationCall} {row : OriginRow}
    (hrow : db.origins.get? (operationIdentity call.operation).key = some row)
    (hbound : ¬ row.boundTo (operationIdentity call.operation) (operationFingerprint call.operation))
    {t : Transaction} : call.transaction db ≠ .ok t := by
  obtain ⟨actor, operation, now, repoWrites, commit, refresh⟩ := call
  intro h
  cases operation with
  | create command =>
      obtain ⟨-, h⟩ := check_bind_eq_ok.1 h
      obtain ⟨timestamp, -, h⟩ := bind_eq_ok.1 h
      exact withOrigin_of_bound hrow hbound h
  | createSuccessor command =>
      obtain ⟨-, h⟩ := check_bind_eq_ok.1 h
      obtain ⟨timestamp, -, h⟩ := bind_eq_ok.1 h
      exact withOrigin_of_bound hrow hbound h
  | continue_ command =>
      obtain ⟨timestamp, -, h⟩ := bind_eq_ok.1 h
      exact withOrigin_of_bound hrow hbound h
  | close command =>
      obtain ⟨timestamp, -, h⟩ := bind_eq_ok.1 h
      exact withOrigin_of_bound hrow hbound h
  | promote command =>
      simp only [transaction, promoteFromCheckpoint, check_bind_eq_ok] at h
      obtain ⟨-, -, -, h⟩ := h
      obtain ⟨looked, hlooked, -⟩ := bind_eq_ok.1 h
      exact hbound (lookupOrigin_row hrow hlooked).1

end Commands

end Checkpoint
end Memzoi
