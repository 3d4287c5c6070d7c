/-
# Row operations and their triggers

Source: `schema.rs`, `RUNTIME_MIRROR_TRIGGERS`, with the constraints of
`CURRENT_SCHEMA` on the six tables of a private record.

`rotateVersion` replaces the token of one record, `touch` is the pair of
statements almost every trigger ends with. The three child tables of a record
(tags, paths, capture) have the same three triggers, `childTouched`; the
triggers of records, lifecycle rows and relations each have their own body.
-/

import Memzoi.Schema

namespace Memzoi
namespace Db

open Fallible Text

variable [Entropy]

/-! ### What the triggers do -/

/-- `INSERT OR REPLACE INTO runtime_mirror_state`: a new revision. -/
def rotateRevision (db : Db) : Db :=
  { db with revision := some (Entropy.blob db.draws), draws := db.draws + 1 }

/-- The update of the projection in `private_maintenance_generation_dirty`. -/
def dirtyProjection (db : Db) (g : PrivateMaintenanceGrant) (generation : Nat) :
    PrivateMaintenanceProjection :=
  { db.projection with
    state := .dirty
    grantFingerprint := some g.grantFingerprint
    authoritativeGeneration := generation
    reasonCode := some "authoritative_generation_changed"
    updatedAt := Entropy.now db.draws }

/-- `UPDATE private_lifecycle_generation SET generation = ?1`. A changed generation marks the
projection dirty while a grant is active, and the update of the projection draws a revision. -/
def setGeneration (db : Db) (generation : Nat) : Db :=
  { db with
    generation := generation
    projection :=
      match db.activeGrant with
      | some g => if generation = db.generation then db.projection
                  else db.dirtyProjection g generation
      | none => db.projection
    revision :=
      match db.activeGrant with
      | some _ => if generation = db.generation then db.revision
                  else some (Entropy.blob db.draws)
      | none => db.revision
    draws := db.draws + 1 }

/-- Advance the generation, then draw a new mirror revision. -/
def touch (db : Db) : Db := (db.setGeneration (db.generation + 1)).rotateRevision

/-- `UPDATE private_lifecycle_state SET record_version = lower(hex(randomblob(16)))` on one row. -/
def rotateVersion (db : Db) (id : String) : Db :=
  { db with
    lifecycle := db.lifecycle.update id
      (fun s => { s with recordVersion := Entropy.blob db.draws }) (fun _ => rfl)
    draws := db.draws + 1 }

/-- The same on the rows of two ids, once when they are one id. -/
def rotateVersions (db : Db) (a b : String) : Db :=
  if a = b then db.rotateVersion a else (db.rotateVersion a).rotateVersion b

/-- The triggers of `memory_tag`, `memory_path` and `memory_capture`: a change of a row that
belonged to `a` and belongs to `b` now. -/
def childTouched (db : Db) (a b : String) : Db :=
  if db.hasPrivate a || db.hasPrivate b then (db.rotateVersions a b).touch else db

/-! The bookkeeping of the triggers leaves the contents alone, and changes nothing of a lifecycle
row but its token and its instant. -/

@[simp] theorem toContents_rotateRevision (db : Db) :
    db.rotateRevision.toContents = db.toContents := rfl

@[simp] theorem toContents_setGeneration (db : Db) (generation : Nat) :
    (db.setGeneration generation).toContents = db.toContents := rfl

@[simp] theorem toContents_touch (db : Db) : db.touch.toContents = db.toContents := rfl

@[simp] theorem lifecycle_touch (db : Db) : db.touch.lifecycle = db.lifecycle := rfl

@[simp] theorem facts?_touch (db : Db) (id : String) : db.touch.facts? id = db.facts? id := rfl

@[simp] theorem toContents_rotateVersion (db : Db) (id : String) :
    (db.rotateVersion id).toContents = db.toContents := rfl

@[simp] theorem facts?_rotateVersion (db : Db) (id k : String) :
    (db.rotateVersion id).facts? k = db.facts? k := by
  simp only [facts?, rotateVersion, Table.get?_update]
  split
  · rw [Option.map_map]; rfl
  · rfl

@[simp] theorem toContents_rotateVersions (db : Db) (a b : String) :
    (db.rotateVersions a b).toContents = db.toContents := by
  unfold rotateVersions
  split <;> rfl

@[simp] theorem facts?_rotateVersions (db : Db) (a b k : String) :
    (db.rotateVersions a b).facts? k = db.facts? k := by
  unfold rotateVersions
  split <;> simp

@[simp] theorem toContents_childTouched (db : Db) (a b : String) :
    (db.childTouched a b).toContents = db.toContents := by
  unfold childTouched
  split <;> simp

@[simp] theorem facts?_childTouched (db : Db) (a b k : String) :
    (db.childTouched a b).facts? k = db.facts? k := by
  unfold childTouched
  split <;> simp

/-! ### Lifecycle rows -/

/-- `INSERT INTO private_lifecycle_state`, with `private_lifecycle_state_bi`. -/
def insertLifecycle (db : Db) (s : PrivateLifecycleState) : Fallible Db := do
  ensure (db.hasPrivate s.recordId = true)
    "private lifecycle state requires a local/session record"
  ensure (s.admitted = true) "CHECK constraint failed: private_lifecycle_state"
  let lifecycle ← require (db.lifecycle.insert? s)
    "UNIQUE constraint failed: private_lifecycle_state.record_id"
  .ok { db with lifecycle := lifecycle }

/-- `UPDATE private_lifecycle_state SET ... WHERE record_id = ?1` on the facts of a row, with
`private_lifecycle_state_au`: whatever the new values are, the token is drawn anew. -/
def updateLifecycleFacts (db : Db) (s : PrivateLifecycleState) : Fallible Db := do
  ensure (s.admitted = true) "CHECK constraint failed: private_lifecycle_state"
  .ok (({ db with lifecycle := db.lifecycle.set s }.rotateVersion s.recordId).touch)

/-- `DELETE FROM private_lifecycle_state WHERE record_id = ?1`, with
`private_lifecycle_state_ad`. -/
def deleteLifecycle (db : Db) (id : String) : Db :=
  let deleted := { db with lifecycle := db.lifecycle.erase id }
  if (db.lifecycle.get? id).isSome && db.hasRecord id then deleted.touch else deleted

/-! ### Records -/

/-- The lifecycle row a trigger creates for a private record. -/
def newLifecycle (db : Db) (r : MemoryRecord) : PrivateLifecycleState :=
  ⟨.initial, r.id, Entropy.blob db.draws, r.updatedAt⟩

/-- `runtime_mirror_memory_record_ai`. -/
def recordInserted (db : Db) (new : MemoryRecord) : Fallible Db :=
  if new.destination.isPrivate then do
    let db ← { db with draws := db.draws + 1 }.insertLifecycle (db.newLifecycle new)
    .ok db.touch
  else .ok db

/-- `INSERT INTO memory_record`. -/
def insertRecord (db : Db) (r : MemoryRecord) : Fallible Db := do
  ensure (r.admitted = true) "CHECK constraint failed: memory_record"
  let records ← require (db.records.insert? r) "UNIQUE constraint failed: memory_record.id"
  let db ← { db with records := records }.recordInserted r
  ensure (db.supersedesHolds r = true) "FOREIGN KEY constraint failed"
  .ok db

/-- The upsert of `runtime_mirror_memory_record_au`: the row of a private record gets a new
token and the record's `updated_at`, and is created when it is missing. -/
def upsertLifecycle (db : Db) (new : MemoryRecord) : Fallible Db :=
  match db.lifecycle.get? new.id with
  | none => { db with draws := db.draws + 1 }.insertLifecycle (db.newLifecycle new)
  | some s => do
    let s := { s with recordVersion := Entropy.blob db.draws, updatedAt := new.updatedAt }
    ensure (s.admitted = true) "CHECK constraint failed: private_lifecycle_state"
    .ok { db with lifecycle := db.lifecycle.set s, draws := db.draws + 1 }

/-- `runtime_mirror_memory_record_au`. -/
def recordUpdated (db : Db) (old new : MemoryRecord) : Fallible Db :=
  if new.destination.isPrivate then do
    let db ← db.upsertLifecycle new
    .ok db.touch
  else if old.destination.isPrivate then .ok (db.deleteLifecycle new.id).touch
  else .ok db

/-- `UPDATE memory_record SET ... WHERE id = ?1`, from the row `old` to the row `new` under the
same id. -/
def updateRecord (db : Db) (old new : MemoryRecord) : Fallible Db := do
  ensure (new.admitted = true) "CHECK constraint failed: memory_record"
  let db ← { db with records := db.records.set new }.recordUpdated old new
  ensure (db.supersedesHolds new = true) "FOREIGN KEY constraint failed"
  .ok db

/-! ### Relations -/

/-- The `UPDATE` of `private_lifecycle_relation_ai`: a new token and the relation's instant. -/
def stampLifecycle (db : Db) (id createdAt : String) : Db :=
  { db with
    lifecycle := db.lifecycle.update id
      (fun s => { s with recordVersion := Entropy.blob db.draws, updatedAt := createdAt })
      (fun _ => rfl)
    draws := db.draws + 1 }

/-- `INSERT INTO private_lifecycle_relation`, with its two triggers. -/
def insertRelation (db : Db) (r : PrivateLifecycleRelation) : Fallible Db := do
  ensure (db.hasPrivate r.subjectRecordId = true ∧ db.hasPrivate r.relatedRecordId = true)
    "private lifecycle relations require local/session records"
  ensure (r.admitted = true) "CHECK constraint failed: private_lifecycle_relation"
  ensure (∀ other ∈ db.relations.rows, other.uniqueKey ≠ r.uniqueKey)
    "UNIQUE constraint failed: private_lifecycle_relation"
  let relations ← require (db.relations.insert? r)
    "UNIQUE constraint failed: private_lifecycle_relation.id"
  let db := { db with relations := relations }
  .ok ((db.stampLifecycle r.subjectRecordId r.createdAt).stampLifecycle r.relatedRecordId
    r.createdAt).touch

/-- `DELETE` of one relation, with `private_lifecycle_relation_ad`. -/
def deleteRelation (db : Db) (r : PrivateLifecycleRelation) : Db :=
  ({ db with relations := db.relations.erase r.id }.rotateVersions r.subjectRecordId
    r.relatedRecordId).touch

/-! ### Tags, paths and capture -/

/-- `INSERT INTO memory_tag`, with its trigger. -/
def insertTag (db : Db) (t : MemoryTag) : Fallible Db := do
  ensure (t.admitted = true) "CHECK constraint failed: memory_tag"
  let tags ← require (db.tags.insert? t) "UNIQUE constraint failed: memory_tag"
  ensure (db.hasRecord t.recordId = true) "FOREIGN KEY constraint failed"
  .ok ({ db with tags := tags }.childTouched t.recordId t.recordId)

/-- `INSERT INTO memory_path`, with its trigger. -/
def insertPath (db : Db) (p : MemoryPath) : Fallible Db := do
  ensure (p.admitted = true) "CHECK constraint failed: memory_path"
  let paths ← require (db.paths.insert? p) "UNIQUE constraint failed: memory_path.id"
  ensure (db.hasRecord p.recordId = true) "FOREIGN KEY constraint failed"
  .ok ({ db with paths := paths }.childTouched p.recordId p.recordId)

/-- `INSERT INTO memory_capture`, with its trigger. -/
def insertCapture (db : Db) (c : MemoryCapture) : Fallible Db := do
  let captures ← require (db.captures.insert? c) "UNIQUE constraint failed: memory_capture"
  ensure (db.hasRecord c.recordId = true) "FOREIGN KEY constraint failed"
  .ok ({ db with captures := captures }.childTouched c.recordId c.recordId)

/-- `INSERT INTO event_log`. -/
def insertEvent (db : Db) (e : MemoryEvent) : Fallible Db := do
  let events ← require (db.events.insert? e) "UNIQUE constraint failed: event_log.id"
  .ok { db with events := events }

/-! ### What the operations leave -/

omit [Entropy] in
theorem insertLifecycle_ok {db db' : Db} {s : PrivateLifecycleState}
    (h : db.insertLifecycle s = .ok db') :
    db'.toContents = db.toContents ∧ db.facts? s.recordId = none ∧
      ∀ k, db'.facts? k = if s.recordId = k then some s.toLifecycleFacts else db.facts? k := by
  simp only [insertLifecycle, bind_eq_ok, ensure_eq_ok, exists_const, require_eq_ok,
    Except.ok.injEq] at h
  obtain ⟨-, -, lifecycle, hinsert, rfl⟩ := h
  refine ⟨rfl, by rw [facts?, Table.insert?_fresh hinsert]; rfl, fun k => ?_⟩
  simp only [facts?, Table.get?_insert? hinsert]
  split <;> rfl

/-- The facts of a record, as the update of its row leaves them: as they were, or the initial
ones when it had no lifecycle row. -/
def factsOrInitial (db : Db) (id : String) : LifecycleFacts := (db.facts? id).getD .initial

theorem upsertLifecycle_ok {db db' : Db} {new : MemoryRecord}
    (h : db.upsertLifecycle new = .ok db') :
    db'.toContents = db.toContents ∧
      ∀ k, db'.facts? k = if new.id = k then some (db.factsOrInitial k) else db.facts? k := by
  unfold upsertLifecycle at h
  split at h
  · rename_i hnone
    obtain ⟨hcontents, -, hfacts⟩ := insertLifecycle_ok h
    refine ⟨hcontents, fun k => ?_⟩
    rw [hfacts]
    by_cases hk : new.id = k
    · subst hk
      have hnew : db.facts? new.id = none := by rw [facts?, hnone]; rfl
      simp [newLifecycle, factsOrInitial, hnew]
    · rw [if_neg hk]
      exact if_neg hk
  · rename_i s hs
    obtain ⟨-, h⟩ := check_bind_eq_ok.1 h
    cases h
    refine ⟨rfl, fun k => ?_⟩
    have hid : s.recordId = new.id := Table.key_of_get? hs
    simp only [facts?, Table.get?_set, hid]
    by_cases hk : new.id = k
    · subst hk
      simp [hs, factsOrInitial, facts?]
    · simp [hk]

/-- An update of a private record changes its row and gives it a lifecycle row if it had none. -/
theorem updateRecord_ok {db db' : Db} {old new : MemoryRecord}
    (h : db.updateRecord old new = .ok db') (hprivate : new.destination.isPrivate = true) :
    db'.toContents = { db.toContents with records := db.records.set new } ∧
      ∀ k, db'.facts? k = if new.id = k then some (db.factsOrInitial k) else db.facts? k := by
  simp only [updateRecord, recordUpdated, hprivate, if_true, bind_eq_ok, ensure_eq_ok,
    exists_const, Except.ok.injEq] at h
  obtain ⟨-, db₁, ⟨db₂, hupsert, rfl⟩, -, rfl⟩ := h
  obtain ⟨hcontents, hfacts⟩ := upsertLifecycle_ok hupsert
  exact ⟨hcontents, hfacts⟩

/-- A private record is inserted with the initial facts. -/
theorem insertRecord_ok {db db' : Db} {r : MemoryRecord} (h : db.insertRecord r = .ok db')
    (hprivate : r.destination.isPrivate = true) :
    ∃ records, db.records.insert? r = some records ∧
      db'.toContents = { db.toContents with records := records } ∧ db.facts? r.id = none ∧
        ∀ k, db'.facts? k = if r.id = k then some .initial else db.facts? k := by
  simp only [insertRecord, recordInserted, hprivate, if_true, bind_eq_ok, ensure_eq_ok,
    exists_const, require_eq_ok, Except.ok.injEq] at h
  obtain ⟨-, records, hrecords, db₁, ⟨db₂, hlifecycle, rfl⟩, -, rfl⟩ := h
  obtain ⟨hcontents, hnone, hfacts⟩ := insertLifecycle_ok hlifecycle
  exact ⟨records, hrecords, hcontents, hnone, hfacts⟩

/-- The facts of an existing row are replaced. -/
theorem updateLifecycleFacts_ok {db db' : Db} {s : PrivateLifecycleState}
    (h : db.updateLifecycleFacts s = .ok db') :
    db'.toContents = db.toContents ∧ ∀ k, db'.facts? k =
      if s.recordId = k then (db.facts? k).map (fun _ => s.toLifecycleFacts) else db.facts? k := by
  obtain ⟨-, h⟩ := check_bind_eq_ok.1 h
  cases h
  refine ⟨by simp, fun k => ?_⟩
  rw [facts?_touch, facts?_rotateVersion, facts?, Table.get?_set]
  split
  · rw [facts?, Option.map_map, Option.map_map]
    rfl
  · rfl

@[simp] theorem toContents_stampLifecycle (db : Db) (id createdAt : String) :
    (db.stampLifecycle id createdAt).toContents = db.toContents := rfl

@[simp] theorem facts?_stampLifecycle (db : Db) (id createdAt k : String) :
    (db.stampLifecycle id createdAt).facts? k = db.facts? k := by
  simp only [facts?, stampLifecycle, Table.get?_update]
  split
  · rw [Option.map_map]
    rfl
  · rfl

theorem insertRelation_ok {db db' : Db} {r : PrivateLifecycleRelation}
    (h : db.insertRelation r = .ok db') :
    ∃ relations, db.relations.insert? r = some relations ∧
      db'.toContents = { db.toContents with relations := relations } ∧
      (∀ k, db'.facts? k = db.facts? k) ∧ r.subjectRecordId ≠ r.relatedRecordId := by
  simp only [insertRelation, bind_eq_ok, ensure_eq_ok, exists_const, require_eq_ok,
    Except.ok.injEq] at h
  obtain ⟨-, hadmitted, -, relations, hrelations, rfl⟩ := h
  simp only [PrivateLifecycleRelation.admitted, Bool.and_eq_true, decide_eq_true_eq] at hadmitted
  exact ⟨relations, hrelations, by simp, fun k => by simp [facts?_stampLifecycle]; rfl,
    hadmitted.2⟩

theorem insertTag_ok {db db' : Db} {t : MemoryTag} (h : db.insertTag t = .ok db') :
    ∃ tags, db.tags.insert? t = some tags ∧
      db'.toContents = { db.toContents with tags := tags } ∧ ∀ k, db'.facts? k = db.facts? k := by
  simp only [insertTag, bind_eq_ok, ensure_eq_ok, exists_const, require_eq_ok,
    Except.ok.injEq] at h
  obtain ⟨-, tags, htags, -, rfl⟩ := h
  exact ⟨tags, htags, by simp, fun k => by rw [facts?_childTouched]; rfl⟩

theorem insertPath_ok {db db' : Db} {p : MemoryPath} (h : db.insertPath p = .ok db') :
    ∃ paths, db.paths.insert? p = some paths ∧
      db'.toContents = { db.toContents with paths := paths } ∧ ∀ k, db'.facts? k = db.facts? k := by
  simp only [insertPath, bind_eq_ok, ensure_eq_ok, exists_const, require_eq_ok,
    Except.ok.injEq] at h
  obtain ⟨-, paths, hpaths, -, rfl⟩ := h
  exact ⟨paths, hpaths, by simp, fun k => by rw [facts?_childTouched]; rfl⟩

omit [Entropy] in
theorem insertEvent_ok {db db' : Db} {e : MemoryEvent} (h : db.insertEvent e = .ok db') :
    ∃ events, db.events.insert? e = some events ∧ db' = { db with events := events } := by
  simp only [insertEvent, bind_eq_ok, require_eq_ok, Except.ok.injEq] at h
  obtain ⟨events, hevents, rfl⟩ := h
  exact ⟨events, hevents, rfl⟩

end Db
end Memzoi
