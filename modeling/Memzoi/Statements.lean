/-
# Statements on the tables of a private record

Source: `schema.rs` (`CURRENT_SCHEMA`, `RUNTIME_MIRROR_TRIGGERS`).

A statement inserts, updates or deletes rows of one table, one row after
another with the triggers of each row, under the default conflict resolution:
a violated constraint undoes the whole statement. Foreign keys are looked at
when the statement ends, so a row may lose its parent and find another within
one statement. Deleting a record first deletes what refers to it, the tables
created last first; a link of `supersedes_id` is not followed.

An updated row that keeps its key keeps its place; with a new key it goes to
the end of the table, since no query of the program depends on its place.
-/

import Memzoi.Triggers

namespace Memzoi

open Fallible

/-- What a statement does with one row of a table. -/
inductive RowChange (ρ κ : Type) where
  | insert (row : ρ)
  | update (key : κ) (row : ρ)
  | delete (key : κ)
  deriving DecidableEq, Repr

/-- A statement on one of the six tables. An update of lifecycle rows names a column that
`private_lifecycle_state_au` watches, or only the others. -/
inductive Statement where
  | records (changes : List (RowChange MemoryRecord String))
  | tags (changes : List (RowChange MemoryTag (String × String)))
  | paths (changes : List (RowChange MemoryPath String))
  | captures (changes : List (RowChange MemoryCapture String))
  | lifecycle (watched : Bool) (changes : List (RowChange PrivateLifecycleState String))
  | relations (changes : List (RowChange PrivateLifecycleRelation String))

namespace RowChange

variable {ρ κ : Type} {key : ρ → κ} [DecidableEq κ]

/-- The row that is there before the change. -/
def before (t : Table key) : RowChange ρ κ → Option ρ
  | insert _ => none
  | update k _ => t.get? k
  | delete k => t.get? k

/-- The row that is there after the change. -/
def after (t : Table key) : RowChange ρ κ → Option ρ
  | insert row => some row
  | update k row => (t.get? k).map fun _ => row
  | delete _ => none

/-- The table after the change, unless two of its rows had one key. -/
def change? (t : Table key) : RowChange ρ κ → Option (Table key)
  | insert row => t.insert? row
  | update k row => if (t.get? k).isSome then t.replace? k row else some t
  | delete k => some (t.erase k)

/-- Rows that meet a condition are as they were when neither row of the change meets it. -/
theorem filter_change? {t t' : Table key} {c : RowChange ρ κ} (h : c.change? t = some t')
    {p : ρ → Bool} (hbefore : ∀ r, c.before t = some r → p r = false)
    (hafter : ∀ r, c.after t = some r → p r = false) :
    t'.rows.filter p = t.rows.filter p := by
  cases c with
  | insert row => exact Table.filter_insert? h (hafter row rfl)
  | update k row =>
      cases hold : t.get? k with
      | none =>
          simp only [change?, hold, Option.isSome_none, Bool.false_eq_true, if_false,
            Option.some.injEq] at h
          rw [h]
      | some old =>
          simp only [change?, hold, Option.isSome_some, if_true] at h
          refine Table.filter_replace? hold h (hbefore old hold) (hafter row ?_)
          simp [after, hold]
  | delete k =>
      cases h
      cases hold : t.get? k with
      | none =>
          refine Table.filter_deleteWhere fun r hr hk => ?_
          exact absurd (of_decide_eq_true hk) (Table.get?_eq_none.1 hold r hr)
      | some old => exact Table.filter_erase hold (hbefore old hold)

/-- The row under a key is as it was when neither row of the change is under it. -/
theorem get?_change? {t t' : Table key} {c : RowChange ρ κ} (h : c.change? t = some t') {k : κ}
    (hbefore : ∀ r, c.before t = some r → key r ≠ k)
    (hafter : ∀ r, c.after t = some r → key r ≠ k) : t'.get? k = t.get? k := by
  have hfilter := filter_change? h (p := fun r => decide (key r = k))
    (fun r hr => by simpa using hbefore r hr) fun r hr => by simpa using hafter r hr
  rw [Table.get?, Table.get?, ← List.head?_filter, ← List.head?_filter, hfilter]

end RowChange

namespace Db

variable [Entropy]

/-! ### Tags, paths and capture -/

/-- The triggers of a child table, by the record of the row before and after the change. -/
def childChanged (db : Db) (before after : Option String) : Db :=
  match before, after with
  | none, none => db
  | none, some b => db.childTouched b b
  | some a, none => db.childTouched a a
  | some a, some b => db.childTouched a b

/-- One row of `memory_tag`. -/
def changeTag (db : Db) (c : RowChange MemoryTag (String × String)) : Fallible Db := do
  ensure ((c.after db.tags).all MemoryTag.admitted = true) "CHECK constraint failed: memory_tag"
  let tags ← require (c.change? db.tags) "UNIQUE constraint failed: memory_tag"
  .ok ({ db with tags := tags }.childChanged ((c.before db.tags).map MemoryTag.recordId)
    ((c.after db.tags).map MemoryTag.recordId))

/-- One row of `memory_path`. -/
def changePath (db : Db) (c : RowChange MemoryPath String) : Fallible Db := do
  ensure ((c.after db.paths).all MemoryPath.admitted = true) "CHECK constraint failed: memory_path"
  let paths ← require (c.change? db.paths) "UNIQUE constraint failed: memory_path.id"
  .ok ({ db with paths := paths }.childChanged ((c.before db.paths).map MemoryPath.recordId)
    ((c.after db.paths).map MemoryPath.recordId))

/-- One row of `memory_capture`. -/
def changeCapture (db : Db) (c : RowChange MemoryCapture String) : Fallible Db := do
  let captures ← require (c.change? db.captures) "UNIQUE constraint failed: memory_capture"
  .ok ({ db with captures := captures }.childChanged ((c.before db.captures).map MemoryCapture.recordId)
    ((c.after db.captures).map MemoryCapture.recordId))

/-! ### Lifecycle rows and relations -/

/-- One row of `private_lifecycle_state`. Columns an update does not name keep their values. -/
def changeLifecycle (db : Db) (watched : Bool) :
    RowChange PrivateLifecycleState String → Fallible Db
  | .insert s => db.insertLifecycle s
  | .update id s =>
    match db.lifecycle.get? id with
    | none => .ok db
    | some old => do
      let s := if watched then s else { s with toLifecycleFacts := old.toLifecycleFacts }
      ensure (s.admitted = true) "CHECK constraint failed: private_lifecycle_state"
      let lifecycle ← require (db.lifecycle.replace? id s)
        "UNIQUE constraint failed: private_lifecycle_state.record_id"
      let db := { db with lifecycle := lifecycle }
      .ok (if watched then (db.rotateVersion s.recordId).touch else db)
  | .delete id => .ok (db.deleteLifecycle id)

/-- One row of `private_lifecycle_relation`; `private_lifecycle_relation_bu` refuses an update. -/
def changeRelation (db : Db) : RowChange PrivateLifecycleRelation String → Fallible Db
  | .insert r => db.insertRelation r
  | .update id _ =>
    match db.relations.get? id with
    | none => .ok db
    | some _ => bail "private lifecycle relations are immutable"
  | .delete id =>
    match db.relations.get? id with
    | none => .ok db
    | some r => .ok (db.deleteRelation r)

/-! ### Records -/

/-- The conflict rows of a deleted record: each has a trigger that draws the mirror revision. -/
def cascadeConflicts (db : Db) (id : String) : Db :=
  let edges := db.conflictEdges.rows.filter
    fun e => e.leftRecordId = id || e.rightRecordId = id
  let members := db.conflictMembers.rows.filter fun m => m.recordId = id
  rotateRevision^[edges.length + members.length]
    { db with
      conflictEdges := db.conflictEdges.deleteWhere
        fun e => e.leftRecordId = id || e.rightRecordId = id
      conflictMembers := db.conflictMembers.deleteWhere fun m => m.recordId = id }

/-- The relations of a deleted record: those it is the related record of, then those it is the
subject of. -/
def cascadeRelations (db : Db) (id : String) : Db :=
  let related := db.relations.rows.filter fun r => r.relatedRecordId = id
  let subject := db.relations.rows.filter fun r => r.subjectRecordId = id
  (related ++ subject).foldl deleteRelation db

/-- The capture, tags and paths of a deleted record. Their triggers look for a private record
under `id`, and the record is gone. -/
def cascadeChildren (db : Db) (id : String) : Db :=
  { db with
    captures := db.captures.erase id
    tags := db.tags.deleteWhere fun t => t.recordId = id
    paths := db.paths.deleteWhere fun p => p.recordId = id }

/-- `ON DELETE CASCADE` of the tables that refer to a record. -/
def cascadeRecord (db : Db) (id : String) : Db :=
  ((((db.cascadeConflicts id).cascadeRelations id).deleteLifecycle id).cascadeChildren id)

/-- The row of a record removed, and nothing else yet. -/
def eraseRecord (db : Db) (id : String) : Db := { db with records := db.records.erase id }

/-- `DELETE` of one record: the row, the cascade, then `runtime_mirror_memory_record_ad`. -/
def deleteRecord (db : Db) (old : MemoryRecord) : Db :=
  let deleted := (db.eraseRecord old.id).cascadeRecord old.id
  if old.destination.isPrivate then deleted.touch else deleted

/-- One row of `memory_record`. -/
def changeRecord (db : Db) : RowChange MemoryRecord String → Fallible Db
  | .insert r => do
    ensure (r.admitted = true) "CHECK constraint failed: memory_record"
    let records ← require (db.records.insert? r) "UNIQUE constraint failed: memory_record.id"
    { db with records := records }.recordInserted r
  | .update id new =>
    match db.records.get? id with
    | none => .ok db
    | some old => do
      ensure (new.admitted = true) "CHECK constraint failed: memory_record"
      let records ← require (db.records.replace? id new)
        "UNIQUE constraint failed: memory_record.id"
      { db with records := records }.recordUpdated old new
  | .delete id =>
    match db.records.get? id with
    | none => .ok db
    | some old => .ok (db.deleteRecord old)

/-! ### Statements -/

/-- Every reference to a record of the six tables finds it. -/
structure ReferencesHold (c : Contents) (lifecycle : Table PrivateLifecycleState.recordId) :
    Prop where
  tags : ∀ t ∈ c.tags.rows, c.hasRecord t.recordId = true
  paths : ∀ p ∈ c.paths.rows, c.hasRecord p.recordId = true
  captures : ∀ p ∈ c.captures.rows, c.hasRecord p.recordId = true
  lifecycle : ∀ s ∈ lifecycle.rows, c.hasRecord s.recordId = true
  relations : ∀ r ∈ c.relations.rows,
    c.hasRecord r.subjectRecordId = true ∧ c.hasRecord r.relatedRecordId = true
  records : ∀ r ∈ c.records.rows, c.supersedesHolds r = true

instance (c : Contents) (lifecycle : Table PrivateLifecycleState.recordId) :
    Decidable (ReferencesHold c lifecycle) :=
  decidable_of_iff
    ((∀ t ∈ c.tags.rows, c.hasRecord t.recordId = true) ∧
      (∀ p ∈ c.paths.rows, c.hasRecord p.recordId = true) ∧
      (∀ p ∈ c.captures.rows, c.hasRecord p.recordId = true) ∧
      (∀ s ∈ lifecycle.rows, c.hasRecord s.recordId = true) ∧
      (∀ r ∈ c.relations.rows,
        c.hasRecord r.subjectRecordId = true ∧ c.hasRecord r.relatedRecordId = true) ∧
      ∀ r ∈ c.records.rows, c.supersedesHolds r = true)
    ⟨fun ⟨a, b, c, d, e, f⟩ => ⟨a, b, c, d, e, f⟩,
      fun ⟨a, b, c, d, e, f⟩ => ⟨a, b, c, d, e, f⟩⟩

/-- The rows of a statement, one after another. -/
def changeRows (db : Db) : Statement → Fallible Db
  | .records changes => runAll changeRecord db changes
  | .tags changes => runAll changeTag db changes
  | .paths changes => runAll changePath db changes
  | .captures changes => runAll changeCapture db changes
  | .lifecycle watched changes => runAll (changeLifecycle · watched) db changes
  | .relations changes => runAll changeRelation db changes

/-- A whole statement. -/
def execute (db : Db) (st : Statement) : Fallible Db := do
  let db ← db.changeRows st
  ensure (ReferencesHold db.toContents db.lifecycle) "FOREIGN KEY constraint failed"
  .ok db

/-- Statements in a row; a refused one leaves the database as it was. -/
def executeAll (db : Db) (statements : List Statement) : Db :=
  statements.foldl (fun db st => (db.execute st).toOption.getD db) db

/-! ### The operations of the program are such rows -/

theorem changeRecord_of_insertRecord {db db' : Db} {r : MemoryRecord}
    (h : db.insertRecord r = .ok db') : db.changeRecord (.insert r) = .ok db' := by
  simp only [insertRecord, bind_eq_ok, ensure_eq_ok, exists_const, require_eq_ok,
    Except.ok.injEq] at h
  obtain ⟨hadmitted, records, hrecords, db₁, hinserted, -, rfl⟩ := h
  simp only [changeRecord, ensure_of hadmitted, hrecords, require_some, ok_bind]
  exact hinserted

theorem changeRecord_of_updateRecord {db db' : Db} {old new : MemoryRecord}
    (hold : db.records.get? new.id = some old) (h : db.updateRecord old new = .ok db') :
    db.changeRecord (.update new.id new) = .ok db' := by
  simp only [updateRecord, bind_eq_ok, ensure_eq_ok, exists_const, Except.ok.injEq] at h
  obtain ⟨hadmitted, db₁, hupdated, -, rfl⟩ := h
  simp only [changeRecord, hold, ensure_of hadmitted, Table.replace?_same, require_some, ok_bind]
  exact hupdated

theorem changeTag_of_insertTag {db db' : Db} {t : MemoryTag} (h : db.insertTag t = .ok db') :
    db.changeTag (.insert t) = .ok db' := by
  simp only [insertTag, bind_eq_ok, ensure_eq_ok, exists_const, require_eq_ok,
    Except.ok.injEq] at h
  obtain ⟨hadmitted, tags, htags, -, rfl⟩ := h
  simp only [changeTag, RowChange.after, RowChange.before, RowChange.change?, Option.all_some,
    hadmitted, htags, require_some, ok_bind, Option.map_none, Option.map_some, childChanged]
  rfl

theorem changePath_of_insertPath {db db' : Db} {p : MemoryPath} (h : db.insertPath p = .ok db') :
    db.changePath (.insert p) = .ok db' := by
  simp only [insertPath, bind_eq_ok, ensure_eq_ok, exists_const, require_eq_ok,
    Except.ok.injEq] at h
  obtain ⟨hadmitted, paths, hpaths, -, rfl⟩ := h
  simp only [changePath, RowChange.after, RowChange.before, RowChange.change?, Option.all_some,
    hadmitted, hpaths, require_some, ok_bind, Option.map_none, Option.map_some, childChanged]
  rfl

theorem changeCapture_of_insertCapture {db db' : Db} {c : MemoryCapture}
    (h : db.insertCapture c = .ok db') : db.changeCapture (.insert c) = .ok db' := by
  simp only [insertCapture, bind_eq_ok, ensure_eq_ok, exists_const, require_eq_ok,
    Except.ok.injEq] at h
  obtain ⟨captures, hcaptures, -, rfl⟩ := h
  simp only [changeCapture, RowChange.after, RowChange.before, RowChange.change?, hcaptures,
    require_some, ok_bind, Option.map_none, Option.map_some, childChanged]

theorem changeLifecycle_of_updateLifecycleFacts {db db' : Db} {s old : PrivateLifecycleState}
    (hold : db.lifecycle.get? s.recordId = some old) (h : db.updateLifecycleFacts s = .ok db') :
    db.changeLifecycle true (.update s.recordId s) = .ok db' := by
  obtain ⟨hadmitted, h⟩ := check_bind_eq_ok.1 h
  cases h
  simp only [changeLifecycle, hold, if_true, hadmitted, Table.replace?_same, require_some, ok_bind]

end Db
end Memzoi
