/-
# What a refresh leaves in the index

Source: `service/shared_runtime.rs` (`refresh_index_mirrors_locked_at`),
`replace_mirror` of `service/private_maintenance.rs`.

A refresh that does not stop at the first look removes the private rows of the
index, writes those of the snapshots that were read, and replaces proposals,
maintenance rows, generation and revision. Each part leaves the tables of the
others alone, so what is read of the index afterwards is what was read of the
shared database (`refreshIndexMirrors_ok`). What belongs to the repository in the
index stays.
-/

import Memzoi.Mirror
import Memzoi.PreservationRules
import Memzoi.VersionLocks

namespace Memzoi

open Fallible Preservation

namespace SharedRuntime

open RuntimeRecordSnapshot (captureRows tagRows pathRows WellFormed)
open PrivateLifecycle (capture? recordsForPreservation)

/-! ### Deleting the private records -/

/-- The rows of the records of `ids` are gone, with what refers to them. -/
structure Removed (ids : List String) (db db' : Db) : Prop where
  records : db'.records.rows = db.records.rows.filter fun r => r.id ∉ ids
  captures : db'.captures.rows = db.captures.rows.filter fun c => c.recordId ∉ ids
  tags : db'.tags.rows = db.tags.rows.filter fun t => t.recordId ∉ ids
  paths : db'.paths.rows = db.paths.rows.filter fun p => p.recordId ∉ ids
  relations : db'.relations.rows = db.relations.rows.filter
    fun r => r.relatedRecordId ∉ ids ∧ r.subjectRecordId ∉ ids
  events : db'.events = db.events
  proposals : db'.proposals = db.proposals

theorem filter_filter_notMem {α : Type} {owner : α → String} {rows : List α} {ids ids' : List String} :
    (rows.filter fun a => owner a ∉ ids).filter (fun a => owner a ∉ ids') =
      rows.filter fun a => owner a ∉ ids ++ ids' := by
  rw [List.filter_filter]
  refine List.filter_congr fun a _ => ?_
  rw [← Bool.decide_and]
  refine decide_eq_decide.2 ?_
  rw [List.mem_append, not_or, and_comm]

namespace Removed

variable {ids ids' : List String} {db db₁ db' : Db}

theorem refl (db : Db) : Removed [] db db :=
  ⟨by simp, by simp, by simp, by simp, by simp, rfl, rfl⟩

theorem trans (h : Removed ids db db₁) (h' : Removed ids' db₁ db') : Removed (ids ++ ids') db db' where
  records := by rw [h'.records, h.records, filter_filter_notMem]
  captures := by rw [h'.captures, h.captures, filter_filter_notMem]
  tags := by rw [h'.tags, h.tags, filter_filter_notMem]
  paths := by rw [h'.paths, h.paths, filter_filter_notMem]
  relations := by
    rw [h'.relations, h.relations, List.filter_filter]
    refine List.filter_congr fun r _ => ?_
    rw [← Bool.decide_and]
    refine decide_eq_decide.2 ?_
    rw [List.mem_append, List.mem_append, not_or, not_or]
    tauto
  events := h'.events.trans h.events
  proposals := h'.proposals.trans h.proposals

end Removed

theorem foldl_erase_rows {ρ κ : Type} [DecidableEq κ] {key : ρ → κ} (t : Table key) (rs : List ρ) :
    (rs.foldl (fun t r => t.erase (key r)) t).rows = t.rows.filter fun a => key a ∉ rs.map key := by
  induction rs generalizing t with
  | nil => simp
  | cons r rs ih =>
      rw [List.foldl_cons, ih, Table.erase]
      show (t.rows.filter _).filter _ = _
      rw [List.filter_filter]
      refine List.filter_congr fun a _ => ?_
      simp only [List.map_cons, List.mem_cons, not_or, Bool.decide_and]
      rw [Bool.and_comm]
      simp

/-- An id among the deleted ones is that of a private record. -/
theorem mem_privateIds {db : Db} {id : String} :
    id ∈ (db.records.rows.filter (·.destination.isPrivate)).map (·.id) ↔ db.hasPrivate id = true := by
  rw [List.mem_map, Contents.hasPrivate]
  constructor
  · rintro ⟨r, hr, rfl⟩
    obtain ⟨hr, hprivate⟩ := List.mem_filter.1 hr
    rw [Table.get?_of_mem hr]
    exact hprivate
  · intro h
    cases hr : db.records.get? id with
    | none =>
        rw [hr] at h
        cases h
    | some r =>
        rw [hr] at h
        exact ⟨r, List.mem_filter.2 ⟨Table.mem_of_get? hr, h⟩, Table.key_of_get? hr⟩

section Delete

variable [Entropy] {db : Db}

theorem toContents_deleteRelations (rs : List PrivateLifecycleRelation) (db : Db) :
    (rs.foldl Db.deleteRelation db).toContents = { db.toContents with
      relations := rs.foldl (fun t r => t.erase r.id) db.relations } := by
  induction rs generalizing db with
  | nil => rfl
  | cons r rs ih =>
      rw [List.foldl_cons, ih, Db.toContents_deleteRelation]
      rfl

theorem cascadeRelations_rows (db : Db) (id : String) :
    (db.cascadeRelations id).relations.rows = db.relations.rows.filter
      (fun r => r.relatedRecordId ∉ [id] ∧ r.subjectRecordId ∉ [id]) ∧
    (db.cascadeRelations id).toContents = { db.toContents with
      relations := (db.cascadeRelations id).relations } := by
  have hcontents := toContents_deleteRelations
    (db.relations.rows.filter (fun r => r.relatedRecordId = id) ++
      db.relations.rows.filter fun r => r.subjectRecordId = id) db
  refine ⟨?_, ?_⟩
  · rw [Db.cascadeRelations, hcontents]
    refine (foldl_erase_rows db.relations _).trans (List.filter_congr fun r hr => ?_)
    refine decide_eq_decide.2 ?_
    simp only [List.mem_map, List.mem_append, List.mem_filter, decide_eq_true_eq,
      List.mem_singleton]
    constructor
    · intro hnone
      exact ⟨fun h => hnone ⟨r, Or.inl ⟨hr, h⟩, rfl⟩, fun h => hnone ⟨r, Or.inr ⟨hr, h⟩, rfl⟩⟩
    · rintro ⟨hrelated, hsubject⟩ ⟨other, hother, hid⟩
      rcases hother with ⟨hother, h⟩ | ⟨hother, h⟩
      · exact hrelated (Table.eq_of_key hother hr hid ▸ h)
      · exact hsubject (Table.eq_of_key hother hr hid ▸ h)
  · rw [Db.cascadeRelations, hcontents]

theorem cascadeConflicts_rest (db : Db) (id : String) : (db.cascadeConflicts id).toContents =
    { db.toContents with
      conflictEdges := (db.cascadeConflicts id).conflictEdges
      conflictMembers := (db.cascadeConflicts id).conflictMembers } := by
  simp only [Db.cascadeConflicts]
  rw [(Db.iterate_rotateRevision _ _).1]

theorem toContents_deleteLifecycle (db : Db) (id : String) :
    (db.deleteLifecycle id).toContents = db.toContents := by
  unfold Db.deleteLifecycle
  split <;> rfl

/-- A deleted record takes with it what refers to it. -/
theorem removed_deleteRecord (db : Db) (old : MemoryRecord) : Removed [old.id] db (db.deleteRecord old) := by
  have hconflicts := cascadeConflicts_rest (db.eraseRecord old.id) old.id
  obtain ⟨hrows, hrelations⟩ := cascadeRelations_rows
    ((db.eraseRecord old.id).cascadeConflicts old.id) old.id
  generalize hcut : ((db.eraseRecord old.id).cascadeConflicts old.id).cascadeRelations old.id = cut
    at hrows hrelations
  rw [hconflicts] at hrows hrelations
  have hall : (db.deleteRecord old).toContents = { cut.toContents with
      captures := cut.captures.erase old.id
      tags := cut.tags.deleteWhere fun t => t.recordId = old.id
      paths := cut.paths.deleteWhere fun p => p.recordId = old.id } := by
    have hchildren : ((cut.deleteLifecycle old.id).cascadeChildren old.id).toContents =
        { cut.toContents with
          captures := cut.captures.erase old.id
          tags := cut.tags.deleteWhere fun t => t.recordId = old.id
          paths := cut.paths.deleteWhere fun p => p.recordId = old.id } := by
      rw [← toContents_deleteLifecycle cut old.id]
      rfl
    rw [← hchildren, ← hcut, Db.deleteRecord]
    split <;> rfl
  have hsingle : ∀ {α : Type} (owner : α → String) (rows : List α),
      (rows.filter fun a => !decide (owner a = old.id)) = rows.filter fun a => owner a ∉ [old.id] := by
    intro α owner rows
    refine List.filter_congr fun a _ => ?_
    simp
  rw [hrelations] at hall
  refine ⟨?_, ?_, ?_, ?_, ?_, ?_, ?_⟩
  · rw [hall]
    exact hsingle MemoryRecord.id db.records.rows
  · rw [hall]
    exact hsingle MemoryCapture.recordId db.captures.rows
  · rw [hall]
    exact hsingle MemoryTag.recordId db.tags.rows
  · rw [hall]
    exact hsingle MemoryPath.recordId db.paths.rows
  · rw [hall]
    exact hrows
  · rw [hall]
    rfl
  · rw [hall]
    rfl

theorem removed_deleteRecords (rs : List MemoryRecord) (db : Db) :
    Removed (rs.map (·.id)) db (rs.foldl Db.deleteRecord db) := by
  induction rs generalizing db with
  | nil => exact Removed.refl db
  | cons r rs ih => exact (removed_deleteRecord db r).trans (ih _)

theorem removed_deletePrivateRecords (db : Db) :
    Removed ((db.records.rows.filter (·.destination.isPrivate)).map (·.id)) db
      (deletePrivateRecords db) := removed_deleteRecords _ db

/-- The records that stay are those of the repository. -/
theorem deletePrivateRecords_records (db : Db) : (deletePrivateRecords db).records.rows =
    db.records.rows.filter fun r => !r.destination.isPrivate := by
  rw [(removed_deletePrivateRecords db).records]
  refine List.filter_congr fun r hr => ?_
  have hiff : r.id ∉ (db.records.rows.filter (·.destination.isPrivate)).map (·.id) ↔
      ¬ r.destination.isPrivate = true := by
    rw [mem_privateIds, Contents.hasPrivate, Table.get?_of_mem hr]
  rw [Bool.eq_iff_iff, decide_eq_true_eq, hiff]
  simp

/-- What stays belongs to records of the repository, so an id that none of them has is fresh. -/
theorem fresh_deletePrivateRecords {id : String}
    (hreferences : Db.ReferencesHold db.toContents db.lifecycle)
    (hid : id ∉ indexedNonRuntimeRecordIds db) : Fresh (deletePrivateRecords db) id := by
  have hremoved := removed_deletePrivateRecords db
  have hgone : ∀ owner, db.hasRecord owner = true →
      owner ∉ (db.records.rows.filter (·.destination.isPrivate)).map (·.id) → owner ≠ id := by
    rintro owner howner hkept rfl
    rw [mem_privateIds] at hkept
    obtain ⟨r, hr⟩ := Option.isSome_iff_exists.1 howner
    obtain rfl := Table.key_of_get? hr
    refine hid (List.mem_map.2 ⟨r, List.mem_filter.2 ⟨Table.mem_of_get? hr, ?_⟩, rfl⟩)
    simpa [Contents.hasPrivate, hr] using hkept
  refine ⟨Table.get?_eq_none.2 fun r hr => ?_, fun c hc => ?_, fun t ht => ?_, fun p hp => ?_,
    fun r hr => ?_⟩
  · rw [hremoved.records] at hr
    obtain ⟨hr, hkept⟩ := List.mem_filter.1 hr
    refine hgone r.id ?_ (of_decide_eq_true hkept)
    rw [Contents.hasRecord, Table.get?_of_mem hr]
    rfl
  · rw [hremoved.captures] at hc
    obtain ⟨hc, hkept⟩ := List.mem_filter.1 hc
    exact hgone c.recordId (hreferences.captures c hc) (of_decide_eq_true hkept)
  · rw [hremoved.tags] at ht
    obtain ⟨ht, hkept⟩ := List.mem_filter.1 ht
    exact hgone t.recordId (hreferences.tags t ht) (of_decide_eq_true hkept)
  · rw [hremoved.paths] at hp
    obtain ⟨hp, hkept⟩ := List.mem_filter.1 hp
    exact hgone p.recordId (hreferences.paths p hp) (of_decide_eq_true hkept)
  · rw [hremoved.relations] at hr
    obtain ⟨hr, hkept⟩ := List.mem_filter.1 hr
    exact hgone r.subjectRecordId (hreferences.relations r hr).1 (of_decide_eq_true hkept).2

end Delete

/-! ### What the other parts leave alone -/

/-- The tables and counters that the statements on maintenance rows do not touch. -/
structure Outside where
  records : Table MemoryRecord.id
  captures : Table MemoryCapture.recordId
  tags : Table MemoryTag.key
  paths : Table MemoryPath.id
  relations : Table PrivateLifecycleRelation.id
  lifecycle : Table PrivateLifecycleState.recordId
  events : Table MemoryEvent.id
  proposals : Table MemoryProposal.id
  generation : Nat

def outside (db : Db) : Outside :=
  ⟨db.records, db.captures, db.tags, db.paths, db.relations, db.lifecycle, db.events, db.proposals,
    db.generation⟩

/-- The snapshots are read from six of these tables. -/
theorem runtimeRecordSnapshots_congr {db db' : Db} (hrecords : db'.records = db.records)
    (hcaptures : db'.captures = db.captures) (htags : db'.tags = db.tags)
    (hpaths : db'.paths = db.paths) (hrelations : db'.relations = db.relations)
    (hlifecycle : db'.lifecycle = db.lifecycle) :
    runtimeRecordSnapshots db' = runtimeRecordSnapshots db := by
  simp only [runtimeRecordSnapshots, recordsForPreservation, hrecords]
  refine mapAll_congr fun record _ => ?_
  simp only [runtimeRecordSnapshot, Db.requireState, capture?, recordTags, runtimeRecordPaths,
    relationsForSubject, hcaptures, htags, hpaths, hrelations, hlifecycle]

/-- A table that every step of a run appends one row to, and what the steps leave alone. -/
theorem runAll_rows {ρ β : Type} {step : Db → ρ → Fallible Db} (rows : Db → List ρ) (frame : Db → β)
    (hstep : ∀ db r db', step db r = .ok db' → rows db' = rows db ++ [r] ∧ frame db' = frame db)
    {rs : List ρ} {db db' : Db} (h : runAll step db rs = .ok db') :
    rows db' = rows db ++ rs ∧ frame db' = frame db := by
  induction rs generalizing db with
  | nil =>
      obtain rfl := Except.ok.inj h
      exact ⟨(List.append_nil _).symm, rfl⟩
  | cons r rs ih =>
      obtain ⟨mid, hr, hrest⟩ := runAll_cons.1 h
      obtain ⟨hrows, hframe⟩ := hstep db r mid hr
      obtain ⟨hrows', hframe'⟩ := ih hrest
      exact ⟨by rw [hrows', hrows, List.append_assoc]; rfl, hframe'.trans hframe⟩

section Parts

variable {db db' : Db}

/-! ### Events -/

theorem insertEventExact_ok {event : MemoryEvent} (h : insertEventExact db event = .ok db') :
    outside db' = { outside db with events := db'.events } ∧
      db'.events.get? event.id = some event ∧
      ∀ k e, db.events.get? k = some e → db'.events.get? k = some e := by
  obtain ⟨hfound, h⟩ := check_bind_eq_ok.1 h
  rw [ensure_eq_ok] at hfound
  obtain rfl := Except.ok.inj h
  cases hrow : db.events.insert? event with
  | none =>
      rw [hrow] at hfound
      exact ⟨rfl, hfound, fun _ _ hk => hk⟩
  | some events =>
      rw [hrow] at hfound
      refine ⟨rfl, hfound, fun k e hk => ?_⟩
      show events.get? k = some e
      rw [Table.get?_insert? hrow]
      split
      · rename_i heq
        rw [← heq, Table.insert?_fresh hrow] at hk
        cases hk
      · exact hk

theorem insertEventsExact_ok {events : List MemoryEvent} (h : insertEventsExact db events = .ok db') :
    outside db' = { outside db with events := db'.events } ∧
      (∀ e ∈ events, db'.events.get? e.id = some e) ∧
      ∀ k e, db.events.get? k = some e → db'.events.get? k = some e := by
  induction events generalizing db with
  | nil =>
      obtain rfl := Except.ok.inj h
      exact ⟨rfl, fun e he => absurd he (by simp), fun _ _ hk => hk⟩
  | cons event events ih =>
      obtain ⟨mid, hevent, hrest⟩ := runAll_cons.1 h
      obtain ⟨houtside, hfound, hkept⟩ := insertEventExact_ok hevent
      obtain ⟨houtside', hall, hkept'⟩ := ih hrest
      refine ⟨by rw [houtside', houtside], fun e he => ?_, fun k e hk => hkept' k e (hkept k e hk)⟩
      rcases List.mem_cons.1 he with rfl | he
      · exact hkept' _ _ hfound
      · exact hall e he

variable [Entropy]

/-! ### Proposals -/

theorem insertProposal_ok {proposal : MemoryProposal} (h : insertProposal db proposal = .ok db') :
    db'.proposals.rows = db.proposals.rows ++ [proposal] ∧
      outside db' = { outside db with proposals := db'.proposals } := by
  obtain ⟨proposals, hrow, h⟩ := bind_eq_ok.1 h
  obtain rfl := Except.ok.inj h
  have hrows : proposals.rows = db.proposals.rows ++ [proposal] :=
    Table.insert?_rows (require_eq_ok.1 hrow)
  split
  · exact ⟨hrows, rfl⟩
  · rename_i hnot
    exact absurd (Or.inr rfl) hnot

theorem replaceProposals_ok {proposals : List MemoryProposal}
    (h : replaceProposals db proposals = .ok db') :
    db'.proposals.rows = proposals ∧ outside db' = { outside db with proposals := db'.proposals } := by
  have hempty : (deleteProposals db).proposals.rows = [] ∧
      outside (deleteProposals db) = { outside db with proposals := .empty } := by
    obtain ⟨hcontents, hlifecycle, -, hgeneration, -⟩ := Db.iterate_rotateRevision
      db.proposals.rows.length { db with proposals := .empty }
    simp only [deleteProposals, outside, hcontents, hlifecycle, hgeneration]
    exact ⟨rfl, trivial⟩
  obtain ⟨hrows, hframe⟩ := runAll_rows (fun db => db.proposals.rows)
    (fun db => { outside db with proposals := .empty })
    (fun db r db' hr => by
      obtain ⟨hrows, houtside⟩ := insertProposal_ok hr
      exact ⟨hrows, by simp only [houtside]⟩) h
  refine ⟨?_, ?_⟩
  · rw [hrows, hempty.1, List.nil_append]
  · simp only [hempty.2] at hframe
    simpa [outside] using hframe

/-! ### Maintenance rows -/

theorem insertMaintenanceGrant_ok {g : PrivateMaintenanceGrant}
    (h : db.insertMaintenanceGrant g = .ok db') :
    db'.grants.rows = db.grants.rows ++ [g] ∧ outside db' = outside db ∧
      db'.conflictSets = db.conflictSets ∧ db'.conflictMembers = db.conflictMembers ∧
      db'.conflictEdges = db.conflictEdges := by
  obtain ⟨-, h⟩ := check_bind_eq_ok.1 h
  obtain ⟨-, h⟩ := check_bind_eq_ok.1 h
  obtain ⟨-, h⟩ := check_bind_eq_ok.1 h
  obtain ⟨grants, hrow, h⟩ := bind_eq_ok.1 h
  obtain rfl := Except.ok.inj h
  have hrows := Table.insert?_rows (require_eq_ok.1 hrow)
  split <;> exact ⟨hrows, rfl, rfl, rfl, rfl⟩

theorem insertConflictSet_ok {s : PrivateConflictSet} (h : db.insertConflictSet s = .ok db') :
    db'.conflictSets.rows = db.conflictSets.rows ++ [s] ∧ outside db' = outside db ∧
      db'.grants = db.grants ∧ db'.conflictMembers = db.conflictMembers ∧
      db'.conflictEdges = db.conflictEdges := by
  obtain ⟨-, h⟩ := check_bind_eq_ok.1 h
  obtain ⟨sets, hrow, h⟩ := bind_eq_ok.1 h
  obtain rfl := Except.ok.inj h
  exact ⟨Table.insert?_rows (require_eq_ok.1 hrow), rfl, rfl, rfl, rfl⟩

theorem insertConflictMember_ok {m : PrivateConflictMember}
    (h : db.insertConflictMember m = .ok db') :
    db'.conflictMembers.rows = db.conflictMembers.rows ++ [m] ∧ outside db' = outside db ∧
      db'.grants = db.grants ∧ db'.conflictSets = db.conflictSets ∧
      db'.conflictEdges = db.conflictEdges := by
  obtain ⟨-, h⟩ := check_bind_eq_ok.1 h
  obtain ⟨members, hrow, h⟩ := bind_eq_ok.1 h
  obtain ⟨-, h⟩ := check_bind_eq_ok.1 h
  obtain rfl := Except.ok.inj h
  exact ⟨Table.insert?_rows (require_eq_ok.1 hrow), rfl, rfl, rfl, rfl⟩

theorem insertConflictEdge_ok {e : PrivateConflictEdge} (h : db.insertConflictEdge e = .ok db') :
    db'.conflictEdges.rows = db.conflictEdges.rows ++ [e] ∧ outside db' = outside db ∧
      db'.grants = db.grants ∧ db'.conflictSets = db.conflictSets ∧
      db'.conflictMembers = db.conflictMembers := by
  obtain ⟨-, h⟩ := check_bind_eq_ok.1 h
  obtain ⟨edges, hrow, h⟩ := bind_eq_ok.1 h
  obtain ⟨-, h⟩ := check_bind_eq_ok.1 h
  obtain rfl := Except.ok.inj h
  exact ⟨Table.insert?_rows (require_eq_ok.1 hrow), rfl, rfl, rfl, rfl⟩

/-- The maintenance rows are those of the snapshot. -/
theorem replaceMirror_ok {snapshot : MirrorSnapshot} (h : replaceMirror db snapshot = .ok db') :
    outside db' = outside db ∧ db'.grants.rows = snapshot.grants ∧
      db'.conflictSets.rows = snapshot.sets ∧ db'.conflictMembers.rows = snapshot.members ∧
      db'.conflictEdges.rows = snapshot.edges ∧ db'.projection = snapshot.projection := by
  obtain ⟨db₁, hgrants, h⟩ := bind_eq_ok.1 h
  obtain ⟨db₂, hsets, h⟩ := bind_eq_ok.1 h
  obtain ⟨db₃, hmembers, h⟩ := bind_eq_ok.1 h
  obtain ⟨db₄, hedges, h⟩ := bind_eq_ok.1 h
  obtain rfl := Except.ok.inj h
  obtain ⟨hcontents, hlifecycle, -, hgeneration, -⟩ := Db.iterate_rotateRevision
    db.deleteConflictSets.grants.rows.length { db.deleteConflictSets with grants := .empty }
  have hstart : outside db.deleteConflictSets.deleteMaintenanceGrants = outside db ∧
      db.deleteConflictSets.deleteMaintenanceGrants.grants.rows = [] ∧
      db.deleteConflictSets.deleteMaintenanceGrants.conflictSets.rows = [] ∧
      db.deleteConflictSets.deleteMaintenanceGrants.conflictMembers.rows = [] ∧
      db.deleteConflictSets.deleteMaintenanceGrants.conflictEdges.rows = [] := by
    simp only [Db.deleteMaintenanceGrants, outside, hcontents, hlifecycle, hgeneration]
    exact ⟨rfl, rfl, rfl, rfl, rfl⟩
  obtain ⟨hrows₁, hframe₁⟩ := runAll_rows (fun db => db.grants.rows)
    (fun db => (outside db, db.conflictSets, db.conflictMembers, db.conflictEdges))
    (fun db r db' hr => by
      obtain ⟨hrows, h1, h2, h3, h4⟩ := insertMaintenanceGrant_ok hr
      exact ⟨hrows, by rw [h1, h2, h3, h4]⟩) hgrants
  obtain ⟨hrows₂, hframe₂⟩ := runAll_rows (fun db => db.conflictSets.rows)
    (fun db => (outside db, db.grants, db.conflictMembers, db.conflictEdges))
    (fun db r db' hr => by
      obtain ⟨hrows, h1, h2, h3, h4⟩ := insertConflictSet_ok hr
      exact ⟨hrows, by rw [h1, h2, h3, h4]⟩) hsets
  obtain ⟨hrows₃, hframe₃⟩ := runAll_rows (fun db => db.conflictMembers.rows)
    (fun db => (outside db, db.grants, db.conflictSets, db.conflictEdges))
    (fun db r db' hr => by
      obtain ⟨hrows, h1, h2, h3, h4⟩ := insertConflictMember_ok hr
      exact ⟨hrows, by rw [h1, h2, h3, h4]⟩) hmembers
  obtain ⟨hrows₄, hframe₄⟩ := runAll_rows (fun db => db.conflictEdges.rows)
    (fun db => (outside db, db.grants, db.conflictSets, db.conflictMembers))
    (fun db r db' hr => by
      obtain ⟨hrows, h1, h2, h3, h4⟩ := insertConflictEdge_ok hr
      exact ⟨hrows, by rw [h1, h2, h3, h4]⟩) hedges
  simp only [Prod.mk.injEq] at hframe₁ hframe₂ hframe₃ hframe₄
  obtain ⟨houtside, hgrants₀, hsets₀, hmembers₀, hedges₀⟩ := hstart
  refine ⟨?_, ?_, ?_, ?_, ?_, rfl⟩
  · show outside db₄ = _
    rw [hframe₄.1, hframe₃.1, hframe₂.1, hframe₁.1, houtside]
  · show db₄.grants.rows = _
    rw [hframe₄.2.1, hframe₃.2.1, hframe₂.2.1, hrows₁, hgrants₀, List.nil_append]
  · show db₄.conflictSets.rows = _
    rw [hframe₄.2.2.1, hframe₃.2.2.1, hrows₂, hframe₁.2.1, hsets₀, List.nil_append]
  · show db₄.conflictMembers.rows = _
    rw [hframe₄.2.2.2, hrows₃, hframe₂.2.2.1, hframe₁.2.2.1, hmembers₀, List.nil_append]
  · show db₄.conflictEdges.rows = _
    rw [hrows₄, hframe₃.2.2.2, hframe₂.2.2.2, hframe₁.2.2.2, hedges₀, List.nil_append]

end Parts

/-! ### Records written over those of the index -/

/-- Newest first, then by id. -/
def preservationKey (r : MemoryRecord) : Stringᵒᵈ ×ₗ String :=
  toLex (OrderDual.toDual r.updatedAt, r.id)

theorem preservationOrder_iff (a b : MemoryRecord) :
    (b.updatedAt < a.updatedAt ∨ (a.updatedAt = b.updatedAt ∧ a.id ≤ b.id)) ↔
      preservationKey a ≤ preservationKey b := by
  rw [preservationKey, preservationKey, Prod.Lex.le_iff]
  simp

theorem recordsForPreservation_sorted (db : Db) : (recordsForPreservation db).Pairwise
    fun a b => b.updatedAt < a.updatedAt ∨ (a.updatedAt = b.updatedAt ∧ a.id ≤ b.id) := by
  have htotal : Std.Total (α := MemoryRecord)
      fun a b => b.updatedAt < a.updatedAt ∨ (a.updatedAt = b.updatedAt ∧ a.id ≤ b.id) :=
    ⟨fun a b => by
      rw [preservationOrder_iff, preservationOrder_iff]
      exact le_total _ _⟩
  have htrans : IsTrans MemoryRecord
      fun a b => b.updatedAt < a.updatedAt ∨ (a.updatedAt = b.updatedAt ∧ a.id ≤ b.id) :=
    ⟨fun a b c => by
      rw [preservationOrder_iff, preservationOrder_iff, preservationOrder_iff]
      exact le_trans⟩
  exact List.pairwise_insertionSort _ _

/-- The rows of an id that is not among the deleted ones, once others are appended. -/
theorem filter_kept {α : Type} {owner : α → String} {rows kept new : List α} {ids : List String}
    {id : String} (hkept : kept = rows.filter fun a => owner a ∉ ids) (hid : id ∉ ids)
    (hnew : ∀ a ∈ new, owner a ≠ id) :
    (kept ++ new).filter (fun a => owner a = id) = rows.filter fun a => owner a = id := by
  rw [List.filter_append, filter_fresh hnew, List.append_nil, hkept, List.filter_filter]
  refine List.filter_congr fun a _ => ?_
  by_cases ha : owner a = id
  · simp [ha, hid]
  · simp [ha]

/-- What belongs to records of the repository is as it was. -/
structure RepositoryKept (index db : Db) : Prop where
  records : (db.records.rows.filter fun r => !r.destination.isPrivate) =
    index.records.rows.filter fun r => !r.destination.isPrivate
  rows : ∀ id ∈ indexedNonRuntimeRecordIds index,
    db.captures.rows.filter (·.recordId = id) = index.captures.rows.filter (·.recordId = id) ∧
      db.tags.rows.filter (·.recordId = id) = index.tags.rows.filter (·.recordId = id) ∧
      db.paths.rows.filter (·.recordId = id) = index.paths.rows.filter (·.recordId = id)

section Refresh

variable [Entropy] [CaptureDocuments] {index db : Db}

theorem restore_over {shared : Db} {snapshots : List RuntimeRecordSnapshot}
    (htags : ∀ t ∈ shared.tags.rows, t.admitted = true)
    (hreferences : Db.ReferencesHold index.toContents index.lifecycle)
    (hread : runtimeRecordSnapshots shared = .ok snapshots)
    (hcollision : ∀ s ∈ snapshots, s.record.id ∉ indexedNonRuntimeRecordIds index)
    (h : restoreRuntimeRecordSnapshots true (deletePrivateRecords index) snapshots = .ok db) :
    runtimeRecordSnapshots db = .ok snapshots ∧ RepositoryKept index db ∧
      db.events = index.events ∧ db.proposals = index.proposals := by
  obtain ⟨hrecords, hwf, hids⟩ := snapshots_wellFormed htags hread
  have hfresh : ∀ s ∈ snapshots, Fresh (deletePrivateRecords index) s.record.id :=
    fun s hs => fresh_deletePrivateRecords hreferences (hcollision s hs)
  obtain ⟨hwritten, hstates⟩ := restore_spec hwf hids hfresh h
  have hremoved := removed_deletePrivateRecords index
  have hprivate : ∀ r ∈ snapshots.map (·.record), r.destination.isPrivate = true := by
    intro r hr
    rw [hrecords, recordsForPreservation, List.mem_insertionSort] at hr
    exact (List.mem_filter.1 hr).2
  have hkept : (db.records.rows.filter fun r => !r.destination.isPrivate) =
      index.records.rows.filter fun r => !r.destination.isPrivate := by
    have hnone : ((snapshots.map (·.record)).filter fun r => !r.destination.isPrivate) = [] :=
      List.filter_eq_nil_iff.2 fun r hr => by simp [hprivate r hr]
    rw [hwritten.records, deletePrivateRecords_records, List.filter_append, hnone, List.append_nil,
      List.filter_filter]
    simp
  refine ⟨?_, ⟨hkept, fun id hid => ?_⟩, ?_, ?_⟩
  · have hread : recordsForPreservation db = snapshots.map (·.record) := by
      have hrows : db.records.rows.filter (·.destination.isPrivate) = snapshots.map (·.record) := by
        rw [hwritten.records, deletePrivateRecords_records, List.filter_append,
          List.filter_eq_self.2 hprivate, List.filter_filter]
        simp
      rw [recordsForPreservation, hrows, hrecords]
      exact (recordsForPreservation_sorted shared).insertionSort_eq
    rw [runtimeRecordSnapshots, hread, mapAll_eq_ok, List.forall₂_map_left_iff, List.forall₂_same]
    exact fun s hs => (snapshot_of_written hwf hids hfresh hwritten hstates hs).2
  · have hne : ∀ s ∈ snapshots, s.record.id ≠ id := by
      rintro s hs rfl
      exact hcollision s hs hid
    have hout : id ∉ (index.records.rows.filter (·.destination.isPrivate)).map (·.id) := by
      rw [mem_privateIds]
      obtain ⟨r, hr, rfl⟩ := List.mem_map.1 hid
      obtain ⟨hr, hpublic⟩ := List.mem_filter.1 hr
      rw [Contents.hasPrivate, Table.get?_of_mem hr]
      simpa using hpublic
    refine ⟨?_, ?_, ?_⟩
    · rw [hwritten.captures]
      refine filter_kept hremoved.captures hout fun c hc => ?_
      obtain ⟨s, hs, hc⟩ := List.mem_flatMap.1 hc
      obtain ⟨provenance, -, rfl⟩ := List.mem_map.1 hc
      exact hne s hs
    · rw [hwritten.tags]
      refine filter_kept hremoved.tags hout fun t ht => ?_
      obtain ⟨s, hs, ht⟩ := List.mem_flatMap.1 ht
      obtain ⟨tag, -, rfl⟩ := List.mem_map.1 ht
      exact hne s hs
    · rw [hwritten.paths]
      refine filter_kept hremoved.paths hout fun p hp => ?_
      obtain ⟨s, hs, hp⟩ := List.mem_flatMap.1 hp
      obtain ⟨i, hi, rfl⟩ := List.mem_mapIdx.1 hp
      exact hne s hs
  · rw [hwritten.rest]
    exact hremoved.events
  · rw [hwritten.rest]
    exact hremoved.proposals

/-! ### The refresh -/

/-- What a refresh leaves in the index, by the reads it comes from. -/
structure Mirrored (shared : SharedReads Db) (db : Db) : Prop where
  records : runtimeRecordSnapshots db = runtimeRecordSnapshots shared.records
  proposals : readProposals db = readProposals shared.proposals
  maintenance : mirrorSnapshot db = mirrorSnapshot shared.maintenance
  generation : db.generation = shared.generation.generation
  revision : db.revision = shared.revision.revision
  drawn : db.revision.isSome = true
  rechecked : shared.recheckRevision.revision = shared.revision.revision
  events : ∀ e ∈ readPrivateLifecycleAuthorityEvents shared.events, db.events.get? e.id = some e

/-- **A refresh that is not stopped at the first look mirrors what it read**, and leaves what
belongs to the repository. -/
theorem refreshIndexMirrors_ok {shared : SharedReads Db} {index' : Db}
    (htags : ∀ t ∈ shared.records.tags.rows, t.admitted = true)
    (hreferences : Db.ReferencesHold index.toContents index.lifecycle)
    (h : refreshIndexMirrors shared index = .ok index') :
    runtimeMirrorRevisionsMatch shared.check index = true ∧ index' = index ∨
      Mirrored shared index' ∧ RepositoryKept index index' ∧
        Db.ReferencesHold index'.toContents index'.lifecycle := by
  unfold refreshIndexMirrors at h
  split at h
  · rename_i hmatch
    exact Or.inl ⟨hmatch, (Except.ok.inj h).symm⟩
  · right
    obtain ⟨revision, hrevision, h⟩ := bind_eq_ok.1 h
    obtain ⟨snapshots, hsnapshots, h⟩ := bind_eq_ok.1 h
    obtain ⟨indexed, hindexed, h⟩ := bind_eq_ok.1 h
    obtain ⟨hcollision, h⟩ := check_bind_eq_ok.1 h
    obtain ⟨db₁, hrecords, h⟩ := bind_eq_ok.1 h
    obtain ⟨db₂, hevents, h⟩ := bind_eq_ok.1 h
    obtain ⟨db₃, hproposals, h⟩ := bind_eq_ok.1 h
    obtain ⟨current, hcurrent, h⟩ := bind_eq_ok.1 h
    obtain ⟨hsame, h⟩ := check_bind_eq_ok.1 h
    obtain ⟨hgeneration, h⟩ := check_bind_eq_ok.1 h
    obtain ⟨db₄, hmirror, h⟩ := bind_eq_ok.1 h
    obtain ⟨hcommit, h⟩ := check_bind_eq_ok.1 h
    obtain rfl := Except.ok.inj h
    rw [ensure_eq_ok] at hcollision hsame hgeneration hcommit
    rw [require_eq_ok] at hrevision hcurrent
    -- the records, whether they are written anew or were the same
    have hfirst : runtimeRecordSnapshots db₁ = .ok snapshots ∧ RepositoryKept index db₁ ∧
        db₁.events = index.events ∧ db₁.proposals = index.proposals := by
      split at hrecords
      · rename_i heq
        obtain rfl := Except.ok.inj hrecords
        exact ⟨heq ▸ hindexed, ⟨rfl, fun _ _ => ⟨rfl, rfl, rfl⟩⟩, rfl, rfl⟩
      · refine restore_over htags hreferences hsnapshots (fun s hs hid => ?_) hrecords
        have hfound := List.filter_eq_nil_iff.1 hcollision s.record.id (List.mem_map_of_mem hs)
        simp only [List.contains_eq_mem, hid, decide_true, not_true] at hfound
    have hsecond : outside db₂ = { outside db₁ with events := db₂.events } ∧
        ∀ e ∈ readPrivateLifecycleAuthorityEvents shared.events, db₂.events.get? e.id = some e := by
      split at hevents
      · rename_i heq
        obtain rfl := Except.ok.inj hevents
        refine ⟨rfl, fun e he => ?_⟩
        rw [heq, readPrivateLifecycleAuthorityEvents, List.mem_insertionSort] at he
        rw [hfirst.2.2.1]
        exact Table.get?_of_mem (List.mem_of_mem_filter he)
      · obtain ⟨houtside, hfound, -⟩ := insertEventsExact_ok hevents
        exact ⟨houtside, hfound⟩
    have hthird : outside db₃ = { outside db₂ with proposals := db₃.proposals } ∧
        readProposals db₃ = readProposals shared.proposals := by
      split at hproposals
      · rename_i heq
        obtain rfl := Except.ok.inj hproposals
        refine ⟨rfl, ?_⟩
        rw [heq, readProposals, readProposals,
          show db₂.proposals = index.proposals from
            (congrArg Outside.proposals hsecond.1).trans hfirst.2.2.2]
      · obtain ⟨hrows, houtside⟩ := replaceProposals_ok hproposals
        refine ⟨houtside, ?_⟩
        rw [readProposals, hrows]
        exact (List.pairwise_insertionSort _ _).insertionSort_eq
    obtain ⟨houtside, hgrants, hsets, hmembers, hedges, hprojection⟩ := replaceMirror_ok hmirror
    -- the tables that are read back, traced to the step that wrote them
    have hkept : ∀ {α : Type} (field : Outside → α),
        (∀ o events, field { o with events := events } = field o) →
        (∀ o proposals, field { o with proposals := proposals } = field o) →
        (∀ o generation, field { o with generation := generation } = field o) →
        field (outside db₄) = field (outside db₁) := by
      intro α field hev hpr hgen
      rw [houtside]
      refine (hgen (outside db₃) _).trans ?_
      rw [hthird.1, hpr, hsecond.1, hev]
    have hrec := hkept Outside.records (fun _ _ => rfl) (fun _ _ => rfl) fun _ _ => rfl
    have hcap := hkept Outside.captures (fun _ _ => rfl) (fun _ _ => rfl) fun _ _ => rfl
    have htag := hkept Outside.tags (fun _ _ => rfl) (fun _ _ => rfl) fun _ _ => rfl
    have hpath := hkept Outside.paths (fun _ _ => rfl) (fun _ _ => rfl) fun _ _ => rfl
    have hrel := hkept Outside.relations (fun _ _ => rfl) (fun _ _ => rfl) fun _ _ => rfl
    have hlife := hkept Outside.lifecycle (fun _ _ => rfl) (fun _ _ => rfl) fun _ _ => rfl
    simp only [outside] at hrec hcap htag hpath hrel hlife
    refine ⟨⟨?_, ?_, ?_, ?_, ?_, rfl, ?_, ?_⟩, ⟨?_, ?_⟩, hcommit⟩
    · exact (runtimeRecordSnapshots_congr hrec hcap htag hpath hrel hlife).trans
        (hfirst.1.trans hsnapshots.symm)
    · rw [← hthird.2]
      exact congrArg (fun t : Table MemoryProposal.id => t.rows.insertionSort fun a b => a.id ≤ b.id)
        (congrArg Outside.proposals houtside)
    · simp only [mirrorSnapshot, hgrants, hsets, hmembers, hedges, hprojection]
      simp only [(List.pairwise_insertionSort _ _).insertionSort_eq]
    · exact congrArg Outside.generation houtside
    · exact hrevision.symm
    · rw [hcurrent, hrevision, hsame]
    · intro e he
      rw [← hsecond.2 e he]
      have hev : db₄.events = db₂.events := by
        have hfinal := congrArg Outside.events houtside
        exact hfinal.trans (congrArg Outside.events hthird.1)
      show db₄.events.get? e.id = _
      rw [hev]
    · show (db₄.records.rows.filter _) = _
      rw [hrec]
      exact hfirst.2.1.records
    · intro id hid
      show db₄.captures.rows.filter _ = _ ∧ db₄.tags.rows.filter _ = _ ∧
        db₄.paths.rows.filter _ = _
      rw [hcap, htag, hpath]
      exact hfirst.2.1.rows id hid

end Refresh

end SharedRuntime
end Memzoi
