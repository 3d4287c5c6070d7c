/-
# When the mirror revision is drawn anew

Source: `schema.rs` (`RUNTIME_MIRROR_TRIGGERS`), `service/runtime_records/preservation.rs`.

A reader of private memory sees the snapshots of its records, the proposals, the
maintenance rows and the generation: `mirrorView`. A change announces itself when
it draws the revision anew or leaves the view as it was. Changes that announce
themselves compose, so a statement does when each of its rows does.

Two writes would not: an insert or delete of lifecycle rows, and an update of a
token alone. The program has the first in triggers only; the second ends a
restore, where the facts of the same row were updated just before.
-/

import Memzoi.MirrorRules

namespace Memzoi

open Fallible Preservation

/-- A statement that updates lifecycle rows names a watched column, and no statement inserts or
deletes them. -/
def Statement.Announces : Statement → Prop
  | lifecycle watched changes => watched = true ∧ ∀ c ∈ changes, ∃ id s, c = .update id s
  | records _ => True
  | tags _ => True
  | paths _ => True
  | captures _ => True
  | relations _ => True

namespace SharedRuntime

open PrivateLifecycle (capture? recordsForPreservation)

/-- What a reader of private memory sees. -/
structure MirrorView where
  records : Fallible (List RuntimeRecordSnapshot)
  proposals : List MemoryProposal
  maintenance : MirrorSnapshot
  generation : Nat

def mirrorView (db : Db) : MirrorView :=
  ⟨runtimeRecordSnapshots db, readProposals db, mirrorSnapshot db, db.generation⟩

/-- The same private records, with the same rows to each of them. -/
structure SameRecords (db db' : Db) : Prop where
  records : db'.records.rows.filter (·.destination.isPrivate) =
    db.records.rows.filter (·.destination.isPrivate)
  captures : ∀ id, db.hasPrivate id = true → db'.captures.get? id = db.captures.get? id
  tags : ∀ id, db.hasPrivate id = true →
    db'.tags.rows.filter (·.recordId = id) = db.tags.rows.filter (·.recordId = id)
  paths : ∀ id, db.hasPrivate id = true →
    db'.paths.rows.filter (·.recordId = id) = db.paths.rows.filter (·.recordId = id)
  lifecycle : ∀ id, db.hasPrivate id = true → db'.lifecycle.get? id = db.lifecycle.get? id
  relations : ∀ id, db.hasPrivate id = true →
    db'.relations.rows.filter (·.subjectRecordId = id) =
      db.relations.rows.filter (·.subjectRecordId = id)

theorem hasPrivate_of_mem {db : Db} {r : MemoryRecord} (h : r ∈ recordsForPreservation db) :
    db.hasPrivate r.id = true := by
  rw [recordsForPreservation, List.mem_insertionSort] at h
  exact mem_privateIds.1 (List.mem_map_of_mem h)

theorem SameRecords.snapshots {db db' : Db} (h : SameRecords db db') :
    runtimeRecordSnapshots db' = runtimeRecordSnapshots db := by
  have hrecords : recordsForPreservation db' = recordsForPreservation db := by
    rw [recordsForPreservation, recordsForPreservation, h.records]
  rw [runtimeRecordSnapshots, runtimeRecordSnapshots, hrecords]
  refine mapAll_congr fun record hrecord => ?_
  have hprivate := hasPrivate_of_mem hrecord
  simp only [runtimeRecordSnapshot, Db.requireState, capture?, recordTags, runtimeRecordPaths,
    relationsForSubject, h.captures _ hprivate, h.tags _ hprivate, h.paths _ hprivate,
    h.lifecycle _ hprivate, h.relations _ hprivate]

/-- The tables of a view beside the private records. -/
structure SameRest (db db' : Db) : Prop where
  proposals : db'.proposals = db.proposals
  grants : db'.grants = db.grants
  projection : db'.projection = db.projection
  conflictSets : db'.conflictSets = db.conflictSets
  conflictMembers : db'.conflictMembers = db.conflictMembers
  conflictEdges : db'.conflictEdges = db.conflictEdges
  generation : db'.generation = db.generation

theorem mirrorView_congr {db db' : Db} (h : SameRecords db db') (hrest : SameRest db db') :
    mirrorView db' = mirrorView db := by
  simp only [mirrorView, h.snapshots, readProposals, mirrorSnapshot, hrest.proposals, hrest.grants,
    hrest.projection, hrest.conflictSets, hrest.conflictMembers, hrest.conflictEdges,
    hrest.generation]

section Announced

variable [Entropy] {db db₁ db' : Db}

/-- The revision is one drawn in between. -/
structure Redrawn (db db' : Db) : Prop where
  draws_le : db.draws ≤ db'.draws
  revision : ∃ n, db.draws ≤ n ∧ n < db'.draws ∧ db'.revision = some (Entropy.blob n)

/-- The revision is drawn anew, or it stays and so does the view. -/
inductive Announced (db db' : Db) : Prop where
  | redrawn (h : Redrawn db db')
  | kept (draws_le : db.draws ≤ db'.draws) (revision : db'.revision = db.revision)
      (view : mirrorView db' = mirrorView db)

theorem Announced.draws_le (h : Announced db db') : db.draws ≤ db'.draws := by
  rcases h with h | ⟨hle, -, -⟩
  · exact h.draws_le
  · exact hle

theorem Announced.refl (db : Db) : Announced db db := .kept le_rfl rfl rfl

theorem Redrawn.after (h : Redrawn db₁ db') (hle : db.draws ≤ db₁.draws) : Redrawn db db' := by
  obtain ⟨hdraws, n, hn, hlt, hrevision⟩ := h
  exact ⟨hle.trans hdraws, n, hle.trans hn, hlt, hrevision⟩

theorem Announced.trans (h : Announced db db₁) (h' : Announced db₁ db') : Announced db db' := by
  rcases h' with h' | ⟨hle', hrevision', hview'⟩
  · exact .redrawn (h'.after h.draws_le)
  · rcases h with ⟨hle, n, hn, hlt, hrevision⟩ | ⟨hle, hrevision, hview⟩
    · exact .redrawn ⟨hle.trans hle', n, hn, hlt.trans_le hle', hrevision'.trans hrevision⟩
    · exact .kept (hle.trans hle') (hrevision'.trans hrevision) (hview'.trans hview)

theorem redrawn_rotateRevision (h : db.draws ≤ db₁.draws) : Redrawn db db₁.rotateRevision :=
  ⟨h.trans (Nat.le_succ _), db₁.draws, h, Nat.lt_succ_self _, rfl⟩

theorem redrawn_touch (h : db.draws ≤ db₁.draws) : Redrawn db db₁.touch :=
  redrawn_rotateRevision (h.trans (Nat.le_succ _))

theorem announced_same (hdraws : db'.draws = db.draws) (hrevision : db'.revision = db.revision)
    (h : SameRecords db db') (hrest : SameRest db db') : Announced db db' :=
  .kept hdraws.ge hrevision (mirrorView_congr h hrest)

/-! ### Children of a record -/

theorem draws_rotateVersions (db : Db) (a b : String) : db.draws ≤ (db.rotateVersions a b).draws := by
  unfold Db.rotateVersions
  split
  · exact Nat.le_succ _
  · exact (Nat.le_succ _).trans (Nat.le_succ _)

/-- A change of a child table whose owners are private is announced by its trigger. -/
theorem announced_childChanged {before after : Option String} (hdraws : db₁.draws = db.draws)
    (hrevision : db₁.revision = db.revision) (hrest : SameRest db db₁)
    (hrecords : db₁.records = db.records)
    (hsame : (∀ a, before = some a → db.hasPrivate a = false) →
      (∀ b, after = some b → db.hasPrivate b = false) → SameRecords db db₁) :
    Announced db (db₁.childChanged before after) := by
  have hpart : ∀ id, db₁.hasPrivate id = db.hasPrivate id :=
    fun id => Db.hasPrivate_of_row (by rw [hrecords])
  have htouched : ∀ a b, (∀ x, before = some x → x = a ∨ x = b) →
      (∀ x, after = some x → x = a ∨ x = b) → Announced db (db₁.childTouched a b) := by
    intro a b hbefore hafter
    unfold Db.childTouched
    split
    · exact .redrawn (redrawn_touch (hdraws.ge.trans (draws_rotateVersions db₁ a b)))
    · rename_i hpublic
      rw [hpart, hpart, Bool.or_eq_true, not_or, Bool.not_eq_true, Bool.not_eq_true] at hpublic
      refine announced_same hdraws hrevision (hsame (fun x hx => ?_) fun x hx => ?_) hrest
      · rcases hbefore x hx with rfl | rfl
        · exact hpublic.1
        · exact hpublic.2
      · rcases hafter x hx with rfl | rfl
        · exact hpublic.1
        · exact hpublic.2
  cases before with
  | none =>
      cases after with
      | none => exact announced_same hdraws hrevision (hsame (by simp) (by simp)) hrest
      | some b => exact htouched b b (by simp) (by simp)
  | some a =>
      cases after with
      | none => exact htouched a a (by simp) (by simp)
      | some b => exact htouched a b (by simp) (by simp)

omit [Entropy] in
/-- Rows of other owners than those of the change. -/
theorem owner_false {ρ : Type} {owner : ρ → String} {row : Option ρ} {id : String}
    (hpublic : ∀ a, row.map owner = some a → db.hasPrivate a = false)
    (hid : db.hasPrivate id = true) : ∀ r, row = some r → owner r ≠ id := by
  rintro r rfl rfl
  rw [hpublic (owner r) rfl] at hid
  cases hid

theorem announced_changeTag {c : RowChange MemoryTag (String × String)}
    (h : db.changeTag c = .ok db') : Announced db db' := by
  obtain ⟨-, h⟩ := check_bind_eq_ok.1 h
  obtain ⟨tags, htags, h⟩ := bind_eq_ok.1 h
  obtain rfl := Except.ok.inj h
  refine announced_childChanged rfl rfl ⟨rfl, rfl, rfl, rfl, rfl, rfl, rfl⟩ rfl fun hbefore hafter =>
    ⟨rfl, fun _ _ => rfl, fun id hid => ?_, fun _ _ => rfl, fun _ _ => rfl, fun _ _ => rfl⟩
  refine RowChange.filter_change? (require_eq_ok.1 htags) (fun r hr => ?_) fun r hr => ?_
  · simpa using owner_false hbefore hid r hr
  · simpa using owner_false hafter hid r hr

theorem announced_changePath {c : RowChange MemoryPath String} (h : db.changePath c = .ok db') :
    Announced db db' := by
  obtain ⟨-, h⟩ := check_bind_eq_ok.1 h
  obtain ⟨paths, hpaths, h⟩ := bind_eq_ok.1 h
  obtain rfl := Except.ok.inj h
  refine announced_childChanged rfl rfl ⟨rfl, rfl, rfl, rfl, rfl, rfl, rfl⟩ rfl fun hbefore hafter =>
    ⟨rfl, fun _ _ => rfl, fun _ _ => rfl, fun id hid => ?_, fun _ _ => rfl, fun _ _ => rfl⟩
  refine RowChange.filter_change? (require_eq_ok.1 hpaths) (fun r hr => ?_) fun r hr => ?_
  · simpa using owner_false hbefore hid r hr
  · simpa using owner_false hafter hid r hr

theorem announced_changeCapture {c : RowChange MemoryCapture String}
    (h : db.changeCapture c = .ok db') : Announced db db' := by
  obtain ⟨captures, hcaptures, h⟩ := bind_eq_ok.1 h
  obtain rfl := Except.ok.inj h
  refine announced_childChanged rfl rfl ⟨rfl, rfl, rfl, rfl, rfl, rfl, rfl⟩ rfl fun hbefore hafter =>
    ⟨rfl, fun id hid => ?_, fun _ _ => rfl, fun _ _ => rfl, fun _ _ => rfl, fun _ _ => rfl⟩
  exact RowChange.get?_change? (require_eq_ok.1 hcaptures) (owner_false hbefore hid)
    (owner_false hafter hid)

/-! ### Lifecycle rows and relations -/

theorem announced_updateLifecycle {id : String} {s : PrivateLifecycleState}
    (h : db.changeLifecycle true (.update id s) = .ok db') : Announced db db' := by
  cases hold : db.lifecycle.get? id with
  | none =>
      rw [Db.changeLifecycle, hold] at h
      obtain rfl := Except.ok.inj h
      exact Announced.refl db
  | some old =>
      rw [Db.changeLifecycle, hold] at h
      obtain ⟨-, h⟩ := check_bind_eq_ok.1 h
      obtain ⟨lifecycle, -, h⟩ := bind_eq_ok.1 h
      obtain rfl := Except.ok.inj h
      exact .redrawn (redrawn_touch (Nat.le_succ _))

theorem redrawn_deleteRelation (db : Db) (r : PrivateLifecycleRelation) :
    Redrawn db (db.deleteRelation r) :=
  redrawn_touch (draws_rotateVersions { db with relations := db.relations.erase r.id } _ _)

theorem announced_changeRelation {c : RowChange PrivateLifecycleRelation String}
    (h : db.changeRelation c = .ok db') : Announced db db' := by
  cases c with
  | insert r =>
      obtain ⟨-, h⟩ := check_bind_eq_ok.1 h
      obtain ⟨-, h⟩ := check_bind_eq_ok.1 h
      obtain ⟨-, h⟩ := check_bind_eq_ok.1 h
      obtain ⟨relations, -, h⟩ := bind_eq_ok.1 h
      obtain rfl := Except.ok.inj h
      exact .redrawn (redrawn_touch ((Nat.le_succ _).trans (Nat.le_succ _)))
  | update id r =>
      cases hold : db.relations.get? id with
      | none =>
          rw [Db.changeRelation, hold] at h
          obtain rfl := Except.ok.inj h
          exact Announced.refl db
      | some old =>
          rw [Db.changeRelation, hold] at h
          cases h
  | delete id =>
      cases hold : db.relations.get? id with
      | none =>
          rw [Db.changeRelation, hold] at h
          obtain rfl := Except.ok.inj h
          exact Announced.refl db
      | some old =>
          rw [Db.changeRelation, hold] at h
          obtain rfl := Except.ok.inj h
          exact .redrawn (redrawn_deleteRelation db old)

/-! ### Records -/

/-- Rows of records that are not private come and go unseen. -/
theorem announced_records {records : Table MemoryRecord.id}
    (h : records.rows.filter (·.destination.isPrivate) =
      db.records.rows.filter (·.destination.isPrivate)) :
    Announced db { db with records := records } :=
  announced_same rfl rfl ⟨h, fun _ _ => rfl, fun _ _ => rfl, fun _ _ => rfl, fun _ _ => rfl,
    fun _ _ => rfl⟩ ⟨rfl, rfl, rfl, rfl, rfl, rfl, rfl⟩

theorem announced_insertRecord {r : MemoryRecord} (h : db.changeRecord (.insert r) = .ok db') :
    Announced db db' := by
  obtain ⟨-, h⟩ := check_bind_eq_ok.1 h
  obtain ⟨records, hrecords, h⟩ := bind_eq_ok.1 h
  unfold Db.recordInserted at h
  split at h
  · obtain ⟨mid, hmid, h⟩ := bind_eq_ok.1 h
    obtain rfl := Except.ok.inj h
    obtain ⟨-, hmid⟩ := check_bind_eq_ok.1 hmid
    obtain ⟨-, hmid⟩ := check_bind_eq_ok.1 hmid
    obtain ⟨lifecycle, -, hmid⟩ := bind_eq_ok.1 hmid
    obtain rfl := Except.ok.inj hmid
    exact .redrawn (redrawn_touch (Nat.le_succ _))
  · rename_i hpublic
    obtain rfl := Except.ok.inj h
    exact announced_records (Table.filter_insert? (require_eq_ok.1 hrecords) (by simpa using hpublic))

theorem draws_upsertLifecycle {new : MemoryRecord} (h : db.upsertLifecycle new = .ok db') :
    db.draws ≤ db'.draws := by
  unfold Db.upsertLifecycle at h
  split at h
  · obtain ⟨-, h⟩ := check_bind_eq_ok.1 h
    obtain ⟨-, h⟩ := check_bind_eq_ok.1 h
    obtain ⟨lifecycle, -, h⟩ := bind_eq_ok.1 h
    obtain rfl := Except.ok.inj h
    exact Nat.le_succ _
  · obtain ⟨-, h⟩ := check_bind_eq_ok.1 h
    obtain rfl := Except.ok.inj h
    exact Nat.le_succ _

theorem draws_deleteLifecycle (db : Db) (id : String) : db.draws ≤ (db.deleteLifecycle id).draws := by
  unfold Db.deleteLifecycle
  split
  · exact (Nat.le_succ _).trans (Nat.le_succ _)
  · exact le_rfl

theorem announced_updateRecord {id : String} {new : MemoryRecord}
    (h : db.changeRecord (.update id new) = .ok db') : Announced db db' := by
  cases hold : db.records.get? id with
  | none =>
      rw [Db.changeRecord, hold] at h
      obtain rfl := Except.ok.inj h
      exact Announced.refl db
  | some old =>
      rw [Db.changeRecord, hold] at h
      obtain ⟨-, h⟩ := check_bind_eq_ok.1 h
      obtain ⟨records, hrecords, h⟩ := bind_eq_ok.1 h
      unfold Db.recordUpdated at h
      split at h
      · obtain ⟨mid, hmid, h⟩ := bind_eq_ok.1 h
        obtain rfl := Except.ok.inj h
        have hle := draws_upsertLifecycle hmid
        exact .redrawn (redrawn_touch hle)
      · rename_i hnew
        split at h
        · obtain rfl := Except.ok.inj h
          exact .redrawn (redrawn_touch (draws_deleteLifecycle { db with records := records } new.id))
        · rename_i hpublic
          obtain rfl := Except.ok.inj h
          exact announced_records (Table.filter_replace? hold (require_eq_ok.1 hrecords)
            (by simpa using hpublic) (by simpa using hnew))

/-- Draws of the revision, one after another. -/
theorem redrawn_iterate {n : Nat} (hn : n ≠ 0) (h : db.draws ≤ db₁.draws) :
    Redrawn db (Db.rotateRevision^[n] db₁) := by
  obtain ⟨n, rfl⟩ := Nat.exists_eq_succ_of_ne_zero hn
  rw [Function.iterate_succ_apply']
  exact redrawn_rotateRevision (h.trans (Db.iterate_rotateRevision n db₁).2.2.2.2)

/-- Conflict rows of a record are not deleted without a draw. -/
theorem announced_cascadeConflicts (db : Db) (id : String) : Announced db (db.cascadeConflicts id) := by
  simp only [Db.cascadeConflicts]
  by_cases hn : (db.conflictEdges.rows.filter
      fun e => e.leftRecordId = id || e.rightRecordId = id).length +
      (db.conflictMembers.rows.filter fun m => m.recordId = id).length = 0
  · obtain ⟨hedges, hmembers⟩ := Nat.add_eq_zero_iff.1 hn
    rw [hn, Function.iterate_zero_apply]
    have hedges : db.conflictEdges.deleteWhere
        (fun e => e.leftRecordId = id || e.rightRecordId = id) = db.conflictEdges := by
      refine Table.ext_rows (List.filter_eq_self.2 fun e he => ?_)
      have hnot := List.filter_eq_nil_iff.1 (List.eq_nil_of_length_eq_zero hedges) e he
      simpa using hnot
    have hmembers : db.conflictMembers.deleteWhere (fun m => m.recordId = id) =
        db.conflictMembers := by
      refine Table.ext_rows (List.filter_eq_self.2 fun m hm => ?_)
      have hnot := List.filter_eq_nil_iff.1 (List.eq_nil_of_length_eq_zero hmembers) m hm
      simpa using hnot
    rw [hedges, hmembers]
    exact Announced.refl db
  · exact .redrawn (redrawn_iterate hn le_rfl)

theorem announced_deleteRelations (rs : List PrivateLifecycleRelation) (db : Db) :
    Announced db (rs.foldl Db.deleteRelation db) := by
  induction rs generalizing db with
  | nil => exact Announced.refl db
  | cons r rs ih => exact (Announced.redrawn (redrawn_deleteRelation db r)).trans (ih _)

/-- What belongs to a record that is gone is not seen. -/
theorem announced_cascadeRest {id : String} (hrow : db.records.get? id = none) :
    Announced db ((db.deleteLifecycle id).cascadeChildren id) := by
  have hne : ∀ k, db.hasPrivate k = true → id ≠ k := by
    rintro k hk rfl
    rw [Db.hasPrivate_eq_false_of_none hrow] at hk
    cases hk
  have hdb : (db.deleteLifecycle id).cascadeChildren id =
      ({ db with lifecycle := db.lifecycle.erase id } : Db).cascadeChildren id := by
    have hrecord : db.hasRecord id = false := by rw [Contents.hasRecord, hrow]; rfl
    simp only [Db.deleteLifecycle, hrecord, Bool.and_false, if_false, Bool.false_eq_true]
  rw [hdb]
  refine announced_same rfl rfl ⟨rfl, fun k hk => ?_, fun k hk => ?_, fun k hk => ?_, fun k hk => ?_,
    fun _ _ => rfl⟩ ⟨rfl, rfl, rfl, rfl, rfl, rfl, rfl⟩
  · exact Table.get?_erase_of_ne _ (hne k hk)
  · refine Table.filter_deleteWhere fun t _ ht => ?_
    rw [decide_eq_true_eq] at ht
    simp [ht, hne k hk]
  · refine Table.filter_deleteWhere fun p _ hp => ?_
    rw [decide_eq_true_eq] at hp
    simp [hp, hne k hk]
  · exact Table.get?_erase_of_ne _ (hne k hk)

theorem announced_deleteRecord {old : MemoryRecord} (hold : db.records.get? old.id = some old) :
    Announced db (db.deleteRecord old) := by
  have hcascade : Announced (db.eraseRecord old.id)
      ((db.eraseRecord old.id).cascadeRecord old.id) := by
    refine ((announced_cascadeConflicts _ old.id).trans
      (announced_deleteRelations _ _)).trans (announced_cascadeRest ?_)
    obtain ⟨-, hrelations⟩ := cascadeRelations_rows
      ((db.eraseRecord old.id).cascadeConflicts old.id) old.id
    have hconflicts := (Db.guarded_cascadeConflicts (db.eraseRecord old.id) old.id).2.1
    show (((db.eraseRecord old.id).cascadeConflicts old.id).cascadeRelations old.id).records.get?
      old.id = none
    rw [hrelations]
    show ((db.eraseRecord old.id).cascadeConflicts old.id).records.get? old.id = none
    rw [hconflicts]
    exact Table.get?_erase_self _ _
  rw [Db.deleteRecord]
  split
  · exact .redrawn (redrawn_touch hcascade.draws_le)
  · rename_i hpublic
    exact (announced_records (Table.filter_erase hold (by simpa using hpublic))).trans hcascade

theorem announced_changeRecord {c : RowChange MemoryRecord String}
    (h : db.changeRecord c = .ok db') : Announced db db' := by
  cases c with
  | insert r => exact announced_insertRecord h
  | update id new => exact announced_updateRecord h
  | delete id =>
      cases hold : db.records.get? id with
      | none =>
          rw [Db.changeRecord, hold] at h
          obtain rfl := Except.ok.inj h
          exact Announced.refl db
      | some old =>
          rw [Db.changeRecord, hold] at h
          obtain rfl := Except.ok.inj h
          obtain rfl := Table.key_of_get? hold
          exact announced_deleteRecord hold

/-! ### Statements -/

theorem announced_rows {ρ : Type} {step : Db → ρ → Fallible Db} {rows : List ρ}
    (hstep : ∀ db r db', r ∈ rows → step db r = .ok db' → Announced db db')
    (h : runAll step db rows = .ok db') : Announced db db' :=
  runAll_relation Announced Announced.refl (fun _ _ _ h h' => h.trans h') hstep h

/-- **A statement that changes what a reader sees draws the revision anew.** -/
theorem announced_execute {st : Statement} (hst : st.Announces) (h : db.execute st = .ok db') :
    Announced db db' := by
  obtain ⟨mid, hrows, h⟩ := bind_eq_ok.1 h
  obtain ⟨-, h⟩ := check_bind_eq_ok.1 h
  obtain rfl := Except.ok.inj h
  cases st with
  | records changes => exact announced_rows (fun _ _ _ _ hr => announced_changeRecord hr) hrows
  | tags changes => exact announced_rows (fun _ _ _ _ hr => announced_changeTag hr) hrows
  | paths changes => exact announced_rows (fun _ _ _ _ hr => announced_changePath hr) hrows
  | captures changes => exact announced_rows (fun _ _ _ _ hr => announced_changeCapture hr) hrows
  | relations changes => exact announced_rows (fun _ _ _ _ hr => announced_changeRelation hr) hrows
  | lifecycle watched changes =>
      obtain ⟨rfl, hupdates⟩ := hst
      refine announced_rows (fun db c db' hc hr => ?_) hrows
      obtain ⟨id, s, rfl⟩ := hupdates c hc
      exact announced_updateLifecycle hr

theorem announced_changeProposal {c : RowChange MemoryProposal String}
    (h : db.changeProposal c = .ok db') : Announced db db' := by
  obtain ⟨proposals, hproposals, h⟩ := bind_eq_ok.1 h
  rw [require_eq_ok] at hproposals
  obtain rfl := Except.ok.inj h
  split
  · exact .redrawn (redrawn_rotateRevision le_rfl)
  · rename_i hnone
    rw [not_or, Option.not_isSome_iff_eq_none, Option.not_isSome_iff_eq_none] at hnone
    have hsame : proposals = db.proposals := by
      cases c with
      | insert row => cases hnone.2
      | update k row =>
          have hget : db.proposals.get? k = none := hnone.1
          simp only [RowChange.change?, hget, Option.isSome_none, Bool.false_eq_true, if_false,
            Option.some.injEq] at hproposals
          exact hproposals.symm
      | delete k =>
          have hget : db.proposals.get? k = none := hnone.1
          obtain rfl := Option.some.inj hproposals
          refine Table.ext_rows (List.filter_eq_self.2 fun r hr => ?_)
          simpa using Table.get?_eq_none.1 hget r hr
    rw [hsame]
    exact Announced.refl db

theorem announced_ensureRuntimeMirrorRevision (db : Db) :
    Announced db (ensureRuntimeMirrorRevision db) := by
  unfold ensureRuntimeMirrorRevision
  split
  · exact Announced.refl db
  · exact .redrawn (redrawn_rotateRevision le_rfl)

/-! ### Restoring -/

theorem draws_childTouched (db : Db) (a b : String) : db.draws ≤ (db.childTouched a b).draws := by
  unfold Db.childTouched
  split
  · exact (draws_rotateVersions db a b).trans (redrawn_touch le_rfl).draws_le
  · exact le_rfl

theorem draws_insertRecordIfAbsent (db : Db) (r : MemoryRecord) :
    db.draws ≤ (insertRecordIfAbsent db r).1.draws := by
  unfold insertRecordIfAbsent
  split
  · exact le_rfl
  · show db.draws ≤ (recordInsertedIfAbsent _ r).draws
    unfold recordInsertedIfAbsent
    split
    · refine (redrawn_touch ((Nat.le_succ db.draws).trans ?_)).draws_le
      unfold insertLifecycleIfAbsent
      split <;> exact le_rfl
    · exact le_rfl

theorem draws_insertTagIfAbsent (recordId : String) (db : Db) (tag : String) :
    db.draws ≤ (insertTagIfAbsent recordId db tag).draws := by
  unfold insertTagIfAbsent
  split
  · exact le_rfl
  · rename_i tags _
    exact draws_childTouched { db with tags := tags } recordId recordId

theorem draws_insertPath {p : MemoryPath} (h : db.insertPath p = .ok db') : db.draws ≤ db'.draws := by
  obtain ⟨-, h⟩ := check_bind_eq_ok.1 h
  obtain ⟨paths, -, h⟩ := bind_eq_ok.1 h
  obtain ⟨-, h⟩ := check_bind_eq_ok.1 h
  obtain rfl := Except.ok.inj h
  exact draws_childTouched { db with paths := paths } p.recordId p.recordId

theorem draws_restoreRelation {r : PrivateLifecycleRelation} (h : restoreRelation db r = .ok db') :
    db.draws ≤ db'.draws := by
  obtain ⟨mid, hinsert, h⟩ := bind_eq_ok.1 h
  obtain ⟨-, h⟩ := check_bind_eq_ok.1 h
  obtain rfl := Except.ok.inj h
  obtain ⟨-, hinsert⟩ := check_bind_eq_ok.1 hinsert
  split at hinsert
  · obtain rfl := Except.ok.inj hinsert
    exact le_rfl
  · obtain rfl := Except.ok.inj hinsert
    exact (redrawn_touch ((Nat.le_succ _).trans (Nat.le_succ _))).draws_le

omit [Entropy] in
/-- What keeps the draws in every step keeps them in a run. -/
theorem draws_runAll {ρ : Type} {step : Db → ρ → Fallible Db} {rows : List ρ}
    (hstep : ∀ db r db', step db r = .ok db' → db.draws ≤ db'.draws)
    (h : runAll step db rows = .ok db') : db.draws ≤ db'.draws :=
  runAll_relation (fun db db' => db.draws ≤ db'.draws) (fun _ => le_rfl) (fun _ _ _ => le_trans)
    (fun db r db' _ => hstep db r db') h

/-- The update of the facts draws the revision, and the token is written after it. -/
theorem redrawn_restoreLifecycle {state : PrivateLifecycleState}
    (h : restoreLifecycle db state = .ok db') : Redrawn db db' := by
  obtain ⟨row, -, h⟩ := bind_eq_ok.1 h
  obtain ⟨mid, hfacts, h⟩ := bind_eq_ok.1 h
  obtain ⟨-, hfacts⟩ := check_bind_eq_ok.1 hfacts
  obtain rfl := Except.ok.inj hfacts
  obtain ⟨old, hold, h⟩ := bind_eq_ok.1 h
  rw [require_eq_ok] at hold
  rw [Db.changeLifecycle, hold] at h
  obtain ⟨-, h⟩ := check_bind_eq_ok.1 h
  obtain ⟨lifecycle, -, h⟩ := bind_eq_ok.1 h
  obtain rfl := Except.ok.inj h
  rw [if_neg (by simp)]
  have hdrawn : Redrawn db (Db.touch (Db.rotateVersion { db with
      lifecycle := db.lifecycle.set { row with toLifecycleFacts := state.toLifecycleFacts } }
      row.recordId)) := redrawn_touch (Nat.le_succ _)
  exact ⟨hdrawn.draws_le, hdrawn.revision⟩

variable [CaptureDocuments]

theorem draws_insertMemoryRecordRow {deferred : Bool} {record : MemoryRecord}
    {capture : Option CaptureProvenance}
    (h : insertMemoryRecordRow deferred db record capture = .ok db') : db.draws ≤ db'.draws := by
  have hinsert := draws_insertRecordIfAbsent db record
  rw [insertMemoryRecordRow] at h
  split at h
  · rename_i mid hmid
    obtain rfl := Except.ok.inj h
    rw [hmid] at hinsert
    exact hinsert
  · rename_i mid hmid
    rw [hmid] at hinsert
    obtain ⟨-, h⟩ := check_bind_eq_ok.1 h
    refine hinsert.trans ?_
    cases capture with
    | none =>
        obtain rfl := Except.ok.inj h
        split
        · exact draws_childTouched { mid with captures := mid.captures.erase record.id } _ _
        · exact le_rfl
    | some provenance =>
        obtain ⟨-, h⟩ := check_bind_eq_ok.1 h
        obtain rfl := Except.ok.inj h
        exact draws_childTouched { mid with captures := mid.captures.upsert ⟨record.id, provenance⟩ }
          _ _

theorem draws_restoreParent {deferred : Bool} {s : RuntimeRecordSnapshot}
    (h : restoreParent deferred db s = .ok db') : db.draws ≤ db'.draws := by
  obtain ⟨mid, hrecord, h⟩ := bind_eq_ok.1 h
  obtain ⟨-, h⟩ := check_bind_eq_ok.1 h
  have htags : ∀ (tags : List String) (db : Db),
      db.draws ≤ (tags.foldl (insertTagIfAbsent s.record.id) db).draws := by
    intro tags
    induction tags with
    | nil => exact fun _ => le_rfl
    | cons tag tags ih => exact fun db => (draws_insertTagIfAbsent _ db tag).trans (ih _)
  exact ((draws_insertMemoryRecordRow hrecord).trans (htags s.tags mid)).trans
    (draws_runAll (fun _ _ _ => draws_insertPath) h)

/-- A restore keeps to the policy of `OR IGNORE` until its lifecycle rows are written. -/
theorem announced_restore {deferred : Bool} {snapshots : List RuntimeRecordSnapshot}
    (h : restoreRuntimeRecordSnapshots deferred db snapshots = .ok db') : Announced db db' := by
  obtain ⟨parents, hparents, h⟩ := bind_eq_ok.1 h
  obtain ⟨related, hrelated, h⟩ := bind_eq_ok.1 h
  cases snapshots with
  | nil =>
      obtain rfl := Except.ok.inj hparents
      obtain rfl := Except.ok.inj hrelated
      obtain rfl := Except.ok.inj h
      exact Announced.refl _
  | cons s snapshots =>
      have hle := (draws_runAll (fun _ _ _ => draws_restoreParent) hparents).trans
        (draws_runAll (fun _ _ _ => draws_restoreRelation) hrelated)
      obtain ⟨mid, hmid, h⟩ := runAll_cons.1 h
      refine (Announced.redrawn ((redrawn_restoreLifecycle hmid).after hle)).trans ?_
      exact announced_rows (fun _ _ _ _ hr => .redrawn (redrawn_restoreLifecycle hr)) h

end Announced

end SharedRuntime
end Memzoi
