/-
# What a restore leaves

Source: `service/runtime_records/preservation.rs` (`runtime_record_snapshot`,
`restore_runtime_record_snapshots`).

`Written` says which rows a restore appends: records, captures, tags and paths in
its first loop, relations in the second. The triggers in between only change
lifecycle rows, and the third loop writes those of the snapshots as they were. So
each snapshot is read back as it was (`snapshot_of_restored`).
-/

import Memzoi.Preservation
import Memzoi.VersionLocks

namespace Memzoi

open Fallible Preservation

/-! ### Rows of a snapshot -/

namespace RuntimeRecordSnapshot

variable (s : RuntimeRecordSnapshot)

def captureRows : List MemoryCapture := s.capture.toList.map fun provenance => ⟨s.record.id, provenance⟩

def tagRows : List MemoryTag := s.tags.map fun tag => ⟨s.record.id, tag⟩

def pathRows : List MemoryPath := s.paths.mapIdx fun index path => restoredPath s.record.id path index

/-- What every snapshot is that was read from a database. -/
structure WellFormed : Prop where
  tags : s.tags.Pairwise (· < ·)
  admitted : ∀ t ∈ tagRows s, t.admitted = true
  paths : s.paths.Pairwise fun a b => a.key ≤ b.key
  relations : s.lifecycleRelations.Pairwise fun a b => a.order ≤ b.order
  distinct : s.lifecycleRelations.Nodup
  subject : ∀ r ∈ s.lifecycleRelations, r.subjectRecordId = s.record.id
  state : s.lifecycleState.recordId = s.record.id

end RuntimeRecordSnapshot

namespace Preservation

open RuntimeRecordSnapshot (captureRows tagRows pathRows WellFormed)
open PrivateLifecycle (capture? recordsForPreservation)

/-- Nothing is stored under the id. -/
structure Fresh (db : Db) (id : String) : Prop where
  record : db.records.get? id = none
  capture : ∀ c ∈ db.captures.rows, c.recordId ≠ id
  tags : ∀ t ∈ db.tags.rows, t.recordId ≠ id
  paths : ∀ p ∈ db.paths.rows, p.recordId ≠ id
  relations : ∀ r ∈ db.relations.rows, r.subjectRecordId ≠ id

/-- The rows of snapshots, behind those that were there, and the relations. -/
structure Written (db db' : Db) (snapshots : List RuntimeRecordSnapshot)
    (relations : List PrivateLifecycleRelation) : Prop where
  records : db'.records.rows = db.records.rows ++ snapshots.map (·.record)
  captures : db'.captures.rows = db.captures.rows ++ snapshots.flatMap captureRows
  tags : db'.tags.rows = db.tags.rows ++ snapshots.flatMap tagRows
  paths : db'.paths.rows = db.paths.rows ++ snapshots.flatMap pathRows
  relations : db'.relations.rows = db.relations.rows ++ relations
  rest : db'.toContents = { db.toContents with
    records := db'.records, captures := db'.captures, tags := db'.tags, paths := db'.paths,
    relations := db'.relations }

namespace Written

variable {db db₁ db' : Db} {done rest : List RuntimeRecordSnapshot}
  {relations relations' : List PrivateLifecycleRelation}

theorem refl (db : Db) : Written db db [] [] :=
  ⟨by simp, by simp, by simp, by simp, by simp, rfl⟩

theorem trans (h : Written db db₁ done relations) (h' : Written db₁ db' rest relations') :
    Written db db' (done ++ rest) (relations ++ relations') where
  records := by rw [h'.records, h.records, List.map_append, List.append_assoc]
  captures := by rw [h'.captures, h.captures, List.flatMap_append, List.append_assoc]
  tags := by rw [h'.tags, h.tags, List.flatMap_append, List.append_assoc]
  paths := by rw [h'.paths, h.paths, List.flatMap_append, List.append_assoc]
  relations := by rw [h'.relations, h.relations, List.append_assoc]
  rest := by rw [h'.rest, h.rest]

/-- Other ids are as fresh as before. -/
theorem fresh (h : Written db db' done []) {id : String} (hfresh : Fresh db id)
    (hother : ∀ s ∈ done, s.record.id ≠ id) : Fresh db' id where
  record := by
    rw [Table.get?_eq_none]
    intro r hr
    rw [h.records, List.mem_append] at hr
    rcases hr with hr | hr
    · exact Table.get?_eq_none.1 hfresh.record r hr
    · obtain ⟨s, hs, rfl⟩ := List.mem_map.1 hr
      exact hother s hs
  capture := by
    intro c hc
    rw [h.captures, List.mem_append] at hc
    rcases hc with hc | hc
    · exact hfresh.capture c hc
    · obtain ⟨s, hs, hc⟩ := List.mem_flatMap.1 hc
      obtain ⟨provenance, -, rfl⟩ := List.mem_map.1 hc
      exact hother s hs
  tags := by
    intro t ht
    rw [h.tags, List.mem_append] at ht
    rcases ht with ht | ht
    · exact hfresh.tags t ht
    · obtain ⟨s, hs, ht⟩ := List.mem_flatMap.1 ht
      obtain ⟨tag, -, rfl⟩ := List.mem_map.1 ht
      exact hother s hs
  paths := by
    intro p hp
    rw [h.paths, List.mem_append] at hp
    rcases hp with hp | hp
    · exact hfresh.paths p hp
    · obtain ⟨s, hs, hp⟩ := List.mem_flatMap.1 hp
      obtain ⟨index, hindex, rfl⟩ := List.mem_mapIdx.1 hp
      exact hother s hs
  relations := by
    intro r hr
    rw [h.relations, List.append_nil] at hr
    exact hfresh.relations r hr

end Written

/-! ### Reading -/

theorem pairwise_lt_of_le {α : Type} [LinearOrder α] {values : List α}
    (h : values.Pairwise (· ≤ ·)) (hnodup : values.Nodup) : values.Pairwise (· < ·) :=
  (h.and hnodup).imp fun hab => lt_of_le_of_ne hab.1 hab.2

/-- A snapshot of a database with admitted tags is well formed. -/
theorem wellFormed_of_snapshot {db : Db} {record : MemoryRecord} {s : RuntimeRecordSnapshot}
    (htags : ∀ t ∈ db.tags.rows, t.admitted = true)
    (h : runtimeRecordSnapshot db record = .ok s) : s.record = record ∧ WellFormed s := by
  obtain ⟨state, hstate, h⟩ := bind_eq_ok.1 h
  obtain rfl := Except.ok.inj h
  refine ⟨rfl, ⟨?_, ?_, ?_, ?_, ?_, ?_, ?_⟩⟩
  · refine pairwise_lt_of_le (List.pairwise_insertionSort _ _) ?_
    refine (List.perm_insertionSort _ _).nodup_iff.2 ?_
    refine List.Nodup.map_on ?_ ((List.Nodup.of_map _ db.tags.nodup).filter _)
    intro a ha b hb htag
    obtain ⟨-, ha⟩ := List.mem_filter.1 ha
    obtain ⟨-, hb⟩ := List.mem_filter.1 hb
    rw [decide_eq_true_eq] at ha hb
    obtain ⟨recordId, tag⟩ := a
    obtain ⟨recordId', tag'⟩ := b
    simp only at ha hb htag
    rw [ha, hb, htag]
  · intro t ht
    obtain ⟨tag, htag, rfl⟩ := List.mem_map.1 ht
    rw [recordTags, List.mem_insertionSort] at htag
    obtain ⟨row, hrow, rfl⟩ := List.mem_map.1 htag
    obtain ⟨hrow, -⟩ := List.mem_filter.1 hrow
    exact htags row hrow
  · exact List.pairwise_insertionSort _ _
  · exact List.pairwise_insertionSort _ _
  · exact (List.perm_insertionSort _ _).nodup_iff.2 ((List.Nodup.of_map _ db.relations.nodup).filter _)
  · intro r hr
    rw [relationsForSubject, List.mem_insertionSort] at hr
    simpa using (List.mem_filter.1 hr).2
  · exact Table.key_of_get? (require_eq_ok.1 hstate)

/-- A sorted list is what is read of it. -/
theorem recordTags_eq {db : Db} {s : RuntimeRecordSnapshot} (hwf : WellFormed s)
    (hrows : db.tags.rows.filter (·.recordId = s.record.id) = tagRows s) :
    recordTags db s.record.id = s.tags := by
  rw [recordTags, hrows, tagRows, List.map_map]
  show (s.tags.map id).insertionSort _ = _
  rw [List.map_id]
  exact (hwf.tags.imp le_of_lt).insertionSort_eq

theorem runtimeRecordPaths_eq {db : Db} {s : RuntimeRecordSnapshot} (hwf : WellFormed s)
    (hrows : db.paths.rows.filter (·.recordId = s.record.id) = pathRows s) :
    runtimeRecordPaths db s.record.id = s.paths := by
  have hbindings : (pathRows s).map MemoryPath.binding = s.paths := by
    refine List.ext_getElem? fun i => ?_
    rw [pathRows, List.getElem?_map, List.getElem?_mapIdx]
    cases s.paths[i]? <;> rfl
  rw [runtimeRecordPaths, hrows, hbindings]
  exact hwf.paths.insertionSort_eq

theorem relationsForSubject_eq {db : Db} {s : RuntimeRecordSnapshot} (hwf : WellFormed s)
    (hrows : db.relations.rows.filter (·.subjectRecordId = s.record.id) = s.lifecycleRelations) :
    relationsForSubject db s.record.id = s.lifecycleRelations := by
  rw [relationsForSubject, hrows]
  exact hwf.relations.insertionSort_eq

/-! ### Statements that pass rows over -/

section Statements

variable {db db' : Db}

@[simp] theorem toContents_keepingRevision (db db' : Db) :
    (keepingRevision db db').toContents = db'.toContents := rfl

@[simp] theorem lifecycle_keepingRevision (db db' : Db) :
    (keepingRevision db db').lifecycle = db'.lifecycle := rfl

@[simp] theorem toContents_insertLifecycleIfAbsent (db : Db) (s : PrivateLifecycleState) :
    (insertLifecycleIfAbsent db s).toContents = db.toContents := by
  unfold insertLifecycleIfAbsent
  split <;> rfl

variable [Entropy]

theorem toContents_recordInsertedIfAbsent (db : Db) (r : MemoryRecord) :
    (recordInsertedIfAbsent db r).toContents = db.toContents := by
  unfold recordInsertedIfAbsent
  split
  · rw [Db.toContents_touch, toContents_insertLifecycleIfAbsent]
  · rfl

/-- A new tag is inserted behind the others. -/
theorem insertTagIfAbsent_spec {recordId tag : String} (hadmitted : MemoryTag.admitted ⟨recordId, tag⟩ = true)
    (hnew : ∀ t ∈ db.tags.rows, t ≠ ⟨recordId, tag⟩) :
    ∃ tags, tags.rows = db.tags.rows ++ [⟨recordId, tag⟩] ∧
      (insertTagIfAbsent recordId db tag).toContents = { db.toContents with tags := tags } := by
  have hnone : db.tags.get? (MemoryTag.key ⟨recordId, tag⟩) = none := by
    rw [Table.get?_eq_none]
    rintro ⟨recordId', tag'⟩ hrow hkey
    obtain ⟨rfl, rfl⟩ := Prod.mk.inj hkey
    exact hnew _ hrow rfl
  obtain ⟨tags, htags⟩ := Table.exists_insert? hnone
  refine ⟨tags, Table.insert?_rows htags, ?_⟩
  rw [insertTagIfAbsent, if_pos hadmitted, htags]
  simp

theorem insertTags_spec {recordId : String} {tags : List String}
    (hadmitted : ∀ tag ∈ tags, MemoryTag.admitted ⟨recordId, tag⟩ = true) (hnodup : tags.Nodup)
    (hnew : ∀ t ∈ db.tags.rows, ∀ tag ∈ tags, t ≠ ⟨recordId, tag⟩) :
    ∃ table, table.rows = db.tags.rows ++ tags.map (fun tag => ⟨recordId, tag⟩) ∧
      (tags.foldl (insertTagIfAbsent recordId) db).toContents =
        { db.toContents with tags := table } := by
  induction tags generalizing db with
  | nil => exact ⟨db.tags, by simp, rfl⟩
  | cons tag tags ih =>
      obtain ⟨hout, hnodup⟩ := List.nodup_cons.1 hnodup
      obtain ⟨first, hfirst, hcontents⟩ := insertTagIfAbsent_spec (hadmitted tag List.mem_cons_self)
        fun t ht => hnew t ht tag List.mem_cons_self
      have hrows : (insertTagIfAbsent recordId db tag).tags = first := by rw [hcontents]
      obtain ⟨table, htable, hall⟩ := @ih (insertTagIfAbsent recordId db tag)
        (fun other hother => hadmitted other (List.mem_cons_of_mem _ hother)) hnodup (by
          intro t ht other hother
          rw [hrows, hfirst, List.mem_append, List.mem_singleton] at ht
          rcases ht with ht | rfl
          · exact hnew t ht other (List.mem_cons_of_mem _ hother)
          · rintro heq
            obtain rfl : tag = other := congrArg MemoryTag.tag heq
            exact hout hother)
      refine ⟨table, ?_, ?_⟩
      · rw [htable, hrows, hfirst, List.append_assoc]
        rfl
      · rw [List.foldl_cons, hall, hcontents]

theorem insertPaths_ok {paths : List MemoryPath} (h : runAll Db.insertPath db paths = .ok db') :
    ∃ table, table.rows = db.paths.rows ++ paths ∧
      db'.toContents = { db.toContents with paths := table } := by
  induction paths generalizing db with
  | nil =>
      obtain rfl := Except.ok.inj h
      exact ⟨db.paths, by simp, rfl⟩
  | cons path paths ih =>
      obtain ⟨mid, hpath, hrest⟩ := runAll_cons.1 h
      obtain ⟨first, hfirst, hcontents, -⟩ := Db.insertPath_ok hpath
      have hrows : mid.paths = first := by rw [hcontents]
      obtain ⟨table, htable, hall⟩ := ih hrest
      refine ⟨table, ?_, ?_⟩
      · rw [htable, hrows, Table.insert?_rows hfirst, List.append_assoc]
        rfl
      · rw [hall, hcontents]

variable [CaptureDocuments]

theorem storeCaptureProvenance_spec {recordId : String} {capture : Option CaptureProvenance}
    (hnew : ∀ c ∈ db.captures.rows, c.recordId ≠ recordId)
    (h : storeCaptureProvenance db recordId capture = .ok db') :
    ∃ table, table.rows = db.captures.rows ++
        (capture.toList.map fun provenance => ⟨recordId, provenance⟩) ∧
      db'.toContents = { db.toContents with captures := table } := by
  have hnone : db.captures.get? recordId = none := Table.get?_eq_none.2 hnew
  cases capture with
  | none =>
      rw [storeCaptureProvenance, hnone] at h
      obtain rfl := Except.ok.inj h
      exact ⟨db.captures, by simp, rfl⟩
  | some provenance =>
      obtain ⟨-, h⟩ := check_bind_eq_ok.1 h
      obtain rfl := Except.ok.inj h
      refine ⟨db.captures.upsert ⟨recordId, provenance⟩, ?_, by simp⟩
      show (db.captures.erase recordId).rows ++ _ = _
      have hkept : (db.captures.erase recordId).rows = db.captures.rows :=
        List.filter_eq_self.2 fun c hc => by simpa using hnew c hc
      rw [hkept]
      rfl

/-- A new record that is there afterwards was inserted, with its capture. -/
theorem insertMemoryRecordRow_spec {deferred : Bool} {record : MemoryRecord}
    {capture : Option CaptureProvenance} (hfresh : Fresh db record.id)
    (h : insertMemoryRecordRow deferred db record capture = .ok db')
    (hfound : (db'.records.get? record.id).isSome = true) :
    ∃ records captures, records.rows = db.records.rows ++ [record] ∧
      captures.rows = db.captures.rows ++
        (capture.toList.map fun provenance => ⟨record.id, provenance⟩) ∧
      db'.toContents = { db.toContents with records := records, captures := captures } := by
  rw [insertMemoryRecordRow, insertRecordIfAbsent] at h
  cases hrow : (if record.admitted then db.records.insert? record else none) with
  | none =>
      rw [hrow] at h
      obtain rfl := Except.ok.inj h
      rw [hfresh.record] at hfound
      cases hfound
  | some records =>
      rw [hrow] at h
      obtain ⟨-, h⟩ := check_bind_eq_ok.1 h
      have hrows : records.rows = db.records.rows ++ [record] := by
        split at hrow
        · exact Table.insert?_rows hrow
        · cases hrow
      obtain ⟨captures, hcaptures, hcontents⟩ := storeCaptureProvenance_spec (by
        rw [toContents_keepingRevision, toContents_recordInsertedIfAbsent]
        exact hfresh.capture) h
      rw [toContents_keepingRevision, toContents_recordInsertedIfAbsent] at hcaptures hcontents
      exact ⟨records, captures, hrows, hcaptures, hcontents⟩

/-- The first loop writes the rows of a snapshot. -/
theorem restoreParent_spec {deferred : Bool} {s : RuntimeRecordSnapshot} (hwf : WellFormed s)
    (hfresh : Fresh db s.record.id) (h : restoreParent deferred db s = .ok db') :
    Written db db' [s] [] := by
  obtain ⟨mid, hrecord, h⟩ := bind_eq_ok.1 h
  obtain ⟨hfound, h⟩ := check_bind_eq_ok.1 h
  obtain ⟨stored, hstored, -⟩ := Option.map_eq_some_iff.1 (ensure_eq_ok.1 hfound)
  obtain ⟨records, captures, hrecords, hcaptures, hmid⟩ :=
    insertMemoryRecordRow_spec hfresh hrecord (by rw [hstored]; rfl)
  obtain ⟨tags, htags, htagged⟩ := @insertTags_spec mid _ s.record.id s.tags
    (fun tag htag => hwf.admitted _ (List.mem_map_of_mem htag)) (hwf.tags.imp ne_of_lt) (by
      intro t ht tag _ heq
      rw [hmid] at ht
      exact hfresh.tags t ht (congrArg MemoryTag.recordId heq))
  obtain ⟨paths, hpaths, hfinal⟩ := insertPaths_ok h
  rw [htagged] at hpaths hfinal
  rw [hmid] at htags hpaths hfinal
  refine ⟨?_, ?_, ?_, ?_, ?_, ?_⟩
  · rw [hfinal, hrecords]
    rfl
  · rw [hfinal, hcaptures]
    simp [captureRows]
  · rw [hfinal, htags]
    simp [tagRows]
  · rw [hfinal, hpaths]
    simp [pathRows]
  · rw [hfinal, List.append_nil]
  · rw [hfinal]

theorem restoreParents_spec {deferred : Bool} {snapshots : List RuntimeRecordSnapshot}
    (hwf : ∀ s ∈ snapshots, WellFormed s) (hids : (snapshots.map (·.record.id)).Nodup)
    (hfresh : ∀ s ∈ snapshots, Fresh db s.record.id)
    (h : runAll (restoreParent deferred) db snapshots = .ok db') : Written db db' snapshots [] := by
  induction snapshots generalizing db with
  | nil =>
      obtain rfl := Except.ok.inj h
      exact Written.refl db
  | cons s snapshots ih =>
      obtain ⟨mid, hs, hrest⟩ := runAll_cons.1 h
      obtain ⟨hout, hids⟩ := List.nodup_cons.1 hids
      have hwritten := restoreParent_spec (hwf s List.mem_cons_self) (hfresh s List.mem_cons_self) hs
      refine hwritten.trans (ih (fun other hother => hwf other (List.mem_cons_of_mem _ hother)) hids
        (fun other hother => hwritten.fresh (hfresh other (List.mem_cons_of_mem _ hother)) ?_) hrest)
      intro done hdone heq
      obtain rfl := List.mem_singleton.1 hdone
      exact hout (List.mem_map.2 ⟨other, hother, heq.symm⟩)

/-! ### The relations -/

omit [CaptureDocuments] in
/-- A relation that was not there is inserted. -/
theorem restoreRelation_spec {r : PrivateLifecycleRelation} (hnew : r ∉ db.relations.rows)
    (h : restoreRelation db r = .ok db') : Written db db' [] [r] := by
  obtain ⟨mid, hinsert, h⟩ := bind_eq_ok.1 h
  obtain ⟨hfound, h⟩ := check_bind_eq_ok.1 h
  obtain rfl := Except.ok.inj h
  rw [ensure_eq_ok] at hfound
  obtain ⟨-, hinsert⟩ := check_bind_eq_ok.1 hinsert
  cases hrow : (if r.admitted ∧ ∀ other ∈ db.relations.rows, other.uniqueKey ≠ r.uniqueKey then
      db.relations.insert? r else none) with
  | none =>
      rw [hrow] at hinsert
      obtain rfl := Except.ok.inj hinsert
      exact absurd (Table.mem_of_get? hfound) hnew
  | some relations =>
      rw [hrow] at hinsert
      obtain rfl := Except.ok.inj hinsert
      have hrows : relations.rows = db.relations.rows ++ [r] := by
        split at hrow
        · exact Table.insert?_rows hrow
        · cases hrow
      refine ⟨?_, ?_, ?_, ?_, ?_, ?_⟩ <;> simp [hrows]

omit [CaptureDocuments] in
theorem restoreRelations_spec {relations : List PrivateLifecycleRelation} (hnodup : relations.Nodup)
    (hnew : ∀ r ∈ relations, r ∉ db.relations.rows)
    (h : runAll restoreRelation db relations = .ok db') : Written db db' [] relations := by
  induction relations generalizing db with
  | nil =>
      obtain rfl := Except.ok.inj h
      exact Written.refl db
  | cons r relations ih =>
      obtain ⟨mid, hr, hrest⟩ := runAll_cons.1 h
      obtain ⟨hout, hnodup⟩ := List.nodup_cons.1 hnodup
      have hwritten := restoreRelation_spec (hnew r List.mem_cons_self) hr
      refine hwritten.trans (ih hnodup (fun other hother hmem => ?_) hrest)
      rw [hwritten.relations, List.mem_append, List.mem_singleton] at hmem
      rcases hmem with hmem | rfl
      · exact hnew other (List.mem_cons_of_mem _ hother) hmem
      · exact hout hother

/-! ### The lifecycle rows -/

omit [CaptureDocuments] in
/-- A lifecycle row is written as it was, token and all. -/
theorem restoreLifecycle_spec {state : PrivateLifecycleState}
    (h : restoreLifecycle db state = .ok db') :
    db'.toContents = db.toContents ∧ ∀ k, db'.lifecycle.get? k =
      if state.recordId = k then some state else db.lifecycle.get? k := by
  obtain ⟨row, hrow, h⟩ := bind_eq_ok.1 h
  rw [require_eq_ok] at hrow
  have hkey : row.recordId = state.recordId := Table.key_of_get? hrow
  obtain ⟨mid, hfacts, h⟩ := bind_eq_ok.1 h
  obtain ⟨-, hfacts⟩ := check_bind_eq_ok.1 hfacts
  obtain rfl := Except.ok.inj hfacts
  obtain ⟨old, hold, h⟩ := bind_eq_ok.1 h
  rw [require_eq_ok] at hold
  have hrows : ∀ k, k ≠ state.recordId → (Db.touch (Db.rotateVersion { db with
      lifecycle := db.lifecycle.set { row with toLifecycleFacts := state.toLifecycleFacts } }
      row.recordId)).lifecycle.get? k = db.lifecycle.get? k := by
    intro k hk
    rw [Db.lifecycle_touch, Db.rotateVersion, Table.get?_update_of_ne _ _ _ (hkey ▸ hk.symm),
      Table.get?_set_of_ne _ (hkey ▸ hk.symm)]
  have hold' := hold
  rw [Db.lifecycle_touch, Db.rotateVersion, hkey, Table.get?_update_self,
    Table.get?_set_self (x := row) (by rw [← hrow])] at hold'
  have hfacts : old.toLifecycleFacts = state.toLifecycleFacts := by
    rw [← Option.some.inj hold']
  rw [Db.changeLifecycle, hold] at h
  dsimp only at h
  obtain ⟨-, h⟩ := check_bind_eq_ok.1 h
  obtain ⟨lifecycle, hlifecycle, h⟩ := bind_eq_ok.1 h
  obtain rfl := Except.ok.inj h
  rw [if_neg (by simp), hfacts] at hlifecycle
  refine ⟨?_, fun k => ?_⟩
  · simp
  · rw [if_neg (by simp)]
    rw [Table.get?_replace? hold (require_eq_ok.1 hlifecycle)]
    by_cases hk : state.recordId = k
    · rw [if_pos hk, if_pos hk]
    · rw [if_neg hk, if_neg hk, if_neg hk]
      exact hrows k (Ne.symm hk)

omit [CaptureDocuments] in
theorem restoreLifecycles_spec {states : List PrivateLifecycleState}
    (hids : (states.map (·.recordId)).Nodup) (h : runAll restoreLifecycle db states = .ok db') :
    db'.toContents = db.toContents ∧ (∀ s ∈ states, db'.lifecycle.get? s.recordId = some s) ∧
      ∀ k, (∀ s ∈ states, s.recordId ≠ k) → db'.lifecycle.get? k = db.lifecycle.get? k := by
  induction states generalizing db with
  | nil =>
      obtain rfl := Except.ok.inj h
      exact ⟨rfl, fun s hs => absurd hs (by simp), fun k _ => rfl⟩
  | cons state states ih =>
      obtain ⟨mid, hstate, hrest⟩ := runAll_cons.1 h
      obtain ⟨hout, hids⟩ := List.nodup_cons.1 hids
      obtain ⟨hmid, hrows⟩ := restoreLifecycle_spec hstate
      obtain ⟨hcontents, hrestored, hkept⟩ := ih hids hrest
      refine ⟨hcontents.trans hmid, fun s hs => ?_, fun k hk => ?_⟩
      · rcases List.mem_cons.1 hs with rfl | hs
        · rw [hkept _ fun other hother heq => hout (List.mem_map.2 ⟨other, hother, heq⟩), hrows,
            if_pos rfl]
        · exact hrestored s hs
      · rw [hkept k fun other hother => hk other (List.mem_cons_of_mem _ hother), hrows,
          if_neg (hk state List.mem_cons_self)]

/-! ### The whole restore -/

/-- **A restore writes the rows of its snapshots and nothing else, and their lifecycle rows as they
were.** -/
theorem restore_spec {deferred : Bool} {snapshots : List RuntimeRecordSnapshot}
    (hwf : ∀ s ∈ snapshots, WellFormed s) (hids : (snapshots.map (·.record.id)).Nodup)
    (hfresh : ∀ s ∈ snapshots, Fresh db s.record.id)
    (h : restoreRuntimeRecordSnapshots deferred db snapshots = .ok db') :
    Written db db' snapshots (snapshots.flatMap (·.lifecycleRelations)) ∧
      ∀ s ∈ snapshots, db'.lifecycle.get? s.record.id = some s.lifecycleState := by
  obtain ⟨parents, hparents, h⟩ := bind_eq_ok.1 h
  obtain ⟨related, hrelated, h⟩ := bind_eq_ok.1 h
  have hfirst := restoreParents_spec hwf hids hfresh hparents
  have hnodup : (snapshots.flatMap (·.lifecycleRelations)).Nodup := by
    refine List.nodup_flatMap.2 ⟨fun s hs => (hwf s hs).distinct, ?_⟩
    refine (List.pairwise_map.1 hids).imp_of_mem ?_
    intro a b ha hb hne r hra hrb
    exact hne (((hwf a ha).subject r hra).symm.trans ((hwf b hb).subject r hrb))
  have hsecond := restoreRelations_spec hnodup (by
    intro r hr hmem
    obtain ⟨s, hs, hr⟩ := List.mem_flatMap.1 hr
    rw [hfirst.relations, List.append_nil] at hmem
    exact (hfresh s hs).relations r hmem ((hwf s hs).subject r hr)) hrelated
  have hkeys : (snapshots.map (·.lifecycleState)).map (·.recordId) = snapshots.map (·.record.id) := by
    rw [List.map_map]
    exact List.map_congr_left fun s hs => (hwf s hs).state
  obtain ⟨hcontents, hrestored, -⟩ := restoreLifecycles_spec (hkeys ▸ hids) h
  have hwritten := hfirst.trans hsecond
  rw [List.append_nil, List.nil_append] at hwritten
  refine ⟨⟨?_, ?_, ?_, ?_, ?_, ?_⟩, fun s hs => ?_⟩
  · rw [hcontents]
    exact hwritten.records
  · rw [hcontents]
    exact hwritten.captures
  · rw [hcontents]
    exact hwritten.tags
  · rw [hcontents]
    exact hwritten.paths
  · rw [hcontents]
    exact hwritten.relations
  · rw [hcontents]
    exact hwritten.rest
  · rw [← (hwf s hs).state]
    exact hrestored _ (List.mem_map_of_mem hs)

end Statements

/-! ### Reading back -/

/-- Of the rows that belong to snapshots, those of one id are those of its snapshot. -/
theorem filter_owned {α : Type} {rows : RuntimeRecordSnapshot → List α} {owner : α → String}
    {snapshots : List RuntimeRecordSnapshot} (howner : ∀ s ∈ snapshots, ∀ a ∈ rows s, owner a = s.record.id)
    (hids : (snapshots.map (·.record.id)).Nodup) {s : RuntimeRecordSnapshot} (hs : s ∈ snapshots) :
    (snapshots.flatMap rows).filter (fun a => owner a = s.record.id) = rows s := by
  induction snapshots with
  | nil => cases hs
  | cons first rest ih =>
      obtain ⟨hout, hids⟩ := List.nodup_cons.1 hids
      rw [List.flatMap_cons, List.filter_append]
      rcases List.mem_cons.1 hs with rfl | hs
      · have hown : (rows s).filter (fun a => owner a = s.record.id) = rows s :=
          List.filter_eq_self.2 fun a ha => by simpa using howner s List.mem_cons_self a ha
        have hnone : (rest.flatMap rows).filter (fun a => owner a = s.record.id) = [] := by
          refine List.filter_eq_nil_iff.2 fun a ha => ?_
          obtain ⟨other, hother, ha⟩ := List.mem_flatMap.1 ha
          have hkey := howner other (List.mem_cons_of_mem _ hother) a ha
          simp only [decide_eq_true_eq, hkey]
          exact fun heq => hout (List.mem_map.2 ⟨other, hother, heq⟩)
        rw [hown, hnone, List.append_nil]
      · have hnone : (rows first).filter (fun a => owner a = s.record.id) = [] := by
          refine List.filter_eq_nil_iff.2 fun a ha => ?_
          have hkey := howner first List.mem_cons_self a ha
          simp only [decide_eq_true_eq, hkey]
          exact fun heq => hout (List.mem_map.2 ⟨s, hs, heq.symm⟩)
        rw [hnone, List.nil_append]
        exact ih (fun other hother => howner other (List.mem_cons_of_mem _ hother)) hids hs

theorem filter_fresh {α : Type} {owner : α → String} {rows : List α} {id : String}
    (h : ∀ a ∈ rows, owner a ≠ id) : rows.filter (fun a => owner a = id) = [] :=
  List.filter_eq_nil_iff.2 fun a ha => by simpa using h a ha

/-- **A restored snapshot is read back as it was.** -/
theorem snapshot_of_written {db db' : Db} {snapshots : List RuntimeRecordSnapshot}
    (hwf : ∀ s ∈ snapshots, WellFormed s) (hids : (snapshots.map (·.record.id)).Nodup)
    (hfresh : ∀ s ∈ snapshots, Fresh db s.record.id)
    (hwritten : Written db db' snapshots (snapshots.flatMap (·.lifecycleRelations)))
    (hstates : ∀ s ∈ snapshots, db'.lifecycle.get? s.record.id = some s.lifecycleState)
    {s : RuntimeRecordSnapshot} (hs : s ∈ snapshots) :
    db'.records.get? s.record.id = some s.record ∧ runtimeRecordSnapshot db' s.record = .ok s := by
  have hrecord : s.record ∈ db'.records.rows := by
    rw [hwritten.records]
    exact List.mem_append_right _ (List.mem_map_of_mem hs)
  refine ⟨Table.get?_of_mem hrecord, ?_⟩
  have hcaptures : db'.captures.rows.filter (·.recordId = s.record.id) = captureRows s := by
    rw [hwritten.captures, List.filter_append, filter_fresh (hfresh s hs).capture, List.nil_append]
    refine filter_owned (fun other _ c hc => ?_) hids hs
    obtain ⟨provenance, -, rfl⟩ := List.mem_map.1 hc
    rfl
  have htags : db'.tags.rows.filter (·.recordId = s.record.id) = tagRows s := by
    rw [hwritten.tags, List.filter_append, filter_fresh (hfresh s hs).tags, List.nil_append]
    refine filter_owned (fun other _ t ht => ?_) hids hs
    obtain ⟨tag, -, rfl⟩ := List.mem_map.1 ht
    rfl
  have hpaths : db'.paths.rows.filter (·.recordId = s.record.id) = pathRows s := by
    rw [hwritten.paths, List.filter_append, filter_fresh (hfresh s hs).paths, List.nil_append]
    refine filter_owned (fun other _ p hp => ?_) hids hs
    obtain ⟨index, hindex, rfl⟩ := List.mem_mapIdx.1 hp
    rfl
  have hrelations : db'.relations.rows.filter (·.subjectRecordId = s.record.id) =
      s.lifecycleRelations := by
    rw [hwritten.relations, List.filter_append, filter_fresh (hfresh s hs).relations,
      List.nil_append]
    exact filter_owned (fun other hother => (hwf other hother).subject) hids hs
  have hcapture : capture? db' s.record.id = s.capture := by
    have hget : db'.captures.get? s.record.id = (captureRows s).head? := by
      rw [← hcaptures, List.head?_filter]
      rfl
    rw [capture?, hget, captureRows]
    cases s.capture <;> rfl
  rw [runtimeRecordSnapshot, Db.requireState, hstates s hs, require_some, ok_bind, hcapture,
    recordTags_eq (hwf s hs) htags, runtimeRecordPaths_eq (hwf s hs) hpaths,
    relationsForSubject_eq (hwf s hs) hrelations]

/-! ### From one database to another -/

theorem recordsForPreservation_ids (db : Db) :
    ((recordsForPreservation db).map (·.id)).Nodup := by
  rw [recordsForPreservation, ((List.perm_insertionSort _ _).map _).nodup_iff]
  exact db.records.nodup.sublist (List.filter_sublist.map _)

/-- The records of snapshots are those they were read of, well formed and without repetition. -/
theorem snapshots_wellFormed {shared : Db} {snapshots : List RuntimeRecordSnapshot}
    (htags : ∀ t ∈ shared.tags.rows, t.admitted = true)
    (h : runtimeRecordSnapshots shared = .ok snapshots) :
    snapshots.map (·.record) = recordsForPreservation shared ∧
      (∀ s ∈ snapshots, WellFormed s) ∧ (snapshots.map (·.record.id)).Nodup := by
  have hrecords : snapshots.map (·.record) = recordsForPreservation shared := by
    have hmap := @map_of_mapAll _ _ _ _ RuntimeRecordSnapshot.record id
      (fun record s hs => (wellFormed_of_snapshot htags hs).1) _ _ h
    rw [hmap, List.map_id]
  refine ⟨hrecords, fun s hs => ?_, ?_⟩
  · obtain ⟨record, -, hs⟩ := (mem_of_mapAll h s).1 hs
    exact (wellFormed_of_snapshot htags hs).2
  · have hids := recordsForPreservation_ids shared
    rw [← hrecords, List.map_map] at hids
    exact hids

/-- **Private memory is carried from one database to another whole**: where nothing is stored under
their ids, restored records are read back with all that belongs to them, down to their tokens, and
the records that were there keep their rows, captures, tags, paths and relations. -/
theorem restore_readBack [Entropy] [CaptureDocuments] {deferred : Bool} {source target target' : Db}
    {snapshots : List RuntimeRecordSnapshot} (htags : ∀ t ∈ source.tags.rows, t.admitted = true)
    (hread : runtimeRecordSnapshots source = .ok snapshots)
    (hfresh : ∀ s ∈ snapshots, Fresh target s.record.id)
    (h : restoreRuntimeRecordSnapshots deferred target snapshots = .ok target') :
    runtimeRecordSnapshotsForIds target' (snapshots.map (·.record.id)) = .ok snapshots ∧
    ∀ id, (∀ s ∈ snapshots, s.record.id ≠ id) →
      target'.records.get? id = target.records.get? id ∧
        capture? target' id = capture? target id ∧ recordTags target' id = recordTags target id ∧
        runtimeRecordPaths target' id = runtimeRecordPaths target id ∧
        relationsForSubject target' id = relationsForSubject target id := by
  obtain ⟨hrecords, hwf, hids⟩ := snapshots_wellFormed htags hread
  obtain ⟨hwritten, hstates⟩ := restore_spec hwf hids hfresh h
  refine ⟨?_, fun id hid => ?_⟩
  · have hfound : ((snapshots.map (·.record.id)).filterMap target'.records.get?) =
        snapshots.map (·.record) := by
      rw [List.filterMap_map, ← List.filterMap_eq_map]
      refine List.filterMap_congr fun s hs => ?_
      exact (snapshot_of_written hwf hids hfresh hwritten hstates hs).1
    have hprivate : ((snapshots.map (·.record)).filter (·.destination.isPrivate)) =
        snapshots.map (·.record) := by
      refine List.filter_eq_self.2 fun r hr => ?_
      rw [hrecords, recordsForPreservation, List.mem_insertionSort] at hr
      exact (List.mem_filter.1 hr).2
    rw [runtimeRecordSnapshotsForIds, hfound, hprivate, mapAll_eq_ok, List.forall₂_map_left_iff,
      List.forall₂_same]
    exact fun s hs => (snapshot_of_written hwf hids hfresh hwritten hstates hs).2
  · -- the rows that are appended belong to other ids
    have hother : ∀ {α : Type} {rows : RuntimeRecordSnapshot → List α} {owner : α → String},
        (∀ s ∈ snapshots, ∀ a ∈ rows s, owner a = s.record.id) → ∀ old : List α,
        (old ++ snapshots.flatMap rows).filter (fun a => owner a = id) =
          old.filter fun a => owner a = id := by
      intro α rows owner howner old
      have hnone : (snapshots.flatMap rows).filter (fun a => owner a = id) = [] := by
        refine filter_fresh fun a ha => ?_
        obtain ⟨s, hs, ha⟩ := List.mem_flatMap.1 ha
        rw [howner s hs a ha]
        exact hid s hs
      rw [List.filter_append, hnone, List.append_nil]
    have hhead : ∀ {ρ : Type} {owner : ρ → String} (t : Table owner),
        t.get? id = (t.rows.filter fun r => owner r = id).head? := by
      intro ρ owner t
      rw [List.head?_filter]
      rfl
    refine ⟨?_, ?_, ?_, ?_, ?_⟩
    · have hnone : (snapshots.map (·.record)).filter (fun r => r.id = id) = [] := by
        refine filter_fresh fun r hr => ?_
        obtain ⟨s, hs, rfl⟩ := List.mem_map.1 hr
        exact hid s hs
      rw [hhead, hhead, hwritten.records, List.filter_append, hnone, List.append_nil]
    · rw [capture?, capture?, hhead, hhead, hwritten.captures, hother fun s _ c hc => ?_]
      obtain ⟨provenance, -, rfl⟩ := List.mem_map.1 hc
      rfl
    · rw [recordTags, recordTags, hwritten.tags, hother fun s _ t ht => ?_]
      obtain ⟨tag, -, rfl⟩ := List.mem_map.1 ht
      rfl
    · rw [runtimeRecordPaths, runtimeRecordPaths, hwritten.paths, hother fun s _ p hp => ?_]
      obtain ⟨index, hindex, rfl⟩ := List.mem_mapIdx.1 hp
      rfl
    · rw [relationsForSubject, relationsForSubject, hwritten.relations,
        hother fun s hs => (hwf s hs).subject]

/-- Two private records, one with a tag and a path and renewed by the other. -/
def renewedPair : Db := @Db.executeAll Entropy.cycling (Db.initial "2026-07-14T09:00:00Z")
  [.records [.insert (sampleRecord "a" .«local»), .insert (sampleRecord "b" .session)],
    .tags [.insert ⟨"a", "rust"⟩], .paths [.insert ⟨"p", "a", none, "src", none, some 1, some 2⟩],
    .relations [.insert ⟨"r", .renewedBy, "a", "b", "application", "2026-07-14T11:00:00Z"⟩]]

theorem restore_readBack_renewedPair :
    ∃ snapshots target', runtimeRecordSnapshots renewedPair = .ok snapshots ∧
      (snapshots.flatMap (·.lifecycleRelations)).length = 1 ∧
      runtimeRecordSnapshotsForIds target' (snapshots.map (·.record.id)) = .ok snapshots := by
  obtain ⟨snapshots, hread, hcheck⟩ := ok_of_any (show (runtimeRecordSnapshots renewedPair).toOption.any
    (fun snapshots => (snapshots.flatMap (·.lifecycleRelations)).length == 1 &&
      (@restoreRuntimeRecordSnapshots Entropy.cycling CaptureDocuments.unknown false
        (Db.initial "2026-07-14T09:00:00Z") snapshots).toOption.any fun _ => true) = true by
      decide +kernel)
  rw [Bool.and_eq_true, beq_iff_eq] at hcheck
  obtain ⟨target', hrestored, -⟩ := ok_of_any hcheck.2
  refine ⟨snapshots, target', hread, hcheck.1, ?_⟩
  refine (@restore_readBack Entropy.cycling CaptureDocuments.unknown false renewedPair _ target' _
    (by decide +kernel) hread (fun s _ => ?_) hrestored).1
  constructor <;> simp [Db.initial, Table.empty, Table.get?]

end Preservation
end Memzoi
