/-
# What the schema holds of every database

Source: `schema.rs`, `CURRENT_SCHEMA`.

`Constrained` collects the `CHECK` and `REFERENCES` constraints of a private
record's tables, which the engine enforces on every stored row. Each row
operation that a lifecycle command uses succeeds on a constrained database once
its own new row meets the constraints, and leaves one (`Wrote`): it changes the
lifecycle rows of the ids it names and no other, dates the rows it writes by one
instant, and uses up a known number of draws.
-/

import Memzoi.Storage

namespace Memzoi
namespace Db

open Fallible

/-- The constraints of the stored rows. -/
structure Constrained (db : Db) : Prop where
  records : ∀ id r, db.records.get? id = some r → r.admitted = true
  supersedes : ∀ id r, db.records.get? id = some r → db.supersedesHolds r = true
  lifecycle : ∀ id s, db.lifecycle.get? id = some s → s.admitted = true ∧ db.hasRecord id = true
  tags : ∀ k t, db.tags.get? k = some t → t.admitted = true ∧ db.hasRecord t.recordId = true
  paths : ∀ k p, db.paths.get? k = some p → p.admitted = true ∧ db.hasRecord p.recordId = true

/-- The lifecycle row of the record was last written at the instant. -/
def StampedAt (db : Db) (stamp id : String) : Prop :=
  ∃ s, db.lifecycle.get? id = some s ∧ s.updatedAt = stamp

variable [Entropy]

/-- The next `k` generated ids are new to the database and differ from each other. -/
structure Unique (db : Db) (k : Nat) : Prop where
  distinct : ∀ m n, db.draws ≤ m → m < n → n < db.draws + k → Entropy.uuid m ≠ Entropy.uuid n
  relations : ∀ n, db.draws ≤ n → n < db.draws + k →
    db.relations.get? ("relation_" ++ Entropy.uuid n) = none
  paths : ∀ n, db.draws ≤ n → n < db.draws + k → db.paths.get? ("path_" ++ Entropy.uuid n) = none

/-- A write at an instant that stays within the constraints, changes the lifecycle rows of the
listed ids only, drops none, and uses up at most `k` draws. -/
structure Wrote (stamp : String) (ids : List String) (k : Nat) (db db' : Db) : Prop where
  constrained : Constrained db'
  stamped : ∀ id, db.StampedAt stamp id → db'.StampedAt stamp id
  frame : ∀ id, id ∉ ids → db'.lifecycle.get? id = db.lifecycle.get? id
  kept : ∀ id, (db.lifecycle.get? id).isSome = true → (db'.lifecycle.get? id).isSome = true
  unique : ∀ n, Unique db (k + n) → Unique db' n

theorem Unique.mono {db : Db} {k n : Nat} (h : Unique db n) (hle : k ≤ n) : Unique db k where
  distinct m m' hm hlt hlim := h.distinct m m' hm hlt (by omega)
  relations m hm hlim := h.relations m hm (by omega)
  paths m hm hlim := h.paths m hm (by omega)

/-- Draws that were used up without a write leave the later ones new. -/
theorem Unique.later {db : Db} {k m n : Nat} (h : Unique db m) (hle : db.draws ≤ n)
    (hlim : n + k ≤ db.draws + m) : Unique { db with draws := n } k where
  distinct i j hi hlt hj := h.distinct i j (by dsimp only at hi; omega) hlt
    (by dsimp only at hj; omega)
  relations i hi hj := h.relations i (by dsimp only at hi; omega) (by dsimp only at hj; omega)
  paths i hi hj := h.paths i (by dsimp only at hi; omega) (by dsimp only at hj; omega)

theorem Wrote.refl {stamp : String} {db : Db} (h : Constrained db) : Wrote stamp [] 0 db db where
  constrained := h
  stamped _ hid := hid
  frame _ _ := rfl
  kept _ hid := hid
  unique n hunique := hunique.mono (by omega)

theorem Wrote.trans {stamp : String} {ids ids' : List String} {k k' : Nat} {db₁ db₂ db₃ : Db}
    (h : Wrote stamp ids k db₁ db₂) (h' : Wrote stamp ids' k' db₂ db₃) :
    Wrote stamp (ids ++ ids') (k + k') db₁ db₃ where
  constrained := h'.constrained
  stamped id hid := h'.stamped id (h.stamped id hid)
  frame id hid := by
    rw [List.mem_append, not_or] at hid
    rw [h'.frame id hid.2, h.frame id hid.1]
  kept id hid := h'.kept id (h.kept id hid)
  unique n hunique := h'.unique n (h.unique (k' + n) (by rwa [← Nat.add_assoc]))

/-- A write is also one of more ids and more draws. -/
theorem Wrote.mono {stamp : String} {ids ids' : List String} {k k' : Nat} {db db' : Db}
    (h : Wrote stamp ids k db db') (hids : ∀ id ∈ ids, id ∈ ids') (hle : k ≤ k') :
    Wrote stamp ids' k' db db' where
  constrained := h.constrained
  stamped := h.stamped
  frame id hid := h.frame id (fun hmem => hid (hids id hmem))
  kept := h.kept
  unique n hunique := h.unique n (hunique.mono (by omega))

/-! ### Bookkeeping -/

/-- A write of the lifecycle table and the bookkeeping of the triggers. -/
theorem wrote_of_lifecycle {stamp : String} {db db' : Db} {ids : List String} {k : Nat}
    (h : Constrained db)
    (hcontents : db'.toContents = db.toContents)
    (hrows : ∀ id s, db'.lifecycle.get? id = some s → s.admitted = true ∧ db.hasRecord id = true)
    (hframe : ∀ id, id ∉ ids → db'.lifecycle.get? id = db.lifecycle.get? id)
    (hstamped : ∀ id, db.StampedAt stamp id → db'.StampedAt stamp id)
    (hkept : ∀ id, (db.lifecycle.get? id).isSome = true → (db'.lifecycle.get? id).isSome = true)
    (hdraws : db'.draws = db.draws + k) : Wrote stamp ids k db db' where
  constrained := by
    refine ⟨?_, ?_, ?_, ?_, ?_⟩
    · rw [hcontents]; exact h.records
    · rw [hcontents]; exact h.supersedes
    · rw [hcontents]; exact hrows
    · rw [hcontents]; exact h.tags
    · rw [hcontents]; exact h.paths
  stamped := hstamped
  frame := hframe
  kept := hkept
  unique n hunique := by
    refine ⟨fun m m' hm hlt hlim => ?_, fun m hm hlim => ?_, fun m hm hlim => ?_⟩
    · exact hunique.distinct m m' (by omega) hlt (by omega)
    · rw [hcontents]; exact hunique.relations m (by omega) (by omega)
    · rw [hcontents]; exact hunique.paths m (by omega) (by omega)

/-- A change of one lifecycle row in place. -/
theorem wrote_of_update {stamp : String} {db db' : Db} {id : String} {k : Nat}
    {f : PrivateLifecycleState → PrivateLifecycleState} (hf : ∀ s, (f s).recordId = s.recordId)
    (h : Constrained db) (hcontents : db'.toContents = db.toContents)
    (hlifecycle : db'.lifecycle = db.lifecycle.update id f hf)
    (hadmitted : ∀ s, s.admitted = true → (f s).admitted = true)
    (hstamp : ∀ s, s.updatedAt = stamp → (f s).updatedAt = stamp)
    (hdraws : db'.draws = db.draws + k) : Wrote stamp [id] k db db' := by
  refine wrote_of_lifecycle h hcontents ?_ ?_ ?_ ?_ hdraws
  · intro x s hs
    rw [hlifecycle, Table.get?_update] at hs
    split at hs
    · obtain ⟨old, hold, rfl⟩ := Option.map_eq_some_iff.1 hs
      obtain ⟨hrow, hrecord⟩ := h.lifecycle x old hold
      exact ⟨hadmitted old hrow, hrecord⟩
    · exact h.lifecycle x s hs
  · intro x hx
    have hne : id ≠ x := fun heq => hx (heq ▸ List.mem_cons_self)
    rw [hlifecycle]
    exact Table.get?_update_of_ne _ f hf hne
  · rintro x ⟨s, hs, hupdatedAt⟩
    rw [StampedAt, hlifecycle, Table.get?_update, hs]
    split
    · exact ⟨f s, rfl, hstamp s hupdatedAt⟩
    · exact ⟨s, rfl, hupdatedAt⟩
  · intro x hx
    rw [hlifecycle, Table.get?_update]
    split
    · rwa [Option.isSome_map]
    · exact hx

/-- A replacement of one lifecycle row. -/
theorem wrote_of_set {db db' : Db} {s : PrivateLifecycleState} {k : Nat} (h : Constrained db)
    (hcontents : db'.toContents = db.toContents) (hlifecycle : db'.lifecycle = db.lifecycle.set s)
    (hadmitted : s.admitted = true) (hdraws : db'.draws = db.draws + k) :
    Wrote s.updatedAt [s.recordId] k db db' := by
  refine wrote_of_lifecycle h hcontents ?_ ?_ ?_ ?_ hdraws
  · intro x t ht
    rw [hlifecycle, Table.get?_set] at ht
    split at ht
    · obtain ⟨old, hold, rfl⟩ := Option.map_eq_some_iff.1 ht
      exact ⟨hadmitted, (h.lifecycle x old hold).2⟩
    · exact h.lifecycle x t ht
  · intro x hx
    have hne : s.recordId ≠ x := fun heq => hx (heq ▸ List.mem_cons_self)
    rw [hlifecycle]
    exact Table.get?_set_of_ne _ hne
  · rintro x ⟨t, ht, hupdatedAt⟩
    rw [StampedAt, hlifecycle, Table.get?_set, ht]
    split
    · exact ⟨s, rfl, rfl⟩
    · exact ⟨t, rfl, hupdatedAt⟩
  · intro x hx
    rw [hlifecycle, Table.get?_set]
    split
    · rwa [Option.isSome_map]
    · exact hx

/-- The two statements that end most triggers write no row of a private record. -/
theorem wrote_touch (stamp : String) {db : Db} (h : Constrained db) :
    Wrote stamp [] 2 db db.touch :=
  wrote_of_lifecycle h rfl h.lifecycle (fun _ _ => rfl) (fun _ hid => hid) (fun _ hid => hid) rfl

/-- A row keeps its constraints under a new token and a new instant. -/
theorem admitted_stamped {s : PrivateLifecycleState} {n : Nat} {updatedAt : String}
    (h : s.admitted = true) (hupdatedAt : Text.sqlNonBlank updatedAt = true) :
    PrivateLifecycleState.admitted
      { s with recordVersion := Entropy.blob n, updatedAt := updatedAt } = true := by
  simp only [PrivateLifecycleState.admitted, Bool.and_eq_true] at h ⊢
  exact ⟨⟨⟨h.1.1.1, Entropy.blob_hex n⟩, hupdatedAt⟩, h.2⟩

omit [Entropy] in
theorem updatedAt_of_admitted {s : PrivateLifecycleState} (h : s.admitted = true) :
    Text.sqlNonBlank s.updatedAt = true := by
  simp only [PrivateLifecycleState.admitted, Bool.and_eq_true] at h
  exact h.1.2

theorem wrote_rotateVersion (stamp : String) {db : Db} (h : Constrained db) (id : String) :
    Wrote stamp [id] 1 db (db.rotateVersion id) := by
  refine wrote_of_update (f := fun s => { s with recordVersion := Entropy.blob db.draws })
    (fun _ => rfl) h rfl rfl ?_ (fun _ hs => hs) rfl
  intro s hs
  exact admitted_stamped hs (updatedAt_of_admitted hs)

theorem wrote_stampLifecycle {db : Db} (h : Constrained db) (id : String) {createdAt : String}
    (hcreatedAt : Text.sqlNonBlank createdAt = true) :
    Wrote createdAt [id] 1 db (db.stampLifecycle id createdAt) := by
  refine wrote_of_update
    (f := fun s => { s with recordVersion := Entropy.blob db.draws, updatedAt := createdAt })
    (fun _ => rfl) h rfl rfl ?_ (fun _ _ => rfl) rfl
  intro s hs
  exact admitted_stamped hs hcreatedAt

/-- A row that is there carries the instant afterwards. -/
theorem stampedAt_stampLifecycle {db : Db} {id createdAt : String}
    (h : (db.lifecycle.get? id).isSome = true) :
    (db.stampLifecycle id createdAt).StampedAt createdAt id := by
  obtain ⟨s, hs⟩ := Option.isSome_iff_exists.1 h
  refine ⟨{ s with recordVersion := Entropy.blob db.draws, updatedAt := createdAt }, ?_, rfl⟩
  rw [stampLifecycle, Table.get?_update_self, hs]
  rfl

/-- A row of the child tables of one record. -/
theorem wrote_childTouched (stamp : String) {db : Db} (h : Constrained db) (id : String) :
    Wrote stamp [id] 3 db (db.childTouched id id) := by
  unfold childTouched rotateVersions
  split
  · rw [if_pos rfl]
    have hrotate := wrote_rotateVersion stamp h id
    exact (hrotate.trans (wrote_touch stamp hrotate.constrained)).mono (by simp) (by omega)
  · exact (Wrote.refl h).mono (by simp) (by omega)

/-! ### Rows of a private record -/

/-- New facts for an existing row. -/
theorem updateLifecycleFacts_wrote {db : Db} {s : PrivateLifecycleState} (h : Constrained db)
    (hrow : (db.lifecycle.get? s.recordId).isSome = true) (hadmitted : s.admitted = true) :
    ∃ db', db.updateLifecycleFacts s = .ok db' ∧ Wrote s.updatedAt [s.recordId] 3 db db' ∧
      db'.StampedAt s.updatedAt s.recordId := by
  have hset : Wrote s.updatedAt [s.recordId] 0 db { db with lifecycle := db.lifecycle.set s } :=
    wrote_of_set h rfl rfl hadmitted rfl
  have hstamped : StampedAt { db with lifecycle := db.lifecycle.set s } s.updatedAt s.recordId := by
    obtain ⟨old, hold⟩ := Option.isSome_iff_exists.1 hrow
    exact ⟨s, Table.get?_set_self hold, rfl⟩
  have hrotate := wrote_rotateVersion s.updatedAt hset.constrained s.recordId
  have htouch := wrote_touch s.updatedAt hrotate.constrained
  refine ⟨_, check_bind_eq_ok.2 ⟨ensure_of hadmitted, rfl⟩,
    ((hset.trans hrotate).trans htouch).mono (by simp) (by omega), ?_⟩
  exact htouch.stamped _ (hrotate.stamped _ hstamped)

/-- A changed row of a stored private record, with the lifecycle row it has. -/
theorem updateRecord_wrote {db : Db} (old new : MemoryRecord) (h : Constrained db)
    (hstored : (db.records.get? new.id).isSome = true)
    (hlifecycle : (db.lifecycle.get? new.id).isSome = true)
    (hprivate : new.destination.isPrivate = true) (hadmitted : new.admitted = true)
    (hupdatedAt : Text.sqlNonBlank new.updatedAt = true)
    (hsupersedes : db.supersedesHolds new = true) :
    ∃ db', db.updateRecord old new = .ok db' ∧ Wrote new.updatedAt [new.id] 3 db db' ∧
      db'.StampedAt new.updatedAt new.id := by
  obtain ⟨s, hs⟩ := Option.isSome_iff_exists.1 hlifecycle
  have hget : ∀ id, (db.records.set new).get? id =
      if new.id = id then some new else db.records.get? id := by
    intro id
    rw [Table.get?_set]
    by_cases hid : new.id = id
    · obtain ⟨x, hx⟩ := Option.isSome_iff_exists.1 hstored
      rw [if_pos hid, if_pos hid, ← hid, hx]
      rfl
    · rw [if_neg hid, if_neg hid]
  have hhas : ∀ id, Contents.hasRecord { db.toContents with records := db.records.set new } id =
      db.hasRecord id := by
    intro id
    simp only [Contents.hasRecord, hget]
    split
    · rename_i hid
      rw [← hid, hstored]
      rfl
    · rfl
  have hholds : ∀ r, Contents.supersedesHolds
      { db.toContents with records := db.records.set new } r = db.supersedesHolds r := by
    intro r
    simp only [Contents.supersedesHolds, hhas]
  -- the record row first, which no lifecycle row notices
  have hrecord : Wrote new.updatedAt [new.id] 0 db { db with records := db.records.set new } := by
    refine ⟨⟨?_, ?_, ?_, ?_, ?_⟩, fun _ hid => hid, fun _ _ => rfl, fun _ hid => hid,
      fun n hunique => ?_⟩
    · intro id r hr
      rw [hget] at hr
      split at hr
      · rw [← Option.some.inj hr]
        exact hadmitted
      · exact h.records id r hr
    · intro id r hr
      rw [hholds]
      rw [hget] at hr
      split at hr
      · rw [← Option.some.inj hr]
        exact hsupersedes
      · exact h.supersedes id r hr
    · intro id t ht
      rw [hhas]
      exact h.lifecycle id t ht
    · intro k t ht
      rw [hhas]
      exact h.tags k t ht
    · intro k p hp
      rw [hhas]
      exact h.paths k p hp
    · exact ⟨fun m m' hm hlt hlim => hunique.distinct m m' hm hlt (by dsimp only at hlim; omega),
        fun m hm hlim => hunique.relations m hm (by dsimp only at hlim; omega),
        fun m hm hlim => hunique.paths m hm (by dsimp only at hlim; omega)⟩
  have hsadmitted : PrivateLifecycleState.admitted
      { s with recordVersion := Entropy.blob db.draws, updatedAt := new.updatedAt } = true :=
    admitted_stamped (h.lifecycle new.id s hs).1 hupdatedAt
  have hsid : s.recordId = new.id := Table.key_of_get? hs
  have hupsert : Wrote new.updatedAt [new.id] 1 { db with records := db.records.set new }
      { db with
        records := db.records.set new
        lifecycle := db.lifecycle.set
          { s with recordVersion := Entropy.blob db.draws, updatedAt := new.updatedAt }
        draws := db.draws + 1 } := by
    rw [← hsid]
    exact wrote_of_set
      (s := { s with recordVersion := Entropy.blob db.draws, updatedAt := new.updatedAt })
      hrecord.constrained rfl rfl hsadmitted rfl
  have htouch := wrote_touch new.updatedAt hupsert.constrained
  refine ⟨_, ?_, ((hrecord.trans hupsert).trans htouch).mono (by simp) (by omega), ?_⟩
  swap
  · rw [← hsid]
    exact ⟨_, Table.get?_set_self (t := db.lifecycle)
      (r := { s with recordVersion := Entropy.blob db.draws, updatedAt := new.updatedAt })
      (hs.symm ▸ congrArg db.lifecycle.get? hsid), rfl⟩
  simp only [updateRecord, recordUpdated, upsertLifecycle, hprivate, if_true, hs, hadmitted,
    hsadmitted, ensure_of, ok_bind]
  rw [ensure_of]
  · rfl
  · exact (hholds new).trans hsupersedes

omit [Entropy] in
/-- A record that is stored before an insertion is stored after it. -/
theorem hasRecord_of_insert {db : Db} {r : MemoryRecord} {records : Table MemoryRecord.id}
    (h : db.records.insert? r = some records) {id : String} (hid : db.hasRecord id = true) :
    Contents.hasRecord { db.toContents with records := records } id = true := by
  simp only [Contents.hasRecord, Table.get?_insert? h]
  split
  · rfl
  · exact hid

omit [Entropy] in
theorem supersedesHolds_of_insert {db : Db} {r s : MemoryRecord}
    {records : Table MemoryRecord.id} (h : db.records.insert? r = some records)
    (hs : db.supersedesHolds s = true) :
    Contents.supersedesHolds { db.toContents with records := records } s = true := by
  unfold Contents.supersedesHolds at hs ⊢
  split at hs
  · exact hasRecord_of_insert h hs
  · rfl

/-- A new private record, and the lifecycle row its trigger makes. -/
theorem insertRecord_wrote {db : Db} {r : MemoryRecord} (h : Constrained db)
    (hfresh : db.records.get? r.id = none) (hprivate : r.destination.isPrivate = true)
    (hadmitted : r.admitted = true) (hupdatedAt : Text.sqlNonBlank r.updatedAt = true)
    (hsupersedes : db.supersedesHolds r = true) :
    ∃ db', db.insertRecord r = .ok db' ∧ Wrote r.updatedAt [r.id] 3 db db' ∧
      (db'.lifecycle.get? r.id).isSome = true := by
  obtain ⟨records, hrecords⟩ := Table.exists_insert? hfresh
  have hget := Table.get?_insert? hrecords
  have hstored : Contents.hasRecord { db.toContents with records := records } r.id = true := by
    simp only [Contents.hasRecord, hget, if_true, Option.isSome_some]
  have hrecord : Wrote r.updatedAt [r.id] 0 db { db with records := records } := by
    refine ⟨⟨?_, ?_, ?_, ?_, ?_⟩, fun _ hid => hid, fun _ _ => rfl, fun _ hid => hid,
      fun n hunique => ?_⟩
    · intro id x hx
      rw [hget] at hx
      split at hx
      · rw [← Option.some.inj hx]
        exact hadmitted
      · exact h.records id x hx
    · intro id x hx
      refine supersedesHolds_of_insert hrecords ?_
      rw [hget] at hx
      split at hx
      · rw [← Option.some.inj hx]
        exact hsupersedes
      · exact h.supersedes id x hx
    · intro id s hs
      obtain ⟨hrow, hid⟩ := h.lifecycle id s hs
      exact ⟨hrow, hasRecord_of_insert hrecords hid⟩
    · intro k t ht
      obtain ⟨hrow, hid⟩ := h.tags k t ht
      exact ⟨hrow, hasRecord_of_insert hrecords hid⟩
    · intro k p hp
      obtain ⟨hrow, hid⟩ := h.paths k p hp
      exact ⟨hrow, hasRecord_of_insert hrecords hid⟩
    · exact ⟨fun m m' hm hlt hlim => hunique.distinct m m' hm hlt (by dsimp only at hlim; omega),
        fun m hm hlim => hunique.relations m hm (by dsimp only at hlim; omega),
        fun m hm hlim => hunique.paths m hm (by dsimp only at hlim; omega)⟩
  -- no lifecycle row can be there before its record
  have hnone : db.lifecycle.get? r.id = none := by
    cases hs : db.lifecycle.get? r.id with
    | none => rfl
    | some s =>
        have hid := (h.lifecycle r.id s hs).2
        rw [Contents.hasRecord, hfresh] at hid
        cases hid
  obtain ⟨lifecycle, hlifecycle⟩ := Table.exists_insert?
    (t := db.lifecycle) (r := newLifecycle { db with records := records } r) hnone
  have hnewAdmitted : (newLifecycle { db with records := records } r).admitted = true := by
    simp only [PrivateLifecycleState.admitted, newLifecycle, LifecycleFacts.initial,
      Entropy.blob_hex, hupdatedAt]
    rfl
  have hrows : Wrote r.updatedAt [r.id] 1 { db with records := records }
      { db with records := records, lifecycle := lifecycle, draws := db.draws + 1 } := by
    refine wrote_of_lifecycle hrecord.constrained rfl ?_ ?_ ?_ ?_ rfl
    · intro id s hs
      rw [Table.get?_insert? hlifecycle] at hs
      split at hs
      · rename_i hid
        rw [← Option.some.inj hs, ← hid]
        exact ⟨hnewAdmitted, hstored⟩
      · exact hrecord.constrained.lifecycle id s hs
    · intro id hid
      have hne : r.id ≠ id := fun heq => hid (heq ▸ List.mem_cons_self)
      rw [Table.get?_insert? hlifecycle]
      exact if_neg hne
    · rintro id ⟨s, hs, hupdatedAt⟩
      rw [StampedAt, Table.get?_insert? hlifecycle]
      split
      · exact ⟨_, rfl, rfl⟩
      · exact ⟨s, hs, hupdatedAt⟩
    · intro id hid
      rw [Table.get?_insert? hlifecycle]
      split
      · rfl
      · exact hid
  have htouch := wrote_touch r.updatedAt hrows.constrained
  refine ⟨_, ?_, ((hrecord.trans hrows).trans htouch).mono (by simp) (by omega), ?_⟩
  · simp only [insertRecord, recordInserted, insertLifecycle, hadmitted, hrecords, hprivate,
      if_true, require_some, ok_bind, ensure_of]
    rw [ensure_of (by simpa only [newLifecycle, Contents.hasPrivate, hget, if_true] using hprivate),
      ok_bind, ensure_of hnewAdmitted, ok_bind]
    rw [show db.lifecycle.insert? (newLifecycle { db with records := records } r) = some lifecycle
      from hlifecycle, require_some, ok_bind]
    exact check_bind_eq_ok.2 ⟨ensure_of (supersedesHolds_of_insert hrecords hsupersedes), rfl⟩
  · rw [lifecycle_touch, Table.get?_insert? hlifecycle]
    exact congrArg Option.isSome (if_pos rfl)

/-! ### Relations, tags and paths -/

omit [Entropy] in
theorem prefix_ne {p a b : String} (h : a ≠ b) : p ++ a ≠ p ++ b := by
  intro heq
  exact h ((String.append_right_inj p).1 heq)

/-- A new relation of two private records, under a generated id. -/
theorem insertRelation_wrote {db : Db} {r : PrivateLifecycleRelation} (h : Constrained db)
    (hunique : Unique db 1) (hid : r.id = "relation_" ++ Entropy.uuid db.draws)
    (hsubject : db.hasPrivate r.subjectRecordId = true)
    (hrelated : db.hasPrivate r.relatedRecordId = true) (hadmitted : r.admitted = true)
    (hnew : ∀ other ∈ db.relations.rows, other.uniqueKey ≠ r.uniqueKey) :
    ∃ db', Db.insertRelation { db with draws := db.draws + 1 } r = .ok db' ∧
      Wrote r.createdAt [r.subjectRecordId, r.relatedRecordId] 5 db db' ∧
      ((db.lifecycle.get? r.relatedRecordId).isSome = true →
        db'.StampedAt r.createdAt r.relatedRecordId) := by
  have hfresh : db.relations.get? r.id = none := by
    rw [hid]
    exact hunique.relations db.draws (le_refl _) (by omega)
  obtain ⟨relations, hrelations⟩ := Table.exists_insert? hfresh
  have hcreatedAt : Text.sqlNonBlank r.createdAt = true := by
    simp only [PrivateLifecycleRelation.admitted, Bool.and_eq_true] at hadmitted
    exact hadmitted.1.2
  have hrelation : Wrote r.createdAt [] 1 db
      { db with relations := relations, draws := db.draws + 1 } := by
    refine ⟨⟨h.records, h.supersedes, h.lifecycle, h.tags, h.paths⟩, fun _ hid => hid,
      fun _ _ => rfl, fun _ hid => hid, fun n hn => ?_⟩
    refine ⟨fun m m' hm hlt hlim => ?_, fun m hm hlim => ?_, fun m hm hlim => ?_⟩
    · exact hn.distinct m m' (by dsimp only at hm; omega) hlt (by dsimp only at hlim; omega)
    · dsimp only at hm hlim ⊢
      rw [Table.get?_insert? hrelations, if_neg]
      · exact hn.relations m (by omega) (by omega)
      · rw [hid]
        exact prefix_ne (hn.distinct db.draws m (le_refl _) (by omega) (by omega))
    · exact hn.paths m (by dsimp only at hm; omega) (by dsimp only at hlim; omega)
  have hstamp := wrote_stampLifecycle hrelation.constrained r.subjectRecordId hcreatedAt
  have hstamp' := wrote_stampLifecycle hstamp.constrained r.relatedRecordId hcreatedAt
  have htouch := wrote_touch r.createdAt hstamp'.constrained
  refine ⟨_, ?_, (((hrelation.trans hstamp).trans hstamp').trans htouch).mono (by simp)
    (by omega), fun hrow => ?_⟩
  swap
  · exact htouch.stamped _ (stampedAt_stampLifecycle (hstamp.kept _ hrow))
  unfold insertRelation
  refine check_bind_eq_ok.2 ⟨ensure_of ⟨hsubject, hrelated⟩, check_bind_eq_ok.2
    ⟨ensure_of hadmitted, check_bind_eq_ok.2 ⟨ensure_of hnew, bind_eq_ok.2 ⟨relations, ?_, rfl⟩⟩⟩⟩
  exact require_eq_ok.2 hrelations

/-- A new tag of a stored record. -/
theorem insertTag_wrote {stamp : String} {db : Db} {t : MemoryTag} (h : Constrained db)
    (hfresh : db.tags.get? t.key = none) (hadmitted : t.admitted = true)
    (hrecord : db.hasRecord t.recordId = true) :
    ∃ db', db.insertTag t = .ok db' ∧ Wrote stamp [t.recordId] 3 db db' := by
  obtain ⟨tags, htags⟩ := Table.exists_insert? hfresh
  have htag : Wrote stamp [] 0 db { db with tags := tags } := by
    refine ⟨⟨h.records, h.supersedes, h.lifecycle, fun k x hx => ?_, h.paths⟩, fun _ hid => hid,
      fun _ _ => rfl, fun _ hid => hid, fun n hn => ?_⟩
    · rw [Table.get?_insert? htags] at hx
      split at hx
      · rw [← Option.some.inj hx]
        exact ⟨hadmitted, hrecord⟩
      · exact h.tags k x hx
    · exact ⟨fun m m' hm hlt hlim => hn.distinct m m' hm hlt (by dsimp only at hlim; omega),
        fun m hm hlim => hn.relations m hm (by dsimp only at hlim; omega),
        fun m hm hlim => hn.paths m hm (by dsimp only at hlim; omega)⟩
  have htouched := wrote_childTouched stamp htag.constrained t.recordId
  refine ⟨_, ?_, (htag.trans htouched).mono (by simp) (by omega)⟩
  simp only [insertTag]
  rw [ensure_of hadmitted, ok_bind, htags, require_some, ok_bind, ensure_of hrecord, ok_bind]

/-- A new path of a stored record, under a generated id. -/
theorem insertPath_wrote {stamp : String} {db : Db} {p : MemoryPath} (h : Constrained db) (hunique : Unique db 1)
    (hid : p.id = "path_" ++ Entropy.uuid db.draws) (hadmitted : p.admitted = true)
    (hrecord : db.hasRecord p.recordId = true) :
    ∃ db', Db.insertPath { db with draws := db.draws + 1 } p = .ok db' ∧
      Wrote stamp [p.recordId] 4 db db' := by
  have hfresh : db.paths.get? p.id = none := by
    rw [hid]
    exact hunique.paths db.draws (le_refl _) (by omega)
  obtain ⟨paths, hpaths⟩ := Table.exists_insert? hfresh
  have hpath : Wrote stamp [] 1 db { db with paths := paths, draws := db.draws + 1 } := by
    refine ⟨⟨h.records, h.supersedes, h.lifecycle, h.tags, fun k x hx => ?_⟩, fun _ hid => hid,
      fun _ _ => rfl, fun _ hid => hid, fun n hn => ?_⟩
    · rw [Table.get?_insert? hpaths] at hx
      split at hx
      · rw [← Option.some.inj hx]
        exact ⟨hadmitted, hrecord⟩
      · exact h.paths k x hx
    · refine ⟨fun m m' hm hlt hlim => ?_, fun m hm hlim => ?_, fun m hm hlim => ?_⟩
      · exact hn.distinct m m' (by dsimp only at hm; omega) hlt (by dsimp only at hlim; omega)
      · exact hn.relations m (by dsimp only at hm; omega) (by dsimp only at hlim; omega)
      · dsimp only at hm hlim ⊢
        rw [Table.get?_insert? hpaths, if_neg]
        · exact hn.paths m (by omega) (by omega)
        · rw [hid]
          exact prefix_ne (hn.distinct db.draws m (le_refl _) (by omega) (by omega))
  have htouched := wrote_childTouched stamp hpath.constrained p.recordId
  refine ⟨_, ?_, (hpath.trans htouched).mono (by simp) (by omega)⟩
  unfold insertPath
  refine check_bind_eq_ok.2 ⟨ensure_of hadmitted, bind_eq_ok.2 ⟨paths, require_eq_ok.2 hpaths, ?_⟩⟩
  exact check_bind_eq_ok.2 ⟨ensure_of hrecord, rfl⟩

end Db
end Memzoi
