/-
# Every write of an admitted action succeeds

Source: `service/private_lifecycle.rs` (`apply_action_group` and the writes
under it).

The executor checks little: a write fails when a row is missing or a constraint
of the schema refuses it. `Ready` lists what an action needs of the visible
store for every write to go through, and `mutateAction_wrote` shows that it is
enough, up to one constraint: the replacement texts of a correction must not be
blank for the engine (`Storable`), which the checks of a request do not imply.
-/

import Memzoi.Constraints
import Memzoi.PrivateLifecycle.Admission

namespace Memzoi
namespace PrivateLifecycle

open Fallible Db

/-! ### What an action needs -/

/-- A record the application can change: private, with a lifecycle row, and the subject of no
relation of the application yet. -/
structure Writable (app : Application) (v : View) (id : String) : Prop where
  isPrivate : ∃ r, IsPrivate v id r
  row : (v.facts id).isSome = true
  unrelated : ∀ e ∈ v.edges, e.applicationId = app.applicationId → e.subject ≠ id

/-- The texts of a correction pass the `CHECK` of their columns. -/
def Storable : PrivateLifecycleAction → Prop
  | .correct _ _ replacement _ _ => Text.sqlNonBlank (Text.trim replacement.title) = true ∧
      Text.sqlNonBlank (Text.trim replacement.body) = true
  | _ => True

/-- An id is reserved exactly for a correction. -/
def Reserved (p : PreparedAction) : Prop :=
  match p.action with
  | .correct .. => p.replacementId.isSome = true
  | _ => p.replacementId = none

theorem Reserved.created {p : PreparedAction} (h : Reserved p) :
    p.created = p.replacementId.toList := by
  obtain ⟨action, replacementId⟩ := p
  cases action with
  | correct => rfl
  | _ => rw [show replacementId = none from h]; rfl

structure Ready (app : Application) (v : View) (p : PreparedAction) : Prop where
  valid : validateAction p.action = .ok ()
  reserved : Reserved p
  admits : Admits v p.action
  writable : ∀ id ∈ p.action.mutationTargets, Writable app v id
  fresh : ∀ id ∈ p.created, v.records id = none

/-- The texts every row of an application carries. -/
structure Stamped (app : Application) : Prop where
  applicationId : Text.sqlNonBlank app.applicationId = true
  appliedAt : Text.sqlNonBlank app.appliedAt = true

/-- The draws an action uses up at most. -/
def PreparedAction.draws (v : View) (p : PreparedAction) : Nat :=
  match p.action with
  | .correct recordId _ _ _ _ =>
    14 + 3 * (v.tags recordId).length + 4 * (v.paths recordId).length
  | action => 11 * action.mutationTargets.length

/-! ### Writable records stay writable -/

theorem Writable.of_agree {app : Application} {v v' : View} {id : String} (h : Writable app v id)
    (hagree : AgreeOn v v' id)
    (hedges : ∀ e ∈ v'.edges, e.applicationId = app.applicationId → e.subject = id → e ∈ v.edges) :
    Writable app v' id := by
  obtain ⟨r, hr⟩ := h.isPrivate
  refine ⟨⟨r, hr.local_ hagree⟩, by rw [hagree.facts]; exact h.row, fun e he happ hid => ?_⟩
  exact h.unrelated e (hedges e he happ hid) happ hid

/-- A change of a record that keeps it private keeps every record writable. -/
theorem Writable.changeRecord {app : Application} {v : View} {id x : String}
    (h : Writable app v x) (update : MemoryRecord → MemoryRecord)
    (hupdate : ∀ r, (update r).id = r.id ∧ (update r).destination = r.destination) :
    Writable app (v.changeRecord id update) x := by
  obtain ⟨r, hr⟩ := h.isPrivate
  by_cases hx : x = id
  · subst hx
    obtain ⟨hid, hdestination⟩ := hupdate r
    refine ⟨⟨update r, View.changeRecord_self hr.stored, hid.trans hr.key, ?_⟩, ?_, h.unrelated⟩
    · rw [hdestination]
      exact hr.isPrivate
    · simp only [View.changeRecord, Function.update_self, Option.isSome_some]
  · exact h.of_agree (agreeOn_changeRecord hx) fun e he _ _ => he

/-- A relation of another subject keeps a record writable. -/
theorem Writable.relate {app : Application} {v : View} {kind : PrivateLifecycleRelationKind}
    {subject related x : String} (h : Writable app v x) (hx : x ≠ subject) :
    Writable app (v.relate kind subject related app) x := by
  refine h.of_agree ((AgreeOn.refl v x).relate kind subject related app) fun e he _ hid => ?_
  rcases Multiset.mem_add.1 he with hold | hnew
  · exact hold
  · rw [Multiset.mem_singleton.1 hnew] at hid
    exact absurd hid.symm hx

theorem Writable.supersedeInto {app : Application} {v : View}
    {kind : PrivateLifecycleRelationKind} {subject related x : String} (h : Writable app v x)
    (hx : x ≠ subject) : Writable app (v.supersedeInto kind subject related app) x :=
  (h.changeRecord (View.supersede app) fun _ => ⟨rfl, rfl⟩).relate hx

/-! ### The writes -/

theorem isSome_lifecycle {db : Db} {id : String} :
    (db.lifecycle.get? id).isSome = ((view db).facts id).isSome := by
  show _ = ((db.lifecycle.get? id).map _).isSome
  rw [Option.isSome_map]

theorem hasPrivate_of {db : Db} {id : String} {r : MemoryRecord} (h : IsPrivate (view db) id r) :
    db.hasPrivate id = true := by
  have hget : db.records.get? id = some r := h.stored
  simp only [Contents.hasPrivate, hget]
  exact h.isPrivate

theorem hasRecord_of {db : Db} {id : String} {r : MemoryRecord} (h : IsPrivate (view db) id r) :
    db.hasRecord id = true := by
  have hget : db.records.get? id = some r := h.stored
  rw [Contents.hasRecord, hget]
  rfl

variable [Entropy]

/-- The id of a relation is short and starts with a letter. -/
theorem shortId_relation (n : Nat) : shortId ("relation_" ++ Entropy.uuid n) = true := by
  have hchars : ("relation_" ++ Entropy.uuid n).toList = "relation_".toList ++ (Entropy.uuid n).toList :=
    String.toList_append
  have hblank : Text.sqlNonBlank ("relation_" ++ Entropy.uuid n) = true :=
    (Text.sqlNonBlank_cons (c := 'r') hchars (by decide)).2 (by decide)
  have hlength : Text.sqlLength ("relation_" ++ Entropy.uuid n).toList ≤ 128 := by
    refine le_trans (List.takeWhile_prefix _).length_le ?_
    rw [hchars, List.length_append, Entropy.uuid_length]
    decide
  rw [shortId, hblank, decide_eq_true hlength]
  rfl

/-- New facts that meet the constraints of the row. -/
theorem updateState_wrote {db : Db} {id : String} (updatedAt : String)
    (update : LifecycleFacts → LifecycleFacts) (hc : Constrained db)
    (hrow : (db.lifecycle.get? id).isSome = true)
    (hupdate : ∀ s, PrivateLifecycleState.admitted s = true → PrivateLifecycleState.admitted
      { s with toLifecycleFacts := update s.toLifecycleFacts, updatedAt := updatedAt } = true) :
    ∃ db', updateState db id updatedAt update = .ok db' ∧ Wrote updatedAt [id] 3 db db' ∧
      db'.StampedAt updatedAt id := by
  obtain ⟨s, hs⟩ := Option.isSome_iff_exists.1 hrow
  obtain rfl : s.recordId = id := Table.key_of_get? hs
  obtain ⟨db', hwrite, hwrote, hstamped⟩ := updateLifecycleFacts_wrote
    (s := { s with toLifecycleFacts := update s.toLifecycleFacts, updatedAt := updatedAt }) hc
    hrow (hupdate s (hc.lifecycle s.recordId s hs).1)
  refine ⟨db', bind_eq_ok.2 ⟨s, require_eq_ok.2 hs, bind_eq_ok.2 ⟨s, ?_, hwrite⟩⟩, hwrote,
    hstamped⟩
  exact require_eq_ok.2 hs

theorem updateRecordStatus_wrote {db : Db} {id : String} {app : Application} (happ : Stamped app)
    (hc : Constrained db) (h : Writable app (view db) id) :
    ∃ db', updateRecordStatus db id .superseded app.appliedAt = .ok db' ∧
      Wrote app.appliedAt [id] 3 db db' ∧ db'.StampedAt app.appliedAt id := by
  obtain ⟨r, hr⟩ := h.isPrivate
  obtain rfl := hr.key
  have hget : db.records.get? r.id = some r := hr.stored
  obtain ⟨db', hwrite, hwrote, hstamped⟩ := updateRecord_wrote r (View.supersede app r) hc
    (by rw [show (View.supersede app r).id = r.id from rfl, hget]; rfl)
    (by rw [isSome_lifecycle]; exact h.row) hr.isPrivate (hc.records r.id r hget) happ.appliedAt
    (hc.supersedes r.id r hget)
  refine ⟨db', bind_eq_ok.2 ⟨r, require_eq_ok.2 ?_, hwrite⟩, hwrote, hstamped⟩
  rw [hget]
  exact Option.filter_eq_some_iff.2 ⟨rfl, hr.isPrivate⟩

theorem setSuccessorPredecessor_wrote {db : Db} {successorId predecessorId : String}
    (kind : Option RecordLineageKind) {app : Application} {r : MemoryRecord} (happ : Stamped app)
    (hc : Constrained db) (h : Writable app (view db) successorId)
    (hr : IsPrivate (view db) successorId r) (hactive : r.status = .active)
    (hpredecessor : db.hasRecord predecessorId = true) :
    ∃ db', setSuccessorPredecessor db successorId predecessorId kind app.appliedAt = .ok db' ∧
      Wrote app.appliedAt [successorId] 3 db db' ∧ db'.StampedAt app.appliedAt successorId := by
  obtain rfl := hr.key
  have hget : db.records.get? r.id = some r := hr.stored
  obtain ⟨db', hwrite, hwrote, hstamped⟩ := updateRecord_wrote r
    (View.link app predecessorId kind r) hc
    (by rw [show (View.link app predecessorId kind r).id = r.id from rfl, hget]; rfl)
    (by rw [isSome_lifecycle]; exact h.row) hr.isPrivate (hc.records r.id r hget) happ.appliedAt
    hpredecessor
  refine ⟨db', bind_eq_ok.2 ⟨r, require_eq_ok.2 ?_, hwrite⟩, hwrote, hstamped⟩
  rw [hget]
  refine Option.filter_eq_some_iff.2 ⟨rfl, ?_⟩
  rw [hr.isPrivate, hactive]
  rfl

/-- A relation of two writable records. -/
theorem insertRelation_wrote {db : Db} (kind : PrivateLifecycleRelationKind)
    {subjectId relatedId : String} {app : Application} (happ : Stamped app) (hc : Constrained db)
    (hu : Unique db 1) (hsubject : Writable app (view db) subjectId)
    (hrelated : ∃ r, IsPrivate (view db) relatedId r) (hne : subjectId ≠ relatedId) :
    ∃ db', insertRelation db kind subjectId relatedId app = .ok db' ∧
      Wrote app.appliedAt [subjectId, relatedId] 5 db db' ∧
      ((db.lifecycle.get? relatedId).isSome = true → db'.StampedAt app.appliedAt relatedId) := by
  obtain ⟨s, hs⟩ := hsubject.isPrivate
  obtain ⟨t, ht⟩ := hrelated
  refine Db.insertRelation_wrote (r := ⟨"relation_" ++ Entropy.uuid db.draws, kind, subjectId,
    relatedId, app.applicationId, app.appliedAt⟩) hc hu rfl (hasPrivate_of hs) (hasPrivate_of ht)
    ?_ ?_
  · simp only [PrivateLifecycleRelation.admitted, shortId_relation, happ.applicationId,
      happ.appliedAt, Bool.and_self, Bool.true_and, decide_eq_true_eq]
    exact hne
  · intro other hother hkey
    simp only [PrivateLifecycleRelation.uniqueKey, Prod.mk.injEq] at hkey
    have hedge : edgeOf other ∈ (view db).edges := by
      show edgeOf other ∈ ((db.relations.rows.map edgeOf : List Edge) : Multiset Edge)
      rw [Multiset.mem_coe]
      exact List.mem_map_of_mem hother
    exact hsubject.unrelated _ hedge hkey.2.2.2 hkey.2.1

theorem supersedeInto_wrote {db : Db} (kind : PrivateLifecycleRelationKind)
    {subjectId relatedId : String} {app : Application} (happ : Stamped app) (hc : Constrained db)
    (hu : Unique db 8) (hsubject : Writable app (view db) subjectId)
    (hrelated : ∃ r, IsPrivate (view db) relatedId r) (hne : subjectId ≠ relatedId) :
    ∃ db', supersedeInto db kind subjectId relatedId app = .ok db' ∧
      Wrote app.appliedAt [subjectId, relatedId] 8 db db' ∧
      db'.StampedAt app.appliedAt subjectId ∧
      ((db.lifecycle.get? relatedId).isSome = true → db'.StampedAt app.appliedAt relatedId) := by
  obtain ⟨mid, hstatus, hwrote, hstamped⟩ := updateRecordStatus_wrote happ hc hsubject
  have hview := (view_of_updateRecordStatus hstatus).1
  have hsubject' : Writable app (view mid) subjectId := by
    rw [hview]
    exact hsubject.changeRecord _ fun _ => ⟨rfl, rfl⟩
  have hrelated' : ∃ r, IsPrivate (view mid) relatedId r := by
    obtain ⟨r, hr⟩ := hrelated
    rw [hview]
    exact ⟨r, hr.local_ (agreeOn_changeRecord (Ne.symm hne))⟩
  obtain ⟨db', hrelation, hwrote', hstamped'⟩ := insertRelation_wrote kind happ
    hwrote.constrained (hwrote.unique 1 (hu.mono (by omega))) hsubject' hrelated' hne
  exact ⟨db', bind_eq_ok.2 ⟨mid, hstatus, hrelation⟩,
    (hwrote.trans hwrote').mono (by simp) (by omega), hwrote'.stamped _ hstamped,
    fun hrow => hstamped' (hwrote.kept _ hrow)⟩

theorem supersedeMembers_wrote (kind : PrivateLifecycleRelationKind) {keptId : String}
    {app : Application} (happ : Stamped app) {recordIds : List String} (hnodup : recordIds.Nodup)
    {db : Db} (hc : Constrained db) (hu : Unique db (8 * recordIds.length))
    (hkept : Writable app (view db) keptId) (hwritable : ∀ id ∈ recordIds, Writable app (view db) id) :
    ∃ db', supersedeMembers db kind keptId recordIds app = .ok db' ∧
      Wrote app.appliedAt (keptId :: recordIds) (8 * recordIds.length) db db' ∧
      (∀ id ∈ recordIds, id ≠ keptId → db'.StampedAt app.appliedAt id) ∧
      ((∃ id ∈ recordIds, id ≠ keptId) → db'.StampedAt app.appliedAt keptId) := by
  unfold supersedeMembers
  induction recordIds generalizing db with
  | nil =>
      refine ⟨db, rfl, (Wrote.refl hc).mono (by simp) (by omega), ?_, ?_⟩
      · intro id hid
        cases hid
      · rintro ⟨id, hid, -⟩
        cases hid
  | cons recordId recordIds ih =>
      rw [List.nodup_cons] at hnodup
      rw [List.length_cons] at hu ⊢
      have hrest : ∀ id ∈ recordIds, Writable app (view db) id :=
        fun id hid => hwritable id (List.mem_cons_of_mem _ hid)
      by_cases hid : recordId = keptId
      · obtain ⟨db', hrun, hwrote, hothers, hkeeper⟩ :=
          ih hnodup.2 hc (hu.mono (by omega)) hkept hrest
        refine ⟨db', runAll_cons.2 ⟨db, if_pos hid, hrun⟩, hwrote.mono ?_ (by omega), ?_, ?_⟩
        · intro x hx
          rcases List.mem_cons.1 hx with rfl | hx
          · exact List.mem_cons_self
          · exact List.mem_cons_of_mem _ (List.mem_cons_of_mem _ hx)
        · intro x hx hne
          rcases List.mem_cons.1 hx with rfl | hx
          · exact absurd hid hne
          · exact hothers x hx hne
        · rintro ⟨x, hx, hne⟩
          rcases List.mem_cons.1 hx with rfl | hx
          · exact absurd hid hne
          · exact hkeeper ⟨x, hx, hne⟩
      · obtain ⟨mid, hstep, hwrote, hsubject, hrelated⟩ := supersedeInto_wrote kind happ hc
          (hu.mono (by omega)) (hwritable recordId List.mem_cons_self) hkept.isPrivate hid
        have hview := (view_of_supersedeInto hstep).1
        have hkeep : ∀ {x}, x ≠ recordId → Writable app (view db) x → Writable app (view mid) x := by
          intro x hx hwrite
          rw [hview]
          exact hwrite.supersedeInto hx
        obtain ⟨db', hrun, hwrote', hothers, -⟩ := ih hnodup.2 hwrote.constrained
          (hwrote.unique _ (hu.mono (by omega))) (hkeep (Ne.symm hid) hkept)
          (fun id hmem => hkeep (fun heq => hnodup.1 (heq ▸ hmem)) (hrest id hmem))
        refine ⟨db', runAll_cons.2 ⟨mid, ?_, hrun⟩, (hwrote.trans hwrote').mono ?_ (by omega),
          fun x hx hne => ?_, fun _ => ?_⟩
        · rw [if_neg hid]
          exact hstep
        · intro x hx
          simp only [List.mem_append, List.mem_cons, List.not_mem_nil, or_false] at hx ⊢
          rcases hx with (hx | hx) | hx | hx
          · exact Or.inr (Or.inl hx)
          · exact Or.inl hx
          · exact Or.inl hx
          · exact Or.inr (Or.inr hx)
        · rcases List.mem_cons.1 hx with rfl | hx
          · exact hwrote'.stamped _ hsubject
          · exact hothers x hx hne
        · exact hwrote'.stamped _ (hrelated (isSome_lifecycle.trans hkept.row))

theorem succeedBy_wrote {db : Db} (kind : PrivateLifecycleRelationKind)
    (lineageKind : Option RecordLineageKind) {predecessorId successorId : String}
    {app : Application} {r : MemoryRecord} (happ : Stamped app) (hc : Constrained db)
    (hu : Unique db 11) (hpredecessor : Writable app (view db) predecessorId)
    (hsuccessor : Writable app (view db) successorId) (hr : IsPrivate (view db) successorId r)
    (hactive : r.status = .active) (hne : predecessorId ≠ successorId) :
    ∃ db', succeedBy db kind predecessorId successorId lineageKind app = .ok db' ∧
      Wrote app.appliedAt [predecessorId, successorId] 11 db db' ∧
      ∀ id ∈ [predecessorId, successorId], db'.StampedAt app.appliedAt id := by
  obtain ⟨db₁, hstatus, hwrote₁, hstamped₁⟩ := updateRecordStatus_wrote happ hc hpredecessor
  have hview₁ := (view_of_updateRecordStatus hstatus).1
  have hkeep₁ : ∀ {x}, Writable app (view db) x → Writable app (view db₁) x := by
    intro x hx
    rw [hview₁]
    exact hx.changeRecord _ fun _ => ⟨rfl, rfl⟩
  -- the successor is not the record that was superseded
  have hr₁ : IsPrivate (view db₁) successorId r := by
    rw [hview₁]
    exact hr.local_ (agreeOn_changeRecord (Ne.symm hne))
  obtain ⟨p, hp⟩ := (hkeep₁ hpredecessor).isPrivate
  obtain ⟨db₂, hlink, hwrote₂, hstamped₂⟩ := setSuccessorPredecessor_wrote lineageKind happ
    hwrote₁.constrained (hkeep₁ hsuccessor) hr₁ hactive (hasRecord_of hp)
  have hview₂ := (view_of_setSuccessorPredecessor hlink).1
  have hkeep₂ : ∀ {x}, Writable app (view db₁) x → Writable app (view db₂) x := by
    intro x hx
    rw [hview₂]
    exact hx.changeRecord _ fun _ => ⟨rfl, rfl⟩
  obtain ⟨db₃, hrelation, hwrote₃, -⟩ := insertRelation_wrote kind happ
    hwrote₂.constrained (hwrote₂.unique 1 (hwrote₁.unique 4 (hu.mono (by omega)))) (hkeep₂ (hkeep₁ hpredecessor))
    (hkeep₂ (hkeep₁ hsuccessor)).isPrivate hne
  refine ⟨db₃, bind_eq_ok.2 ⟨db₁, hstatus, bind_eq_ok.2 ⟨db₂, hlink, hrelation⟩⟩,
    ((hwrote₁.trans hwrote₂).trans hwrote₃).mono (by simp) (by omega), fun id hid => ?_⟩
  rcases List.mem_cons.1 hid with rfl | hid
  · exact hwrote₃.stamped _ (hwrote₂.stamped _ hstamped₁)
  · rw [List.mem_singleton.1 hid]
    exact hwrote₃.stamped _ hstamped₂

/-! ### The copy of a correction -/

theorem copyTags_wrote (stamp : String) {recordId : String} {tags : List String} (hnodup : tags.Nodup) {db : Db}
    (hc : Constrained db) (hrecord : db.hasRecord recordId = true)
    (hfresh : ∀ tag ∈ tags, db.tags.get? (recordId, tag) = none)
    (hadmitted : ∀ tag ∈ tags, Text.sqlNonBlank tag = true) :
    ∃ db', runAll (fun (db : Db) tag => db.insertTag ⟨recordId, tag⟩) db tags = .ok db' ∧
      Wrote stamp [recordId] (3 * tags.length) db db' := by
  induction tags generalizing db with
  | nil => exact ⟨db, rfl, (Wrote.refl hc).mono (by simp) (by omega)⟩
  | cons tag tags ih =>
      rw [List.nodup_cons] at hnodup
      obtain ⟨mid, hstep, hwrote⟩ := insertTag_wrote (t := ⟨recordId, tag⟩) hc
        (hfresh tag List.mem_cons_self) (hadmitted tag List.mem_cons_self) hrecord
      obtain ⟨table, htable, hcontents, -⟩ := Db.insertTag_ok hstep
      have hfresh' : ∀ other ∈ tags, mid.tags.get? (recordId, other) = none := by
        intro other hother
        have hne : (recordId, tag) ≠ (recordId, other) := by
          intro heq
          exact hnodup.1 ((Prod.mk.inj heq).2 ▸ hother)
        rw [hcontents, Table.get?_insert? htable, MemoryTag.key, if_neg hne]
        exact hfresh other (List.mem_cons_of_mem _ hother)
      obtain ⟨db', hrun, hwrote'⟩ := ih hnodup.2 hwrote.constrained (by rw [hcontents]; exact hrecord)
        hfresh' fun other hother => hadmitted other (List.mem_cons_of_mem _ hother)
      rw [List.length_cons]
      exact ⟨db', runAll_cons.2 ⟨mid, hstep, hrun⟩,
        (hwrote.trans hwrote').mono (by simp) (by omega)⟩

theorem copyPaths_wrote (stamp : String) {recordId : String} {paths : List MemoryPath} {db : Db}
    (hc : Constrained db) (hu : Unique db (4 * paths.length))
    (hrecord : db.hasRecord recordId = true)
    (hadmitted : ∀ path ∈ paths, path.admitted = true) :
    ∃ db', runAll (copyPath recordId) db paths = .ok db' ∧
      Wrote stamp [recordId] (4 * paths.length) db db' := by
  induction paths generalizing db with
  | nil => exact ⟨db, rfl, (Wrote.refl hc).mono (by simp) (by omega)⟩
  | cons path paths ih =>
      rw [List.length_cons] at hu ⊢
      obtain ⟨mid, hstep, hwrote⟩ := insertPath_wrote (p := ⟨"path_" ++ Entropy.uuid db.draws,
        recordId, none, path.path, path.symbol, path.lineStart, path.lineEnd⟩) hc
        (hu.mono (by omega)) rfl (hadmitted path List.mem_cons_self) hrecord
      obtain ⟨table, -, hcontents, -⟩ := Db.insertPath_ok hstep
      obtain ⟨db', hrun, hwrote'⟩ := ih hwrote.constrained
        (hwrote.unique _ (hu.mono (by omega))) (by rw [hcontents]; exact hrecord)
        fun other hother => hadmitted other (List.mem_cons_of_mem _ hother)
      exact ⟨db', runAll_cons.2 ⟨mid, hstep, hrun⟩,
        (hwrote.trans hwrote').mono (by simp) (by omega)⟩

theorem records_paths_of_copyTags {recordId : String} {tags : List String} {db db' : Db}
    (h : runAll (fun (db : Db) tag => db.insertTag ⟨recordId, tag⟩) db tags = .ok db') :
    db'.records = db.records ∧ db'.paths = db.paths := by
  refine runAll_relation (fun s t : Db => t.records = s.records ∧ t.paths = s.paths)
    (fun _ => ⟨rfl, rfl⟩) (fun _ _ _ hst htu => ⟨htu.1.trans hst.1, htu.2.trans hst.2⟩) ?_ h
  intro s tag t _ hstep
  obtain ⟨_, -, hcontents, -⟩ := Db.insertTag_ok hstep
  exact ⟨by rw [hcontents], by rw [hcontents]⟩

theorem toContents_of_updateState {db db' : Db} {id updatedAt : String}
    {update : LifecycleFacts → LifecycleFacts}
    (h : updateState db id updatedAt update = .ok db') : db'.toContents = db.toContents := by
  obtain ⟨s, -, h⟩ := bind_eq_ok.1 h
  obtain ⟨_, -, h⟩ := bind_eq_ok.1 h
  exact (Db.updateLifecycleFacts_ok h).1

omit [Entropy] in
/-- The tags of a record differ, and none is blank. -/
theorem copiedTags_ok {db : Db} (hc : Constrained db) (predecessorId : String) :
    (tagsOf db predecessorId).Nodup ∧
      ∀ tag ∈ tagsOf db predecessorId, Text.sqlNonBlank tag = true := by
  constructor
  · refine List.Nodup.map_on ?_ ((List.Nodup.of_map _ db.tags.nodup).filter _)
    intro t ht u hu htag
    rw [List.mem_filter, decide_eq_true_eq] at ht hu
    exact Table.eq_of_key ht.1 hu.1 (Prod.ext (ht.2.trans hu.2.symm) htag)
  · intro tag htag
    obtain ⟨t, ht, rfl⟩ := List.mem_map.1 htag
    exact (hc.tags _ t (Table.get?_of_mem (List.mem_filter.1 ht).1)).1

variable [Digests]

omit [Entropy] in
/-- A record that takes the predecessor's row over meets the constraints of its columns. -/
theorem correctionRecord_admitted {db : Db} {r : MemoryRecord} (hc : Constrained db)
    (hr : db.records.get? r.id = some r) {replacement : PrivateCorrectionReplacement}
    (htitle : Text.sqlNonBlank (Text.trim replacement.title) = true)
    (hbody : Text.sqlNonBlank (Text.trim replacement.body) = true) (id : String) (app : Application) :
    (correctionRecord r id replacement app).admitted = true := by
  have hold := hc.records r.id r hr
  simp only [MemoryRecord.admitted, Bool.and_eq_true, correctionRecord, htitle, hbody, and_true]
    at hold ⊢
  exact ⟨⟨hold.1.1.1.1, hold.1.2⟩, hold.2⟩

theorem createCorrectionRecord_wrote {db : Db} {predecessorId replacementId : String}
    {replacement : PrivateCorrectionReplacement} {app : Application} {r : MemoryRecord}
    (happ : Stamped app) (hc : Constrained db)
    (hu : Unique db (6 + 3 * (tagsOf db predecessorId).length +
      4 * (pathsOf db predecessorId).length))
    (hpredecessor : Writable app (view db) predecessorId)
    (hr : IsPrivate (view db) predecessorId r) (hvisibility : r.visibility = .private)
    (hfresh : (view db).records replacementId = none)
    (htitle : Text.sqlNonBlank (Text.trim replacement.title) = true)
    (hbody : Text.sqlNonBlank (Text.trim replacement.body) = true) :
    ∃ db', createCorrectionRecord db predecessorId replacementId replacement app = .ok db' ∧
      Wrote app.appliedAt [replacementId] (6 + 3 * (tagsOf db predecessorId).length +
        4 * (pathsOf db predecessorId).length) db db' ∧
      db'.StampedAt app.appliedAt replacementId := by
  obtain rfl := hr.key
  have hget : db.records.get? r.id = some r := hr.stored
  have hfresh' : db.records.get? replacementId = none := hfresh
  have hrequire : requirePrivateRecord db r.id = .ok r :=
    requirePrivateRecord_ok.2 ⟨hget, hr.isPrivate, hvisibility⟩
  obtain ⟨s, hs⟩ := Option.isSome_iff_exists.1 (isSome_lifecycle.trans hpredecessor.row)
  have hfacts : requireFacts db r.id = .ok s.toLifecycleFacts :=
    bind_eq_ok.2 ⟨s, require_eq_ok.2 hs, rfl⟩
  obtain ⟨db₁, hinsert, hwrote₁, hrow₁⟩ := insertRecord_wrote
    (r := correctionRecord r replacementId replacement app) hc hfresh hr.isPrivate
    (correctionRecord_admitted hc hget htitle hbody replacementId app) happ.appliedAt
    (hasRecord_of hr)
  obtain ⟨records, hrecords, hcontents₁, -, -⟩ := Db.insertRecord_ok hinsert hr.isPrivate
  -- the copied facts met the constraints of the predecessor's row
  obtain ⟨db₂, hupdate, hwrote₂, hstamped₂⟩ := updateState_wrote app.appliedAt
    (fun _ => inheritedFacts s.toLifecycleFacts app.eventId) hwrote₁.constrained hrow₁
    (by
      intro row hrow
      have hpredecessorRow := (hc.lifecycle r.id s hs).1
      simp only [PrivateLifecycleState.admitted, Bool.and_eq_true, inheritedFacts,
        happ.appliedAt, and_true] at hrow hpredecessorRow ⊢
      exact ⟨⟨hpredecessorRow.1.1.1, hrow.1.1.2⟩, hpredecessorRow.2⟩)
  have hcontents₂ : db₂.toContents = { db.toContents with records := records } := by
    rw [toContents_of_updateState hupdate, hcontents₁]
  have hrecord₂ : db₂.hasRecord replacementId = true := by
    rw [hcontents₂, Contents.hasRecord, Table.get?_insert? hrecords]
    exact congrArg Option.isSome (if_pos rfl)
  -- a record that was not there had no tags
  have hnotag : ∀ tag, db₂.tags.get? (replacementId, tag) = none := by
    intro tag
    rw [hcontents₂]
    cases htag : db.tags.get? (replacementId, tag) with
    | none => rfl
    | some t =>
        have hrecord := (hc.tags _ t htag).2
        have hkey : t.key = (replacementId, tag) := Table.key_of_get? htag
        rw [show t.recordId = replacementId from (Prod.mk.inj hkey).1, Contents.hasRecord, hfresh']
          at hrecord
        cases hrecord
  have htags₂ : tagsOf db₂ r.id = tagsOf db r.id := by
    rw [tagsOf, hcontents₂]
    rfl
  obtain ⟨hnodup, hnonblank⟩ := copiedTags_ok hwrote₂.constrained r.id
  obtain ⟨db₃, htags, hwrote₃⟩ := copyTags_wrote app.appliedAt hnodup
    hwrote₂.constrained hrecord₂ (fun tag _ => hnotag tag) hnonblank
  obtain ⟨hrecords₃, hpaths₃⟩ := records_paths_of_copyTags htags
  rw [htags₂] at hwrote₃
  have hload : loadPaths db₃ r.id = loadPaths db r.id := by
    rw [loadPaths, hpaths₃, hcontents₂]
    rfl
  have hlength : (loadPaths db r.id).length = (pathsOf db r.id).length := by
    rw [loadPaths, List.length_insertionSort, pathsOf, List.length_map]
  have hpathsAdmitted : ∀ path ∈ loadPaths db r.id, path.admitted = true := by
    intro path hpath
    rw [loadPaths, List.mem_insertionSort] at hpath
    exact (hc.paths _ path (Table.get?_of_mem (List.mem_filter.1 hpath).1)).1
  have hu₃ : Unique db₃ (4 * (loadPaths db r.id).length) := by
    refine hwrote₃.unique _ (hwrote₂.unique _ (hwrote₁.unique _ (hu.mono ?_)))
    omega
  obtain ⟨db₄, hcopy, hwrote₄⟩ := copyPaths_wrote app.appliedAt
    hwrote₃.constrained hu₃ (by rw [Contents.hasRecord, hrecords₃]; exact hrecord₂) hpathsAdmitted
  refine ⟨db₄, ?_, (((hwrote₁.trans hwrote₂).trans hwrote₃).trans hwrote₄).mono ?_ ?_,
    hwrote₄.stamped _ (hwrote₃.stamped _ hstamped₂)⟩
  · refine bind_eq_ok.2 ⟨r, hrequire, bind_eq_ok.2 ⟨s.toLifecycleFacts, hfacts,
      bind_eq_ok.2 ⟨db₁, hinsert, bind_eq_ok.2 ⟨db₂, hupdate, bind_eq_ok.2 ⟨db₃, htags, ?_⟩⟩⟩⟩⟩
    rw [hload]
    exact hcopy
  · intro x hx
    simpa [correctionRecord] using hx
  · omega

/-! ### The actions -/

omit [Entropy] [Digests] in
/-- A reason code passes the constraint of its column. -/
theorem reasonCode_ok {reason : String} (h : validateReasonCode reason = .ok ()) :
    Text.sqlNonBlank reason = true ∧ reason.utf8ByteSize ≤ 128 := by
  simp only [validateReasonCode, validateIdentifier, check_bind_eq_ok, ensure_eq_ok] at h
  obtain ⟨⟨hblank, htrim, hcontrol⟩, hsize, -⟩ := h
  obtain ⟨c, cs, hcs, hspace⟩ := Text.exists_head_trim hblank
  rw [← htrim] at hcs
  refine ⟨(Text.sqlNonBlank_cons hcs ?_).2 ?_, hsize⟩
  · rintro rfl
    exact absurd hspace (by decide)
  · intro hzero
    have hnot := List.any_eq_false.1 hcontrol c (hcs ▸ List.mem_cons_self)
    exact hnot (by simp [Text.isControl, hzero])

omit [Entropy] [Digests] in
/-- The facts an action sets meet the constraints of the row. -/
theorem changedFacts_admitted {action : PrivateLifecycleAction} {app : Application}
    (happ : Stamped app) (hvalid : validateAction action = .ok ()) {s : PrivateLifecycleState}
    (h : s.admitted = true) : PrivateLifecycleState.admitted
      { s with
        toLifecycleFacts := changedFacts app.eventId action s.toLifecycleFacts
        updatedAt := app.appliedAt } = true := by
  have hrow := h
  simp only [PrivateLifecycleState.admitted, Bool.and_eq_true] at hrow
  obtain ⟨⟨⟨hreason, hversion⟩, -⟩, hquarantined⟩ := hrow
  have hsame : ∀ facts : LifecycleFacts, facts.quarantined = s.quarantined →
      facts.quarantineReasonCode = s.quarantineReasonCode → PrivateLifecycleState.admitted
        { s with toLifecycleFacts := facts, updatedAt := app.appliedAt } = true := by
    intro facts hflag hcode
    simp only [PrivateLifecycleState.admitted, Bool.and_eq_true, hflag, hcode]
    exact ⟨⟨⟨hreason, hversion⟩, happ.appliedAt⟩, hquarantined⟩
  cases action with
  | quarantine _ _ reasonCode =>
      simp only [validateAction, check_bind_eq_ok, validateActionFields] at hvalid
      obtain ⟨hblank, hsize⟩ := reasonCode_ok hvalid.2.2
      simp only [PrivateLifecycleState.admitted, changedFacts, hversion, happ.appliedAt, hblank,
        hsize]
      rfl
  | releaseQuarantine =>
      simp only [PrivateLifecycleState.admitted, changedFacts, hversion, happ.appliedAt]
      rfl
  | _ => exact hsame _ rfl rfl

omit [Entropy] [Digests] in
/-- A set one of whose members is kept has another member. -/
theorem exists_other_member {label : String} {ids : List String} {versions : Versions}
    {kept : String} (h : validateSelectionSet label ids versions kept = .ok ()) (hnodup : ids.Nodup) :
    ∃ id ∈ ids, id ≠ kept := by
  simp only [validateSelectionSet, check_bind_eq_ok, ensure_eq_ok] at h
  obtain ⟨hlength, -⟩ := h
  obtain ⟨a, rest, rfl⟩ := List.exists_cons_of_ne_nil (show ids ≠ [] by
    rintro rfl
    simp at hlength)
  obtain ⟨b, rest, rfl⟩ := List.exists_cons_of_ne_nil (show rest ≠ [] by
    rintro rfl
    simp at hlength)
  have hne : a ≠ b := fun heq => (List.nodup_cons.1 hnodup).1 (heq ▸ List.mem_cons_self)
  by_cases ha : a = kept
  · exact ⟨b, List.mem_cons_of_mem _ List.mem_cons_self, fun hb => hne (ha.trans hb.symm)⟩
  · exact ⟨a, List.mem_cons_self, ha⟩

omit [Digests] in
/-- The merge of a set writes every member: the others are superseded, and related to the one that
is kept. -/
theorem mergeMembers_wrote {app : Application} (happ : Stamped app) (label : String)
    (kind : PrivateLifecycleRelationKind) {ids : List String} {versions : Versions} {kept : String}
    {db : Db} (hc : Constrained db) (hu : Unique db (11 * ids.length))
    (hvalid : validateSelectionSet label ids versions kept = .ok ())
    (hadmits : Mergeable (view db) ids kept) (hwritable : ∀ id ∈ ids, Writable app (view db) id) :
    ∃ db', supersedeMembers db kind kept ids app = .ok db' ∧
      Wrote app.appliedAt ids (11 * ids.length) db db' ∧
      ∀ id ∈ ids, db'.StampedAt app.appliedAt id := by
  obtain ⟨hkept, hnodup, -⟩ := hadmits
  obtain ⟨db', hrun, hwrote, hothers, hkeeper⟩ := supersedeMembers_wrote kind happ hnodup
    hc (hu.mono (by omega)) (hwritable kept hkept) hwritable
  refine ⟨db', hrun, hwrote.mono (fun id hid => ?_) (by omega), fun id hid => ?_⟩
  · rcases List.mem_cons.1 hid with rfl | hid
    · exact hkept
    · exact hid
  · by_cases hne : id = kept
    · rw [hne]
      exact hkeeper (exists_other_member hvalid hnodup)
    · exact hothers id hid hne

/-- A correction writes the new record and the record it corrects. -/
theorem correct_wrote {app : Application} (happ : Stamped app) {recordId replacementId : String}
    {replacement : PrivateCorrectionReplacement} {db : Db} (hc : Constrained db)
    (hu : Unique db (14 + 3 * (tagsOf db recordId).length + 4 * (pathsOf db recordId).length))
    (hadmits : Correctable (view db) recordId) (hwritable : Writable app (view db) recordId)
    (hfresh : (view db).records replacementId = none)
    (htitle : Text.sqlNonBlank (Text.trim replacement.title) = true)
    (hbody : Text.sqlNonBlank (Text.trim replacement.body) = true) :
    ∃ mid db', createCorrectionRecord db recordId replacementId replacement app = .ok mid ∧
      supersedeInto mid .correctedBy recordId replacementId app = .ok db' ∧
      Wrote app.appliedAt [recordId, replacementId]
        (14 + 3 * (tagsOf db recordId).length + 4 * (pathsOf db recordId).length) db db' ∧
      ∀ id ∈ [recordId, replacementId], db'.StampedAt app.appliedAt id := by
  obtain ⟨r, hr, -, hvisibility⟩ := hadmits
  have hne : recordId ≠ replacementId := by
    rintro rfl
    rw [hr.stored] at hfresh
    cases hfresh
  obtain ⟨mid, hcreate, hwrote, hnew⟩ := createCorrectionRecord_wrote happ hc
    (hu.mono (by omega)) hwritable hr hvisibility hfresh htitle hbody
  have hview := (view_of_createCorrectionRecord hcreate).1
  have hrecord : (view mid).records replacementId =
      some (correctionRecord r replacementId replacement app) := by
    rw [hview]
    show Function.update (view db).records replacementId _ replacementId = _
    rw [Function.update_self, hr.stored]
    rfl
  have hsubject : Writable app (view mid) recordId := by
    refine hwritable.of_agree ?_ fun e he _ _ => ?_
    · rw [hview]
      exact ⟨Function.update_of_ne hne _ _, Function.update_of_ne hne _ _,
        Function.update_of_ne hne _ _, Function.update_of_ne hne _ _⟩
    · rw [hview] at he
      exact he
  obtain ⟨db', hsupersede, hwrote', hstamped, -⟩ := supersedeInto_wrote .correctedBy happ
    hwrote.constrained (hwrote.unique 8 (hu.mono (by omega))) hsubject
    ⟨_, hrecord, rfl, hr.isPrivate⟩ hne
  refine ⟨mid, db', hcreate, hsupersede, (hwrote.trans hwrote').mono ?_ (by omega), ?_⟩
  · intro x hx
    simp only [List.cons_append, List.nil_append, List.mem_cons, List.not_mem_nil, or_false]
      at hx ⊢
    rcases hx with hx | hx | hx
    · exact Or.inr hx
    · exact Or.inl hx
    · exact Or.inr hx
  · intro id hid
    rcases List.mem_cons.1 hid with rfl | hid
    · exact hstamped
    · rw [List.mem_singleton.1 hid]
      exact hwrote'.stamped _ hnew

/-- A ready action with storable texts goes through: it writes the rows of the records it touches,
each of them at the instant of the application. -/
theorem mutateAction_wrote {app : Application} {db : Db} {p : PreparedAction} (happ : Stamped app)
    (hc : Constrained db) (hu : Unique db (p.draws (view db))) (h : Ready app (view db) p)
    (htexts : Storable p.action) :
    ∃ db', mutateAction app db p.action p.replacementId = .ok db' ∧
      Wrote app.appliedAt p.touched (p.draws (view db)) db db' ∧
      ∀ id ∈ p.touched, db'.StampedAt app.appliedAt id := by
  obtain ⟨action, replacementId⟩ := p
  have hvalid : validateActionFields action = .ok () := by
    have hall := h.valid
    simp only [validateAction, check_bind_eq_ok] at hall
    exact hall.2.2
  have hfacts : ∀ recordId, action.mutationTargets = [recordId] →
      ∃ db', updateState db recordId app.appliedAt (changedFacts app.eventId action) = .ok db' ∧
        Wrote app.appliedAt [recordId] 11 db db' ∧
        ∀ id ∈ [recordId], db'.StampedAt app.appliedAt id := by
    intro recordId htargets
    have hwritable := h.writable recordId (htargets ▸ List.mem_cons_self)
    obtain ⟨db', hrun, hwrote, hstamped⟩ := updateState_wrote app.appliedAt
      (changedFacts app.eventId action) hc (isSome_lifecycle.trans hwritable.row)
      fun s hs => changedFacts_admitted happ h.valid hs
    refine ⟨db', hrun, hwrote.mono (fun _ hid => hid) (by omega), fun id hid => ?_⟩
    rw [List.mem_singleton.1 hid]
    exact hstamped
  have hsuccession : ∀ kind lineage {a b : String}, action.mutationTargets = [a, b] →
      Succeedable (view db) a b → Unique db 22 →
      ∃ db', succeedBy db kind a b lineage app = .ok db' ∧ Wrote app.appliedAt [a, b] 22 db db' ∧
        ∀ id ∈ [a, b], db'.StampedAt app.appliedAt id := by
    rintro kind lineage a b htargets ⟨hne, -, s, hs, hfree⟩ hu
    obtain ⟨db', hrun, hwrote, hstamped⟩ := succeedBy_wrote kind lineage happ hc
      (hu.mono (by omega)) (h.writable a (htargets ▸ List.mem_cons_self))
      (h.writable b (htargets ▸ List.mem_cons_of_mem _ List.mem_cons_self)) hs hfree.active hne
    exact ⟨db', hrun, hwrote.mono (fun _ hid => hid) (by omega), hstamped⟩
  cases action with
  | renewFromEvidence => exact hsuccession _ _ rfl h.admits hu
  | supersede => exact hsuccession _ _ rfl h.admits hu
  | consolidate ids =>
      rw [PreparedAction.touched, PreparedAction.created, List.append_nil]
      exact mergeMembers_wrote happ "consolidation" _ hc hu hvalid h.admits h.writable
  | resolveContradiction ids =>
      rw [PreparedAction.touched, PreparedAction.created, List.append_nil]
      exact mergeMembers_wrote happ "contradiction resolution" _ hc hu hvalid h.admits h.writable
  | correct recordId version replacement reasonCode evidence =>
      obtain ⟨rid, rfl⟩ := Option.isSome_iff_exists.1 (show replacementId.isSome = true from h.reserved)
      obtain ⟨mid, db', hcreate, hsupersede, hwrote, hstamped⟩ := correct_wrote happ hc hu h.admits
        (h.writable recordId List.mem_cons_self) (h.fresh rid List.mem_cons_self) htexts.1 htexts.2
      exact ⟨db', bind_eq_ok.2 ⟨rid, rfl, bind_eq_ok.2 ⟨mid, hcreate, hsupersede⟩⟩, hwrote, hstamped⟩
  | extendAutomaticRecall => exact hfacts _ rfl
  | extendValidity => exact hfacts _ rfl
  | retainUntil => exact hfacts _ rfl
  | pin => exact hfacts _ rfl
  | unpin => exact hfacts _ rfl
  | quarantine => exact hfacts _ rfl
  | releaseQuarantine => exact hfacts _ rfl

end PrivateLifecycle
end Memzoi
