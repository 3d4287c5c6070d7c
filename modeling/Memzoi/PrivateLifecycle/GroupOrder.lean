/-
# The order of a group does not matter

Source: `private_lifecycle.rs` (`validate_disjoint` in `validate`),
`service/private_lifecycle.rs` (`validate_action_group`, `apply_action_group`).

On the visible store an action is local to the records it touches, so actions
that touch different records commute (`View.act_comm`). The rows of relations,
which every succession adds to, form a multiset. Together with
`mutateAction_wrote` this gives the outcome of a checked group in any order
(`actionGroup_anyOrder`), provided that the texts of its corrections can be
stored.
-/

import Memzoi.Lib.Footprint
import Memzoi.PrivateLifecycle.Progress
import Mathlib

namespace Memzoi
namespace PrivateLifecycle

open Fallible Db

/-! ### Actions are local -/

/-- What a visible store says of one record. -/
def View.cell (v : View) (id : String) :
    Option MemoryRecord × Option LifecycleFacts × List String × List PathFacts :=
  (v.records id, v.facts id, v.tags id, v.paths id)

theorem agreeOn_iff {v v' : View} {id : String} : AgreeOn v v' id ↔ v'.cell id = v.cell id := by
  simp only [View.cell, Prod.mk.injEq]
  exact ⟨fun h => ⟨h.records, h.facts, h.tags, h.paths⟩, fun ⟨h₁, h₂, h₃, h₄⟩ => ⟨h₁, h₂, h₃, h₄⟩⟩

theorem AgreeOn.symm {v v' : View} {id : String} (h : AgreeOn v v' id) : AgreeOn v' v id :=
  ⟨h.records.symm, h.facts.symm, h.tags.symm, h.paths.symm⟩

theorem AgreeOn.changeFacts {v w : View} {k : String} (h : AgreeOn v w k) (id : String)
    (f : LifecycleFacts → LifecycleFacts) : AgreeOn (v.changeFacts id f) (w.changeFacts id f) k := by
  by_cases hk : k = id
  · subst hk
    refine ⟨h.records, ?_, h.tags, h.paths⟩
    simp only [View.changeFacts, Function.update_self, h.facts]
  · exact ((agreeOn_changeFacts hk).symm.trans h).trans (agreeOn_changeFacts hk)

theorem AgreeOn.changeRecord {v w : View} {k : String} (h : AgreeOn v w k) (id : String)
    (f : MemoryRecord → MemoryRecord) : AgreeOn (v.changeRecord id f) (w.changeRecord id f) k := by
  by_cases hk : k = id
  · subst hk
    refine ⟨?_, ?_, h.tags, h.paths⟩
    · simp only [View.changeRecord, Function.update_self, h.records]
    · simp only [View.changeRecord, Function.update_self, h.facts]
  · exact ((agreeOn_changeRecord hk).symm.trans h).trans (agreeOn_changeRecord hk)

theorem AgreeOn.related {v w : View} {k : String} (h : AgreeOn v w k)
    (kind : PrivateLifecycleRelationKind) (subject related : String) (app : Application) :
    AgreeOn (v.relate kind subject related app) (w.relate kind subject related app) k :=
  ⟨h.records, h.facts, h.tags, h.paths⟩

theorem AgreeOn.supersedeInto {v w : View} {k : String} (h : AgreeOn v w k)
    (kind : PrivateLifecycleRelationKind) (subject related : String) (app : Application) :
    AgreeOn (v.supersedeInto kind subject related app) (w.supersedeInto kind subject related app) k :=
  (h.changeRecord subject (View.supersede app)).related kind subject related app

theorem AgreeOn.supersedeMembers {k : String} (kind : PrivateLifecycleRelationKind) (kept : String)
    (ids : List String) (app : Application) {v w : View} (h : AgreeOn v w k) :
    AgreeOn (v.supersedeMembers kind kept ids app) (w.supersedeMembers kind kept ids app) k := by
  unfold View.supersedeMembers
  induction ids generalizing v w with
  | nil => exact h
  | cons id ids ih =>
      rw [List.foldl_cons, List.foldl_cons]
      split
      · exact ih h
      · exact ih (h.supersedeInto kind id kept app)

theorem AgreeOn.succeedBy {v w : View} {k : String} (h : AgreeOn v w k)
    (kind : PrivateLifecycleRelationKind) (a b : String) (lineage : Option RecordLineageKind)
    (app : Application) :
    AgreeOn (v.succeedBy kind a b lineage app) (w.succeedBy kind a b lineage app) k :=
  ((h.changeRecord a (View.supersede app)).changeRecord b (View.link app a lineage)).related kind a b
    app

variable [Digests]

/-- A copy reads its predecessor and nothing else. -/
theorem AgreeOn.createCorrection {v w : View} {k predecessorId : String} (h : AgreeOn v w k)
    (hpredecessor : AgreeOn v w predecessorId) (replacementId : String)
    (replacement : PrivateCorrectionReplacement) (app : Application) :
    AgreeOn (v.createCorrection predecessorId replacementId replacement app)
      (w.createCorrection predecessorId replacementId replacement app) k := by
  by_cases hk : k = replacementId
  · subst hk
    refine ⟨?_, ?_, ?_, ?_⟩
    · simp only [View.createCorrection, Function.update_self, hpredecessor.records]
    · simp only [View.createCorrection, Function.update_self, hpredecessor.facts]
    · simp only [View.createCorrection, Function.update_self, hpredecessor.tags, h.tags]
    · simp only [View.createCorrection, Function.update_self, hpredecessor.paths, h.paths]
  · refine ⟨?_, ?_, ?_, ?_⟩
    · simp only [View.createCorrection, Function.update_of_ne hk, h.records]
    · simp only [View.createCorrection, Function.update_of_ne hk, h.facts]
    · simp only [View.createCorrection, Function.update_of_ne hk, h.tags]
    · simp only [View.createCorrection, Function.update_of_ne hk, h.paths]

/-- What an action leaves on the records it touches depends on those records. -/
theorem AgreeOn.act {v w : View} {app : Application} {p : PreparedAction}
    (h : ∀ id ∈ p.touched, AgreeOn v w id) :
    ∀ id ∈ p.touched, AgreeOn (v.act app p) (w.act app p) id := by
  intro k hk
  obtain ⟨action, replacementId⟩ := p
  have hagree := h k hk
  cases action with
  | renewFromEvidence => exact hagree.succeedBy _ _ _ _ app
  | supersede => exact hagree.succeedBy _ _ _ _ app
  | consolidate => exact hagree.supersedeMembers _ _ _ app
  | resolveContradiction => exact hagree.supersedeMembers _ _ _ app
  | correct recordId =>
      cases replacementId with
      | none => exact hagree
      | some rid =>
          have hpredecessor := h recordId (List.mem_append_left _ List.mem_cons_self)
          exact (hagree.createCorrection hpredecessor rid _ app).supersedeInto _ _ _ app
  | extendAutomaticRecall => exact hagree.changeFacts _ _
  | extendValidity => exact hagree.changeFacts _ _
  | retainUntil => exact hagree.changeFacts _ _
  | pin => exact hagree.changeFacts _ _
  | unpin => exact hagree.changeFacts _ _
  | quarantine => exact hagree.changeFacts _ _
  | releaseQuarantine => exact hagree.changeFacts _ _

/-- An action is local to the records it touches. -/
theorem View.act_local (app : Application) (p : PreparedAction) :
    Footprint.Local View.cell (fun v => v.act app p) {id | id ∈ p.touched} where
  frame _ _ hid := agreeOn_iff.1 (agreeOn_act hid)
  inside _ _ h id hid :=
    (agreeOn_iff.1 (AgreeOn.act (fun x hx => agreeOn_iff.2 (h x hx).symm) id hid)).symm

/-! ### Relations are only added -/

/-- The relations an action adds. -/
def newEdges (app : Application) (p : PreparedAction) : List Edge :=
  let edge (kind : PrivateLifecycleRelationKind) (subject related : String) : Edge :=
    ⟨kind, subject, related, app.applicationId, app.appliedAt⟩
  match p.action with
  | .renewFromEvidence predecessorId _ evidenceRecordId _ =>
    [edge .renewedBy predecessorId evidenceRecordId]
  | .correct recordId _ _ _ _ => p.replacementId.toList.map (edge .correctedBy recordId)
  | .supersede recordId _ successorRecordId _ _ => [edge .supersededBy recordId successorRecordId]
  | .consolidate recordIds _ keeperRecordId =>
    (recordIds.filter (· ≠ keeperRecordId)).map (edge .consolidatedInto · keeperRecordId)
  | .resolveContradiction recordIds _ winnerRecordId =>
    (recordIds.filter (· ≠ winnerRecordId)).map (edge .contradictionResolvedBy · winnerRecordId)
  | _ => []

omit [Digests] in
theorem edges_supersedeMembers (kind : PrivateLifecycleRelationKind) (kept : String)
    (ids : List String) (app : Application) (v : View) :
    (v.supersedeMembers kind kept ids app).edges = v.edges +
      ((ids.filter (· ≠ kept)).map
        (fun id => (⟨kind, id, kept, app.applicationId, app.appliedAt⟩ : Edge)) : List Edge) := by
  unfold View.supersedeMembers
  induction ids generalizing v with
  | nil => exact (Multiset.add_zero v.edges).symm
  | cons id ids ih =>
      rw [List.foldl_cons, ih]
      by_cases hid : id = kept
      · rw [if_pos hid, List.filter_cons_of_neg (by simp [hid])]
      · rw [if_neg hid, List.filter_cons_of_pos (by simp [hid]), List.map_cons, ← Multiset.cons_coe,
          ← Multiset.singleton_add]
        exact Multiset.add_assoc v.edges _ _

theorem edges_act (v : View) (app : Application) (p : PreparedAction) :
    (v.act app p).edges = v.edges + (newEdges app p : Multiset Edge) := by
  obtain ⟨action, replacementId⟩ := p
  cases action with
  | renewFromEvidence => rfl
  | supersede => rfl
  | consolidate => exact edges_supersedeMembers _ _ _ _ _
  | resolveContradiction => exact edges_supersedeMembers _ _ _ _ _
  | correct =>
      cases replacementId with
      | none => exact (Multiset.add_zero v.edges).symm
      | some rid => rfl
  | _ => exact (Multiset.add_zero v.edges).symm

omit [Digests] in
/-- The relations an action adds have a record as subject that it changes. -/
theorem subject_of_newEdges {app : Application} {p : PreparedAction} :
    ∀ e ∈ newEdges app p, e.subject ∈ p.action.mutationTargets := by
  obtain ⟨action, replacementId⟩ := p
  intro e he
  have hmerge : ∀ {kind kept} {ids : List String},
      e ∈ (ids.filter (· ≠ kept)).map
        (fun id => (⟨kind, id, kept, app.applicationId, app.appliedAt⟩ : Edge)) →
      e.subject ∈ ids := by
    intro kind kept ids hmem
    obtain ⟨id, hid, rfl⟩ := List.mem_map.1 hmem
    exact (List.mem_filter.1 hid).1
  cases action with
  | renewFromEvidence =>
      rw [List.mem_singleton.1 he]
      exact List.mem_cons_self
  | supersede =>
      rw [List.mem_singleton.1 he]
      exact List.mem_cons_self
  | consolidate => exact hmerge he
  | resolveContradiction => exact hmerge he
  | correct =>
      obtain ⟨rid, -, rfl⟩ := List.mem_map.1 he
      exact List.mem_cons_self
  | _ => cases he

/-- Actions that touch different records commute. -/
theorem View.act_comm (app : Application) {p q : PreparedAction}
    (h : p.touched.Disjoint q.touched) (v : View) :
    (v.act app p).act app q = (v.act app q).act app p := by
  have hcells : ∀ id, ((v.act app p).act app q).cell id = ((v.act app q).act app p).cell id := by
    intro id
    refine (View.act_local app q).comm (View.act_local app p) ?_ v id
    exact Set.disjoint_left.2 fun x hq hp => h hp hq
  have hedges : ((v.act app p).act app q).edges = ((v.act app q).act app p).edges := by
    rw [edges_act, edges_act, edges_act, edges_act, Multiset.add_assoc, Multiset.add_assoc,
      Multiset.add_comm (newEdges app p : Multiset Edge)]
  have hagree := fun id => agreeOn_iff.2 (hcells id)
  have hext : ∀ v w : View, (∀ id, AgreeOn v w id) → w.edges = v.edges → w = v := by
    rintro ⟨records, facts, edges, tags, paths⟩ ⟨records', facts', edges', tags', paths'⟩ hall hedges
    obtain rfl : records' = records := funext fun id => (hall id).records
    obtain rfl : facts' = facts := funext fun id => (hall id).facts
    obtain rfl : tags' = tags := funext fun id => (hall id).tags
    obtain rfl : paths' = paths := funext fun id => (hall id).paths
    obtain rfl : edges' = edges := hedges
    rfl
  exact hext _ _ hagree hedges

/-- A group has one effect on the visible store, whatever its order. -/
theorem foldl_act_perm (app : Application) {order prepared : List PreparedAction}
    (hperm : order.Perm prepared) (hdisjoint : (prepared.flatMap (·.touched)).Nodup) (v : View) :
    order.foldl (View.act app) v = prepared.foldl (View.act app) v := by
  rw [List.nodup_flatMap] at hdisjoint
  have hapart : ∀ p ∈ prepared, ∀ q ∈ prepared, p ≠ q → p.touched.Disjoint q.touched := by
    intro p hp q hq hne
    have hsymm : Std.Symm (Function.onFun List.Disjoint PreparedAction.touched) :=
      ⟨fun a b hab => hab.symm⟩
    exact hdisjoint.2.forall hp hq hne
  refine (hperm.symm.foldl_eq' (fun p hp q hq w => ?_) v).symm
  by_cases hpq : p = q
  · rw [hpq]
  · exact View.act_comm app (hapart p hp q hq hpq) w

/-! ### Ready actions stay ready -/

/-- What an action needs, another one leaves alone that touches different records. -/
theorem Ready.act {app : Application} {v : View} {p q : PreparedAction} (h : Ready app v q)
    (hdisjoint : p.touched.Disjoint q.touched) : Ready app (v.act app p) q := by
  have hagree : ∀ id ∈ q.touched, AgreeOn v (v.act app p) id :=
    fun id hid => agreeOn_act fun hp => hdisjoint hp hid
  have htarget : ∀ id ∈ q.action.mutationTargets, id ∈ q.touched :=
    fun id hid => List.mem_append_left _ hid
  refine ⟨h.valid, h.reserved, ?_, fun id hid => ?_, fun id hid => ?_⟩
  · exact h.admits.local_ fun id hid => hagree id (htarget id hid)
  · refine (h.writable id hid).of_agree (hagree id (htarget id hid)) fun e he _ hsubject => ?_
    rw [edges_act] at he
    rcases Multiset.mem_add.1 he with hold | hnew
    · exact hold
    · have hmine := subject_of_newEdges e (Multiset.mem_coe.1 hnew)
      rw [hsubject] at hmine
      exact absurd (htarget id hid) (hdisjoint (List.mem_append_left _ hmine))
  · rw [(hagree id (List.mem_append_right _ hid)).records]
    exact h.fresh id hid

/-- The draws of an action are counted on its own records. -/
theorem draws_act {app : Application} {v : View} {p q : PreparedAction}
    (hdisjoint : p.touched.Disjoint q.touched) : q.draws (v.act app p) = q.draws v := by
  obtain ⟨action, replacementId⟩ := q
  cases action with
  | correct recordId =>
      have hagree : AgreeOn v (v.act app p) recordId :=
        agreeOn_act fun hp => hdisjoint hp (List.mem_append_left _ List.mem_cons_self)
      simp only [PreparedAction.draws, hagree.tags, hagree.paths]
  | _ => rfl

/-! ### The run of a group -/

section Run

variable [Entropy]

omit [Entropy] [Digests] in
theorem resultingVersions_ok {db : Db} {ids : List String}
    (h : ∀ id ∈ ids, (db.lifecycle.get? id).isSome = true) :
    ∃ versions, resultingVersions db ids = .ok versions ∧
      ∀ b ∈ versions, b.1 ∈ ids ∧ db.privateRecordVersion b.1 = .ok b.2 := by
  induction ids with
  | nil => exact ⟨[], rfl, fun b hb => absurd hb List.not_mem_nil⟩
  | cons id ids ih =>
      obtain ⟨s, hs⟩ := Option.isSome_iff_exists.1 (h id List.mem_cons_self)
      obtain ⟨versions, hversions, hall⟩ := ih fun x hx => h x (List.mem_cons_of_mem _ hx)
      have hversion : db.privateRecordVersion id = .ok s.recordVersion :=
        bind_eq_ok.2 ⟨s, require_eq_ok.2 hs, rfl⟩
      refine ⟨(id, s.recordVersion) :: versions,
        bind_eq_ok.2 ⟨_, hversion, bind_eq_ok.2 ⟨versions, hversions, rfl⟩⟩, fun b hb => ?_⟩
      rcases List.mem_cons.1 hb with rfl | hb
      · exact ⟨List.mem_cons_self, hversion⟩
      · exact ⟨List.mem_cons_of_mem _ (hall b hb).1, (hall b hb).2⟩

omit [Digests] in
/-- A version outside the rows a write names is the version from before. -/
theorem version_of_wrote {stamp id : String} {ids : List String} {k : Nat} {db db' : Db}
    (h : Wrote stamp ids k db db') (hid : id ∉ ids) :
    db'.privateRecordVersion id = db.privateRecordVersion id := by
  simp only [Db.privateRecordVersion, Db.requireState, h.frame id hid]

/-- The reported versions are those a database holds. -/
def VersionsHold (db : Db) (results : List PrivateLifecycleActionResult) : Prop :=
  ∀ result ∈ results, ∀ bound ∈ result.resultingVersions.entries,
    db.privateRecordVersion bound.1 = .ok bound.2

/-- One turn of the loop, with the versions it reports. -/
theorem applyStep_wrote {app : Application} {db : Db} {p : PreparedAction} (happ : Stamped app)
    (hc : Constrained db) (hu : Unique db (p.draws (view db))) (h : Ready app (view db) p)
    (htexts : Storable p.action) (done : List PrivateLifecycleActionResult) :
    ∃ db' result, applyStep app (db, done) p = .ok (db', done ++ [result]) ∧
      view db' = (view db).act app p ∧
      Wrote app.appliedAt p.touched (p.draws (view db)) db db' ∧
      (∀ id ∈ p.touched, db'.StampedAt app.appliedAt id) ∧
      ∀ bound ∈ result.resultingVersions.entries, bound.1 ∈ p.touched ∧
        db'.privateRecordVersion bound.1 = .ok bound.2 := by
  obtain ⟨db', hmutate, hwrote, hstamped⟩ := mutateAction_wrote happ hc hu h htexts
  have htargets : ∀ id ∈ p.resultTargets, id ∈ p.touched := by
    intro id hid
    rw [PreparedAction.resultTargets, SortedMap.mem_sortedKeys, ← h.reserved.created] at hid
    exact hid
  have hrows : ∀ id ∈ p.resultTargets, (db'.lifecycle.get? id).isSome = true := by
    intro id hid
    obtain ⟨s, hs, -⟩ := hstamped id (htargets id hid)
    rw [hs]
    rfl
  obtain ⟨versions, hversions, hall⟩ := resultingVersions_ok hrows
  refine ⟨db', ⟨p.action.kind, p.resultTargets, .ofList versions, p.replacementId⟩,
    bind_eq_ok.2 ⟨_, bind_eq_ok.2 ⟨db', hmutate, bind_eq_ok.2 ⟨versions, hversions, rfl⟩⟩, rfl⟩,
    (view_of_mutateAction hmutate).1, hwrote, hstamped, fun bound hbound => ?_⟩
  obtain ⟨hmem, hversion⟩ := hall bound (SortedMap.mem_of_mem_ofList hbound)
  exact ⟨htargets _ hmem, hversion⟩

/-- A group of ready actions that touch different records goes through from any database that is
ready for it, and the versions it reports are those at its end. -/
theorem applyActions_wrote {app : Application} (happ : Stamped app) {order : List PreparedAction}
    (hdisjoint : (order.flatMap (·.touched)).Nodup) {db : Db} (hc : Constrained db)
    (hu : Unique db (order.map (·.draws (view db))).sum)
    (hready : ∀ p ∈ order, Ready app (view db) p) (htexts : ∀ p ∈ order, Storable p.action)
    {done : List PrivateLifecycleActionResult} (hdone : VersionsHold db done)
    (hearlier : ∀ result ∈ done, ∀ bound ∈ result.resultingVersions.entries,
      bound.1 ∉ order.flatMap (·.touched)) :
    ∃ db' results, runAll (applyStep app) (db, done) order = .ok (db', results) ∧
      view db' = order.foldl (View.act app) (view db) ∧
      Wrote app.appliedAt (order.flatMap (·.touched)) (order.map (·.draws (view db))).sum db db' ∧
      (∀ id ∈ order.flatMap (·.touched), db'.StampedAt app.appliedAt id) ∧
      VersionsHold db' results := by
  induction order generalizing db done with
  | nil =>
      refine ⟨db, done, rfl, rfl, Wrote.refl hc, fun id hid => ?_, hdone⟩
      cases hid
  | cons p order ih =>
      rw [List.flatMap_cons, List.nodup_append] at hdisjoint
      obtain ⟨-, hrest, hapart⟩ := hdisjoint
      rw [List.map_cons, List.sum_cons] at hu ⊢
      have hdisjoint : ∀ q ∈ order, p.touched.Disjoint q.touched := by
        intro q hq x hp hx
        exact hapart x hp x (List.mem_flatMap.2 ⟨q, hq, hx⟩) rfl
      obtain ⟨mid, result, hstep, hview, hwrote, hstamped, hversions⟩ := applyStep_wrote happ hc
        (hu.mono (by omega)) (hready p List.mem_cons_self) (htexts p List.mem_cons_self) done
      have hdraws : order.map (·.draws (view mid)) = order.map (·.draws (view db)) := by
        refine List.map_congr_left fun q hq => ?_
        rw [hview]
        exact draws_act (hdisjoint q hq)
      -- later actions change none of the versions reported so far
      have hheld : VersionsHold mid (done ++ [result]) := by
        intro r hr bound hbound
        rcases List.mem_append.1 hr with hr | hr
        · rw [version_of_wrote hwrote fun hmem => hearlier r hr bound hbound
            (List.mem_flatMap.2 ⟨p, List.mem_cons_self, hmem⟩)]
          exact hdone r hr bound hbound
        · rw [List.mem_singleton.1 hr] at hbound
          exact (hversions bound hbound).2
      have hlater : ∀ r ∈ done ++ [result], ∀ bound ∈ r.resultingVersions.entries,
          bound.1 ∉ order.flatMap (·.touched) := by
        intro r hr bound hbound hmem
        rcases List.mem_append.1 hr with hr | hr
        · refine hearlier r hr bound hbound ?_
          rw [List.flatMap_cons]
          exact List.mem_append_right _ hmem
        · rw [List.mem_singleton.1 hr] at hbound
          exact hapart _ (hversions bound hbound).1 _ hmem rfl
      obtain ⟨db', results, hrun, hfold, hwrote', hstamped', hhold⟩ := ih hrest
        hwrote.constrained (hdraws ▸ hwrote.unique _ hu)
        (fun q hq => by
          rw [hview]
          exact (hready q (List.mem_cons_of_mem _ hq)).act (hdisjoint q hq))
        (fun q hq => htexts q (List.mem_cons_of_mem _ hq)) hheld hlater
      · refine ⟨db', results, runAll_cons.2 ⟨_, hstep, hrun⟩, ?_, ?_, ?_, hhold⟩
        · rw [hfold, hview, List.foldl_cons]
        · rw [List.flatMap_cons, ← hdraws]
          exact hwrote.trans hwrote'
        · intro id hid
          rw [List.flatMap_cons, List.mem_append] at hid
          rcases hid with hid | hid
          · exact hwrote'.stamped id (hstamped id hid)
          · exact hstamped' id hid

end Run

/-! ### Reserved ids -/

section Reserve

variable [Entropy]

/-- An id that was drawn while the group was checked. -/
def DrawnId (first last : Nat) (id : String) : Prop :=
  ∃ destination n, (destination = "session" ∨ destination = "local") ∧ first ≤ n ∧ n < last ∧
    id = destination ++ "-" ++ Entropy.uuid n

omit [Digests] in
theorem reserveId_ok {destination id : String} {tries draws : Nat} {db : Db}
    (h : reserveId db destination tries = .ok (id, draws)) :
    db.records.get? id = none ∧ db.draws < draws ∧ draws ≤ db.draws + tries ∧
      ∃ n, db.draws ≤ n ∧ n < draws ∧ id = destination ++ "-" ++ Entropy.uuid n := by
  induction tries generalizing db with
  | zero => cases h
  | succ tries ih =>
      rw [reserveId] at h
      split at h
      · obtain ⟨hnone, hlt, hle, n, hn, hlast, hid⟩ := ih h
        dsimp only at hlt hle hn
        exact ⟨hnone, by omega, by omega, n, by omega, hlast, hid⟩
      · rename_i hfree
        cases h
        refine ⟨?_, by omega, by omega, db.draws, le_refl _, by omega, rfl⟩
        rw [Contents.hasRecord, Bool.not_eq_true, Option.isSome_eq_false_iff,
          Option.isNone_iff_eq_none] at hfree
        exact hfree

omit [Digests] in
/-- Ids drawn one after the other differ. -/
theorem drawnId_ne {first middle last : Nat} {a b : String} (ha : DrawnId first middle a)
    (hb : DrawnId middle last b)
    (hdistinct : ∀ m n, first ≤ m → m < n → n < last → Entropy.uuid m ≠ Entropy.uuid n) : a ≠ b := by
  obtain ⟨d, m, hd, hm, hm', rfl⟩ := ha
  obtain ⟨e, n, he, hn, hn', rfl⟩ := hb
  have huuid : Entropy.uuid m ≠ Entropy.uuid n := hdistinct m n hm (by omega) hn'
  intro heq
  have hchars := congrArg String.toList heq
  rcases hd with rfl | rfl
  · rcases he with rfl | rfl
    · exact prefix_ne huuid heq
    · simp at hchars
  · rcases he with rfl | rfl
    · simp at hchars
    · exact prefix_ne huuid heq

variable [Text.Unicode]

omit [Digests] in
theorem prepareAction_reserved {db db' : Db} {a : PrivateLifecycleAction} {p : PreparedAction}
    {now : OffsetDateTime} (h : prepareAction now db a = .ok (db', p)) :
    Reserved p ∧ db.draws ≤ db'.draws ∧ db'.draws ≤ db.draws + 8 ∧ p.created.Nodup ∧
      ∀ id ∈ p.created, DrawnId db.draws db'.draws id ∧ db.records.get? id = none := by
  obtain ⟨-, h⟩ := check_bind_eq_ok.1 h
  split at h
  · obtain ⟨⟨id, draws⟩, hnext, h⟩ := bind_eq_ok.1 h
    cases h
    obtain ⟨record, -, hnext⟩ := bind_eq_ok.1 hnext
    obtain ⟨-, hreserve⟩ := check_bind_eq_ok.1 hnext
    obtain ⟨hnone, hlt, hle, n, hn, hlast, hid⟩ := reserveId_ok hreserve
    refine ⟨rfl, by dsimp only; omega, hle, List.nodup_singleton _, fun x hx => ?_⟩
    rw [List.mem_singleton.1 hx]
    refine ⟨⟨_, n, ?_, hn, hlast, hid⟩, hnone⟩
    split
    · exact Or.inl rfl
    · exact Or.inr rfl
  · rename_i hnot
    cases h
    have hcreated : PreparedAction.created ⟨a, none⟩ = [] := by
      cases a <;> rfl
    refine ⟨?_, le_refl _, by omega, by rw [hcreated]; exact List.nodup_nil, fun x hx => ?_⟩
    · cases a with
      | correct => exact absurd rfl (hnot _ _ _ _ _)
      | _ => rfl
    · rw [hcreated] at hx
      cases hx

omit [Digests] in
theorem prepareActions_reserved {actions : List PrivateLifecycleAction} {db db' : Db}
    {prepared : List PreparedAction} {now : OffsetDateTime}
    (h : prepareActions now db actions = .ok (db', prepared)) :
    (∀ p ∈ prepared, Reserved p) ∧ db.draws ≤ db'.draws ∧
      db'.draws ≤ db.draws + 8 * prepared.length ∧
      (∀ p ∈ prepared, ∀ id ∈ p.created, DrawnId db.draws db'.draws id ∧
        db.records.get? id = none) ∧
      ((∀ m n, db.draws ≤ m → m < n → n < db'.draws → Entropy.uuid m ≠ Entropy.uuid n) →
        (prepared.flatMap (·.created)).Nodup) := by
  induction actions generalizing db prepared with
  | nil =>
      cases h
      exact ⟨fun p hp => absurd hp List.not_mem_nil, le_refl _, by omega,
        fun p hp => absurd hp List.not_mem_nil, fun _ => List.nodup_nil⟩
  | cons a actions ih =>
      obtain ⟨⟨mid, p⟩, hp, h⟩ := bind_eq_ok.1 h
      obtain ⟨⟨last, rest⟩, hrest, h⟩ := bind_eq_ok.1 h
      cases h
      obtain ⟨hreserved, hle, hmax, hone, hids⟩ := prepareAction_reserved hp
      obtain ⟨hreserveds, hles, hmaxs, hidss, hnodup⟩ := ih hrest
      obtain ⟨⟨k, rfl⟩, -, -⟩ := prepareAction_ok hp
      dsimp only at hle hmax hles hmaxs hidss hids hnodup
      refine ⟨fun q hq => ?_, by omega, by rw [List.length_cons]; omega, fun q hq id hid => ?_,
        fun hdistinct => ?_⟩
      · rcases List.mem_cons.1 hq with rfl | hq
        · exact hreserved
        · exact hreserveds q hq
      · rcases List.mem_cons.1 hq with rfl | hq
        · obtain ⟨⟨d, n, hd, hn, hn', heq⟩, hnone⟩ := hids id hid
          exact ⟨⟨d, n, hd, hn, by omega, heq⟩, hnone⟩
        · obtain ⟨⟨d, n, hd, hn, hn', heq⟩, hnone⟩ := hidss q hq id hid
          exact ⟨⟨d, n, hd, by omega, hn', heq⟩, hnone⟩
      · rw [List.flatMap_cons, List.nodup_append]
        refine ⟨hone, hnodup fun m n hm hlt hlast => hdistinct m n (by omega) hlt hlast, ?_⟩
        intro x hx y hy
        obtain ⟨q, hq, hyq⟩ := List.mem_flatMap.1 hy
        exact drawnId_ne (hids x hx).1 (hidss q hq y hyq).1 hdistinct

end Reserve

/-! ### A checked group is ready -/

omit [Digests] in
/-- An action is bound to a version of every record it changes. -/
theorem bound_of_target {a : PrivateLifecycleAction} (hvalid : validateAction a = .ok ()) :
    ∀ id ∈ a.mutationTargets, id ∈ a.expectedVersions.keys := by
  simp only [validateAction, check_bind_eq_ok] at hvalid
  obtain ⟨-, -, hfields⟩ := hvalid
  have hlist : ∀ {ids : List (String × String)} {id : String}, id ∈ ids.map Prod.fst →
      id ∈ (SortedMap.ofList ids).keys := by
    intro ids id hid
    exact SortedMap.mem_keys_extend.2 (Or.inr hid)
  have hset : ∀ {label : String} {ids : List String} {versions : Versions} {kept : String},
      validateSelectionSet label ids versions kept = .ok () → ∀ id ∈ ids, id ∈ versions.keys := by
    intro label ids versions kept hset id hid
    simp only [validateSelectionSet, check_bind_eq_ok, ensure_eq_ok] at hset
    obtain ⟨-, -, hsame, -⟩ := hset
    rw [← hsame, SortedMap.mem_sortedKeys]
    exact hid
  intro id hid
  cases a with
  | consolidate => exact hset hfields id hid
  | resolveContradiction => exact hset hfields id hid
  | correct recordId version _ _ evidence =>
      refine SortedMap.mem_keys_extend.2 (Or.inl (hlist ?_))
      exact hid
  | _ => exact hlist hid

omit [Digests] in
theorem row_of_versions {db : Db} {a : PrivateLifecycleAction} (hvalid : validateAction a = .ok ())
    (h : ensureExpectedVersions db a = .ok ()) :
    ∀ id ∈ a.mutationTargets, (db.lifecycle.get? id).isSome = true := by
  intro id hid
  obtain ⟨bound, hbound, rfl⟩ := List.mem_map.1 (bound_of_target hvalid id hid)
  have hversion := checkAll_eq_ok.1 h bound hbound
  obtain ⟨-, hversion⟩ := check_bind_eq_ok.1 hversion
  obtain ⟨current, hcurrent, -⟩ := bind_eq_ok.1 hversion
  obtain ⟨s, hs, -⟩ := bind_eq_ok.1 hcurrent
  rw [require_eq_ok.1 hs]
  rfl

/-! ### The group in any order -/

/-- A correction whose replacement texts, once trimmed, do not start with NUL. -/
def NoLeadingNul : PrivateLifecycleAction → Prop
  | .correct _ _ replacement _ _ =>
    (Text.trim replacement.title).toList.head?.map Char.toNat ≠ some 0 ∧
      (Text.trim replacement.body).toList.head?.map Char.toNat ≠ some 0
  | _ => True

omit [Digests] in
/-- The texts of a valid correction can be stored unless they start with NUL. -/
theorem storable_iff {a : PrivateLifecycleAction} (hvalid : validateAction a = .ok ()) :
    Storable a ↔ NoLeadingNul a := by
  cases a with
  | correct =>
      simp only [validateAction, validateActionFields, check_bind_eq_ok, ensure_eq_ok] at hvalid
      obtain ⟨-, -, htitle, hbody, -⟩ := hvalid
      exact and_congr (Text.sqlNonBlank_trim htitle) (Text.sqlNonBlank_trim hbody)
  | _ => exact Iff.rfl

section AnyOrder

variable [Entropy] [Text.Unicode]

/-- The ids that are drawn next are new, those of applications included. -/
structure FreshDraws (db : Db) (k : Nat) : Prop extends Unique db k where
  applications : ∀ n, db.draws ≤ n → n < db.draws + k → ∀ r ∈ db.relations.rows,
    r.applicationId ≠ "application_" ++ Entropy.uuid n

/-- The draws a checked group uses up at most: eight tries for each reserved id, the ids of the
application and of its event, and those of the writes. -/
def groupDraws (v : View) (prepared : List PreparedAction) : Nat :=
  8 * prepared.length + 2 + (prepared.map (·.draws v)).sum

/-- What a group leaves that runs in some order: one visible store for all orders, the instant of
the application on the rows it touches and no other, and results that report the versions at the
end. -/
structure Outcome (app : Application) (db : Db) (prepared order : List PreparedAction) (db' : Db)
    (results : List PrivateLifecycleActionResult) : Prop where
  run : applyActionGroup app db order = .ok (db', results)
  visible : view db' = prepared.foldl (View.act app) (view db)
  rest : SameRest db db'
  stamps : ∀ id, (db'.lifecycle.get? id).map (·.updatedAt) =
    if id ∈ prepared.flatMap (·.touched) then some app.appliedAt
    else (db.lifecycle.get? id).map (·.updatedAt)
  versions : VersionsHold db' results

omit [Digests] [Text.Unicode] in
theorem stamped_newApplication {db : Db} {request : PrivateLifecycleRequest} {now : OffsetDateTime}
    {appliedAt : String} (h : Retention.formatTimestamp now = .ok appliedAt) :
    Stamped (newApplication db request appliedAt) := by
  have hchars : ("application_" ++ Entropy.uuid db.draws).toList =
      "application_".toList ++ (Entropy.uuid db.draws).toList := String.toList_append
  refine ⟨(Text.sqlNonBlank_cons (c := 'a') hchars (by decide)).2 (by decide), ?_⟩
  unfold Retention.formatTimestamp at h
  split at h
  · cases h
  · exact Rfc3339.sqlNonBlank_format (require_eq_ok.1 h)

/-- Every action of a checked group is ready. -/
theorem ready_of_checked {db checked : Db} {request : PrivateLifecycleRequest}
    {prepared : List PreparedAction} {now : OffsetDateTime} {app : Application}
    (hvalid : request.validate = .ok ())
    (hgroup : validateActionGroup db request now = .ok (checked, prepared))
    (hfresh : ∀ r ∈ db.relations.rows, r.applicationId ≠ app.applicationId) :
    ∀ p ∈ prepared, Ready app (view db) p := by
  intro p hp
  obtain ⟨hversions, hprepare⟩ := check_bind_eq_ok.1 hgroup
  obtain ⟨-, hprepared⟩ := prepareActions_ok hprepare
  obtain ⟨hreserved, -, -, hids, -⟩ := prepareActions_reserved hprepare
  have hmem : p.action ∈ request.actions := hprepared.map_action ▸ List.mem_map_of_mem hp
  have haction := validate_action hvalid p.action hmem
  have hadmits := hprepared.admits (validate_action hvalid) p hp
  have hrows := row_of_versions haction (checkAll_eq_ok.1 hversions p.action hmem)
  refine ⟨haction, hreserved p hp, hadmits, fun id hid => ?_, fun id hid => (hids p hp id hid).2⟩
  refine ⟨hadmits.isPrivate id hid, isSome_lifecycle.symm.trans (hrows id hid), ?_⟩
  intro e he happ
  obtain ⟨r, hr, rfl⟩ := List.mem_map.1 (Multiset.mem_coe.1 he)
  exact absurd happ (hfresh r hr)

/-- No two actions of a checked group touch one record. -/
theorem touched_nodup_of_checked {db checked : Db} {request : PrivateLifecycleRequest}
    {prepared : List PreparedAction} {now : OffsetDateTime} {app : Application}
    (hvalid : request.validate = .ok ())
    (hgroup : validateActionGroup db request now = .ok (checked, prepared))
    (hready : ∀ p ∈ prepared, Ready app (view db) p)
    (hdistinct : ∀ m n, db.draws ≤ m → m < n → n < checked.draws → Entropy.uuid m ≠ Entropy.uuid n) :
    (prepared.flatMap (·.touched)).Nodup := by
  obtain ⟨-, hprepare⟩ := check_bind_eq_ok.1 hgroup
  obtain ⟨-, hprepared⟩ := prepareActions_ok hprepare
  obtain ⟨-, -, -, hids, hcreated⟩ := prepareActions_reserved hprepare
  have hperm := List.flatMap_append_perm prepared (·.action.mutationTargets) (·.created)
  refine hperm.nodup_iff.1 ((hprepared.disjoint hvalid).append (hcreated hdistinct) ?_)
  intro id htarget hnew
  obtain ⟨p, hp, hid⟩ := List.mem_flatMap.1 htarget
  obtain ⟨q, hq, hid'⟩ := List.mem_flatMap.1 hnew
  obtain ⟨r, hr⟩ := ((hready p hp).writable id hid).isPrivate
  have hnone : (view db).records id = none := (hids q hq id hid').2
  rw [hr.stored] at hnone
  cases hnone

omit [Text.Unicode] in
/-- A correction that went through had texts that can be stored. -/
theorem storable_of_mutateAction {app : Application} {db db' : Db} {p : PreparedAction}
    (h : mutateAction app db p.action p.replacementId = .ok db') : Storable p.action := by
  obtain ⟨action, replacementId⟩ := p
  cases action with
  | correct =>
      obtain ⟨id, -, h⟩ := bind_eq_ok.1 h
      obtain ⟨mid, hcreate, -⟩ := bind_eq_ok.1 h
      obtain ⟨predecessor, -, hcreate⟩ := bind_eq_ok.1 hcreate
      obtain ⟨state, -, hcreate⟩ := bind_eq_ok.1 hcreate
      obtain ⟨inserted, hinsert, -⟩ := bind_eq_ok.1 hcreate
      obtain ⟨hadmitted, -⟩ := check_bind_eq_ok.1 hinsert
      have hrow := ensure_eq_ok.1 hadmitted
      simp only [MemoryRecord.admitted, Bool.and_eq_true] at hrow
      exact ⟨hrow.1.1.1.2, hrow.1.1.2⟩
  | _ => trivial

omit [Text.Unicode] in
theorem storable_of_applyActions {app : Application} {prepared : List PreparedAction}
    {acc acc' : Db × List PrivateLifecycleActionResult}
    (h : runAll (applyStep app) acc prepared = .ok acc') : ∀ p ∈ prepared, Storable p.action := by
  induction prepared generalizing acc with
  | nil => exact fun p hp => absurd hp List.not_mem_nil
  | cons q prepared ih =>
      obtain ⟨mid, hstep, hrest⟩ := runAll_cons.1 h
      intro p hp
      rcases List.mem_cons.1 hp with rfl | hp
      · obtain ⟨⟨mid', result⟩, happly, -⟩ := bind_eq_ok.1 hstep
        obtain ⟨db', hmutate, -⟩ := bind_eq_ok.1 happly
        exact storable_of_mutateAction hmutate
      · exact ih hrest p hp

/-- **The order of a checked group does not matter**: in every order every action goes through and
the group has one outcome, exactly when no correction of the group has a title or body that starts
with NUL. -/
theorem actionGroup_anyOrder {db checked : Db} {request : PrivateLifecycleRequest}
    {prepared : List PreparedAction} {now : OffsetDateTime} {appliedAt : String}
    (hc : Constrained db) (hvalid : request.validate = .ok ())
    (hgroup : validateActionGroup db request now = .ok (checked, prepared))
    (happlied : Retention.formatTimestamp now = .ok appliedAt)
    (hfresh : FreshDraws db (groupDraws (view db) prepared)) :
    (∀ order, order.Perm prepared → ∃ db' results,
      Outcome (newApplication checked request appliedAt) { checked with draws := checked.draws + 2 }
        prepared order db' results) ↔
      ∀ a ∈ request.actions, NoLeadingNul a := by
  obtain ⟨-, hprepare⟩ := check_bind_eq_ok.1 hgroup
  obtain ⟨⟨n, rfl⟩, hprepared⟩ := prepareActions_ok hprepare
  obtain ⟨-, hle, hmax, -⟩ := prepareActions_reserved hprepare
  dsimp only at hle hmax
  have hactions : ∀ p ∈ prepared, p.action ∈ request.actions := fun p hp =>
    hprepared.map_action ▸ List.mem_map_of_mem hp
  have hstorable : ∀ p ∈ prepared, Storable p.action ↔ NoLeadingNul p.action := fun p hp =>
    storable_iff (validate_action hvalid p.action (hactions p hp))
  constructor
  · intro hall a ha
    obtain ⟨db', results, houtcome⟩ := hall prepared (List.Perm.refl prepared)
    rw [← hprepared.map_action] at ha
    obtain ⟨p, hp, rfl⟩ := List.mem_map.1 ha
    exact (hstorable p hp).1 (storable_of_applyActions houtcome.run p hp)
  · intro htexts order hperm
    have happ : Stamped (newApplication { db with draws := n } request appliedAt) :=
      stamped_newApplication happlied
    have hready : ∀ p ∈ prepared,
        Ready (newApplication { db with draws := n } request appliedAt) (view db) p :=
      ready_of_checked hvalid hgroup (hfresh.applications n hle (by unfold groupDraws; omega))
    have hdisjoint := touched_nodup_of_checked hvalid hgroup hready fun m k hm hlt hlast =>
      hfresh.distinct m k hm hlt (by unfold groupDraws; dsimp only at hlast; omega)
    -- the ids left for the writes
    have hunique : Unique { db with draws := n + 2 } (prepared.map (·.draws (view db))).sum :=
      hfresh.toUnique.later (by omega) (by unfold groupDraws; omega)
    have hflat : (order.flatMap (·.touched)).Perm (prepared.flatMap (·.touched)) :=
      hperm.flatMap_right _
    have hsum : (order.map (·.draws (view db))).sum = (prepared.map (·.draws (view db))).sum :=
      (hperm.map _).sum_nat
    have hc' : Constrained { db with draws := n + 2 } := ⟨hc.1, hc.2, hc.3, hc.4, hc.5⟩
    obtain ⟨db', results, hrun, hview, hwrote, hstamped, hversions⟩ := applyActions_wrote happ
      (hflat.nodup_iff.2 hdisjoint) hc' (hsum ▸ hunique)
      (fun p hp => hready p (hperm.mem_iff.1 hp))
      (fun p hp => (hstorable p (hperm.mem_iff.1 hp)).2
        (htexts p.action (hactions p (hperm.mem_iff.1 hp))))
      (fun r hr => absurd hr List.not_mem_nil) (fun r hr => absurd hr List.not_mem_nil)
    refine ⟨db', results, hrun, ?_, (runs_of_applyActionGroup hrun).2, fun id => ?_, hversions⟩
    · rw [hview]
      exact foldl_act_perm _ hperm hdisjoint (view db)
    · split
      · rename_i hid
        obtain ⟨s, hs, hstamp⟩ := hstamped id (hflat.mem_iff.2 hid)
        rw [hs, Option.map_some, hstamp]
      · rename_i hid
        rw [hwrote.frame id fun hmem => hid (hflat.mem_iff.1 hmem)]

end AnyOrder

/-! ### A correction and a pin -/

omit [Digests]

def threeDecisions : Db :=
  { Db.initial "2026-07-14T10:00:00Z" with
    records := ⟨["local_1", "local_2", "local_3"].map plainDecision, by decide⟩
    lifecycle := ⟨["local_1", "local_2", "local_3"].map plainLifecycle, by decide⟩ }

/-- The first decision is corrected on the evidence of the second, and the third is pinned. -/
def correctAndPin (title : String) : PrivateLifecycleRequest where
  schema := requestSchema
  requestId := "lifecycle_request_op-1"
  operationId := "op-1"
  source := .direct
  actions := [.correct "local_1" "00000000000000000000000000000000" ⟨title, "Retry once"⟩
      "outdated" (.ofList [("local_2", "00000000000000000000000000000000")]),
    .pin "local_3" "00000000000000000000000000000000"]

theorem constrained_threeDecisions : Constrained threeDecisions where
  records id r hr := by
    have hall : ∀ r ∈ threeDecisions.records.rows, r.admitted = true := by decide
    exact hall r (Table.mem_of_get? hr)
  supersedes id r hr := by
    have hall : ∀ r ∈ threeDecisions.records.rows, threeDecisions.supersedesHolds r = true := by
      decide
    exact hall r (Table.mem_of_get? hr)
  lifecycle id s hs := by
    have hall : ∀ s ∈ threeDecisions.lifecycle.rows,
        s.admitted = true ∧ threeDecisions.hasRecord s.recordId = true := by decide
    rw [← Table.key_of_get? hs]
    exact hall s (Table.mem_of_get? hs)
  tags k t ht := by cases ht
  paths k p hp := by cases hp

theorem actionGroup_anyOrder_correctAndPin :
    ∃ checked prepared,
      @validateActionGroup Entropy.cycling Text.Unicode.ascii threeDecisions
        (correctAndPin "Retry policy") ⟨1784023200000000000, 0⟩ = .ok (checked, prepared) ∧
      ∀ order, order.Perm prepared → ∃ db' results,
        @Outcome Digests.ofOperation Entropy.cycling
          (@newApplication Entropy.cycling checked (correctAndPin "Retry policy")
            "2026-07-14T10:00:00Z")
          { checked with draws := checked.draws + 2 } prepared order db' results := by
  have hdraws : ((@validateActionGroup Entropy.cycling Text.Unicode.ascii threeDecisions
      (correctAndPin "Retry policy") ⟨1784023200000000000, 0⟩).toOption.any
        fun r => groupDraws (view threeDecisions) r.2 = 43) = true := by decide +kernel
  have hvalid : @PrivateLifecycleRequest.validate Digests.ofOperation
      (correctAndPin "Retry policy") = .ok () := by decide +kernel
  have hdistinct : ∀ n < 43, ∀ m < n, @Entropy.uuid Entropy.cycling m ≠
      @Entropy.uuid Entropy.cycling n := by decide +kernel
  cases hrun : @validateActionGroup Entropy.cycling Text.Unicode.ascii threeDecisions
      (correctAndPin "Retry policy") ⟨1784023200000000000, 0⟩ with
  | error e =>
      rw [hrun] at hdraws
      cases hdraws
  | ok result =>
      obtain ⟨checked, prepared⟩ := result
      rw [hrun] at hdraws
      have hdraws : groupDraws (view threeDecisions) prepared = 43 := of_decide_eq_true hdraws
      let _ := Entropy.cycling
      let _ := Digests.ofOperation
      let _ := Text.Unicode.ascii
      have hfresh : FreshDraws threeDecisions (groupDraws (view threeDecisions) prepared) := by
        rw [hdraws]
        refine ⟨⟨fun m n _ hlt hn => ?_, fun n _ _ => rfl, fun n _ _ => rfl⟩, fun n _ _ r hr => ?_⟩
        · exact hdistinct n (lt_of_lt_of_eq hn (by decide)) m hlt
        · cases hr
      refine ⟨checked, prepared, rfl, (actionGroup_anyOrder constrained_threeDecisions hvalid hrun
        (by decide +kernel) hfresh).2 ?_⟩
      intro a ha
      rcases List.mem_cons.1 ha with rfl | ha
      · exact ⟨by decide +kernel, by decide +kernel⟩
      · rw [List.mem_singleton.1 ha]
        trivial

/-- A correction whose title starts with NUL passes every check, and its write is refused. -/
theorem correctAndPin_nulTitle :
    @PrivateLifecycleRequest.validate Digests.ofOperation (correctAndPin "\x00Retry") = .ok () ∧
    ∃ checked prepared,
      @validateActionGroup Entropy.cycling Text.Unicode.ascii threeDecisions
        (correctAndPin "\x00Retry") ⟨1784023200000000000, 0⟩ = .ok (checked, prepared) ∧
      (@applyActionGroup Entropy.cycling Digests.ofOperation
        (@newApplication Entropy.cycling checked (correctAndPin "\x00Retry") "2026-07-14T10:00:00Z")
        { checked with draws := checked.draws + 2 } prepared).toOption = none := by
  have hchecked : ((@validateActionGroup Entropy.cycling Text.Unicode.ascii threeDecisions
      (correctAndPin "\x00Retry") ⟨1784023200000000000, 0⟩).toOption.any fun r =>
        (@applyActionGroup Entropy.cycling Digests.ofOperation
          (@newApplication Entropy.cycling r.1 (correctAndPin "\x00Retry") "2026-07-14T10:00:00Z")
          { r.1 with draws := r.1.draws + 2 } r.2).toOption.isNone) = true := by decide +kernel
  refine ⟨by decide +kernel, ?_⟩
  cases hrun : @validateActionGroup Entropy.cycling Text.Unicode.ascii threeDecisions
      (correctAndPin "\x00Retry") ⟨1784023200000000000, 0⟩ with
  | error e =>
      rw [hrun] at hchecked
      cases hchecked
  | ok result =>
      rw [hrun] at hchecked
      exact ⟨result.1, result.2, rfl, Option.isNone_iff_eq_none.1 hchecked⟩

end PrivateLifecycle
end Memzoi
