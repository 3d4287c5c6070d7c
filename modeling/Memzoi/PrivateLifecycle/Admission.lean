/-
# From admission to the end of a group

Source: `service/private_lifecycle.rs` (`validate_action_semantics`,
`apply_action_group`).

All actions are admitted on the database before the group, and executed one
after another. `group_invariant` is the rule that bridges the two: what an
action was admitted on concerns its own records only, no action changes the
records of another, so each action still finds what it was admitted on, and an
invariant of single admitted actions is an invariant of the group.
-/

import Memzoi.PrivateLifecycle.View

namespace Memzoi
namespace PrivateLifecycle

open Fallible Retention Maintenance

/-! ### What an action touches -/

namespace PreparedAction

/-- The record a correction creates. -/
def created (p : PreparedAction) : List String :=
  match p.action with
  | .correct .. => p.replacementId.toList
  | _ => []

/-- The records whose row, facts, tags or paths an action may change. -/
def touched (p : PreparedAction) : List String := p.action.mutationTargets ++ p.created

end PreparedAction

/-- Two visible stores agree on a record. -/
structure AgreeOn (v v' : View) (id : String) : Prop where
  records : v'.records id = v.records id
  facts : v'.facts id = v.facts id
  tags : v'.tags id = v.tags id
  paths : v'.paths id = v.paths id

theorem AgreeOn.refl (v : View) (id : String) : AgreeOn v v id := ⟨rfl, rfl, rfl, rfl⟩

theorem AgreeOn.trans {v v' v'' : View} {id : String} (h : AgreeOn v v' id)
    (h' : AgreeOn v' v'' id) : AgreeOn v v'' id :=
  ⟨h'.records.trans h.records, h'.facts.trans h.facts, h'.tags.trans h.tags,
    h'.paths.trans h.paths⟩

theorem agreeOn_changeFacts {v : View} {a id : String} {f : LifecycleFacts → LifecycleFacts}
    (h : id ≠ a) : AgreeOn v (v.changeFacts a f) id :=
  ⟨rfl, Function.update_of_ne h _ _, rfl, rfl⟩

theorem agreeOn_changeRecord {v : View} {a id : String} {f : MemoryRecord → MemoryRecord}
    (h : id ≠ a) : AgreeOn v (v.changeRecord a f) id :=
  ⟨Function.update_of_ne h _ _, Function.update_of_ne h _ _, rfl, rfl⟩

theorem AgreeOn.relate {v v' : View} {id : String} (h : AgreeOn v v' id)
    (kind : PrivateLifecycleRelationKind) (subject related : String) (app : Application) :
    AgreeOn v (v'.relate kind subject related app) id :=
  ⟨h.records, h.facts, h.tags, h.paths⟩

theorem agreeOn_supersedeInto {v : View} {kind : PrivateLifecycleRelationKind}
    {subject related id : String} {app : Application} (h : id ≠ subject) :
    AgreeOn v (v.supersedeInto kind subject related app) id :=
  (agreeOn_changeRecord h).relate kind subject related app

theorem agreeOn_supersedeMembers {kind : PrivateLifecycleRelationKind} {kept id : String}
    {ids : List String} {app : Application} {v : View} (h : id ∉ ids) :
    AgreeOn v (v.supersedeMembers kind kept ids app) id := by
  unfold View.supersedeMembers
  induction ids generalizing v with
  | nil => exact AgreeOn.refl v id
  | cons x ids ih =>
      have hx : id ≠ x := fun heq => h (heq ▸ List.mem_cons_self)
      have hids : id ∉ ids := fun hmem => h (List.mem_cons_of_mem _ hmem)
      rw [List.foldl_cons]
      split
      · exact ih hids
      · exact (agreeOn_supersedeInto hx).trans (ih hids)

theorem agreeOn_succeedBy {v : View} {kind : PrivateLifecycleRelationKind} {a b id : String}
    {lineage : Option RecordLineageKind} {app : Application} (ha : id ≠ a) (hb : id ≠ b) :
    AgreeOn v (v.succeedBy kind a b lineage app) id :=
  ((agreeOn_changeRecord ha).trans (agreeOn_changeRecord hb)).relate kind a b app

/-- An action leaves every record alone that it does not touch. -/
theorem agreeOn_act [Digests] {v : View} {app : Application} {p : PreparedAction} {id : String}
    (h : id ∉ p.touched) : AgreeOn v (v.act app p) id := by
  obtain ⟨action, replacementId⟩ := p
  cases action with
  | renewFromEvidence =>
      simp only [PreparedAction.touched, PreparedAction.created,
        PrivateLifecycleAction.mutationTargets, List.append_nil, List.mem_cons, List.not_mem_nil,
        or_false, not_or] at h
      exact agreeOn_succeedBy h.1 h.2
  | supersede =>
      simp only [PreparedAction.touched, PreparedAction.created,
        PrivateLifecycleAction.mutationTargets, List.append_nil, List.mem_cons, List.not_mem_nil,
        or_false, not_or] at h
      exact agreeOn_succeedBy h.1 h.2
  | consolidate => exact agreeOn_supersedeMembers (fun hmem => h (List.mem_append_left _ hmem))
  | resolveContradiction =>
      exact agreeOn_supersedeMembers (fun hmem => h (List.mem_append_left _ hmem))
  | correct recordId _ replacement _ _ =>
      cases replacementId with
      | none => exact AgreeOn.refl v id
      | some rid =>
          have hid : id ≠ recordId := fun heq => h (by
            simp [PreparedAction.touched, PrivateLifecycleAction.mutationTargets, heq])
          have hrid : id ≠ rid := fun heq => h (by
            simp [PreparedAction.touched, PreparedAction.created, heq])
          have hcreate : AgreeOn v (v.createCorrection recordId rid replacement app) id :=
            ⟨Function.update_of_ne hrid _ _, Function.update_of_ne hrid _ _,
              Function.update_of_ne hrid _ _, Function.update_of_ne hrid _ _⟩
          exact hcreate.trans (agreeOn_supersedeInto hid)
  | extendAutomaticRecall => exact agreeOn_changeFacts (fun heq => h (by
      simp [PreparedAction.touched, PrivateLifecycleAction.mutationTargets, heq]))
  | extendValidity => exact agreeOn_changeFacts (fun heq => h (by
      simp [PreparedAction.touched, PrivateLifecycleAction.mutationTargets, heq]))
  | retainUntil => exact agreeOn_changeFacts (fun heq => h (by
      simp [PreparedAction.touched, PrivateLifecycleAction.mutationTargets, heq]))
  | pin => exact agreeOn_changeFacts (fun heq => h (by
      simp [PreparedAction.touched, PrivateLifecycleAction.mutationTargets, heq]))
  | unpin => exact agreeOn_changeFacts (fun heq => h (by
      simp [PreparedAction.touched, PrivateLifecycleAction.mutationTargets, heq]))
  | quarantine => exact agreeOn_changeFacts (fun heq => h (by
      simp [PreparedAction.touched, PrivateLifecycleAction.mutationTargets, heq]))
  | releaseQuarantine => exact agreeOn_changeFacts (fun heq => h (by
      simp [PreparedAction.touched, PrivateLifecycleAction.mutationTargets, heq]))

/-! ### What an action is admitted on -/

/-- A stored private record. -/
structure IsPrivate (v : View) (id : String) (r : MemoryRecord) : Prop where
  stored : v.records id = some r
  key : r.id = id
  isPrivate : r.destination.isPrivate = true

/-- A record that can take the place of another: active, and bound to no history. -/
structure FreeSuccessor (r : MemoryRecord) : Prop where
  active : r.status = .active
  supersedes : r.supersedesId = none
  lineage : r.lineage = none

/-- What the successions of a group are admitted on. -/
def Succeedable (v : View) (predecessorId successorId : String) : Prop :=
  predecessorId ≠ successorId ∧ (∃ r, IsPrivate v predecessorId r ∧ activeOrExpired r) ∧
    ∃ r, IsPrivate v successorId r ∧ FreeSuccessor r

/-- A record that a correction can be made of; its copy takes over the visibility. -/
def Correctable (v : View) (id : String) : Prop :=
  ∃ r, IsPrivate v id r ∧ activeOrExpired r ∧ r.visibility = .private

/-- The members of a set that one of them is kept of. -/
def Mergeable (v : View) (ids : List String) (kept : String) : Prop :=
  kept ∈ ids ∧ ids.Nodup ∧ ∀ id ∈ ids, ∃ r, IsPrivate v id r ∧ r.status = .active

/-- What an action is admitted on, of the records it changes. -/
def Admits (v : View) : PrivateLifecycleAction → Prop
  | .renewFromEvidence predecessorId _ evidenceRecordId _ =>
    Succeedable v predecessorId evidenceRecordId
  | .supersede recordId _ successorRecordId _ _ => Succeedable v recordId successorRecordId
  | .correct recordId _ _ _ _ => Correctable v recordId
  | .consolidate recordIds _ keeperRecordId => Mergeable v recordIds keeperRecordId
  | .resolveContradiction recordIds _ winnerRecordId => Mergeable v recordIds winnerRecordId
  | .extendAutomaticRecall recordId _ _ => ∃ r, IsPrivate v recordId r
  | .extendValidity recordId _ _ => ∃ r, IsPrivate v recordId r
  | .retainUntil recordId _ _ => ∃ r, IsPrivate v recordId r
  | .pin recordId _ => ∃ r, IsPrivate v recordId r
  | .unpin recordId _ => ∃ r, IsPrivate v recordId r
  | .quarantine recordId _ _ => ∃ r, IsPrivate v recordId r
  | .releaseQuarantine recordId _ => ∃ r, IsPrivate v recordId r

/-- The records an admitted action changes are stored and private. -/
theorem Admits.isPrivate {v : View} {a : PrivateLifecycleAction} (h : Admits v a) :
    ∀ id ∈ a.mutationTargets, ∃ r, IsPrivate v id r := by
  intro id hid
  cases a with
  | renewFromEvidence =>
      obtain ⟨-, ⟨p, hp, -⟩, s, hs, -⟩ := h
      rcases List.mem_cons.1 hid with rfl | hid
      · exact ⟨p, hp⟩
      · rw [List.mem_singleton.1 hid]
        exact ⟨s, hs⟩
  | supersede =>
      obtain ⟨-, ⟨p, hp, -⟩, s, hs, -⟩ := h
      rcases List.mem_cons.1 hid with rfl | hid
      · exact ⟨p, hp⟩
      · rw [List.mem_singleton.1 hid]
        exact ⟨s, hs⟩
  | correct =>
      obtain ⟨r, hr, -⟩ := h
      rw [List.mem_singleton.1 hid]
      exact ⟨r, hr⟩
  | consolidate =>
      obtain ⟨r, hr, -⟩ := h.2.2 id hid
      exact ⟨r, hr⟩
  | resolveContradiction =>
      obtain ⟨r, hr, -⟩ := h.2.2 id hid
      exact ⟨r, hr⟩
  | extendAutomaticRecall => rw [List.mem_singleton.1 hid]; exact h
  | extendValidity => rw [List.mem_singleton.1 hid]; exact h
  | retainUntil => rw [List.mem_singleton.1 hid]; exact h
  | pin => rw [List.mem_singleton.1 hid]; exact h
  | unpin => rw [List.mem_singleton.1 hid]; exact h
  | quarantine => rw [List.mem_singleton.1 hid]; exact h
  | releaseQuarantine => rw [List.mem_singleton.1 hid]; exact h

theorem IsPrivate.local_ {v v' : View} {id : String} {r : MemoryRecord} (h : IsPrivate v id r)
    (hagree : AgreeOn v v' id) : IsPrivate v' id r :=
  ⟨hagree.records.trans h.stored, h.key, h.isPrivate⟩

theorem Succeedable.local_ {v v' : View} {a b : String} (h : Succeedable v a b)
    (ha : AgreeOn v v' a) (hb : AgreeOn v v' b) : Succeedable v' a b := by
  obtain ⟨hne, ⟨p, hp, hstatus⟩, s, hs, hfree⟩ := h
  exact ⟨hne, ⟨p, hp.local_ ha, hstatus⟩, s, hs.local_ hb, hfree⟩

theorem Mergeable.local_ {v v' : View} {ids : List String} {kept : String} (h : Mergeable v ids kept)
    (hagree : ∀ id ∈ ids, AgreeOn v v' id) : Mergeable v' ids kept := by
  refine ⟨h.1, h.2.1, fun id hid => ?_⟩
  obtain ⟨r, hr, hstatus⟩ := h.2.2 id hid
  exact ⟨r, hr.local_ (hagree id hid), hstatus⟩

/-- Admission concerns the records an action changes and no other. -/
theorem Admits.local_ {v v' : View} {a : PrivateLifecycleAction} (h : Admits v a)
    (hagree : ∀ id ∈ a.mutationTargets, AgreeOn v v' id) : Admits v' a := by
  have hone : ∀ {id : String}, AgreeOn v v' id → (∃ r, IsPrivate v id r) → ∃ r, IsPrivate v' id r := by
    rintro id hid ⟨r, hr⟩
    exact ⟨r, hr.local_ hid⟩
  cases a with
  | renewFromEvidence =>
      exact Succeedable.local_ h (hagree _ List.mem_cons_self)
        (hagree _ (List.mem_cons_of_mem _ List.mem_cons_self))
  | supersede =>
      exact Succeedable.local_ h (hagree _ List.mem_cons_self)
        (hagree _ (List.mem_cons_of_mem _ List.mem_cons_self))
  | correct =>
      obtain ⟨r, hr, hrest⟩ := h
      exact ⟨r, hr.local_ (hagree _ List.mem_cons_self), hrest⟩
  | consolidate => exact Mergeable.local_ h hagree
  | resolveContradiction => exact Mergeable.local_ h hagree
  | extendAutomaticRecall => exact hone (hagree _ List.mem_cons_self) h
  | extendValidity => exact hone (hagree _ List.mem_cons_self) h
  | retainUntil => exact hone (hagree _ List.mem_cons_self) h
  | pin => exact hone (hagree _ List.mem_cons_self) h
  | unpin => exact hone (hagree _ List.mem_cons_self) h
  | quarantine => exact hone (hagree _ List.mem_cons_self) h
  | releaseQuarantine => exact hone (hagree _ List.mem_cons_self) h

/-! ### Admission by the semantic checks -/

theorem requirePrivateRecord_ok {db : Db} {id : String} {r : MemoryRecord} :
    requirePrivateRecord db id = .ok r ↔
      db.records.get? id = some r ∧ r.destination.isPrivate = true ∧ r.visibility = .private := by
  simp only [requirePrivateRecord, ensurePrivateShape, bind_eq_ok, require_eq_ok, ensure_eq_ok,
    exists_const, Except.ok.injEq]
  constructor
  · rintro ⟨_, hr, hshape, rfl⟩
    exact ⟨hr, hshape⟩
  · rintro ⟨hr, hshape⟩
    exact ⟨r, hr, hshape, rfl⟩

theorem isPrivate_of_require {db : Db} {id : String} {r : MemoryRecord}
    (h : requirePrivateRecord db id = .ok r) : IsPrivate (view db) id r :=
  have hrecord := requirePrivateRecord_ok.1 h
  ⟨hrecord.1, Table.key_of_get? hrecord.1, hrecord.2.1⟩

theorem mem_recordsForPreservation {db : Db} {r : MemoryRecord} :
    r ∈ recordsForPreservation db ↔ db.records.get? r.id = some r ∧ r.destination.isPrivate = true := by
  simp only [recordsForPreservation, List.mem_insertionSort, List.mem_filter]
  exact ⟨fun h => ⟨Table.get?_of_mem h.1, h.2⟩, fun h => ⟨Table.mem_of_get? h.1, h.2⟩⟩

/-- A record that a check of active records kept is stored, private and active. -/
theorem active_of_keepAll {db : Db} {now : OffsetDateTime} {skip : MemoryRecord → Prop}
    [DecidablePred skip] {kept : List MemoryRecord}
    (h : keepAll (fun record =>
      if record.status ≠ .active ∨ skip record then .ok false else isCurrent db record now)
      (recordsForPreservation db) = .ok kept) :
    ∀ r ∈ kept, IsPrivate (view db) r.id r ∧ r.status = .active := by
  intro r hr
  obtain ⟨hmem, hkeep⟩ := (mem_of_keepAll h r).1 hr
  split at hkeep
  · cases hkeep
  · rename_i hnot
    obtain ⟨hstored, hprivate⟩ := mem_recordsForPreservation.1 hmem
    exact ⟨⟨hstored, rfl, hprivate⟩, not_not.1 (not_or.1 hnot).1⟩

theorem freeSuccessor_of {r : MemoryRecord} (hactive : r.status = .active)
    (hfree : r.supersedesId.isNone = true ∧ r.lineage.isNone = true) : FreeSuccessor r :=
  ⟨hactive, Option.isNone_iff_eq_none.1 hfree.1, Option.isNone_iff_eq_none.1 hfree.2⟩

section Text

variable [Text.Unicode]

theorem mergeable_of_consolidation {db : Db} {ids : List String} {kept : String}
    {now : OffsetDateTime} (hnodup : ids.Nodup)
    (h : validateConsolidation db ids kept now = .ok ()) : Mergeable (view db) ids kept := by
  simp only [validateConsolidation, bind_eq_ok, ensure_eq_ok, exists_const] at h
  obtain ⟨hmem, _, -, first, -, duplicates, hkeep, hsame⟩ := h
  refine ⟨hmem, hnodup, fun id hid => ?_⟩
  rw [← SortedMap.mem_sortedKeys, hsame, SortedMap.mem_sortedKeys] at hid
  obtain ⟨r, hr, rfl⟩ := List.mem_map.1 hid
  exact ⟨r, active_of_keepAll hkeep r hr⟩

theorem mergeable_of_resolution {db : Db} {ids : List String} {kept : String}
    {now : OffsetDateTime} (hnodup : ids.Nodup)
    (h : validateContradictionResolution db ids kept now = .ok ()) :
    Mergeable (view db) ids kept := by
  simp only [validateContradictionResolution, contradictionCandidates, bind_eq_ok, ensure_eq_ok,
    exists_const, Except.ok.injEq] at h
  obtain ⟨hmem, _, ⟨records, hkeep, rfl⟩, adjacency, -, anchorId, -, anchor, -, -, hsame⟩ := h
  refine ⟨hmem, hnodup, fun id hid => ?_⟩
  rw [← SortedMap.mem_sortedKeys, hsame, SortedMap.mem_sortedKeys] at hid
  obtain ⟨i, -, hi⟩ := List.mem_filterMap.1 hid
  simp only [List.getElem?_map, Option.map_map, Option.map_eq_some_iff] at hi
  obtain ⟨r, hr, rfl⟩ := hi
  exact ⟨r, active_of_keepAll hkeep r (List.mem_of_getElem? hr)⟩

/-- The semantic check admits the action. -/
theorem admits_of_semantics {db : Db} {a : PrivateLifecycleAction} {now : OffsetDateTime}
    (hvalid : validateAction a = .ok ()) (h : validateActionSemantics db a now = .ok ()) :
    Admits (view db) a := by
  simp only [validateAction, check_bind_eq_ok, ensure_eq_ok] at hvalid
  obtain ⟨-, hlength, hfields⟩ := hvalid
  have hnodup : a.mutationTargets.Nodup := SortedMap.length_sortedKeys_iff.1 hlength
  have hstored : ∀ {id : String} {x : Fallible Unit} {f : MemoryRecord → Fallible Unit},
      (do let r ← requirePrivateRecord db id; f r) = .ok () → ∃ r, IsPrivate (view db) id r := by
    intro id x f hrun
    obtain ⟨r, hr, -⟩ := bind_eq_ok.1 hrun
    exact ⟨r, isPrivate_of_require hr⟩
  cases a with
  | renewFromEvidence predecessorId _ evidenceRecordId _ =>
      simp only [validateActionFields, ensure_eq_ok] at hfields
      simp only [validateActionSemantics, validateRenewal, bind_eq_ok, ensure_eq_ok,
        exists_const] at h
      obtain ⟨p, hp, e, he, -, hstatus, hactive, hfree, -⟩ := h
      exact ⟨hfields, ⟨p, isPrivate_of_require hp, hstatus⟩, e, isPrivate_of_require he,
        freeSuccessor_of hactive hfree⟩
  | supersede recordId _ successorRecordId _ _ =>
      simp only [validateActionFields, check_bind_eq_ok, ensure_eq_ok] at hfields
      simp only [validateActionSemantics, validateSupersede, bind_eq_ok, ensure_eq_ok,
        exists_const] at h
      obtain ⟨p, hp, s, hs, hstatus, hactive, _, -, hfree⟩ := h
      exact ⟨hfields.1, ⟨p, isPrivate_of_require hp, hstatus⟩, s, isPrivate_of_require hs,
        freeSuccessor_of hactive hfree⟩
  | correct =>
      simp only [validateActionSemantics, validateCorrect, bind_eq_ok, ensure_eq_ok,
        exists_const] at h
      obtain ⟨r, hr, hstatus, -⟩ := h
      exact ⟨r, isPrivate_of_require hr, hstatus, (requirePrivateRecord_ok.1 hr).2.2⟩
  | consolidate => exact mergeable_of_consolidation hnodup h
  | resolveContradiction => exact mergeable_of_resolution hnodup h
  | extendAutomaticRecall => exact hstored (x := .ok ()) h
  | extendValidity => exact hstored (x := .ok ()) h
  | retainUntil => exact hstored (x := .ok ()) h
  | pin => exact hstored (x := .ok ()) h
  | unpin => exact hstored (x := .ok ()) h
  | quarantine => exact hstored (x := .ok ()) h
  | releaseQuarantine => exact hstored (x := .ok ()) h

end Text

/-! ### The checked group -/

/-- The checks do not look at the numbers that have been drawn. -/
theorem validateActionSemantics_draws [Text.Unicode] (db : Db) (n : Nat)
    (a : PrivateLifecycleAction) (now : OffsetDateTime) :
    validateActionSemantics { db with draws := n } a now = validateActionSemantics db a now := by
  cases a <;> rfl

/-- The prepared actions of a checked group are those of the request, and each passed the semantic
check on the store before the group. -/
structure Prepared [Text.Unicode] (db : Db) (now : OffsetDateTime)
    (actions : List PrivateLifecycleAction) (prepared : List PreparedAction) : Prop where
  map_action : prepared.map (·.action) = actions
  semantics : ∀ a ∈ actions, validateActionSemantics db a now = .ok ()

/-- The actions of a checked group are admitted. -/
theorem Prepared.admits [Text.Unicode] {db : Db} {now : OffsetDateTime} {actions : List PrivateLifecycleAction}
    {prepared : List PreparedAction} (h : Prepared db now actions prepared)
    (hvalid : ∀ a ∈ actions, validateAction a = .ok ()) :
    ∀ p ∈ prepared, Admits (view db) p.action := by
  intro p hp
  have hmem : p.action ∈ actions := h.map_action ▸ List.mem_map_of_mem hp
  exact admits_of_semantics (hvalid _ hmem) (h.semantics _ hmem)

section Checked

variable [Entropy] [Text.Unicode]

theorem prepareAction_ok {db db' : Db} {a : PrivateLifecycleAction} {p : PreparedAction}
    {now : OffsetDateTime} (h : prepareAction now db a = .ok (db', p)) :
    (∃ n, db' = { db with draws := n }) ∧ p.action = a ∧
      validateActionSemantics db a now = .ok () := by
  obtain ⟨hsemantics, h⟩ := check_bind_eq_ok.1 h
  split at h
  · obtain ⟨⟨replacementId, n⟩, -, h⟩ := bind_eq_ok.1 h
    cases h
    exact ⟨⟨n, rfl⟩, rfl, hsemantics⟩
  · cases h
    exact ⟨⟨db.draws, rfl⟩, rfl, hsemantics⟩

theorem prepareActions_ok {db db' : Db} {actions : List PrivateLifecycleAction}
    {prepared : List PreparedAction} {now : OffsetDateTime}
    (h : prepareActions now db actions = .ok (db', prepared)) :
    (∃ n, db' = { db with draws := n }) ∧ Prepared db now actions prepared := by
  induction actions generalizing db prepared with
  | nil =>
      cases h
      exact ⟨⟨db'.draws, rfl⟩, rfl, fun a ha => absurd ha (List.not_mem_nil)⟩
  | cons a actions ih =>
      obtain ⟨⟨mid, p⟩, hp, h⟩ := bind_eq_ok.1 h
      obtain ⟨⟨last, rest⟩, hrest, h⟩ := bind_eq_ok.1 h
      cases h
      obtain ⟨⟨n, rfl⟩, rfl, hsemantics⟩ := prepareAction_ok hp
      obtain ⟨⟨m, rfl⟩, hprepared⟩ := ih hrest
      refine ⟨⟨m, rfl⟩, ?_, ?_⟩
      · rw [List.map_cons, hprepared.map_action]
      · intro b hb
        rcases List.mem_cons.1 hb with rfl | hb
        · exact hsemantics
        · rw [← validateActionSemantics_draws db n]
          exact hprepared.semantics b hb

theorem validateActionGroup_ok {db db' : Db} {request : PrivateLifecycleRequest}
    {prepared : List PreparedAction} {now : OffsetDateTime}
    (h : validateActionGroup db request now = .ok (db', prepared)) :
    (∃ n, db' = { db with draws := n }) ∧ Prepared db now request.actions prepared :=
  prepareActions_ok (check_bind_eq_ok.1 h).2

end Checked

/-! ### The executed group -/

section Executed

variable [Digests]

/-- The group takes the visible store `v` to `v'`, and a correction creates a record that was not
there. -/
def Runs (app : Application) : View → List PreparedAction → View → Prop
  | v, [], v' => v' = v
  | v, p :: prepared, v' =>
    (∀ id ∈ p.created, v.records id = none) ∧ Runs app (v.act app p) prepared v'

/-- An invariant of every admitted action is an invariant of the group: what an action is admitted
on concerns records it changes itself, and no two actions change one record. -/
theorem Runs.invariant {app : Application} {inv : View → Prop} (adm : View → PreparedAction → Prop)
    (hlocal : ∀ v v' p, adm v p → (∀ id ∈ p.action.mutationTargets, AgreeOn v v' id) → adm v' p)
    (hstored : ∀ v p, adm v p → ∀ id ∈ p.action.mutationTargets, v.records id ≠ none)
    (hstep : ∀ v p, inv v → adm v p → (∀ id ∈ p.created, v.records id = none) → inv (v.act app p))
    {prepared : List PreparedAction} {v v' : View} (h : Runs app v prepared v')
    (hdisjoint : (prepared.flatMap (·.action.mutationTargets)).Nodup)
    (hadm : ∀ p ∈ prepared, adm v p) (hinv : inv v) : inv v' := by
  induction prepared generalizing v with
  | nil => exact h ▸ hinv
  | cons p prepared ih =>
      obtain ⟨hfresh, hrest⟩ := h
      rw [List.flatMap_cons, List.nodup_append] at hdisjoint
      obtain ⟨-, hdisjoint, hapart⟩ := hdisjoint
      have hp : adm v p := hadm p List.mem_cons_self
      refine ih hrest hdisjoint (fun q hq => ?_) (hstep v p hinv hp hfresh)
      have hq' : adm v q := hadm q (List.mem_cons_of_mem _ hq)
      refine hlocal v _ q hq' fun id hid => agreeOn_act fun htouched => ?_
      rcases List.mem_append.1 htouched with hmine | hcreated
      · exact hapart id hmine id (List.mem_flatMap.2 ⟨q, hq, hid⟩) rfl
      · exact hstored v q hq' id hid (hfresh id hcreated)

variable [Entropy]

/-- The id of a correction's replacement is new. -/
theorem fresh_of_mutateAction {db db' : Db} {app : Application} {p : PreparedAction}
    (h : mutateAction app db p.action p.replacementId = .ok db') :
    ∀ id ∈ p.created, (view db).records id = none := by
  obtain ⟨action, replacementId⟩ := p
  intro id hid
  cases action with
  | correct =>
      obtain ⟨rid, hrid, h⟩ := bind_eq_ok.1 h
      obtain ⟨mid, hcreate, -⟩ := bind_eq_ok.1 h
      obtain rfl : replacementId = some rid := require_eq_ok.1 hrid
      obtain ⟨-, -, hfresh, -⟩ := view_of_createCorrectionRecord hcreate
      rw [List.mem_singleton.1 hid]
      exact hfresh
  | _ => cases hid

theorem runs_of_applyActionGroup {db db' : Db} {app : Application} {prepared : List PreparedAction}
    {done results : List PrivateLifecycleActionResult}
    (h : runAll (applyStep app) (db, done) prepared = .ok (db', results)) :
    Runs app (view db) prepared (view db') ∧ SameRest db db' := by
  induction prepared generalizing db done with
  | nil =>
      cases h
      exact ⟨rfl, SameRest.refl _⟩
  | cons p prepared ih =>
      obtain ⟨⟨mid, acc⟩, hmid, h⟩ := runAll_cons.1 h
      obtain ⟨⟨mid', result⟩, happly, hstep⟩ := bind_eq_ok.1 hmid
      cases hstep
      obtain ⟨mid', hmutate, happly⟩ := bind_eq_ok.1 happly
      obtain ⟨versions, -, happly⟩ := bind_eq_ok.1 happly
      cases happly
      obtain ⟨hview, hrest⟩ := view_of_mutateAction hmutate
      obtain ⟨hruns, hrests⟩ := ih h
      rw [hview] at hruns
      exact ⟨⟨fresh_of_mutateAction hmutate, hruns⟩, hrest.trans hrests⟩

/-- The results of a group name its actions and the replacements, in order. -/
theorem results_of_applyActionGroup {db db' : Db} {app : Application}
    {prepared : List PreparedAction} {done results : List PrivateLifecycleActionResult}
    (h : runAll (applyStep app) (db, done) prepared = .ok (db', results)) :
    results.map (fun r => (r.kind, r.replacementRecordId)) =
      done.map (fun r => (r.kind, r.replacementRecordId)) ++
        prepared.map fun p => (p.action.kind, p.replacementId) := by
  induction prepared generalizing db done with
  | nil =>
      cases h
      rw [List.map_nil, List.append_nil]
  | cons p prepared ih =>
      obtain ⟨⟨mid, acc⟩, hmid, h⟩ := runAll_cons.1 h
      obtain ⟨⟨mid', result⟩, happly, hstep⟩ := bind_eq_ok.1 hmid
      cases hstep
      obtain ⟨_, -, happly⟩ := bind_eq_ok.1 happly
      obtain ⟨versions, -, happly⟩ := bind_eq_ok.1 happly
      cases happly
      rw [ih h, List.map_append, List.append_assoc]
      rfl

variable [Text.Unicode]

/-- What an executed group did: its actions ran on the visible store, each admitted there, and its
event was appended. -/
structure Executed (db db' : Db) (request : PrivateLifecycleRequest) (grantId : String)
    (now : OffsetDateTime) (app : Application) (results : List PrivateLifecycleActionResult)
    (prepared : List PreparedAction) : Prop where
  checked : Prepared db now request.actions prepared
  runs : Runs app (view db) prepared (view db')
  reported : results.map (fun r => (r.kind, r.replacementRecordId)) =
    prepared.map fun p => (p.action.kind, p.replacementId)
  event : db.events.insert? (lifecycleEvent app grantId request.actions results) = some db'.events
  eventId : ∃ n, app.eventId = "evt_" ++ Entropy.uuid n

theorem group_of_executeGroup {db db' : Db} {request : PrivateLifecycleRequest}
    {grantId : String} {now : OffsetDateTime} {appliedAt : String} {app : Application}
    {results : List PrivateLifecycleActionResult}
    (h : executeGroup db request grantId now appliedAt = .ok (db', app, results)) :
    ∃ checked prepared, validateActionGroup db request now = .ok (checked, prepared) ∧
      Executed db db' request grantId now app results prepared := by
  obtain ⟨⟨checked, prepared⟩, hchecked, h⟩ := bind_eq_ok.1 h
  obtain ⟨⟨executed, results'⟩, hexecuted, h⟩ := bind_eq_ok.1 h
  obtain ⟨recorded, hrecorded, h⟩ := bind_eq_ok.1 h
  obtain ⟨-, h⟩ := check_bind_eq_ok.1 h
  cases h
  obtain ⟨⟨n, rfl⟩, hprepared⟩ := validateActionGroup_ok hchecked
  obtain ⟨hruns, hrest⟩ := runs_of_applyActionGroup hexecuted
  have hresults := results_of_applyActionGroup hexecuted
  obtain ⟨events, hevents, hrecorded⟩ := bind_eq_ok.1 hrecorded
  cases hrecorded
  refine ⟨_, prepared, hchecked, hprepared, hruns, hresults, ?_, ⟨n + 1, rfl⟩⟩
  have hsame : executed.events = db.events := hrest.events
  rw [← hsame]
  exact require_eq_ok.1 hevents

theorem executed_of_executeGroup {db db' : Db} {request : PrivateLifecycleRequest}
    {grantId : String} {now : OffsetDateTime} {appliedAt : String} {app : Application}
    {results : List PrivateLifecycleActionResult}
    (h : executeGroup db request grantId now appliedAt = .ok (db', app, results)) :
    ∃ prepared, Executed db db' request grantId now app results prepared := by
  obtain ⟨-, prepared, -, hexecuted⟩ := group_of_executeGroup h
  exact ⟨prepared, hexecuted⟩

omit [Entropy] in
/-- No two actions of a prepared valid request change one record. -/
theorem Prepared.disjoint {db : Db} {request : PrivateLifecycleRequest} {now : OffsetDateTime}
    {prepared : List PreparedAction} (h : Prepared db now request.actions prepared)
    (hvalid : request.validate = .ok ()) :
    (prepared.flatMap (·.action.mutationTargets)).Nodup := by
  have htargets := (validate_disjoint hvalid).targets
  rw [← h.map_action, List.flatMap_map] at htargets
  exact htargets

end Executed

end PrivateLifecycle
end Memzoi
