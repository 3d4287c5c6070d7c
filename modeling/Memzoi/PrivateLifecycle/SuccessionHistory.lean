/-
# The succession history of a store

Source: `service/private_lifecycle.rs` (`validate_action_semantics`,
`apply_action_group`) and `private_lifecycle.rs` (`validate`).

Five actions record that one record came after another. Each of them supersedes
a record that was not superseded, and relates it to one that is not superseded
either, so an arrow always starts at a record that has none and leads to a
record that has none (`Linear.supersedeInto`). That keeps the relations free of
forks and of cycles, over any sequence of groups (`succession_linear`).
-/

import Memzoi.PrivateLifecycle.Admission
import Memzoi.Lib.Succession
import Mathlib

namespace Memzoi
namespace PrivateLifecycle

open Fallible Succession

/-! ### The invariant -/

/-- The arrows of a visible store: from a record to what came after it. -/
def View.succeeds (v : View) (a b : String) : Prop := ∃ e ∈ v.edges, e.subject = a ∧ e.related = b

/-- A stored record that is not superseded, and so stands at the end of its history. -/
def View.Open (v : View) (id : String) : Prop :=
  ∃ r, v.records id = some r ∧ r.status ≠ .superseded

/-- The history has no fork and no cycle, and only superseded records have a successor. -/
structure Linear (v : View) : Prop where
  superseded : ∀ e ∈ v.edges, ∃ r, v.records e.subject = some r ∧ r.status = .superseded
  subjects : (v.edges.map Edge.subject).Nodup
  ends : Ends v.succeeds

/-- Every link of a private record to a predecessor stands with a relation. -/
def Linked (v : View) : Prop :=
  ∀ id r p, v.records id = some r → r.destination.isPrivate = true → r.supersedesId = some p →
    v.succeeds p id

theorem Linear.not_subject {v : View} {id : String} (h : Linear v) (hopen : v.Open id) :
    ∀ e ∈ v.edges, e.subject ≠ id := by
  rintro e he rfl
  obtain ⟨r, hr, hstatus⟩ := h.superseded e he
  obtain ⟨r', hr', hopen⟩ := hopen
  obtain rfl : r = r' := Option.some.inj (hr.symm.trans hr')
  exact hopen hstatus

theorem succeeds_relate {v : View} {kind : PrivateLifecycleRelationKind} {s t : String}
    {app : Application} : (v.relate kind s t app).succeeds = addArrow v.succeeds s t := by
  funext a b
  refine propext ⟨?_, ?_⟩
  · rintro ⟨e, he, rfl, rfl⟩
    rcases Multiset.mem_add.1 he with he | he
    · exact Or.inl ⟨e, he, rfl, rfl⟩
    · rw [Multiset.mem_singleton.1 he]
      exact Or.inr ⟨rfl, rfl⟩
  · rintro (⟨e, he, rfl, rfl⟩ | ⟨rfl, rfl⟩)
    · exact ⟨e, Multiset.mem_add.2 (Or.inl he), rfl, rfl⟩
    · exact ⟨_, Multiset.mem_add.2 (Or.inr (Multiset.mem_singleton_self _)), rfl, rfl⟩

/-- A change of records that keeps superseded records superseded keeps the invariant. -/
theorem Linear.of_records {v v' : View} (h : Linear v) (hedges : v'.edges = v.edges)
    (hrecords : ∀ id r, v.records id = some r → r.status = .superseded →
      ∃ r', v'.records id = some r' ∧ r'.status = .superseded) : Linear v' := by
  refine ⟨?_, hedges ▸ h.subjects, h.ends.mono ?_⟩
  · intro e he
    rw [hedges] at he
    obtain ⟨r, hr, hstatus⟩ := h.superseded e he
    exact hrecords e.subject r hr hstatus
  · rintro a b ⟨e, he, hab⟩
    rw [hedges] at he
    exact ⟨e, he, hab⟩

/-- The step of every succession: an open record is superseded, and related to an open one. -/
theorem Linear.supersedeInto {v : View} {kind : PrivateLifecycleRelationKind} {s t : String}
    {app : Application} (h : Linear v) (hs : v.Open s) (ht : v.Open t) (hne : s ≠ t) :
    Linear (v.supersedeInto kind s t app) := by
  have hsubject := h.not_subject hs
  have htarget := h.not_subject ht
  obtain ⟨r, hr, -⟩ := hs
  have hchanged : ∀ id, id ≠ s → (v.supersedeInto kind s t app).records id = v.records id :=
    fun id hid => View.changeRecord_of_ne hid
  have hnow : (v.supersedeInto kind s t app).records s = some (View.supersede app r) :=
    View.changeRecord_self hr
  refine ⟨?_, ?_, ?_⟩
  · intro e he
    rcases Multiset.mem_add.1 he with he | he
    · rw [hchanged _ (hsubject e he)]
      exact h.superseded e he
    · rw [Multiset.mem_singleton.1 he]
      exact ⟨_, hnow, rfl⟩
  · show ((v.edges + {_}).map Edge.subject).Nodup
    rw [Multiset.map_add, Multiset.nodup_add]
    refine ⟨h.subjects, Multiset.nodup_singleton _, ?_⟩
    rw [Multiset.map_singleton, Multiset.disjoint_singleton]
    intro hmem
    obtain ⟨e, he, heq⟩ := Multiset.mem_map.1 hmem
    exact hsubject e he heq
  · have hsucceeds : (v.supersedeInto kind s t app).succeeds = addArrow v.succeeds s t :=
      succeeds_relate
    rw [hsucceeds]
    refine h.ends.addArrow ?_ hne
    rintro b ⟨e, he, hsub, -⟩
    exact htarget e he hsub

/-- A link changes no status. -/
theorem Linear.link {v : View} {id p : String} {kind : Option RecordLineageKind} {app : Application}
    (h : Linear v) : Linear (v.changeRecord id (View.link app p kind)) := by
  refine h.of_records rfl fun x r hr hstatus => ?_
  by_cases hx : x = id
  · subst hx
    refine ⟨View.link app p kind r, ?_, hstatus⟩
    show Function.update v.records x _ x = _
    rw [Function.update_self, hr]
    rfl
  · exact ⟨r, (Function.update_of_ne hx _ _).trans hr, hstatus⟩

theorem Linked.of {v v' : View} (h : Linked v) (hedges : v.edges ≤ v'.edges)
    (hrecords : ∀ id r p, v'.records id = some r → r.destination.isPrivate = true →
      r.supersedesId = some p →
      (∃ old, v.records id = some old ∧ old.destination.isPrivate = true ∧
        old.supersedesId = some p) ∨ v'.succeeds p id) : Linked v' := by
  intro id r p hr hprivate hp
  rcases hrecords id r p hr hprivate hp with ⟨old, hold, hprivate, hp⟩ | hnew
  · obtain ⟨e, he, hsub, hrel⟩ := h id old p hold hprivate hp
    exact ⟨e, Multiset.mem_of_le hedges he, hsub, hrel⟩
  · exact hnew

/-! ### Every action keeps it -/

/-- What holds of a store at any time. -/
structure History (v : View) : Prop where
  linear : Linear v
  linked : Linked v

theorem isOpen_of {v : View} {id : String} {r : MemoryRecord} (h : IsPrivate v id r)
    (hstatus : activeOrExpired r) : v.Open id := by
  refine ⟨r, h.stored, fun hsuperseded => ?_⟩
  rcases hstatus with hstatus | hstatus
  · exact absurd (hsuperseded.symm.trans hstatus) (by decide)
  · exact absurd (hsuperseded.symm.trans hstatus) (by decide)

theorem History.supersedeInto {v : View} {kind : PrivateLifecycleRelationKind} {s t : String}
    {app : Application} (h : History v) (hs : v.Open s) (ht : v.Open t) (hne : s ≠ t) :
    History (v.supersedeInto kind s t app) := by
  refine ⟨h.linear.supersedeInto hs ht hne, h.linked.of (Multiset.le_add_right _ _) ?_⟩
  intro id r p hr hprivate hp
  rcases View.changeRecord_cases hr with ⟨-, hsame⟩ | ⟨-, old, hold, rfl⟩
  · exact Or.inl ⟨r, hsame, hprivate, hp⟩
  · exact Or.inl ⟨old, hold, hprivate, hp⟩

theorem History.succeedBy {v : View} {kind : PrivateLifecycleRelationKind} {a b : String}
    {lineage : Option RecordLineageKind} {app : Application} (h : History v)
    (hadm : Succeedable v a b) : History (v.succeedBy kind a b lineage app) := by
  obtain ⟨hne, ⟨p, hp, hpstatus⟩, s, hs, hfree⟩ := hadm
  have hopenB : v.Open b := isOpen_of hs (Or.inl hfree.active)
  have hstep : History (v.supersedeInto kind a b app) :=
    h.supersedeInto (isOpen_of hp hpstatus) hopenB hne
  -- the link is written after the status and before the relation, which do not meet
  have hcommute : v.succeedBy kind a b lineage app =
      (v.supersedeInto kind a b app).changeRecord b (View.link app a lineage) := rfl
  rw [hcommute]
  refine ⟨hstep.linear.link, hstep.linked.of (le_refl _) ?_⟩
  intro id r q hr hprivate hq
  rcases View.changeRecord_cases hr with ⟨-, hsame⟩ | ⟨rfl, old, -, rfl⟩
  · exact Or.inl ⟨r, hsame, hprivate, hq⟩
  · right
    obtain rfl : a = q := Option.some.inj hq
    exact ⟨_, Multiset.mem_add.2 (Or.inr (Multiset.mem_singleton_self _)), rfl, rfl⟩

theorem Open.supersedeInto {v : View} {kind : PrivateLifecycleRelationKind} {s t id : String}
    {app : Application} (h : v.Open id) (hne : id ≠ s) : (v.supersedeInto kind s t app).Open id := by
  obtain ⟨r, hr, hstatus⟩ := h
  exact ⟨r, (View.changeRecord_of_ne hne).trans hr, hstatus⟩

/-- The members are superseded one after another; those still to come and the kept one stay open. -/
theorem History.supersedeMembers {kind : PrivateLifecycleRelationKind} {kept : String}
    {app : Application} {ids : List String} {v : View} (h : History v) (hnodup : ids.Nodup)
    (hids : ∀ id ∈ ids, v.Open id) (hkept : v.Open kept) :
    History (v.supersedeMembers kind kept ids app) := by
  unfold View.supersedeMembers
  induction ids generalizing v with
  | nil => exact h
  | cons id ids ih =>
      obtain ⟨hid, hnodup⟩ := List.nodup_cons.1 hnodup
      rw [List.foldl_cons]
      split
      · exact ih h hnodup (fun x hx => hids x (List.mem_cons_of_mem _ hx)) hkept
      · rename_i hne
        have hopen : v.Open id := hids id List.mem_cons_self
        refine ih (h.supersedeInto hopen hkept hne) hnodup (fun x hx => ?_)
          (Open.supersedeInto hkept (Ne.symm hne))
        have hx' : x ≠ id := fun heq => hid (heq ▸ hx)
        exact Open.supersedeInto (hids x (List.mem_cons_of_mem _ hx)) hx'

theorem History.mergeInto {v : View} {kind : PrivateLifecycleRelationKind} {kept : String}
    {app : Application} {ids : List String} (h : History v) (hadm : Mergeable v ids kept) :
    History (v.supersedeMembers kind kept ids app) := by
  obtain ⟨hkept, hnodup, hactive⟩ := hadm
  have hopen : ∀ id ∈ ids, v.Open id := by
    intro id hid
    obtain ⟨r, hr, hstatus⟩ := hactive id hid
    exact isOpen_of hr (Or.inl hstatus)
  exact h.supersedeMembers hnodup hopen (hopen kept hkept)

/-- A change of facts is no change of history. -/
theorem History.changeFacts {v : View} {id : String} {update : LifecycleFacts → LifecycleFacts}
    (h : History v) : History (v.changeFacts id update) :=
  ⟨h.linear.of_records rfl fun _ r hr hstatus => ⟨r, hr, hstatus⟩, h.linked⟩

theorem History.correct [Digests] {v : View} {recordId replacementId : String}
    {replacement : PrivateCorrectionReplacement} {app : Application} (h : History v)
    (hadm : Correctable v recordId) (hfresh : v.records replacementId = none) :
    History ((v.createCorrection recordId replacementId replacement app).supersedeInto .correctedBy
      recordId replacementId app) := by
  obtain ⟨r, hr, hstatus, -⟩ := hadm
  have hne : recordId ≠ replacementId := by
    rintro rfl
    rw [hr.stored] at hfresh
    cases hfresh
  have hold : ∀ id, id ≠ replacementId →
      (v.createCorrection recordId replacementId replacement app).records id = v.records id :=
    fun id hid => Function.update_of_ne hid _ _
  have hnew : (v.createCorrection recordId replacementId replacement app).records replacementId =
      some (correctionRecord r replacementId replacement app) := by
    show Function.update v.records replacementId _ replacementId = _
    rw [Function.update_self, hr.stored]
    rfl
  have hcreated : Linear (v.createCorrection recordId replacementId replacement app) := by
    refine h.linear.of_records rfl fun id x hx hsuperseded => ?_
    have hid : id ≠ replacementId := by
      rintro rfl
      rw [hfresh] at hx
      cases hx
    exact ⟨x, (hold id hid).trans hx, hsuperseded⟩
  have hopen : (v.createCorrection recordId replacementId replacement app).Open recordId := by
    obtain ⟨x, hx, hopen⟩ := isOpen_of hr hstatus
    exact ⟨x, (hold recordId hne).trans hx, hopen⟩
  have hopenNew : (v.createCorrection recordId replacementId replacement app).Open
      replacementId := ⟨_, hnew, fun hsuperseded => by cases hsuperseded⟩
  refine ⟨hcreated.supersedeInto hopen hopenNew hne,
    h.linked.of (Multiset.le_add_right _ _) ?_⟩
  intro id x p hx hprivate hp
  rcases View.changeRecord_cases hx with ⟨-, hsame⟩ | ⟨rfl, old, hold', rfl⟩
  · by_cases hid : id = replacementId
    · subst hid
      right
      obtain rfl : correctionRecord r id replacement app = x :=
        Option.some.inj (hnew.symm.trans hsame)
      have hp' : r.id = p := Option.some.inj hp
      rw [hr.key] at hp'
      exact ⟨_, Multiset.mem_add.2 (Or.inr (Multiset.mem_singleton_self _)), hp', rfl⟩
    · rw [hold id hid] at hsame
      exact Or.inl ⟨x, hsame, hprivate, hp⟩
  · rw [hold id hne] at hold'
    exact Or.inl ⟨old, hold', hprivate, hp⟩

/-- One admitted action keeps the history linear. -/
theorem History.act [Digests] {v : View} {p : PreparedAction} {app : Application} (h : History v)
    (hadm : Admits v p.action) (hfresh : ∀ id ∈ p.created, v.records id = none) :
    History (v.act app p) := by
  obtain ⟨action, replacementId⟩ := p
  cases action with
  | renewFromEvidence => exact h.succeedBy hadm
  | supersede => exact h.succeedBy hadm
  | consolidate => exact h.mergeInto hadm
  | resolveContradiction => exact h.mergeInto hadm
  | correct =>
      cases replacementId with
      | none => exact h
      | some rid => exact h.correct hadm (hfresh rid List.mem_cons_self)
  | extendAutomaticRecall => exact h.changeFacts
  | extendValidity => exact h.changeFacts
  | retainUntil => exact h.changeFacts
  | pin => exact h.changeFacts
  | unpin => exact h.changeFacts
  | quarantine => exact h.changeFacts
  | releaseQuarantine => exact h.changeFacts

/-! ### Over any sequence of groups -/

/-- A store before any succession: no relation, and no private record with a lineage. -/
structure WithoutLineage (db : Db) : Prop where
  relations : db.relations.rows = []
  records : ∀ r ∈ db.records.rows, r.destination.isPrivate = true →
    r.supersedesId = none ∧ r.lineage = none

theorem WithoutLineage.history {db : Db} (h : WithoutLineage db) : History (view db) := by
  have hedges : (view db).edges = 0 := by
    show ((db.relations.rows.map edgeOf : List Edge) : Multiset Edge) = 0
    rw [h.relations]
    rfl
  have hnone : ∀ e, e ∉ (view db).edges := by
    intro e
    rw [hedges]
    exact Multiset.notMem_zero e
  refine ⟨⟨fun e he => absurd he (hnone e), ?_, ends_of_none ?_⟩, ?_⟩
  · rw [hedges]
    exact Multiset.nodup_zero
  · rintro a b ⟨e, he, -⟩
    exact hnone e he
  · intro id r p hr hprivate hp
    obtain ⟨hsupersedes, -⟩ := h.records r (Table.mem_of_get? hr) hprivate
    rw [hsupersedes] at hp
    cases hp

/-- The relations of a store, as arrows. -/
def succeeds (db : Db) (a b : String) : Prop :=
  ∃ relation ∈ db.relations.rows, relation.subjectRecordId = a ∧ relation.relatedRecordId = b

theorem succeeds_view {db : Db} : (view db).succeeds = succeeds db := by
  funext a b
  refine propext ⟨?_, ?_⟩
  · rintro ⟨e, he, rfl, rfl⟩
    obtain ⟨relation, hrelation, rfl⟩ := List.mem_map.1 (Multiset.mem_coe.1 he)
    exact ⟨relation, hrelation, rfl, rfl⟩
  · rintro ⟨relation, hrelation, rfl, rfl⟩
    exact ⟨edgeOf relation, Multiset.mem_coe.2 (List.mem_map_of_mem hrelation), rfl, rfl⟩

/-- The rows of the relation table have pairwise different subjects. -/
theorem Linear.subject_unique {db : Db} (h : Linear (view db)) :
    ∀ a ∈ db.relations.rows, ∀ b ∈ db.relations.rows,
      a.subjectRecordId = b.subjectRecordId → a = b := by
  have hnodup : (db.relations.rows.map (·.subjectRecordId)).Nodup := by
    have hsubjects := h.subjects
    rw [view, Multiset.map_coe, Multiset.coe_nodup, List.map_map] at hsubjects
    exact hsubjects
  intro a ha b hb heq
  exact List.inj_on_of_nodup_map hnodup ha hb heq

variable [Entropy] [Digests] [Text.Unicode]

/-- The stores reached by applying groups of valid requests, one after another. -/
inductive Reached (start : Db) : Db → Prop
  | start : Reached start start
  | group {db db' : Db} {request : PrivateLifecycleRequest} {grantId appliedAt : String}
      {now : OffsetDateTime} {app : Application} {results : List PrivateLifecycleActionResult}
      (before : Reached start db) (valid : request.validate = .ok ())
      (applied : executeGroup db request grantId now appliedAt = .ok (db', app, results)) :
      Reached start db'

/-- One group keeps the history linear. -/
theorem History.executeGroup {db db' : Db} {request : PrivateLifecycleRequest}
    {grantId appliedAt : String} {now : OffsetDateTime} {app : Application}
    {results : List PrivateLifecycleActionResult} (h : History (view db))
    (hvalid : request.validate = .ok ())
    (happlied : executeGroup db request grantId now appliedAt = .ok (db', app, results)) :
    History (view db') := by
  obtain ⟨prepared, hexecuted⟩ := executed_of_executeGroup happlied
  refine hexecuted.runs.invariant (fun v p => Admits v p.action) ?_ ?_ ?_
    (hexecuted.checked.disjoint hvalid) (hexecuted.checked.admits (validate_action hvalid)) h
  · intro v w p hadm hagree
    exact hadm.local_ hagree
  · intro v p hadm id hid
    obtain ⟨r, hr⟩ := hadm.isPrivate id hid
    rw [hr.stored]
    exact Option.some_ne_none r
  · intro v p hinv hadm hfresh
    exact hinv.act hadm hfresh

theorem Reached.history {start db : Db} (h : Reached start db) (hstart : WithoutLineage start) :
    History (view db) := by
  induction h with
  | start => exact hstart.history
  | group _ hvalid happlied ih => exact ih.executeGroup hvalid happlied

/-- The succession history of every reached store is linear and ends. -/
theorem succession_linear {start db : Db} (hstart : WithoutLineage start)
    (h : Reached start db) :
    (∀ a ∈ db.relations.rows, ∀ b ∈ db.relations.rows,
      a.subjectRecordId = b.subjectRecordId → a = b) ∧
    (∀ a ∈ db.relations.rows, ∃ r, db.records.get? a.subjectRecordId = some r ∧
      r.status = .superseded) ∧
    (∀ r ∈ db.records.rows, ∀ s ∈ db.records.rows, r.destination.isPrivate = true →
      s.destination.isPrivate = true → ∀ p, r.supersedesId = some p → s.supersedesId = some p →
        r = s) ∧
    (∀ id, ¬ Relation.TransGen (succeeds db) id id) ∧
    WellFounded (fun b a => succeeds db a b) ∧
    ∀ id, ∃ last, Relation.ReflTransGen (succeeds db) id last ∧
      ∀ a ∈ db.relations.rows, a.subjectRecordId ≠ last := by
  have hhistory := h.history hstart
  have hunique := hhistory.linear.subject_unique
  have hends : Ends (succeeds db) := succeeds_view ▸ hhistory.linear.ends
  have hlinked : ∀ r ∈ db.records.rows, r.destination.isPrivate = true → ∀ p,
      r.supersedesId = some p → succeeds db p r.id := by
    intro r hr hprivate p hp
    rw [← succeeds_view]
    exact hhistory.linked r.id r p (Table.get?_of_mem hr) hprivate hp
  refine ⟨hunique, ?_, ?_, hends.not_transGen, hends, ?_⟩
  · intro a ha
    exact hhistory.linear.superseded (edgeOf a) (Multiset.mem_coe.2 (List.mem_map_of_mem ha))
  · intro r hr s hs hrprivate hsprivate p hrp hsp
    obtain ⟨a, ha, hasub, harel⟩ := hlinked r hr hrprivate p hrp
    obtain ⟨b, hb, hbsub, hbrel⟩ := hlinked s hs hsprivate p hsp
    obtain rfl : a = b := hunique a ha b hb (hasub.trans hbsub.symm)
    have hid : r.id = s.id := harel.symm.trans hbrel
    have hget := Table.get?_of_mem hr
    rw [hid, Table.get?_of_mem hs] at hget
    exact (Option.some.inj hget).symm
  · intro id
    obtain ⟨last, hpath, hlast⟩ := hends.exists_last id
    exact ⟨last, hpath, fun a ha heq => hlast a.relatedRecordId ⟨a, ha, heq, rfl⟩⟩

/-! ### One supersession -/

omit [Entropy] [Digests] [Text.Unicode]

/-- Two decisions, neither of them in a succession. -/
def twoDecisions : Db :=
  { Db.initial "2026-07-14T10:00:00Z" with
    records := ⟨[plainDecision "local_1", plainDecision "local_2"], by decide⟩
    lifecycle := ⟨[plainLifecycle "local_1", plainLifecycle "local_2"], by decide⟩ }

def supersedeRequest : PrivateLifecycleRequest where
  schema := requestSchema
  requestId := "lifecycle_request_op-1"
  operationId := "op-1"
  source := .direct
  actions := [.supersede "local_1" "00000000000000000000000000000000" "local_2"
    "00000000000000000000000000000000" "replaced"]

theorem succession_linear_twoDecisions :
    ∃ db', @Reached Entropy.cycling Digests.ofOperation Text.Unicode.ascii twoDecisions db' ∧
      db'.relations.rows ≠ [] ∧ ∀ id, ¬ Relation.TransGen (succeeds db') id id := by
  have hsome : ((@executeGroup Entropy.cycling Digests.ofOperation Text.Unicode.ascii twoDecisions
      supersedeRequest "grant_1" ⟨1784023200000000000, 0⟩ "2026-07-14T10:00:00Z").toOption.any
        fun r => r.1.relations.rows ≠ []) = true := by decide +kernel
  have hvalid : @PrivateLifecycleRequest.validate Digests.ofOperation supersedeRequest = .ok () := by
    decide +kernel
  cases hrun : @executeGroup Entropy.cycling Digests.ofOperation Text.Unicode.ascii twoDecisions
      supersedeRequest "grant_1" ⟨1784023200000000000, 0⟩ "2026-07-14T10:00:00Z" with
  | error e =>
      rw [hrun] at hsome
      cases hsome
  | ok result =>
      obtain ⟨db', app, results⟩ := result
      rw [hrun] at hsome
      have hrows : db'.relations.rows ≠ [] := of_decide_eq_true hsome
      let _ := Entropy.cycling
      let _ := Digests.ofOperation
      let _ := Text.Unicode.ascii
      have hreached : Reached twoDecisions db' := .group .start hvalid hrun
      obtain ⟨-, -, -, hacyclic, -⟩ := succession_linear ⟨rfl, by decide⟩ hreached
      exact ⟨db', hreached, hrows, hacyclic⟩

end PrivateLifecycle
end Memzoi
