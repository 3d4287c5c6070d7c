/-
# Mirrors over whole runs

Source: `service/shared_runtime.rs` (`ensure_read_only_mirror_ready`,
`refresh_index_mirrors_locked_at`), with the writers of the two kinds of database.

One shared database and the indexes of any number of worktrees, written in any
order. A write changes one database in one transaction; a refresh changes an index
after reads of the shared database that lie at instants of their own, with writes
in between. What random draws are relied on for is one condition on writes: a
revision drawn is not already in some database.

Seen through revision and view, such a run is one of cells that are written or
copied, and its laws are those of `VersionedView`.
-/

import Memzoi.MirrorRevision
import Memzoi.Maintenance.ConflictRecall
import Memzoi.Lib.VersionedView

namespace Memzoi

open Fallible Preservation

namespace SharedRuntime

open RuntimeRecordSnapshot (tagRows)
open Maintenance (MaintenanceDigests ProjectionDigests)

/-! ### Writes -/

/-- A transaction that writes one database. -/
inductive Write where
  | statement (st : Statement)
  | proposal (c : RowChange MemoryProposal String)
  | revision
  | restore (snapshots : List RuntimeRecordSnapshot)
  | reconcile (runtimeFingerprint : String) (now : OffsetDateTime) (grant : PrivateMaintenanceGrant)

def Write.Announces : Write → Prop
  | statement st => st.Announces
  | proposal _ => True
  | revision => True
  | restore _ => True
  | reconcile _ _ _ => True

/-- The references are those of six tables. -/
theorem referencesHold_congr {db db' : Db} (hrecords : db'.records = db.records)
    (hcaptures : db'.captures = db.captures) (htags : db'.tags = db.tags)
    (hpaths : db'.paths = db.paths) (hrelations : db'.relations = db.relations)
    (hlifecycle : db'.lifecycle = db.lifecycle)
    (h : Db.ReferencesHold db.toContents db.lifecycle) :
    Db.ReferencesHold db'.toContents db'.lifecycle := by
  obtain ⟨ht, hp, hc, hl, hr, hs⟩ := h
  constructor <;> simp only [Contents.supersedesHolds, Contents.hasRecord, hrecords, hcaptures,
    htags, hpaths, hrelations, hlifecycle] <;> assumption

section Writes

variable [Entropy] [CaptureDocuments] [Text.Unicode] [MaintenanceDigests] [ProjectionDigests]

def Write.run (db : Db) : Write → Fallible Db
  | statement st => db.execute st
  | proposal c => db.changeProposal c
  | revision => .ok (ensureRuntimeMirrorRevision db)
  | restore snapshots => do
    let db ← restoreRuntimeRecordSnapshots false db snapshots
    ensure (Db.ReferencesHold db.toContents db.lifecycle) "FOREIGN KEY constraint failed"
    .ok db
  | reconcile runtimeFingerprint now grant =>
    Maintenance.reconcileTransaction runtimeFingerprint db now grant

variable {db db' : Db}

/-! ### Reconciling -/

omit [CaptureDocuments] [Text.Unicode] [MaintenanceDigests] in
/-- The turn for one action writes conflict rows only. -/
theorem insertConflict_ok {findings : List Maintenance.MaintenanceFinding}
    {projectionId fingerprint : String} {action : Maintenance.MaintenanceAction}
    (h : Maintenance.insertConflict findings projectionId fingerprint db action = .ok db') :
    outside db' = outside db ∧ db.draws ≤ db'.draws := by
  obtain ⟨finding, -, h⟩ := bind_eq_ok.1 h
  obtain ⟨db₁, hset, h⟩ := bind_eq_ok.1 h
  obtain ⟨db₂, hmembers, hedges⟩ := bind_eq_ok.1 h
  have hset' : outside db₁ = outside db ∧ db.draws ≤ db₁.draws := by
    refine ⟨(insertConflictSet_ok hset).2.1, ?_⟩
    obtain ⟨-, hset⟩ := check_bind_eq_ok.1 hset
    obtain ⟨sets, -, hset⟩ := bind_eq_ok.1 hset
    obtain rfl := Except.ok.inj hset
    exact Nat.le_succ _
  have hmembers' : outside db₂ = outside db₁ ∧ db₁.draws ≤ db₂.draws := by
    refine runAll_relation (fun a b => outside b = outside a ∧ a.draws ≤ b.draws)
      (fun _ => ⟨rfl, le_rfl⟩) (fun _ _ _ h h' => ⟨h'.1.trans h.1, h.2.trans h'.2⟩)
      (fun db id db' _ hm => ?_) hmembers
    obtain ⟨version, -, hm⟩ := bind_eq_ok.1 hm
    refine ⟨(insertConflictMember_ok hm).2.1, ?_⟩
    obtain ⟨-, hm⟩ := check_bind_eq_ok.1 hm
    obtain ⟨members, -, hm⟩ := bind_eq_ok.1 hm
    obtain ⟨-, hm⟩ := check_bind_eq_ok.1 hm
    obtain rfl := Except.ok.inj hm
    exact Nat.le_succ _
  have hedges' : outside db' = outside db₂ ∧ db₂.draws ≤ db'.draws := by
    refine runAll_relation (fun a b => outside b = outside a ∧ a.draws ≤ b.draws)
      (fun _ => ⟨rfl, le_rfl⟩) (fun _ _ _ h h' => ⟨h'.1.trans h.1, h.2.trans h'.2⟩)
      (fun db e db' _ he => ?_) hedges
    refine ⟨(insertConflictEdge_ok he).2.1, ?_⟩
    obtain ⟨-, he⟩ := check_bind_eq_ok.1 he
    obtain ⟨edges, -, he⟩ := bind_eq_ok.1 he
    obtain ⟨-, he⟩ := check_bind_eq_ok.1 he
    obtain rfl := Except.ok.inj he
    exact Nat.le_succ _
  exact ⟨hedges'.1.trans (hmembers'.1.trans hset'.1),
    hset'.2.trans (hmembers'.2.trans hedges'.2)⟩

omit [CaptureDocuments] in
/-- A reconcile draws the revision and writes maintenance rows and an event. -/
theorem reconcileTransaction_ok {fingerprint : String} {now : OffsetDateTime}
    {grant : PrivateMaintenanceGrant}
    (h : Maintenance.reconcileTransaction fingerprint db now grant = .ok db') :
    Redrawn db db' ∧ outside db' = { outside db with events := db'.events } := by
  obtain ⟨-, h⟩ := check_bind_eq_ok.1 h
  obtain ⟨nowText, -, h⟩ := bind_eq_ok.1 h
  obtain ⟨plan, -, h⟩ := bind_eq_ok.1 h
  obtain ⟨-, h⟩ := check_bind_eq_ok.1 h
  obtain ⟨-, h⟩ := check_bind_eq_ok.1 h
  obtain ⟨-, h⟩ := check_bind_eq_ok.1 h
  obtain ⟨inserted, hinserted, h⟩ := bind_eq_ok.1 h
  obtain ⟨events, -, rfl⟩ := Db.insertEvent_ok h
  obtain ⟨houtside, hdraws⟩ := runAll_relation
    (fun a b => outside b = outside a ∧ a.draws ≤ b.draws) (fun _ => ⟨rfl, le_rfl⟩)
    (fun _ _ _ h h' => ⟨h'.1.trans h.1, h.2.trans h'.2⟩)
    (fun _ _ _ _ hc => insertConflict_ok hc) hinserted
  have hle : db.draws ≤ inserted.draws := (Nat.le_succ db.draws).trans hdraws
  have houtside : outside inserted = outside db := houtside
  refine ⟨⟨hle.trans ((Nat.le_succ _).trans (Nat.le_succ _)), inserted.draws, hle,
    (Nat.lt_succ_self _).trans (Nat.lt_succ_self _), rfl⟩, ?_⟩
  rw [← houtside]
  rfl

/-! ### What a write keeps -/

theorem announced_write {w : Write} (hw : w.Announces) (h : w.run db = .ok db') : Announced db db' := by
  cases w with
  | statement st => exact announced_execute hw h
  | proposal c => exact announced_changeProposal h
  | revision =>
      obtain rfl := Except.ok.inj h
      exact announced_ensureRuntimeMirrorRevision db
  | restore snapshots =>
      obtain ⟨mid, hmid, h⟩ := bind_eq_ok.1 h
      obtain ⟨-, h⟩ := check_bind_eq_ok.1 h
      obtain rfl := Except.ok.inj h
      exact announced_restore hmid
  | reconcile fingerprint now grant => exact .redrawn (reconcileTransaction_ok h).1

theorem references_write {w : Write} (hreferences : Db.ReferencesHold db.toContents db.lifecycle)
    (h : w.run db = .ok db') : Db.ReferencesHold db'.toContents db'.lifecycle := by
  cases w with
  | statement st =>
      obtain ⟨mid, -, h⟩ := bind_eq_ok.1 h
      obtain ⟨hcommit, h⟩ := check_bind_eq_ok.1 h
      obtain rfl := Except.ok.inj h
      exact ensure_eq_ok.1 hcommit
  | proposal c =>
      obtain ⟨proposals, -, h⟩ := bind_eq_ok.1 h
      obtain rfl := Except.ok.inj h
      split <;> exact @referencesHold_congr db _ rfl rfl rfl rfl rfl rfl hreferences
  | revision =>
      obtain rfl := Except.ok.inj h
      unfold ensureRuntimeMirrorRevision
      split
      · exact hreferences
      · exact @referencesHold_congr db _ rfl rfl rfl rfl rfl rfl hreferences
  | restore snapshots =>
      obtain ⟨mid, -, h⟩ := bind_eq_ok.1 h
      obtain ⟨hcommit, h⟩ := check_bind_eq_ok.1 h
      obtain rfl := Except.ok.inj h
      exact ensure_eq_ok.1 hcommit
  | reconcile fingerprint now grant =>
      have houtside := (reconcileTransaction_ok h).2
      exact referencesHold_congr (congrArg Outside.records houtside)
        (congrArg Outside.captures houtside) (congrArg Outside.tags houtside)
        (congrArg Outside.paths houtside) (congrArg Outside.relations houtside)
        (congrArg Outside.lifecycle houtside) hreferences

/-! ### Tags -/

/-- Every tag meets the constraint of its column. -/
def TagsAdmitted (db : Db) : Prop := ∀ t ∈ db.tags.rows, t.admitted = true

omit [Entropy] [CaptureDocuments] [Text.Unicode] [MaintenanceDigests] [ProjectionDigests] in
theorem tagsAdmitted_congr (h : TagsAdmitted db) (htags : db'.tags = db.tags) :
    TagsAdmitted db' := fun t ht => h t (htags ▸ ht)

omit [Entropy] [CaptureDocuments] [Text.Unicode] [MaintenanceDigests] [ProjectionDigests] in
/-- A changed table has its old rows and the row of the change. -/
theorem mem_change? {ρ κ : Type} [DecidableEq κ] {key : ρ → κ} {t t' : Table key}
    {c : RowChange ρ κ} (h : c.change? t = some t') {r : ρ} (hr : r ∈ t'.rows) :
    r ∈ t.rows ∨ c.after t = some r := by
  cases c with
  | insert row =>
      rw [Table.insert?_rows h, List.mem_append, List.mem_singleton] at hr
      rcases hr with hr | rfl
      · exact Or.inl hr
      · exact Or.inr rfl
  | update k row =>
      cases hold : t.get? k with
      | none =>
          simp only [RowChange.change?, hold, Option.isSome_none, Bool.false_eq_true, if_false,
            Option.some.injEq] at h
          exact Or.inl (h ▸ hr)
      | some old =>
          simp only [RowChange.change?, hold, Option.isSome_some, if_true] at h
          have hget := Table.get?_replace? hold h (key r)
          rw [Table.get?_of_mem hr] at hget
          simp only [RowChange.after, hold, Option.map_some, Option.some.injEq]
          split at hget
          · exact Or.inr (Option.some.inj hget).symm
          · split at hget
            · cases hget
            · exact Or.inl (Table.mem_of_get? hget.symm)
  | delete k =>
      obtain rfl := Option.some.inj h
      exact Or.inl (Table.mem_deleteWhere.1 hr).1

omit [CaptureDocuments] [Text.Unicode] [MaintenanceDigests] [ProjectionDigests] in
theorem toContents_childChanged (db : Db) (before after : Option String) :
    (db.childChanged before after).toContents = db.toContents := by
  unfold Db.childChanged
  split <;> simp

omit [CaptureDocuments] [Text.Unicode] [MaintenanceDigests] [ProjectionDigests] in
theorem tagsAdmitted_changeRecord {c : RowChange MemoryRecord String} (hdb : TagsAdmitted db)
    (h : db.changeRecord c = .ok db') : TagsAdmitted db' := by
  cases c with
  | insert r =>
      obtain ⟨-, h⟩ := check_bind_eq_ok.1 h
      obtain ⟨records, -, h⟩ := bind_eq_ok.1 h
      unfold Db.recordInserted at h
      split at h
      · obtain ⟨mid, hmid, h⟩ := bind_eq_ok.1 h
        obtain rfl := Except.ok.inj h
        have hcontents := (Db.insertLifecycle_ok hmid).1
        refine tagsAdmitted_congr hdb ?_
        rw [Db.toContents_touch, hcontents]
      · obtain rfl := Except.ok.inj h
        exact hdb
  | update id new =>
      cases hold : db.records.get? id with
      | none =>
          rw [Db.changeRecord, hold] at h
          obtain rfl := Except.ok.inj h
          exact hdb
      | some old =>
          rw [Db.changeRecord, hold] at h
          obtain ⟨-, h⟩ := check_bind_eq_ok.1 h
          obtain ⟨records, -, h⟩ := bind_eq_ok.1 h
          unfold Db.recordUpdated at h
          split at h
          · obtain ⟨mid, hmid, h⟩ := bind_eq_ok.1 h
            obtain rfl := Except.ok.inj h
            have hcontents := (Db.upsertLifecycle_ok hmid).1
            refine tagsAdmitted_congr hdb ?_
            rw [Db.toContents_touch, hcontents]
          · split at h
            · obtain rfl := Except.ok.inj h
              refine tagsAdmitted_congr hdb ?_
              rw [Db.toContents_touch, toContents_deleteLifecycle]
            · obtain rfl := Except.ok.inj h
              exact hdb
  | delete id =>
      cases hold : db.records.get? id with
      | none =>
          rw [Db.changeRecord, hold] at h
          obtain rfl := Except.ok.inj h
          exact hdb
      | some old =>
          rw [Db.changeRecord, hold] at h
          obtain rfl := Except.ok.inj h
          intro t ht
          rw [(removed_deleteRecord db old).tags] at ht
          exact hdb t (List.mem_of_mem_filter ht)

omit [CaptureDocuments] [Text.Unicode] [MaintenanceDigests] [ProjectionDigests] in
theorem tagsAdmitted_changeRelation {c : RowChange PrivateLifecycleRelation String}
    (hdb : TagsAdmitted db) (h : db.changeRelation c = .ok db') : TagsAdmitted db' := by
  cases c with
  | insert r =>
      obtain ⟨-, h⟩ := check_bind_eq_ok.1 h
      obtain ⟨-, h⟩ := check_bind_eq_ok.1 h
      obtain ⟨-, h⟩ := check_bind_eq_ok.1 h
      obtain ⟨relations, -, h⟩ := bind_eq_ok.1 h
      obtain rfl := Except.ok.inj h
      exact hdb
  | update id r =>
      cases hold : db.relations.get? id with
      | none =>
          rw [Db.changeRelation, hold] at h
          obtain rfl := Except.ok.inj h
          exact hdb
      | some old =>
          rw [Db.changeRelation, hold] at h
          cases h
  | delete id =>
      cases hold : db.relations.get? id with
      | none =>
          rw [Db.changeRelation, hold] at h
          obtain rfl := Except.ok.inj h
          exact hdb
      | some old =>
          rw [Db.changeRelation, hold] at h
          obtain rfl := Except.ok.inj h
          refine tagsAdmitted_congr hdb ?_
          rw [Db.toContents_deleteRelation]

omit [CaptureDocuments] [Text.Unicode] [MaintenanceDigests] [ProjectionDigests] in
theorem tagsAdmitted_execute {st : Statement} (hst : st.Announces) (hdb : TagsAdmitted db)
    (h : db.execute st = .ok db') : TagsAdmitted db' := by
  obtain ⟨mid, hrows, h⟩ := bind_eq_ok.1 h
  obtain ⟨-, h⟩ := check_bind_eq_ok.1 h
  obtain rfl := Except.ok.inj h
  cases st with
  | records changes =>
      exact runAll_invariant TagsAdmitted
        (fun _ _ _ _ hdb hr => tagsAdmitted_changeRecord hdb hr) hdb hrows
  | tags changes =>
      refine runAll_invariant TagsAdmitted (fun db c db' _ hdb hr => ?_) hdb hrows
      obtain ⟨hadmitted, hr⟩ := check_bind_eq_ok.1 hr
      obtain ⟨tags, htags, hr⟩ := bind_eq_ok.1 hr
      obtain rfl := Except.ok.inj hr
      intro t ht
      rw [toContents_childChanged] at ht
      rcases mem_change? (require_eq_ok.1 htags) ht with ht | hafter
      · exact hdb t ht
      · have hall := ensure_eq_ok.1 hadmitted
        rw [hafter] at hall
        exact hall
  | paths changes =>
      refine runAll_invariant TagsAdmitted (fun db c db' _ hdb hr => ?_) hdb hrows
      obtain ⟨-, hr⟩ := check_bind_eq_ok.1 hr
      obtain ⟨paths, -, hr⟩ := bind_eq_ok.1 hr
      obtain rfl := Except.ok.inj hr
      refine tagsAdmitted_congr hdb ?_
      rw [toContents_childChanged]
  | captures changes =>
      refine runAll_invariant TagsAdmitted (fun db c db' _ hdb hr => ?_) hdb hrows
      obtain ⟨captures, -, hr⟩ := bind_eq_ok.1 hr
      obtain rfl := Except.ok.inj hr
      refine tagsAdmitted_congr hdb ?_
      rw [toContents_childChanged]
  | relations changes =>
      exact runAll_invariant TagsAdmitted
        (fun _ _ _ _ hdb hr => tagsAdmitted_changeRelation hdb hr) hdb hrows
  | lifecycle watched changes =>
      obtain ⟨rfl, hupdates⟩ := hst
      refine runAll_invariant TagsAdmitted (fun db c db' hc hdb hr => ?_) hdb hrows
      obtain ⟨id, s, rfl⟩ := hupdates c hc
      cases hold : db.lifecycle.get? id with
      | none =>
          rw [Db.changeLifecycle, hold] at hr
          obtain rfl := Except.ok.inj hr
          exact hdb
      | some old =>
          rw [Db.changeLifecycle, hold] at hr
          obtain ⟨-, hr⟩ := check_bind_eq_ok.1 hr
          obtain ⟨lifecycle, -, hr⟩ := bind_eq_ok.1 hr
          obtain rfl := Except.ok.inj hr
          exact hdb

omit [CaptureDocuments] [Text.Unicode] [MaintenanceDigests] [ProjectionDigests] in
theorem tagsAdmitted_insertTags (recordId : String) (tags : List String) (hdb : TagsAdmitted db) :
    TagsAdmitted (tags.foldl (insertTagIfAbsent recordId) db) := by
  induction tags generalizing db with
  | nil => exact hdb
  | cons tag tags ih =>
      refine ih ?_
      unfold insertTagIfAbsent
      cases hrow : (if MemoryTag.admitted ⟨recordId, tag⟩ then db.tags.insert? ⟨recordId, tag⟩
          else none) with
      | none => exact hdb
      | some rows =>
          intro t ht
          rw [toContents_keepingRevision, Db.toContents_childTouched] at ht
          split at hrow
          · rename_i hadmitted
            rw [Table.insert?_rows hrow, List.mem_append, List.mem_singleton] at ht
            rcases ht with ht | rfl
            · exact hdb t ht
            · exact hadmitted
          · cases hrow

omit [Text.Unicode] [MaintenanceDigests] [ProjectionDigests] in
theorem tags_insertMemoryRecordRow {deferred : Bool} {record : MemoryRecord}
    {capture : Option CaptureProvenance}
    (h : insertMemoryRecordRow deferred db record capture = .ok db') : db'.tags = db.tags := by
  rw [insertMemoryRecordRow, insertRecordIfAbsent] at h
  cases hrow : (if record.admitted then db.records.insert? record else none) with
  | none =>
      rw [hrow] at h
      obtain rfl := Except.ok.inj h
      rfl
  | some records =>
      rw [hrow] at h
      obtain ⟨-, h⟩ := check_bind_eq_ok.1 h
      have hinserted : (keepingRevision db (recordInsertedIfAbsent { db with records := records }
          record)).tags = db.tags := by
        rw [toContents_keepingRevision, toContents_recordInsertedIfAbsent]
      cases capture with
      | none =>
          obtain rfl := Except.ok.inj h
          split
          · rw [Db.toContents_childTouched]
            exact hinserted
          · exact hinserted
      | some provenance =>
          obtain ⟨-, h⟩ := check_bind_eq_ok.1 h
          obtain rfl := Except.ok.inj h
          rw [Db.toContents_childTouched]
          exact hinserted

omit [Text.Unicode] [MaintenanceDigests] [ProjectionDigests] in
theorem tagsAdmitted_restore {deferred : Bool} {snapshots : List RuntimeRecordSnapshot}
    (hdb : TagsAdmitted db) (h : restoreRuntimeRecordSnapshots deferred db snapshots = .ok db') :
    TagsAdmitted db' := by
  obtain ⟨parents, hparents, h⟩ := bind_eq_ok.1 h
  obtain ⟨related, hrelated, h⟩ := bind_eq_ok.1 h
  have hfirst : TagsAdmitted parents := by
    refine runAll_invariant TagsAdmitted (fun db s db' _ hdb hs => ?_) hdb hparents
    obtain ⟨mid, hrecord, hs⟩ := bind_eq_ok.1 hs
    obtain ⟨-, hs⟩ := check_bind_eq_ok.1 hs
    obtain ⟨table, -, hcontents⟩ := insertPaths_ok hs
    have htags := tagsAdmitted_insertTags s.record.id s.tags
      (tagsAdmitted_congr hdb (tags_insertMemoryRecordRow hrecord))
    exact tagsAdmitted_congr htags (by rw [hcontents])
  have hsecond : TagsAdmitted related := by
    refine runAll_invariant TagsAdmitted (fun db r db' _ hdb hr => ?_) hfirst hrelated
    obtain ⟨mid, hinsert, hr⟩ := bind_eq_ok.1 hr
    obtain ⟨-, hr⟩ := check_bind_eq_ok.1 hr
    obtain rfl := Except.ok.inj hr
    obtain ⟨-, hinsert⟩ := check_bind_eq_ok.1 hinsert
    split at hinsert
    · obtain rfl := Except.ok.inj hinsert
      exact hdb
    · obtain rfl := Except.ok.inj hinsert
      exact hdb
  refine runAll_invariant TagsAdmitted (fun db state db' _ hdb hstate => ?_) hsecond h
  exact tagsAdmitted_congr hdb (by rw [(restoreLifecycle_spec hstate).1])

theorem tagsAdmitted_write {w : Write} (hw : w.Announces) (hdb : TagsAdmitted db)
    (h : w.run db = .ok db') : TagsAdmitted db' := by
  cases w with
  | statement st => exact tagsAdmitted_execute hw hdb h
  | proposal c =>
      obtain ⟨proposals, -, h⟩ := bind_eq_ok.1 h
      obtain rfl := Except.ok.inj h
      split <;> exact hdb
  | revision =>
      obtain rfl := Except.ok.inj h
      unfold ensureRuntimeMirrorRevision
      split <;> exact hdb
  | restore snapshots =>
      obtain ⟨mid, hmid, h⟩ := bind_eq_ok.1 h
      obtain ⟨-, h⟩ := check_bind_eq_ok.1 h
      obtain rfl := Except.ok.inj h
      exact tagsAdmitted_restore hdb hmid
  | reconcile fingerprint now grant =>
      exact tagsAdmitted_congr hdb (congrArg Outside.tags (reconcileTransaction_ok h).2)

end Writes

/-! ### Runs of the whole system -/

section System

variable {W : Type} [CaptureDocuments] [Text.Unicode] [MaintenanceDigests] [ProjectionDigests]

/-- The reads of one refresh, each at an instant and none before the one ahead of it. -/
structure SharedReads.Ordered (reads : SharedReads ℕ) (now : ℕ) : Prop where
  revision : reads.check ≤ reads.revision
  generation : reads.revision ≤ reads.generation
  records : reads.generation ≤ reads.records
  events : reads.records ≤ reads.events
  maintenance : reads.events ≤ reads.maintenance
  proposals : reads.maintenance ≤ reads.proposals
  recheckRevision : reads.proposals ≤ reads.recheckRevision
  recheckGeneration : reads.recheckRevision ≤ reads.recheckGeneration
  past : reads.recheckGeneration ≤ now

/-- A refresh of the index of `w` at an instant: its reads lie before, and the other databases stay
as they are. -/
structure Refreshes (entropy : Option W → Entropy) (run : ℕ → Option W → Db) (n : ℕ) (w : W)
    (reads : SharedReads ℕ) : Prop where
  ordered : reads.Ordered n
  other : ∀ j, j ≠ some w → run (n + 1) j = run n j
  refreshed : @refreshIndexMirrors (entropy (some w)) _ (reads.map fun k => run k none)
    (run n (some w)) = .ok (run (n + 1) (some w))

/-- One step of the system: `none` is the shared database, `some w` the index of a worktree, and
each draws from its own source. The tokens a write draws are no revision so far. -/
inductive SystemStep (entropy : Option W → Entropy) (run : ℕ → Option W → Db) (n : ℕ) : Prop where
  | write (i : Option W) (w : Write) (announces : w.Announces)
      (other : ∀ j, j ≠ i → run (n + 1) j = run n j)
      (written : @Write.run (entropy i) _ _ _ _ (run n i) w = .ok (run (n + 1) i))
      (unseen : ∀ k, (run n i).draws ≤ k → k < (run (n + 1) i).draws →
        ∀ m ≤ n, ∀ j, (run m j).revision ≠ some ((entropy i).blob k))
  | refresh (w : W) (reads : SharedReads ℕ) (refreshes : Refreshes entropy run n w reads)

/-- A database as a cell. -/
def cells (run : ℕ → Option W → Db) : ℕ → Option W → VersionedView.Cell String MirrorView :=
  fun n i => ⟨(run n i).revision, mirrorView (run n i)⟩

/-- A run of the system from databases that meet their constraints and agree where they have one
revision. -/
structure History (entropy : Option W → Entropy) (run : ℕ → Option W → Db) (length : ℕ) : Prop where
  steps : ∀ n < length, SystemStep entropy run n
  tags : ∀ i, TagsAdmitted (run 0 i)
  references : ∀ i, Db.ReferencesHold (run 0 i).toContents (run 0 i).lifecycle
  agree : VersionedView.Agree (cells run) 0

namespace History

variable {entropy : Option W → Entropy} {run : ℕ → Option W → Db} {length : ℕ}

/-- The tags of the shared database, which is written and never refreshed. -/
theorem tags_shared (h : History entropy run length) {n : ℕ} (hn : n ≤ length) :
    TagsAdmitted (run n none) := by
  induction n with
  | zero => exact h.tags none
  | succ n ih =>
      rcases h.steps n (by omega) with ⟨i, w, announces, other, written, -⟩ | ⟨w, reads, refreshes⟩
      · by_cases hi : i = none
        · subst hi
          exact @tagsAdmitted_write (entropy none) _ _ _ _ _ _ w announces (ih (by omega)) written
        · rw [other none (Ne.symm hi)]
          exact ih (by omega)
      · rw [refreshes.other none (by simp)]
        exact ih (by omega)

/-- The references hold in every database at every instant. -/
theorem references_at (h : History entropy run length) {n : ℕ} (hn : n ≤ length) (i : Option W) :
    Db.ReferencesHold (run n i).toContents (run n i).lifecycle := by
  induction n generalizing i with
  | zero => exact h.references i
  | succ n ih =>
      rcases h.steps n (by omega) with ⟨j, w, -, other, written, -⟩ | ⟨w, reads, refreshes⟩
      · by_cases hi : i = j
        · subst hi
          exact @references_write (entropy i) _ _ _ _ _ _ w (ih (by omega) i) written
        · rw [other i hi]
          exact ih (by omega) i
      · by_cases hi : i = some w
        · subst hi
          have htags : TagsAdmitted (run reads.records none) := by
            obtain ⟨h1, h2, h3, h4, h5, h6, h7, h8, h9⟩ := refreshes.ordered
            exact h.tags_shared (by omega)
          rcases @refreshIndexMirrors_ok (entropy (some w)) _ _ (reads.map fun k => run k none) _
            htags (ih (by omega) (some w)) refreshes.refreshed with ⟨-, hsame⟩ | ⟨-, -, hreferences⟩
          · rw [hsame]
            exact ih (by omega) (some w)
          · exact hreferences
        · rw [refreshes.other i hi]
          exact ih (by omega) i

/-- What a refresh reads of the shared database it had all at once. -/
theorem refreshed_cell (h : History entropy run length) {n : ℕ} (hn : n < length) {w : W}
    {reads : SharedReads ℕ} (hrun : VersionedView.Run none (cells run) n)
    (hrefresh : Refreshes entropy run n w reads) :
    runtimeMirrorRevisionsMatch (run reads.check none) (run n (some w)) = true ∧
        run (n + 1) (some w) = run n (some w) ∨
      ∀ k, reads.revision ≤ k → k ≤ reads.recheckRevision →
        cells run (n + 1) (some w) = cells run k none := by
  obtain ⟨h1, h2, h3, h4, h5, h6, h7, h8, h9⟩ := hrefresh.ordered
  have htags : TagsAdmitted (run reads.records none) := h.tags_shared (by omega)
  rcases @refreshIndexMirrors_ok (entropy (some w)) _ _ (reads.map fun k => run k none) _ htags
    (h.references_at (by omega) (some w)) hrefresh.refreshed with hsame | ⟨hmirrored, -, -⟩
  · exact Or.inl hsame
  · right
    obtain ⟨t, ht⟩ := Option.isSome_iff_exists.1 hmirrored.drawn
    have hread : (run reads.revision none).revision = some t := hmirrored.revision.symm.trans ht
    have hrecheck : (run reads.recheckRevision none).revision = some t :=
      hmirrored.rechecked.trans hread
    -- between the two looks at the revision the shared database shows one view
    have hversion : ∀ k, reads.revision ≤ k → k ≤ reads.recheckRevision →
        (run k none).revision = some t := fun k hk hk' =>
      hrun.version_between (by omega) hread hrecheck hk hk'
    have hview : ∀ k, reads.revision ≤ k → k ≤ reads.recheckRevision → ∀ l,
        reads.revision ≤ l → l ≤ reads.recheckRevision →
        mirrorView (run k none) = mirrorView (run l none) := fun k hk hk' l hl hl' =>
      hrun.view_eq h.agree (by omega) (by omega) (hversion k hk hk') (hversion l hl hl')
    intro k hk hk'
    have hrecords := hview reads.records (by omega) (by omega) k hk hk'
    have hproposals := hview reads.proposals (by omega) (by omega) k hk hk'
    have hmaintenance := hview reads.maintenance (by omega) (by omega) k hk hk'
    have hgeneration := hview reads.generation (by omega) (by omega) k hk hk'
    simp only [cells, VersionedView.Cell.mk.injEq]
    refine ⟨ht.trans (hversion k hk hk').symm, ?_⟩
    simp only [mirrorView, MirrorView.mk.injEq] at hrecords hproposals hmaintenance hgeneration ⊢
    exact ⟨hmirrored.records.trans hrecords.1, hmirrored.proposals.trans hproposals.2.1,
      hmirrored.maintenance.trans hmaintenance.2.2.1, hmirrored.generation.trans hgeneration.2.2.2⟩

/-- **The system refines a run of versioned cells**: a write keeps a cell or gives it a new version,
a refresh keeps it or copies. -/
theorem versioned (h : History entropy run length) {n : ℕ} (hn : n ≤ length) :
    VersionedView.Run none (cells run) n := by
  induction n with
  | zero => exact fun k hk => absurd hk (Nat.not_lt_zero k)
  | succ n ih =>
      have hrun := ih (by omega)
      have hcell : ∀ j, run (n + 1) j = run n j → cells run (n + 1) j = cells run n j := by
        intro j hj
        rw [cells, hj]
        rfl
      have hstep : VersionedView.Step none (cells run) n := by
        rcases h.steps n (by omega) with ⟨i, w, announces, other, written, unseen⟩ |
          ⟨w, reads, refreshes⟩
        · have hannounced : @Announced (entropy i) (run n i) (run (n + 1) i) :=
            @announced_write (entropy i) _ _ _ _ _ _ w announces written
          rcases hannounced with ⟨-, k, hk, hk', hrevision⟩ | ⟨-, hrevision, hview⟩
          · exact .write i ((entropy i).blob k) (fun j hj => hcell j (other j hj)) hrevision
              fun m hm j => unseen k hk hk' m hm j
          · refine .keep fun j => ?_
            by_cases hj : j = i
            · subst hj
              simp only [cells, hrevision, hview]
            · exact hcell j (other j hj)
        · obtain ⟨h1, h2, h3, h4, h5, h6, h7, h8, h9⟩ := refreshes.ordered
          rcases h.refreshed_cell (by omega) hrun refreshes with ⟨-, hsame⟩ | hcopied
          · refine .keep fun j => ?_
            by_cases hj : j = some w
            · subst hj
              exact hcell _ hsame
            · exact hcell j (refreshes.other j hj)
          · exact .copy (some w) reads.revision (by omega) (by simp)
              (fun j hj => hcell j (refreshes.other j hj)) (hcopied reads.revision le_rfl (by omega))
      intro k hk
      rcases Nat.lt_or_ge k n with hlt | hge
      · exact hrun k hlt
      · obtain rfl : k = n := by omega
        exact hstep

/-- The revisions match only where the views do. -/
theorem view_of_match (h : History entropy run length) {m n : ℕ} {i : Option W} (hm : m ≤ length)
    (hn : n ≤ length) (hmatch : runtimeMirrorRevisionsMatch (run m none) (run n i) = true) :
    mirrorView (run n i) = mirrorView (run m none) := by
  simp only [runtimeMirrorRevisionsMatch, Bool.and_eq_true, decide_eq_true_eq] at hmatch
  obtain ⟨⟨hdrawn, hrevision⟩, -⟩ := hmatch
  obtain ⟨t, ht⟩ := Option.isSome_iff_exists.1 hdrawn
  exact (h.versioned le_rfl).view_eq h.agree hn hm (hrevision.symm.trans ht) ht

/-- A refresh leaves what belongs to the repository. -/
theorem refreshed_repository (h : History entropy run length) {n : ℕ} (hn : n < length) {w : W}
    {reads : SharedReads ℕ} (hrefresh : Refreshes entropy run n w reads) :
    RepositoryKept (run n (some w)) (run (n + 1) (some w)) := by
  obtain ⟨h1, h2, h3, h4, h5, h6, h7, h8, h9⟩ := hrefresh.ordered
  have htags : TagsAdmitted (run reads.records none) := h.tags_shared (by omega)
  rcases @refreshIndexMirrors_ok (entropy (some w)) _ _ (reads.map fun k => run k none) _ htags
    (h.references_at (by omega) (some w)) hrefresh.refreshed with ⟨-, hsame⟩ | ⟨-, hkept, -⟩
  · rw [hsame]
    exact ⟨rfl, fun _ _ => ⟨rfl, rfl, rfl⟩⟩
  · exact hkept

end History

end System

/-! ### One record and one worktree -/

/-- The statement that stores a private record. -/
def storePrivate : Statement := .records [.insert (sampleRecord "a" .«local»)]

def emptyDatabase : Db := Db.initial "2026-07-14T09:00:00Z"

/-- The shared database with the record. -/
def sharedOnce : Db := ((@Db.execute Entropy.cycling emptyDatabase storePrivate).toOption).getD
  emptyDatabase

/-- The index after a refresh. -/
def refreshedOnce : Db :=
  ((@refreshIndexMirrors Entropy.cycling CaptureDocuments.unknown
    (SharedReads.map (fun _ => sharedOnce) ⟨1, 1, 1, 1, 1, 1, 1, 1, 1⟩) emptyDatabase).toOption).getD
    emptyDatabase

/-- The record is stored in the shared database, and then the index is refreshed. -/
def storeAndRefresh : ℕ → Option Unit → Db
  | 0, _ => emptyDatabase
  | 1, some _ => emptyDatabase
  | _, none => sharedOnce
  | _, some _ => refreshedOnce

theorem ok_getD {x : Fallible Db} (h : x.toOption.isSome = true) (d : Db) :
    x = .ok (x.toOption.getD d) := by
  cases x with
  | error e => cases h
  | ok db => rfl

theorem refreshes_once : @Refreshes Unit CaptureDocuments.unknown (fun _ => Entropy.cycling)
    storeAndRefresh 1 () ⟨1, 1, 1, 1, 1, 1, 1, 1, 1⟩ := by
  refine @Refreshes.mk _ CaptureDocuments.unknown _ _ _ _ _ ?_ ?_ ?_
  · constructor <;> exact le_rfl
  · rintro (_ | _) hj
    · rfl
    · exact absurd rfl hj
  · exact ok_getD (by decide +kernel) emptyDatabase

theorem storeAndRefresh_history :
    @History Unit CaptureDocuments.unknown Text.Unicode.ascii Maintenance.plainDigests
      Maintenance.plainProjections (fun _ => Entropy.cycling) storeAndRefresh 2 := by
  refine @History.mk _ CaptureDocuments.unknown Text.Unicode.ascii Maintenance.plainDigests
    Maintenance.plainProjections _ _ _ ?_ ?_ ?_ ?_
  · intro n hn
    interval_cases n
    · refine @SystemStep.write _ CaptureDocuments.unknown Text.Unicode.ascii Maintenance.plainDigests
        Maintenance.plainProjections _ _ _ none (.statement storePrivate) trivial ?_ ?_ ?_
      · rintro (_ | _) hj
        · exact absurd rfl hj
        · rfl
      · exact ok_getD (by decide +kernel) emptyDatabase
      · intro k _ _ m hm j
        obtain rfl : m = 0 := by omega
        show none ≠ some _
        simp
    · exact @SystemStep.refresh _ CaptureDocuments.unknown Text.Unicode.ascii
        Maintenance.plainDigests Maintenance.plainProjections _ _ _ () _ refreshes_once
  · exact fun i t ht => absurd ht (by simp [storeAndRefresh, emptyDatabase, Db.initial, Table.empty])
  · intro i
    constructor <;> simp [storeAndRefresh, emptyDatabase, Db.initial, Table.empty]
  · rintro c c' ⟨m, hm, j, rfl⟩ - t ht -
    obtain rfl : m = 0 := by omega
    cases ht

end SharedRuntime
end Memzoi
