/-
# What an action does to the visible store

Source: `service/private_lifecycle.rs` (`apply_action_group`).

The visible store is the database without the names the engine draws: version
tokens, the ids of relations and paths, the lifecycle generation and the mirror
bookkeeping. On it every action is a function (`View.act`), and `mutateAction`
refines that function (`view_of_mutateAction`).
-/

import Memzoi.PrivateLifecycle.Apply
import Mathlib

namespace Memzoi
namespace PrivateLifecycle

open Fallible

/-! ### The visible store -/

/-- A relation without its drawn id. -/
structure Edge where
  kind : PrivateLifecycleRelationKind
  subject : String
  related : String
  applicationId : String
  createdAt : String
  deriving DecidableEq

def edgeOf (r : PrivateLifecycleRelation) : Edge :=
  ⟨r.relationKind, r.subjectRecordId, r.relatedRecordId, r.applicationId, r.createdAt⟩

/-- A path without its drawn id and its record. -/
structure PathFacts where
  repoId : Option String
  path : String
  symbol : Option String
  lineStart : Option Int
  lineEnd : Option Int
  deriving DecidableEq

def pathFacts (p : MemoryPath) : PathFacts := ⟨p.repoId, p.path, p.symbol, p.lineStart, p.lineEnd⟩

structure View where
  records : String → Option MemoryRecord
  facts : String → Option LifecycleFacts
  edges : Multiset Edge
  tags : String → List String
  paths : String → List PathFacts

/-- The tags of a record, in row order. -/
def tagsOf (db : Db) (recordId : String) : List String :=
  (db.tags.rows.filter (·.recordId = recordId)).map (·.tag)

def pathsOf (db : Db) (recordId : String) : List PathFacts :=
  (db.paths.rows.filter (·.recordId = recordId)).map pathFacts

def view (db : Db) : View :=
  ⟨db.records.get?, db.facts?, (db.relations.rows.map edgeOf : List Edge), tagsOf db, pathsOf db⟩

/-! ### Actions on the visible store -/

namespace View

/-- New facts on a row that exists. -/
def changeFacts (v : View) (id : String) (update : LifecycleFacts → LifecycleFacts) : View :=
  { v with facts := Function.update v.facts id ((v.facts id).map update) }

/-- A change of a record row, which gives it lifecycle facts if it had none. -/
def changeRecord (v : View) (id : String) (update : MemoryRecord → MemoryRecord) : View :=
  { v with
    records := Function.update v.records id ((v.records id).map update)
    facts := Function.update v.facts id (some ((v.facts id).getD .initial)) }

/-- A record after a change is a record from before, or the changed one. -/
theorem changeRecord_cases {v : View} {id x : String} {update : MemoryRecord → MemoryRecord}
    {r : MemoryRecord} (h : (v.changeRecord id update).records x = some r) :
    (x ≠ id ∧ v.records x = some r) ∨ (x = id ∧ ∃ old, v.records x = some old ∧ r = update old) := by
  simp only [changeRecord, Function.update_apply] at h
  split at h
  · rename_i hx
    obtain ⟨old, hold, rfl⟩ := Option.map_eq_some_iff.1 h
    exact Or.inr ⟨hx, old, hx ▸ hold, rfl⟩
  · rename_i hx
    exact Or.inl ⟨hx, h⟩

theorem changeRecord_self {v : View} {id : String} {update : MemoryRecord → MemoryRecord}
    {r : MemoryRecord} (h : v.records id = some r) :
    (v.changeRecord id update).records id = some (update r) := by
  simp only [changeRecord, Function.update_self, h, Option.map_some]

theorem changeRecord_of_ne {v : View} {id x : String} {update : MemoryRecord → MemoryRecord}
    (h : x ≠ id) : (v.changeRecord id update).records x = v.records x :=
  Function.update_of_ne h _ _

def relate (v : View) (kind : PrivateLifecycleRelationKind) (subject related : String)
    (app : Application) : View :=
  { v with
    edges := v.edges + {(⟨kind, subject, related, app.applicationId, app.appliedAt⟩ : Edge)} }

def supersede (app : Application) (r : MemoryRecord) : MemoryRecord :=
  { r with status := .superseded, updatedAt := app.appliedAt }

def link (app : Application) (predecessorId : String) (kind : Option RecordLineageKind)
    (r : MemoryRecord) : MemoryRecord :=
  { r with
    supersedesId := some predecessorId
    lineage := successorLineage r predecessorId kind
    updatedAt := app.appliedAt }

def supersedeInto (v : View) (kind : PrivateLifecycleRelationKind) (subject related : String)
    (app : Application) : View :=
  (v.changeRecord subject (supersede app)).relate kind subject related app

def supersedeMembers (v : View) (kind : PrivateLifecycleRelationKind) (keptId : String)
    (recordIds : List String) (app : Application) : View :=
  recordIds.foldl
    (fun v recordId => if recordId = keptId then v else v.supersedeInto kind recordId keptId app) v

def succeedBy (v : View) (kind : PrivateLifecycleRelationKind) (predecessorId successorId : String)
    (lineageKind : Option RecordLineageKind) (app : Application) : View :=
  ((v.changeRecord predecessorId (supersede app)).changeRecord successorId
    (link app predecessorId lineageKind)).relate kind predecessorId successorId app

/-- A copy names no repository. -/
def copied (p : PathFacts) : PathFacts := { p with repoId := none }

/-- The paths of a record in the order a copy reads them. -/
def copiedPaths (paths : List PathFacts) : List PathFacts :=
  (paths.insertionSort
    (fun a b => a.path < b.path ∨ (a.path = b.path ∧ symbolLe a.symbol b.symbol = true))).map copied

def createCorrection [Digests] (v : View) (predecessorId replacementId : String)
    (replacement : PrivateCorrectionReplacement) (app : Application) : View where
  records := Function.update v.records replacementId
    ((v.records predecessorId).map (correctionRecord · replacementId replacement app))
  facts := Function.update v.facts replacementId
    ((v.facts predecessorId).map (inheritedFacts · app.eventId))
  edges := v.edges
  tags := Function.update v.tags replacementId (v.tags replacementId ++ v.tags predecessorId)
  paths := Function.update v.paths replacementId
    (v.paths replacementId ++ copiedPaths (v.paths predecessorId))

/-- What an action does. -/
def act [Digests] (app : Application) (v : View) (p : PreparedAction) : View :=
  match p.action with
  | .renewFromEvidence predecessorId _ evidenceRecordId _ =>
    v.succeedBy .renewedBy predecessorId evidenceRecordId (some .renewal) app
  | .correct recordId _ replacement _ _ =>
    match p.replacementId with
    | some replacementId =>
      (v.createCorrection recordId replacementId replacement app).supersedeInto .correctedBy
        recordId replacementId app
    | none => v
  | .supersede recordId _ successorRecordId _ _ =>
    v.succeedBy .supersededBy recordId successorRecordId none app
  | .consolidate recordIds _ keeperRecordId =>
    v.supersedeMembers .consolidatedInto keeperRecordId recordIds app
  | .resolveContradiction recordIds _ winnerRecordId =>
    v.supersedeMembers .contradictionResolvedBy winnerRecordId recordIds app
  | .extendAutomaticRecall recordId _ _ =>
    v.changeFacts recordId (changedFacts app.eventId p.action)
  | .extendValidity recordId _ _ => v.changeFacts recordId (changedFacts app.eventId p.action)
  | .retainUntil recordId _ _ => v.changeFacts recordId (changedFacts app.eventId p.action)
  | .pin recordId _ => v.changeFacts recordId (changedFacts app.eventId p.action)
  | .unpin recordId _ => v.changeFacts recordId (changedFacts app.eventId p.action)
  | .quarantine recordId _ _ => v.changeFacts recordId (changedFacts app.eventId p.action)
  | .releaseQuarantine recordId _ => v.changeFacts recordId (changedFacts app.eventId p.action)

end View

/-! ### The database refines the visible store -/

/-- Two databases with the same visible store and the same rows of the other tables. -/
structure SameRest (db db' : Db) : Prop where
  events : db'.events = db.events
  captures : db'.captures = db.captures
  origins : db'.origins = db.origins

theorem SameRest.refl (db : Db) : SameRest db db := ⟨rfl, rfl, rfl⟩

theorem SameRest.trans {db₁ db₂ db₃ : Db} (h : SameRest db₁ db₂) (h' : SameRest db₂ db₃) :
    SameRest db₁ db₃ :=
  ⟨h'.events.trans h.events, h'.captures.trans h.captures, h'.origins.trans h.origins⟩

/-- Equal contents and facts are equal views. -/
theorem view_eq {db' : Db} {c : Contents} {f : String → Option LifecycleFacts}
    (hcontents : db'.toContents = c) (hfacts : db'.facts? = f) :
    view db' = ⟨c.records.get?, f, (c.relations.rows.map edgeOf : List Edge),
      fun id => (c.tags.rows.filter (·.recordId = id)).map (·.tag),
      fun id => (c.paths.rows.filter (·.recordId = id)).map pathFacts⟩ := by
  subst hcontents hfacts
  rfl

variable [Entropy]

theorem view_of_updateRecord {db db' : Db} {old : MemoryRecord}
    (update : MemoryRecord → MemoryRecord) (h : db.updateRecord old (update old) = .ok db') (hold : db.records.get? old.id = some old)
    (hid : (update old).id = old.id) (hprivate : (update old).destination.isPrivate = true) :
    view db' = (view db).changeRecord old.id update ∧ SameRest db db' := by
  obtain ⟨hcontents, hfacts⟩ := Db.updateRecord_ok h hprivate
  rw [hid] at hfacts
  have hfacts' := Table.eq_update (v := fun k => some (db.factsOrInitial k)) hfacts
  have hrecords : (db.records.set (update old)).get? =
      Function.update db.records.get? old.id (some (update old)) := by
    have hset := Table.get?_set_eq_update (t := db.records) (r := update old) (x := old)
      (by rw [hid]; exact hold)
    rwa [hid] at hset
  refine ⟨?_, by rw [hcontents], by rw [hcontents], by rw [hcontents]⟩
  rw [view_eq hcontents hfacts']
  simp only [View.changeRecord, view, hrecords, hold, Option.map_some, Db.factsOrInitial]
  rfl

theorem view_of_updateState {db db' : Db} {recordId updatedAt : String}
    {update : LifecycleFacts → LifecycleFacts}
    (h : updateState db recordId updatedAt update = .ok db') :
    view db' = (view db).changeFacts recordId update ∧ SameRest db db' ∧
      (db.facts? recordId).isSome = true := by
  simp only [updateState, Db.requireState, Db.updateStateFacts, bind_eq_ok, require_eq_ok] at h
  obtain ⟨s, hs, _, -, h⟩ := h
  obtain rfl : s.recordId = recordId := Table.key_of_get? hs
  obtain ⟨hcontents, hfacts⟩ := Db.updateLifecycleFacts_ok h
  have hfacts' := Table.eq_update
    (v := fun k => (db.facts? k).map (fun _ => update s.toLifecycleFacts)) hfacts
  have hget : db.facts? s.recordId = some s.toLifecycleFacts := by rw [Db.facts?, hs]; rfl
  refine ⟨?_, ⟨by rw [hcontents], by rw [hcontents], by rw [hcontents]⟩, by rw [hget]; rfl⟩
  rw [view_eq hcontents hfacts']
  simp only [View.changeFacts, view, hget, Option.map_some]
  rfl

theorem view_of_updateRecordStatus {db db' : Db} {recordId : String} {app : Application}
    (h : updateRecordStatus db recordId .superseded app.appliedAt = .ok db') :
    view db' = (view db).changeRecord recordId (View.supersede app) ∧ SameRest db db' := by
  obtain ⟨r, hr, hupdate⟩ := bind_eq_ok.1 h
  obtain ⟨hget, hprivate⟩ := Option.filter_eq_some_iff.1 (require_eq_ok.1 hr)
  obtain rfl : r.id = recordId := Table.key_of_get? hget
  exact view_of_updateRecord (View.supersede app) hupdate hget rfl hprivate

theorem view_of_setSuccessorPredecessor {db db' : Db} {successorId predecessorId : String}
    {kind : Option RecordLineageKind} {app : Application}
    (h : setSuccessorPredecessor db successorId predecessorId kind app.appliedAt = .ok db') :
    view db' = (view db).changeRecord successorId (View.link app predecessorId kind) ∧
      SameRest db db' := by
  obtain ⟨r, hr, hupdate⟩ := bind_eq_ok.1 h
  obtain ⟨hget, hmatch⟩ := Option.filter_eq_some_iff.1 (require_eq_ok.1 hr)
  obtain rfl : r.id = successorId := Table.key_of_get? hget
  have hprivate : r.destination.isPrivate = true := (Bool.and_eq_true _ _ ▸ hmatch).1
  exact view_of_updateRecord (View.link app predecessorId kind) hupdate hget rfl hprivate

theorem view_of_insertRelation {db db' : Db} {kind : PrivateLifecycleRelationKind}
    {subjectId relatedId : String} {app : Application}
    (h : insertRelation db kind subjectId relatedId app = .ok db') :
    view db' = (view db).relate kind subjectId relatedId app ∧ SameRest db db' ∧
      subjectId ≠ relatedId := by
  obtain ⟨relations, hrelations, hcontents, hfacts, hne⟩ := Db.insertRelation_ok h
  have hfacts' : db'.facts? = db.facts? := funext hfacts
  refine ⟨?_, ⟨by rw [hcontents], by rw [hcontents], by rw [hcontents]⟩, hne⟩
  rw [view_eq hcontents hfacts']
  simp only [View.relate, view, Table.insert?_rows hrelations, List.map_append, List.map_singleton,
    ← Multiset.coe_add, Multiset.coe_singleton]
  rfl

theorem view_of_supersedeInto {db db' : Db} {kind : PrivateLifecycleRelationKind}
    {subjectId relatedId : String} {app : Application}
    (h : supersedeInto db kind subjectId relatedId app = .ok db') :
    view db' = (view db).supersedeInto kind subjectId relatedId app ∧ SameRest db db' ∧
      subjectId ≠ relatedId := by
  obtain ⟨mid, hstatus, hrelation⟩ := bind_eq_ok.1 h
  obtain ⟨hmid, hrest⟩ := view_of_updateRecordStatus hstatus
  obtain ⟨hview, hrest', hne⟩ := view_of_insertRelation hrelation
  exact ⟨by rw [hview, hmid]; rfl, hrest.trans hrest', hne⟩

theorem view_of_supersedeMembers {db db' : Db} {kind : PrivateLifecycleRelationKind} {keptId : String}
    {recordIds : List String} {app : Application}
    (h : supersedeMembers db kind keptId recordIds app = .ok db') :
    view db' = (view db).supersedeMembers kind keptId recordIds app ∧ SameRest db db' := by
  unfold supersedeMembers at h
  unfold View.supersedeMembers
  induction recordIds generalizing db with
  | nil =>
      cases h
      exact ⟨rfl, SameRest.refl _⟩
  | cons recordId recordIds ih =>
      obtain ⟨mid, hmid, h⟩ := runAll_cons.1 h
      obtain ⟨hview, hrest⟩ := ih h
      rw [List.foldl_cons]
      split at hmid
      · rename_i hkept
        cases hmid
        rw [if_pos hkept]
        exact ⟨hview, hrest⟩
      · rename_i hkept
        obtain ⟨hmidView, hmidRest, -⟩ := view_of_supersedeInto hmid
        rw [if_neg hkept, ← hmidView]
        exact ⟨hview, hmidRest.trans hrest⟩

theorem view_of_succeedBy {db db' : Db} {kind : PrivateLifecycleRelationKind}
    {predecessorId successorId : String} {lineageKind : Option RecordLineageKind} {app : Application}
    (h : succeedBy db kind predecessorId successorId lineageKind app = .ok db') :
    view db' = (view db).succeedBy kind predecessorId successorId lineageKind app ∧
      SameRest db db' ∧ predecessorId ≠ successorId := by
  obtain ⟨db₁, hstatus, h⟩ := bind_eq_ok.1 h
  obtain ⟨db₂, hlink, hrelation⟩ := bind_eq_ok.1 h
  obtain ⟨hview₁, hrest₁⟩ := view_of_updateRecordStatus hstatus
  obtain ⟨hview₂, hrest₂⟩ := view_of_setSuccessorPredecessor hlink
  obtain ⟨hview, hrest, hne⟩ := view_of_insertRelation hrelation
  exact ⟨by rw [hview, hview₂, hview₁]; rfl, (hrest₁.trans hrest₂).trans hrest, hne⟩

/-! ### Copies of a correction -/

theorem view_of_insertTag {db db' : Db} {recordId tag : String}
    (h : db.insertTag ⟨recordId, tag⟩ = .ok db') :
    view db' = { view db with
      tags := Function.update (tagsOf db) recordId (tagsOf db recordId ++ [tag]) } ∧
      SameRest db db' := by
  obtain ⟨tags, htags, hcontents, hfacts⟩ := Db.insertTag_ok h
  have hfacts' : db'.facts? = db.facts? := funext hfacts
  refine ⟨?_, ⟨by rw [hcontents], by rw [hcontents], by rw [hcontents]⟩⟩
  have htagsOf : (fun id => (tags.rows.filter (·.recordId = id)).map (·.tag)) =
      Function.update (tagsOf db) recordId (tagsOf db recordId ++ [tag]) := by
    apply Table.eq_update (v := fun id => tagsOf db id ++ [tag])
    intro id
    rw [Table.insert?_rows htags, List.filter_append, List.map_append]
    by_cases hid : recordId = id
    · simp [hid, tagsOf]
    · simp [hid, tagsOf]
  rw [view_eq hcontents hfacts']
  dsimp only
  rw [htagsOf]
  rfl

theorem view_of_copyTags {tags : List String} {db db' : Db} {recordId : String}
    (h : runAll (fun (db : Db) tag => db.insertTag ⟨recordId, tag⟩) db tags = .ok db') :
    view db' = { view db with
      tags := Function.update (tagsOf db) recordId (tagsOf db recordId ++ tags) } ∧
      SameRest db db' := by
  induction tags generalizing db with
  | nil =>
      cases h
      rw [List.append_nil, Function.update_eq_self]
      exact ⟨rfl, SameRest.refl _⟩
  | cons tag tags ih =>
      obtain ⟨mid, hmid, h⟩ := runAll_cons.1 h
      obtain ⟨hview, hrest⟩ := ih h
      obtain ⟨hmidView, hmidRest⟩ := view_of_insertTag hmid
      have hmidTags : tagsOf mid =
          Function.update (tagsOf db) recordId (tagsOf db recordId ++ [tag]) :=
        congrArg View.tags hmidView
      refine ⟨?_, hmidRest.trans hrest⟩
      rw [hview, hmidView, hmidTags, Function.update_self, Function.update_idem, List.append_assoc]
      rfl

theorem view_of_copyPath {db db' : Db} {recordId : String} {path : MemoryPath}
    (h : copyPath recordId db path = .ok db') :
    view db' = { view db with
      paths := Function.update (pathsOf db) recordId
        (pathsOf db recordId ++ [View.copied (pathFacts path)]) } ∧
      SameRest db db' := by
  obtain ⟨paths, hpaths, hcontents, hfacts⟩ := Db.insertPath_ok h
  have hfacts' : db'.facts? = db.facts? := funext hfacts
  refine ⟨?_, ⟨by rw [hcontents], by rw [hcontents], by rw [hcontents]⟩⟩
  have hpathsOf : (fun id => (paths.rows.filter (·.recordId = id)).map pathFacts) =
      Function.update (pathsOf db) recordId
        (pathsOf db recordId ++ [View.copied (pathFacts path)]) := by
    apply Table.eq_update (v := fun id => pathsOf db id ++ [View.copied (pathFacts path)])
    intro id
    rw [Table.insert?_rows hpaths, List.filter_append, List.map_append]
    by_cases hid : recordId = id
    · simp [hid, pathsOf, pathFacts, View.copied]
    · simp [hid, pathsOf]
  rw [view_eq hcontents hfacts']
  dsimp only
  rw [hpathsOf]
  rfl

theorem view_of_copyPaths {paths : List MemoryPath} {db db' : Db} {recordId : String}
    (h : runAll (copyPath recordId) db paths = .ok db') :
    view db' = { view db with
      paths := Function.update (pathsOf db) recordId
        (pathsOf db recordId ++ paths.map fun p => View.copied (pathFacts p)) } ∧
      SameRest db db' := by
  induction paths generalizing db with
  | nil =>
      cases h
      rw [List.map_nil, List.append_nil, Function.update_eq_self]
      exact ⟨rfl, SameRest.refl _⟩
  | cons path paths ih =>
      obtain ⟨mid, hmid, h⟩ := runAll_cons.1 h
      obtain ⟨hview, hrest⟩ := ih h
      obtain ⟨hmidView, hmidRest⟩ := view_of_copyPath hmid
      have hmidPaths : pathsOf mid = Function.update (pathsOf db) recordId
          (pathsOf db recordId ++ [View.copied (pathFacts path)]) :=
        congrArg View.paths hmidView
      refine ⟨?_, hmidRest.trans hrest⟩
      rw [hview, hmidView, hmidPaths, Function.update_self, Function.update_idem,
        List.append_assoc]
      rfl

omit [Entropy] in
/-- The copy reads the paths in the order of the view. -/
theorem loadPaths_map (db : Db) (recordId : String) :
    (loadPaths db recordId).map (fun p => View.copied (pathFacts p)) =
      View.copiedPaths (pathsOf db recordId) := by
  have hsort : (loadPaths db recordId).map pathFacts =
      (pathsOf db recordId).insertionSort
        (fun a b => a.path < b.path ∨ (a.path = b.path ∧ symbolLe a.symbol b.symbol = true)) := by
    unfold loadPaths pathsOf
    exact List.map_insertionSort _ _ _ _ fun a _ b _ => Iff.rfl
  rw [View.copiedPaths, ← hsort, List.map_map]
  rfl

theorem view_of_createCorrectionRecord [Digests] {db db' : Db} {predecessorId replacementId : String}
    {replacement : PrivateCorrectionReplacement} {app : Application}
    (h : createCorrectionRecord db predecessorId replacementId replacement app = .ok db') :
    view db' = (view db).createCorrection predecessorId replacementId replacement app ∧
      SameRest db db' ∧ db.records.get? replacementId = none ∧
        (db.records.get? predecessorId).isSome = true := by
  obtain ⟨_, hpredecessor, h⟩ := bind_eq_ok.1 h
  obtain ⟨_, hfacts, h⟩ := bind_eq_ok.1 h
  obtain ⟨db₁, hinsert, h⟩ := bind_eq_ok.1 h
  obtain ⟨db₂, hupdate, h⟩ := bind_eq_ok.1 h
  obtain ⟨db₃, htags, hpaths⟩ := bind_eq_ok.1 h
  simp only [requirePrivateRecord, ensurePrivateShape, bind_eq_ok, require_eq_ok, ensure_eq_ok,
    exists_const, Except.ok.injEq] at hpredecessor
  obtain ⟨predecessor, hget, ⟨hprivate, -⟩, rfl⟩ := hpredecessor
  simp only [requireFacts, Db.requireState, bind_eq_ok, require_eq_ok, Except.ok.injEq] at hfacts
  obtain ⟨state, hstate, rfl⟩ := hfacts
  have hfacts : db.facts? predecessorId = some state.toLifecycleFacts := by
    rw [Db.facts?, hstate]
    rfl
  obtain ⟨records, hrecords, hcontents, -, hfacts₁⟩ := Db.insertRecord_ok hinsert hprivate
  have hfresh : db.records.get? replacementId = none := Table.insert?_fresh hrecords
  have hfacts₁' := Table.eq_update (v := fun _ => some LifecycleFacts.initial) hfacts₁
  have hview₁ : view db₁ = { view db with
      records := Function.update db.records.get? replacementId
        (some (correctionRecord predecessor replacementId replacement app))
      facts := Function.update db.facts? replacementId (some .initial) } := by
    rw [view_eq hcontents hfacts₁']
    dsimp only
    rw [Table.get?_insert?_eq_update hrecords]
    rfl
  have hrest₁ : SameRest db db₁ := ⟨by rw [hcontents], by rw [hcontents], by rw [hcontents]⟩
  obtain ⟨hview₂, hrest₂, -⟩ := view_of_updateState hupdate
  obtain ⟨hview₃, hrest₃⟩ := view_of_copyTags htags
  obtain ⟨hview₄, hrest₄⟩ := view_of_copyPaths hpaths
  refine ⟨?_, ((hrest₁.trans hrest₂).trans hrest₃).trans hrest₄, hfresh, by rw [hget]; rfl⟩
  -- the four writes touch different parts of the view
  have htags₂ : tagsOf db₂ = tagsOf db := by
    rw [show tagsOf db₂ = (view db₂).tags from rfl, hview₂, View.changeFacts, hview₁]
    rfl
  have hpaths₃ : pathsOf db₃ = pathsOf db := by
    rw [show pathsOf db₃ = (view db₃).paths from rfl, hview₃, hview₂, View.changeFacts, hview₁]
    rfl
  rw [hview₄, loadPaths_map, hpaths₃, hview₃, htags₂, show List.map _ _ = tagsOf db₂ predecessorId
    from rfl, htags₂, hview₂, hview₁, View.changeFacts, View.createCorrection]
  simp only [view, Function.update_self, Function.update_idem, Option.map_some, hget, hfacts]

/-- Every action refines what it does on the visible store. -/
theorem view_of_mutateAction [Digests] {db db' : Db} {app : Application} {p : PreparedAction}
    (h : mutateAction app db p.action p.replacementId = .ok db') :
    view db' = (view db).act app p ∧ SameRest db db' := by
  obtain ⟨action, replacementId⟩ := p
  cases action with
  | renewFromEvidence => exact ⟨(view_of_succeedBy h).1, (view_of_succeedBy h).2.1⟩
  | supersede => exact ⟨(view_of_succeedBy h).1, (view_of_succeedBy h).2.1⟩
  | consolidate => exact view_of_supersedeMembers h
  | resolveContradiction => exact view_of_supersedeMembers h
  | correct recordId _ replacement _ _ =>
      obtain ⟨id, hid, h⟩ := bind_eq_ok.1 h
      obtain ⟨mid, hcreate, hsupersede⟩ := bind_eq_ok.1 h
      rw [require_eq_ok] at hid
      dsimp only at hid
      subst hid
      obtain ⟨hmid, hrest, -⟩ := view_of_createCorrectionRecord hcreate
      obtain ⟨hview, hrest', -⟩ := view_of_supersedeInto hsupersede
      exact ⟨by rw [hview, hmid]; rfl, hrest.trans hrest'⟩
  | extendAutomaticRecall => exact ⟨(view_of_updateState h).1, (view_of_updateState h).2.1⟩
  | extendValidity => exact ⟨(view_of_updateState h).1, (view_of_updateState h).2.1⟩
  | retainUntil => exact ⟨(view_of_updateState h).1, (view_of_updateState h).2.1⟩
  | pin => exact ⟨(view_of_updateState h).1, (view_of_updateState h).2.1⟩
  | unpin => exact ⟨(view_of_updateState h).1, (view_of_updateState h).2.1⟩
  | quarantine => exact ⟨(view_of_updateState h).1, (view_of_updateState h).2.1⟩
  | releaseQuarantine => exact ⟨(view_of_updateState h).1, (view_of_updateState h).2.1⟩

end PrivateLifecycle
end Memzoi
