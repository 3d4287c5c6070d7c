/-
# What a reconcile writes

The loop over the derived actions touches the three conflict tables only
(`ConflictWrite`), and what it puts there is read off the plan: a set for each
action, a member for each record of its finding, an edge for each edge. A
successful reconcile is taken apart once (`ReconcileRun`).
-/

import Memzoi.Maintenance.Reconcile
import Memzoi.Maintenance.PlanRules

namespace Memzoi
namespace Maintenance

open Fallible
open Retention (formatTimestamp)
open Recall (maintenancePolicyVersion)

/-- Writes of conflict rows leave everything else as it was. -/
structure ConflictWrite (db db' : Db) : Prop where
  records : db'.records = db.records
  paths : db'.paths = db.paths
  events : db'.events = db.events
  lifecycle : db'.lifecycle = db.lifecycle
  generation : db'.generation = db.generation

theorem ConflictWrite.refl (db : Db) : ConflictWrite db db := ⟨rfl, rfl, rfl, rfl, rfl⟩

theorem ConflictWrite.trans (db db' db'' : Db) (h : ConflictWrite db db')
    (h' : ConflictWrite db' db'') : ConflictWrite db db'' :=
  ⟨h'.records.trans h.records, h'.paths.trans h.paths, h'.events.trans h.events,
    h'.lifecycle.trans h.lifecycle, h'.generation.trans h.generation⟩

variable [Entropy]

/-! ### One row -/

theorem insertConflictSet_ok {db db' : Db} {s : PrivateConflictSet}
    (h : db.insertConflictSet s = .ok db') :
    ConflictWrite db db' ∧ db'.conflictSets.rows = db.conflictSets.rows ++ [s] ∧
      db'.conflictMembers = db.conflictMembers ∧ db'.conflictEdges = db.conflictEdges := by
  obtain ⟨_, h⟩ := check_bind_eq_ok.1 h
  obtain ⟨sets, hsets, h⟩ := bind_eq_ok.1 h
  cases h
  exact ⟨⟨rfl, rfl, rfl, rfl, rfl⟩, Table.insert?_rows (require_eq_ok.1 hsets), rfl, rfl⟩

theorem insertConflictMember_ok {db db' : Db} {m : PrivateConflictMember}
    (h : db.insertConflictMember m = .ok db') :
    ConflictWrite db db' ∧ db'.conflictSets = db.conflictSets ∧
      db'.conflictMembers.rows = db.conflictMembers.rows ++ [m] ∧
        db'.conflictEdges = db.conflictEdges := by
  obtain ⟨_, h⟩ := check_bind_eq_ok.1 h
  obtain ⟨members, hmembers, h⟩ := bind_eq_ok.1 h
  obtain ⟨_, h⟩ := check_bind_eq_ok.1 h
  cases h
  exact ⟨⟨rfl, rfl, rfl, rfl, rfl⟩, rfl, Table.insert?_rows (require_eq_ok.1 hmembers), rfl⟩

theorem insertConflictEdge_ok {db db' : Db} {e : PrivateConflictEdge}
    (h : db.insertConflictEdge e = .ok db') :
    ConflictWrite db db' ∧ db'.conflictSets = db.conflictSets ∧
      db'.conflictMembers = db.conflictMembers ∧
        db'.conflictEdges.rows = db.conflictEdges.rows ++ [e] := by
  obtain ⟨_, h⟩ := check_bind_eq_ok.1 h
  obtain ⟨edges, hedges, h⟩ := bind_eq_ok.1 h
  obtain ⟨_, h⟩ := check_bind_eq_ok.1 h
  cases h
  exact ⟨⟨rfl, rfl, rfl, rfl, rfl⟩, rfl, rfl, Table.insert?_rows (require_eq_ok.1 hedges)⟩

/-! ### The rows of one action -/

/-- The member row of a record under an action. -/
def IsMember (conflictId : String) (action : MaintenanceAction) (m : PrivateConflictMember)
    (recordId : String) : Prop :=
  m.conflictId = conflictId ∧ m.recordId = recordId ∧
    (action.preconditions.recordVersions.get? recordId).bind
      MaintenanceRecordVersion.privateVersionToken = some m.recordVersion

/-- The row of an edge. -/
def edgeRow (conflictId : String) (edge : MaintenanceConflictEdge) : PrivateConflictEdge :=
  ⟨conflictId, edge.left, edge.right, edge.evidenceDigest⟩

theorem insertMembers_ok {db db' : Db} {conflictId : String} {action : MaintenanceAction}
    {recordIds : List String} (h : runAll (insertMember conflictId action) db recordIds = .ok db') :
    ConflictWrite db db' ∧ db'.conflictSets = db.conflictSets ∧
      db'.conflictEdges = db.conflictEdges ∧
      ∀ m, m ∈ db'.conflictMembers.rows ↔ m ∈ db.conflictMembers.rows ∨
        ∃ id ∈ recordIds, IsMember conflictId action m id := by
  have hstep : ∀ (s : Db) (id : String) (s' : Db), insertMember conflictId action s id = .ok s' →
      ∃ version, (action.preconditions.recordVersions.get? id).bind
          MaintenanceRecordVersion.privateVersionToken = some version ∧
        s.insertConflictMember ⟨conflictId, id, version⟩ = .ok s' := by
    intro s id s' hs
    obtain ⟨version, hversion, hs⟩ := bind_eq_ok.1 hs
    exact ⟨version, require_eq_ok.1 hversion, hs⟩
  refine ⟨runAll_relation ConflictWrite ConflictWrite.refl ConflictWrite.trans ?_ h,
    runAll_relation (fun s s' : Db => s'.conflictSets = s.conflictSets) (fun _ => rfl)
      (fun _ _ _ h h' => Eq.trans h' h) ?_ h,
    runAll_relation (fun s s' : Db => s'.conflictEdges = s.conflictEdges) (fun _ => rfl)
      (fun _ _ _ h h' => Eq.trans h' h) ?_ h, fun m => ?_⟩
  · intro s id s' _ hs
    obtain ⟨version, _, hs⟩ := hstep s id s' hs
    exact (insertConflictMember_ok hs).1
  · intro s id s' _ hs
    obtain ⟨version, _, hs⟩ := hstep s id s' hs
    exact (insertConflictMember_ok hs).2.1
  · intro s id s' _ hs
    obtain ⟨version, _, hs⟩ := hstep s id s' hs
    exact (insertConflictMember_ok hs).2.2.2
  · refine runAll_collect (fun s : Db => m ∈ s.conflictMembers.rows) _ ?_ h
    intro s id s' _ hs
    obtain ⟨version, hversion, hs⟩ := hstep s id s' hs
    rw [(insertConflictMember_ok hs).2.2.1, List.mem_append, List.mem_singleton]
    refine or_congr_right ?_
    constructor
    · rintro rfl
      exact ⟨rfl, rfl, hversion⟩
    · rintro ⟨hconflict, hid, hm⟩
      cases hversion.symm.trans hm
      cases m
      cases hconflict
      cases hid
      rfl

theorem insertEdges_ok {db db' : Db} {conflictId : String} {edges : List MaintenanceConflictEdge}
    (h : runAll (insertEdge conflictId) db edges = .ok db') :
    ConflictWrite db db' ∧ db'.conflictSets = db.conflictSets ∧
      db'.conflictMembers = db.conflictMembers ∧
      ∀ e, e ∈ db'.conflictEdges.rows ↔ e ∈ db.conflictEdges.rows ∨
        ∃ edge ∈ edges, e = edgeRow conflictId edge := by
  refine ⟨runAll_relation ConflictWrite ConflictWrite.refl ConflictWrite.trans
      (fun s edge s' _ hs => (insertConflictEdge_ok hs).1) h,
    runAll_relation (fun s s' : Db => s'.conflictSets = s.conflictSets) (fun _ => rfl)
      (fun _ _ _ h h' => Eq.trans h' h) (fun s edge s' _ hs => (insertConflictEdge_ok hs).2.1) h,
    runAll_relation (fun s s' : Db => s'.conflictMembers = s.conflictMembers) (fun _ => rfl)
      (fun _ _ _ h h' => Eq.trans h' h) (fun s edge s' _ hs => (insertConflictEdge_ok hs).2.2.1) h,
    fun e => ?_⟩
  refine runAll_collect (fun s : Db => e ∈ s.conflictEdges.rows) _ ?_ h
  intro s edge s' _ hs
  rw [(insertConflictEdge_ok hs).2.2.2, List.mem_append, List.mem_singleton]
  exact Iff.rfl

/-! ### The rows of a projection -/

variable [ProjectionDigests]

/-- The finding an action is looked up to. -/
def FindingOf (findings : List MaintenanceFinding) (action : MaintenanceAction)
    (finding : MaintenanceFinding) : Prop :=
  findings.find? (·.findingId = action.findingId) = some finding

/-- What the loop adds for one action. -/
structure Conflict (findings : List MaintenanceFinding) (projectionId : String)
    (action : MaintenanceAction) (finding : MaintenanceFinding) (conflictId : String) : Prop where
  finding_of : FindingOf findings action finding
  id_of : conflictId = ProjectionDigests.conflict (projectionId, finding.findingId)

theorem insertConflict_ok {findings : List MaintenanceFinding}
    {projectionId grantFingerprint : String} {db db' : Db} {action : MaintenanceAction}
    (h : insertConflict findings projectionId grantFingerprint db action = .ok db') :
    ∃ finding conflictId, Conflict findings projectionId action finding conflictId ∧
      ConflictWrite db db' ∧
      (∀ s, s ∈ db'.conflictSets.rows ↔ s ∈ db.conflictSets.rows ∨
        s = conflictSetOf conflictId projectionId grantFingerprint finding) ∧
      (∀ m, m ∈ db'.conflictMembers.rows ↔ m ∈ db.conflictMembers.rows ∨
        ∃ id ∈ finding.recordIds, IsMember conflictId action m id) ∧
      ∀ e, e ∈ db'.conflictEdges.rows ↔ e ∈ db.conflictEdges.rows ∨
        ∃ edge ∈ finding.conflictEdges, e = edgeRow conflictId edge := by
  obtain ⟨finding, hfinding, h⟩ := bind_eq_ok.1 h
  obtain ⟨db₁, hset, h⟩ := bind_eq_ok.1 h
  obtain ⟨db₂, hmembers, hedges⟩ := bind_eq_ok.1 h
  obtain ⟨hwrite₁, hsets, hsame₁, hsameEdges₁⟩ := insertConflictSet_ok hset
  obtain ⟨hwrite₂, hsets₂, hedges₂, hmem⟩ := insertMembers_ok hmembers
  obtain ⟨hwrite₃, hsets₃, hmembers₃, hedge⟩ := insertEdges_ok hedges
  refine ⟨finding, _, ⟨require_eq_ok.1 hfinding, rfl⟩,
    (hwrite₁.trans _ _ _ hwrite₂).trans _ _ _ hwrite₃, fun s => ?_, fun m => ?_, fun e => ?_⟩
  · rw [hsets₃, hsets₂, hsets, List.mem_append, List.mem_singleton]
  · rw [hmembers₃, hmem, hsame₁]
  · rw [hedge, hedges₂, hsameEdges₁]

/-- The rows after the loop are those before it and those of the actions. -/
theorem insertConflicts_ok {findings : List MaintenanceFinding}
    {projectionId grantFingerprint : String} {db db' : Db} {actions : List MaintenanceAction}
    (h : runAll (insertConflict findings projectionId grantFingerprint) db actions = .ok db') :
    ConflictWrite db db' ∧
      (∀ s, s ∈ db'.conflictSets.rows ↔ s ∈ db.conflictSets.rows ∨ ∃ action ∈ actions,
        ∃ finding conflictId,
          Conflict findings projectionId action finding conflictId ∧
            s = conflictSetOf conflictId projectionId grantFingerprint finding) ∧
      (∀ m, m ∈ db'.conflictMembers.rows ↔ m ∈ db.conflictMembers.rows ∨ ∃ action ∈ actions,
        ∃ finding conflictId,
          Conflict findings projectionId action finding conflictId ∧
            ∃ id ∈ finding.recordIds, IsMember conflictId action m id) ∧
      ∀ e, e ∈ db'.conflictEdges.rows ↔ e ∈ db.conflictEdges.rows ∨ ∃ action ∈ actions,
        ∃ finding conflictId,
          Conflict findings projectionId action finding conflictId ∧
            ∃ edge ∈ finding.conflictEdges, e = edgeRow conflictId edge := by
  -- the finding of an action and the id of its conflict are determined
  have hunique : ∀ {action f f' c c'},
      Conflict findings projectionId action f c →
      Conflict findings projectionId action f' c' → f = f' ∧ c = c' := by
    intro action f f' c c' h h'
    have hf := Option.some.inj (h.finding_of.symm.trans h'.finding_of)
    exact ⟨hf, by rw [h.id_of, h'.id_of, hf]⟩
  refine ⟨runAll_relation ConflictWrite ConflictWrite.refl ConflictWrite.trans
      (fun s a s' _ hs => ?_) h, fun s => runAll_collect (fun d : Db => s ∈ d.conflictSets.rows) _
      (fun d a d' _ hd => ?_) h, fun m => runAll_collect
      (fun d : Db => m ∈ d.conflictMembers.rows) _ (fun d a d' _ hd => ?_) h,
    fun e => runAll_collect (fun d : Db => e ∈ d.conflictEdges.rows) _ (fun d a d' _ hd => ?_) h⟩
  · obtain ⟨_, _, _, hwrite, _⟩ := insertConflict_ok hs
    exact hwrite
  · obtain ⟨finding, conflictId, hconflict, _, hsets, _⟩ := insertConflict_ok hd
    refine (hsets s).trans (or_congr_right ⟨fun hs => ⟨finding, conflictId, hconflict, hs⟩, ?_⟩)
    rintro ⟨f, c, hc, hs⟩
    obtain ⟨rfl, rfl⟩ := hunique hconflict hc
    exact hs
  · obtain ⟨finding, conflictId, hconflict, _, _, hmembers, _⟩ := insertConflict_ok hd
    refine (hmembers m).trans (or_congr_right ⟨fun hm => ⟨finding, conflictId, hconflict, hm⟩, ?_⟩)
    rintro ⟨f, c, hc, hm⟩
    obtain ⟨rfl, rfl⟩ := hunique hconflict hc
    exact hm
  · obtain ⟨finding, conflictId, hconflict, _, _, _, hedges⟩ := insertConflict_ok hd
    refine (hedges e).trans (or_congr_right ⟨fun he => ⟨finding, conflictId, hconflict, he⟩, ?_⟩)
    rintro ⟨f, c, hc, he⟩
    obtain ⟨rfl, rfl⟩ := hunique hconflict hc
    exact he

/-! ### The transaction -/

section Plan

variable [Text.Unicode] [MaintenanceDigests]

/-- What a successful reconcile has planned and left in the store. -/
structure ReconcileRun (fingerprint : String) (db db' : Db) (now : OffsetDateTime)
    (plan : MaintenancePlan) (projectionId grantFingerprint : String) : Prop where
  planned : ∃ nowText, formatTimestamp now = .ok nowText ∧
    planPrivateLifecycle fingerprint db ⟨requestSchema, some nowText, []⟩ now = .ok plan
  granted : db.activeGrant.map (·.grantFingerprint) = some grantFingerprint
  records : db'.records = db.records
  paths : db'.paths = db.paths
  lifecycle : db'.lifecycle = db.lifecycle
  generation : db'.generation = db.generation
  events : ∃ event, db.events.insert? event = some db'.events ∧
    event.eventType = privateMaintenanceReconciledEvent
  state : db'.projection.state = .current
  projected : db'.projection.authoritativeGeneration = db.generation ∧
    db'.projection.policyVersion = maintenancePolicyVersion ∧
    db'.projection.projectionId = some projectionId ∧
    db'.projection.grantFingerprint = some grantFingerprint
  ends : db'.projection.notAfter = some plan.notAfter
  sets : ∀ s, s ∈ db'.conflictSets.rows ↔ ∃ action ∈ plan.actionGroups.privateDerivedState,
    ∃ finding conflictId,
      Conflict plan.findings projectionId action finding conflictId ∧
        s = conflictSetOf conflictId projectionId grantFingerprint finding
  members : ∀ m, m ∈ db'.conflictMembers.rows ↔ ∃ action ∈ plan.actionGroups.privateDerivedState,
    ∃ finding conflictId,
      Conflict plan.findings projectionId action finding conflictId ∧
        ∃ id ∈ finding.recordIds, IsMember conflictId action m id
  edges : ∀ e, e ∈ db'.conflictEdges.rows ↔ ∃ action ∈ plan.actionGroups.privateDerivedState,
    ∃ finding conflictId,
      Conflict plan.findings projectionId action finding conflictId ∧
        ∃ edge ∈ finding.conflictEdges, e = edgeRow conflictId edge

theorem reconcileTransaction_run {fingerprint : String} {db db' : Db} {now : OffsetDateTime}
    {grant : PrivateMaintenanceGrant}
    (h : reconcileTransaction fingerprint db now grant = .ok db') :
    ∃ plan projectionId,
      ReconcileRun fingerprint db db' now plan projectionId grant.grantFingerprint := by
  unfold reconcileTransaction at h
  obtain ⟨_, h⟩ := check_bind_eq_ok.1 h
  obtain ⟨nowText, hnow, h⟩ := bind_eq_ok.1 h
  obtain ⟨plan, hplan, h⟩ := bind_eq_ok.1 h
  obtain ⟨_, h⟩ := check_bind_eq_ok.1 h
  obtain ⟨_, h⟩ := check_bind_eq_ok.1 h
  obtain ⟨hgrant, h⟩ := check_bind_eq_ok.1 h
  obtain ⟨inserted, hinserted, h⟩ := bind_eq_ok.1 h
  obtain ⟨events, hevents, h⟩ := bind_eq_ok.1 h
  obtain ⟨hwrite, hsets, hmembers, hedges⟩ := insertConflicts_ok hinserted
  have hdeleted : ConflictWrite db db.deleteConflictSets := ⟨rfl, rfl, rfl, rfl, rfl⟩
  have hall := hdeleted.trans _ _ _ hwrite
  have hinsert : inserted.events.insert? _ = some events := require_eq_ok.1 hevents
  rw [show inserted.events = db.events from hall.events] at hinsert
  have hevent : ∃ event, db.events.insert? event = some events ∧
      event.eventType = privateMaintenanceReconciledEvent := ⟨_, hinsert, rfl⟩
  cases h
  refine ⟨plan, _, ⟨nowText, hnow, hplan⟩, ensure_eq_ok.1 hgrant, hall.records, hall.paths,
    hall.lifecycle, hall.generation, hevent, rfl, ⟨hall.generation, rfl, rfl, rfl⟩, rfl,
    fun s => ?_, fun m => ?_, fun e => ?_⟩
  · exact (hsets s).trans (or_iff_right List.not_mem_nil)
  · exact (hmembers m).trans (or_iff_right List.not_mem_nil)
  · exact (hedges e).trans (or_iff_right List.not_mem_nil)

end Plan

end Maintenance
end Memzoi
