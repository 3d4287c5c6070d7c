/-
# The contradiction findings of both planners

Source: `maintenance.rs` (`plan_maintenance_inner`,
`plan_private_maintenance_inner`, `detect_contradictions`,
`detect_private_contradictions`).

A plan keeps the findings of its detectors in another order and with other
action ids, and its records in order of id, whatever order the snapshot had. So
the findings of `Memzoi.Maintenance.ContradictionPartition` are those of every
plan, over the records the snapshot makes eligible.
-/

import Memzoi.Maintenance.ContradictionPartition
import Memzoi.Maintenance.PlanValidity

namespace Memzoi
namespace Maintenance

open Fallible
open RelationGraph (Opposes)
open Retention (evaluateCurrentAssertion)

/-! ### Targets -/

section Targets

variable {κ : Type} {eligible : κ → Prop} {contradict : κ → κ → Bool} {idOf : κ → String}
  {target target' : String → Prop} {findings : List FindingIdentity}

theorem member_of_connected {a b c : κ} (h : RelationGraph.Linked eligible contradict a b)
    (hc : RelationGraph.Connected eligible contradict a c) : eligible c := by
  rcases Relation.ReflTransGen.cases_tail hc with rfl | ⟨_, -, hlink⟩
  · exact h.1
  · exact hlink.2.1

theorem ContradictionPartition.of_target (hsame : ∀ a, eligible a → (target (idOf a) ↔ target' (idOf a)))
    (h : ContradictionPartition eligible contradict idOf target findings) :
    ContradictionPartition eligible contradict idOf target' findings := by
  refine ⟨h.disjoint, h.component, fun f hf => ?_, h.edge_inside, h.edges_once, ?_⟩
  · obtain ⟨a, b, hlink, hids⟩ := h.component f hf
    obtain ⟨id, hid, htarget⟩ := h.targeted f hf
    obtain ⟨c, hc, rfl⟩ := (hids id).1 hid
    exact ⟨_, hid, (hsame c (member_of_connected hlink hc)).1 htarget⟩
  · intro left right
    rw [h.edge_iff]
    refine and_congr_right fun _ => exists_congr fun a => exists_congr fun b => ?_
    refine and_congr_right fun hlink => and_congr_right fun _ => and_congr_right fun _ => ?_
    refine exists_congr fun c => and_congr_right fun hc => ?_
    exact hsame c (member_of_connected hlink hc)

theorem ContradictionPartition.of_eligible {eligible' : κ → Prop}
    (hsame : ∀ a, eligible a ↔ eligible' a)
    (h : ContradictionPartition eligible contradict idOf target findings) :
    ContradictionPartition eligible' contradict idOf target findings := by
  obtain rfl : eligible = eligible' := funext fun a => propext (hsame a)
  exact h

end Targets

section Plans

variable [MaintenanceDigests]

/-! ### The kinds of findings -/

section Kinds

variable {ρ : Type} {loaded : List (LoadedRecord ρ)} {selected : List String}
  {e : OffsetDateTime} {det : Detected}

theorem kind_of_duplicate {evidenceDigest : List (LoadedRecord ρ) → String}
    {action : MaintenanceFinding → List (LoadedRecord ρ) → MaintenanceAction}
    (h : det ∈ detectExactDuplicatesWith loaded selected evidenceDigest action) :
    det.finding.kind = .exactDuplicate := by
  obtain ⟨group, -, rfl⟩ := List.mem_map.1 h
  rfl

theorem kind_of_stale [MaintenanceRecord ρ] {stale : List Detected} (hstale : detectStaleness loaded selected e = .ok stale)
    (h : det ∈ stale) : det.finding.kind = .stale := by
  obtain ⟨r, -, part, hpart, hmem⟩ := (mem_of_gatherAll hstale det).1 h
  obtain ⟨at_, -, hpart⟩ := bind_eq_ok.1 hpart
  split at hpart
  · cases hpart
    cases hmem
  · obtain ⟨freshness, -, hpart⟩ := bind_eq_ok.1 hpart
    obtain ⟨boundary, -, hpart⟩ := bind_eq_ok.1 hpart
    cases hpart
    rw [List.mem_singleton.1 hmem]
    rfl

theorem kind_of_expired (h : det ∈ detectExpiry loaded selected) : det.finding.kind = .expired := by
  obtain ⟨r, -, rfl⟩ := List.mem_map.1 h
  rfl

theorem kind_of_renewal [MaintenanceRecord ρ]
    {evidenceDigest : LoadedRecord ρ → LoadedRecord ρ → String}
    {action : MaintenanceFinding → LoadedRecord ρ → LoadedRecord ρ → MaintenanceAction}
    {renewals : List Detected}
    (hrenewals : detectRenewalsWith loaded selected e evidenceDigest action = .ok renewals)
    (h : det ∈ renewals) : det.finding.kind = .renewalCandidate := by
  obtain ⟨-, hrenewals⟩ := check_bind_eq_ok.1 hrenewals
  obtain ⟨p, -, part, hpart, hmem⟩ := (mem_of_gatherAll hrenewals det).1 h
  obtain ⟨boundary, -, hpart⟩ := bind_eq_ok.1 hpart
  obtain ⟨kept, -, hpart⟩ := bind_eq_ok.1 hpart
  obtain ⟨ev, -, hmade⟩ := (mem_of_mapAll hpart det).1 hmem
  obtain ⟨boundaryText, -, hmade⟩ := bind_eq_ok.1 hmade
  cases hmade
  rfl

/-- What is detected, as a finding without its id and its actions. -/
def identityOf (det : Detected) : FindingIdentity := det.finding.toFindingIdentity

omit [MaintenanceDigests] in
/-- The contradiction findings of five lists of findings are those of the second. -/
theorem contradictions_of_detectors {duplicates contradictions stale expired renewals : List Detected}
    (hduplicates : ∀ det ∈ duplicates, det.finding.kind = .exactDuplicate)
    (hcontradictions : ∀ det ∈ contradictions, det.finding.kind = .highConfidenceContradiction)
    (hstale : ∀ det ∈ stale, det.finding.kind = .stale)
    (hexpired : ∀ det ∈ expired, det.finding.kind = .expired)
    (hrenewals : ∀ det ∈ renewals, det.finding.kind = .renewalCandidate) :
    ((duplicates ++ contradictions ++ stale ++ expired ++ renewals).map identityOf).filter
        (·.kind = .highConfidenceContradiction) = contradictions.map identityOf := by
  have hnone : ∀ {l : List Detected} {kind : MaintenanceFindingKind},
      (∀ det ∈ l, det.finding.kind = kind) → kind ≠ .highConfidenceContradiction →
      (l.map identityOf).filter (·.kind = .highConfidenceContradiction) = [] := by
    intro l kind hkind hne
    rw [List.filter_eq_nil_iff]
    intro f hf
    obtain ⟨det, hdet, rfl⟩ := List.mem_map.1 hf
    rw [identityOf, hkind det hdet]
    simpa using hne
  have hall : (contradictions.map identityOf).filter (·.kind = .highConfidenceContradiction) =
      contradictions.map identityOf := by
    rw [List.filter_eq_self]
    intro f hf
    obtain ⟨det, hdet, rfl⟩ := List.mem_map.1 hf
    exact decide_eq_true (hcontradictions det hdet)
  simp only [List.map_append, List.filter_append, hall, hnone hduplicates (by decide),
    hnone hstale (by decide), hnone hexpired (by decide), hnone hrenewals (by decide),
    List.nil_append, List.append_nil]

omit [MaintenanceDigests] in
/-- A plan keeps what was detected, in another order. -/
theorem findings_perm (detected : List Detected) :
    ((attachActions detected).1.map (·.toFindingIdentity)).Perm (detected.map identityOf) := by
  unfold attachActions
  dsimp only
  rw [List.map_map]
  have hperm := (List.perm_insertionSort (fun a b : MaintenanceFinding => a.findingId ≤ b.findingId)
    (detected.map (·.finding))).map MaintenanceFinding.toFindingIdentity
  rw [List.map_map] at hperm
  exact hperm

/-- The ids of a checked plan are in order, each once. -/
theorem records_sorted {plan : PlanContents} {ids : List String}
    (h : plan.validate ids = .ok ()) : (plan.records.map (·.recordId)).Pairwise (· < ·) := by
  unfold PlanContents.validate at h
  obtain ⟨-, h⟩ := check_bind_eq_ok.1 h
  obtain ⟨-, h⟩ := check_bind_eq_ok.1 h
  obtain ⟨hsorted, -⟩ := check_bind_eq_ok.1 h
  exact ensure_eq_ok.1 hsorted

/-- The findings that the detector hands on are those of the components. -/
theorem contradictions_identities {candidates : List (LoadedRecord ρ)} {adjacency : Nat → List Nat}
    {evidenceDigest : List Nat → String} {edgeDigest : LoadedRecord ρ → LoadedRecord ρ → String}
    {actions : MaintenanceFinding → List (LoadedRecord ρ) →
      List MaintenanceAction × List MaintenanceAction} :
    (detectContradictionsWith candidates adjacency selected evidenceDigest edgeDigest actions).map
        identityOf = componentFindings candidates adjacency selected fun component =>
      (newFinding .highConfidenceContradiction (atPositions candidates component)
        [⟨"allowlisted_symmetric_polarity", evidenceDigest component, none⟩] .high
        (conflictEdges edgeDigest candidates adjacency component)).toFindingIdentity := by
  rw [detectContradictionsWith, List.map_map]
  rfl

theorem kind_of_contradiction {candidates : List (LoadedRecord ρ)} {adjacency : Nat → List Nat}
    {evidenceDigest : List Nat → String} {edgeDigest : LoadedRecord ρ → LoadedRecord ρ → String}
    {actions : MaintenanceFinding → List (LoadedRecord ρ) →
      List MaintenanceAction × List MaintenanceAction}
    (h : det ∈ detectContradictionsWith candidates adjacency selected evidenceDigest edgeDigest
      actions) : det.finding.kind = .highConfidenceContradiction := by
  obtain ⟨component, -, rfl⟩ := List.mem_map.1 h
  rfl

/-- The detector reports the components with a selected record. -/
theorem detectContradictions_partition {contradict : ρ → ρ → Bool} (h : Opposes contradict)
    {candidates : List (LoadedRecord ρ)}
    (hsorted : (candidates.map LoadedRecord.id).Pairwise (· < ·)) {idOf : ρ → String}
    (hid : ∀ l ∈ candidates, l.id = idOf l.record)
    {evidenceDigest : List Nat → String} {edgeDigest : LoadedRecord ρ → LoadedRecord ρ → String}
    {actions : MaintenanceFinding → List (LoadedRecord ρ) →
      List MaintenanceAction × List MaintenanceAction} :
    ContradictionPartition (RelationGraph.Member LoadedRecord.record candidates) contradict idOf
      (· ∈ selected)
      ((detectContradictionsWith candidates (candidateNeighbors contradict candidates) selected
        evidenceDigest edgeDigest actions).map identityOf) := by
  rw [contradictions_identities]
  refine partition_of_components h hsorted hid fun component => ⟨fun id => ?_, edgeDigest, rfl⟩
  show id ∈ SortedMap.sortedKeys _ ↔ _
  rw [SortedMap.mem_sortedKeys]

/-- A loaded record is a target of the plan when it is selected. -/
theorem mem_targets {scope : List String → MaintenanceScope} {authority : MaintenanceAuthoritySnapshot}
    {findings : List MaintenanceFinding} {groups : MaintenanceActionGroups}
    (hscope : ∀ ids, (scope ids).targetRecordIds = ids)
    (hnodup : (loaded.map LoadedRecord.id).Nodup)
    (htarget : ∀ l ∈ loaded, l.snapshot.target = selected.contains l.id) {l : LoadedRecord ρ}
    (hl : l ∈ loaded) :
    l.id ∈ selected ↔
      l.id ∈ (planContents scope authority loaded findings groups).scope.targetRecordIds := by
  show _ ↔ l.id ∈ (scope (((loaded.map (·.snapshot)).filter (·.target)).map
    (·.recordId))).targetRecordIds
  rw [hscope, List.mem_map]
  constructor
  · intro hmem
    refine ⟨l.snapshot, List.mem_filter.2 ⟨List.mem_map_of_mem hl, ?_⟩, rfl⟩
    rw [htarget l hl]
    exact List.contains_iff_mem.2 hmem
  · rintro ⟨s, hs, hid⟩
    obtain ⟨hs, hmarked⟩ := List.mem_filter.1 hs
    obtain ⟨l', hl', rfl⟩ := List.mem_map.1 hs
    obtain rfl : l' = l := List.inj_on_of_nodup_map hnodup hl' hl hid
    rw [htarget l' hl] at hmarked
    exact List.contains_iff_mem.1 hmarked

end Kinds

/-! ### Contradictory canonical records -/

section Repository

variable [Text.Unicode]

omit [MaintenanceDigests] in
theorem repositoryContradicts_opposes : Opposes repositoryContradicts := by
  constructor
  · intro a b
    unfold repositoryContradicts
    cases polaritySignature a.draft.body with
    | none => cases polaritySignature b.draft.body <;> rfl
    | some x =>
        cases polaritySignature b.draft.body with
        | none => rfl
        | some y =>
            have hcontext : sameClaimContext a b = sameClaimContext b a := by
              rw [Bool.eq_iff_iff]
              simp only [sameClaimContext, Bool.and_eq_true, decide_eq_true_eq]
              constructor
              · rintro ⟨⟨⟨⟨h1, h2⟩, h3⟩, h4⟩, h5⟩
                exact ⟨⟨⟨⟨h1.symm, h2.symm⟩, h3.symm⟩, h4.symm⟩, h5.symm⟩
              · rintro ⟨⟨⟨⟨h1, h2⟩, h3⟩, h4⟩, h5⟩
                exact ⟨⟨⟨⟨h1.symm, h2.symm⟩, h3.symm⟩, h4.symm⟩, h5.symm⟩
            have htemporal : recordsAreTemporallyRelated a b = recordsAreTemporallyRelated b a := by
              rw [Bool.eq_iff_iff]
              simp only [recordsAreTemporallyRelated, Bool.or_eq_true]
              constructor
              · rintro (((h | h) | h) | h)
                · exact Or.inl (Or.inl (Or.inr h))
                · exact Or.inl (Or.inl (Or.inl h))
                · exact Or.inr h
                · exact Or.inl (Or.inr h)
              · rintro (((h | h) | h) | h)
                · exact Or.inl (Or.inl (Or.inr h))
                · exact Or.inl (Or.inl (Or.inl h))
                · exact Or.inr h
                · exact Or.inl (Or.inr h)
            rw [Bool.eq_iff_iff]
            simp only [pathsOverlap_comm b.appliesTo a.appliesTo, hcontext, htemporal,
              Bool.and_eq_true, decide_eq_true_eq, eq_comm (a := x.1), ne_comm (a := x.2)]
  · intro a
    unfold repositoryContradicts
    cases polaritySignature a.draft.body with
    | none => rfl
    | some x => simp

omit [MaintenanceDigests] in
theorem repositoryNeighbors_eq (candidates : List RepositoryLoadedRecord) :
    repositoryNeighbors candidates = candidateNeighbors repositoryContradicts candidates := by
  funext i
  refine List.filter_congr fun j _ => ?_
  unfold repositoryAdjacent RelationGraph.adjacent
  cases candidates[i]? with
  | none => rfl
  | some a => cases candidates[j]? <;> rfl

/-- The record is current at the instant, and no fresher than it. -/
def CurrentCanonical (e : OffsetDateTime) (record : OkfRecordFile) : Prop :=
  ∃ d f, evaluateCurrentAssertion record.conceptId record.status record.draft.lane record.retention
      e [] = .ok d ∧ recordFreshness record = .ok f ∧ d.isCurrent = true ∧ f ≤ e

/-- The canonical records of a snapshot among which contradictions are looked for. -/
structure RepositoryEligible (source : List OkfRecordSnapshot) (e : OffsetDateTime)
    (record : OkfRecordFile) : Prop where
  stands : ∃ s ∈ source, s.record = record
  current : CurrentCanonical e record
  durable : isDurable record.draft.lane = true
  claim : claimBearingType record.draft.memoryType = true
  plain : containsConditionalOrTemporalLanguage record.draft.body = false
  polar : (polaritySignature record.draft.body).isSome = true

variable [CanonicalRevisions] {fingerprint : String} {source : List OkfRecordSnapshot}
  {request : MaintenancePlanRequest} {now e : OffsetDateTime} {plan : MaintenancePlan}
  {selected : List String} {loaded : List RepositoryLoadedRecord}

theorem member_repositoryCandidates
    (hloaded : ∀ l, l ∈ loaded ↔ ∃ s ∈ source, loadRecord selected e s = .ok l)
    (htotal : ∀ s ∈ source, ∃ l, loadRecord selected e s = .ok l) (record : OkfRecordFile) :
    RelationGraph.Member LoadedRecord.record (repositoryCandidates loaded) record ↔
      RepositoryEligible source e record := by
  constructor
  · rintro ⟨l, hl, rfl⟩
    obtain ⟨hl, heligible⟩ := List.mem_filter.1 hl
    obtain ⟨s, hs, hok⟩ := (hloaded l).1 hl
    obtain ⟨d, f, hd, hf, rfl⟩ := loadRecord_eq_ok hok
    simp only [contradictionEligible, Bool.and_eq_true, Bool.not_eq_true'] at heligible
    obtain ⟨⟨⟨⟨hcurrent, hdurable⟩, hclaim⟩, hplain⟩, hpolar⟩ := heligible
    obtain ⟨hcurrent, hfresh⟩ := Bool.and_eq_true_iff.1 hcurrent
    exact ⟨⟨s, hs, rfl⟩, ⟨d, f, hd, hf, hcurrent, of_decide_eq_true hfresh⟩, hdurable, hclaim, hplain,
      hpolar⟩
  · rintro ⟨⟨s, hs, rfl⟩, ⟨d, f, hd, hf, hcurrent, hfresh⟩, hdurable, hclaim, hplain, hpolar⟩
    obtain ⟨l, hok⟩ := htotal s hs
    refine ⟨l, List.mem_filter.2 ⟨(hloaded l).2 ⟨s, hs, hok⟩, ?_⟩, ?_⟩
    · obtain ⟨d', f', hd', hf', rfl⟩ := loadRecord_eq_ok hok
      cases hd.symm.trans hd'
      cases hf.symm.trans hf'
      have hnow : (repositorySnapshot selected s d (decide (f ≤ e))).currentAssertion = true :=
        Bool.and_eq_true_iff.2 ⟨hcurrent, decide_eq_true hfresh⟩
      simp only [contradictionEligible, hnow, hdurable, hclaim, hplain, hpolar, Bool.not_false,
        Bool.and_self]
    · obtain ⟨d', f', -, -, rfl⟩ := loadRecord_eq_ok hok
      rfl

omit [CanonicalRevisions] in
/-- The contradictions found over loaded canonical records. -/
theorem detectRepository_partition (hsorted : (loaded.map LoadedRecord.id).Pairwise (· < ·))
    (hid : ∀ l ∈ loaded, l.id = l.record.conceptId) {detected : List Detected}
    (h : detectRepository loaded selected e = .ok detected) :
    ContradictionPartition (RelationGraph.Member LoadedRecord.record (repositoryCandidates loaded))
      repositoryContradicts OkfRecordFile.conceptId (· ∈ selected)
      ((detected.map identityOf).filter (·.kind = .highConfidenceContradiction)) := by
  obtain ⟨contradictions, hcontradictions, h⟩ := bind_eq_ok.1 h
  obtain ⟨stale, hstale, h⟩ := bind_eq_ok.1 h
  obtain ⟨renewals, hrenewals, h⟩ := bind_eq_ok.1 h
  cases h
  obtain ⟨-, hcontradictions⟩ := check_bind_eq_ok.1 hcontradictions
  cases hcontradictions
  rw [contradictions_of_detectors
    (fun det (hdet : det ∈ detectExactDuplicates loaded selected _) => kind_of_duplicate hdet)
    (fun det hdet => kind_of_contradiction hdet) (fun det hdet => kind_of_stale hstale hdet)
    (fun det hdet => kind_of_expired hdet) (fun det hdet => kind_of_renewal hrenewals hdet),
    repositoryNeighbors_eq]
  have hsublist : (repositoryCandidates loaded).Sublist loaded := List.filter_sublist
  exact detectContradictions_partition repositoryContradicts_opposes
    (hsorted.sublist (hsublist.map _)) fun l hl => hid l (hsublist.subset hl)

/-- The contradiction findings of a repository plan. -/
theorem repository_partition (hplan : planMaintenance fingerprint source request now = .ok plan) :
    ∃ e, evaluationTime request now = .ok e ∧
      ContradictionPartition (RepositoryEligible source e) repositoryContradicts
        OkfRecordFile.conceptId (· ∈ plan.scope.targetRecordIds) (contradictionFindings plan) ∧
      (request.recordIds = [] → ∀ s ∈ source, s.record.conceptId ∈ plan.scope.targetRecordIds) := by
  unfold planMaintenance at hplan
  obtain ⟨-, hplan⟩ := check_bind_eq_ok.1 hplan
  obtain ⟨e, he, hplan⟩ := bind_eq_ok.1 hplan
  obtain ⟨eText, -, hplan⟩ := bind_eq_ok.1 hplan
  obtain ⟨⟨chosen, selected⟩, hselect, hplan⟩ := bind_eq_ok.1 hplan
  obtain ⟨maximum, -, hplan⟩ := bind_eq_ok.1 hplan
  obtain ⟨unsorted, hunsorted, hplan⟩ := bind_eq_ok.1 hplan
  obtain ⟨notAfter, -, hplan⟩ := bind_eq_ok.1 hplan
  obtain ⟨detected, hdetected, hplan⟩ := bind_eq_ok.1 hplan
  obtain ⟨-, hplan⟩ := check_bind_eq_ok.1 hplan
  obtain ⟨-, -, hcontents, -, hvalid⟩ := finishPlan_eq_ok hplan
  generalize hloaded : unsorted.insertionSort (fun a b => a.id ≤ b.id) = loaded at hdetected hcontents
  have hmem : ∀ l, l ∈ loaded ↔ ∃ s ∈ source, loadRecord selected e s = .ok l := by
    intro l
    rw [← hloaded, List.mem_insertionSort]
    exact mem_of_mapAll hunsorted l
  have htotal : ∀ s ∈ source, ∃ l, loadRecord selected e s = .ok l := by
    intro s hs
    obtain ⟨l, -, hok⟩ := exists_of_mapAll hunsorted hs
    exact ⟨l, hok⟩
  have hsorted : (loaded.map LoadedRecord.id).Pairwise (· < ·) := by
    obtain ⟨-, hvalid⟩ := check_bind_eq_ok.1 hvalid
    obtain ⟨hvalid, -⟩ := check_bind_eq_ok.1 hvalid
    have hrecords := records_sorted hvalid
    rw [hcontents, planContents, List.map_map] at hrecords
    exact hrecords
  have hshape : ∀ l ∈ loaded, ∃ s ∈ source, l.record = s.record ∧ l.id = s.record.conceptId ∧
      l.snapshot.target = selected.contains l.id := by
    intro l hl
    obtain ⟨s, hs, hok⟩ := (hmem l).1 hl
    obtain ⟨d, f, -, -, rfl⟩ := loadRecord_eq_ok hok
    exact ⟨s, hs, rfl, rfl, rfl⟩
  have hid : ∀ l ∈ loaded, l.id = l.record.conceptId := by
    intro l hl
    obtain ⟨s, -, hrecord, hid, -⟩ := hshape l hl
    rw [hrecord, hid]
  have htargets : ∀ l ∈ loaded, (l.id ∈ selected ↔ l.id ∈ plan.scope.targetRecordIds) := by
    intro l hl
    have hscope : plan.scope = _ := congrArg (·.scope) hcontents
    rw [hscope]
    exact mem_targets (fun ids => rfl) (hsorted.imp fun hlt => ne_of_lt hlt)
      (fun l hl => (hshape l hl).choose_spec.2.2.2) hl
  have hfindings : plan.findings = (attachActions detected).1 := congrArg (·.findings) hcontents
  refine ⟨e, he, ?_, ?_⟩
  · rw [contradictionFindings, hfindings]
    have hpartition := (detectRepository_partition hsorted hid hdetected).of_perm
      ((findings_perm detected).symm.filter _)
    have heligible := hpartition.of_eligible (member_repositoryCandidates hmem htotal)
    refine heligible.of_target fun record hrecord => ?_
    obtain ⟨s, hs, rfl⟩ := hrecord.stands
    obtain ⟨l, hok⟩ := htotal s hs
    have hl := (hmem l).2 ⟨s, hs, hok⟩
    obtain ⟨d, f, -, -, rfl⟩ := loadRecord_eq_ok hok
    exact htargets _ hl
  · intro hempty s hs
    obtain ⟨l, hok⟩ := htotal s hs
    have hl := (hmem l).2 ⟨s, hs, hok⟩
    obtain ⟨ids, hids, hselect⟩ := bind_eq_ok.1 hselect
    obtain ⟨-, hselect⟩ := check_bind_eq_ok.1 hselect
    rw [hempty] at hids
    obtain rfl : ids = [] := (Except.ok.inj hids).symm
    cases hselect
    have hselected : l.id ∈ SortedMap.sortedKeys (source.map (·.record.conceptId)) := by
      rw [SortedMap.mem_sortedKeys]
      obtain ⟨d, f, -, -, rfl⟩ := loadRecord_eq_ok hok
      exact List.mem_map_of_mem hs
    obtain ⟨d, f, -, -, rfl⟩ := loadRecord_eq_ok hok
    exact (htargets _ hl).1 hselected

end Repository

/-! ### Contradictory private records -/

section Private

variable [Text.Unicode]

/-- The contradiction of two private records, with the paths they apply to. -/
def privateContradicts (left right : PrivateRecord) : Bool :=
  contradicts (left.record, left.applicabilityPaths) (right.record, right.applicabilityPaths)

omit [MaintenanceDigests] in
theorem privateContradicts_opposes : Opposes privateContradicts where
  comm a b := contradicts_comm (a.record, a.applicabilityPaths) (b.record, b.applicabilityPaths)
  irrefl a := contradicts_irrefl (a.record, a.applicabilityPaths)

omit [MaintenanceDigests] in
theorem privateNeighbors_eq (candidates : List PrivateLoadedRecord) :
    neighbors (candidates.map graphInput) = candidateNeighbors privateContradicts candidates := by
  funext i
  unfold neighbors candidateNeighbors RelationGraph.neighbors
  rw [List.length_map]
  refine List.filter_congr fun j _ => ?_
  unfold adjacent RelationGraph.adjacent
  rw [List.getElem?_map, List.getElem?_map]
  cases candidates[i]? with
  | none => rfl
  | some a => cases candidates[j]? <;> rfl

/-- The private records of a snapshot among which contradictions are looked for. -/
def PrivateEligible (inputs : List PrivateMaintenanceRecordInput) (e : OffsetDateTime)
    (record : PrivateRecord) : Prop :=
  ∃ input ∈ inputs, input.toPrivateRecord = record ∧ input.currentAssertion = true ∧
    (∃ f, parseTimestamp record.record.updatedAt "maintenance record updated_at" = .ok f ∧ f ≤ e) ∧
    privateContradictionCandidate record.record = true

variable {fingerprint : String} {inputs : List PrivateMaintenanceRecordInput}
  {request : MaintenancePlanRequest} {now e : OffsetDateTime} {plan : MaintenancePlan}
  {authority : MaintenanceAuthoritySnapshot} {selected : List String}
  {loaded : List PrivateLoadedRecord}

theorem loadPrivateRecord_shape {input : PrivateMaintenanceRecordInput} {l : PrivateLoadedRecord}
    (h : loadPrivateRecord selected e input = .ok l) :
    ∃ f, parseTimestamp input.record.updatedAt "maintenance record updated_at" = .ok f ∧
      l = ⟨privateSnapshot selected input (decide (f ≤ e)), input.toPrivateRecord,
        privateDuplicateClaimDigest input.record input.applicabilityPaths,
        privateRenewalClaimDigest input.record, f, decide (f ≤ e)⟩ := by
  obtain ⟨-, h⟩ := check_bind_eq_ok.1 h
  obtain ⟨-, h⟩ := check_bind_eq_ok.1 h
  obtain ⟨-, h⟩ := check_bind_eq_ok.1 h
  obtain ⟨f, hf, h⟩ := bind_eq_ok.1 h
  cases h
  exact ⟨f, hf, rfl⟩

theorem member_contradictionRecords
    (hloaded : ∀ l, l ∈ loaded ↔ ∃ input ∈ inputs, loadPrivateRecord selected e input = .ok l)
    (htotal : ∀ input ∈ inputs, ∃ l, loadPrivateRecord selected e input = .ok l)
    (record : PrivateRecord) :
    RelationGraph.Member LoadedRecord.record (contradictionRecords loaded) record ↔
      PrivateEligible inputs e record := by
  constructor
  · rintro ⟨l, hl, rfl⟩
    obtain ⟨hl, heligible⟩ := List.mem_filter.1 hl
    obtain ⟨input, hinput, hok⟩ := (hloaded l).1 hl
    obtain ⟨f, hf, rfl⟩ := loadPrivateRecord_shape hok
    obtain ⟨hcurrent, hcandidate⟩ := Bool.and_eq_true_iff.1 heligible
    obtain ⟨hcurrent, hfresh⟩ := Bool.and_eq_true_iff.1 hcurrent
    exact ⟨input, hinput, rfl, hcurrent, ⟨f, hf, of_decide_eq_true hfresh⟩, hcandidate⟩
  · rintro ⟨input, hinput, rfl, hcurrent, ⟨f, hf, hfresh⟩, hcandidate⟩
    obtain ⟨l, hok⟩ := htotal input hinput
    have hl := (hloaded l).2 ⟨input, hinput, hok⟩
    obtain ⟨f', hf', rfl⟩ := loadPrivateRecord_shape hok
    cases hf.symm.trans hf'
    refine ⟨_, List.mem_filter.2 ⟨hl, Bool.and_eq_true_iff.2 ⟨?_, hcandidate⟩⟩, rfl⟩
    exact Bool.and_eq_true_iff.2 ⟨hcurrent, decide_eq_true hfresh⟩

/-- The contradictions found over loaded private records. -/
theorem detectPrivate_partition (hsorted : (loaded.map LoadedRecord.id).Pairwise (· < ·))
    (hid : ∀ l ∈ loaded, l.id = l.record.record.id) {automatic : Bool} {detected : List Detected}
    (h : detectPrivate loaded selected e automatic = .ok detected) :
    ContradictionPartition (RelationGraph.Member LoadedRecord.record (contradictionRecords loaded))
      privateContradicts (fun r => r.record.id) (· ∈ selected)
      ((detected.map identityOf).filter (·.kind = .highConfidenceContradiction)) := by
  obtain ⟨contradictions, stale, renewals, hcontradictions, hstale, hrenewals, rfl⟩ :=
    detectPrivate_eq_ok h
  obtain ⟨adjacency, hadjacency, hcontradictions⟩ := bind_eq_ok.1 hcontradictions
  obtain ⟨-, hadjacency⟩ := check_bind_eq_ok.1 hadjacency
  cases hadjacency
  cases hcontradictions
  rw [contradictions_of_detectors
    (fun det (hdet : det ∈ detectPrivateExactDuplicates loaded selected _) => kind_of_duplicate hdet)
    (fun det hdet => kind_of_contradiction hdet) (fun det hdet => kind_of_stale hstale hdet)
    (fun det hdet => kind_of_expired hdet) (fun det hdet => kind_of_renewal hrenewals hdet),
    privateNeighbors_eq]
  have hsublist : (contradictionRecords loaded).Sublist loaded := List.filter_sublist
  exact detectContradictions_partition privateContradicts_opposes
    (hsorted.sublist (hsublist.map _)) fun l hl => hid l (hsublist.subset hl)

/-- The contradiction findings of a private plan. -/
theorem private_partition
    (hplan : planPrivateMaintenanceInner fingerprint request inputs now authority = .ok plan) :
    ∃ e, evaluationTime request now = .ok e ∧
      ContradictionPartition (PrivateEligible inputs e) privateContradicts (fun r => r.record.id)
        (· ∈ plan.scope.targetRecordIds) (contradictionFindings plan) ∧
      (request.recordIds = [] → ∀ input ∈ inputs, input.record.id ∈ plan.scope.targetRecordIds) := by
  unfold planPrivateMaintenanceInner at hplan
  obtain ⟨-, hplan⟩ := check_bind_eq_ok.1 hplan
  obtain ⟨-, hplan⟩ := check_bind_eq_ok.1 hplan
  obtain ⟨-, hplan⟩ := check_bind_eq_ok.1 hplan
  obtain ⟨e, he, hplan⟩ := bind_eq_ok.1 hplan
  obtain ⟨eText, -, hplan⟩ := bind_eq_ok.1 hplan
  obtain ⟨-, hplan⟩ := check_bind_eq_ok.1 hplan
  obtain ⟨⟨chosen, selected⟩, hselect, hplan⟩ := bind_eq_ok.1 hplan
  obtain ⟨maximum, -, hplan⟩ := bind_eq_ok.1 hplan
  obtain ⟨loaded, hloaded, hplan⟩ := bind_eq_ok.1 hplan
  obtain ⟨notAfter, -, hplan⟩ := bind_eq_ok.1 hplan
  obtain ⟨detected, hdetected, hplan⟩ := bind_eq_ok.1 hplan
  obtain ⟨-, hplan⟩ := check_bind_eq_ok.1 hplan
  obtain ⟨-, -, hcontents, -, hvalid⟩ := finishPlan_eq_ok hplan
  have hmem : ∀ l, l ∈ loaded ↔ ∃ input ∈ inputs, loadPrivateRecord selected e input = .ok l := by
    intro l
    rw [mem_of_mapAll hloaded]
    simp only [List.mem_insertionSort]
  have htotal : ∀ input ∈ inputs, ∃ l, loadPrivateRecord selected e input = .ok l := by
    intro input hinput
    obtain ⟨l, -, hok⟩ := exists_of_mapAll hloaded ((List.mem_insertionSort _).2 hinput)
    exact ⟨l, hok⟩
  have hsorted : (loaded.map LoadedRecord.id).Pairwise (· < ·) := by
    obtain ⟨-, hvalid⟩ := check_bind_eq_ok.1 hvalid
    obtain ⟨hvalid, -⟩ := check_bind_eq_ok.1 hvalid
    have hrecords := records_sorted hvalid
    rw [hcontents, planContents, List.map_map] at hrecords
    exact hrecords
  have hshape : ∀ l ∈ loaded, l.id = l.record.record.id ∧
      l.snapshot.target = selected.contains l.id := by
    intro l hl
    obtain ⟨input, -, hok⟩ := (hmem l).1 hl
    obtain ⟨f, -, rfl⟩ := loadPrivateRecord_shape hok
    exact ⟨rfl, rfl⟩
  have htargets : ∀ l ∈ loaded, (l.id ∈ selected ↔ l.id ∈ plan.scope.targetRecordIds) := by
    intro l hl
    have hscope : plan.scope = _ := congrArg (·.scope) hcontents
    rw [hscope]
    exact mem_targets (fun ids => rfl) (hsorted.imp fun hlt => ne_of_lt hlt)
      (fun l hl => (hshape l hl).2) hl
  have hfindings : plan.findings = (attachActions detected).1 := congrArg (·.findings) hcontents
  refine ⟨e, he, ?_, ?_⟩
  · rw [contradictionFindings, hfindings]
    have hpartition := (detectPrivate_partition hsorted (fun l hl => (hshape l hl).1)
      hdetected).of_perm ((findings_perm detected).symm.filter _)
    have heligible := hpartition.of_eligible (member_contradictionRecords hmem htotal)
    refine heligible.of_target fun record hrecord => ?_
    obtain ⟨input, hinput, rfl, -⟩ := hrecord
    obtain ⟨l, hok⟩ := htotal input hinput
    have hl := (hmem l).2 ⟨input, hinput, hok⟩
    obtain ⟨f, -, rfl⟩ := loadPrivateRecord_shape hok
    exact htargets _ hl
  · intro hempty input hinput
    obtain ⟨l, hok⟩ := htotal input hinput
    have hl := (hmem l).2 ⟨input, hinput, hok⟩
    obtain ⟨ids, hids, hselect⟩ := bind_eq_ok.1 hselect
    obtain ⟨-, hselect⟩ := check_bind_eq_ok.1 hselect
    rw [hempty] at hids
    obtain rfl : ids = [] := (Except.ok.inj hids).symm
    cases hselect
    obtain ⟨f, -, rfl⟩ := loadPrivateRecord_shape hok
    exact (htargets _ hl).1 (List.mem_map_of_mem ((List.mem_insertionSort _).2 hinput))

end Private

/-! ### The findings of every plan -/

/-- **Contradiction findings partition.** The contradiction findings of a repository plan and of a
private plan are the components of the contradiction graph over the eligible records of the
snapshot that hold a target of the plan, and every record is a target when the request names none. -/
theorem contradiction_findings_partition [Text.Unicode] [CanonicalRevisions] :
    (∀ {fingerprint : String} {source : List OkfRecordSnapshot} {request : MaintenancePlanRequest}
        {now : OffsetDateTime} {plan : MaintenancePlan},
      planMaintenance fingerprint source request now = .ok plan →
      ∃ e, evaluationTime request now = .ok e ∧
        ContradictionPartition (RepositoryEligible source e) repositoryContradicts
          OkfRecordFile.conceptId (· ∈ plan.scope.targetRecordIds) (contradictionFindings plan) ∧
        (request.recordIds = [] →
          ∀ s ∈ source, s.record.conceptId ∈ plan.scope.targetRecordIds)) ∧
    ∀ {fingerprint : String} {inputs : List PrivateMaintenanceRecordInput}
        {request : MaintenancePlanRequest} {now : OffsetDateTime}
        {authority : MaintenanceAuthoritySnapshot} {plan : MaintenancePlan},
      planPrivateMaintenanceInner fingerprint request inputs now authority = .ok plan →
      ∃ e, evaluationTime request now = .ok e ∧
        ContradictionPartition (PrivateEligible inputs e) privateContradicts (fun r => r.record.id)
          (· ∈ plan.scope.targetRecordIds) (contradictionFindings plan) ∧
        (request.recordIds = [] →
          ∀ input ∈ inputs, input.record.id ∈ plan.scope.targetRecordIds) :=
  ⟨repository_partition, private_partition⟩

end Plans

/-! ### Retries, enabled and not -/

/-- Digests that tell apart the claims below. -/
@[reducible] def bodyDigests : MaintenanceDigests :=
  let digest (body : String) : String :=
    "blake3:000000000000000000000000000000000000000000000000000000000000000" ++
      if body = "Retries are enabled" then "1" else if body = "Retries are not enabled" then "2"
      else "3"
  { plainDigests with
    duplicateClaim := fun c => digest c.body
    repositoryDuplicateClaim := fun c => digest c.1.body }

/-- A canonical decision with a body. -/
def canonicalClaim (id body : String) : OkfRecordSnapshot :=
  let s := canonicalDecision id "2026-07-14T10:00:00Z"
  { s with record := { s.record with draft := { s.record.draft with body := body } } }

/-- Two contradictory decisions and a third one. -/
def retryClaims : List OkfRecordSnapshot :=
  [canonicalClaim "negative" "Retries are not enabled", canonicalClaim "other" "Limits are fixed",
    canonicalClaim "positive" "Retries are enabled"]

def planRetryClaims (recordIds : List String) : Fallible MaintenancePlan :=
  @planMaintenance Text.Unicode.ascii bodyDigests plainRevisions
    "blake3:0000000000000000000000000000000000000000000000000000000000000000" retryClaims
    ⟨requestSchema, none, recordIds⟩ afternoon

/-- A private decision with a body. -/
def privateClaim (id body : String) : PrivateMaintenanceRecordInput :=
  ⟨⟨{ PrivateLifecycle.plainDecision id with body := body }, [], none⟩, "00000000000000000000000000000000", true,
    ⟨.current, none, .noAgeLimit⟩⟩

def privateRetryClaims : List PrivateMaintenanceRecordInput :=
  [privateClaim "positive" "Retries are enabled", privateClaim "negative" "Retries are not enabled"]

def planPrivateRetryClaims : Fallible MaintenancePlan :=
  @planPrivateMaintenanceInner Text.Unicode.ascii bodyDigests
    "blake3:0000000000000000000000000000000000000000000000000000000000000000"
    ⟨requestSchema, none, []⟩ privateRetryClaims afternoon
    ⟨.reportOnly, "blake3:0000000000000000000000000000000000000000000000000000000000000000"⟩

/-- Both plans find the one pair there is. -/
theorem contradictions_of_retryClaims :
    (∃ plan, planRetryClaims [] = .ok plan ∧
      edgeEnds (contradictionFindings plan) = [( "negative", "positive")] ∧
      (∃ e, @ContradictionPartition OkfRecordFile
        (@RepositoryEligible Text.Unicode.ascii retryClaims e)
        (@repositoryContradicts Text.Unicode.ascii) OkfRecordFile.conceptId
        (· ∈ plan.scope.targetRecordIds) (contradictionFindings plan))) ∧
    ∃ plan, planPrivateRetryClaims = .ok plan ∧
      edgeEnds (contradictionFindings plan) = [( "negative", "positive")] ∧
      ∃ e, @ContradictionPartition PrivateRecord
        (@PrivateEligible Text.Unicode.ascii privateRetryClaims e)
        (@privateContradicts Text.Unicode.ascii) (fun r => r.record.id)
        (· ∈ plan.scope.targetRecordIds) (contradictionFindings plan) := by
  constructor
  · obtain ⟨plan, hplan, hedges⟩ := ok_of_any (show (planRetryClaims []).toOption.any
      (fun plan => edgeEnds (contradictionFindings plan) = [( "negative", "positive")]) = true by
        decide +kernel)
    obtain ⟨e, -, hpartition, -⟩ := (@contradiction_findings_partition bodyDigests
      Text.Unicode.ascii plainRevisions).1 hplan
    exact ⟨plan, hplan, of_decide_eq_true hedges, e, hpartition⟩
  · obtain ⟨plan, hplan, hedges⟩ := ok_of_any (show planPrivateRetryClaims.toOption.any
      (fun plan => edgeEnds (contradictionFindings plan) = [( "negative", "positive")]) = true by
        decide +kernel)
    obtain ⟨e, -, hpartition, -⟩ := (@contradiction_findings_partition bodyDigests
      Text.Unicode.ascii plainRevisions).2 hplan
    exact ⟨plan, hplan, of_decide_eq_true hedges, e, hpartition⟩

/-- A plan for the third decision alone does not report the contradiction of the other two. -/
theorem contradiction_outside_targets :
    ∃ plan, planRetryClaims [ "other"] = .ok plan ∧ contradictionFindings plan = [] ∧
      ∃ a b, @RepositoryEligible Text.Unicode.ascii retryClaims afternoon a ∧
        @RepositoryEligible Text.Unicode.ascii retryClaims afternoon b ∧
        @repositoryContradicts Text.Unicode.ascii a b = true := by
  obtain ⟨plan, hplan, hempty⟩ := ok_of_any (show (planRetryClaims [ "other"]).toOption.any
    (fun plan => contradictionFindings plan = []) = true by decide +kernel)
  have hcurrent : ∀ s ∈ retryClaims, CurrentCanonical afternoon s.record := by
    intro s hs
    have hall : retryClaims.all (fun s => (evaluateCurrentAssertion s.record.conceptId
        s.record.status s.record.draft.lane s.record.retention afternoon []).toOption.any
          (·.isCurrent) && (recordFreshness s.record).toOption.any (· ≤ afternoon)) = true := by
      decide +kernel
    obtain ⟨hdecision, hfresh⟩ := Bool.and_eq_true_iff.1 (List.all_eq_true.1 hall s hs)
    obtain ⟨d, hd, hnow⟩ := ok_of_any hdecision
    obtain ⟨f, hf, hle⟩ := ok_of_any hfresh
    exact ⟨d, f, hd, hf, hnow, of_decide_eq_true hle⟩
  have hfirst : canonicalClaim "negative" "Retries are not enabled" ∈ retryClaims := by
    simp [retryClaims]
  have hlast : canonicalClaim "positive" "Retries are enabled" ∈ retryClaims := by
    simp [retryClaims]
  exact ⟨plan, hplan, of_decide_eq_true hempty, _, _,
    @RepositoryEligible.mk Text.Unicode.ascii _ _ _ ⟨_, hfirst, rfl⟩ (hcurrent _ hfirst) rfl rfl
      (by decide +kernel) (by decide +kernel),
    @RepositoryEligible.mk Text.Unicode.ascii _ _ _ ⟨_, hlast, rfl⟩ (hcurrent _ hlast) rfl rfl
      (by decide +kernel) (by decide +kernel), by decide +kernel⟩

end Maintenance
end Memzoi
