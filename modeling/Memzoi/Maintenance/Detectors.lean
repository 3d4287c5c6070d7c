/-
# The detectors and the end of planning

Source: `maintenance.rs` (`detect_*` and `detect_private_*`, the loops of
`plan_maintenance_inner` and `plan_private_maintenance_inner` that both
planners share, `new_finding`, `new_action`).

The source has every detector twice, once over canonical records and once over
private ones. The two copies differ in what a finding's evidence digests and in
the class of the action it proposes, so a detector here takes these as
arguments; the planners apply them. The output limits are checked on the whole
lists instead of at every push, and the action ids of a finding are filled in
once, at the end, where the source overwrites what its detectors wrote.
-/

import Memzoi.Maintenance.Plan

namespace Memzoi
namespace Maintenance

open Fallible
open Retention (RetentionState RetentionReason RetentionDecision CurrentAssertionDecision
  formatTimestamp)

/-- What the detectors read of a record, whatever store it comes from. -/
class MaintenanceRecord (ρ : Type) where
  lane : ρ → MemoryLane
  memoryType : ρ → MemoryType
  origin : ρ → OriginDescriptor
  lineage : ρ → Option RecordLineage
  capture : ρ → Option CaptureProvenance

structure LoadedRecord (ρ : Type) where
  snapshot : MaintenanceRecordSnapshot
  record : ρ
  duplicateClaimDigest : String
  renewalClaimDigest : String
  freshness : OffsetDateTime
  eligibleAtEvaluation : Bool

/-- What a detector hands on: a finding with the actions it proposes. -/
structure Detected where
  finding : MaintenanceFinding
  derivedActions : List MaintenanceAction
  otherActions : List MaintenanceAction

def isDurable (lane : MemoryLane) : Bool := lane = .semantic || lane = .procedural

/-- Keep the earlier of two ends, when the second lies ahead. -/
def earlierEnd (evaluatedAt notAfter candidate : OffsetDateTime) : OffsetDateTime :=
  if evaluatedAt < candidate ∧ candidate < notAfter then candidate else notAfter

variable {ρ : Type} [MaintenanceRecord ρ] [MaintenanceDigests]

namespace LoadedRecord

def id (r : LoadedRecord ρ) : String := r.snapshot.recordId

def versioned (r : LoadedRecord ρ) : String × MaintenanceRecordVersion :=
  (r.snapshot.recordId, r.snapshot.version)

/-- A durable claim that is current: the records that can turn stale. -/
def agesOut (r : LoadedRecord ρ) : Bool :=
  r.eligibleAtEvaluation && r.snapshot.currentAssertion && r.snapshot.status = .active &&
    isDurable (MaintenanceRecord.lane r.record)

/-- `renewal_eligible`. -/
def renewalEligible (r : LoadedRecord ρ) : Bool :=
  r.eligibleAtEvaluation && isDurable (MaintenanceRecord.lane r.record) &&
    claimBearingType (MaintenanceRecord.memoryType r.record)

/-- When the record turns stale, if it can. -/
def staleEnd (r : LoadedRecord ρ) : Fallible (Option OffsetDateTime) :=
  if r.agesOut then do
    let at_ ← staleAt r.freshness
    .ok (some at_)
  else .ok none

/-- The instants after which this record may be judged in another way, as the planner sees them. -/
def ends (r : LoadedRecord ρ) : Fallible (List OffsetDateTime) := do
  let boundary ← parseOptional r.snapshot.retentionBoundary "maintenance retention boundary"
  let stale ← r.staleEnd
  .ok ((if r.eligibleAtEvaluation then boundary.toList else []) ++ stale.toList)

end LoadedRecord

/-- The end of validity: the window of the policy, cut at every end that lies ahead. -/
def notAfterOf (evaluatedAt maximum : OffsetDateTime) (loaded : List (LoadedRecord ρ)) :
    Fallible OffsetDateTime := do
  let ends ← gatherAll LoadedRecord.ends loaded
  .ok (ends.foldl (earlierEnd evaluatedAt) maximum)

/-! ### Findings and actions -/

/-- `finding_comparison_digest`: the versions of a group, in order of id. -/
def findingComparisonDigest (group : List (LoadedRecord ρ)) : String :=
  MaintenanceDigests.findingComparisonSet
    ((group.map LoadedRecord.versioned).insertionSort (fun a b => a.1 ≤ b.1))

def privateArtifactDigest (label : String) (group : List (LoadedRecord ρ)) : String :=
  MaintenanceDigests.privateArtifactEvidence
    (label, (group.map LoadedRecord.versioned).insertionSort (fun a b => a.1 ≤ b.1))

def newFinding (kind : MaintenanceFindingKind) (group : List (LoadedRecord ρ))
    (evidence : List MaintenanceEvidence) (confidence : MaintenanceConfidence)
    (conflictEdges : List MaintenanceConflictEdge) : MaintenanceFinding :=
  let identity : FindingIdentity :=
    ⟨kind, SortedMap.sortedKeys (group.map LoadedRecord.id), findingComparisonDigest group, evidence,
      confidence, conflictEdges⟩
  ⟨identity, MaintenanceDigests.finding identity, []⟩

def newAction (class_ : MaintenanceActionClass) (finding : MaintenanceFinding)
    (keeper predecessor evidence : Option String) (comparisonSetDigest : String)
    (group : List (LoadedRecord ρ)) : MaintenanceAction :=
  let identity : ActionIdentity :=
    ⟨class_, finding.findingId, SortedMap.sortedKeys (group.map LoadedRecord.id), keeper, predecessor,
      evidence, ⟨comparisonSetDigest, .ofList (group.map LoadedRecord.versioned)⟩⟩
  ⟨identity, MaintenanceDigests.action identity⟩

/-- A finding concerns the selection when one of its records is selected. -/
def touches (selected : List String) (group : List (LoadedRecord ρ)) : Bool :=
  group.any fun r => selected.contains r.id

/-! ### Exact duplicates -/

/-- Current records with one claim digest, by digest. -/
def duplicateGroups (loaded : List (LoadedRecord ρ)) : List (List (LoadedRecord ρ)) :=
  let current := loaded.filter (·.snapshot.currentAssertion)
  ((SortedMap.sortedKeys (current.map (·.duplicateClaimDigest))).map fun digest =>
      current.filter (·.duplicateClaimDigest = digest)).filter fun group => 1 < group.length

/-- `detect_exact_duplicates`. -/
def detectExactDuplicatesWith (loaded : List (LoadedRecord ρ)) (selected : List String)
    (evidenceDigest : List (LoadedRecord ρ) → String)
    (action : MaintenanceFinding → List (LoadedRecord ρ) → MaintenanceAction) : List Detected :=
  ((duplicateGroups loaded).filter (touches selected)).map fun group =>
    let finding := newFinding .exactDuplicate group
      [⟨"exact_claim_projection", evidenceDigest group, none⟩] .exact []
    ⟨finding, [], [action finding group]⟩

/-! ### Contradictions -/

/-- The records at the positions of a component. -/
def atPositions (candidates : List (LoadedRecord ρ)) (component : List Nat) :
    List (LoadedRecord ρ) :=
  component.filterMap fun i => candidates[i]?

/-- The edge between two records, the lesser id on the left. -/
def conflictEdge (digest : LoadedRecord ρ → LoadedRecord ρ → String) (a b : LoadedRecord ρ) :
    MaintenanceConflictEdge :=
  if a.id < b.id then ⟨a.id, b.id, digest a b, conflictReasonCode⟩
  else ⟨b.id, a.id, digest a b, conflictReasonCode⟩

/-- The pairs of adjacent positions of a component, the lesser position first. -/
def edgePairs (adjacency : Nat → List Nat) (component : List Nat) : List (Nat × Nat) :=
  component.flatMap fun i =>
    ((adjacency i).filter fun j => i < j && component.contains j).map fun j => (i, j)

def conflictEdges (digest : LoadedRecord ρ → LoadedRecord ρ → String)
    (candidates : List (LoadedRecord ρ)) (adjacency : Nat → List Nat) (component : List Nat) :
    List MaintenanceConflictEdge :=
  ((edgePairs adjacency component).filterMap fun pair =>
    match candidates[pair.1]?, candidates[pair.2]? with
    | some a, some b => some (conflictEdge digest a b)
    | _, _ => none).insertionSort (fun a b => a = b ∨ a.lt b)

/-- The components of the candidates, in order of their first position: the neighbours that are
not visited are pushed, and the least one is popped first. -/
def contradictionComponents (adjacency : Nat → List Nat) (size : Nat) : List (List Nat) :=
  Explore.components adjacency (fun visited i => (adjacency i).filter (· ∉ visited)) size
    (List.range size) []

/-- `detect_contradictions` from the adjacency of its candidates. -/
def detectContradictionsWith (candidates : List (LoadedRecord ρ)) (adjacency : Nat → List Nat)
    (selected : List String) (evidenceDigest : List Nat → String)
    (edgeDigest : LoadedRecord ρ → LoadedRecord ρ → String)
    (actions : MaintenanceFinding → List (LoadedRecord ρ) →
      List MaintenanceAction × List MaintenanceAction) : List Detected :=
  ((contradictionComponents adjacency candidates.length).filter fun component =>
      touches selected (atPositions candidates component)).map fun component =>
    let group := atPositions candidates component
    let finding := newFinding .highConfidenceContradiction group
      [⟨"allowlisted_symmetric_polarity", evidenceDigest component, none⟩] .high
      (conflictEdges edgeDigest candidates adjacency component)
    ⟨finding, (actions finding group).1, (actions finding group).2⟩

/-! ### Staleness and expiry -/

def detectStaleness (loaded : List (LoadedRecord ρ)) (selected : List String)
    (evaluatedAt : OffsetDateTime) : Fallible (List Detected) :=
  gatherAll (fun r => do
      let stale ← staleAt r.freshness
      if evaluatedAt < stale then .ok []
      else do
        let freshness ← formatTimestamp r.freshness
        let boundary ← formatTimestamp stale
        .ok [⟨newFinding .stale [r] [⟨"freshness_age_threshold", MaintenanceDigests.freshness freshness,
          some boundary⟩] .reportOnly [], [], []⟩])
    (loaded.filter fun r => r.snapshot.currentAssertion && r.snapshot.status = .active &&
      isDurable (MaintenanceRecord.lane r.record) && selected.contains r.id)

/-- `format!("{:?}").to_lowercase()` of a reason. -/
def reasonText : RetentionReason → String
  | .noAgeLimit => "noagelimit"
  | .explicitExpiry => "explicitexpiry"
  | .sessionClosed => "sessionclosed"
  | .sessionInactivityLease => "sessioninactivitylease"
  | .sessionMaximumAge => "sessionmaximumage"
  | .episodicOrdinaryWindow => "episodicordinarywindow"
  | .episodicAuthorizedExtension => "episodicauthorizedextension"

def expiryEvidence (s : MaintenanceRecordSnapshot) : List MaintenanceEvidence :=
  (if s.status = .expired then [⟨"lifecycle_expired", s.temporalDigest, none⟩] else []) ++
    (if s.retentionState = .queryOnly then
      [⟨"retention_" ++ reasonText s.retentionReason, s.temporalDigest, s.retentionBoundary⟩]
    else [])

def detectExpiry (loaded : List (LoadedRecord ρ)) (selected : List String) : List Detected :=
  (loaded.filter fun r => r.eligibleAtEvaluation &&
      (r.snapshot.status = .expired ||
        (r.snapshot.status = .active && r.snapshot.retentionState = .queryOnly)) &&
      selected.contains r.id).map fun r =>
    ⟨newFinding .expired [r] (expiryEvidence r.snapshot) .exact [], [], []⟩

/-! ### Renewals -/

def renewalPredecessors (loaded : List (LoadedRecord ρ)) : List (LoadedRecord ρ) :=
  loaded.filter fun r => r.renewalEligible &&
    (r.snapshot.status = .active || r.snapshot.status = .expired) &&
    r.snapshot.retentionState = .queryOnly && r.snapshot.retentionBoundary.isSome

/-- The records that could renew a predecessor: current ones that make the same claim. -/
def renewalPartners (loaded : List (LoadedRecord ρ)) (predecessor : LoadedRecord ρ) :
    List (LoadedRecord ρ) :=
  loaded.filter fun r => r.renewalEligible && r.snapshot.currentAssertion &&
    r.renewalClaimDigest = predecessor.renewalClaimDigest && r.id ≠ predecessor.id

/-- The partner renews the predecessor already, or shares its origin. -/
def alreadyBound (predecessor evidence : LoadedRecord ρ) : Bool :=
  MaintenanceRecord.origin evidence.record = MaintenanceRecord.origin predecessor.record ||
    (MaintenanceRecord.lineage evidence.record).any fun lineage =>
      lineage.kind = .renewal && lineage.predecessorId = predecessor.id

/-- The digest of the predecessor's own capture evidence is this one. -/
def sameEvidence (predecessor : LoadedRecord ρ) (digest : String) : Bool :=
  (MaintenanceRecord.capture predecessor.record).any fun prior =>
    MaintenanceDigests.captureEvidence prior.evidence = digest

/-- Whether a partner renews the predecessor, by the capture the partner came from. -/
def renewsWith (predecessor : LoadedRecord ρ) (capture : CaptureProvenance)
    (boundary evaluatedAt : OffsetDateTime) : Fallible Bool :=
  if capture.reviewOutcome ≠ .accept ∧ capture.reviewOutcome ≠ .edit then .ok false
  else do
    let reviewedAt ← parseTimestamp capture.reviewedAt "renewal reviewed_at"
    .ok (boundary < reviewedAt && reviewedAt ≤ evaluatedAt &&
      !sameEvidence predecessor (MaintenanceDigests.captureEvidence capture.evidence))

/-- One turn of the inner loop: the pair is kept, or passed over. -/
def renewalPair (selected : List String) (predecessor : LoadedRecord ρ)
    (boundary evaluatedAt : OffsetDateTime) (evidence : LoadedRecord ρ) : Fallible Bool :=
  if touches selected [predecessor, evidence] = false ∨ alreadyBound predecessor evidence = true then
    .ok false
  else
    match MaintenanceRecord.capture evidence.record with
    | none => .ok false
    | some capture => renewsWith predecessor capture boundary evaluatedAt

/-- `detect_renewals`. -/
def detectRenewalsWith (loaded : List (LoadedRecord ρ)) (selected : List String)
    (evaluatedAt : OffsetDateTime)
    (evidenceDigest : LoadedRecord ρ → LoadedRecord ρ → String)
    (action : MaintenanceFinding → LoadedRecord ρ → LoadedRecord ρ → MaintenanceAction) :
    Fallible (List Detected) := do
  let predecessors := renewalPredecessors loaded
  ensure ((predecessors.map fun p => (renewalPartners loaded p).length).sum ≤ maxPairComparisons)
    "maintenance planning exceeds the pair-comparison work limit"
  gatherAll (fun predecessor => do
      let boundary ← parseTimestamp (predecessor.snapshot.retentionBoundary.getD "")
        "renewal predecessor boundary"
      let kept ← keepAll (renewalPair selected predecessor boundary evaluatedAt)
        (renewalPartners loaded predecessor)
      mapAll (fun evidence => do
        let boundaryText ← formatTimestamp boundary
        let finding := newFinding .renewalCandidate [predecessor, evidence]
          [⟨"fresh_accepted_capture_evidence", evidenceDigest predecessor evidence,
            some boundaryText⟩] .high []
        .ok ⟨finding, [], [action finding predecessor evidence]⟩) kept)
    predecessors

/-! ### The end of planning -/

/-- The findings in order of id, each with its action ids, and the two lists of actions. -/
def attachActions (detected : List Detected) :
    List MaintenanceFinding × List MaintenanceAction × List MaintenanceAction :=
  let derived := (detected.flatMap (·.derivedActions)).insertionSort (·.actionId ≤ ·.actionId)
  let other := (detected.flatMap (·.otherActions)).insertionSort (·.actionId ≤ ·.actionId)
  let findings := (detected.map (·.finding)).insertionSort (·.findingId ≤ ·.findingId)
  (findings.map fun f =>
      { f with proposedActionIds := proposedActionIds (derived ++ other) f.findingId },
    derived, other)

def futureDiagnostics (loaded : List (LoadedRecord ρ)) : List MaintenanceDiagnostic :=
  let count := loaded.countP (fun r => !r.eligibleAtEvaluation)
  if 0 < count then
    [⟨"records_after_evaluation_excluded", count, MaintenanceDigests.futureRecordCount count⟩]
  else []

/-- What the two planners put together from what they loaded and detected. -/
def planContents (scope : List String → MaintenanceScope) (authority : MaintenanceAuthoritySnapshot)
    (loaded : List (LoadedRecord ρ)) (findings : List MaintenanceFinding)
    (actionGroups : MaintenanceActionGroups) : PlanContents :=
  let records := loaded.map (·.snapshot)
  let scope := scope ((records.filter (·.target)).map (·.recordId))
  { scope := scope
    authority := authority
    records := records
    comparisonSetDigest := comparisonDigest records
    findings := findings
    actionGroups := actionGroups
    targetVersions := versionsOf (records.filter (·.target))
    summary := summarize records findings actionGroups
    diagnostics := ⟨scope.snapshotCode, records.length, comparisonDigest records⟩ ::
      futureDiagnostics loaded }

/-- The artifact is named, checked and measured. -/
def finishPlan (contents : PlanContents) (request : MaintenancePlanRequest)
    (evaluatedAt notAfter : OffsetDateTime) : Fallible MaintenancePlan := do
  let evaluatedAtText ← formatTimestamp evaluatedAt
  let notAfterText ← formatTimestamp notAfter
  let identity : PlanIdentity := ⟨contents, request, evaluatedAtText, notAfterText⟩
  let plan : MaintenancePlan := ⟨identity, MaintenanceDigests.plan identity⟩
  plan.validate
  ensurePlanSize plan
  .ok plan

def ensureLimits (detected : List Detected) : Fallible Unit := do
  ensure (detected.length ≤ maxFindings)
    "maintenance planning exceeds the finding output limit"
  ensure ((detected.flatMap (·.derivedActions)).length ≤ maxActionCandidates ∧
      (detected.flatMap (·.otherActions)).length ≤ maxActionCandidates)
    "maintenance planning exceeds the action-candidate output limit"

/-- The request as a plan holds it, and the ids it selects. -/
def selectRecords (request : MaintenancePlanRequest) (evaluatedAtText : String)
    (availableIds : List String) : Fallible (MaintenancePlanRequest × List String) := do
  let recordIds ← normalizeRecordIds request.recordIds
  checkAll (fun id => ensure (availableIds.contains id = true)
    s!"maintenance target record {id} does not exist") recordIds
  .ok ({ request with evaluatedAt := some evaluatedAtText, recordIds := recordIds },
    if recordIds = [] then availableIds else recordIds)

/-- The instant a request is evaluated at. -/
def evaluationTime (request : MaintenancePlanRequest) (fallbackNow : OffsetDateTime) :
    Fallible OffsetDateTime :=
  match request.evaluatedAt with
  | some value => parseTimestamp value "maintenance evaluated_at"
  | none => .ok fallbackNow

end Maintenance
end Memzoi
