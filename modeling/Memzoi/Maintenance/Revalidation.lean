/-
# Plan revalidation

Source: `maintenance.rs` (`MaintenancePlan::validate`,
`revalidate_maintenance_plan_at`, `maintenance_policy`,
`maintenance_detectors`).

A plan is kept by its caller and handed back later, perhaps to another build,
so here the artifact carries what the planner writes into it from its own
constants: the policy and the detector snapshots. Revalidation checks the
artifact, holds the clock, the constants and the repository against it, plans
the present snapshot at the instant the plan was made at, and names what
differs. Reading the snapshot is a computation that may fail; the source reads
it inside the planner, after the checks of the request, which a checked plan
passes.
-/

import Memzoi.Maintenance.PlanValidity

namespace Memzoi
namespace Maintenance

open Fallible
open Retention (formatTimestamp)

/-! ### The artifact -/

structure MaintenancePolicySnapshot where
  policyVersion : String
  maximumValiditySeconds : Nat
  staleAfterSeconds : Nat
  policyDigest : String
  deriving DecidableEq, Repr

structure MaintenanceDetectorSnapshot where
  kind : MaintenanceFindingKind
  version : String
  configurationDigest : String
  deriving DecidableEq, Repr

/-- What the identity of an artifact covers. -/
structure ArtifactIdentity extends PlanIdentity where
  policy : MaintenancePolicySnapshot
  detectors : List MaintenanceDetectorSnapshot
  deriving DecidableEq

structure PlanArtifact extends ArtifactIdentity where
  planId : String
  deriving DecidableEq

/-- The identities of the two snapshots. -/
class SnapshotDigests where
  policy : String × Nat × Nat → String
  detector : MaintenanceFindingKind × String → String

def maintenancePolicyVersion : String := "maintenance-policy/1"

def maintenancePolicyDigest [SnapshotDigests] (policy : MaintenancePolicySnapshot) : String :=
  SnapshotDigests.policy (policy.policyVersion, policy.maximumValiditySeconds,
    policy.staleAfterSeconds)

def maintenancePolicy [SnapshotDigests] : MaintenancePolicySnapshot :=
  let policy : MaintenancePolicySnapshot :=
    ⟨maintenancePolicyVersion, maxValidityHours.toNat * 60 * 60,
      staleAfterDays.toNat * 24 * 60 * 60, ""⟩
  { policy with policyDigest := maintenancePolicyDigest policy }

def detectorVersions : List (MaintenanceFindingKind × String) :=
  [(.exactDuplicate, "exact-duplicate/1"),
    (.highConfidenceContradiction, "lexical-contradiction/1"),
    (.stale, "age-staleness-180d/1"),
    (.expired, "retention-expiry/1"),
    (.renewalCandidate, "capture-renewal/1")]

def maintenanceDetectors [SnapshotDigests] : List MaintenanceDetectorSnapshot :=
  detectorVersions.map fun (kind, version) =>
    ⟨kind, version, SnapshotDigests.detector (kind, version)⟩

/-- The identity of an artifact; the planner names its plans with its own snapshots in them. -/
class ArtifactDigests extends SnapshotDigests, MaintenanceDigests where
  artifact : ArtifactIdentity → String
  plan_eq (identity : PlanIdentity) :
    plan identity = artifact ⟨identity, maintenancePolicy, maintenanceDetectors⟩

section Artifact

variable [ArtifactDigests]

/-- A plan as the planner hands it out. -/
def MaintenancePlan.artifact (plan : MaintenancePlan) : PlanArtifact :=
  ⟨⟨plan.toPlanIdentity, maintenancePolicy, maintenanceDetectors⟩, plan.planId⟩

def validateDetector (detector : MaintenanceDetectorSnapshot) : Fallible Unit := do
  ensure (Text.trim detector.version ≠ "" ∧ detector.version = Text.trim detector.version)
    "maintenance detector version must be canonical and non-empty"
  ensure (detector.configurationDigest = SnapshotDigests.detector (detector.kind, detector.version))
    "maintenance detector configuration digest does not match its snapshot"

def MaintenanceScope.isRepository : MaintenanceScope → Bool
  | repository _ _ => true
  | privateRuntime _ _ => false

/-- `MaintenancePlan::validate` of an artifact of any build. -/
def PlanArtifact.validate (plan : PlanArtifact) : Fallible Unit := do
  ensure (plan.policy.policyVersion = maintenancePolicyVersion)
    "maintenance policy snapshot does not use the current policy"
  plan.toPlanIdentity.validateTimes
  ensure (plan.scope.isRepository = false ∨ plan.authority.mode = .reportOnly)
    "repository maintenance must remain report-only"
  let normalized ← normalizeRecordIds plan.request.recordIds
  ensure (plan.request.recordIds = normalized)
    "maintenance request selectors must use canonical sorted form"
  plan.toPlanContents.validate plan.request.recordIds
  ensure (plan.diagnostics.any fun diagnostic => diagnostic =
      ⟨plan.scope.snapshotCode, plan.records.length, plan.comparisonSetDigest⟩)
    "maintenance repository-snapshot diagnostic does not match the plan"
  ensure (plan.policy.policyDigest = maintenancePolicyDigest plan.policy)
    "maintenance policy digest does not match the policy snapshot"
  ensure (0 < plan.policy.maximumValiditySeconds ∧ 0 < plan.policy.staleAfterSeconds)
    "maintenance policy snapshot does not use the current policy"
  ensure ((plan.detectors.map (·.kind.ctorIdx)).Pairwise (· < ·))
    "maintenance detector snapshots must be sorted and unique"
  checkAll validateDetector plan.detectors
  ensure (plan.planId = ArtifactDigests.artifact plan.toArtifactIdentity)
    "maintenance plan identity does not match its semantic contents"

/-! ### Revalidation -/

inductive MaintenanceStaleReason where
  | notYetValid | planExpired | repositoryChanged | targetChanged | comparisonNeighborhoodChanged
  | detectorChanged | policyChanged | grantChanged | temporalBoundaryChanged | planChanged
  | sourceChanged
  deriving DecidableEq, Repr

inductive MaintenanceRevalidation where
  | current (planId : String)
  | stale (planId : String) (reasons : List MaintenanceStaleReason)
  deriving DecidableEq, Repr

/-- The reasons whose flag is raised. -/
def raised (flags : List (Bool × MaintenanceStaleReason)) : List MaintenanceStaleReason :=
  (flags.filter Prod.fst).map Prod.snd

/-- What the clock, the constants of the build and the repository say about a plan. -/
def snapshotReasons (currentRepository repositoryFingerprint : String) (plan : PlanArtifact)
    (evaluatedAt notAfter now : OffsetDateTime) : List MaintenanceStaleReason :=
  raised [(now < evaluatedAt, .notYetValid),
    (notAfter ≤ now, .planExpired),
    (plan.policy ≠ maintenancePolicy, .policyChanged),
    (plan.detectors ≠ maintenanceDetectors, .detectorChanged),
    (plan.authority ≠ ⟨.reportOnly, MaintenanceDigests.reportOnlyGrant⟩, .grantChanged),
    (repositoryFingerprint ≠ currentRepository, .repositoryChanged)]

/-- The versions of the records a plan does not target. -/
def neighborhood (targetIds : List String) (records : List MaintenanceRecordSnapshot) :
    List (String × MaintenanceRecordVersion) :=
  (versionsOf records).entries.filter fun bound => !targetIds.contains bound.1

/-- A reason that says why two plan identities differ. -/
def MaintenanceStaleReason.explainsIdentity : MaintenanceStaleReason → Bool
  | .targetChanged | .comparisonNeighborhoodChanged | .detectorChanged | .policyChanged
  | .grantChanged | .repositoryChanged | .temporalBoundaryChanged => true
  | .notYetValid | .planExpired | .planChanged | .sourceChanged => false

/-- What the plan of the present snapshot says about a plan; a difference of the identities alone
counts only when nothing explains it. -/
def planReasons (reasons : List MaintenanceStaleReason) (plan : PlanArtifact)
    (current : MaintenancePlan) : List MaintenanceStaleReason :=
  let targetIds := plan.scope.targetRecordIds
  let targetChanged : Bool := targetIds.any fun recordId =>
    (versionsOf plan.records).get? recordId ≠ (versionsOf current.records).get? recordId
  let compared := raised [(targetChanged, .targetChanged),
    (neighborhood targetIds plan.records ≠ neighborhood targetIds current.records ∨
      (plan.comparisonSetDigest ≠ current.comparisonSetDigest ∧ targetChanged = false),
      .comparisonNeighborhoodChanged),
    (plan.notAfter ≠ current.notAfter, .temporalBoundaryChanged)]
  compared ++ raised [(plan.planId ≠ current.planId ∧
    ¬ (reasons ++ compared).any (·.explainsIdentity) = true, .planChanged)]

/-- The text of `MissingMaintenanceTarget`, the one error of the planner that is looked at. -/
def missingTarget (recordId : String) : String :=
  s!"maintenance target record {recordId} does not exist"

def failureReason (plan : PlanArtifact) (message : String) : MaintenanceStaleReason :=
  if plan.request.recordIds.any (fun recordId => missingTarget recordId = message) then
    .targetChanged
  else .sourceChanged

/-- `reasons` is an ordered set: it is read in the order of the enumeration. -/
def MaintenanceRevalidation.ofReasons (planId : String) (reasons : List MaintenanceStaleReason) :
    MaintenanceRevalidation :=
  if reasons = [] then .current planId
  else .stale planId (reasons.insertionSort fun a b => a.ctorIdx ≤ b.ctorIdx)

def repositoryScope : MaintenanceScope → Fallible String
  | .repository repositoryFingerprint _ => .ok repositoryFingerprint
  | .privateRuntime _ _ =>
    bail "repository maintenance revalidation requires a repository-scoped plan"

variable [Text.Unicode] [CanonicalRevisions]

/-- The present snapshot, planned for the request of a plan at the instant of the plan. -/
def planAgain (currentRepository : String) (held : Fallible (List OkfRecordSnapshot))
    (plan : PlanArtifact) (evaluatedAt : OffsetDateTime) : Fallible MaintenancePlan := do
  let source ← held
  planMaintenance currentRepository source
    { plan.request with evaluatedAt := some plan.evaluatedAt } evaluatedAt

/-- The answer from what planning again gave; a panic is not caught. -/
def answerRevalidation (plan : PlanArtifact) (reasons : List MaintenanceStaleReason) :
    Fallible MaintenancePlan → Fallible MaintenanceRevalidation
  | .ok current => .ok (.ofReasons plan.planId (reasons ++ planReasons reasons plan current))
  | .error (.error message) =>
    .ok (.ofReasons plan.planId (reasons ++ [failureReason plan message]))
  | .error (.panic message) => .error (.panic message)

/-- `revalidate_maintenance_plan_at`. -/
def revalidateMaintenancePlan (currentRepository : String)
    (held : Fallible (List OkfRecordSnapshot)) (plan : PlanArtifact) (now : OffsetDateTime) :
    Fallible MaintenanceRevalidation := do
  plan.validate
  let repositoryFingerprint ← repositoryScope plan.scope
  let evaluatedAt ← parseTimestamp plan.evaluatedAt "maintenance evaluated_at"
  let notAfter ← parseTimestamp plan.notAfter "maintenance not_after"
  answerRevalidation plan
    (snapshotReasons currentRepository repositoryFingerprint plan evaluatedAt notAfter now)
    (planAgain currentRepository held plan evaluatedAt)

/-! ### When a plan is current -/

variable {plan : PlanArtifact} {currentRepository repositoryFingerprint : String}
  {held : Fallible (List OkfRecordSnapshot)} {evaluatedAt notAfter now : OffsetDateTime}
  {current : MaintenancePlan}

omit [ArtifactDigests] [Text.Unicode] [CanonicalRevisions] in
theorem raised_eq_nil {flag : Bool} {reason : MaintenanceStaleReason}
    {flags : List (Bool × MaintenanceStaleReason)} :
    raised ((flag, reason) :: flags) = [] ↔ flag = false ∧ raised flags = [] := by
  cases flag with
  | false => simp [raised]
  | true => simp [raised]

omit [ArtifactDigests] [Text.Unicode] [CanonicalRevisions] in
@[simp] theorem raised_nil : raised [] = [] := rfl

omit [Text.Unicode] [CanonicalRevisions] in
theorem snapshotReasons_eq_nil :
    snapshotReasons currentRepository repositoryFingerprint plan evaluatedAt notAfter now = [] ↔
      evaluatedAt ≤ now ∧ now < notAfter ∧ plan.policy = maintenancePolicy ∧
        plan.detectors = maintenanceDetectors ∧
        plan.authority = ⟨.reportOnly, MaintenanceDigests.reportOnlyGrant⟩ ∧
        repositoryFingerprint = currentRepository := by
  have hstart : ¬ now < evaluatedAt ↔ evaluatedAt ≤ now := by
    simp only [OffsetDateTime.le_def, OffsetDateTime.lt_def]
    omega
  have hend : ¬ notAfter ≤ now ↔ now < notAfter := by
    simp only [OffsetDateTime.le_def, OffsetDateTime.lt_def]
    omega
  simp only [snapshotReasons, raised_eq_nil, raised_nil, decide_eq_false_iff_not, not_not, hstart,
    hend, and_true, ne_eq]

omit [ArtifactDigests] [Text.Unicode] [CanonicalRevisions] in
/-- Without another reason, what planning again says is whether the identity is the same. -/
theorem planReasons_eq_nil
    (hsame : plan.planId = current.planId → plan.toPlanIdentity = current.toPlanIdentity) :
    planReasons [] plan current = [] ↔ plan.planId = current.planId := by
  unfold planReasons
  dsimp only
  constructor
  · intro h
    obtain ⟨hcompared, hidentity⟩ := List.append_eq_nil_iff.1 h
    rw [hcompared, raised_eq_nil] at hidentity
    simpa using hidentity.1
  · intro h
    have heq := hsame h
    have hrecords : plan.records = current.records :=
      congrArg (fun identity : PlanIdentity => identity.records) heq
    have hdigest : plan.comparisonSetDigest = current.comparisonSetDigest :=
      congrArg (fun identity : PlanIdentity => identity.comparisonSetDigest) heq
    have hend : plan.notAfter = current.notAfter := congrArg PlanIdentity.notAfter heq
    rw [hrecords, hdigest, hend, h]
    simp [raised_eq_nil]

omit [ArtifactDigests] [Text.Unicode] [CanonicalRevisions] in
theorem ofReasons_cases (planId : String) (reasons : List MaintenanceStaleReason) :
    (reasons = [] ∧ MaintenanceRevalidation.ofReasons planId reasons = .current planId) ∨
      (reasons ≠ [] ∧ ∃ sorted, sorted ≠ [] ∧
        MaintenanceRevalidation.ofReasons planId reasons = .stale planId sorted) := by
  unfold MaintenanceRevalidation.ofReasons
  by_cases h : reasons = []
  · exact Or.inl ⟨h, if_pos h⟩
  · refine Or.inr ⟨h, _, ?_, if_neg h⟩
    intro hsorted
    have hperm := List.perm_insertionSort (fun a b : MaintenanceStaleReason =>
      a.ctorIdx ≤ b.ctorIdx) reasons
    rw [hsorted] at hperm
    exact h hperm.symm.eq_nil

/-- Everything a plan depends on is as it was: the instant is inside the window, the snapshots,
the grant and the repository are those the plan was made with, and planning what is held now for
the instant of the plan gives the plan of that identity. -/
structure HoldsAt (currentRepository : String) (held : Fallible (List OkfRecordSnapshot))
    (plan : PlanArtifact) (now evaluatedAt notAfter : OffsetDateTime) (current : MaintenancePlan) :
    Prop where
  start : parseTimestamp plan.evaluatedAt "maintenance evaluated_at" = .ok evaluatedAt
  finish : parseTimestamp plan.notAfter "maintenance not_after" = .ok notAfter
  started : evaluatedAt ≤ now
  unexpired : now < notAfter
  policy : plan.policy = maintenancePolicy
  detectors : plan.detectors = maintenanceDetectors
  grant : plan.authority = ⟨.reportOnly, MaintenanceDigests.reportOnlyGrant⟩
  repository : repositoryScope plan.scope = .ok currentRepository
  plannedAgain : planAgain currentRepository held plan evaluatedAt = .ok current
  sameId : plan.planId = current.planId

def Holds (currentRepository : String) (held : Fallible (List OkfRecordSnapshot))
    (plan : PlanArtifact) (now : OffsetDateTime) : Prop :=
  ∃ evaluatedAt notAfter current,
    HoldsAt currentRepository held plan now evaluatedAt notAfter current

/-- Two plans of one identity are one plan. -/
def NoCollision (plan other : PlanArtifact) : Prop :=
  ArtifactDigests.artifact plan.toArtifactIdentity =
    ArtifactDigests.artifact other.toArtifactIdentity →
  plan.toArtifactIdentity = other.toArtifactIdentity

omit [Text.Unicode] [CanonicalRevisions] in
/-- What a checked artifact gives: its two instants, and its identity. -/
theorem validate_eq_ok (h : plan.validate = .ok ()) :
    (∃ evaluatedAt, parseTimestamp plan.evaluatedAt "maintenance evaluated_at" = .ok evaluatedAt) ∧
      (∃ notAfter, parseTimestamp plan.notAfter "maintenance not_after" = .ok notAfter) ∧
      plan.planId = ArtifactDigests.artifact plan.toArtifactIdentity := by
  obtain ⟨_, h⟩ := check_bind_eq_ok.1 h
  obtain ⟨htimes, h⟩ := check_bind_eq_ok.1 h
  obtain ⟨_, h⟩ := check_bind_eq_ok.1 h
  obtain ⟨_, _, h⟩ := bind_eq_ok.1 h
  obtain ⟨_, h⟩ := check_bind_eq_ok.1 h
  obtain ⟨_, h⟩ := check_bind_eq_ok.1 h
  obtain ⟨_, h⟩ := check_bind_eq_ok.1 h
  obtain ⟨_, h⟩ := check_bind_eq_ok.1 h
  obtain ⟨_, h⟩ := check_bind_eq_ok.1 h
  obtain ⟨_, h⟩ := check_bind_eq_ok.1 h
  obtain ⟨_, hid⟩ := check_bind_eq_ok.1 h
  obtain ⟨_, htimes⟩ := check_bind_eq_ok.1 htimes
  obtain ⟨_, htimes⟩ := check_bind_eq_ok.1 htimes
  obtain ⟨e, he, htimes⟩ := bind_eq_ok.1 htimes
  obtain ⟨n, hn, _⟩ := bind_eq_ok.1 htimes
  obtain ⟨e', he', _⟩ := bind_eq_ok.1 he
  obtain ⟨n', hn', _⟩ := bind_eq_ok.1 hn
  exact ⟨⟨e', he'⟩, ⟨n', hn'⟩, ensure_eq_ok.1 hid⟩

omit [ArtifactDigests] [Text.Unicode] [CanonicalRevisions] in
theorem normalizeRecordId_again {id normalized : String} (h : normalizeRecordId id = .ok normalized) :
    normalizeRecordId normalized = .ok normalized := by
  obtain ⟨hne, h⟩ := check_bind_eq_ok.1 h
  obtain ⟨hcanonical, h⟩ := check_bind_eq_ok.1 h
  cases h
  unfold normalizeRecordId
  rw [Text.trim_trim]
  exact check_bind_eq_ok.2 ⟨hne, check_bind_eq_ok.2 ⟨hcanonical, rfl⟩⟩

omit [ArtifactDigests] [Text.Unicode] [CanonicalRevisions] in
/-- Normalized selectors are in the form normalizing gives. -/
theorem normalizeRecordIds_again {ids normalized : List String}
    (h : normalizeRecordIds ids = .ok normalized) :
    normalizeRecordIds normalized = .ok normalized := by
  obtain ⟨trimmed, htrimmed, h⟩ := bind_eq_ok.1 h
  cases h
  have hsame : mapAll normalizeRecordId (SortedMap.sortedKeys trimmed) =
      .ok (SortedMap.sortedKeys trimmed) := by
    refine mapAll_eq_self fun id hid => ?_
    obtain ⟨raw, _, hraw⟩ := (mem_of_mapAll htrimmed id).1 (SortedMap.mem_sortedKeys.1 hid)
    exact normalizeRecordId_again hraw
  refine bind_eq_ok.2 ⟨_, hsame, congrArg Except.ok ?_⟩
  exact SortedMap.sortedKeys_eq_of_pairwise (SortedMap.pairwise_sortedKeys trimmed)
    fun id => Iff.rfl

omit [Text.Unicode] [CanonicalRevisions] in
/-- The snapshots the planner writes into its plans pass their checks. -/
theorem validate_maintenanceDetectors :
    checkAll validateDetector maintenanceDetectors = .ok () := by
  refine checkAll_eq_ok.2 fun detector hdetector => ?_
  obtain ⟨⟨kind, version⟩, hversion, rfl⟩ := List.mem_map.1 hdetector
  refine check_bind_eq_ok.2 ⟨ensure_of ?_, ensure_of rfl⟩
  have hall : ∀ versioned ∈ detectorVersions,
      Text.trim versioned.2 ≠ "" ∧ versioned.2 = Text.trim versioned.2 := by decide
  exact hall (kind, version) hversion

/-- Every plan of the repository planner passes the check of its artifact. -/
theorem validate_of_planned {source : List OkfRecordSnapshot} {request : MaintenancePlanRequest}
    (h : planMaintenance currentRepository source request now = .ok current) :
    current.artifact.validate = .ok () := by
  obtain ⟨_, h⟩ := check_bind_eq_ok.1 h
  obtain ⟨_, _, h⟩ := bind_eq_ok.1 h
  obtain ⟨_, _, h⟩ := bind_eq_ok.1 h
  obtain ⟨⟨chosen, selected⟩, hselect, h⟩ := bind_eq_ok.1 h
  obtain ⟨_, _, h⟩ := bind_eq_ok.1 h
  obtain ⟨_, _, h⟩ := bind_eq_ok.1 h
  obtain ⟨_, _, h⟩ := bind_eq_ok.1 h
  obtain ⟨_, _, h⟩ := bind_eq_ok.1 h
  obtain ⟨_, h⟩ := check_bind_eq_ok.1 h
  obtain ⟨_, _, hcontents, hrequest, hvalid⟩ := finishPlan_eq_ok h
  obtain ⟨htimes, hvalid⟩ := check_bind_eq_ok.1 hvalid
  obtain ⟨hparts, hid⟩ := check_bind_eq_ok.1 hvalid
  obtain ⟨ids, hids, hselect⟩ := bind_eq_ok.1 hselect
  obtain ⟨_, hselect⟩ := check_bind_eq_ok.1 hselect
  cases hselect
  have hselectors : current.request.recordIds = ids := by rw [hrequest]
  unfold PlanArtifact.validate
  refine check_bind_eq_ok.2 ⟨ensure_of rfl, check_bind_eq_ok.2 ⟨htimes,
    check_bind_eq_ok.2 ⟨ensure_of (Or.inr ?_), bind_eq_ok.2 ⟨ids, ?_,
    check_bind_eq_ok.2 ⟨ensure_of hselectors, check_bind_eq_ok.2 ⟨hparts,
    check_bind_eq_ok.2 ⟨ensure_of ?_, check_bind_eq_ok.2 ⟨ensure_of rfl,
    check_bind_eq_ok.2 ⟨ensure_of ?_, check_bind_eq_ok.2 ⟨ensure_of ?_,
    check_bind_eq_ok.2 ⟨validate_maintenanceDetectors, ensure_of ?_⟩⟩⟩⟩⟩⟩⟩⟩⟩⟩⟩
  · show current.toPlanContents.authority.mode = .reportOnly
    rw [hcontents]
    rfl
  · show normalizeRecordIds current.request.recordIds = .ok ids
    rw [hselectors]
    exact normalizeRecordIds_again hids
  · show current.toPlanContents.diagnostics.any (fun diagnostic => diagnostic =
      ⟨current.toPlanContents.scope.snapshotCode, current.toPlanContents.records.length,
        current.toPlanContents.comparisonSetDigest⟩) = true
    rw [hcontents]
    simp [planContents]
  · show 0 < maxValidityHours.toNat * 60 * 60 ∧ 0 < staleAfterDays.toNat * 24 * 60 * 60
    decide
  · show (detectorVersions.map (·.1.ctorIdx)).Pairwise (· < ·)
    decide
  · exact (ensure_eq_ok.1 hid).trans (ArtifactDigests.plan_eq _)

/-- The answer on a checked artifact of the repository, from the reasons there are. -/
theorem revalidate_of_valid (hvalid : plan.validate = .ok ())
    (hscope : repositoryScope plan.scope = .ok repositoryFingerprint)
    (he : parseTimestamp plan.evaluatedAt "maintenance evaluated_at" = .ok evaluatedAt)
    (hn : parseTimestamp plan.notAfter "maintenance not_after" = .ok notAfter) :
    revalidateMaintenancePlan currentRepository held plan now =
      answerRevalidation plan
        (snapshotReasons currentRepository repositoryFingerprint plan evaluatedAt notAfter now)
        (planAgain currentRepository held plan evaluatedAt) := by
  unfold revalidateMaintenancePlan
  rw [hvalid, hscope, he, hn]
  rfl

omit [ArtifactDigests] [Text.Unicode] [CanonicalRevisions] in
theorem repositoryScope_of_isRepository {scope : MaintenanceScope} (h : scope.isRepository = true) :
    ∃ repositoryFingerprint, repositoryScope scope = .ok repositoryFingerprint := by
  cases scope with
  | repository repositoryFingerprint targets => exact ⟨repositoryFingerprint, rfl⟩
  | privateRuntime runtimeFingerprint targets => cases h

/-- A plan holds when no reason is found in its snapshots and planning again gives its identity. -/
theorem holds_iff (hscope : repositoryScope plan.scope = .ok repositoryFingerprint)
    (he : parseTimestamp plan.evaluatedAt "maintenance evaluated_at" = .ok evaluatedAt)
    (hn : parseTimestamp plan.notAfter "maintenance not_after" = .ok notAfter) :
    Holds currentRepository held plan now ↔
      snapshotReasons currentRepository repositoryFingerprint plan evaluatedAt notAfter now = [] ∧
        ∃ current, planAgain currentRepository held plan evaluatedAt = .ok current ∧
          plan.planId = current.planId := by
  rw [snapshotReasons_eq_nil]
  constructor
  · rintro ⟨e, n, current, h⟩
    cases h.start.symm.trans he
    cases h.finish.symm.trans hn
    cases h.repository.symm.trans hscope
    exact ⟨⟨h.started, h.unexpired, h.policy, h.detectors, h.grant, rfl⟩, current,
      h.plannedAgain, h.sameId⟩
  · rintro ⟨⟨hstarted, hunexpired, hpolicy, hdetectors, hgrant, hrepository⟩, current, hagain,
      hsame⟩
    exact ⟨evaluatedAt, notAfter, current, he, hn, hstarted, hunexpired, hpolicy, hdetectors,
      hgrant, hrepository ▸ hscope, hagain, hsame⟩

omit [ArtifactDigests] [Text.Unicode] [CanonicalRevisions] in
/-- The answer when planning again gives a plan. -/
theorem reasons_eq_nil {reasons : List MaintenanceStaleReason}
    (hsame : plan.planId = current.planId → plan.toPlanIdentity = current.toPlanIdentity) :
    reasons ++ planReasons reasons plan current = [] ↔
      reasons = [] ∧ plan.planId = current.planId := by
  rw [List.append_eq_nil_iff]
  constructor
  · rintro ⟨rfl, h⟩
    exact ⟨rfl, (planReasons_eq_nil hsame).1 h⟩
  · rintro ⟨rfl, h⟩
    exact ⟨rfl, (planReasons_eq_nil hsame).2 h⟩

/-- **Revalidation is exact.** A checked plan of the repository is answered to be current when
everything it depends on is as it was, and stale, for a reason, in every other case, unless
planning again panics. A plan of another policy version and a private plan are refused. -/
theorem revalidation_exact :
    (plan.policy.policyVersion ≠ maintenancePolicyVersion →
      revalidateMaintenancePlan currentRepository held plan now =
        bail "maintenance policy snapshot does not use the current policy") ∧
    (plan.validate = .ok () → plan.scope.isRepository = false →
      revalidateMaintenancePlan currentRepository held plan now =
        bail "repository maintenance revalidation requires a repository-scoped plan") ∧
    (plan.validate = .ok () → plan.scope.isRepository = true →
      (∀ evaluatedAt, parseTimestamp plan.evaluatedAt "maintenance evaluated_at" = .ok evaluatedAt →
        ¬ Panics (planAgain currentRepository held plan evaluatedAt) ∧
        ∀ current, planAgain currentRepository held plan evaluatedAt = .ok current →
          NoCollision plan current.artifact) →
      (Holds currentRepository held plan now ∧
        revalidateMaintenancePlan currentRepository held plan now = .ok (.current plan.planId)) ∨
      (¬ Holds currentRepository held plan now ∧ ∃ reasons, reasons ≠ [] ∧
        revalidateMaintenancePlan currentRepository held plan now =
          .ok (.stale plan.planId reasons))) := by
  refine ⟨?_, ?_, ?_⟩
  · intro hversion
    unfold revalidateMaintenancePlan PlanArtifact.validate
    rw [ensure_of_not hversion]
    rfl
  · intro hvalid hprivate
    unfold revalidateMaintenancePlan
    rw [hvalid]
    cases hscope : plan.scope with
    | repository repositoryFingerprint targets =>
        rw [hscope] at hprivate
        cases hprivate
    | privateRuntime runtimeFingerprint targets => rfl
  · intro hvalid hrepository hagain
    obtain ⟨⟨e, he⟩, ⟨n, hn⟩, hid⟩ := validate_eq_ok hvalid
    obtain ⟨hpanic, hcollision⟩ := hagain e he
    obtain ⟨f, hscope⟩ := repositoryScope_of_isRepository hrepository
    rw [revalidate_of_valid hvalid hscope he hn, holds_iff hscope he hn]
    generalize snapshotReasons currentRepository f plan e n now = reasons
    rcases not_panics_iff.1 hpanic with ⟨current, hcurrent⟩ | ⟨message, hfailed⟩
    · have hsame : plan.planId = current.planId →
          plan.toPlanIdentity = current.toPlanIdentity := by
        intro h
        have hplanned : current.planId =
            ArtifactDigests.artifact current.artifact.toArtifactIdentity := by
          obtain ⟨source, _, hplan⟩ := bind_eq_ok.1 hcurrent
          exact (validate_eq_ok (validate_of_planned hplan)).2.2
        have heq := hcollision current hcurrent (hid.symm.trans (h.trans hplanned))
        exact congrArg ArtifactIdentity.toPlanIdentity heq
      rw [hcurrent]
      show _ ∧ Except.ok (MaintenanceRevalidation.ofReasons plan.planId
        (reasons ++ planReasons reasons plan current)) = _ ∨ _
      rcases ofReasons_cases plan.planId (reasons ++ planReasons reasons plan current) with
        ⟨hnone, hanswer⟩ | ⟨hsome, sorted, hne, hanswer⟩
      · obtain ⟨hempty, hid⟩ := (reasons_eq_nil hsame).1 hnone
        exact Or.inl ⟨⟨hempty, current, rfl, hid⟩, congrArg Except.ok hanswer⟩
      · refine Or.inr ⟨?_, sorted, hne, congrArg Except.ok hanswer⟩
        rintro ⟨hempty, other, hother, hid⟩
        cases hother
        exact hsome ((reasons_eq_nil hsame).2 ⟨hempty, hid⟩)
    · rw [hfailed]
      rcases ofReasons_cases plan.planId (reasons ++ [failureReason plan message]) with
        ⟨hnone, _⟩ | ⟨_, sorted, hne, hanswer⟩
      · cases (List.append_eq_nil_iff.1 hnone).2
      · refine Or.inr ⟨?_, sorted, hne, congrArg Except.ok hanswer⟩
        rintro ⟨_, other, hother, _⟩
        cases hother

end Artifact

/-! ### Two plans of the afternoon -/

@[reducible] def plainArtifacts : ArtifactDigests :=
  { plainDigests with
    policy := fun _ => "blake3:0000000000000000000000000000000000000000000000000000000000000000"
    detector := fun _ => "blake3:0000000000000000000000000000000000000000000000000000000000000000"
    artifact := fun _ => "blake3:0000000000000000000000000000000000000000000000000000000000000000"
    plan_eq := fun _ => rfl }

def twoDecisions : List OkfRecordSnapshot :=
  [canonicalDecision "first" "2026-07-14T10:00:00Z",
    canonicalDecision "second" "2026-07-14T10:00:00Z"]

/-- A plan of the afternoon, revalidated in the repository it names. -/
def revalidateAt (held : List OkfRecordSnapshot) (plan : MaintenancePlan) (now : OffsetDateTime) :
    Fallible MaintenanceRevalidation :=
  @revalidateMaintenancePlan plainArtifacts Text.Unicode.ascii plainRevisions
    "blake3:0000000000000000000000000000000000000000000000000000000000000000"
    (.ok held) (@MaintenancePlan.artifact plainArtifacts plan) now

/-- A private plan is refused, at the instant it was made. -/
theorem private_plan_refused :
    ∃ plan, afternoonPlan none = .ok plan ∧ revalidateAt [] plan afternoon =
      bail "repository maintenance revalidation requires a repository-scoped plan" := by
  obtain ⟨plan, hplan, hrefused⟩ := ok_of_any (show (afternoonPlan none).toOption.any
    (fun plan => revalidateAt [] plan afternoon =
      bail "repository maintenance revalidation requires a repository-scoped plan") = true by
        decide +kernel)
  exact ⟨plan, hplan, of_decide_eq_true hrefused⟩

/-- What makes the plan for two decisions current. -/
def plannedAgainAt (plan : MaintenancePlan) (now : OffsetDateTime) : Bool :=
  let artifact := @MaintenancePlan.artifact plainArtifacts plan
  @PlanArtifact.validate plainArtifacts artifact = .ok () &&
    (artifact.scope.isRepository &&
      (parseTimestamp artifact.evaluatedAt "maintenance evaluated_at" = .ok now &&
        ((parseTimestamp artifact.notAfter "maintenance not_after").toOption.any (now < ·) &&
          @planAgain plainArtifacts Text.Unicode.ascii plainRevisions
            "blake3:0000000000000000000000000000000000000000000000000000000000000000"
            (.ok twoDecisions) artifact now = .ok plan)))

/-- The plan for two decisions is current while both are there. -/
theorem decisions_revalidated :
    ∃ plan, planDecisions "2026-07-14T10:00:00Z" afternoon = .ok plan ∧
      revalidateAt twoDecisions plan afternoon = .ok (.current plan.planId) := by
  obtain ⟨plan, hplan, hchecks⟩ := ok_of_any
    (show (planDecisions "2026-07-14T10:00:00Z" afternoon).toOption.any
      (fun plan => plannedAgainAt plan afternoon && plan.authority =
        ⟨.reportOnly, plainDigests.reportOnlyGrant⟩ && repositoryScope plan.scope =
          .ok "blake3:0000000000000000000000000000000000000000000000000000000000000000") = true by
        decide +kernel)
  simp only [plannedAgainAt, Bool.and_eq_true, decide_eq_true_eq] at hchecks
  obtain ⟨⟨⟨hvalid, hrepository, hstart, hend, hagain⟩, hgrant⟩, hscope⟩ := hchecks
  obtain ⟨n, hn, hlt⟩ := ok_of_any hend
  have hholds := @HoldsAt.mk plainArtifacts Text.Unicode.ascii plainRevisions _ _ _ _ _ _ _
    hstart hn (Int.le_refl _) (of_decide_eq_true hlt) rfl rfl hgrant hscope hagain rfl
  have hcomparable := (@revalidation_exact plainArtifacts Text.Unicode.ascii plainRevisions
    (@MaintenancePlan.artifact plainArtifacts plan)
    "blake3:0000000000000000000000000000000000000000000000000000000000000000" (.ok twoDecisions)
    afternoon).2.2 hvalid hrepository
  have hexact := hcomparable (by
    intro e he
    cases hstart.symm.trans he
    rw [hagain]
    refine ⟨not_panics_ok plan, ?_⟩
    rintro current hcurrent _
    cases hcurrent
    rfl)
  rcases hexact with ⟨_, hcurrent⟩ | ⟨hnot, _⟩
  · exact ⟨plan, hplan, hcurrent⟩
  · exact absurd ⟨_, _, _, hholds⟩ hnot

end Maintenance
end Memzoi
