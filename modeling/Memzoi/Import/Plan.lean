/-
# Import plans

Source: `import.rs` (`validate_document`, `normalize_document`,
`normalize_candidate`, `build_plan`, `fingerprint_plan`), `okf.rs`
(`reserve_okf_proposal_id`) and `load_duplicates` of
`service/import_lifecycle.rs`.

A plan goes through the candidates once. It carries the proposal identifiers in
use, the counters, and the first candidate under each content hash; each
candidate is replayed, blocked, a duplicate, or routed by its destination. The
JSON text of a plan and the look for a packet of a proposal on disk are
parameters.
-/

import Memzoi.DerivedIndex
import Memzoi.MemoryPolicy
import Memzoi.Origin
import Memzoi.Proposals
import Mathlib

namespace Memzoi
namespace Import

open Fallible
open Maintenance (OkfProposalSensitivity RepositoryContentClass)
open Okf (OkfProposalSource sensitivityAsStr)
open Origin (OriginOutcome OriginOutcomeKind)
open PrivateLifecycle (Digests)

/-! ### Documents -/

structure ImportScope where
  kind : ScopeKind
  id : Option String
  paths : List String
  deriving DecidableEq, Repr

structure ImportCandidateInput where
  destination : MemoryDestination
  reason : String
  memoryType : Option MemoryType
  lane : Option MemoryLane
  title : String
  body : String
  sensitivity : OkfProposalSensitivity
  contentClass : RepositoryContentClass
  scope : Option ImportScope
  tags : List String
  deriving DecidableEq, Repr

structure ImportDocument where
  schema : String
  originKey : String
  sources : List OkfProposalSource
  candidates : List ImportCandidateInput
  deriving DecidableEq, Repr

structure ImportCandidate where
  index : Nat
  originKey : String
  classification : MemoryDestinationClassification
  policy : MemoryDestinationPolicy
  memoryType : MemoryType
  lane : MemoryLane
  title : String
  body : String
  sensitivity : OkfProposalSensitivity
  contentClass : RepositoryContentClass
  scope : ImportScope
  tags : List String
  contentHash : String
  deriving DecidableEq, Repr

/-! ### Plans -/

inductive ImportDuplicateKind where
  | canonicalRecord | pendingProposal | runtimeRecord | earlierCandidate
  deriving DecidableEq, Repr

structure ImportDuplicate where
  kind : ImportDuplicateKind
  id : String
  destination : Option MemoryDestination
  candidateIndex : Option Nat
  deriving DecidableEq, Repr

inductive ImportCandidateAction where
  | replay (outcome : OriginOutcomeKind) (destination : Option MemoryDestination)
      (recordId proposalId : Option String)
  | createProposal (proposalId path : String)
  | createRuntime (route : MemoryWriteRoute)
  | duplicate (found : List ImportDuplicate)
  | noWrite (reason : String)
  | blocked (reason : String)
  deriving DecidableEq, Repr

structure ImportPlanCandidate where
  index : Nat
  originKey : String
  classification : MemoryDestinationClassification
  policy : MemoryDestinationPolicy
  memoryType : MemoryType
  lane : MemoryLane
  title : String
  body : String
  sensitivity : OkfProposalSensitivity
  contentClass : RepositoryContentClass
  scope : ImportScope
  tags : List String
  contentHash : String
  duplicates : List ImportDuplicate
  action : ImportCandidateAction
  deriving DecidableEq, Repr

structure ImportPlanSummary where
  total : Nat := 0
  createProposals : Nat := 0
  localWrites : Nat := 0
  sessionWrites : Nat := 0
  duplicates : Nat := 0
  discarded : Nat := 0
  needsReview : Nat := 0
  replays : Nat := 0
  deriving DecidableEq, Repr

structure ImportPlan where
  schema : String
  planId : String
  originKey : String
  sources : List OkfProposalSource
  summary : ImportPlanSummary
  candidates : List ImportPlanCandidate
  deriving DecidableEq, Repr

/-- `proposal_packet_id_exists` below the proposal root, and `serde_json::to_vec` on a plan. -/
class ImportEnvironment where
  packetExists : String → Fallible Bool
  planJson : ImportPlan → String

/-! ### Validation and normalization -/

/-- The pieces of a path that `Path::components` looks at, and the checks of `validate_relative_path`
on them: a dot counts only in front. -/
def validateRelativePath (path : String) : Fallible Unit := do
  let trimmed := (Text.trim path).toList
  let drive := trimmed[1]? = some ':' && trimmed.head?.any Char.isAlpha
  ensure (trimmed ≠ [] ∧ '\\' ∉ trimmed ∧ trimmed.head? ≠ some '/' ∧ drive = false)
    "path must be POSIX project-relative"
  let pieces := trimmed.splitOn '/'
  ensure (pieces.head? ≠ some [ '.'] ∧ [ '.', '.'] ∉ pieces)
    "path must not contain . or .. components"

def validateSource (source : OkfProposalSource) (i : Nat) : Fallible Unit := do
  let given (value : Option String) : Bool := value.any fun value => !Text.isBlank value
  let blank (value : Option String) : Bool := value.any Text.isBlank
  ensure ((given source.path || given source.url || given source.reference) = true)
    s!"source {i} requires path, url, or ref"
  match source.path with
  | some path => withContext s!"invalid source {i} path" (validateRelativePath path)
  | none => .ok ()
  ensure (blank source.url = false) s!"source {i} url cannot be empty"
  ensure (blank source.reference = false) s!"source {i} ref cannot be empty"

def normalizeScope (index : Nat) (scope : Option ImportScope) : Fallible ImportScope := do
  let s := scope.getD ⟨.repo, none, []⟩
  let id := s.id.map Text.trim
  ensure (id ≠ some "") s!"candidate {index} scope id cannot be empty"
  let paths := s.paths.map Text.trim
  checkAll (fun p => withContext s!"candidate {index} scope path" (validateRelativePath p)) paths
  .ok { s with id := id, paths := SortedMap.sortedKeys paths }

/-- The type a candidate has when it names none. -/
def inferType (raw : ImportCandidateInput) : Option MemoryType :=
  match raw.lane with
  | some .session | some .episodic => some .episode
  | some .procedural => some .procedure
  | _ => if raw.destination = .session then some .episode else none

/-- The lane a candidate has when it names none. -/
def inferLane (destination : MemoryDestination) (memoryType : MemoryType) : MemoryLane :=
  if destination = .session then .session
  else
    match memoryType with
    | .procedure => .procedural
    | .episode => .episodic
    | _ => .semantic

variable [Digests]

def normalizeCandidate (originKey : String) (raw : ImportCandidateInput) (index : Nat) :
    Fallible ImportCandidate := do
  let title := Text.trim raw.title
  ensure (title ≠ "") s!"candidate {index} title is required"
  let body := Text.trim raw.body
  ensure (body ≠ "") s!"candidate {index} body is required"
  let reason := Text.trim raw.reason
  ensure (reason ≠ "") s!"candidate {index} reason is required"
  let tags := raw.tags.map Text.trim
  ensure ("" ∉ tags) s!"candidate {index} tags cannot contain empty values"
  let scope ← normalizeScope index raw.scope
  let memoryType ← require (raw.memoryType <|> inferType raw)
    s!"candidate {index} type is required or cannot be inferred"
  let lane := raw.lane.getD (inferLane raw.destination memoryType)
  let isSession := raw.destination = .session
  .ok {
    index := index
    originKey := s!"{originKey}:{index}"
    classification := ⟨raw.destination, reason⟩
    policy := raw.destination.policy
    memoryType := if isSession then .episode else memoryType
    lane := if isSession then .session else lane
    title := title
    body := body
    sensitivity := raw.sensitivity
    contentClass := raw.contentClass
    scope := scope
    tags := SortedMap.sortedKeys tags
    contentHash := contentHash raw.body }

def normalizeDocument (doc : ImportDocument) : Fallible (List ImportCandidate) :=
  mapAll (fun raw => normalizeCandidate doc.originKey raw.1 raw.2) doc.candidates.zipIdx

def validateDocument (doc : ImportDocument) : Fallible Unit := do
  ensure (doc.schema = "memzoi/import") "artifact does not match the current Memzoi import format"
  ensure (doc.originKey ≠ "" ∧ doc.originKey = Text.trim doc.originKey)
    "import manifest origin_key must be a non-empty trimmed string"
  ensure (doc.sources ≠ []) "import manifest requires at least one source"
  checkAll (fun source => validateSource source.1 source.2) doc.sources.zipIdx
  ensure (doc.candidates ≠ []) "import manifest requires at least one candidate"
  let _ ← normalizeDocument doc
  .ok ()

/-! ### What is there already -/

/-- A record or a pending proposal, as `load_duplicates` finds it. -/
structure InventoryEntry where
  kind : ImportDuplicateKind
  id : String
  destination : Option MemoryDestination
  body : String
  deriving DecidableEq, Repr

structure ExistingDuplicate where
  kind : ImportDuplicateKind
  id : String
  destination : Option MemoryDestination
  hash : String
  deriving DecidableEq, Repr

/-- `load_duplicates` on one entry. -/
def InventoryEntry.toDuplicate (entry : InventoryEntry) : ExistingDuplicate where
  kind := entry.kind
  id := entry.id
  destination := entry.destination
  hash := contentHash entry.body

def ImportDuplicateKind.rank : ImportDuplicateKind → Nat
  | canonicalRecord => 0
  | pendingProposal => 1
  | runtimeRecord => 2
  | earlierCandidate => 3

/-- The place of a destination in its declaration, an absent one first. -/
def destinationRank : Option MemoryDestination → Nat
  | none => 0
  | some .repo => 1
  | some .«local» => 2
  | some .session => 3
  | some .discard => 4
  | some .needsReview => 5

/-- `duplicate_sort_key(a) <= duplicate_sort_key(b)`. -/
def duplicateLe (a b : ImportDuplicate) : Bool :=
  let key (d : ImportDuplicate) := (d.kind.rank, d.id, destinationRank d.destination,
    d.candidateIndex.elim 0 (· + 1))
  let (rank, id, destination, index) := key a
  let (rank', id', destination', index') := key b
  rank < rank' || (rank = rank' && (id < id' || (id = id' &&
    (destination < destination' || (destination = destination' && index ≤ index')))))

/-- `sort_by` with the sort key, then `dedup_by` kind and identifier. -/
def sortDuplicates (duplicates : List ImportDuplicate) : List ImportDuplicate :=
  (duplicates.insertionSort fun a b => duplicateLe a b).destutter
    fun a b => ¬ (a.kind = b.kind ∧ a.id = b.id)

/-- `by_hash.get(hash)`, the entries under one hash. -/
def byHash (existing : List ExistingDuplicate) (hash : String) : List ImportDuplicate :=
  sortDuplicates ((existing.filter (·.hash = hash)).map fun e => ⟨e.kind, e.id, e.destination, none⟩)

/-- `source_key(a) <= source_key(b)`. -/
def sourceLe (a b : OkfProposalSource) : Bool :=
  let key (s : OkfProposalSource) := (s.path.getD "", s.url.getD "", s.reference.getD "")
  let (path, url, reference) := key a
  let (path', url', reference') := key b
  path < path' || (path = path' && (url < url' || (url = url' && reference ≤ reference')))

/-! ### Proposal identifiers -/

/-- `slug`: letters and digits in lower case, runs of other characters as one hyphen. -/
def slugFrom (out : List Char) : List Char → List Char
  | [] => out
  | ch :: rest =>
    if ch.isAlphanum then slugFrom (out ++ [ch.toLower]) rest
    else if out ≠ [] ∧ out.getLast? ≠ some '-' then slugFrom (out ++ [ '-']) rest
    else slugFrom out rest

def slug (title : String) : String :=
  let out := (slugFrom [] title.toList).rdropWhile (· = '-')
  let out := if 64 < out.length then (out.take 64).rdropWhile (· = '-') else out
  if out = [] then "memory" else String.ofList out

def isHexDigit (c : Char) : Bool :=
  c.isDigit || ( 'a' ≤ c && c ≤ 'f') || ( 'A' ≤ c && c ≤ 'F')

/-- `okf_proposal_identity_token`. -/
def okfProposalIdentityToken (identity : String) : String :=
  let start := "redacted-identity-"
  match identity.toList.dropPrefix? start.toList with
  | some digest =>
    if digest.length = 64 ∧ digest.all isHexDigit then identity
    else start ++ Digests.blake3 identity
  | none => start ++ Digests.blake3 identity

/-- The search for a free suffix; the counter is an `i32`, and its successor is taken first. -/
def reserveFrom [ImportEnvironment] (baseId : String) (reservedIds : List String) :
    Nat → Nat → Fallible (String × List String)
  | 0, _ => .error (.panic "attempt to add with overflow")
  | steps + 1, suffix => do
    let candidate := if suffix = 1 then baseId else s!"{baseId}-{suffix}"
    let identityToken := okfProposalIdentityToken candidate
    if candidate ∈ reservedIds ∨ identityToken ∈ reservedIds then
      reserveFrom baseId reservedIds steps (suffix + 1)
    else
      let taken ← ImportEnvironment.packetExists candidate
      if taken then reserveFrom baseId reservedIds steps (suffix + 1)
      else .ok (candidate, identityToken :: candidate :: reservedIds)

def reserveOkfProposalId [ImportEnvironment] (baseId : String) (reservedIds : List String) :
    Fallible (String × List String) := do
  Okf.validateProposalIdentifier baseId
  reserveFrom baseId reservedIds (2 ^ 31 - 2) 1

/-! ### The plan -/

def repoSensitivityBlockReason (sensitivity : OkfProposalSensitivity) : String :=
  s!"repo destination requires sensitivity repo-safe; got {sensitivityAsStr sensitivity}; " ++
    "classify the candidate as repo-safe or choose a non-repo destination"

def anotherCandidateBlockReason : String :=
  "another repo candidate in this manifest is not repo-safe; split the manifest so repo-safe " ++
    "candidates retain their evidence sources"

def ImportCandidate.nonRepoSafe (c : ImportCandidate) : Bool :=
  c.classification.destination = .repo && c.sensitivity ≠ .repoSafe

/-- The variables of the loop. -/
structure PlanState where
  usedIds : List String
  summary : ImportPlanSummary
  prior : SortedMap String Nat
  candidates : List ImportPlanCandidate

/-- What the loop reads and does not change. -/
structure PlanContext where
  existing : List ExistingDuplicate
  originReplays : SortedMap String OriginOutcome
  hasBlockedRepoCandidate : Bool

def PlanContext.blockedRepo (context : PlanContext) (c : ImportCandidate) : Bool :=
  c.classification.destination = .repo && context.hasBlockedRepoCandidate

omit [Digests] in
/-- The duplicates of a candidate. -/
def PlanContext.duplicates (context : PlanContext) (prior : SortedMap String Nat)
    (c : ImportCandidate) : List ImportDuplicate :=
  if context.blockedRepo c || (context.originReplays.get? c.originKey).isSome then sortDuplicates []
  else
    let earlier := (prior.get? c.contentHash).elim [] fun index =>
      [⟨.earlierCandidate, s!"candidate-{index}", none, some index⟩]
    sortDuplicates (byHash context.existing c.contentHash ++ earlier)

/-- The action of a candidate, with the counters and the identifiers after it. -/
def PlanContext.action [ImportEnvironment] (context : PlanContext) (state : PlanState)
    (duplicates : List ImportDuplicate) (c : ImportCandidate) :
    Fallible (ImportCandidateAction × ImportPlanSummary × List String) :=
  let summary := state.summary
  match context.originReplays.get? c.originKey with
  | some outcome =>
    .ok (.replay outcome.outcome outcome.destination outcome.recordId outcome.proposalId,
      { summary with replays := summary.replays + 1 }, state.usedIds)
  | none =>
    if context.blockedRepo c then
      .ok (.blocked (if c.nonRepoSafe then repoSensitivityBlockReason c.sensitivity
          else anotherCandidateBlockReason),
        { summary with needsReview := summary.needsReview + 1 }, state.usedIds)
    else if duplicates ≠ [] then
      .ok (.duplicate duplicates, { summary with duplicates := summary.duplicates + 1 },
        state.usedIds)
    else
      match c.policy.writeRoute with
      | .fileBackedProposal => do
        let (id, usedIds) ← reserveOkfProposalId s!"mem_import_{slug c.title}" state.usedIds
        .ok (.createProposal id s!".memzoi/proposals/pending/{id}.md",
          { summary with createProposals := summary.createProposals + 1 }, usedIds)
      | .runtimeLocal =>
        .ok (.createRuntime .runtimeLocal, { summary with localWrites := summary.localWrites + 1 },
          state.usedIds)
      | .runtimeSession =>
        .ok (.createRuntime .runtimeSession,
          { summary with sessionWrites := summary.sessionWrites + 1 }, state.usedIds)
      | .noWrite =>
        if c.policy.review = .humanDecision then
          .ok (.blocked c.classification.reason,
            { summary with needsReview := summary.needsReview + 1 }, state.usedIds)
        else
          .ok (.noWrite c.classification.reason,
            { summary with discarded := summary.discarded + 1 }, state.usedIds)

/-- The plan's copy of a candidate; one that is not repo-safe keeps placeholders. -/
def ImportCandidate.planned (c : ImportCandidate) (duplicates : List ImportDuplicate)
    (action : ImportCandidateAction) : ImportPlanCandidate where
  index := c.index
  originKey := c.originKey
  classification :=
    if c.nonRepoSafe then
      ⟨.repo, "non-repo-safe repo candidate requires classification or rerouting"⟩
    else c.classification
  policy := c.policy
  memoryType := c.memoryType
  lane := c.lane
  title := if c.nonRepoSafe then "Redacted non-repo-safe import candidate" else c.title
  body :=
    if c.nonRepoSafe then "Original non-repo-safe import candidate content was redacted."
    else c.body
  sensitivity := c.sensitivity
  contentClass := c.contentClass
  scope := if c.nonRepoSafe then ⟨c.scope.kind, none, []⟩ else c.scope
  tags := if c.nonRepoSafe then [] else c.tags
  contentHash := c.contentHash
  duplicates := duplicates
  action := action

/-- `prior.entry(hash).or_insert(index)`. -/
def orInsert (prior : SortedMap String Nat) (hash : String) (index : Nat) : SortedMap String Nat :=
  if (prior.get? hash).isSome then prior else prior.insert hash index

/-- One turn of the loop. -/
def PlanContext.step [ImportEnvironment] (context : PlanContext) (state : PlanState)
    (c : ImportCandidate) : Fallible PlanState := do
  let duplicates := context.duplicates state.prior c
  let (action, summary, usedIds) ← context.action state duplicates c
  .ok {
    usedIds := usedIds
    summary := summary
    prior :=
      if context.blockedRepo c then state.prior else orInsert state.prior c.contentHash c.index
    candidates := state.candidates ++ [c.planned duplicates action] }

def fingerprintPlan [ImportEnvironment] (actor : String) (plan : ImportPlan) : String :=
  "import_" ++ Digests.blake3
    (Text.trim actor ++ "\x00" ++ ImportEnvironment.planJson { plan with planId := "" })

/-- The locators of a source, trimmed. -/
def trimSource (source : OkfProposalSource) : OkfProposalSource where
  path := source.path.map Text.trim
  url := source.url.map Text.trim
  reference := source.reference.map Text.trim

/-- The variables before the first turn. -/
def PlanState.start (existing : List ExistingDuplicate) (reservedProposalIds : List String)
    (total : Nat) : PlanState where
  usedIds := existing.map (·.id) ++ reservedProposalIds
  summary := { total := total }
  prior := .empty
  candidates := []

/-- The plan after the last turn, with its fingerprint. -/
def assemblePlan [ImportEnvironment] (actor : String) (doc : ImportDocument)
    (hasBlockedRepoCandidate : Bool) (state : PlanState) : ImportPlan :=
  let sources := if hasBlockedRepoCandidate then [] else doc.sources
  let plan : ImportPlan := {
    schema := "memzoi/import-plan"
    planId := ""
    originKey := doc.originKey
    sources := (sources.map trimSource).insertionSort fun a b => sourceLe a b
    summary := state.summary
    candidates := state.candidates }
  { plan with planId := fingerprintPlan actor plan }

def buildPlan [ImportEnvironment] (actor : String) (doc : ImportDocument)
    (existing : List ExistingDuplicate) (reservedProposalIds : List String)
    (originReplays : SortedMap String OriginOutcome) : Fallible ImportPlan := do
  validateDocument doc
  let normalized ← normalizeDocument doc
  let hasBlockedRepoCandidate := normalized.any ImportCandidate.nonRepoSafe
  let context : PlanContext := ⟨existing, originReplays, hasBlockedRepoCandidate⟩
  let state ← runAll context.step (.start existing reservedProposalIds normalized.length) normalized
  .ok (assemblePlan actor doc hasBlockedRepoCandidate state)

/-- A plan comes from one run of the loop over the normalized candidates. -/
theorem buildPlan_eq_ok [ImportEnvironment] {actor : String} {doc : ImportDocument}
    {existing : List ExistingDuplicate} {reserved : List String}
    {replays : SortedMap String OriginOutcome} {plan : ImportPlan}
    (h : buildPlan actor doc existing reserved replays = .ok plan) :
    ∃ cs state, normalizeDocument doc = .ok cs ∧
      runAll (PlanContext.step ⟨existing, replays, cs.any ImportCandidate.nonRepoSafe⟩)
        (.start existing reserved cs.length) cs = .ok state ∧
      plan = assemblePlan actor doc (cs.any ImportCandidate.nonRepoSafe) state := by
  obtain ⟨-, h⟩ := check_bind_eq_ok.1 h
  obtain ⟨cs, hcs, h⟩ := bind_eq_ok.1 h
  obtain ⟨state, hstate, h⟩ := bind_eq_ok.1 h
  exact ⟨cs, state, hcs, hstate, (pure_eq_ok.1 h).symm⟩

end Import
end Memzoi
