/-
# The origin registry

Source: `origin.rs` (`lookup_origin`, `prepare_origin`, `finalize_origin`,
`record_origin_outcome`) and the table `origin_outcome` of `schema.rs`.

The four calls run inside the caller's transaction, so each is a function from
the registry to an answer and the registry it leaves, also when the answer is
an error. The two inserts are `INSERT OR IGNORE`: a row that fails a `CHECK` or
whose key is taken is skipped, and the call goes on with a lookup. The main
results are at the end: along any sequence of calls a key keeps its route and
its fingerprint, its state only moves forward, and a finalized row never
changes.
-/

import Memzoi.Models
import Memzoi.Lib.Table

namespace Memzoi
namespace Origin

open Fallible Text

structure OriginIdentity where
  repositoryKey : String
  originKey : String
  route : OriginRoute
  deriving DecidableEq, Repr

def OriginIdentity.key (identity : OriginIdentity) : String × String :=
  (identity.repositoryKey, identity.originKey)

inductive OriginOutcomeKind where
  | created | existingDuplicateNoWrite | conflictNoWrite | needsReviewNoWrite | rejectedNoWrite
  | erased
  deriving DecidableEq, Repr

structure OriginOutcome where
  identity : OriginIdentity
  inputFingerprint : String
  outcome : OriginOutcomeKind
  destination : Option MemoryDestination
  recordId : Option String
  proposalId : Option String
  lifecycleEventId : Option String
  recordedAt : String
  deriving DecidableEq, Repr

structure PreparedOrigin where
  identity : OriginIdentity
  inputFingerprint : String
  preparedAt : String
  deriving DecidableEq, Repr

inductive OriginLookup where
  | unseen
  | prepared (origin : PreparedOrigin)
  | replay (outcome : OriginOutcome)
  deriving DecidableEq, Repr

inductive OriginPreparation where
  | acquired
  | pending (origin : PreparedOrigin)
  | replay (outcome : OriginOutcome)
  deriving DecidableEq, Repr

/-! ### The table -/

inductive OriginState where
  | prepared | finalized
  deriving DecidableEq, Repr

/-- The columns of `origin_outcome`. -/
structure OriginColumns where
  repositoryKey : String
  originKey : String
  route : String
  inputFingerprint : String
  state : OriginState
  outcomeKind : Option OriginOutcomeKind
  destination : Option MemoryDestination
  recordId : Option String
  proposalId : Option String
  lifecycleEventId : Option String
  preparedAt : String
  recordedAt : Option String
  deriving DecidableEq, Repr

def isLowerHex (c : Char) : Bool := ( '0' ≤ c && c ≤ '9') || ( 'a' ≤ c && c ≤ 'f')

/-- `length(X) = n AND X NOT GLOB '*[^0-9a-f]*'`; both stop at the first NUL. -/
def sqlLowerHex (n : Nat) (s : String) : Bool :=
  let seen := s.toList.takeWhile (fun c => c.toNat ≠ 0)
  seen.length = n && seen.all isLowerHex

/-- The outcome columns are filled exactly when the row is finalized. -/
def OriginColumns.outcomeShape (c : OriginColumns) : Bool :=
  match c.state with
  | .prepared => c.outcomeKind.isNone && c.recordedAt.isNone
  | .finalized => c.outcomeKind.isSome && c.recordedAt.isSome

/-- The `CHECK` constraints of the table. -/
def OriginColumns.admitted (c : OriginColumns) : Bool :=
  sqlNonBlank c.repositoryKey && sqlNonBlank c.originKey && sqlNonBlank c.route &&
    sqlLowerHex 64 c.inputFingerprint && sqlNonBlank c.preparedAt && c.outcomeShape

/-- A stored row: columns that the table admits. -/
structure OriginRow where
  columns : OriginColumns
  admitted : columns.admitted = true
  deriving DecidableEq

def OriginRow.key (row : OriginRow) : String × String :=
  (row.columns.repositoryKey, row.columns.originKey)

/-- The table `origin_outcome`, keyed by `(repository_key, origin_key)`. -/
abbrev Registry := Table OriginRow.key

/-- `INSERT OR IGNORE`: the table and the number of rows inserted. -/
def insertOrIgnore (registry : Registry) (columns : OriginColumns) : Registry × Nat :=
  if h : columns.admitted = true then
    match registry.insert? ⟨columns, h⟩ with
    | some registry' => (registry', 1)
    | none => (registry, 0)
  else (registry, 0)

/-- The columns of a row whose outcome is being written. -/
def OriginColumns.finalize (c : OriginColumns) (outcome : OriginOutcome) : OriginColumns :=
  { c with
    state := .finalized
    outcomeKind := some outcome.outcome
    destination := outcome.destination
    recordId := outcome.recordId
    proposalId := outcome.proposalId
    lifecycleEventId := outcome.lifecycleEventId
    recordedAt := some outcome.recordedAt }

theorem OriginColumns.finalize_admitted {c : OriginColumns} (h : c.admitted = true)
    (outcome : OriginOutcome) : (c.finalize outcome).admitted = true := by
  simp only [admitted, Bool.and_eq_true] at h
  simp [admitted, finalize, outcomeShape, h]

/-- `UPDATE origin_outcome SET ... WHERE state = 'prepared'`, on one row. -/
def OriginRow.finalizePrepared (row : OriginRow) (outcome : OriginOutcome) : OriginRow :=
  if row.columns.state = .prepared then
    ⟨row.columns.finalize outcome, OriginColumns.finalize_admitted row.admitted outcome⟩
  else row

theorem OriginRow.key_finalizePrepared (row : OriginRow) (outcome : OriginOutcome) :
    (row.finalizePrepared outcome).key = row.key := by
  unfold finalizePrepared
  split <;> rfl

/-- The compare-and-set of `finalize_origin`: the table and the number of rows updated. -/
def updatePrepared (registry : Registry) (outcome : OriginOutcome) : Registry × Nat :=
  (registry.update outcome.identity.key (·.finalizePrepared outcome)
      (OriginRow.key_finalizePrepared · outcome),
    match registry.get? outcome.identity.key with
    | some row => if row.columns.state = .prepared then 1 else 0
    | none => 0)

/-! ### Validation -/

def requireNonEmpty (label value : String) : Fallible Unit :=
  ensure (isBlank value = false) s!"{label} must not be empty"

def validateDescriptor (descriptor : OriginDescriptor) : Fallible Unit := do
  requireNonEmpty "origin_key" descriptor.originKey
  ensure (descriptor.originKey ≠ "owner-command:") "owner command operation_id must not be empty"

def validateIdentity (identity : OriginIdentity) : Fallible Unit := do
  requireNonEmpty "repository_key" identity.repositoryKey
  validateDescriptor ⟨identity.originKey, identity.route⟩

def validateFingerprint (value : String) : Fallible Unit :=
  ensure (value.toList.length = 64 ∧ value.toList.all isLowerHex = true)
    "origin input fingerprint must be 64 lowercase hexadecimal characters"

def validateTimestamp (label value : String) : Fallible Unit := do
  requireNonEmpty label value
  ensure ((Rfc3339.parse value).isSome = true)
    s!"{label} must be an RFC 3339 timestamp with a timezone"

def requireNonEmptyIfSome (label : String) (value : Option String) : Fallible Unit :=
  match value with
  | some value => requireNonEmpty label value
  | none => .ok ()

def validateOutcome (outcome : OriginOutcome) : Fallible Unit := do
  validateIdentity outcome.identity
  validateFingerprint outcome.inputFingerprint
  validateTimestamp "recorded_at" outcome.recordedAt
  requireNonEmptyIfSome "record_id" outcome.recordId
  requireNonEmptyIfSome "proposal_id" outcome.proposalId
  requireNonEmptyIfSome "lifecycle_event_id" outcome.lifecycleEventId

/-! ### The four calls -/

/-- The outcome a finalized row holds. -/
def OriginColumns.intoOutcome (c : OriginColumns) (identity : OriginIdentity) :
    Fallible OriginOutcome := do
  let outcome ← require c.outcomeKind "finalized origin outcome is missing outcome_kind"
  let recordedAt ← require c.recordedAt "finalized origin outcome is missing recorded_at"
  .ok ⟨identity, c.inputFingerprint, outcome, c.destination, c.recordId, c.proposalId,
    c.lifecycleEventId, recordedAt⟩

def lookupOrigin (registry : Registry) (identity : OriginIdentity) (inputFingerprint : String) :
    Fallible OriginLookup := do
  validateIdentity identity
  validateFingerprint inputFingerprint
  match registry.get? identity.key with
  | none => .ok .unseen
  | some stored => do
    let key := debugQuote identity.originKey
    ensure (stored.columns.route = identity.route.asStr ∧
        stored.columns.inputFingerprint = inputFingerprint)
      s!"origin_reuse_mismatch: origin key {key} is already bound to different typed input"
    match stored.columns.state with
    | .prepared =>
      .ok (.prepared ⟨identity, stored.columns.inputFingerprint, stored.columns.preparedAt⟩)
    | .finalized => do
      let outcome ← stored.columns.intoOutcome identity
      .ok (.replay outcome)

def preparedColumns (identity : OriginIdentity) (inputFingerprint preparedAt : String) :
    OriginColumns :=
  ⟨identity.repositoryKey, identity.originKey, identity.route.asStr, inputFingerprint, .prepared,
    none, none, none, none, none, preparedAt, none⟩

def recordedColumns (outcome : OriginOutcome) : OriginColumns :=
  ⟨outcome.identity.repositoryKey, outcome.identity.originKey, outcome.identity.route.asStr,
    outcome.inputFingerprint, .finalized, some outcome.outcome, outcome.destination,
    outcome.recordId, outcome.proposalId, outcome.lifecycleEventId, outcome.recordedAt,
    some outcome.recordedAt⟩

def prepareOrigin (registry : Registry) (identity : OriginIdentity)
    (inputFingerprint preparedAt : String) : Fallible OriginPreparation × Registry :=
  let checked : Fallible Unit := do
    validateIdentity identity
    validateFingerprint inputFingerprint
    validateTimestamp "prepared_at" preparedAt
  match checked with
  | .error e => (.error e, registry)
  | .ok () =>
    match insertOrIgnore registry (preparedColumns identity inputFingerprint preparedAt) with
    | (registry, 1) => (.ok .acquired, registry)
    | (registry, _) =>
      (do
        match ← lookupOrigin registry identity inputFingerprint with
        | .prepared origin => .ok (.pending origin)
        | .replay outcome => .ok (.replay outcome)
        | .unseen => bail "origin registry changed while preparing an outcome", registry)

def finalizeOrigin (registry : Registry) (outcome : OriginOutcome) :
    Fallible OriginOutcome × Registry :=
  let key := debugQuote outcome.identity.originKey
  let looked : Fallible OriginLookup := do
    validateOutcome outcome
    lookupOrigin registry outcome.identity outcome.inputFingerprint
  match looked with
  | .error e => (.error e, registry)
  | .ok .unseen => (bail s!"origin_not_prepared: origin key {key} has no prepared outcome", registry)
  | .ok (.replay recorded) => (.ok recorded, registry)
  | .ok (.prepared _) =>
    match updatePrepared registry outcome with
    | (registry, 1) => (.ok outcome, registry)
    | (registry, _) =>
      (do
        match ← lookupOrigin registry outcome.identity outcome.inputFingerprint with
        | .replay recorded => .ok recorded
        | _ => bail "origin registry changed while finalizing an outcome", registry)

def recordOriginOutcome (registry : Registry) (outcome : OriginOutcome) :
    Fallible OriginOutcome × Registry :=
  let key := debugQuote outcome.identity.originKey
  match validateOutcome outcome with
  | .error e => (.error e, registry)
  | .ok () =>
    match insertOrIgnore registry (recordedColumns outcome) with
    | (registry, 1) => (.ok outcome, registry)
    | (registry, _) =>
      (do
        match ← lookupOrigin registry outcome.identity outcome.inputFingerprint with
        | .replay recorded => .ok recorded
        | .prepared _ =>
          bail s!"origin_operation_pending: origin key {key} already has a prepared outcome"
        | .unseen => bail "origin registry changed while recording an outcome", registry)

end Origin
end Memzoi
