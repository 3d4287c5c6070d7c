/-
# Origin history is write-once

Source: `origin.rs`, `lookup_origin` to `record_origin_outcome`.

`OriginCall.run_cases` says everything one call can do to the registry: nothing,
claim an unseen key, record an unseen key, or finalize a prepared row. All the
rest follows from it: a row only ever grows into its own extension
(`Extends`), along a call and so along any sequence of calls.
-/

import Memzoi.Origin

namespace Memzoi
namespace Origin

open Fallible Text

inductive OriginCall where
  | lookup (identity : OriginIdentity) (inputFingerprint : String)
  | prepare (identity : OriginIdentity) (inputFingerprint preparedAt : String)
  | finalize (outcome : OriginOutcome)
  | record (outcome : OriginOutcome)
  deriving DecidableEq, Repr

inductive OriginAnswer where
  | unseen
  | acquired
  | prepared (origin : PreparedOrigin)
  | outcome (outcome : OriginOutcome)
  deriving DecidableEq, Repr

def OriginLookup.answer : OriginLookup → OriginAnswer
  | .unseen => .unseen
  | .prepared origin => .prepared origin
  | .replay outcome => .outcome outcome

def OriginPreparation.answer : OriginPreparation → OriginAnswer
  | .acquired => .acquired
  | .pending origin => .prepared origin
  | .replay outcome => .outcome outcome

namespace OriginCall

def identity : OriginCall → OriginIdentity
  | lookup identity _ => identity
  | prepare identity _ _ => identity
  | finalize outcome => outcome.identity
  | record outcome => outcome.identity

def inputFingerprint : OriginCall → String
  | lookup _ fingerprint => fingerprint
  | prepare _ fingerprint _ => fingerprint
  | finalize outcome => outcome.inputFingerprint
  | record outcome => outcome.inputFingerprint

def key (call : OriginCall) : String × String := call.identity.key

/-- The checks a call makes on its own arguments, before it reads the registry. -/
def validate : OriginCall → Fallible Unit
  | lookup identity fingerprint => do
    validateIdentity identity
    validateFingerprint fingerprint
  | prepare identity fingerprint preparedAt => do
    validateIdentity identity
    validateFingerprint fingerprint
    validateTimestamp "prepared_at" preparedAt
  | finalize outcome => validateOutcome outcome
  | record outcome => validateOutcome outcome

def run (registry : Registry) : OriginCall → Fallible OriginAnswer × Registry
  | lookup identity fingerprint =>
    (OriginLookup.answer <$> lookupOrigin registry identity fingerprint, registry)
  | prepare identity fingerprint preparedAt =>
    let (answer, registry) := prepareOrigin registry identity fingerprint preparedAt
    (OriginPreparation.answer <$> answer, registry)
  | finalize outcome =>
    let (answer, registry) := finalizeOrigin registry outcome
    (OriginAnswer.outcome <$> answer, registry)
  | record outcome =>
    let (answer, registry) := recordOriginOutcome registry outcome
    (OriginAnswer.outcome <$> answer, registry)

end OriginCall

/-- The registry after a sequence of calls, failed ones included. -/
def runCalls (registry : Registry) : List OriginCall → Registry
  | [] => registry
  | call :: calls => runCalls (call.run registry).2 calls

/-! ### Inserts, updates and lookups -/

theorem insertOrIgnore_cases {registry registry' : Registry} {columns : OriginColumns} {n : Nat}
    (h : insertOrIgnore registry columns = (registry', n)) :
    (n = 0 ∧ registry' = registry) ∨
      n = 1 ∧ ∃ row : OriginRow, row.columns = columns ∧ registry.insert? row = some registry' := by
  unfold insertOrIgnore at h
  split at h
  · rename_i hadmitted
    split at h
    · rename_i registry'' hinsert
      cases h
      exact Or.inr ⟨rfl, ⟨columns, hadmitted⟩, rfl, hinsert⟩
    · cases h; exact Or.inl ⟨rfl, rfl⟩
  · cases h; exact Or.inl ⟨rfl, rfl⟩

/-- The row of a key is bound to the route and the fingerprint of a call. -/
def OriginRow.boundTo (row : OriginRow) (identity : OriginIdentity) (fingerprint : String) : Prop :=
  row.columns.route = identity.route.asStr ∧ row.columns.inputFingerprint = fingerprint

/-- A finalized row holds an outcome; the table admits no other finalized row. -/
theorem OriginRow.intoOutcome_of_finalized {row : OriginRow} (h : row.columns.state = .finalized)
    (identity : OriginIdentity) : ∃ outcome, row.columns.intoOutcome identity = .ok outcome := by
  have hadmitted := row.admitted
  simp only [OriginColumns.admitted, Bool.and_eq_true, OriginColumns.outcomeShape, h] at hadmitted
  obtain ⟨-, hkind, hrecorded⟩ := hadmitted
  obtain ⟨kind, hkind⟩ := Option.isSome_iff_exists.1 hkind
  obtain ⟨recordedAt, hrecorded⟩ := Option.isSome_iff_exists.1 hrecorded
  simp [OriginColumns.intoOutcome, hkind, hrecorded]

theorem lookupOrigin_unseen {registry : Registry} {identity : OriginIdentity} {fingerprint : String}
    (hkey : registry.get? identity.key = none) {answer : OriginLookup}
    (h : lookupOrigin registry identity fingerprint = .ok answer) : answer = .unseen := by
  unfold lookupOrigin at h
  simp only [check_bind_eq_ok, hkey] at h
  exact (Except.ok.inj h.2.2).symm

/-- A lookup that answers with a row found the key bound to the same route and fingerprint. -/
theorem lookupOrigin_row {registry : Registry} {identity : OriginIdentity} {fingerprint : String}
    {row : OriginRow} (hkey : registry.get? identity.key = some row) {answer : OriginLookup}
    (h : lookupOrigin registry identity fingerprint = .ok answer) :
    row.boundTo identity fingerprint ∧
      ((row.columns.state = .prepared ∧
          answer = .prepared ⟨identity, fingerprint, row.columns.preparedAt⟩) ∨
        (row.columns.state = .finalized ∧
          ∃ outcome, row.columns.intoOutcome identity = .ok outcome ∧ answer = .replay outcome)) := by
  unfold lookupOrigin at h
  simp only [check_bind_eq_ok, ensure_eq_ok, hkey] at h
  obtain ⟨-, -, ⟨hroute, hfingerprint⟩, h⟩ := h
  refine ⟨⟨hroute, hfingerprint⟩, ?_⟩
  cases hstate : row.columns.state with
  | prepared =>
      simp only [hstate, Except.ok.injEq] at h
      exact Or.inl ⟨rfl, by rw [← h, hfingerprint]⟩
  | finalized =>
      simp only [hstate] at h
      obtain ⟨outcome, houtcome, h⟩ := bind_eq_ok.1 h
      exact Or.inr ⟨rfl, outcome, houtcome, (Except.ok.inj h).symm⟩

/-- A lookup of a finalized row that is bound to the call replays its outcome. -/
theorem lookupOrigin_finalized {registry : Registry} {identity : OriginIdentity}
    {fingerprint : String} {row : OriginRow} (hkey : registry.get? identity.key = some row)
    (hbound : row.boundTo identity fingerprint) (hstate : row.columns.state = .finalized)
    {outcome : OriginOutcome} (houtcome : row.columns.intoOutcome identity = .ok outcome)
    (hidentity : validateIdentity identity = .ok ())
    (hfingerprint : validateFingerprint fingerprint = .ok ()) :
    lookupOrigin registry identity fingerprint = .ok (.replay outcome) := by
  unfold lookupOrigin
  simp only [hidentity, hfingerprint, hkey, ok_bind, hstate, houtcome]
  rw [ensure_of ⟨hbound.1, hbound.2⟩, ok_bind]

/-- An insert under a taken key is skipped. -/
theorem insertOrIgnore_taken {registry : Registry} {columns : OriginColumns} {row : OriginRow}
    (h : registry.get? (columns.repositoryKey, columns.originKey) = some row) :
    insertOrIgnore registry columns = (registry, 0) := by
  rcases hinsert : insertOrIgnore registry columns with ⟨registry', n⟩
  rcases insertOrIgnore_cases hinsert with ⟨rfl, rfl⟩ | ⟨-, new, hcolumns, hnew⟩
  · rfl
  · have hfresh := Table.insert?_fresh hnew
    rw [OriginRow.key, hcolumns, h] at hfresh
    cases hfresh

/-! ### What one call does -/

/-- Everything one call can do to the registry. -/
theorem OriginCall.run_cases (call : OriginCall) (registry : Registry) :
    (call.run registry).2 = registry ∨
    (∃ identity fingerprint preparedAt row, call = .prepare identity fingerprint preparedAt ∧
      row.columns = preparedColumns identity fingerprint preparedAt ∧
      registry.insert? row = some (call.run registry).2 ∧
      (call.run registry).1 = .ok .acquired) ∨
    (∃ outcome row, call = .record outcome ∧ row.columns = recordedColumns outcome ∧
      registry.insert? row = some (call.run registry).2 ∧
      (call.run registry).1 = .ok (.outcome outcome)) ∨
    (∃ outcome row, call = .finalize outcome ∧ registry.get? outcome.identity.key = some row ∧
      row.columns.state = .prepared ∧
      (call.run registry).2 = registry.update outcome.identity.key (·.finalizePrepared outcome)
        (OriginRow.key_finalizePrepared · outcome) ∧
      (call.run registry).1 = .ok (.outcome outcome)) := by
  cases call with
  | lookup identity fingerprint => exact Or.inl rfl
  | prepare identity fingerprint preparedAt =>
      simp only [OriginCall.run, prepareOrigin]
      split
      · exact Or.inl rfl
      · rcases hinsert : insertOrIgnore registry
            (preparedColumns identity fingerprint preparedAt) with ⟨registry', n⟩
        rcases insertOrIgnore_cases hinsert with ⟨rfl, rfl⟩ | ⟨rfl, row, hcolumns, hnew⟩
        · exact Or.inl rfl
        · exact Or.inr (Or.inl ⟨identity, fingerprint, preparedAt, row, rfl, hcolumns, hnew, rfl⟩)
  | record outcome =>
      simp only [OriginCall.run, recordOriginOutcome]
      split
      · exact Or.inl rfl
      · rcases hinsert : insertOrIgnore registry (recordedColumns outcome) with ⟨registry', n⟩
        rcases insertOrIgnore_cases hinsert with ⟨rfl, rfl⟩ | ⟨rfl, row, hcolumns, hnew⟩
        · exact Or.inl rfl
        · exact Or.inr (Or.inr (Or.inl ⟨outcome, row, rfl, hcolumns, hnew, rfl⟩))
  | finalize outcome =>
      simp only [OriginCall.run, finalizeOrigin]
      split
      · exact Or.inl rfl
      · exact Or.inl rfl
      · exact Or.inl rfl
      · rename_i prepared hlooked
        obtain ⟨-, hlookup⟩ := check_bind_eq_ok.1 hlooked
        cases hkey : registry.get? outcome.identity.key with
        | none => cases lookupOrigin_unseen hkey hlookup
        | some row =>
            rcases (lookupOrigin_row hkey hlookup).2 with ⟨hstate, -⟩ | ⟨-, _, -, hreplay⟩
            · have hupdate : updatePrepared registry outcome =
                  (registry.update outcome.identity.key (·.finalizePrepared outcome)
                    (OriginRow.key_finalizePrepared · outcome), 1) := by
                simp [updatePrepared, hkey, hstate]
              rw [hupdate]
              exact Or.inr (Or.inr (Or.inr ⟨outcome, row, rfl, hkey, hstate, rfl, rfl⟩))
            · cases hreplay

/-- A call that succeeds on a stored row passed its own checks, and the row is bound to it. -/
theorem OriginCall.run_ok_bound {call : OriginCall} {registry : Registry} {row : OriginRow}
    (hkey : registry.get? call.key = some row) {answer : OriginAnswer}
    (h : (call.run registry).1 = .ok answer) :
    call.validate = .ok () ∧ row.boundTo call.identity call.inputFingerprint := by
  cases call with
  | lookup identity fingerprint =>
      obtain ⟨looked, hlooked, -⟩ := map_eq_ok.1 h
      refine ⟨?_, (lookupOrigin_row hkey hlooked).1⟩
      unfold lookupOrigin at hlooked
      simp only [check_bind_eq_ok] at hlooked
      simp only [validate, check_bind_eq_ok]
      exact ⟨hlooked.1, hlooked.2.1⟩
  | prepare identity fingerprint preparedAt =>
      simp only [OriginCall.run, prepareOrigin] at h
      split at h
      · cases h
      · rename_i hchecked
        rw [insertOrIgnore_taken hkey] at h
        obtain ⟨prepared, hprepared, -⟩ := map_eq_ok.1 h
        obtain ⟨looked, hlooked, -⟩ := bind_eq_ok.1 hprepared
        exact ⟨hchecked, (lookupOrigin_row hkey hlooked).1⟩
  | record outcome =>
      simp only [OriginCall.run, recordOriginOutcome] at h
      split at h
      · cases h
      · rename_i hchecked
        rw [insertOrIgnore_taken hkey] at h
        obtain ⟨recorded, hrecorded, -⟩ := map_eq_ok.1 h
        obtain ⟨looked, hlooked, -⟩ := bind_eq_ok.1 hrecorded
        exact ⟨hchecked, (lookupOrigin_row hkey hlooked).1⟩
  | finalize outcome =>
      have hlooked : ∃ looked, validateOutcome outcome = .ok () ∧
          lookupOrigin registry outcome.identity outcome.inputFingerprint = .ok looked := by
        simp only [OriginCall.run, finalizeOrigin] at h
        split at h
        · cases h
        · rename_i hlooked; exact ⟨_, check_bind_eq_ok.1 hlooked⟩
        · rename_i hlooked; exact ⟨_, check_bind_eq_ok.1 hlooked⟩
        · rename_i hlooked; exact ⟨_, check_bind_eq_ok.1 hlooked⟩
      obtain ⟨looked, hvalid, hlookup⟩ := hlooked
      exact ⟨hvalid, (lookupOrigin_row hkey hlookup).1⟩

/-- A preparation that succeeds claims a free key, or reads the row under a taken one. -/
theorem prepareOrigin_ok {registry registry' : Registry} {identity : OriginIdentity}
    {fingerprint preparedAt : String} {answer : OriginPreparation}
    (h : prepareOrigin registry identity fingerprint preparedAt = (.ok answer, registry')) :
    validateIdentity identity = .ok () ∧ validateFingerprint fingerprint = .ok () ∧
      ((answer = .acquired ∧ ∃ row : OriginRow,
          row.columns = preparedColumns identity fingerprint preparedAt ∧
          registry.insert? row = some registry') ∨
        (registry' = registry ∧ ∃ looked, lookupOrigin registry identity fingerprint = .ok looked ∧
          looked.answer = answer.answer)) := by
  unfold prepareOrigin at h
  dsimp only at h
  split at h
  · cases h
  · rename_i hchecked
    simp only [check_bind_eq_ok] at hchecked
    obtain ⟨hidentity, hfingerprint, -⟩ := hchecked
    refine ⟨hidentity, hfingerprint, ?_⟩
    rcases hinsert : insertOrIgnore registry (preparedColumns identity fingerprint preparedAt)
      with ⟨next, n⟩
    rw [hinsert] at h
    rcases insertOrIgnore_cases hinsert with ⟨rfl, rfl⟩ | ⟨rfl, row, hcolumns, hnew⟩
    · obtain ⟨hanswer, rfl⟩ := Prod.mk.inj h
      obtain ⟨looked, hlooked, hanswer⟩ := bind_eq_ok.1 hanswer
      refine Or.inr ⟨rfl, looked, hlooked, ?_⟩
      cases looked with
      | unseen => cases hanswer
      | prepared origin => cases hanswer; rfl
      | replay outcome => cases hanswer; rfl
    · obtain ⟨hanswer, rfl⟩ := Prod.mk.inj h
      exact Or.inl ⟨(Except.ok.inj hanswer).symm, row, hcolumns, hnew⟩

/-- A finalization that succeeds on a prepared row writes its outcome there. -/
theorem finalizeOrigin_prepared {registry registry' : Registry} {outcome recorded : OriginOutcome}
    {row : OriginRow} (hkey : registry.get? outcome.identity.key = some row)
    (hstate : row.columns.state = .prepared)
    (h : finalizeOrigin registry outcome = (.ok recorded, registry')) :
    recorded = outcome ∧ registry' = registry.update outcome.identity.key
      (·.finalizePrepared outcome) (OriginRow.key_finalizePrepared · outcome) := by
  have hupdate : updatePrepared registry outcome =
      (registry.update outcome.identity.key (·.finalizePrepared outcome)
        (OriginRow.key_finalizePrepared · outcome), 1) := by
    simp [updatePrepared, hkey, hstate]
  unfold finalizeOrigin at h
  dsimp only at h
  split at h
  · cases h
  · rename_i hlooked
    obtain ⟨-, hlookup⟩ := check_bind_eq_ok.1 hlooked
    rcases (lookupOrigin_row hkey hlookup).2 with ⟨-, hanswer⟩ | ⟨hfinal, -⟩
    · cases hanswer
    · rw [hstate] at hfinal
      cases hfinal
  · rename_i hlooked
    obtain ⟨-, hlookup⟩ := check_bind_eq_ok.1 hlooked
    rcases (lookupOrigin_row hkey hlookup).2 with ⟨-, hanswer⟩ | ⟨hfinal, -⟩
    · cases hanswer
    · rw [hstate] at hfinal
      cases hfinal
  · rw [hupdate] at h
    obtain ⟨hanswer, hregistry⟩ := Prod.mk.inj h
    exact ⟨(Except.ok.inj hanswer).symm, hregistry.symm⟩

/-- Every well-formed call on a finalized row that is bound to it answers with the outcome of
the row, whatever outcome the call carries, and changes nothing. -/
theorem OriginCall.run_finalized {call : OriginCall} {registry : Registry} {row : OriginRow}
    (hkey : registry.get? call.key = some row)
    (hbound : row.boundTo call.identity call.inputFingerprint)
    (hstate : row.columns.state = .finalized) {outcome : OriginOutcome}
    (houtcome : row.columns.intoOutcome call.identity = .ok outcome)
    (hvalid : call.validate = .ok ()) :
    call.run registry = (.ok (.outcome outcome), registry) := by
  have hvalidate : ∀ {o : OriginOutcome}, validateOutcome o = .ok () →
      validateIdentity o.identity = .ok () ∧ validateFingerprint o.inputFingerprint = .ok () := by
    intro o ho
    simp only [validateOutcome, check_bind_eq_ok] at ho
    exact ⟨ho.1, ho.2.1⟩
  cases call with
  | lookup identity fingerprint =>
      obtain ⟨hidentity, hfingerprint⟩ := check_bind_eq_ok.1 hvalid
      have hlookup : lookupOrigin registry identity fingerprint = .ok (.replay outcome) :=
        lookupOrigin_finalized hkey hbound hstate houtcome hidentity hfingerprint
      simp only [OriginCall.run, hlookup]
      rfl
  | prepare identity fingerprint preparedAt =>
      obtain ⟨hidentity, hrest⟩ := check_bind_eq_ok.1 hvalid
      obtain ⟨hfingerprint, -⟩ := check_bind_eq_ok.1 hrest
      have hlookup : lookupOrigin registry identity fingerprint = .ok (.replay outcome) :=
        lookupOrigin_finalized hkey hbound hstate houtcome hidentity hfingerprint
      have hinsert : insertOrIgnore registry (preparedColumns identity fingerprint preparedAt) =
          (registry, 0) := insertOrIgnore_taken hkey
      simp only [validate] at hvalid
      simp only [OriginCall.run, prepareOrigin, hvalid, hinsert, hlookup]
      rfl
  | record o =>
      obtain ⟨hidentity, hfingerprint⟩ := hvalidate hvalid
      have hlookup : lookupOrigin registry o.identity o.inputFingerprint = .ok (.replay outcome) :=
        lookupOrigin_finalized hkey hbound hstate houtcome hidentity hfingerprint
      have hinsert : insertOrIgnore registry (recordedColumns o) = (registry, 0) :=
        insertOrIgnore_taken hkey
      simp only [validate] at hvalid
      simp only [OriginCall.run, recordOriginOutcome, hvalid, hinsert, hlookup]
      rfl
  | finalize o =>
      obtain ⟨hidentity, hfingerprint⟩ := hvalidate hvalid
      have hlookup : lookupOrigin registry o.identity o.inputFingerprint = .ok (.replay outcome) :=
        lookupOrigin_finalized hkey hbound hstate houtcome hidentity hfingerprint
      simp only [validate] at hvalid
      simp only [OriginCall.run, finalizeOrigin, hvalid, ok_bind, hlookup]
      rfl

/-! ### Along a sequence of calls -/

/-- A later version of a row: the same binding, and the same row once finalized. -/
def OriginRow.Extends (row row' : OriginRow) : Prop :=
  row'.columns.route = row.columns.route ∧
    row'.columns.inputFingerprint = row.columns.inputFingerprint ∧
    (row.columns.state = .finalized → row' = row)

theorem OriginRow.extends_finalizePrepared (row : OriginRow) (outcome : OriginOutcome) :
    row.Extends (row.finalizePrepared outcome) := by
  unfold finalizePrepared
  split
  · rename_i hprepared
    exact ⟨rfl, rfl, fun h => by rw [hprepared] at h; cases h⟩
  · exact ⟨rfl, rfl, fun _ => rfl⟩

theorem OriginRow.Extends.trans {a b c : OriginRow} (hab : a.Extends b) (hbc : b.Extends c) :
    a.Extends c := by
  obtain ⟨hroute, hfingerprint, hrow⟩ := hab
  refine ⟨hbc.1.trans hroute, hbc.2.1.trans hfingerprint, fun h => ?_⟩
  have hba : b = a := hrow h
  subst hba
  exact hbc.2.2 h

/-- One call keeps every row, up to an extension. -/
theorem OriginCall.run_extends (call : OriginCall) {registry : Registry}
    {key : String × String} {row : OriginRow} (hkey : registry.get? key = some row) :
    ∃ row', (call.run registry).2.get? key = some row' ∧ row.Extends row' := by
  have hinsert : ∀ new : OriginRow, registry.insert? new = some (call.run registry).2 →
      ∃ row', (call.run registry).2.get? key = some row' ∧ row.Extends row' := by
    intro new hnew
    refine ⟨row, ?_, rfl, rfl, fun _ => rfl⟩
    rw [Table.get?_insert? hnew, if_neg, hkey]
    rintro rfl
    rw [Table.insert?_fresh hnew] at hkey
    cases hkey
  rcases call.run_cases registry with hsame | ⟨_, _, _, new, -, -, hnew, -⟩ |
    ⟨_, new, -, -, hnew, -⟩ | ⟨outcome, _, -, -, -, hupdate, -⟩
  · exact ⟨row, by rw [hsame, hkey], rfl, rfl, fun _ => rfl⟩
  · exact hinsert new hnew
  · exact hinsert new hnew
  · rw [hupdate, Table.get?_update, hkey]
    split
    · exact ⟨_, rfl, row.extends_finalizePrepared outcome⟩
    · exact ⟨row, rfl, rfl, rfl, fun _ => rfl⟩

theorem runCalls_extends (calls : List OriginCall) {registry : Registry} {key : String × String}
    {row : OriginRow} (hkey : registry.get? key = some row) :
    ∃ row', (runCalls registry calls).get? key = some row' ∧ row.Extends row' := by
  induction calls generalizing registry row with
  | nil => exact ⟨row, hkey, rfl, rfl, fun _ => rfl⟩
  | cons call calls ih =>
      obtain ⟨next, hnext, hextends⟩ := call.run_extends hkey
      obtain ⟨last, hlast, hrest⟩ := ih hnext
      exact ⟨last, hlast, hextends.trans hrest⟩

/-! ### The state of a key -/

inductive OriginProgress where
  | unseen | prepared | finalized
  deriving DecidableEq, Repr

def OriginProgress.rank : OriginProgress → Nat
  | unseen => 0
  | prepared => 1
  | finalized => 2

def OriginState.progress : OriginState → OriginProgress
  | prepared => .prepared
  | finalized => .finalized

/-- How far a key has come: no row, a prepared row, a finalized row. -/
def progress (registry : Registry) (key : String × String) : OriginProgress :=
  match registry.get? key with
  | none => .unseen
  | some row => row.columns.state.progress

theorem progress_of_none {registry : Registry} {key : String × String}
    (h : registry.get? key = none) : progress registry key = .unseen := by
  rw [progress, h]

theorem progress_of_some {registry : Registry} {key : String × String} {row : OriginRow}
    (h : registry.get? key = some row) : progress registry key = row.columns.state.progress := by
  rw [progress, h]

/-- Along any sequence of calls the state of a key only moves forward. -/
theorem runCalls_progress (calls : List OriginCall) (registry : Registry)
    (key : String × String) :
    (progress registry key).rank ≤ (progress (runCalls registry calls) key).rank := by
  cases hrow : registry.get? key with
  | none => rw [progress_of_none hrow]; exact Nat.zero_le _
  | some row =>
      obtain ⟨row', hrow', -, -, hsame⟩ := runCalls_extends calls hrow
      rw [progress_of_some hrow, progress_of_some hrow']
      cases hstate : row.columns.state with
      | prepared => cases row'.columns.state <;> decide
      | finalized => rw [hsame hstate, hstate]

/-- A call moves no key but its own: from unseen to prepared by a preparation, from unseen to
finalized by a direct record, from prepared to finalized by a finalization. The row it
finalizes holds the outcome it answers. -/
theorem OriginCall.run_moves (call : OriginCall) (registry : Registry) (key : String × String)
    (hmove : progress (call.run registry).2 key ≠ progress registry key) :
    key = call.key ∧
      ((∃ identity fingerprint preparedAt, call = .prepare identity fingerprint preparedAt ∧
          progress registry key = .unseen ∧ progress (call.run registry).2 key = .prepared) ∨
        (∃ outcome row, (call.run registry).1 = .ok (.outcome outcome) ∧
          (call = .record outcome ∧ progress registry key = .unseen ∨
            call = .finalize outcome ∧ progress registry key = .prepared) ∧
          (call.run registry).2.get? key = some row ∧ row.columns.state = .finalized ∧
          row.columns.intoOutcome outcome.identity = .ok outcome)) := by
  have hinsert : ∀ new : OriginRow, registry.insert? new = some (call.run registry).2 →
      key = new.key ∧ progress registry key = .unseen ∧
        (call.run registry).2.get? key = some new := by
    intro new hnew
    by_cases hkey : new.key = key
    · subst hkey
      refine ⟨rfl, progress_of_none (Table.insert?_fresh hnew), ?_⟩
      rw [Table.get?_insert? hnew, if_pos rfl]
    · refine absurd ?_ hmove
      rw [progress, progress, Table.get?_insert? hnew, if_neg hkey]
  rcases call.run_cases registry with hsame |
    ⟨identity, fingerprint, preparedAt, new, rfl, hcolumns, hnew, -⟩ |
    ⟨outcome, new, rfl, hcolumns, hnew, hanswer⟩ |
    ⟨outcome, row, rfl, hrow, hstate, hupdate, hanswer⟩
  · rw [hsame] at hmove
    exact absurd rfl hmove
  · obtain ⟨hkey, hunseen, hget⟩ := hinsert new hnew
    refine ⟨by rw [hkey, OriginRow.key, hcolumns]; rfl,
      Or.inl ⟨identity, fingerprint, preparedAt, rfl, hunseen, ?_⟩⟩
    rw [progress_of_some hget, hcolumns]
    rfl
  · obtain ⟨hkey, hunseen, hget⟩ := hinsert new hnew
    refine ⟨by rw [hkey, OriginRow.key, hcolumns]; rfl,
      Or.inr ⟨outcome, new, hanswer, Or.inl ⟨rfl, hunseen⟩, hget, by rw [hcolumns]; rfl, ?_⟩⟩
    rw [hcolumns]
    rfl
  · by_cases hkey : outcome.identity.key = key
    · subst hkey
      have hget : ((OriginCall.finalize outcome).run registry).2.get? outcome.identity.key =
          some (row.finalizePrepared outcome) := by
        rw [hupdate, Table.get?_update_self, hrow]
        rfl
      have hcolumns : (row.finalizePrepared outcome).columns = row.columns.finalize outcome := by
        rw [OriginRow.finalizePrepared, if_pos hstate]
      have hbound := (OriginCall.run_ok_bound hrow hanswer).2.2
      refine ⟨rfl, Or.inr ⟨outcome, _, hanswer, Or.inr ⟨rfl, ?_⟩, hget, ?_, ?_⟩⟩
      · rw [progress_of_some hrow, hstate]; rfl
      · rw [hcolumns]; rfl
      · rw [hcolumns, OriginColumns.finalize, OriginColumns.intoOutcome]
        simp only [require_some, ok_bind, hbound]
        rfl
    · refine absurd ?_ hmove
      rw [progress, progress, hupdate, Table.get?_update_of_ne _ _ _ hkey]

/-- Origin history is write-once. Start from any registry, make any calls, then one more.
Every row is still there, bound to the same route and fingerprint, and unchanged if it was
finalized; no key has moved back. The last call, if it fails, changes nothing; it fails on a
row bound to another route or fingerprint; on a finalized row it answers with the stored
outcome, or fails its own argument checks; and it moves a key only forward, only its own, to
prepared by a preparation and to finalized by a finalization of a prepared row or by a direct
record of an unseen key, which store the outcome they answer. -/
theorem originHistory_writeOnce (registry : Registry) (calls : List OriginCall)
    (call : OriginCall) :
    (∀ key row, registry.get? key = some row →
      ∃ row', (runCalls registry calls).get? key = some row' ∧ row.Extends row') ∧
    (∀ key, (progress registry key).rank ≤ (progress (runCalls registry calls) key).rank) ∧
    ((∀ answer, (call.run (runCalls registry calls)).1 ≠ .ok answer) →
      (call.run (runCalls registry calls)).2 = runCalls registry calls) ∧
    (∀ row, (runCalls registry calls).get? call.key = some row →
      ¬ row.boundTo call.identity call.inputFingerprint →
      ∀ answer, (call.run (runCalls registry calls)).1 ≠ .ok answer) ∧
    (∀ row, (runCalls registry calls).get? call.key = some row →
      row.boundTo call.identity call.inputFingerprint → row.columns.state = .finalized →
      ∃ outcome, row.columns.intoOutcome call.identity = .ok outcome ∧
        (call.validate = .ok () →
          call.run (runCalls registry calls) = (.ok (.outcome outcome), runCalls registry calls)) ∧
        (call.validate ≠ .ok () → ∀ answer, (call.run (runCalls registry calls)).1 ≠ .ok answer)) ∧
    (∀ key, progress (call.run (runCalls registry calls)).2 key
        ≠ progress (runCalls registry calls) key →
      key = call.key ∧
        ((∃ identity fingerprint preparedAt, call = .prepare identity fingerprint preparedAt ∧
            progress (runCalls registry calls) key = .unseen ∧
            progress (call.run (runCalls registry calls)).2 key = .prepared) ∨
          (∃ outcome row, (call.run (runCalls registry calls)).1 = .ok (.outcome outcome) ∧
            (call = .record outcome ∧ progress (runCalls registry calls) key = .unseen ∨
              call = .finalize outcome ∧ progress (runCalls registry calls) key = .prepared) ∧
            (call.run (runCalls registry calls)).2.get? key = some row ∧
            row.columns.state = .finalized ∧
            row.columns.intoOutcome outcome.identity = .ok outcome))) := by
  refine ⟨fun key row hrow => runCalls_extends calls hrow, runCalls_progress calls registry,
    ?_, ?_, ?_, fun key => call.run_moves _ key⟩
  · intro hfails
    rcases call.run_cases (runCalls registry calls) with hsame | ⟨_, _, _, _, -, -, -, hanswer⟩ |
      ⟨_, _, -, -, -, hanswer⟩ | ⟨_, _, -, -, -, -, hanswer⟩
    · exact hsame
    · exact absurd hanswer (hfails _)
    · exact absurd hanswer (hfails _)
    · exact absurd hanswer (hfails _)
  · intro row hrow hother answer hanswer
    exact hother (OriginCall.run_ok_bound hrow hanswer).2
  · intro row hrow hbound hstate
    obtain ⟨outcome, houtcome⟩ := row.intoOutcome_of_finalized hstate call.identity
    refine ⟨outcome, houtcome, fun hvalid => ?_, fun hinvalid answer hanswer => ?_⟩
    · exact OriginCall.run_finalized hrow hbound hstate houtcome hvalid
    · exact hinvalid (OriginCall.run_ok_bound hrow hanswer).1

/-- A direct record of an unseen origin. -/
def directRecord : OriginOutcome :=
  ⟨⟨"repository", "event-1", .localMemory⟩,
    "0000000000000000000000000000000000000000000000000000000000000000", .created, none, none, none,
    none, "2026-07-14T10:30:00Z"⟩

/-- Not every move is one step along unseen, prepared, finalized: a direct record skips the
prepared state. -/
theorem recordOriginOutcome_skips_prepared :
    ¬ ∀ (registry : Registry) (call : OriginCall) (key : String × String),
      (progress (call.run registry).2 key).rank ≤ (progress registry key).rank + 1 := by
  intro h
  exact absurd (h Table.empty (.record directRecord) directRecord.identity.key) (by decide)

end Origin
end Memzoi
