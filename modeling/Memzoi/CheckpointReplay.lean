/-
# Repeating a checkpoint command

Source: `service.rs` and `service/session_end_route_apply.rs`; the commands are
in `Memzoi.CheckpointCommands`.

A repeat finds the finalized origin row of the first call and reads its answer
back: the outcome from the row, the version from the event the row names. A
closure of a checkpoint that is closed already names no event, so its repeat
reads the version the checkpoint has by then. `presentVersionTarget` is that
checkpoint, and `checkpoint_idempotence` says that a repeat answers the same
exactly when its version is still the same.
-/

import Memzoi.CheckpointRules
import Memzoi.Lib.Run

namespace Memzoi
namespace Checkpoint

open Fallible Retention OffsetDateTime Origin
open PrivateLifecycle (Digests view)

/-! ### Origins name their events -/

/-- Every event an origin row names is in the log. -/
def OriginsNameEvents (db : Db) : Prop :=
  ∀ key row eventId, db.origins.get? key = some row → row.columns.lifecycleEventId = some eventId →
    ∃ event, db.events.get? eventId = some event

theorem originsNameEvents_initial (updatedAt : String) : OriginsNameEvents (Db.initial updatedAt) := by
  intro key row eventId hrow
  cases hrow

theorem OriginsNameEvents.keeps {db db' : Db} (h : OriginsNameEvents db) (hkept : Keeps db db')
    (horigins : db'.origins = db.origins) : OriginsNameEvents db' := by
  intro key row eventId hrow hevent
  rw [horigins] at hrow
  obtain ⟨event, hstored⟩ := h key row eventId hrow hevent
  exact ⟨event, hkept.events eventId event hstored⟩

/-- What an event holds stays what it was, once it is in the log. -/
theorem eventRecordVersion_later {db db' : Db} {eventId : Option String} (hkept : Keeps db db')
    (hnamed : ∀ id, eventId = some id → ∃ event, db.events.get? id = some event) :
    eventRecordVersion db' eventId = eventRecordVersion db eventId := by
  cases eventId with
  | none => rfl
  | some id =>
      obtain ⟨event, hevent⟩ := hnamed id rfl
      simp only [eventRecordVersion, Option.bind_eq_bind, Option.bind_some, hevent,
        hkept.events id event hevent]

theorem eventRecordVersion_of_versioned {db : Db} {event : MemoryEvent} (h : Versioned db event) :
    ∃ version, eventRecordVersion db (some event.id) = some version := by
  obtain ⟨version, hversion⟩ := Option.isSome_iff_exists.1 h.2
  exact ⟨version, by simp only [eventRecordVersion, Option.bind_eq_bind, Option.bind_some, h.1,
    hversion]⟩

section Service

variable [CheckpointService]

theorem Completes.namesEvents {db db' : Db} {operation : CheckpointOperation}
    {outcome : OriginOutcome} (h : Completes db db' operation outcome)
    (hnames : OriginsNameEvents db) : OriginsNameEvents db' := by
  intro key row eventId hrow hevent
  rcases h.rows key row hrow with hold | hnew
  · obtain ⟨event, hstored⟩ := hnames key row eventId hold hevent
    exact ⟨event, h.carries.events eventId event hstored⟩
  · obtain ⟨id, -, -, ⟨-, event, hnamed, hversioned⟩ | ⟨-, hnone, -⟩⟩ := h.source
    · rw [hnew, hnamed] at hevent
      cases hevent
      exact ⟨event, hversioned.1⟩
    · rw [hnew, hnone] at hevent
      cases hevent

/-! ### Steps -/

variable [Entropy] [Digests] [SessionEndTexts]

/-- A call leaves the store as it was, or as its transaction wrote it. -/
theorem OperationCall.run_state (db : Db) (call : OperationCall) :
    (call.run db).1 = db ∨ ∃ last answer, call.transaction db = .ok (.written last answer) ∧
      (call.run db).1 = last ∧ call.commit = .ok () := by
  unfold run
  split
  · exact Or.inl rfl
  · exact Or.inl rfl
  · rename_i last answer hwritten
    split
    · exact Or.inl rfl
    · rename_i hcommit _
      exact Or.inr ⟨last, answer, hwritten, rfl, hcommit⟩
    · rename_i hcommit _
      exact Or.inr ⟨last, answer, hwritten, rfl, hcommit⟩

/-- A call that answers did its transaction. -/
theorem OperationCall.run_ok {db : Db} {call : OperationCall} {answer : CheckpointAnswer}
    (h : (call.run db).2 = .ok answer) :
    (call.transaction db = .ok (.unwritten answer) ∧ (call.run db).1 = db) ∨
      call.transaction db = .ok (.written (call.run db).1 answer) := by
  cases hdone : call.transaction db with
  | error e =>
      rw [run, hdone] at h
      cases h
  | ok t =>
      cases t with
      | unwritten found =>
          rw [run, hdone] at h ⊢
          cases h
          exact Or.inl ⟨rfl, rfl⟩
      | written last found =>
          rw [run, hdone] at h ⊢
          cases hcommit : call.commit with
          | error e =>
              rw [hcommit] at h
              cases h
          | ok _ =>
              cases hrefresh : call.refresh with
              | error e =>
                  rw [hcommit, hrefresh] at h
                  cases h
              | ok _ =>
                  rw [hcommit, hrefresh] at h
                  cases h
                  exact Or.inr rfl

variable [Text.Unicode]

/-- Every step keeps what an answer rests on. -/
theorem step_carries {db : Db} (step : ServiceStep) (hnames : OriginsNameEvents db) :
    Carries db (step.run db) ∧ OriginsNameEvents (step.run db) := by
  cases step with
  | command call =>
      show Carries db (call.run db).1 ∧ OriginsNameEvents (call.run db).1
      obtain hsame | ⟨last, answer, hwritten, hlast, -⟩ := call.run_state db
      · rw [hsame]
        exact ⟨Carries.refl db, hnames⟩
      · rw [hlast]
        cases OperationCall.transaction_transacts hwritten with
        | written completes => exact ⟨completes.carries, completes.namesEvents hnames⟩
  | lifecycle request grantId now appliedAt =>
      unfold ServiceStep.run
      dsimp only
      split
      · rename_i hgroup
        obtain ⟨hkept, horigins⟩ := executeGroup_keeps hgroup
        exact ⟨hkept.carries horigins, hnames.keeps hkept horigins⟩
      · exact ⟨Carries.refl db, hnames⟩

theorem runSteps_carries {db : Db} (steps : List ServiceStep) (hnames : OriginsNameEvents db) :
    Carries db (runSteps db steps) ∧ OriginsNameEvents (runSteps db steps) := by
  refine Run.invariant (fun s => Carries db s ∧ OriginsNameEvents s) (fun s step _ hs => ?_)
    ⟨Carries.refl db, hnames⟩
  obtain ⟨hcarries, hnamed⟩ := step_carries step hs.2
  exact ⟨hs.1.trans hcarries, hnamed⟩

/-! ### A repeat -/

omit [Entropy] [Digests] [SessionEndTexts] [Text.Unicode] in
/-- The checkpoint whose present version a command answers with: no event of its outcome holds one,
or it is left alone because it is closed already. -/
def presentVersionTarget (db : Db) (operation : CheckpointOperation) : Option String :=
  match db.origins.get? (operationIdentity operation).key with
  | some row =>
    if (eventRecordVersion db row.columns.lifecycleEventId).isSome then none
    else row.columns.recordId
  | none => closedTarget db operation

omit [CheckpointService] [Entropy] [Digests] [SessionEndTexts] [Text.Unicode] in
theorem intoOutcome_ok {columns : OriginColumns} {identity : OriginIdentity}
    {outcome : OriginOutcome} (h : columns.intoOutcome identity = .ok outcome) :
    outcome.recordId = columns.recordId ∧ outcome.lifecycleEventId = columns.lifecycleEventId := by
  obtain ⟨kind, -, h⟩ := bind_eq_ok.1 h
  obtain ⟨recordedAt, -, h⟩ := bind_eq_ok.1 h
  cases h
  exact ⟨rfl, rfl⟩

omit [CheckpointService] [Entropy] [Digests] [Text.Unicode] in
/-- A promotion that was read is read again. -/
theorem readPromotion_later {db db' : Db} {operation : CheckpointOperation}
    {outcome : OriginOutcome} {promotion : Option SessionEndResult} (hkept : Keeps db db')
    (h : readPromotion db operation outcome = .ok promotion) :
    readPromotion db' operation outcome = .ok promotion := by
  cases operation with
  | promote command =>
      obtain ⟨eventId, heventId, h⟩ := bind_eq_ok.1 h
      obtain ⟨read, hstored, h⟩ := bind_eq_ok.1 h
      obtain ⟨event, hevent, hread⟩ := bind_eq_ok.1 hstored
      have hlater : storedPromotion db' eventId = .ok read := by
        rw [storedPromotion, hkept.events eventId event (require_eq_ok.1 hevent)]
        exact hread
      simp only [readPromotion, heventId, ok_bind, hlater]
      exact h
  | _ => exact h

/-- What an answer was read from. -/
structure AnswerSource (db db' : Db) (operation : CheckpointOperation) (outcome : OriginOutcome)
    (id : String) : Prop where
  answered : Answered db'.origins operation outcome
  record : outcome.recordId = some id
  named : ∀ eventId, outcome.lifecycleEventId = some eventId →
    ∃ event, db'.events.get? eventId = some event
  version : (presentVersionTarget db operation = none ∧
      ∃ version, eventRecordVersion db' outcome.lifecycleEventId = some version) ∨
    (presentVersionTarget db operation = some id ∧
      eventRecordVersion db' outcome.lifecycleEventId = none ∧ db'.version? id = db.version? id)

omit [Text.Unicode] in
/-- Every answer with a checkpoint was read from an origin row, and its promotion from an event. -/
theorem answer_source {db : Db} {call : OperationCall} {promotion : Option SessionEndResult}
    {result : CheckpointCommandResult} (hnames : OriginsNameEvents db)
    (h : (call.run db).2 = .ok ⟨promotion, some result⟩) :
    OriginsNameEvents (call.run db).1 ∧ ∃ outcome id,
      AnswerSource db (call.run db).1 call.operation outcome id ∧
      readPromotion (call.run db).1 call.operation outcome = .ok promotion ∧
      ∃ replayed, checkpointResultFromOrigin (call.run db).1 call.operation.operationId outcome
        replayed = .ok result := by
  obtain ⟨hunwritten, hsame⟩ | hwritten := OperationCall.run_ok h
  · rw [hsame]
    cases OperationCall.transaction_transacts hunwritten with
    | replayed answered reads found =>
        rename_i outcome
        obtain ⟨row, hrow, -, -, houtcome⟩ := answered.row
        obtain ⟨hrecord, hevent⟩ := intoOutcome_ok houtcome
        obtain ⟨id, hid, -⟩ := bind_eq_ok.1 found
        have hid : outcome.recordId = some id := require_eq_ok.1 hid
        refine ⟨hnames, outcome, id, ⟨answered, hid, ?_, ?_⟩, reads, true, found⟩
        · intro eventId heventId
          exact hnames _ row eventId hrow (hevent.symm.trans heventId)
        · rw [presentVersionTarget, hrow]
          dsimp only
          rw [← hevent, ← hrecord, hid]
          cases eventRecordVersion db outcome.lifecycleEventId with
          | none => exact Or.inr ⟨rfl, rfl, rfl⟩
          | some version => exact Or.inl ⟨rfl, version, rfl⟩
  · cases OperationCall.transaction_transacts hwritten with
    | written completes reads found =>
        rename_i outcome
        obtain ⟨id, hid, -, hsource⟩ := completes.source
        refine ⟨completes.namesEvents hnames, outcome, id, ⟨completes.answered, hid, ?_, ?_⟩, reads,
          false, found⟩
        · intro eventId heventId
          obtain ⟨-, event, hnamed, hversioned⟩ | ⟨-, hnone, -⟩ := hsource
          · rw [hnamed] at heventId
            cases heventId
            exact ⟨event, hversioned.1⟩
          · rw [hnone] at heventId
            cases heventId
        · rw [presentVersionTarget, completes.unseen]
          obtain ⟨hopen, event, hnamed, hversioned⟩ | ⟨hclosed, hnone, hlifecycle⟩ := hsource
          · refine Or.inl ⟨hopen, ?_⟩
            rw [hnamed]
            exact eventRecordVersion_of_versioned hversioned
          · refine Or.inr ⟨hclosed, by rw [hnone]; rfl, ?_⟩
            rw [Db.version?, hlifecycle, Db.version?]

omit [Entropy] [Digests] [Text.Unicode] in
/-- A repeat at a later state answers with the same outcome, event and promotion, and with the
version of the event or the present one. -/
theorem repeat_answer {db before after : Db} {operation : CheckpointOperation}
    {outcome : OriginOutcome} {id : String} {promotion : Option SessionEndResult}
    {result : CheckpointCommandResult} {replayed : Bool}
    (hsource : AnswerSource db before operation outcome id)
    (hreads : readPromotion before operation outcome = .ok promotion)
    (hresult : checkpointResultFromOrigin before operation.operationId outcome replayed = .ok result)
    (hcarries : Carries before after) :
    ∃ first present, before.version? id = some first ∧ after.version? id = some present ∧
      result = ⟨operation.operationId, id,
        (eventRecordVersion before outcome.lifecycleEventId).getD first, outcome.lifecycleEventId,
        outcome.outcome = .created, replayed⟩ ∧
      replayedAnswer after operation outcome = .ok (.unwritten ⟨promotion, some
        ⟨operation.operationId, id,
          (eventRecordVersion before outcome.lifecycleEventId).getD present,
          outcome.lifecycleEventId, outcome.outcome = .created, true⟩⟩) := by
  obtain ⟨first, hfirst, rfl⟩ := (checkpointResult_ok hsource.record replayed).1 hresult
  obtain ⟨present, hpresent⟩ := holdsCheckpoint_iff.1
    (hcarries.checkpoints id (holdsCheckpoint_iff.2 ⟨first, hfirst⟩))
  refine ⟨first, present, (checkpointRecordVersion_ok.1 hfirst).2,
    (checkpointRecordVersion_ok.1 hpresent).2, rfl, ?_⟩
  rw [replayedAnswer, readPromotion_later hcarries.toKeeps hreads, ok_bind,
    (checkpointResult_ok hsource.record true).2 ⟨present, hpresent, rfl⟩, ok_bind,
    eventRecordVersion_later hcarries.toKeeps hsource.named]

/-- The call got past its commit. -/
def OperationCall.commits (db : Db) (call : OperationCall) : Prop :=
  ∃ last answer, call.transaction db = .ok (.written last answer) ∧ call.commit = .ok ()

omit [Text.Unicode] in
/-- A call that does not get past its commit changes nothing. -/
theorem OperationCall.run_uncommitted {db : Db} {call : OperationCall} (h : ¬ call.commits db) :
    (call.run db).1 = db := by
  obtain hsame | ⟨last, answer, hwritten, -, hcommit⟩ := call.run_state db
  · exact hsame
  · exact absurd ⟨last, answer, hwritten, hcommit⟩ h

omit [Text.Unicode] in
theorem OperationCall.run_unwritten {db : Db} {call : OperationCall} {answer : CheckpointAnswer}
    (h : call.transaction db = .ok (.unwritten answer)) : call.run db = (db, .ok answer) := by
  rw [run, h]

omit [Text.Unicode] in
theorem OperationCall.run_refused {db : Db} {call : OperationCall}
    (h : ∀ t, call.transaction db ≠ .ok t) : ∃ e, call.run db = (db, .error e) := by
  cases hdone : call.transaction db with
  | error e => exact ⟨e, by rw [run, hdone]⟩
  | ok t => exact absurd hdone (h t)

/-- What repeats of the call `first`, made after `done`, do once `later` has run too. -/
structure Idempotent (db : Db) (done later : List ServiceStep) (first : OperationCall) : Prop where
  /-- A repeat changes nothing, and answers the same exactly when its clock reading can be written
  and the version of the checkpoint it reads, if it reads one, is as it was. -/
  repeated : ∀ promotion result, (first.run (runSteps db done)).2 = .ok ⟨promotion, some result⟩ →
    ∀ again : OperationCall, again.operation = first.operation →
      (again.run (runSteps (first.run (runSteps db done)).1 later)).1 =
          runSteps (first.run (runSteps db done)).1 later ∧
        ((again.run (runSteps (first.run (runSteps db done)).1 later)).2 =
            .ok ⟨promotion, some { result with replayed := true }⟩ ↔
          again.clockReads ∧
            ∀ id, presentVersionTarget (runSteps db done) first.operation = some id →
              (runSteps (first.run (runSteps db done)).1 later).version? id =
                (runSteps db done).version? id)
  /-- Another input under the operation id is refused, when its fingerprint is another one. -/
  refused : ∀ promotion result, (first.run (runSteps db done)).2 = .ok ⟨promotion, some result⟩ →
    ∀ other : OperationCall, other.operation.operationId = first.operation.operationId →
      other.operation ≠ first.operation →
      (other.operation.route = first.operation.route →
        operationFingerprint other.operation = operationFingerprint first.operation →
        other.operation = first.operation) →
      ∃ e, other.run (runSteps (first.run (runSteps db done)).1 later) =
        (runSteps (first.run (runSteps db done)).1 later, .error e)
  /-- A blocked promotion changes nothing, and is blocked again while its operation id is free. -/
  blocked : ∀ promotion, (first.run (runSteps db done)).2 = .ok ⟨promotion, none⟩ →
    (first.run (runSteps db done)).1 = runSteps db done ∧
      ∀ again : OperationCall, again.operation = first.operation →
        (runSteps (first.run (runSteps db done)).1 later).origins.get?
          (operationIdentity first.operation).key = none →
        again.run (runSteps (first.run (runSteps db done)).1 later) =
          (runSteps (first.run (runSteps db done)).1 later, .ok ⟨promotion, none⟩)
  /-- A call that does not get past its commit is as if it had not been made. -/
  failed : ¬ first.commits (runSteps db done) →
    runSteps db (done ++ .command first :: later) = runSteps db (done ++ later)

omit [Text.Unicode] in
/-- While its operation id is free, a promotion is blocked at every state. -/
theorem transaction_blocked {db db' : Db} {first again : OperationCall}
    {command : SessionEndFromCheckpointCommand} (hfirst : first.operation = .promote command)
    (hagain : again.operation = .promote command)
    (hrefused : CheckpointService.unsafeRepoCandidates command.document ≠ [])
    (hunseen : db.origins.get? (operationIdentity (.promote command)).key = none)
    (hunseen' : db'.origins.get? (operationIdentity (.promote command)).key = none) :
    again.transaction db' = first.transaction db := by
  have hlooked : lookupOrigin db'.origins (operationIdentity (.promote command))
      (operationFingerprint (.promote command)) = lookupOrigin db.origins
        (operationIdentity (.promote command)) (operationFingerprint (.promote command)) := by
    unfold lookupOrigin
    rw [hunseen, hunseen']
  have hblocked : ∀ (s : Db) (call : OperationCall),
      promoteInternal s call.actor command call.now call.repoWrites =
        .ok (.unwritten ⟨some (blockedResult command.document
          (CheckpointService.unsafeRepoCandidates command.document)), none⟩) := by
    intro s call
    rw [promoteInternal]
    exact if_pos hrefused
  simp only [OperationCall.transaction, hfirst, hagain, promoteFromCheckpoint, hlooked]
  cases hlookup : lookupOrigin db.origins (operationIdentity (.promote command))
      (operationFingerprint (.promote command)) with
  | error e => rfl
  | ok looked =>
      rw [lookupOrigin_unseen hunseen hlookup]
      simp only [ok_bind, hblocked]

/-- Checkpoint commands are idempotent by operation id, but for the version that a closure of a
closed checkpoint is answered with. -/
theorem checkpoint_idempotence (db : Db) (hnames : OriginsNameEvents db)
    (done later : List ServiceStep) (first : OperationCall) : Idempotent db done later first := by
  obtain ⟨-, hnames⟩ := runSteps_carries done hnames
  constructor
  · intro promotion result hanswer again hagain
    obtain ⟨hnamed, outcome, id, hsource, hreads, replayed, hresult⟩ := answer_source hnames hanswer
    obtain ⟨hcarries, -⟩ := runSteps_carries later hnamed
    obtain ⟨version, present, hversion, hpresent, rfl, hreplay⟩ :=
      repeat_answer hsource hreads hresult hcarries
    have hchecked : again.operation.checked = .ok () := by
      rw [hagain]
      obtain ⟨hdone, -⟩ | hdone := OperationCall.run_ok hanswer
      · exact OperationCall.checked_of_transaction hdone
      · exact OperationCall.checked_of_transaction hdone
    have hanswered : Answered (runSteps (first.run (runSteps db done)).1 later).origins
        again.operation outcome := by
      rw [hagain]
      exact hsource.answered.later hcarries
    by_cases hclock : again.clockReads
    · have hrun := OperationCall.run_unwritten
        ((OperationCall.transaction_of_answered hanswered hchecked hclock).trans
          (by rw [hagain]; exact hreplay))
      refine ⟨by rw [hrun], ?_⟩
      rw [hrun]
      rcases hsource.version with ⟨hnone, stored, hstored⟩ | ⟨htarget, hstored, hbefore⟩
      · rw [hstored, hnone]
        exact ⟨fun _ => ⟨hclock, fun id hid => by cases hid⟩, fun _ => rfl⟩
      · rw [hstored, htarget]
        simp only [Option.getD_none, Except.ok.injEq, CheckpointAnswer.mk.injEq, Option.some.injEq,
          CheckpointCommandResult.mk.injEq, true_and, and_true]
        have hsame : present = version ↔
            (runSteps (first.run (runSteps db done)).1 later).version? id =
              (runSteps db done).version? id := by
          rw [← hbefore, hversion, hpresent, Option.some.injEq]
        rw [hsame]
        constructor
        · rintro h
          exact ⟨hclock, fun id' hid' => hid' ▸ h⟩
        · rintro ⟨-, h⟩
          exact h id rfl
    · obtain ⟨e, hrun⟩ := OperationCall.run_refused fun t =>
        OperationCall.transaction_of_clock hclock
      refine ⟨by rw [hrun], ?_⟩
      rw [hrun]
      constructor
      · intro h
        cases h
      · intro h
        exact absurd h.1 hclock
  · intro promotion result hanswer other hid hother hdistinct
    obtain ⟨hnamed, outcome, id, hsource, -⟩ := answer_source hnames hanswer
    obtain ⟨hcarries, -⟩ := runSteps_carries later hnamed
    obtain ⟨row, hrow, hbound, -⟩ := (hsource.answered.later hcarries).row
    have hkey : (operationIdentity other.operation).key = (operationIdentity first.operation).key := by
      simp only [operationIdentity, ownerCommand, OriginIdentity.key, hid]
    rw [← hkey] at hrow
    refine OperationCall.run_refused fun t => OperationCall.transaction_of_bound hrow ?_
    intro hsame
    have hroute : other.operation.route = first.operation.route :=
      OriginRoute.asStr_injective (hsame.1.symm.trans hbound.1)
    exact hother (hdistinct hroute (hsame.2.symm.trans hbound.2))
  · intro promotion hanswer
    obtain ⟨hdone, hsame⟩ | hdone := OperationCall.run_ok hanswer
    · refine ⟨hsame, fun again hagain hfree => ?_⟩
      generalize htransaction : Transaction.unwritten ⟨promotion, none⟩ = t at hdone
      cases OperationCall.transaction_transacts hdone with
      | blocked promotes unseen refused =>
          rw [htransaction.symm] at hdone
          rw [promotes] at hagain hfree unseen
          exact OperationCall.run_unwritten
            ((transaction_blocked promotes hagain refused unseen hfree).trans hdone)
      | replayed => cases htransaction
      | written => cases htransaction
    · cases OperationCall.transaction_transacts hdone
  · intro hfails
    have hsame := OperationCall.run_uncommitted hfails
    simp only [runSteps, List.foldl_append, List.foldl_cons]
    exact congrArg (fun s => later.foldl ServiceStep.run s) hsame

end Service

/-! ### A closure that is repeated after a quarantine -/

/-- A service whose fingerprints end with the last digit of the operation id. -/
@[reducible] def CheckpointService.numbered : CheckpointService where
  repositoryKey := "repository"
  fingerprint _ operation := String.ofList (List.replicate 63 ( '0') ++
    [(operation.operationId.toList.getLast?.filter isLowerHex).getD ( '0')])
  reservedRuntimeRecordIds := []
  ensureRepositoryIndexCurrent := .ok ()
  unsafeRepoCandidates _ := []

/-- The first id and the versions that `Entropy.cycling` draws. -/
def firstSession : String := "session-000000000000000000000000000000000000"

def drawnVersion (digit : Char) : String := String.ofList (List.replicate 31 ( '0') ++ [digit])

/-- A command whose commit and refresh succeed. -/
def plainCall (operation : CheckpointOperation) (now : Int) : OperationCall :=
  ⟨"cli", operation, ⟨now, 0⟩, .ok [], .ok (), .ok ()⟩

def createAtTen : OperationCall :=
  plainCall (.create ⟨"op-1", "Checkpoint", "Next step"⟩) 1784023200000000000

def closeAtEleven : OperationCall :=
  plainCall (.close ⟨"op-2", firstSession, drawnVersion ( '1')⟩) 1784026800000000000

def closeAtTwelve : OperationCall :=
  plainCall (.close ⟨"op-3", firstSession, drawnVersion ( '5')⟩) 1784030400000000000

def quarantineAtThirteen : ServiceStep :=
  .lifecycle
    { schema := PrivateLifecycle.requestSchema
      requestId := "lifecycle_request_op-4"
      operationId := "op-4"
      source := .direct
      actions := [.quarantine firstSession (drawnVersion ( '5')) "owner_request"] }
    "grant_1" ⟨1784034000000000000, 0⟩ "2026-07-14T13:00:00Z"

/-- The store after some steps from an empty one. -/
def storeAfter (steps : List ServiceStep) : Db :=
  @runSteps CheckpointService.numbered Entropy.cycling Digests.ofOperation SessionEndTexts.numbered
    Text.Unicode.ascii (Db.initial "2026-07-14T09:00:00Z") steps

def answerAfter (steps : List ServiceStep) (call : OperationCall) : Fallible CheckpointAnswer :=
  (@OperationCall.run CheckpointService.numbered Entropy.cycling Digests.ofOperation
    SessionEndTexts.numbered (storeAfter steps) call).2

theorem checkpoint_idempotence_createAtTen :
    OriginsNameEvents (Db.initial "2026-07-14T09:00:00Z") ∧
      @Idempotent CheckpointService.numbered Entropy.cycling Digests.ofOperation
        SessionEndTexts.numbered Text.Unicode.ascii (Db.initial "2026-07-14T09:00:00Z") []
        [.command closeAtEleven] createAtTen := by
  have hnames := originsNameEvents_initial "2026-07-14T09:00:00Z"
  exact ⟨hnames, @checkpoint_idempotence CheckpointService.numbered Entropy.cycling
    Digests.ofOperation SessionEndTexts.numbered Text.Unicode.ascii _ hnames [] _ createAtTen⟩

/-- The closure of a closed checkpoint answers with one version, and its repeat after a quarantine
with another. -/
theorem closeAtTwelve_not_idempotent :
    ∃ first again : CheckpointCommandResult,
      answerAfter [.command createAtTen, .command closeAtEleven] closeAtTwelve =
        .ok ⟨none, some first⟩ ∧
      answerAfter [.command createAtTen, .command closeAtEleven, .command closeAtTwelve,
        quarantineAtThirteen] closeAtTwelve = .ok ⟨none, some again⟩ ∧
      again.operationId = first.operationId ∧ again.recordVersion ≠ first.recordVersion := by
  refine ⟨⟨"op-3", firstSession, drawnVersion ( '5'), none, false, false⟩,
    ⟨"op-3", firstSession, drawnVersion ( '1'), none, false, true⟩, ?_, ?_, rfl, ?_⟩
  · decide +kernel
  · decide +kernel
  · decide

end Checkpoint
end Memzoi
