/-
# The ledger of a client

What a client of the loop in `memzoi-mcp/src/protocol.rs` may count on: one
request that waits for its plan, one request whose answer must come before
anything else is read, and whether an answer without an id is due. The ledger
accepts a log of reads and writes entry by entry. What an accepted log has, it
has whatever wrote it: every request is answered once, a plan that was silenced
is not answered, and a response has the id of a request that was read.
-/

import Memzoi.Mcp.Protocol

namespace Memzoi
namespace Mcp

variable [Library]

/-- A valid id. -/
inductive RequestId where
  | number (value : JsonNumber)
  | text (value : String)
  deriving DecidableEq

/-- The id a value stands for, when it is valid as one. -/
def idOf? : Json → Option RequestId
  | .number value => some (.number value)
  | .string value => if Json.byteLength value ≤ maxJsonrpcIdBytes then some (.text value) else none
  | _ => none

/-- The id a response carries. -/
def responseId? (response : Json) : Option RequestId := (response.get? "id").bind idOf?

/-- The id of a line that is an object with a valid one. -/
def lineId? (line : InputLine) : Option RequestId :=
  match Library.parse line.text with
  | .ok request => responseId? request
  | .error _ => none

/-- The line asks for a plan. -/
def isPlanningLine (line : InputLine) : Bool :=
  match Library.parse line.text with
  | .ok request => (planningToolRequest? request).isSome
  | .error _ => false

/-- The line is a cancellation, without a valid id of its own, of the request `i`. -/
def cancels (line : InputLine) (i : RequestId) : Bool :=
  match Library.parse line.text with
  | .ok request => responseId? request = none && method? request = some "notifications/cancelled" &&
      (request.pointer "params" "requestId").bind idOf? = some i
  | .error _ => false

namespace Received

def requestId? : Received → Option RequestId
  | event (.line line) => lineId? line
  | _ => none

def isPlanning : Received → Bool
  | event (.line line) => isPlanningLine line
  | _ => false

/-- Nothing is written for the plan `i` after this: it is cancelled, or the input ends. -/
def silences (i : RequestId) : Received → Bool
  | event (.line line) => cancels line i
  | event .eof => true
  | event (.readError _) => true
  | disconnected => true
  | _ => false

/-- The input is no JSON object, or an object with an id that is not valid. -/
def malformed : Received → Bool
  | event (.line line) =>
    match Library.parse line.text with
    | .ok request => !request.isObject || (request.get? "id").any (!validJsonrpcId ·)
    | .error _ => true
  | event .tooLarge => true
  | event .invalidUtf8 => true
  | _ => false

end Received

/-! ### The ledger -/

structure Ledger where
  planning : Option RequestId
  owed : Option RequestId
  bare : Bool

namespace Ledger

def start : Ledger := ⟨none, none, false⟩

def read (L : Ledger) (r : Received) : Ledger :=
  match r.requestId? with
  | some i =>
    if r.isPlanning = true ∧ L.planning = none then ⟨some i, none, false⟩
    else ⟨L.planning, some i, false⟩
  | none => ⟨L.planning.filter fun i => !r.silences i, none, r.malformed⟩

def write (L : Ledger) (response : Json) : Option Ledger :=
  match responseId? response with
  | some i =>
    if L.owed = some i then some ⟨L.planning, none, false⟩
    else if L.owed = none ∧ L.planning = some i then some start
    else none
  | none => if L.owed = none ∧ L.bare = true then some ⟨L.planning, none, false⟩ else none

/-- One entry of a log, if the ledger accepts it. -/
def step (L : Ledger) : Entry → Option Ledger
  | .read r => if L.owed = none then some (L.read r) else none
  | .wrote response => L.write response

def run (L : Ledger) : List Entry → Option Ledger
  | [] => some L
  | e :: log => (L.step e).bind fun L => L.run log

theorem run_append (L : Ledger) (log log' : List Entry) :
    L.run (log ++ log') = (L.run log).bind fun L => L.run log' := by
  induction log generalizing L with
  | nil => rfl
  | cons e log ih =>
      rw [List.cons_append, run, run, Option.bind_assoc]
      congr 1
      funext L'
      exact ih L'

/-- An accepted log is accepted up to every entry and from it on. -/
theorem run_split {L L' : Ledger} {before after : List Entry} {e : Entry}
    (h : L.run (before ++ e :: after) = some L') :
    ∃ L₁ L₂, L.run before = some L₁ ∧ L₁.step e = some L₂ ∧ L₂.run after = some L' := by
  rw [run_append] at h
  obtain ⟨L₁, hbefore, h⟩ := Option.bind_eq_some_iff.1 h
  obtain ⟨L₂, hstep, hafter⟩ := Option.bind_eq_some_iff.1 h
  exact ⟨L₁, L₂, hbefore, hstep, hafter⟩

end Ledger

/-- The responses of a log under an id. -/
def responses (log : List Entry) (i : RequestId) : Nat :=
  log.countP fun e =>
    match e with
    | .wrote response => responseId? response = some i
    | .read _ => false

/-- The ids of the requests a log has read. -/
def readIds (log : List Entry) : List RequestId :=
  log.filterMap fun e =>
    match e with
    | .read r => r.requestId?
    | .wrote _ => none

omit [Library] in
theorem responses_append (log log' : List Entry) (i : RequestId) :
    responses (log ++ log') i = responses log i + responses log' i := List.countP_append

theorem readIds_append (log log' : List Entry) : readIds (log ++ log') = readIds log ++ readIds log' :=
  List.filterMap_append

/-! ### Reads and writes -/

theorem Ledger.run_cons (L : Ledger) (e : Entry) (log : List Entry) :
    L.run (e :: log) = (L.step e).bind fun L => L.run log := rfl

theorem Ledger.step_read {L : Ledger} (h : L.owed = none) (r : Received) :
    L.step (.read r) = some (L.read r) := if_pos h

omit [Library] in
/-- An answer to what was owed. -/
theorem Ledger.write_owed {L : Ledger} {i : RequestId} {response : Json}
    (howed : L.owed = some i) (hid : responseId? response = some i) :
    L.write response = some ⟨L.planning, none, false⟩ := by
  rw [Ledger.write, hid]
  exact if_pos howed

omit [Library] in
/-- An answer to the plan. -/
theorem Ledger.write_planning {L : Ledger} {i : RequestId} {response : Json}
    (howed : L.owed = none) (hplanning : L.planning = some i)
    (hid : responseId? response = some i) : L.write response = some Ledger.start := by
  rw [Ledger.write, hid]
  refine (if_neg ?_).trans (if_pos ⟨howed, hplanning⟩)
  rw [howed]
  nofun

omit [Library] in
/-- An answer without an id. -/
theorem Ledger.write_bare {L : Ledger} {response : Json} (howed : L.owed = none)
    (hbare : L.bare = true) (hid : responseId? response = none) :
    L.write response = some ⟨L.planning, none, false⟩ := by
  rw [Ledger.write, hid]
  exact if_pos ⟨howed, hbare⟩

/-- A request is read and answered at once, whether or not it asks for a plan. -/
theorem tracks_answered {L : Ledger} {r : Received} {i : RequestId} {response : Json}
    (howed : L.owed = none) (hread : r.requestId? = some i) (hid : responseId? response = some i) :
    L.run [.read r, .wrote response] = some ⟨L.planning, none, false⟩ := by
  rw [Ledger.run_cons, Ledger.step_read howed, Option.bind_some, Ledger.read, hread]
  by_cases hplan : r.isPlanning = true ∧ L.planning = none
  · simp only [if_pos hplan]
    rw [Ledger.run_cons, Ledger.step, Ledger.write_planning rfl rfl hid, hplan.2]
    rfl
  · simp only [if_neg hplan]
    rw [Ledger.run_cons, Ledger.step, Ledger.write_owed rfl hid]
    rfl

/-- Input that is no request is read and answered without an id. -/
theorem tracks_refused {L : Ledger} {r : Received} {response : Json} (howed : L.owed = none)
    (hread : r.requestId? = none) (hmalformed : r.malformed = true)
    (hsilent : ∀ i, L.planning = some i → r.silences i = false) (hid : responseId? response = none) :
    L.run [.read r, .wrote response] = some ⟨L.planning, none, false⟩ := by
  have hstep : L.read r = ⟨L.planning, none, true⟩ := by
    rw [Ledger.read, hread]
    simp only [hmalformed, Ledger.mk.injEq, and_self, and_true]
    cases hplanning : L.planning with
    | none => rfl
    | some i => rw [Option.filter_some, hsilent i hplanning]; rfl
  rw [Ledger.run_cons, Ledger.step_read howed, Option.bind_some, Ledger.run_cons, Ledger.step,
    Ledger.write_bare (by rw [hstep]) (by rw [hstep]) hid, hstep]
  rfl

/-- Input that is neither answered nor ends the plan. -/
theorem tracks_ignored {L : Ledger} {r : Received} (howed : L.owed = none)
    (hread : r.requestId? = none) (hsilent : ∀ i, L.planning = some i → r.silences i = false) :
    L.run [.read r] = some ⟨L.planning, none, r.malformed⟩ := by
  rw [Ledger.run_cons, Ledger.step_read howed, Option.bind_some, Ledger.read, hread]
  cases hplanning : L.planning with
  | none => rfl
  | some i => rw [Option.filter_some, hsilent i hplanning]; rfl

/-- Input that ends the plan. -/
theorem tracks_silenced {L : Ledger} {r : Received} (howed : L.owed = none)
    (hread : r.requestId? = none) (hsilent : ∀ i, L.planning = some i → r.silences i = true) :
    L.run [.read r] = some ⟨none, none, r.malformed⟩ := by
  rw [Ledger.run_cons, Ledger.step_read howed, Option.bind_some, Ledger.read, hread]
  cases hplanning : L.planning with
  | none => rfl
  | some i => rw [Option.filter_some, hsilent i hplanning]; rfl

/-! ### What the ledger promises -/

namespace Ledger

/-- What an entry can do to the ledger. -/
inductive Moves (L : Ledger) : Entry → Ledger → Prop where
  | plan (r : Received) (i : RequestId) : L.owed = none → L.planning = none →
      r.requestId? = some i → r.isPlanning = true → Moves L (.read r) ⟨some i, none, false⟩
  | request (r : Received) (i : RequestId) : L.owed = none → r.requestId? = some i →
      Moves L (.read r) ⟨L.planning, some i, false⟩
  | other (r : Received) : L.owed = none → r.requestId? = none →
      Moves L (.read r) ⟨L.planning.filter fun i => !r.silences i, none, r.malformed⟩
  | answer (response : Json) (i : RequestId) : L.owed = some i → responseId? response = some i →
      Moves L (.wrote response) ⟨L.planning, none, false⟩
  | planned (response : Json) (i : RequestId) : L.owed = none → L.planning = some i →
      responseId? response = some i → Moves L (.wrote response) start
  | refused (response : Json) : L.owed = none → L.bare = true → responseId? response = none →
      Moves L (.wrote response) ⟨L.planning, none, false⟩

theorem moves_of_step {L L' : Ledger} {e : Entry} (h : L.step e = some L') : L.Moves e L' := by
  cases e with
  | read r =>
      simp only [step, Option.ite_none_right_eq_some, Option.some.injEq] at h
      obtain ⟨howed, rfl⟩ := h
      rw [read]
      cases hid : r.requestId? with
      | none => exact .other r howed hid
      | some i =>
          by_cases hplan : r.isPlanning = true ∧ L.planning = none
          · simp only [if_pos hplan]
            exact .plan r i howed hplan.2 hid hplan.1
          · simp only [if_neg hplan]
            exact .request r i howed hid
  | wrote response =>
      rw [step, write] at h
      cases hid : responseId? response with
      | none =>
          simp only [hid, Option.ite_none_right_eq_some, Option.some.injEq] at h
          obtain ⟨⟨howed, hbare⟩, rfl⟩ := h
          exact .refused response howed hbare hid
      | some i =>
          rw [hid] at h
          by_cases howed : L.owed = some i
          · simp only [if_pos howed, Option.some.injEq] at h
            subst h
            exact .answer response i howed hid
          · simp only [if_neg howed, Option.ite_none_right_eq_some, Option.some.injEq] at h
            obtain ⟨⟨hnone, hplanning⟩, rfl⟩ := h
            exact .planned response i hnone hplanning hid

/-- Nothing is read before what is owed is answered. -/
theorem answer_of_owed {L L' : Ledger} {e : Entry} {i : RequestId} (howed : L.owed = some i)
    (h : L.step e = some L') :
    ∃ response, e = .wrote response ∧ responseId? response = some i ∧
      L' = ⟨L.planning, none, false⟩ := by
  have hopen : L.owed ≠ none := by
    rw [howed]
    nofun
  cases moves_of_step h with
  | plan r j hnone => exact absurd hnone hopen
  | request r j hnone => exact absurd hnone hopen
  | other r hnone => exact absurd hnone hopen
  | answer response j hj hid =>
      rw [howed] at hj
      cases hj
      exact ⟨response, rfl, hid, rfl⟩
  | planned response j hnone => exact absurd hnone hopen
  | refused response hnone => exact absurd hnone hopen

/-- Nothing is open under an id. -/
def Quiet (L : Ledger) (i : RequestId) : Prop := L.planning ≠ some i ∧ L.owed ≠ some i

end Ledger

omit [Library] in
/-- The responses an entry adds. -/
theorem responses_cons (e : Entry) (log : List Entry) (i : RequestId) :
    responses (e :: log) i = responses [e] i + responses log i := responses_append [e] log i

omit [Library] in
theorem responses_read (r : Received) (i : RequestId) : responses [.read r] i = 0 := rfl

omit [Library] in
theorem responses_wrote (response : Json) (i : RequestId) :
    responses [.wrote response] i = if responseId? response = some i then 1 else 0 := by
  simp only [responses, List.countP_singleton, decide_eq_true_eq]

theorem notMem_readIds_cons {e : Entry} {log : List Entry} {i : RequestId} :
    i ∉ readIds (e :: log) ↔ i ∉ readIds [e] ∧ i ∉ readIds log := by
  rw [← List.singleton_append, readIds_append, List.mem_append, not_or]

theorem mem_readIds_read {r : Received} {i : RequestId} :
    i ∈ readIds [.read r] ↔ r.requestId? = some i := by
  simp only [readIds, List.mem_filterMap, List.mem_singleton, exists_eq_left]

/-- An id under which nothing is open stays so until it is read again, and is not answered. -/
theorem Ledger.Quiet.step {L L' : Ledger} {e : Entry} {i : RequestId} (h : L.Quiet i)
    (hread : i ∉ readIds [e]) (hstep : L.step e = some L') :
    responses [e] i = 0 ∧ L'.Quiet i := by
  cases Ledger.moves_of_step hstep with
  | plan r j howed hfree hid hplan =>
      have hne : j ≠ i := fun hji => hread (mem_readIds_read.2 (hji ▸ hid))
      exact ⟨rfl, fun hi => hne (Option.some.inj hi), nofun⟩
  | request r j howed hid =>
      have hne : j ≠ i := fun hji => hread (mem_readIds_read.2 (hji ▸ hid))
      exact ⟨rfl, h.1, fun hi => hne (Option.some.inj hi)⟩
  | other r howed hid =>
      exact ⟨rfl, fun hi => h.1 (Option.filter_eq_some_iff.1 hi).1, nofun⟩
  | answer response j howed hid =>
      have hne : j ≠ i := fun hji => h.2 (hji ▸ howed)
      refine ⟨?_, h.1, nofun⟩
      rw [responses_wrote, hid, if_neg fun hi => hne (Option.some.inj hi)]
  | planned response j howed hplanning hid =>
      have hne : j ≠ i := fun hji => h.1 (hji ▸ hplanning)
      refine ⟨?_, nofun, nofun⟩
      rw [responses_wrote, hid, if_neg fun hi => hne (Option.some.inj hi)]
  | refused response howed hbare hid =>
      refine ⟨?_, h.1, nofun⟩
      rw [responses_wrote, hid, if_neg nofun]

theorem Ledger.Quiet.run {L L' : Ledger} {log : List Entry} {i : RequestId} (h : L.Quiet i)
    (hread : i ∉ readIds log) (hrun : L.run log = some L') :
    responses log i = 0 ∧ L'.Quiet i := by
  induction log generalizing L with
  | nil =>
      cases hrun
      exact ⟨rfl, h⟩
  | cons e log ih =>
      obtain ⟨L₁, hstep, hrest⟩ := Option.bind_eq_some_iff.1 hrun
      obtain ⟨hhead, htail⟩ := notMem_readIds_cons.1 hread
      obtain ⟨hzero, hquiet⟩ := h.step hhead hstep
      obtain ⟨hrestZero, hfinal⟩ := ih hquiet htail hrest
      exact ⟨by rw [responses_cons, hzero, hrestZero], hfinal⟩

/-- A plan that is awaited is answered once, or silenced, or still awaited. -/
theorem Ledger.planned_run {L L' : Ledger} {log : List Entry} {i : RequestId}
    (hplanning : L.planning = some i) (howed : L.owed ≠ some i) (hread : i ∉ readIds log)
    (hrun : L.run log = some L') :
    responses log i = 1 ∨ responses log i = 0 ∧
      (L'.planning = some i ∨ ∃ r, .read r ∈ log ∧ r.silences i = true) := by
  induction log generalizing L with
  | nil =>
      cases hrun
      exact .inr ⟨rfl, .inl hplanning⟩
  | cons e log ih =>
      obtain ⟨L₁, hstep, hrest⟩ := Option.bind_eq_some_iff.1 hrun
      obtain ⟨hhead, htail⟩ := notMem_readIds_cons.1 hread
      -- the entries that leave the plan alone
      have hkept : responses [e] i = 0 → L₁.planning = some i → L₁.owed ≠ some i →
          responses (e :: log) i = 1 ∨ responses (e :: log) i = 0 ∧
            (L'.planning = some i ∨ ∃ r, .read r ∈ e :: log ∧ r.silences i = true) := by
        intro hzero hp ho
        rw [responses_cons, hzero, Nat.zero_add]
        rcases ih hp ho htail hrest with hone | ⟨hnone, hpending | ⟨r, hr, hsilent⟩⟩
        · exact .inl hone
        · exact .inr ⟨hnone, .inl hpending⟩
        · exact .inr ⟨hnone, .inr ⟨r, List.mem_cons_of_mem _ hr, hsilent⟩⟩
      cases Ledger.moves_of_step hstep with
      | plan r j hnone hfree hid hplan =>
          rw [hplanning] at hfree
          cases hfree
      | request r j hnone hid =>
          have hne : j ≠ i := fun hji => hhead (mem_readIds_read.2 (hji ▸ hid))
          exact hkept rfl hplanning fun hi => hne (Option.some.inj hi)
      | other r hnone hid =>
          by_cases hsilent : r.silences i = true
          · -- the plan is given up here, and nothing is open under it any more
            have hquiet : Ledger.Quiet ⟨L.planning.filter fun i => !r.silences i, none, r.malformed⟩ i := by
              refine ⟨fun hi => ?_, nofun⟩
              have hloud := (Option.filter_eq_some_iff.1 hi).2
              simp only [hsilent, Bool.not_true, Bool.false_eq_true] at hloud
            refine .inr ⟨?_, .inr ⟨r, List.mem_cons_self, hsilent⟩⟩
            rw [responses_cons, responses_read, (hquiet.run htail hrest).1]
          · refine hkept rfl ?_ nofun
            rw [hplanning, Option.filter_some, if_pos (by simp only [hsilent, Bool.not_false])]
      | answer response j hj hid =>
          have hne : j ≠ i := fun hji => howed (hji ▸ hj)
          refine hkept ?_ hplanning nofun
          rw [responses_wrote, hid, if_neg fun hi => hne (Option.some.inj hi)]
      | planned response j hnone hj hid =>
          rw [hplanning] at hj
          cases hj
          have hquiet : Ledger.start.Quiet i := ⟨nofun, nofun⟩
          left
          rw [responses_cons, responses_wrote, if_pos hid, (hquiet.run htail hrest).1]
      | refused response hnone hbare hid =>
          refine hkept ?_ hplanning nofun
          rw [responses_wrote, hid, if_neg nofun]

/-- What is open was read before, and an answer without an id is due only right after malformed
input. -/
theorem Ledger.open_of_run {before : List Entry} {L : Ledger} (hrun : Ledger.start.run before = some L) :
    (∀ i, L.planning = some i ∨ L.owed = some i → i ∈ readIds before) ∧
      (L.bare = true → ∃ r, before.getLast? = some (.read r) ∧ r.malformed = true) := by
  induction before using List.reverseRecOn generalizing L with
  | nil =>
      cases hrun
      exact ⟨nofun, nofun⟩
  | append_singleton before e ih =>
      obtain ⟨L₁, L₂, hbefore, hstep, hlast⟩ := Ledger.run_split hrun
      cases hlast
      obtain ⟨hread, hbare⟩ := ih hbefore
      have hold : ∀ i, i ∈ readIds before → i ∈ readIds (before ++ [e]) := fun i hi => by
        rw [readIds_append]
        exact List.mem_append_left _ hi
      have hnew : ∀ r i, e = .read r → r.requestId? = some i → i ∈ readIds (before ++ [e]) := by
        rintro r i rfl hid
        rw [readIds_append]
        exact List.mem_append_right _ (mem_readIds_read.2 hid)
      cases Ledger.moves_of_step hstep with
      | plan r j hnone hfree hid hplan =>
          refine ⟨fun i hi => ?_, nofun⟩
          rcases hi with hi | hi
          · cases hi
            exact hnew r _ rfl hid
          · cases hi
      | request r j hnone hid =>
          refine ⟨fun i hi => ?_, nofun⟩
          rcases hi with hi | hi
          · exact hold i (hread i (.inl hi))
          · cases hi
            exact hnew r _ rfl hid
      | other r hnone hid =>
          refine ⟨fun i hi => ?_, fun hmalformed => ⟨r, ?_, hmalformed⟩⟩
          · rcases hi with hi | hi
            · exact hold i (hread i (.inl (Option.filter_eq_some_iff.1 hi).1))
            · cases hi
          · rw [List.getLast?_concat]
      | answer response j hj hid =>
          refine ⟨fun i hi => ?_, nofun⟩
          rcases hi with hi | hi
          · exact hold i (hread i (.inl hi))
          · cases hi
      | planned response j hnone hj hid =>
          refine ⟨fun i hi => ?_, nofun⟩
          rcases hi with hi | hi
          · cases hi
          · cases hi
      | refused response hnone hwas hid =>
          refine ⟨fun i hi => ?_, nofun⟩
          rcases hi with hi | hi
          · exact hold i (hread i (.inl hi))
          · cases hi

/-- **A request in an accepted log.** No response has its id before it is read. Afterwards it is
answered once; only a plan may have no response, while it is awaited or once it is silenced. -/
theorem Ledger.request_answered {before after : List Entry} {r : Received} {i : RequestId} {L' : Ledger}
    (hrun : Ledger.start.run (before ++ .read r :: after) = some L') (howed : L'.owed = none)
    (hids : (readIds (before ++ .read r :: after)).Nodup) (hid : r.requestId? = some i) :
    responses before i = 0 ∧ (responses after i = 1 ∨ r.isPlanning = true ∧ responses after i = 0 ∧
      (L'.planning = some i ∨ ∃ r', .read r' ∈ after ∧ r'.silences i = true)) := by
  obtain ⟨L₁, L₂, hbefore, hstep, hafter⟩ := Ledger.run_split hrun
  rw [← List.singleton_append, readIds_append, readIds_append] at hids
  have hmem : i ∈ readIds [Entry.read r] := mem_readIds_read.2 hid
  obtain ⟨-, hrest, hbeforeNe⟩ := List.nodup_append.1 hids
  have hfresh : i ∉ readIds before := fun hi =>
    hbeforeNe i hi i (List.mem_append_left _ hmem) rfl
  have hlater : i ∉ readIds after := fun hi =>
    (List.nodup_append.1 hrest).2.2 i hmem i hi rfl
  have hstart : Ledger.start.Quiet i := ⟨nofun, nofun⟩
  obtain ⟨hzero, hquiet⟩ := hstart.run hfresh hbefore
  refine ⟨hzero, ?_⟩
  cases Ledger.moves_of_step hstep with
  | plan r j hnone hfree hj hplan =>
      rw [hid] at hj
      cases hj
      have hopen : Ledger.owed ⟨some i, none, false⟩ ≠ some i := nofun
      rcases Ledger.planned_run rfl hopen hlater hafter with hone | ⟨hnone, hrest⟩
      · exact .inl hone
      · exact .inr ⟨hplan, hnone, hrest⟩
  | request r j hnone hj =>
      rw [hid] at hj
      cases hj
      left
      -- what is owed is answered by the next entry
      cases after with
      | nil =>
          simp only [Ledger.run, Option.some.injEq] at hafter
          rw [← hafter] at howed
          cases howed
      | cons e rest =>
          obtain ⟨L₃, hanswer, hrest⟩ := Option.bind_eq_some_iff.1 hafter
          obtain ⟨response, rfl, hresponse, rfl⟩ := Ledger.answer_of_owed rfl hanswer
          have hrestQuiet : Ledger.Quiet ⟨L₁.planning, none, false⟩ i := ⟨hquiet.1, nofun⟩
          rw [responses_cons, responses_wrote, if_pos hresponse,
            (hrestQuiet.run (notMem_readIds_cons.1 hlater).2 hrest).1]
  | other r hnone hnoid =>
      rw [hid] at hnoid
      cases hnoid

/-- Input that silences a plan is no request. -/
theorem requestId?_of_silences {r : Received} {i : RequestId} (h : r.silences i = true) :
    r.requestId? = none := by
  cases r with
  | event e =>
      cases e with
      | line line =>
          rw [Received.silences, cancels] at h
          rw [Received.requestId?, lineId?]
          cases hparse : Library.parse line.text with
          | error error => rfl
          | ok request =>
              simp only [hparse, Bool.and_eq_true, decide_eq_true_eq] at h
              exact h.1.1
      | _ => rfl
  | _ => rfl

/-- **A plan that is silenced in an accepted log.** No response has its id afterwards. -/
theorem Ledger.silenced_quiet {before after : List Entry} {r : Received} {i : RequestId} {L' : Ledger}
    (hrun : Ledger.start.run (before ++ .read r :: after) = some L')
    (hids : (readIds (before ++ .read r :: after)).Nodup) (hread : i ∈ readIds before)
    (hsilent : r.silences i = true) : responses after i = 0 := by
  obtain ⟨L₁, L₂, hbefore, hstep, hafter⟩ := Ledger.run_split hrun
  have hnoid := requestId?_of_silences hsilent
  have hlater : i ∉ readIds after := by
    rw [← List.singleton_append, readIds_append, readIds_append] at hids
    intro hi
    exact (List.nodup_append.1 hids).2.2 i hread i (List.mem_append_right _ hi) rfl
  have hquiet : L₂.Quiet i := by
    rw [Ledger.step, Option.ite_none_right_eq_some, Ledger.read, hnoid] at hstep
    cases hstep.2
    refine ⟨fun hi => ?_, nofun⟩
    have hloud := (Option.filter_eq_some_iff.1 hi).2
    simp only [hsilent, Bool.not_true, Bool.false_eq_true] at hloud
  exact (hquiet.run hlater hafter).1

/-- **A response in an accepted log.** It has the id of a request that was read before, or it has
none and follows malformed input. -/
theorem Ledger.response_justified {before after : List Entry} {response : Json} {L' : Ledger}
    (hrun : Ledger.start.run (before ++ .wrote response :: after) = some L') :
    (∃ i, responseId? response = some i ∧ i ∈ readIds before) ∨
      responseId? response = none ∧ ∃ r, before.getLast? = some (.read r) ∧ r.malformed = true := by
  obtain ⟨L₁, L₂, hbefore, hstep, -⟩ := Ledger.run_split hrun
  obtain ⟨hopen, hbare⟩ := Ledger.open_of_run hbefore
  cases Ledger.moves_of_step hstep with
  | answer response i hi hid => exact .inl ⟨i, hid, hopen i (.inr hi)⟩
  | planned response i hnone hi hid => exact .inl ⟨i, hid, hopen i (.inl hi)⟩
  | refused response hnone hdue hid => exact .inr ⟨hid, hbare hdue⟩

end Mcp
end Memzoi
