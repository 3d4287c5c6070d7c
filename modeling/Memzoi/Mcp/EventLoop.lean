/-
# Every request is answered once

Source: `memzoi-mcp/src/protocol.rs`.

`tracks_serveTick` shows that the ledger of a client accepts what a turn of the
server reads and writes, as long as the turn meets `Answerable`; the claims on
whole runs are then read off the ledger.

Two kinds of input are not answerable. A message without a method, read while
no planner works, is answered under the id null. A request that names the
active plan and has the method of a cancellation is taken for one, and is not
answered at all.
-/

import Memzoi.Mcp.Ledger

namespace Memzoi
namespace Mcp

variable [Library]

/-! ### Ids and responses -/

omit [Library] in
theorem idOf?_isSome (v : Json) : (idOf? v).isSome = validJsonrpcId v := by
  cases v with
  | string value =>
      by_cases h : Json.byteLength value ≤ maxJsonrpcIdBytes <;>
        simp [idOf?, validJsonrpcId, Json.isNumber, Json.asStr?, h]
  | _ => rfl

omit [Library] in
/-- Two values stand for one id when the loop takes them for the same. -/
theorem idOf?_of_sameId {v id : Json} {i : RequestId} (hid : idOf? id = some i) :
    sameId v id = true ↔ idOf? v = some i := by
  cases id with
  | number value =>
      cases hid
      cases v <;> simp [sameId, idOf?]
  | string value =>
      simp only [idOf?, Option.ite_none_right_eq_some, Option.some.injEq] at hid
      obtain ⟨hshort, rfl⟩ := hid
      cases v with
      | string other =>
          simp only [sameId, idOf?, decide_eq_true_eq, Option.ite_none_right_eq_some,
            Option.some.injEq, RequestId.text.injEq]
          exact ⟨fun h => ⟨h ▸ hshort, h⟩, fun h => h.2⟩
      | _ => simp [sameId, idOf?]
  | _ => cases hid

omit [Library] in
@[simp] theorem responseId?_jsonrpcError (id : Json) (code : JsonNumber) (message : String) :
    responseId? (jsonrpcError id code message) = idOf? id := rfl

omit [Library] in
@[simp] theorem responseId?_jsonrpcResult (id result : Json) :
    responseId? (jsonrpcResult id result) = idOf? id := rfl

omit [Library] in
/-- An id that is valid, or null, is short. -/
theorem encodedLength_validId (id : Option Json) :
    (((id.filter validJsonrpcId).getD .null).encodedLength) ≤ 2 + 6 * maxJsonrpcIdBytes := by
  cases h : id.filter validJsonrpcId with
  | none => simp [Json.encodedLength, maxJsonrpcIdBytes]
  | some v =>
      have hvalid := (Option.filter_eq_some_iff.1 h).2
      rw [Option.getD_some]
      cases v with
      | number value =>
          have hshort := value.short
          simp only [Json.encodedLength, maxJsonrpcIdBytes]
          omega
      | string value =>
          have hquoted := Json.quotedLength_le value
          simp only [validJsonrpcId, Json.isNumber, Json.asStr?, Option.any_some,
            Bool.false_or, decide_eq_true_eq] at hvalid
          rw [Json.encodedLength]
          omega
      | _ => simp [validJsonrpcId, Json.isNumber, Json.asStr?] at hvalid

omit [Library] in
/-- The lengths of the words and of the messages of an error. -/
theorem quotedLength_errors : (Json.quotedLength "jsonrpc" = 9 ∧ Json.quotedLength "2.0" = 5 ∧
      Json.quotedLength "id" = 4) ∧
    (Json.quotedLength "error" = 7 ∧ Json.quotedLength "code" = 6 ∧
      Json.quotedLength "message" = 9) ∧
    Json.quotedLength jsonrpcResponseTooLarge ≤ 100 ∧ Json.quotedLength jsonrpcMessageTooLarge ≤ 100 ∧
      Json.quotedLength inputNotUtf8 ≤ 100 := by
  decide +kernel

omit [Library] in
theorem encodedLength_jsonrpcError (id : Json) (code : JsonNumber) (message : String) :
    (jsonrpcError id code message).encodedLength ≤
      id.encodedLength + Json.quotedLength message + 100 := by
  obtain ⟨⟨hjsonrpc, hversion, hid⟩, ⟨herror, hcode, hmessage⟩, -⟩ := quotedLength_errors
  have hshort := code.short
  simp only [jsonrpcError, Json.encodedLength, Json.fieldsLength, hjsonrpc, hversion, hid, herror,
    hcode, hmessage]
  omega

omit [Library] in
theorem idOf?_validId (response : Json) :
    idOf? (((response.get? "id").filter validJsonrpcId).getD .null) = responseId? response := by
  rw [responseId?]
  cases response.get? "id" with
  | none => rfl
  | some v =>
      have hsome := idOf?_isSome v
      by_cases hvalid : validJsonrpcId v = true
      · rw [Option.filter_some, if_pos hvalid, Option.getD_some, Option.bind_some]
      · rw [Option.filter_some, if_neg hvalid, Option.getD_none, Option.bind_some]
        rw [Bool.not_eq_true] at hvalid
        rw [hvalid, Option.isSome_eq_false_iff, Option.isNone_iff_eq_none] at hsome
        exact hsome.symm

omit [Library] in
/-- Every response can be written, if only as an error under its id. -/
theorem writeProtocolResponse_ok (response : Json) :
    ∃ written, writeProtocolResponse response = .ok written ∧
      responseId? written = responseId? response := by
  rw [writeProtocolResponse]
  split
  · exact ⟨response, rfl, rfl⟩
  · have hid := encodedLength_validId (response.get? "id")
    have hlength := encodedLength_jsonrpcError
      (((response.get? "id").filter validJsonrpcId).getD .null) internalErrorCode
      jsonrpcResponseTooLarge
    have htext := quotedLength_errors.2.2.1
    refine ⟨_, if_neg ?_, idOf?_validId response⟩
    simp only [maxJsonrpcMessageBytes, maxJsonrpcIdBytes] at hid ⊢
    omega

omit [Library] in
theorem emit_writeProtocolResponse (response : Json) (next : State) :
    ∃ written, emit (writeProtocolResponse response) next = (next, [.wrote written]) ∧
      responseId? written = responseId? response := by
  obtain ⟨written, hwritten, hid⟩ := writeProtocolResponse_ok response
  exact ⟨written, by rw [hwritten]; rfl, hid⟩

omit [Library] in
/-- A short message without an id can be written. -/
theorem writeJsonLine_error (code : JsonNumber) {message : String}
    (h : Json.quotedLength message ≤ 100) :
    writeJsonLine (jsonrpcError .null code message) = .ok (jsonrpcError .null code message) := by
  have hlength := encodedLength_jsonrpcError .null code message
  rw [writeJsonLine, if_neg]
  simp only [maxJsonrpcMessageBytes, Json.encodedLength] at hlength ⊢
  omega

omit [Library] in
theorem tooLargeAnswer_eq :
    tooLargeAnswer = .ok (jsonrpcError .null invalidRequestCode jsonrpcMessageTooLarge) :=
  writeJsonLine_error _ quotedLength_errors.2.2.2.1

omit [Library] in
theorem invalidUtf8Answer_eq :
    invalidUtf8Answer = .ok (jsonrpcError .null parseErrorCode inputNotUtf8) :=
  writeJsonLine_error _ quotedLength_errors.2.2.2.2

/-- A line that is read as a request has a valid id or none. -/
theorem parseJsonrpcLine_ok {line : InputLine} {request : Json}
    (h : parseJsonrpcLine line = .ok request) :
    Library.parse line.text = .ok request ∧
      ∀ id, request.get? "id" = some id → (idOf? id).isSome := by
  rw [parseJsonrpcLine, if_neg (Nat.not_lt.2 line.bounded)] at h
  cases hparse : Library.parse line.text with
  | error error =>
      rw [hparse] at h
      cases h
  | ok parsed =>
      rw [hparse] at h
      by_cases hinvalid : (parsed.get? "id").any (!validJsonrpcId ·) = true
      · simp only [hinvalid, if_true] at h
        cases h
      · simp only [hinvalid, Bool.false_eq_true, if_false] at h
        cases h
        refine ⟨rfl, fun id hid => ?_⟩
        rw [hid, Option.any_some, Bool.not_eq_true, Bool.not_eq_false'] at hinvalid
        rw [idOf?_isSome]
        exact hinvalid

/-- A line that is answered at once is malformed, and the answer has no id. -/
theorem parseJsonrpcLine_error {line : InputLine} {response : Json}
    (h : parseJsonrpcLine line = .error response) :
    responseId? response = none ∧ lineId? line = none ∧
      (Received.event (.line line)).malformed = true := by
  rw [parseJsonrpcLine, if_neg (Nat.not_lt.2 line.bounded)] at h
  rw [lineId?, Received.malformed]
  cases hparse : Library.parse line.text with
  | error error =>
      rw [hparse] at h
      cases h
      exact ⟨rfl, rfl, rfl⟩
  | ok parsed =>
      rw [hparse] at h
      by_cases hinvalid : (parsed.get? "id").any (!validJsonrpcId ·) = true
      · simp only [hinvalid, if_true] at h
        cases h
        refine ⟨rfl, ?_, by simp only [hinvalid, Bool.or_true]⟩
        cases hid : parsed.get? "id" with
        | none => simp only [hid, Option.any_none, Bool.false_eq_true] at hinvalid
        | some id =>
            simp only [hid, Option.any_some, Bool.not_eq_true', ← idOf?_isSome,
              Option.isSome_eq_false_iff, Option.isNone_iff_eq_none] at hinvalid
            simp only [responseId?, hid, Option.bind_some, hinvalid]
      · simp only [hinvalid, Bool.false_eq_true, if_false] at h
        cases h

/-! ### The turns of the server -/

/-- The turns after which a request can still count on its answer: a message that is read while no
planner works has a method, a worker that is gone has not panicked, and what is taken for a
cancellation has no id to be answered under. -/
def Answerable : State → Tick → Prop
  | .idle, t => t.received.malformed = false → ∀ line, t.received = .event (.line line) →
      ∀ request, Library.parse line.text = .ok request → (method? request).isSome
  | .waiting w, t => t.poll ≠ .disconnected true ∧
      ∀ line, t.received = .event (.line line) → cancellationTargetsRequest line w.id = true →
        lineId? line = none
  | .stopped _, _ => True

/-- What is known of a planning request while its worker is awaited. -/
structure Waiting.Sound (w : Waiting) (planning : Option RequestId) : Prop where
  id : ∃ i, idOf? w.id = some i ∧ planning = if w.terminalSent then none else some i
  request : w.request.get? "id" = some w.id
  method : method? w.request = some "tools/call"
  ended : w.inputEnd ≠ .continue_ → w.terminalSent = true

/-- The ledger and the server agree on the plan that is awaited. -/
def Tracks : State → Ledger → Prop
  | .waiting w, L => L.owed = none ∧ w.Sound L.planning
  | _, L => L.owed = none ∧ L.planning = none

/-- A request without a plan to make is answered under its id, when it has one, and only for a
missing method otherwise. -/
theorem handleMessage_cases (request : Json) (called : Except String Json) :
    (∃ error, handleMessage request called = .error error ∧ method? request = none) ∨
    (handleMessage request called = .ok none ∧ request.get? "id" = none) ∨
    ∃ id response, handleMessage request called = .ok (some response) ∧
      request.get? "id" = some id ∧ responseId? response = idOf? id := by
  cases hmethod : method? request with
  | none => exact .inl ⟨_, by rw [handleMessage, hmethod], rfl⟩
  | some method =>
      right
      cases hid : request.get? "id" with
      | none => exact .inl ⟨by rw [handleMessage, hmethod]; simp only [hid], rfl⟩
      | some id =>
          right
          rw [handleMessage, hmethod]
          simp only [hid]
          split
          · exact ⟨id, _, rfl, rfl, rfl⟩
          · exact ⟨id, _, rfl, rfl, rfl⟩
          · exact ⟨id, _, rfl, rfl, rfl⟩
          · split
            · exact ⟨id, _, rfl, rfl, rfl⟩
            · exact ⟨id, _, rfl, rfl, rfl⟩
          · exact ⟨id, _, rfl, rfl, rfl⟩

omit [Library] in
theorem planningToolRequest?_some {request : Json} {planner : Planner}
    (h : planningToolRequest? request = some planner) :
    (∃ id, request.get? "id" = some id) ∧ method? request = some "tools/call" := by
  rw [planningToolRequest?, Option.ite_none_right_eq_some] at h
  exact ⟨Option.isSome_iff_exists.1 h.1.1, h.1.2⟩

/-- A malformed line that is read as a request is no object. -/
theorem get?_id_of_malformed {line : InputLine} {request : Json}
    (hrequest : Library.parse line.text = .ok request)
    (hvalid : ∀ id, request.get? "id" = some id → (idOf? id).isSome)
    (h : (Received.event (.line line)).malformed = true) : request.get? "id" = none := by
  simp only [Received.malformed, hrequest, Bool.or_eq_true, Bool.not_eq_true'] at h
  rcases h with hobject | hid
  · cases request with
    | object fields => cases hobject
    | _ => rfl
  · cases hget : request.get? "id" with
    | none => rfl
    | some id =>
        have hsome := hvalid id hget
        simp only [hget, Option.any_some, ← idOf?_isSome, hsome, Bool.not_true,
          Bool.false_eq_true] at hid

/-- A line, read while no planner works. -/
theorem tracks_serveLine {planningTimeout : Nat} {t : Tick} {line : InputLine} {L : Ledger}
    (hblank : ∀ s, Text.isBlank s = true → ∃ e, Library.parse s = .error e)
    (howed : L.owed = none) (hplanning : L.planning = none)
    (hmethod : (Received.event (.line line)).malformed = false →
      ∀ request, Library.parse line.text = .ok request → (method? request).isSome) :
    ∃ L', L.run (.read (.event (.line line)) :: (serveLine planningTimeout t line).2) = some L' ∧
      Tracks (serveLine planningTimeout t line).1 L' := by
  have hfree : ∀ i, L.planning = some i → (Received.event (.line line)).silences i = false := by
    intro i hi
    rw [hplanning] at hi
    cases hi
  rw [serveLine]
  split
  · next hline =>
      obtain ⟨e, he⟩ := hblank _ hline
      have hid : (Received.event (.line line)).requestId? = none := by
        simp only [Received.requestId?, lineId?, he]
      exact ⟨_, tracks_ignored howed hid hfree, rfl, hplanning⟩
  · split
    · next response hparse =>
        obtain ⟨hresponse, hid, hmalformed⟩ := parseJsonrpcLine_error hparse
        obtain ⟨written, hwritten, hsame⟩ := emit_writeProtocolResponse response .idle
        rw [hwritten]
        exact ⟨_, tracks_refused howed hid hmalformed hfree (hsame.trans hresponse), rfl, hplanning⟩
    · next request hparse =>
        obtain ⟨hrequest, hvalid⟩ := parseJsonrpcLine_ok hparse
        have hread : (Received.event (.line line)).requestId? = responseId? request := by
          simp only [Received.requestId?, lineId?, hrequest]
        have hplan : (Received.event (.line line)).isPlanning =
            (planningToolRequest? request).isSome := by
          simp only [Received.isPlanning, isPlanningLine, hrequest]
        cases hplanner : planningToolRequest? request with
        | some planner =>
            obtain ⟨⟨id, hid⟩, hcall⟩ := planningToolRequest?_some hplanner
            obtain ⟨i, hi⟩ := Option.isSome_iff_exists.1 (hvalid id hid)
            have hrequestId : (Received.event (.line line)).requestId? = some i := by
              rw [hread, responseId?, hid, Option.bind_some, hi]
            have hread : L.read (.event (.line line)) = ⟨some i, none, false⟩ := by
              rw [Ledger.read, hrequestId]
              exact if_pos ⟨by rw [hplan, hplanner]; rfl, hplanning⟩
            refine ⟨⟨some i, none, false⟩, ?_, rfl, ⟨i, ?_, rfl⟩, ?_, hcall,
              fun hended => absurd rfl hended⟩
            · rw [Ledger.run_cons, Ledger.step_read howed, Option.bind_some, hread]
              rfl
            · simp only [hid, Option.getD_some, hi]
            · simp only [hid, Option.getD_some]
        | none =>
            rcases handleMessage_cases request t.called with
              ⟨error, herror, hnone⟩ | ⟨hnone, hid⟩ | ⟨id, response, hresponse, hid, hsame⟩
            · have hmalformed : (Received.event (.line line)).malformed = true := by
                by_contra hwell
                have hsome := hmethod (Bool.not_eq_true _ ▸ hwell) request hrequest
                rw [hnone] at hsome
                cases hsome
              have hid := get?_id_of_malformed hrequest hvalid hmalformed
              have hrequestId : (Received.event (.line line)).requestId? = none := by
                rw [hread, responseId?, hid, Option.bind_none]
              obtain ⟨written, hwritten, hkept⟩ := emit_writeProtocolResponse
                (jsonrpcError .null internalErrorCode error) .idle
              simp only [herror, hwritten]
              exact ⟨_, tracks_refused howed hrequestId hmalformed hfree hkept, rfl, hplanning⟩
            · have hrequestId : (Received.event (.line line)).requestId? = none := by
                rw [hread, responseId?, hid, Option.bind_none]
              simp only [hnone]
              exact ⟨_, tracks_ignored howed hrequestId hfree, rfl, hplanning⟩
            · obtain ⟨i, hi⟩ := Option.isSome_iff_exists.1 (hvalid id hid)
              obtain ⟨written, hwritten, hkept⟩ := emit_writeProtocolResponse response .idle
              have hrequestId : (Received.event (.line line)).requestId? = some i := by
                rw [hread, responseId?, hid, Option.bind_some, hi]
              simp only [hresponse, hwritten]
              exact ⟨_, tracks_answered howed hrequestId (hkept.trans (hsame.trans hi)),
                rfl, hplanning⟩

theorem tracks_serveIdle {planningTimeout : Nat} {t : Tick} {L : Ledger}
    (hblank : ∀ s, Text.isBlank s = true → ∃ e, Library.parse s = .error e)
    (h : Tracks .idle L) (hturn : Answerable .idle t) :
    ∃ L', L.run (serveIdle planningTimeout t).2 = some L' ∧
      Tracks (serveIdle planningTimeout t).1 L' := by
  obtain ⟨howed, hplanning⟩ := h
  have hfree : ∀ (r : Received) (b : Bool) i, L.planning = some i → r.silences i = b := by
    intro r b i hi
    rw [hplanning] at hi
    cases hi
  rw [serveIdle]
  cases hreceived : t.received with
  | timeout => exact ⟨L, rfl, howed, hplanning⟩
  | disconnected => exact ⟨_, tracks_ignored howed rfl (hfree _ _), rfl, hplanning⟩
  | event e =>
      cases e with
      | eof => exact ⟨_, tracks_ignored howed rfl (hfree _ _), rfl, hplanning⟩
      | readError error => exact ⟨_, tracks_ignored howed rfl (hfree _ _), rfl, hplanning⟩
      | tooLarge =>
          rw [tooLargeAnswer_eq]
          exact ⟨_, tracks_refused howed rfl rfl (hfree _ _) rfl, rfl, hplanning⟩
      | invalidUtf8 =>
          rw [invalidUtf8Answer_eq]
          exact ⟨_, tracks_refused howed rfl rfl (hfree _ _) rfl, rfl, hplanning⟩
      | line line =>
          refine tracks_serveLine hblank howed hplanning fun hwell => ?_
          exact hturn (hreceived ▸ hwell) line hreceived

/-- A line without an id cancels a plan exactly when the loop takes it for that. -/
theorem cancels_eq {line : InputLine} {id : Json} {i : RequestId} (hid : idOf? id = some i)
    (hline : lineId? line = none) : cancels line i = cancellationTargetsRequest line id := by
  rw [cancels, cancellationTargetsRequest]
  rw [lineId?] at hline
  cases hparse : Library.parse line.text with
  | error error => rfl
  | ok request =>
      rw [hparse] at hline
      simp only at hline
      simp only [hline, decide_true, Bool.true_and]
      cases request.pointer "params" "requestId" with
      | none => simp
      | some target =>
          rw [Option.bind_some, Option.any_some, Bool.eq_iff_iff]
          simp only [Bool.and_eq_true, decide_eq_true_eq, idOf?_of_sameId hid]

/-- A line, read while a planner works, that does not cancel the plan. -/
theorem tracks_rejectConcurrentInput {w : Waiting} {line : InputLine} {L : Ledger}
    (howed : L.owed = none) (hw : w.Sound L.planning)
    (hplain : cancellationTargetsRequest line w.id = false) :
    ∃ L', L.run (.read (.event (.line line)) :: (rejectConcurrentInput w line).2) = some L' ∧
      Tracks (rejectConcurrentInput w line).1 L' := by
  have hloud : lineId? line = none → ∀ i, L.planning = some i →
      (Received.event (.line line)).silences i = false := by
    intro hline i hi
    obtain ⟨j, hj, hplanning⟩ := hw.id
    rw [hplanning, Option.ite_none_left_eq_some] at hi
    cases hi.2
    exact (cancels_eq hj hline).trans hplain
  rw [rejectConcurrentInput]
  split
  · next request hparse =>
      obtain ⟨hrequest, hvalid⟩ := parseJsonrpcLine_ok hparse
      have hread : lineId? line = responseId? request := by simp only [lineId?, hrequest]
      cases hid : request.get? "id" with
      | some id =>
          obtain ⟨i, hi⟩ := Option.isSome_iff_exists.1 (hvalid id hid)
          have hrequestId : (Received.event (.line line)).requestId? = some i := by
            rw [Received.requestId?, hread, responseId?, hid, Option.bind_some, hi]
          obtain ⟨written, hwritten, hkept⟩ := emit_writeProtocolResponse
            (jsonrpcError id busyCode w.planner.activePlannerBusyMessage) (.waiting w)
          simp only [hwritten]
          exact ⟨_, tracks_answered howed hrequestId (hkept.trans hi), rfl, hw⟩
      | none =>
          have hline : lineId? line = none := by rw [hread, responseId?, hid, Option.bind_none]
          exact ⟨_, tracks_ignored howed hline (hloud hline), rfl, hw⟩
  · next response hparse =>
      obtain ⟨hresponse, hline, hmalformed⟩ := parseJsonrpcLine_error hparse
      obtain ⟨written, hwritten, hkept⟩ := emit_writeProtocolResponse response (.waiting w)
      rw [hwritten]
      exact ⟨_, tracks_refused howed hline hmalformed (hloud hline) (hkept.trans hresponse), rfl, hw⟩

omit [Library] in
/-- A plan that is given up keeps its request. -/
theorem Waiting.Sound.cancel {w : Waiting} {planning : Option RequestId} (h : w.Sound planning)
    (t : Tick) (inputEnd : PlanningWaitEnd) :
    Waiting.Sound { w.cancel t with inputEnd } none := by
  obtain ⟨i, hi, -⟩ := h.id
  exact ⟨⟨i, hi, rfl⟩, h.request, h.method, fun _ => rfl⟩

omit [Library] in
theorem Waiting.Sound.planning_of_terminalSent {w : Waiting} {planning : Option RequestId}
    (h : w.Sound planning) (hsent : w.terminalSent = true) : planning = none := by
  obtain ⟨i, -, hplanning⟩ := h.id
  rw [hplanning, if_pos hsent]

theorem tracks_waitForInput {w : Waiting} {t : Tick} {L : Ledger}
    (howed : L.owed = none) (hw : w.Sound L.planning) (hturn : Answerable (.waiting w) t) :
    ∃ L', L.run (waitForInput w t).2 = some L' ∧ Tracks (waitForInput w t).1 L' := by
  obtain ⟨i, hi, hplanning⟩ := hw.id
  have hactive : ∀ (r : Received) (b : Bool), (r.silences i = b) →
      ∀ j, L.planning = some j → r.silences j = b := by
    intro r b hb j hj
    rw [hplanning, Option.ite_none_left_eq_some] at hj
    cases hj.2
    exact hb
  rw [waitForInput]
  split
  · exact ⟨L, rfl, howed, hw⟩
  · cases hreceived : t.received with
    | timeout => exact ⟨L, rfl, howed, hw⟩
    | disconnected =>
        exact ⟨_, tracks_silenced howed rfl (hactive _ _ rfl), rfl, hw.cancel t .eof⟩
    | event e =>
        cases e with
        | eof => exact ⟨_, tracks_silenced howed rfl (hactive _ _ rfl), rfl, hw.cancel t .eof⟩
        | readError error =>
            exact ⟨_, tracks_silenced howed rfl (hactive _ _ rfl), rfl,
              hw.cancel t (.readError error)⟩
        | tooLarge =>
            rw [tooLargeAnswer_eq]
            exact ⟨_, tracks_refused howed rfl rfl (hactive _ _ rfl) rfl, rfl, hw⟩
        | invalidUtf8 =>
            rw [invalidUtf8Answer_eq]
            exact ⟨_, tracks_refused howed rfl rfl (hactive _ _ rfl) rfl, rfl, hw⟩
        | line line =>
            cases hcancel : cancellationTargetsRequest line w.id with
            | false =>
                simp only [hcancel, Bool.false_eq_true, if_false]
                exact tracks_rejectConcurrentInput howed hw hcancel
            | true =>
                have hline : lineId? line = none := hturn.2 line hreceived hcancel
                have hsilent := hactive (.event (.line line)) true
                  ((cancels_eq hi hline).trans hcancel)
                have hrun := tracks_silenced (r := .event (.line line)) howed hline hsilent
                simp only [hcancel, if_true]
                refine ⟨_, hrun, rfl, ?_⟩
                by_cases hsent : w.terminalSent = true
                · rw [if_pos hsent]
                  exact hw.planning_of_terminalSent hsent ▸ hw
                · rw [if_neg hsent]
                  exact hw.cancel t w.inputEnd

/-- The answer to the plan, unless it was given up. -/
theorem tracks_planned {w : Waiting} {response : Json} {next : State} {L : Ledger}
    (howed : L.owed = none) (hw : w.Sound L.planning) (hsent : w.terminalSent = false)
    (hid : responseId? response = idOf? w.id) (hnext : Tracks next Ledger.start) :
    ∃ L', L.run (emit (writeProtocolResponse response) next).2 = some L' ∧
      Tracks (emit (writeProtocolResponse response) next).1 L' := by
  obtain ⟨i, hi, hplanning⟩ := hw.id
  rw [hsent] at hplanning
  obtain ⟨written, hwritten, hkept⟩ := emit_writeProtocolResponse response next
  have hwrite := Ledger.write_planning howed hplanning (hkept.trans (hid.trans hi))
  rw [hwritten]
  exact ⟨_, by rw [Ledger.run_cons, Ledger.step, hwrite]; rfl, hnext⟩

omit [Library] in
/-- A worker that is done with an open input is done for good. -/
theorem tracks_next (e : PlanningWaitEnd) {L : Ledger} (howed : L.owed = none)
    (hplanning : L.planning = none) : Tracks e.next L := by
  cases e <;> exact ⟨howed, hplanning⟩

theorem tracks_pollWorker {w : Waiting} {t : Tick} {L : Ledger}
    (howed : L.owed = none) (hw : w.Sound L.planning) (hturn : Answerable (.waiting w) t) :
    ∃ L', L.run (pollWorker w t).2 = some L' ∧ Tracks (pollWorker w t).1 L' := by
  rw [pollWorker]
  cases hpoll : t.poll with
  | empty => exact tracks_waitForInput howed hw hturn
  | finished called =>
      cases hsent : w.terminalSent with
      | true => exact ⟨L, rfl, tracks_next _ howed (hw.planning_of_terminalSent hsent)⟩
      | false =>
          rcases handleMessage_cases w.request called with
            ⟨error, herror, hnone⟩ | ⟨hnone, hid⟩ | ⟨id, response, hresponse, hid, hsame⟩
          · rw [hw.method] at hnone
            cases hnone
          · rw [hw.request] at hid
            cases hid
          · rw [hw.request] at hid
            cases hid
            simp only [hresponse, Bool.false_eq_true, if_false]
            exact tracks_planned howed hw hsent hsame (tracks_next _ rfl rfl)
  | disconnected panicked =>
      cases panicked with
      | true => exact absurd hpoll hturn.1
      | false =>
          cases hsent : w.terminalSent with
          | true => exact ⟨L, rfl, tracks_next _ howed (hw.planning_of_terminalSent hsent)⟩
          | false =>
              simp only [Bool.false_eq_true, if_false]
              exact tracks_planned howed hw hsent rfl (tracks_next _ rfl rfl)

theorem tracks_waitOrStop {w : Waiting} {t : Tick} {L : Ledger}
    (howed : L.owed = none) (hw : w.Sound L.planning) (hturn : Answerable (.waiting w) t) :
    ∃ L', L.run (waitOrStop w t).2 = some L' ∧ Tracks (waitOrStop w t).1 L' := by
  rw [waitOrStop]
  split
  · next hlate => exact ⟨L, rfl, howed, hw.planning_of_terminalSent hlate.1⟩
  · exact tracks_pollWorker howed hw hturn

theorem tracks_servePlanning {w : Waiting} {t : Tick} {L : Ledger}
    (howed : L.owed = none) (hw : w.Sound L.planning) (hturn : Answerable (.waiting w) t) :
    ∃ L', L.run (servePlanning w t).2 = some L' ∧ Tracks (servePlanning w t).1 L' := by
  rw [servePlanning]
  split
  · next hdeadline =>
      obtain ⟨i, hi, hplanning⟩ := hw.id
      rw [hdeadline.1] at hplanning
      obtain ⟨written, hwritten, hkept⟩ := writeProtocolResponse_ok
        (jsonrpcError w.id timedOutCode w.planner.timedOut)
      have hwrite := Ledger.write_planning howed hplanning (hkept.trans hi)
      have hgivenUp : Waiting.Sound { w with
          terminalSent := true
          terminationDeadline := some (t.now + planningTerminationGrace) } Ledger.start.planning :=
        ⟨⟨i, hi, rfl⟩, hw.request, hw.method, fun _ => rfl⟩
      obtain ⟨L', hrun, htracks⟩ := tracks_waitOrStop (L := Ledger.start) rfl hgivenUp hturn
      rw [hwritten]
      exact ⟨L', by rw [Ledger.run_cons, Ledger.step, hwrite]; exact hrun, htracks⟩
  · exact tracks_waitOrStop howed hw hturn

/-- **One turn.** What is read and written in an answerable turn is accepted by the ledger. -/
theorem tracks_serveTick {planningTimeout : Nat} {s : State} {t : Tick} {L : Ledger}
    (hblank : ∀ s, Text.isBlank s = true → ∃ e, Library.parse s = .error e)
    (h : Tracks s L) (hturn : Answerable s t) :
    ∃ L', L.run (serveTick planningTimeout s t).2 = some L' ∧
      Tracks (serveTick planningTimeout s t).1 L' := by
  cases s with
  | idle =>
      rw [serveTick]
      exact tracks_serveIdle hblank h hturn
  | waiting w =>
      rw [serveTick]
      exact tracks_servePlanning h.1 h.2 hturn
  | stopped result => exact ⟨L, rfl, h⟩

/-- Every turn of a run is answerable. -/
def AnswerableRun (planningTimeout : Nat) : State → List Tick → Prop
  | _, [] => True
  | s, t :: ticks => Answerable s t ∧ AnswerableRun planningTimeout (serveTick planningTimeout s t).1 ticks

theorem tracks_serve {planningTimeout : Nat} {s : State} {ticks : List Tick} {L : Ledger}
    (hblank : ∀ s, Text.isBlank s = true → ∃ e, Library.parse s = .error e)
    (h : Tracks s L) (hturns : AnswerableRun planningTimeout s ticks) :
    ∃ L', L.run (serve planningTimeout s ticks).2 = some L' ∧
      Tracks (serve planningTimeout s ticks).1 L' := by
  induction ticks generalizing s L with
  | nil => exact ⟨L, rfl, h⟩
  | cons t ticks ih =>
      obtain ⟨L₁, hturn, htracks⟩ := tracks_serveTick hblank h hturns.1
      obtain ⟨L₂, hrest, hfinal⟩ := ih htracks hturns.2
      exact ⟨L₂, by rw [serve, Ledger.run_append, hturn]; exact hrest, hfinal⟩

/-! ### Whole runs -/

/-- The plan of the request `i` is awaited. -/
def State.Awaits : State → RequestId → Prop
  | .waiting w, i => idOf? w.id = some i ∧ w.terminalSent = false
  | _, _ => False

/-- Every request of a run is answered once and under its id. -/
structure AnsweredOnce (planningTimeout : Nat) (final : State) (log : List Entry) : Prop where
  /-- A request is not answered before it is read. It is answered once after it, unless it asks
  for a plan that is still awaited or that was silenced. -/
  answered : ∀ before after line i, log = before ++ .read (.event (.line line)) :: after →
    lineId? line = some i → responses before i = 0 ∧
      (responses after i = 1 ∨ isPlanningLine line = true ∧ responses after i = 0 ∧
        (final.Awaits i ∨ ∃ r, .read r ∈ after ∧ r.silences i = true))
  /-- After a cancellation that names it, or the end of input, a plan is not answered. -/
  silenced : ∀ before after r i, log = before ++ .read r :: after → i ∈ readIds before →
    r.silences i = true → responses after i = 0
  /-- What is written has the id of a request that was read, or follows malformed input. -/
  justified : ∀ before after response, log = before ++ .wrote response :: after →
    (∃ i, responseId? response = some i ∧ i ∈ readIds before) ∨
      responseId? response = none ∧ ∃ r, before.getLast? = some (.read r) ∧ r.malformed = true
  /-- A plan that is awaited at its deadline is answered in the next turn. -/
  timely : ∀ w i, final = .waiting w → idOf? w.id = some i → w.terminalSent = false →
    ∀ t, w.deadline ≤ t.now → ∃ response rest,
      (serveTick planningTimeout final t).2 = .wrote response :: rest ∧
        responseId? response = some i

theorem serve_timely {planningTimeout : Nat} {w : Waiting} {t : Tick} {i : RequestId}
    (hid : idOf? w.id = some i) (hsent : w.terminalSent = false) (hdeadline : w.deadline ≤ t.now) :
    ∃ response rest, (serveTick planningTimeout (.waiting w) t).2 = .wrote response :: rest ∧
      responseId? response = some i := by
  obtain ⟨written, hwritten, hkept⟩ := writeProtocolResponse_ok
    (jsonrpcError w.id timedOutCode w.planner.timedOut)
  rw [serveTick, servePlanning, if_pos ⟨hsent, hdeadline⟩, hwritten]
  exact ⟨written, _, rfl, hkept.trans hid⟩

/-- **The event loop.** In a run from the start whose turns are answerable and whose requests have
distinct ids, every request is answered once and under its id. -/
theorem requests_answered_once (planningTimeout : Nat) (ticks : List Tick)
    (hblank : ∀ s, Text.isBlank s = true → ∃ e, Library.parse s = .error e)
    (hturns : AnswerableRun planningTimeout .idle ticks)
    (hids : (readIds (serve planningTimeout .idle ticks).2).Nodup) :
    AnsweredOnce planningTimeout (serve planningTimeout .idle ticks).1
      (serve planningTimeout .idle ticks).2 := by
  have hstart : Tracks .idle Ledger.start := ⟨rfl, rfl⟩
  obtain ⟨L, hrun, htracks⟩ := tracks_serve hblank hstart hturns
  generalize (serve planningTimeout .idle ticks).1 = final at htracks ⊢
  generalize (serve planningTimeout .idle ticks).2 = log at hrun hids ⊢
  have howed : L.owed = none := by
    cases final with
    | waiting w => exact htracks.1
    | _ => exact htracks.1
  have hawaits : ∀ i, L.planning = some i → final.Awaits i := by
    intro i hi
    cases final with
    | waiting w =>
        obtain ⟨j, hj, hplanning⟩ := htracks.2.id
        rw [hplanning, Option.ite_none_left_eq_some, Bool.not_eq_true] at hi
        cases hi.2
        exact ⟨hj, hi.1⟩
    | _ =>
        rw [htracks.2] at hi
        cases hi
  constructor
  · rintro before after line i rfl hid
    obtain ⟨hzero, hone | ⟨hplan, hnone, hpending | hsilent⟩⟩ :=
      Ledger.request_answered hrun howed hids hid
    · exact ⟨hzero, .inl hone⟩
    · exact ⟨hzero, .inr ⟨hplan, hnone, .inl (hawaits i hpending)⟩⟩
    · exact ⟨hzero, .inr ⟨hplan, hnone, .inr hsilent⟩⟩
  · rintro before after r i rfl hread hsilent
    exact Ledger.silenced_quiet hrun hids hread hsilent
  · rintro before after response rfl
    exact Ledger.response_justified hrun
  · rintro w i rfl hid hsent t hdeadline
    exact serve_timely hid hsent hdeadline

/-- A request that asks for no plan has its response in the rest of the log. -/
theorem AnsweredOnce.responses_eq_one {planningTimeout : Nat} {final : State}
    {log : List Entry} (h : AnsweredOnce planningTimeout final log) {before after : List Entry}
    {line : InputLine} {i : RequestId} (hlog : log = before ++ .read (.event (.line line)) :: after)
    (hid : lineId? line = some i) (hplain : isPlanningLine line = false) : responses after i = 1 := by
  obtain ⟨-, hone | ⟨hplan, -⟩⟩ := h.answered before after line i hlog hid
  · exact hone
  · rw [hplain] at hplan
    cases hplan

/-! ### Three messages -/

/-- A reader that knows some texts. -/
@[reducible] def Library.ofTexts (texts : List (String × Json)) : Library where
  parse text :=
    match texts.find? fun known => known.1 = text with
    | some known => .ok known.2
    | none => .error "expected value at line 1 column 1"
  initializeResult := .object []
  toolsListResult := .object []

omit [Library] in
theorem blank_ofTexts {texts : List (String × Json)}
    (h : ∀ known ∈ texts, Text.isBlank known.1 = false) (s : String) (hs : Text.isBlank s = true) :
    ∃ e, (Library.ofTexts texts).parse s = .error e := by
  refine ⟨"expected value at line 1 column 1", ?_⟩
  simp only [Library.parse]
  have hfind : texts.find? (fun known => known.1 = s) = none := by
    rw [List.find?_eq_none]
    intro known hknown hsame
    rw [← of_decide_eq_true hsame, h known hknown] at hs
    cases hs
  rw [hfind]

/-- A message without a method, a request for a plan, and a cancellation of it with an id of its
own. -/
def threeMessages : List (String × Json) := [
  ("\x7b\"id\":1\x7d", .object [("id", .number ⟨"1", by decide⟩)]),
  ("\x7b\"id\":2,\"method\":\"tools/call\",\"params\":\x7b\"name\":\"plan_capture\"\x7d\x7d",
    .object [("id", .number ⟨"2", by decide⟩), ("method", .string "tools/call"),
      ("params", .object [("name", .string "plan_capture")])]),
  ("\x7b\"id\":3,\"method\":\"notifications/cancelled\",\"params\":\x7b\"requestId\":2\x7d\x7d",
    .object [("id", .number ⟨"3", by decide⟩), ("method", .string "notifications/cancelled"),
      ("params", .object [("requestId", .number ⟨"2", by decide⟩)])])]

@[reducible] def threeLibrary : Library := Library.ofTexts threeMessages

/-- A turn in which one of the messages is read. -/
def reads (n : Fin 3) : Tick :=
  ⟨0, 0, .empty, .event (.line ⟨(threeMessages.get n).1, by revert n; decide +kernel⟩),
    .error "unknown tool"⟩

omit [Library] in
/-- A plan is asked for, and made. -/
theorem requests_answered_once_plan :
    @AnsweredOnce threeLibrary 5000
      (@serve threeLibrary 5000 .idle
        [reads 1, ⟨1, 1, .finished (.ok (.object [])), .timeout, .error "unknown tool"⟩]).1
      (@serve threeLibrary 5000 .idle
        [reads 1, ⟨1, 1, .finished (.ok (.object [])), .timeout, .error "unknown tool"⟩]).2 := by
  refine @requests_answered_once threeLibrary 5000 _ ?_ ⟨?_, ?_, trivial⟩ (by decide +kernel)
  · exact blank_ofTexts (by decide +kernel)
  · intro _ line hline request hrequest
    cases hline
    have hmethod : ((@Library.parse threeLibrary (threeMessages.get (1 : Fin 3)).1).toOption.all
        fun r => (method? r).isSome) = true := by decide +kernel
    rw [hrequest] at hmethod
    exact hmethod
  · exact ⟨nofun, nofun⟩

omit [Library] in
/-- A message without a method gets no response under its id, and neither does the cancellation
that has one. -/
theorem requests_unanswered :
    ¬ @AnsweredOnce threeLibrary 5000 (@serve threeLibrary 5000 .idle [reads 0]).1
        (@serve threeLibrary 5000 .idle [reads 0]).2 ∧
      ¬ @AnsweredOnce threeLibrary 5000 (@serve threeLibrary 5000 .idle [reads 1, reads 2]).1
        (@serve threeLibrary 5000 .idle [reads 1, reads 2]).2 ∧
      (@readIds threeLibrary (@serve threeLibrary 5000 .idle [reads 0]).2).Nodup ∧
      (@readIds threeLibrary (@serve threeLibrary 5000 .idle [reads 1, reads 2]).2).Nodup := by
  refine ⟨fun h => ?_, fun h => ?_, by decide +kernel, by decide +kernel⟩
  · have hone := @AnsweredOnce.responses_eq_one threeLibrary 5000 _ _ h [] _ _
      (.number ⟨"1", by decide⟩) rfl (by decide +kernel) (by decide +kernel)
    revert hone
    decide +kernel
  · have hone := @AnsweredOnce.responses_eq_one threeLibrary 5000 _ _ h [_] _ _
      (.number ⟨"3", by decide⟩) rfl (by decide +kernel) (by decide +kernel)
    revert hone
    decide +kernel

end Mcp
end Memzoi
