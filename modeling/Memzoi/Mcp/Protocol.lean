/-
# The protocol loop

Source: `memzoi-mcp/src/protocol.rs` (`read_bounded_line`, `serve_event_loop`,
`wait_for_planning_request`, `handle_message_with_control` and the writers
under them).

The server is a state and a tick. In `idle` a tick is one turn of the outer
loop, and while a planner works it is one turn of the inner loop: the readings
of the clock, what the worker's channel held and what the input channel held
are data of the tick, so that any order of them is some list of ticks. A tick
gives the next state and what was read and written, in order; writing to the
output does not fail. What the tools answer, and the reader of JSON, are
parameters.
-/

import Memzoi.Lib.Json
import Memzoi.Lib.Text

namespace Memzoi
namespace Mcp

/-! ### Limits and texts -/

def maxJsonrpcMessageBytes : Nat := 2 * 1024 * 1024
def jsonrpcMessageTooLarge : String := "JSON-RPC message exceeds the 2 MiB limit"
def jsonrpcResponseTooLarge : String := "JSON-RPC response exceeds the 2 MiB limit"
def planningTerminationGrace : Nat := 2000
def maxJsonrpcIdBytes : Nat := 256
def invalidJsonrpcId : String := "JSON-RPC id must be a number or at most 256 UTF-8 bytes"
def inputNotUtf8 : String := "parse error: JSON-RPC input must be UTF-8"
def readerStopped : String := "stdin reader stopped unexpectedly"
def workerPanicked : String := "capture planner worker panicked"

/-! ### Input -/

/-- A line as the reader hands it over: never longer than a message. -/
structure InputLine where
  text : String
  bounded : Json.byteLength text ≤ maxJsonrpcMessageBytes

inductive InputEvent where
  | line (line : InputLine)
  | tooLarge
  | invalidUtf8
  | eof
  | readError (message : String)

inductive BoundedLine where
  | eof
  | line (bytes : List UInt8)
  | tooLarge
  deriving DecidableEq

/-- The turns of `read_bounded_line` over the chunks the buffer holds; a line that grew too large
is dropped and read on to its end. -/
def readLine (line : List UInt8) (tooLarge : Bool) :
    List (List UInt8) → BoundedLine × List (List UInt8)
  | [] => (if tooLarge then .tooLarge else if line = [] then .eof else .line line, [])
  | available :: rest =>
    let newline := available.findIdx? (· = 10)
    let consumed := newline.elim available.length (· + 1)
    let payload := available.take consumed
    let overflows := tooLarge || maxJsonrpcMessageBytes < line.length + payload.length
    let line := if overflows then [] else line ++ payload
    if newline.isSome then
      (if overflows then .tooLarge else .line line, available.drop consumed :: rest)
    else readLine line overflows rest

/-- `read_bounded_line`. -/
def readBoundedLine (chunks : List (List UInt8)) : BoundedLine × List (List UInt8) :=
  readLine [] false chunks

/-! ### Messages -/

def parseErrorCode : JsonNumber := ⟨"-32700", by decide⟩
def invalidRequestCode : JsonNumber := ⟨"-32600", by decide⟩
def methodNotFoundCode : JsonNumber := ⟨"-32601", by decide⟩
def invalidParamsCode : JsonNumber := ⟨"-32602", by decide⟩
def internalErrorCode : JsonNumber := ⟨"-32603", by decide⟩
def timedOutCode : JsonNumber := ⟨"-32001", by decide⟩
def busyCode : JsonNumber := ⟨"-32002", by decide⟩

/-- What the loop is given: `serde_json::from_str` with its error text, and the two fixed
answers. -/
class Library where
  parse : String → Except String Json
  initializeResult : Json
  toolsListResult : Json

def jsonrpcError (id : Json) (code : JsonNumber) (message : String) : Json :=
  .object [("jsonrpc", .string "2.0"), ("id", id),
    ("error", .object [("code", .number code), ("message", .string message)])]

def jsonrpcResult (id result : Json) : Json :=
  .object [("jsonrpc", .string "2.0"), ("id", id), ("result", result)]

/-- `valid_jsonrpc_id`. -/
def validJsonrpcId (id : Json) : Bool :=
  id.isNumber || id.asStr?.any fun value => Json.byteLength value ≤ maxJsonrpcIdBytes

/-- Equality of a value with an id, which is a number or a text. -/
def sameId : Json → Json → Bool
  | .number a, .number b => a = b
  | .string a, .string b => a = b
  | _, _ => false

inductive Planner where
  | capture | maintenance
  deriving DecidableEq

namespace Planner

def planningFailed : Planner → String
  | capture => "capture planning failed safely"
  | maintenance => "maintenance planning failed safely"

def timedOut : Planner → String
  | capture => "capture planning timed out"
  | maintenance => "maintenance planning timed out"

def activePlannerBusyMessage : Planner → String
  | capture => "cannot start another plan while capture planning is running"
  | maintenance => "cannot start another plan while maintenance planning is running"

def terminationFailed : Planner → String
  | capture => "capture planner did not terminate within the cancellation grace period"
  | maintenance => "maintenance planner did not terminate within the cancellation grace period"

/-- `ActivePlanningControl::for_request`. -/
def forRequest (request : Json) : Option Planner :=
  match (request.pointer "params" "name").bind Json.asStr? with
  | some "plan_capture" => some capture
  | some "plan_maintenance" => some maintenance
  | _ => none

end Planner

/-- The method of a request. -/
def method? (request : Json) : Option String := (request.get? "method").bind Json.asStr?

/-- `is_planning_tool_request`, with the planner that is asked for. -/
def planningToolRequest? (request : Json) : Option Planner :=
  if (request.get? "id").isSome ∧ method? request = some "tools/call" then
    Planner.forRequest request
  else none

variable [Library]

/-- `parse_jsonrpc_line`: the request, or the answer to what is none. -/
def parseJsonrpcLine (line : InputLine) : Except Json Json :=
  if maxJsonrpcMessageBytes < Json.byteLength line.text then
    .error (jsonrpcError .null invalidRequestCode jsonrpcMessageTooLarge)
  else
    match Library.parse line.text with
    | .error error => .error (jsonrpcError .null parseErrorCode ("parse error: " ++ error))
    | .ok request =>
      if (request.get? "id").any (!validJsonrpcId ·) then
        .error (jsonrpcError .null invalidRequestCode invalidJsonrpcId)
      else .ok request

/-- `handle_message_with_control`; `called` is what `tools_call` gives on the parameters. -/
def handleMessage (request : Json) (called : Except String Json) : Except String (Option Json) :=
  match method? request with
  | none => .error "missing JSON-RPC method"
  | some method =>
    match request.get? "id" with
    | none => .ok none
    | some id =>
      match method with
      | "initialize" => .ok (some (jsonrpcResult id Library.initializeResult))
      | "ping" => .ok (some (jsonrpcResult id (.object [])))
      | "tools/list" => .ok (some (jsonrpcResult id Library.toolsListResult))
      | "tools/call" =>
        match called with
        | .ok result => .ok (some (jsonrpcResult id result))
        | .error error => .ok (some (jsonrpcError id invalidParamsCode error))
      | method =>
        .ok (some (jsonrpcError id methodNotFoundCode ("method not found: " ++ method)))

/-! ### Output -/

/-- `write_json_line`: the value, as it goes out. -/
def writeJsonLine (value : Json) : Except String Json :=
  if maxJsonrpcMessageBytes < value.encodedLength + 1 then .error jsonrpcMessageTooLarge
  else .ok value

/-- `write_protocol_response`: a response that is too long becomes an error under its id. -/
def writeProtocolResponse (response : Json) : Except String Json :=
  if response.encodedLength + 1 ≤ maxJsonrpcMessageBytes then .ok response
  else
    writeJsonLine (jsonrpcError (((response.get? "id").filter validJsonrpcId).getD .null)
      internalErrorCode jsonrpcResponseTooLarge)

/-! ### The server -/

inductive PlanningWaitEnd where
  | continue_
  | eof
  | readError (message : String)
  deriving DecidableEq

/-- The variables of `wait_for_planning_request`. Instants are milliseconds. -/
structure Waiting where
  request : Json
  id : Json
  planner : Planner
  deadline : Nat
  terminalSent : Bool
  terminationDeadline : Option Nat
  inputEnd : PlanningWaitEnd

inductive State where
  | idle
  | waiting (w : Waiting)
  | stopped (result : Except String Unit)

/-- What the input channel gives within the wait of one turn. -/
inductive Received where
  | event (e : InputEvent)
  | timeout
  | disconnected

/-- What the worker's channel holds: nothing, the outcome of the tool, or no worker any more. -/
inductive Poll where
  | empty
  | finished (called : Except String Json)
  | disconnected (panicked : Bool)

/-- One turn: the clock at its head and where a deadline is set, what the channels hold, and what
`tools_call` gives on a request that is answered at once. -/
structure Tick where
  now : Nat
  later : Nat
  poll : Poll
  received : Received
  called : Except String Json

inductive Entry where
  | read (r : Received)
  | wrote (response : Json)

/-- Go on after a write; a response that cannot be written ends the loop. -/
def emit (written : Except String Json) (next : State) : State × List Entry :=
  match written with
  | .ok response => (next, [.wrote response])
  | .error error => (.stopped (.error error), [])

/-- The answers to input that is no line. -/
def tooLargeAnswer : Except String Json :=
  writeJsonLine (jsonrpcError .null invalidRequestCode jsonrpcMessageTooLarge)

def invalidUtf8Answer : Except String Json :=
  writeJsonLine (jsonrpcError .null parseErrorCode inputNotUtf8)

/-- A line, while no planner works. -/
def serveLine (planningTimeout : Nat) (t : Tick) (line : InputLine) : State × List Entry :=
  if Text.isBlank line.text then (.idle, [])
  else
    match parseJsonrpcLine line with
    | .error response => emit (writeProtocolResponse response) .idle
    | .ok request =>
      match planningToolRequest? request with
      | some planner =>
        (.waiting ⟨request, (request.get? "id").getD .null, planner, t.later + planningTimeout,
          false, none, .continue_⟩, [])
      | none =>
        match handleMessage request t.called with
        | .ok (some response) => emit (writeProtocolResponse response) .idle
        | .ok none => (.idle, [])
        | .error error =>
          emit (writeProtocolResponse (jsonrpcError .null internalErrorCode error)) .idle

/-- One turn of `serve_event_loop`. -/
def serveIdle (planningTimeout : Nat) (t : Tick) : State × List Entry :=
  match t.received with
  | .timeout => (.idle, [])
  | .disconnected => (.stopped (.error readerStopped), [.read .disconnected])
  | .event e =>
    let (next, written) : State × List Entry :=
      match e with
      | .eof => (.stopped (.ok ()), [])
      | .readError error => (.stopped (.error ("failed to read stdin: " ++ error)), [])
      | .tooLarge => emit tooLargeAnswer .idle
      | .invalidUtf8 => emit invalidUtf8Answer .idle
      | .line line => serveLine planningTimeout t line
    (next, .read (.event e) :: written)

/-- `cancellation_targets_request`. -/
def cancellationTargetsRequest (line : InputLine) (activeId : Json) : Bool :=
  match Library.parse line.text with
  | .error _ => false
  | .ok request =>
    method? request = some "notifications/cancelled" &&
      (request.pointer "params" "requestId").any (sameId · activeId)

/-- `reject_concurrent_input`. -/
def rejectConcurrentInput (w : Waiting) (line : InputLine) : State × List Entry :=
  match parseJsonrpcLine line with
  | .ok request =>
    match request.get? "id" with
    | some id =>
      emit (writeProtocolResponse
        (jsonrpcError id busyCode w.planner.activePlannerBusyMessage)) (.waiting w)
    | none => (.waiting w, [])
  | .error response => emit (writeProtocolResponse response) (.waiting w)

/-- The request is cancelled: nothing is written for it any more. -/
def Waiting.cancel (w : Waiting) (t : Tick) : Waiting :=
  { w with terminalSent := true, terminationDeadline := some (t.later + planningTerminationGrace) }

/-- What the loop returns to when the worker is done. -/
def PlanningWaitEnd.next : PlanningWaitEnd → State
  | continue_ => .idle
  | eof => .stopped (.ok ())
  | readError error => .stopped (.error ("failed to read stdin: " ++ error))

/-- The part of a turn that reads input. -/
def waitForInput (w : Waiting) (t : Tick) : State × List Entry :=
  if w.inputEnd ≠ .continue_ then (.waiting w, [])
  else
    match t.received with
    | .timeout => (.waiting w, [])
    | .disconnected => (.waiting { w.cancel t with inputEnd := .eof }, [.read .disconnected])
    | .event e =>
      let (next, written) : State × List Entry :=
        match e with
        | .line line =>
          if cancellationTargetsRequest line w.id then
            (.waiting (if w.terminalSent then w else w.cancel t), [])
          else rejectConcurrentInput w line
        | .tooLarge => emit tooLargeAnswer (.waiting w)
        | .invalidUtf8 => emit invalidUtf8Answer (.waiting w)
        | .eof => (.waiting { w.cancel t with inputEnd := .eof }, [])
        | .readError error => (.waiting { w.cancel t with inputEnd := .readError error }, [])
      (next, .read (.event e) :: written)

/-- The part of a turn that looks for the worker's result. -/
def pollWorker (w : Waiting) (t : Tick) : State × List Entry :=
  match t.poll with
  | .finished called =>
    if w.terminalSent then (w.inputEnd.next, [])
    else
      match handleMessage w.request called with
      | .ok (some response) => emit (writeProtocolResponse response) w.inputEnd.next
      | .ok none => (w.inputEnd.next, [])
      | .error error =>
        emit (writeProtocolResponse (jsonrpcError w.id internalErrorCode error)) w.inputEnd.next
  | .disconnected panicked =>
    if panicked then (.stopped (.error workerPanicked), [])
    else if w.terminalSent then (w.inputEnd.next, [])
    else
      emit (writeProtocolResponse (jsonrpcError w.id internalErrorCode w.planner.planningFailed))
        w.inputEnd.next
  | .empty => waitForInput w t

/-- The part of a turn after the deadline was looked at. -/
def waitOrStop (w : Waiting) (t : Tick) : State × List Entry :=
  if w.terminalSent ∧ w.terminationDeadline.any (· ≤ t.now) then
    (.stopped (.error w.planner.terminationFailed), [])
  else pollWorker w t

/-- One turn of the loop in `wait_for_planning_request`. -/
def servePlanning (w : Waiting) (t : Tick) : State × List Entry :=
  if w.terminalSent = false ∧ w.deadline ≤ t.now then
    match writeProtocolResponse (jsonrpcError w.id timedOutCode w.planner.timedOut) with
    | .error error => (.stopped (.error error), [])
    | .ok response =>
      let (next, entries) := waitOrStop
        { w with
          terminalSent := true
          terminationDeadline := some (t.now + planningTerminationGrace) } t
      (next, .wrote response :: entries)
  else waitOrStop w t

def serveTick (planningTimeout : Nat) (s : State) (t : Tick) : State × List Entry :=
  match s with
  | .idle => serveIdle planningTimeout t
  | .waiting w => servePlanning w t
  | .stopped _ => (s, [])

/-- A run of the loop: the state it ends in, and all that was read and written. -/
def serve (planningTimeout : Nat) : State → List Tick → State × List Entry
  | s, [] => (s, [])
  | s, t :: ticks =>
    let (s, entries) := serveTick planningTimeout s t
    let (s, rest) := serve planningTimeout s ticks
    (s, entries ++ rest)

end Mcp
end Memzoi
