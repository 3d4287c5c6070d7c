/-
# The merged export of two event logs

Source: `events.rs` (`for_each_merged_event`, `next_encoded_event`,
`EncodedMemoryEvent::into_event`).

The rows of both logs are read in the order of their key, the text of
`created_at` and the id, which SQLite and the host language compare byte by
byte. The loop visits the rows of `OrderedMerge.merged`, where a row of the
first log is passed over when the second log has its id
(`mergeEvents_eq_visitAll`). A payload is decoded when its row is visited; the
reader of a payload is a parameter. The schema allows the two data classes
only, so a row has one.
-/

import Memzoi.Lib.Fallible
import Memzoi.Lib.OrderedMerge
import Memzoi.Lib.Table
import Memzoi.Schema
import Mathlib

namespace Memzoi
namespace EventExport

open Fallible OrderedMerge

/-! ### Rows -/

/-- A row of `event_log`. -/
structure EncodedMemoryEvent where
  id : String
  eventType : String
  actor : String
  dataClass : MemoryEventDataClass
  payloadJson : String
  recordId : Option String
  proposalId : Option String
  createdAt : String
  deriving DecidableEq, Repr

abbrev EventLog : Type := Table EncodedMemoryEvent.id

/-- `serde_json::from_str` on a payload. -/
class PayloadReader where
  readPayload : String → Fallible EventPayload

abbrev EventKey : Type := String ×ₗ String

def EncodedMemoryEvent.key (row : EncodedMemoryEvent) : EventKey := toLex (row.createdAt, row.id)

/-- `ORDER BY created_at ASC, id ASC`. -/
def orderedEvents (log : EventLog) : List EncodedMemoryEvent :=
  log.rows.mergeSort fun a b => a.key ≤ b.key

/-- What a visitor makes of an event: its next state, and whether it goes on. -/
abbrev Visitor (σ : Type) : Type := σ → MemoryEvent → σ × Fallible Unit

section Export

variable [PayloadReader] {σ : Type}

def EncodedMemoryEvent.intoEvent (row : EncodedMemoryEvent) : Fallible MemoryEvent := do
  let payload ← PayloadReader.readPayload row.payloadJson
  .ok {
    id := row.id
    eventType := row.eventType
    actor := row.actor
    dataClass := row.dataClass
    payload := payload
    recordId := row.recordId
    proposalId := row.proposalId
    createdAt := row.createdAt }

/-- `visit(row.into_event()?)?`, and what follows. -/
def visitRow (visit : Visitor σ) (s : σ) (row : EncodedMemoryEvent)
    (next : σ → σ × Fallible Unit) : σ × Fallible Unit :=
  match row.intoEvent with
  | .error failure => (s, .error failure)
  | .ok event =>
    match visit s event with
    | (s, .error failure) => (s, .error failure)
    | (s, .ok ()) => next s

/-- The loop over the heads of both streams. -/
def mergeEvents (visit : Visitor σ) (secondIds : List String) :
    σ → List EncodedMemoryEvent → List EncodedMemoryEvent → σ × Fallible Unit
  | s, [], [] => (s, .ok ())
  | s, left :: first, [] =>
    if left.id ∈ secondIds then mergeEvents visit secondIds s first []
    else visitRow visit s left fun s => mergeEvents visit secondIds s first []
  | s, [], right :: second => visitRow visit s right fun s => mergeEvents visit secondIds s [] second
  | s, left :: first, right :: second =>
    match compare left.key right.key with
    | .lt =>
      if left.id ∈ secondIds then mergeEvents visit secondIds s first (right :: second)
      else visitRow visit s left fun s => mergeEvents visit secondIds s first (right :: second)
    | .gt => visitRow visit s right fun s => mergeEvents visit secondIds s (left :: first) second
    | .eq => visitRow visit s right fun s => mergeEvents visit secondIds s first second
termination_by _ first second => first.length + second.length

def forEachMergedEvent (first second : EventLog) (visit : Visitor σ) (s : σ) :
    σ × Fallible Unit :=
  mergeEvents visit (second.rows.map (·.id)) s (orderedEvents first) (orderedEvents second)

/-! ### What is visited -/

/-- Visit rows one after the other. -/
def visitRows (visit : Visitor σ) : σ → List EncodedMemoryEvent → σ × Fallible Unit
  | s, [] => (s, .ok ())
  | s, row :: rows => visitRow visit s row fun s => visitRows visit s rows

/-- Visit events one after the other. -/
def visitAll (visit : Visitor σ) : σ → List MemoryEvent → σ × Fallible Unit
  | s, [] => (s, .ok ())
  | s, event :: events =>
    match visit s event with
    | (s, .error failure) => (s, .error failure)
    | (s, .ok ()) => visitAll visit s events

variable {visit : Visitor σ} {secondIds : List String}

/-- The loop visits what the merge takes. -/
theorem mergeEvents_eq_visitRows (s : σ) (first second : List EncodedMemoryEvent) :
    mergeEvents visit secondIds s first second =
      visitRows visit s (merged EncodedMemoryEvent.key (fun row => row.id ∈ secondIds) first
        second) := by
  have hvisit : ∀ (s : σ) (row : EncodedMemoryEvent) {f g : σ → σ × Fallible Unit},
      (∀ s, f s = g s) → visitRow visit s row f = visitRow visit s row g := by
    intro s row f g h
    rw [funext h]
  fun_induction mergeEvents visit secondIds s first second with
  | case1 s =>
      rw [merged]
      rfl
  | case2 s left first hid ih =>
      rw [merged, if_pos (decide_eq_true hid), ih]
  | case3 s left first hid ih =>
      rw [merged, if_neg (by simpa using hid)]
      exact hvisit s left ih
  | case4 s right second ih =>
      rw [merged]
      refine hvisit s right fun s => ?_
      rw [ih s, merged]
  | case5 s left first right second hcmp hid ih =>
      rw [merged, if_pos (compare_lt_iff_lt.1 hcmp), if_pos (decide_eq_true hid), ih]
  | case6 s left first right second hcmp hid ih =>
      rw [merged, if_pos (compare_lt_iff_lt.1 hcmp), if_neg (by simpa using hid)]
      exact hvisit s left ih
  | case7 s left first right second hcmp ih =>
      have hlt : right.key < left.key := compare_gt_iff_gt.1 hcmp
      rw [merged, if_neg hlt.not_gt, if_pos hlt]
      exact hvisit s right ih
  | case8 s left first right second hcmp ih =>
      have heq : left.key = right.key := compare_eq_iff_eq.1 hcmp
      rw [merged, if_neg (heq ▸ lt_irrefl _), if_neg (heq ▸ lt_irrefl _)]
      exact hvisit s right ih

/-- Rows that decode are visited as their events. -/
theorem visitRows_eq_visitAll {rows : List EncodedMemoryEvent} {events : List MemoryEvent}
    (h : mapAll EncodedMemoryEvent.intoEvent rows = .ok events) (s : σ) :
    visitRows visit s rows = visitAll visit s events := by
  induction rows generalizing events s with
  | nil =>
      obtain rfl := pure_eq_ok.1 h
      rfl
  | cons row rows ih =>
      obtain ⟨event, hevent, h⟩ := bind_eq_ok.1 h
      obtain ⟨rest, hrest, h⟩ := bind_eq_ok.1 h
      obtain rfl := pure_eq_ok.1 h
      rw [visitRows, visitRow, hevent, visitAll]
      dsimp only
      split
      · rfl
      · exact ih hrest _

/-- A visitor that keeps the events it is called with. -/
def recording (visit : Visitor σ) : Visitor (σ × List MemoryEvent) := fun s event =>
  let (next, result) := visit s.1 event
  ((next, s.2 ++ [event]), result)

omit [PayloadReader] in
/-- A visitor that stops at an event has been called with the events up to it. -/
theorem visitAll_recording {before after : List MemoryEvent} {event : MemoryEvent} {s next last : σ}
    {failure : Failure} (hbefore : visitAll visit s before = (next, .ok ()))
    (hstop : visit next event = (last, .error failure)) (seen : List MemoryEvent) :
    visitAll (recording visit) (s, seen) (before ++ event :: after) =
      ((last, seen ++ (before ++ [event])), .error failure) := by
  induction before generalizing s seen with
  | nil =>
      obtain rfl : s = next := (Prod.mk.inj hbefore).1
      rw [List.nil_append, visitAll, recording]
      dsimp only
      rw [hstop]
      rfl
  | cons x before ih =>
      rw [visitAll] at hbefore
      rw [List.cons_append, visitAll, recording]
      dsimp only
      rcases hx : visit s x with ⟨s', result⟩
      rw [hx] at hbefore
      cases result with
      | error failure' => cases (Prod.mk.inj hbefore).2
      | ok u =>
          dsimp only at hbefore ⊢
          rw [ih hbefore (seen ++ [x]), List.append_assoc, List.singleton_append, List.cons_append]

end Export

/-! ### The order of a log -/

theorem increasing_orderedEvents (log : EventLog) :
    Increasing EncodedMemoryEvent.key (orderedEvents log) := by
  have hperm : (orderedEvents log).Perm log.rows := List.mergeSort_perm _ _
  have hids : (orderedEvents log).Pairwise fun a b => a.id ≠ b.id := by
    have hnodup : ((orderedEvents log).map EncodedMemoryEvent.id).Nodup :=
      (hperm.map _).nodup_iff.2 log.nodup
    rw [List.nodup_iff_pairwise_ne, List.pairwise_map] at hnodup
    exact hnodup
  have hsorted : (orderedEvents log).Pairwise fun a b => a.key ≤ b.key := by
    refine (List.pairwise_mergeSort (fun a b c hab hbc => ?_) (fun a b => ?_) log.rows).imp
      fun hab => of_decide_eq_true hab
    · exact decide_eq_true ((of_decide_eq_true hab).trans (of_decide_eq_true hbc))
    · simpa using le_total a.key b.key
  refine hsorted.imp₂ (fun a b hle hne => lt_of_le_of_ne hle fun heq => ?_) hids
  exact hne (congrArg (fun key : EventKey => (ofLex key).2) heq)

theorem mem_orderedEvents {log : EventLog} {row : EncodedMemoryEvent} :
    row ∈ orderedEvents log ↔ row ∈ log.rows := List.mem_mergeSort

theorem key_lt_iff {a b : EncodedMemoryEvent} :
    a.key < b.key ↔ a.createdAt < b.createdAt ∨ a.createdAt = b.createdAt ∧ a.id < b.id :=
  Prod.Lex.toLex_lt_toLex

/-- The rows of both logs that the loop visits. -/
def mergedRows (first second : EventLog) : List EncodedMemoryEvent :=
  merged EncodedMemoryEvent.key (fun row => row.id ∈ second.rows.map (·.id)) (orderedEvents first)
    (orderedEvents second)

theorem skip_of_key {first second : EventLog} :
    ∀ a ∈ orderedEvents first, ∀ b ∈ orderedEvents second, a.key = b.key →
      decide (a.id ∈ second.rows.map (·.id)) = true := by
  intro a _ b hb hkey
  have hid : a.id = b.id := congrArg (fun key : EventKey => (ofLex key).2) hkey
  exact decide_eq_true (hid ▸ List.mem_map_of_mem (mem_orderedEvents.1 hb))

theorem mem_mergedRows {first second : EventLog} {row : EncodedMemoryEvent} :
    row ∈ mergedRows first second ↔ row ∈ second.rows ∨
      row ∈ first.rows ∧ row.id ∉ second.rows.map (·.id) := by
  rw [mergedRows, mem_merged skip_of_key, mem_orderedEvents, mem_orderedEvents,
    decide_eq_false_iff_not]

theorem increasing_mergedRows (first second : EventLog) :
    Increasing EncodedMemoryEvent.key (mergedRows first second) :=
  increasing_merged skip_of_key (increasing_orderedEvents first) (increasing_orderedEvents second)

/-! ### The export -/

section Result

variable [PayloadReader]

/-- What the export of two logs visits, in order. -/
structure MergedExport (first second : EventLog) (events : List MemoryEvent) : Prop where
  /-- Every id once. -/
  once : (events.map (·.id)).Nodup
  /-- The ids of both logs. -/
  ids : ∀ id, id ∈ events.map (·.id) ↔ id ∈ first.rows.map (·.id) ∨ id ∈ second.rows.map (·.id)
  /-- A row of the second log, or one of the first log whose id the second log does not have. -/
  version : ∀ event ∈ events, (∃ row ∈ second.rows, row.intoEvent = .ok event) ∨
    event.id ∉ second.rows.map (·.id) ∧ ∃ row ∈ first.rows, row.intoEvent = .ok event
  ordered : events.Pairwise fun a b =>
    a.createdAt < b.createdAt ∨ a.createdAt = b.createdAt ∧ a.id < b.id

theorem intoEvent_eq_ok {row : EncodedMemoryEvent} {event : MemoryEvent}
    (h : row.intoEvent = .ok event) : event.id = row.id ∧ event.createdAt = row.createdAt := by
  obtain ⟨payload, -, h⟩ := bind_eq_ok.1 h
  obtain rfl := pure_eq_ok.1 h
  exact ⟨rfl, rfl⟩

theorem forEachMergedEvent_eq {σ : Type} (first second : EventLog) (visit : Visitor σ) (s : σ) :
    forEachMergedEvent first second visit s = visitRows visit s (mergedRows first second) := by
  rw [forEachMergedEvent, mergeEvents_eq_visitRows]
  rfl

/-- A visitor that keeps every event. -/
def keepEvent : Visitor (List MemoryEvent) := fun seen event => (seen ++ [event], .ok ())

/-- The events of an export, up to a payload that cannot be decoded. -/
def exportedEvents (first second : EventLog) : List MemoryEvent :=
  (forEachMergedEvent first second keepEvent []).1

def eventKey (event : MemoryEvent) : EventKey := toLex (event.createdAt, event.id)

theorem visitRows_keepEvent (seen : List MemoryEvent) (rows : List EncodedMemoryEvent) :
    ∃ events, (visitRows keepEvent seen rows).1 = seen ++ events ∧
      events.map eventKey <+: rows.map EncodedMemoryEvent.key := by
  induction rows generalizing seen with
  | nil => exact ⟨[], (List.append_nil _).symm, List.nil_prefix⟩
  | cons row rows ih =>
      rw [visitRows, visitRow]
      cases hevent : row.intoEvent with
      | error failure => exact ⟨[], (List.append_nil _).symm, List.nil_prefix⟩
      | ok event =>
          obtain ⟨events, hevents, hprefix⟩ := ih (seen ++ [event])
          obtain ⟨hid, htime⟩ := intoEvent_eq_ok hevent
          refine ⟨event :: events, ?_, ?_⟩
          · show (visitRows keepEvent (seen ++ [event]) rows).1 = _
            rw [hevents, List.append_assoc, List.singleton_append]
          · rw [List.map_cons, List.map_cons, List.cons_prefix_cons]
            exact ⟨by rw [eventKey, hid, htime]; rfl, hprefix⟩

/-- Exported events are in the order of their texts. -/
theorem pairwise_exportedEvents (first second : EventLog) :
    (exportedEvents first second).Pairwise fun a b => eventKey a ≤ eventKey b := by
  obtain ⟨events, hevents, hprefix⟩ := visitRows_keepEvent [] (mergedRows first second)
  have hrows : ((mergedRows first second).map EncodedMemoryEvent.key).Pairwise (· < ·) :=
    List.pairwise_map.2 (increasing_mergedRows first second)
  have hkeys := List.pairwise_map.1 (hrows.sublist hprefix.sublist)
  rw [exportedEvents, forEachMergedEvent_eq, hevents, List.nil_append]
  exact hkeys.imp le_of_lt

/-- Rows that can be decoded have their events. -/
theorem exists_events {rows : List EncodedMemoryEvent}
    (h : ∀ row ∈ rows, ∃ payload, PayloadReader.readPayload row.payloadJson = .ok payload) :
    ∃ events, mapAll EncodedMemoryEvent.intoEvent rows = .ok events := by
  induction rows with
  | nil => exact ⟨[], rfl⟩
  | cons row rows ih =>
      obtain ⟨payload, hpayload⟩ := h row List.mem_cons_self
      obtain ⟨events, hevents⟩ := ih fun r hr => h r (List.mem_cons_of_mem _ hr)
      exact ⟨_, bind_eq_ok.2 ⟨_, bind_eq_ok.2 ⟨payload, hpayload, rfl⟩,
        bind_eq_ok.2 ⟨events, hevents, rfl⟩⟩⟩

/-- **Merged event export**: whatever the overlap of two logs whose payloads can be decoded, the
export visits one sequence that has every id once, in the second log's version where there is one,
in the order of time and id; and a visitor that fails has been called with the events up to the one
it failed at. -/
theorem forEachMergedEvent_export (first second : EventLog)
    (h : ∀ row, row ∈ first.rows ∨ row ∈ second.rows →
      ∃ payload, PayloadReader.readPayload row.payloadJson = .ok payload) :
    ∃ events, MergedExport first second events ∧ ∀ {σ : Type} (visit : Visitor σ) (s : σ),
      forEachMergedEvent first second visit s = visitAll visit s events ∧
        ∀ before event after next last failure, events = before ++ event :: after →
          visitAll visit s before = (next, .ok ()) → visit next event = (last, .error failure) →
            forEachMergedEvent first second (recording visit) (s, []) =
              ((last, before ++ [event]), .error failure) := by
  let rows := mergedRows first second
  have hmem : ∀ row, row ∈ rows ↔ row ∈ second.rows ∨
      row ∈ first.rows ∧ row.id ∉ second.rows.map (·.id) := fun row => mem_mergedRows
  have hincreasing : Increasing EncodedMemoryEvent.key rows := increasing_mergedRows first second
  have hread : ∀ row ∈ rows, ∃ payload, PayloadReader.readPayload row.payloadJson = .ok payload :=
    fun row hrow => h row (((hmem row).1 hrow).elim Or.inr fun hfirst => Or.inl hfirst.1)
  obtain ⟨events, hevents⟩ := exists_events hread
  have hids : events.map (·.id) = rows.map (·.id) :=
    map_of_mapAll (fun row event hrow => (intoEvent_eq_ok hrow).1) hevents
  have hordered : events.Pairwise fun a b =>
      a.createdAt < b.createdAt ∨ a.createdAt = b.createdAt ∧ a.id < b.id := by
    have hkeys : events.map (fun event => (toLex (event.createdAt, event.id) : EventKey)) =
        rows.map EncodedMemoryEvent.key := by
      refine map_of_mapAll (fun row event hrow => ?_) hevents
      obtain ⟨hid, htime⟩ := intoEvent_eq_ok hrow
      rw [hid, htime]
      rfl
    have hpairs : (rows.map EncodedMemoryEvent.key).Pairwise (· < ·) :=
      List.pairwise_map.2 hincreasing
    rw [← hkeys, List.pairwise_map] at hpairs
    exact hpairs.imp fun hlt => Prod.Lex.toLex_lt_toLex.1 hlt
  have hvisits : ∀ {σ : Type} (visit : Visitor σ) (s : σ),
      forEachMergedEvent first second visit s = visitAll visit s events := by
    intro σ visit s
    rw [forEachMergedEvent_eq]
    exact visitRows_eq_visitAll hevents s
  refine ⟨events, ⟨?_, fun id => ?_, fun event hevent => ?_, hordered⟩, fun visit s =>
    ⟨hvisits visit s, ?_⟩⟩
  · rw [hids, List.nodup_iff_pairwise_ne, List.pairwise_map]
    -- two rows of the second log, two of the first log, or one of each without a common id
    refine hincreasing.imp_of_mem fun {a b} ha hb hlt hid => ?_
    rcases (hmem a).1 ha with ha | ⟨ha, hnew⟩
    · rcases (hmem b).1 hb with hb | ⟨-, hnew⟩
      · exact hlt.ne (congrArg EncodedMemoryEvent.key (Table.eq_of_key ha hb hid))
      · exact hnew (hid ▸ List.mem_map_of_mem ha)
    · rcases (hmem b).1 hb with hb | ⟨hb, -⟩
      · exact hnew (hid ▸ List.mem_map_of_mem hb)
      · exact hlt.ne (congrArg EncodedMemoryEvent.key (Table.eq_of_key ha hb hid))
  · rw [hids]
    simp only [List.mem_map]
    constructor
    · rintro ⟨row, hrow, rfl⟩
      rcases (hmem row).1 hrow with hsecond | ⟨hfirst, -⟩
      · exact Or.inr ⟨row, hsecond, rfl⟩
      · exact Or.inl ⟨row, hfirst, rfl⟩
    · rintro (⟨row, hrow, rfl⟩ | ⟨row, hrow, rfl⟩)
      · by_cases hshared : row.id ∈ second.rows.map (·.id)
        · obtain ⟨other, hother, hid⟩ := List.mem_map.1 hshared
          exact ⟨other, (hmem other).2 (Or.inl hother), hid⟩
        · exact ⟨row, (hmem row).2 (Or.inr ⟨hrow, hshared⟩), rfl⟩
      · exact ⟨row, (hmem row).2 (Or.inl hrow), rfl⟩
  · obtain ⟨row, hrow, hdecodes⟩ := (mem_of_mapAll hevents event).1 hevent
    rcases (hmem row).1 hrow with hsecond | ⟨hfirst, hnew⟩
    · exact Or.inl ⟨row, hsecond, hdecodes⟩
    · exact Or.inr ⟨(intoEvent_eq_ok hdecodes).1 ▸ hnew, row, hfirst, hdecodes⟩
  · intro before event after next last failure hsplit hbefore hstop
    rw [hvisits, hsplit]
    exact visitAll_recording hbefore hstop []

end Result

/-! ### Two logs that share events -/

@[reducible] def emptyPayloads : PayloadReader where
  readPayload text :=
    if text = "\x7b\x7d" then .ok ⟨[], [], []⟩ else bail "EOF while parsing an object at line 1 column 1"

def testEvent (id actor createdAt : String) : EncodedMemoryEvent :=
  ⟨id, "test.event", actor, .repository, "\x7b\x7d", none, none, createdAt⟩

def sharedLog : EventLog where
  rows := [testEvent "evt-first" "first" "2026-07-14T00:00:00Z",
    testEvent "evt-shared" "shared" "2026-07-14T00:01:00Z",
    testEvent "evt-equal" "shared-equal" "2026-07-14T00:01:45Z"]
  nodup := by decide

def indexLog : EventLog where
  rows := [testEvent "evt-shared" "index" "2026-07-14T00:01:30Z",
    testEvent "evt-equal" "index-equal" "2026-07-14T00:01:45Z",
    testEvent "evt-last" "last" "2026-07-14T00:02:00Z"]
  nodup := by decide

theorem sharedLog_export : ∃ events, @MergedExport emptyPayloads sharedLog indexLog events := by
  have hread : ∀ row, row ∈ sharedLog.rows ∨ row ∈ indexLog.rows →
      ∃ payload, emptyPayloads.readPayload row.payloadJson = .ok payload := by
    have hall : ∀ row ∈ sharedLog.rows ++ indexLog.rows, row.payloadJson = "\x7b\x7d" := by decide
    intro row hrow
    exact ⟨⟨[], [], []⟩, if_pos (hall row (List.mem_append.2 hrow))⟩
  obtain ⟨events, hexport, -⟩ := @forEachMergedEvent_export emptyPayloads sharedLog indexLog hread
  exact ⟨events, hexport⟩

end EventExport
end Memzoi
