/-
# What a lifecycle event authorizes

Source: `service/private_lifecycle.rs` (`verify_lifecycle_authority`,
`require_authorizing_event`, `append_content_free_lifecycle_event`).

The event of an application keeps the kinds of its actions and the records they
were about as two lists. The check of a fact asks for the record in the one and
a fitting kind in the other, so it accepts a record for what another action of
the group did. `accepted_iff` says what is accepted, and
`event_authorizes_own_iff` for which requests that is no more than was done.
-/

import Memzoi.PrivateLifecycle.ClockRules
import Memzoi.PrivateLifecycle.GroupOrder

namespace Memzoi
namespace PrivateLifecycle

open Fallible

/-- A fact of a lifecycle row that an event has to authorize. -/
inductive LifecycleFact where
  | automaticRecall
  | validity
  | physicalRetention
  | quarantine (quarantined : Bool)
  deriving DecidableEq, Repr

namespace LifecycleFact

/-- The kinds of the actions that may set the fact. -/
def actionKinds : LifecycleFact → List String
  | automaticRecall => recallKinds
  | validity => validityKinds
  | physicalRetention => retentionKinds
  | quarantine quarantined => quarantineKinds quarantined

/-- The name of the fact in the error texts. -/
def label : LifecycleFact → String
  | automaticRecall => "automatic recall"
  | validity => "validity"
  | physicalRetention => "physical retention"
  | quarantine _ => "quarantine"

/-- An action of this kind may set the fact. -/
def SetBy (fact : LifecycleFact) (a : PrivateLifecycleAction) : Prop := a.kind ∈ fact.actionKinds

instance (fact : LifecycleFact) (a : PrivateLifecycleAction) : Decidable (fact.SetBy a) :=
  inferInstanceAs (Decidable (_ ∈ _))

end LifecycleFact

/-- Some action of the request may set the fact and was about the record, or produced it. -/
def DidSet (actions : List PrivateLifecycleAction) (results : List PrivateLifecycleActionResult)
    (fact : LifecycleFact) (recordId : String) : Prop :=
  ∃ (i : Nat) (a : PrivateLifecycleAction), actions[i]? = some a ∧ fact.SetBy a ∧
    (recordId ∈ a.mutationTargets ∨ (results[i]?).bind PrivateLifecycleActionResult.replacementRecordId = some recordId)

/-- Every fact that one action of the group may set, all its actions may set. -/
def OneFact (actions : List PrivateLifecycleAction) : Prop :=
  ∀ fact : LifecycleFact, ∀ a ∈ actions, fact.SetBy a → ∀ b ∈ actions, fact.SetBy b

/-- The check of the fact accepts the event for the record. -/
def Accepted (db : Db) (app : Application) (fact : LifecycleFact) (recordId : String) : Prop :=
  requireAuthorizingEvent db (some app.eventId) recordId fact.actionKinds fact.label = .ok ()

section Event

variable {app : Application} {grantId : String} {actions : List PrivateLifecycleAction}
  {results : List PrivateLifecycleActionResult} {fact : LifecycleFact} {recordId : String}

/-- The records the event names. -/
theorem mem_targets_lifecycleEvent :
    recordId ∈ (lifecycleEvent app grantId actions results).payload.targetRecordIds ↔
      (∃ a ∈ actions, recordId ∈ auditTargetIds a) ∨
        ∃ r ∈ results, r.kind = "correct" ∧ r.replacementRecordId = some recordId := by
  simp only [lifecycleEvent, SortedMap.mem_sortedKeys, List.mem_append, List.mem_flatMap,
    List.mem_filterMap, List.mem_filter, decide_eq_true_eq, and_assoc]

/-- What is accepted: a record the event names, for a fact some action may set. -/
theorem accepted_iff {db : Db}
    (hevent : db.events.get? app.eventId = some (lifecycleEvent app grantId actions results)) :
    Accepted db app fact recordId ↔
      recordId ∈ (lifecycleEvent app grantId actions results).payload.targetRecordIds ∧
        ∃ a ∈ actions, fact.SetBy a := by
  rw [Accepted, requireAuthorizingEvent_ok]
  have hkinds : ((lifecycleEvent app grantId actions results).payload.actionKinds.any
      fact.actionKinds.contains = true) ↔ ∃ a ∈ actions, fact.SetBy a := by
    simp only [lifecycleEvent, List.any_map, List.any_eq_true, Function.comp,
      List.contains_iff_mem, LifecycleFact.SetBy]
  constructor
  · rintro ⟨id, event, hid, hget, hauthorizes⟩
    cases hid
    rw [hevent] at hget
    cases hget
    exact ⟨List.contains_iff_mem.1 hauthorizes.record, hkinds.1 hauthorizes.kind⟩
  · rintro ⟨hrecord, hkind⟩
    exact ⟨_, _, rfl, hevent, rfl, rfl, List.contains_iff_mem.2 hrecord, hkinds.2 hkind⟩

/-- The records the audit of an action shows are records it changes. -/
theorem auditTargetIds_subset {a : PrivateLifecycleAction} (h : recordId ∈ auditTargetIds a) :
    recordId ∈ a.mutationTargets := by
  cases a with
  | renewFromEvidence =>
      rw [List.mem_singleton.1 h]
      exact List.mem_cons_self
  | _ => exact h

/-- A checked action shows some record in the audit. -/
theorem exists_auditTarget {a : PrivateLifecycleAction} (hvalid : validateAction a = .ok ()) :
    ∃ id, id ∈ auditTargetIds a := by
  have hfields : validateActionFields a = .ok () := by
    simp only [validateAction, check_bind_eq_ok] at hvalid
    exact hvalid.2.2
  have hset : ∀ label (ids : List String) versions kept,
      validateSelectionSet label ids versions kept = .ok () → ∃ id, id ∈ ids := by
    intro label ids versions kept h
    simp only [validateSelectionSet, check_bind_eq_ok, ensure_eq_ok] at h
    exact List.exists_mem_of_length_pos (by omega)
  cases a with
  | consolidate => exact hset _ _ _ _ hfields
  | resolveContradiction => exact hset _ _ _ _ hfields
  | _ => exact ⟨_, List.mem_cons_self⟩

end Event

section Group

variable [Entropy] [Digests] [Text.Unicode] {db db' : Db} {request : PrivateLifecycleRequest}
  {grantId appliedAt recordId : String} {now : OffsetDateTime} {app : Application}
  {results : List PrivateLifecycleActionResult} {prepared : List PreparedAction}

omit [Entropy] [Digests] [Text.Unicode] in
/-- A record belongs to the targets of one action only. -/
theorem eq_of_target {a b : PrivateLifecycleAction} {actions : List PrivateLifecycleAction}
    (hdisjoint : Disjoint actions) (ha : a ∈ actions) (hb : b ∈ actions)
    (hida : recordId ∈ a.mutationTargets) (hidb : recordId ∈ b.mutationTargets) : a = b := by
  by_contra hne
  have hapart := (List.nodup_flatMap.1 hdisjoint.targets).2
  have hsymm : Std.Symm (Function.onFun List.Disjoint PrivateLifecycleAction.mutationTargets) :=
    ⟨fun a b hab => hab.symm⟩
  exact hapart.forall ha hb hne hida hidb

omit [Digests] in
/-- The id of a replacement was free before the group. -/
theorem replacement_fresh {checked : Db} {p : PreparedAction}
    (hgroup : validateActionGroup db request now = .ok (checked, prepared))
    (hp : p ∈ prepared) (hid : p.replacementId = some recordId) :
    db.records.get? recordId = none := by
  obtain ⟨-, hprepare⟩ := check_bind_eq_ok.1 hgroup
  obtain ⟨hreserved, -, -, hcreated, -⟩ := prepareActions_reserved hprepare
  refine (hcreated p hp recordId ?_).2
  rw [(hreserved p hp).created, hid]
  exact List.mem_singleton_self _

/-- The prepared action, its result and its request action stand at one position. -/
theorem Executed.position
    (h : Executed db db' request grantId now app results prepared) {i : Nat}
    {r : PrivateLifecycleActionResult} (hr : results[i]? = some r) :
    ∃ p, prepared[i]? = some p ∧ request.actions[i]? = some p.action ∧ r.kind = p.action.kind ∧
      r.replacementRecordId = p.replacementId := by
  have hreported := congrArg (fun l => l[i]?) h.reported
  simp only [List.getElem?_map, hr, Option.map_some] at hreported
  cases hp : prepared[i]? with
  | none =>
      rw [hp] at hreported
      cases hreported
  | some p =>
      rw [hp, Option.map_some, Option.some.injEq, Prod.mk.injEq] at hreported
      refine ⟨p, rfl, ?_, hreported.1, hreported.2⟩
      rw [← h.checked.map_action, List.getElem?_map, hp]
      rfl

/-- **The event of a group authorizes no more than its actions did exactly when every fact one of
them may set, all of them may set.** For every committed application of a valid request. -/
theorem event_authorizes_own_iff (hvalid : request.validate = .ok ())
    (h : executeGroup db request grantId now appliedAt = .ok (db', app, results)) :
    (∀ fact recordId, Accepted db' app fact recordId →
        DidSet request.actions results fact recordId) ↔ OneFact request.actions := by
  obtain ⟨checked, prepared, hgroup, hexecuted⟩ := group_of_executeGroup h
  have hevent : db'.events.get? app.eventId =
      some (lifecycleEvent app grantId request.actions results) :=
    (Table.get?_insert? hexecuted.event app.eventId).trans (if_pos rfl)
  have hactions := validate_action hvalid
  constructor
  · intro hown fact a ha hset b hb
    -- the event names a record of `b` and carries the kind of `a`, so it is accepted
    obtain ⟨id, hid⟩ := exists_auditTarget (hactions b hb)
    have haccepted : Accepted db' app fact id :=
      (accepted_iff hevent).2 ⟨mem_targets_lifecycleEvent.2 (Or.inl ⟨b, hb, hid⟩), a, ha, hset⟩
    have htarget := auditTargetIds_subset hid
    obtain ⟨i, c, hc, hsetc, hmine | hreplaced⟩ := hown fact id haccepted
    · have hsame : b = c := eq_of_target (validate_disjoint hvalid) hb
        (List.mem_of_getElem? hc) htarget hmine
      rw [hsame]
      exact hsetc
    · obtain ⟨r, hr, hid'⟩ := Option.bind_eq_some_iff.1 hreplaced
      obtain ⟨p, hp, -, -, hreplacement⟩ := hexecuted.position hr
      have hfree := replacement_fresh hgroup (List.mem_of_getElem? hp)
        (hreplacement.symm.trans hid')
      have hadmits := hexecuted.checked.admits hactions
      obtain ⟨q, hq, hqb⟩ : ∃ q ∈ prepared, q.action = b := by
        rw [← hexecuted.checked.map_action] at hb
        exact List.mem_map.1 hb
      obtain ⟨record, hrecord⟩ := (hadmits q hq).isPrivate id (hqb ▸ htarget)
      have hstored : db.records.get? id = some record := hrecord.stored
      rw [hfree] at hstored
      cases hstored
  · intro hone fact id haccepted
    obtain ⟨htarget, a, ha, hset⟩ := (accepted_iff hevent).1 haccepted
    rcases mem_targets_lifecycleEvent.1 htarget with ⟨b, hb, hid⟩ | ⟨r, hr, -, hid⟩
    · obtain ⟨i, hi⟩ := List.mem_iff_getElem?.1 hb
      exact ⟨i, b, hi, hone fact a ha hset b hb, Or.inl (auditTargetIds_subset hid)⟩
    · obtain ⟨i, hi⟩ := List.mem_iff_getElem?.1 hr
      obtain ⟨p, -, hp, -, -⟩ := hexecuted.position hi
      refine ⟨i, p.action, hp, hone fact a ha hset _ (List.mem_of_getElem? hp), Or.inr ?_⟩
      rw [hi]
      exact hid

end Group

/-! ### Runs on three decisions -/

/-- The pin of one decision. -/
def pinOne : PrivateLifecycleRequest where
  schema := requestSchema
  requestId := "lifecycle_request_op-1"
  operationId := "op-1"
  source := .direct
  actions := [.pin "local_3" "00000000000000000000000000000000"]

/-- A request, applied to the three decisions at ten o'clock. -/
def runOnThree (request : PrivateLifecycleRequest) :
    Fallible (Db × Application × List PrivateLifecycleActionResult) :=
  @executeGroup Entropy.cycling Digests.ofOperation Text.Unicode.ascii threeDecisions request
    "grant_1" ⟨1784023200000000000, 0⟩ "2026-07-14T10:00:00Z"

theorem event_authorizes_own_pinOne :
    ∃ db' app results, runOnThree pinOne = .ok (db', app, results) ∧
      ∀ fact recordId, Accepted db' app fact recordId →
        DidSet pinOne.actions results fact recordId := by
  have hsome : (runOnThree pinOne).toOption.isSome = true := by decide +kernel
  have hvalid : @PrivateLifecycleRequest.validate Digests.ofOperation pinOne = .ok () := by
    decide +kernel
  cases hrun : runOnThree pinOne with
  | error e =>
      rw [hrun] at hsome
      cases hsome
  | ok result =>
      obtain ⟨db', app, results⟩ := result
      refine ⟨db', app, results, rfl, (@event_authorizes_own_iff Entropy.cycling
        Digests.ofOperation Text.Unicode.ascii _ _ _ _ _ _ _ _ hvalid hrun).2 ?_⟩
      intro fact a ha hset b hb
      rw [List.mem_singleton.1 ha] at hset
      rw [List.mem_singleton.1 hb]
      exact hset

/-- The event of a correction and a pin is accepted as the authority of a longer recall of the
pinned decision, which no action of the request was about. -/
theorem event_authorizes_pinned_recall :
    ∃ db' app results, runOnThree (correctAndPin "Retry policy") = .ok (db', app, results) ∧
      Accepted db' app .automaticRecall "local_3" ∧
      ¬ DidSet (correctAndPin "Retry policy").actions results .automaticRecall "local_3" := by
  have hchecked : ((runOnThree (correctAndPin "Retry policy")).toOption.any fun r =>
      (requireAuthorizingEvent r.1 (some r.2.1.eventId) "local_3" recallKinds
        "automatic recall").toBool &&
      (r.2.2[0]?).bind PrivateLifecycleActionResult.replacementRecordId ≠ some "local_3") = true := by
    decide +kernel
  cases hrun : runOnThree (correctAndPin "Retry policy") with
  | error e =>
      rw [hrun] at hchecked
      cases hchecked
  | ok result =>
      obtain ⟨db', app, results⟩ := result
      rw [hrun] at hchecked
      simp only [Except.toOption, Option.any_some, Bool.and_eq_true, decide_eq_true_eq] at hchecked
      obtain ⟨haccepted, hother⟩ := hchecked
      refine ⟨db', app, results, rfl, ?_, ?_⟩
      · unfold Accepted LifecycleFact.actionKinds LifecycleFact.label
        cases hcheck : requireAuthorizingEvent db' (some app.eventId) "local_3" recallKinds
            "automatic recall" with
        | error e =>
            rw [hcheck] at haccepted
            cases haccepted
        | ok u => rfl
      · rintro ⟨i, a, ha, hset, hrecord⟩
        match i, ha with
        | 0, ha =>
            cases ha
            exact hrecord.elim (by decide) hother
        | 1, ha =>
            cases ha
            exact absurd hset (by decide)

end PrivateLifecycle
end Memzoi
