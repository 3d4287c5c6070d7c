/-
# Materialization is a compare-and-swap

Source: `service/materialization.rs`, `materialization.rs`.

The revision of a record takes the place of the value that is compared, and a
call carries the revision it expects. What one call does is `CallOutcome`; here
it is followed over a sequence of calls: the index stays current, a file is
touched by the calls on its record only, and a file that two calls would both
write has one candidate, one plan and one decision.
-/

import Memzoi.MaterializationRules
import Memzoi.Lib.Run

namespace Memzoi

open Fallible Okf
open PrivateLifecycle (Digests)

namespace MaterializationCall

/-- The documents of a call. -/
def request (call : MaterializationCall) : RepositoryMaterializationPlan ×
    RepositoryMaterializationDecision × RepositoryMaterializationCandidate :=
  (call.plan, call.decision, call.candidate)

def recordId (call : MaterializationCall) : String := call.candidate.record.conceptId

/-- The call is an update of a record planned on a revision. -/
def UpdatesFrom (call : MaterializationCall) (recordId : String) (revision : CanonicalRevision) :
    Prop :=
  ∃ output, call.plan.outputs = [output] ∧ output.action = .update ∧ output.recordId = recordId ∧
    output.expectedPriorRevision = .revision revision

end MaterializationCall

theorem path_injective {id id' : String} (h : id ++ ".md" = id' ++ ".md") : id = id' :=
  String.append_left_inj ".md" |>.1 h

section Requests

variable [MaterializationDigests]

/-- No two candidates of the calls have one identity. -/
def CandidatesDistinct (calls : List MaterializationCall) : Prop :=
  ∀ c ∈ calls, ∀ c' ∈ calls,
    MaterializationDigests.candidateId c.candidate.toCandidateIdentityProjection =
        MaterializationDigests.candidateId c'.candidate.toCandidateIdentityProjection →
      c.candidate.toCandidateIdentityProjection = c'.candidate.toCandidateIdentityProjection

variable [CaptureDocuments]

/-- The identity of a candidate is that of its plan, and the digest of its content. -/
theorem candidateId_of_documentsAgree {plan : RepositoryMaterializationPlan}
    {decision : RepositoryMaterializationDecision} {candidate : RepositoryMaterializationCandidate}
    {output : MaterializationOutputIntent} (h : DocumentsAgree plan decision candidate output) :
    candidate.candidateId =
        MaterializationDigests.candidateId candidate.toCandidateIdentityProjection ∧
      plan.candidateId = candidate.candidateId ∧
      output.recordId = candidate.record.conceptId ∧
      output.expectedPriorRevision = candidate.expectedPriorRevision := by
  have hvalid := h.candidateValid
  have hplan := h.planned
  simp only [RepositoryMaterializationCandidate.validate, repositoryMaterializationCandidateId,
    bind_eq_ok, ensure_eq_ok, Except.ok.injEq] at hvalid
  simp only [repositoryMaterializationCandidatePlan, repositoryMaterializationCandidateToOkfRecord,
    buildRepositoryMaterializationPlan, bind_eq_ok, Except.ok.injEq] at hplan
  obtain ⟨_, -, _, -, _, ⟨_, -, rfl⟩, hid⟩ := hvalid
  obtain ⟨_, -, _, ⟨_, -, rfl⟩, revision, -, planId, -, _, -, rfl⟩ := hplan
  have houtput := h.oneOutput
  rw [List.cons.injEq] at houtput
  obtain ⟨rfl, -⟩ := houtput
  exact ⟨hid, rfl, rfl, rfl⟩

omit [CaptureDocuments] in
theorem schema_of_decisionValid {decision : RepositoryMaterializationDecision}
    (h : decision.validate = .ok ()) : decision.schema = repositoryMaterializationDecisionSchema := by
  simp only [RepositoryMaterializationDecision.validate, validateDecisionPayload, validateSchema,
    check_bind_eq_ok, ensure_eq_ok] at h
  exact h.1.1

/-- The decision on a plan is known from its time and its identity. -/
theorem decision_of_documentsAgree {plan : RepositoryMaterializationPlan}
    {decision decision' : RepositoryMaterializationDecision}
    {candidate : RepositoryMaterializationCandidate} {output output' : MaterializationOutputIntent}
    (h : DocumentsAgree plan decision candidate output)
    (h' : DocumentsAgree plan decision' candidate output')
    (hat : decision.decisionAt = decision'.decisionAt)
    (hid : decision.decisionId = decision'.decisionId) : decision = decision' := by
  have hschema : decision.schema = decision'.schema := by
    rw [schema_of_decisionValid h.decisionValid, schema_of_decisionValid h'.decisionValid]
  obtain ⟨⟨schema, planId, candidateId, decisionAt, policy, capability, outputs⟩, decisionId⟩ :=
    decision
  obtain ⟨⟨schema', planId', candidateId', decisionAt', policy', capability', outputs'⟩,
    decisionId'⟩ := decision'
  cases h.samePlan
  cases h'.samePlan
  cases h.sameCandidate
  cases h'.sameCandidate
  cases h.sameOutputs
  cases h'.sameOutputs
  cases h.policy
  cases h'.policy
  cases h.capability
  cases h'.capability
  cases hschema
  cases hat
  cases hid
  rfl

variable [Yaml]

/-- The path of a prepared file is that of the record of the call. -/
theorem path_of_prepares {call : MaterializationCall} {p : PreparedMaterialization}
    (hp : Prepares call p) : p.path = call.recordId ++ ".md" ∧ p.output.recordId = call.recordId := by
  have hid : p.record.conceptId = call.recordId := by
    rw [hp.record]
    rfl
  rw [hp.path, hp.outputRecord, hid]
  exact ⟨rfl, rfl⟩

/-- **Two calls that would write one file are one request.** -/
theorem request_of_markdown {calls : List MaterializationCall} (hcalls : CandidatesDistinct calls)
    {c c' : MaterializationCall} (hc : c ∈ calls) (hc' : c' ∈ calls)
    {p p' : PreparedMaterialization} (hp : Prepares c p) (hp' : Prepares c' p')
    (hpath : p.path = p'.path) (hmarkdown : p.markdown = p'.markdown) : c.request = c'.request := by
  have hrecord : p.record = p'.record := by
    have hparsed := hp.parsed
    rw [hpath, hmarkdown, hp'.parsed, Except.ok.injEq, Option.some.injEq] at hparsed
    exact hparsed.symm
  have hattested := congrArg OkfRecordFile.materialization hrecord
  rw [hp.record, hp'.record, Option.some.injEq, RepositoryMaterializationMetadata.direct.injEq]
    at hattested
  have hat : c.decision.decisionAt = c'.decision.decisionAt :=
    congrArg MaterializationMetadata.decisionAt hattested
  have hdecisionId : c.decision.decisionId = c'.decision.decisionId :=
    congrArg MaterializationMetadata.decisionId hattested
  have hplanCandidate : c.plan.candidateId = c'.plan.candidateId :=
    congrArg MaterializationMetadata.candidateId hattested
  obtain ⟨hdigest, hid, -⟩ := candidateId_of_documentsAgree hp.agree
  obtain ⟨hdigest', hid', -⟩ := candidateId_of_documentsAgree hp'.agree
  have hcandidateId : c.candidate.candidateId = c'.candidate.candidateId := by
    rw [← hid, ← hid', hplanCandidate]
  have hidentity := hcalls c hc c' hc' (by rw [← hdigest, ← hdigest', hcandidateId])
  have hcandidate : c.candidate = c'.candidate := by
    cases hcand : c.candidate
    cases hcand' : c'.candidate
    rw [hcand, hcand'] at hidentity hcandidateId
    cases hidentity
    cases hcandidateId
    rfl
  have hplan : c.plan = c'.plan := by
    have hplanned := hp.agree.planned
    rw [hcandidate, hp'.agree.planned, Except.ok.injEq] at hplanned
    exact hplanned.symm
  have hdecision : c.decision = c'.decision := by
    have hagree := hp.agree
    rw [hplan, hcandidate] at hagree
    exact decision_of_documentsAgree hagree hp'.agree hat hdecisionId
  rw [MaterializationCall.request, MaterializationCall.request, hplan, hdecision, hcandidate]

/-- The files allow an output: a creation without a file, an update of a file at the expected
revision. -/
def Admits (files : RecordFiles) (output : MaterializationOutputIntent) : Prop :=
  (output.action = .create ∧ files.get? (output.recordId ++ ".md") = none) ∨
    (output.action = .update ∧ ∃ revision, output.expectedPriorRevision = .revision revision ∧
      revisionOf files output.recordId = some revision)

theorem admits_of_checkAction {s : RepositoryState} {call : MaterializationCall}
    {p : PreparedMaterialization} {existing : Option ExistingCanonicalRecord}
    (hp : Prepares call p)
    (hread : readExistingCanonicalRecord s.files p.path p.record.conceptId = .ok existing)
    (haction : checkAction p.output existing = .ok ()) : Admits s.files p.output := by
  rcases hp.agree.action with hcreate | hupdate
  · cases (checkAction_create hcreate).1 haction
    refine .inl ⟨hcreate, ?_⟩
    have hbytes := bytes_of_readExisting hread
    rw [hp.outputRecord, ← hp.path]
    exact Option.map_eq_none_iff.1 hbytes
  · obtain ⟨record, rfl, hexpected⟩ := (checkAction_update hupdate).1 haction
    refine .inr ⟨hupdate, record.semanticRevision, hexpected, ?_⟩
    rw [revisionOf, hp.outputRecord, ← hp.path, hread]

/-- An update is allowed at the revision its plan names. -/
theorem revisionOf_of_admits {call : MaterializationCall} {p : PreparedMaterialization}
    {files : RecordFiles} {recordId : String} {revision : CanonicalRevision} (hp : Prepares call p)
    (hupdates : call.UpdatesFrom recordId revision) (hadmits : Admits files p.output) :
    revisionOf files recordId = some revision := by
  obtain ⟨output, hone, haction, hid, hexpected⟩ := hupdates
  have hsame : p.output = output := by
    rw [hp.agree.oneOutput, List.cons.injEq] at hone
    exact hone.1
  subst hsame hid
  rcases hadmits with ⟨hcreate, -⟩ | ⟨-, revision', hexpected', hrevision⟩
  · rw [haction] at hcreate
    cases hcreate
  · rw [hexpected, ExpectedPriorRevision.revision.injEq] at hexpected'
    rw [hrevision, hexpected']

/-- The file of an update is that of the record it names. -/
theorem path_of_updatesFrom {call : MaterializationCall} {p : PreparedMaterialization}
    {recordId : String} {revision : CanonicalRevision} (hp : Prepares call p)
    (hupdates : call.UpdatesFrom recordId revision) : p.path = recordId ++ ".md" := by
  obtain ⟨output, hone, -, rfl, -⟩ := hupdates
  rw [hp.agree.oneOutput, List.cons.injEq] at hone
  obtain ⟨hpath, hid⟩ := path_of_prepares hp
  rw [hpath, ← hid, hone.1]

end Requests

/-! ### Sequences of calls -/

section Calls

variable [Entropy] [Digests] [MaterializationDigests] [CaptureDocuments] [Yaml] [RepositoryChecks]
  [MaterializationAuthority]

/-- The index agrees with the files. -/
def RepositoryState.Current (s : RepositoryState) : Prop :=
  ensureRepositoryIndexCurrent s.files s.index.toContents = .ok ()

/-- None of the calls on a record succeeds. -/
def QuietOn (s : RepositoryState) (recordId : String) (calls : List MaterializationCall) : Prop :=
  ∀ before call after, calls = before ++ call :: after → call.recordId = recordId →
    ∃ error, (applyRepositoryMaterialization (applyAllMaterializations s before) call).2 =
      .error error

theorem applyAllMaterializations_append (s : RepositoryState) (calls calls' : List MaterializationCall) :
    applyAllMaterializations s (calls ++ calls') =
      applyAllMaterializations (applyAllMaterializations s calls) calls' :=
  List.foldl_append

theorem applyAllMaterializations_cons (s : RepositoryState) (call : MaterializationCall)
    (calls : List MaterializationCall) :
    applyAllMaterializations s (call :: calls) =
      applyAllMaterializations (applyRepositoryMaterialization s call).1 calls := rfl

/-- A call keeps the index current. -/
theorem current_of_apply {s : RepositoryState} (call : MaterializationCall) (hs : s.Current) :
    (applyRepositoryMaterialization s call).1.Current := by
  have houtcome := applyRepositoryMaterialization_outcome s call
  generalize applyRepositoryMaterialization s call = after at houtcome ⊢
  obtain ⟨s', answer⟩ := after
  cases houtcome with
  | failed => exact hs
  | alreadyCurrent => exact hs
  | written _ _ _ hcurrent => exact hcurrent

theorem current_of_applyAll {s : RepositoryState} (calls : List MaterializationCall)
    (hs : s.Current) : (applyAllMaterializations s calls).Current :=
  Run.invariant RepositoryState.Current (fun _ call _ => current_of_apply call) hs

/-- A call on another record leaves a file alone. -/
theorem get?_of_other {s : RepositoryState} {call : MaterializationCall} {recordId : String}
    (hother : call.recordId ≠ recordId) :
    (applyRepositoryMaterialization s call).1.files.get? (recordId ++ ".md") =
      s.files.get? (recordId ++ ".md") := by
  have houtcome := applyRepositoryMaterialization_outcome s call
  generalize applyRepositoryMaterialization s call = after at houtcome ⊢
  obtain ⟨s', answer⟩ := after
  cases houtcome with
  | failed => rfl
  | alreadyCurrent => rfl
  | written hp _ _ _ =>
      rw [get?_installFile, if_neg]
      rw [(path_of_prepares hp).1]
      intro hpath
      exact hother (path_injective hpath)

/-- A call that fails changes nothing. -/
theorem state_of_error {s : RepositoryState} {call : MaterializationCall} {error : Failure}
    (h : (applyRepositoryMaterialization s call).2 = .error error) :
    (applyRepositoryMaterialization s call).1 = s := by
  have houtcome := applyRepositoryMaterialization_outcome s call
  generalize applyRepositoryMaterialization s call = after at houtcome h ⊢
  obtain ⟨s', answer⟩ := after
  cases houtcome with
  | failed => rfl
  | alreadyCurrent => rfl
  | written => cases h

/-- A call that succeeds leaves its file where it belongs. -/
theorem file_of_ok {s : RepositoryState} {call : MaterializationCall}
    {result : RepositoryMaterializationResult}
    (h : (applyRepositoryMaterialization s call).2 = .ok result) :
    ∃ p outcome, Prepares call p ∧ result = p.result call.decision.decisionId outcome ∧
      (applyRepositoryMaterialization s call).1.files.get? p.path =
        some ⟨p.path, p.markdown.toByteArray⟩ := by
  have houtcome := applyRepositoryMaterialization_outcome s call
  generalize applyRepositoryMaterialization s call = after at houtcome h ⊢
  obtain ⟨s', answer⟩ := after
  cases houtcome with
  | failed => cases h
  | alreadyCurrent hp hfile _ =>
      cases h
      exact ⟨_, _, hp, rfl, hfile⟩
  | written hp _ _ _ =>
      cases h
      refine ⟨_, _, hp, rfl, ?_⟩
      rw [get?_installFile, if_pos rfl]

/-- While no call on its record succeeds, a file stays. -/
theorem get?_of_quietOn {s : RepositoryState} {recordId : String} {calls : List MaterializationCall}
    (hquiet : QuietOn s recordId calls) :
    (applyAllMaterializations s calls).files.get? (recordId ++ ".md") =
      s.files.get? (recordId ++ ".md") := by
  induction calls generalizing s with
  | nil => rfl
  | cons call calls ih =>
      have hstep : (applyRepositoryMaterialization s call).1.files.get? (recordId ++ ".md") =
          s.files.get? (recordId ++ ".md") := by
        by_cases hown : call.recordId = recordId
        · obtain ⟨error, herror⟩ := hquiet [] call calls rfl hown
          have hsame := state_of_error herror
          rw [applyAllMaterializations, List.foldl_nil] at hsame
          rw [hsame]
        · exact get?_of_other hown
      have hrest : QuietOn (applyRepositoryMaterialization s call).1 recordId calls := by
        rintro before c after rfl hc
        exact hquiet (call :: before) c after rfl hc
      rw [applyAllMaterializations_cons, ih hrest, hstep]

/-- **A sequence of calls is a sequence of compare-and-swaps.** The calls are split at the ones a
field speaks of. -/
structure CompareAndSwap (s₀ : RepositoryState) (calls : List MaterializationCall) : Prop where
  /-- A call writes only a file that is not there, or one at the revision its plan expects. -/
  guarded : ∀ before call after, calls = before ++ call :: after →
    (applyRepositoryMaterialization (applyAllMaterializations s₀ before) call).1 ≠
        applyAllMaterializations s₀ before →
      ∃ output, call.plan.outputs = [output] ∧
        Admits (applyAllMaterializations s₀ before).files output
  /-- After a call that succeeds, the file has the revision of its answer, and the index is
  current. -/
  readable : ∀ before call after, calls = before ++ call :: after → ∀ result,
    (applyRepositoryMaterialization (applyAllMaterializations s₀ before) call).2 = .ok result →
      ∃ output, result.outputs = [output] ∧ output.recordId = call.recordId ∧
        revisionOf (applyAllMaterializations s₀ (before ++ [call])).files output.recordId =
          some output.semanticRevision ∧
        (applyAllMaterializations s₀ (before ++ [call])).Current
  /-- An update planned on the revision of an answer passes the comparison, as long as no call on
  its record succeeds in between. -/
  accepted : ∀ before call middle update after,
    calls = before ++ call :: (middle ++ update :: after) → ∀ result output revision,
    (applyRepositoryMaterialization (applyAllMaterializations s₀ before) call).2 = .ok result →
    result.outputs.map MaterializationOutputResult.semanticRevision = [revision] →
    QuietOn (applyAllMaterializations s₀ (before ++ [call])) call.recordId middle →
    update.plan.outputs = [output] → output.action = .update → output.recordId = call.recordId →
    output.expectedPriorRevision = .revision revision →
      ∃ existing, readExistingCanonicalRecord
          (applyAllMaterializations s₀ (before ++ call :: middle)).files
          (output.recordId ++ ".md") output.recordId = .ok existing ∧
        checkAction output existing = .ok ()
  /-- The request that last succeeded on a record finds its file and changes nothing. -/
  repeated : ∀ before call middle again after,
    calls = before ++ call :: (middle ++ again :: after) → ∀ result,
    (applyRepositoryMaterialization (applyAllMaterializations s₀ before) call).2 = .ok result →
    QuietOn (applyAllMaterializations s₀ (before ++ [call])) call.recordId middle →
    again.request = call.request →
      ∃ answer, applyRepositoryMaterialization
            (applyAllMaterializations s₀ (before ++ call :: middle)) again =
          (applyAllMaterializations s₀ (before ++ call :: middle), .ok answer) ∧
        answer.outputs.map MaterializationOutputResult.outcome = [.alreadyCurrent]
  /-- A call that fails leaves the files and the index as they were. -/
  failed : ∀ before call after, calls = before ++ call :: after → ∀ error,
    (applyRepositoryMaterialization (applyAllMaterializations s₀ before) call).2 = .error error →
      (applyRepositoryMaterialization (applyAllMaterializations s₀ before) call).1 =
        applyAllMaterializations s₀ before
  /-- Of two different updates planned on one revision, the second succeeds only when the record
  has been brought back to that revision. -/
  stale : ∀ before first middle second after,
    calls = before ++ first :: (middle ++ second :: after) → ∀ recordId revision,
    first.UpdatesFrom recordId revision → second.UpdatesFrom recordId revision →
    first.request ≠ second.request → ∀ result result',
    (applyRepositoryMaterialization (applyAllMaterializations s₀ before) first).2 = .ok result →
    (applyRepositoryMaterialization (applyAllMaterializations s₀ (before ++ first :: middle))
        second).2 = .ok result' →
      ∃ middle₁ middle₂, middle = middle₁ ++ middle₂ ∧
        revisionOf (applyAllMaterializations s₀ (before ++ first :: middle₁)).files recordId =
          some revision

/-- A call that succeeds has decided. -/
theorem decides_of_ok {s : RepositoryState} {call : MaterializationCall}
    {result : RepositoryMaterializationResult}
    (h : (applyRepositoryMaterialization s call).2 = .ok result) :
    ∃ p existing found, Decides s call p existing found := by
  rw [applyRepositoryMaterialization] at h
  cases hdecide : decideMaterialization s call with
  | error error =>
      rw [hdecide] at h
      cases h
  | ok decided => exact ⟨_, _, _, decides_of_decideMaterialization hdecide⟩

/-- A request that finds its own file changes nothing. -/
theorem alreadyCurrent_of_file {s s' : RepositoryState} {call again : MaterializationCall}
    {p : PreparedMaterialization} {result : RepositoryMaterializationResult}
    (hrequest : again.request = call.request) (hp : Prepares call p)
    (hok : (applyRepositoryMaterialization s call).2 = .ok result) (hcurrent : s'.Current)
    (hfile : s'.files.get? p.path = some ⟨p.path, p.markdown.toByteArray⟩) :
    applyRepositoryMaterialization s' again =
      (s', .ok (p.result call.decision.decisionId .alreadyCurrent)) := by
  obtain ⟨plan, decision, candidate, install, commit⟩ := again
  cases hrequest
  obtain ⟨p', existing, found, hdecides⟩ := decides_of_ok hok
  cases prepares_unique hp (prepares_of_prepareMaterialization hdecides.prepared)
  have hfound : Decides s' ⟨call.plan, call.decision, call.candidate, install, commit⟩ p
      (some ⟨p.markdown.toByteArray, p.output.intendedSemanticRevision⟩) true := {
    prepared := hdecides.prepared
    current := hcurrent
    path := hdecides.path
    read := readExisting_of_prepares hp hfile
    visible := hdecides.visible
    found_iff := (decide_eq_true rfl).symm
    admitted := nofun }
  rw [applyRepositoryMaterialization, decideMaterialization_of_found hfound]
  exact Prod.ext rfl (materializationResult_of_prepares hp .alreadyCurrent)

/-- A call that succeeds finds its file or is allowed to write it. -/
theorem found_or_admits {s : RepositoryState} {call : MaterializationCall}
    {p : PreparedMaterialization} {result : RepositoryMaterializationResult} (hp : Prepares call p)
    (h : (applyRepositoryMaterialization s call).2 = .ok result) :
    s.files.get? p.path = some ⟨p.path, p.markdown.toByteArray⟩ ∨ Admits s.files p.output := by
  have houtcome := applyRepositoryMaterialization_outcome s call
  generalize applyRepositoryMaterialization s call = after at houtcome h
  obtain ⟨s', answer⟩ := after
  cases houtcome with
  | failed => cases h
  | alreadyCurrent hp' hfile _ =>
      cases prepares_unique hp hp'
      exact .inl hfile
  | written hp' hread hadmitted _ =>
      cases prepares_unique hp hp'
      exact .inr (admits_of_checkAction hp hread hadmitted)

/-- The file of a call that succeeded stays while no other call on its record succeeds. -/
theorem file_stays {s₀ : RepositoryState} {before middle : List MaterializationCall}
    {call : MaterializationCall} {p : PreparedMaterialization} (hp : Prepares call p)
    (hfile : (applyRepositoryMaterialization (applyAllMaterializations s₀ before) call).1.files.get?
      p.path = some ⟨p.path, p.markdown.toByteArray⟩)
    (hquiet : QuietOn (applyAllMaterializations s₀ (before ++ [call])) call.recordId middle) :
    (applyAllMaterializations s₀ (before ++ call :: middle)).files.get? p.path =
      some ⟨p.path, p.markdown.toByteArray⟩ := by
  have hstays := get?_of_quietOn hquiet
  rw [applyAllMaterializations_append, applyAllMaterializations_cons] at hstays ⊢
  rw [← (path_of_prepares hp).1] at hstays
  exact hstays.trans hfile

/-- A file that appears in a sequence of calls was written by one of them, as its plan allows. -/
theorem written_of_appears {s : RepositoryState} {calls : List MaterializationCall} {path : String}
    {bytes : ByteArray} (hbefore : s.files.get? path ≠ some ⟨path, bytes⟩)
    (hafter : (applyAllMaterializations s calls).files.get? path = some ⟨path, bytes⟩) :
    ∃ before call after p, calls = before ++ call :: after ∧ Prepares call p ∧ p.path = path ∧
      p.markdown.toByteArray = bytes ∧
      Admits (applyAllMaterializations s before).files p.output := by
  obtain ⟨before, call, after, rfl, hnot, hholds⟩ :=
    Run.exists_step (fun s : RepositoryState => s.files.get? path = some ⟨path, bytes⟩) hbefore
      hafter
  change (applyAllMaterializations s before).files.get? path ≠ _ at hnot
  change (applyRepositoryMaterialization (applyAllMaterializations s before) call).1.files.get?
    path = _ at hholds
  have houtcome := applyRepositoryMaterialization_outcome (applyAllMaterializations s before) call
  generalize applyRepositoryMaterialization (applyAllMaterializations s before) call = next
    at houtcome hholds
  obtain ⟨s', answer⟩ := next
  cases houtcome with
  | failed => exact absurd hholds hnot
  | alreadyCurrent => exact absurd hholds hnot
  | @written p existing tx hp hread hadmitted _ =>
      dsimp only at hholds
      rw [get?_installFile] at hholds
      split at hholds
      · next hpath =>
          rw [Option.some.injEq, RecordBlob.mk.injEq] at hholds
          exact ⟨before, call, after, p, rfl, hp, hpath, hholds.2,
            admits_of_checkAction hp hread hadmitted⟩
      · exact absurd hholds hnot

end Calls

/-! ### A sequence -/

def buildRecord (body : String) : RepositoryMaterializationCandidateRecord where
  conceptId := "build"
  draft := ⟨.decision, .semantic, .repo, none, .repo, "Build", body, ["ci"], none, none, .repoSafe,
    .generalRepoKnowledge, 1⟩
  status := .active
  appliesTo := []
  created := "2026-07-14T09:00:00Z"
  updated := none
  supersedesId := none
  retention := ⟨none, none, none, none, none, none⟩
  origin := ⟨"owner-command:1", .repositoryMaterialization⟩
  lineage := none
  proposalId := none
  capture := none

def buildOutput (action : MaterializationAction) (prior : ExpectedPriorRevision) :
    MaterializationOutputIntent :=
  ⟨canonicalRecordOutputPath "build", "build", action, prior,
    ⟨canonicalRevisionSchema, tellingIdentity (if action = .create then '1' else '2')⟩,
    .canonicalRecord⟩

/-- A call on one record, created first and updated later. -/
def buildCall (action : MaterializationAction) (prior : ExpectedPriorRevision) (body : String) :
    MaterializationCall :=
  let digit (created updated : Char) :=
    tellingIdentity (if action = .create then created else updated)
  { plan := ⟨⟨repositoryMaterializationPlanSchema, digit 'a' 'b', [buildOutput action prior]⟩,
      digit 'c' 'd'⟩
    decision := ⟨⟨repositoryMaterializationDecisionSchema, digit 'c' 'd', digit 'a' 'b',
      "2026-07-14T09:05:00Z", repositoryMaterializationPolicy, .explicitCli,
      [buildOutput action prior]⟩, digit 'e' 'f'⟩
    candidate := ⟨⟨repositoryMaterializationCandidateSchema, .repo, action,
      canonicalRecordOutputPath "build", prior, none, none, buildRecord body⟩, digit 'a' 'b'⟩
    install := .ok ()
    commit := .ok () }

def buildCreation : MaterializationCall := buildCall .create .absent "Run the tests."

def buildUpdate : MaterializationCall :=
  buildCall .update (.revision ⟨canonicalRevisionSchema, tellingIdentity '1'⟩) "Run all tests."

/-- The record the creation writes. -/
def builtRecord : OkfRecordFile :=
  { candidateRecord buildCreation.candidate with
    materialization := some (.direct (materializationMetadata buildCreation.plan
      buildCreation.decision (buildOutput .create .absent)
      ⟨canonicalRevisionSchema, tellingIdentity '1'⟩)) }

/-- The creation is well formed, and its file is read as its record. -/
theorem buildCreation_prepared :
    @prepareMaterialization MaterializationDigests.ofAction CaptureDocuments.unknown
      (Yaml.knowing [builtRecord]) buildCreation.plan buildCreation.decision
      buildCreation.candidate = .ok ⟨builtRecord,
        String.ofList (@recordText (Yaml.knowing [builtRecord]) builtRecord), "build.md",
        buildOutput .create .absent⟩ :=
  @prepare_of_parsed MaterializationDigests.ofAction CaptureDocuments.unknown
    (Yaml.knowing [builtRecord]) buildCreation (buildOutput .create .absent) builtRecord
    (by decide +kernel) (by decide +kernel) (by decide +kernel) (by decide +kernel)

end Memzoi
