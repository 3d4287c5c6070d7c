/-
# Materialization is a compare-and-swap

Source: `service/materialization.rs`.

`applyRepositoryMaterialization_cases` says once what a call can do: fail and
change nothing, find its file, or write it. What holds over sequences of calls
follows from the three cases and from two facts about the file that is written:
it is read back as the prepared record, and two calls with one file have one
candidate.
-/

import Memzoi.MaterializationService

namespace Memzoi

open Fallible Okf
open Maintenance (validateCanonicalRecordId validateMaterializationIdentity)
open PrivateLifecycle (Digests)

theorem fromUTF8?_toByteArray (s : String) : String.fromUTF8? s.toByteArray = some s := by
  unfold String.fromUTF8?
  rw [dif_pos s.isValidUTF8]
  rfl

/-! ### What is prepared -/

section Prepare

variable [MaterializationDigests] [CaptureDocuments]

/-- What the checks of the three documents establish. -/
structure DocumentsAgree (plan : RepositoryMaterializationPlan)
    (decision : RepositoryMaterializationDecision) (candidate : RepositoryMaterializationCandidate)
    (output : MaterializationOutputIntent) : Prop where
  candidateValid : candidate.validate = .ok ()
  planned : repositoryMaterializationCandidatePlan candidate = .ok plan
  planValid : plan.validate = .ok ()
  decisionValid : decision.validate = .ok ()
  samePlan : decision.planId = plan.planId
  sameCandidate : decision.candidateId = plan.candidateId
  sameOutputs : decision.outputs = plan.outputs
  oneOutput : plan.outputs = [output]
  capability : decision.authorizationCapability = .explicitCli
  policy : decision.policy = repositoryMaterializationPolicy
  action : output.action = .create ∨ output.action = .update

theorem documentsAgree_of_checkDocuments {plan : RepositoryMaterializationPlan}
    {decision : RepositoryMaterializationDecision} {candidate : RepositoryMaterializationCandidate}
    {output : MaterializationOutputIntent} (h : checkDocuments plan decision candidate = .ok output) :
    DocumentsAgree plan decision candidate output := by
  simp only [checkDocuments, bind_eq_ok, ensure_eq_ok, exists_const, require_eq_ok,
    Except.ok.injEq] at h
  obtain ⟨_, hcandidate, expected, hexpected, rfl, _, hplan, _, hdecision, ⟨hplanId, hcandidateId⟩,
    ⟨houtputs, hlength, -⟩, -, hpolicy, first', hhead, ⟨hsupersede, htombstone⟩, rfl⟩ := h
  obtain ⟨first, hfirst⟩ := List.length_eq_one_iff.1 hlength
  rw [hfirst, List.head?_cons, Option.some.injEq] at hhead
  subst hhead
  refine ⟨hcandidate, hexpected, hplan, hdecision, hplanId, hcandidateId, houtputs, hfirst, rfl,
    hpolicy, ?_⟩
  cases haction : first.action with
  | create => exact .inl rfl
  | update => exact .inr rfl
  | supersede => exact absurd haction hsupersede
  | tombstone => exact absurd haction htombstone

variable [Yaml]

/-- What is known of a prepared file: the record it holds, and that it is read back as that record
with the promised revision. -/
structure Prepares (call : MaterializationCall) (p : PreparedMaterialization) : Prop where
  agree : DocumentsAgree call.plan call.decision call.candidate p.output
  record : p.record = { candidateRecord call.candidate with
    materialization := some (.direct (materializationMetadata call.plan call.decision p.output
      p.output.intendedSemanticRevision)) }
  path : p.path = p.record.conceptId ++ ".md"
  outputPath : p.output.path = canonicalRecordOutputPath p.record.conceptId
  outputRecord : p.output.recordId = p.record.conceptId
  rendered : renderOkfRecordMarkdown p.record = .ok p.markdown
  parsed : parseOkfRecordMarkdown p.path p.markdown = .ok (some p.record)
  revision : canonicalRevisionForOkfRecord p.record = .ok p.output.intendedSemanticRevision

omit [CaptureDocuments] [Yaml] in
/-- An attested record has the revision its attestation names. -/
theorem revision_of_validateRecordMaterialization {record : OkfRecordFile}
    (metadata : RepositoryMaterializationMetadata) (hmetadata : record.materialization = some metadata)
    (h : validateRecordMaterialization record = .ok ()) :
    canonicalRevisionForOkfRecord record = .ok metadata.intendedSemanticRevision := by
  simp only [validateRecordMaterialization, hmetadata, bind_eq_ok, ensure_eq_ok] at h
  obtain ⟨-, -, expected, hexpected, rfl⟩ := h
  exact hexpected

/-- A request is prepared as one file. -/
theorem prepares_unique {call : MaterializationCall} {p p' : PreparedMaterialization}
    (hp : Prepares call p) (hp' : Prepares call p') : p = p' := by
  have houtput : p.output = p'.output := by
    have hone := hp.agree.oneOutput
    rw [hp'.agree.oneOutput, List.cons.injEq] at hone
    exact hone.1.symm
  have hrecord : p.record = p'.record := by rw [hp.record, hp'.record, houtput]
  have hmarkdown : p.markdown = p'.markdown := by
    have hrendered := hp.rendered
    rw [hrecord, hp'.rendered, Except.ok.injEq] at hrendered
    exact hrendered.symm
  have hpath : p.path = p'.path := by rw [hp.path, hp'.path, hrecord]
  obtain ⟨record, markdown, path, output⟩ := p
  cases houtput
  cases hrecord
  cases hmarkdown
  cases hpath
  rfl

theorem prepares_of_prepareMaterialization {call : MaterializationCall} {p : PreparedMaterialization}
    (h : prepareMaterialization call.plan call.decision call.candidate = .ok p) : Prepares call p := by
  simp only [prepareMaterialization, bind_eq_ok, ensure_eq_ok, exists_const, require_eq_ok,
    Except.ok.injEq] at h
  obtain ⟨output, houtput, record, hrecord, markdown, hmarkdown, parsed?, hparsed, parsed, hsome,
    rfl, rfl⟩ := h
  simp only [attestedRecord, repositoryMaterializationCandidateToOkfRecord, bind_eq_ok, ensure_eq_ok,
    exists_const, Except.ok.injEq] at hrecord
  obtain ⟨_, ⟨_, -, rfl⟩, _, -, ⟨hpath, hid, -⟩, revision, -, hrevision, _, -, rfl⟩ := hrecord
  subst hrevision hsome
  have hchecked := hmarkdown
  simp only [renderOkfRecordMarkdown, bind_eq_ok, Except.ok.injEq] at hchecked
  obtain ⟨_, hattested, -⟩ := hchecked
  have hrevision := revision_of_validateRecordMaterialization
    (.direct (materializationMetadata call.plan call.decision output
      output.intendedSemanticRevision)) rfl hattested
  exact {
    agree := documentsAgree_of_checkDocuments houtput
    record := rfl
    path := rfl
    outputPath := hpath
    outputRecord := hid
    rendered := hmarkdown
    parsed := hparsed
    revision := hrevision }

/-- A request is prepared when its record is attested, and read from the text that is written. -/
theorem prepare_of_parsed {call : MaterializationCall} {output : MaterializationOutputIntent}
    {record : OkfRecordFile}
    (houtput : checkDocuments call.plan call.decision call.candidate = .ok output)
    (hrecord : attestedRecord call.plan call.decision call.candidate output = .ok record)
    (hvalid : validateRecordMaterialization record = .ok ())
    (hparsed : parseRecordText (record.conceptId ++ ".md") (recordText record) = .ok (some record)) :
    prepareMaterialization call.plan call.decision call.candidate =
      .ok ⟨record, String.ofList (recordText record), record.conceptId ++ ".md", output⟩ := by
  have hrendered : renderOkfRecordMarkdown record = .ok (String.ofList (recordText record)) := by
    rw [renderOkfRecordMarkdown, hvalid, ok_bind]
  rw [prepareMaterialization, houtput, ok_bind, hrecord, ok_bind, hrendered, ok_bind]
  dsimp only
  rw [parse_of_render hrendered, hparsed, ok_bind, require_some, ok_bind, ensure_of rfl, ok_bind]

end Prepare

/-! ### The existing file -/

section Existing

variable [Yaml] [MaterializationDigests]

/-- The revision of the record file under a path. -/
def revisionOf (files : RecordFiles) (recordId : String) : Option CanonicalRevision :=
  match readExistingCanonicalRecord files (recordId ++ ".md") recordId with
  | .ok (some existing) => some existing.semanticRevision
  | _ => none

variable [CaptureDocuments]

/-- A prepared file, where it is installed, is read as its record. -/
theorem readExisting_of_prepares {call : MaterializationCall} {p : PreparedMaterialization}
    (hp : Prepares call p) {files : RecordFiles}
    (h : files.get? p.path = some ⟨p.path, p.markdown.toByteArray⟩) :
    readExistingCanonicalRecord files p.path p.record.conceptId =
      .ok (some ⟨p.markdown.toByteArray, p.output.intendedSemanticRevision⟩) := by
  rw [readExistingCanonicalRecord, h]
  simp only [readCanonicalRecord, fromUTF8?_toByteArray, require_some, ok_bind, hp.parsed,
    ensure_of, hp.revision]

theorem revisionOf_of_prepares {call : MaterializationCall} {p : PreparedMaterialization}
    (hp : Prepares call p) {files : RecordFiles}
    (h : files.get? p.path = some ⟨p.path, p.markdown.toByteArray⟩) :
    revisionOf files p.output.recordId = some p.output.intendedSemanticRevision := by
  rw [revisionOf, hp.outputRecord, ← hp.path, readExisting_of_prepares hp h]

omit [CaptureDocuments] in
/-- What is read of the file under a path has the bytes of the file. -/
theorem bytes_of_readExisting {files : RecordFiles} {path recordId : String}
    {existing : Option ExistingCanonicalRecord}
    (h : readExistingCanonicalRecord files path recordId = .ok existing) :
    (files.get? path).map RecordBlob.bytes = existing.map ExistingCanonicalRecord.bytes := by
  rw [readExistingCanonicalRecord] at h
  split at h
  · next hnone =>
      cases h
      rw [hnone]
      rfl
  · next blob hblob =>
      simp only [readCanonicalRecord, bind_eq_ok, Except.ok.injEq] at h
      obtain ⟨_, ⟨_, -, _, -, _, -, _, -, _, -, rfl⟩, rfl⟩ := h
      rw [hblob]
      rfl

omit [Yaml] [MaterializationDigests] [CaptureDocuments] in
/-- A file that was found to have the prepared bytes. -/
theorem get?_of_found {files : RecordFiles} {path : String} {bytes : ByteArray}
    {existing : Option ExistingCanonicalRecord}
    (hread : (files.get? path).map RecordBlob.bytes = existing.map ExistingCanonicalRecord.bytes)
    (hfound : existing.any (·.bytes = bytes) = true) : files.get? path = some ⟨path, bytes⟩ := by
  obtain ⟨record, rfl, hbytes⟩ := (Option.any_eq_true _ _).1 hfound
  obtain ⟨blob, hblob, hsame⟩ := Option.map_eq_some_iff.1 hread
  obtain ⟨path', bytes'⟩ := blob
  cases Table.key_of_get? hblob
  cases hsame
  cases of_decide_eq_true hbytes
  exact hblob

omit [Yaml] [MaterializationDigests] [CaptureDocuments] in
/-- A creation needs that there is no file. -/
theorem checkAction_create {output : MaterializationOutputIntent}
    {existing : Option ExistingCanonicalRecord} (h : output.action = .create) :
    checkAction output existing = .ok () ↔ existing = none := by
  rw [checkAction, h]
  dsimp only
  rw [ensure_eq_ok, Option.isNone_iff_eq_none]

omit [Yaml] [MaterializationDigests] [CaptureDocuments] in
/-- An update needs a file at the revision it expects. -/
theorem checkAction_update {output : MaterializationOutputIntent}
    {existing : Option ExistingCanonicalRecord} (h : output.action = .update) :
    checkAction output existing = .ok () ↔
      ∃ record, existing = some record ∧
        output.expectedPriorRevision = .revision record.semanticRevision := by
  rw [checkAction, h]
  dsimp only
  cases existing with
  | none =>
      rw [require_none, bail_bind]
      simp
  | some record =>
      rw [require_some, ok_bind]
      cases output.expectedPriorRevision with
      | absent => simp
      | revision expected =>
          dsimp only
          rw [ensure_eq_ok]
          simp [eq_comm]

omit [Yaml] [MaterializationDigests] [CaptureDocuments] in
theorem get?_installFile (files : RecordFiles) (path : String) (bytes : ByteArray) (k : String) :
    (installFile files path bytes).get? k = if path = k then some ⟨path, bytes⟩ else files.get? k := by
  rw [installFile]
  split
  · next hsome =>
      obtain ⟨old, hold⟩ := Option.isSome_iff_exists.1 hsome
      rw [Table.get?_set]
      split
      · next hk =>
          subst hk
          rw [hold]
          rfl
      · rfl
  · exact Table.get?_upsert files ⟨path, bytes⟩ k

omit [Yaml] [MaterializationDigests] [CaptureDocuments] in
/-- A file that is put back leaves the files as they were. -/
theorem rollbackFile_installFile {files : RecordFiles} {path : String} {bytes : ByteArray}
    {existing : Option ByteArray}
    (h : (files.get? path).map RecordBlob.bytes = existing) :
    rollbackFile (installFile files path bytes) path existing = files := by
  cases hget : files.get? path with
  | none =>
      rw [hget] at h
      subst h
      rw [installFile, hget]
      exact Table.erase_upsert (r := (⟨path, bytes⟩ : RecordBlob)) hget
  | some old =>
      rw [hget] at h
      subst h
      have hpath : old.path = path := Table.key_of_get? hget
      rw [installFile, hget]
      subst hpath
      have hkey : (⟨old.path, bytes⟩ : RecordBlob).path = old.path := rfl
      exact Table.set_set hget hkey

end Existing

/-! ### What a call can do -/

section Call

variable [MaterializationDigests] [CaptureDocuments] [Yaml]

/-- The answer of a call on a prepared file. -/
def PreparedMaterialization.result (p : PreparedMaterialization) (decisionId : String)
    (outcome : MaterializationOutputOutcome) : RepositoryMaterializationResult :=
  ⟨repositoryMaterializationResultSchema, decisionId,
    [⟨p.output.path, p.output.recordId, p.output.action, p.output.intendedSemanticRevision,
      p.output.role, outcome⟩]⟩

/-- The answer of a prepared call passes its own checks. -/
theorem materializationResult_of_prepares {call : MaterializationCall} {p : PreparedMaterialization}
    (hp : Prepares call p) (outcome : MaterializationOutputOutcome) :
    materializationResult p call.decision.decisionId outcome =
      .ok (p.result call.decision.decisionId outcome) := by
  have hplan := hp.agree.planValid
  have hdecision := hp.agree.decisionValid
  simp only [RepositoryMaterializationPlan.validate, validatePlanPayload, hp.agree.oneOutput,
    check_bind_eq_ok, checkAll_eq_ok, List.mem_singleton, forall_eq] at hplan
  simp only [RepositoryMaterializationDecision.validate, check_bind_eq_ok] at hdecision
  obtain ⟨⟨-, -, -, -, houtput⟩, -⟩ := hplan
  obtain ⟨-, hid, -⟩ := hdecision
  simp only [MaterializationOutputIntent.validate, check_bind_eq_ok] at houtput
  obtain ⟨hpath, hrecord, -, hrevision⟩ := houtput
  have hvalid : (p.result call.decision.decisionId outcome).validate = .ok () := by
    simp only [RepositoryMaterializationResult.validate, PreparedMaterialization.result,
      validateSchema, validateUniquePaths, MaterializationOutputResult.validate, ensure_eq_ok,
      check_bind_eq_ok, checkAll_eq_ok, List.mem_singleton, forall_eq, hid, hpath, hrecord,
      hrevision]
    simp
  rw [materializationResult]
  exact bind_eq_ok.2 ⟨(), hvalid, rfl⟩

variable [Digests] [RepositoryChecks]

/-- What a call can do: fail and change nothing, find its file, or write it where the action allows
it. -/
inductive CallOutcome (s : RepositoryState) (call : MaterializationCall) :
    RepositoryState → Fallible RepositoryMaterializationResult → Prop
  | failed (error : Failure) : CallOutcome s call s (.error error)
  | alreadyCurrent {p : PreparedMaterialization} (prepared : Prepares call p)
      (file : s.files.get? p.path = some ⟨p.path, p.markdown.toByteArray⟩)
      (current : ensureRepositoryIndexCurrent s.files s.index.toContents = .ok ()) :
      CallOutcome s call s (.ok (p.result call.decision.decisionId .alreadyCurrent))
  | written {p : PreparedMaterialization} {existing : Option ExistingCanonicalRecord} {tx : Db}
      (prepared : Prepares call p)
      (read : readExistingCanonicalRecord s.files p.path p.record.conceptId = .ok existing)
      (admitted : checkAction p.output existing = .ok ())
      (current : ensureRepositoryIndexCurrent
        (installFile s.files p.path p.markdown.toByteArray) tx.toContents = .ok ()) :
      CallOutcome s call ⟨installFile s.files p.path p.markdown.toByteArray, tx⟩
        (.ok (p.result call.decision.decisionId .written))

section Write

variable [Entropy]

theorem writeMaterialization_outcome {s : RepositoryState} {call : MaterializationCall}
    {p : PreparedMaterialization} {existing : Option ExistingCanonicalRecord}
    (hp : Prepares call p)
    (hread : readExistingCanonicalRecord s.files p.path p.record.conceptId = .ok existing)
    (haction : checkAction p.output existing = .ok ()) :
    CallOutcome s call (writeMaterialization s call p existing).1
      (writeMaterialization s call p existing).2 := by
  rw [writeMaterialization]
  split
  · exact .failed _
  · exact .failed _
  · next tx _ _ =>
      dsimp only
      split
      · next error _ =>
          rw [rollbackFile_installFile (bytes_of_readExisting hread)]
          exact .failed error
      · next hfinal =>
          rw [finalizeMaterialization, check_bind_eq_ok] at hfinal
          rw [materializationResult_of_prepares hp]
          exact .written hp hread haction hfinal.1

end Write

variable [MaterializationAuthority]

/-- What is known once a call has decided. -/
structure Decides (s : RepositoryState) (call : MaterializationCall) (p : PreparedMaterialization)
    (existing : Option ExistingCanonicalRecord) (found : Bool) : Prop where
  prepared : prepareMaterialization call.plan call.decision call.candidate = .ok p
  current : ensureRepositoryIndexCurrent s.files s.index.toContents = .ok ()
  path : MaterializationAuthority.verifyProjectionPath p.path = .ok ()
  read : readExistingCanonicalRecord s.files p.path p.record.conceptId = .ok existing
  visible : ensureReviewVisible p.path = .ok ()
  found_iff : found = existing.any (·.bytes = p.markdown.toByteArray)
  admitted : found = false → checkAction p.output existing = .ok ()

theorem decides_of_decideMaterialization {s : RepositoryState} {call : MaterializationCall}
    {p : PreparedMaterialization} {existing : Option ExistingCanonicalRecord} {found : Bool}
    (h : decideMaterialization s call = .ok (p, existing, found)) :
    Decides s call p existing found := by
  simp only [decideMaterialization, bind_eq_ok] at h
  obtain ⟨p', hprepare, _, hcurrent, _, hpath, existing', hread, _, hvisible, h⟩ := h
  split at h
  · next hfound =>
      cases h
      exact ⟨hprepare, hcurrent, hpath, hread, hvisible, hfound.symm, fun hnot => Bool.noConfusion hnot⟩
  · next hnew =>
      simp only [bind_eq_ok] at h
      obtain ⟨_, hadmitted, _, -, h⟩ := h
      cases h
      exact ⟨hprepare, hcurrent, hpath, hread, hvisible, (Bool.eq_false_iff.2 hnew).symm,
        fun _ => hadmitted⟩

/-- A call on its own file says so. -/
theorem decideMaterialization_of_found {s : RepositoryState} {call : MaterializationCall}
    {p : PreparedMaterialization} {existing : Option ExistingCanonicalRecord}
    (h : Decides s call p existing true) :
    decideMaterialization s call = .ok (p, existing, true) := by
  rw [decideMaterialization, h.prepared, ok_bind, h.current, ok_bind, h.path, ok_bind, h.read,
    ok_bind, h.visible, ok_bind, if_pos h.found_iff.symm]

variable [Entropy]

/-- **What one call does.** -/
theorem applyRepositoryMaterialization_outcome (s : RepositoryState) (call : MaterializationCall) :
    CallOutcome s call (applyRepositoryMaterialization s call).1
      (applyRepositoryMaterialization s call).2 := by
  rw [applyRepositoryMaterialization]
  cases hdecide : decideMaterialization s call with
  | error error => exact .failed error
  | ok decided =>
      obtain ⟨p, existing, found⟩ := decided
      have hdecides := decides_of_decideMaterialization hdecide
      have hp := prepares_of_prepareMaterialization hdecides.prepared
      cases found with
      | false =>
          exact writeMaterialization_outcome hp hdecides.read (hdecides.admitted rfl)
      | true =>
          have hbytes := bytes_of_readExisting hdecides.read
          have hfound := hdecides.found_iff.symm
          dsimp only
          rw [materializationResult_of_prepares hp]
          exact .alreadyCurrent hp (get?_of_found hbytes hfound) hdecides.current

end Call
end Memzoi
