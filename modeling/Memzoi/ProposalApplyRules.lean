/-
# What an applied proposal leaves of its target

Source: `service/proposal_packets/validation.rs` (`build_file_proposal_apply_plan`),
`okf.rs` (`project_okf_record`, `render_memory_record`).

A target is projected to a row and rendered. The row has no content class and no
attestation, and its texts go through YAML once more. So what is read again is
the target with its new status and time exactly when its class is that of
general knowledge, it has no attestation, and its texts are kept.
-/

import Memzoi.OkfRecordRules
import Memzoi.ProposalApply
import Memzoi.MaterializationRules
import Memzoi.RetentionRules
import Mathlib

namespace Memzoi
namespace Okf

open Fallible Rfc3339 Retention
open PrivateLifecycle (Digests)
open Text (Unicode)

/-! ### Written instants -/

theorem digitChar_bounds : ∀ n < 10, 0x30 ≤ (digitChar n).toNat ∧ (digitChar n).toNat ≤ 0x39 := by
  decide

theorem digits_bounds {k n : Nat} : ∀ c ∈ digits k n, 0x30 ≤ c.toNat ∧ c.toNat ≤ 0x39 := by
  induction k with
  | zero => exact fun c hc => absurd hc List.not_mem_nil
  | succ k ih =>
      rw [digits, List.forall_mem_cons]
      exact ⟨digitChar_bounds _ (Nat.mod_lt _ (by omega)), ih⟩

theorem fractionDigits_bounds {k n : Nat} :
    ∀ c ∈ fractionDigits k n, 0x30 ≤ c.toNat ∧ c.toNat ≤ 0x39 := by
  induction k generalizing n with
  | zero =>
      cases n with
      | zero => exact fun c hc => absurd hc List.not_mem_nil
      | succ n => exact fun c hc => absurd hc List.not_mem_nil
  | succ k ih =>
      cases n with
      | zero => exact fun c hc => absurd hc List.not_mem_nil
      | succ n =>
          rw [fractionDigits, List.forall_mem_cons]
          exact ⟨digitChar_bounds _ (Nat.mod_lt _ (by omega)), ih⟩

theorem dateChars_all (date : Calendar.CivilDate) :
    (dateChars date).length = 10 ∧ (dateChars date).all (fun c => c.isDigit || c = '-') = true := by
  have hdigit : ∀ n < 10, (digitChar n).isDigit = true := by decide
  have hdigits : ∀ k n, (digits k n).length = k ∧ (digits k n).all Char.isDigit = true := by
    intro k n
    induction k with
    | zero => exact ⟨rfl, rfl⟩
    | succ k ih =>
        rw [digits, List.length_cons, List.all_cons, hdigit _ (Nat.mod_lt _ (by omega)), ih.1, ih.2]
        exact ⟨rfl, rfl⟩
  have hwide : ∀ {cs : List Char}, cs.all Char.isDigit = true →
      cs.all (fun c => c.isDigit || c = '-') = true := by
    intro cs h
    rw [List.all_eq_true] at h ⊢
    exact fun c hc => by rw [h c hc, Bool.true_or]
  unfold dateChars
  constructor
  · simp [(hdigits 4 date.year.toNat).1, (hdigits 2 date.month.toNat).1,
      (hdigits 2 date.day.toNat).1]
  · rw [List.all_append, List.all_cons, List.all_append, List.all_cons,
      hwide (hdigits 4 date.year.toNat).2, hwide (hdigits 2 date.month.toNat).2,
      hwide (hdigits 2 date.day.toNat).2]
    decide

theorem formatChars_bounds (date : Calendar.CivilDate) (nanoOfDay : Nat) :
    ∀ c ∈ formatChars date nanoOfDay 0, 0x2D ≤ c.toNat ∧ c.toNat ≤ 0x7A := by
  have hwide : ∀ {c : Char}, 0x30 ≤ c.toNat ∧ c.toNat ≤ 0x39 → 0x2D ≤ c.toNat ∧ c.toNat ≤ 0x7A := by
    intro c h
    omega
  have hdigits : ∀ k n, ∀ c ∈ digits k n, 0x2D ≤ c.toNat ∧ c.toNat ≤ 0x7A :=
    fun k n c hc => hwide (digits_bounds c hc)
  have hsubsecond : ∀ n, ∀ c ∈ subsecondChars n, 0x2D ≤ c.toNat ∧ c.toNat ≤ 0x7A := by
    intro n
    unfold subsecondChars
    split
    · exact fun c hc => absurd hc List.not_mem_nil
    · rw [List.forall_mem_cons]
      exact ⟨by decide, fun c hc => hwide (fractionDigits_bounds c hc)⟩
  unfold formatChars dateChars timeChars offsetChars
  simp only [List.forall_mem_append, List.forall_mem_cons, if_true]
  and_intros
  all_goals first
    | exact hdigits _ _
    | exact hsubsecond _
    | exact fun c hc => absurd hc List.not_mem_nil
    | decide

theorem length_le_utf8ByteSize (cs : List Char) : cs.length ≤ (String.ofList cs).utf8ByteSize := by
  have hbytes : cs.length ≤ cs.utf8Encode.size := by
    induction cs with
    | nil => exact Nat.zero_le _
    | cons c cs ih =>
        have hsize : [c].utf8Encode.size = c.utf8Size := by
          rw [List.utf8Encode_singleton, List.size_toByteArray, String.length_utf8EncodeChar]
        have hpos := c.utf8Size_pos
        rw [List.utf8Encode_cons, ByteArray.size_append, hsize, List.length_cons]
        omega
  exact hbytes

/-- The time a proposal is resolved at is a text the reader takes as it is. -/
theorem resolvedAt_read {now : OffsetDateTime} {text : String} (h : formatTimestamp now = .ok text) :
    Clean text ∧ ensureTimestampish text "updated" = .ok () ∧ KeptField text.toList := by
  have hformat := format_of_formatTimestamp h
  have htrim := trim_format hformat
  unfold format at hformat
  split at hformat
  · cases hformat
    generalize (⟨now.utc, 0⟩ : OffsetDateTime).civil = date at *
    generalize (⟨now.utc, 0⟩ : OffsetDateTime).nanoOfDay.toNat = nanos at *
    obtain ⟨hlength, hall⟩ := dateChars_all date
    have hten : 10 ≤ (formatChars date nanos 0).length := by
      rw [formatChars, List.length_append, hlength]
      omega
    have hchars : (String.ofList (formatChars date nanos 0)).toList = formatChars date nanos 0 :=
      String.toList_ofList
    refine ⟨⟨htrim, ?_⟩, ?_, ?_⟩
    · intro hempty
      rw [hempty] at hchars
      rw [← hchars] at hten
      simp at hten
    · refine ensure_of ⟨hten.trans (length_le_utf8ByteSize _), ?_⟩
      rw [hchars, formatChars, List.take_append_of_le_length hlength.ge, ← hlength, List.take_length]
      exact hall
    · have hshort : ∀ word ∈ [ '-'] :: nullWords, word.length < 10 := by decide
      have hnot : formatChars date nanos 0 ∉ [ '-'] :: nullWords := fun hmem =>
        absurd (hshort _ hmem) (by omega)
      rw [hchars]
      exact ⟨keptText_of_bounds (formatChars_bounds date nanos) (List.ne_of_not_mem_cons hnot),
        List.not_mem_of_not_mem_cons hnot⟩
  · cases hformat

/-! ### The target, written -/

/-- The record a written target is read as, when its texts are kept. -/
def rewrittenTarget (target : OkfRecordFile) (status : MemoryStatus) (resolvedAt : String) :
    OkfRecordFile :=
  { target with
    draft := { target.draft with contentClass := .generalRepoKnowledge }
    status := status
    updated := some resolvedAt
    materialization := none }

theorem renderMemoryRecord_target [Yaml] [Digests] (target : OkfRecordFile) (status : MemoryStatus)
    (resolvedAt : String) :
    renderMemoryRecord { projectOkfRecord target with status := status, updatedAt := resolvedAt }
        target.draft.tags target.appliesTo =
      recordText (rewrittenTarget target status resolvedAt) := by
  have hentries : memoryRecordEntries
      { projectOkfRecord target with status := status, updatedAt := resolvedAt }
      target.draft.tags target.appliesTo =
        frontmatterEntries (rewrittenTarget target status resolvedAt) := by
    unfold memoryRecordEntries frontmatterEntries
    simp only [rewrittenTarget, projectOkfRecord, scalarIfSome, Option.map_some, Option.toList_some,
      Option.map_none, Option.toList_none, List.append_nil, List.cons_append, List.nil_append,
      List.append_assoc]
  unfold renderMemoryRecord recordText
  rw [hentries]
  rfl

/-- The texts of a record that a rewrite puts through YAML again. -/
structure KeptTexts (r : OkfRecordFile) : Prop where
  title : KeptField r.draft.title.toList
  created : KeptField r.created.toList
  scopeId : ∀ s ∈ r.draft.scopeId, KeptField s.toList
  source : ∀ s ∈ r.draft.sourceKind, KeptField s.toList
  sourceRef : ∀ s ∈ r.draft.sourceRef, KeptField s.toList
  proposalId : ∀ s ∈ r.proposalId, KeptField s.toList
  tags : ∀ s ∈ r.draft.tags, KeptText s.toList
  appliesTo : ∀ s ∈ r.appliesTo, KeptText s.toList
  supersedes : ∀ s ∈ r.supersedesId, KeptField s.toList

section Rewrite

variable {target q : OkfRecordFile} {status : MemoryStatus} {resolvedAt : String}

/-- A target with a new status and time is in the form reading leaves. -/
theorem normal_rewritten (h : NormalRecord target) (hclean : Clean resolvedAt)
    (htimestamp : ensureTimestampish resolvedAt "updated" = .ok ()) :
    NormalRecord (rewrittenTarget target status resolvedAt) :=
  { h with
    updated := fun _ hs => Option.some.inj hs ▸ hclean
    updatedTimestamp := htimestamp }

/-- Once a rewritten target is read at all, it is read as it was written exactly when its texts are
kept: the path, the heading and the description were readable. -/
theorem read_rewritten_iff (h : NormalRecord target) (hclean : Clean resolvedAt)
    (htimestamp : ensureTimestampish resolvedAt "updated" = .ok ())
    (hkept : KeptField resolvedAt.toList) {f : OkfFrontmatter}
    (hback : readBack (rewrittenTarget target status resolvedAt) = some f)
    (hread : RecordReadAs target.conceptId f
      (recordBody (rewrittenTarget target status resolvedAt)) q) :
    q = rewrittenTarget target status resolvedAt ↔ KeptTexts target := by
  have hnormal : NormalRecord (rewrittenTarget target status resolvedAt) :=
    normal_rewritten h hclean htimestamp
  constructor
  · intro hsame
    rw [hsame] at hread
    have hrecord := (readBack_iff hnormal).1 ⟨f, hback, hread⟩
    exact ⟨hrecord.title, hrecord.created, hrecord.scopeId, hrecord.source, hrecord.sourceRef,
      hrecord.proposalId, hrecord.tags, hrecord.appliesTo, hrecord.supersedes⟩
  · intro htexts
    obtain ⟨tags, appliesTo, hfound⟩ := found_of_readBack hback
    obtain ⟨hkind, hprofile⟩ := hfound.named
    have hidentity := hread.identity
    rw [hkind, hprofile] at hidentity
    have htitle : q.draft.title = target.draft.title := by
      obtain ⟨found, hfoundTitle, hrequired⟩ : ∃ found, readField target.draft.title = some found ∧
          requiredString found "title" = .ok target.draft.title :=
        (requiredString_read_iff h.title).2 htexts.title
      have hsame : f.title = found := Option.some.inj (hfound.title.symm.trans hfoundTitle)
      exact Except.ok.inj (hread.title.symm.trans (hsame ▸ hrequired))
    have hheading : '\n' ∉ target.draft.title.toList :=
      oneLine_of_heading h.title.trimChars (htitle ▸ hread.body)
    have hrecord : KeptRecord (rewrittenTarget target status resolvedAt) := {
      path := (identity_read_iff hnormal.concept).1 ⟨_, hfound.id, hidentity⟩
      heading := hheading
      title := htexts.title
      description := hfound.description
      created := htexts.created
      updated := fun _ hs => Option.some.inj hs ▸ hkept
      scopeId := htexts.scopeId
      source := htexts.source
      sourceRef := htexts.sourceRef
      proposalId := htexts.proposalId
      tags := htexts.tags
      appliesTo := htexts.appliesTo
      supersedes := htexts.supersedes }
    obtain ⟨f', hback', hread'⟩ := (readBack_iff hnormal).2 hrecord
    cases hback.symm.trans hback'
    exact Except.ok.inj ((read_of_recordReadAs hread).symm.trans (read_of_recordReadAs hread'))

variable [Yaml] [MaterializationDigests] {path : String}

/-- **A rewritten target keeps the record exactly when** its class is that of general knowledge, it
has no attestation, and its texts are kept; the attestation apart, when the class and the texts are. -/
theorem rewritten_target_iff (hnormal : NormalRecord target) (hclean : Clean resolvedAt)
    (htimestamp : ensureTimestampish resolvedAt "updated" = .ok ())
    (hkept : KeptField resolvedAt.toList) (hreserved : isReservedRecordFile path = false)
    (hconcept : conceptId path = .ok target.conceptId)
    (hyaml : YamlReads (rewrittenTarget target status resolvedAt))
    (hread : parseRecordText path (recordText (rewrittenTarget target status resolvedAt)) =
      .ok (some q)) :
    (q = { target with status := status, updated := some resolvedAt, materialization := none } ↔
        target.draft.contentClass = .generalRepoKnowledge ∧ KeptTexts target) ∧
      (q = { target with status := status, updated := some resolvedAt } ↔
        target.materialization = none ∧ target.draft.contentClass = .generalRepoKnowledge ∧
          KeptTexts target) := by
  have hconcept : conceptId path = .ok (rewrittenTarget target status resolvedAt).conceptId :=
    hconcept
  obtain ⟨f, hback, hfields⟩ := (parse_recordText_iff hreserved hconcept hyaml rfl).1 hread
  obtain ⟨_, _, hfound⟩ := found_of_readBack hback
  have hrewritten := read_rewritten_iff hnormal hclean htimestamp hkept hback hfields
  have hclass : q.draft.contentClass = .generalRepoKnowledge := by
    have hparsed := hfields.contentClass
    rw [hfound.contentClass] at hparsed
    exact (Except.ok.inj ((parseContentClass_asStr _ _).symm.trans hparsed)).symm
  have hnone : q.materialization = none :=
    hfields.kept.2.2.2.2.2.2.trans hfound.materialization
  have hfirst : q = { target with
      status := status, updated := some resolvedAt, materialization := none } ↔
        target.draft.contentClass = .generalRepoKnowledge ∧ KeptTexts target := by
    rw [← hrewritten]
    constructor
    · intro hsame
      have hgeneral : target.draft.contentClass = .generalRepoKnowledge := by
        rw [hsame] at hclass
        exact hclass
      refine ⟨hgeneral, ?_⟩
      rw [hsame, rewrittenTarget, ← hgeneral]
    · rintro ⟨hgeneral, hsame⟩
      rw [hsame, rewrittenTarget, ← hgeneral]
  refine ⟨hfirst, ?_⟩
  constructor
  · intro hsame
    have hplain : target.materialization = none := by
      rw [hsame] at hnone
      exact hnone
    refine ⟨hplain, hfirst.1 ?_⟩
    rw [hsame, ← hplain]
  · rintro ⟨hplain, hrest⟩
    rw [hfirst.2 hrest, ← hplain]

end Rewrite

/-! ### The plan of a rewrite -/

/-- The status an action leaves its target in. -/
def lifecycleStatus : OkfProposalAction → Option MemoryStatus
  | .create => none
  | .supersede => some .superseded
  | .tombstone => some .tombstoned

section Plan

variable [Yaml] [MaterializationDigests] [Digests] [Unicode] [ApplyEnvironment] {files : RecordFiles}
  {proposal : OkfProposalFile} {resolvedAt : String} {plan : FileProposalApplyPlan}

omit [Digests] [Unicode] in
/-- What is written was rendered, and read again. -/
theorem prepared_write {record : ProjectedRecord} {tags appliesTo : List String}
    {mode : FileWriteMode} {write : CanonicalFileWrite}
    (h : prepareCanonicalFileWrite files record tags appliesTo mode = .ok write) :
    write.path = record.id ++ ".md" ∧
      write.markdown = String.ofList (renderMemoryRecord record tags appliesTo) ∧
      parseOkfRecordMarkdown write.path write.markdown = .ok (some write.recordFile) := by
  obtain ⟨_, h⟩ := check_bind_eq_ok.1 h
  obtain ⟨hash, _, h⟩ := bind_eq_ok.1 h
  obtain ⟨parsed, hparsed, h⟩ := bind_eq_ok.1 h
  obtain ⟨recordFile, hrecord, h⟩ := bind_eq_ok.1 h
  rw [← Except.ok.inj h]
  rw [require_eq_ok.1 hrecord] at hparsed
  exact ⟨rfl, rfl, hparsed⟩

omit [Digests] [Unicode] in
/-- A target is the record of a file. -/
theorem loaded_target {targetId evaluatedAt : String} {target : OkfRecordFile}
    (h : loadFileProposalTarget files proposal targetId evaluatedAt = .ok target) :
    target.conceptId = targetId ∧ ∃ blob ∈ files.rows, ∃ text,
      String.fromUTF8? blob.bytes = some text ∧
        parseOkfRecordMarkdown blob.path text = .ok (some target) := by
  obtain ⟨_, h⟩ := check_bind_eq_ok.1 h
  obtain ⟨snapshots, hsnapshots, h⟩ := bind_eq_ok.1 h
  obtain ⟨found, hfound, h⟩ := bind_eq_ok.1 h
  obtain ⟨_, _, h⟩ := bind_eq_ok.1 h
  obtain ⟨_, _, h⟩ := bind_eq_ok.1 h
  obtain ⟨_, h⟩ := check_bind_eq_ok.1 h
  obtain ⟨_, h⟩ := check_bind_eq_ok.1 h
  obtain ⟨_, _, h⟩ := bind_eq_ok.1 h
  obtain ⟨_, _, h⟩ := bind_eq_ok.1 h
  obtain ⟨_, h⟩ := check_bind_eq_ok.1 h
  rw [Except.ok.inj h] at hfound
  have hfind := require_eq_ok.1 hfound
  refine ⟨by simpa using List.find?_some hfind, ?_⟩
  obtain ⟨snapshot, hsnapshot, hrecord⟩ := List.mem_map.1 (List.mem_of_find?_eq_some hfind)
  obtain ⟨read, hread, hsorted⟩ := bind_eq_ok.1 hsnapshots
  rw [← Except.ok.inj hsorted, List.mem_mergeSort, List.reduceOption_mem_iff] at hsnapshot
  obtain ⟨blob, hblob, hsome⟩ := (mem_of_mapAll hread _).1 hsnapshot
  rw [List.mem_mergeSort] at hblob
  unfold readRecordSnapshot at hsome
  split at hsome
  · cases hsome
  · obtain ⟨text, htext, hsome⟩ := bind_eq_ok.1 hsome
    obtain ⟨parsed, hparsed, hsome⟩ := bind_eq_ok.1 hsome
    obtain ⟨record, hrecordSome, hsame⟩ := Option.map_eq_some_iff.1 (Except.ok.inj hsome)
    have htarget : record = target := by rw [← hrecord, ← hsame]
    rw [hrecordSome, htarget] at hparsed
    exact ⟨blob, hblob, text, require_eq_ok.1 htext, hparsed⟩

/-- A plan with a target rewrites it. -/
theorem target_of_plan (hplan : buildFileProposalApplyPlan files proposal resolvedAt = .ok plan)
    {targetId : String} (htarget : plan.targetId = some targetId) :
    ∃ status target, ∃ write ∈ plan.writes,
      lifecycleStatus proposal.proposal.action = some status ∧
        loadFileProposalTarget files proposal targetId resolvedAt = .ok target ∧
        prepareTargetWrite files target status resolvedAt = .ok write := by
  obtain ⟨_, hplan⟩ := check_bind_eq_ok.1 hplan
  cases haction : proposal.proposal.action with
  | create =>
      rw [haction] at hplan
      obtain ⟨_, hplan⟩ := check_bind_eq_ok.1 hplan
      obtain ⟨_, _, hplan⟩ := bind_eq_ok.1 hplan
      obtain ⟨_, _, hplan⟩ := bind_eq_ok.1 hplan
      rw [← Except.ok.inj hplan] at htarget
      cases htarget
  | supersede =>
      rw [haction] at hplan
      obtain ⟨_, hplan⟩ := check_bind_eq_ok.1 hplan
      obtain ⟨_, hplan⟩ := check_bind_eq_ok.1 hplan
      obtain ⟨target, hload, hplan⟩ := bind_eq_ok.1 hplan
      obtain ⟨_, _, hplan⟩ := bind_eq_ok.1 hplan
      obtain ⟨_, hplan⟩ := check_bind_eq_ok.1 hplan
      obtain ⟨write, hwrite, hplan⟩ := bind_eq_ok.1 hplan
      obtain ⟨_, _, hplan⟩ := bind_eq_ok.1 hplan
      rw [← Except.ok.inj hplan] at htarget ⊢
      rw [Option.some.inj htarget] at hload
      exact ⟨.superseded, target, write, List.mem_cons_self, rfl, hload, hwrite⟩
  | tombstone =>
      rw [haction] at hplan
      obtain ⟨_, hplan⟩ := check_bind_eq_ok.1 hplan
      obtain ⟨_, hplan⟩ := check_bind_eq_ok.1 hplan
      obtain ⟨_, _, hplan⟩ := bind_eq_ok.1 hplan
      obtain ⟨target, hload, hplan⟩ := bind_eq_ok.1 hplan
      obtain ⟨write, hwrite, hplan⟩ := bind_eq_ok.1 hplan
      rw [← Except.ok.inj hplan] at htarget ⊢
      rw [Option.some.inj htarget] at hload
      exact ⟨.tombstoned, target, write, List.mem_cons_self, rfl, hload, hwrite⟩

/-- A tombstone proposal on the one record there is, step by step. -/
theorem tombstone_planned {text path : String} {target q : OkfRecordFile} {d : CurrentAssertionDecision}
    {evaluatedAt updated proposed : OffsetDateTime}
    (hfiles : files.rows = [⟨path, text.toByteArray⟩])
    (hparse : parseOkfRecordMarkdown path text = .ok (some target))
    (hproposal : validateRepoApplyProposal proposal = .ok () ∧
      proposal.proposal.action = .tombstone ∧ requireActionReason proposal "tombstone" = .ok () ∧
      proposal.supersedes = [] ∧ proposal.proposal.target = some target.conceptId ∧
      target.draft.scopeKind = proposal.scopeKind ∧ target.draft.scopeId = proposal.scopeId)
    (hat : Rfc3339.parse resolvedAt = some evaluatedAt)
    (hcurrent : evaluateCurrentAssertion target.conceptId target.status target.draft.lane
      target.retention evaluatedAt [] = .ok d ∧ d.isCurrent = true)
    (hfresh : parseOrderableTimestamp (target.updated.getD target.created) "target updated" =
        .ok updated ∧
      parseOrderableTimestamp proposal.proposal.proposedAt "proposal.proposed_at" = .ok proposed ∧
      updated.utc ≤ proposed.utc)
    (hsafe : ApplyEnvironment.recordsAreSafe = true ∧ ∀ path, ApplyEnvironment.isSafePath path = true)
    (hread : parseRecordText path (recordText (rewrittenTarget target .tombstoned resolvedAt)) =
      .ok (some q)) :
    ∃ plan, buildFileProposalApplyPlan files proposal resolvedAt = .ok plan ∧
      plan.targetId = some target.conceptId ∧ ∃ write ∈ plan.writes, write.recordFile = q ∧
        parseOkfRecordMarkdown path write.markdown = .ok (some q) := by
  obtain ⟨hvalid, haction, hreason, hsupersedes, htarget, hscope⟩ := hproposal
  obtain ⟨hreserved, hconcept, _⟩ := normal_of_parse hparse
  have hpath := path_of_conceptId hconcept
  have hsnapshots : readOkfRecordSnapshots files =
      .ok [⟨path, text.toByteArray, target⟩] := by
    have hblob : readRecordSnapshot ⟨path, text.toByteArray⟩ =
        .ok (some ⟨path, text.toByteArray, target⟩) := by
      unfold readRecordSnapshot
      rw [if_neg (by rw [hreserved]; decide), fromUTF8?_toByteArray, require_some, ok_bind, hparse]
      rfl
    rw [readOkfRecordSnapshots, hfiles, List.mergeSort_singleton, mapAll, hblob]
    show Except.ok (List.mergeSort (List.reduceOption [some _]) _) = _
    rw [List.reduceOption_singleton, Option.toList_some, List.mergeSort_singleton]
  have hload : loadFileProposalTarget files proposal target.conceptId resolvedAt = .ok target := by
    refine check_bind_eq_ok.2 ⟨ensure_of hsafe.1, bind_eq_ok.2 ⟨_, hsnapshots,
      bind_eq_ok.2 ⟨target, require_eq_ok.2 (by simp), bind_eq_ok.2 ⟨_, require_eq_ok.2 hat,
      bind_eq_ok.2 ⟨_, hcurrent.1, check_bind_eq_ok.2 ⟨ensure_of hcurrent.2,
      check_bind_eq_ok.2 ⟨ensure_of hscope, bind_eq_ok.2 ⟨_, hfresh.1,
      bind_eq_ok.2 ⟨_, hfresh.2.1, check_bind_eq_ok.2 ⟨ensure_of hfresh.2.2, rfl⟩⟩⟩⟩⟩⟩⟩⟩⟩⟩
  have hexisting : captureExisting files (target.conceptId ++ ".md") .overwrite =
      .ok (some (ApplyEnvironment.fileDigest text.toByteArray)) := by
    have hmem : (⟨path, text.toByteArray⟩ : RecordBlob) ∈ files.rows := by simp [hfiles]
    have hget := files.get?_of_mem hmem
    rw [← hpath, captureExisting, hget]
    rfl
  have hprepare : prepareTargetWrite files target .tombstoned resolvedAt =
      .ok ⟨q, target.conceptId ++ ".md",
        String.ofList (renderMemoryRecord
          { projectOkfRecord target with status := .tombstoned, updatedAt := resolvedAt }
          target.draft.tags target.appliesTo), .overwrite,
        some (ApplyEnvironment.fileDigest text.toByteArray)⟩ := by
    refine check_bind_eq_ok.2 ⟨ensure_of (hsafe.2 _), bind_eq_ok.2 ⟨_, hexisting,
      bind_eq_ok.2 ⟨some q, ?_, rfl⟩⟩⟩
    show parseOkfRecordMarkdown (target.conceptId ++ ".md") _ = _
    rw [← hpath, renderMemoryRecord_target, parse_ofList]
    exact hread
  have hplan : planTombstone files proposal resolvedAt = .ok _ :=
    check_bind_eq_ok.2 ⟨hreason, check_bind_eq_ok.2 ⟨ensure_of hsupersedes,
      bind_eq_ok.2 ⟨_, require_eq_ok.2 htarget, bind_eq_ok.2 ⟨_, hload,
      bind_eq_ok.2 ⟨_, hprepare, rfl⟩⟩⟩⟩⟩
  have hbuild : buildFileProposalApplyPlan files proposal resolvedAt =
      planTombstone files proposal resolvedAt := by
    rw [buildFileProposalApplyPlan, hvalid, ok_bind, haction]
  refine ⟨_, hbuild.trans hplan, rfl, _, List.mem_cons_self, rfl, ?_⟩
  rw [renderMemoryRecord_target, parse_ofList]
  exact hread

end Plan

/-! ### A tombstone on the record about retries -/

@[reducible] def ApplyEnvironment.granting : ApplyEnvironment where
  recordsAreSafe := true
  isSafePath _ := true
  fileDigest _ := "digest"
  compactEvidence evidence := evidence

def retryTombstone : OkfProposalFile where
  fileId := "retry-tombstone"
  id := "retry-tombstone"
  kind := some "proposal"
  profile := okfProfile
  memoryType := .decision
  lane := .semantic
  title := "Retry policy"
  description := "Retry twice"
  body := "Retry twice"
  status := .proposed
  proposal := ⟨.tombstone, "reviewer", "2026-07-14T11:00:00Z", some "Retries moved to the proxy", none,
    some "retry-policy"⟩
  scopeKind := .repo
  scopeId := none
  appliesTo := []
  tags := []
  timestamp := "2026-07-14T11:00:00Z"
  createdBy := none
  sources := []
  supersedes := []
  sensitivity := .repoSafe
  contentClass := .generalRepoKnowledge
  resolution := none
  capture := none
  retention := ⟨none, none, none, none, none, none⟩
  origin := ⟨"retry-tombstone", .repositoryProposal⟩
  lineage := none

def retryTarget (contentClass : Maintenance.RepositoryContentClass) : OkfRecordFile :=
  { retryRecord (some "docs") with
    draft := { (retryRecord (some "docs")).draft with contentClass := contentClass } }

def noon : String := "2026-07-14T12:00:00Z"

def noonInstant : OffsetDateTime := ⟨1784030400000000000, 0⟩

/-- The library, on the record of that class before and after it is tombstoned. -/
@[reducible] def targetLibrary (contentClass : Maintenance.RepositoryContentClass) : Yaml :=
  .reading [(@yamlText (.reading []) (retryTarget contentClass), readBack (retryTarget contentClass)),
    (@yamlText (.reading []) (rewrittenTarget (retryTarget contentClass) .tombstoned noon),
      readBack (rewrittenTarget (retryTarget contentClass) .tombstoned noon))]

def targetFiles (text : String) : RecordFiles :=
  ⟨[⟨"retry-policy.md", text.toByteArray⟩], by simp⟩

theorem retry_target_texts : ∀ contentClass ∈ [Maintenance.RepositoryContentClass.generalRepoKnowledge,
      .rawTranscript],
    @parseRecordText (targetLibrary contentClass) .ofAction "retry-policy.md"
        (@recordText (targetLibrary contentClass) (retryTarget contentClass)) =
          .ok (some (retryTarget contentClass)) ∧
      @parseRecordText (targetLibrary contentClass) .ofAction "retry-policy.md"
        (@recordText (targetLibrary contentClass)
          (rewrittenTarget (retryTarget contentClass) .tombstoned noon)) =
          .ok (some (rewrittenTarget (retryTarget contentClass) .tombstoned noon)) ∧
      (@Yaml.frontmatter (targetLibrary contentClass) (@yamlText (targetLibrary contentClass)
        (rewrittenTarget (retryTarget contentClass) .tombstoned noon))).toOption =
          readBack (rewrittenTarget (retryTarget contentClass) .tombstoned noon) := by
  decide +kernel

theorem retry_target_current :
    (evaluateCurrentAssertion "retry-policy" .active .semantic ⟨none, none, none, none, none, none⟩
      noonInstant []).toOption.any (·.isCurrent) = true ∧
    Rfc3339.parse noon = some noonInstant ∧
    formatTimestamp noonInstant = .ok noon ∧
    parseOrderableTimestamp "2026-07-14T10:00:00Z" "target updated" =
      .ok ⟨1784023200000000000, 0⟩ ∧
    parseOrderableTimestamp "2026-07-14T11:00:00Z" "proposal.proposed_at" =
      .ok ⟨1784026800000000000, 0⟩ := by
  decide

theorem retry_target_text {contentClass : Maintenance.RepositoryContentClass}
    (h : contentClass ∈ [Maintenance.RepositoryContentClass.generalRepoKnowledge, .rawTranscript]) :
    ∃ text, @parseOkfRecordMarkdown (targetLibrary contentClass) .ofAction "retry-policy.md" text =
      .ok (some (retryTarget contentClass)) := by
  refine ⟨String.ofList (@recordText (targetLibrary contentClass) (retryTarget contentClass)), ?_⟩
  rw [@parse_ofList (targetLibrary contentClass)]
  exact (retry_target_texts contentClass h).1

/-- The record of either class is tombstoned. -/
theorem retry_target_planned {contentClass : Maintenance.RepositoryContentClass}
    (h : contentClass ∈ [Maintenance.RepositoryContentClass.generalRepoKnowledge, .rawTranscript])
    {text : String} (hparse : @parseOkfRecordMarkdown (targetLibrary contentClass) .ofAction
      "retry-policy.md" text = .ok (some (retryTarget contentClass))) :
    ∃ plan, @buildFileProposalApplyPlan (targetLibrary contentClass) .ofAction
        Digests.ofOperation Unicode.ascii .granting (targetFiles text) retryTombstone noon =
          .ok plan ∧
      plan.targetId = some "retry-policy" ∧ ∃ write ∈ plan.writes,
        write.recordFile = rewrittenTarget (retryTarget contentClass) .tombstoned noon ∧
          @parseOkfRecordMarkdown (targetLibrary contentClass) .ofAction "retry-policy.md"
            write.markdown = .ok (some (rewrittenTarget (retryTarget contentClass) .tombstoned noon)) := by
  obtain ⟨_, hread, _⟩ := retry_target_texts contentClass h
  obtain ⟨hcurrent, hnoon, _, hupdated, hproposed⟩ := retry_target_current
  obtain ⟨d, hd, hiscurrent⟩ := ok_of_any hcurrent
  exact @tombstone_planned (targetLibrary contentClass) .ofAction Digests.ofOperation Unicode.ascii
    .granting _ _ _ _ _ _ _ d _ _ _ rfl hparse
    ⟨by decide, rfl, by decide, rfl, rfl, rfl, rfl⟩ hnoon ⟨hd, hiscurrent⟩
    ⟨hupdated, hproposed, by decide⟩ ⟨rfl, fun _ => rfl⟩ hread

end Okf
end Memzoi
