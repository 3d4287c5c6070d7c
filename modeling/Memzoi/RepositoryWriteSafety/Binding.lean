/-
# A write authorization is bound to its request

Source: `repository_write_safety/projection.rs`,
`repository_write_safety/policy.rs` (`stable_bytes`) and
`repository_write_safety/mod.rs` (`authorizes`).

Every part that is hashed is self-delimiting, so a digest names its parts in
order. The one exception is the text of a capture review: its plan id and its
review id are joined by a colon, and a colon inside an id makes two pairs spell
one text (`SplitsDiffer`).
-/

import Memzoi.RepositoryWriteSafety.Policy
import Mathlib

namespace Memzoi
namespace RepositoryWriteSafety

open Fallible PrefixCode
open Maintenance (OkfProposalSensitivity RepositoryContentClass)
open Okf (sensitivityAsStr)

/-! ### The parts -/

theorem selfDelimiting_putUsize : SelfDelimiting fun n : Fin (2 ^ 64) => putUsize n.val :=
  selfDelimiting_of_length (fun a b h => Fin.ext (littleEndian_inj a.isLt b.isLt h))
    fun _ => length_littleEndian 8 _

/-- The length of a slice, as a word. -/
def Slice.size {α : Type} (slice : Slice α) : Fin (2 ^ 64) :=
  ⟨slice.items.length, slice.length_lt.trans (by decide)⟩

/-- The length of a string, as a word. -/
def Str.size (value : Str) : Fin (2 ^ 64) :=
  ⟨value.text.utf8ByteSize, value.size_lt.trans (by decide)⟩

theorem Slice.length_eq_of_size {α : Type} (a b : Slice α) (h : a.size = b.size) :
    a.items.length = b.items.length := congrArg Fin.val h

theorem selfDelimiting_putBytes : SelfDelimiting fun bytes : Slice UInt8 => putBytes bytes.items := by
  show SelfDelimiting fun bytes : Slice UInt8 => putUsize bytes.size.val ++ bytes.items
  exact selfDelimiting_putUsize.header (fun _ _ => Slice.ext_items) Slice.length_eq_of_size

theorem selfDelimiting_putStr : SelfDelimiting fun value : Str => putStr value.text := by
  show SelfDelimiting fun value : Str => putUsize value.size.val ++ textBytes value.text
  exact selfDelimiting_putUsize.header (fun a b h => Str.ext_text (textBytes_injective h))
    fun a b h => congrArg Fin.val h

theorem selfDelimiting_putOptional : SelfDelimiting putOptional :=
  selfDelimiting_putStr.optional (by decide)

theorem selfDelimiting_putFlag : SelfDelimiting putFlag :=
  selfDelimiting_of_length (n := 1) (fun a b h => by
    cases a <;> cases b <;> first | rfl | exact absurd h (by decide)) fun _ => rfl

theorem selfDelimiting_putDigest : SelfDelimiting fun digest : Digest => putBytes digest.bytes := by
  refine selfDelimiting_putBytes.comp
    (f := fun digest : Digest => ⟨digest.bytes, by rw [digest.length_eq]; decide⟩) fun a b h => ?_
  obtain ⟨bytes, _⟩ := a
  obtain ⟨bytes', _⟩ := b
  obtain rfl : bytes = bytes' := congrArg Slice.items h
  rfl

/-- A slice of self-delimited items. -/
theorem selfDelimiting_putSlice {α : Type} {encode : α → List UInt8} (h : SelfDelimiting encode) :
    SelfDelimiting fun slice : Slice α =>
      putUsize slice.items.length ++ slice.items.flatMap encode := by
  show SelfDelimiting fun slice : Slice α => putUsize slice.size.val ++ slice.items.flatMap encode
  exact selfDelimiting_putUsize.counted h (fun _ _ => Slice.ext_items) Slice.length_eq_of_size

/-! ### Enumerations -/

/-- The texts of some values differ, and they have a size. -/
def DistinctTexts {α : Type} (all : List α) (asStr : α → String) : Prop :=
  (all.map asStr).Nodup ∧ ∀ a ∈ all, (asStr a).utf8ByteSize < 2 ^ 63

instance {α : Type} (all : List α) (asStr : α → String) : Decidable (DistinctTexts all asStr) :=
  inferInstanceAs (Decidable (_ ∧ _))

/-- An enumeration whose texts differ. -/
theorem selfDelimiting_putEnum {α : Type} {asStr : α → String} {all : List α}
    (htexts : DistinctTexts all asStr) (hall : ∀ a, a ∈ all) :
    SelfDelimiting fun a => putStr (asStr a) :=
  selfDelimiting_putStr.comp (f := fun a => ⟨asStr a, htexts.2 a (hall a)⟩) fun a b hab =>
    List.inj_on_of_nodup_map htexts.1 (hall a) (hall b) (congrArg Str.text hab)

/-- The texts of the routes, the destinations and the scopes. -/
theorem distinctTexts_places : DistinctTexts RepositoryWriteRoute.all RepositoryWriteRoute.asStr ∧
    DistinctTexts [.repo, .«local», .session, .discard, .needsReview] destinationAsStr ∧
    DistinctTexts [.personal, .repo, .project, .team, .org, .agent, .importedUntrusted]
      ScopeKind.asStr ∧
    DistinctTexts [.«public», .«private», .repo, .team, .org] Visibility.asStr := by
  decide +kernel

/-- The texts of what a field is and of how it may be shared. -/
theorem distinctTexts_contents :
    DistinctTexts [.repoSafe, .localOnly, .sensitive, .secret, .rawTranscript,
      .privatePersonalData, .temporaryState, .unknown] sensitivityAsStr ∧
    DistinctTexts [.generalRepoKnowledge, .rawTranscript, .privatePersonalData,
      .screenOrActivityHistory, .privateEndpoint, .undisclosedVulnerability,
      .unminimizedPrivateEvidence, .temporaryTaskState, .localOnlyState, .unknown]
      contentClassAsStr ∧
    DistinctTexts [.text, .identifier, .path, .sourceReference, .evidence, .reason,
      .renderedProjection, .typedDigest, .uuid, .commitHash] SafetyFieldKind.asStr ∧
    DistinctTexts [.write, .existing] RepositoryProjectionPurpose.asStr := by
  decide +kernel

theorem selfDelimiting_putRoute :
    SelfDelimiting fun route : RepositoryWriteRoute => putStr route.asStr :=
  selfDelimiting_putEnum distinctTexts_places.1 fun a => by cases a <;> decide

theorem selfDelimiting_putDestination :
    SelfDelimiting fun destination => putStr (destinationAsStr destination) :=
  selfDelimiting_putEnum distinctTexts_places.2.1 fun a => by cases a <;> decide

theorem selfDelimiting_putSensitivity :
    SelfDelimiting fun sensitivity => putStr (sensitivityAsStr sensitivity) :=
  selfDelimiting_putEnum distinctTexts_contents.1 fun a => by cases a <;> decide

theorem selfDelimiting_putScopeKind : SelfDelimiting fun kind : ScopeKind => putStr kind.asStr :=
  selfDelimiting_putEnum distinctTexts_places.2.2.1 fun a => by cases a <;> decide

theorem selfDelimiting_putVisibility :
    SelfDelimiting fun visibility : Visibility => putStr visibility.asStr :=
  selfDelimiting_putEnum distinctTexts_places.2.2.2 fun a => by cases a <;> decide

theorem selfDelimiting_putContentClass :
    SelfDelimiting fun contentClass => putStr (contentClassAsStr contentClass) :=
  selfDelimiting_putEnum distinctTexts_contents.2.1 fun a => by cases a <;> decide

theorem selfDelimiting_putKind : SelfDelimiting fun kind : SafetyFieldKind => putStr kind.asStr :=
  selfDelimiting_putEnum distinctTexts_contents.2.2.1 fun a => by cases a <;> decide

theorem selfDelimiting_putPurpose :
    SelfDelimiting fun purpose : RepositoryProjectionPurpose => putStr purpose.asStr :=
  selfDelimiting_putEnum distinctTexts_contents.2.2.2 fun a => by cases a <;> decide

/-! ### Records -/

theorem selfDelimiting_putProjection : SelfDelimiting putProjection := by
  rintro ⟨path, bytes, revision, purpose⟩ ⟨path', bytes', revision', purpose'⟩ s t h
  simp only [putProjection, List.append_assoc] at h
  obtain ⟨rfl, h₁⟩ := selfDelimiting_putBytes h
  obtain ⟨rfl, h₂⟩ := selfDelimiting_putBytes h₁
  obtain ⟨rfl, h₃⟩ := selfDelimiting_putOptional h₂
  obtain ⟨rfl, h₄⟩ := selfDelimiting_putPurpose h₃
  exact ⟨rfl, h₄⟩

theorem selfDelimiting_putFreshness : SelfDelimiting putFreshness := by
  rintro ⟨name, expected, current⟩ ⟨name', expected', current'⟩ s t h
  simp only [putFreshness, List.append_assoc] at h
  obtain ⟨rfl, h₁⟩ := selfDelimiting_putStr h
  obtain ⟨rfl, h₂⟩ := selfDelimiting_putStr h₁
  obtain ⟨rfl, h₃⟩ := selfDelimiting_putStr h₂
  exact ⟨rfl, h₃⟩

theorem selfDelimiting_putField : SelfDelimiting putField := by
  rintro ⟨location, kind, value⟩ ⟨location', kind', value'⟩ s t h
  simp only [putField, List.append_assoc] at h
  obtain ⟨rfl, h₁⟩ := selfDelimiting_putStr h
  obtain ⟨rfl, h₂⟩ := selfDelimiting_putKind h₁
  obtain ⟨rfl, h₃⟩ := selfDelimiting_putBytes h₂
  exact ⟨rfl, h₃⟩

/-! ### The text of a proof -/

/-- What stands before and after the first colon. -/
def AuthorizationProof.parts : AuthorizationProof → Option (String × String)
  | missing => none
  | approvedDatabaseProposal proposalId => some ("db", proposalId.text)
  | explicitCommand operation => some ("command", operation.text)
  | captureReview planId reviewId => some ("capture", planId.text ++ ":" ++ reviewId.text)
  | importPlan planId => some ("import", planId.text)
  | lifecycleOperation targetId => some ("lifecycle", targetId.text)
  | pinnedMaterialization decisionId => some ("materialization", decisionId.text)
  | recovery authorizationDigest => some ("recovery", authorizationDigest.text)
  | maintenance operationId => some ("maintenance", operationId.text)
  | migration migrationId => some ("migration", migrationId.text)
  | providerImport importId => some ("provider", importId.text)

/-- Both proofs are capture reviews, and their plan and review ids, joined by a colon, spell one
text that is split at different colons. -/
def AuthorizationProof.SplitsDiffer (proof proof' : AuthorizationProof) : Prop :=
  ∃ planId reviewId planId' reviewId', proof = captureReview planId reviewId ∧
    proof' = captureReview planId' reviewId' ∧
    planId.text ++ ":" ++ reviewId.text = planId'.text ++ ":" ++ reviewId'.text ∧
    planId ≠ planId'

theorem stableText_of_parts {proof : AuthorizationProof} {tag payload : String}
    (h : proof.parts = some (tag, payload)) :
    proof.stableText = tag ++ ":" ++ payload ∧ ':' ∉ tag.toList := by
  cases proof with
  | missing => cases h
  | captureReview planId reviewId =>
    obtain ⟨rfl, rfl⟩ := Prod.mk.inj (Option.some.inj h)
    refine ⟨?_, by decide +kernel⟩
    show "capture:" ++ planId.text ++ ":" ++ reviewId.text = _
    rw [show "capture:" = "capture" ++ ":" by decide +kernel]
    simp only [String.append_assoc]
  | _ =>
    obtain ⟨rfl, rfl⟩ := Prod.mk.inj (Option.some.inj h)
    exact ⟨congrArg (· ++ _) (by decide +kernel), by decide +kernel⟩

theorem toList_marked (tag payload : String) :
    (tag ++ ":" ++ payload).toList = tag.toList ++ ':' :: payload.toList := by
  rw [String.toList_append, String.toList_append, show ":".toList = [ ':'] from String.toList_ofList,
    List.append_assoc, List.singleton_append]

/-- A proof's text gives back its parts. -/
theorem parts_eq_of_stableText {proof proof' : AuthorizationProof}
    (h : proof.stableText = proof'.stableText) : proof.parts = proof'.parts := by
  -- only a proof with parts has a colon in its text
  have hcolon : ∀ {p : AuthorizationProof}, ':' ∈ p.stableText.toList ↔ p.parts.isSome := by
    intro p
    cases hparts : p.parts with
    | none =>
      obtain rfl : p = .missing := by
        cases p with
        | missing => rfl
        | _ => cases hparts
      decide +kernel
    | some parts =>
      rw [(stableText_of_parts hparts).1, toList_marked]
      simp
  cases hparts : proof.parts with
  | none =>
    cases hparts' : proof'.parts with
    | none => rfl
    | some parts' =>
      have hsome := hcolon.2 (show proof'.parts.isSome = true by rw [hparts']; rfl)
      rw [← h, hcolon, hparts] at hsome
      cases hsome
  | some parts =>
    have hsome := hcolon.2 (show proof.parts.isSome = true by rw [hparts]; rfl)
    rw [h, hcolon] at hsome
    obtain ⟨parts', hparts'⟩ := Option.isSome_iff_exists.1 hsome
    obtain ⟨htext, htag⟩ := stableText_of_parts hparts
    obtain ⟨htext', htag'⟩ := stableText_of_parts hparts'
    rw [htext, htext', ← String.toList_inj, toList_marked, toList_marked] at h
    obtain ⟨hsame, hrest⟩ := eq_of_marked htag htag' h
    rw [hparts', ← Prod.mk.eta (p := parts), ← Prod.mk.eta (p := parts'), String.toList_inj.1 hsame,
      String.toList_inj.1 hrest]

theorem parts_injective {proof proof' : AuthorizationProof} (h : proof.parts = proof'.parts)
    (hsplit : ¬ proof.SplitsDiffer proof') : proof = proof' := by
  cases proof <;> cases proof' <;>
    simp only [AuthorizationProof.parts, Option.some.injEq, Prod.mk.injEq, reduceCtorEq,
      String.reduceEq, false_and, true_and] at h
  case missing.missing => rfl
  case captureReview.captureReview planId reviewId planId' reviewId' =>
    have hplan : planId = planId' := by
      by_contra hne
      exact hsplit ⟨planId, reviewId, planId', reviewId', rfl, rfl, h, hne⟩
    subst hplan
    rw [← String.toList_inj, toList_marked, toList_marked] at h
    have hreview := (List.cons.inj (List.append_cancel_left h)).2
    rw [Str.ext_text (String.toList_inj.1 hreview)]
  all_goals rw [Str.ext_text h]

/-- **A proof's text gives back the proof**, but for the split of a capture review. -/
theorem stableText_eq_iff {proof proof' : AuthorizationProof} :
    proof.stableText = proof'.stableText ↔ proof = proof' ∨ proof.SplitsDiffer proof' := by
  constructor
  · intro h
    by_cases hsplit : proof.SplitsDiffer proof'
    · exact .inr hsplit
    · exact .inl (parts_injective (parts_eq_of_stableText h) hsplit)
  · rintro (rfl | ⟨planId, reviewId, planId', reviewId', rfl, rfl, hjoined, -⟩)
    · rfl
    · rw [(stableText_of_parts rfl).1, (stableText_of_parts rfl).1, hjoined]

/-! ### The hashed texts -/

theorem projectInput_injective : Function.Injective projectInput := fun _ _ h =>
  selfDelimiting_putBytes.injective (List.append_cancel_left h)

theorem projectionInput_injective : Function.Injective projectionInput := fun _ _ h =>
  (selfDelimiting_putSlice selfDelimiting_putProjection).injective (List.append_cancel_left h)

/-- The digests of an authorization. -/
theorem authorizationInput_inj {p c q p' c' q' : Digest}
    (h : authorizationInput p c q = authorizationInput p' c' q') : p = p' ∧ c = c' ∧ q = q' := by
  obtain ⟨hp, h₁⟩ := selfDelimiting_putDigest (List.append_cancel_left h)
  obtain ⟨hc, h₂⟩ := selfDelimiting_putDigest h₁
  exact ⟨hp, hc, selfDelimiting_putDigest.injective h₂⟩

/-- The part of a request that its policy context covers: everything but the projections. -/
def RepositoryWriteRequest.policyContext (request : RepositoryWriteRequest) :
    RepositoryWriteRequest :=
  { request with projections := ⟨[], by decide⟩ }

theorem stableBytes_eq_ok {proof : AuthorizationProof} {text : Str}
    (h : proof.stableBytes = .ok text) : text.text = proof.stableText := by
  rw [AuthorizationProof.stableBytes] at h
  split at h
  · rw [← Except.ok.inj h]
  · cases h

/-- **A policy context is read back from what is hashed of it**, but for the text of the proof. -/
theorem policyContextInput_inj {a b : RepositoryWriteRequest} {input : List UInt8}
    (ha : policyContextInput a = .ok input) (hb : policyContextInput b = .ok input) :
    a.authorization.stableText = b.authorization.stableText ∧
      { a.policyContext with authorization := b.authorization } = b.policyContext := by
  obtain ⟨route, destination, sensitivity, ⟨kind, id, identity, projectId⟩, visibility, proof,
    freshness, ⟨present, evidenceValid, contentClass, sourceIdentity⟩, fields, projections⟩ := a
  obtain ⟨route', destination', sensitivity', ⟨kind', id', identity', projectId'⟩, visibility',
    proof', freshness', ⟨present', evidenceValid', contentClass', sourceIdentity'⟩, fields',
    projections'⟩ := b
  obtain ⟨text, htext, ha⟩ := bind_eq_ok.1 ha
  obtain ⟨text', htext', hb⟩ := bind_eq_ok.1 hb
  have h := (Except.ok.inj ha).trans (Except.ok.inj hb).symm
  obtain ⟨rfl, h₁⟩ := selfDelimiting_putRoute (List.append_cancel_left h)
  obtain ⟨rfl, h₂⟩ := selfDelimiting_putDestination h₁
  obtain ⟨rfl, h₃⟩ := selfDelimiting_putSensitivity h₂
  obtain ⟨rfl, h₄⟩ := selfDelimiting_putScopeKind h₃
  obtain ⟨rfl, h₅⟩ := selfDelimiting_putOptional h₄
  obtain ⟨rfl, h₆⟩ := selfDelimiting_putBytes h₅
  obtain ⟨rfl, h₇⟩ := selfDelimiting_putOptional h₆
  obtain ⟨rfl, h₈⟩ := selfDelimiting_putVisibility h₇
  obtain ⟨rfl, h₉⟩ := selfDelimiting_putStr h₈
  obtain ⟨rfl, h₁₀⟩ := selfDelimiting_putSlice selfDelimiting_putFreshness h₉
  obtain ⟨rfl, h₁₁⟩ := selfDelimiting_putFlag h₁₀
  obtain ⟨rfl, h₁₂⟩ := selfDelimiting_putFlag h₁₁
  obtain ⟨rfl, h₁₃⟩ := selfDelimiting_putContentClass h₁₂
  obtain ⟨rfl, h₁₄⟩ := selfDelimiting_putOptional h₁₃
  obtain rfl := (selfDelimiting_putSlice selfDelimiting_putField).injective h₁₄
  exact ⟨(stableBytes_eq_ok htext).symm.trans (stableBytes_eq_ok htext'), rfl⟩

/-- One text of the proof gives one input. -/
theorem policyContextInput_congr {a b : RepositoryWriteRequest}
    (htext : a.authorization.stableText = b.authorization.stableText)
    (hcontext : { a.policyContext with authorization := b.authorization } = b.policyContext) :
    policyContextInput a = policyContextInput b := by
  have hproof : a.authorization.stableBytes = b.authorization.stableBytes := by
    simp only [AuthorizationProof.stableBytes, htext]
  have hfields : policyContextInput b.policyContext = policyContextInput b := rfl
  rw [← hfields, ← hcontext]
  show (a.authorization.stableBytes >>= _) = (b.authorization.stableBytes >>= _)
  rw [hproof]
  rfl

/-! ### Batches -/

section Batches

variable [Blake3] [Detectors]

/-- What is hashed to authorize a request. -/
def hashInputs (request : RepositoryWriteRequest) : Set (List UInt8) :=
  {input | input = projectInput request.scope.currentProjectIdentity ∨
    input = projectionInput request.projections ∨ policyContextInput request = .ok input ∨
    ∃ context, policyContextInput request = .ok context ∧
      input = authorizationInput (projectDigest request.scope.currentProjectIdentity)
        (Blake3.hash context) (projectionDigest request.projections)}

/-- A batch holds the digests of its request. -/
theorem authorizeRepositoryWrite_eq_ok {request : RepositoryWriteRequest}
    {batch : AuthorizedRepositoryWriteBatch}
    (h : authorizeRepositoryWrite request = .ok (.ok batch)) :
    ∃ context, policyContextInput request = .ok context ∧ batch = {
      route := request.route
      projectDigest := projectDigest request.scope.currentProjectIdentity
      policyContextDigest := Blake3.hash context
      authorizationDigest := authorizationDigest
        (projectDigest request.scope.currentProjectIdentity) (Blake3.hash context)
        (projectionDigest request.projections)
      projectionDigest := projectionDigest request.projections } := by
  rw [authorizeRepositoryWrite] at h
  split at h
  · obtain ⟨digest, hdigest, h⟩ := bind_eq_ok.1 h
    obtain ⟨context, hcontext, rfl⟩ := map_eq_ok.1 hdigest
    exact ⟨context, hcontext, (Except.ok.inj (Except.ok.inj h)).symm⟩
  · cases Except.ok.inj h

/-- The two halves of what binds a batch to its request `a`, against a request `b`: equal
authorization digests come from equal requests, and a check with the policy context of `b` passes
only for the route, the identity, the policy context and the projections of `a`. -/
structure Bound (a b : RepositoryWriteRequest) (batch batch' : AuthorizedRepositoryWriteBatch) :
    Prop where
  requests : batch.authorizationDigest = batch'.authorizationDigest → a = b
  check : ∀ route identity projections,
    Set.InjOn Blake3.hash
      (hashInputs a ∪ hashInputs b ∪ {projectInput identity, projectionInput projections}) →
    batch.authorizes route identity batch'.policyContextDigest projections = true →
      route = a.route ∧ identity = a.scope.currentProjectIdentity ∧
        b.policyContext = a.policyContext ∧ projections = a.projections

omit [Blake3] [Detectors] in
/-- The input of a hashed policy context, with the split of a capture review ruled out. -/
theorem policyContext_eq_of_input {a b : RepositoryWriteRequest} {context : List UInt8}
    (ha : policyContextInput a = .ok context) (hb : policyContextInput b = .ok context)
    (hsplit : ¬ (a.authorization.SplitsDiffer b.authorization ∧
      { a.policyContext with authorization := b.authorization } = b.policyContext)) :
    b.policyContext = a.policyContext := by
  obtain ⟨htext, hcontext⟩ := policyContextInput_inj ha hb
  rcases stableText_eq_iff.1 htext with hproof | hdiffer
  · rw [← hcontext, ← hproof]
    rfl
  · exact absurd ⟨hdiffer, hcontext⟩ hsplit

/-- **When an authorization is bound to its request.** Without a collision among the hashed texts,
it is exactly when the policy contexts do not differ in the split of a capture review alone. -/
theorem authorization_bound_iff (a b : RepositoryWriteRequest)
    (batch batch' : AuthorizedRepositoryWriteBatch)
    (ha : authorizeRepositoryWrite a = .ok (.ok batch))
    (hb : authorizeRepositoryWrite b = .ok (.ok batch'))
    (hhash : Set.InjOn Blake3.hash (hashInputs a ∪ hashInputs b)) :
    Bound a b batch batch' ↔
      ¬ (a.authorization.SplitsDiffer b.authorization ∧
        { a.policyContext with authorization := b.authorization } = b.policyContext) := by
  obtain ⟨context, hcontext, rfl⟩ := authorizeRepositoryWrite_eq_ok ha
  obtain ⟨context', hcontext', rfl⟩ := authorizeRepositoryWrite_eq_ok hb
  have hproject : ∀ {r : RepositoryWriteRequest},
      projectInput r.scope.currentProjectIdentity ∈ hashInputs r := .inl rfl
  have hprojection : ∀ {r : RepositoryWriteRequest},
      projectionInput r.projections ∈ hashInputs r := .inr (.inl rfl)
  constructor
  · rintro hbound ⟨hsplit, hsame⟩
    -- one context input for both requests, so the check takes the one for the other
    have hinput : context = context' := by
      have htext := stableText_eq_iff.2 (.inr hsplit)
      exact Except.ok.inj (hcontext.symm.trans ((policyContextInput_congr htext hsame).trans hcontext'))
    have hinj : Set.InjOn Blake3.hash (hashInputs a ∪ hashInputs b ∪
        {projectInput a.scope.currentProjectIdentity, projectionInput a.projections}) := by
      refine hhash.mono (Set.union_subset (fun _ h => h) ?_)
      rintro input (rfl | rfl)
      · exact .inl hproject
      · exact .inl hprojection
    obtain ⟨-, -, hcontexts, -⟩ := hbound.check a.route a.scope.currentProjectIdentity
      a.projections hinj (by simp [AuthorizedRepositoryWriteBatch.authorizes, hinput])
    have hproof : b.policyContext.authorization = a.policyContext.authorization := by
      rw [hcontexts]
    change b.authorization = a.authorization at hproof
    obtain ⟨planId, reviewId, planId', reviewId', hplan, hplan', -, hne⟩ := hsplit
    rw [hplan, hplan'] at hproof
    exact hne (AuthorizationProof.captureReview.inj hproof).1.symm
  · intro hsplit
    refine ⟨fun hdigest => ?_, fun route identity projections hinj hcheck => ?_⟩
    · have hall := hhash (.inl (.inr (.inr (.inr ⟨context, hcontext, rfl⟩))))
        (.inr (.inr (.inr (.inr ⟨context', hcontext', rfl⟩)))) hdigest
      obtain ⟨-, hpolicy, hprojections⟩ := authorizationInput_inj hall
      obtain rfl := hhash (.inl (.inr (.inr (.inl hcontext)))) (.inr (.inr (.inr (.inl hcontext'))))
        hpolicy
      have hsame := policyContext_eq_of_input hcontext hcontext' hsplit
      have hlists := projectionInput_injective (hhash (.inl hprojection) (.inr hprojection)
        hprojections)
      calc a = { a.policyContext with projections := a.projections } := rfl
        _ = { b.policyContext with projections := b.projections } := by rw [hsame, hlists]
        _ = b := rfl
    · simp only [AuthorizedRepositoryWriteBatch.authorizes, Bool.and_eq_true,
        decide_eq_true_eq] at hcheck
      obtain ⟨⟨⟨⟨hroute, hidentity⟩, hpolicy⟩, hprojections⟩, -⟩ := hcheck
      obtain rfl := hinj (.inl (.inl (.inr (.inr (.inl hcontext)))))
        (.inl (.inr (.inr (.inr (.inl hcontext'))))) hpolicy
      refine ⟨hroute.symm, ?_, policyContext_eq_of_input hcontext hcontext' hsplit, ?_⟩
      · exact (projectInput_injective (hinj (.inl (.inl hproject)) (.inr (.inl rfl)) hidentity)).symm
      · exact (projectionInput_injective
          (hinj (.inl (.inl hprojection)) (.inr (.inr rfl)) hprojections)).symm

end Batches

/-! ### Runs -/

/-- A capture that writes one proposal. -/
def captureRequest (planId reviewId : Str) : RepositoryWriteRequest where
  route := .captureApply
  destination := .repo
  sensitivity := .repoSafe
  scope := ⟨.repo, none, ⟨textBytes "memzoi", by decide +kernel⟩, none⟩
  visibility := .repo
  authorization := .captureReview planId reviewId
  freshness := ⟨[], by decide⟩
  provenance := ⟨true, true, .generalRepoKnowledge, some ⟨"capture", by decide +kernel⟩⟩
  fields := ⟨[], by decide⟩
  projections := ⟨[⟨⟨textBytes ".memzoi/proposals/pending/tabs.md", by decide +kernel⟩,
    ⟨textBytes "Use tabs.", by decide +kernel⟩, none, .write⟩], by decide⟩

def planRequest : RepositoryWriteRequest :=
  captureRequest ⟨"plan", by decide +kernel⟩ ⟨"a:review", by decide +kernel⟩

def longerPlanRequest : RepositoryWriteRequest :=
  captureRequest ⟨"plan:a", by decide +kernel⟩ ⟨"review", by decide +kernel⟩

/-- What is hashed of either request but for the authorization, with the digests. -/
def sampleContext : List UInt8 := (policyContextInput planRequest).toOption.getD []

def sampleProject : Digest :=
  ⟨[155, 223, 216, 232, 60, 157, 25, 24, 193, 141, 204, 49, 199, 9, 213, 207, 173, 112, 132, 8, 175,
    102, 210, 88, 219, 82, 208, 90, 91, 35, 217, 170], rfl⟩

def sampleProjection : Digest :=
  ⟨[182, 189, 80, 123, 106, 177, 234, 208, 117, 115, 86, 159, 21, 250, 200, 19, 54, 235, 99, 92, 107,
    92, 85, 58, 31, 171, 8, 182, 59, 48, 32, 47], rfl⟩

def samplePolicyContext : Digest :=
  ⟨[17, 39, 231, 4, 20, 196, 20, 206, 27, 20, 103, 219, 219, 219, 196, 137, 104, 134, 28, 254, 102,
    87, 236, 132, 125, 75, 143, 120, 53, 235, 98, 222], rfl⟩

def sampleAuthorization : Digest :=
  ⟨[106, 141, 118, 27, 17, 69, 197, 214, 233, 28, 94, 107, 234, 110, 16, 158, 2, 74, 39, 232, 223, 4,
    195, 226, 67, 235, 198, 66, 180, 60, 81, 160], rfl⟩

/-- The digests of the texts hashed for the two requests. -/
@[reducible] def sampleBlake3 : Blake3 where
  hash input :=
    if input = projectInput planRequest.scope.currentProjectIdentity then sampleProject
    else if input = projectionInput planRequest.projections then sampleProjection
    else if input = sampleContext then samplePolicyContext
    else if input = authorizationInput sampleProject samplePolicyContext sampleProjection then
      sampleAuthorization
    else ⟨List.replicate 32 0, rfl⟩

/-- Nothing in the texts of the two requests matches. -/
@[reducible] def quietDetectors : Detectors where
  isMatch _ _ := false
  containsCredentialedUrl _ := false
  containsHighEntropyToken _ := false

theorem sampleHashes :
    sampleBlake3.hash (projectInput planRequest.scope.currentProjectIdentity) = sampleProject ∧
      sampleBlake3.hash (projectionInput planRequest.projections) = sampleProjection ∧
      sampleBlake3.hash sampleContext = samplePolicyContext ∧
      sampleBlake3.hash (authorizationInput sampleProject samplePolicyContext sampleProjection) =
        sampleAuthorization := by
  decide +kernel

theorem policyContextInput_sample : policyContextInput planRequest = .ok sampleContext ∧
    policyContextInput longerPlanRequest = .ok sampleContext := by
  have hplan : policyContextInput planRequest = .ok sampleContext := by
    obtain ⟨context, hcontext, -⟩ := ok_of_any (show (policyContextInput planRequest).toOption.any
      (fun _ => true) = true by decide +kernel)
    rw [sampleContext, hcontext]
    rfl
  refine ⟨hplan, Eq.trans (policyContextInput_congr ?_ rfl) hplan⟩
  decide +kernel

def sampleBatch : AuthorizedRepositoryWriteBatch :=
  ⟨.captureApply, sampleProject, samplePolicyContext, sampleAuthorization, sampleProjection⟩

theorem authorize_sample :
    @authorizeRepositoryWrite sampleBlake3 quietDetectors planRequest = .ok (.ok sampleBatch) ∧
      @authorizeRepositoryWrite sampleBlake3 quietDetectors longerPlanRequest =
        .ok (.ok sampleBatch) := by
  decide +kernel

/-- The digests of the hashed texts differ. -/
theorem injOn_sample : Set.InjOn sampleBlake3.hash
    (@hashInputs sampleBlake3 planRequest ∪ @hashInputs sampleBlake3 longerPlanRequest) := by
  obtain ⟨hproject, hprojection, hcontext, hauthorization⟩ := sampleHashes
  obtain ⟨hplan, hlonger⟩ := policyContextInput_sample
  have hcases : ∀ {planId reviewId : Str} {input : List UInt8},
      policyContextInput (captureRequest planId reviewId) = .ok sampleContext →
      input ∈ @hashInputs sampleBlake3 (captureRequest planId reviewId) →
      input = projectInput planRequest.scope.currentProjectIdentity ∨
        input = projectionInput planRequest.projections ∨ input = sampleContext ∨
        input = authorizationInput sampleProject samplePolicyContext sampleProjection := by
    rintro planId reviewId input hsample (h | h | h | ⟨context, h, hinput⟩)
    · exact .inl h
    · exact .inr (.inl h)
    · exact .inr (.inr (.inl (Except.ok.inj (h.symm.trans hsample))))
    · obtain rfl := Except.ok.inj (h.symm.trans hsample)
      rw [hcontext] at hinput
      have hdigests : input = authorizationInput
          (sampleBlake3.hash (projectInput planRequest.scope.currentProjectIdentity))
          samplePolicyContext (sampleBlake3.hash (projectionInput planRequest.projections)) := hinput
      rw [hproject, hprojection] at hdigests
      exact .inr (.inr (.inr hdigests))
  intro x hx y hy h
  have hx := hx.elim (hcases hplan) (hcases hlonger)
  have hy := hy.elim (hcases hplan) (hcases hlonger)
  rcases hx with rfl | rfl | rfl | rfl <;> rcases hy with rfl | rfl | rfl | rfl <;>
    simp only [hproject, hprojection, hcontext, hauthorization] at h <;>
    first | rfl | exact absurd h (by decide)

/-- The reviews of a plan, told apart by the split alone. -/
theorem capture_review_batches :
    @Bound sampleBlake3 planRequest longerPlanRequest sampleBatch sampleBatch ↔
      ¬ (planRequest.authorization.SplitsDiffer longerPlanRequest.authorization ∧
        { planRequest.policyContext with authorization := longerPlanRequest.authorization } =
          longerPlanRequest.policyContext) :=
  @authorization_bound_iff sampleBlake3 quietDetectors planRequest longerPlanRequest sampleBatch
    sampleBatch authorize_sample.1 authorize_sample.2 injOn_sample

/-- Two capture reviews with one digest: the approval of the one stands for the other. -/
theorem capture_reviews_confused :
    @authorizeRepositoryWrite sampleBlake3 quietDetectors planRequest = .ok (.ok sampleBatch) ∧
      @authorizeRepositoryWrite sampleBlake3 quietDetectors longerPlanRequest =
        .ok (.ok sampleBatch) ∧
      planRequest ≠ longerPlanRequest ∧
      ¬ @Bound sampleBlake3 planRequest longerPlanRequest sampleBatch sampleBatch := by
  have hne : planRequest ≠ longerPlanRequest := by decide +kernel
  exact ⟨authorize_sample.1, authorize_sample.2, hne,
    fun h => hne (@Bound.requests sampleBlake3 _ _ _ _ h rfl)⟩

end RepositoryWriteSafety
end Memzoi
