/-
# Repository write requests and what is hashed of them

Source: `repository_write_safety/policy.rs` (the types, `stable_bytes`) and
`repository_write_safety/projection.rs` (the digests).

A slice and a string of the host language are at most `isize::MAX` bytes long;
the bound is a field here, since the lengths are written as 64-bit words. The
hash function is a parameter.
-/

import Memzoi.Lib.PrefixCode
import Memzoi.MemoryPolicy
import Memzoi.Proposals

namespace Memzoi
namespace RepositoryWriteSafety

open Fallible PrefixCode
open Maintenance (OkfProposalSensitivity RepositoryContentClass)
open Okf (sensitivityAsStr)

/-! ### Slices and strings -/

/-- `&[T]` and `Vec<T>`. -/
structure Slice (α : Type) where
  items : List α
  length_lt : items.length < 2 ^ 63
  deriving DecidableEq

@[ext] theorem Slice.ext_items {α : Type} {a b : Slice α} (h : a.items = b.items) : a = b := by
  obtain ⟨items, _⟩ := a
  obtain ⟨items', _⟩ := b
  obtain rfl : items = items' := h
  rfl

/-- `&str`. -/
structure Str where
  text : String
  size_lt : text.utf8ByteSize < 2 ^ 63
  deriving DecidableEq

@[ext] theorem Str.ext_text {a b : Str} (h : a.text = b.text) : a = b := by
  obtain ⟨text, _⟩ := a
  obtain ⟨text', _⟩ := b
  obtain rfl : text = text' := h
  rfl

/-- `as_bytes` of a text. -/
def textBytes (text : String) : List UInt8 := text.toByteArray.data.toList

theorem textBytes_injective : Function.Injective textBytes := fun a b h => by
  rw [← String.toByteArray_inj]
  exact ByteArray.ext (Array.toList_inj.1 h)

@[simp] theorem length_textBytes (text : String) :
    (textBytes text).length = text.utf8ByteSize := rfl

/-! ### Requests -/

inductive RepositoryWriteRoute where
  | databaseProposalApply | fileProposalCreate | fileProposalApply | fileProposalRejectReceipt
  | captureApply | importApply | sessionEndPromotion | supersede | tombstone | maintenance
  | migration | recovery | materialization | providerImport
  deriving DecidableEq, Repr

def RepositoryWriteRoute.all : List RepositoryWriteRoute :=
  [databaseProposalApply, fileProposalCreate, fileProposalApply, fileProposalRejectReceipt,
    captureApply, importApply, sessionEndPromotion, supersede, tombstone, maintenance, migration,
    recovery, materialization, providerImport]

def RepositoryWriteRoute.asStr : RepositoryWriteRoute → String
  | databaseProposalApply => "database_proposal_apply"
  | fileProposalCreate => "file_proposal_create"
  | fileProposalApply => "file_proposal_apply"
  | fileProposalRejectReceipt => "file_proposal_reject_receipt"
  | captureApply => "capture_apply"
  | importApply => "import_apply"
  | sessionEndPromotion => "session_end_promotion"
  | supersede => "supersede"
  | tombstone => "tombstone"
  | maintenance => "maintenance"
  | migration => "migration"
  | recovery => "recovery"
  | materialization => "materialization"
  | providerImport => "provider_import"

structure RepositoryScope where
  kind : ScopeKind
  id : Option Str
  currentProjectIdentity : Slice UInt8
  configuredProjectId : Option Str
  deriving DecidableEq

structure ProvenanceAssessment where
  present : Bool
  evidenceValid : Bool
  contentClass : RepositoryContentClass
  sourceIdentity : Option Str
  deriving DecidableEq

structure FreshnessCheck where
  name : Str
  expected : Str
  current : Str
  deriving DecidableEq

inductive AuthorizationProof where
  | missing
  | approvedDatabaseProposal (proposalId : Str)
  | explicitCommand (operation : Str)
  | captureReview (planId reviewId : Str)
  | importPlan (planId : Str)
  | lifecycleOperation (targetId : Str)
  | pinnedMaterialization (decisionId : Str)
  | recovery (authorizationDigest : Str)
  | maintenance (operationId : Str)
  | migration (migrationId : Str)
  | providerImport (importId : Str)
  deriving DecidableEq

inductive SafetyFieldKind where
  | text | identifier | path | sourceReference | evidence | reason | renderedProjection
  | typedDigest | uuid | commitHash
  deriving DecidableEq, Repr

def SafetyFieldKind.asStr : SafetyFieldKind → String
  | text => "text"
  | identifier => "identifier"
  | path => "path"
  | sourceReference => "source_reference"
  | evidence => "evidence"
  | reason => "reason"
  | renderedProjection => "rendered_projection"
  | typedDigest => "typed_digest"
  | uuid => "uuid"
  | commitHash => "commit_hash"

def SafetyFieldKind.entropyExempt : SafetyFieldKind → Bool
  | typedDigest | uuid | commitHash => true
  | _ => false

structure SafetyField where
  location : Str
  kind : SafetyFieldKind
  value : Slice UInt8
  deriving DecidableEq

inductive RepositoryProjectionPurpose where
  | write | existing
  deriving DecidableEq, Repr

def RepositoryProjectionPurpose.asStr : RepositoryProjectionPurpose → String
  | write => "write"
  | existing => "existing"

structure RepositoryProjection where
  path : Slice UInt8
  bytes : Slice UInt8
  targetRevision : Option Str
  purpose : RepositoryProjectionPurpose
  deriving DecidableEq

structure RepositoryWriteRequest where
  route : RepositoryWriteRoute
  destination : MemoryDestination
  sensitivity : OkfProposalSensitivity
  scope : RepositoryScope
  visibility : Visibility
  authorization : AuthorizationProof
  freshness : Slice FreshnessCheck
  provenance : ProvenanceAssessment
  fields : Slice SafetyField
  projections : Slice RepositoryProjection
  deriving DecidableEq

def destinationAsStr : MemoryDestination → String
  | .repo => "repo"
  | .«local» => "local"
  | .session => "session"
  | .discard => "discard"
  | .needsReview => "needs_review"

/-- The text of a proof; the kinds are told apart by what stands before the first colon. -/
def AuthorizationProof.stableText : AuthorizationProof → String
  | missing => "missing"
  | approvedDatabaseProposal proposalId => s!"db:{proposalId.text}"
  | explicitCommand operation => s!"command:{operation.text}"
  | captureReview planId reviewId => s!"capture:{planId.text}:{reviewId.text}"
  | importPlan planId => s!"import:{planId.text}"
  | lifecycleOperation targetId => s!"lifecycle:{targetId.text}"
  | pinnedMaterialization decisionId => s!"materialization:{decisionId.text}"
  | recovery authorizationDigest => s!"recovery:{authorizationDigest.text}"
  | maintenance operationId => s!"maintenance:{operationId.text}"
  | migration migrationId => s!"migration:{migrationId.text}"
  | providerImport importId => s!"provider:{importId.text}"

/-- The new string must fit, as every string does. -/
def AuthorizationProof.stableBytes (proof : AuthorizationProof) : Fallible Str :=
  if h : proof.stableText.utf8ByteSize < 2 ^ 63 then .ok ⟨proof.stableText, h⟩
  else .error (.panic "capacity overflow")

def AuthorizationProof.isPresent : AuthorizationProof → Bool
  | missing => false
  | _ => true

/-! ### Hashed texts -/

/-- A digest of 32 bytes. -/
structure Digest where
  bytes : List UInt8
  length_eq : bytes.length = 32
  deriving DecidableEq

/-- The hash function. -/
class Blake3 where
  hash : List UInt8 → Digest

/-- `put_usize`. -/
def putUsize (value : Nat) : List UInt8 := littleEndian 8 value

/-- `put_bytes`. -/
def putBytes (bytes : List UInt8) : List UInt8 := putUsize bytes.length ++ bytes

/-- `put_bytes` on a text. -/
def putStr (text : String) : List UInt8 := putBytes (textBytes text)

/-- `put_optional` on a string. -/
def putOptional : Option Str → List UInt8 := optional 0 1 fun value => putStr value.text

def putFlag (value : Bool) : List UInt8 := [if value then 1 else 0]

def projectInput (identity : Slice UInt8) : List UInt8 :=
  textBytes "memzoi.repository-write.project" ++ textBytes "\x00" ++ putBytes identity.items

/-- One projection of the list that is hashed. -/
def putProjection (projection : RepositoryProjection) : List UInt8 :=
  putBytes projection.path.items ++ (putBytes projection.bytes.items ++
    (putOptional projection.targetRevision ++ putStr projection.purpose.asStr))

def projectionInput (projections : Slice RepositoryProjection) : List UInt8 :=
  textBytes "memzoi.repository-write.projections\x00" ++
    (putUsize projections.items.length ++ projections.items.flatMap putProjection)

def authorizationInput (projectDigest policyContextDigest projectionDigest : Digest) : List UInt8 :=
  textBytes "memzoi.repository-write.authorization\x00" ++ (putBytes projectDigest.bytes ++
    (putBytes policyContextDigest.bytes ++ putBytes projectionDigest.bytes))

def putFreshness (check : FreshnessCheck) : List UInt8 :=
  putStr check.name.text ++ (putStr check.expected.text ++ putStr check.current.text)

def putField (field : SafetyField) : List UInt8 :=
  putStr field.location.text ++ (putStr field.kind.asStr ++ putBytes field.value.items)

def policyContextInput (request : RepositoryWriteRequest) : Fallible (List UInt8) := do
  let proof ← request.authorization.stableBytes
  .ok (textBytes "memzoi.repository-write.policy-context\x00" ++
    (putStr request.route.asStr ++
    (putStr (destinationAsStr request.destination) ++
    (putStr (sensitivityAsStr request.sensitivity) ++
    (putStr request.scope.kind.asStr ++
    (putOptional request.scope.id ++
    (putBytes request.scope.currentProjectIdentity.items ++
    (putOptional request.scope.configuredProjectId ++
    (putStr request.visibility.asStr ++
    (putStr proof.text ++
    (putUsize request.freshness.items.length ++ request.freshness.items.flatMap putFreshness ++
    (putFlag request.provenance.present ++
    (putFlag request.provenance.evidenceValid ++
    (putStr (contentClassAsStr request.provenance.contentClass) ++
    (putOptional request.provenance.sourceIdentity ++
    (putUsize request.fields.items.length ++
      request.fields.items.flatMap putField))))))))))))))))

variable [Blake3]

def projectDigest (identity : Slice UInt8) : Digest := Blake3.hash (projectInput identity)

def projectionDigest (projections : Slice RepositoryProjection) : Digest :=
  Blake3.hash (projectionInput projections)

def authorizationDigest (projectDigest policyContextDigest projectionDigest : Digest) : Digest :=
  Blake3.hash (authorizationInput projectDigest policyContextDigest projectionDigest)

def policyContextDigest (request : RepositoryWriteRequest) : Fallible Digest :=
  Blake3.hash <$> policyContextInput request

/-- `to_hex`. -/
def Digest.toHex (digest : Digest) : String :=
  let digit (n : Nat) : Char := Char.ofNat (if n < 10 then 48 + n else 87 + n)
  String.ofList (digest.bytes.flatMap fun byte => [digit (byte.toNat / 16), digit (byte.toNat % 16)])

def candidateFingerprint (request : RepositoryWriteRequest) : String :=
  (Blake3.hash (textBytes "memzoi.repository-write.candidate\x00" ++
    (request.fields.items.flatMap putField ++
      request.projections.items.flatMap putProjection))).toHex

def findingFingerprint (code field : String) (value : List UInt8) : String :=
  (Blake3.hash (textBytes "memzoi.repository-write.finding.v1\x00" ++
    (putStr code ++ (putStr field ++ putBytes (Blake3.hash value).bytes)))).toHex

end RepositoryWriteSafety
end Memzoi
