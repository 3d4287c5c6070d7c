/-
# The derived index of the repository

Source: `service/derived_index/drift.rs`, `admission.rs`, `okf.rs`
(`read_okf_record_snapshots`, `import_okf_records`) and `service.rs`
(`ensure_repository_index_current`).

The repository is the table of its record files: the Markdown files below the
records that the reader collects. The index is current when its active
repository rows are the active records of the files. What the safety scan, the
version control and the symbolic-link checks say of a path, and whether the
full-text index is in step with its content, are parameters.
-/

import Memzoi.OkfMarkdown
import Memzoi.Statements
import Memzoi.PrivateLifecycle.Request

namespace Memzoi

open Fallible Okf
open PrivateLifecycle (Digests)

/-! ### Record files -/

/-- A file, by its path below the records. -/
structure RecordBlob where
  path : String
  bytes : ByteArray
  deriving DecidableEq

/-- The record files of a repository. -/
abbrev RecordFiles : Type := Table RecordBlob.path

/-- A file with the record it was read as. -/
structure RecordSnapshot where
  path : String
  bytes : ByteArray
  record : OkfRecordFile
  deriving DecidableEq

inductive GitReviewVisibility where
  | tracked | untrackedAndNotIgnored | ignoredUntracked
  deriving DecidableEq, Repr

inductive GitReviewVisibilityError where
  | notAWorktree | failed
  deriving DecidableEq, Repr

/-- What is outside the files and the index: `ensure_safe_existing_file`, the codes of the findings
of `scan_managed_repository_blob`, `git_review_visibility`, and the integrity check of the
full-text index. -/
class RepositoryChecks where
  isSafeFile : String → Bool
  scanFindings : String → ByteArray → List String
  gitReviewVisibility : String → Except GitReviewVisibilityError GitReviewVisibility
  ftsIsCurrent : Contents → Bool

/-- Checks that find nothing, for runs on fixed inputs. -/
@[reducible] def RepositoryChecks.granting : RepositoryChecks where
  isSafeFile _ := true
  scanFindings _ _ := []
  gitReviewVisibility _ := .ok .untrackedAndNotIgnored
  ftsIsCurrent _ := true

section Snapshots

variable [Yaml] [MaterializationDigests]

/-- One file of `read_okf_record_snapshots`. -/
def readRecordSnapshot (blob : RecordBlob) : Fallible (Option RecordSnapshot) :=
  if isReservedRecordFile blob.path then .ok none
  else do
    let markdown ← require (String.fromUTF8? blob.bytes) s!"OKF record {blob.path} is not UTF-8"
    let record ← parseOkfRecordMarkdown blob.path markdown
    .ok (record.map fun record => ⟨blob.path, blob.bytes, record⟩)

/-- `read_okf_record_snapshots`. -/
def readOkfRecordSnapshots (files : RecordFiles) : Fallible (List RecordSnapshot) := do
  let snapshots ← mapAll readRecordSnapshot (files.rows.mergeSort fun a b => a.path ≤ b.path)
  .ok (snapshots.reduceOption.mergeSort fun a b => a.record.conceptId ≤ b.record.conceptId)

end Snapshots

/-! ### Admission -/

def redactedRefusal {α : Type} (code : String) : Fallible α :=
  bail s!"repository-record admission refused: {code}"

/-- The code of a refusal, whatever the error was. -/
def refuseWith {α : Type} (code : String) : Fallible α → Fallible α
  | .error (.error _) => redactedRefusal code
  | x => x

section Admission

variable [MaterializationDigests]

def verifyExistingMaterializationAttestation (record : OkfRecordFile) : Fallible Unit :=
  match record.materialization with
  | none => .ok ()
  | some metadata => do
    refuseWith "materialization-metadata" metadata.validate
    let currentRevision ← refuseWith "materialization-revision" (canonicalRevisionForOkfRecord record)
    ensure (metadata.intendedSemanticRevision = currentRevision)
      "repository-record admission refused: materialization-revision"

variable [RepositoryChecks]

/-- The last check of an admission: a materialized record needs version control, any other record
is read outside of it too. -/
def admitReviewVisibility (snapshot : RecordSnapshot) : Fallible Unit :=
  match RepositoryChecks.gitReviewVisibility snapshot.path with
  | .ok .tracked => .ok ()
  | .ok .untrackedAndNotIgnored => .ok ()
  | .ok .ignoredUntracked => bail "repository-record admission refused: ignored-untracked"
  | .error .notAWorktree =>
    ensure (snapshot.record.materialization = none)
      "repository-record admission refused: review-visibility"
  | .error .failed => bail "repository-record admission refused: review-visibility"

/-- The text of a refused scan: the first three codes. -/
def scanDiagnostic (codes : List String) : String :=
  if codes = [] then "unspecified" else ",".intercalate (codes.take 3)

/-- `admit_repository_record_snapshot`. -/
def admitRepositoryRecordSnapshot (snapshot : RecordSnapshot) : Fallible Unit := do
  ensure (RepositoryChecks.isSafeFile snapshot.path = true)
    "repository-record admission refused: canonical-path"
  ensure (snapshot.path = snapshot.record.conceptId ++ ".md")
    "repository-record admission refused: canonical-path-id"
  ensure (snapshot.record.draft.scopeKind = .repo)
    "repository-record admission refused: scope-not-repository"
  ensure (snapshot.record.draft.visibility = .repo)
    "repository-record admission refused: visibility-not-repository"
  verifyExistingMaterializationAttestation snapshot.record
  let findings := RepositoryChecks.scanFindings snapshot.path snapshot.bytes
  ensure (findings = [])
    s!"repository-record admission refused: safety-scan[{scanDiagnostic findings}]"
  admitReviewVisibility snapshot

variable [Yaml]

def readAdmittedRepositoryRecordSnapshots (files : RecordFiles) : Fallible (List RecordSnapshot) := do
  let snapshots ← refuseWith "typed-record" (readOkfRecordSnapshots files)
  checkAll admitRepositoryRecordSnapshot snapshots
  .ok snapshots

end Admission

/-! ### Drift -/

structure RepoIndexDrift where
  missingFromIndex : List String
  staleInIndex : List String
  changedInIndex : List String
  ftsOutOfSync : Bool
  deriving DecidableEq, Repr

def RepoIndexDrift.isCurrent (drift : RepoIndexDrift) : Bool :=
  drift.missingFromIndex = [] && drift.staleInIndex = [] && drift.changedInIndex = [] &&
    !drift.ftsOutOfSync

section Drift

variable [Digests]

/-- `repo_record_matches`. -/
def repoRecordMatches (canonical : OkfRecordFile) (indexed : MemoryRecord) : Bool :=
  let draft := canonical.draft
  indexed.memoryType = draft.memoryType && indexed.lane = draft.lane &&
    indexed.destination = .repo && indexed.scopeKind = draft.scopeKind &&
    indexed.scopeId = draft.scopeId && indexed.visibility = draft.visibility &&
    indexed.title = draft.title && indexed.body = draft.body &&
    indexed.status = canonical.status && indexed.confidence = draft.confidence &&
    indexed.sourceKind = draft.sourceKind && indexed.sourceRef = draft.sourceRef &&
    indexed.proposalId = canonical.proposalId &&
    indexed.contentHash = Digests.blake3 draft.body && indexed.createdAt = canonical.created &&
    indexed.updatedAt = canonical.updated.getD canonical.created &&
    indexed.supersedesId = canonical.supersedesId && indexed.retention = canonical.retention &&
    indexed.origin = canonical.origin && indexed.lineage = canonical.lineage

variable [CaptureDocuments]

/-- `load_capture_provenance`, which checks what it reads. -/
def loadCaptureProvenance (db : Contents) (recordId : String) :
    Fallible (Option CaptureProvenance) :=
  match db.captures.get? recordId with
  | none => .ok none
  | some capture => do
    CaptureDocuments.validateCaptureProvenance capture.provenance
    .ok (some capture.provenance)

/-- `indexed_active_records_for_destination` on the repository. -/
def indexedActiveRepoRecords (db : Contents) : Fallible (List MemoryRecord) := do
  let records := db.records.rows.filter fun r => r.status = .active ∧ r.destination = .repo
  let _ ← mapAll (fun r => loadCaptureProvenance db r.id) records
  .ok records

variable [Yaml] [MaterializationDigests] [RepositoryChecks]

/-- `inspect`: the active records of the files against the active rows of the index. -/
def inspect (files : RecordFiles) (db : Contents) : Fallible RepoIndexDrift := do
  let snapshots ← readAdmittedRepositoryRecordSnapshots files
  let active := (snapshots.map RecordSnapshot.record).filter fun r => r.status = .active
  let canonical := SortedMap.ofList (active.map fun r => (r.conceptId, r))
  let rows ← indexedActiveRepoRecords db
  let indexed := SortedMap.ofList (rows.map fun r => (r.id, r))
  .ok {
    missingFromIndex := canonical.keys.filter fun id => !indexed.contains id
    staleInIndex := indexed.keys.filter fun id => !canonical.contains id
    changedInIndex := (canonical.entries.filter fun e =>
      (indexed.get? e.1).any fun row => !repoRecordMatches e.2 row).map Prod.fst
    ftsOutOfSync := !RepositoryChecks.ftsIsCurrent db }

/-- `ensure_repository_index_current`. -/
def ensureRepositoryIndexCurrent (files : RecordFiles) (db : Contents) : Fallible Unit := do
  let drift ← inspect files db
  ensure (drift.isCurrent = true)
    (s!"repository derived index is stale (missing={drift.missingFromIndex.length}, " ++
      s!"stale={drift.staleInIndex.length}, changed={drift.changedInIndex.length}, " ++
      s!"fts_out_of_sync={drift.ftsOutOfSync}); run `memzoi rebuild` before accessing " ++
      "repository memory")

end Drift

/-! ### Import -/

section Import

variable [Digests]

/-- `crate::import::content_hash`. -/
def contentHash (body : String) : String := Digests.blake3 (Text.trim body)

/-- The row of a canonical record. -/
def OkfRecordFile.toRow (record : OkfRecordFile) : MemoryRecord where
  id := record.conceptId
  memoryType := record.draft.memoryType
  lane := record.draft.lane
  destination := .repo
  scopeKind := record.draft.scopeKind
  scopeId := record.draft.scopeId
  visibility := record.draft.visibility
  title := Text.trim record.draft.title
  body := Text.trim record.draft.body
  status := record.status
  confidence := record.draft.confidence
  sourceKind := record.draft.sourceKind
  sourceRef := record.draft.sourceRef
  proposalId := record.proposalId
  retention := record.retention
  origin := record.origin
  lineage := record.lineage
  contentHash := contentHash record.draft.body
  createdAt := record.created
  updatedAt := record.updated.getD record.created
  supersedesId := record.supersedesId

variable [Entropy]

omit [Digests] in
/-- `INSERT OR IGNORE INTO memory_tag`. -/
def Db.insertTagOrIgnore (db : Db) (t : MemoryTag) : Fallible Db :=
  if t.admitted = true ∧ (db.tags.get? t.key).isNone then db.insertTag t else .ok db

omit [Digests] in
/-- The statements of `import_okf_record` on the tables of tags and paths. -/
def Db.replaceTagsAndPaths (db : Db) (recordId : String) (appliesTo tags : List String) :
    Fallible Db := do
  let db ← runAll (fun db (p : MemoryPath) => db.changePath (.delete p.id)) db
    (db.paths.rows.filter fun p => p.recordId = recordId)
  let db ← runAll (fun db (t : MemoryTag) => db.changeTag (.delete t.key)) db
    (db.tags.rows.filter fun t => t.recordId = recordId)
  let db ← runAll (fun db (p : String × Nat) => db.insertPath
    ⟨s!"{recordId}_path_{p.2}", recordId, none, p.1, none, none, none⟩) db appliesTo.zipIdx
  runAll (fun db tag => db.insertTagOrIgnore ⟨recordId, tag⟩) db tags

variable [CaptureDocuments]

omit [Digests] in
/-- `store_capture_provenance`. -/
def storeCaptureProvenance (db : Db) (recordId : String) (provenance : Option CaptureProvenance) :
    Fallible Db :=
  match provenance with
  | none => db.changeCapture (.delete recordId)
  | some provenance => do
    CaptureDocuments.validateCaptureProvenance provenance
    if (db.captures.get? recordId).isSome then
      db.changeCapture (.update recordId ⟨recordId, provenance⟩)
    else db.insertCapture ⟨recordId, provenance⟩

/-- The upsert of `import_okf_record`: a row of another destination is not touched. -/
def upsertRepoRow (db : Db) (row : MemoryRecord) : Fallible Db :=
  match db.records.get? row.id with
  | none => db.insertRecord row
  | some old =>
    if old.destination = .repo then db.updateRecord old row
    else bail "runtime record identity is already owned by non-repo memory"

def importOkfRecord (db : Db) (record : OkfRecordFile) : Fallible Db := do
  let db ← upsertRepoRow db record.toRow
  let db ← db.replaceTagsAndPaths record.conceptId record.appliesTo record.draft.tags
  storeCaptureProvenance db record.conceptId record.capture

def importOkfRecords (db : Db) (records : List OkfRecordFile) : Fallible Db :=
  runAll importOkfRecord db records

end Import
end Memzoi
