/-
# Packets are read back

Source: `okf.rs` (`plan_okf_create_proposal`, `parse_okf_proposal_markdown`,
`render_resolved_okf_proposal_markdown`).

Reading trims and checks, so what was read once is in the form reading leaves,
and reads the same from a frontmatter that holds it. The two writers differ
only in what they fill in. What is not kept is a title of more lines than one:
its heading is its first line, and the reader holds it against the whole title.
-/

import Memzoi.OkfRules
import Memzoi.Proposals

namespace Memzoi
namespace Okf

open Fallible

/-! ### The texts of a packet -/

theorem parseProposalAction_asStr (x : OkfProposalAction) (key : String) :
    parseRequiredEnum parseProposalAction (some x.asStr) key = .ok x := by
  cases x <;> rfl

theorem parseProposalStatus_asStr (x : OkfProposalStatus) (key : String) :
    parseRequiredEnum parseProposalStatus (some x.asStr) key = .ok x := by
  cases x <;> rfl

theorem parseProposalOutcome_asStr (x : OkfProposalOutcome) (key : String) :
    parseRequiredEnum parseProposalOutcome (some x.asStr) key = .ok x := by
  cases x <;> rfl

theorem parseSensitivity_asStr (x : Maintenance.OkfProposalSensitivity) (key : String) :
    parseRequiredEnum parseSensitivity (some (sensitivityAsStr x)) key = .ok x := by
  cases x <;> rfl

theorem validateStringList_again {values texts : List String} {key : String}
    (h : validateStringList values key = .ok texts) : validateStringList texts key = .ok texts := by
  refine mapAll_again h fun value text htext => ?_
  obtain ⟨hne, htext⟩ := check_bind_eq_ok.1 htext
  cases htext
  rw [Text.trim_trim]
  exact check_bind_eq_ok.2 ⟨hne, rfl⟩

/-! ### The form reading leaves -/

structure CleanMetadata (m : OkfProposalMetadata) : Prop where
  proposedBy : Clean m.proposedBy
  proposedAt : Clean m.proposedAt
  timestamp : ensureTimestampish m.proposedAt "proposal.proposed_at" = .ok ()
  reason : ∀ s ∈ m.reason, Clean s
  confidence : ∀ s ∈ m.confidence, Clean s
  target : ∀ s ∈ m.target, Clean s

structure CleanResolution (r : OkfProposalResolution) : Prop where
  resolvedBy : Clean r.resolvedBy
  resolvedAt : Clean r.resolvedAt
  timestamp : ensureTimestampish r.resolvedAt "resolution.resolved_at" = .ok ()
  reason : ∀ s ∈ r.reason, Clean s
  recordId : ∀ s ∈ r.recordId, Clean s
  targetId : ∀ s ∈ r.targetId, Clean s

/-- A packet whose fields pass their checks and are in the form the checks leave. -/
structure Normal (p : OkfProposalFile) : Prop where
  id : Clean p.id
  identifier : validateProposalIdentifier p.id = .ok ()
  identity : validateSchemaIdentity (some p.id) p.kind (some okfProfile) "proposal" = .ok ()
  profile : p.profile = okfProfile
  title : Clean p.title
  description : Clean p.description
  timestamp : Clean p.timestamp
  timestampish : ensureTimestampish p.timestamp "timestamp" = .ok ()
  scopeId : ∀ s ∈ p.scopeId, Clean s
  appliesTo : validateAppliesTo p.appliesTo = .ok p.appliesTo
  supersedes : validateStringList p.supersedes "supersedes" = .ok p.supersedes
  metadata : CleanMetadata p.proposal
  sources : validateProposalSources p.sources = .ok ()
  resolution : ∀ r ∈ p.resolution, CleanResolution r
  outcome : validateProposalResolution p.status p.resolution = .ok ()
  retention : validateRetentionFacts p.id p.lane p.retention p.timestamp = .ok ()
  origin : Origin.validateDescriptor p.origin = .ok ()
  lineage : validateRecordLineage p.id p.lineage = .ok ()
  body : Text.trimChars p.body.toList = p.body.toList
  filled : p.body.toList ≠ []

theorem metadata_clean {f : Option OkfProposalMetadataFrontmatter} {m : OkfProposalMetadata}
    (h : parseProposalMetadata f = .ok m) : CleanMetadata m := by
  obtain ⟨read, _, h⟩ := bind_eq_ok.1 h
  obtain ⟨action, _, h⟩ := bind_eq_ok.1 h
  obtain ⟨proposedBy, hby, h⟩ := bind_eq_ok.1 h
  obtain ⟨proposedAt, hat, h⟩ := bind_eq_ok.1 h
  obtain ⟨htimestamp, h⟩ := check_bind_eq_ok.1 h
  obtain ⟨reason, hreason, h⟩ := bind_eq_ok.1 h
  obtain ⟨confidence, hconfidence, h⟩ := bind_eq_ok.1 h
  obtain ⟨target, htarget, h⟩ := bind_eq_ok.1 h
  cases h
  exact ⟨requiredString_clean hby, requiredString_clean hat, htimestamp,
    optionalString_clean hreason, optionalString_clean hconfidence, optionalString_clean htarget⟩

theorem metadata_again {m : OkfProposalMetadata} (h : CleanMetadata m) :
    parseProposalMetadata (some m.asRead) = .ok m := by
  unfold parseProposalMetadata OkfProposalMetadata.asRead
  simp only [require_some, ok_bind, parseProposalAction_asStr,
    requiredString_of_clean h.proposedBy, requiredString_of_clean h.proposedAt, h.timestamp,
    optionalString_of_clean h.reason, optionalString_of_clean h.confidence,
    optionalString_of_clean h.target]

theorem resolution_clean {f : Option OkfProposalResolutionFrontmatter}
    {r : Option OkfProposalResolution} (h : parseProposalResolution f = .ok r) :
    ∀ resolution ∈ r, CleanResolution resolution := by
  intro resolution hr
  cases f with
  | none =>
      cases h
      cases hr
  | some read =>
      obtain ⟨outcome, _, h⟩ := bind_eq_ok.1 h
      obtain ⟨resolvedBy, hby, h⟩ := bind_eq_ok.1 h
      obtain ⟨resolvedAt, hat, h⟩ := bind_eq_ok.1 h
      obtain ⟨htimestamp, h⟩ := check_bind_eq_ok.1 h
      obtain ⟨reason, hreason, h⟩ := bind_eq_ok.1 h
      obtain ⟨recordId, hrecord, h⟩ := bind_eq_ok.1 h
      obtain ⟨targetId, htarget, h⟩ := bind_eq_ok.1 h
      cases h
      cases hr
      exact ⟨requiredString_clean hby, requiredString_clean hat, htimestamp,
        optionalString_clean hreason, optionalString_clean hrecord, optionalString_clean htarget⟩

theorem resolution_again {r : Option OkfProposalResolution}
    (h : ∀ resolution ∈ r, CleanResolution resolution) :
    parseProposalResolution (r.map (·.asRead)) = .ok r := by
  cases r with
  | none => rfl
  | some resolution =>
      have hclean := h resolution rfl
      show parseProposalResolution (some resolution.asRead) = _
      unfold parseProposalResolution OkfProposalResolution.asRead
      simp only [ok_bind, parseProposalOutcome_asStr, requiredString_of_clean hclean.resolvedBy,
        requiredString_of_clean hclean.resolvedAt, hclean.timestamp,
        optionalString_of_clean hclean.reason, optionalString_of_clean hclean.recordId,
        optionalString_of_clean hclean.targetId]

/-! ### Reading, field by field -/

/-- How a packet is read from a frontmatter and a body. -/
structure ReadAs (fileId : String) (f : OkfProposalFrontmatter) (body : List Char)
    (p : OkfProposalFile) : Prop where
  fileId : p.fileId = fileId
  id : requiredString f.id "id" = .ok p.id
  identifier : validateProposalIdentifier p.id = .ok ()
  identity : validateSchemaIdentity (some p.id) f.kind f.profile "proposal" = .ok ()
  kind : p.kind = f.kind
  profile : p.profile = okfProfile
  title : requiredString f.title "title" = .ok p.title
  description : requiredString f.description "description" = .ok p.description
  memoryType : parseRequiredEnum parseMemoryType f.memoryType "type" = .ok p.memoryType
  lane : parseRequiredEnum parseMemoryLane f.lane "lane" = .ok p.lane
  status : parseRequiredEnum parseProposalStatus f.status "status" = .ok p.status
  timestamp : requiredString f.timestamp "timestamp" = .ok p.timestamp
  timestampish : ensureTimestampish p.timestamp "timestamp" = .ok ()
  sensitivity : parseRequiredEnum parseSensitivity f.sensitivity "sensitivity" = .ok p.sensitivity
  scope : parseProposalScope f.scope = .ok (p.scopeKind, p.scopeId, p.appliesTo)
  supersedes : validateStringList (f.supersedes.getD []) "supersedes" = .ok p.supersedes
  proposal : parseProposalMetadata f.proposal = .ok p.proposal
  sources : validateProposalSources p.sources = .ok ()
  resolution : parseProposalResolution f.resolution = .ok p.resolution
  outcome : validateProposalResolution p.status p.resolution = .ok ()
  retention : validateRetentionFacts p.id p.lane p.retention p.timestamp = .ok ()
  origin : Origin.validateDescriptor p.origin = .ok ()
  lineage : validateRecordLineage p.id p.lineage = .ok ()
  body : bodyWithoutMatchingH1 body p.title.toList = .ok p.body.toList
  filled : Text.trimChars p.body.toList ≠ []
  contentClass : parseRequiredEnum parseContentClass f.contentClass "content_class" =
    .ok p.contentClass
  kept : p.tags = f.tags.getD [] ∧ p.createdBy = f.createdBy ∧ p.sources = f.sources.getD [] ∧
    p.capture = f.capture ∧ f.retention = some p.retention ∧ f.origin = some p.origin ∧
    p.lineage = f.lineage

theorem readAs_of_read {fileId : String} {f : OkfProposalFrontmatter} {body : List Char}
    {p : OkfProposalFile} (h : proposalOfFrontmatter fileId f body = .ok p) :
    ReadAs fileId f body p := by
  obtain ⟨id, hid, h⟩ := bind_eq_ok.1 h
  obtain ⟨hidentifier, h⟩ := check_bind_eq_ok.1 h
  obtain ⟨hidentity, h⟩ := check_bind_eq_ok.1 h
  obtain ⟨title, htitle, h⟩ := bind_eq_ok.1 h
  obtain ⟨description, hdescription, h⟩ := bind_eq_ok.1 h
  obtain ⟨memoryType, hmemoryType, h⟩ := bind_eq_ok.1 h
  obtain ⟨lane, hlane, h⟩ := bind_eq_ok.1 h
  obtain ⟨status, hstatus, h⟩ := bind_eq_ok.1 h
  obtain ⟨timestamp, htimestamp, h⟩ := bind_eq_ok.1 h
  obtain ⟨hish, h⟩ := check_bind_eq_ok.1 h
  obtain ⟨sensitivity, hsensitivity, h⟩ := bind_eq_ok.1 h
  obtain ⟨⟨scopeKind, scopeId, appliesTo⟩, hscope, h⟩ := bind_eq_ok.1 h
  obtain ⟨supersedes, hsupersedes, h⟩ := bind_eq_ok.1 h
  obtain ⟨metadata, hmetadata, h⟩ := bind_eq_ok.1 h
  obtain ⟨hsources, h⟩ := check_bind_eq_ok.1 h
  obtain ⟨resolution, hresolution, h⟩ := bind_eq_ok.1 h
  obtain ⟨houtcome, h⟩ := check_bind_eq_ok.1 h
  obtain ⟨retention, hkeptRetention, h⟩ := bind_eq_ok.1 h
  obtain ⟨hretention, h⟩ := check_bind_eq_ok.1 h
  obtain ⟨origin, hkeptOrigin, h⟩ := bind_eq_ok.1 h
  obtain ⟨horigin, h⟩ := check_bind_eq_ok.1 h
  obtain ⟨hlineage, h⟩ := check_bind_eq_ok.1 h
  obtain ⟨under, hunder, h⟩ := bind_eq_ok.1 h
  obtain ⟨hfilled, h⟩ := check_bind_eq_ok.1 h
  obtain ⟨contentClass, hcontentClass, h⟩ := bind_eq_ok.1 h
  cases h
  have hchars : (String.ofList under).toList = under := String.toList_ofList
  exact {
    fileId := rfl
    id := hid
    identifier := hidentifier
    identity := hidentity
    kind := rfl
    profile := rfl
    title := htitle
    description := hdescription
    memoryType := hmemoryType
    lane := hlane
    status := hstatus
    timestamp := htimestamp
    timestampish := hish
    sensitivity := hsensitivity
    scope := hscope
    supersedes := hsupersedes
    proposal := hmetadata
    sources := hsources
    resolution := hresolution
    outcome := houtcome
    retention := hretention
    origin := withContext_eq_ok.1 horigin
    lineage := hlineage
    body := hunder.trans (congrArg Except.ok hchars.symm)
    filled := hchars.symm ▸ ensure_eq_ok.1 hfilled
    contentClass := hcontentClass
    kept := ⟨rfl, rfl, rfl, rfl, require_eq_ok.1 hkeptRetention, require_eq_ok.1 hkeptOrigin,
      rfl⟩ }

theorem read_of_readAs {fileId : String} {f : OkfProposalFrontmatter} {body : List Char}
    {p : OkfProposalFile} (h : ReadAs fileId f body p) :
    proposalOfFrontmatter fileId f body = .ok p := by
  obtain ⟨htags, hcreatedBy, hsources, hcapture, hretention, horigin, hlineage⟩ := h.kept
  unfold proposalOfFrontmatter
  refine bind_eq_ok.2 ⟨_, h.id, check_bind_eq_ok.2 ⟨h.identifier,
    check_bind_eq_ok.2 ⟨h.identity, bind_eq_ok.2 ⟨_, h.title, bind_eq_ok.2 ⟨_, h.description,
    bind_eq_ok.2 ⟨_, h.memoryType, bind_eq_ok.2 ⟨_, h.lane, bind_eq_ok.2 ⟨_, h.status,
    bind_eq_ok.2 ⟨_, h.timestamp, check_bind_eq_ok.2 ⟨h.timestampish,
    bind_eq_ok.2 ⟨_, h.sensitivity, bind_eq_ok.2 ⟨_, h.scope, bind_eq_ok.2 ⟨_, h.supersedes,
    bind_eq_ok.2 ⟨_, h.proposal, check_bind_eq_ok.2 ⟨hsources ▸ h.sources,
    bind_eq_ok.2 ⟨_, h.resolution, check_bind_eq_ok.2 ⟨h.outcome,
    bind_eq_ok.2 ⟨_, require_eq_ok.2 hretention, check_bind_eq_ok.2 ⟨h.retention,
    bind_eq_ok.2 ⟨_, require_eq_ok.2 horigin,
    check_bind_eq_ok.2 ⟨withContext_eq_ok.2 h.origin,
    check_bind_eq_ok.2 ⟨hlineage ▸ h.lineage,
    bind_eq_ok.2 ⟨_, h.body, check_bind_eq_ok.2 ⟨ensure_of h.filled,
    bind_eq_ok.2 ⟨_, h.contentClass, congrArg Except.ok ?_⟩⟩⟩⟩⟩⟩⟩⟩⟩⟩⟩⟩⟩⟩⟩⟩⟩⟩⟩⟩⟩⟩⟩⟩⟩
  rw [String.ofList_toList, ← htags, ← hcreatedBy, ← hsources, ← hcapture, ← hlineage, ← h.kind,
    ← h.profile, ← h.fileId]

/-- What reading gives is in the form reading leaves. -/
theorem ReadAs.normal {fileId : String} {f : OkfProposalFrontmatter} {body : List Char}
    {p : OkfProposalFile} (h : ReadAs fileId f body p) : Normal p := by
  obtain ⟨scope, _, hscope⟩ := bind_eq_ok.1 h.scope
  obtain ⟨kind, _, hscope⟩ := bind_eq_ok.1 hscope
  obtain ⟨scopeId, hscopeId, hscope⟩ := bind_eq_ok.1 hscope
  obtain ⟨appliesTo, happliesTo, hscope⟩ := bind_eq_ok.1 hscope
  obtain ⟨-, rfl, rfl⟩ : kind = p.scopeKind ∧ scopeId = p.scopeId ∧ appliesTo = p.appliesTo := by
    simpa using hscope
  have htrimmed := trimmed_bodyWithoutMatchingH1 h.body
  exact {
    id := requiredString_clean h.id
    identifier := h.identifier
    identity := h.kind ▸ validateSchemaIdentity_profile h.identity
    profile := h.profile
    title := requiredString_clean h.title
    description := requiredString_clean h.description
    timestamp := requiredString_clean h.timestamp
    timestampish := h.timestampish
    scopeId := optionalString_clean hscopeId
    appliesTo := validateAppliesTo_again happliesTo
    supersedes := validateStringList_again h.supersedes
    metadata := metadata_clean h.proposal
    sources := h.sources
    resolution := resolution_clean h.resolution
    outcome := h.outcome
    retention := h.retention
    origin := h.origin
    lineage := h.lineage
    body := htrimmed
    filled := htrimmed ▸ h.filled }

theorem scope_again {p : OkfProposalFile} (h : Normal p) :
    parseProposalScope p.written.asRead.scope = .ok (p.scopeKind, p.scopeId, p.appliesTo) := by
  show parseProposalScope
    (some ⟨some p.scopeKind.asStr, p.scopeId, someIfAny p.appliesTo⟩) = _
  unfold parseProposalScope
  simp only [require_some, ok_bind, parseScopeKind_asStr, optionalString_of_clean h.scopeId,
    getD_someIfAny, h.appliesTo]

/-- A packet in that form is read from a frontmatter that holds it and its body. -/
theorem Normal.readAs {p : OkfProposalFile} (h : Normal p) {body : List Char}
    (hunder : bodyWithoutMatchingH1 body p.title.toList = .ok p.body.toList) :
    ReadAs p.fileId p.written.asRead body p where
  fileId := rfl
  id := requiredString_of_clean h.id "id"
  identifier := h.identifier
  identity := by
    show validateSchemaIdentity (some p.id) p.kind (some p.profile) "proposal" = .ok ()
    rw [h.profile]
    exact h.identity
  kind := rfl
  profile := h.profile
  title := requiredString_of_clean h.title "title"
  description := requiredString_of_clean h.description "description"
  memoryType := parseMemoryType_asStr p.memoryType "type"
  lane := parseMemoryLane_asStr p.lane "lane"
  status := parseProposalStatus_asStr p.status "status"
  timestamp := requiredString_of_clean h.timestamp "timestamp"
  timestampish := h.timestampish
  sensitivity := parseSensitivity_asStr p.sensitivity "sensitivity"
  scope := scope_again h
  supersedes := h.supersedes
  proposal := metadata_again h.metadata
  sources := h.sources
  resolution := resolution_again h.resolution
  outcome := h.outcome
  retention := h.retention
  origin := h.origin
  lineage := h.lineage
  body := hunder
  filled := h.body.symm ▸ h.filled
  contentClass := parseContentClass_asStr p.contentClass "content_class"
  kept := ⟨(getD_someIfAny p.tags).symm, rfl, (getD_someIfAny p.sources).symm, rfl, rfl, rfl, rfl⟩

/-! ### Packets as they are written -/

section Texts

variable [ProposalYaml] {path : String} {w : OkfWrittenFrontmatter} {p : OkfProposalFile}

/-- The YAML library on one frontmatter: what it prints ends with its last line, begins no line
with a closing mark, and is read back. -/
def Lossless (w : OkfWrittenFrontmatter) : Prop :=
  ∃ yaml, ProposalYaml.write w = yaml ++ [ '\n'] ∧ NoMark yaml ∧ ProposalYaml.read yaml = .ok w.asRead

/-- What stands under the frontmatter of a packet. -/
def packetBody (title body : String) : List Char :=
  [ '\n'] ++ "# ".toList ++ Text.trimChars title.toList ++ "\n\n".toList ++
    Text.trimChars body.toList ++ [ '\n']

theorem parse_packetText (hreserved : isReservedRecordFile path = false) {fileId : String}
    (hid : proposalFileId path = .ok fileId) (hyaml : Lossless w) (title body : String) :
    parseOkfProposalMarkdown path (packetText w title body) =
      some <$> proposalOfFrontmatter fileId w.asRead (packetBody title body) := by
  obtain ⟨yaml, hwrite, hmark, hread⟩ := hyaml
  have htext : packetText w title body =
      "---\n".toList ++ (yaml ++ ("\n---".toList ++ ( '\n' :: packetBody title body))) := by
    unfold packetText packetBody
    rw [hwrite]
    simp only [String.reduceToList, List.append_assoc, List.cons_append, List.nil_append]
  have hfrontmatter : readProposalFrontmatter fileId yaml = .ok w.asRead := by
    rw [readProposalFrontmatter, hread]
  unfold parseOkfProposalMarkdown
  rw [hreserved, if_neg (by decide), hid, ok_bind, htext, splitFrontmatter_of_noMark hmark,
    ok_bind]
  dsimp only
  rw [hfrontmatter, ok_bind, map_eq_pure_bind]
  rfl

/-- A packet is read from a text it was read from before. -/
theorem readAs_of_parse {text : List Char} (h : parseOkfProposalMarkdown path text = .ok (some p)) :
    isReservedRecordFile path = false ∧ proposalFileId path = .ok p.fileId ∧ Normal p := by
  unfold parseOkfProposalMarkdown at h
  split at h
  · cases h
  · rename_i hreserved
    obtain ⟨fileId, hid, h⟩ := bind_eq_ok.1 h
    obtain ⟨⟨frontmatter, body⟩, _, h⟩ := bind_eq_ok.1 h
    obtain ⟨f, _, h⟩ := bind_eq_ok.1 h
    obtain ⟨p', hp, h⟩ := bind_eq_ok.1 h
    cases h
    have hread := readAs_of_read hp
    exact ⟨by simpa using hreserved, hread.fileId ▸ hid, hread.normal⟩

/-- A normal packet is read back from its own text, if its title is one line. -/
theorem parse_written_iff (hreserved : isReservedRecordFile path = false)
    (hid : proposalFileId path = .ok p.fileId) (hyaml : Lossless p.written)
    (htitle : Clean p.title) (hbody : Text.trimChars p.body.toList = p.body.toList) :
    parseOkfProposalMarkdown path (packetText p.written p.title p.body) = .ok (some p) ↔
      '\n' ∉ p.title.toList ∧ Normal p := by
  have htrimmed := htitle.trimChars
  have hheading := bodyWithoutMatchingH1_written htrimmed p.body.toList
  rw [parse_packetText hreserved hid hyaml, map_eq_ok]
  constructor
  · rintro ⟨p', hp, hsame⟩
    cases hsame
    have hread := readAs_of_read hp
    refine ⟨fun hnewline => ?_, hread.normal⟩
    have hunder := hread.body
    rw [packetBody, htrimmed, hheading, if_pos hnewline] at hunder
    exact bail_ne_ok hunder
  · rintro ⟨hnewline, hnormal⟩
    refine ⟨p, read_of_readAs (hnormal.readAs ?_), rfl⟩
    rw [packetBody, htrimmed, hheading, if_neg hnewline, hbody]

/-! ### Planning a packet -/

omit [ProposalYaml] in
theorem requiredString_some {text read key : String} (htrim : Text.trim text = text)
    (h : requiredString (some text) key = .ok read) : read = text := by
  obtain ⟨raw, hraw, h⟩ := bind_eq_ok.1 h
  obtain ⟨_, h⟩ := check_bind_eq_ok.1 h
  cases hraw
  cases h
  exact htrim

omit [ProposalYaml] in
theorem trim_trimmedOptional {value : Option String} {text : String}
    (h : text ∈ trimmedOptional value) : Text.trim text = text := by
  obtain ⟨hmap, _⟩ := Option.filter_eq_some_iff.1 h
  obtain ⟨raw, _, rfl⟩ := Option.map_eq_some_iff.1 hmap
  exact Text.trim_trim raw

omit [ProposalYaml] in
theorem optionalString_some {value text : Option String} {key : String}
    (htrim : ∀ s ∈ value, Text.trim s = s) (h : optionalString value key = .ok text) :
    text = value := by
  cases value with
  | none =>
      cases h
      rfl
  | some raw =>
      obtain ⟨_, h⟩ := check_bind_eq_ok.1 h
      cases h
      rw [htrim raw rfl]

omit [ProposalYaml] in
theorem validateAppliesTo_trimmed {values paths : List String}
    (h : validateAppliesTo (values.map Text.trim) = .ok paths) : paths = values.map Text.trim := by
  refine validateAppliesTo_fixed (fun value hvalue => ?_) h
  obtain ⟨raw, _, rfl⟩ := List.mem_map.1 hvalue
  exact Text.trim_trim raw

omit [ProposalYaml] in
/-- Trimmed metadata is read as it is. -/
theorem metadata_trimmed {m read : OkfProposalMetadata} (hby : Text.trim m.proposedBy = m.proposedBy)
    (hat : Text.trim m.proposedAt = m.proposedAt) (hreason : ∀ s ∈ m.reason, Text.trim s = s)
    (hconfidence : m.confidence = none) (htarget : m.target = none)
    (h : parseProposalMetadata (some m.asRead) = .ok read) : read = m := by
  obtain ⟨action, by_, at_, reason, confidence, target⟩ := m
  obtain ⟨f, hf, h⟩ := bind_eq_ok.1 h
  cases hf
  obtain ⟨action', haction, h⟩ := bind_eq_ok.1 h
  cases (parseProposalAction_asStr action _).symm.trans haction
  obtain ⟨by', hby', h⟩ := bind_eq_ok.1 h
  obtain ⟨at', hat', h⟩ := bind_eq_ok.1 h
  obtain ⟨_, h⟩ := check_bind_eq_ok.1 h
  obtain ⟨reason', hreason', h⟩ := bind_eq_ok.1 h
  obtain ⟨confidence', hconfidence', h⟩ := bind_eq_ok.1 h
  obtain ⟨target', htarget', h⟩ := bind_eq_ok.1 h
  cases h
  cases hconfidence
  cases htarget
  cases hconfidence'
  cases htarget'
  rw [requiredString_some hby hby', requiredString_some hat hat',
    optionalString_some hreason hreason']

omit [ProposalYaml] in
/-- What is read from the frontmatter of a draft is the draft, normalized. -/
theorem normalized_of_readAs {draft : OkfCreateProposalDraft} {body : List Char}
    (h : ReadAs (Text.trim draft.proposalId) (createFrontmatter draft).asRead body p)
    (hbody : p.body = Text.trim draft.body) : p = draft.normalized := by
  obtain ⟨htags, hcreatedBy, hsources, hcapture, hretention, horigin, hlineage⟩ := h.kept
  have hid := requiredString_some (Text.trim_trim _) h.id
  have htitle := requiredString_some (Text.trim_trim _) h.title
  have hdescription := requiredString_some
    (show Text.trim (String.ofList (firstNonEmptyLine draft.body.toList)) =
        String.ofList (firstNonEmptyLine draft.body.toList) by
      rw [Text.trim, String.toList_ofList, firstNonEmptyLine, Text.trimChars_trimChars])
    h.description
  have htimestamp := requiredString_some (Text.trim_trim _) h.timestamp
  have hmemoryType := Except.ok.inj ((parseMemoryType_asStr draft.memoryType _).symm.trans
    h.memoryType)
  have hlane := Except.ok.inj ((parseMemoryLane_asStr draft.lane _).symm.trans h.lane)
  have hstatus : OkfProposalStatus.proposed = p.status := Except.ok.inj
    ((parseProposalStatus_asStr .proposed _).symm.trans h.status)
  have hsensitivity := Except.ok.inj ((parseSensitivity_asStr draft.sensitivity _).symm.trans
    h.sensitivity)
  have hcontentClass := Except.ok.inj ((parseContentClass_asStr draft.contentClass _).symm.trans
    h.contentClass)
  have hsupersedes : [] = p.supersedes := Except.ok.inj h.supersedes
  have hresolution : none = p.resolution := Except.ok.inj h.resolution
  obtain ⟨scope, hscope, hrest⟩ := bind_eq_ok.1 h.scope
  cases hscope
  obtain ⟨kind, hkind, hrest⟩ := bind_eq_ok.1 hrest
  cases (parseScopeKind_asStr draft.scopeKind _).symm.trans hkind
  obtain ⟨scopeId, hscopeId, hrest⟩ := bind_eq_ok.1 hrest
  obtain ⟨appliesTo, happliesTo, hrest⟩ := bind_eq_ok.1 hrest
  have hscopeId' := optionalString_some (fun s => trim_trimmedOptional) hscopeId
  have happliesTo' : appliesTo = draft.appliesTo.map Text.trim := by
    refine validateAppliesTo_trimmed ?_
    rw [← happliesTo]
    exact congrArg validateAppliesTo (getD_someIfAny _).symm
  obtain ⟨hscopeKind, hrest⟩ := Prod.mk.inj (Except.ok.inj hrest)
  obtain ⟨hpScopeId, hpAppliesTo⟩ := Prod.mk.inj hrest
  have hproposal : p.proposal = (createFrontmatter draft).proposal :=
    metadata_trimmed (Text.trim_trim draft.actor) (Text.trim_trim draft.timestamp)
      (fun s => trim_trimmedOptional) rfl rfl h.proposal
  show OkfProposalFile.mk p.fileId p.id p.kind p.profile p.memoryType p.lane p.title p.description
    p.body p.status p.proposal p.scopeKind p.scopeId p.appliesTo p.tags p.timestamp p.createdBy
    p.sources p.supersedes p.sensitivity p.contentClass p.resolution p.capture p.retention p.origin
    p.lineage = _
  rw [h.fileId, hid, h.kind, h.profile, ← hmemoryType, ← hlane, htitle, hdescription, hbody,
    ← hstatus, hproposal, ← hscopeKind, ← hpScopeId, hscopeId', ← hpAppliesTo, happliesTo', htags,
    htimestamp, hcreatedBy, hsources, ← hsupersedes, ← hsensitivity, ← hcontentClass,
    ← hresolution, hcapture, ← Option.some.inj hretention, ← Option.some.inj horigin, hlineage]
  show OkfProposalFile.mk _ _ _ _ _ _ _ _ _ _ _ _ _ _ ((someIfAny (draft.tags.map Text.trim)).getD [])
    _ _ ((someIfAny (createFrontmatter draft).sources).getD []) _ _ _ _ _ _ _ _ = _
  rw [getD_someIfAny, getD_someIfAny]
  rfl

omit [ProposalYaml] in
theorem path_of_proposalFileId {fileId : String} (h : proposalFileId path = .ok fileId) :
    path = fileId ++ ".md" := by
  obtain ⟨raw, hraw, h⟩ := bind_eq_ok.1 h
  obtain ⟨_, h⟩ := check_bind_eq_ok.1 h
  cases h
  obtain ⟨stem, hstem, hraw⟩ := bind_eq_ok.1 hraw
  obtain ⟨_, hraw⟩ := check_bind_eq_ok.1 hraw
  rw [← Except.ok.inj hraw]
  exact path_of_stem (require_eq_ok.1 hstem)

/-- **A written packet is the packet planned.** What is planned for a draft is read, at the planned
path, as the draft with its texts trimmed. -/
theorem planned_packet_is_read {packetExists : String → Fallible Bool}
    {draft : OkfCreateProposalDraft} {plan : OkfCreateProposalPlan}
    (hplan : planOkfCreateProposal packetExists draft = .ok plan)
    (hyaml : Lossless (createFrontmatter draft)) :
    parseOkfProposalMarkdown plan.path plan.markdown = .ok (some draft.normalized) := by
  obtain ⟨_, hplan⟩ := check_bind_eq_ok.1 hplan
  obtain ⟨_, _, hplan⟩ := bind_eq_ok.1 hplan
  obtain ⟨_, hplan⟩ := check_bind_eq_ok.1 hplan
  obtain ⟨markdown, hrender, hplan⟩ := bind_eq_ok.1 hplan
  obtain ⟨parsed, hparse, hplan⟩ := bind_eq_ok.1 hplan
  obtain ⟨p, hsome, hplan⟩ := bind_eq_ok.1 hplan
  obtain ⟨_, hplan⟩ := check_bind_eq_ok.1 hplan
  cases hplan
  obtain ⟨_, hrender⟩ := check_bind_eq_ok.1 hrender
  cases hrender
  obtain rfl := require_eq_ok.1 hsome
  obtain ⟨hreserved, hid, _⟩ := readAs_of_parse hparse
  have hfileId : p.fileId = Text.trim draft.proposalId := by
    have hpath := congrArg String.toList (path_of_proposalFileId hid)
    rw [String.toList_append, String.toList_append] at hpath
    exact (String.toList_inj.1 (List.append_cancel_right hpath)).symm
  rw [hfileId] at hid
  have hread := hparse
  rw [parse_packetText hreserved hid hyaml, map_eq_ok] at hread
  obtain ⟨_, hread, hsame⟩ := hread
  cases hsame
  have hfields := readAs_of_read hread
  have hbody : p.body = Text.trim draft.body := by
    have hunder := hfields.body
    have htitle : p.title.toList = Text.trimChars draft.title.toList := by
      rw [requiredString_some (Text.trim_trim _) hfields.title]
      exact String.toList_ofList
    rw [htitle, packetBody, bodyWithoutMatchingH1_written (Text.trimChars_trimChars _)] at hunder
    split at hunder
    · exact absurd hunder bail_ne_ok
    · rw [Text.trim, Except.ok.inj hunder, String.ofList_toList]
  show parseOkfProposalMarkdown _ _ = _
  rw [← normalized_of_readAs hfields hbody]
  exact hparse

/-! ### Resolving a packet -/

omit [ProposalYaml] in
/-- A resolved packet is in the form reading leaves when its resolution is. -/
theorem normal_resolved_iff {resolution : OkfProposalResolution} (h : Normal p)
    (houtcome : validateProposalResolution resolution.outcome.status (some resolution) = .ok ()) :
    Normal (p.resolved resolution) ↔ CleanResolution resolution := by
  constructor
  · intro hresolved
    exact hresolved.resolution resolution rfl
  · intro hclean
    refine { h with resolution := ?_, outcome := houtcome }
    intro r hr
    cases hr
    exact hclean

/-- **Resolving keeps a packet exactly when** its title is one line and the resolution is in the
form reading leaves: only then is the resolved text read as the packet with its outcome. -/
theorem resolve_keeps_packet_iff {text markdown : List Char} {resolution : OkfProposalResolution}
    (hparse : parseOkfProposalMarkdown path text = .ok (some p))
    (hrender : renderResolvedOkfProposalMarkdown p resolution = .ok markdown) {path' : String}
    (hpath : proposalFileId path' = .ok p.fileId) (hyaml : Lossless (p.resolved resolution).written) :
    parseOkfProposalMarkdown path' markdown = .ok (some (p.resolved resolution)) ↔
      '\n' ∉ p.title.toList ∧ CleanResolution resolution := by
  obtain ⟨hreserved, hid, hnormal⟩ := readAs_of_parse hparse
  obtain ⟨_, hrender⟩ := check_bind_eq_ok.1 hrender
  obtain ⟨houtcome, hrender⟩ := check_bind_eq_ok.1 hrender
  cases hrender
  have hsame : path' = path := (path_of_proposalFileId hpath).trans (path_of_proposalFileId hid).symm
  subst hsame
  rw [← normal_resolved_iff hnormal houtcome]
  exact parse_written_iff hreserved hid hyaml hnormal.title hnormal.body

end Texts

/-! ### A packet about retries -/

/-- A YAML library that knows some frontmatters and their texts. -/
@[reducible] def ProposalYaml.knowing (texts : List (OkfWrittenFrontmatter × List Char)) :
    ProposalYaml where
  write w := ((texts.find? fun known => known.1 = w).map fun known => known.2 ++ [ '\n']).getD []
  read yaml :=
    match texts.find? fun known => known.2 = yaml with
    | some known => .ok known.1.asRead
    | none => .error "unknown frontmatter"

def retryDraft (title : String) : OkfCreateProposalDraft where
  proposalId := "retry-policy"
  memoryType := .decision
  lane := .semantic
  title := title
  body := "Retry twice"
  actor := "reviewer"
  timestamp := "2026-07-14T10:00:00Z"
  reason := none
  scopeKind := .repo
  scopeId := none
  appliesTo := []
  tags := []
  sources := []
  sensitivity := .repoSafe
  contentClass := .generalRepoKnowledge
  capture := none
  retention := ⟨none, none, none, none, none, none⟩
  origin := ⟨"retry-policy", .repositoryProposal⟩
  lineage := none

def retryResolution : OkfProposalResolution :=
  ⟨.applied, "reviewer", "2026-07-14T12:00:00Z", none, some "retry-policy", none⟩

/-- The frontmatter of the packet, as the library prints it. -/
def retryYaml (title status : String) (resolution : List String) : List Char :=
  List.intercalate [ '\n'] ((["id: retry-policy", "kind: proposal", "profile: memzoi", "type: decision",
    "lane: semantic", title, "description: Retry twice", status, "proposal:", "  action: create",
    "  proposed_by: reviewer", "  proposed_at: 2026-07-14T10:00:00Z", "scope:", "  kind: repo",
    "timestamp: 2026-07-14T10:00:00Z", "created_by: reviewer", "supersedes: []",
    "sensitivity: repo-safe", "content_class: general_repo_knowledge"] ++ resolution ++
    ["retention: \x7b\x7d", "origin:", "  origin_key: retry-policy",
      "  route: repository_proposal"]).map String.toList)

def plannedYaml (title : String) : List Char := retryYaml title "status: proposed" []

def appliedYaml (title : String) : List Char :=
  retryYaml title "status: applied" ["resolution:", "  outcome: applied",
    "  resolved_by: reviewer", "  resolved_at: 2026-07-14T12:00:00Z", "  record_id: retry-policy"]

/-- The library, on the packet of that title before and after it is applied. -/
@[reducible] def retryLibrary (title printed : String) : ProposalYaml :=
  .knowing [(createFrontmatter (retryDraft title), plannedYaml printed),
    (((retryDraft title).normalized.resolved retryResolution).written, appliedYaml printed)]

@[reducible] def oneLineLibrary : ProposalYaml :=
  retryLibrary "Retry policy" "title: Retry policy"

@[reducible] def twoLineLibrary : ProposalYaml :=
  retryLibrary "Retry policy\nwith backoff" "title: |-\n  Retry policy\n  with backoff"

/-- The text a draft is planned with. -/
def plannedText [ProposalYaml] (draft : OkfCreateProposalDraft) : List Char :=
  packetText (createFrontmatter draft) draft.title draft.body

theorem retry_packet_texts :
    (∀ w ∈ [createFrontmatter (retryDraft "Retry policy"),
        ((retryDraft "Retry policy").normalized.resolved retryResolution).written],
      @ProposalYaml.write oneLineLibrary w = (@ProposalYaml.write oneLineLibrary w).dropLast ++ [ '\n'] ∧
      ¬ "\n---".toList <:+: (@ProposalYaml.write oneLineLibrary w).dropLast ∧
      @ProposalYaml.read oneLineLibrary (@ProposalYaml.write oneLineLibrary w).dropLast =
        .ok w.asRead) ∧
    (@planOkfCreateProposal oneLineLibrary (fun _ => .ok false)
      (retryDraft "Retry policy")).toOption.any (fun _ => true) = true ∧
    @parseOkfProposalMarkdown oneLineLibrary "retry-policy.md"
      (@plannedText oneLineLibrary (retryDraft "Retry policy")) =
        .ok (some (retryDraft "Retry policy").normalized) ∧
    (@renderResolvedOkfProposalMarkdown oneLineLibrary (retryDraft "Retry policy").normalized
      retryResolution).toOption.any (fun _ => true) = true ∧
    proposalFileId "retry-policy.md" = .ok "retry-policy" := by
  decide +kernel

theorem lossless_retry {w : OkfWrittenFrontmatter} (hw : w ∈ [createFrontmatter (retryDraft "Retry policy"),
    ((retryDraft "Retry policy").normalized.resolved retryResolution).written]) :
    @Lossless oneLineLibrary w := by
  obtain ⟨hwrite, hmark, hread⟩ := retry_packet_texts.1 w hw
  exact ⟨_, hwrite, hmark, hread⟩

/-- The packet about retries is planned, and read as its draft. -/
theorem retry_packet_planned :
    ∃ plan, @planOkfCreateProposal oneLineLibrary (fun _ => .ok false) (retryDraft "Retry policy") =
        .ok plan ∧
      @parseOkfProposalMarkdown oneLineLibrary plan.path plan.markdown =
        .ok (some (retryDraft "Retry policy").normalized) := by
  obtain ⟨plan, hplan, _⟩ := ok_of_any retry_packet_texts.2.1
  exact ⟨plan, hplan, @planned_packet_is_read oneLineLibrary _ _ _ hplan
    (lossless_retry List.mem_cons_self)⟩

/-- The packet about retries is applied, and read with its outcome. -/
theorem retry_packet_resolved :
    ∃ p markdown, @parseOkfProposalMarkdown oneLineLibrary "retry-policy.md"
        (@plannedText oneLineLibrary (retryDraft "Retry policy")) = .ok (some p) ∧
      @renderResolvedOkfProposalMarkdown oneLineLibrary p retryResolution = .ok markdown ∧
      @parseOkfProposalMarkdown oneLineLibrary "retry-policy.md" markdown =
        .ok (some (p.resolved retryResolution)) := by
  obtain ⟨_, _, hparse, hrender, hpath⟩ := retry_packet_texts
  obtain ⟨markdown, hrender, _⟩ := ok_of_any hrender
  have hyaml : @Lossless oneLineLibrary
      ((retryDraft "Retry policy").normalized.resolved retryResolution).written :=
    lossless_retry (List.mem_cons_of_mem _ List.mem_cons_self)
  have hclean : CleanResolution retryResolution :=
    { resolvedBy := ⟨by decide, by decide⟩
      resolvedAt := ⟨by decide, by decide⟩
      timestamp := by decide
      reason := by simp [retryResolution]
      recordId := by
        intro s hs
        cases hs
        exact ⟨by decide, by decide⟩
      targetId := by simp [retryResolution] }
  exact ⟨_, markdown, hparse, hrender,
    (@resolve_keeps_packet_iff oneLineLibrary _ _ _ _ _ hparse hrender _ hpath hyaml).2
      ⟨by decide, hclean⟩⟩

/-- A packet with a title of two lines is accepted without a heading, and applied with one that the
reader refuses. -/
theorem two_line_title_lost :
    ∃ text p markdown, @parseOkfProposalMarkdown twoLineLibrary "retry-policy.md" text =
        .ok (some p) ∧ p.status = .proposed ∧
      @renderResolvedOkfProposalMarkdown twoLineLibrary p retryResolution = .ok markdown ∧
      @parseOkfProposalMarkdown twoLineLibrary "retry-policy.md" markdown =
        bail "OKF H1 title must match frontmatter title" := by
  refine ⟨"---\n".toList ++ plannedYaml "title: |-\n  Retry policy\n  with backoff" ++
      "\n---\n\nRetry twice\n".toList,
    (retryDraft "Retry policy\nwith backoff").normalized,
    @packetText twoLineLibrary ((retryDraft "Retry policy\nwith backoff").normalized.resolved
      retryResolution).written "Retry policy\nwith backoff" "Retry twice", ?_⟩
  decide +kernel

end Okf
end Memzoi
