/-
# The instruction block of an integration

Source: `integrate.rs` (`memzoi_instruction_block`, `upsert_memzoi_block`), with
the prompts of the profiles.

The block stands between a start and an end marker. An update replaces the text
from the first start marker to the next end marker, or appends the block. Text
behind the block grows by a newline at each update, and a start marker without
an end is taken for the start of the block that was appended, so an update can
be repeated exactly when neither is there (`upsertMemzoiBlock_iff`). The prompts
have no `!`, so a marker in a block is one of its own.
-/

import Memzoi.Capture.Instruction
import Memzoi.Lib.Occurrence
import Memzoi.MemoryPolicy

namespace Memzoi
namespace Integrate

open Occurrence SourceText Text

/-! ### Prompts -/

inductive IntegrateProfile where
  | codex | claude | mcp
  deriving DecidableEq, Repr

def destinationLine (destination : MemoryDestination) : String :=
  let policy := destination.policy
  "  - `" ++ destination.asStr ++ "`: plane `" ++ (policy.plane.map MemoryPlane.asStr).getD "none" ++
    "`, route `" ++ policy.writeRoute.asStr ++ "`, review `" ++ policy.review.asStr ++ "`."

/-- `exclusion.as_str().replace('_', " ")`. -/
def exclusionWords (exclusion : RepoMemoryExclusion) : String :=
  String.ofList (exclusion.asStr.toList.map fun c => if c = '_' then ' ' else c)

def memzoiPolicyBlock : String :=
  let destinations := "\n".intercalate (MemoryDestination.all.map destinationLine)
  let repoPlane := (MemoryDestination.repo.policy.plane.map MemoryPlane.asStr).getD "none"
  let runtimePlane := (MemoryDestination.«local».policy.plane.map MemoryPlane.asStr).getD "none"
  let exclusions := ", ".intercalate (twoPlaneMemoryPolicy.repoExclusions.map exclusionWords)
  let futureDestinations := ", ".intercalate twoPlaneMemoryPolicy.futureDestinations
  "Memzoi's canonical two-plane memory policy:
- Git-plane repo memory (`" ++ repoPlane ++ "`) is reviewed, durable project truth in `" ++
    twoPlaneMemoryPolicy.canonicalRecordsGlob ++ "`.
- Runtime-plane local/session memory (`" ++ runtimePlane ++ "`) is local continuity under `" ++
    twoPlaneMemoryPolicy.runtimeProjectRootTemplate ++ "` and is not canonical shared repo truth.
- Destination policy (destination → plane, write route, review boundary):\n" ++
    destinations ++ "
- `memzoi propose` creates reviewable operational state; MCP is read-only and its plans are evidence, not canonical records.
- Canonical repo writes require an explicit CLI apply route: DB proposals use `memzoi apply <proposal-id>` or `memzoi proposals apply --all-approved` after approval, or the one-shot `memzoi propose --apply` route; file-backed proposal packets require review followed by `memzoi proposal-files apply <proposal-id>`. DB proposal state and packet review alone are not canonical.
- Do not commit " ++ exclusions ++ " to canonical repo records.
- Future destinations not enabled by this integration: " ++ futureDestinations ++ "."

def codexPromptPrefix : String :=
  "You are working in a repo that uses Memzoi."

def codexPromptSuffix : String :=
  "Before non-trivial work:
- Run `memzoi context --task \"<task>\"` before non-trivial work, especially before broad repo scans.
- If editing specific files, include `--path <relative/path>`.

When switching agents or harnesses:
- Run `memzoi handoff --task \"<task>\"`.
- If the handoff is path-specific, include `--path <relative/path>`.
- Add `--include-local` or `--include-session` only when private runtime memory or explicit checkpoints should be included.

Before risky actions:
- Run `memzoi precheck --path <relative/path>`.
- Run `memzoi precheck --command \"<command>\"` before destructive or broad commands.

When durable repo knowledge is discovered:
- Search Memzoi memory before broad scans.
- Use `memzoi propose --type <type> --title \"<title>\" --body \"<body>\"` to create reviewable operational state.
- Use the policy block's supported route before durable knowledge becomes a canonical record.
- Use types like fact, decision, procedure, preference, warning, risk, or failed_attempt.
- Prefer reviewable proposals over silent durable mutation.

The policy block defines the canonical route; DB-local proposal state is not canonical before an explicit CLI apply."

def claudePromptPrefix : String :=
  "You are Claude working in a repo that uses Memzoi."

def claudePromptSuffix : String :=
  "Before non-trivial work:
- Run `memzoi context --task \"<task>\"` before non-trivial work, especially before broad repo scans.
- If editing specific files, include `--path <relative/path>`.

When switching agents or harnesses:
- Run `memzoi handoff --task \"<task>\"`.
- If the handoff is path-specific, include `--path <relative/path>`.
- Add `--include-local` or `--include-session` only when private runtime memory or explicit checkpoints should be included.

Before risky actions:
- Run `memzoi precheck --path <relative/path>`.
- Run `memzoi precheck --command \"<command>\"` before destructive or broad commands.

When durable repo knowledge is discovered:
- Search Memzoi memory before broad scans.
- Use `memzoi propose --type <type> --title \"<title>\" --body \"<body>\"` to create reviewable operational state.
- Use the policy block's supported route before durable knowledge becomes a canonical record.
- Use types like fact, decision, procedure, preference, warning, risk, or failed_attempt.
- Prefer reviewable proposals over silent durable mutation.

The policy block defines the canonical route; DB-local proposal state is not canonical before an explicit CLI apply."

def mcpPromptPrefix : String :=
  "Memzoi MCP setup and usage guidance for this repo.

To configure an MCP client, generate a copy-pasteable server config with:
- `memzoi mcp config --project-root .`"

def mcpPromptSuffix : String :=
  "MCP clients should use Memzoi tools to:
- Search repository memory before broad repo scans.
- Build repository-only context packs for the current task.
- Run precheck tools before risky path, action, or command work.
- Build read-only capture and repository-maintenance plans.

MCP clients must not:
- Request or expose private local/session memory.
- Create or change proposal state.
- Apply proposals or write canonical repo records.
- Treat read-only planning artifacts as execution authority or canonical records.
- Commit excluded or runtime-only material into canonical repo records.
- Claim that MCP can apply canonical records; canonical writes require an explicit CLI apply route described in the policy block."

def memzoiProtocolPrompt (profile : IntegrateProfile) : String :=
  let policy := memzoiPolicyBlock
  match profile with
  | .codex => codexPromptPrefix ++ "\n\n" ++ policy ++ "\n\n" ++ codexPromptSuffix
  | .claude => claudePromptPrefix ++ "\n\n" ++ policy ++ "\n\n" ++ claudePromptSuffix
  | .mcp => mcpPromptPrefix ++ "\n\n" ++ policy ++ "\n\n" ++ mcpPromptSuffix

/-! ### The block -/

def memzoiStart : List Char := "<!-- memzoi:start -->".toList

def memzoiEnd : List Char := "<!-- memzoi:end -->".toList

def memzoiInstructionBlock (profile : IntegrateProfile) : List Char :=
  memzoiStart ++ "\n## Memzoi\n\n".toList ++ (memzoiProtocolPrompt profile).toList ++
    "\n".toList ++ memzoiEnd ++ "\n".toList

/-- Where the first start marker stands, and where the first end marker after it ends. -/
def existingBlock (original : List Char) : Option (Nat × Nat) := do
  let startIndex ← find memzoiStart original
  let relativeEnd ← find memzoiEnd (original.drop startIndex)
  return (startIndex, startIndex + relativeEnd + memzoiEnd.length)

/-- The indices count characters: the source counts bytes of the same positions. -/
def upsertMemzoiBlock (original : List Char) (profile : IntegrateProfile) : List Char :=
  let block := memzoiInstructionBlock profile
  match existingBlock original with
  | some (startIndex, endIndex) =>
    let front := trimEnd (original.take startIndex)
    let updated := if front = [] then front else front ++ "\n\n".toList
    let updated := updated ++ trimEnd block
    let tail := trimStart (original.drop endIndex)
    let updated := if tail = [] then updated else updated ++ "\n\n".toList ++ tail
    updated ++ [ '\n']
  | none =>
    if (trimChars original) = [] then block else trimEnd original ++ "\n\n".toList ++ block

/-! ### Texts without a marker -/

def Plain (s : String) : Prop := '!' ∉ s.toList

theorem plain_ofList {cs : List Char} (h : '!' ∉ cs) : Plain (String.ofList cs) := by
  rwa [Plain, String.toList_ofList]

theorem plain_append {a b : String} : Plain (a ++ b) ↔ Plain a ∧ Plain b := by
  rw [Plain, Plain, Plain, String.toList_append, List.mem_append, not_or]

theorem Plain.between {a b c : String} (ha : Plain a) (hb : Plain b) (hc : Plain c) :
    Plain (a ++ b ++ c) :=
  plain_append.2 ⟨plain_append.2 ⟨ha, hb⟩, hc⟩

theorem plain_intercalate {separator : String} {parts : List String} (hseparator : Plain separator)
    (hparts : ∀ part ∈ parts, Plain part) : Plain (separator.intercalate parts) := by
  rw [Plain, String.toList_intercalate]
  induction parts with
  | nil => exact List.not_mem_nil
  | cons part parts ih =>
      have hpart : '!' ∉ part.toList := hparts part List.mem_cons_self
      have hrest := ih fun other hother => hparts other (List.mem_cons_of_mem _ hother)
      rw [List.map_cons]
      cases parts with
      | nil =>
          rwa [List.map_nil, List.intercalate_singleton]
      | cons other parts =>
          rw [List.map_cons] at hrest ⊢
          rw [List.intercalate_cons_cons, List.mem_append, List.mem_append]
          rintro ((h | h) | h)
          · exact hpart h
          · exact hseparator h
          · exact hrest h

theorem plane_plain (destination : MemoryDestination) :
    Plain ((destination.policy.plane.map MemoryPlane.asStr).getD "none") := by
  cases destination <;> exact plain_ofList (by decide)

theorem destinationLine_plain (destination : MemoryDestination) :
    Plain (destinationLine destination) := by
  have hname : Plain destination.asStr := by
    cases destination <;> exact plain_ofList (by decide)
  have hroute : Plain destination.policy.writeRoute.asStr := by
    cases destination <;> exact plain_ofList (by decide)
  have hreview : Plain destination.policy.review.asStr := by
    cases destination <;> exact plain_ofList (by decide)
  simp only [destinationLine, plain_append, plane_plain, hname, hroute, hreview, and_true]
  refine ⟨⟨⟨⟨?_, ?_⟩, ?_⟩, ?_⟩, ?_⟩ <;> exact plain_ofList (by decide)

theorem exclusionWords_plain (exclusion : RepoMemoryExclusion) :
    Plain (exclusionWords exclusion) := by
  have hname : Plain exclusion.asStr := by
    cases exclusion <;> exact plain_ofList (by decide)
  refine plain_ofList fun hmem => ?_
  obtain ⟨c, hc, hmark⟩ := List.mem_map.1 hmem
  split at hmark
  · exact absurd hmark (by decide)
  · exact hname (hmark ▸ hc)

theorem memzoiPolicyBlock_plain : Plain memzoiPolicyBlock := by
  have hdestinations : Plain ("\n".intercalate (MemoryDestination.all.map destinationLine)) :=
    plain_intercalate (plain_ofList (by decide)) fun part hpart => by
      obtain ⟨destination, -, rfl⟩ := List.mem_map.1 hpart
      exact destinationLine_plain destination
  have hexclusions :
      Plain (", ".intercalate (twoPlaneMemoryPolicy.repoExclusions.map exclusionWords)) :=
    plain_intercalate (plain_ofList (by decide)) fun part hpart => by
      obtain ⟨exclusion, -, rfl⟩ := List.mem_map.1 hpart
      exact exclusionWords_plain exclusion
  have hfuture : Plain (", ".intercalate twoPlaneMemoryPolicy.futureDestinations) :=
    plain_intercalate (plain_ofList (by decide)) fun part hpart => by
      rcases List.mem_cons.1 hpart with rfl | hpart
      · exact plain_ofList (by decide)
      · obtain rfl := List.mem_singleton.1 hpart
        exact plain_ofList (by decide)
  have hglob : Plain twoPlaneMemoryPolicy.canonicalRecordsGlob := plain_ofList (by decide)
  have hroot : Plain twoPlaneMemoryPolicy.runtimeProjectRootTemplate := plain_ofList (by decide)
  unfold memzoiPolicyBlock
  refine Plain.between (Plain.between (Plain.between (Plain.between (Plain.between (Plain.between
    (Plain.between ?_ (plane_plain _) ?_) hglob ?_) (plane_plain _) ?_) hroot ?_) hdestinations ?_)
      hexclusions ?_) hfuture ?_ <;>
    · rw [Plain, String.toList_ofList]
      decide +kernel

theorem memzoiProtocolPrompt_plain (profile : IntegrateProfile) :
    Plain (memzoiProtocolPrompt profile) := by
  have hbreak : Plain "\n\n" := plain_ofList (by decide)
  have hpolicy := memzoiPolicyBlock_plain
  cases profile with
  | codex =>
      refine Plain.between (Plain.between ?_ hbreak hpolicy) hbreak ?_
      · rw [Plain, codexPromptPrefix, String.toList_ofList]
        decide +kernel
      · rw [Plain, codexPromptSuffix, String.toList_ofList]
        decide +kernel
  | claude =>
      refine Plain.between (Plain.between ?_ hbreak hpolicy) hbreak ?_
      · rw [Plain, claudePromptPrefix, String.toList_ofList]
        decide +kernel
      · rw [Plain, claudePromptSuffix, String.toList_ofList]
        decide +kernel
  | mcp =>
      refine Plain.between (Plain.between ?_ hbreak hpolicy) hbreak ?_
      · rw [Plain, mcpPromptPrefix, String.toList_ofList]
        decide +kernel
      · rw [Plain, mcpPromptSuffix, String.toList_ofList]
        decide +kernel

/-! ### The block in a text -/

/-- What the two markers are made of. -/
theorem markers_spec : ('\n' ∉ memzoiStart ∧ '\n' ∉ memzoiEnd) ∧ ('!' ∈ memzoiStart ∧ '!' ∈ memzoiEnd) ∧
    find memzoiEnd memzoiStart = none ∧ memzoiStart = "<!-- memzoi:start --".toList ++ [ '>'] ∧
      memzoiEnd = "<!-- memzoi:end --".toList ++ [ '>'] := by
  decide +kernel

theorem memzoiStart_lines : '\n' ∉ memzoiStart := markers_spec.1.1

theorem memzoiEnd_lines : '\n' ∉ memzoiEnd := markers_spec.1.2

theorem mark_mem_start : '!' ∈ memzoiStart := markers_spec.2.1.1

theorem mark_mem_end : '!' ∈ memzoiEnd := markers_spec.2.1.2

theorem memzoiStart_ne : memzoiStart ≠ [] := List.ne_nil_of_mem mark_mem_start

theorem memzoiEnd_ne : memzoiEnd ≠ [] := List.ne_nil_of_mem mark_mem_end

theorem find_end_start : find memzoiEnd memzoiStart = none := markers_spec.2.2.1

/-- The lines between the two markers of a block. -/
def blockInner (profile : IntegrateProfile) : List Char :=
  "## Memzoi\n\n".toList ++ (memzoiProtocolPrompt profile).toList

/-- A block without its last newline. -/
def blockBody (profile : IntegrateProfile) : List Char :=
  memzoiStart ++ '\n' :: (blockInner profile ++ '\n' :: memzoiEnd)

section Block

variable (profile : IntegrateProfile)

theorem blockInner_plain : '!' ∉ blockInner profile := by
  show '!' ∉ "## Memzoi\n\n".toList ++ (memzoiProtocolPrompt profile).toList
  rw [List.mem_append, not_or, String.toList_ofList]
  exact ⟨by decide, memzoiProtocolPrompt_plain profile⟩

theorem memzoiInstructionBlock_eq :
    memzoiInstructionBlock profile = blockBody profile ++ [ '\n'] := by
  have hheading : "\n## Memzoi\n\n".toList = '\n' :: "## Memzoi\n\n".toList := by
    rw [String.toList_ofList, String.toList_ofList]
  have hline : "\n".toList = [ '\n'] := String.toList_ofList
  show memzoiStart ++ "\n## Memzoi\n\n".toList ++ (memzoiProtocolPrompt profile).toList ++
      "\n".toList ++ memzoiEnd ++ "\n".toList =
    memzoiStart ++ '\n' :: ("## Memzoi\n\n".toList ++ (memzoiProtocolPrompt profile).toList ++
      '\n' :: memzoiEnd) ++ [ '\n']
  rw [hheading, hline]
  simp only [List.append_assoc, List.cons_append, List.nil_append]

theorem blockBody_last : ∃ cs, blockBody profile = cs ++ [ '>'] := by
  have hend := markers_spec.2.2.2.2
  refine ⟨memzoiStart ++ '\n' :: (blockInner profile ++ '\n' :: "<!-- memzoi:end --".toList), ?_⟩
  rw [blockBody, hend]
  simp only [List.append_assoc, List.cons_append]

theorem trimEnd_block : trimEnd (memzoiInstructionBlock profile) = blockBody profile := by
  obtain ⟨cs, hcs⟩ := blockBody_last profile
  rw [memzoiInstructionBlock_eq, trimEnd_append _ (by simp [isWhitespace]), hcs,
    trimEnd_concat _ (by decide)]

/-- The first end marker of a block is its own. -/
theorem find_end_block (rest : List Char) :
    find memzoiEnd (blockBody profile ++ rest) =
      some (memzoiStart.length + 1 + ((blockInner profile).length + 1)) := by
  have hinner : find memzoiEnd (blockInner profile) = none :=
    find_of_not_mem mark_mem_end (blockInner_plain profile)
  rw [blockBody, List.append_assoc, List.cons_append, List.append_assoc, List.cons_append,
    find_append_delimiter memzoiEnd_ne memzoiEnd_lines find_end_start,
    find_append_delimiter memzoiEnd_ne memzoiEnd_lines hinner,
    find_at_front (List.prefix_append _ _)]
  rfl

theorem length_blockBody : (blockBody profile).length =
    memzoiStart.length + 1 + ((blockInner profile).length + 1) + memzoiEnd.length := by
  simp only [blockBody, List.length_append, List.length_cons]
  omega

end Block

/-- A text that is not empty, with an empty line behind it. -/
def separated (front : List Char) : List Char :=
  if front = [] then [] else front ++ "\n\n".toList

theorem breaks_eq : "\n\n".toList = [ '\n', '\n'] := String.toList_ofList

theorem length_separated_le (front : List Char) :
    (separated front).length ≤ front.length + 2 := by
  rw [separated]
  split
  · exact Nat.zero_le _
  · rw [breaks_eq, List.length_append]
    rfl

theorem trimEnd_separated (front : List Char) : trimEnd (separated (trimEnd front)) = trimEnd front := by
  rw [separated]
  split
  · rename_i hnil
    rw [hnil]
    rfl
  · rw [breaks_eq, trimEnd_append _ (by simp [isWhitespace]), trimEnd_trimEnd]

/-- Behind a text without a start marker the block is found. -/
theorem existingBlock_separated {front : List Char} (hfront : find memzoiStart front = none)
    (profile : IntegrateProfile) (rest : List Char) :
    existingBlock (separated front ++ (blockBody profile ++ rest)) =
      some ((separated front).length, (separated front).length + (blockBody profile).length) := by
  have hblock : find memzoiStart (blockBody profile ++ rest) = some 0 := by
    refine find_at_front ?_
    rw [blockBody, List.append_assoc]
    exact List.prefix_append _ _
  have hstart : find memzoiStart (separated front ++ (blockBody profile ++ rest)) =
      some (separated front).length := by
    rw [separated]
    split
    · rw [List.nil_append, hblock]
      rfl
    · rw [breaks_eq, List.append_assoc, List.cons_append, List.cons_append, List.nil_append,
        find_append_delimiter memzoiStart_ne memzoiStart_lines hfront,
        ← List.nil_append ('\n' :: (blockBody profile ++ rest)),
        find_append_delimiter memzoiStart_ne memzoiStart_lines
          (find_of_not_mem mark_mem_start List.not_mem_nil), hblock]
      simp
  rw [existingBlock, hstart]
  show (find memzoiEnd ((separated front ++ (blockBody profile ++ rest)).drop
    (separated front).length)).bind _ = _
  rw [List.drop_left, find_end_block, length_blockBody]
  show some _ = some _
  rw [Nat.add_assoc (separated front).length]

/-! ### One update -/

/-- The text in front of the block that an update replaces, and the text behind it. -/
def surroundings (original : List Char) : List Char × List Char :=
  match existingBlock original with
  | some (startIndex, endIndex) => (original.take startIndex, original.drop endIndex)
  | none => (original, [])

/-- The end of an updated text. -/
def closing (tail : List Char) : List Char :=
  (if trimStart tail = [] then [] else "\n\n".toList ++ trimStart tail) ++ [ '\n']

/-- An update keeps what is around the block, apart from white space next to it. -/
theorem upsertMemzoiBlock_eq (original : List Char) (profile : IntegrateProfile) :
    upsertMemzoiBlock original profile =
      separated (trimEnd (surroundings original).1) ++
        (blockBody profile ++ closing (surroundings original).2) := by
  rw [upsertMemzoiBlock, surroundings]
  dsimp only
  split
  · rw [trimEnd_block, closing, separated]
    split <;> split <;> simp_all [List.append_assoc]
  · have hblank : trimChars original = [] ↔ trimEnd original = [] :=
      trimChars_eq_nil.trans trimEnd_eq_nil.symm
    rw [memzoiInstructionBlock_eq, separated, closing]
    split <;> simp_all [trimStart]

/-- The start marker that an update looks for is the one of the block. -/
def Anchored (original : List Char) : Prop := find memzoiStart (surroundings original).1 = none

/-- The first update puts a block between two texts, and the next one replaces it. -/
theorem surroundings_upsert {original : List Char} (h : Anchored original)
    (profile : IntegrateProfile) :
    surroundings (upsertMemzoiBlock original profile) =
      (separated (trimEnd (surroundings original).1), closing (surroundings original).2) := by
  have hfront : find memzoiStart (trimEnd (surroundings original).1) = none :=
    find_none_of_part h (prefix_trimEnd _).isInfix
  rw [upsertMemzoiBlock_eq, surroundings, existingBlock_separated hfront]
  dsimp only
  rw [List.take_left, ← List.append_assoc, ← List.length_append, List.drop_left]

theorem upsert_upsert {original : List Char} (h : Anchored original)
    (profile other : IntegrateProfile) :
    upsertMemzoiBlock (upsertMemzoiBlock original profile) other =
      separated (trimEnd (surroundings original).1) ++
        (blockBody other ++ closing (closing (surroundings original).2)) := by
  rw [upsertMemzoiBlock_eq, surroundings_upsert h]
  dsimp only
  rw [trimEnd_separated]

/-- The end of an updated text stays as it is when there is only white space behind the block. -/
theorem closing_closing {tail : List Char} : closing (closing tail) = closing tail ↔
    trimStart tail = [] := by
  constructor
  · intro h
    by_contra hne
    have hclosing : closing tail = "\n\n".toList ++ (trimStart tail ++ [ '\n']) := by
      rw [closing, if_neg hne, List.append_assoc]
    obtain ⟨c, cs, hcs⟩ := List.exists_cons_of_ne_nil hne
    have hc : isWhitespace c = false := by
      have hhead := List.head?_dropWhile_not isWhitespace tail
      rw [show tail.dropWhile isWhitespace = c :: cs from hcs] at hhead
      simpa using hhead
    have htrim : trimStart (closing tail) = trimStart tail ++ [ '\n'] := by
      rw [hclosing, breaks_eq, trimStart_append _ (by simp [isWhitespace]), hcs, List.cons_append, trimStart,
        List.dropWhile_cons_of_neg (by simp [hc])]
    have hlength := congrArg List.length h
    rw [closing, htrim, if_neg (List.append_ne_nil_of_right_ne_nil _ (List.cons_ne_nil _ _)),
      hclosing] at hlength
    simp at hlength
  · intro h
    have hclosing : closing tail = [ '\n'] := by
      rw [closing, if_pos h, List.nil_append]
    rw [hclosing]
    rfl

/-- A marker does not end in white space, so trimming keeps it. -/
theorem find_start_trimEnd {original : List Char} (h : find memzoiStart original ≠ none) :
    find memzoiStart (trimEnd original) ≠ none := by
  intro hnone
  obtain ⟨ws, hws⟩ := prefix_trimEnd original
  have hblank : ∀ c ∈ ws, isWhitespace c = true := by
    have hfilter := filter_trimEnd original
    rw [← hws, List.filter_append, hws] at hfilter
    have hnil := List.append_right_eq_self.1 hfilter.symm
    intro c hc
    simpa using List.filter_eq_nil_iff.1 hnil c hc
  have hinfix : memzoiStart <:+: original := by
    by_contra hnot
    exact h (find_eq_none.2 hnot)
  obtain ⟨front, rest, hsplit⟩ := hinfix
  rw [← hws] at hsplit
  have hlast := markers_spec.2.2.2.1
  rcases List.append_eq_append_iff.1 hsplit with ⟨mid, hmid, -⟩ | ⟨mid, hmid, hrest⟩
  · exact find_eq_none.1 hnone ⟨front, mid, hmid.symm⟩
  · rcases List.eq_nil_or_concat mid with rfl | ⟨mid, c, rfl⟩
    · exact find_eq_none.1 hnone ⟨front, [], (List.append_nil _).trans (hmid.trans (List.append_nil _))⟩
    · -- the marker reaches into the white space that is cut
      rw [List.concat_eq_append] at hmid hrest
      rw [hlast, ← List.append_assoc, ← List.append_assoc] at hmid
      obtain ⟨-, hc⟩ := List.append_inj' hmid rfl
      obtain rfl := List.singleton_inj.1 hc
      have hcut := hblank '>' (hrest ▸ List.mem_append_left _ (List.mem_append_right _
        List.mem_cons_self))
      exact absurd hcut (by decide)

/-- A start marker without an end marker after it is taken for the start of the block that the first
update appends, and the second update drops what stands between them. -/
theorem upsert_dangling {original : List Char} (hnone : existingBlock original = none)
    (hstart : find memzoiStart original ≠ none) (profile : IntegrateProfile) :
    upsertMemzoiBlock (upsertMemzoiBlock original profile) profile ≠
      upsertMemzoiBlock original profile := by
  obtain ⟨n, hn⟩ := Option.ne_none_iff_exists'.1 (find_start_trimEnd hstart)
  obtain ⟨ws, hws⟩ := prefix_trimEnd original
  obtain ⟨hle, hprefix⟩ := find_spec hn
  have hlt : n < (trimEnd original).length := by
    have hlength := hprefix.length_le
    have hpos := List.length_pos_iff.2 memzoiStart_ne
    rw [List.length_drop] at hlength
    omega
  have hends : find memzoiEnd ((trimEnd original).drop n) = none := by
    have hfirst : find memzoiStart original = some n := by
      have happend := find_append hn ws
      rwa [hws] at happend
    have hend : find memzoiEnd (original.drop n) = none := by
      by_contra hsome
      obtain ⟨m, hm⟩ := Option.ne_none_iff_exists'.1 hsome
      have hfound : existingBlock original = some (n, n + m + memzoiEnd.length) := by
        rw [existingBlock, hfirst]
        show (find memzoiEnd (original.drop n)).bind _ = _
        rw [hm]
        rfl
      rw [hfound] at hnone
      cases hnone
    refine find_none_of_part hend ?_
    rw [← hws, List.drop_append_of_le_length hle, hws]
    exact (List.prefix_append _ _).isInfix
  have hupdated : upsertMemzoiBlock original profile =
      trimEnd original ++ '\n' :: ([] ++ '\n' :: (blockBody profile ++ [ '\n'])) := by
    have hne : trimEnd original ≠ [] := List.ne_nil_of_length_pos (by omega)
    rw [upsertMemzoiBlock_eq, surroundings, hnone]
    dsimp only
    rw [separated, if_neg hne, breaks_eq, List.append_assoc]
    rfl
  have hblock : existingBlock (upsertMemzoiBlock original profile) =
      some (n, (trimEnd original).length + 2 + (blockBody profile).length) := by
    rw [hupdated, existingBlock, find_append hn]
    show (find memzoiEnd ((trimEnd original ++ _).drop n)).bind _ = _
    rw [List.drop_append_of_le_length hle,
      find_append_delimiter memzoiEnd_ne memzoiEnd_lines hends,
      find_append_delimiter memzoiEnd_ne memzoiEnd_lines
        (find_of_not_mem mark_mem_end List.not_mem_nil), find_end_block, length_blockBody,
      List.length_drop, List.length_nil]
    show some _ = some _
    refine congrArg (fun m => some (n, m)) ?_
    dsimp only
    omega
  intro hsame
  have hlength := congrArg List.length hsame
  rw [upsertMemzoiBlock_eq, surroundings, hblock] at hlength
  dsimp only at hlength
  have hdrop : (upsertMemzoiBlock original profile).drop
      ((trimEnd original).length + 2 + (blockBody profile).length) = [ '\n'] := by
    have hshape : upsertMemzoiBlock original profile =
        (trimEnd original ++ '\n' :: '\n' :: blockBody profile) ++ [ '\n'] := by
      rw [hupdated]
      simp
    rw [hshape]
    refine List.drop_left' ?_
    simp only [List.length_append, List.length_cons]
    omega
  have hfront := length_separated_le (trimEnd ((upsertMemzoiBlock original profile).take n))
  have htrim := (prefix_trimEnd ((upsertMemzoiBlock original profile).take n)).length_le
  have htake := List.length_take_le n (upsertMemzoiBlock original profile)
  have hclosing : (closing [ '\n']).length = 1 := rfl
  have hwhole : (upsertMemzoiBlock original profile).length =
      (trimEnd original).length + 2 + (blockBody profile).length + 1 := by
    rw [hupdated]
    simp only [List.length_append, List.length_cons, List.length_nil]
    omega
  rw [hdrop, List.length_append, List.length_append, hclosing, hwhole] at hlength
  omega

/-! ### Repeated updates -/

/-- There is no start marker, or the first one has an end marker with only white space behind it. -/
def Settled (original : List Char) : Prop :=
  match existingBlock original with
  | some (_, endIndex) => trimStart (original.drop endIndex) = []
  | none => find memzoiStart original = none

/-- Before the first start marker of a text there is none. -/
theorem anchored_of_block {original : List Char} {block : Nat × Nat}
    (h : existingBlock original = some block) : Anchored original := by
  rw [Anchored, surroundings, h]
  obtain ⟨n, hn, hrest⟩ := Option.bind_eq_some_iff.1 h
  obtain ⟨m, -, hpair⟩ := Option.bind_eq_some_iff.1 hrest
  obtain rfl := Option.some.inj hpair
  exact find_take memzoiStart_ne hn

theorem settled_iff {original : List Char} :
    Settled original ↔ Anchored original ∧ trimStart (surroundings original).2 = [] := by
  cases hblock : existingBlock original with
  | none =>
      rw [Settled, Anchored, surroundings, hblock]
      exact (and_iff_left rfl).symm
  | some block =>
      rw [and_iff_right (anchored_of_block hblock), Settled, surroundings, hblock]

/-! ### The block in a capture -/

theorem find_separated {marker front : List Char} (hne : marker ≠ []) (hlines : '\n' ∉ marker)
    (h : find marker front = none) : find marker (separated front) = none := by
  rw [separated]
  split
  · rwa [find, if_neg]
  · have hnil : find marker [] = none := by
      rw [find, if_neg hne]
    rw [breaks_eq, find_append_delimiter hne hlines h, ← List.nil_append [ '\n'],
      find_append_delimiter hne hlines hnil, hnil]
    rfl

theorem splitInclusive_separated (front ys : List Char) :
    splitInclusive (separated front ++ ys) =
      splitInclusive (separated front) ++ splitInclusive ys := by
  rw [separated]
  split
  · rfl
  · have hshape : front ++ "\n\n".toList = (front ++ [ '\n']) ++ [ '\n'] := by
      rw [breaks_eq, List.append_assoc]
      rfl
    rw [hshape, List.append_assoc (front ++ [ '\n']), List.singleton_append]
    exact Segments.segments_append_after _ _

theorem splitInclusive_block (profile : IntegrateProfile) :
    splitInclusive (memzoiInstructionBlock profile) = (memzoiStart ++ [ '\n']) ::
      (splitInclusive (blockInner profile ++ [ '\n']) ++ [memzoiEnd ++ [ '\n']]) := by
  rw [memzoiInstructionBlock_eq, blockBody, List.append_assoc, List.cons_append,
    List.append_assoc, List.cons_append, splitInclusive,
    Segments.segments_append_delimiter memzoiStart_lines, Segments.segments_append_after,
    Segments.segments_append_delimiter memzoiEnd_lines, Segments.segments_nil]

open Capture Instruction in
/-- Behind a text without markers exactly the block is generated. -/
theorem generatedRanges_block {front : List Char}
    (hstart : ¬ Instruction.memzoiStart <:+: separated front)
    (hend : ¬ Instruction.memzoiEnd <:+: separated front) (profile : IntegrateProfile) :
    generatedRanges (separated front ++ memzoiInstructionBlock profile) =
      .ok [{ start := byteLength (separated front)
             stop := byteLength (separated front ++ memzoiInstructionBlock profile) }] := by
  have hplain : ∀ marker : List Char, '!' ∈ marker →
      ¬ marker <:+: blockInner profile ++ [ '\n'] := by
    intro marker hmark hfound
    rcases List.mem_append.1 (hfound.subset hmark) with hmem | hmem
    · exact blockInner_plain profile hmem
    · exact absurd (List.mem_singleton.1 hmem) (by decide)
  have hlines : splitInclusive (separated front ++ memzoiInstructionBlock profile) =
      splitInclusive (separated front) ++ (memzoiStart ++ [ '\n']) ::
        (splitInclusive (blockInner profile ++ [ '\n']) ++ (memzoiEnd ++ [ '\n']) :: []) := by
    rw [splitInclusive_separated, splitInclusive_block]
  rw [generatedRanges_of_lines hlines (by decide +kernel) (by decide +kernel)
    (fun raw hraw => ⟨fun heq => hstart (heq ▸ trimmed_infix hraw),
      fun heq => hend (heq ▸ trimmed_infix hraw)⟩)
    (fun raw hraw => ⟨fun heq => hplain Instruction.memzoiStart mark_mem_start (heq ▸ trimmed_infix hraw),
      fun heq => hplain Instruction.memzoiEnd mark_mem_end (heq ▸ trimmed_infix hraw)⟩)
    (fun raw hraw => absurd hraw List.not_mem_nil)]
  rw [Segments.flatten_segments, Segments.flatten_segments, memzoiInstructionBlock_eq, blockBody]
  simp only [List.append_assoc, List.cons_append, List.nil_append]

/-- What an update promises: it can be repeated, also with another profile, it keeps the characters
around the block, and the block it adds to a text without markers is what a capture leaves out. -/
structure UpdatesBlock (original : List Char) (profile other : IntegrateProfile) : Prop where
  again : upsertMemzoiBlock (upsertMemzoiBlock original profile) profile =
    upsertMemzoiBlock original profile
  switched : upsertMemzoiBlock (upsertMemzoiBlock original profile) other =
    upsertMemzoiBlock original other
  kept : (((surroundings original).1 ++ (surroundings original).2).filter (! isWhitespace ·)).Sublist
    ((upsertMemzoiBlock original profile).filter (! isWhitespace ·))
  excluded : ¬ memzoiStart <:+: original → ¬ memzoiEnd <:+: original →
    ∃ start stop, Capture.Instruction.generatedRanges (upsertMemzoiBlock original profile) =
        .ok [{ start, stop }] ∧
      slice (upsertMemzoiBlock original profile) start stop = some (memzoiInstructionBlock profile)

theorem upsert_keeps (original : List Char) (profile : IntegrateProfile) :
    (((surroundings original).1 ++ (surroundings original).2).filter (! isWhitespace ·)).Sublist
      ((upsertMemzoiBlock original profile).filter (! isWhitespace ·)) := by
  have hfront : (separated (trimEnd (surroundings original).1)).filter (! isWhitespace ·) =
      (surroundings original).1.filter (! isWhitespace ·) := by
    rw [← filter_trimEnd (surroundings original).1, separated]
    split
    · rename_i hnil
      rw [hnil]
    · rw [breaks_eq, List.filter_append]
      exact List.append_nil _
  have htail : (closing (surroundings original).2).filter (! isWhitespace ·) =
      (surroundings original).2.filter (! isWhitespace ·) := by
    rw [← filter_trimStart (surroundings original).2, closing]
    split
    · rename_i hnil
      rw [hnil]
      rfl
    · rw [breaks_eq, List.filter_append, List.filter_append]
      exact List.append_nil _
  rw [upsertMemzoiBlock_eq, List.filter_append, List.filter_append, List.filter_append, hfront, htail]
  exact (List.Sublist.refl _).append (List.sublist_append_right _ _)

theorem upsert_excluded {original : List Char} (hstart : ¬ memzoiStart <:+: original)
    (hend : ¬ memzoiEnd <:+: original) (profile : IntegrateProfile) :
    ∃ start stop, Capture.Instruction.generatedRanges (upsertMemzoiBlock original profile) =
        .ok [{ start, stop }] ∧
      slice (upsertMemzoiBlock original profile) start stop =
        some (memzoiInstructionBlock profile) := by
  have hnone : existingBlock original = none := by
    rw [existingBlock, find_eq_none.2 hstart]
    rfl
  have hupdated : upsertMemzoiBlock original profile =
      separated (trimEnd original) ++ memzoiInstructionBlock profile := by
    rw [upsertMemzoiBlock_eq, surroundings, hnone, memzoiInstructionBlock_eq]
    rfl
  have hpart : trimEnd original <:+: original := (prefix_trimEnd original).isInfix
  have hnoStart := find_separated memzoiStart_ne memzoiStart_lines
    (find_none_of_part (find_eq_none.2 hstart) hpart)
  have hnoEnd := find_separated memzoiEnd_ne memzoiEnd_lines
    (find_none_of_part (find_eq_none.2 hend) hpart)
  refine ⟨_, _, hupdated ▸ generatedRanges_block (find_eq_none.1 hnoStart) (find_eq_none.1 hnoEnd)
    profile, ?_⟩
  rw [hupdated]
  exact slice_eq_some.2 ⟨_, [], (List.append_nil _).symm, rfl, rfl⟩

/-- An update keeps its promises on a text exactly when nothing but white space is behind its block
and no start marker dangles. -/
theorem upsertMemzoiBlock_iff (original : List Char) (profile other : IntegrateProfile) :
    UpdatesBlock original profile other ↔ Settled original := by
  rw [settled_iff]
  constructor
  · intro h
    have hanchored : Anchored original := by
      by_contra hdangling
      have hnone : existingBlock original = none := by
        by_contra hsome
        obtain ⟨block, hblock⟩ := Option.ne_none_iff_exists'.1 hsome
        exact hdangling (anchored_of_block hblock)
      refine upsert_dangling hnone ?_ profile h.again
      rwa [Anchored, surroundings, hnone] at hdangling
    refine ⟨hanchored, closing_closing.1 ?_⟩
    have hagain := h.again
    rw [upsert_upsert hanchored, upsertMemzoiBlock_eq] at hagain
    exact List.append_cancel_left (List.append_cancel_left hagain)
  · rintro ⟨hanchored, hblank⟩
    have hclosing := closing_closing.2 hblank
    refine ⟨?_, ?_, upsert_keeps original profile,
      fun hstart hend => upsert_excluded hstart hend profile⟩
    · rw [upsert_upsert hanchored, hclosing, ← upsertMemzoiBlock_eq]
    · rw [upsert_upsert hanchored, hclosing, ← upsertMemzoiBlock_eq]

/-- Owner's text behind a block gets a newline more at each update. -/
theorem guidance_behind_block_grows :
    ∃ original profile, upsertMemzoiBlock (upsertMemzoiBlock original profile) profile ≠
      upsertMemzoiBlock original profile := by
  refine ⟨memzoiStart ++ memzoiEnd ++ "Keep this.".toList, .codex, fun h => ?_⟩
  have hanchored : Anchored (memzoiStart ++ memzoiEnd ++ "Keep this.".toList) := by
    unfold Anchored
    decide +kernel
  rw [upsert_upsert hanchored, upsertMemzoiBlock_eq] at h
  have htail := closing_closing.1 (List.append_cancel_left (List.append_cancel_left h))
  revert htail
  decide +kernel

end Integrate
end Memzoi
