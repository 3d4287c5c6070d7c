/-
# Captured memory is created once

Source: `capture.rs` (`classify_actions`, `build_capture_review_inner`).

The planning pass, the classification of each edit and the comparison of the
selected drafts cover every pair together (`capture_creates_once`). A duplicate
need not go back to something that can be written: the candidate it repeats may
itself be in conflict with the inventory (`duplicate_of_conflict`).
-/

import Memzoi.Capture.ReviewRules

namespace Memzoi
namespace Capture

open Fallible

section CreatedOnce

variable [Text.Unicode]

theorem classifyRun_of_classifyActions [CaptureDigests] {inventory : CaptureInventorySnapshot}
    {extracted planned : List CaptureCandidate}
    (h : classifyActions inventory extracted = .ok planned) :
    ∃ state, state.done = planned ∧
      ClassifyRun inventory.entries inventory.reservedIds state := by
  obtain ⟨⟨done, used⟩, hrun, h⟩ := bind_eq_ok.1 h
  obtain rfl := pure_eq_ok.1 h
  exact ⟨_, rfl, classifyRun_of_ok hrun⟩

theorem classifyActions_createsOnce [CaptureDigests] {inventory : CaptureInventorySnapshot}
    {extracted planned : List CaptureCandidate}
    (h : classifyActions inventory extracted = .ok planned) :
    CreatesOnce inventory.entries inventory.reservedIds planned := by
  obtain ⟨state, rfl, hrun⟩ := classifyRun_of_classifyActions h
  exact hrun.createsOnce

variable [ReviewDigests] [ReviewRules]

/-- A plan that passes the live check is what the classification makes of the live inventory. -/
theorem classified_of_liveState {live : LiveCapture} {plan : CapturePlan}
    (h : validateCapturePlanLiveState live plan = .ok ()) :
    ∃ inventory extracted, live.inventory = .ok inventory ∧
      classifyActions inventory extracted = .ok plan.candidates := by
  obtain ⟨-, h⟩ := check_bind_eq_ok.1 h
  obtain ⟨-, h⟩ := check_bind_eq_ok.1 h
  obtain ⟨-, h⟩ := check_bind_eq_ok.1 h
  obtain ⟨inventory, hinventory, h⟩ := bind_eq_ok.1 h
  obtain ⟨-, h⟩ := check_bind_eq_ok.1 h
  obtain ⟨⟨raw, diagnostics⟩, -, h⟩ := bind_eq_ok.1 h
  obtain ⟨extracted, -, h⟩ := bind_eq_ok.1 h
  obtain ⟨replayed, hreplayed, h⟩ := bind_eq_ok.1 h
  obtain ⟨hsame, -⟩ := check_bind_eq_ok.1 h
  exact ⟨inventory, extracted, hinventory, (ensure_eq_ok.1 hsame).1 ▸ hreplayed⟩

/-- **No memory is created twice**, neither by the plan of a capture nor by a review of it, and a
duplicate goes back to the inventory, to an earlier candidate that a review can route to a write, or
to an earlier one in conflict. -/
theorem capture_creates_once {inventory : CaptureInventorySnapshot}
    {extracted planned : List CaptureCandidate}
    (h : classifyActions inventory extracted = .ok planned) :
    CreatesOnce inventory.entries inventory.reservedIds planned ∧
      (∀ front c, front ++ [c] <+: planned → c.action.isDuplicate = true →
        Rooted inventory.entries front c) ∧
      ∀ live plan input prior reviewedBy reviewedAt review, plan.candidates = planned →
        buildCaptureReview live plan input prior reviewedBy reviewedAt = .ok review →
        ∃ current, live.inventory = .ok current ∧
          CreatesOnce current.entries current.reservedIds review.selected := by
  obtain ⟨state, rfl, hrun⟩ := classifyRun_of_classifyActions h
  refine ⟨hrun.createsOnce, hrun.rooted, ?_⟩
  intro live plan input prior reviewedBy reviewedAt review _ hreview
  obtain ⟨-, -, -, hlive, inputs, decisions, -, -, hdecisions, hfinish⟩ :=
    buildCaptureReviewAfter_eq_ok.1 hreview
  obtain ⟨current, raw, hcurrent, hclassified⟩ := classified_of_liveState hlive
  refine ⟨current, hcurrent, ?_⟩
  rw [finishReview_eq_ok hfinish]
  exact decidePlan_createsOnce hcurrent (classifyActions_createsOnce hclassified) hdecisions

end CreatedOnce

/-! ### Two sections with one decision -/

/-- The digests of the runs below. -/
@[reducible] def storageDigests : ReviewDigests where
  draft d :=
    if d.2.2.2.1 = "Use files." then
      0x5a6d9cd3f31f440fca92ac8e3de6c5e7c96614162c050d5d245455d69ce063ff#256
    else 0xef36c5e013fa9c870d304737a504234d656dd35c128ae4728085bd4f4d04a717#256
  claim _ := 0x197c661647edb2f1edb30683e56cd62dc16161fcac3ea85504171ea5f72bb22d#256
  candidate x :=
    match x.2.2.2 with
    | .conflict _ => 0xc158217f331aaa3a409cbf77665313a8fafd0c6226e1445b43e58d3000a2f859#256
    | .duplicate _ =>
      if x.2.2.1.destination = .repo then
        0x8562fd7ac022cd24564761e3bf2943bf24a568dcd52c8be8464c4b2a10596460#256
      else 0x03558d961b44a09e653731282a3b9d6fc661fde7f7724de7908a205deab13a5c#256
    | _ => 0x7e03196b078a85f6a12043a417a68e04e4c3f9fc9bb318d2effa9174a6a7d8b9#256
  plan _ := 0
  review _ := 0
  reviewBytes _ := 0

@[reducible] def storageRules : ReviewRules where
  validateRequest _ := .ok ()
  candidatePolicy _ _ := bail "unsupported capture extractor profile"
  isProhibited _ := false

def storageEvidence (span : CaptureEvidenceSpan) (text digest : String) : CaptureEvidence where
  sourceId := "notes"
  locator := .projectPath "docs/storage.md"
  sourceContentHash := "blake3:4974538ffe8962315a36f2c24d3b04daa72c8d9355c38d4fc8646373a0d99891"
  span := span
  evidenceContentHash := digest
  text := some text
  headingPath := ["Decision: Storage"]
  sectionKind := "decision"
  semanticLocation := none

def storageMemory : CaptureMemoryDraft :=
  ⟨.decision, .semantic, "Storage", "Use files.", ⟨.repo, none, ["docs/storage.md"]⟩, []⟩

/-- A section of the notes before it is classified. -/
def storageCandidate (claimId : String) (evidence : CaptureEvidence)
    (classification : CaptureClassification) : CaptureCandidate where
  claimId := claimId
  candidateId := ""
  memory := storageMemory
  evidence := [evidence]
  extraction := ⟨"deterministic", "memzoi-markdown",
    "blake3:cf9248362b99b8410cd26c8349b32c6f84706637016f9c11e89b3486b2fddf2d"⟩
  confidence := 1
  classification := classification
  action := preliminaryAction classification

def storageSections (classification : CaptureClassification) : List CaptureCandidate :=
  [storageCandidate "claim_197c661647edb2f1edb30683e56cd62dc16161fcac3ea85504171ea5f72bb22d"
      (storageEvidence ⟨0, 32, 1, 3⟩ "# Decision: Storage\nUse files.\n\n"
        "blake3:d5d1f8fb4ea66c1fcc1d4da9712b2e1c1971405ce07c0ba3c6b115cc032b78c3") classification,
    storageCandidate "claim_45d851ed6f6c547328dbdddd7cea93f6b5d78183f31f21939d82dab38500a0de"
      (storageEvidence ⟨32, 63, 4, 5⟩ "# Decision: Storage\nUse files.\n"
        "blake3:bceecbeb72b50557cf28e46f1f937db215d10925ce5db00b3fd5421104ceb156") classification]

/-- The classification of a section of plain notes. -/
def notesClassification : CaptureClassification :=
  ⟨.needsReview, "generic_markdown_requires_contextual_review", .unknown,
    "generic_markdown_sensitivity_unknown", .unknown, MemoryDestination.needsReview.policy⟩

/-- The classification of a field of an accepted decision record. -/
def acceptedClassification : CaptureClassification :=
  ⟨.repo, "accepted_adr_field", .repoSafe, "explicit_repo_adr_passed_safeguards",
    .generalRepoKnowledge, MemoryDestination.repo.policy⟩

/-- The repository holds another decision under the title. -/
def storageInventory : CaptureInventorySnapshot where
  entries := [⟨.canonicalRecord, "decisions/storage", .repo, .decision, .semantic, "Storage",
    "Use a database.", ⟨.repo, none, ["docs/storage.md"]⟩, "active", some "2026-01-01T00:00:00Z"⟩]
  reservedIds := ["decisions/storage"]
  runtimeAvailable := true

/-- The second section is marked a duplicate, but it repeats only the first one, which is in
conflict and can be routed nowhere. -/
theorem duplicate_of_conflict : ∃ first second,
    @classifyActions .ascii storageDigests.toCaptureDigests storageInventory
        (storageSections notesClassification) = .ok [first, second] ∧
      second.action.isDuplicate = true ∧
      ¬ ((∃ entry ∈ storageInventory.entries,
            @ExactDuplicate .ascii storageDigests.toCaptureDigests entry.memory second.memory) ∨
          ∃ a ∈ [first],
            @ExactDuplicate .ascii storageDigests.toCaptureDigests a.memory second.memory ∧
              a.action.routable = true) := by
  obtain ⟨planned, hplanned, hcheck⟩ := ok_of_any
    (show (@classifyActions .ascii storageDigests.toCaptureDigests storageInventory
      (storageSections notesClassification)).toOption.any (fun planned =>
        planned.map (fun c => (c.action.isDuplicate, c.action.routable, c.memory)) =
          [(false, false, storageMemory), (true, false, storageMemory)]) = true by decide +kernel)
  obtain ⟨first, rest, rfl, hfirst, hrest⟩ := List.map_eq_cons_iff.1 (of_decide_eq_true hcheck)
  obtain ⟨second, rest, rfl, hsecond, hrest⟩ := List.map_eq_cons_iff.1 hrest
  obtain rfl := List.map_eq_nil_iff.1 hrest
  have hroutable : first.action.routable = false := congrArg (fun seen => seen.2.1) hfirst
  have hduplicate : second.action.isDuplicate = true := congrArg (fun seen => seen.1) hsecond
  have hmemory : second.memory = storageMemory := congrArg (fun seen => seen.2.2) hsecond
  have hother : ∀ entry ∈ storageInventory.entries,
      @draftKey .ascii storageDigests.toCaptureDigests entry.memory ≠
        @draftKey .ascii storageDigests.toCaptureDigests storageMemory := by decide +kernel
  refine ⟨first, second, hplanned, hduplicate, ?_⟩
  rw [hmemory]
  rintro (⟨entry, hentry, hexact⟩ | ⟨a, ha, -, hwrites⟩)
  · exact hother entry hentry hexact
  · rw [List.mem_singleton.1 ha, hroutable] at hwrites
    cases hwrites

/-- Of two accepted sections with one decision the first is created. -/
theorem storage_created_once : ∃ planned,
    @classifyActions .ascii storageDigests.toCaptureDigests ⟨[], [], true⟩
        (storageSections acceptedClassification) = .ok planned ∧
      planned.map (·.action.creates) = [true, false] ∧
      @CreatesOnce .ascii storageDigests.toCaptureDigests [] [] planned := by
  obtain ⟨planned, hplanned, hcheck⟩ := ok_of_any
    (show (@classifyActions .ascii storageDigests.toCaptureDigests ⟨[], [], true⟩
      (storageSections acceptedClassification)).toOption.any (fun planned =>
        planned.map (·.action.creates) = [true, false]) = true by decide +kernel)
  exact ⟨planned, hplanned, of_decide_eq_true hcheck,
    (@capture_creates_once .ascii storageDigests storageRules ⟨[], [], true⟩ _ _ hplanned).1⟩

end Capture
end Memzoi
