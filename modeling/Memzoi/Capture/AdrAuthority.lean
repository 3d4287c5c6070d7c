/-
# The authorities of an ADR

Source: `capture/adapters/adr.rs` (`extract_document`, `adr_candidate`,
`frontmatter`).

The authorities of a document are the entries of its frontmatter that are not
indented and the sections of its body. The source trims a key before it compares
it and looks for headings and fences in the frontmatter too, so in some documents
it takes other lines for authorities. In the others (`OwnAuthorities`) what is
captured does not depend on indented lines or on fenced code.
-/

import Memzoi.Capture.AdrExtraction
import Memzoi.Capture.HeadingParts

namespace Memzoi
namespace Capture
namespace Adr

open Fallible SourceText Text Outline

/-! ### The document's own lines -/

/-- A line of a nested mapping, of a list or of a block scalar. -/
def Indented (line : List Char) : Prop := line.head? = some ' ' ∨ line.head? = some '\t'

instance (line : List Char) : Decidable (Indented line) := inferInstanceAs (Decidable (_ ∨ _))

/-- The line ends the frontmatter. -/
def Closes (line : List Char) : Prop := isDelimiter (logicalLine line) = true ∧ ¬ Indented line

instance (line : List Char) : Decidable (Closes line) := inferInstanceAs (Decidable (_ ∧ _))

/-- The lines of the frontmatter and those of the body. -/
def documentLines (text : List Char) : List (List Char) × List (List Char) :=
  match splitInclusive text with
  | [] => ([], [])
  | first :: rest =>
    if isDelimiter (logicalLine first) then
      (rest.takeWhile (¬ Closes ·), (rest.dropWhile (¬ Closes ·)).drop 1)
    else ([], first :: rest)

/-- The lines of a document without the indented ones of the frontmatter and those inside fenced
code. -/
def ownText (text : List Char) : List (List Char) × List (List Char) :=
  ((documentLines text).1.filter (¬ Indented ·), outside none (documentLines text).2)

def bodyParts (text : List Char) : List HeadingPart := (partsIn none (documentLines text).2).2

def valueOf (key : String) (line : List Char) : Option (List Char) :=
  (entryOf (logicalLine line)).bind fun entry => if entry.1 = key then some entry.2 else none

/-- The values of a key on the top level of the frontmatter. -/
def ownValues (text : List Char) (key : String) : List (List Char) :=
  (ownText text).1.filterMap (valueOf key)

/-- The first heading, when it is a title. -/
def rootHeading (parts : List HeadingPart) : Option String :=
  parts.head?.bind fun part =>
    if part.level = 1 ∧ trim part.heading ≠ "" then some part.heading else none

def ownTitles (text : List Char) : List String :=
  ((ownValues text "title").filter (trimChars · ≠ [])).map String.ofList ++
    (rootHeading (bodyParts text)).toList

def IsStatus (part : HeadingPart) : Prop := normalizedHeading part.title = "status"

instance (part : HeadingPart) : Decidable (IsStatus part) := inferInstanceAs (Decidable (_ = _))

def ownStatuses (text : List Char) : List AdrStatus :=
  (ownValues text "status").map .fromText ++
    ((bodyParts text).filter (IsStatus ·)).map fun part => .fromText part.text

/-- A text with the field it is for. -/
structure FieldText where
  field : Option AdrField
  text : List Char
  deriving DecidableEq, Repr

/-- What can be captured: the sections, and the superseded documents of the frontmatter. -/
def fieldTexts (text : List Char) : List FieldText :=
  (bodyParts text).map (fun part => ⟨adrField part.title, part.text⟩) ++
    (ownValues text "supersedes").map fun value => ⟨some supersessionField, value⟩

/-- The scan over the lines finds no other authorities than the document's own. -/
structure OwnAuthorities (text : List Char) : Prop where
  unheaded : ∀ line ∈ (documentLines text).1, parseAtxHeading (logicalLine line) = none ∧
    fenceMarker (trimStart (logicalLine line)) = none
  nested : ∀ line ∈ (documentLines text).1, Indented line →
    isDelimiter (logicalLine line) = false ∧ ∀ key ∈ authorityKeys, valueOf key line = none
  status : ∀ part ∈ bodyParts text, IsStatus part → HasFence part.below →
    AdrStatus.fromText part.text = .unknown

/-! ### What a document is read as -/

def adrClassification (status : AdrStatus) (field : String) : CaptureClassification :=
  if status = .accepted ∧ field ≠ "supersession" then
    ⟨.repo, "accepted_adr_field", .repoSafe, "explicit_repo_adr_passed_safeguards",
      .generalRepoKnowledge, MemoryDestination.repo.policy⟩
  else
    ⟨.needsReview, if field = "supersession" then "adr_supersession_requires_lifecycle_review"
      else "adr_status_requires_review", .unknown,
      "adr_status_or_lifecycle_authority_is_not_repo_safe", .unknown,
      MemoryDestination.needsReview.policy⟩

/-- The memory and the routing of a field, under the title and the status of the document. -/
def describe (source : CaptureSourceRequest) (title : String) (status : AdrStatus)
    (found : FieldText) : Option (CaptureMemoryDraft × CaptureClassification) :=
  if found.text = [] then none
  else found.field.map fun field =>
    (⟨field.memoryType, field.lane, adrMemoryTitle title field.field, String.ofList found.text,
      defaultScope source, adrTags status field.field⟩, adrClassification status field.field)

def contents (c : CaptureCandidate) : CaptureMemoryDraft × CaptureClassification :=
  (c.memory, c.classification)

/-- The document is read without a title, or under a title and a status for all of it. -/
def ReadAs (document : CaptureSourceDocument) (extraction : CaptureExtraction) :
    Option (String × AdrStatus) → Prop
  | none => extraction.candidates = []
  | some (title, status) => extraction.candidates.map contents =
      (fieldTexts document.text).filterMap (describe document.request title status)

/-- The title and the status that the document itself gives. -/
def ownReading (text : List Char) : Option (String × AdrStatus) :=
  match ownTitles text with
  | [] => none
  | title :: titles =>
    if (ownValues text "title").any (trimChars · = []) ∨
        agree ((title :: titles).map trim) = false ∨ ownStatuses text = [] then none
    else some (title, documentStatus (ownStatuses text))

/-! ### The frontmatter -/

section Frontmatter

variable {text : List Char} {fields fields' : Frontmatter} {key : String}

/-- A delimiter is no heading and no fence. -/
theorem unheaded_of_isDelimiter {logical : List Char} (h : isDelimiter logical = true) :
    parseAtxHeading logical = none ∧ fenceMarker (trimStart logical) = none := by
  obtain ⟨-, trail, -, -, -, hstart⟩ := exists_trimChars logical
  rw [of_decide_eq_true h] at hstart
  rw [parseAtxHeading, hstart]
  constructor
  · rfl
  · rw [List.cons_append, fenceMarker]
    exact if_neg fun hfence => absurd hfence.1 (by decide)

theorem silentLine_of_unheaded {line : List Char}
    (h : parseAtxHeading (logicalLine line) = none ∧ fenceMarker (trimStart (logicalLine line)) = none) :
    SilentLine none line := ⟨fun _ => h.1, fenceStep_plain (by rw [h.2]; simp)⟩

theorem values_of_addField {line : SourceLine} {raw : List Char} (hraw : line.logical = logicalLine raw)
    (hkey : key ∈ authorityKeys) (h : addField fields line = .ok fields') :
    (fields'.lookup key).toList.map FrontmatterField.value =
      (fields.lookup key).toList.map FrontmatterField.value ++ (valueOf key raw).toList := by
  rw [addField, hraw] at h
  rw [valueOf]
  cases hentry : entryOf (logicalLine raw) with
  | none =>
      rw [hentry] at h
      obtain rfl := Except.ok.inj h
      simp
  | some entry =>
      obtain ⟨found, value⟩ := entry
      rw [hentry] at h
      dsimp only at h
      rw [Option.bind_some]
      dsimp only
      split at h
      · obtain ⟨hnew, h⟩ := check_bind_eq_ok.1 h
        obtain rfl := Except.ok.inj h
        have hnone := Option.isNone_iff_eq_none.1 (ensure_eq_ok.1 hnew)
        rw [List.lookup_append]
        by_cases heq : found = key
        · subst heq
          rw [hnone, if_pos rfl]
          simp [List.lookup]
        · have hother : List.lookup key [(found, (⟨value, ⟨line.start, line.stop⟩, line.number⟩ :
              FrontmatterField))] = none := by
            have hne : (key == found) = false := by simpa using fun h => heq h.symm
            rw [List.lookup, hne]
            rfl
          rw [if_neg heq, hother]
          simp
      · rename_i hforeign
        obtain rfl := Except.ok.inj h
        rw [if_neg fun heq : found = key => hforeign (heq ▸ hkey)]
        simp

theorem values_of_frontmatter {raws : List (List Char)} {start number : Nat}
    (hkey : key ∈ authorityKeys)
    (h : runAll addField fields (linesFrom start number raws) = .ok fields') :
    (fields'.lookup key).toList.map FrontmatterField.value =
      (fields.lookup key).toList.map FrontmatterField.value ++ raws.filterMap (valueOf key) := by
  induction raws generalizing fields start number with
  | nil =>
      obtain rfl := Except.ok.inj h
      simp
  | cons raw raws ih =>
      obtain ⟨mid, hline, hrest⟩ := runAll_cons.1 h
      rw [ih hrest, values_of_addField rfl hkey hline, List.append_assoc, List.filterMap_cons]
      cases valueOf key raw <;> rfl

/-- No indented line has an authority key. -/
theorem ownValues_eq (hown : OwnAuthorities text) (hkey : key ∈ authorityKeys) :
    ownValues text key = (documentLines text).1.filterMap (valueOf key) := by
  rw [ownValues, ownText, List.filterMap_filter]
  refine List.filterMap_congr fun line hline => ?_
  by_cases hindented : Indented line
  · rw [(hown.nested line hline hindented).2 key hkey]
    simp
  · simp [hindented]

theorem takeWhile_linesFrom (p : List Char → Bool) (start number : Nat) (raws : List (List Char)) :
    (linesFrom start number raws).takeWhile (fun line => p line.logical) =
      linesFrom start number (raws.takeWhile fun raw => p (logicalLine raw)) := by
  induction raws generalizing start number with
  | nil => rfl
  | cons raw raws ih =>
      rw [linesFrom, List.takeWhile_cons, List.takeWhile_cons]
      split
      · rw [ih]
        rfl
      · rfl

theorem length_linesFrom (start number : Nat) (raws : List (List Char)) :
    (linesFrom start number raws).length = raws.length := by
  induction raws generalizing start number with
  | nil => rfl
  | cons raw raws ih => rw [linesFrom, List.length_cons, ih, List.length_cons]

/-- The source finds the end of the frontmatter where it ends. -/
theorem exists_close {first : List Char} {rest : List (List Char)} (hown : OwnAuthorities text)
    (hlines : splitInclusive text = first :: rest) (hfirst : isDelimiter (logicalLine first) = true)
    (hclosed : (rest.takeWhile fun raw => !isDelimiter (logicalLine raw)).length < rest.length) :
    ∃ close, isDelimiter (logicalLine close) = true ∧
      rest = (documentLines text).1 ++ close :: (documentLines text).2 ∧
      (rest.takeWhile fun raw => !isDelimiter (logicalLine raw)) = (documentLines text).1 := by
  have hfront : (documentLines text).1 = rest.takeWhile (¬ Closes ·) := by
    rw [documentLines, hlines]
    dsimp only
    rw [if_pos hfirst]
  have hbody : (documentLines text).2 = (rest.dropWhile (¬ Closes ·)).drop 1 := by
    rw [documentLines, hlines]
    dsimp only
    rw [if_pos hfirst]
  have hplain : ∀ line ∈ (documentLines text).1, (!isDelimiter (logicalLine line)) = true := by
    intro line hline
    by_cases hindented : Indented line
    · rw [(hown.nested line hline hindented).1]
      rfl
    · have hopen := List.mem_takeWhile_imp (hfront ▸ hline)
      rw [decide_eq_true_eq] at hopen
      rw [Bool.not_eq_true', Bool.eq_false_iff]
      exact fun hdelimiter => hopen ⟨hdelimiter, hindented⟩
  have hsplit : rest = (documentLines text).1 ++ rest.dropWhile (¬ Closes ·) := by
    rw [hfront]
    exact List.takeWhile_append_dropWhile.symm
  cases hdrop : rest.dropWhile (¬ Closes ·) with
  | nil =>
      rw [hdrop, List.append_nil] at hsplit
      rw [List.takeWhile_eq_self_iff.2 (hsplit ▸ hplain)] at hclosed
      exact absurd hclosed (Nat.lt_irrefl _)
  | cons close body =>
      have hclose : Closes close := by
        have hhead := List.head_dropWhile_not (fun line => decide (¬ Closes line)) (l := rest)
          (by rw [hdrop]; simp)
        simp only [hdrop, List.head_cons] at hhead
        simpa using hhead
      rw [hdrop] at hsplit hbody
      rw [hbody, List.drop_one, List.tail_cons]
      refine ⟨close, hclose.1, hsplit, ?_⟩
      conv => lhs; rw [hsplit]
      rw [List.takeWhile_append_of_pos hplain, List.takeWhile_cons_of_neg (by simp [hclose.1]),
        List.append_nil]

/-- The source reads the document's own values and sections. -/
theorem frontmatter_spec (hown : OwnAuthorities text) (h : frontmatter text = .ok fields) :
    (∀ key ∈ authorityKeys,
      (fields.lookup key).toList.map FrontmatterField.value = ownValues text key) ∧
    (partsIn none (splitInclusive text)).2 = bodyParts text := by
  have hplain : (documentLines text).1 = [] → fields = [] → ∀ key ∈ authorityKeys,
      (fields.lookup key).toList.map FrontmatterField.value = ownValues text key := by
    intro hnone hfields key hkey
    rw [ownValues_eq hown hkey, hnone, hfields]
    rfl
  cases hlines : splitInclusive text with
  | nil =>
      have htext : text = [] := by
        have hflat : (splitInclusive text).flatten = text := Segments.flatten_segments text
        rw [← hflat, hlines]
        rfl
      subst htext
      exact ⟨hplain rfl (Except.ok.inj h).symm, rfl⟩
  | cons first rest =>
      have hne : text ≠ [] := by
        rintro rfl
        cases hlines
      rw [frontmatter, sourceLines, if_neg hne, hlines, linesFrom] at h
      dsimp only at h
      split at h
      · rename_i hfirst
        rw [takeWhile_linesFrom fun logical => !isDelimiter logical] at h
        obtain ⟨hclosed, h⟩ := check_bind_eq_ok.1 h
        rw [ensure_eq_ok, length_linesFrom, length_linesFrom] at hclosed
        obtain ⟨close, hclose, hrest, hinner⟩ := exists_close hown hlines hfirst hclosed
        rw [hinner] at h
        constructor
        · intro key hkey
          rw [values_of_frontmatter hkey h, ownValues_eq hown hkey]
          rfl
        · have hsilent : ∀ line ∈ first :: ((documentLines text).1 ++ [close]), SilentLine none line := by
            intro line hline
            rcases List.mem_cons.1 hline with rfl | hline
            · exact silentLine_of_unheaded (unheaded_of_isDelimiter hfirst)
            · rcases List.mem_append.1 hline with hline | hline
              · exact silentLine_of_unheaded (hown.unheaded line hline)
              · obtain rfl := List.mem_singleton.1 hline
                exact silentLine_of_unheaded (unheaded_of_isDelimiter hclose)
          have hwhole : first :: rest =
              (first :: ((documentLines text).1 ++ [close])) ++ (documentLines text).2 := by
            conv => lhs; rw [hrest]
            simp
          rw [hwhole, partsIn_silent hsilent]
          rfl
      · rename_i hfirst
        have hdocument : documentLines text = ([], first :: rest) := by
          rw [documentLines, hlines]
          dsimp only
          rw [if_neg hfirst]
        refine ⟨hplain (by rw [hdocument]) (Except.ok.inj h).symm, ?_⟩
        rw [bodyParts, hdocument]

end Frontmatter

end Adr
end Capture
end Memzoi
