/-
# Record and packet texts: what is read back

Source: `okf.rs` (`split_frontmatter`, `body_without_matching_h1`,
`required_string`, `optional_string`, `validate_applies_to`).

Both writers put a frontmatter between two marks, and the title as a heading
and the body under it; both readers cut at the first mark, hold the heading
against the title, and trim. What comes back is the frontmatter, and the body,
unless the title takes more than one line.
-/

import Memzoi.OkfMarkdown

namespace Memzoi
namespace Okf

open Fallible

/-! ### Cutting the frontmatter out -/

theorem dropPrefix?_append (pattern rest : List Char) :
    (pattern ++ rest).dropPrefix? pattern = some rest :=
  List.dropPrefix?_append_of_beq rest (by simp)

theorem dropPrefix?_eq_none {text pattern : List Char} (h : ¬ pattern <+: text) :
    text.dropPrefix? pattern = none := by
  rw [Option.eq_none_iff_forall_ne_some]
  intro rest hrest
  obtain ⟨pattern', rfl, heq⟩ := List.dropPrefix?_eq_some_iff.1 hrest
  exact h ((beq_iff_eq.1 heq) ▸ List.prefix_append pattern' rest)

theorem splitOnce_of_prefix {pattern : List Char} (hne : pattern ≠ []) (after : List Char) :
    splitOnce pattern (pattern ++ after) = some ([], after) := by
  cases pattern with
  | nil => exact absurd rfl hne
  | cons c cs =>
      rw [List.cons_append, splitOnce, ← List.cons_append, dropPrefix?_append]

/-- The text is cut at the first pattern. -/
theorem splitOnce_append {pattern : List Char} (hne : pattern ≠ []) (before after : List Char)
    (h : ∀ start rest, before = start ++ rest → rest ≠ [] →
      ¬ pattern <+: rest ++ (pattern ++ after)) :
    splitOnce pattern (before ++ (pattern ++ after)) = some (before, after) := by
  induction before with
  | nil => exact splitOnce_of_prefix hne after
  | cons c before ih =>
      have hhead : ((c :: before) ++ (pattern ++ after)).dropPrefix? pattern = none :=
        dropPrefix?_eq_none (h [] (c :: before) rfl (List.cons_ne_nil c before))
      have htail := ih fun start rest hsplit hrest =>
        h (c :: start) rest (by rw [hsplit, List.cons_append]) hrest
      rw [List.cons_append] at hhead ⊢
      rw [splitOnce, hhead, htail]
      rfl

/-- No line of a frontmatter begins with the closing mark. -/
def NoMark (yaml : List Char) : Prop := ¬ "\n---".toList <:+: yaml

/-- A frontmatter without a mark inside is cut out whole. -/
theorem splitFrontmatter_of_noMark {yaml : List Char} (h : NoMark yaml) (body : List Char) :
    splitFrontmatter ("---\n".toList ++ (yaml ++ ("\n---".toList ++ ( '\n' :: body)))) =
      .ok (yaml, body) := by
  have hcut : splitOnce "\n---".toList (yaml ++ ("\n---".toList ++ ( '\n' :: body))) =
      some (yaml, '\n' :: body) := by
    refine splitOnce_append (by decide) yaml _ fun start rest hsplit hrest hpattern => ?_
    -- an earlier mark would end inside the frontmatter, or read its own first line feed as a dash
    obtain ⟨suffix, hsuffix⟩ := hpattern
    match rest, hrest with
    | [a], _ => simp at hsuffix
    | [a, b], _ => simp at hsuffix
    | [a, b, c], _ => simp at hsuffix
    | a :: b :: c :: d :: rest', _ =>
        simp only [String.reduceToList, List.cons_append, List.nil_append, List.cons.injEq]
          at hsuffix
        obtain ⟨rfl, rfl, rfl, rfl, _⟩ := hsuffix
        exact h ⟨start, rest', by rw [hsplit]; simp⟩
  unfold splitFrontmatter
  rw [dropPrefix?_append, Option.some_or, require_some, ok_bind, hcut, require_some, ok_bind]
  have hlf : ( '\n' :: body).dropPrefix? "\r\n".toList = none :=
    dropPrefix?_eq_none fun ⟨_, hprefix⟩ => by simp at hprefix
  have hbody : ( '\n' :: body).dropPrefix? "\n".toList = some body := dropPrefix?_append [ '\n'] body
  show Except.ok (yaml, _) = _
  rw [hlf, hbody]
  rfl

/-! ### The heading -/

def isNewline (c : Char) : Bool := c = '\r' || c = '\n'

theorem isWhitespace_of_isNewline {c : Char} (h : isNewline c = true) :
    Text.isWhitespace c = true := by
  rcases Bool.or_eq_true_iff.1 h with h | h
  · rw [of_decide_eq_true h]
    rfl
  · rw [of_decide_eq_true h]
    rfl

/-- Line ends around a text are cut with the white space. -/
theorem trimChars_dropNewlines (text : List Char) :
    Text.trimChars (text.dropWhile isNewline) = Text.trimChars text := by
  unfold Text.trimChars
  congr 1
  induction text with
  | nil => rfl
  | cons c text ih =>
      by_cases h : isNewline c = true
      · rw [List.dropWhile_cons_of_pos h, ih,
          List.dropWhile_cons_of_pos (isWhitespace_of_isNewline h)]
      · rw [List.dropWhile_cons_of_neg h]

theorem trimChars_of_line (text : List Char) :
    Text.trimChars (Text.trimChars text ++ [ '\n']) = Text.trimChars text := by
  have hend : Text.trimChars (Text.trimChars text ++ [ '\n']) =
      Text.trimChars (Text.trimChars text) := by
    unfold Text.trimChars
    generalize (text.dropWhile Text.isWhitespace).rdropWhile Text.isWhitespace = trimmed
    induction trimmed with
    | nil => rfl
    | cons c trimmed ih =>
        by_cases h : Text.isWhitespace c = true
        · rw [List.cons_append, List.dropWhile_cons_of_pos h, List.dropWhile_cons_of_pos h, ih]
        · rw [List.cons_append, List.dropWhile_cons_of_neg h, List.dropWhile_cons_of_neg h,
            ← List.cons_append]
          exact List.rdropWhile_concat_pos Text.isWhitespace _ _ (by decide)
  rw [hend, Text.trimChars_trimChars]

theorem mem_of_mem_trimChars {text : List Char} {c : Char} (h : c ∈ Text.trimChars text) :
    c ∈ text := by
  have hdrop : c ∈ text.dropWhile Text.isWhitespace :=
    (List.rdropWhile_prefix Text.isWhitespace _).subset h
  exact (List.dropWhile_sublist Text.isWhitespace).subset hdrop

/-- The heading that is read off a text is one line of it. -/
theorem newline_notMem_heading (text : List Char) :
    '\n' ∉ Text.trimChars (text.takeWhile (· ≠ '\n')) := by
  intro h
  have hnot := List.mem_takeWhile_imp (mem_of_mem_trimChars h)
  simp at hnot

/-- The body under a heading, as it is written: the heading is one line, and it is the title. -/
theorem bodyWithoutMatchingH1_written {title : List Char} (htrimmed : Text.trimChars title = title)
    (body : List Char) :
    bodyWithoutMatchingH1 ([ '\n'] ++ "# ".toList ++ title ++ "\n\n".toList ++
        Text.trimChars body ++ [ '\n']) title =
      if '\n' ∈ title then bail "OKF H1 title must match frontmatter title"
      else .ok (Text.trimChars body) := by
  have hstart : ([ '\n'] ++ "# ".toList ++ title ++ "\n\n".toList ++ Text.trimChars body ++
      [ '\n']).dropWhile (fun c => c = '\r' || c = '\n') =
        "# ".toList ++ (title ++ ( '\n' :: '\n' :: (Text.trimChars body ++ [ '\n']))) := by
    simp
  rw [bodyWithoutMatchingH1, hstart, dropPrefix?_append]
  dsimp only
  by_cases htitle : '\n' ∈ title
  · rw [if_pos htitle, ensure_of_not, bail_bind]
    intro heq
    exact newline_notMem_heading _ (heq ▸ htitle)
  · have hall : ∀ c ∈ title, decide (c ≠ '\n') = true := by
      intro c hc
      have hne : c ≠ '\n' := fun h => htitle (h ▸ hc)
      simpa using hne
    have hline : ∀ rest : List Char, ( '\n' :: rest).takeWhile (· ≠ '\n') = [] ∧
        ( '\n' :: rest).dropWhile (· ≠ '\n') = '\n' :: rest := by simp
    rw [if_neg htitle, List.takeWhile_append_of_pos hall, List.dropWhile_append_of_pos hall,
      (hline _).1, (hline _).2, List.append_nil, htrimmed, ensure_of rfl, ok_bind]
    show Except.ok (Text.trimChars (List.dropWhile isNewline ( '\n' :: '\n' :: _))) = _
    rw [trimChars_dropNewlines]
    have hlines : Text.trimChars ( '\n' :: '\n' :: (Text.trimChars body ++ [ '\n'])) =
        Text.trimChars (Text.trimChars body ++ [ '\n']) := rfl
    rw [hlines, trimChars_of_line]

/-- A title whose heading is read is one line. -/
theorem oneLine_of_heading {title body under : List Char} (htrimmed : Text.trimChars title = title)
    (h : bodyWithoutMatchingH1 ([ '\n'] ++ "# ".toList ++ title ++ "\n\n".toList ++
        Text.trimChars body ++ [ '\n']) title = .ok under) : '\n' ∉ title := by
  intro hnewline
  rw [bodyWithoutMatchingH1_written htrimmed, if_pos hnewline] at h
  exact bail_ne_ok h

/-- A body is trimmed when it is read. -/
theorem trimmed_bodyWithoutMatchingH1 {body title under : List Char}
    (h : bodyWithoutMatchingH1 body title = .ok under) : Text.trimChars under = under := by
  unfold bodyWithoutMatchingH1 at h
  dsimp only at h
  split at h
  · cases h
    exact Text.trimChars_trimChars _
  · obtain ⟨_, h⟩ := check_bind_eq_ok.1 h
    cases h
    exact Text.trimChars_trimChars _

/-! ### Paths -/

/-- A path with its extension cut off is what stands before the extension. -/
theorem path_of_stem {path : String} {stem : List Char} {p : List Char → Bool}
    (h : ((path.toList.reverse.dropPrefix? ".md".toList.reverse).map List.reverse).filter p =
      some stem) : path = String.ofList stem ++ ".md" := by
  obtain ⟨reversed, hreversed, rfl⟩ := Option.map_eq_some_iff.1 (Option.filter_eq_some_iff.1 h).1
  obtain ⟨suffix, hsplit, hsuffix⟩ := List.dropPrefix?_eq_some_iff.1 hreversed
  rw [← String.toList_inj, String.toList_append, String.toList_ofList]
  rw [beq_iff_eq.1 hsuffix] at hsplit
  have hpath := congrArg List.reverse hsplit
  rwa [List.reverse_reverse, List.reverse_append, List.reverse_reverse] at hpath

theorem path_of_conceptId {path concept : String} (h : conceptId path = .ok concept) :
    path = concept ++ ".md" := by
  obtain ⟨stem, hstem, h⟩ := bind_eq_ok.1 h
  obtain ⟨_, h⟩ := check_bind_eq_ok.1 h
  obtain ⟨_, h⟩ := check_bind_eq_ok.1 h
  rw [← Except.ok.inj h]
  exact path_of_stem (require_eq_ok.1 hstem)

/-! ### Fields -/

/-- What a checked text field holds: trimmed text, and some. -/
def Clean (value : String) : Prop := Text.trim value = value ∧ value ≠ ""

theorem Clean.trimChars {value : String} (h : Clean value) :
    Text.trimChars value.toList = value.toList := by
  have hlist := congrArg String.toList h.1
  rwa [Text.trim, String.toList_ofList] at hlist

theorem requiredString_clean {value : Option String} {key text : String}
    (h : requiredString value key = .ok text) : Clean text := by
  obtain ⟨raw, _, h⟩ := bind_eq_ok.1 h
  obtain ⟨hne, h⟩ := check_bind_eq_ok.1 h
  cases h
  exact ⟨Text.trim_trim raw, ensure_eq_ok.1 hne⟩

theorem requiredString_of_clean {text : String} (h : Clean text) (key : String) :
    requiredString (some text) key = .ok text := by
  rw [requiredString, require_some, ok_bind, h.1]
  exact check_bind_eq_ok.2 ⟨ensure_of h.2, rfl⟩

theorem optionalString_clean {value text : Option String} {key : String}
    (h : optionalString value key = .ok text) : ∀ s ∈ text, Clean s := by
  intro s hs
  cases value with
  | none =>
      cases h
      cases hs
  | some raw =>
      obtain ⟨hne, h⟩ := check_bind_eq_ok.1 h
      cases h
      cases hs
      exact ⟨Text.trim_trim raw, ensure_eq_ok.1 hne⟩

theorem optionalString_of_clean {text : Option String} (h : ∀ s ∈ text, Clean s) (key : String) :
    optionalString text key = .ok text := by
  cases text with
  | none => rfl
  | some s =>
      obtain ⟨htrim, hne⟩ := h s rfl
      rw [optionalString, htrim]
      exact check_bind_eq_ok.2 ⟨ensure_of hne, rfl⟩

theorem parseMemoryType_asStr (x : MemoryType) (key : String) :
    parseRequiredEnum parseMemoryType (some x.asStr) key = .ok x := by
  cases x <;> rfl

theorem parseMemoryLane_asStr (x : MemoryLane) (key : String) :
    parseRequiredEnum parseMemoryLane (some x.asStr) key = .ok x := by
  cases x <;> rfl

theorem parseMemoryStatus_asStr (x : MemoryStatus) (key : String) :
    parseRequiredEnum parseMemoryStatus (some x.asStr) key = .ok x := by
  cases x <;> rfl

theorem parseScopeKind_asStr (x : ScopeKind) (key : String) :
    parseRequiredEnum parseScopeKind (some x.asStr) key = .ok x := by
  cases x <;> rfl

theorem parseVisibility_asStr (x : Visibility) (key : String) :
    parseRequiredEnum parseVisibility (some x.asStr) key = .ok x := by
  cases x <;> rfl

theorem parseContentClass_asStr (x : Maintenance.RepositoryContentClass) (key : String) :
    parseRequiredEnum parseContentClass (some (contentClassAsStr x)) key = .ok x := by
  cases x <;> rfl

/-- The profile of a checked identity is the current one. -/
theorem validateSchemaIdentity_profile {id kind profile : Option String} {expectedKind : String}
    (h : validateSchemaIdentity id kind profile expectedKind = .ok ()) :
    validateSchemaIdentity id kind (some okfProfile) expectedKind = .ok () := by
  obtain ⟨id', hid, h⟩ := bind_eq_ok.1 h
  obtain ⟨hvalid, h⟩ := check_bind_eq_ok.1 h
  obtain ⟨kind', hkind, h⟩ := bind_eq_ok.1 h
  obtain ⟨hexpected, _⟩ := check_bind_eq_ok.1 h
  exact bind_eq_ok.2 ⟨id', hid, check_bind_eq_ok.2 ⟨hvalid, bind_eq_ok.2 ⟨kind', hkind,
    check_bind_eq_ok.2 ⟨hexpected, bind_eq_ok.2 ⟨okfProfile, rfl, ensure_of rfl⟩⟩⟩⟩⟩

/-- Checked paths are checked again to themselves. -/
theorem validateAppliesTo_again {values paths : List String}
    (h : validateAppliesTo values = .ok paths) : validateAppliesTo paths = .ok paths := by
  refine mapAll_again h fun value path hpath => ?_
  obtain ⟨hne, hpath⟩ := check_bind_eq_ok.1 hpath
  obtain ⟨hinside, hpath⟩ := check_bind_eq_ok.1 hpath
  cases hpath
  rw [Text.trim_trim]
  exact check_bind_eq_ok.2 ⟨hne, check_bind_eq_ok.2 ⟨hinside, rfl⟩⟩

/-- Paths without white space around them are checked to themselves. -/
theorem validateAppliesTo_fixed {values paths : List String}
    (htrim : ∀ value ∈ values, Text.trim value = value)
    (h : validateAppliesTo values = .ok paths) : paths = values := by
  have hall := mapAll_eq_ok.1 h
  clear h
  induction hall with
  | nil => rfl
  | @cons value path values paths hpath _ ih =>
      obtain ⟨_, hpath⟩ := check_bind_eq_ok.1 hpath
      obtain ⟨_, hpath⟩ := check_bind_eq_ok.1 hpath
      cases hpath
      rw [ih fun v hv => htrim v (List.mem_cons_of_mem _ hv), htrim value List.mem_cons_self]

theorem validateAppliesTo_trims {values paths : List String}
    (h : validateAppliesTo values = .ok paths) : ∀ path ∈ paths, Text.trim path = path := by
  intro path hpath
  obtain ⟨value, _, hvalue⟩ := (mem_of_mapAll h path).1 hpath
  obtain ⟨_, hvalue⟩ := check_bind_eq_ok.1 hvalue
  obtain ⟨_, hvalue⟩ := check_bind_eq_ok.1 hvalue
  cases hvalue
  exact Text.trim_trim value

theorem getD_someIfAny {α : Type} [DecidableEq α] (items : List α) :
    (someIfAny items).getD [] = items := by
  unfold someIfAny
  split
  · rename_i h
    rw [h]
    rfl
  · rfl

end Okf
end Memzoi
