/-
# Contradictory claims

Source: `maintenance.rs` (`private_contradiction_candidate`,
`private_contradiction_adjacency` and the text functions under them) and
`search.rs` (`path_matches_request`).

Two claims contradict each other when their bodies have one polarity signature
and opposite polarity, their titles and kinds agree, their paths overlap and
neither succeeds the other. The adjacency of a list of candidates is symmetric,
and its components are what one resolution has to name.
-/

import Memzoi.Models
import Memzoi.Lib.Explore

namespace Memzoi
namespace Maintenance

open Fallible Text

def maxPairComparisons : Nat := 1000000

/-! ### Paths -/

/-- `trim().trim_end_matches('/')`. -/
def trimPath (path : String) : List Char := (trim path).toList.rdropWhile (· = '/')

def pathIsOrIsUnder (path base : List Char) : Bool :=
  path = base ||
    match path.dropPrefix? base with
    | some rest => rest.head? = some '/'
    | none => false

/-- `strip_suffix("/**")`. -/
def globBase (path : List Char) : Option (List Char) :=
  path.dropSuffix? "/**".toList

def pathMatchesRequest (storedPath requestedPath : String) : Bool :=
  let stored := trimPath storedPath
  let requested := trimPath requestedPath
  if stored = [] ∨ requested = [] then false
  else if stored = requested then true
  else
    match globBase stored with
    | some base => pathIsOrIsUnder requested base
    | none =>
      match globBase requested with
      | some base => pathIsOrIsUnder stored base
      | none => pathIsOrIsUnder requested stored || pathIsOrIsUnder stored requested

def pathsOverlap (left right : List String) : Bool :=
  left.isEmpty || right.isEmpty ||
    left.any (fun l => right.any (fun r => pathMatchesRequest l r || pathMatchesRequest r l))

/-! ### Polarity -/

section Text

variable [Unicode]

def normalizeText (value : String) : String := Unicode.lowercase (collapseWhitespace value)

def normalizedTokens (value : String) : List String :=
  pieces (fun c => !Unicode.isAlphanumeric c && c ≠ '_') (Unicode.lowercase value)

/-- The positions of the tokens that satisfy `p`. -/
def positions (p : String → Bool) (tokens : List String) : List Nat :=
  (List.range tokens.length).filter (fun i => p (tokens.getD i ""))

def joinTokens (tokens : List String) : String := " ".intercalate tokens

/-- The boolean ends the text, after a verb of assertion. -/
def terminalPredicate (tokens : List String) (index : Nat) : Bool :=
  index + 1 = tokens.length && 0 < index &&
    (["is", "are"].contains (tokens.getD (index - 1) "") ||
      (tokens.getD (index - 1) "" = "be" && 1 < index &&
        ["must", "should"].contains (tokens.getD (index - 2) "")))

/-- The claim without its polarity, and whether it is negative. -/
def polaritySignature (body : String) : Option (String × Bool) :=
  let tokens := normalizedTokens body
  if tokens = [] ∨ tokens = ["not"] then none
  else
    match positions (fun t => t = "true" || t = "false") tokens with
    | [index] =>
      if terminalPredicate tokens index then
        some (joinTokens (tokens.set index "<boolean>"), tokens.getD index "" = "false")
      else none
    | _ :: _ :: _ => none
    | [] =>
      match positions (· = "not") tokens with
      | [index] =>
        if 0 < index ∧ ["is", "are", "must", "should"].contains (tokens.getD (index - 1) "") = true
        then some (joinTokens (tokens.eraseIdx index), true)
        else none
      | _ :: _ :: _ => none
      | [] =>
        if tokens.any (["is", "are", "must", "should"].contains ·) then
          some (joinTokens tokens, false)
        else none

def blockedTokens : List String :=
  ["if", "when", "whenever", "unless", "provided", "providing", "assuming", "depending", "where",
    "wherever", "while", "except", "otherwise", "until", "before", "after", "since", "once", "now",
    "today", "tomorrow", "yesterday", "formerly", "current", "currently", "previously",
    "temporarily", "during"]

/-- Two neighbouring tokens `as`, `of`. -/
def hasAsOf : List String → Bool
  | a :: b :: rest => (a = "as" && b = "of") || hasAsOf (b :: rest)
  | _ => false

def containsConditionalOrTemporalLanguage (body : String) : Bool :=
  let tokens := normalizedTokens body
  tokens.any (fun t => blockedTokens.contains t || (t.utf8ByteSize = 4 && t.toList.all Char.isDigit))
    || hasAsOf tokens

/-! ### Candidates and their graph -/

def claimBearingType (memoryType : MemoryType) : Bool :=
  match memoryType with
  | .fact => true
  | .preference => true
  | .decision => true
  | .procedure => true
  | .instructionProjection => true
  | _ => false

def privateContradictionCandidate (record : MemoryRecord) : Bool :=
  (record.lane = .semantic || record.lane = .procedural) && claimBearingType record.memoryType &&
    !containsConditionalOrTemporalLanguage record.body && (polaritySignature record.body).isSome

def samePrivateClaimContext (left right : MemoryRecord) : Bool :=
  left.memoryType = right.memoryType && left.lane = right.lane &&
    left.destination = right.destination &&
    normalizeText left.title = normalizeText right.title &&
    left.scopeKind = right.scopeKind && left.scopeId = right.scopeId

def privateRecordsAreTemporallyRelated (left right : MemoryRecord) : Bool :=
  left.supersedesId = some right.id || right.supersedesId = some left.id ||
    left.lineage.any (·.predecessorId = right.id) ||
    right.lineage.any (·.predecessorId = left.id)

/-- A record with its applicability paths. -/
abbrev Candidate := MemoryRecord × List String

/-- The pair passes every test of `private_contradiction_adjacency`. -/
def contradicts (left right : Candidate) : Bool :=
  match polaritySignature left.1.body, polaritySignature right.1.body with
  | some (leftSignature, leftNegative), some (rightSignature, rightNegative) =>
    leftSignature = rightSignature && leftNegative ≠ rightNegative &&
      samePrivateClaimContext left.1 right.1 && pathsOverlap left.2 right.2 &&
      !privateRecordsAreTemporallyRelated left.1 right.1
  | _, _ => false

/-- The edge between two positions, asked of the earlier one first. -/
def adjacent (candidates : List Candidate) (i j : Nat) : Bool :=
  match candidates[i]?, candidates[j]? with
  | some a, some b => (i < j && contradicts a b) || (j < i && contradicts b a)
  | _, _ => false

/-- The neighbours of a position, in order. -/
def neighbors (candidates : List Candidate) (i : Nat) : List Nat :=
  (List.range candidates.length).filter (adjacent candidates i)

/-- `private_contradiction_adjacency`: it gives up when there are too many pairs. -/
def privateContradictionAdjacency (candidates : List Candidate) : Fallible (Nat → List Nat) := do
  ensure (candidates.length * (candidates.length - 1) / 2 ≤ maxPairComparisons)
    "maintenance planning exceeds the pair-comparison work limit"
  .ok (neighbors candidates)

end Text

/-! ### Symmetry -/

theorem pathsOverlap_comm (left right : List String) :
    pathsOverlap left right = pathsOverlap right left := by
  rw [Bool.eq_iff_iff]
  simp only [pathsOverlap, Bool.or_eq_true, List.any_eq_true]
  constructor
  · rintro ((h | h) | ⟨l, hl, r, hr, h⟩)
    · exact Or.inl (Or.inr h)
    · exact Or.inl (Or.inl h)
    · exact Or.inr ⟨r, hr, l, hl, h.symm⟩
  · rintro ((h | h) | ⟨r, hr, l, hl, h⟩)
    · exact Or.inl (Or.inr h)
    · exact Or.inl (Or.inl h)
    · exact Or.inr ⟨l, hl, r, hr, h.symm⟩

variable [Unicode]

theorem contradicts_comm (a b : Candidate) : contradicts a b = contradicts b a := by
  unfold contradicts
  cases polaritySignature a.1.body with
  | none => cases polaritySignature b.1.body <;> rfl
  | some x =>
      cases polaritySignature b.1.body with
      | none => rfl
      | some y =>
          rw [Bool.eq_iff_iff]
          simp only [pathsOverlap_comm b.2 a.2, samePrivateClaimContext,
            privateRecordsAreTemporallyRelated, Bool.and_eq_true, decide_eq_true_eq,
            Bool.not_eq_true', Bool.or_eq_false_iff]
          constructor
          · rintro ⟨⟨⟨⟨hs, hn⟩, ⟨⟨⟨⟨⟨h1, h2⟩, h3⟩, h4⟩, h5⟩, h6⟩⟩, hp⟩, ⟨⟨⟨h7, h8⟩, h9⟩, h10⟩⟩
            exact ⟨⟨⟨⟨hs.symm, Ne.symm hn⟩, ⟨⟨⟨⟨⟨h1.symm, h2.symm⟩, h3.symm⟩, h4.symm⟩, h5.symm⟩,
              h6.symm⟩⟩, hp⟩, ⟨⟨⟨h8, h7⟩, h10⟩, h9⟩⟩
          · rintro ⟨⟨⟨⟨hs, hn⟩, ⟨⟨⟨⟨⟨h1, h2⟩, h3⟩, h4⟩, h5⟩, h6⟩⟩, hp⟩, ⟨⟨⟨h7, h8⟩, h9⟩, h10⟩⟩
            exact ⟨⟨⟨⟨hs.symm, Ne.symm hn⟩, ⟨⟨⟨⟨⟨h1.symm, h2.symm⟩, h3.symm⟩, h4.symm⟩, h5.symm⟩,
              h6.symm⟩⟩, hp⟩, ⟨⟨⟨h8, h7⟩, h10⟩, h9⟩⟩

/-- Two positions are adjacent when they differ and hold contradictory candidates. -/
theorem adjacent_iff {candidates : List Candidate} {i j : Nat} :
    adjacent candidates i j = true ↔
      i ≠ j ∧ ∃ a b, candidates[i]? = some a ∧ candidates[j]? = some b ∧ contradicts a b = true := by
  unfold adjacent
  cases hi : candidates[i]? with
  | none => simp
  | some a =>
      cases hj : candidates[j]? with
      | none => simp
      | some b =>
          simp only [Bool.or_eq_true, Bool.and_eq_true, decide_eq_true_eq, contradicts_comm b a]
          constructor
          · rintro (⟨hlt, h⟩ | ⟨hlt, h⟩)
            · exact ⟨ne_of_lt hlt, a, b, rfl, rfl, h⟩
            · exact ⟨ne_of_gt hlt, a, b, rfl, rfl, h⟩
          · rintro ⟨hne, a', b', ha, hb, h⟩
            cases ha
            cases hb
            rcases Nat.lt_or_gt_of_ne hne with hlt | hlt
            · exact Or.inl ⟨hlt, h⟩
            · exact Or.inr ⟨hlt, h⟩

theorem mem_neighbors {candidates : List Candidate} {i j : Nat} :
    j ∈ neighbors candidates i ↔ adjacent candidates i j = true := by
  rw [neighbors, List.mem_filter, List.mem_range]
  constructor
  · exact fun h => h.2
  · intro h
    obtain ⟨-, a, b, -, hj, -⟩ := adjacent_iff.1 h
    exact ⟨(List.getElem?_eq_some_iff.1 hj).1, h⟩

/-! ### The graph of a list of candidates -/

theorem contradicts_irrefl (a : Candidate) : contradicts a a = false := by
  unfold contradicts
  cases polaritySignature a.1.body with
  | none => rfl
  | some x => simp

/-- Two candidates of the list contradict each other. -/
def Linked (candidates : List Candidate) (a b : Candidate) : Prop :=
  a ∈ candidates ∧ b ∈ candidates ∧ contradicts a b = true

/-- Chains of contradictions between the candidates. -/
abbrev Connected (candidates : List Candidate) : Candidate → Candidate → Prop :=
  Relation.ReflTransGen (Linked candidates)

/-- Connection depends on which candidates there are, not on their order. -/
theorem Connected.of_subset {candidates others : List Candidate}
    (h : ∀ a ∈ candidates, a ∈ others) {a b : Candidate} (hab : Connected candidates a b) :
    Connected others a b :=
  Relation.ReflTransGen.mono (fun a b hlink => ⟨h a hlink.1, h b hlink.2.1, hlink.2.2⟩) _ _ hab

/-- A walk over positions is a chain of contradictions. -/
theorem connected_of_reach {candidates : List Candidate} {i j : Nat} {a : Candidate}
    (hi : candidates[i]? = some a) (h : Explore.Reach (neighbors candidates) i j) :
    ∃ b, candidates[j]? = some b ∧ Connected candidates a b := by
  induction h with
  | refl => exact ⟨a, hi, Relation.ReflTransGen.refl⟩
  | tail _ hstep ih =>
      obtain ⟨b, hb, hab⟩ := ih
      obtain ⟨_, b', c, hb', hc, hcontradicts⟩ := adjacent_iff.1 (mem_neighbors.1 hstep)
      cases hb.symm.trans hb'
      exact ⟨c, hc, hab.tail ⟨List.mem_of_getElem? hb, List.mem_of_getElem? hc, hcontradicts⟩⟩

/-- A chain of contradictions is a walk over positions. -/
theorem reach_of_connected {candidates : List Candidate} {i : Nat} {a b : Candidate}
    (hi : candidates[i]? = some a) (h : Connected candidates a b) :
    ∃ j, candidates[j]? = some b ∧ Explore.Reach (neighbors candidates) i j := by
  induction h with
  | refl => exact ⟨i, hi, Relation.ReflTransGen.refl⟩
  | tail _ hlink ih =>
      obtain ⟨j, hj, hreach⟩ := ih
      obtain ⟨_, hc, hcontradicts⟩ := hlink
      obtain ⟨k, hk, hget⟩ := List.getElem_of_mem hc
      have hk? : candidates[k]? = some _ := List.getElem?_eq_some_iff.2 ⟨hk, hget⟩
      have hne : j ≠ k := by
        rintro rfl
        cases hj.symm.trans hk?
        rw [contradicts_irrefl] at hcontradicts
        cases hcontradicts
      exact ⟨k, hk?, hreach.tail (mem_neighbors.2
        (adjacent_iff.2 ⟨hne, _, _, hj, hk?, hcontradicts⟩))⟩

theorem neighbors_lt {candidates : List Candidate} :
    ∀ i < candidates.length, ∀ j ∈ neighbors candidates i, j < candidates.length := by
  intro i _ j hj
  exact List.mem_range.1 (List.mem_filter.1 hj).1

theorem neighbors_symm {candidates : List Candidate} (i j : Nat)
    (h : j ∈ neighbors candidates i) : i ∈ neighbors candidates j := by
  obtain ⟨hne, a, b, ha, hb, hab⟩ := adjacent_iff.1 (mem_neighbors.1 h)
  exact mem_neighbors.2 (adjacent_iff.2 ⟨hne.symm, b, a, hb, ha, contradicts_comm a b ▸ hab⟩)

/-- A position has a neighbour when its candidate contradicts one of the list. -/
theorem neighbors_ne_nil {candidates : List Candidate} {i : Nat} {a : Candidate}
    (hi : candidates[i]? = some a) :
    neighbors candidates i ≠ [] ↔ ∃ b, Linked candidates a b := by
  constructor
  · intro hne
    obtain ⟨j, hj⟩ := List.exists_mem_of_ne_nil _ hne
    obtain ⟨_, a', b, ha', hb, hab⟩ := adjacent_iff.1 (mem_neighbors.1 hj)
    cases hi.symm.trans ha'
    exact ⟨b, List.mem_of_getElem? hi, List.mem_of_getElem? hb, hab⟩
  · rintro ⟨b, hlink⟩
    obtain ⟨j, hj, hreach⟩ := reach_of_connected hi (Relation.ReflTransGen.single hlink)
    rcases Relation.ReflTransGen.cases_head hreach with rfl | ⟨k, hk, _⟩
    · cases hi.symm.trans hj
      have hself := hlink.2.2
      rw [contradicts_irrefl] at hself
      cases hself
    · exact List.ne_nil_of_mem hk

theorem Linked.symm {candidates : List Candidate} {a b : Candidate} (h : Linked candidates a b) :
    Linked candidates b a :=
  ⟨h.2.1, h.1, contradicts_comm a b ▸ h.2.2⟩

theorem Connected.symm {candidates : List Candidate} {a b : Candidate}
    (h : Connected candidates a b) : Connected candidates b a := by
  induction h with
  | refl => exact Relation.ReflTransGen.refl
  | tail _ hlink ih => exact Relation.ReflTransGen.head hlink.symm ih

/-- Everything connected to a candidate that is linked is linked. -/
theorem Linked.of_connected {candidates : List Candidate} {a b c : Candidate}
    (h : Linked candidates a b) (hac : Connected candidates a c) : ∃ x, Linked candidates c x := by
  rcases Relation.ReflTransGen.cases_tail hac with rfl | ⟨x, _, hlink⟩
  · exact ⟨b, h⟩
  · exact ⟨x, hlink.symm⟩

/-- The ids are those of all candidates along the chains of contradictions from one of them. -/
def IncompatibleSet (candidates : List Candidate) (ids : List String) : Prop :=
  ∃ a b, Linked candidates a b ∧ ∀ id, id ∈ ids ↔ ∃ c, Connected candidates a c ∧ c.1.id = id

theorem IncompatibleSet.of_perm {candidates others : List Candidate} {ids : List String}
    (hperm : candidates.Perm others) (h : IncompatibleSet candidates ids) :
    IncompatibleSet others ids := by
  obtain ⟨a, b, hlink, hids⟩ := h
  refine ⟨a, b, ⟨hperm.mem_iff.1 hlink.1, hperm.mem_iff.1 hlink.2.1, hlink.2.2⟩, fun id => ?_⟩
  rw [hids]
  constructor
  · rintro ⟨c, hac, hid⟩
    exact ⟨c, hac.of_subset fun x hx => hperm.mem_iff.1 hx, hid⟩
  · rintro ⟨c, hac, hid⟩
    exact ⟨c, hac.of_subset fun x hx => hperm.mem_iff.2 hx, hid⟩

/-- The ids at the positions reached from one are those of the chains from its candidate. -/
theorem ids_of_reach {candidates : List Candidate} {start : Nat} {a : Candidate}
    (hstart : candidates[start]? = some a) (id : String) :
    (∃ i c, Explore.Reach (neighbors candidates) start i ∧ candidates[i]? = some c ∧ c.1.id = id) ↔
      ∃ c, Connected candidates a c ∧ c.1.id = id := by
  constructor
  · rintro ⟨i, c, hreach, hc, hid⟩
    obtain ⟨c', hc', hconnected⟩ := connected_of_reach hstart hreach
    cases hc.symm.trans hc'
    exact ⟨c, hconnected, hid⟩
  · rintro ⟨c, hconnected, hid⟩
    obtain ⟨i, hc, hreach⟩ := reach_of_connected hstart hconnected
    exact ⟨i, c, hreach, hc, hid⟩

end Maintenance
end Memzoi
