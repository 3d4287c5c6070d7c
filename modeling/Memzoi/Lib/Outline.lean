/-
# Outlines

A library of its own: a sequence of items with levels. An item reaches up to the
next item of its level or of a lesser one (`next`), and the items that reach past
the end of a sequence are open there. A stack that drops the items of no lesser
level before it takes an item holds the open items, the last one on top
(`stackOf_eq`). Where the items have places in increasing order, a later item is
nested in an earlier one that is open at it, and stands behind any other.
-/

import Mathlib

namespace Outline

variable {α β : Type} (level : α → Nat)

/-- The first item of at most a level. -/
def next (l : Nat) (rest : List α) : Option α := rest.find? fun b => level b ≤ l

/-- The items that no later item ends. -/
def openItems : List α → List α
  | [] => []
  | a :: rest => if next level (level a) rest = none then a :: openItems rest else openItems rest

/-- Drop the items of no lesser level, and take one. -/
def push (stack : List α) (x : α) : List α := x :: stack.dropWhile fun a => level x ≤ level a

def stackOf (before : List α) : List α := before.foldl (push level) []

variable {level} {l : Nat} {rest : List α}

theorem next_eq_none : next level l rest = none ↔ ∀ b ∈ rest, l < level b := by
  rw [next, List.find?_eq_none]
  simp

theorem next_append (front rest : List α) :
    next level l (front ++ rest) = (next level l front).or (next level l rest) :=
  List.find?_append

theorem openItems_concat (before : List α) (x : α) :
    openItems level (before ++ [x]) = (openItems level before).filter (level · < level x) ++ [x] := by
  induction before with
  | nil => rfl
  | cons a before ih =>
      have hnext : next level (level a) (before ++ [x]) = none ↔
          next level (level a) before = none ∧ level a < level x := by
        rw [next_eq_none, next_eq_none, List.forall_mem_append]
        simp
      rw [List.cons_append, openItems, openItems, ih]
      by_cases hopen : next level (level a) before = none
      · by_cases hless : level a < level x
        · rw [if_pos (hnext.2 ⟨hopen, hless⟩), if_pos hopen, List.filter_cons_of_pos (by simpa using hless),
            List.cons_append]
        · rw [if_neg fun h => hless (hnext.1 h).2, if_pos hopen,
            List.filter_cons_of_neg (by simpa using hless)]
      · rw [if_neg fun h => hopen (hnext.1 h).1, if_neg hopen]

theorem openItems_subset (before : List α) : openItems level before ⊆ before := by
  induction before with
  | nil => exact List.Subset.refl _
  | cons a before ih =>
      rw [openItems]
      split
      · exact List.cons_subset_cons a ih
      · exact List.Subset.trans ih (List.subset_cons_self a before)

/-- Open items are nested: their levels increase. -/
theorem pairwise_openItems (before : List α) :
    (openItems level before).Pairwise fun a b => level a < level b := by
  induction before with
  | nil => exact List.Pairwise.nil
  | cons a before ih =>
      rw [openItems]
      split
      · rename_i hopen
        refine List.pairwise_cons.2 ⟨fun b hb => ?_, ih⟩
        exact next_eq_none.1 hopen b (openItems_subset before hb)
      · exact ih

/-- On a stack with the greatest level on top, dropping is filtering. -/
theorem dropWhile_eq_filter {stack : List α} (h : stack.Pairwise fun a b => level b < level a) :
    (stack.dropWhile fun a => l ≤ level a) = stack.filter (level · < l) := by
  induction stack with
  | nil => rfl
  | cons a stack ih =>
      obtain ⟨hbelow, hrest⟩ := List.pairwise_cons.1 h
      by_cases hle : l ≤ level a
      · rw [List.dropWhile_cons_of_pos (by simpa using hle),
          List.filter_cons_of_neg (by simpa using hle), ih hrest]
      · have hall : ∀ b ∈ a :: stack, level b < l := by
          intro b hb
          rcases List.mem_cons.1 hb with rfl | hb
          · omega
          · have hless := hbelow b hb
            omega
        rw [List.dropWhile_cons_of_neg (by simpa using hle)]
        exact (List.filter_eq_self.2 fun b hb => by simpa using hall b hb).symm

theorem push_reverse (before : List α) (x : α) :
    push level (openItems level before).reverse x = (openItems level (before ++ [x])).reverse := by
  rw [push, dropWhile_eq_filter (List.pairwise_reverse.2 (pairwise_openItems before)),
    openItems_concat, List.reverse_append, List.filter_reverse]
  rfl

/-- The stack holds the open items. -/
theorem stackOf_eq (before : List α) : stackOf level before = (openItems level before).reverse := by
  induction before using List.reverseRecOn with
  | nil => rfl
  | append_singleton before x ih =>
      rw [← push_reverse, ← ih]
      unfold stackOf
      rw [List.foldl_append]
      rfl

theorem openItems_map (f : β → α) (before : List β) :
    openItems level (before.map f) = (openItems (level ∘ f) before).map f := by
  induction before with
  | nil => rfl
  | cons a before ih =>
      have hnext : next level (level (f a)) (before.map f) = none ↔
          next (level ∘ f) ((level ∘ f) a) before = none := by
        rw [next_eq_none, next_eq_none, List.forall_mem_map]
        rfl
      rw [List.map_cons, openItems, openItems, ih]
      by_cases hopen : next (level ∘ f) ((level ∘ f) a) before = none
      · rw [if_pos (hnext.2 hopen), if_pos hopen, List.map_cons]
      · rw [if_neg fun h => hopen (hnext.1 h), if_neg hopen]

/-! ### Positions -/

/-- Each item with the items before and after it. -/
def positions (before : List α) : List α → List (List α × α × List α)
  | [] => []
  | a :: rest => (before, a, rest) :: positions (before ++ [a]) rest

theorem map_positions (before items : List α) :
    (positions before items).map (fun p => p.2.1) = items := by
  induction items generalizing before with
  | nil => rfl
  | cons a items ih => rw [positions, List.map_cons, ih]

theorem positions_append (before front rest : List α) :
    positions before (front ++ rest) =
      (positions before front).map (fun p => (p.1, p.2.1, p.2.2 ++ rest)) ++
        positions (before ++ front) rest := by
  induction front generalizing before with
  | nil => simp [positions]
  | cons a front ih =>
      rw [List.cons_append, positions, ih, positions, List.map_cons, List.cons_append,
        List.append_assoc]
      rfl

theorem mem_positions {before items : List α} {p : List α × α × List α} :
    p ∈ positions before items ↔
      ∃ front, p.1 = before ++ front ∧ items = front ++ p.2.1 :: p.2.2 := by
  induction items generalizing before with
  | nil =>
      constructor
      · intro h
        cases h
      · rintro ⟨front, -, h⟩
        exact absurd h.symm (by simp)
  | cons a rest ih =>
      rw [positions, List.mem_cons, ih]
      constructor
      · rintro (rfl | ⟨front, hbefore, rfl⟩)
        · exact ⟨[], by simp, rfl⟩
        · exact ⟨a :: front, by rw [hbefore]; simp, rfl⟩
      · rintro ⟨front, hbefore, hitems⟩
        cases front with
        | nil =>
            obtain ⟨rfl, rfl⟩ := List.cons.inj hitems
            exact Or.inl (Prod.ext (by simpa using hbefore) rfl)
        | cons b front =>
            obtain ⟨rfl, rfl⟩ := List.cons.inj hitems
            exact Or.inr ⟨front, by rw [hbefore]; simp, rfl⟩

theorem pairwise_positions {rel : List α × α × List α → List α × α × List α → Prop}
    {before items : List α} :
    (positions before items).Pairwise rel ↔
      ∀ front a mid b rest, items = front ++ a :: (mid ++ b :: rest) →
        rel (before ++ front, a, mid ++ b :: rest) (before ++ front ++ a :: mid, b, rest) := by
  induction items generalizing before with
  | nil =>
      refine ⟨fun _ front a mid b rest h => absurd h.symm (by simp), fun _ => List.Pairwise.nil⟩
  | cons x items ih =>
      rw [positions, List.pairwise_cons, ih]
      constructor
      · rintro ⟨hhead, htail⟩ front a mid b rest hitems
        cases front with
        | nil =>
            obtain ⟨rfl, rfl⟩ := List.cons.inj hitems
            have h := hhead (before ++ x :: mid, b, rest) (mem_positions.2 ⟨mid, by simp, rfl⟩)
            simpa using h
        | cons y front =>
            obtain ⟨rfl, rfl⟩ := List.cons.inj hitems
            have h := htail front a mid b rest rfl
            simpa using h
      · intro hall
        constructor
        · rintro ⟨b, y, rest⟩ hmem
          obtain ⟨mid, hb, hitems⟩ := mem_positions.1 hmem
          dsimp only at hb hitems
          subst hb hitems
          have h := hall [] x mid y rest rfl
          simpa using h
        · intro front a mid b rest hitems
          have h := hall (x :: front) a mid b rest (by rw [hitems]; rfl)
          simpa using h

theorem openItems_eq (before items : List α) :
    openItems level items =
      ((positions before items).filter fun p => next level (level p.2.1) p.2.2 = none).map
        (·.2.1) := by
  induction items generalizing before with
  | nil => rfl
  | cons a rest ih =>
      rw [openItems, positions, ih (before ++ [a])]
      by_cases hopen : next level (level a) rest = none
      · rw [if_pos hopen, List.filter_cons_of_pos (by simpa using hopen), List.map_cons]
      · rw [if_neg hopen, List.filter_cons_of_neg (by simpa using hopen)]

theorem positions_map (f : β → α) (before items : List β) :
    positions (before.map f) (items.map f) =
      (positions before items).map fun p => (p.1.map f, f p.2.1, p.2.2.map f) := by
  induction items generalizing before with
  | nil => rfl
  | cons a rest ih =>
      have hrest := ih (before ++ [a])
      rw [List.map_append] at hrest
      rw [List.map_cons, positions, positions, List.map_cons]
      exact congrArg _ hrest

/-! ### Places -/

section Places

variable {place : α → Nat} {stop : Nat}

/-- Where an item of a level ends. -/
def reach (level place : α → Nat) (stop l : Nat) (rest : List α) : Nat :=
  (next level l rest).elim stop place

/-- Where any item ends that no item is nested in. -/
def headPlace (place : α → Nat) (stop : Nat) (rest : List α) : Nat := (rest.head?.map place).getD stop

theorem reach_eq (level place : α → Nat) (stop l : Nat) (rest : List α) :
    (next level l rest = none ∧ reach level place stop l rest = stop) ∨
      ∃ b ∈ rest, level b ≤ l ∧ next level l rest = some b ∧
        reach level place stop l rest = place b := by
  rw [reach]
  cases hnext : next level l rest with
  | none => exact Or.inl ⟨rfl, rfl⟩
  | some b =>
      have hlevel := List.find?_some hnext
      exact Or.inr ⟨b, List.mem_of_find?_eq_some hnext, by simpa using hlevel, rfl, rfl⟩

theorem lt_reach {a : α} (h : (a :: rest).Pairwise fun a b => place a < place b)
    (hstop : place a < stop) : place a < reach level place stop l rest := by
  rcases reach_eq level place stop l rest with
    ⟨-, heq⟩ | ⟨b, hb, -, -, heq⟩
  · rw [heq]
    exact hstop
  · rw [heq]
    exact (List.pairwise_cons.1 h).1 b hb

/-- No later item of the level or of a lesser one comes before the end. -/
theorem reach_le (h : rest.Pairwise fun a b => place a < place b) {b : α} (hb : b ∈ rest)
    (hl : level b ≤ l) : reach level place stop l rest ≤ place b := by
  obtain ⟨front, back, rfl⟩ := List.append_of_mem hb
  rw [reach, next_append]
  cases hnext : next level l front with
  | none =>
      rw [next, List.find?_cons_of_pos (by simpa using hl)]
      exact Nat.le_refl _
  | some c =>
      have hc := List.mem_of_find?_eq_some hnext
      exact Nat.le_of_lt ((List.pairwise_append.1 h).2.2 c hc b List.mem_cons_self)

theorem headPlace_le_reach (h : rest.Pairwise fun a b => place a < place b)
    (hstop : ∀ b ∈ rest, place b < stop) :
    headPlace place stop rest ≤ reach level place stop l rest := by
  cases rest with
  | nil => exact Nat.le_refl _
  | cons a rest =>
      have hle : ∀ b ∈ a :: rest, place a ≤ place b := by
        intro b hb
        rcases List.mem_cons.1 hb with rfl | hb
        · exact Nat.le_refl _
        · exact Nat.le_of_lt ((List.pairwise_cons.1 h).1 b hb)
      rcases reach_eq level place stop l (a :: rest) with
        ⟨-, heq⟩ | ⟨b, hb, -, -, heq⟩
      · rw [heq]
        exact Nat.le_of_lt (hstop a List.mem_cons_self)
      · rw [heq]
        exact hle b hb

variable {mid : List α} {x : α}

/-- An item that is open at a later one encloses it. -/
theorem reach_nested (h : rest.Pairwise fun a b => place a < place b)
    (hstop : ∀ b ∈ rest, place b < stop) (hopen : next level l (mid ++ [x]) = none) :
    reach level place stop (level x) rest ≤ reach level place stop l (mid ++ x :: rest) := by
  have hless : l < level x :=
    next_eq_none.1 hopen x (List.mem_append_right _ List.mem_cons_self)
  have hreach : reach level place stop l (mid ++ x :: rest) = reach level place stop l rest := by
    rw [reach, List.append_cons, next_append, hopen, Option.none_or, reach]
  rw [hreach]
  rcases reach_eq level place stop l rest with
    ⟨hnone, heq⟩ | ⟨b, hb, hl, -, heq⟩
  · rw [heq]
    rcases reach_eq level place stop (level x) rest with
      ⟨-, hx⟩ | ⟨b, hb, -, -, hx⟩
    · exact Nat.le_of_eq hx
    · rw [hx]
      exact Nat.le_of_lt (hstop b hb)
  · rw [heq]
    exact reach_le h hb (by omega)

/-- An item that is not open at a later one ends before it. -/
theorem reach_disjoint (h : (mid ++ x :: rest).Pairwise fun a b => place a < place b)
    (hended : next level l (mid ++ [x]) ≠ none) :
    reach level place stop l (mid ++ x :: rest) ≤ place x := by
  obtain ⟨b, hb⟩ := Option.ne_none_iff_exists'.1 hended
  have hl : level b ≤ l := by simpa using List.find?_some hb
  have hmem := List.mem_of_find?_eq_some hb
  rcases List.mem_append.1 hmem with hmid | hx
  · have hle : reach level place stop l (mid ++ x :: rest) ≤ place b :=
      reach_le h (List.mem_append_left _ hmid) hl
    have hlt := (List.pairwise_append.1 h).2.2 b hmid x List.mem_cons_self
    omega
  · obtain rfl := List.mem_singleton.1 hx
    exact reach_le h (List.mem_append_right _ List.mem_cons_self) hl

end Places

end Outline
