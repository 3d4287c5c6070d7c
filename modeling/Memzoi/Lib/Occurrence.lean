/-
# The first occurrence of a pattern

A library of its own: `find` gives the place where a pattern first occurs in a
sequence. A pattern without some element does not occur across it, so a search
can be cut there (`find_append_delimiter`).
-/

import Mathlib

namespace Occurrence

variable {α : Type} [DecidableEq α] {p xs ys : List α} {d : α}

/-- The number of elements before the first occurrence. -/
def find (p : List α) : List α → Option Nat
  | [] => if p = [] then some 0 else none
  | x :: xs => if p.isPrefixOf (x :: xs) = true then some 0 else (find p xs).map (· + 1)

theorem find_at_front (h : p <+: xs) : find p xs = some 0 := by
  cases xs with
  | nil => rw [find, if_pos (List.prefix_nil.1 h)]
  | cons x xs => rw [find, if_pos (List.isPrefixOf_iff_prefix.2 h)]

theorem find_cons_of_not (x : α) (h : ¬ p <+: x :: xs) :
    find p (x :: xs) = (find p xs).map (· + 1) := by
  rw [find, if_neg fun hp => h (List.isPrefixOf_iff_prefix.1 hp)]

theorem find_eq_none : find p xs = none ↔ ¬ p <:+: xs := by
  induction xs with
  | nil =>
      rw [find, List.infix_nil]
      split
      · rename_i hp
        exact iff_of_false (fun h => nomatch h) fun h => h hp
      · rename_i hp
        exact iff_of_true rfl hp
  | cons x xs ih =>
      rw [List.infix_cons_iff]
      by_cases hp : p <+: x :: xs
      · rw [find_at_front hp]
        exact iff_of_false (fun h => nomatch h) fun h => h (Or.inl hp)
      · rw [find_cons_of_not x hp, Option.map_eq_none_iff, ih]
        constructor
        · rintro h ( hprefix | hinfix)
          · exact hp hprefix
          · exact h hinfix
        · exact fun h hinfix => h (Or.inr hinfix)

/-- The pattern stands where it was found. -/
theorem find_spec {n : Nat} (h : find p xs = some n) : n ≤ xs.length ∧ p <+: xs.drop n := by
  induction xs generalizing n with
  | nil =>
      rw [find] at h
      split at h
      · rename_i hp
        obtain rfl := Option.some.inj h
        exact ⟨Nat.le_refl _, hp ▸ List.nil_prefix⟩
      · cases h
  | cons x xs ih =>
      by_cases hp : p <+: x :: xs
      · rw [find_at_front hp] at h
        obtain rfl := Option.some.inj h
        exact ⟨Nat.zero_le _, hp⟩
      · rw [find_cons_of_not x hp] at h
        obtain ⟨m, hm, rfl⟩ := Option.map_eq_some_iff.1 h
        obtain ⟨hle, hprefix⟩ := ih hm
        exact ⟨Nat.succ_le_succ hle, hprefix⟩

/-- What follows does not move the first occurrence. -/
theorem find_append {n : Nat} (h : find p xs = some n) (ys : List α) :
    find p (xs ++ ys) = some n := by
  induction xs generalizing n with
  | nil =>
      rw [find] at h
      split at h
      · rename_i hp
        obtain rfl := Option.some.inj h
        exact find_at_front (hp ▸ List.nil_prefix)
      · cases h
  | cons x xs ih =>
      by_cases hp : p <+: x :: xs
      · rw [find_at_front hp] at h
        obtain rfl := Option.some.inj h
        exact find_at_front (hp.trans (List.prefix_append _ _))
      · have hfits : p.length ≤ (x :: xs).length := by
          have hlength := (find_spec h).2.length_le
          rw [List.length_drop] at hlength
          omega
        have hnot : ¬ p <+: x :: (xs ++ ys) := fun hprefix =>
          hp (List.prefix_of_prefix_length_le hprefix (List.prefix_append (x :: xs) ys) hfits)
        rw [find_cons_of_not x hp] at h
        obtain ⟨m, hm, rfl⟩ := Option.map_eq_some_iff.1 h
        rw [List.cons_append, find_cons_of_not x hnot, ih hm]
        rfl

/-- The pattern does not occur before it is found. -/
theorem find_take {n : Nat} (hne : p ≠ []) (h : find p xs = some n) :
    find p (xs.take n) = none := by
  induction xs generalizing n with
  | nil =>
      rw [find, if_neg hne] at h
      cases h
  | cons x xs ih =>
      by_cases hp : p <+: x :: xs
      · rw [find_at_front hp] at h
        obtain rfl := Option.some.inj h
        rw [List.take_zero, find, if_neg hne]
      · rw [find_cons_of_not x hp] at h
        obtain ⟨m, hm, rfl⟩ := Option.map_eq_some_iff.1 h
        have htake : ¬ p <+: x :: xs.take m := fun hfront =>
          hp (hfront.trans (List.take_prefix (m + 1) (x :: xs)))
        rw [List.take_succ_cons, find_cons_of_not x htake, ih hm]
        rfl

omit [DecidableEq α] in
/-- A pattern without an element ends before it. -/
theorem prefix_of_prefix_append_delimiter (hd : d ∉ p) (h : p <+: xs ++ d :: ys) : p <+: xs := by
  induction xs generalizing p with
  | nil =>
      cases p with
      | nil => exact List.nil_prefix
      | cons a p =>
          obtain ⟨rfl, -⟩ := List.cons_prefix_cons.1 h
          exact absurd List.mem_cons_self hd
  | cons x xs ih =>
      cases p with
      | nil => exact List.nil_prefix
      | cons a p =>
          obtain ⟨rfl, hrest⟩ := List.cons_prefix_cons.1 h
          exact List.cons_prefix_cons.2 ⟨rfl, ih (fun hmem => hd (List.mem_cons_of_mem _ hmem)) hrest⟩

/-- A pattern that does not occur before an element it lacks is searched after it. -/
theorem find_append_delimiter (hne : p ≠ []) (hd : d ∉ p) (h : find p xs = none) :
    find p (xs ++ d :: ys) = (find p ys).map (xs.length + 1 + ·) := by
  induction xs with
  | nil =>
      have hnot : ¬ p <+: d :: ys := fun hp =>
        hne (List.prefix_nil.1 (prefix_of_prefix_append_delimiter hd hp))
      rw [List.nil_append, find_cons_of_not d hnot]
      refine congrArg (fun f => Option.map f (find p ys)) (funext fun n => ?_)
      rw [List.length_nil]
      omega
  | cons x xs ih =>
      have hnone := find_eq_none.1 h
      have hnot : ¬ p <+: x :: (xs ++ d :: ys) := fun hp =>
        hnone (prefix_of_prefix_append_delimiter hd hp).isInfix
      have hrest : find p xs = none :=
        find_eq_none.2 fun hpart => hnone (hpart.trans (List.suffix_cons x xs).isInfix)
      rw [List.cons_append, find_cons_of_not x hnot, ih hrest, Option.map_map]
      refine congrArg (fun f => Option.map f (find p ys)) (funext fun n => ?_)
      rw [List.length_cons, Function.comp_apply]
      omega

/-- A pattern with an element does not occur where that is missing. -/
theorem find_of_not_mem {a : α} (ha : a ∈ p) (hxs : a ∉ xs) : find p xs = none :=
  find_eq_none.2 fun h => hxs (h.subset ha)

/-- A pattern that does not occur in a sequence does not occur in a part of it. -/
theorem find_none_of_part (h : find p xs = none) (hpart : ys <:+: xs) : find p ys = none :=
  find_eq_none.2 fun hp => find_eq_none.1 h (hp.trans hpart)

end Occurrence
