/-
# The first entries of a ranking

A library of its own: the first `n` entries of a list sorted by a key. When the
key tells the entries apart they are known by three facts: they are entries, they
are as many as there can be, and they come before the entries that are left out
(`IsTop`). Two lists with these facts have the same members.
-/

import Mathlib

namespace TopRanked

variable {α β κ : Type} [LinearOrder κ]

/-- The entries by key, the least one first. -/
def sorted (key : α → κ) (xs : List α) : List α := xs.insertionSort fun a b => key a ≤ key b

def top (key : α → κ) (n : Nat) (xs : List α) : List α := (sorted key xs).take n

/-- `chosen` are the first `n` of `xs`. -/
structure IsTop (key : α → κ) (n : Nat) (xs chosen : List α) : Prop where
  subset : chosen ⊆ xs
  nodup : chosen.Nodup
  length_eq : chosen.length = min n xs.length
  before : ∀ x ∈ chosen, ∀ y ∈ xs, y ∉ chosen → key x < key y

variable {key : α → κ} {n : Nat} {xs chosen chosen' : List α}

theorem sorted_perm (key : α → κ) (xs : List α) : (sorted key xs).Perm xs :=
  List.perm_insertionSort _ xs

theorem pairwise_sorted (key : α → κ) (xs : List α) :
    (sorted key xs).Pairwise fun a b => key a ≤ key b := by
  have htotal : Std.Total fun a b : α => key a ≤ key b := ⟨fun a b => le_total (key a) (key b)⟩
  have htrans : IsTrans α fun a b => key a ≤ key b := ⟨fun _ _ _ => le_trans⟩
  exact List.pairwise_insertionSort _ xs

/-- Sorting by a relation that compares keys sorts by key. -/
theorem pairwise_insertionSort {r : α → α → Prop} {_ : DecidableRel r}
    (hr : ∀ a b, r a b ↔ key a ≤ key b) (xs : List α) :
    (xs.insertionSort r).Pairwise fun a b => key a ≤ key b := by
  have htotal : Std.Total r := ⟨fun a b => (le_total (key a) (key b)).imp (hr a b).2 (hr b a).2⟩
  have htrans : IsTrans α r := ⟨fun a b c hab hbc => (hr a c).2 (((hr a b).1 hab).trans ((hr b c).1 hbc))⟩
  exact (List.pairwise_insertionSort r xs).imp fun hab => (hr _ _).1 hab

/-- No limit keeps `y` without `x`. -/
def KeptFirst (xs : List α) (x y : α) : Prop := ∀ n, y ∈ xs.take n → x ∈ xs.take n

/-- Of two entries of a sorted list the one with the lesser key is kept first. -/
theorem keptFirst_iff (hsorted : xs.Pairwise fun a b => key a ≤ key b) {x y : α} (hx : x ∈ xs)
    (hy : y ∈ xs) (hne : key x ≠ key y) : KeptFirst xs x y ↔ key x < key y := by
  constructor
  · intro h
    by_contra hnot
    have hlt : key y < key x := lt_of_le_of_ne (not_lt.1 hnot) hne.symm
    obtain ⟨before, after, rfl⟩ := List.append_of_mem hy
    have htake : (before ++ y :: after).take (before.length + 1) = before ++ [y] := by
      rw [List.take_append, List.take_of_length_le (Nat.le_succ _), Nat.add_sub_cancel_left]
      rfl
    have hkept := h (before.length + 1)
    rw [htake] at hkept
    rcases List.mem_append.1 (hkept (List.mem_append_right _ List.mem_cons_self)) with hbefore | hlast
    · have hle := (List.pairwise_append.1 hsorted).2.2 x hbefore y List.mem_cons_self
      exact absurd hle (not_le.2 hlt)
    · exact hne (congrArg key (List.mem_singleton.1 hlast))
  · intro hlt n hkept
    by_contra hdropped
    have hrest : x ∈ xs.drop n := by
      rw [← List.take_append_drop n xs, List.mem_append] at hx
      exact hx.resolve_left hdropped
    rw [← List.take_append_drop n xs, List.pairwise_append] at hsorted
    exact absurd (hsorted.2.2 y hkept x hrest) (not_le.2 hlt)

/-- Of two entries that only differ in one part of their keys that part decides. -/
theorem keptFirst_iff_of_tie {τ : Type} [LinearOrder τ] {s t : τ}
    (hsorted : xs.Pairwise fun a b => key a ≤ key b) {x y : α} (hx : x ∈ xs) (hy : y ∈ xs)
    (hxy : key x < key y ↔ s < t) (hyx : key y < key x ↔ t < s) (hne : s ≠ t) :
    KeptFirst xs x y ↔ s < t := by
  refine (keptFirst_iff hsorted hx hy fun heq => ?_).trans hxy
  rcases lt_or_gt_of_ne hne with hlt | hlt
  · exact (hxy.2 hlt).ne heq
  · exact (hyx.2 hlt).ne heq.symm

theorem isTop_top (hnodup : xs.Nodup) (hinj : ∀ x ∈ xs, ∀ y ∈ xs, key x = key y → x = y) :
    IsTop key n xs (top key n xs) := by
  have hperm := sorted_perm key xs
  refine ⟨?_, ?_, ?_, ?_⟩
  · exact fun x hx => hperm.mem_iff.1 (List.mem_of_mem_take hx)
  · exact (hperm.nodup_iff.2 hnodup).sublist (List.take_sublist _ _)
  · rw [top, List.length_take, hperm.length_eq]
  · intro x hx y hy hnot
    have hsplit := pairwise_sorted key xs
    rw [← List.take_append_drop n (sorted key xs), List.pairwise_append] at hsplit
    have hrest : y ∈ (sorted key xs).drop n := by
      have hmem := hperm.mem_iff.2 hy
      rw [← List.take_append_drop n (sorted key xs), List.mem_append] at hmem
      exact hmem.resolve_left hnot
    have hxs : x ∈ xs := hperm.mem_iff.1 (List.mem_of_mem_take hx)
    refine lt_of_le_of_ne (hsplit.2.2 x hx y hrest) fun heq => hnot ?_
    rw [← hinj x hxs y hy heq]
    exact hx

/-- Nothing of one choice is missing in another: both are as long as they can be. -/
theorem IsTop.subset_of (h : IsTop key n xs chosen) (h' : IsTop key n xs chosen') :
    chosen ⊆ chosen' := by
  by_contra hnot
  obtain ⟨x, hx, hx'⟩ : ∃ x ∈ chosen, x ∉ chosen' := by
    simpa [List.subset_def] using hnot
  have hsub : chosen' ⊆ chosen := by
    intro y hy
    by_contra hny
    exact lt_asymm (h.before x hx y (h'.subset hy) hny) (h'.before y hy x (h.subset hx) hx')
  have hlength : chosen.length ≤ chosen'.length := by
    rw [h.length_eq, h'.length_eq]
  have hperm := (List.subperm_of_subset h'.nodup hsub).perm_of_length_le hlength
  exact hx' (hperm.mem_iff.2 hx)

theorem IsTop.mem_iff (h : IsTop key n xs chosen) (h' : IsTop key n xs chosen') (x : α) :
    x ∈ chosen ↔ x ∈ chosen' :=
  ⟨fun hx => h.subset_of h' hx, fun hx => h'.subset_of h hx⟩

/-- Ranking the images is ranking by the key of the image. -/
theorem map_top {f : α → β} {key : α → κ} {key' : β → κ} {n : Nat} {xs : List α}
    (h : ∀ x ∈ xs, key x = key' (f x)) : (top key n xs).map f = top key' n (xs.map f) := by
  rw [top, top, List.map_take, sorted, sorted]
  refine congrArg _ (List.map_insertionSort _ _ _ _ fun a ha b hb => ?_)
  rw [h a ha, h b hb]

/-- Everything is chosen when there is room. -/
theorem IsTop.eq_all (h : IsTop key n xs chosen) (hroom : xs.length ≤ n) : xs ⊆ chosen := by
  have hlength : xs.length ≤ chosen.length := by
    rw [h.length_eq]
    omega
  have hperm := (List.subperm_of_subset h.nodup h.subset).perm_of_length_le hlength
  exact hperm.symm.subset

/-! ### Entries that fall back -/

section FallBack

variable {all found : List α} {full reached : α → κ}

/-- Some entries are missing from a list or have fallen back in it. Its first entries are still the
first of the whole list exactly when each of these that has fallen is there and comes before what is
left out. -/
theorem top_eq_iff (fallen : α → Prop) (hall : all.Nodup) (hfound : found.Nodup) (hsub : found ⊆ all)
    (hfull : ∀ x ∈ all, ∀ y ∈ all, full x = full y → x = y)
    (hreached : ∀ x ∈ all, ∀ y ∈ all, reached x = reached y → x = y)
    (hkept : ∀ x ∈ all, ¬ fallen x → x ∈ found ∧ reached x = full x)
    (hle : ∀ x ∈ all, full x ≤ reached x) :
    (∀ x, x ∈ top reached n found ↔ x ∈ top full n all) ↔
      ∀ x ∈ top full n all, fallen x →
        x ∈ found ∧ ∀ y ∈ found, y ∉ top full n all → reached x < reached y := by
  have hfirst : IsTop full n all (top full n all) := isTop_top hall hfull
  have hgiven : IsTop reached n found (top reached n found) :=
    isTop_top hfound fun x hx y hy => hreached x (hsub hx) y (hsub hy)
  constructor
  · intro hsame x hx _
    have hx' := (hsame x).2 hx
    refine ⟨hgiven.subset hx', fun y hy hnot => hgiven.before x hx' y hy ?_⟩
    exact fun hy' => hnot ((hsame y).1 hy')
  · intro hback
    have hin : ∀ x ∈ top full n all, x ∈ found := by
      intro x hx
      by_cases hfallen : fallen x
      · exact (hback x hx hfallen).1
      · exact (hkept x (hfirst.subset hx) hfallen).1
    have hlength : (top full n all).length = min n found.length := by
      have hmost : (top full n all).length ≤ found.length :=
        (List.subperm_of_subset hfirst.nodup hin).length_le
      have hleast : found.length ≤ all.length := (List.subperm_of_subset hfound hsub).length_le
      rw [hfirst.length_eq] at hmost ⊢
      omega
    have hbefore : ∀ x ∈ top full n all, ∀ y ∈ found, y ∉ top full n all →
        reached x < reached y := by
      intro x hx y hy hnot
      by_cases hfallen : fallen x
      · exact (hback x hx hfallen).2 y hy hnot
      · rw [(hkept x (hfirst.subset hx) hfallen).2]
        exact (hfirst.before x hx y (hsub hy) hnot).trans_le (hle y (hsub hy))
    exact hgiven.mem_iff ⟨hin, hfirst.nodup, hlength, hbefore⟩

end FallBack

end TopRanked
