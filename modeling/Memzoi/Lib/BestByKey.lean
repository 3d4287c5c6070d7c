/-
# The best entry for each key

A library of its own: a loop that puts entries into a map and keeps, for each
key, the one that is better. Better means of smaller rank in a linear order. The
map holds, for each key, an entry of least rank (`IsBest`), so that it does not
depend on the order of the entries when equal rank under one key means the same
entry.
-/

import Memzoi.Lib.SortedMap
import Mathlib

namespace BestByKey

variable {α κ ρ : Type} [LinearOrder κ] [LinearOrder ρ]

/-- `map.entry(key).and_modify(replace the value when the new one is better).or_insert(new)`. -/
def keep (better : α → α → Bool) (m : SortedMap κ α) (k : κ) (x : α) : SortedMap κ α :=
  match m.get? k with
  | none => m.insert k x
  | some y => if better x y then m.insert k x else m

/-- The loop over a list of entries. -/
def best (better : α → α → Bool) (key : α → κ) (xs : List α) : SortedMap κ α :=
  xs.foldl (fun m x => keep better m (key x) x) .empty

/-- The map holds an entry of least rank for each key of the list. -/
structure IsBest (key : α → κ) (rank : α → ρ) (xs : List α) (m : SortedMap κ α) : Prop where
  least : ∀ {k y}, m.get? k = some y → y ∈ xs ∧ key y = k ∧ ∀ x ∈ xs, key x = k → rank y ≤ rank x
  covers : ∀ x ∈ xs, ∃ y, m.get? (key x) = some y

variable {better : α → α → Bool} {key : α → κ} {rank : α → ρ} {xs ys : List α} {m : SortedMap κ α}

theorem get?_keep (k : κ) (x : α) (l : κ) : (keep better m k x).get? l =
    if k = l then some (match m.get? k with | none => x | some y => if better x y then x else y)
    else m.get? l := by
  unfold keep
  cases hget : m.get? k with
  | none => exact SortedMap.get?_insert m k l x
  | some y =>
      by_cases hbetter : better x y = true
      · simp only [hbetter, if_true]
        exact SortedMap.get?_insert m k l x
      · simp only [hbetter]
        by_cases hkl : k = l
        · subst hkl
          simp [hget]
        · simp [hkl]

/-- One turn of the loop. -/
theorem isBest_keep (hbetter : ∀ x y, better x y = true ↔ rank x < rank y)
    (h : IsBest key rank xs m) (x : α) :
    IsBest key rank (xs ++ [x]) (keep better m (key x) x) := by
  constructor
  · intro l y hy
    rw [get?_keep] at hy
    by_cases hl : key x = l
    · subst hl
      rw [if_pos rfl, Option.some.injEq] at hy
      cases hget : m.get? (key x) with
      | none =>
          rw [hget] at hy
          subst hy
          refine ⟨by simp, rfl, fun z hz hkey => ?_⟩
          rcases List.mem_append.1 hz with hz | hz
          · obtain ⟨w, hw⟩ := h.covers z hz
            rw [hkey, hget] at hw
            cases hw
          · rw [List.mem_singleton.1 hz]
      | some w =>
          rw [hget] at hy
          obtain ⟨hmem, hkeyw, hleast⟩ := h.least hget
          by_cases hrank : better x w = true
          · simp only [hrank, if_true] at hy
            subst hy
            refine ⟨by simp, rfl, fun z hz hkey => ?_⟩
            rcases List.mem_append.1 hz with hz | hz
            · exact ((hbetter x w).1 hrank).le.trans (hleast z hz hkey)
            · rw [List.mem_singleton.1 hz]
          · simp only [hrank] at hy
            subst hy
            refine ⟨List.mem_append_left _ hmem, hkeyw, fun z hz hkey => ?_⟩
            rcases List.mem_append.1 hz with hz | hz
            · exact hleast z hz hkey
            · rw [List.mem_singleton.1 hz]
              exact not_lt.1 fun hlt => hrank ((hbetter x w).2 hlt)
    · rw [if_neg hl] at hy
      obtain ⟨hmem, hkey, hleast⟩ := h.least hy
      refine ⟨List.mem_append_left _ hmem, hkey, fun z hz hkeyz => ?_⟩
      rcases List.mem_append.1 hz with hz | hz
      · exact hleast z hz hkeyz
      · rw [List.mem_singleton.1 hz] at hkeyz
        exact absurd hkeyz hl
  · intro z hz
    rw [get?_keep]
    by_cases hkey : key x = key z
    · exact ⟨_, if_pos hkey⟩
    · rw [if_neg hkey]
      rcases List.mem_append.1 hz with hz | hz
      · exact h.covers z hz
      · rw [List.mem_singleton.1 hz] at hkey
        exact absurd rfl hkey

/-- The whole loop. -/
theorem isBest_best (hbetter : ∀ x y, better x y = true ↔ rank x < rank y) (xs : List α) :
    IsBest key rank xs (best better key xs) := by
  induction xs using List.reverseRecOn with
  | nil =>
      constructor
      · intro k y h
        cases h
      · nofun
  | append_singleton xs x ih =>
      rw [best, List.foldl_append]
      exact isBest_keep hbetter ih x

/-- The map does not depend on the order of the entries. -/
theorem best_eq_of_perm (hbetter : ∀ x y, better x y = true ↔ rank x < rank y)
    (hperm : xs.Perm ys)
    (hinj : ∀ x ∈ xs, ∀ y ∈ xs, key x = key y → rank x = rank y → x = y) :
    best better key xs = best better key ys := by
  have hxs : IsBest key rank xs (best better key xs) := isBest_best hbetter xs
  have hys : IsBest key rank ys (best better key ys) := isBest_best hbetter ys
  refine SortedMap.ext_get? fun k => ?_
  cases hx : (best better key xs).get? k with
  | none =>
      cases hy : (best better key ys).get? k with
      | none => rfl
      | some y =>
          obtain ⟨hmem, rfl, -⟩ := hys.least hy
          obtain ⟨w, hw⟩ := hxs.covers y (hperm.mem_iff.2 hmem)
          rw [hx] at hw
          cases hw
  | some x =>
      obtain ⟨hmem, rfl, hleast⟩ := hxs.least hx
      obtain ⟨y, hy⟩ := hys.covers x (hperm.mem_iff.1 hmem)
      obtain ⟨hmem', hkey, hleast'⟩ := hys.least hy
      have hrank : rank x = rank y :=
        le_antisymm (hleast y (hperm.mem_iff.2 hmem') hkey) (hleast' x (hperm.mem_iff.1 hmem) rfl)
      rw [hy, hinj x hmem y (hperm.mem_iff.2 hmem') hkey.symm hrank]

/-- The values of the map are entries of the list. -/
theorem mem_of_mem_values (h : IsBest key rank xs m) {y : α} (hy : y ∈ m.values) : y ∈ xs := by
  obtain ⟨k, hget⟩ := SortedMap.mem_values.1 hy
  exact (h.least hget).1

/-- Every entry has a value of its key that ranks at least as high. -/
theorem exists_value_le (h : IsBest key rank xs m) {x : α} (hx : x ∈ xs) :
    ∃ y ∈ m.values, key y = key x ∧ rank y ≤ rank x := by
  obtain ⟨y, hget⟩ := h.covers x hx
  obtain ⟨-, hkey, hleast⟩ := h.least hget
  exact ⟨y, SortedMap.mem_values.2 ⟨_, hget⟩, hkey, hleast x hx rfl⟩

/-- No two values share a key. -/
theorem nodup_values (h : IsBest key rank xs m) : (m.values.map key).Nodup :=
  SortedMap.nodup_map_values fun _ _ hget => (h.least hget).2.1

end BestByKey
