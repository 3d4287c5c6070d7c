/-
# Operations with a footprint

A library of its own: a state read cell by cell, and operations on it that
change and read the cells of a footprint only. Two operations whose footprints
share no cell commute, cell by cell.
-/

import Mathlib

namespace Footprint

variable {σ κ α : Type} {cell : σ → κ → α} {f g : σ → σ} {F G : Set κ}

/-- The operation leaves the cells outside the footprint alone, and what it leaves inside depends
on what was inside. -/
structure Local (cell : σ → κ → α) (f : σ → σ) (F : Set κ) : Prop where
  frame : ∀ s k, k ∉ F → cell (f s) k = cell s k
  inside : ∀ s t, (∀ k ∈ F, cell s k = cell t k) → ∀ k ∈ F, cell (f s) k = cell (f t) k

/-- Where the footprints are disjoint, an operation does to its own cells what it does without the
other. -/
theorem Local.inside_after (hf : Local cell f F) (hg : Local cell g G) (hdisjoint : Disjoint F G)
    (s : σ) {k : κ} (hk : k ∈ F) : cell (f (g s)) k = cell (f s) k := by
  refine hf.inside (g s) s (fun x hx => ?_) k hk
  exact hg.frame s x (fun hG => Set.disjoint_left.1 hdisjoint hx hG)

/-- Operations with disjoint footprints commute, cell by cell. -/
theorem Local.comm (hf : Local cell f F) (hg : Local cell g G) (hdisjoint : Disjoint F G) (s : σ)
    (k : κ) : cell (f (g s)) k = cell (g (f s)) k := by
  by_cases hF : k ∈ F
  · have hG : k ∉ G := Set.disjoint_left.1 hdisjoint hF
    rw [hg.frame (f s) k hG, hf.inside_after hg hdisjoint s hF]
  · by_cases hG : k ∈ G
    · rw [hf.frame (g s) k hF, hg.inside_after hf hdisjoint.symm s hG]
    · rw [hf.frame (g s) k hF, hg.frame s k hG, hg.frame (f s) k hG, hf.frame s k hF]

end Footprint
