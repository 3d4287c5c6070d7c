/-
# Copies under a version

A cell holds a view and the version of it. One cell is the source; the others
are copies. A run changes one cell at a time: a write gives the cell a version
that nothing had before, and a copy takes over what the source held at some
earlier instant, version and view.

Two things follow for every run. Equal versions mean equal views, whatever cells
and instants they are read at (`Run.view_eq`). And a version the source left does
not come back, so a version the source has twice it has all the time in between
(`Run.version_between`). Neither says when a copy is made: a copy may take what
the source has left long ago.
-/

import Mathlib

namespace Memzoi
namespace VersionedView

structure Cell (τ V : Type) where
  version : Option τ
  view : V

variable {ι τ V : Type} {source : ι} {run : ℕ → ι → Cell τ V}

/-- The step from an instant to the next. -/
inductive Step (source : ι) (run : ℕ → ι → Cell τ V) (n : ℕ) : Prop where
  | keep (same : ∀ j, run (n + 1) j = run n j)
  | write (i : ι) (new : τ) (other : ∀ j, j ≠ i → run (n + 1) j = run n j)
      (version : (run (n + 1) i).version = some new)
      (unseen : ∀ m ≤ n, ∀ j, (run m j).version ≠ some new)
  | copy (i : ι) (m : ℕ) (past : m ≤ n) (isCopy : i ≠ source)
      (other : ∀ j, j ≠ i → run (n + 1) j = run n j) (taken : run (n + 1) i = run m source)

/-- Every instant before `length` has its step. -/
def Run (source : ι) (run : ℕ → ι → Cell τ V) (length : ℕ) : Prop :=
  ∀ n < length, Step source run n

/-- A cell that was there up to an instant. -/
def Seen (run : ℕ → ι → Cell τ V) (n : ℕ) (c : Cell τ V) : Prop := ∃ m ≤ n, ∃ j, run m j = c

/-- Up to an instant, cells with one version show one view. -/
def Agree (run : ℕ → ι → Cell τ V) (n : ℕ) : Prop :=
  ∀ c c', Seen run n c → Seen run n c' → ∀ t, c.version = some t → c'.version = some t →
    c.view = c'.view

theorem Seen.mono {n n' : ℕ} {c : Cell τ V} (h : Seen run n c) (hn : n ≤ n') : Seen run n' c := by
  obtain ⟨m, hm, j, hj⟩ := h
  exact ⟨m, hm.trans hn, j, hj⟩

/-- A step shows at most one new cell, and that one has a version of its own. -/
theorem Step.cell {n : ℕ} (h : Step source run n) :
    ∃ i, ∀ j, Seen run n (run (n + 1) j) ∨
      j = i ∧ ∃ new, (run (n + 1) i).version = some new ∧
        ∀ c, Seen run n c → c.version ≠ some new := by
  have hold : ∀ j, run (n + 1) j = run n j → Seen run n (run (n + 1) j) :=
    fun j hj => ⟨n, le_rfl, j, hj.symm⟩
  rcases h with same | ⟨i, new, other, version, unseen⟩ | ⟨i, m, past, -, other, taken⟩
  · exact ⟨source, fun j => Or.inl (hold j (same j))⟩
  · refine ⟨i, fun j => ?_⟩
    by_cases hj : j = i
    · refine Or.inr ⟨hj, new, version, ?_⟩
      rintro c ⟨m, hm, k, rfl⟩
      exact unseen m hm k
    · exact Or.inl (hold j (other j hj))
  · refine ⟨i, fun j => Or.inl ?_⟩
    by_cases hj : j = i
    · subst hj
      exact ⟨m, past, source, taken.symm⟩
    · exact hold j (other j hj)

theorem Step.agree {n : ℕ} (h : Step source run n) (hagree : Agree run n) : Agree run (n + 1) := by
  obtain ⟨i, hcell⟩ := h.cell
  have hcases : ∀ c, Seen run (n + 1) c → Seen run n c ∨
      c = run (n + 1) i ∧ ∃ new, (run (n + 1) i).version = some new ∧
        ∀ c, Seen run n c → c.version ≠ some new := by
    rintro c ⟨m, hm, j, rfl⟩
    rcases Nat.lt_or_ge n m with hlt | hle
    · obtain rfl : m = n + 1 := by omega
      rcases hcell j with hseen | ⟨rfl, hnew⟩
      · exact Or.inl hseen
      · exact Or.inr ⟨rfl, hnew⟩
    · exact Or.inl ⟨m, hle, j, rfl⟩
  intro c c' hc hc' t ht ht'
  rcases hcases c hc with hold | ⟨rfl, new, hnew, hunseen⟩
  · rcases hcases c' hc' with hold' | ⟨rfl, new, hnew, hunseen⟩
    · exact hagree c c' hold hold' t ht ht'
    · exact absurd (ht.trans (ht'.symm.trans hnew)) (hunseen c hold)
  · rcases hcases c' hc' with hold' | ⟨rfl, -⟩
    · exact absurd (ht'.trans (ht.symm.trans hnew)) (hunseen c' hold')
    · rfl

theorem Run.agree {length : ℕ} (h : Run source run length) (h0 : Agree run 0) :
    ∀ n ≤ length, Agree run n := by
  intro n hn
  induction n with
  | zero => exact h0
  | succ n ih => exact (h n (by omega)).agree (ih (by omega))

/-- **Equal versions mean equal views**, at any two instants and in any two cells. -/
theorem Run.view_eq {length m n : ℕ} {i j : ι} {t : τ} (h : Run source run length)
    (h0 : Agree run 0) (hm : m ≤ length) (hn : n ≤ length) (ht : (run m i).version = some t)
    (ht' : (run n j).version = some t) : (run m i).view = (run n j).view :=
  h.agree h0 length le_rfl _ _ ⟨m, hm, i, rfl⟩ ⟨n, hn, j, rfl⟩ t ht ht'

/-- A version the source left does not come back in the next step. -/
theorem Step.gone {a n : ℕ} {t : τ} (h : Step source run n) (ha : a ≤ n)
    (hseen : (run a source).version = some t) (hgone : (run n source).version ≠ some t) :
    (run (n + 1) source).version ≠ some t := by
  rcases h with same | ⟨i, new, other, version, unseen⟩ | ⟨i, m, past, hcopy, other, taken⟩
  · rw [same]
    exact hgone
  · by_cases hi : i = source
    · subst hi
      rw [version]
      rintro hnew
      exact unseen a ha i (hseen.trans hnew.symm)
    · rw [other source (Ne.symm hi)]
      exact hgone
  · rw [other source (Ne.symm hcopy)]
    exact hgone

/-- **What the source has twice it has all the time in between.** -/
theorem Run.version_between {length a b m : ℕ} {t : τ} (h : Run source run length)
    (hb : b ≤ length) (ha : (run a source).version = some t)
    (hback : (run b source).version = some t) (ham : a ≤ m) (hmb : m ≤ b) :
    (run m source).version = some t := by
  by_contra hgone
  have hnever : ∀ k, m ≤ k → k ≤ length → (run k source).version ≠ some t := by
    intro k hk
    induction k, hk using Nat.le_induction with
    | base => exact fun _ => hgone
    | succ k hk ih => exact fun hlen => (h k (by omega)).gone (by omega) ha (ih (by omega))
  exact hnever b hmb hb hback

end VersionedView
end Memzoi
