/-
# Runs of a step that always answers

A library of its own: the state after a list of inputs, each taken by a step
that gives a new state for every input. What every step keeps, the run keeps,
and a property that a run sets up is set up by one of its steps.
-/

import Mathlib

namespace Run

variable {σ α : Type} {step : σ → α → σ}

/-- What every step keeps, the run keeps. -/
theorem invariant {as : List α} (inv : σ → Prop) (hstep : ∀ s, ∀ a ∈ as, inv s → inv (step s a)) :
    ∀ {s : σ}, inv s → inv (as.foldl step s) := by
  induction as with
  | nil => intro s hs; exact hs
  | cons a as ih =>
      intro s hs
      rw [List.foldl_cons]
      exact ih (fun s b hb => hstep s b (List.mem_cons_of_mem _ hb))
        (hstep s a List.mem_cons_self hs)

/-- What holds after a run and not before it is set up by one of the steps. -/
theorem exists_step {as : List α} (holds : σ → Prop) :
    ∀ {s : σ}, ¬ holds s → holds (as.foldl step s) →
      ∃ before a after, as = before ++ a :: after ∧ ¬ holds (before.foldl step s) ∧
        holds (step (before.foldl step s) a) := by
  induction as with
  | nil => intro s hs h; exact absurd h hs
  | cons a as ih =>
      intro s hs h
      by_cases hfirst : holds (step s a)
      · exact ⟨[], a, as, rfl, hs, hfirst⟩
      · rw [List.foldl_cons] at h
        obtain ⟨before, b, after, rfl, hbefore, hb⟩ := ih hfirst h
        exact ⟨a :: before, b, after, rfl, hbefore, hb⟩

end Run
