/-
# Maximal runs of a sequence

A library of its own: the longest pieces of a sequence whose elements all have a
property, in order. A reader that keeps the runs and whether the last element
was in one needs three rules: an element outside ends a run (`RunsOf.gap`), one
inside after such an element starts a run (`RunsOf.single`), and one inside
after another one prolongs the last run (`RunsOf.prolong`).
-/

import Mathlib

namespace Runs

variable {α : Type} {p : α → Bool}

/-- The runs of the elements with the property. -/
inductive RunsOf (p : α → Bool) : List α → List (List α) → Prop
  | nil : RunsOf p [] []
  | gap {xs : List α} {runs : List (List α)} {x : α} (h : RunsOf p xs runs) (hx : p x = false) :
      RunsOf p (xs ++ [x]) runs
  | run {xs run : List α} {runs : List (List α)} (h : RunsOf p xs runs) (hne : run ≠ [])
      (hrun : ∀ x ∈ run, p x = true) (hlast : ∀ x ∈ xs.getLast?, p x = false) :
      RunsOf p (xs ++ run) (runs ++ [run])

/-- The last element has the property. -/
def Open (p : α → Bool) (xs : List α) : Prop := ∃ x ∈ xs.getLast?, p x = true

theorem not_open_nil : ¬ Open p [] := by
  rintro ⟨x, hx, -⟩
  cases hx

theorem open_concat {xs : List α} {x : α} : Open p (xs ++ [x]) ↔ p x = true := by
  simp [Open]

/-- The parts of a sequence around one of its runs. -/
structure RunAt (p : α → Bool) (xs before run after : List α) : Prop where
  eq : xs = before ++ run ++ after
  nonempty : run ≠ []
  holds : ∀ x ∈ run, p x = true
  before : ∀ x ∈ before.getLast?, p x = false
  after : ∀ x ∈ after.head?, p x = false

theorem RunAt.append {xs before run after : List α} (h : RunAt p xs before run after)
    (others : List α) (hlast : after = [] → ∀ x ∈ others.head?, p x = false) :
    RunAt p (xs ++ others) before run (after ++ others) := by
  refine ⟨by rw [h.eq]; simp, h.nonempty, h.holds, h.before, fun x hx => ?_⟩
  cases after with
  | nil => exact hlast rfl x hx
  | cons y ys => exact h.after x hx

namespace RunsOf

variable {xs : List α} {runs : List (List α)}

theorem single (h : RunsOf p xs runs) (hopen : ¬ Open p xs) {x : α} (hx : p x = true) :
    RunsOf p (xs ++ [x]) (runs ++ [[x]]) := by
  refine h.run (List.cons_ne_nil _ _) (by simpa using hx) fun y hy => ?_
  simpa using fun hp : p y = true => hopen ⟨y, hy, hp⟩

/-- The last run of a sequence that ends in one. -/
theorem exists_last (h : RunsOf p xs runs) (hopen : Open p xs) :
    ∃ before run others, xs = before ++ run ∧ runs = others ++ [run] ∧ RunsOf p before others ∧
      run ≠ [] ∧ (∀ x ∈ run, p x = true) ∧ ∀ x ∈ before.getLast?, p x = false := by
  cases h with
  | nil => exact absurd hopen not_open_nil
  | gap h hx => exact absurd (open_concat.1 hopen) (by simp [hx])
  | run h hne hrun hlast => exact ⟨_, _, _, rfl, rfl, h, hne, hrun, hlast⟩

theorem prolong (h : RunsOf p xs runs) (hopen : Open p xs) {x : α} (hx : p x = true) :
    ∃ others run, runs = others ++ [run] ∧
      RunsOf p (xs ++ [x]) (others ++ [run ++ [x]]) := by
  obtain ⟨before, run, others, rfl, rfl, hbefore, -, hrun, hlast⟩ := h.exists_last hopen
  refine ⟨others, run, rfl, ?_⟩
  rw [List.append_assoc]
  refine hbefore.run (by simp) (fun y hy => ?_) hlast
  rcases List.mem_append.1 hy with hy | hy
  · exact hrun y hy
  · rwa [List.mem_singleton.1 hy]

/-- The runs together are the elements with the property. -/
theorem flatten_eq (h : RunsOf p xs runs) : runs.flatten = xs.filter p := by
  induction h with
  | nil => rfl
  | gap h hx ih => rw [ih, List.filter_append, List.filter_singleton, hx]; simp
  | run h hne hrun hlast ih =>
      rw [List.flatten_append, ih, List.filter_append, List.filter_eq_self.2 hrun,
        List.flatten_singleton]

/-- A run stands between elements without the property. -/
theorem exists_runAt (h : RunsOf p xs runs) {run : List α} (hmem : run ∈ runs) :
    ∃ before after, RunAt p xs before run after := by
  induction h with
  | nil => cases hmem
  | gap h hx ih =>
      obtain ⟨before, after, hat⟩ := ih hmem
      refine ⟨before, _, hat.append _ fun _ y hy => ?_⟩
      obtain rfl := Option.some.inj hy
      exact hx
  | @run xs last runs h hne hrun hlast ih =>
      rcases List.mem_append.1 hmem with hold | hnew
      · obtain ⟨before, after, hat⟩ := ih hold
        refine ⟨before, _, hat.append _ ?_⟩
        -- two runs do not touch
        rintro rfl
        obtain ⟨y, hy⟩ := List.getLast?_isSome.2 hat.nonempty |> Option.isSome_iff_exists.1
        have hin : y ∈ xs.getLast? := by
          rw [hat.eq, List.append_nil, List.getLast?_append, hy]
          rfl
        have htrue := hat.holds y (List.mem_of_getLast? hy)
        rw [hlast y hin] at htrue
        cases htrue
      · obtain rfl := List.mem_singleton.1 hnew
        exact ⟨xs, [], by simp, hne, hrun, hlast, by simp⟩

end RunsOf

end Runs
