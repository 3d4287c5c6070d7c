/-
# Segments that end in a delimiter

A library of its own: a sequence cut after every delimiter. The segments
together are the sequence, each one has its delimiter at the end or not at all,
and only the last one can lack it. A run of elements without the delimiter is
taken into the first segment, and one with it ends there (`segments_append`,
`segments_append_delimiter`), which is how a reader that sees the sequence in
parts meets them.
-/

import Mathlib

namespace Segments

variable {α : Type} [DecidableEq α] {d : α}

/-- The sequence cut after each delimiter. -/
def segments (d : α) : List α → List (List α)
  | [] => []
  | x :: xs =>
    if x = d then [x] :: segments d xs
    else
      match segments d xs with
      | [] => [[x]]
      | segment :: rest => (x :: segment) :: rest

@[simp] theorem segments_nil : segments d [] = [] := rfl

/-- The segments together are the sequence. -/
theorem flatten_segments (xs : List α) : (segments d xs).flatten = xs := by
  induction xs with
  | nil => rfl
  | cons x xs ih =>
      rw [segments]
      split
      · rw [List.flatten_cons, ih]
        rfl
      · split
        · rename_i hnone
          rw [hnone] at ih
          rw [← ih]
          rfl
        · rename_i segment rest hsegments
          rw [hsegments] at ih
          rw [← ih]
          rfl

/-- A segment is not empty, and only its last element can be the delimiter. -/
theorem segment_of_mem {xs segment : List α} (h : segment ∈ segments d xs) :
    segment ≠ [] ∧ d ∉ segment.dropLast := by
  induction xs generalizing segment with
  | nil => cases h
  | cons x xs ih =>
      rw [segments] at h
      split at h
      · rcases List.mem_cons.1 h with rfl | h
        · exact ⟨List.cons_ne_nil _ _, List.not_mem_nil⟩
        · exact ih h
      · rename_i hx
        split at h
        · obtain rfl := List.mem_singleton.1 h
          exact ⟨List.cons_ne_nil _ _, List.not_mem_nil⟩
        · rename_i first rest hsegments
          rcases List.mem_cons.1 h with rfl | h
          · obtain ⟨hne, hinner⟩ := ih (hsegments ▸ List.mem_cons_self)
            refine ⟨List.cons_ne_nil _ _, ?_⟩
            rw [List.dropLast_cons_of_ne_nil hne, List.mem_cons]
            rintro (heq | hmem)
            · exact hx heq.symm
            · exact hinner hmem
          · exact ih (hsegments ▸ List.mem_cons_of_mem _ h)

/-- A segment before another one ends in the delimiter. -/
theorem delimiter_of_before {xs segment : List α} {before after : List (List α)}
    (h : segments d xs = before ++ segment :: after) : ∀ s ∈ before, s = s.dropLast ++ [d] := by
  induction xs generalizing before with
  | nil =>
      rw [segments_nil] at h
      cases before <;> cases h
  | cons x xs ih =>
      rw [segments] at h
      cases before with
      | nil => exact fun s hs => absurd hs List.not_mem_nil
      | cons s before =>
          split at h
          · rename_i hx
            obtain ⟨rfl, hrest⟩ := List.cons.inj h
            intro y hy
            rcases List.mem_cons.1 hy with rfl | hy
            · rw [hx]
              rfl
            · exact ih hrest y hy
          · split at h
            · obtain ⟨-, hrest⟩ := List.cons.inj h
              cases before <;> cases hrest
            · rename_i first rest hsegments
              obtain ⟨rfl, hrest⟩ := List.cons.inj h
              have hshape : segments d xs = (first :: before) ++ segment :: after := by
                rw [hsegments, hrest]
                rfl
              have hall := ih hshape
              intro y hy
              rcases List.mem_cons.1 hy with rfl | hy
              · have hfirst := hall first List.mem_cons_self
                have hne : first ≠ [] := (segment_of_mem (hsegments ▸ List.mem_cons_self)).1
                rw [List.dropLast_cons_of_ne_nil hne, List.cons_append, ← hfirst]
              · exact hall y (List.mem_cons_of_mem _ hy)

/-- Elements other than the delimiter, up to one, are a segment. -/
theorem segments_append_delimiter {front : List α} (hfront : d ∉ front) (rest : List α) :
    segments d (front ++ d :: rest) = (front ++ [d]) :: segments d rest := by
  induction front with
  | nil => rw [List.nil_append, segments, if_pos rfl, List.nil_append]
  | cons x front ih =>
      have hx : x ≠ d := fun h => hfront (h ▸ List.mem_cons_self)
      rw [List.cons_append, segments, if_neg hx, ih fun h => hfront (List.mem_cons_of_mem _ h)]
      rfl

/-- A sequence that ends in the delimiter is cut off there. -/
theorem segments_append_after (xs ys : List α) :
    segments d (xs ++ d :: ys) = segments d (xs ++ [d]) ++ segments d ys := by
  induction xs with
  | nil => rw [List.nil_append, List.nil_append, segments, if_pos rfl, segments, if_pos rfl]; rfl
  | cons x xs ih =>
      have hne : segments d (xs ++ [d]) ≠ [] := by
        intro hnil
        have h := flatten_segments (d := d) (xs ++ [d])
        rw [hnil] at h
        exact List.cons_ne_nil _ _ (List.append_eq_nil_iff.1 h.symm).2
      obtain ⟨first, rest, hsegments⟩ := List.exists_cons_of_ne_nil hne
      rw [List.cons_append, List.cons_append, segments, segments, ih, hsegments]
      split <;> rfl

/-- Elements other than the delimiter are one segment. -/
theorem segments_of_not_mem {xs : List α} (hne : xs ≠ []) (h : d ∉ xs) : segments d xs = [xs] := by
  induction xs with
  | nil => exact absurd rfl hne
  | cons x xs ih =>
      have hx : x ≠ d := fun heq => h (heq ▸ List.mem_cons_self)
      rw [segments, if_neg hx]
      cases xs with
      | nil => rfl
      | cons y ys => rw [ih (List.cons_ne_nil _ _) fun hd => h (List.mem_cons_of_mem _ hd)]

/-! ### What segments are -/

/-- The delimiter ends a segment, and only the last one may lack it. -/
structure IsSegments (d : α) (segments : List (List α)) : Prop where
  inner : ∀ s ∈ segments, s ≠ [] ∧ d ∉ s.dropLast
  ended : segments.Pairwise fun s _ => s.getLast? = some d

theorem isSegments_segments (xs : List α) : IsSegments d (segments d xs) := by
  refine ⟨fun _ h => segment_of_mem h, ?_⟩
  induction xs with
  | nil => exact List.Pairwise.nil
  | cons x xs ih =>
      rw [segments]
      split
      · rename_i hx
        exact List.pairwise_cons.2 ⟨fun _ _ => by rw [hx]; rfl, ih⟩
      · split
        · exact List.pairwise_singleton _ _
        · rename_i first rest hsegments
          rw [hsegments] at ih
          obtain ⟨hfirst, hrest⟩ := List.pairwise_cons.1 ih
          have hne : first ≠ [] := (segment_of_mem (hsegments ▸ List.mem_cons_self)).1
          refine List.pairwise_cons.2 ⟨fun other hother => ?_, hrest⟩
          rw [List.getLast?_cons, hfirst other hother]
          rfl

/-- Segments are the segments of what they make up. -/
theorem IsSegments.segments_flatten {lines : List (List α)} (h : IsSegments d lines) :
    segments d lines.flatten = lines := by
  induction lines with
  | nil => rfl
  | cons line lines ih =>
      obtain ⟨hfirst, hrest⟩ := List.pairwise_cons.1 h.ended
      obtain ⟨hne, hinner⟩ := h.inner line List.mem_cons_self
      have hlines := ih ⟨fun s hs => h.inner s (List.mem_cons_of_mem _ hs), hrest⟩
      rcases List.eq_nil_or_concat' line with hnil | ⟨init, last, rfl⟩
      · exact absurd hnil hne
      rw [List.dropLast_concat] at hinner
      rw [List.flatten_cons, List.append_assoc, List.singleton_append]
      by_cases hlast : last = d
      · rw [hlast, segments_append_delimiter hinner, hlines]
      · have hnone : lines = [] := by
          by_contra hmore
          obtain ⟨other, others, rfl⟩ := List.exists_cons_of_ne_nil hmore
          have hend := hfirst other List.mem_cons_self
          rw [List.getLast?_concat] at hend
          exact hlast (Option.some.inj hend)
        rw [hnone, List.flatten_nil]
        refine segments_of_not_mem (by simp) ?_
        rw [List.mem_append, List.mem_singleton]
        rintro (hmem | heq)
        · exact hinner hmem
        · exact hlast heq.symm

end Segments
