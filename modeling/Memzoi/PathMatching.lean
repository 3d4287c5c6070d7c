/-
# Which paths a request matches

Source: `search.rs` (`path_matches_request`, `path_is_or_is_under`); the
functions are in `Memzoi.Maintenance.Contradiction`, whose `paths_overlap` calls
them in both orders.

A path covers itself and everything under it, and a path that ends in `/**`
covers what its base covers. A match always means that the two covers meet. The
converse fails in one place: a request above the base of a stored `/**`, and a
requested `/**` below a stored path, are compared in one direction only
(`MissesAncestor`).
-/

import Memzoi.Maintenance.Contradiction
import Memzoi.Lib.Subtree

namespace Memzoi
namespace Maintenance

open Subtree

/-- The pieces of a path. -/
def components (path : List Char) : List (List Char) := path.splitOn '/'

/-- The path without its `/**`. -/
def coveredBase (path : List Char) : List Char := (globBase path).getD path

/-- The files a stored or requested path stands for; a blank one stands for none. -/
def covers (path : String) : Set (List (List Char)) :=
  {file | trimPath path ≠ [] ∧ file ∈ subtree (components (coveredBase (trimPath path)))}

/-- One path lies strictly above another. -/
def StrictlyAbove (upper lower : List Char) : Prop :=
  components upper <+: components lower ∧ upper ≠ lower

instance (upper lower : List Char) : Decidable (StrictlyAbove upper lower) :=
  inferInstanceAs (Decidable (_ ∧ _))

/-- The comparison that is made in one direction only: a stored `/**` with a request strictly above
its base, or a stored path strictly above the base of a requested `/**`. -/
def MissesAncestor (storedPath requestedPath : String) : Prop :=
  let stored := trimPath storedPath
  let requested := trimPath requestedPath
  stored ≠ [] ∧ requested ≠ [] ∧
    match globBase stored, globBase requested with
    | some base, _ => StrictlyAbove (coveredBase requested) base ∧ base ≠ requested
    | none, some base => StrictlyAbove stored base
    | none, none => False

/-! ### Comparing pieces -/

theorem pathIsOrIsUnder_iff {path base : List Char} :
    pathIsOrIsUnder path base = true ↔ components base <+: components path := by
  rw [components, components, splitOn_prefix_iff, pathIsOrIsUnder, Bool.or_eq_true,
    decide_eq_true_eq]
  refine or_congr Iff.rfl ?_
  constructor
  · intro h
    split at h
    · rename_i rest hrest
      obtain ⟨base', rfl, hbase⟩ := List.dropPrefix?_eq_some_iff.1 hrest
      obtain rfl : base' = base := eq_of_beq hbase
      obtain ⟨tail, rfl⟩ := List.head?_eq_some_iff.1 (of_decide_eq_true h)
      exact ⟨tail, rfl⟩
    · cases h
  · rintro ⟨rest, rfl⟩
    rw [List.dropPrefix?_append_of_beq _ (beq_self_eq_true base)]
    rfl

theorem globBase_eq_some {path base : List Char} :
    globBase path = some base ↔ path = base ++ "/**".toList := by
  rw [globBase, List.dropSuffix?_eq_some_iff]
  constructor
  · rintro ⟨suffix, rfl, hsuffix⟩
    rw [eq_of_beq hsuffix]
  · rintro rfl
    exact ⟨_, rfl, beq_self_eq_true _⟩

/-- The pieces of a `/**` path are those of its base and one more. -/
theorem components_glob {path base : List Char} (h : globBase path = some base) :
    components path = components base ++ [[ '*', '*']] := by
  rw [globBase_eq_some.1 h, components]
  exact List.splitOn_append_cons_self base [ '*', '*']

theorem components_injective : Function.Injective components := splitOn_injective '/'

/-- A path whose pieces begin a covered path begins its base, or is that path with its `/**`. -/
theorem prefix_components_iff {upper path : List Char} :
    components upper <+: components path ↔
      components upper <+: components (coveredBase path) ∨ upper = path := by
  unfold coveredBase
  cases hglob : globBase path with
  | none =>
      constructor
      · exact Or.inl
      · rintro (h | rfl)
        · exact h
        · exact List.prefix_refl _
  | some base =>
      rw [Option.getD_some, components_glob hglob, List.prefix_concat_iff, or_comm,
        ← components_glob hglob, components_injective.eq_iff]

/-! ### Matching and overlap -/

/-- The covers of two paths meet when the base of one lies in the subtree of the other's. -/
theorem covers_inter_iff {left right : String} (hleft : trimPath left ≠ [])
    (hright : trimPath right ≠ []) : (covers left ∩ covers right).Nonempty ↔
      components (coveredBase (trimPath left)) <+: components (coveredBase (trimPath right)) ∨
        components (coveredBase (trimPath right)) <+: components (coveredBase (trimPath left)) := by
  rw [← inter_nonempty]
  constructor
  · rintro ⟨file, ⟨-, hfile⟩, -, hfile'⟩
    exact ⟨file, hfile, hfile'⟩
  · rintro ⟨file, hfile, hfile'⟩
    exact ⟨file, ⟨hleft, hfile⟩, hright, hfile'⟩

/-- A stored `/**` matches what lies under its base. -/
theorem matches_stored_glob {stored requested : String} {base : List Char}
    (hstored : trimPath stored ≠ []) (hrequested : trimPath requested ≠ [])
    (hglob : globBase (trimPath stored) = some base) :
    pathMatchesRequest stored requested = true ↔
      components base <+: components (coveredBase (trimPath requested)) ∨
        base = trimPath requested := by
  have hsame : trimPath stored = trimPath requested →
      components base <+: components (coveredBase (trimPath requested)) := by
    intro h
    rw [h] at hglob
    rw [coveredBase, hglob]
    exact List.prefix_refl _
  rw [pathMatchesRequest]
  simp only [hstored, hrequested, or_self, if_false, hglob]
  rw [← prefix_components_iff]
  split
  · rename_i h
    exact ⟨fun _ => prefix_components_iff.2 (Or.inl (hsame h)), fun _ => rfl⟩
  · exact pathIsOrIsUnder_iff

/-- A stored path without `/**` matches a requested `/**` above it. -/
theorem matches_requested_glob {stored requested : String} {base : List Char}
    (hstored : trimPath stored ≠ []) (hrequested : trimPath requested ≠ [])
    (hplain : globBase (trimPath stored) = none)
    (hglob : globBase (trimPath requested) = some base) :
    pathMatchesRequest stored requested = true ↔
      components base <+: components (trimPath stored) := by
  have hne : trimPath stored ≠ trimPath requested := by
    intro h
    rw [h, hglob] at hplain
    cases hplain
  rw [pathMatchesRequest]
  simp only [hstored, hrequested, or_self, if_false, hplain, hglob, hne]
  exact pathIsOrIsUnder_iff

/-- Two paths without `/**` match in both directions. -/
theorem matches_plain {stored requested : String} (hstored : trimPath stored ≠ [])
    (hrequested : trimPath requested ≠ []) (hplain : globBase (trimPath stored) = none)
    (hplain' : globBase (trimPath requested) = none) :
    pathMatchesRequest stored requested = true ↔
      components (trimPath stored) <+: components (trimPath requested) ∨
        components (trimPath requested) <+: components (trimPath stored) := by
  rw [pathMatchesRequest]
  simp only [hstored, hrequested, or_self, if_false, hplain, hplain']
  split
  · rename_i h
    rw [h]
    simp
  · rw [Bool.or_eq_true, pathIsOrIsUnder_iff, pathIsOrIsUnder_iff]

/-- A blank path matches nothing, and stands for nothing. -/
theorem matches_blank {stored requested : String}
    (h : trimPath stored = [] ∨ trimPath requested = []) :
    pathMatchesRequest stored requested = false ∧ ¬ (covers stored ∩ covers requested).Nonempty := by
  refine ⟨?_, ?_⟩
  · rw [pathMatchesRequest]
    exact if_pos h
  · rintro ⟨file, ⟨hstored, -⟩, hrequested, -⟩
    rcases h with h | h
    · exact hstored h
    · exact hrequested h

theorem strictlyAbove_iff {upper lower : List Char} :
    StrictlyAbove upper lower ↔
      components upper <+: components lower ∧ ¬ components lower <+: components upper := by
  rw [StrictlyAbove]
  refine and_congr_right fun h => not_congr ?_
  constructor
  · rintro rfl
    exact List.prefix_refl _
  · intro h'
    exact components_injective (h.eq_of_length (Nat.le_antisymm h.length_le h'.length_le))

/-- What a comparison in one direction, with an exception, leaves out of both. -/
theorem missed_of_glob {a r e : Prop} (h : e → r) :
    (a ∨ e → a ∨ r) ∧ ((a ∨ e ↔ a ∨ r) ↔ ¬((r ∧ ¬a) ∧ ¬e)) := by
  tauto

theorem missed_of_request {a r : Prop} : (r → a ∨ r) ∧ ((r ↔ a ∨ r) ↔ ¬(a ∧ ¬r)) := by
  tauto

/-- **A request is matched exactly when the two covers meet, except for an ancestor that is missed.**
Whatever the two texts are, a match means that some file is covered by both paths, so a path that
only shares the beginning of a name never matches. -/
theorem pathMatchesRequest_iff_overlap (stored requested : String) :
    (pathMatchesRequest stored requested = true → (covers stored ∩ covers requested).Nonempty) ∧
      ((pathMatchesRequest stored requested = true ↔ (covers stored ∩ covers requested).Nonempty) ↔
        ¬ MissesAncestor stored requested) := by
  by_cases hblank : trimPath stored = [] ∨ trimPath requested = []
  · obtain ⟨hmatch, hcovers⟩ := matches_blank hblank
    rw [hmatch]
    have hmisses : ¬ MissesAncestor stored requested := by
      rintro ⟨hstored, hrequested, -⟩
      rcases hblank with h | h
      · exact hstored h
      · exact hrequested h
    simp [hcovers, hmisses]
  · obtain ⟨hstored, hrequested⟩ := not_or.1 hblank
    rw [covers_inter_iff hstored hrequested]
    have hmisses : MissesAncestor stored requested ↔
        match globBase (trimPath stored), globBase (trimPath requested) with
        | some base, _ => StrictlyAbove (coveredBase (trimPath requested)) base ∧
            base ≠ trimPath requested
        | none, some base => StrictlyAbove (trimPath stored) base
        | none, none => False := by
      simp only [MissesAncestor, hstored, hrequested, ne_eq, not_false_iff, true_and]
    rw [hmisses]
    cases hglob : globBase (trimPath stored) with
    | some base =>
        rw [matches_stored_glob hstored hrequested hglob]
        have hbase : coveredBase (trimPath stored) = base := by
          rw [coveredBase, hglob, Option.getD_some]
        have hroot : base = trimPath requested →
            components (coveredBase (trimPath requested)) <+: components base := by
          intro h
          rw [h]
          exact prefix_components_iff.2 (Or.inl (List.prefix_refl _))
        rw [hbase]
        dsimp only
        rw [strictlyAbove_iff]
        exact missed_of_glob hroot
    | none =>
        have hbase : coveredBase (trimPath stored) = trimPath stored := by
          rw [coveredBase, hglob, Option.getD_none]
        rw [hbase]
        cases hglob' : globBase (trimPath requested) with
        | some base =>
            have hbase' : coveredBase (trimPath requested) = base := by
              rw [coveredBase, hglob', Option.getD_some]
            rw [matches_requested_glob hstored hrequested hglob hglob', hbase']
            dsimp only
            rw [strictlyAbove_iff]
            exact missed_of_request
        | none =>
            have hbase' : coveredBase (trimPath requested) = trimPath requested := by
              rw [coveredBase, hglob', Option.getD_none]
            rw [matches_plain hstored hrequested hglob hglob', hbase']
            exact ⟨id, iff_of_true Iff.rfl not_false⟩

/-- A plain stored path is matched by a request for a directory above it, and the same path with
`/**` is not, though the request covers it; nor does the relation hold the other way round. -/
theorem pathMatchesRequest_misses_ancestor :
    pathMatchesRequest "src/core" "src" = true ∧ pathMatchesRequest "src/core/**" "src" = false ∧
      (covers "src/core/**" ∩ covers "src").Nonempty ∧
      pathMatchesRequest "src" "src/core/**" = false ∧
      pathMatchesRequest "src/core/**" "src/**" = false ∧
      pathMatchesRequest "src/**" "src/core/**" = true := by
  refine ⟨by decide, by decide, ?_, by decide, by decide, by decide⟩
  exact ⟨components "src/core".toList, ⟨by decide, [], by decide⟩, ⟨by decide, [ "core".toList], by decide⟩⟩

end Maintenance
end Memzoi
