/-
# Keyed tables

A library of its own: a finite table whose rows carry their own key, in row
order, with no key twice. The uniqueness of the key is a field of the table, so
a table with two rows under one key cannot be built. Each operation comes with
the value of a lookup after it, and later proofs reason about lookups only.
-/

import Mathlib

/-- Rows in row order, no two with the same key. -/
structure Table {ρ κ : Type} (key : ρ → κ) where
  rows : List ρ
  nodup : (rows.map key).Nodup

namespace Table

variable {ρ κ : Type} {key : ρ → κ}

@[ext] theorem ext_rows {t u : Table key} (h : t.rows = u.rows) : t = u := by
  cases t; cases u; cases h; rfl

instance [DecidableEq ρ] : DecidableEq (Table key) := fun t u =>
  decidable_of_iff (t.rows = u.rows) ⟨ext_rows, fun h => h ▸ rfl⟩

/-- The table with no rows. -/
def empty : Table key := ⟨[], List.nodup_nil⟩

instance : Inhabited (Table key) := ⟨empty⟩

/-- Two rows under one key are one row. -/
theorem eq_of_key {t : Table key} {r r' : ρ} (hr : r ∈ t.rows) (hr' : r' ∈ t.rows)
    (h : key r = key r') : r = r' :=
  List.inj_on_of_nodup_map t.nodup hr hr' h

/-- `DELETE ... WHERE`: the rows that do not meet the condition. -/
def deleteWhere (t : Table key) (p : ρ → Bool) : Table key :=
  ⟨t.rows.filter (fun r => !p r), t.nodup.sublist (List.filter_sublist.map key)⟩

theorem mem_deleteWhere {t : Table key} {p : ρ → Bool} {r : ρ} :
    r ∈ (t.deleteWhere p).rows ↔ r ∈ t.rows ∧ p r = false := by
  simp [deleteWhere]

variable [DecidableEq κ]

/-- The row under a key. -/
def get? (t : Table key) (k : κ) : Option ρ := t.rows.find? (fun r => key r = k)

/-- A lookup finds exactly the row of the table under that key. -/
theorem get?_eq_some {t : Table key} {k : κ} {r : ρ} :
    t.get? k = some r ↔ r ∈ t.rows ∧ key r = k := by
  constructor
  · intro h
    have hkey : key r = k := by simpa using List.find?_some h
    exact ⟨List.mem_of_find?_eq_some h, hkey⟩
  · rintro ⟨hr, rfl⟩
    cases h : t.get? (key r) with
    | none =>
        have hnone := List.find?_eq_none.1 h r hr
        simp at hnone
    | some r' =>
        have hkey : key r' = key r := by simpa using List.find?_some h
        rw [eq_of_key (List.mem_of_find?_eq_some h) hr hkey]

theorem get?_eq_none {t : Table key} {k : κ} :
    t.get? k = none ↔ ∀ r ∈ t.rows, key r ≠ k := by
  simp [get?]

theorem key_of_get? {t : Table key} {k : κ} {r : ρ} (h : t.get? k = some r) : key r = k :=
  (get?_eq_some.1 h).2

theorem mem_of_get? {t : Table key} {k : κ} {r : ρ} (h : t.get? k = some r) : r ∈ t.rows :=
  (get?_eq_some.1 h).1

/-- A row of the table is the row found under its own key. -/
theorem get?_of_mem {t : Table key} {r : ρ} (h : r ∈ t.rows) : t.get? (key r) = some r :=
  get?_eq_some.2 ⟨h, rfl⟩

@[simp] theorem get?_empty (k : κ) : (empty : Table key).get? k = none := rfl

/-- `INSERT`: the table with one more row, or nothing when the key is taken. -/
def insert? (t : Table key) (r : ρ) : Option (Table key) :=
  if h : key r ∈ t.rows.map key then none
  else some ⟨t.rows ++ [r], by
    rw [List.map_append, List.map_singleton]
    exact List.Nodup.append t.nodup (List.nodup_singleton _)
      (by simpa [List.disjoint_singleton] using h)⟩

theorem insert?_rows {t t' : Table key} {r : ρ} (h : t.insert? r = some t') :
    t'.rows = t.rows ++ [r] := by
  unfold insert? at h
  split at h
  · cases h
  · cases h; rfl

theorem insert?_fresh {t t' : Table key} {r : ρ} (h : t.insert? r = some t') :
    t.get? (key r) = none := by
  unfold insert? at h
  split at h
  · cases h
  · rename_i hfree
    rw [get?_eq_none]
    intro r' hr' hkey
    exact hfree (List.mem_map.2 ⟨r', hr', hkey⟩)

/-- An insertion is refused exactly when the key is taken. -/
theorem insert?_eq_none {t : Table key} {r : ρ} :
    t.insert? r = none ↔ t.get? (key r) ≠ none := by
  unfold insert?
  split
  · rename_i htaken
    obtain ⟨r', hr', hkey⟩ := List.mem_map.1 htaken
    simp only [ne_eq, true_iff, get?_eq_none, not_forall]
    exact ⟨r', hr', fun h => h hkey⟩
  · rename_i hfree
    simp only [reduceCtorEq, ne_eq, false_iff, not_not, get?_eq_none]
    intro r' hr' hkey
    exact hfree (List.mem_map.2 ⟨r', hr', hkey⟩)

theorem exists_insert? {t : Table key} {r : ρ} (h : t.get? (key r) = none) :
    ∃ t', t.insert? r = some t' := by
  cases ht : t.insert? r with
  | none => exact absurd h (insert?_eq_none.1 ht)
  | some t' => exact ⟨t', rfl⟩

theorem get?_insert? {t t' : Table key} {r : ρ} (h : t.insert? r = some t') (k : κ) :
    t'.get? k = if key r = k then some r else t.get? k := by
  have hrows := insert?_rows h
  split
  · rename_i hk
    exact get?_eq_some.2 ⟨by rw [hrows]; simp, hk⟩
  · rename_i hk
    rw [get?, hrows, List.find?_append]
    simp [get?, hk]

theorem get?_deleteWhere (t : Table key) (p : ρ → Bool) (k : κ) :
    (t.deleteWhere p).get? k = (t.get? k).filter (fun r => !p r) := by
  cases h : t.get? k with
  | none =>
      rw [Option.filter_none, get?_eq_none]
      intro r hr
      exact get?_eq_none.1 h r (mem_deleteWhere.1 hr).1
  | some r =>
      obtain ⟨hr, hk⟩ := get?_eq_some.1 h
      cases hp : p r with
      | false =>
          simp only [Option.filter, hp, Bool.not_false, if_true]
          exact get?_eq_some.2 ⟨mem_deleteWhere.2 ⟨hr, hp⟩, hk⟩
      | true =>
          simp only [Option.filter, hp, Bool.not_true, Bool.false_eq_true, if_false]
          rw [get?_eq_none]
          intro r' hr' hk'
          obtain ⟨hmem, hfalse⟩ := mem_deleteWhere.1 hr'
          rw [eq_of_key hmem hr (hk'.trans hk.symm), hp] at hfalse
          cases hfalse

/-- `DELETE ... WHERE key = k`. -/
def erase (t : Table key) (k : κ) : Table key := t.deleteWhere (fun r => key r = k)

@[simp] theorem get?_erase_self (t : Table key) (k : κ) : (t.erase k).get? k = none := by
  rw [erase, get?_deleteWhere]
  cases h : t.get? k with
  | none => rfl
  | some r => simp [Option.filter, key_of_get? h]

theorem get?_erase_of_ne (t : Table key) {k k' : κ} (h : k ≠ k') :
    (t.erase k).get? k' = t.get? k' := by
  rw [erase, get?_deleteWhere]
  cases hk : t.get? k' with
  | none => rfl
  | some r => simp [Option.filter, key_of_get? hk, Ne.symm h]

theorem get?_erase (t : Table key) (k k' : κ) :
    (t.erase k).get? k' = if k = k' then none else t.get? k' := by
  split
  · rename_i h; subst h; exact get?_erase_self t k
  · rename_i h; exact get?_erase_of_ne t h

/-- `UPDATE ... SET`: every row rewritten by a change that keeps its key. -/
def mapRows (t : Table key) (f : ρ → ρ) (hf : ∀ r, key (f r) = key r) : Table key :=
  ⟨t.rows.map f, by
    have hkeys : (t.rows.map f).map key = t.rows.map key := by
      rw [List.map_map]
      exact List.map_congr_left fun r _ => hf r
    rw [hkeys]
    exact t.nodup⟩

theorem get?_mapRows (t : Table key) (f : ρ → ρ) (hf : ∀ r, key (f r) = key r) (k : κ) :
    (t.mapRows f hf).get? k = (t.get? k).map f := by
  have hp : ((fun r => decide (key r = k)) ∘ f) = fun r => decide (key r = k) := by
    funext r; simp [hf]
  rw [get?, mapRows, List.find?_map, hp, get?]

/-- `UPDATE ... SET ... WHERE key = k`. -/
def update (t : Table key) (k : κ) (f : ρ → ρ) (hf : ∀ r, key (f r) = key r) : Table key :=
  t.mapRows (fun r => if key r = k then f r else r) (fun r => by
    split
    · exact hf r
    · rfl)

theorem get?_update (t : Table key) (k : κ) (f : ρ → ρ) (hf : ∀ r, key (f r) = key r) (k' : κ) :
    (t.update k f hf).get? k' = if k = k' then (t.get? k').map f else t.get? k' := by
  rw [update, get?_mapRows]
  cases h : t.get? k' with
  | none => simp
  | some r =>
      have hk := key_of_get? h
      split
      · rename_i hkk; simp [hk, hkk]
      · rename_i hkk; simp [hk, Ne.symm hkk]

@[simp] theorem get?_update_self (t : Table key) (k : κ) (f : ρ → ρ)
    (hf : ∀ r, key (f r) = key r) : (t.update k f hf).get? k = (t.get? k).map f := by
  rw [get?_update, if_pos rfl]

theorem get?_update_of_ne (t : Table key) {k k' : κ} (f : ρ → ρ)
    (hf : ∀ r, key (f r) = key r) (h : k ≠ k') : (t.update k f hf).get? k' = t.get? k' := by
  rw [get?_update, if_neg h]

/-- `UPDATE` of one row to given contents: the row under the same key is replaced in place. -/
def set (t : Table key) (r : ρ) : Table key :=
  t.mapRows (fun x => if key x = key r then r else x) (fun x => by
    split
    · rename_i h; exact h.symm
    · rfl)

theorem get?_set (t : Table key) (r : ρ) (k : κ) :
    (t.set r).get? k = if key r = k then (t.get? k).map (fun _ => r) else t.get? k := by
  rw [set, get?_mapRows]
  cases h : t.get? k with
  | none => simp
  | some x =>
      have hk := key_of_get? h
      split
      · rename_i hr; simp [hk, hr]
      · rename_i hr; simp [hk, Ne.symm hr]

theorem get?_set_self {t : Table key} {r x : ρ} (h : t.get? (key r) = some x) :
    (t.set r).get? (key r) = some r := by
  rw [get?_set, if_pos rfl, h]
  rfl

theorem get?_set_of_ne (t : Table key) {r : ρ} {k : κ} (h : key r ≠ k) :
    (t.set r).get? k = t.get? k := by
  rw [get?_set, if_neg h]

/-- `INSERT OR REPLACE`: the row takes the place of any row under its key. -/
def upsert (t : Table key) (r : ρ) : Table key :=
  ⟨(t.erase (key r)).rows ++ [r], by
    rw [List.map_append, List.map_singleton]
    refine List.Nodup.append (t.erase (key r)).nodup (List.nodup_singleton _) ?_
    rw [List.disjoint_singleton]
    intro hmem
    obtain ⟨r', hr', hkey⟩ := List.mem_map.1 hmem
    exact get?_eq_none.1 (get?_erase_self t (key r)) r' hr' hkey⟩

theorem get?_upsert (t : Table key) (r : ρ) (k : κ) :
    (t.upsert r).get? k = if key r = k then some r else t.get? k := by
  split
  · rename_i hk
    exact get?_eq_some.2 ⟨by simp [upsert], hk⟩
  · rename_i hk
    have hfind : (t.upsert r).get? k = (t.erase (key r)).get? k := by
      rw [get?, upsert, List.find?_append]
      simp [get?, hk]
    rw [hfind, get?_erase_of_ne t hk]

/-- A row that is set and set back is as it was. -/
theorem set_set {t : Table key} {r r' : ρ} (h : t.get? (key r) = some r) (hk : key r' = key r) :
    (t.set r').set r = t := by
  apply ext_rows
  simp only [set, mapRows, List.map_map]
  refine (List.map_congr_left fun x hx => ?_).trans (List.map_id _)
  by_cases hxr : key x = key r
  · simp only [Function.comp_apply, hxr, hk, if_true, id_eq]
    exact eq_of_key (mem_of_get? h) hx hxr.symm
  · simp only [Function.comp_apply, hk, if_neg hxr, id_eq]

/-- A new row that is deleted again leaves the table as it was. -/
theorem erase_upsert {t : Table key} {r : ρ} (h : t.get? (key r) = none) :
    (t.upsert r).erase (key r) = t := by
  have hother : ∀ x ∈ t.rows, (!decide (key x = key r)) = true := by
    intro x hx
    have hne := get?_eq_none.1 h x hx
    simp [hne]
  have hkept : t.rows.filter (fun x => !decide (key x = key r)) = t.rows :=
    List.filter_eq_self.2 hother
  apply ext_rows
  simp only [erase, deleteWhere, upsert, List.filter_append, hkept, List.filter_singleton,
    decide_true, Bool.not_true, cond_false, List.append_nil]

/-- `UPDATE` of the row under `k` to a row under any key, or nothing when another row has that
key. -/
def replace? (t : Table key) (k : κ) (r : ρ) : Option (Table key) :=
  if key r = k then some (t.set r) else (t.erase k).insert? r

theorem replace?_same {t : Table key} {k : κ} {r : ρ} (h : key r = k) :
    t.replace? k r = some (t.set r) := if_pos h

theorem get?_replace? {t t' : Table key} {k : κ} {old r : ρ} (hold : t.get? k = some old)
    (h : t.replace? k r = some t') (x : κ) :
    t'.get? x = if key r = x then some r else if k = x then none else t.get? x := by
  unfold replace? at h
  split at h
  · rename_i hk
    cases h
    rw [get?_set]
    by_cases hx : key r = x
    · rw [if_pos hx, if_pos hx, ← hx, hk, hold]
      rfl
    · rw [if_neg hx, if_neg hx, if_neg (hk ▸ hx)]
  · rw [get?_insert? h, get?_erase]

/-- A row that gets a new key gets one that was free. -/
theorem replace?_fresh {t t' : Table key} {k : κ} {r : ρ} (hk : key r ≠ k)
    (h : t.replace? k r = some t') : t.get? (key r) = none := by
  rw [replace?, if_neg hk] at h
  have hfresh := insert?_fresh h
  rw [get?_erase_of_ne t (Ne.symm hk)] at hfresh
  exact hfresh

/-! ### The rows that meet a condition -/

theorem filter_insert? {t t' : Table key} {r : ρ} (h : t.insert? r = some t') {p : ρ → Bool}
    (hr : p r = false) : t'.rows.filter p = t.rows.filter p := by
  rw [insert?_rows h, List.filter_append, List.filter_cons_of_neg (by simp [hr]), List.filter_nil,
    List.append_nil]

omit [DecidableEq κ] in
theorem filter_deleteWhere {t : Table key} {p q : ρ → Bool}
    (h : ∀ r ∈ t.rows, q r = true → p r = false) :
    (t.deleteWhere q).rows.filter p = t.rows.filter p := by
  rw [deleteWhere, List.filter_filter]
  refine List.filter_congr fun r hr => ?_
  cases hq : q r with
  | false => simp
  | true => simp [h r hr hq]

theorem filter_erase {t : Table key} {k : κ} {old : ρ} (hold : t.get? k = some old) {p : ρ → Bool}
    (hp : p old = false) : (t.erase k).rows.filter p = t.rows.filter p := by
  refine filter_deleteWhere fun r hr hk => ?_
  obtain ⟨hmem, hkey⟩ := get?_eq_some.1 hold
  have hsame : r = old := eq_of_key hr hmem ((of_decide_eq_true hk).trans hkey.symm)
  rw [hsame, hp]

theorem filter_set {t : Table key} {r old : ρ} (hold : t.get? (key r) = some old) {p : ρ → Bool}
    (hp : p old = false) (hr : p r = false) : (t.set r).rows.filter p = t.rows.filter p := by
  have hsame : ∀ x ∈ t.rows, key x = key r → x = old := by
    intro x hx hkey
    obtain ⟨hmem, hk⟩ := get?_eq_some.1 hold
    exact eq_of_key hx hmem (hkey.trans hk.symm)
  have hrows : ∀ l : List ρ, (∀ x ∈ l, x ∈ t.rows) →
      (l.map fun x => if key x = key r then r else x).filter p = l.filter p := by
    intro l
    induction l with
    | nil => intro _; rfl
    | cons x xs ih =>
        intro hsub
        have hxs := ih fun y hy => hsub y (List.mem_cons_of_mem x hy)
        rw [List.map_cons, List.filter_cons, List.filter_cons, hxs]
        by_cases hx : key x = key r
        · rw [if_pos hx, hr, hsame x (hsub x List.mem_cons_self) hx, hp]
          simp
        · rw [if_neg hx]
  exact hrows t.rows fun _ hx => hx

theorem filter_replace? {t t' : Table key} {k : κ} {old r : ρ} (hold : t.get? k = some old)
    (h : t.replace? k r = some t') {p : ρ → Bool} (hp : p old = false) (hr : p r = false) :
    t'.rows.filter p = t.rows.filter p := by
  unfold replace? at h
  split at h
  · rename_i hk
    cases h
    exact filter_set (hk ▸ hold) hp hr
  · rw [filter_insert? h hr, filter_erase hold hp]

/-- One row stands under a key that is found, and none under another. -/
theorem length_filter_key (t : Table key) (k : κ) :
    (t.rows.filter fun r => key r = k).length = if (t.get? k).isSome then 1 else 0 := by
  have hcount : (t.rows.filter fun r => key r = k).length = (t.rows.map key).count k := by
    rw [List.count, List.countP_map, List.countP_eq_length_filter]
    exact congrArg List.length (List.filter_congr fun r _ => (beq_eq_decide (key r) k).symm)
  rw [hcount]
  cases h : t.get? k with
  | none =>
      rw [Option.isSome_none, if_neg Bool.false_ne_true, List.count_eq_zero]
      rintro hmem
      obtain ⟨r, hr, hkey⟩ := List.mem_map.1 hmem
      exact get?_eq_none.1 h r hr hkey
  | some r =>
      obtain ⟨hr, rfl⟩ := get?_eq_some.1 h
      rw [Option.isSome_some, if_pos rfl]
      exact List.count_eq_one_of_mem t.nodup (List.mem_map_of_mem hr)

/-! ### Lookups as functions -/

/-- A function given by cases on one key is an update at that key. -/
theorem eq_update {α : Type} {f g v : κ → α} {k : κ} (h : ∀ x, f x = if k = x then v x else g x) :
    f = Function.update g k (v k) := by
  funext x
  rw [h, Function.update_apply]
  by_cases hx : k = x
  · rw [if_pos hx, if_pos hx.symm, hx]
  · rw [if_neg hx, if_neg (Ne.symm hx)]

theorem get?_set_eq_update {t : Table key} {r x : ρ} (h : t.get? (key r) = some x) :
    (t.set r).get? = Function.update t.get? (key r) (some r) := by
  have hset := eq_update (get?_set t r)
  rw [h] at hset
  exact hset

theorem get?_insert?_eq_update {t t' : Table key} {r : ρ} (h : t.insert? r = some t') :
    t'.get? = Function.update t.get? (key r) (some r) :=
  eq_update (v := fun _ => some r) (get?_insert? h)

end Table
