/-
# Maps with their keys in order

A library of its own: a finite map kept as its entries in increasing key order,
with the order as a field, so that two maps with the same lookups are the same
map and can be compared as values. Lookups are what later proofs reason about.
-/

import Mathlib

/-- Entries in strictly increasing key order. -/
structure SortedMap (κ ν : Type) [LT κ] where
  entries : List (κ × ν)
  sorted : (entries.map Prod.fst).Pairwise (· < ·)

namespace SortedMap

variable {κ ν : Type}

@[ext] theorem ext_entries [LT κ] {m n : SortedMap κ ν} (h : m.entries = n.entries) : m = n := by
  cases m; cases n; cases h; rfl

instance [LT κ] [DecidableEq κ] [DecidableEq ν] : DecidableEq (SortedMap κ ν) := fun m n =>
  decidable_of_iff (m.entries = n.entries) ⟨ext_entries, fun h => h ▸ rfl⟩

def empty [LT κ] : SortedMap κ ν := ⟨[], List.Pairwise.nil⟩

variable [LinearOrder κ]

def keys (m : SortedMap κ ν) : List κ := m.entries.map Prod.fst

/-- The value of the first entry under a key. -/
def lookup (k : κ) : List (κ × ν) → Option ν
  | [] => none
  | (k', v) :: rest => if k' = k then some v else lookup k rest

def get? (m : SortedMap κ ν) (k : κ) : Option ν := lookup k m.entries

def contains (m : SortedMap κ ν) (k : κ) : Bool := (m.get? k).isSome

/-- Put an entry at its place, in the place of an entry under the same key. -/
def insertEntry (k : κ) (v : ν) : List (κ × ν) → List (κ × ν)
  | [] => [(k, v)]
  | (k', v') :: rest =>
    if k < k' then (k, v) :: (k', v') :: rest
    else if k' < k then (k', v') :: insertEntry k v rest
    else (k, v) :: rest

theorem mem_keys_insertEntry {k x : κ} {v : ν} {es : List (κ × ν)} :
    x ∈ (insertEntry k v es).map Prod.fst ↔ x = k ∨ x ∈ es.map Prod.fst := by
  induction es with
  | nil => simp [insertEntry]
  | cons e es ih =>
      obtain ⟨k', v'⟩ := e
      rw [insertEntry]
      split
      · simp
      · split
        · simp only [List.map_cons, List.mem_cons, ih]
          exact or_left_comm
        · rename_i hle hge
          have hk : k = k' := le_antisymm (not_lt.1 hge) (not_lt.1 hle)
          simp [hk]

theorem sorted_insertEntry {k : κ} {v : ν} {es : List (κ × ν)}
    (h : (es.map Prod.fst).Pairwise (· < ·)) :
    ((insertEntry k v es).map Prod.fst).Pairwise (· < ·) := by
  induction es with
  | nil => simp [insertEntry]
  | cons e es ih =>
      obtain ⟨k', v'⟩ := e
      rw [List.map_cons, List.pairwise_cons] at h
      obtain ⟨hlt, hrest⟩ := h
      rw [insertEntry]
      split
      · rename_i hkk
        simp only [List.map_cons, List.pairwise_cons, List.mem_cons, forall_eq_or_imp]
        exact ⟨⟨hkk, fun x hx => lt_trans hkk (hlt x hx)⟩, hlt, hrest⟩
      · split
        · rename_i hkk
          rw [List.map_cons, List.pairwise_cons]
          refine ⟨fun x hx => ?_, ih hrest⟩
          rcases mem_keys_insertEntry.1 hx with rfl | hx
          · exact hkk
          · exact hlt x hx
        · rename_i hle hge
          have hk : k = k' := le_antisymm (not_lt.1 hge) (not_lt.1 hle)
          rw [List.map_cons, List.pairwise_cons, hk]
          exact ⟨hlt, hrest⟩

def insert (m : SortedMap κ ν) (k : κ) (v : ν) : SortedMap κ ν :=
  ⟨insertEntry k v m.entries, sorted_insertEntry m.sorted⟩

/-- Insert every entry of a list, the first one first. -/
def extend (m : SortedMap κ ν) (es : List (κ × ν)) : SortedMap κ ν :=
  es.foldl (fun m e => m.insert e.1 e.2) m

def ofList (es : List (κ × ν)) : SortedMap κ ν := empty.extend es

@[simp] theorem get?_empty (k : κ) : (empty : SortedMap κ ν).get? k = none := rfl

theorem lookup_insertEntry (k x : κ) (v : ν) (es : List (κ × ν)) :
    lookup x (insertEntry k v es) = if k = x then some v else lookup x es := by
  induction es with
  | nil => simp [insertEntry, lookup]
  | cons e es ih =>
      obtain ⟨k', v'⟩ := e
      rw [insertEntry]
      split
      · rw [lookup]
      · split
        · rename_i hge hlt
          rw [lookup, lookup, ih]
          by_cases hkx : k' = x
          · have hne : k ≠ x := by
              rintro rfl
              exact absurd hlt (by rw [hkx]; exact lt_irrefl _)
            simp [hkx, hne]
          · simp [hkx]
        · rename_i hle hge
          have hk : k = k' := le_antisymm (not_lt.1 hge) (not_lt.1 hle)
          rw [lookup, lookup, hk]
          by_cases hkx : k' = x
          · simp [hkx]
          · simp [hkx]

theorem get?_insert (m : SortedMap κ ν) (k x : κ) (v : ν) :
    (m.insert k v).get? x = if k = x then some v else m.get? x :=
  lookup_insertEntry k x v m.entries

/-- A key stands in the entries exactly when it has a value. -/
theorem mem_keys_iff {m : SortedMap κ ν} {k : κ} : k ∈ m.keys ↔ ∃ v, m.get? k = some v := by
  unfold keys get?
  induction m.entries with
  | nil => simp [lookup]
  | cons e es ih =>
      obtain ⟨k', v⟩ := e
      by_cases hk : k' = k
      · simp [lookup, hk]
      · simp [lookup, hk, Ne.symm hk, ih]

/-- An entry of the map is what its key looks up. -/
theorem get?_of_mem {m : SortedMap κ ν} {k : κ} {v : ν} (h : (k, v) ∈ m.entries) :
    m.get? k = some v := by
  obtain ⟨es, hsorted⟩ := m
  change lookup k es = some v
  change (k, v) ∈ es at h
  induction es with
  | nil => cases h
  | cons e es ih =>
      obtain ⟨k', v'⟩ := e
      rw [List.map_cons, List.pairwise_cons] at hsorted
      rcases List.mem_cons.1 h with heq | htail
      · cases heq
        simp [lookup]
      · have hlt : k' < k := hsorted.1 k (List.mem_map.2 ⟨(k, v), htail, rfl⟩)
        rw [lookup, if_neg (ne_of_lt hlt)]
        exact ih hsorted.2 htail

/-- An entry of the result is the new one or was there before. -/
theorem mem_of_mem_insertEntry {k : κ} {v : ν} {es : List (κ × ν)} {e : κ × ν}
    (h : e ∈ insertEntry k v es) : e = (k, v) ∨ e ∈ es := by
  induction es with
  | nil => exact Or.inl (List.mem_singleton.1 h)
  | cons e' es ih =>
      obtain ⟨k', v'⟩ := e'
      rw [insertEntry] at h
      split at h
      · exact List.mem_cons.1 h
      · split at h
        · rcases List.mem_cons.1 h with rfl | h
          · exact Or.inr List.mem_cons_self
          · exact (ih h).imp_right (List.mem_cons_of_mem _)
        · exact (List.mem_cons.1 h).imp_right (List.mem_cons_of_mem _)

/-- Every entry of a map made of a list stands in the list. -/
theorem mem_of_mem_ofList {es : List (κ × ν)} {e : κ × ν} (h : e ∈ (ofList es).entries) : e ∈ es := by
  have hextend : ∀ (es : List (κ × ν)) (m : SortedMap κ ν), e ∈ (m.extend es).entries →
      e ∈ m.entries ∨ e ∈ es := by
    intro es
    induction es with
    | nil => exact fun m h => Or.inl h
    | cons e' es ih =>
        intro m h
        rcases ih (m.insert e'.1 e'.2) h with hmem | hmem
        · rcases mem_of_mem_insertEntry hmem with rfl | hmem
          · exact Or.inr List.mem_cons_self
          · exact Or.inl hmem
        · exact Or.inr (List.mem_cons_of_mem _ hmem)
  rcases hextend es empty h with hmem | hmem
  · cases hmem
  · exact hmem

/-- The map without a key. -/
def erase (m : SortedMap κ ν) (k : κ) : SortedMap κ ν :=
  ⟨m.entries.filter fun e => e.1 ≠ k, m.sorted.sublist (List.filter_sublist.map Prod.fst)⟩

theorem get?_erase (m : SortedMap κ ν) (k x : κ) :
    (m.erase k).get? x = if k = x then none else m.get? x := by
  show lookup x (m.entries.filter fun e => e.1 ≠ k) = if k = x then none else lookup x m.entries
  induction m.entries with
  | nil => simp [lookup]
  | cons e es ih =>
      obtain ⟨k', v⟩ := e
      by_cases hk : k' = k
      · rw [List.filter_cons_of_neg (by simp [hk]), ih, lookup, hk]
        by_cases hx : k = x
        · rw [if_pos hx, if_pos hx]
        · rw [if_neg hx, if_neg hx, if_neg hx]
      · rw [List.filter_cons_of_pos (by simp [hk]), lookup, lookup, ih]
        by_cases hx : k' = x
        · rw [if_pos hx, if_pos hx, if_neg fun h => hk (hx.trans h.symm)]
        · rw [if_neg hx, if_neg hx]

/-- The values in key order. -/
def values (m : SortedMap κ ν) : List ν := m.entries.map Prod.snd

theorem mem_values {m : SortedMap κ ν} {v : ν} : v ∈ m.values ↔ ∃ k, m.get? k = some v := by
  constructor
  · intro h
    obtain ⟨⟨k, _⟩, hmem, rfl⟩ := List.mem_map.1 h
    exact ⟨k, get?_of_mem hmem⟩
  · rintro ⟨k, h⟩
    obtain ⟨⟨k', v'⟩, hmem, rfl⟩ := List.mem_map.1 (mem_keys_iff.2 ⟨v, h⟩)
    have heq : v' = v := Option.some.inj ((get?_of_mem hmem).symm.trans h)
    exact List.mem_map.2 ⟨(k', v'), hmem, heq⟩

/-- Maps with the same lookups are one map. -/
theorem ext_get? {m n : SortedMap κ ν} (h : ∀ k, m.get? k = n.get? k) : m = n := by
  have hentries : ∀ m : SortedMap κ ν,
      m.entries = m.keys.filterMap fun k => (m.get? k).map (Prod.mk k) := by
    intro m
    rw [keys, List.filterMap_map]
    refine (List.filterMap_some.symm).trans (List.filterMap_congr fun e he => ?_)
    simp [get?_of_mem (k := e.1) (v := e.2) he]
  have hkeys : m.keys = n.keys :=
    m.sorted.eq_of_mem_iff n.sorted fun {k} => by
      show k ∈ m.keys ↔ k ∈ n.keys
      rw [mem_keys_iff, mem_keys_iff, h]
  rw [SortedMap.ext_entries_iff, hentries m, hentries n, hkeys]
  exact List.filterMap_congr fun k _ => by rw [h]

/-- A loop that rewrites the value under the key of each element, with no key twice. -/
theorem get?_foldl_update {β : Type} {update : SortedMap κ ν → β → SortedMap κ ν} (key : β → κ)
    (value : β → Option ν → ν)
    (hupdate : ∀ m b k, (update m b).get? k = if key b = k then some (value b (m.get? k)) else m.get? k)
    {bs : List β} (hbs : (bs.map key).Nodup) (m : SortedMap κ ν) (k : κ) :
    (bs.foldl update m).get? k =
      match bs.find? fun b => key b = k with
      | some b => some (value b (m.get? k))
      | none => m.get? k := by
  induction bs generalizing m with
  | nil => rfl
  | cons b bs ih =>
      rw [List.map_cons, List.nodup_cons] at hbs
      rw [List.foldl_cons, ih hbs.2, hupdate]
      by_cases hkey : key b = k
      · have hnone : bs.find? (fun b => key b = k) = none := by
          rw [List.find?_eq_none]
          intro b' hb' hkey'
          exact hbs.1 (List.mem_map.2 ⟨b', hb', (of_decide_eq_true hkey').trans hkey.symm⟩)
        simp [hkey, hnone]
      · simp [hkey]

/-- The elements of a list in order, each once. -/
def sortedKeys (xs : List κ) : List κ := (ofList (xs.map fun x => (x, ()))).keys

theorem mem_keys_extend {m : SortedMap κ ν} {es : List (κ × ν)} {k : κ} :
    k ∈ (m.extend es).keys ↔ k ∈ m.keys ∨ k ∈ es.map Prod.fst := by
  induction es generalizing m with
  | nil => simp [extend]
  | cons e es ih =>
      have hstep : m.extend (e :: es) = (m.insert e.1 e.2).extend es := rfl
      have hinsert : k ∈ (m.insert e.1 e.2).keys ↔ k = e.1 ∨ k ∈ m.keys := mem_keys_insertEntry
      rw [hstep, ih, hinsert, List.map_cons, List.mem_cons]
      exact ⟨fun h => by tauto, fun h => by tauto⟩

@[simp] theorem mem_sortedKeys {xs : List κ} {x : κ} : x ∈ sortedKeys xs ↔ x ∈ xs := by
  rw [sortedKeys, ofList, mem_keys_extend, List.map_map]
  have hempty : x ∉ (empty : SortedMap κ Unit).keys := List.not_mem_nil
  simp [hempty, Function.comp_def]

theorem nodup_keys (m : SortedMap κ ν) : m.keys.Nodup :=
  m.sorted.imp fun h => ne_of_lt h

/-- Values that name their keys name no key twice. -/
theorem nodup_map_values {m : SortedMap κ ν} {key : ν → κ}
    (h : ∀ k v, m.get? k = some v → key v = k) : (m.values.map key).Nodup := by
  have hkeys : m.values.map key = m.keys := by
    rw [values, keys, List.map_map]
    exact List.map_congr_left fun e he => h e.1 e.2 (get?_of_mem he)
  rw [hkeys]
  exact nodup_keys m

theorem nodup_sortedKeys (xs : List κ) : (sortedKeys xs).Nodup := nodup_keys _

theorem pairwise_sortedKeys (xs : List κ) : (sortedKeys xs).Pairwise (· < ·) := sorted _

/-- A list in order is what its elements are put in order to. -/
theorem sortedKeys_eq_of_pairwise {xs ys : List κ} (hys : ys.Pairwise (· < ·))
    (h : ∀ x, x ∈ xs ↔ x ∈ ys) : sortedKeys xs = ys :=
  (pairwise_sortedKeys xs).eq_of_mem_iff hys fun {x} => mem_sortedKeys.trans (h x)

theorem sortedKeys_congr {xs ys : List κ} (h : ∀ x, x ∈ xs ↔ x ∈ ys) :
    sortedKeys xs = sortedKeys ys :=
  sortedKeys_eq_of_pairwise (pairwise_sortedKeys ys) fun x => (h x).trans mem_sortedKeys.symm

/-- Putting a list in order drops nothing exactly when nothing stands in it twice. -/
theorem length_sortedKeys_iff {xs : List κ} : xs.length = (sortedKeys xs).length ↔ xs.Nodup := by
  have hperm : (sortedKeys xs).Perm xs.dedup :=
    (List.perm_ext_iff_of_nodup (nodup_sortedKeys xs) (List.nodup_dedup xs)).2 fun x => by simp
  rw [hperm.length_eq]
  constructor
  · intro h
    rw [← List.dedup_eq_self]
    exact (List.dedup_sublist xs).eq_of_length h.symm
  · intro h
    rw [List.dedup_eq_self.2 h]

end SortedMap
