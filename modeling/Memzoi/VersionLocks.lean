/-
# Version tokens as optimistic locks

Source: `schema.rs` (`RUNTIME_MIRROR_TRIGGERS`).

Whoever read a private record together with its token and the lifecycle
generation wants to know that equal values mean an equal record. `Guarded db db'`
says so of a change from `db` to `db'`: a private record of `db'` is stored as
it was, token included, or it has a token drawn in between and the generation
grew. Such changes compose, so a statement is guarded when each of its rows is.

A row is changed in three moves: the contents (`Rewritten`), the tokens of the
records concerned (`Rotated`), and the generation (`Marked.touch`).

Two kinds of statement escape: one that inserts or deletes lifecycle rows or
moves them to another record, and one that gives several records new ids.
-/

import Memzoi.Statements

namespace Memzoi

open Fallible

/-- What is stored about a record, but for the token and the instant of its lifecycle row. -/
structure StoredFacts where
  row : Option MemoryRecord
  tags : List MemoryTag
  paths : List MemoryPath
  capture : Option MemoryCapture
  facts : Option LifecycleFacts
  relations : List PrivateLifecycleRelation
  deriving DecidableEq

/-- The row of a record keeps its id. -/
def RowChange.KeepsId : RowChange MemoryRecord String → Prop
  | insert _ => True
  | update id new => new.id = id
  | delete _ => True

/-- No lifecycle row is deleted, or moved to another record. -/
def RowChange.KeepsOwner : RowChange PrivateLifecycleState String → Prop
  | insert _ => True
  | update id s => s.recordId = id
  | delete _ => False

/-- A statement that leaves the lifecycle rows to their records, and gives a record a new id only
when it changes no other row. -/
def Statement.KeepsRows : Statement → Prop
  | records changes => changes.length ≤ 1 ∨ ∀ c ∈ changes, c.KeepsId
  | lifecycle _ changes => ∀ c ∈ changes, c.KeepsOwner
  | tags _ => True
  | paths _ => True
  | captures _ => True
  | relations _ => True

namespace Db

variable [Entropy] {db db' db'' db₁ db₂ : Db} {a b id : String} {S T : String → Prop}

def storedFacts (db : Db) (id : String) : StoredFacts where
  row := db.records.get? id
  tags := db.tags.rows.filter fun t => t.recordId = id
  paths := db.paths.rows.filter fun p => p.recordId = id
  capture := db.captures.get? id
  facts := db.facts? id
  relations := db.relations.rows.filter
    fun r => r.subjectRecordId = id || r.relatedRecordId = id

/-- The token of a record. -/
def version? (db : Db) (id : String) : Option String :=
  (db.lifecycle.get? id).map (·.recordVersion)

/-- The private records are the ones with a lifecycle row. -/
def Covered (db : Db) : Prop := ∀ id, (db.lifecycle.get? id).isSome = db.hasPrivate id

/-- A record has a token drawn since `db`. -/
def Drawn (db db' : Db) (id : String) : Prop :=
  ∃ n, db.draws ≤ n ∧ n < db'.draws ∧ db'.version? id = some (Entropy.blob n)

/-- A private record is stored as it was, with the token it had. -/
structure Unchanged (db db' : Db) (id : String) : Prop where
  isPrivate : db.hasPrivate id = true
  facts : db'.storedFacts id = db.storedFacts id
  version : db'.version? id = db.version? id

/-- A change after which equal tokens mean equal records. -/
structure Guarded (db db' : Db) : Prop where
  draws_le : db.draws ≤ db'.draws
  generation_le : db.generation ≤ db'.generation
  grants : db'.grants = db.grants
  projected : db'.generation = db.generation ∧ db'.projection = db.projection ∨
    db.generation < db'.generation ∧
      (db.activeGrant.isSome = true → db'.projection.state = .dirty)
  gone : ∀ id, db.hasPrivate id = true → db'.hasPrivate id = false →
    db.generation < db'.generation
  kept : ∀ id, db'.hasPrivate id = true →
    db.generation < db'.generation ∧ Drawn db db' id ∨ Unchanged db db' id

/-- A change that still has to advance the generation. -/
structure Marked (db db' : Db) : Prop where
  draws_le : db.draws ≤ db'.draws
  generation_le : db.generation ≤ db'.generation
  grants : db'.grants = db.grants
  kept : ∀ id, db'.hasPrivate id = true → Drawn db db' id ∨ Unchanged db db' id

/-- New tokens for the records of `S`, and nothing else but their instants. -/
structure Rotated (S : String → Prop) (db db' : Db) : Prop where
  contents : db'.toContents = db.toContents
  facts : ∀ id, db'.facts? id = db.facts? id
  draws_le : db.draws ≤ db'.draws
  generation : db'.generation = db.generation
  drawn : ∀ id, S id → (db.facts? id).isSome = true → Drawn db db' id
  other : ∀ id, ¬ S id → db'.version? id = db.version? id

/-- New contents for the records of `S`. -/
structure Rewritten (S : String → Prop) (db db' : Db) : Prop where
  draws : db'.draws = db.draws
  generation : db'.generation = db.generation
  grants : db'.grants = db.grants
  facts : ∀ id, ¬ S id → db'.storedFacts id = db.storedFacts id
  version : ∀ id, ¬ S id → db'.version? id = db.version? id

/-! ### Guarded changes compose -/

omit [Entropy] in
theorem hasPrivate_of_row {db db' : Db} {id : String}
    (h : db'.records.get? id = db.records.get? id) : db'.hasPrivate id = db.hasPrivate id := by
  unfold Contents.hasPrivate
  rw [h]

omit [Entropy] in
theorem hasPrivate_of_facts {db db' : Db} {id : String}
    (h : db'.storedFacts id = db.storedFacts id) : db'.hasPrivate id = db.hasPrivate id :=
  hasPrivate_of_row (congrArg StoredFacts.row h)

omit [Entropy] in
theorem isSome_facts? (db : Db) (id : String) :
    (db.facts? id).isSome = (db.lifecycle.get? id).isSome := by
  simp [facts?]

theorem Drawn.widen (h : Drawn db₁ db₂ id) (hfirst : db.draws ≤ db₁.draws)
    (hlast : db₂.draws ≤ db'.draws) (hversion : db'.version? id = db₂.version? id) :
    Drawn db db' id := by
  obtain ⟨n, hfrom, hto, hn⟩ := h
  exact ⟨n, by omega, by omega, hversion.trans hn⟩

theorem Guarded.refl (db : Db) : Guarded db db where
  draws_le := le_rfl
  generation_le := le_rfl
  grants := rfl
  projected := Or.inl ⟨rfl, rfl⟩
  gone := fun id h h' => by rw [h] at h'; cases h'
  kept := fun id h => Or.inr ⟨h, rfl, rfl⟩

theorem Guarded.activeGrant (h : Guarded db db') : db'.activeGrant = db.activeGrant := by
  unfold Contents.activeGrant
  rw [h.grants]

theorem Guarded.trans (h : Guarded db db') (h' : Guarded db' db'') : Guarded db db'' where
  draws_le := h.draws_le.trans h'.draws_le
  generation_le := h.generation_le.trans h'.generation_le
  grants := h'.grants.trans h.grants
  projected := by
    have hgrant := h.activeGrant
    rcases h'.projected with ⟨hgeneration, hprojection⟩ | ⟨hgeneration, hdirty⟩
    · rw [hgeneration, hprojection]
      exact h.projected
    · refine Or.inr ⟨lt_of_le_of_lt h.generation_le hgeneration, fun hactive => hdirty ?_⟩
      rw [hgrant]
      exact hactive
  gone := fun id hbefore hafter => by
    cases hmid : db'.hasPrivate id with
    | false => exact lt_of_lt_of_le (h.gone id hbefore hmid) h'.generation_le
    | true => exact lt_of_le_of_lt h.generation_le (h'.gone id hmid hafter)
  kept := fun id hafter => by
    rcases h'.kept id hafter with ⟨hgeneration, hdrawn⟩ | hsame'
    · exact Or.inl ⟨lt_of_le_of_lt h.generation_le hgeneration,
        hdrawn.widen h.draws_le le_rfl rfl⟩
    · rcases h.kept id hsame'.isPrivate with ⟨hgeneration, hdrawn⟩ | hsame
      · exact Or.inl ⟨lt_of_lt_of_le hgeneration h'.generation_le,
          hdrawn.widen le_rfl h'.draws_le hsame'.version⟩
      · exact Or.inr ⟨hsame.isPrivate, hsame'.facts.trans hsame.facts,
          hsame'.version.trans hsame.version⟩

theorem Guarded.marked (h : Guarded db db') : Marked db db' where
  draws_le := h.draws_le
  generation_le := h.generation_le
  grants := h.grants
  kept := fun id hprivate => (h.kept id hprivate).imp And.right fun h => h

/-- A change of what no private record holds. -/
theorem guarded_of_unchanged (hdraws : db.draws ≤ db'.draws)
    (hgeneration : db'.generation = db.generation) (hprojection : db'.projection = db.projection)
    (hgrants : db'.grants = db.grants)
    (hprivate : ∀ id, db'.hasPrivate id = db.hasPrivate id)
    (hfacts : ∀ id, db.hasPrivate id = true → db'.storedFacts id = db.storedFacts id)
    (hversion : ∀ id, db.hasPrivate id = true → db'.version? id = db.version? id) :
    Guarded db db' where
  draws_le := hdraws
  generation_le := hgeneration.ge
  grants := hgrants
  projected := Or.inl ⟨hgeneration, hprojection⟩
  gone := fun id h h' => by rw [hprivate, h] at h'; cases h'
  kept := fun id h => by
    have h := (hprivate id).symm.trans h
    exact Or.inr ⟨h, hfacts id h, hversion id h⟩

/-! ### Contents, tokens, generation -/

/-- The touch at the end of a trigger completes a marked change. -/
theorem Marked.touch (h : Marked db db') : Guarded db db'.touch where
  draws_le := by
    have := h.draws_le
    simp only [Db.touch, setGeneration, rotateRevision]
    omega
  generation_le := h.generation_le.trans (Nat.le_succ _)
  grants := h.grants
  projected := by
    refine Or.inr ⟨Nat.lt_succ_of_le h.generation_le, fun hactive => ?_⟩
    have hgrant : db'.activeGrant = db.activeGrant := by
      unfold Contents.activeGrant
      rw [h.grants]
    rw [← hgrant] at hactive
    obtain ⟨g, hg⟩ := Option.isSome_iff_exists.1 hactive
    simp [Db.touch, setGeneration, rotateRevision, dirtyProjection, hg]
  gone := fun _ _ _ => Nat.lt_succ_of_le h.generation_le
  kept := fun id hprivate => by
    refine (h.kept id hprivate).imp (fun hdrawn => ?_) fun hsame => ?_
    · refine ⟨Nat.lt_succ_of_le h.generation_le, hdrawn.widen le_rfl ?_ rfl⟩
      simp only [Db.touch, setGeneration, rotateRevision]
      omega
    · exact ⟨hsame.isPrivate, hsame.facts, hsame.version⟩

theorem rotated_rotateVersion (db : Db) (id : String) :
    Rotated (· = id) db (db.rotateVersion id) where
  contents := rfl
  facts := fun _ => facts?_rotateVersion db _ _
  draws_le := Nat.le_succ _
  generation := rfl
  drawn := by
    rintro _ rfl hrow
    rw [isSome_facts?] at hrow
    obtain ⟨s, hs⟩ := Option.isSome_iff_exists.1 hrow
    exact ⟨db.draws, le_rfl, Nat.lt_succ_self _, by simp [version?, rotateVersion, hs]⟩
  other := fun k hk => by
    rw [version?, rotateVersion, Table.get?_update_of_ne _ _ _ (Ne.symm hk)]
    rfl

theorem rotated_stampLifecycle (db : Db) (id createdAt : String) :
    Rotated (· = id) db (db.stampLifecycle id createdAt) where
  contents := rfl
  facts := fun _ => facts?_stampLifecycle db _ _ _
  draws_le := Nat.le_succ _
  generation := rfl
  drawn := by
    rintro _ rfl hrow
    rw [isSome_facts?] at hrow
    obtain ⟨s, hs⟩ := Option.isSome_iff_exists.1 hrow
    exact ⟨db.draws, le_rfl, Nat.lt_succ_self _, by simp [version?, stampLifecycle, hs]⟩
  other := fun k hk => by
    rw [version?, stampLifecycle, Table.get?_update_of_ne _ _ _ (Ne.symm hk)]
    rfl

theorem Rotated.trans (h : Rotated S db db₁) (h' : Rotated T db₁ db₂) :
    Rotated (fun id => S id ∨ T id) db db₂ where
  contents := h'.contents.trans h.contents
  facts := fun id => (h'.facts id).trans (h.facts id)
  draws_le := h.draws_le.trans h'.draws_le
  generation := h'.generation.trans h.generation
  drawn := fun id hid hrow => by
    by_cases hT : T id
    · exact (h'.drawn id hT (by rw [h.facts]; exact hrow)).widen h.draws_le le_rfl rfl
    · exact (h.drawn id (hid.resolve_right hT) hrow).widen le_rfl h'.draws_le (h'.other id hT)
  other := fun id hid =>
    (h'.other id fun hT => hid (Or.inr hT)).trans (h.other id fun hS => hid (Or.inl hS))

theorem rotated_rotateVersions (db : Db) (a b : String) :
    Rotated (fun id => id = a ∨ id = b) db (db.rotateVersions a b) := by
  unfold rotateVersions
  split
  · rename_i hab
    subst hab
    have h := rotated_rotateVersion db a
    exact { h with
      drawn := fun id hid => h.drawn id (or_self_iff.1 hid)
      other := fun id hid => h.other id fun heq => hid (Or.inl heq) }
  · exact (rotated_rotateVersion db a).trans (rotated_rotateVersion _ b)

omit [Entropy] in
theorem storedFacts_congr {db db' : Db} {id : String} (hcontents : db'.toContents = db.toContents)
    (hfacts : db'.facts? id = db.facts? id) : db'.storedFacts id = db.storedFacts id := by
  simp only [storedFacts, hcontents, hfacts]

/-- New contents for some records and new tokens for the same ones. -/
theorem Rewritten.marked (h : Rewritten S db db₁) (hrotated : Rotated S db₁ db₂)
    (hcovered : ∀ id, S id → db₁.hasPrivate id = true → (db₁.facts? id).isSome = true) :
    Marked db db₂ where
  draws_le := h.draws ▸ hrotated.draws_le
  generation_le := by rw [hrotated.generation, h.generation]
  grants := by rw [hrotated.contents, h.grants]
  kept := fun id hprivate => by
    have hsame : db₂.hasPrivate id = db₁.hasPrivate id := by rw [hrotated.contents]
    rw [hsame] at hprivate
    by_cases hS : S id
    · exact Or.inl ((hrotated.drawn id hS (hcovered id hS hprivate)).widen h.draws.ge le_rfl rfl)
    · have hfacts := h.facts id hS
      refine Or.inr ⟨(hasPrivate_of_facts hfacts).symm.trans hprivate, ?_, ?_⟩
      · exact (storedFacts_congr hrotated.contents (hrotated.facts id)).trans hfacts
      · exact (hrotated.other id hS).trans (h.version id hS)

/-! ### Tags, paths and capture -/

omit [Entropy] in
theorem covered_of_facts (hcovered : db.Covered) (hrecords : db'.records = db.records)
    (hfacts : ∀ id, db'.facts? id = db.facts? id) : db'.Covered := fun id => by
  rw [← isSome_facts?, hfacts, isSome_facts?, hcovered id]
  exact (hasPrivate_of_row (by rw [hrecords])).symm

theorem Covered.touch (h : db.Covered) : db.touch.Covered := covered_of_facts h rfl fun _ => rfl

omit [Entropy] in
theorem Rewritten.mono (h : Rewritten S db db') (hST : ∀ id, S id → T id) :
    Rewritten T db db' where
  draws := h.draws
  generation := h.generation
  grants := h.grants
  facts := fun id hid => h.facts id fun hS => hid (hST id hS)
  version := fun id hid => h.version id fun hS => hid (hST id hS)

theorem Rewritten.guarded (h : Rewritten S db db') (hprojection : db'.projection = db.projection)
    (hnone : ∀ id, S id → db.hasPrivate id = false ∧ db'.hasPrivate id = false) :
    Guarded db db' := by
  have hpublic : ∀ id, db.hasPrivate id = true → ¬ S id := by
    intro id hprivate hS
    rw [(hnone id hS).1] at hprivate
    cases hprivate
  refine guarded_of_unchanged h.draws.ge h.generation hprojection h.grants (fun id => ?_)
    (fun id hprivate => h.facts id (hpublic id hprivate))
    fun id hprivate => h.version id (hpublic id hprivate)
  by_cases hS : S id
  · rw [(hnone id hS).1, (hnone id hS).2]
  · exact hasPrivate_of_facts (h.facts id hS)

/-- The contents of a child table changed for the records `a` and `b`. -/
structure ChildRewritten (S : String → Prop) (db db' : Db) : Prop extends Rewritten S db db' where
  records : db'.records = db.records
  lifecycle : db'.lifecycle = db.lifecycle
  projection : db'.projection = db.projection

omit [Entropy] in
theorem ChildRewritten.hasPrivate (h : ChildRewritten S db db') (id : String) :
    db'.hasPrivate id = db.hasPrivate id := hasPrivate_of_row (by rw [h.records])

omit [Entropy] in
theorem ChildRewritten.facts? (h : ChildRewritten S db db') (id : String) :
    db'.facts? id = db.facts? id := by rw [Db.facts?, h.lifecycle, Db.facts?]

theorem ChildRewritten.guarded_childTouched (hcovered : db.Covered)
    (h : ChildRewritten (fun id => id = a ∨ id = b) db db₁) :
    Guarded db (db₁.childTouched a b) := by
  unfold childTouched
  split
  · refine Marked.touch (h.toRewritten.marked (rotated_rotateVersions db₁ a b) ?_)
    intro id _ hprivate
    rw [h.facts?, isSome_facts?, hcovered id, ← h.hasPrivate id]
    exact hprivate
  · rename_i hnone
    simp only [Bool.or_eq_true, not_or, Bool.not_eq_true] at hnone
    refine h.toRewritten.guarded h.projection fun id hid => ?_
    rw [← h.hasPrivate id]
    rcases hid with rfl | rfl
    · exact ⟨hnone.1, hnone.1⟩
    · exact ⟨hnone.2, hnone.2⟩

theorem ChildRewritten.guarded_childChanged {before after : Option String} (hcovered : db.Covered)
    (h : ChildRewritten (fun id => before = some id ∨ after = some id) db db₁) :
    Guarded db (db₁.childChanged before after) ∧ (db₁.childChanged before after).Covered := by
  have htouched : ∀ a b, (∀ id, before = some id ∨ after = some id → id = a ∨ id = b) →
      Guarded db (db₁.childTouched a b) ∧ (db₁.childTouched a b).Covered := by
    intro a b hends
    refine ⟨ChildRewritten.guarded_childTouched hcovered
      { h with toRewritten := h.toRewritten.mono hends }, ?_⟩
    refine covered_of_facts hcovered ?_ fun id => ?_
    · rw [toContents_childTouched, h.records]
    · rw [facts?_childTouched, h.facts?]
  match before, after with
  | none, none =>
      refine ⟨h.toRewritten.guarded h.projection fun id hid => ?_,
        covered_of_facts hcovered h.records h.facts?⟩
      rcases hid with hid | hid <;> cases hid
  | none, some b => exact htouched b b fun id hid => by simpa [eq_comm] using hid
  | some a, none => exact htouched a a fun id hid => by simpa [eq_comm] using hid
  | some a, some b => exact htouched a b fun id hid => by simpa [eq_comm] using hid

omit [Entropy] in
/-- A row of a child table is filtered out for a record it does not belong to. -/
theorem owner_ne {ρ : Type} {owner : ρ → String} {row : Option ρ} {id : String}
    (h : row.map owner ≠ some id) (r : ρ) (hr : row = some r) : owner r ≠ id := by
  rintro rfl
  exact h (by rw [hr]; rfl)

theorem guarded_changeTag {c : RowChange MemoryTag (String × String)} (hcovered : db.Covered)
    (h : db.changeTag c = .ok db') : Guarded db db' ∧ db'.Covered := by
  simp only [changeTag, bind_eq_ok, ensure_eq_ok, exists_const, require_eq_ok,
    Except.ok.injEq] at h
  obtain ⟨-, tags, htags, rfl⟩ := h
  refine ChildRewritten.guarded_childChanged hcovered
    ⟨⟨rfl, rfl, rfl, fun id hid => ?_, fun _ _ => rfl⟩, rfl, rfl, rfl⟩
  rw [not_or] at hid
  simp only [storedFacts, StoredFacts.mk.injEq, true_and, and_true]
  refine ⟨RowChange.filter_change? htags (fun r hr => ?_) fun r hr => ?_, rfl⟩
  · exact decide_eq_false (owner_ne hid.1 r hr)
  · exact decide_eq_false (owner_ne hid.2 r hr)

theorem guarded_changePath {c : RowChange MemoryPath String} (hcovered : db.Covered)
    (h : db.changePath c = .ok db') : Guarded db db' ∧ db'.Covered := by
  simp only [changePath, bind_eq_ok, ensure_eq_ok, exists_const, require_eq_ok,
    Except.ok.injEq] at h
  obtain ⟨-, paths, hpaths, rfl⟩ := h
  refine ChildRewritten.guarded_childChanged hcovered
    ⟨⟨rfl, rfl, rfl, fun id hid => ?_, fun _ _ => rfl⟩, rfl, rfl, rfl⟩
  rw [not_or] at hid
  simp only [storedFacts, StoredFacts.mk.injEq, true_and, and_true]
  refine ⟨RowChange.filter_change? hpaths (fun r hr => ?_) fun r hr => ?_, rfl⟩
  · exact decide_eq_false (owner_ne hid.1 r hr)
  · exact decide_eq_false (owner_ne hid.2 r hr)

theorem guarded_changeCapture {c : RowChange MemoryCapture String} (hcovered : db.Covered)
    (h : db.changeCapture c = .ok db') : Guarded db db' ∧ db'.Covered := by
  simp only [changeCapture, bind_eq_ok, require_eq_ok, Except.ok.injEq] at h
  obtain ⟨captures, hcaptures, rfl⟩ := h
  refine ChildRewritten.guarded_childChanged hcovered
    ⟨⟨rfl, rfl, rfl, fun id hid => ?_, fun _ _ => rfl⟩, rfl, rfl, rfl⟩
  rw [not_or] at hid
  simp only [storedFacts, StoredFacts.mk.injEq, true_and, and_true]
  refine ⟨RowChange.get?_change? hcaptures (fun r hr => ?_) fun r hr => ?_, rfl⟩
  · exact owner_ne hid.1 r hr
  · exact owner_ne hid.2 r hr

/-! ### Lifecycle rows and relations -/

/-- An update of a lifecycle row that names a watched column. -/
theorem guarded_updateLifecycle {s : PrivateLifecycleState} (hcovered : db.Covered)
    (h : db.changeLifecycle true (.update s.recordId s) = .ok db') :
    Guarded db db' ∧ db'.Covered := by
  simp only [changeLifecycle, if_true] at h
  split at h
  · cases h
    exact ⟨Guarded.refl db, hcovered⟩
  · rename_i old hold
    simp only [Table.replace?_same, require_some, bind_eq_ok, ensure_eq_ok, exists_const,
      Except.ok.injEq, exists_eq_left'] at h
    obtain ⟨-, rfl⟩ := h
    have hget : ∀ id, (db.lifecycle.set s).get? id =
        if s.recordId = id then some s else db.lifecycle.get? id := by
      intro id
      rw [Table.get?_set]
      split
      · rename_i hid
        rw [← hid, hold]
        rfl
      · rfl
    have hpart : ∀ id, ¬ id = s.recordId → (db.lifecycle.set s).get? id = db.lifecycle.get? id :=
      fun id hid => by rw [hget, if_neg (Ne.symm hid)]
    have hrotated := rotated_rotateVersion { db with lifecycle := db.lifecycle.set s } s.recordId
    refine ⟨Marked.touch (Rewritten.marked ?_ hrotated fun id hid _ => ?_), fun id => ?_⟩
    · refine ⟨rfl, rfl, rfl, fun id hid => storedFacts_congr rfl ?_, fun id hid => ?_⟩
      · rw [facts?, hpart id hid, facts?]
      · rw [version?, hpart id hid, version?]
    · rw [facts?, hget, if_pos (Eq.symm hid)]
      rfl
    · rw [← isSome_facts?, facts?_touch, facts?_rotateVersion, facts?, hget, Option.isSome_map]
      have hprivate := hcovered id
      split
      · rename_i hid
        rw [← hid, hold] at hprivate
        rw [← hid]
        exact hprivate
      · exact hprivate

/-- An update of the token or the instant alone leaves everything stored as it was. -/
theorem storedFacts_changeLifecycle {c : RowChange PrivateLifecycleState String}
    (hkeeps : ∃ k s, c = .update k s ∧ s.recordId = k) (hcovered : db.Covered)
    (h : db.changeLifecycle false c = .ok db') :
    (∀ id, db'.storedFacts id = db.storedFacts id) ∧ db'.Covered ∧
      db'.generation = db.generation ∧ db'.projection = db.projection ∧
        db'.grants = db.grants ∧ db'.draws = db.draws := by
  obtain ⟨k, s, rfl, rfl⟩ := hkeeps
  simp only [changeLifecycle, Bool.false_eq_true, if_false] at h
  split at h
  · cases h
    exact ⟨fun _ => rfl, hcovered, rfl, rfl, rfl, rfl⟩
  · rename_i old hold
    simp only [Table.replace?_same, require_some, bind_eq_ok, ensure_eq_ok, exists_const,
      Except.ok.injEq, exists_eq_left'] at h
    obtain ⟨-, rfl⟩ := h
    have hfacts : ∀ id, Db.facts? { db with
        lifecycle := db.lifecycle.set { s with toLifecycleFacts := old.toLifecycleFacts } } id =
          db.facts? id := by
      intro id
      simp only [facts?, Table.get?_set]
      split
      · rename_i hid
        rw [← hid, hold]
        rfl
      · rfl
    refine ⟨fun id => storedFacts_congr rfl (hfacts id), covered_of_facts hcovered rfl hfacts,
      rfl, rfl, rfl, rfl⟩

theorem guarded_insertRelation {r : PrivateLifecycleRelation} (hcovered : db.Covered)
    (h : db.insertRelation r = .ok db') : Guarded db db' ∧ db'.Covered := by
  simp only [insertRelation, bind_eq_ok, ensure_eq_ok, exists_const, require_eq_ok,
    Except.ok.injEq] at h
  obtain ⟨-, -, -, relations, hrelations, rfl⟩ := h
  have hrotated := (rotated_stampLifecycle { db with relations := relations } r.subjectRecordId
    r.createdAt).trans (rotated_stampLifecycle _ r.relatedRecordId r.createdAt)
  refine ⟨Marked.touch (Rewritten.marked ?_ hrotated fun id _ hprivate => ?_),
    covered_of_facts hcovered rfl fun id => ?_⟩
  · refine ⟨rfl, rfl, rfl, fun id hid => ?_, fun _ _ => rfl⟩
    rw [not_or] at hid
    simp only [storedFacts, StoredFacts.mk.injEq, true_and]
    exact ⟨rfl, Table.filter_insert? hrelations (by simp [Ne.symm hid.1, Ne.symm hid.2])⟩
  · rw [isSome_facts?]
    exact (hcovered id).trans hprivate
  · rw [facts?_touch, facts?_stampLifecycle, facts?_stampLifecycle, facts?, facts?]

/-- Every private record has a lifecycle row. -/
def Lifecycled (db : Db) : Prop := ∀ id, db.hasPrivate id = true → (db.facts? id).isSome = true

omit [Entropy] in
theorem Covered.lifecycled (h : db.Covered) : db.Lifecycled := fun id hprivate => by
  rw [isSome_facts?, h id]
  exact hprivate

/-- A deleted relation, whose row is the only one under its id. -/
theorem guarded_deleteRelation {r : PrivateLifecycleRelation} (hlifecycled : db.Lifecycled)
    (honly : ∀ r' ∈ db.relations.rows, r'.id = r.id → r' = r) :
    Guarded db (db.deleteRelation r) := by
  have hrotated := rotated_rotateVersions { db with relations := db.relations.erase r.id }
    r.subjectRecordId r.relatedRecordId
  refine Marked.touch (Rewritten.marked ?_ hrotated fun id _ hprivate => hlifecycled id hprivate)
  refine ⟨rfl, rfl, rfl, fun id hid => ?_, fun _ _ => rfl⟩
  rw [not_or] at hid
  simp only [storedFacts, StoredFacts.mk.injEq, true_and]
  refine ⟨rfl, Table.filter_deleteWhere fun r' hr' hk => ?_⟩
  rw [honly r' hr' (of_decide_eq_true hk)]
  simp [Ne.symm hid.1, Ne.symm hid.2]

theorem toContents_deleteRelation (db : Db) (r : PrivateLifecycleRelation) :
    (db.deleteRelation r).toContents =
      { db.toContents with relations := db.relations.erase r.id } := by
  rw [deleteRelation, toContents_touch, toContents_rotateVersions]

theorem facts?_deleteRelation (db : Db) (r : PrivateLifecycleRelation) (id : String) :
    (db.deleteRelation r).facts? id = db.facts? id := by
  rw [deleteRelation, facts?_touch, facts?_rotateVersions]
  rfl

theorem guarded_changeRelation {c : RowChange PrivateLifecycleRelation String}
    (hcovered : db.Covered) (h : db.changeRelation c = .ok db') :
    Guarded db db' ∧ db'.Covered := by
  cases c with
  | insert r => exact guarded_insertRelation hcovered h
  | update k r =>
      simp only [changeRelation] at h
      split at h
      · cases h
        exact ⟨Guarded.refl db, hcovered⟩
      · exact absurd h bail_ne_ok
  | delete k =>
      simp only [changeRelation] at h
      split at h
      · cases h
        exact ⟨Guarded.refl db, hcovered⟩
      · rename_i r hr
        cases h
        obtain ⟨hmem, rfl⟩ := Table.get?_eq_some.1 hr
        refine ⟨guarded_deleteRelation hcovered.lifecycled fun r' hr' hid =>
          Table.eq_of_key hr' hmem hid, covered_of_facts hcovered ?_ (facts?_deleteRelation db r)⟩
        rw [toContents_deleteRelation]

/-! ### Inserted and updated records -/

theorem upsertLifecycle_drawn {new : MemoryRecord} (h : db.upsertLifecycle new = .ok db') :
    db'.draws = db.draws + 1 ∧ db'.generation = db.generation ∧ ∀ k, db'.version? k =
      if new.id = k then some (Entropy.blob db.draws) else db.version? k := by
  unfold upsertLifecycle at h
  split at h
  · simp only [insertLifecycle, bind_eq_ok, ensure_eq_ok, exists_const, require_eq_ok,
      Except.ok.injEq] at h
    obtain ⟨-, -, lifecycle, hinsert, rfl⟩ := h
    refine ⟨rfl, rfl, fun k => ?_⟩
    have hid : (newLifecycle db new).recordId = new.id := rfl
    simp only [version?, Table.get?_insert? hinsert, hid]
    split <;> rfl
  · rename_i s hs
    obtain ⟨-, h⟩ := check_bind_eq_ok.1 h
    cases h
    refine ⟨rfl, rfl, fun k => ?_⟩
    have hid : s.recordId = new.id := Table.key_of_get? hs
    simp only [version?, Table.get?_set, hid]
    split
    · rename_i hk
      rw [← hk, hs]
      rfl
    · rfl

omit [Entropy] in
theorem hasPrivate_eq_false_of_none (h : db.records.get? id = none) :
    db.hasPrivate id = false := by
  unfold Contents.hasPrivate
  rw [h]

/-- A record that is private after the change of its row. -/
theorem guarded_upsert {records : Table MemoryRecord.id} {new : MemoryRecord}
    (hcovered : db.Covered) (hprivate : new.destination.isPrivate = true)
    (hnew : records.get? new.id = some new)
    (hother : ∀ k, new.id ≠ k → records.get? k = db.records.get? k ∨
      records.get? k = none ∧ db.hasPrivate k = false)
    (h : { db with records := records }.upsertLifecycle new = .ok db₁) :
    Guarded db db₁.touch ∧ db₁.touch.Covered := by
  obtain ⟨hcontents, hfacts⟩ := upsertLifecycle_ok h
  obtain ⟨hdrawn, hgeneration, hversion⟩ := upsertLifecycle_drawn h
  have hdraws : db₁.draws = db.draws + 1 := hdrawn
  have hrecords : db₁.records = records := congrArg Contents.records hcontents
  refine ⟨Marked.touch ⟨by omega, hgeneration.ge, by rw [hcontents], fun k hk => ?_⟩,
    fun k => ?_⟩
  · by_cases hid : new.id = k
    · refine Or.inl ⟨db.draws, le_rfl, by omega, ?_⟩
      rw [hversion, if_pos hid]
    · rcases hother k hid with hsame | ⟨hnone, -⟩
      · refine Or.inr ⟨?_, ?_, ?_⟩
        · rw [← hk]
          exact (hasPrivate_of_row (by rw [hrecords, hsame])).symm
        · simp only [storedFacts, hfacts k, if_neg hid, hcontents, hsame]
          rfl
        · rw [hversion, if_neg hid]
          rfl
      · rw [hasPrivate_eq_false_of_none (hrecords ▸ hnone)] at hk
        cases hk
  · rw [← isSome_facts?, facts?_touch, hfacts]
    by_cases hid : new.id = k
    · subst hid
      rw [if_pos rfl]
      unfold Contents.hasPrivate
      rw [toContents_touch, hrecords, hnew]
      exact hprivate.symm
    · rw [if_neg hid]
      have hbefore : (Db.facts? { db with records := records } k).isSome = db.hasPrivate k :=
        (isSome_facts? db k).trans (hcovered k)
      rw [hbefore]
      rcases hother k hid with hsame | ⟨hnone, hpublic⟩
      · exact (hasPrivate_of_row (by rw [toContents_touch, hrecords, hsame])).symm
      · rw [hpublic]
        exact (hasPrivate_eq_false_of_none (hrecords ▸ hnone)).symm

/-- A record that is private no more keeps no lifecycle row. -/
theorem guarded_unlisted {records : Table MemoryRecord.id} {new : MemoryRecord}
    (hcovered : db.Covered) (hpublic : new.destination.isPrivate = false)
    (hnew : records.get? new.id = some new)
    (hother : ∀ k, new.id ≠ k → records.get? k = db.records.get? k) :
    let db₁ := ({ db with records := records }.deleteLifecycle new.id).touch
    Guarded db db₁ ∧ db₁.Covered := by
  intro db₁
  have hgone : ∀ k, new.id = k → Contents.hasPrivate { db.toContents with records := records } k =
      false := by
    rintro k rfl
    simp only [Contents.hasPrivate, hnew]
    exact hpublic
  have herased : Marked db { db with records := records, lifecycle := db.lifecycle.erase new.id } := by
    refine ⟨le_rfl, le_rfl, rfl, fun k hk => ?_⟩
    by_cases hid : new.id = k
    · exact absurd (hk.symm.trans (hgone k hid)) (by decide)
    · have hlifecycle := Table.get?_erase_of_ne db.lifecycle hid
      refine Or.inr ⟨?_, ?_, ?_⟩
      · rw [← hk]
        exact (hasPrivate_of_row (hother k hid)).symm
      · simp only [storedFacts, facts?, hother k hid, hlifecycle]
      · simp only [version?, hlifecycle]
  have hcov : ∀ k, ((db.lifecycle.erase new.id).get? k).isSome =
      Contents.hasPrivate { db.toContents with records := records } k := by
    intro k
    by_cases hid : new.id = k
    · rw [hgone k hid, ← hid, Table.get?_erase_self]
      rfl
    · rw [Table.get?_erase_of_ne _ hid, hcovered k]
      simp only [Contents.hasPrivate, hother k hid]
  simp only [db₁, deleteLifecycle]
  split
  · exact ⟨herased.touch.marked.touch, hcov⟩
  · exact ⟨herased.touch, hcov⟩

theorem guarded_insertRecord {r : MemoryRecord} (hcovered : db.Covered)
    (h : db.changeRecord (.insert r) = .ok db') : Guarded db db' ∧ db'.Covered := by
  simp only [changeRecord, bind_eq_ok, ensure_eq_ok, exists_const, require_eq_ok] at h
  obtain ⟨-, records, hrecords, h⟩ := h
  have hfresh := Table.insert?_fresh hrecords
  have hget := Table.get?_insert? hrecords
  have hnew : records.get? r.id = some r := by rw [hget, if_pos rfl]
  have hother : ∀ k, r.id ≠ k → records.get? k = db.records.get? k :=
    fun k hk => by rw [hget, if_neg hk]
  have hnone : db.hasPrivate r.id = false := hasPrivate_eq_false_of_none hfresh
  simp only [recordInserted] at h
  split at h
  · rename_i hprivate
    obtain ⟨db₁, hinsert, h⟩ := bind_eq_ok.1 h
    cases h
    refine guarded_upsert hcovered hprivate hnew (fun k hk => Or.inl (hother k hk)) ?_
    have hrow : db.lifecycle.get? r.id = none := by
      have hc := hcovered r.id
      rw [hnone] at hc
      exact Option.isNone_iff_eq_none.1 (by simpa using hc)
    simp only [upsertLifecycle, hrow]
    exact hinsert
  · rename_i hpublic
    cases h
    have hpart : ∀ k, Contents.hasPrivate { db.toContents with records := records } k =
        db.hasPrivate k := by
      intro k
      by_cases hk : r.id = k
      · subst hk
        rw [hnone]
        simp only [Contents.hasPrivate, hnew]
        exact Bool.not_eq_true _ ▸ hpublic
      · simp only [Contents.hasPrivate, hother k hk]
    refine ⟨guarded_of_unchanged le_rfl rfl rfl rfl hpart (fun k hk => ?_) fun _ _ => rfl,
      fun k => (hcovered k).trans (hpart k).symm⟩
    have hk : r.id ≠ k := by
      rintro rfl
      rw [hnone] at hk
      cases hk
    simp only [storedFacts, hother k hk]
    rfl

/-- An updated record that keeps its id, or was not private. -/
theorem guarded_updateRecord {new : MemoryRecord} (hcovered : db.Covered)
    (hkeeps : ∀ old, db.records.get? id = some old →
      new.id = id ∨ old.destination.isPrivate = false)
    (h : db.changeRecord (.update id new) = .ok db') : Guarded db db' ∧ db'.Covered := by
  simp only [changeRecord] at h
  split at h
  · cases h
    exact ⟨Guarded.refl db, hcovered⟩
  rename_i old hold
  simp only [bind_eq_ok, ensure_eq_ok, exists_const, require_eq_ok] at h
  obtain ⟨-, records, hrecords, h⟩ := h
  have hget := Table.get?_replace? hold hrecords
  have hnew : records.get? new.id = some new := by rw [hget, if_pos rfl]
  have holdPrivate : db.hasPrivate id = old.destination.isPrivate := by
    simp only [Contents.hasPrivate, hold]
  have hother : ∀ k, new.id ≠ k → records.get? k = db.records.get? k ∨
      records.get? k = none ∧ db.hasPrivate k = false := by
    intro k hk
    by_cases hid : id = k
    · refine Or.inr ⟨by rw [hget, if_neg hk, if_pos hid], ?_⟩
      rw [← hid, holdPrivate]
      exact (hkeeps old hold).resolve_left fun hsame => hk (hsame.trans hid)
    · exact Or.inl (by rw [hget, if_neg hk, if_neg hid])
  simp only [recordUpdated] at h
  split at h
  · rename_i hprivate
    obtain ⟨db₁, hupsert, h⟩ := bind_eq_ok.1 h
    cases h
    exact guarded_upsert hcovered hprivate hnew hother hupsert
  rename_i hpublic
  rw [Bool.not_eq_true] at hpublic
  split at h
  · rename_i hprivate
    cases h
    have hsame : new.id = id := (hkeeps old hold).resolve_right (by simp [hprivate])
    refine guarded_unlisted hcovered hpublic hnew fun k hk => ?_
    rw [hget, if_neg hk, if_neg (hsame ▸ hk)]
  · rename_i holdPublic
    cases h
    rw [Bool.not_eq_true] at holdPublic
    have hbefore : db.hasPrivate new.id = false := by
      by_cases hsame : new.id = id
      · rw [hsame, holdPrivate, holdPublic]
      · exact hasPrivate_eq_false_of_none (Table.replace?_fresh hsame hrecords)
    have hpart : ∀ k, Contents.hasPrivate { db.toContents with records := records } k =
        db.hasPrivate k := by
      intro k
      by_cases hk : new.id = k
      · subst hk
        rw [hbefore]
        simp only [Contents.hasPrivate, hnew]
        exact hpublic
      · rcases hother k hk with hsame | ⟨hnone, hfalse⟩
        · simp only [Contents.hasPrivate, hsame]
        · rw [hfalse]
          simp only [Contents.hasPrivate, hnone]
    refine ⟨guarded_of_unchanged le_rfl rfl rfl rfl hpart (fun k hk => ?_) fun _ _ => rfl,
      fun k => (hcovered k).trans (hpart k).symm⟩
    have hne : new.id ≠ k := by
      rintro rfl
      rw [hbefore] at hk
      cases hk
    have hsame := (hother k hne).resolve_right fun hnone => by
      rw [hnone.2] at hk
      cases hk
    simp only [storedFacts, hsame]
    rfl

/-! ### Deleted records -/

/-- Draws of the mirror revision change no more than the revision and the number of draws. -/
theorem iterate_rotateRevision (n : Nat) (db : Db) :
    (rotateRevision^[n] db).toContents = db.toContents ∧
      (rotateRevision^[n] db).lifecycle = db.lifecycle ∧
      (rotateRevision^[n] db).projection = db.projection ∧
      (rotateRevision^[n] db).generation = db.generation ∧
      db.draws ≤ (rotateRevision^[n] db).draws := by
  induction n generalizing db with
  | zero => exact ⟨rfl, rfl, rfl, rfl, le_rfl⟩
  | succ n ih =>
      rw [Function.iterate_succ_apply]
      obtain ⟨hcontents, hlifecycle, hprojection, hgeneration, hdraws⟩ := ih db.rotateRevision
      exact ⟨hcontents, hlifecycle, hprojection, hgeneration, (Nat.le_succ _).trans hdraws⟩

theorem guarded_cascadeConflicts (db : Db) (id : String) :
    Guarded db (db.cascadeConflicts id) ∧
      (db.cascadeConflicts id).records = db.records ∧
      (db.cascadeConflicts id).relations = db.relations ∧
      (db.cascadeConflicts id).lifecycle = db.lifecycle := by
  simp only [cascadeConflicts]
  generalize hn : List.length _ + List.length _ = n
  generalize hbase : ({ db with conflictEdges := _, conflictMembers := _ } : Db) = base
  obtain ⟨hcontents, hlifecycle, hprojection, hgeneration, hdraws⟩ :=
    iterate_rotateRevision n base
  subst hbase
  refine ⟨guarded_of_unchanged hdraws hgeneration hprojection (by rw [hcontents])
    (fun k => by rw [hcontents]; rfl) (fun k _ => ?_) (fun k _ => ?_), by rw [hcontents],
    by rw [hcontents], hlifecycle⟩
  · simp only [storedFacts, facts?, hcontents, hlifecycle]
  · rw [version?, hlifecycle, version?]

/-- Relations deleted one after another, each the only row under its id. -/
theorem guarded_deleteRelations (rs : List PrivateLifecycleRelation) (hlifecycled : db.Lifecycled)
    (honly : ∀ r ∈ rs, ∀ r' ∈ db.relations.rows, r'.id = r.id → r' = r) :
    Guarded db (rs.foldl deleteRelation db) ∧
      (rs.foldl deleteRelation db).records = db.records ∧
      ∀ id, (rs.foldl deleteRelation db).facts? id = db.facts? id := by
  induction rs generalizing db with
  | nil => exact ⟨Guarded.refl db, rfl, fun _ => rfl⟩
  | cons r rs ih =>
      have hcontents := toContents_deleteRelation db r
      have hfacts := facts?_deleteRelation db r
      have hstep := guarded_deleteRelation hlifecycled (honly r List.mem_cons_self)
      have hnext : (db.deleteRelation r).Lifecycled := by
        intro id hprivate
        rw [hfacts]
        refine hlifecycled id ?_
        rw [← hprivate]
        exact (hasPrivate_of_row (by rw [hcontents])).symm
      obtain ⟨hguarded, hrecords, hrest⟩ := ih hnext fun r₁ hr₁ r' hr' hid => by
        rw [hcontents] at hr'
        exact honly r₁ (List.mem_cons_of_mem r hr₁) r' (Table.mem_deleteWhere.1 hr').1 hid
      refine ⟨hstep.trans hguarded, ?_, fun id => (hrest id).trans (hfacts id)⟩
      rw [List.foldl_cons, hrecords, hcontents]

theorem guarded_cascadeRelations (hlifecycled : db.Lifecycled) (id : String) :
    Guarded db (db.cascadeRelations id) ∧ (db.cascadeRelations id).records = db.records ∧
      ∀ k, (db.cascadeRelations id).facts? k = db.facts? k := by
  unfold cascadeRelations
  refine guarded_deleteRelations _ hlifecycled fun r hr r' hr' hid => ?_
  have hmem : r ∈ db.relations.rows := by
    rcases List.mem_append.1 hr with hr | hr <;> exact List.mem_of_mem_filter hr
  exact Table.eq_of_key hr' hmem hid

/-- The lifecycle row and the children of a record that is gone. -/
theorem guarded_cascadeRest (hrow : db.records.get? id = none) :
    let db₁ := (db.deleteLifecycle id).cascadeChildren id
    Guarded db db₁ ∧ db₁.records = db.records ∧
      ∀ k, db₁.facts? k = if id = k then none else db.facts? k := by
  intro db₁
  have hrecord : db.hasRecord id = false := by rw [Contents.hasRecord, hrow]; rfl
  have hlifecycle : db₁.lifecycle = db.lifecycle.erase id := by
    simp only [db₁, deleteLifecycle, cascadeChildren, hrecord, Bool.and_false, if_false,
      Bool.false_eq_true]
  have hdb₁ : db₁ = ({ db with lifecycle := db.lifecycle.erase id } : Db).cascadeChildren id := by
    simp only [db₁, deleteLifecycle, hrecord, Bool.and_false, if_false, Bool.false_eq_true]
  have hne : ∀ k, db.hasPrivate k = true → id ≠ k := by
    rintro k hk rfl
    rw [hasPrivate_eq_false_of_none hrow] at hk
    cases hk
  have hfacts : ∀ k, db₁.facts? k = if id = k then none else db.facts? k := by
    intro k
    rw [facts?, hlifecycle, Table.get?_erase]
    split <;> rfl
  refine ⟨guarded_of_unchanged ?_ ?_ ?_ ?_ (fun k => ?_) (fun k hk => ?_) fun k hk => ?_, ?_,
    hfacts⟩
  · rw [hdb₁]; exact le_rfl
  · rw [hdb₁]; rfl
  · rw [hdb₁]; rfl
  · rw [hdb₁]; rfl
  · rw [hdb₁]; rfl
  · have hk := hne k hk
    have htags : db₁.tags.rows.filter (fun t => t.recordId = k) =
        db.tags.rows.filter fun t => t.recordId = k := by
      rw [hdb₁]
      refine Table.filter_deleteWhere fun t _ ht => ?_
      rw [decide_eq_true_eq] at ht
      simp [ht, hk]
    have hpaths : db₁.paths.rows.filter (fun p => p.recordId = k) =
        db.paths.rows.filter fun p => p.recordId = k := by
      rw [hdb₁]
      refine Table.filter_deleteWhere fun p _ hp => ?_
      rw [decide_eq_true_eq] at hp
      simp [hp, hk]
    have hcapture : db₁.captures.get? k = db.captures.get? k := by
      rw [hdb₁]
      exact Table.get?_erase_of_ne _ hk
    have hrows : db₁.records = db.records ∧ db₁.relations = db.relations := by
      rw [hdb₁]
      exact ⟨rfl, rfl⟩
    simp only [storedFacts, htags, hpaths, hcapture, hrows.1, hrows.2, hfacts k, if_neg hk]
  · rw [version?, hlifecycle, Table.get?_erase_of_ne _ (hne k hk), version?]
  · rw [hdb₁]; rfl

/-- The cascade of a record that is gone. -/
theorem guarded_cascadeRecord (hlifecycled : db.Lifecycled) (hrow : db.records.get? id = none) :
    Guarded db (db.cascadeRecord id) ∧ (db.cascadeRecord id).records = db.records ∧
      ∀ k, (db.cascadeRecord id).facts? k = if id = k then none else db.facts? k := by
  obtain ⟨hconflicts, hrecords₁, -, hlifecycle₁⟩ := guarded_cascadeConflicts db id
  have hfacts₁ : ∀ k, (db.cascadeConflicts id).facts? k = db.facts? k :=
    fun k => by rw [facts?, hlifecycle₁, facts?]
  have hlifecycled₁ : (db.cascadeConflicts id).Lifecycled := fun k hk => by
    rw [hfacts₁]
    refine hlifecycled k ?_
    rw [← hk]
    exact (hasPrivate_of_row (by rw [hrecords₁])).symm
  obtain ⟨hrelations, hrecords₂, hfacts₂⟩ := guarded_cascadeRelations hlifecycled₁ id
  have hrow₂ : ((db.cascadeConflicts id).cascadeRelations id).records.get? id = none := by
    rw [hrecords₂, hrecords₁, hrow]
  obtain ⟨hrest, hrecords₃, hfacts₃⟩ := guarded_cascadeRest hrow₂
  unfold cascadeRecord
  refine ⟨(hconflicts.trans hrelations).trans hrest,
    hrecords₃.trans (hrecords₂.trans hrecords₁), fun k => ?_⟩
  rw [hfacts₃, hfacts₂, hfacts₁]

omit [Entropy] in
theorem get?_eraseRecord (db : Db) {k : String} (h : id ≠ k) :
    (db.eraseRecord id).records.get? k = db.records.get? k := Table.get?_erase_of_ne _ h

omit [Entropy] in
theorem hasPrivate_eraseRecord (db : Db) (id k : String) :
    (db.eraseRecord id).hasPrivate k = if id = k then false else db.hasPrivate k := by
  split
  · rename_i hk
    subst hk
    have hnone : (db.eraseRecord id).records.get? id = none := Table.get?_erase_self _ _
    exact hasPrivate_eq_false_of_none hnone
  · rename_i hk
    exact hasPrivate_of_row (get?_eraseRecord db hk)

omit [Entropy] in
theorem storedFacts_eraseRecord (db : Db) {k : String} (h : id ≠ k) :
    (db.eraseRecord id).storedFacts k = db.storedFacts k := by
  simp only [storedFacts, get?_eraseRecord db h]
  rfl

theorem guarded_deleteRecord {old : MemoryRecord} (hcovered : db.Covered)
    (hold : db.records.get? old.id = some old) :
    Guarded db (db.deleteRecord old) ∧ (db.deleteRecord old).Covered := by
  have hpart := hasPrivate_eraseRecord db old.id
  have hne : ∀ k, (db.eraseRecord old.id).hasPrivate k = true → old.id ≠ k := by
    rintro k hk rfl
    rw [hpart, if_pos rfl] at hk
    cases hk
  have hlifecycled : (db.eraseRecord old.id).Lifecycled := fun k hk => by
    have hbefore := hpart k
    rw [hk, if_neg (hne k hk)] at hbefore
    exact hcovered.lifecycled k hbefore.symm
  obtain ⟨hcascade, hrecords, hfacts⟩ :=
    guarded_cascadeRecord hlifecycled (Table.get?_erase_self db.records old.id)
  have hcov : ((db.eraseRecord old.id).cascadeRecord old.id).Covered := fun k => by
    have hafter := hasPrivate_of_row (congrArg (fun t => t.get? k) hrecords)
    rw [← isSome_facts?, hfacts, hafter, hpart]
    split
    · rfl
    · exact (isSome_facts? db k).trans (hcovered k)
  simp only [deleteRecord]
  split
  · refine ⟨Marked.touch ⟨hcascade.draws_le, hcascade.generation_le, hcascade.grants,
      fun k hk => ?_⟩, hcov.touch⟩
    rcases hcascade.kept k hk with ⟨-, hdrawn⟩ | hsame
    · exact Or.inl hdrawn
    · have hk := hne k hsame.isPrivate
      have hbefore := hpart k
      rw [hsame.isPrivate, if_neg hk] at hbefore
      exact Or.inr ⟨hbefore.symm, hsame.facts.trans (storedFacts_eraseRecord db hk),
        hsame.version⟩
  · rename_i hpublic
    have holdPublic : db.hasPrivate old.id = false := by
      simp only [Contents.hasPrivate, hold]
      simpa using hpublic
    have herased : Guarded db (db.eraseRecord old.id) := by
      refine guarded_of_unchanged le_rfl rfl rfl rfl (fun k => ?_) (fun k hk => ?_) fun _ _ => rfl
      · rw [hpart]
        split
        · rename_i hk
          rw [← hk, holdPublic]
        · rfl
      · refine storedFacts_eraseRecord db ?_
        rintro rfl
        rw [holdPublic] at hk
        cases hk
    exact ⟨herased.trans hcascade, hcov⟩

/-- Each change of a record is guarded, but one that gives a private record a new id. -/
theorem guarded_changeRecord {c : RowChange MemoryRecord String} (hcovered : db.Covered)
    (hkeeps : ∀ k new old, c = .update k new → db.records.get? k = some old →
      new.id = k ∨ old.destination.isPrivate = false)
    (h : db.changeRecord c = .ok db') : Guarded db db' ∧ db'.Covered := by
  cases c with
  | insert r => exact guarded_insertRecord hcovered h
  | update k new => exact guarded_updateRecord hcovered (fun old => hkeeps k new old rfl) h
  | delete k =>
      simp only [changeRecord] at h
      split at h
      · cases h
        exact ⟨Guarded.refl db, hcovered⟩
      · rename_i old hold
        cases h
        have hkey : old.id = k := Table.key_of_get? hold
        exact guarded_deleteRecord hcovered (by rw [hkey, hold])

/-! ### Statements -/

/-- What is stored about a private record changed, before or after which it is private. -/
def FactsChange (db db' : Db) (id : String) : Prop :=
  (db.hasPrivate id = true ∨ db'.hasPrivate id = true) ∧ db'.storedFacts id ≠ db.storedFacts id

/-- A statement after which a changed private record has a fresh token. -/
structure Locked (db db' : Db) : Prop where
  generation_le : db.generation ≤ db'.generation
  grants : db'.grants = db.grants
  projected : db'.generation = db.generation ∧ db'.projection = db.projection ∨
    db.generation < db'.generation ∧
      (db.activeGrant.isSome = true → db'.projection.state = .dirty)
  changed : ∀ id, FactsChange db db' id → db.generation < db'.generation ∧
    (db'.hasPrivate id = true → Drawn db db' id)

theorem Guarded.locked (h : Guarded db db') : Locked db db' where
  generation_le := h.generation_le
  grants := h.grants
  projected := h.projected
  changed := fun id hchange => by
    obtain ⟨hprivate, hfacts⟩ := hchange
    cases hafter : db'.hasPrivate id with
    | true =>
        rcases h.kept id hafter with hdrawn | hsame
        · exact ⟨hdrawn.1, fun _ => hdrawn.2⟩
        · exact absurd hsame.facts hfacts
    | false =>
        rw [hafter] at hprivate
        exact ⟨h.gone id (hprivate.resolve_right Bool.false_ne_true) hafter,
          fun h => absurd h Bool.false_ne_true⟩

/-- A rule for the rows of a statement, one after another. -/
theorem guarded_rows {ρ : Type} {step : Db → ρ → Fallible Db} {P : ρ → Prop}
    (hstep : ∀ db c db', db.Covered → P c → step db c = .ok db' → Guarded db db' ∧ db'.Covered)
    {changes : List ρ} (hchanges : ∀ c ∈ changes, P c) (hcovered : db.Covered)
    (h : runAll step db changes = .ok db') : Guarded db db' ∧ db'.Covered := by
  induction changes generalizing db with
  | nil =>
      cases h
      exact ⟨Guarded.refl _, hcovered⟩
  | cons c rest ih =>
      obtain ⟨db₁, hfirst, hrest⟩ := bind_eq_ok.1 h
      obtain ⟨hguarded, hcovered₁⟩ :=
        hstep db c db₁ hcovered (hchanges c List.mem_cons_self) hfirst
      obtain ⟨hguarded', hcovered'⟩ :=
        ih (fun c' hc' => hchanges c' (List.mem_cons_of_mem c hc')) hcovered₁ hrest
      exact ⟨hguarded.trans hguarded', hcovered'⟩

/-- A private record cannot be given a new id alone: its lifecycle row would refer to nothing. -/
theorem record_keeps_id {new : MemoryRecord} {old : MemoryRecord} (hcovered : db.Covered)
    (hold : db.records.get? id = some old) (hprivate : old.destination.isPrivate = true)
    (h : db.changeRecord (.update id new) = .ok db')
    (hreferences : ReferencesHold db'.toContents db'.lifecycle) : new.id = id := by
  by_contra hne
  simp only [changeRecord, hold, bind_eq_ok, ensure_eq_ok, exists_const, require_eq_ok] at h
  obtain ⟨-, records, hrecords, h⟩ := h
  have hget := Table.get?_replace? hold hrecords id
  rw [if_neg hne, if_pos rfl] at hget
  have hrow : (db.facts? id).isSome = true := by
    refine hcovered.lifecycled id ?_
    simp only [Contents.hasPrivate, hold]
    exact hprivate
  have hafter : db'.records = records ∧ db'.facts? id = db.facts? id := by
    simp only [recordUpdated] at h
    split at h
    · obtain ⟨db₁, hupsert, h⟩ := bind_eq_ok.1 h
      cases h
      obtain ⟨hcontents, hfacts⟩ := upsertLifecycle_ok hupsert
      refine ⟨congrArg Contents.records hcontents, ?_⟩
      rw [facts?_touch, hfacts, if_neg hne]
      rfl
    · cases h
      refine ⟨?_, ?_⟩
      · simp only [deleteLifecycle]
        split <;> rfl
      · rw [facts?_touch]
        simp only [deleteLifecycle]
        split
        · rw [facts?_touch, facts?, Table.get?_erase_of_ne _ hne, facts?]
        · rw [facts?, Table.get?_erase_of_ne _ hne, facts?]
  rw [← hafter.2, isSome_facts?] at hrow
  obtain ⟨s, hs⟩ := Option.isSome_iff_exists.1 hrow
  have hfound := hreferences.lifecycle s (Table.mem_of_get? hs)
  rw [Table.key_of_get? hs, Contents.hasRecord, hafter.1, hget] at hfound
  cases hfound

omit [Entropy] in
/-- A lifecycle row cannot be inserted beside those of the private records. -/
theorem insertLifecycle_refused {s : PrivateLifecycleState} (hcovered : db.Covered) :
    db.insertLifecycle s ≠ .ok db' := by
  intro h
  simp only [insertLifecycle, bind_eq_ok, ensure_eq_ok, exists_const, require_eq_ok] at h
  obtain ⟨hprivate, -, lifecycle, hinsert, -⟩ := h
  have hrow := hcovered s.recordId
  rw [Table.insert?_fresh hinsert, hprivate] at hrow
  cases hrow

theorem guarded_records {changes : List (RowChange MemoryRecord String)} (hcovered : db.Covered)
    (hkeeps : changes.length ≤ 1 ∨ ∀ c ∈ changes, c.KeepsId)
    (h : db.changeRows (.records changes) = .ok db')
    (hreferences : ReferencesHold db'.toContents db'.lifecycle) :
    Guarded db db' ∧ db'.Covered := by
  rcases hkeeps with hone | hkeeps
  · rcases changes with _ | ⟨c, _ | ⟨c', rest⟩⟩
    · simp only [changeRows, runAll, Except.ok.injEq] at h
      rw [← h]
      exact ⟨Guarded.refl db, hcovered⟩
    · simp only [changeRows, runAll, bind_eq_ok, Except.ok.injEq, exists_eq_right] at h
      refine guarded_changeRecord hcovered (fun k new old hc hold => ?_) h
      subst hc
      by_cases hprivate : old.destination.isPrivate = true
      · exact Or.inl (record_keeps_id hcovered hold hprivate h hreferences)
      · exact Or.inr (by simpa using hprivate)
    · simp only [List.length_cons] at hone
      omega
  · refine guarded_rows (fun db c db' hcovered hc hstep => ?_) hkeeps hcovered h
    refine guarded_changeRecord hcovered (fun k new old hupdate _ => Or.inl ?_) hstep
    subst hupdate
    exact hc

theorem locked_lifecycle {watched : Bool}
    {changes : List (RowChange PrivateLifecycleState String)} (hcovered : db.Covered)
    (hkeeps : ∀ c ∈ changes, c.KeepsOwner)
    (h : db.changeRows (.lifecycle watched changes) = .ok db') : Locked db db' ∧ db'.Covered := by
  cases watched with
  | true =>
      have hrows := guarded_rows (fun db c db' hcovered hc hstep => ?_) hkeeps hcovered h
      · exact ⟨hrows.1.locked, hrows.2⟩
      · cases c with
        | insert s => exact absurd hstep (insertLifecycle_refused hcovered)
        | update k s =>
            have hkey : s.recordId = k := hc
            subst hkey
            exact guarded_updateLifecycle hcovered hstep
        | delete k => exact absurd hc not_false
  | false =>
      have hrows : (∀ id, db'.storedFacts id = db.storedFacts id) ∧ db'.Covered ∧
          db'.generation = db.generation ∧ db'.projection = db.projection ∧
            db'.grants = db.grants := by
        simp only [changeRows] at h
        induction changes generalizing db with
        | nil =>
            cases h
            exact ⟨fun _ => rfl, hcovered, rfl, rfl, rfl⟩
        | cons c rest ih =>
            obtain ⟨db₁, hfirst, hrest⟩ := bind_eq_ok.1 h
            have hc := hkeeps c List.mem_cons_self
            have hupdate : ∃ k s, c = .update k s ∧ s.recordId = k := by
              cases c with
              | insert s => exact absurd hfirst (insertLifecycle_refused hcovered)
              | update k s => exact ⟨k, s, rfl, hc⟩
              | delete k => exact absurd hc not_false
            obtain ⟨hfacts, hcovered₁, hgeneration, hprojection, hgrants, -⟩ :=
              storedFacts_changeLifecycle hupdate hcovered hfirst
            obtain ⟨hfacts', hcovered', hgeneration', hprojection', hgrants'⟩ :=
              ih hcovered₁ (fun c' hc' => hkeeps c' (List.mem_cons_of_mem c hc')) hrest
            exact ⟨fun id => (hfacts' id).trans (hfacts id), hcovered',
              hgeneration'.trans hgeneration, hprojection'.trans hprojection,
              hgrants'.trans hgrants⟩
      obtain ⟨hfacts, hcovered', hgeneration, hprojection, hgrants⟩ := hrows
      exact ⟨⟨hgeneration.ge, hgrants, Or.inl ⟨hgeneration, hprojection⟩,
        fun id hchange => absurd (hfacts id) hchange.2⟩, hcovered'⟩

/-- One statement. -/
theorem locked_execute {st : Statement} (hcovered : db.Covered) (hkeeps : st.KeepsRows)
    (h : db.execute st = .ok db') : Locked db db' ∧ db'.Covered := by
  simp only [execute, bind_eq_ok, ensure_eq_ok, exists_const, Except.ok.injEq] at h
  obtain ⟨db₁, hrows, hreferences, rfl⟩ := h
  have hguarded : ∀ {db'}, Guarded db db' ∧ db'.Covered → Locked db db' ∧ db'.Covered :=
    fun h => ⟨h.1.locked, h.2⟩
  cases st with
  | records changes => exact hguarded (guarded_records hcovered hkeeps hrows hreferences)
  | tags changes =>
      exact hguarded (guarded_rows (P := fun _ => True)
        (fun _ _ _ hcovered _ hstep => guarded_changeTag hcovered hstep) (fun _ _ => trivial)
        hcovered hrows)
  | paths changes =>
      exact hguarded (guarded_rows (P := fun _ => True)
        (fun _ _ _ hcovered _ hstep => guarded_changePath hcovered hstep) (fun _ _ => trivial)
        hcovered hrows)
  | captures changes =>
      exact hguarded (guarded_rows (P := fun _ => True)
        (fun _ _ _ hcovered _ hstep => guarded_changeCapture hcovered hstep) (fun _ _ => trivial)
        hcovered hrows)
  | lifecycle watched changes => exact locked_lifecycle hcovered hkeeps hrows
  | relations changes =>
      exact hguarded (guarded_rows (P := fun _ => True)
        (fun _ _ _ hcovered _ hstep => guarded_changeRelation hcovered hstep)
        (fun _ _ => trivial) hcovered hrows)

/-! ### Runs of statements -/

theorem executeAll_append (db : Db) (done later : List Statement) :
    db.executeAll (done ++ later) = (db.executeAll done).executeAll later :=
  List.foldl_append

/-- After a run the tables are covered, and a changed generation left the projection dirty. -/
theorem locked_executeAll {statements : List Statement} (hcovered : db.Covered)
    (hkeeps : ∀ st ∈ statements, st.KeepsRows) :
    (db.executeAll statements).Covered ∧
      db.generation ≤ (db.executeAll statements).generation ∧
      (db.executeAll statements).grants = db.grants ∧
      ((db.executeAll statements).generation = db.generation ∧
          (db.executeAll statements).projection = db.projection ∨
        (db.activeGrant.isSome = true → (db.executeAll statements).projection.state = .dirty)) := by
  induction statements generalizing db with
  | nil => exact ⟨hcovered, le_rfl, rfl, Or.inl ⟨rfl, rfl⟩⟩
  | cons st rest ih =>
      have hrest : ∀ st' ∈ rest, st'.KeepsRows :=
        fun st' hst' => hkeeps st' (List.mem_cons_of_mem st hst')
      have hfold : db.executeAll (st :: rest) =
          ((db.execute st).toOption.getD db).executeAll rest := rfl
      rw [hfold]
      cases hstep : db.execute st with
      | error e => exact ih hcovered hrest
      | ok db₁ =>
          obtain ⟨hlocked, hcovered₁⟩ :=
            locked_execute hcovered (hkeeps st List.mem_cons_self) hstep
          obtain ⟨hcov, hle, hgrants, hprojected⟩ := ih hcovered₁ hrest
          refine ⟨hcov, hlocked.generation_le.trans hle, hgrants.trans hlocked.grants, ?_⟩
          have hactive : db₁.activeGrant = db.activeGrant := by
            unfold Contents.activeGrant
            rw [hlocked.grants]
          rcases hprojected with ⟨hgeneration, hprojection⟩ | hdirty
          · have hsame : (db₁.executeAll rest).projection = db₁.projection ∧
                (db₁.executeAll rest).generation = db₁.generation := ⟨hprojection, hgeneration⟩
            rcases hlocked.projected with ⟨hgeneration₁, hprojection₁⟩ | ⟨-, hdirty⟩
            · exact Or.inl ⟨hsame.2.trans hgeneration₁, hsame.1.trans hprojection₁⟩
            · refine Or.inr fun hgrant => ?_
              have hstate := hdirty hgrant
              rw [← hsame.1] at hstate
              exact hstate
          · refine Or.inr fun hgrant => ?_
            have hstate := hdirty (by rw [hactive]; exact hgrant)
            exact hstate

/-- **Tokens are optimistic locks.** In a run of statements from a database whose private records
have their lifecycle rows, none of which moves or removes such a row by itself or renames a record
beside other rows: every record keeps exactly one lifecycle row while it is private and none
otherwise; a statement that changes what is stored about a private record advances the generation
and leaves the record, where it is still private, with a token drawn by that statement; and under
an active grant a changed generation leaves the projection not current for the rest of the run. -/
theorem statements_rotate_versions (db : Db) (statements : List Statement)
    (hcovered : db.Covered) (hkeeps : ∀ st ∈ statements, st.KeepsRows) :
    (∀ id, ((db.executeAll statements).lifecycle.rows.filter fun s => s.recordId = id).length =
      if (db.executeAll statements).hasPrivate id then 1 else 0) ∧
    (∀ done st later db', statements = done ++ st :: later →
      (db.executeAll done).execute st = .ok db' → ∀ id, FactsChange (db.executeAll done) db' id →
        (db.executeAll done).generation < db'.generation ∧
          (db'.hasPrivate id = true → Drawn (db.executeAll done) db' id)) ∧
    ∀ done later, statements = done ++ later →
      (db.executeAll done).activeGrant.isSome = true →
        (db.executeAll statements).generation ≠ (db.executeAll done).generation →
          (db.executeAll statements).projection.state ≠ .current := by
  have hpart : ∀ done later, statements = done ++ later → (db.executeAll done).Covered := by
    rintro done later rfl
    exact (locked_executeAll hcovered fun st hst => hkeeps st (List.mem_append_left _ hst)).1
  refine ⟨fun id => ?_, ?_, ?_⟩
  · have hcov := hpart statements [] (List.append_nil _).symm
    rw [Table.length_filter_key, hcov id]
  · rintro done st later db' rfl hexecute id hchange
    have hst : st.KeepsRows :=
      hkeeps st (List.mem_append_right _ List.mem_cons_self)
    exact (locked_execute (hpart done _ rfl) hst hexecute).1.changed id hchange
  · rintro done later rfl hactive hgeneration
    have hlater := locked_executeAll (hpart done later rfl) fun st hst =>
      hkeeps st (List.mem_append_right _ hst)
    rw [executeAll_append] at hgeneration ⊢
    obtain ⟨-, -, -, ⟨hsame, -⟩ | hdirty⟩ := hlater
    · exact absurd hsame hgeneration
    · rw [hdirty hactive]
      decide

end Db

/-! ### A run on fixed inputs -/

/-- A record of the given id and destination. -/
def sampleRecord (id : String) (destination : MemoryDestination) : MemoryRecord where
  id := id
  memoryType := .fact
  lane := .semantic
  destination := destination
  scopeKind := .repo
  scopeId := none
  visibility := .private
  title := "t"
  body := "b"
  status := .active
  confidence := 1
  sourceKind := none
  sourceRef := none
  proposalId := none
  retention := ⟨none, none, none, none, none, none⟩
  origin := ⟨"o", .localMemory⟩
  lineage := none
  contentHash := "c"
  createdAt := "2026-07-14T10:00:00Z"
  updatedAt := "2026-07-14T10:00:00Z"
  supersedesId := none

/-- A database with a private record `a` and a repository record `b`. -/
def twoRecords : List Statement :=
  [.records [.insert (sampleRecord "a" .«local»)], .records [.insert (sampleRecord "b" .repo)]]

/-- The lifecycle row of a record, under the id of another. -/
def movedLifecycle : PrivateLifecycleState :=
  ⟨.initial, "b", "00000000000000000000000000000000", "2026-07-14T10:00:00Z"⟩

/-- The two records, and what the statements after them leave. -/
def sampleRun (later : List Statement) : Db :=
  @Db.executeAll Entropy.cycling (Db.initial "2026-07-14T09:00:00Z") (twoRecords ++ later)

theorem statements_rotate_versions_twoRecords :
    ((sampleRun []).lifecycle.rows.filter fun s => s.recordId = "a").length = 1 := by
  have hrun := (@Db.statements_rotate_versions Entropy.cycling (Db.initial "2026-07-14T09:00:00Z")
    (twoRecords ++ []) (fun _ => rfl) (by
      intro st hst
      rcases List.mem_cons.1 hst with rfl | hst
      · exact Or.inl le_rfl
      · rw [List.mem_singleton.1 hst]
        exact Or.inl le_rfl)).1 "a"
  have hprivate : (sampleRun []).hasPrivate "a" = true := by decide +kernel
  rw [sampleRun] at hprivate
  rw [hprivate, if_pos rfl] at hrun
  exact hrun

/-- A lifecycle row can be deleted under its private record or moved to a repository record, and a
statement that renames two records can leave one behind. -/
theorem lifecycle_rows_lost :
    ((sampleRun [.lifecycle true [.delete "a"]]).hasPrivate "a" = true ∧
      ((sampleRun [.lifecycle true [.delete "a"]]).lifecycle.get? "a").isSome = false) ∧
    ((sampleRun [.lifecycle false [.update "a" movedLifecycle]]).hasPrivate "b" = false ∧
      ((sampleRun [.lifecycle false [.update "a" movedLifecycle]]).lifecycle.get? "b").isSome =
        true) ∧
    ((sampleRun [.records [.update "a" (sampleRecord "x" .«local»),
        .update "b" (sampleRecord "a" .repo)]]).hasPrivate "a" = false ∧
      ((sampleRun [.records [.update "a" (sampleRecord "x" .«local»),
        .update "b" (sampleRecord "a" .repo)]]).lifecycle.get? "a").isSome = true) := by
  decide +kernel

end Memzoi
