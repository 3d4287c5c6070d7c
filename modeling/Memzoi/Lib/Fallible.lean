/-
# Fallible computations with error texts

A library of its own: computations that stop with an error text, or with a
panic, before they produce a value. `bail` and `ensure` are the two ways a
caller stops on purpose; a panic is what an unchecked conversion does. The
rules below take a successful run apart, one step at a time, and carry an
invariant through a loop over a list.
-/

import Mathlib

/-- Why a computation stopped: an error value handed to the caller, or a panic. -/
inductive Failure where
  | error (message : String)
  | panic (message : String)
  deriving DecidableEq, Repr

/-- A computation that gives a value or stops with a failure. -/
abbrev Fallible (α : Type) := Except Failure α

namespace Fallible

variable {α β σ : Type}

/-- Stop with an error text. -/
def bail (message : String) : Fallible α := .error (.error message)

/-- Stop with an error text unless the condition holds. -/
def ensure (c : Prop) [Decidable c] (message : String) : Fallible Unit :=
  if c then .ok () else bail message

/-- Read an optional value, with the error text of its absence. -/
def require (x : Option α) (message : String) : Fallible α :=
  match x with
  | some a => .ok a
  | none => bail message

/-- Put a context before the text of an error; a panic has no text to extend. -/
def withContext (context : String) : Fallible α → Fallible α
  | .error (.error message) => bail (context ++ ": " ++ message)
  | x => x

/-- Run a check on every element, left to right. -/
def checkAll (check : α → Fallible Unit) : List α → Fallible Unit
  | [] => .ok ()
  | a :: as => do
    check a
    checkAll check as

/-- The elements a check keeps, in order. -/
def keepAll (keep : α → Fallible Bool) : List α → Fallible (List α)
  | [] => .ok []
  | a :: as => do
    let kept ← keep a
    let rest ← keepAll keep as
    .ok (if kept then a :: rest else rest)

/-- The result for every element, in order. -/
def mapAll (f : α → Fallible β) : List α → Fallible (List β)
  | [] => .ok []
  | a :: as => do
    let b ← f a
    let bs ← mapAll f as
    .ok (b :: bs)

/-- The results of all elements, one list after the other. -/
def gatherAll (f : α → Fallible (List β)) (as : List α) : Fallible (List β) := do
  let bss ← mapAll f as
  .ok bss.flatten

/-- Run a state change for every element, left to right. -/
def runAll (step : σ → α → Fallible σ) : σ → List α → Fallible σ
  | s, [] => .ok s
  | s, a :: as => do
    let s' ← step s a
    runAll step s' as

/-- A bound computation succeeds exactly when both parts do. -/
@[simp low] theorem bind_eq_ok {x : Fallible α} {f : α → Fallible β} {b : β} :
    x >>= f = .ok b ↔ ∃ a, x = .ok a ∧ f a = .ok b := by
  cases x with
  | error e => constructor
               · intro h; cases h
               · rintro ⟨a, h, -⟩; cases h
  | ok a => constructor
            · intro h; exact ⟨a, rfl, h⟩
            · rintro ⟨a', h, hb⟩; cases h; exact hb

/-- A check bound before a computation: it passed, and the computation succeeded. -/
@[simp] theorem check_bind_eq_ok {x : Fallible Unit} {y : Fallible β} {b : β} :
    (x >>= fun _ => y) = .ok b ↔ x = .ok () ∧ y = .ok b := by
  rw [bind_eq_ok]
  constructor
  · rintro ⟨⟨⟩, hx, hy⟩; exact ⟨hx, hy⟩
  · rintro ⟨hx, hy⟩; exact ⟨(), hx, hy⟩

@[simp] theorem pure_eq_ok {a b : α} : (pure a : Fallible α) = .ok b ↔ a = b := by
  constructor
  · intro h; cases h; rfl
  · rintro rfl; rfl

@[simp] theorem map_eq_ok {x : Fallible α} {f : α → β} {b : β} :
    f <$> x = .ok b ↔ ∃ a, x = .ok a ∧ f a = b := by
  rw [map_eq_pure_bind, bind_eq_ok]
  simp only [pure_eq_ok]

@[simp] theorem ok_bind (a : α) (f : α → Fallible β) : (Except.ok a : Fallible α) >>= f = f a := rfl

@[simp] theorem error_bind (e : Failure) (f : α → Fallible β) :
    (Except.error e : Fallible α) >>= f = .error e := rfl

@[simp] theorem bail_ne_ok {message : String} {a : α} : (bail message : Fallible α) ≠ .ok a := by
  intro h; cases h

@[simp] theorem bail_bind (message : String) (f : α → Fallible β) :
    (bail message : Fallible α) >>= f = bail message := rfl

@[simp] theorem ensure_eq_ok {c : Prop} [Decidable c] {message : String} {u : Unit} :
    ensure c message = .ok u ↔ c := by
  unfold ensure
  split
  · simpa
  · simpa

theorem ensure_of {c : Prop} [Decidable c] {message : String} (h : c) :
    ensure c message = .ok () := ensure_eq_ok.2 h

theorem ensure_of_not {c : Prop} [Decidable c] {message : String} (h : ¬ c) :
    ensure c message = bail message := by
  unfold ensure; rw [if_neg h]

@[simp] theorem require_eq_ok {x : Option α} {message : String} {a : α} :
    require x message = .ok a ↔ x = some a := by
  cases x with
  | none => simp [require]
  | some b => simp [require]

@[simp] theorem require_some (a : α) (message : String) : require (some a) message = .ok a := rfl

@[simp] theorem require_none (message : String) :
    require (none : Option α) message = bail message := rfl

@[simp] theorem withContext_eq_ok {context : String} {x : Fallible α} {a : α} :
    withContext context x = .ok a ↔ x = .ok a := by
  match x with
  | .error (.error message) => simp [withContext, bail]
  | .error (.panic message) => simp [withContext]
  | .ok b => simp [withContext]

/-- Every check of the list passed. -/
@[simp] theorem checkAll_eq_ok {check : α → Fallible Unit} {as : List α} {u : Unit} :
    checkAll check as = .ok u ↔ ∀ a ∈ as, check a = .ok () := by
  induction as with
  | nil => simp [checkAll]
  | cons a as ih => simp [checkAll, ih]

/-- The elements that are kept are those the check said yes to. -/
theorem mem_of_keepAll {keep : α → Fallible Bool} {as kept : List α}
    (h : keepAll keep as = .ok kept) : ∀ a, a ∈ kept ↔ a ∈ as ∧ keep a = .ok true := by
  induction as generalizing kept with
  | nil =>
      cases h
      simp
  | cons a as ih =>
      obtain ⟨b, hb, h⟩ := bind_eq_ok.1 h
      obtain ⟨rest, hrest, h⟩ := bind_eq_ok.1 h
      cases h
      intro x
      have hx := ih hrest x
      cases b with
      | true =>
          rw [if_pos rfl, List.mem_cons, List.mem_cons, hx]
          constructor
          · rintro (rfl | ⟨hmem, hkeep⟩)
            · exact ⟨Or.inl rfl, hb⟩
            · exact ⟨Or.inr hmem, hkeep⟩
          · rintro ⟨rfl | hmem, hkeep⟩
            · exact Or.inl rfl
            · exact Or.inr ⟨hmem, hkeep⟩
      | false =>
          rw [if_neg (by decide), List.mem_cons, hx]
          constructor
          · rintro ⟨hmem, hkeep⟩
            exact ⟨Or.inr hmem, hkeep⟩
          · rintro ⟨rfl | hmem, hkeep⟩
            · rw [hb] at hkeep
              cases hkeep
            · exact ⟨hmem, hkeep⟩

/-- What is kept is what a decided form of the check keeps. -/
theorem filter_of_keepAll {keep : α → Fallible Bool} {p : α → Bool} {as kept : List α}
    (hp : ∀ a, p a = true ↔ keep a = .ok true) (h : keepAll keep as = .ok kept) :
    kept = as.filter p := by
  induction as generalizing kept with
  | nil =>
      cases h
      rfl
  | cons a as ih =>
      obtain ⟨b, hb, h⟩ := bind_eq_ok.1 h
      obtain ⟨rest, hrest, h⟩ := bind_eq_ok.1 h
      cases h
      cases b with
      | true => rw [if_pos rfl, List.filter_cons_of_pos ((hp a).2 hb), ih hrest]
      | false =>
          have hnot : ¬ p a = true := by
            rw [hp, hb]
            simp
          rw [if_neg (by decide), List.filter_cons_of_neg hnot, ih hrest]

/-- A check that answers on every element of a list answers on the list. -/
theorem keepAll_total {keep : α → Fallible Bool} {as : List α}
    (h : ∀ a ∈ as, ∃ b, keep a = .ok b) : ∃ kept, keepAll keep as = .ok kept := by
  induction as with
  | nil => exact ⟨[], rfl⟩
  | cons a as ih =>
      obtain ⟨b, hb⟩ := h a List.mem_cons_self
      obtain ⟨rest, hrest⟩ := ih fun x hx => h x (List.mem_cons_of_mem _ hx)
      exact ⟨_, bind_eq_ok.2 ⟨b, hb, bind_eq_ok.2 ⟨rest, hrest, rfl⟩⟩⟩

/-- What is kept stands in the order it had. -/
theorem sublist_of_keepAll {keep : α → Fallible Bool} {as kept : List α}
    (h : keepAll keep as = .ok kept) : List.Sublist kept as := by
  induction as generalizing kept with
  | nil =>
      cases h
      exact List.Sublist.refl _
  | cons a as ih =>
      obtain ⟨b, -, h⟩ := bind_eq_ok.1 h
      obtain ⟨rest, hrest, h⟩ := bind_eq_ok.1 h
      cases h
      split
      · exact (ih hrest).cons_cons a
      · exact (ih hrest).cons a

/-- A result stands for every element. -/
theorem mapAll_eq_ok {f : α → Fallible β} {as : List α} {bs : List β} :
    mapAll f as = .ok bs ↔ List.Forall₂ (fun a b => f a = .ok b) as bs := by
  induction as generalizing bs with
  | nil =>
      rw [List.forall₂_nil_left_iff]
      exact ⟨fun h => (Except.ok.inj h).symm, fun h => h ▸ rfl⟩
  | cons a as ih =>
      rw [List.forall₂_cons_left_iff]
      constructor
      · intro h
        obtain ⟨b, hb, h⟩ := bind_eq_ok.1 h
        obtain ⟨rest, hrest, h⟩ := bind_eq_ok.1 h
        cases h
        exact ⟨b, rest, hb, ih.1 hrest, rfl⟩
      · rintro ⟨b, rest, hb, hrest, rfl⟩
        exact bind_eq_ok.2 ⟨b, hb, bind_eq_ok.2 ⟨rest, ih.2 hrest, rfl⟩⟩

theorem mem_of_mapAll {f : α → Fallible β} {as : List α} {bs : List β} (h : mapAll f as = .ok bs)
    (b : β) : b ∈ bs ↔ ∃ a ∈ as, f a = .ok b := by
  have hall := mapAll_eq_ok.1 h
  clear h
  induction hall with
  | nil => simp
  | @cons a b' as bs hab _ ih =>
      have hrest : b ∈ bs ↔ ∃ x ∈ as, f x = .ok b := ih
      rw [List.mem_cons, hrest]
      constructor
      · rintro (rfl | ⟨x, hx, hfx⟩)
        · exact ⟨a, List.mem_cons_self, hab⟩
        · exact ⟨x, List.mem_cons_of_mem _ hx, hfx⟩
      · rintro ⟨x, hx, hfx⟩
        rcases List.mem_cons.1 hx with rfl | hx
        · rw [hab] at hfx
          exact Or.inl (Except.ok.inj hfx).symm
        · exact Or.inr ⟨x, hx, hfx⟩

/-- Every element has a result among those of the list. -/
theorem exists_of_mapAll {f : α → Fallible β} {as : List α} {bs : List β} (h : mapAll f as = .ok bs)
    {a : α} (ha : a ∈ as) : ∃ b ∈ bs, f a = .ok b := by
  have hall := mapAll_eq_ok.1 h
  clear h
  induction hall with
  | nil => cases ha
  | @cons a' b as bs hab _ ih =>
      rcases List.mem_cons.1 ha with rfl | ha
      · exact ⟨b, List.mem_cons_self, hab⟩
      · obtain ⟨b', hb', hfa⟩ := ih ha
        exact ⟨b', List.mem_cons_of_mem _ hb', hfa⟩

/-- What every result keeps of its element, the list of results keeps of the list. -/
theorem map_of_mapAll {γ : Type} {f : α → Fallible β} {g : β → γ} {k : α → γ}
    (hkeep : ∀ a b, f a = .ok b → g b = k a) {as : List α} {bs : List β}
    (h : mapAll f as = .ok bs) : bs.map g = as.map k := by
  have hall := mapAll_eq_ok.1 h
  clear h
  induction hall with
  | nil => rfl
  | @cons a b as bs hab _ ih => rw [List.map_cons, List.map_cons, hkeep a b hab, ih]

/-- When every result has a related one under another function, the lists of results are related. -/
theorem mapAll_related {f g : α → Fallible β} {rel : β → β → Prop} {as : List α} {bs : List β}
    (h : mapAll f as = .ok bs)
    (hrel : ∀ b ∈ bs, ∀ a ∈ as, f a = .ok b → ∃ b', g a = .ok b' ∧ rel b b') :
    ∃ bs', mapAll g as = .ok bs' ∧ List.Forall₂ rel bs bs' := by
  have hall := mapAll_eq_ok.1 h
  clear h
  induction hall with
  | nil => exact ⟨[], rfl, .nil⟩
  | @cons a b as bs hab _ ih =>
      obtain ⟨b', hb', hrelated⟩ := hrel b List.mem_cons_self a List.mem_cons_self hab
      obtain ⟨bs', hbs', hrest⟩ := ih fun x hx y hy =>
        hrel x (List.mem_cons_of_mem _ hx) y (List.mem_cons_of_mem _ hy)
      refine ⟨b' :: bs', ?_, .cons hrelated hrest⟩
      rw [mapAll, hb', ok_bind, hbs', ok_bind]

theorem mapAll_congr {f g : α → Fallible β} {as : List α} (h : ∀ a ∈ as, f a = g a) :
    mapAll f as = mapAll g as := by
  induction as with
  | nil => rfl
  | cons a as ih =>
      rw [mapAll, mapAll, h a List.mem_cons_self,
        ih fun x hx => h x (List.mem_cons_of_mem _ hx)]

theorem keepAll_congr {f g : α → Fallible Bool} {as : List α} (h : ∀ a ∈ as, f a = g a) :
    keepAll f as = keepAll g as := by
  induction as with
  | nil => rfl
  | cons a as ih =>
      rw [keepAll, keepAll, h a List.mem_cons_self,
        ih fun x hx => h x (List.mem_cons_of_mem _ hx)]

theorem gatherAll_congr {f g : α → Fallible (List β)} {as : List α} (h : ∀ a ∈ as, f a = g a) :
    gatherAll f as = gatherAll g as := by
  rw [gatherAll, mapAll_congr h, gatherAll]

theorem mem_of_gatherAll {f : α → Fallible (List β)} {as : List α} {bs : List β}
    (h : gatherAll f as = .ok bs) (b : β) : b ∈ bs ↔ ∃ a ∈ as, ∃ part, f a = .ok part ∧ b ∈ part := by
  obtain ⟨bss, hbss, h⟩ := bind_eq_ok.1 h
  cases h
  rw [List.mem_flatten]
  constructor
  · rintro ⟨part, hpart, hb⟩
    obtain ⟨a, ha, hf⟩ := (mem_of_mapAll hbss part).1 hpart
    exact ⟨a, ha, part, hf, hb⟩
  · rintro ⟨a, ha, part, hf, hb⟩
    exact ⟨part, (mem_of_mapAll hbss part).2 ⟨a, ha, hf⟩, hb⟩

/-- The results are related in pairs exactly when the results of each pair of elements are. -/
theorem pairwise_gatherAll {f : α → Fallible (List β)} {rel : β → β → Prop} {as : List α}
    {bs : List β} (h : gatherAll f as = .ok bs)
    (hpart : ∀ a ∈ as, ∀ part, f a = .ok part → part.Pairwise rel) :
    bs.Pairwise rel ↔ as.Pairwise fun a a' => ∀ part, f a = .ok part →
      ∀ part', f a' = .ok part' → ∀ b ∈ part, ∀ b' ∈ part', rel b b' := by
  obtain ⟨bss, hbss, hok⟩ := bind_eq_ok.1 h
  obtain rfl := Except.ok.inj hok
  have hparts : ∀ part ∈ bss, part.Pairwise rel := fun part hmem =>
    let ⟨a, ha, hf⟩ := (mem_of_mapAll hbss part).1 hmem
    hpart a ha part hf
  rw [List.pairwise_flatten, and_iff_right hparts]
  have hall := mapAll_eq_ok.1 hbss
  clear hparts hpart h hok hbss
  induction hall with
  | nil => exact ⟨fun _ => List.Pairwise.nil, fun _ => List.Pairwise.nil⟩
  | @cons a part as bss hf hrest ih =>
      have hrest' := mapAll_eq_ok.2 hrest
      rw [List.pairwise_cons, List.pairwise_cons]
      refine and_congr ?_ ih
      constructor
      · intro hall a' ha' first hfirst other hother
        rw [hf] at hfirst
        obtain rfl := Except.ok.inj hfirst
        exact hall other ((mem_of_mapAll hrest' other).2 ⟨a', ha', hother⟩)
      · intro hall other hmem
        obtain ⟨a', ha', hother⟩ := (mem_of_mapAll hrest' other).1 hmem
        exact hall a' ha' part hf other hother

@[simp] theorem runAll_nil (step : σ → α → Fallible σ) (s : σ) : runAll step s [] = .ok s := rfl

@[simp] theorem runAll_cons {step : σ → α → Fallible σ} {s s' : σ} {a : α} {as : List α} :
    runAll step s (a :: as) = .ok s' ↔ ∃ t, step s a = .ok t ∧ runAll step t as = .ok s' := by
  simp [runAll]

/-- A run over two lists is a run over the first, then one over the second. -/
theorem runAll_append {step : σ → α → Fallible σ} {s s' : σ} {as bs : List α} :
    runAll step s (as ++ bs) = .ok s' ↔
      ∃ t, runAll step s as = .ok t ∧ runAll step t bs = .ok s' := by
  induction as generalizing s with
  | nil => simp
  | cons a as ih =>
      simp only [List.cons_append, runAll_cons, ih]
      constructor
      · rintro ⟨t, ht, u, hu, h⟩; exact ⟨u, ⟨t, ht, hu⟩, h⟩
      · rintro ⟨u, ⟨t, ht, hu⟩, h⟩; exact ⟨t, ht, u, hu, h⟩

/-- What every step keeps, the whole run keeps. -/
theorem runAll_invariant {step : σ → α → Fallible σ} (inv : σ → Prop) {as : List α}
    (hstep : ∀ s a s', a ∈ as → inv s → step s a = .ok s' → inv s') :
    ∀ {s s' : σ}, inv s → runAll step s as = .ok s' → inv s' := by
  induction as with
  | nil => intro s s' hs h; cases h; exact hs
  | cons a as ih =>
      intro s s' hs h
      obtain ⟨t, ht, h⟩ := runAll_cons.1 h
      have hinv : inv t := hstep s a t List.mem_cons_self hs ht
      exact ih (fun s a s' ha => hstep s a s' (List.mem_cons_of_mem _ ha)) hinv h

/-- What every step relates to its start, the whole run relates to its own start. -/
theorem runAll_relation {step : σ → α → Fallible σ} (rel : σ → σ → Prop)
    (hrefl : ∀ s, rel s s) (htrans : ∀ s t u, rel s t → rel t u → rel s u) {as : List α}
    (hstep : ∀ s a s', a ∈ as → step s a = .ok s' → rel s s') {s s' : σ}
    (h : runAll step s as = .ok s') : rel s s' :=
  runAll_invariant (rel s)
    (fun t a t' ha ht hstep' => htrans s t t' ht (hstep t a t' ha hstep')) (hrefl s) h

/-- A property of a state that every step holds on to or sets up itself: after a run it held
before, or some step set it up. -/
theorem runAll_collect {step : σ → α → Fallible σ} (holds : σ → Prop) (adds : α → Prop)
    {as : List α} (hstep : ∀ s a s', a ∈ as → step s a = .ok s' → (holds s' ↔ holds s ∨ adds a)) :
    ∀ {s s' : σ}, runAll step s as = .ok s' → (holds s' ↔ holds s ∨ ∃ a ∈ as, adds a) := by
  induction as with
  | nil =>
      intro s s' h
      cases h
      simp
  | cons a as ih =>
      intro s s' h
      obtain ⟨t, ht, h⟩ := runAll_cons.1 h
      rw [ih (fun s a s' ha => hstep s a s' (List.mem_cons_of_mem _ ha)) h,
        hstep s a t List.mem_cons_self ht, or_assoc]
      simp only [List.mem_cons, exists_eq_or_imp]

/-- What maps to itself element by element maps to itself. -/
theorem mapAll_eq_self {f : α → Fallible α} {as : List α} (h : ∀ a ∈ as, f a = .ok a) :
    mapAll f as = .ok as := by
  induction as with
  | nil => rfl
  | cons a as ih =>
      exact bind_eq_ok.2 ⟨a, h a List.mem_cons_self, bind_eq_ok.2
        ⟨as, ih fun b hb => h b (List.mem_cons_of_mem _ hb), rfl⟩⟩

/-- Results that map to themselves map to themselves as a list. -/
theorem mapAll_again {f : α → Fallible α} {as bs : List α} (h : mapAll f as = .ok bs)
    (hf : ∀ a b, f a = .ok b → f b = .ok b) : mapAll f bs = .ok bs := by
  refine mapAll_eq_self fun b hb => ?_
  obtain ⟨a, _, ha⟩ := (mem_of_mapAll h b).1 hb
  exact hf a b ha

/-- A run that passes a check has a value that does. -/
theorem ok_of_any {x : Fallible α} {check : α → Bool} (h : x.toOption.any check = true) :
    ∃ a, x = .ok a ∧ check a = true := by
  cases x with
  | error failure => cases h
  | ok a => exact ⟨a, rfl, h⟩

/-! ### Panics -/

/-- The computation stops with a panic, not with a value or an error. -/
def Panics (x : Fallible α) : Prop := ∃ message, x = .error (.panic message)

theorem not_panics_iff {x : Fallible α} :
    ¬ Panics x ↔ (∃ a, x = .ok a) ∨ ∃ message, x = bail message := by
  match x with
  | .ok a => simp [Panics]
  | .error (.error message) => simp [Panics, bail]
  | .error (.panic message) => simp [Panics, bail]

@[simp] theorem not_panics_ok (a : α) : ¬ Panics (.ok a : Fallible α) := by
  rintro ⟨message, h⟩
  cases h

@[simp] theorem not_panics_bail (message : String) : ¬ Panics (bail message : Fallible α) := by
  rintro ⟨message', h⟩
  cases h

@[simp] theorem not_panics_ensure (c : Prop) [Decidable c] (message : String) :
    ¬ Panics (ensure c message) := by
  unfold ensure
  split
  · exact not_panics_ok ()
  · exact not_panics_bail message

@[simp] theorem not_panics_require (x : Option α) (message : String) :
    ¬ Panics (require x message) := by
  cases x with
  | none => exact not_panics_bail message
  | some a => exact not_panics_ok a

/-- A bound computation panics in its first part, or in its second one on the value of the first. -/
theorem bind_panics {x : Fallible α} {f : α → Fallible β} :
    Panics (x >>= f) ↔ Panics x ∨ ∃ a, x = .ok a ∧ Panics (f a) := by
  match x with
  | .ok a => simp
  | .error (.error message) => simp [Panics]
  | .error (.panic message) => simp [Panics]

/-- After a part that cannot panic, only the second one can. -/
theorem bind_panics_of {x : Fallible α} {f : α → Fallible β} (hx : ¬ Panics x) :
    Panics (x >>= f) ↔ ∃ a, x = .ok a ∧ Panics (f a) := by
  rw [bind_panics]
  exact or_iff_right hx

/-- A computation whose parts cannot panic cannot panic. -/
theorem not_panics_bind {x : Fallible α} {f : α → Fallible β} (hx : ¬ Panics x)
    (hf : ∀ a, ¬ Panics (f a)) : ¬ Panics (x >>= f) := by
  rw [bind_panics_of hx]
  rintro ⟨a, -, h⟩
  exact hf a h

@[simp] theorem withContext_panics {context : String} {x : Fallible α} :
    Panics (withContext context x) ↔ Panics x := by
  match x with
  | .ok a => simp [withContext]
  | .error (.error message) => simp [withContext, Panics, bail]
  | .error (.panic message) => simp [withContext, Panics]

end Fallible
