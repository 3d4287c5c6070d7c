/-
# Codes that can be read off the front of a text

A library of its own: an encoder is self-delimiting when its output can be told
from whatever follows it. Encoders of fixed length are, so are a header that
fixes the length of what comes after it, an optional value behind a flag, and a
counted list of self-delimited items; and one after the other they still are.
So a concatenation of such parts has one reading (`SelfDelimiting.append`,
`SelfDelimiting.injective`).
-/

import Mathlib

namespace PrefixCode

variable {α β γ σ : Type}

/-- Two outputs with the same text, followed by anything, come from one value. -/
def SelfDelimiting (encode : α → List σ) : Prop :=
  ∀ ⦃a b : α⦄ ⦃s t : List σ⦄, encode a ++ s = encode b ++ t → a = b ∧ s = t

theorem SelfDelimiting.injective {encode : α → List σ} (h : SelfDelimiting encode) :
    Function.Injective encode := fun a b hab => by
  have hempty : encode a ++ [] = encode b ++ [] := by rw [hab]
  exact (h hempty).1

/-- An injective encoder of fixed length is self-delimiting. -/
theorem selfDelimiting_of_length {encode : α → List σ} {n : Nat}
    (hinjective : Function.Injective encode) (hlength : ∀ a, (encode a).length = n) :
    SelfDelimiting encode := fun a b s t h => by
  obtain ⟨hcode, hrest⟩ := List.append_inj h ((hlength a).trans (hlength b).symm)
  exact ⟨hinjective hcode, hrest⟩

theorem SelfDelimiting.comp {encode : α → List σ} (h : SelfDelimiting encode) {f : γ → α}
    (hf : Function.Injective f) : SelfDelimiting fun c => encode (f c) := fun _ _ _ _ hcode =>
  let ⟨hvalue, hrest⟩ := h hcode
  ⟨hf hvalue, hrest⟩

/-- One part after the other. -/
theorem SelfDelimiting.append {encode : α → List σ} {encode' : β → List σ}
    (h : SelfDelimiting encode) (h' : SelfDelimiting encode') :
    SelfDelimiting fun p : α × β => encode p.1 ++ encode' p.2 := by
  rintro ⟨a, b⟩ ⟨c, d⟩ s t hcode
  rw [List.append_assoc, List.append_assoc] at hcode
  obtain ⟨rfl, hrest⟩ := h hcode
  obtain ⟨rfl, hend⟩ := h' hrest
  exact ⟨rfl, hend⟩

/-- A header that fixes the length of an injective body. -/
theorem SelfDelimiting.header {encode : γ → List σ} (h : SelfDelimiting encode) {size : α → γ}
    {body : α → List σ} (hbody : Function.Injective body)
    (hlength : ∀ a b, size a = size b → (body a).length = (body b).length) :
    SelfDelimiting fun a => encode (size a) ++ body a := fun a b s t hcode => by
  have hcode : encode (size a) ++ (body a ++ s) = encode (size b) ++ (body b ++ t) := by
    simpa only [List.append_assoc] using hcode
  obtain ⟨hsize, hrest⟩ := h hcode
  obtain ⟨hvalue, hrest⟩ := List.append_inj hrest (hlength a b hsize)
  exact ⟨hbody hvalue, hrest⟩

/-- A flag, and the value behind it if there is one. -/
def optional (absent present : σ) (encode : α → List σ) : Option α → List σ
  | none => [absent]
  | some a => present :: encode a

theorem SelfDelimiting.optional {absent present : σ} (hflags : absent ≠ present)
    {encode : α → List σ} (h : SelfDelimiting encode) :
    SelfDelimiting (optional absent present encode) := by
  intro a b s t hcode
  cases a with
  | none =>
    cases b with
    | none => exact ⟨rfl, (List.cons.inj hcode).2⟩
    | some b => exact absurd (List.cons.inj hcode).1 hflags
  | some a =>
    cases b with
    | none => exact absurd (List.cons.inj hcode).1.symm hflags
    | some b =>
      obtain ⟨rfl, hrest⟩ := h (List.cons.inj hcode).2
      exact ⟨rfl, hrest⟩

/-- Lists of one length, item by item. -/
theorem SelfDelimiting.flatMap {encode : α → List σ} (h : SelfDelimiting encode)
    {as bs : List α} {s t : List σ} (hlength : as.length = bs.length)
    (hcode : as.flatMap encode ++ s = bs.flatMap encode ++ t) : as = bs ∧ s = t := by
  induction as generalizing bs with
  | nil =>
    obtain rfl : bs = [] := List.length_eq_zero_iff.1 hlength.symm
    exact ⟨rfl, hcode⟩
  | cons a as ih =>
    obtain ⟨b, bs, rfl⟩ := List.exists_of_length_succ bs hlength.symm
    rw [List.flatMap_cons, List.flatMap_cons, List.append_assoc, List.append_assoc] at hcode
    obtain ⟨rfl, hrest⟩ := h hcode
    obtain ⟨rfl, hend⟩ := ih (by simpa using hlength) hrest
    exact ⟨rfl, hend⟩

/-- A count, and the items one after the other. -/
theorem SelfDelimiting.counted {count : γ → List σ} (hcount : SelfDelimiting count)
    {encode : α → List σ} (h : SelfDelimiting encode) {items : β → List α}
    (hitems : Function.Injective items) {size : β → γ}
    (hsize : ∀ a b, size a = size b → (items a).length = (items b).length) :
    SelfDelimiting fun b => count (size b) ++ (items b).flatMap encode := fun a b s t hcode => by
  have hcode : count (size a) ++ ((items a).flatMap encode ++ s) =
      count (size b) ++ ((items b).flatMap encode ++ t) := by
    simpa only [List.append_assoc] using hcode
  obtain ⟨hsame, hrest⟩ := hcount hcode
  obtain ⟨hvalue, hrest⟩ := h.flatMap (hsize a b hsame) hrest
  exact ⟨hitems hvalue, hrest⟩

/-- Texts before and after the first mark. -/
theorem eq_of_marked {mark : σ} {x y s t : List σ} (hx : mark ∉ x) (hy : mark ∉ y)
    (h : x ++ mark :: s = y ++ mark :: t) : x = y ∧ s = t := by
  induction x generalizing y with
  | nil =>
    cases y with
    | nil => exact ⟨rfl, (List.cons.inj h).2⟩
    | cons b y => exact absurd (List.mem_cons.2 (.inl (List.cons.inj h).1)) hy
  | cons a x ih =>
    cases y with
    | nil => exact absurd (List.mem_cons.2 (.inl (List.cons.inj h).1.symm)) hx
    | cons b y =>
      obtain ⟨rfl, hrest⟩ := List.cons.inj h
      obtain ⟨rfl, hend⟩ := ih (fun hm => hx (List.mem_cons_of_mem _ hm))
        (fun hm => hy (List.mem_cons_of_mem _ hm)) hrest
      exact ⟨rfl, hend⟩

/-! ### Little-endian words -/

/-- The `n` low bytes of a number, the lowest first. -/
def littleEndian : Nat → Nat → List UInt8
  | 0, _ => []
  | n + 1, value => UInt8.ofNat value :: littleEndian n (value / 256)

@[simp] theorem length_littleEndian (n value : Nat) : (littleEndian n value).length = n := by
  induction n generalizing value with
  | zero => rfl
  | succ n ih => rw [littleEndian, List.length_cons, ih]

/-- Numbers that fit are told apart by their bytes. -/
theorem littleEndian_inj {n a b : Nat} (ha : a < 256 ^ n) (hb : b < 256 ^ n)
    (h : littleEndian n a = littleEndian n b) : a = b := by
  induction n generalizing a b with
  | zero => omega
  | succ n ih =>
    obtain ⟨hlow, hhigh⟩ := List.cons.inj h
    have hmod : a % 256 = b % 256 := by
      simpa using congrArg UInt8.toNat hlow
    have hdiv : a / 256 = b / 256 :=
      ih (by rw [Nat.div_lt_iff_lt_mul (by decide)]; rwa [Nat.pow_succ] at ha)
        (by rw [Nat.div_lt_iff_lt_mul (by decide)]; rwa [Nat.pow_succ] at hb) hhigh
    omega

end PrefixCode
