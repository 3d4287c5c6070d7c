/-
# The text order of instants

A library of its own: how two RFC 3339 texts compare as text. A text that can be
read is made of the fields that are written in it, and two texts compare by the
first field that differs, up to the digits of the fraction (`text_lt_iff`).
Where one fraction ends, the offset stands against a digit: a sign comes before
every digit and `Z` after it. So among texts in UTC a fraction comes after its
own continuations (`format_lt_iff`).
-/

import Memzoi.Lib.Rfc3339
import Mathlib

namespace Rfc3339

open Calendar OffsetDateTime

/-! ### Written fields -/

inductive Zone where
  | utc (lower : Bool)
  | offset (negative : Bool) (hours minutes : Nat)
  deriving DecidableEq, Repr

/-- The fields of a text, with the digits of its fraction. -/
structure Written where
  date : DateFields
  separator : Char
  hour : Nat
  minute : Nat
  second : Nat
  fraction : List Nat
  zone : Zone
  deriving DecidableEq, Repr

def Zone.chars : Zone → List Char
  | utc lower => [if lower then 'z' else 'Z']
  | offset negative hours minutes =>
    (if negative then '-' else '+') :: (digits 2 hours ++ ':' :: digits 2 minutes)

def Zone.Fits : Zone → Prop
  | utc _ => True
  | offset _ hours minutes => hours < 10 ^ 2 ∧ minutes < 10 ^ 2

def fractionChars : List Nat → List Char
  | [] => []
  | d :: ds => '.' :: (d :: ds).map digitChar

namespace Written

/-- The fraction and the offset. -/
def tail (w : Written) : List Char := fractionChars w.fraction ++ w.zone.chars

def chars (w : Written) : List Char :=
  digits 4 w.date.year ++ '-' :: (digits 2 w.date.month ++ '-' :: (digits 2 w.date.day ++
    w.separator :: (digits 2 w.hour ++ ':' :: (digits 2 w.minute ++ ':' :: (digits 2 w.second ++
      w.tail)))))

/-- Every field has the width it is written with. -/
structure Fits (w : Written) : Prop where
  year : w.date.year < 10 ^ 4
  month : w.date.month < 10 ^ 2
  day : w.date.day < 10 ^ 2
  hour : w.hour < 10 ^ 2
  minute : w.minute < 10 ^ 2
  second : w.second < 10 ^ 2
  fraction : ∀ d ∈ w.fraction, d < 10
  zone : w.zone.Fits

end Written

/-! ### The order of fields -/

/-- The first of two fields that differ is less in the first list, or none differs and `p`. -/
def FieldsBefore : List Nat → List Nat → Prop → Prop
  | a :: as, b :: bs, p => a < b ∨ a = b ∧ FieldsBefore as bs p
  | [], [], p => p
  | _, _, _ => False

def Zone.Before : Zone → Zone → Prop
  | offset negative hours minutes, offset negative' hours' minutes' =>
    FieldsBefore [negative.toNat, hours, minutes] [negative'.toNat, hours', minutes'] False
  | offset _ _ _, utc _ => True
  | utc _, offset _ _ _ => False
  | utc lower, utc lower' => lower = false ∧ lower' = true

def Zone.isOffset : Zone → Bool
  | utc _ => false
  | offset _ _ _ => true

/-- A fraction that ends comes before a digit when a sign follows, and after it when `Z` does. -/
def TailBefore : List Nat → Zone → List Nat → Zone → Prop
  | [], z, [], z' => z.Before z'
  | [], z, _ :: _, _ => z.isOffset = true
  | _ :: _, _, [], z' => z'.isOffset = false
  | d :: ds, z, e :: es, z' => d < e ∨ d = e ∧ TailBefore ds z es z'

/-- The fields as they are written: the date, the separator, the time of day, the fraction and the
offset. -/
def Written.Before (w v : Written) : Prop :=
  FieldsBefore
    [w.date.year, w.date.month, w.date.day, w.separator.toNat, w.hour, w.minute, w.second]
    [v.date.year, v.date.month, v.date.day, v.separator.toNat, v.hour, v.minute, v.second]
    (TailBefore w.fraction w.zone v.fraction v.zone)

/-! ### The order of characters -/

theorem char_lt_iff {c d : Char} : c < d ↔ c.toNat < d.toNat := Iff.rfl

theorem digitChar_lt {d e : Nat} (hd : d < 10) (he : e < 10) :
    digitChar d < digitChar e ↔ d < e := by
  have hall : ∀ d < 10, ∀ e < 10, digitChar d < digitChar e ↔ d < e := by decide
  exact hall d hd e he

theorem digitChar_inj {d e : Nat} (hd : d < 10) (he : e < 10) :
    digitChar d = digitChar e ↔ d = e := by
  have hall : ∀ d < 10, ∀ e < 10, digitChar d = digitChar e ↔ d = e := by decide
  exact hall d hd e he

/-- Signs and the point come before the digits, and the letters after them. -/
theorem digitChar_between {d : Nat} (hd : d < 10) :
    '+' < digitChar d ∧ '-' < digitChar d ∧ digitChar d < 'Z' ∧ digitChar d < 'z' := by
  have hall : ∀ d < 10, '+' < digitChar d ∧ '-' < digitChar d ∧ digitChar d < 'Z' ∧
    digitChar d < 'z' := by decide
  exact hall d hd

theorem cons_lt_self {c : Char} {xs ys : List Char} : c :: xs < c :: ys ↔ xs < ys := by
  rw [List.cons_lt_cons_iff]
  simp

/-- Only the last digits are written. -/
theorem digits_mod (k n : Nat) : digits k (n % 10 ^ k) = digits k n := by
  induction k generalizing n with
  | zero => rfl
  | succ k ih =>
      have hdigit : n % 10 ^ (k + 1) / 10 ^ k % 10 = n / 10 ^ k % 10 := by
        rw [Nat.mod_pow_succ, Nat.add_mul_div_left _ _ (by positivity),
          Nat.div_eq_of_lt (Nat.mod_lt _ (by positivity)), Nat.zero_add, Nat.mod_mod]
      have hrest : n % 10 ^ (k + 1) % 10 ^ k = n % 10 ^ k :=
        Nat.mod_mod_of_dvd n (pow_dvd_pow 10 (Nat.le_succ k))
      rw [digits, digits, hdigit, ← ih (n % 10 ^ (k + 1)), hrest, ih n]

/-- Numbers of one width compare as numbers. -/
theorem digits_lt {k n m : Nat} (hn : n < 10 ^ k) (hm : m < 10 ^ k) (xs ys : List Char) :
    digits k n ++ xs < digits k m ++ ys ↔ n < m ∨ n = m ∧ xs < ys := by
  induction k generalizing n m with
  | zero =>
      obtain rfl : n = 0 := by omega
      obtain rfl : m = 0 := by omega
      simp [digits]
  | succ k ih =>
      have hpos : 0 < 10 ^ k := by positivity
      rw [pow_succ] at hn hm
      have hqn : n / 10 ^ k < 10 := Nat.div_lt_of_lt_mul hn
      have hqm : m / 10 ^ k < 10 := Nat.div_lt_of_lt_mul hm
      rw [digits, digits, List.cons_append, List.cons_append, List.cons_lt_cons_iff,
        Nat.mod_eq_of_lt hqn, Nat.mod_eq_of_lt hqm, digitChar_lt hqn hqm, digitChar_inj hqn hqm,
        ← digits_mod k n, ← digits_mod k m, ih (Nat.mod_lt _ hpos) (Nat.mod_lt _ hpos)]
      have hn' := Nat.div_add_mod n (10 ^ k)
      have hm' := Nat.div_add_mod m (10 ^ k)
      constructor
      · rintro (hq | ⟨hq, hr | ⟨hr, hxs⟩⟩)
        · left
          by_contra hge
          exact absurd (Nat.div_le_div_right (c := 10 ^ k) (Nat.le_of_not_lt hge)) (by omega)
        · left
          rw [hq] at hn'
          omega
        · right
          rw [hq, hr] at hn'
          exact ⟨by omega, hxs⟩
      · rintro (hlt | ⟨rfl, hxs⟩)
        · have hle := Nat.div_le_div_right (c := 10 ^ k) (Nat.le_of_lt hlt)
          rcases Nat.lt_or_eq_of_le hle with hq | hq
          · exact Or.inl hq
          · refine Or.inr ⟨hq, Or.inl ?_⟩
            rw [hq] at hn'
            omega
        · exact Or.inr ⟨rfl, Or.inr ⟨rfl, hxs⟩⟩

/-! ### The order of texts -/

theorem Zone.chars_lt {z z' : Zone} (hz : z.Fits) (hz' : z'.Fits) :
    z.chars < z'.chars ↔ z.Before z' := by
  cases z with
  | utc lower =>
      cases z' with
      | utc lower' => cases lower <;> cases lower' <;> simp [chars, Before] <;> decide
      | offset negative' hours' minutes' =>
          cases lower <;> cases negative' <;> simp [chars, Before, List.cons_lt_cons_iff]
  | offset negative hours minutes =>
      cases z' with
      | utc lower' =>
          cases negative <;> cases lower' <;> simp [chars, Before, List.cons_lt_cons_iff]
      | offset negative' hours' minutes' =>
          obtain ⟨hh, hm⟩ := hz
          obtain ⟨hh', hm'⟩ := hz'
          have hminutes : digits 2 minutes < digits 2 minutes' ↔ minutes < minutes' := by
            have h := digits_lt hm hm' [] []
            simpa using h
          have hrest : digits 2 hours ++ ':' :: digits 2 minutes <
              digits 2 hours' ++ ':' :: digits 2 minutes' ↔
                hours < hours' ∨ hours = hours' ∧ minutes < minutes' := by
            rw [digits_lt hh hh', cons_lt_self, hminutes]
          have hsign : (if negative then '-' else '+') < (if negative' then '-' else '+') ↔
              negative.toNat < negative'.toNat := by
            cases negative <;> cases negative' <;> decide
          have hsame : (if negative then '-' else '+') = (if negative' then '-' else '+') ↔
              negative.toNat = negative'.toNat := by
            cases negative <;> cases negative' <;> decide
          rw [chars, chars, List.cons_lt_cons_iff, hrest, hsign, hsame]
          simp [Before, FieldsBefore]

/-- An offset stands before a point and before a digit when it starts with a sign. -/
theorem Zone.chars_lt_cons {c : Char} (hplus : '+' < c) (hminus : '-' < c) (hZ : c < 'Z') (hz : c < 'z')
    (z : Zone) (cs : List Char) : z.chars < c :: cs ↔ z.isOffset = true := by
  cases z with
  | utc lower =>
      have hnot : ¬ (if lower then 'z' else 'Z') < c := by
        cases lower
        · exact not_lt_of_gt hZ
        · exact not_lt_of_gt hz
      have hne : (if lower then 'z' else 'Z') ≠ c := by
        cases lower
        · exact hZ.ne'
        · exact hz.ne'
      rw [chars, List.cons_lt_cons_iff]
      simp [hnot, hne, isOffset]
  | offset negative hours minutes =>
      have hlt : (if negative then '-' else '+') < c := by
        cases negative
        · exact hplus
        · exact hminus
      rw [chars, List.cons_lt_cons_iff]
      simp [hlt, isOffset]

theorem Zone.cons_lt_chars {c : Char} (hplus : '+' < c) (hminus : '-' < c) (hZ : c < 'Z') (hz : c < 'z')
    (z : Zone) (cs : List Char) : c :: cs < z.chars ↔ z.isOffset = false := by
  have hne : c :: cs ≠ z.chars := by
    intro heq
    cases z with
    | utc lower =>
        obtain ⟨hc, -⟩ := List.cons.inj heq
        cases lower
        · exact hZ.ne hc
        · exact hz.ne hc
    | offset negative hours minutes =>
        obtain ⟨hc, -⟩ := List.cons.inj heq
        cases negative
        · exact hplus.ne' hc
        · exact hminus.ne' hc
  have hlt := Zone.chars_lt_cons hplus hminus hZ hz z cs
  rw [← Bool.not_eq_true, ← hlt, not_lt, le_iff_lt_or_eq, or_iff_left hne]

/-- Digits with an offset behind them. -/
theorem digits_zone_lt {ds es : List Nat} {z z' : Zone} (hds : ∀ d ∈ ds, d < 10)
    (hes : ∀ e ∈ es, e < 10) (hz : z.Fits) (hz' : z'.Fits) :
    ds.map digitChar ++ z.chars < es.map digitChar ++ z'.chars ↔ TailBefore ds z es z' := by
  induction ds generalizing es with
  | nil =>
      cases es with
      | nil => exact Zone.chars_lt hz hz'
      | cons e es =>
          obtain ⟨hplus, hminus, hZ, hlower⟩ := digitChar_between (hes e List.mem_cons_self)
          exact Zone.chars_lt_cons hplus hminus hZ hlower z _
  | cons d ds ih =>
      have hd := hds d List.mem_cons_self
      cases es with
      | nil =>
          obtain ⟨hplus, hminus, hZ, hlower⟩ := digitChar_between hd
          exact Zone.cons_lt_chars hplus hminus hZ hlower z' _
      | cons e es =>
          have he := hes e List.mem_cons_self
          rw [List.map_cons, List.map_cons, List.cons_append, List.cons_append,
            List.cons_lt_cons_iff, digitChar_lt hd he, digitChar_inj hd he,
            ih (fun x hx => hds x (List.mem_cons_of_mem _ hx))
              fun x hx => hes x (List.mem_cons_of_mem _ hx)]
          rfl

theorem Written.tail_lt {w v : Written} (hw : w.Fits) (hv : v.Fits) :
    w.tail < v.tail ↔ TailBefore w.fraction w.zone v.fraction v.zone := by
  obtain ⟨hplus, hminus, hZ, hlower⟩ : '+' < '.' ∧ '-' < '.' ∧ '.' < 'Z' ∧ '.' < 'z' := by decide
  have h := digits_zone_lt hw.fraction hv.fraction hw.zone hv.zone
  rw [tail, tail]
  cases hf : w.fraction with
  | nil =>
      cases hg : v.fraction with
      | nil =>
          rw [hf, hg] at h
          exact h
      | cons e es => exact Zone.chars_lt_cons hplus hminus hZ hlower w.zone _
  | cons d ds =>
      cases hg : v.fraction with
      | nil => exact Zone.cons_lt_chars hplus hminus hZ hlower v.zone _
      | cons e es =>
          rw [hf, hg] at h
          rw [fractionChars, fractionChars, List.cons_append, List.cons_append, cons_lt_self]
          exact h

/-- Texts compare by the fields written in them. -/
theorem Written.chars_lt {w v : Written} (hw : w.Fits) (hv : v.Fits) :
    w.chars < v.chars ↔ w.Before v := by
  have hseparator : ∀ xs ys : List Char, w.separator :: xs < v.separator :: ys ↔
      w.separator.toNat < v.separator.toNat ∨ w.separator.toNat = v.separator.toNat ∧ xs < ys := by
    intro xs ys
    rw [List.cons_lt_cons_iff, char_lt_iff, Char.toNat_inj]
  rw [chars, chars, digits_lt hw.year hv.year, cons_lt_self, digits_lt hw.month hv.month,
    cons_lt_self, digits_lt hw.day hv.day, hseparator, digits_lt hw.hour hv.hour, cons_lt_self,
    digits_lt hw.minute hv.minute, cons_lt_self, digits_lt hw.second hv.second, tail_lt hw hv]
  rfl

/-! ### What a text that can be read has written in it -/

theorem digitChar_of_digitValue {c : Char} {d : Nat} (h : digitValue c = some d) :
    d < 10 ∧ c = digitChar d := by
  unfold digitValue at h
  split at h
  · rename_i hc
    obtain rfl := Option.some.inj h
    refine ⟨by omega, ?_⟩
    have hsum : 48 + (c.toNat - 48) = c.toNat := by omega
    rw [digitChar, hsum, Char.ofNat_toNat]
  · cases h

theorem takeDigits_eq_some {k acc n : Nat} {cs rest : List Char}
    (h : takeDigits k acc cs = some (n, rest)) :
    ∃ m, m < 10 ^ k ∧ n = acc * 10 ^ k + m ∧ cs = digits k m ++ rest := by
  induction k generalizing acc cs with
  | zero =>
      rw [takeDigits, Option.some.injEq, Prod.mk.injEq] at h
      exact ⟨0, by omega, by omega, h.2⟩
  | succ k ih =>
      cases cs with
      | nil => cases h
      | cons c cs =>
          rw [takeDigits] at h
          split at h
          · rename_i d hd
            obtain ⟨hlt, rfl⟩ := digitChar_of_digitValue hd
            obtain ⟨m, hm, hn, hcs⟩ := ih h
            have hpos : 0 < 10 ^ k := by positivity
            have hquotient : (d * 10 ^ k + m) / 10 ^ k = d := by
              rw [Nat.mul_comm, Nat.mul_add_div hpos, Nat.div_eq_of_lt hm, Nat.add_zero]
            have hrest : (d * 10 ^ k + m) % 10 ^ k = m := by
              rw [Nat.mul_comm, Nat.mul_add_mod, Nat.mod_eq_of_lt hm]
            refine ⟨d * 10 ^ k + m, ?_, ?_, ?_⟩
            · have hbound : (d + 1) * 10 ^ k ≤ 10 * 10 ^ k := Nat.mul_le_mul_right _ hlt
              rw [pow_succ]
              rw [Nat.add_mul] at hbound
              omega
            · rw [hn, pow_succ]
              ring
            · rw [digits, hquotient, Nat.mod_eq_of_lt hlt, ← digits_mod, hrest, List.cons_append,
                ← hcs]
          · cases h

/-- A number of as many digits as are read. -/
theorem takeDigits_zero {k n : Nat} {cs rest : List Char} (h : takeDigits k 0 cs = some (n, rest)) :
    n < 10 ^ k ∧ cs = digits k n ++ rest := by
  obtain ⟨m, hm, hn, hcs⟩ := takeDigits_eq_some h
  obtain rfl : n = m := by omega
  exact ⟨hm, hcs⟩

theorem takeFraction_digits (k : Nat) (cs : List Char) :
    ∃ ds : List Nat, (∀ d ∈ ds, d < 10) ∧ cs = ds.map digitChar ++ (takeFraction k cs).2 := by
  induction cs generalizing k with
  | nil =>
      refine ⟨[], fun _ hd => absurd hd List.not_mem_nil, ?_⟩
      cases k <;> rfl
  | cons c cs ih =>
      cases hvalue : digitValue c with
      | none =>
          refine ⟨[], fun _ hd => absurd hd List.not_mem_nil, ?_⟩
          cases k <;> simp [takeFraction, hvalue]
      | some d =>
          obtain ⟨hlt, rfl⟩ := digitChar_of_digitValue hvalue
          obtain ⟨ds, hds, hcs⟩ := ih (k - 1)
          refine ⟨d :: ds, List.forall_mem_cons.2 ⟨hlt, hds⟩, ?_⟩
          cases k with
          | zero =>
              simp only [takeFraction, hvalue, List.map_cons, List.cons_append]
              exact congrArg _ hcs
          | succ k =>
              simp only [takeFraction, hvalue, List.map_cons, List.cons_append]
              exact congrArg _ hcs

theorem takeSubsecond_eq_some {n : Nat} {cs rest : List Char}
    (h : takeSubsecond cs = some (n, rest)) :
    ∃ ds : List Nat, (∀ d ∈ ds, d < 10) ∧ cs = fractionChars ds ++ rest := by
  unfold takeSubsecond at h
  split at h
  · rename_i c cs
    split at h
    · rename_i d hd
      obtain ⟨hlt, rfl⟩ := digitChar_of_digitValue hd
      obtain ⟨ds, hds, hcs⟩ := takeFraction_digits 8 cs
      have hrest : (takeFraction 8 cs).2 = rest := by
        simp only [takeFraction, hd] at h
        exact (Prod.mk.inj (Option.some.inj h)).2
      rw [hrest] at hcs
      exact ⟨d :: ds, List.forall_mem_cons.2 ⟨hlt, hds⟩, by rw [hcs]; rfl⟩
    · cases h
  · cases h
  · obtain ⟨-, rfl⟩ := Prod.mk.inj (Option.some.inj h)
    exact ⟨[], fun _ hd => absurd hd List.not_mem_nil, rfl⟩

theorem takeOffset_eq_some {o : Int} {cs rest : List Char} (h : takeOffset cs = some (o, rest)) :
    ∃ z : Zone, z.Fits ∧ cs = z.chars ++ rest := by
  cases cs with
  | nil => cases h
  | cons c cs =>
      rw [takeOffset] at h
      split at h
      · rename_i hletter
        obtain ⟨-, rfl⟩ := Prod.mk.inj (Option.some.inj h)
        rcases hletter with rfl | rfl
        · exact ⟨.utc false, trivial, rfl⟩
        · exact ⟨.utc true, trivial, rfl⟩
      · split at h
        · rename_i hsign
          simp only [Option.bind_eq_bind, Option.bind_eq_some_iff, takeChar_eq_some] at h
          obtain ⟨⟨hours, hs⟩, hhours, ms, hcolon, ⟨minutes, rest'⟩, hminutes, h⟩ := h
          dsimp only at hcolon hminutes h
          split at h
          · obtain ⟨-, rfl⟩ := Prod.mk.inj (Option.some.inj h)
            obtain ⟨hh, hhs⟩ := takeDigits_zero hhours
            obtain ⟨hm, hms⟩ := takeDigits_zero hminutes
            refine ⟨.offset (c = '-') hours minutes, ⟨hh, hm⟩, ?_⟩
            have hc : (if decide (c = '-') then '-' else '+') = c := by
              rcases hsign with rfl | rfl <;> rfl
            rw [Zone.chars, hc, hhs, hcolon, hms]
            simp
          · cases h
        · cases h

/-- A text that can be read is made of fields. -/
theorem exists_written {text : String} {t : OffsetDateTime} (h : parse text = some t) :
    ∃ w : Written, w.Fits ∧ text.toList = w.chars := by
  simp only [parse, parseChars, Option.bind_eq_bind, Option.bind_eq_some_iff] at h
  obtain ⟨⟨date, cs₁⟩, hdate, cs₂, hseparator, ⟨time, cs₃⟩, htime, ⟨offset, cs₄⟩, hoffset, h⟩ := h
  simp only at hseparator htime hoffset h
  split at h
  · rename_i hnil
    subst hnil
    simp only [takeDate, Option.bind_eq_bind, Option.bind_eq_some_iff, takeChar_eq_some,
      Option.some.injEq, Prod.mk.injEq] at hdate
    obtain ⟨⟨year, ds₁⟩, hyear, ds₂, hds₂, ⟨month, ds₃⟩, hmonth, ds₄, hds₄, ⟨day, ds₅⟩, hday, -, rfl⟩ :=
      hdate
    simp only [takeTime, Option.bind_eq_bind, Option.bind_eq_some_iff, takeChar_eq_some,
      Option.some.injEq, Prod.mk.injEq] at htime
    obtain ⟨⟨hour, es₁⟩, hhour, es₂, hes₂, ⟨minute, es₃⟩, hminute, es₄, hes₄, ⟨second, es₅⟩, hsecond,
      ⟨nanos, es₆⟩, hnanos, -, rfl⟩ := htime
    obtain ⟨hy, hyear⟩ := takeDigits_zero hyear
    obtain ⟨hmo, hmonth⟩ := takeDigits_zero hmonth
    obtain ⟨hda, hday⟩ := takeDigits_zero hday
    obtain ⟨hho, hhour⟩ := takeDigits_zero hhour
    obtain ⟨hmi, hminute⟩ := takeDigits_zero hminute
    obtain ⟨hse, hsecond⟩ := takeDigits_zero hsecond
    obtain ⟨fraction, hfraction, hnanos⟩ := takeSubsecond_eq_some hnanos
    obtain ⟨zone, hzone, hoffset⟩ := takeOffset_eq_some hoffset
    obtain ⟨separator, hseparator⟩ : ∃ c, ds₅ = c :: cs₂ := by
      cases ds₅ with
      | nil => cases hseparator
      | cons c cs =>
          rw [takeSeparator] at hseparator
          split at hseparator
          · exact ⟨c, by rw [Option.some.inj hseparator]⟩
          · cases hseparator
    refine ⟨⟨⟨year, month, day⟩, separator, hour, minute, second, fraction, zone⟩,
      ⟨hy, hmo, hda, hho, hmi, hse, hfraction, hzone⟩, ?_⟩
    dsimp only at hds₂ hds₄ hmonth hday hhour hminute hsecond hnanos hoffset hes₂ hes₄
    rw [hyear, hds₂, hmonth, hds₄, hday, hseparator, hhour, hes₂, hminute, hes₄, hsecond, hnanos,
      hoffset, List.append_nil]
    rfl
  · cases h

/-- The fields written in one text come before those written in the other. -/
def WrittenBefore (a b : String) : Prop :=
  ∃ w v : Written, w.Fits ∧ v.Fits ∧ a.toList = w.chars ∧ b.toList = v.chars ∧ w.Before v

/-- Texts that can be read compare by the fields written in them. -/
theorem text_lt_iff {a b : String} {s t : OffsetDateTime} (ha : parse a = some s)
    (hb : parse b = some t) : a < b ↔ WrittenBefore a b := by
  obtain ⟨w, hw, haw⟩ := exists_written ha
  obtain ⟨v, hv, hbv⟩ := exists_written hb
  rw [String.lt_iff_toList_lt]
  constructor
  · intro hlt
    rw [haw, hbv] at hlt
    exact ⟨w, v, hw, hv, haw, hbv, (Written.chars_lt hw hv).1 hlt⟩
  · rintro ⟨w', v', hw', hv', haw', hbv', hbefore⟩
    rw [haw', hbv']
    exact (Written.chars_lt hw' hv').2 hbefore

/-! ### Texts of the writer -/

/-- The values of `fractionDigits`. -/
def fractionValues : Nat → Nat → List Nat
  | _, 0 => []
  | 0, _ + 1 => []
  | k + 1, n + 1 => (n + 1) / 10 ^ k % 10 :: fractionValues k ((n + 1) % 10 ^ k)

theorem fractionDigits_eq (k n : Nat) : fractionDigits k n = (fractionValues k n).map digitChar := by
  induction k generalizing n with
  | zero => cases n <;> rfl
  | succ k ih =>
      cases n with
      | zero => rfl
      | succ n => rw [fractionDigits, fractionValues, List.map_cons, ih]

theorem fractionValues_lt {k n : Nat} : ∀ d ∈ fractionValues k n, d < 10 := by
  induction k generalizing n with
  | zero => cases n <;> exact fun d hd => absurd hd List.not_mem_nil
  | succ k ih =>
      cases n with
      | zero => exact fun d hd => absurd hd List.not_mem_nil
      | succ n => exact List.forall_mem_cons.2 ⟨Nat.mod_lt _ (by omega), ih⟩

theorem subsecondChars_eq (nanos : Nat) :
    subsecondChars nanos = fractionChars (fractionValues 9 nanos) := by
  rw [subsecondChars, fractionDigits_eq]
  cases nanos with
  | zero => rfl
  | succ n => rfl

/-- In UTC the lesser of two fractions comes first unless the greater one continues it. -/
theorem tailBefore_utc {k n m : Nat} (h : n < m) (hm : m < 10 ^ k) :
    TailBefore (fractionValues k n) (.utc false) (fractionValues k m) (.utc false) ↔
      ¬ fractionValues k n <+: fractionValues k m := by
  induction k generalizing n m with
  | zero => omega
  | succ k ih =>
      obtain ⟨m, rfl⟩ : ∃ l, m = l + 1 := ⟨m - 1, by omega⟩
      cases n with
      | zero => exact iff_of_false Bool.false_ne_true fun hnot => hnot List.nil_prefix
      | succ n =>
          rw [pow_succ] at hm
          have hqm : (m + 1) / 10 ^ k < 10 := Nat.div_lt_of_lt_mul hm
          have hle : (n + 1) / 10 ^ k ≤ (m + 1) / 10 ^ k := Nat.div_le_div_right (Nat.le_of_lt h)
          have hn' := Nat.div_add_mod (n + 1) (10 ^ k)
          have hm' := Nat.div_add_mod (m + 1) (10 ^ k)
          have hrest : (m + 1) % 10 ^ k < 10 ^ k := Nat.mod_lt _ (by positivity)
          rw [fractionValues, fractionValues, Nat.mod_eq_of_lt hqm,
            Nat.mod_eq_of_lt (Nat.lt_of_le_of_lt hle hqm), TailBefore, List.cons_prefix_cons]
          rcases Nat.lt_or_eq_of_le hle with hlt | heq
          · exact iff_of_true (Or.inl hlt) fun hprefix => (Nat.ne_of_lt hlt) hprefix.1
          · have hless : (n + 1) % 10 ^ k < (m + 1) % 10 ^ k := by
              rw [heq] at hn'
              omega
            rw [heq, ih hless hrest]
            simp

/-- The fields of an instant in UTC. -/
def writtenUtc (utc : Int) : Written :=
  let t : OffsetDateTime := ⟨utc, 0⟩
  let nanoOfDay := t.nanoOfDay.toNat
  let second := nanoOfDay / 1000000000
  { date := ⟨t.civil.year.toNat, t.civil.month.toNat, t.civil.day.toNat⟩
    separator := 'T'
    hour := second / 3600
    minute := second / 60 % 60
    second := second % 60
    fraction := fractionValues 9 (nanoOfDay % 1000000000)
    zone := .utc false }

theorem format_written {utc : Int} {text : String} (h : format ⟨utc, 0⟩ = some text) :
    (writtenUtc utc).Fits ∧ text.toList = (writtenUtc utc).chars := by
  unfold format at h
  split at h
  · rename_i hrange
    obtain ⟨hy0, hy1, -, -⟩ := hrange
    obtain rfl := Option.some.inj h
    have hvalid := civilFromDays_valid ((⟨utc, 0⟩ : OffsetDateTime).localNanos / nanosPerDay)
    have hday : (⟨utc, 0⟩ : OffsetDateTime).civil.day ≤ 31 := by
      refine le_trans hvalid.2.2.2 ?_
      unfold daysInMonth
      split_ifs <;> simp
    obtain ⟨-, hm12, -, -⟩ := hvalid
    have hmonth : (⟨utc, 0⟩ : OffsetDateTime).civil.month ≤ 12 := hm12
    have hnano : (⟨utc, 0⟩ : OffsetDateTime).nanoOfDay.toNat < 86400000000000 := by
      unfold nanoOfDay nanosPerDay
      omega
    refine ⟨⟨?_, ?_, ?_, ?_, ?_, ?_, fractionValues_lt, trivial⟩, ?_⟩
    · simp only [writtenUtc]; omega
    · simp only [writtenUtc]; omega
    · simp only [writtenUtc]; omega
    · simp only [writtenUtc]; omega
    · simp only [writtenUtc]; omega
    · simp only [writtenUtc]; omega
    · rw [String.toList_ofList]
      simp only [formatChars, dateChars, timeChars, offsetChars, subsecondChars_eq, Written.chars,
        Written.tail, writtenUtc, Zone.chars, List.append_assoc, List.cons_append]
      rfl
  · cases h

theorem prefix_map_digitChar {ds es : List Nat} (hds : ∀ d ∈ ds, d < 10) (hes : ∀ e ∈ es, e < 10) :
    ds.map digitChar <+: es.map digitChar ↔ ds <+: es := by
  have hback : ∀ ns : List Nat, (∀ n ∈ ns, n < 10) → (ns.map digitChar).filterMap digitValue = ns := by
    intro ns hns
    rw [List.filterMap_map]
    refine (List.filterMap_congr fun n hn => ?_).trans List.filterMap_some
    exact digitValue_digitChar (hns n hn)
  constructor
  · intro h
    have hvalues := h.filterMap digitValue
    rwa [hback ds hds, hback es hes] at hvalues
  · exact fun h => h.map digitChar

/-- Fields of a later second come later. -/
theorem writtenUtc_before {u v : Int} (hu : 0 ≤ (⟨u, 0⟩ : OffsetDateTime).civil.year)
    (hlt : u / nanosPerSecond < v / nanosPerSecond) : (writtenUtc u).Before (writtenUtc v) := by
  have hlocal : ∀ x : Int, (⟨x, 0⟩ : OffsetDateTime).localNanos = x := fun x => by simp [localNanos]
  simp only [civil, hlocal] at hu
  simp only [Written.Before, writtenUtc, FieldsBefore, civil, nanoOfDay, hlocal]
  have hvalid := civilFromDays_valid (u / nanosPerDay)
  have hvalid' := civilFromDays_valid (v / nanosPerDay)
  obtain ⟨hm, -, hd, -⟩ := hvalid
  obtain ⟨hm', -, hd', -⟩ := hvalid'
  have hdays : u / nanosPerDay ≤ v / nanosPerDay := by
    unfold nanosPerSecond at hlt
    unfold nanosPerDay
    omega
  rcases Int.lt_or_eq_of_le hdays with hday | hday
  · rcases civilFromDays_before hday with hyear | ⟨hyear, hmonth | ⟨hmonth, hless⟩⟩
    · exact Or.inl (by omega)
    · exact Or.inr ⟨by omega, Or.inl (by omega)⟩
    · exact Or.inr ⟨by omega, Or.inr ⟨by omega, Or.inl (by omega)⟩⟩
  · refine Or.inr ⟨by rw [hday], Or.inr ⟨by rw [hday], Or.inr ⟨by rw [hday], Or.inr ⟨trivial, ?_⟩⟩⟩⟩
    have hseconds : (u % nanosPerDay).toNat / 1000000000 < (v % nanosPerDay).toNat / 1000000000 := by
      unfold nanosPerSecond at hlt
      unfold nanosPerDay at hday ⊢
      omega
    generalize (u % nanosPerDay).toNat / 1000000000 = x at hseconds ⊢
    generalize (v % nanosPerDay).toNat / 1000000000 = y at hseconds ⊢
    have hfields : x / 3600 < y / 3600 ∨ x / 3600 = y / 3600 ∧ (x / 60 % 60 < y / 60 % 60 ∨
        x / 60 % 60 = y / 60 % 60 ∧ x % 60 < y % 60) := by omega
    rcases hfields with hhour | ⟨hhour, hminute | ⟨hminute, hsecond⟩⟩
    · exact Or.inl hhour
    · exact Or.inr ⟨hhour, Or.inl hminute⟩
    · exact Or.inr ⟨hhour, Or.inr ⟨hminute, Or.inl hsecond⟩⟩

/-- In one second the fractions decide. -/
theorem writtenUtc_before_second {u v : Int} (hlt : u < v)
    (hsame : u / nanosPerSecond = v / nanosPerSecond) :
    (writtenUtc u).Before (writtenUtc v) ↔
      ¬ fractionValues 9 (u % nanosPerSecond).toNat <+: fractionValues 9 (v % nanosPerSecond).toNat := by
  have hlocal : ∀ x : Int, (⟨x, 0⟩ : OffsetDateTime).localNanos = x := fun x => by simp [localNanos]
  have hnanos : ∀ x : Int,
      (x % nanosPerDay).toNat % 1000000000 = (x % nanosPerSecond).toNat := by
    intro x
    unfold nanosPerDay nanosPerSecond
    omega
  have hday : u / nanosPerDay = v / nanosPerDay := by
    unfold nanosPerSecond at hsame
    unfold nanosPerDay
    omega
  have hseconds : (u % nanosPerDay).toNat / 1000000000 = (v % nanosPerDay).toNat / 1000000000 := by
    unfold nanosPerSecond at hsame
    unfold nanosPerDay at hday ⊢
    omega
  have hless : (u % nanosPerSecond).toNat < (v % nanosPerSecond).toNat := by
    unfold nanosPerSecond at hsame ⊢
    omega
  have hbound : (v % nanosPerSecond).toNat < 10 ^ 9 := by
    unfold nanosPerSecond
    omega
  rw [← tailBefore_utc hless hbound]
  simp only [Written.Before, writtenUtc, FieldsBefore, civil, nanoOfDay, hlocal, hday, hseconds,
    hnanos, Nat.lt_irrefl, false_or, true_and]

/-- Texts of the writer compare as their instants, except in one second where the digits of the
later fraction continue those of the earlier one. -/
theorem format_lt_iff {u v : Int} {a b : String} (ha : format ⟨u, 0⟩ = some a)
    (hb : format ⟨v, 0⟩ = some b) (hlt : u < v) :
    a < b ↔ ¬ (u / nanosPerSecond = v / nanosPerSecond ∧
      fractionDigits 9 (u % nanosPerSecond).toNat <+: fractionDigits 9 (v % nanosPerSecond).toNat) := by
  obtain ⟨hfits, hau⟩ := format_written ha
  obtain ⟨hfits', hbv⟩ := format_written hb
  rw [String.lt_iff_toList_lt, hau, hbv, Written.chars_lt hfits hfits', fractionDigits_eq,
    fractionDigits_eq, prefix_map_digitChar fractionValues_lt fractionValues_lt]
  have hle : u / nanosPerSecond ≤ v / nanosPerSecond := by
    unfold nanosPerSecond
    omega
  rcases Int.lt_or_eq_of_le hle with hseconds | hseconds
  · have hyear : 0 ≤ (⟨u, 0⟩ : OffsetDateTime).civil.year := by
      unfold format at ha
      split at ha
      · rename_i hrange
        exact hrange.1
      · cases ha
    exact iff_of_true (writtenUtc_before hyear hseconds) fun hboth => by omega
  · rw [writtenUtc_before_second hlt hseconds, not_and]
    exact ⟨fun hnot _ => hnot, fun hnot => hnot hseconds⟩

end Rfc3339
