/-
# The proleptic Gregorian calendar

A library of its own: days since 1970-01-01 to a calendar date and back. Both
directions go through the year that starts in March (`MarchDay`), where the
leap day is the last day, so a date is a year and a day of that year, and the
month lengths from March on follow one formula, `(153 m + 2) / 5`.
-/

import Mathlib

namespace Calendar

/-- A calendar date; `valid` says it names a day. -/
structure CivilDate where
  year : Int
  month : Int
  day : Int
  deriving DecidableEq, Repr

/-- Leap years: every fourth year, but of the centuries only every fourth. -/
def isLeapYear (y : Int) : Prop := y % 4 = 0 ∧ (y % 100 ≠ 0 ∨ y % 400 = 0)

instance (y : Int) : Decidable (isLeapYear y) := inferInstanceAs (Decidable (_ ∧ _))

def daysInMonth (year month : Int) : Int :=
  if month = 2 then (if isLeapYear year then 29 else 28)
  else if month = 4 ∨ month = 6 ∨ month = 9 ∨ month = 11 then 30
  else 31

/-- The month is one of twelve and has that day. -/
def CivilDate.valid (c : CivilDate) : Prop :=
  1 ≤ c.month ∧ c.month ≤ 12 ∧ 1 ≤ c.day ∧ c.day ≤ daysInMonth c.year c.month

instance (c : CivilDate) : Decidable c.valid := inferInstanceAs (Decidable (_ ∧ _))

/-- A day of a year that starts on the first of March, counted from zero. -/
structure MarchDay where
  year : Int
  day : Int
  deriving DecidableEq, Repr

def CivilDate.toMarch (c : CivilDate) : MarchDay :=
  if c.month ≤ 2 then ⟨c.year - 1, (153 * (c.month + 9) + 2) / 5 + (c.day - 1)⟩
  else ⟨c.year, (153 * (c.month - 3) + 2) / 5 + (c.day - 1)⟩

def MarchDay.toCivil (m : MarchDay) : CivilDate :=
  let mp := (5 * m.day + 2) / 153
  let day := m.day - (153 * mp + 2) / 5 + 1
  if mp < 10 then ⟨m.year, mp + 3, day⟩ else ⟨m.year + 1, mp - 9, day⟩

theorem toMarch_toCivil {m : MarchDay} (h0 : 0 ≤ m.day) (h1 : m.day ≤ 365) :
    m.toCivil.toMarch = m := by
  obtain ⟨y, d⟩ := m
  unfold MarchDay.toCivil
  dsimp only at h0 h1 ⊢
  generalize hmp : (5 * d + 2) / 153 = mp
  split
  · simp only [CivilDate.toMarch]
    rw [if_neg (by omega)]
    congr 1
    omega
  · simp only [CivilDate.toMarch]
    rw [if_pos (by omega)]
    congr 1
    · omega
    · omega

/-- A day of a 400-year era: its century, four-year group, year and day, from zero. -/
structure EraDay where
  century : Int
  quad : Int
  year : Int
  day : Int

/-- The last century of an era, and the last year of a group, are one day longer. -/
def eraDay (doe : Int) : EraDay :=
  let century := min (doe / 36524) 3
  let doc := doe - 36524 * century
  let quad := doc / 1461
  let doq := doc - 1461 * quad
  let year := min (doq / 365) 3
  ⟨century, quad, year, doq - 365 * year⟩

/-- Every part of an era day is in range, and the parts add up to the day of the era.
The 366th day of a year falls in the last year of a group, and in the last group of a
century only when the century ends the era. -/
theorem eraDay_spec (doe : Int) (h0 : 0 ≤ doe) (h1 : doe < 146097) :
    0 ≤ (eraDay doe).century ∧ (eraDay doe).century ≤ 3 ∧
      0 ≤ (eraDay doe).quad ∧ (eraDay doe).quad ≤ 24 ∧
      0 ≤ (eraDay doe).year ∧ (eraDay doe).year ≤ 3 ∧
      0 ≤ (eraDay doe).day ∧ (eraDay doe).day ≤ 365 ∧
      doe = 36524 * (eraDay doe).century + 1461 * (eraDay doe).quad
        + 365 * (eraDay doe).year + (eraDay doe).day ∧
      ((eraDay doe).day = 365 →
        (eraDay doe).year = 3 ∧ ((eraDay doe).quad = 24 → (eraDay doe).century = 3)) := by
  simp only [eraDay]
  omega

/-- Days since the first of March of year 0. -/
def MarchDay.toDays (m : MarchDay) : Int :=
  m.year / 400 * 146097 + (m.year % 400 * 365 + m.year % 400 / 4 - m.year % 400 / 100) + m.day

def MarchDay.ofDays (z : Int) : MarchDay :=
  let e := eraDay (z % 146097)
  ⟨z / 146097 * 400 + (100 * e.century + 4 * e.quad + e.year), e.day⟩

theorem toDays_ofDays (z : Int) : (MarchDay.ofDays z).toDays = z := by
  have he := eraDay_spec (z % 146097) (by omega) (by omega)
  simp only [MarchDay.toDays, MarchDay.ofDays]
  generalize eraDay (z % 146097) = e at he ⊢
  have hera : (z / 146097 * 400 + (100 * e.century + 4 * e.quad + e.year)) / 400 = z / 146097 := by
    omega
  have hyoe : (z / 146097 * 400 + (100 * e.century + 4 * e.quad + e.year)) % 400
      = 100 * e.century + 4 * e.quad + e.year := by omega
  have hquads : (100 * e.century + 4 * e.quad + e.year) / 4 = 25 * e.century + e.quad := by omega
  have hcenturies : (100 * e.century + 4 * e.quad + e.year) / 100 = e.century := by omega
  rw [hera, hyoe, hquads, hcenturies]
  omega

theorem ofDays_day (z : Int) :
    0 ≤ (MarchDay.ofDays z).day ∧ (MarchDay.ofDays z).day ≤ 365 := by
  have he := eraDay_spec (z % 146097) (by omega) (by omega)
  exact ⟨he.2.2.2.2.2.2.1, he.2.2.2.2.2.2.2.1⟩

/-- The 366th day from March is the leap day of the next calendar year. -/
theorem ofDays_leap {z : Int} (h : (MarchDay.ofDays z).day = 365) :
    isLeapYear ((MarchDay.ofDays z).year + 1) := by
  have he := eraDay_spec (z % 146097) (by omega) (by omega)
  simp only [MarchDay.ofDays, isLeapYear] at h ⊢
  generalize eraDay (z % 146097) = e at he h ⊢
  obtain ⟨hy, hq⟩ := he.2.2.2.2.2.2.2.2.2 h
  omega

/-- Days since 1970-01-01. -/
def daysFromCivil (c : CivilDate) : Int := c.toMarch.toDays - 719468

def civilFromDays (n : Int) : CivilDate := (MarchDay.ofDays (n + 719468)).toCivil

example : civilFromDays 0 = ⟨1970, 1, 1⟩ := by decide

theorem daysFromCivil_civilFromDays (n : Int) : daysFromCivil (civilFromDays n) = n := by
  obtain ⟨h0, h1⟩ := ofDays_day (n + 719468)
  rw [daysFromCivil, civilFromDays, toMarch_toCivil h0 h1, toDays_ofDays]
  omega

theorem toCivil_valid {m : MarchDay} (h0 : 0 ≤ m.day) (h1 : m.day ≤ 365)
    (hleap : m.day = 365 → isLeapYear (m.year + 1)) : m.toCivil.valid := by
  obtain ⟨y, d⟩ := m
  unfold MarchDay.toCivil CivilDate.valid daysInMonth
  dsimp only at h0 h1 hleap ⊢
  generalize hmp : (5 * d + 2) / 153 = mp
  by_cases hm : mp < 10
  · rw [if_pos hm]
    dsimp only
    rw [if_neg (by omega : ¬ mp + 3 = 2)]
    refine ⟨by omega, by omega, by omega, ?_⟩
    split <;> omega
  · rw [if_neg hm]
    dsimp only
    refine ⟨by omega, by omega, by omega, ?_⟩
    by_cases hl : isLeapYear (y + 1)
    · rw [if_pos hl]
      split_ifs <;> omega
    · -- without a leap day the year from March has 365 days
      have hd : d ≠ 365 := fun hd => hl (hleap hd)
      rw [if_neg hl]
      split_ifs <;> omega

theorem civilFromDays_valid (n : Int) : (civilFromDays n).valid := by
  obtain ⟨h0, h1⟩ := ofDays_day (n + 719468)
  exact toCivil_valid h0 h1 ofDays_leap

/-- January and February belong to the year after the one that started in March. -/
theorem toCivil_year (m : MarchDay) :
    (m.day ≤ 305 → m.toCivil.year = m.year) ∧ (305 < m.day → m.toCivil.year = m.year + 1) := by
  unfold MarchDay.toCivil
  dsimp only
  split
  · exact ⟨fun _ => rfl, fun h => by omega⟩
  · exact ⟨fun h => by omega, fun _ => rfl⟩

/-- The days of the years 0 to 9999. -/
theorem civilFromDays_year (n : Int) :
    (0 ≤ (civilFromDays n).year ∧ (civilFromDays n).year ≤ 9999) ↔
      (-719528 ≤ n ∧ n ≤ 2932896) := by
  have he := eraDay_spec ((n + 719468) % 146097) (by omega) (by omega)
  obtain ⟨hearly, hlate⟩ := toCivil_year (MarchDay.ofDays (n + 719468))
  rw [civilFromDays]
  generalize (MarchDay.ofDays (n + 719468)).toCivil.year = year at hearly hlate ⊢
  simp only [MarchDay.ofDays] at hearly hlate
  generalize eraDay ((n + 719468) % 146097) = e at he hearly hlate
  -- the first and the last era are the only ones a year bound cuts through
  have hlo : (n + 719468) / 146097 ≤ -2 ∨ (n + 719468) / 146097 = -1 ∨
      0 ≤ (n + 719468) / 146097 := by omega
  have hhi : (n + 719468) / 146097 ≤ 23 ∨ (n + 719468) / 146097 = 24 ∨
      25 ≤ (n + 719468) / 146097 := by omega
  rcases hlo with hlo | hlo | hlo <;> rcases hhi with hhi | hhi | hhi <;> omega

/-- No date of the years from 0 on comes before the first of January of year 0. -/
theorem daysFromCivil_ge {c : CivilDate} (hvalid : c.valid) (hyear : 0 ≤ c.year) :
    -719528 ≤ daysFromCivil c := by
  obtain ⟨hm1, hm12, hd1, -⟩ := hvalid
  unfold daysFromCivil CivilDate.toMarch MarchDay.toDays
  split
  · dsimp only
    omega
  · dsimp only
    omega

/-! ### The order of dates -/

/-- The first day of a month, with the months counted on from January of year 0. -/
def monthStart (k : Int) : Int := daysFromCivil ⟨k / 12, k % 12 + 1, 1⟩

theorem daysFromCivil_monthStart {c : CivilDate} (hvalid : c.valid) :
    daysFromCivil c = monthStart (12 * c.year + (c.month - 1)) + (c.day - 1) := by
  obtain ⟨year, month, day⟩ := c
  obtain ⟨hm1, hm12, -, -⟩ := hvalid
  dsimp only at hm1 hm12
  have hyear : (12 * year + (month - 1)) / 12 = year := by omega
  have hmonth : (12 * year + (month - 1)) % 12 + 1 = month := by omega
  dsimp only
  rw [monthStart, hyear, hmonth]
  simp only [daysFromCivil, CivilDate.toMarch, MarchDay.toDays]
  split
  · dsimp only
    omega
  · dsimp only
    omega

/-- A month is followed by the next one. -/
theorem monthStart_succ (k : Int) :
    monthStart (k + 1) = monthStart k + daysInMonth (k / 12) (k % 12 + 1) := by
  have hcases : k % 12 = 11 ∧ (k + 1) / 12 = k / 12 + 1 ∧ (k + 1) % 12 = 0 ∨
      k % 12 ≤ 10 ∧ (k + 1) / 12 = k / 12 ∧ (k + 1) % 12 = k % 12 + 1 := by omega
  have hnonneg : 0 ≤ k % 12 := by omega
  rw [monthStart, monthStart]
  generalize k / 12 = year at hcases ⊢
  generalize k % 12 = month at hcases hnonneg ⊢
  rcases hcases with ⟨rfl, hyear, hmonth⟩ | ⟨hle, hyear, hmonth⟩
  · rw [hyear, hmonth]
    simp only [daysFromCivil, CivilDate.toMarch, MarchDay.toDays, daysInMonth]
    norm_num
    omega
  · rw [hyear, hmonth]
    by_cases hfebruary : month = 1
    · subst hfebruary
      simp only [daysFromCivil, CivilDate.toMarch, MarchDay.toDays, daysInMonth, isLeapYear]
      norm_num
      split_ifs <;> omega
    · obtain rfl | rfl | rfl | rfl | rfl | rfl | rfl | rfl | rfl | rfl : month = 0 ∨ month = 2 ∨
          month = 3 ∨ month = 4 ∨ month = 5 ∨ month = 6 ∨ month = 7 ∨ month = 8 ∨ month = 9 ∨
          month = 10 := by omega
      all_goals
        simp only [daysFromCivil, CivilDate.toMarch, MarchDay.toDays, daysInMonth]
        norm_num
        omega

theorem daysInMonth_pos (year month : Int) : 0 < daysInMonth year month := by
  unfold daysInMonth
  split_ifs <;> omega

theorem monthStart_le {k l : Int} (h : k ≤ l) : monthStart k ≤ monthStart l := by
  obtain ⟨n, rfl⟩ := Int.le.dest h
  clear h
  induction n with
  | zero => exact Int.le_of_eq (by rw [Int.ofNat_zero, Int.add_zero])
  | succ n ih =>
      have hstep := monthStart_succ (k + n)
      have hpos := daysInMonth_pos ((k + n) / 12) ((k + n) % 12 + 1)
      have hshape : k + (n + 1 : Nat) = k + n + 1 := by omega
      rw [hshape]
      omega

/-- The year decides first, then the month, then the day. -/
def CivilDate.Before (c d : CivilDate) : Prop :=
  c.year < d.year ∨ c.year = d.year ∧ (c.month < d.month ∨ c.month = d.month ∧ c.day < d.day)

theorem daysFromCivil_lt {c d : CivilDate} (hc : c.valid) (hd : d.valid) (h : c.Before d) :
    daysFromCivil c < daysFromCivil d := by
  rw [daysFromCivil_monthStart hc, daysFromCivil_monthStart hd]
  have hdays : c.day ≤ daysInMonth c.year c.month := hc.2.2.2
  obtain ⟨hm1, hm12, -, -⟩ := hc
  obtain ⟨hm1', hm12', hd1', -⟩ := hd
  have hstep := monthStart_succ (12 * c.year + (c.month - 1))
  have hyear : (12 * c.year + (c.month - 1)) / 12 = c.year := by omega
  have hmonth : (12 * c.year + (c.month - 1)) % 12 + 1 = c.month := by omega
  rw [hyear, hmonth] at hstep
  have hnext : 12 * c.year + (c.month - 1) < 12 * d.year + (d.month - 1) →
      monthStart (12 * c.year + (c.month - 1) + 1) ≤ monthStart (12 * d.year + (d.month - 1)) :=
    fun hlt => monthStart_le hlt
  rcases h with hlt | ⟨hsame, hlt | ⟨hsame', hlt⟩⟩
  · have hle := hnext (by omega)
    omega
  · have hle := hnext (by omega)
    omega
  · rw [hsame, hsame']
    omega

/-- Later days have later dates. -/
theorem civilFromDays_before {m n : Int} (h : m < n) :
    (civilFromDays m).Before (civilFromDays n) := by
  by_contra hnot
  have hm := daysFromCivil_civilFromDays m
  have hn := daysFromCivil_civilFromDays n
  have hother : civilFromDays n = civilFromDays m ∨ (civilFromDays n).Before (civilFromDays m) := by
    unfold CivilDate.Before at hnot ⊢
    generalize civilFromDays m = c at hnot ⊢
    generalize civilFromDays n = d at hnot ⊢
    obtain ⟨y, mo, da⟩ := c
    obtain ⟨y', mo', da'⟩ := d
    rw [CivilDate.mk.injEq]
    dsimp only at hnot ⊢
    omega
  rcases hother with heq | hbefore
  · rw [heq] at hn
    omega
  · have hlt := daysFromCivil_lt (civilFromDays_valid n) (civilFromDays_valid m) hbefore
    omega

end Calendar
