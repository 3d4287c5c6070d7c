/-
# Instants with a UTC offset and their RFC 3339 text

A library of its own: an instant counted in nanoseconds since the Unix epoch,
kept with the offset it was written in, with the range checks of a calendar
limited to the years -9999 to 9999, and the RFC 3339 reader and writer.

The reader takes a four-digit year, any one-byte separator between date and
time, a fraction of any length cut after nine digits, `Z` in either case or a
numeric offset, and the second 60 only where a leap second can stand. The
writer drops trailing zeros of the fraction, and the whole fraction when it is
zero. `parse_format` is the round trip of what the writer wrote in UTC.
-/

import Memzoi.Lib.Calendar
import Memzoi.Lib.Text
import Mathlib

open Calendar

/-- An instant, in nanoseconds since the Unix epoch, and the offset from UTC, in
seconds, it is shown in. Instants compare by `utc` alone. -/
structure OffsetDateTime where
  utc : Int
  offset : Int
  deriving DecidableEq, Repr

namespace OffsetDateTime

def nanosPerSecond : Int := 1000000000
def nanosPerDay : Int := 86400000000000

instance : LE OffsetDateTime := ⟨fun a b => a.utc ≤ b.utc⟩
instance : LT OffsetDateTime := ⟨fun a b => a.utc < b.utc⟩
instance (a b : OffsetDateTime) : Decidable (a ≤ b) := inferInstanceAs (Decidable (a.utc ≤ b.utc))
instance (a b : OffsetDateTime) : Decidable (a < b) := inferInstanceAs (Decidable (a.utc < b.utc))

@[simp] theorem le_def {a b : OffsetDateTime} : a ≤ b ↔ a.utc ≤ b.utc := Iff.rfl
@[simp] theorem lt_def {a b : OffsetDateTime} : a < b ↔ a.utc < b.utc := Iff.rfl

/-- The reading of a clock at the instant's own offset. -/
def localNanos (t : OffsetDateTime) : Int := t.utc + t.offset * nanosPerSecond

/-- The first and last representable local readings: years -9999 and 9999. -/
def minLocal : Int := daysFromCivil ⟨-9999, 1, 1⟩ * nanosPerDay
def maxLocal : Int := daysFromCivil ⟨10000, 1, 1⟩ * nanosPerDay - 1

def representable (t : OffsetDateTime) : Prop := minLocal ≤ t.localNanos ∧ t.localNanos ≤ maxLocal

instance (t : OffsetDateTime) : Decidable t.representable := inferInstanceAs (Decidable (_ ∧ _))

/-- Add a duration in nanoseconds, or nothing when the local reading leaves the calendar. -/
def checkedAdd (t : OffsetDateTime) (nanos : Int) : Option OffsetDateTime :=
  let u : OffsetDateTime := { t with utc := t.utc + nanos }
  if u.representable then some u else none

/-- Show the same instant in another offset, or nothing when that reading leaves the calendar. -/
def checkedToOffset (t : OffsetDateTime) (offset : Int) : Option OffsetDateTime :=
  let u : OffsetDateTime := { t with offset := offset }
  if u.representable then some u else none

def civil (t : OffsetDateTime) : CivilDate := civilFromDays (t.localNanos / nanosPerDay)
def nanoOfDay (t : OffsetDateTime) : Int := t.localNanos % nanosPerDay

/-- The instants whose UTC reading has a four-digit year. -/
def minWritten : Int := -719528 * nanosPerDay
def maxWritten : Int := 2932897 * nanosPerDay - 1

theorem maxLocal_eq : maxLocal = maxWritten := by decide

theorem minLocal_lt : minLocal < minWritten := by decide

end OffsetDateTime

namespace Rfc3339

open OffsetDateTime

/-! ### Digits -/

def digitChar (n : Nat) : Char := Char.ofNat (48 + n)

def digitValue (c : Char) : Option Nat :=
  if 48 ≤ c.toNat ∧ c.toNat ≤ 57 then some (c.toNat - 48) else none

theorem digitValue_digitChar {n : Nat} (h : n < 10) : digitValue (digitChar n) = some n := by
  interval_cases n <;> decide

/-- The last `k` decimal digits of `n`. -/
def digits : Nat → Nat → List Char
  | 0, _ => []
  | k + 1, n => digitChar (n / 10 ^ k % 10) :: digits k n

/-- Exactly `k` digits, appended to the number read so far. -/
def takeDigits : Nat → Nat → List Char → Option (Nat × List Char)
  | 0, acc, cs => some (acc, cs)
  | _ + 1, _, [] => none
  | k + 1, acc, c :: cs =>
    match digitValue c with
    | some d => takeDigits k (acc * 10 + d) cs
    | none => none

theorem takeDigits_digits (k n acc : Nat) (rest : List Char) :
    takeDigits k acc (digits k n ++ rest) = some (acc * 10 ^ k + n % 10 ^ k, rest) := by
  induction k generalizing acc with
  | zero => simp [takeDigits, digits, Nat.mod_one]
  | succ k ih =>
      have hd : digitValue (digitChar (n / 10 ^ k % 10)) = some (n / 10 ^ k % 10) :=
        digitValue_digitChar (Nat.mod_lt _ (by omega))
      simp only [digits, List.cons_append, takeDigits, hd, ih]
      rw [Nat.mod_pow_succ]
      congr 2
      ring

/-- The digits of a fraction in units of `10 ^ -k`, without trailing zeros. -/
def fractionDigits : Nat → Nat → List Char
  | _, 0 => []
  | 0, _ + 1 => []
  | k + 1, n + 1 => digitChar ((n + 1) / 10 ^ k % 10) :: fractionDigits k ((n + 1) % 10 ^ k)

/-- As many digits as stand there; those after the first `k` count for nothing. -/
def takeFraction : Nat → List Char → Nat × List Char
  | _, [] => (0, [])
  | k, c :: cs =>
    match digitValue c, k with
    | none, _ => (0, c :: cs)
    | some _, 0 => takeFraction 0 cs
    | some d, k + 1 =>
      let (v, rest) := takeFraction k cs
      (d * 10 ^ k + v, rest)

theorem takeFraction_fractionDigits {k n : Nat} (h : n < 10 ^ k) {c : Char} (rest : List Char)
    (hc : digitValue c = none) :
    takeFraction k (fractionDigits k n ++ c :: rest) = (n, c :: rest) := by
  induction k generalizing n with
  | zero =>
      obtain rfl : n = 0 := by simpa using h
      simp [fractionDigits, takeFraction, hc]
  | succ k ih =>
      cases n with
      | zero => simp [fractionDigits, takeFraction, hc]
      | succ n =>
          have hq : (n + 1) / 10 ^ k < 10 := Nat.div_lt_of_lt_mul (by rwa [pow_succ] at h)
          have hd : digitValue (digitChar ((n + 1) / 10 ^ k % 10)) = some ((n + 1) / 10 ^ k) := by
            rw [Nat.mod_eq_of_lt hq]
            exact digitValue_digitChar hq
          have hlt : (n + 1) % 10 ^ k < 10 ^ k := Nat.mod_lt _ (by positivity)
          have hrest := ih hlt
          simp only [fractionDigits, List.cons_append, takeFraction, hd, hrest]
          rw [Nat.mul_comm, Nat.div_add_mod]

/-! ### The reader -/

def takeChar (expected : Char) : List Char → Option (List Char)
  | c :: cs => if c = expected then some cs else none
  | [] => none

/-- Any separator of one byte between date and time. -/
def takeSeparator : List Char → Option (List Char)
  | c :: cs => if c.toNat < 128 then some cs else none
  | [] => none

/-- An optional fraction, in nanoseconds; a point needs a digit after it. -/
def takeSubsecond : List Char → Option (Nat × List Char)
  | '.' :: c :: cs =>
    match digitValue c with
    | some _ => some (takeFraction 9 (c :: cs))
    | none => none
  | '.' :: [] => none
  | cs => some (0, cs)

/-- The offset, in seconds. -/
def takeOffset : List Char → Option (Int × List Char)
  | [] => none
  | c :: cs =>
    if c = 'Z' ∨ c = 'z' then some (0, cs)
    else if c = '+' ∨ c = '-' then do
      let (hours, cs) ← takeDigits 2 0 cs
      let cs ← takeChar ':' cs
      let (minutes, cs) ← takeDigits 2 0 cs
      if hours ≤ 23 ∧ minutes ≤ 59 then
        let seconds : Int := hours * 3600 + minutes * 60
        some (if c = '-' then -seconds else seconds, cs)
      else none
    else none

/-- The last nanosecond of a UTC month stands in for a leap second. -/
def leapSecondStandIn (t : OffsetDateTime) : Prop :=
  (t.utc + 1) % nanosPerDay = 0 ∧ (civilFromDays ((t.utc + 1) / nanosPerDay)).day = 1

instance (t : OffsetDateTime) : Decidable (leapSecondStandIn t) :=
  inferInstanceAs (Decidable (_ ∧ _))

/-- The fields of a date, as read. -/
structure DateFields where
  year : Nat
  month : Nat
  day : Nat
  deriving DecidableEq, Repr

/-- The fields of a time of day, as read. -/
structure TimeFields where
  hour : Nat
  minute : Nat
  second : Nat
  nanos : Nat
  deriving DecidableEq, Repr

def takeDate (cs : List Char) : Option (DateFields × List Char) := do
  let (year, cs) ← takeDigits 4 0 cs
  let cs ← takeChar '-' cs
  let (month, cs) ← takeDigits 2 0 cs
  let cs ← takeChar '-' cs
  let (day, cs) ← takeDigits 2 0 cs
  some (⟨year, month, day⟩, cs)

def takeTime (cs : List Char) : Option (TimeFields × List Char) := do
  let (hour, cs) ← takeDigits 2 0 cs
  let cs ← takeChar ':' cs
  let (minute, cs) ← takeDigits 2 0 cs
  let cs ← takeChar ':' cs
  let (second, cs) ← takeDigits 2 0 cs
  let (nanos, cs) ← takeSubsecond cs
  some (⟨hour, minute, second, nanos⟩, cs)

/-- The instant of the fields read, when they name one. -/
def assemble (date : DateFields) (time : TimeFields) (offset : Int) : Option OffsetDateTime :=
  let civil : CivilDate := ⟨date.year, date.month, date.day⟩
  let leap := time.second = 60
  let second := if leap then 59 else time.second
  let nanos := if leap then 999999999 else time.nanos
  if civil.valid ∧ time.hour ≤ 23 ∧ time.minute ≤ 59 ∧ second ≤ 59 then
    let seconds : Int := time.hour * 3600 + time.minute * 60 + second
    let reading := daysFromCivil civil * nanosPerDay + seconds * nanosPerSecond + nanos
    let t : OffsetDateTime := ⟨reading - offset * nanosPerSecond, offset⟩
    if leap → leapSecondStandIn t then some t else none
  else none

def parseChars (cs : List Char) : Option OffsetDateTime := do
  let (date, cs) ← takeDate cs
  let cs ← takeSeparator cs
  let (time, cs) ← takeTime cs
  let (offset, cs) ← takeOffset cs
  if cs = [] then assemble date time offset else none

def parse (text : String) : Option OffsetDateTime := parseChars text.toList

example : parse "2026-07-14T10:30:00.25+02:00" = some ⟨1784017800250000000, 7200⟩ := by decide

/-! ### The writer -/

def subsecondChars (nanos : Nat) : List Char :=
  if nanos = 0 then [] else '.' :: fractionDigits 9 nanos

def offsetChars (offset : Int) : List Char :=
  if offset = 0 then ['Z']
  else
    (if offset < 0 then '-' else '+') ::
      (digits 2 (offset.natAbs / 3600) ++ ':' :: digits 2 (offset.natAbs / 60 % 60))

def dateChars (date : CivilDate) : List Char :=
  digits 4 date.year.toNat ++ '-' :: (digits 2 date.month.toNat ++ '-' :: digits 2 date.day.toNat)

def timeChars (nanoOfDay : Nat) : List Char :=
  let second := nanoOfDay / 1000000000
  digits 2 (second / 3600) ++ ':' :: (digits 2 (second / 60 % 60) ++
    ':' :: (digits 2 (second % 60) ++ subsecondChars (nanoOfDay % 1000000000)))

def formatChars (date : CivilDate) (nanoOfDay : Nat) (offset : Int) : List Char :=
  dateChars date ++ 'T' :: (timeChars nanoOfDay ++ offsetChars offset)

/-- Four-digit years and offsets of whole minutes below a day can be written. -/
def format (t : OffsetDateTime) : Option String :=
  if 0 ≤ t.civil.year ∧ t.civil.year ≤ 9999 ∧ t.offset.natAbs < 86400 ∧ t.offset % 60 = 0 then
    some (String.ofList (formatChars t.civil t.nanoOfDay.toNat t.offset))
  else none

example : format ⟨1784017800250000000, 0⟩ = some "2026-07-14T08:30:00.25Z" := by decide

/-! ### Round trip -/

theorem takeDigits_two {n : Nat} (h : n < 100) (rest : List Char) :
    takeDigits 2 0 (digits 2 n ++ rest) = some (n, rest) := by
  rw [takeDigits_digits, Nat.mod_eq_of_lt (by omega), Nat.zero_mul, Nat.zero_add]

theorem takeDigits_four {n : Nat} (h : n < 10000) (rest : List Char) :
    takeDigits 4 0 (digits 4 n ++ rest) = some (n, rest) := by
  rw [takeDigits_digits, Nat.mod_eq_of_lt (by omega), Nat.zero_mul, Nat.zero_add]

/-- The reader finds the nanoseconds the writer wrote before an offset of zero. -/
theorem takeSubsecond_subsecondChars {n : Nat} (h : n < 1000000000) :
    takeSubsecond (subsecondChars n ++ ['Z']) = some (n, ['Z']) := by
  unfold subsecondChars
  split
  · rename_i hn
    rw [hn]
    rfl
  · rename_i hn
    obtain ⟨m, rfl⟩ : ∃ m, n = m + 1 := ⟨n - 1, by omega⟩
    have hfirst : digitValue (digitChar ((m + 1) / 10 ^ 8 % 10)) = some ((m + 1) / 10 ^ 8 % 10) :=
      digitValue_digitChar (Nat.mod_lt _ (by omega))
    have hall := takeFraction_fractionDigits (k := 9) (n := m + 1) h (c := 'Z') [] (by decide)
    simp only [List.cons_append, fractionDigits] at hall ⊢
    simp only [takeSubsecond, hfirst, hall]

@[simp] theorem takeChar_self (c : Char) (cs : List Char) : takeChar c (c :: cs) = some cs :=
  if_pos rfl

/-- The reader takes back a written date with a four-digit year. -/
theorem takeDate_dateChars {y m d : Nat} (hy : y < 10000) (hm : m < 100) (hd : d < 100)
    (rest : List Char) :
    takeDate (dateChars ⟨y, m, d⟩ ++ rest) = some (⟨y, m, d⟩, rest) := by
  simp only [takeDate, dateChars, Int.toNat_natCast, List.append_assoc, List.cons_append,
    takeDigits_four hy, takeDigits_two hm, takeDigits_two hd, takeChar_self,
    Option.bind_eq_bind, Option.bind_some]

/-- The reader takes back a written time of day. -/
theorem takeTime_timeChars {n : Nat} (hn : n < 86400000000000) :
    takeTime (timeChars n ++ [ 'Z']) =
      some (⟨n / 1000000000 / 3600, n / 1000000000 / 60 % 60, n / 1000000000 % 60,
        n % 1000000000⟩, [ 'Z']) := by
  have hhour : n / 1000000000 / 3600 < 100 := by omega
  have hminute : n / 1000000000 / 60 % 60 < 100 := by omega
  have hsecond : n / 1000000000 % 60 < 100 := by omega
  have hnanos : n % 1000000000 < 1000000000 := by omega
  simp only [takeTime, timeChars, List.append_assoc, List.cons_append, takeDigits_two hhour,
    takeDigits_two hminute, takeDigits_two hsecond, takeSubsecond_subsecondChars hnanos,
    takeChar_self, Option.bind_eq_bind, Option.bind_some]

/-- Fields in range without a leap second name the instant they count up to. -/
theorem assemble_of_valid {date : CivilDate} (hdate : date.valid) {y m d : Nat}
    (hymd : date = ⟨y, m, d⟩) {n : Nat} (hn : n < 86400000000000) :
    assemble ⟨y, m, d⟩ ⟨n / 1000000000 / 3600, n / 1000000000 / 60 % 60, n / 1000000000 % 60,
        n % 1000000000⟩ 0 =
      some ⟨daysFromCivil date * nanosPerDay + n, 0⟩ := by
  subst hymd
  have hsecond : n / 1000000000 % 60 ≠ 60 := by omega
  simp only [assemble, hsecond, if_false, false_implies, if_true]
  rw [if_pos ⟨hdate, by omega, by omega, by omega⟩]
  simp only [nanosPerSecond, Option.some.injEq, OffsetDateTime.mk.injEq, and_true]
  omega

/-- Reading the written fields of a date and a time of day in UTC gives them back. -/
theorem parseChars_formatChars {date : CivilDate} (hdate : date.valid)
    (hyear : 0 ≤ date.year ∧ date.year ≤ 9999) {n : Nat} (hn : n < 86400000000000) :
    parseChars (formatChars date n 0) =
      some ⟨daysFromCivil date * nanosPerDay + n, 0⟩ := by
  have hday : date.day ≤ 31 := by
    refine le_trans hdate.2.2.2 ?_
    unfold daysInMonth
    split_ifs <;> simp
  obtain ⟨hm1, hm12, hd1, -⟩ := id hdate
  obtain ⟨y, hy⟩ := Int.eq_ofNat_of_zero_le hyear.1
  obtain ⟨m, hm⟩ := Int.eq_ofNat_of_zero_le (by omega : 0 ≤ date.month)
  obtain ⟨d, hd⟩ := Int.eq_ofNat_of_zero_le (by omega : 0 ≤ date.day)
  have hymd : date = ⟨y, m, d⟩ := by rw [← hy, ← hm, ← hd]
  have hread := takeDate_dateChars (by omega : y < 10000) (by omega : m < 100)
    (by omega : d < 100) ( 'T' :: (timeChars n ++ [ 'Z']))
  have hT : takeSeparator ( 'T' :: (timeChars n ++ [ 'Z'])) = some (timeChars n ++ [ 'Z']) := rfl
  have hZ : takeOffset [ 'Z'] = some (0, []) := by decide
  rw [← hymd] at hread
  simp only [parseChars, formatChars, offsetChars, if_true, hread, hT, takeTime_timeChars hn, hZ,
    Option.bind_eq_bind, Option.bind_some, assemble_of_valid hdate hymd hn]

/-- The reader gives back an instant that the writer wrote in UTC. -/
theorem parse_format {t : OffsetDateTime} (ht : t.offset = 0) {text : String}
    (h : format t = some text) : parse text = some t := by
  obtain ⟨utc, offset⟩ := t
  obtain rfl : offset = 0 := ht
  unfold format at h
  split at h
  · rename_i hrange
    obtain ⟨hy0, hy1, -, -⟩ := hrange
    cases h
    have hlocal : (⟨utc, 0⟩ : OffsetDateTime).localNanos = utc := by simp [localNanos]
    simp only [parse, String.toList_ofList, civil, nanoOfDay, hlocal] at hy0 hy1 ⊢
    have hnano : 0 ≤ utc % nanosPerDay ∧ utc % nanosPerDay < 86400000000000 := by
      unfold nanosPerDay; omega
    rw [parseChars_formatChars (civilFromDays_valid _) ⟨hy0, hy1⟩ (by omega),
      daysFromCivil_civilFromDays, Int.toNat_of_nonneg hnano.1]
    simp only [Option.some.injEq, OffsetDateTime.mk.injEq, and_true]
    unfold nanosPerDay
    omega
  · cases h

theorem digitChar_not_whitespace {n : Nat} (h : n < 10) :
    Text.isWhitespace (digitChar n) = false := by
  interval_cases n <;> decide

/-- A written instant starts with a digit and ends with `Z`, so trimming does not change it. -/
theorem trim_format {utc : Int} {text : String} (h : format ⟨utc, 0⟩ = some text) :
    Text.trim text = text := by
  unfold format at h
  split at h
  · cases h
    have hfirst := digitChar_not_whitespace
      (Nat.mod_lt ((⟨utc, 0⟩ : OffsetDateTime).civil.year.toNat / 10 ^ 3) (by omega : 0 < 10))
    have hlast : ∀ date n, formatChars date n 0 = (dateChars date ++ 'T' :: timeChars n) ++ [ 'Z'] := by
      intro date n
      simp [formatChars, offsetChars]
    have hZ : Text.isWhitespace 'Z' = false := by decide
    exact Text.trim_of_ends String.toList_ofList (String.toList_ofList.trans (hlast _ _)) hfirst hZ
  · cases h

/-- A written instant starts with a digit. -/
theorem sqlNonBlank_format {t : OffsetDateTime} {text : String} (h : format t = some text) :
    Text.sqlNonBlank text = true := by
  unfold format at h
  split at h
  · cases h
    have hdigit : ∀ n < 10, digitChar n ≠ ' ' ∧ (digitChar n).toNat ≠ 0 := by decide
    obtain ⟨hspace, hzero⟩ := hdigit _
      (Nat.mod_lt (t.civil.year.toNat / 10 ^ 3) (by omega : 0 < 10))
    exact (Text.sqlNonBlank_cons String.toList_ofList hspace).2 hzero
  · cases h

/-- An instant can be written in UTC exactly when its UTC year has four digits. -/
theorem format_utc_isSome (utc : Int) :
    (format ⟨utc, 0⟩).isSome ↔ minWritten ≤ utc ∧ utc ≤ maxWritten := by
  have hlocal : (⟨utc, 0⟩ : OffsetDateTime).localNanos = utc := by simp [localNanos]
  have hyear := civilFromDays_year (utc / nanosPerDay)
  have hdays : (minWritten ≤ utc ∧ utc ≤ maxWritten) ↔
      (-719528 ≤ utc / nanosPerDay ∧ utc / nanosPerDay ≤ 2932896) := by
    unfold minWritten maxWritten nanosPerDay; omega
  rw [hdays, ← hyear]
  unfold format
  simp only [civil, hlocal]
  split
  · rename_i h
    simp [h.1, h.2.1]
  · rename_i h
    simp only [Option.isSome_none, Bool.false_eq_true, false_iff]
    rintro ⟨h0, h1⟩
    exact h ⟨h0, h1, by decide, by decide⟩

/-! ### The ends of a text that can be read -/

theorem not_whitespace_of_digitValue {c : Char} {d : Nat} (h : digitValue c = some d) :
    Text.isWhitespace c = false := by
  unfold digitValue at h
  split at h
  · rename_i hc
    simp only [Text.isWhitespace, Bool.or_eq_false_iff, Bool.and_eq_false_iff, decide_eq_false_iff_not]
    omega
  · cases h

/-- The digits taken stand before the rest. -/
theorem takeDigits_suffix {k acc n : Nat} {cs rest : List Char}
    (h : takeDigits k acc cs = some (n, rest)) :
    ∃ pre, cs = pre ++ rest ∧ pre.length = k ∧ ∀ c ∈ pre, Text.isWhitespace c = false := by
  induction k generalizing acc cs with
  | zero =>
      rw [takeDigits, Option.some.injEq, Prod.mk.injEq] at h
      exact ⟨[], h.2, rfl, by simp⟩
  | succ k ih =>
      cases cs with
      | nil => cases h
      | cons c cs =>
          rw [takeDigits] at h
          split at h
          · rename_i d hd
            obtain ⟨pre, hpre, hlength, hall⟩ := ih h
            refine ⟨c :: pre, by rw [hpre, List.cons_append], by rw [List.length_cons, hlength], ?_⟩
            intro x hx
            rcases List.mem_cons.1 hx with rfl | hx
            · exact not_whitespace_of_digitValue hd
            · exact hall x hx
          · cases h

theorem takeChar_eq_some {c : Char} {cs rest : List Char} :
    takeChar c cs = some rest ↔ cs = c :: rest := by
  cases cs with
  | nil => simp [takeChar]
  | cons d cs =>
      by_cases hd : d = c
      · simp [takeChar, hd]
      · simp [takeChar, hd]

theorem takeSeparator_suffix {cs rest : List Char} (h : takeSeparator cs = some rest) :
    ∃ pre, cs = pre ++ rest := by
  cases cs with
  | nil => cases h
  | cons c cs =>
      rw [takeSeparator] at h
      split at h
      · cases h; exact ⟨[c], rfl⟩
      · cases h

theorem takeFraction_suffix (k : Nat) (cs : List Char) :
    ∃ pre, cs = pre ++ (takeFraction k cs).2 := by
  induction cs generalizing k with
  | nil => cases k <;> exact ⟨[], rfl⟩
  | cons c cs ih =>
      cases hd : digitValue c with
      | none => exact ⟨[], by cases k <;> simp [takeFraction, hd]⟩
      | some d =>
          cases k with
          | zero =>
              obtain ⟨pre, hpre⟩ := ih 0
              exact ⟨c :: pre, by simp only [takeFraction, hd, List.cons_append, ← hpre]⟩
          | succ k =>
              obtain ⟨pre, hpre⟩ := ih k
              exact ⟨c :: pre, by simp only [takeFraction, hd, List.cons_append, ← hpre]⟩

theorem takeSubsecond_suffix {cs rest : List Char} {n : Nat} (h : takeSubsecond cs = some (n, rest)) :
    ∃ pre, cs = pre ++ rest := by
  unfold takeSubsecond at h
  split at h
  · rename_i c cs
    split at h
    · obtain ⟨pre, hpre⟩ := takeFraction_suffix 9 (c :: cs)
      rw [Option.some.injEq] at h
      rw [h] at hpre
      exact ⟨'.' :: pre, by rw [hpre, List.cons_append]⟩
    · cases h
  · cases h
  · cases h; exact ⟨[], rfl⟩

/-- An offset that ends the text ends it with a letter or a digit. -/
theorem takeOffset_last {cs : List Char} {o : Int} (h : takeOffset cs = some (o, [])) :
    ∃ pre c, cs = pre ++ [c] ∧ Text.isWhitespace c = false := by
  cases cs with
  | nil => cases h
  | cons c cs =>
      rw [takeOffset] at h
      split at h
      · rename_i hZ
        cases h
        refine ⟨[], c, rfl, ?_⟩
        rcases hZ with rfl | rfl <;> decide
      · split at h
        · simp only [Option.bind_eq_bind, Option.bind_eq_some_iff, takeChar_eq_some] at h
          obtain ⟨⟨hours, hs⟩, hhours, ms, hcolon, ⟨minutes, rest⟩, hminutes, h⟩ := h
          split at h
          · cases h
            obtain ⟨pre, hpre, hlength, hall⟩ := takeDigits_suffix hminutes
            obtain ⟨pre', hpre', -, -⟩ := takeDigits_suffix hhours
            have hne : pre ≠ [] := by rintro rfl; cases hlength
            have hlast := List.dropLast_append_getLast hne
            refine ⟨c :: (pre' ++ ':' :: pre.dropLast), pre.getLast hne, ?_,
              hall _ (List.getLast_mem hne)⟩
            simp only at hcolon hpre hpre'
            rw [hpre', hcolon, hpre, List.append_nil, List.cons_append, List.append_assoc,
              List.cons_append, hlast]
          · cases h
        · cases h

/-- A text that can be read has no white space at its ends. -/
theorem trim_of_parse {text : String} {t : OffsetDateTime} (h : parse text = some t) :
    Text.trim text = text := by
  simp only [parse, parseChars, Option.bind_eq_bind, Option.bind_eq_some_iff] at h
  obtain ⟨⟨date, cs₁⟩, hdate, cs₂, hseparator, ⟨time, cs₃⟩, htime, ⟨offset, cs₄⟩, hoffset, h⟩ := h
  simp only at hseparator htime hoffset h
  split at h
  · rename_i hnil
    subst hnil
    simp only [takeDate, Option.bind_eq_bind, Option.bind_eq_some_iff, takeChar_eq_some,
      Option.some.injEq, Prod.mk.injEq] at hdate
    obtain ⟨⟨year, ds₁⟩, hyear, ds₂, hds₂, ⟨month, ds₃⟩, hmonth, ds₄, hds₄, ⟨day, ds₅⟩, hday, -, rfl⟩ :=
      hdate
    simp only [takeTime, Option.bind_eq_bind, Option.bind_eq_some_iff, takeChar_eq_some,
      Option.some.injEq, Prod.mk.injEq] at htime
    obtain ⟨⟨hour, es₁⟩, hhour, es₂, hes₂, ⟨minute, es₃⟩, hminute, es₄, hes₄, ⟨second, es₅⟩, hsecond,
      ⟨nanos, es₆⟩, hnanos, -, rfl⟩ := htime
    obtain ⟨y, hy, hylength, hyall⟩ := takeDigits_suffix hyear
    obtain ⟨mo, hmo, -⟩ := takeDigits_suffix hmonth
    obtain ⟨da, hda, -⟩ := takeDigits_suffix hday
    obtain ⟨sep, hsep⟩ := takeSeparator_suffix hseparator
    obtain ⟨ho, hho, -⟩ := takeDigits_suffix hhour
    obtain ⟨mi, hmi, -⟩ := takeDigits_suffix hminute
    obtain ⟨se, hse, -⟩ := takeDigits_suffix hsecond
    obtain ⟨na, hna⟩ := takeSubsecond_suffix hnanos
    obtain ⟨o, c, ho', hc⟩ := takeOffset_last hoffset
    dsimp only at hds₂ hmo hds₄ hda hsep hho hes₂ hmi hes₄ hse hna ho'
    -- the whole text, first digits to last character
    have hwhole : text.toList = (y ++ '-' :: (mo ++ '-' :: (da ++ (sep ++ (ho ++ ':' :: (mi ++ ':' ::
        (se ++ (na ++ o)))))))) ++ [c] := by
      rw [hy, hds₂, hmo, hds₄, hda, hsep, hho, hes₂, hmi, hes₄, hse, hna, ho']
      simp
    cases y with
    | nil => cases hylength
    | cons d ds => exact Text.trim_of_ends (hwhole.trans (by rfl)) hwhole (hyall d List.mem_cons_self) hc
  · cases h

/-! ### The first instant that can be read -/

/-- An offset that can be read is less than a day. -/
theorem takeOffset_lt {cs rest : List Char} {o : Int} (h : takeOffset cs = some (o, rest)) :
    o ≤ 86340 := by
  cases cs with
  | nil => cases h
  | cons c cs =>
      rw [takeOffset] at h
      split at h
      · cases h
        omega
      · split at h
        · simp only [Option.bind_eq_bind, Option.bind_eq_some_iff] at h
          obtain ⟨⟨hours, hs⟩, -, ms, -, ⟨minutes, rest⟩, -, h⟩ := h
          dsimp only at h
          split at h
          · rename_i hrange
            rw [Option.some.injEq, Prod.mk.injEq] at h
            obtain ⟨rfl, -⟩ := h
            split <;> omega
          · cases h
        · cases h

/-- No text names an instant before the first of the calendar: its year is not negative, and its
offset takes away less than a day. -/
theorem minLocal_le_of_parse {text : String} {t : OffsetDateTime} (h : parse text = some t) :
    minLocal ≤ t.utc := by
  simp only [parse, parseChars, Option.bind_eq_bind, Option.bind_eq_some_iff] at h
  obtain ⟨⟨date, cs₁⟩, -, cs₂, -, ⟨time, cs₃⟩, -, ⟨offset, cs₄⟩, hoffset, h⟩ := h
  have hless := takeOffset_lt hoffset
  split at h
  · unfold assemble at h
    dsimp only at h
    generalize (if time.second = 60 then 59 else time.second) = second at h
    generalize (if time.second = 60 then 999999999 else time.nanos) = nanos at h
    split at h
    · rename_i hvalid
      have hdays := daysFromCivil_ge hvalid.1 (Int.natCast_nonneg date.year)
      have hmin : minLocal ≤ -719528 * nanosPerDay - 86340 * nanosPerSecond := by decide
      split at h
      · cases h
        unfold nanosPerDay nanosPerSecond at *
        dsimp only
        omega
      · cases h
    · cases h
  · cases h

end Rfc3339
