import Mathlib.Tactic

/-!
# The proleptic Gregorian calendar

`timegm` and `gmtime` of the C library as exact integer functions: `timegm`
normalises out-of-range fields, `gmtime` splits a number of seconds since
1970-01-01T00:00:00Z into fields. Months are counted from 0, as `tm_mon` is.

* `timegm_gmtime`: `timegm (gmtime t) = t`.
* `gmtime_range`: every field of `gmtime t` is in its range.
* `gmtime_year_le`: the year grows by at most one for every 365 days.
-/

namespace DslinkIec61850.Calendar

/-! ## Years and months -/

/-- The Gregorian leap year rule. -/
def isLeap (y : ℤ) : Bool := (y % 4 == 0 && y % 100 != 0) || y % 400 == 0

/-- Days of the year `y`. -/
def yearLength (y : ℤ) : ℤ := if isLeap y then 366 else 365

/-- Days of the month `mon` (`0 … 11`) of the year `y`. -/
def monthLength (y : ℤ) (mon : ℕ) : ℤ :=
  if mon = 1 then (if isLeap y then 29 else 28)
  else if mon = 3 ∨ mon = 5 ∨ mon = 8 ∨ mon = 10 then 30 else 31

/-- Days from 0001-01-01 to 1 January of the year `y`. -/
def daysToYear (y : ℤ) : ℤ := 365 * (y - 1) + (y - 1) / 4 - (y - 1) / 100 + (y - 1) / 400

/-- Days from 1 January of the year `y` to the first of the month `mon`. -/
def daysToMonth (y : ℤ) : ℕ → ℤ
  | 0 => 0
  | mon + 1 => daysToMonth y mon + monthLength y mon

/-- Days from 1970-01-01 to the day `mday` of the month `mon` of the year `y`. -/
def dayNumber (y : ℤ) (mon : ℕ) (mday : ℤ) : ℤ :=
  daysToYear y - daysToYear 1970 + daysToMonth y mon + (mday - 1)

theorem yearLength_ge (y : ℤ) : 365 ≤ yearLength y := by
  unfold yearLength; split_ifs <;> omega

theorem monthLength_le (y : ℤ) (mon : ℕ) : monthLength y mon ≤ 31 := by
  unfold monthLength; split_ifs <;> omega

theorem isLeap_iff (y : ℤ) : isLeap y = true ↔ y % 4 = 0 ∧ y % 100 ≠ 0 ∨ y % 400 = 0 := by
  simp [isLeap]

theorem daysToYear_succ (y : ℤ) : daysToYear (y + 1) = daysToYear y + yearLength y := by
  have h4 : y / 4 = (y - 1) / 4 + if y % 4 = 0 then 1 else 0 := by split_ifs <;> omega
  have h100 : y / 100 = (y - 1) / 100 + if y % 100 = 0 then 1 else 0 := by split_ifs <;> omega
  have h400 : y / 400 = (y - 1) / 400 + if y % 400 = 0 then 1 else 0 := by split_ifs <;> omega
  -- a multiple of 100 is a multiple of 4, a multiple of 400 one of 100
  have h1 : y % 100 = 0 → y % 4 = 0 := by omega
  have h2 : y % 400 = 0 → y % 100 = 0 := by omega
  have hlen : yearLength y = if y % 4 = 0 ∧ y % 100 ≠ 0 ∨ y % 400 = 0 then 366 else 365 := by
    simp only [yearLength, isLeap_iff]
  simp only [daysToYear, add_sub_cancel_right, h4, h100, h400, hlen]
  split_ifs <;> omega

theorem daysToMonth_twelve (y : ℤ) : daysToMonth y 12 = yearLength y := by
  cases h : isLeap y <;> simp [daysToMonth, monthLength, yearLength, h]

/-! ## Broken-down time -/

/-- The fields of `struct tm` that `timegm` reads. -/
structure Tm where
  tm_year : ℤ
  tm_mon : ℤ
  tm_mday : ℤ
  tm_hour : ℤ
  tm_min : ℤ
  tm_sec : ℤ
  deriving DecidableEq

/-- `timegm`: seconds since the epoch, with months outside `0 … 11` carried
into the year and every other field carried linearly. -/
def timegm (tm : Tm) : ℤ :=
  86400 * dayNumber (tm.tm_year + 1900 + tm.tm_mon / 12) (tm.tm_mon % 12).toNat tm.tm_mday
    + 3600 * tm.tm_hour + 60 * tm.tm_min + tm.tm_sec

/-- The year that contains the day `d` counted from 1 January of `y`, with the
day counted from that year's 1 January; at most `n` years are skipped. -/
def findYear : ℕ → ℤ → ℤ → ℤ × ℤ
  | 0, y, d => (y, d)
  | n + 1, y, d => if d < yearLength y then (y, d) else findYear n (y + 1) (d - yearLength y)

/-- The month of the year `y` that contains the day `d` counted from the first
of `mon`, with the day counted from that month's first. -/
def findMonth (y : ℤ) : ℕ → ℕ → ℤ → ℕ × ℤ
  | 0, mon, d => (mon, d)
  | n + 1, mon, d =>
    if d < monthLength y mon then (mon, d) else findMonth y n (mon + 1) (d - monthLength y mon)

/-- `gmtime_r` on a time at or after the epoch. -/
def gmtime (t : ℕ) : Tm :=
  let yd := findYear (t / 86400 / 365) 1970 (t / 86400 : ℕ)
  let md := findMonth yd.1 11 0 yd.2
  { tm_year := yd.1 - 1900, tm_mon := md.1, tm_mday := md.2 + 1,
    tm_hour := (t % 86400 / 3600 : ℕ), tm_min := (t % 3600 / 60 : ℕ), tm_sec := (t % 60 : ℕ) }

theorem findYear_spec :
    ∀ (n : ℕ) (y d : ℤ), 0 ≤ d → d < 365 * (n + 1) →
      0 ≤ (findYear n y d).2 ∧ (findYear n y d).2 < yearLength (findYear n y d).1 ∧
      daysToYear (findYear n y d).1 + (findYear n y d).2 = daysToYear y + d ∧
      y ≤ (findYear n y d).1 ∧ (findYear n y d).1 ≤ y + n := by
  intro n
  induction n with
  | zero =>
    intro y d h0 h1
    have := yearLength_ge y
    rw [CharP.cast_eq_zero, zero_add, mul_one] at h1
    exact ⟨h0, lt_of_lt_of_le h1 this, rfl, le_rfl, by simp [findYear]⟩
  | succ n ih =>
    intro y d h0 h1
    rw [findYear]
    split_ifs with h
    · exact ⟨h0, h, rfl, le_rfl, by push_cast; omega⟩
    · have hlen := yearLength_ge y
      obtain ⟨h2, h3, h4, h5, h6⟩ :=
        ih (y + 1) (d - yearLength y) (by omega) (by push_cast at h1; omega)
      refine ⟨h2, h3, ?_, by omega, by push_cast; omega⟩
      rw [h4, daysToYear_succ]
      ring

theorem findMonth_spec (y : ℤ) :
    ∀ (n mon : ℕ) (d : ℤ), mon + n = 11 → 0 ≤ d → daysToMonth y mon + d < yearLength y →
      0 ≤ (findMonth y n mon d).2 ∧
      (findMonth y n mon d).2 < monthLength y (findMonth y n mon d).1 ∧
      daysToMonth y (findMonth y n mon d).1 + (findMonth y n mon d).2 = daysToMonth y mon + d ∧
      (findMonth y n mon d).1 ≤ 11 := by
  intro n
  induction n with
  | zero =>
    intro mon d hmon h0 h1
    obtain rfl : mon = 11 := by omega
    rw [← daysToMonth_twelve, show daysToMonth y 12 = daysToMonth y 11 + monthLength y 11 from rfl]
      at h1
    exact ⟨h0, by simpa only [findMonth] using (by omega : d < monthLength y 11), rfl, le_rfl⟩
  | succ n ih =>
    intro mon d hmon h0 h1
    rw [findMonth]
    split_ifs with h
    · exact ⟨h0, h, rfl, by omega⟩
    · obtain ⟨h2, h3, h4, h5⟩ := ih (mon + 1) (d - monthLength y mon) (by omega) (by omega)
        (by rw [daysToMonth]; omega)
      refine ⟨h2, h3, ?_, h5⟩
      rw [h4, daysToMonth]
      ring

/-- The day of the year found by `findYear` for the time `t`. -/
theorem gmtime_findYear (t : ℕ) :
    let yd := findYear (t / 86400 / 365) 1970 (t / 86400 : ℕ)
    0 ≤ yd.2 ∧ yd.2 < yearLength yd.1 ∧ daysToYear yd.1 + yd.2 = daysToYear 1970 + (t / 86400 : ℕ) ∧
      1970 ≤ yd.1 ∧ yd.1 ≤ 1970 + (t / 86400 / 365 : ℕ) :=
  findYear_spec _ _ _ (by positivity) (by push_cast; omega)

/-- The month found by `findMonth` for the time `t`. -/
theorem gmtime_findMonth (t : ℕ) :
    let yd := findYear (t / 86400 / 365) 1970 (t / 86400 : ℕ)
    let md := findMonth yd.1 11 0 yd.2
    0 ≤ md.2 ∧ md.2 < monthLength yd.1 md.1 ∧ daysToMonth yd.1 md.1 + md.2 = yd.2 ∧ md.1 ≤ 11 := by
  obtain ⟨h0, h1, -⟩ := gmtime_findYear t
  have := findMonth_spec _ 11 0 _ rfl h0 (by simpa [daysToMonth] using h1)
  simpa [daysToMonth] using this

/-- `timegm` undoes `gmtime_r`. -/
theorem timegm_gmtime (t : ℕ) : timegm (gmtime t) = t := by
  obtain ⟨-, -, hy, -⟩ := gmtime_findYear t
  obtain ⟨-, -, hm, hle⟩ := gmtime_findMonth t
  simp only [timegm, gmtime, dayNumber]
  generalize findYear (t / 86400 / 365) 1970 (t / 86400 : ℕ) = yd at *
  generalize findMonth yd.1 11 0 yd.2 = md at *
  have hdiv : ((md.1 : ℕ) : ℤ) / 12 = 0 := by omega
  have hmod : (((md.1 : ℕ) : ℤ) % 12).toNat = md.1 := by omega
  rw [hdiv, hmod, show yd.1 - 1900 + 1900 + 0 = yd.1 by ring]
  push_cast
  omega

/-- Ranges of the fields of `gmtime_r`. -/
theorem gmtime_range (t : ℕ) :
    70 ≤ (gmtime t).tm_year ∧ 0 ≤ (gmtime t).tm_mon ∧ (gmtime t).tm_mon ≤ 11 ∧
      1 ≤ (gmtime t).tm_mday ∧
      (gmtime t).tm_mday ≤ monthLength ((gmtime t).tm_year + 1900) (gmtime t).tm_mon.toNat ∧
      0 ≤ (gmtime t).tm_hour ∧ (gmtime t).tm_hour ≤ 23 ∧
      0 ≤ (gmtime t).tm_min ∧ (gmtime t).tm_min ≤ 59 ∧
      0 ≤ (gmtime t).tm_sec ∧ (gmtime t).tm_sec ≤ 59 := by
  obtain ⟨-, -, -, hy, -⟩ := gmtime_findYear t
  obtain ⟨h0, h1, -, hle⟩ := gmtime_findMonth t
  simp only [gmtime]
  generalize findYear (t / 86400 / 365) 1970 (t / 86400 : ℕ) = yd at *
  generalize findMonth yd.1 11 0 yd.2 = md at *
  rw [show yd.1 - 1900 + 1900 = yd.1 by ring, Int.toNat_natCast]
  refine ⟨by omega, by omega, by omega, by omega, by omega, ?_, ?_, ?_, ?_, ?_, ?_⟩ <;> omega

theorem gmtime_year_le (t : ℕ) : (gmtime t).tm_year + 1900 ≤ 1970 + (t / 86400 / 365 : ℕ) := by
  obtain ⟨-, -, -, -, hy⟩ := gmtime_findYear t
  simp only [gmtime]
  omega

example : gmtime 951782400 = ⟨100, 1, 29, 0, 0, 0⟩ := by decide

/-! ## Bounds -/

theorem le_monthLength (y : ℤ) (mon : ℕ) : 28 ≤ monthLength y mon := by
  unfold monthLength
  split_ifs <;> norm_num

theorem daysToMonth_bounds (y : ℤ) (mon : ℕ) :
    28 * mon ≤ daysToMonth y mon ∧ daysToMonth y mon ≤ 31 * mon := by
  induction mon with
  | zero => simp [daysToMonth]
  | succ mon ih =>
    have hle := monthLength_le y mon
    have hge := le_monthLength y mon
    rw [daysToMonth]
    push_cast
    omega

theorem daysToMonth_mono (y : ℤ) {m n : ℕ} (h : m ≤ n) : daysToMonth y m ≤ daysToMonth y n := by
  induction n, h using Nat.le_induction with
  | base => exact le_rfl
  | succ n _ ih =>
    have := le_monthLength y n
    rw [daysToMonth]
    omega

/-- A day of a month is a day of its year. -/
theorem day_lt_yearLength {y d : ℤ} {mon : ℕ} (hmon : mon ≤ 11) (hd : d ≤ monthLength y mon) :
    daysToMonth y mon + (d - 1) < yearLength y := by
  have hle : daysToMonth y (mon + 1) ≤ daysToMonth y 12 := daysToMonth_mono y (by omega)
  rw [daysToMonth_twelve, daysToMonth] at hle
  omega

theorem daysToYear_mono {y z : ℤ} (h : y ≤ z) : daysToYear y + 365 * (z - y) ≤ daysToYear z := by
  unfold daysToYear
  omega

/-- An existing day is on or after 1970-01-01 exactly when its year is. -/
theorem dayNumber_nonneg_iff {y d : ℤ} {mon : ℕ} (hmon : mon ≤ 11) (h1 : 1 ≤ d)
    (hd : d ≤ monthLength y mon) : 0 ≤ dayNumber y mon d ↔ 1970 ≤ y := by
  have hmonth := (daysToMonth_bounds y mon).1
  unfold dayNumber
  constructor
  · intro h
    by_contra hlt
    have hyear := day_lt_yearLength hmon hd
    have hnext := daysToYear_succ y
    have hmono := daysToYear_mono (show y + 1 ≤ 1970 by omega)
    omega
  · intro h
    have := daysToYear_mono h
    omega

theorem dayNumber_eq_zero_iff {y d : ℤ} {mon : ℕ} (hmon : mon ≤ 11) (h1 : 1 ≤ d)
    (hd : d ≤ monthLength y mon) : dayNumber y mon d = 0 ↔ y = 1970 ∧ mon = 0 ∧ d = 1 := by
  constructor
  · intro h
    have hy : 1970 ≤ y := (dayNumber_nonneg_iff hmon h1 hd).1 h.ge
    have hmono := daysToYear_mono hy
    have hmonth := (daysToMonth_bounds y mon).1
    unfold dayNumber at h
    omega
  · rintro ⟨rfl, rfl, rfl⟩
    decide

/-- Fields of at most four digits, and of at most two behind the year, are less than
`2 ^ 40` seconds from the epoch. -/
theorem timegm_abs_lt {tm : Tm} (hyear : |tm.tm_year + 1900| < 10 ^ 4)
    (hmon : |tm.tm_mon + 1| < 10 ^ 2)
    (hmday : |tm.tm_mday| < 10 ^ 2) (hhour : |tm.tm_hour| < 10 ^ 2) (hmin : |tm.tm_min| < 10 ^ 2)
    (hsec : |tm.tm_sec| < 10 ^ 2) : |timegm tm| < 2 ^ 40 := by
  rw [abs_lt] at *
  have hmonth := daysToMonth_bounds (tm.tm_year + 1900 + tm.tm_mon / 12) (tm.tm_mon % 12).toNat
  have hmod : ((tm.tm_mon % 12).toNat : ℤ) ≤ 11 := by omega
  unfold timegm dayNumber daysToYear
  omega

end DslinkIec61850.Calendar
