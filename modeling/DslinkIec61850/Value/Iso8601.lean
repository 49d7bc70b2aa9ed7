import DslinkIec61850.Lib.Calendar
import DslinkIec61850.Lib.Decimal

/-!
# Time stamps as text

`getUtcTimeString` prints a millisecond count and `parseIso8601` reads one
(`time_iso8601.c`). The scanner works on a cursor that is advanced by fixed
amounts after each successful `sscanf`; reading past the terminator is the
outcome `overrun`.

Results:
* `scanFields_spell`: a text with full-width fields is scanned to its fields.
* `getUtcTimeString_eq_spell`: what is published is such a text.
-/

namespace DslinkIec61850.Iso8601

open Decimal Calendar

/-! ## The scanner -/

/-- Why the scanner stops early: `return 0`, or a read past the terminator. -/
inductive Stop where
  | refused | overrun
  deriving DecidableEq, Repr

/-- `*c` for the cursor at index `i`. -/
def deref (text : Str) (i : ℕ) : Except Stop Char :=
  match peek text i with
  | some c => .ok c
  | none => .error .overrun

/-- `sscanf(s, "%4u-%2u-%2u", …) == 3`. -/
def scanExtendedDate (s : Str) : Option (ℤ × ℤ × ℤ) := do
  let (year, s) ← scanNumber 4 s
  let s ← scanChar '-' s
  let (month, s) ← scanNumber 2 s
  let s ← scanChar '-' s
  let (days, _) ← scanNumber 2 s
  return (year, month, days)

/-- `sscanf(s, "%4u%2u%2u", …) == 3`. -/
def scanBasicDate (s : Str) : Option (ℤ × ℤ × ℤ) := do
  let (year, s) ← scanNumber 4 s
  let (month, s) ← scanNumber 2 s
  let (days, _) ← scanNumber 2 s
  return (year, month, days)

/-- `sscanf(s, "%2d%2d", …) == 2`. -/
def scanBasicTime (s : Str) : Option (ℤ × ℤ) := do
  let (hours, s) ← scanNumber 2 s
  let (minutes, _) ← scanNumber 2 s
  return (hours, minutes)

/-- `sscanf(s, "%2d:%2d", …) == 2`. -/
def scanExtendedTime (s : Str) : Option (ℤ × ℤ) := do
  let (hours, s) ← scanNumber 2 s
  let s ← scanChar ':' s
  let (minutes, _) ← scanNumber 2 s
  return (hours, minutes)

/-- `sscanf(s, "%wd", …) == 1`. -/
def scanInt (w : ℕ) (s : Str) : Except Stop ℤ :=
  match scanNumber w s with
  | some (n, _) => .ok n
  | none => .error .refused

/-- The date and the cursor behind it (lines 212–218). -/
def scanDate (text : Str) : Except Stop ((ℤ × ℤ × ℤ) × ℕ) :=
  match scanExtendedDate text with
  | some date => .ok (date, 10)
  | none =>
    match scanBasicDate text with
    | some date => .ok (date, 8)
    | none => .error .refused

/-- Hours and minutes after the `T` and the cursor behind them (lines 232–238). -/
def scanHourMinute (text : Str) (c : ℕ) : Except Stop ((ℤ × ℤ) × ℕ) :=
  match scanBasicTime (text.drop c) with
  | some hm => .ok (hm, c + 4)
  | none =>
    match scanExtendedTime (text.drop c) with
    | some hm => .ok (hm, c + 5)
    | none => .error .refused

/-- The optional colon and the seconds (lines 240–250). -/
def scanSeconds (text : Str) (c : ℕ) : Except Stop (ℤ × ℕ) := do
  let c := if (← deref text c) = ':' then c + 1 else c
  if (← deref text c) = NUL then return (0, c)
  let seconds ← scanInt 2 (text.drop c)
  return (seconds, c + 2)

/-- The end of a date-time: `Z`, or a fraction and `Z` (lines 256–270). -/
def scanZone (text : Str) (c : ℕ) : Except Stop ℤ := do
  if (← deref text c) = 'Z' then return 0
  if (← deref text c) = '.' then
    let mseconds ← scanInt 3 (text.drop (c + 1))
    if (← deref text (c + 4)) = 'Z' then return mseconds
  throw .refused

/-- What `parseIso8601` has in its variables when it computes the result. -/
structure Fields where
  tm : Tm
  mseconds : ℤ
  deriving DecidableEq

/-- The scanning of `parseIso8601` (time_iso8601.c:180–282). -/
def scanFields (text : Str) : Except Stop Fields := do
  let ((year, month, days), c) ← scanDate text
  let date (hours minutes seconds : ℤ) : Tm :=
    { tm_year := year - 1900, tm_mon := month - 1, tm_mday := days,
      tm_hour := hours, tm_min := minutes, tm_sec := seconds }
  if (← deref text c) = NUL then return { tm := date 0 0 0, mseconds := 0 }
  if (← deref text c) = 'T' then
    let ((hours, minutes), c) ← scanHourMinute text (c + 1)
    let (seconds, c) ← scanSeconds text c
    let mseconds ← scanZone text c
    return { tm := date hours minutes seconds, mseconds := mseconds }
  throw .refused

/-- `(isotime * 1000) + mseconds` before it becomes a `uint64_t`. -/
def Fields.instant (f : Fields) : ℤ := timegm f.tm * 1000 + f.mseconds

/-- `parseIso8601` (time_iso8601.c:180–282); `none` when the cursor runs past
the terminator. -/
def parseIso8601 (text : Str) : Option ℕ :=
  match scanFields text with
  | .ok f => some (f.instant % 2 ^ 64).toNat
  | .error .refused => some 0
  | .error .overrun => none

/-! ## Texts with full-width fields -/

/-- A point in time of the civil calendar. -/
structure Civil where
  year : ℕ
  month : ℕ
  day : ℕ
  hour : ℕ
  minute : ℕ
  second : ℕ
  milli : ℕ
  deriving DecidableEq

/-- An existing date and time of day, with a four-digit year. -/
structure Civil.Exists (t : Civil) : Prop where
  year_lt : t.year < 10000
  one_le_month : 1 ≤ t.month
  month_le : t.month ≤ 12
  one_le_day : 1 ≤ t.day
  day_le : (t.day : ℤ) ≤ monthLength t.year (t.month - 1)
  hour_lt : t.hour < 24
  minute_lt : t.minute < 60
  second_lt : t.second < 60
  milli_lt : t.milli < 1000

/-- The fields of a point in time. -/
def Civil.fields (t : Civil) : Fields where
  tm := { tm_year := t.year - 1900, tm_mon := t.month - 1, tm_mday := t.day,
          tm_hour := t.hour, tm_min := t.minute, tm_sec := t.second }
  mseconds := t.milli

/-- Milliseconds from 1970-01-01T00:00:00Z to a point in time. -/
def Civil.instant (t : Civil) : ℤ := t.fields.instant

/-- How a point in time is written: with or without the separators of the
extended format, as a date, with a time of day, or with a fraction. -/
inductive Form where
  | date (dash : Bool)
  | dateTime (dash colon₁ colon₂ : Bool)
  | dateTimeMilli (dash colon₁ colon₂ : Bool)
  deriving DecidableEq

/-- A separator that may be left out. -/
def sep (b : Bool) (c : Char) : Str := if b then [c] else []

/-- `CCYY-MM-DD` or `CCYYMMDD`. -/
def dateText (dash : Bool) (t : Civil) : Str :=
  decimal 4 t.year ++ (sep dash '-' ++ (decimal 2 t.month ++ (sep dash '-' ++ decimal 2 t.day)))

/-- `HH:MM:SS`, with either colon optional. -/
def timeText (colon₁ colon₂ : Bool) (t : Civil) : Str :=
  decimal 2 t.hour ++ (sep colon₁ ':' ++
    (decimal 2 t.minute ++ (sep colon₂ ':' ++ decimal 2 t.second)))

/-- The text of a point in time. -/
def spell : Form → Civil → Str
  | .date dash, t => dateText dash t
  | .dateTime dash c₁ c₂, t => dateText dash t ++ 'T' :: (timeText c₁ c₂ t ++ ['Z'])
  | .dateTimeMilli dash c₁ c₂, t =>
    dateText dash t ++ 'T' :: (timeText c₁ c₂ t ++ '.' :: (decimal 3 t.milli ++ ['Z']))

/-- The form writes all of the point in time that is not zero. -/
def Form.Covers : Form → Civil → Prop
  | .date _, t => t.hour = 0 ∧ t.minute = 0 ∧ t.second = 0 ∧ t.milli = 0
  | .dateTime _ _ _, t => t.milli = 0
  | .dateTimeMilli _ _ _, _ => True

/-- The text spells the existing point in time `t`. -/
def Spells (text : Str) (t : Civil) : Prop :=
  t.Exists ∧ ∃ form : Form, form.Covers t ∧ text = spell form t

/-! ## Scanning a spelled text -/

variable {t : Civil} {pre rest : Str}

theorem deref_append (pre : Str) (c : Char) (rest : Str) :
    deref (pre ++ c :: rest) pre.length = .ok c := by
  unfold deref
  rw [peek_append_length]

theorem deref_length (text : Str) : deref text text.length = .ok NUL := by
  unfold deref
  rw [peek_length]

/-- A number begins with a digit. -/
theorem decimal_two (v : ℕ) : ∃ c s, decimal 2 v = c :: s ∧ c.isDigit = true :=
  ⟨_, _, rfl, isDigit_digitChar (Nat.mod_lt _ (by norm_num))⟩

theorem isDigit_ne {c d : Char} (hc : c.isDigit = true) (hd : d.isDigit = false) : c ≠ d := by
  rintro rfl
  rw [hc] at hd
  exact absurd hd (by decide)

theorem month_lt (h : t.Exists) : t.month < 10 ^ 2 := by
  have := h.month_le
  omega

theorem day_lt (h : t.Exists) : t.day < 10 ^ 2 := by
  have h1 := h.day_le
  have h2 := monthLength_le t.year (t.month - 1)
  omega

theorem hour_lt (h : t.Exists) : t.hour < 10 ^ 2 := by
  have := h.hour_lt
  omega

theorem minute_lt (h : t.Exists) : t.minute < 10 ^ 2 := by
  have := h.minute_lt
  omega

theorem second_lt (h : t.Exists) : t.second < 10 ^ 2 := by
  have := h.second_lt
  omega

@[simp] theorem length_dateText (dash : Bool) :
    (dateText dash t).length = if dash then 10 else 8 := by
  cases dash <;> simp [dateText, sep]

theorem scanExtendedDate_dash (h : t.Exists) :
    scanExtendedDate (dateText true t ++ rest) =
      some ((t.year : ℤ), (t.month : ℤ), (t.day : ℤ)) := by
  simp only [dateText, sep, if_true, List.append_assoc, List.cons_append, List.nil_append,
    scanExtendedDate]
  rw [scanNumber_decimal (by norm_num) h.year_lt]
  simp only [Option.bind_eq_bind, Option.bind_some, scanChar_self]
  rw [scanNumber_decimal (by norm_num) (month_lt h)]
  simp only [Option.bind_some, scanChar_self]
  rw [scanNumber_decimal (by norm_num) (day_lt h)]
  rfl

/-- Without dashes the first format stops at the month's first digit. -/
theorem scanExtendedDate_plain (h : t.Exists) :
    scanExtendedDate (dateText false t ++ rest) = none := by
  obtain ⟨c, s, hs, hc⟩ := decimal_two t.month
  have hne : c ≠ '-' := isDigit_ne hc rfl
  simp only [dateText, sep, Bool.false_eq_true, if_false, List.append_assoc, List.nil_append,
    scanExtendedDate]
  rw [scanNumber_decimal (by norm_num) h.year_lt, hs]
  simp [scanChar, hne]

theorem scanBasicDate_plain (h : t.Exists) :
    scanBasicDate (dateText false t ++ rest) = some ((t.year : ℤ), (t.month : ℤ), (t.day : ℤ)) := by
  simp only [dateText, sep, Bool.false_eq_true, if_false, List.append_assoc, List.nil_append,
    scanBasicDate]
  rw [scanNumber_decimal (by norm_num) h.year_lt]
  simp only [Option.bind_eq_bind, Option.bind_some]
  rw [scanNumber_decimal (by norm_num) (month_lt h)]
  simp only [Option.bind_some]
  rw [scanNumber_decimal (by norm_num) (day_lt h)]
  rfl

theorem scanDate_dateText (h : t.Exists) (dash : Bool) (rest : Str) :
    scanDate (dateText dash t ++ rest) =
      .ok (((t.year : ℤ), (t.month : ℤ), (t.day : ℤ)), (dateText dash t).length) := by
  unfold scanDate
  cases dash with
  | true => rw [scanExtendedDate_dash h, length_dateText]; rfl
  | false => rw [scanExtendedDate_plain h, scanBasicDate_plain h, length_dateText]; rfl

/-- Hours and minutes with the optional colon between them. -/
def hourMinuteText (colon : Bool) (t : Civil) : Str :=
  decimal 2 t.hour ++ (sep colon ':' ++ decimal 2 t.minute)

theorem scanBasicTime_colon (h : t.Exists) :
    scanBasicTime (hourMinuteText true t ++ rest) = none := by
  simp only [hourMinuteText, sep, if_true, List.append_assoc, List.cons_append, List.nil_append,
    scanBasicTime]
  rw [scanNumber_decimal (by norm_num) (hour_lt h)]
  simp only [Option.bind_eq_bind, Option.bind_some]
  rw [scanNumber_of_not_digit rfl (by decide) (by decide) rfl]
  rfl

theorem scanHourMinute_text (h : t.Exists) (colon : Bool) (pre rest : Str) :
    scanHourMinute (pre ++ (hourMinuteText colon t ++ rest)) pre.length =
      .ok (((t.hour : ℤ), (t.minute : ℤ)), (pre ++ hourMinuteText colon t).length) := by
  unfold scanHourMinute
  rw [List.drop_left]
  cases colon with
  | true =>
    rw [scanBasicTime_colon h]
    simp only [hourMinuteText, sep, if_true, List.append_assoc, List.cons_append, List.nil_append,
      scanExtendedTime]
    rw [scanNumber_decimal (by norm_num) (hour_lt h)]
    simp only [Option.bind_eq_bind, Option.bind_some, scanChar_self]
    rw [scanNumber_decimal (by norm_num) (minute_lt h)]
    simp [Option.pure_def]
  | false =>
    simp only [hourMinuteText, sep, Bool.false_eq_true, if_false, List.append_assoc,
      List.nil_append, scanBasicTime]
    rw [scanNumber_decimal (by norm_num) (hour_lt h)]
    simp only [Option.bind_eq_bind, Option.bind_some]
    rw [scanNumber_decimal (by norm_num) (minute_lt h)]
    simp [Option.pure_def]

theorem scanInt_decimal {w v : ℕ} (hw : 0 < w) (hv : v < 10 ^ w) :
    scanInt w (decimal w v ++ rest) = .ok (v : ℤ) := by
  unfold scanInt
  rw [scanNumber_decimal hw hv]

theorem scanSeconds_text (h : t.Exists) (colon : Bool) (pre rest : Str) :
    scanSeconds (pre ++ (sep colon ':' ++ (decimal 2 t.second ++ rest))) pre.length =
      .ok ((t.second : ℤ), (pre ++ (sep colon ':' ++ decimal 2 t.second)).length) := by
  obtain ⟨c, s, hs, hc⟩ := decimal_two t.second
  have hcolon : c ≠ ':' := isDigit_ne hc rfl
  have hnul : c ≠ NUL := isDigit_ne hc rfl
  unfold scanSeconds
  cases colon with
  | true =>
    have hd : deref (pre ++ ':' :: (decimal 2 t.second ++ rest)) (pre.length + 1) = .ok c := by
      have := deref_append (pre ++ [':']) c (s ++ rest)
      simpa [hs] using this
    have hdrop : (pre ++ ':' :: (decimal 2 t.second ++ rest)).drop (pre.length + 1) =
        decimal 2 t.second ++ rest := by
      simp
    simp only [sep, if_true, List.singleton_append, deref_append, bind, Except.bind, hd, hnul,
      if_false, hdrop, scanInt_decimal (by norm_num : 0 < 2) (second_lt h), pure, Except.pure]
    simp [Nat.add_assoc]
  | false =>
    have hd : deref (pre ++ (decimal 2 t.second ++ rest)) pre.length = .ok c := by
      rw [hs]; exact deref_append pre c (s ++ rest)
    simp only [sep, Bool.false_eq_true, if_false, List.nil_append, hd, bind, Except.bind, hcolon,
      hnul, List.drop_left, scanInt_decimal (by norm_num : 0 < 2) (second_lt h), pure, Except.pure]
    simp

theorem scanZone_Z (pre rest : Str) : scanZone (pre ++ 'Z' :: rest) pre.length = .ok 0 := by
  simp [scanZone, deref_append, bind, Except.bind, pure, Except.pure]

theorem scanZone_milli (h : t.Exists) (pre rest : Str) :
    scanZone (pre ++ '.' :: (decimal 3 t.milli ++ 'Z' :: rest)) pre.length = .ok (t.milli : ℤ) := by
  have hz : deref (pre ++ '.' :: (decimal 3 t.milli ++ 'Z' :: rest)) (pre.length + 4) =
      .ok 'Z' := by
    have := deref_append (pre ++ '.' :: decimal 3 t.milli) 'Z' rest
    simpa using this
  have hdrop : (pre ++ '.' :: (decimal 3 t.milli ++ 'Z' :: rest)).drop (pre.length + 1) =
      decimal 3 t.milli ++ 'Z' :: rest := by
    simp
  have hdot : ('.' : Char) ≠ 'Z' := by decide
  unfold scanZone
  simp only [deref_append, bind, Except.bind, hdot, if_false, if_true, hdrop,
    scanInt_decimal (by norm_num : 0 < 3) h.milli_lt, hz, pure, Except.pure]

theorem timeText_eq (c₁ c₂ : Bool) :
    timeText c₁ c₂ t = hourMinuteText c₁ t ++ (sep c₂ ':' ++ decimal 2 t.second) := by
  simp [timeText, hourMinuteText]

/-- The scanner up to the zone. -/
theorem scanFields_dateTime (h : t.Exists) (dash c₁ c₂ : Bool) (ms : ℤ)
    (hz : scanZone (dateText dash t ++ 'T' :: (timeText c₁ c₂ t ++ rest))
      (dateText dash t ++ 'T' :: timeText c₁ c₂ t).length = .ok ms) :
    scanFields (dateText dash t ++ 'T' :: (timeText c₁ c₂ t ++ rest)) =
      .ok { t.fields with mseconds := ms } := by
  set text := dateText dash t ++ 'T' :: (timeText c₁ c₂ t ++ rest) with htext
  have hT : deref text (dateText dash t).length = .ok 'T' := deref_append _ _ _
  have hhm : scanHourMinute text ((dateText dash t).length + 1) =
      .ok (((t.hour : ℤ), (t.minute : ℤ)),
        (dateText dash t ++ 'T' :: hourMinuteText c₁ t).length) := by
    have := scanHourMinute_text h c₁ (dateText dash t ++ ['T'])
      (sep c₂ ':' ++ (decimal 2 t.second ++ rest))
    simpa [htext, timeText_eq] using this
  have hs : scanSeconds text (dateText dash t ++ 'T' :: hourMinuteText c₁ t).length =
      .ok ((t.second : ℤ), (dateText dash t ++ 'T' :: timeText c₁ c₂ t).length) := by
    have := scanSeconds_text h c₂ (dateText dash t ++ 'T' :: hourMinuteText c₁ t) rest
    simpa [htext, timeText_eq] using this
  have hTnul : ('T' : Char) ≠ NUL := by decide
  unfold scanFields
  rw [scanDate_dateText h]
  simp only [bind, Except.bind, hT, hTnul, if_false, if_true, hhm, hs, hz, pure, Except.pure,
    Civil.fields]

/-- **Scanning a spelled text.** The scanner reads the fields of the point in
time that the text spells. -/
theorem scanFields_spell (h : t.Exists) {form : Form} (hc : form.Covers t) :
    scanFields (spell form t) = .ok t.fields := by
  cases form with
  | date dash =>
    obtain ⟨h1, h2, h3, h4⟩ := hc
    have hd := scanDate_dateText h dash []
    rw [List.append_nil] at hd
    unfold spell scanFields
    rw [hd]
    simp only [deref_length, bind, Except.bind, if_true, pure, Except.pure, Civil.fields, h1, h2,
      h3, h4, Nat.cast_zero]
  | dateTime dash c₁ c₂ =>
    unfold spell
    rw [scanFields_dateTime h dash c₁ c₂ 0]
    · simp [Civil.fields, (show t.milli = 0 from hc)]
    · have := scanZone_Z (dateText dash t ++ 'T' :: timeText c₁ c₂ t) []
      simpa using this
  | dateTimeMilli dash c₁ c₂ =>
    unfold spell
    rw [scanFields_dateTime h dash c₁ c₂ t.milli]
    · rfl
    · have := scanZone_milli h (dateText dash t ++ 'T' :: timeText c₁ c₂ t) []
      simpa using this

/-- `parseIso8601` on a spelled text. -/
theorem parseIso8601_of_spells {text : Str} (h : Spells text t) :
    parseIso8601 text = some (t.instant % 2 ^ 64).toNat := by
  obtain ⟨hex, form, hc, rfl⟩ := h
  unfold parseIso8601
  rw [scanFields_spell hex hc]
  rfl

/-! ## Printing -/

/-- `Conversions_intToStringBuffer` (conversions.c:96–119) on a value that is
not negative, without the terminator that the callers overwrite. -/
def intToStringBuffer : ℕ → ℕ → Str
  | 0, _ => []
  | w + 1, v => Char.ofNat ((v / 10 ^ w + 48) % 256) :: intToStringBuffer w (v % 10 ^ w)

theorem decimal_mod (w v : ℕ) : decimal w (v % 10 ^ w) = decimal w v := by
  induction w generalizing v with
  | zero => rfl
  | succ w ih =>
    have hmod : v % 10 ^ (w + 1) % 10 ^ w = v % 10 ^ w :=
      Nat.mod_mod_of_dvd _ (pow_dvd_pow _ (Nat.le_succ w))
    have hdiv : v % 10 ^ (w + 1) / 10 ^ w % 10 = v / 10 ^ w % 10 := by
      rw [pow_succ, Nat.mod_mul_right_div_self, Nat.mod_mod]
    rw [decimal, decimal, hdiv, ← ih (v % 10 ^ (w + 1)), hmod, ih]

/-- A value with at most `w` digits is printed in exactly `w` digits. -/
theorem intToStringBuffer_eq {w v : ℕ} (h : v < 10 ^ w) : intToStringBuffer w v = decimal w v := by
  induction w generalizing v with
  | zero => rfl
  | succ w ih =>
    have hpos : 0 < 10 ^ w := by positivity
    have hq : v / 10 ^ w < 10 := by
      rw [Nat.div_lt_iff_lt_mul hpos]
      rwa [pow_succ, mul_comm] at h
    rw [intToStringBuffer, decimal, ih (Nat.mod_lt _ hpos), decimal_mod, Nat.mod_eq_of_lt hq,
      Nat.mod_eq_of_lt (by omega), digitChar]

/-- `getUtcTimeString` (time_iso8601.c:284–322). -/
def getUtcTimeString (msTime : ℕ) : Str :=
  let tmTime := gmtime (msTime / 1000)
  intToStringBuffer 4 (tmTime.tm_year + 1900).toNat ++ '-' ::
    (intToStringBuffer 2 (tmTime.tm_mon + 1).toNat ++ '-' ::
      (intToStringBuffer 2 tmTime.tm_mday.toNat ++ 'T' ::
        (intToStringBuffer 2 tmTime.tm_hour.toNat ++ ':' ::
          (intToStringBuffer 2 tmTime.tm_min.toNat ++ ':' ::
            (intToStringBuffer 2 tmTime.tm_sec.toNat ++ '.' ::
              (intToStringBuffer 3 (msTime % 1000) ++ ['Z']))))))

/-- The point in time that `getUtcTimeString` prints. -/
def civilOfMs (msTime : ℕ) : Civil :=
  let tmTime := gmtime (msTime / 1000)
  { year := (tmTime.tm_year + 1900).toNat, month := (tmTime.tm_mon + 1).toNat,
    day := tmTime.tm_mday.toNat, hour := tmTime.tm_hour.toNat, minute := tmTime.tm_min.toNat,
    second := tmTime.tm_sec.toNat, milli := msTime % 1000 }

/-- The years that MMS seconds can reach have four digits. -/
theorem exists_civilOfMs {ms : ℕ} (h : ms ≤ 2 ^ 32 * 1000) : (civilOfMs ms).Exists := by
  obtain ⟨hy, hm0, hm1, hd0, hd1, hh0, hh1, hn0, hn1, hs0, hs1⟩ := gmtime_range (ms / 1000)
  have hyear := gmtime_year_le (ms / 1000)
  have hcast : (((gmtime (ms / 1000)).tm_year + 1900).toNat : ℤ) =
      (gmtime (ms / 1000)).tm_year + 1900 := by omega
  have hmon : ((gmtime (ms / 1000)).tm_mon + 1).toNat - 1 = (gmtime (ms / 1000)).tm_mon.toNat := by
    omega
  exact
    { year_lt := by simp only [civilOfMs]; omega
      one_le_month := by simp only [civilOfMs]; omega
      month_le := by simp only [civilOfMs]; omega
      one_le_day := by simp only [civilOfMs]; omega
      day_le := by simp only [civilOfMs, hcast, hmon]; omega
      hour_lt := by simp only [civilOfMs]; omega
      minute_lt := by simp only [civilOfMs]; omega
      second_lt := by simp only [civilOfMs]; omega
      milli_lt := Nat.mod_lt _ (by norm_num) }

theorem fields_civilOfMs (ms : ℕ) :
    (civilOfMs ms).fields = { tm := gmtime (ms / 1000), mseconds := ((ms % 1000 : ℕ) : ℤ) } := by
  obtain ⟨hy, hm0, hm1, hd0, hd1, hh0, hh1, hn0, hn1, hs0, hs1⟩ := gmtime_range (ms / 1000)
  simp only [Civil.fields, civilOfMs, Fields.mk.injEq, and_true]
  have hyear : ((((gmtime (ms / 1000)).tm_year + 1900).toNat : ℕ) : ℤ) - 1900 =
      (gmtime (ms / 1000)).tm_year := by omega
  have hmon : ((((gmtime (ms / 1000)).tm_mon + 1).toNat : ℕ) : ℤ) - 1 =
      (gmtime (ms / 1000)).tm_mon := by omega
  rw [hyear, hmon, Int.toNat_of_nonneg (by omega), Int.toNat_of_nonneg hh0,
    Int.toNat_of_nonneg hn0, Int.toNat_of_nonneg hs0]

/-- The printed point in time is the given one. -/
theorem instant_civilOfMs (ms : ℕ) : (civilOfMs ms).instant = ms := by
  unfold Civil.instant Fields.instant
  rw [fields_civilOfMs]
  simp only [timegm_gmtime]
  omega

/-- What is published is a spelled text. -/
theorem getUtcTimeString_eq_spell {ms : ℕ} (h : ms ≤ 2 ^ 32 * 1000) :
    getUtcTimeString ms = spell (.dateTimeMilli true true true) (civilOfMs ms) := by
  have hex := exists_civilOfMs h
  have hday := day_lt hex
  have hmonth := month_lt hex
  have hhour := hour_lt hex
  have hminute := minute_lt hex
  have hsecond := second_lt hex
  have hyear : _ < 10 ^ 4 := hex.year_lt
  have hmilli : _ < 10 ^ 3 := hex.milli_lt
  simp only [civilOfMs] at hday hmonth hhour hminute hsecond hyear hmilli
  simp [getUtcTimeString, spell, dateText, timeText, sep, civilOfMs,
    intToStringBuffer_eq hyear,
    intToStringBuffer_eq hmonth, intToStringBuffer_eq hday, intToStringBuffer_eq hhour,
    intToStringBuffer_eq hminute, intToStringBuffer_eq hsecond,
    intToStringBuffer_eq hmilli]

theorem spells_getUtcTimeString {ms : ℕ} (h : ms ≤ 2 ^ 32 * 1000) :
    Spells (getUtcTimeString ms) (civilOfMs ms) :=
  ⟨exists_civilOfMs h, .dateTimeMilli true true true, trivial, getUtcTimeString_eq_spell h⟩

/-- Reading back what was printed. -/
theorem parseIso8601_getUtcTimeString {ms : ℕ} (h : ms ≤ 2 ^ 32 * 1000) :
    parseIso8601 (getUtcTimeString ms) = some ms := by
  rw [parseIso8601_of_spells (spells_getUtcTimeString h), instant_civilOfMs]
  have : ((ms : ℤ) % 2 ^ 64).toNat = ms := by omega
  rw [this]

end DslinkIec61850.Iso8601
