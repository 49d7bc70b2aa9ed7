import DslinkIec61850.Value.Iso8601Points

/-!
# The documented forms

The comment of `parseIso8601` (time_iso8601.c:201–208) lists a date alone and a date
followed by `T` and a time of day, with or without seconds; the code also takes a fraction
and wants a `Z`. Times of day without seconds and times of day without a `Z` are refused.

* `documented_reads`: what becomes of each documented form.
* `parseIso8601_right_iff`: the texts on which the parser does what it documents.
-/

namespace DslinkIec61850.Iso8601

open Decimal Calendar

variable {t : Civil} {pre rest : Str}

/-! ## The forms -/

/-- What stands behind a time of day: nothing, `Z`, or `.mmmZ`. -/
inductive Ending where
  | bare | zone | fraction
  deriving DecidableEq

/-- A date alone, or a date and a time of day; with or without dashes, colons and seconds. -/
inductive DocumentedForm where
  | date (dash : Bool)
  | dateTime (dash colon seconds : Bool) (ending : Ending)
  deriving DecidableEq

/-- The seconds behind hours and minutes, if there are any. -/
def secondsText (colon seconds : Bool) (t : Civil) : Str :=
  if seconds then sep colon ':' ++ decimal 2 t.second else []

def Ending.text : Ending → Civil → Str
  | .bare, _ => []
  | .zone, _ => ['Z']
  | .fraction, t => '.' :: (decimal 3 t.milli ++ ['Z'])

/-- `HHMM`, `HH:MM`, `HHMMSS` or `HH:MM:SS` behind the date and the `T`. -/
def DocumentedForm.text : DocumentedForm → Civil → Str
  | .date dash, t => dateText dash t
  | .dateTime dash colon seconds ending, t =>
    dateText dash t ++ 'T' ::
      (hourMinuteText colon t ++ (secondsText colon seconds t ++ ending.text t))

/-- The form leaves out only what is zero. -/
def DocumentedForm.Covers : DocumentedForm → Civil → Prop
  | .date _, t => t.hour = 0 ∧ t.minute = 0 ∧ t.second = 0 ∧ t.milli = 0
  | .dateTime _ _ seconds ending, t =>
    (seconds = false → t.second = 0) ∧ (ending ≠ .fraction → t.milli = 0)

/-- The text is written in the form and means the existing point in time `t`. -/
def Documented (form : DocumentedForm) (t : Civil) (text : Str) : Prop :=
  t.Exists ∧ form.Covers t ∧ text = form.text t

/-- The instant of a documented text, and 0 for every other text. -/
def ParsesRight (text : Str) : Prop :=
  (∀ form t, Documented form t text → ∃ n, parseIso8601 text = some n ∧ (n : ℤ) = t.instant) ∧
    ((¬ ∃ form t, Documented form t text) → parseIso8601 text = some 0)

/-! ## What the parser does with them -/

/-- The forms that the parser takes: a date alone, and a time of day with seconds that
does not end bare. -/
def DocumentedForm.Read : DocumentedForm → Prop
  | .date _ => True
  | .dateTime _ _ seconds ending => seconds = true ∧ ending ≠ .bare

instance : (form : DocumentedForm) → Decidable form.Read
  | .date _ => inferInstanceAs (Decidable True)
  | .dateTime _ _ _ _ => inferInstanceAs (Decidable (_ ∧ _))

/-- 1970-01-01T00:00:00.000. -/
def epoch : Civil :=
  { year := 1970, month := 1, day := 1, hour := 0, minute := 0, second := 0, milli := 0 }

/-- The conversions take the text, as a date alone or as a date and time of day with a `Z`
or a fraction behind it. -/
def Converted (text : Str) (tm : Tm) (mseconds : ℤ) : Prop :=
  (DateAlone text tm ∧ mseconds = 0) ∨
    ∃ c, TimeAt text tm c ∧ ((peek text c = some 'Z' ∧ mseconds = 0) ∨ Fraction text c mseconds)

/-- A documented text is in a form that is read and not before 1970, or it is a refused
form of the epoch. Every other text is long enough for the cursor, and the conversions do
not take it unless as the epoch. -/
def FormFits (text : Str) : Prop :=
  (∀ form t, Documented form t text → if form.Read then 1970 ≤ t.year else t = epoch) ∧
    ((¬ ∃ form t, Documented form t text) →
      LongEnough text ∧ ∀ tm mseconds, Converted text tm mseconds → timegm tm * 1000 + mseconds = 0)

/-! ### Dates and times of day -/

/-- The parser up to the minutes of a documented text. -/
theorem hourMinute_at (h : t.Exists) (dash colon : Bool) (rest : Str) :
    let text := dateText dash t ++ 'T' :: (hourMinuteText colon t ++ rest)
    scanDate text = .ok (((t.year : ℤ), (t.month : ℤ), (t.day : ℤ)), (dateText dash t).length) ∧
      peek text (dateText dash t).length = some 'T' ∧
      scanHourMinute text ((dateText dash t).length + 1) =
        .ok (((t.hour : ℤ), (t.minute : ℤ)),
          (dateText dash t ++ 'T' :: hourMinuteText colon t).length) := by
  refine ⟨scanDate_dateText h dash _, peek_append_length _ _ _, ?_⟩
  have := scanHourMinute_text h colon (dateText dash t ++ ['T']) rest
  simpa using this

theorem timeAt_of_scanSeconds (h : t.Exists) (dash colon : Bool) {seconds : ℤ} {c : ℕ}
    (hs : scanSeconds (dateText dash t ++ 'T' :: (hourMinuteText colon t ++ rest))
      (dateText dash t ++ 'T' :: hourMinuteText colon t).length = .ok (seconds, c)) :
    TimeAt (dateText dash t ++ 'T' :: (hourMinuteText colon t ++ rest))
      (pointTm (t.year, t.month, t.day) t.hour t.minute seconds) c := by
  obtain ⟨hdate, hT, hhm⟩ := hourMinute_at h dash colon rest
  exact ⟨_, _, hdate, hT, scanTimeOfDay_eq_ok.2 ⟨_, _, seconds, hhm, hs, rfl⟩⟩

theorem refused_of_scanSeconds (h : t.Exists) (dash colon : Bool)
    (hs : scanSeconds (dateText dash t ++ 'T' :: (hourMinuteText colon t ++ rest))
      (dateText dash t ++ 'T' :: hourMinuteText colon t).length = .error .refused) :
    parseIso8601 (dateText dash t ++ 'T' :: (hourMinuteText colon t ++ rest)) = some 0 := by
  obtain ⟨hdate, hT, hhm⟩ := hourMinute_at h dash colon rest
  have htime : scanTimeOfDay (dateText dash t ++ 'T' :: (hourMinuteText colon t ++ rest))
      (t.year, t.month, t.day) ((dateText dash t).length + 1) = .error .refused := by
    unfold scanTimeOfDay
    simp only [hhm, hs, bind, Except.bind]
  unfold parseIso8601
  rw [scanFields_timeOfDay_error hdate hT htime]

/-- The text ends where seconds may follow. -/
theorem scanSeconds_end (pre : Str) : scanSeconds pre pre.length = .ok (0, pre.length) := by
  have hne : NUL ≠ ':' := by decide
  unfold scanSeconds
  simp only [deref_length, bind, Except.bind, if_neg hne, if_true, pure, Except.pure]

/-- Something else stands where seconds may follow. -/
theorem scanSeconds_of_not_digit (ch : Char) (hsp : isSpace ch = false) (hp : ch ≠ '+')
    (hm : ch ≠ '-')
    (hd : ch.isDigit = false) (hcolon : ch ≠ ':') (hnul : ch ≠ NUL) (pre rest : Str) :
    scanSeconds (pre ++ ch :: rest) pre.length = .error .refused := by
  unfold scanSeconds
  simp only [deref_append, bind, Except.bind, if_neg hcolon, if_neg hnul, pure, Except.pure,
    List.drop_left, scanInt, scanNumber_of_not_digit hsp hp hm hd]

theorem endAt_zone_of_end (pre : Str) : endAt 'Z' pre pre.length = .error .refused := by
  have hZ : NUL ≠ 'Z' := by decide
  have hdot : NUL ≠ '.' := by decide
  unfold endAt
  simp only [deref_length, bind, Except.bind, if_neg hZ, if_neg hdot]
  rfl

theorem refused_of_bare (h : t.Exists) (dash colon : Bool) (seconds : ℤ)
    (hs : scanSeconds (dateText dash t ++ 'T' :: (hourMinuteText colon t ++ rest))
      (dateText dash t ++ 'T' :: hourMinuteText colon t).length =
        .ok (seconds, (dateText dash t ++ 'T' :: (hourMinuteText colon t ++ rest)).length)) :
    parseIso8601 (dateText dash t ++ 'T' :: (hourMinuteText colon t ++ rest)) = some 0 := by
  rw [(timeAt_of_scanSeconds h dash colon hs).parseIso8601, endAt_zone_of_end]

/-- **What becomes of a documented text.** -/
theorem documented_reads {form : DocumentedForm} {text : Str} (h : Documented form t text) :
    parseIso8601 text = some (if form.Read then (t.instant % 2 ^ 64).toNat else 0) := by
  obtain ⟨hex, hcovers, rfl⟩ := h
  cases form with
  | date dash =>
    rw [if_pos (show (DocumentedForm.date dash).Read from trivial)]
    exact parseIso8601_of_spells ⟨hex, .date dash, hcovers, rfl⟩
  | dateTime dash colon seconds ending =>
    obtain ⟨hsecond, hmilli⟩ := hcovers
    show parseIso8601 (dateText dash t ++ 'T' :: (hourMinuteText colon t ++ _)) = _
    cases seconds with
    | false =>
      have hread : ¬ (DocumentedForm.dateTime dash colon false ending).Read := fun h => by cases h.1
      rw [if_neg hread]
      cases ending with
      | bare =>
        refine refused_of_bare hex dash colon 0 ?_
        simpa [secondsText, Ending.text] using
          scanSeconds_end (dateText dash t ++ 'T' :: hourMinuteText colon t)
      | zone =>
        refine refused_of_scanSeconds hex dash colon ?_
        have := scanSeconds_of_not_digit 'Z' rfl (by decide) (by decide) rfl (by decide) (by decide)
          (dateText dash t ++ 'T' :: hourMinuteText colon t) []
        simpa [secondsText, Ending.text] using this
      | fraction =>
        refine refused_of_scanSeconds hex dash colon ?_
        have := scanSeconds_of_not_digit '.' rfl (by decide) (by decide) rfl (by decide) (by decide)
          (dateText dash t ++ 'T' :: hourMinuteText colon t) (decimal 3 t.milli ++ ['Z'])
        simpa [secondsText, Ending.text] using this
    | true =>
      cases ending with
      | bare =>
        have hread : ¬ (DocumentedForm.dateTime dash colon true .bare).Read := fun h => h.2 rfl
        rw [if_neg hread]
        refine refused_of_bare hex dash colon t.second ?_
        simpa [secondsText, Ending.text] using
          scanSeconds_text hex colon (dateText dash t ++ 'T' :: hourMinuteText colon t) []
      | zone =>
        rw [if_pos (show (DocumentedForm.dateTime dash colon true
          .zone).Read from ⟨rfl, by decide⟩)]
        refine parseIso8601_of_spells ⟨hex, .dateTime dash colon colon, hmilli (by decide), ?_⟩
        simp [spell, timeText_eq, secondsText, Ending.text]
      | fraction =>
        rw [if_pos (show (DocumentedForm.dateTime dash colon true
          .fraction).Read from ⟨rfl, by decide⟩)]
        refine parseIso8601_of_spells ⟨hex, .dateTimeMilli dash colon colon, trivial, ?_⟩
        simp [spell, timeText_eq, secondsText, Ending.text]

/-! ### The instant of a documented text -/

/-- The days and the milliseconds of the day. -/
theorem instant_eq (h : t.Exists) :
    t.instant = 86400000 * dayNumber t.year (t.month - 1) t.day +
      (3600000 * t.hour + 60000 * t.minute + 1000 * t.second + t.milli) := by
  have h1 := h.one_le_month
  have h12 := h.month_le
  have hyear : (t.year : ℤ) - 1900 + 1900 + ((t.month : ℤ) - 1) / 12 = t.year := by omega
  have hmonth : (((t.month : ℤ) - 1) % 12).toNat = t.month - 1 := by omega
  unfold Civil.instant Fields.instant Civil.fields timegm
  simp only [hyear, hmonth]
  ring

theorem dayNumber_bounds_of_exists (h : t.Exists) :
    (0 ≤ dayNumber t.year (t.month - 1) t.day ↔ 1970 ≤ t.year) ∧
      (dayNumber t.year (t.month - 1) t.day = 0 ↔ (t.year : ℤ) = 1970 ∧ t.month - 1 = 0 ∧
        (t.day : ℤ) = 1) := by
  have h12 := h.month_le
  have hmon : t.month - 1 ≤ 11 := by omega
  have h1 : (1 : ℤ) ≤ t.day := by exact_mod_cast h.one_le_day
  refine ⟨?_, dayNumber_eq_zero_iff hmon h1 h.day_le⟩
  rw [dayNumber_nonneg_iff hmon h1 h.day_le]
  exact_mod_cast Iff.rfl

theorem instant_nonneg_iff (h : t.Exists) : 0 ≤ t.instant ↔ 1970 ≤ t.year := by
  have hhour := h.hour_lt
  have hminute := h.minute_lt
  have hsecond := h.second_lt
  have hmilli := h.milli_lt
  rw [← (dayNumber_bounds_of_exists h).1, instant_eq h]
  omega

theorem instant_eq_zero_iff (h : t.Exists) : t.instant = 0 ↔ t = epoch := by
  constructor
  · intro hzero
    have hhour := h.hour_lt
    have hminute := h.minute_lt
    have hsecond := h.second_lt
    have hmilli := h.milli_lt
    have hmonth := h.one_le_month
    rw [instant_eq h] at hzero
    obtain ⟨hy, hm, hd⟩ := (dayNumber_bounds_of_exists h).2.1 (by omega)
    cases t
    simp only [epoch, Civil.mk.injEq]
    simp only at *
    omega
  · rintro rfl
    decide

theorem instant_lt (h : t.Exists) : t.instant < 2 ^ 64 := by
  have hyear := h.year_lt
  have h1 := h.one_le_month
  have hmonth := month_lt h
  have hday := day_lt h
  have hhour := hour_lt h
  have hminute := minute_lt h
  have hsecond := second_lt h
  have hmilli := h.milli_lt
  have hlt : |timegm t.fields.tm| < 2 ^ 40 := by
    refine timegm_abs_lt ?_ ?_ ?_ ?_ ?_ ?_
    all_goals
      rw [abs_lt]
      simp only [Civil.fields]
      omega
  rw [abs_lt] at hlt
  show timegm t.fields.tm * 1000 + (t.milli : ℤ) < _
  omega

/-! ### Every text -/

/-- A documented text is read as its instant exactly when its form is read and the year is
not before 1970, or it means the epoch. -/
theorem documented_right_iff {form : DocumentedForm} {text : Str} (h : Documented form t text) :
    (∃ n, parseIso8601 text = some n ∧ (n : ℤ) = t.instant) ↔
      if form.Read then 1970 ≤ t.year else t = epoch := by
  have hlt := instant_lt h.1
  rw [documented_reads h, ← instant_nonneg_iff h.1, ← instant_eq_zero_iff h.1]
  by_cases hread : form.Read
  · rw [if_pos hread, if_pos hread]
    constructor
    · rintro ⟨n, hn, heq⟩
      omega
    · intro hnonneg
      exact ⟨_, rfl, by omega⟩
  · rw [if_neg hread, if_neg hread]
    constructor
    · rintro ⟨n, hn, heq⟩
      cases hn
      exact heq.symm
    · intro hzero
      exact ⟨0, rfl, by rw [hzero]; rfl⟩

theorem Converted.abs_lt {text : Str} {tm : Tm} {mseconds : ℤ} (h : Converted text tm mseconds) :
    |timegm tm| < 2 ^ 40 ∧ |mseconds| < 10 ^ 3 := by
  rcases h with ⟨h, rfl⟩ | ⟨c, h, ⟨-, rfl⟩ | ⟨-, hread, -⟩⟩
  · exact ⟨h.abs_lt, by norm_num⟩
  · exact ⟨h.abs_lt, by norm_num⟩
  · exact ⟨h.abs_lt, scanInt_abs_lt hread⟩

/-- Exactly the texts that the conversions take have a result. -/
theorem converted_iff {text : Str} {tm : Tm} {mseconds : ℤ} :
    Converted text tm mseconds ↔ scanFields text = .ok { tm := tm, mseconds := mseconds } := by
  have hZ : 'Z' ≠ '.' := by decide
  constructor
  · rintro (⟨h, rfl⟩ | ⟨c, h, hend⟩)
    · exact h.scanFields
    · rw [h.scanFields, scanZone_eq_endAt, (endAt_eq_ok hZ).2 hend]
      rfl
  · intro hfields
    rcases point_cases text with ⟨tm', h⟩ | ⟨tm', c, h⟩ | ⟨e, -, -, hstop, -⟩
    · rw [h.scanFields] at hfields
      cases hfields
      exact .inl ⟨h, rfl⟩
    · rw [h.scanFields, scanZone_eq_endAt] at hfields
      cases hend : endAt 'Z' text c with
      | ok ms =>
        rw [hend] at hfields
        cases hfields
        exact .inr ⟨c, h, (endAt_eq_ok hZ).1 hend⟩
      | error e =>
        rw [hend] at hfields
        cases hfields
    · rw [hstop] at hfields
      cases hfields

theorem parseIso8601_eq_zero_iff (text : Str) :
    parseIso8601 text = some 0 ↔
      LongEnough text ∧ ∀ tm mseconds, Converted text tm mseconds →
      timegm tm * 1000 + mseconds = 0 := by
  have hlong : LongEnough text ↔ scanFields text ≠ .error .overrun := by
    rw [ne_eq, scanFields_overrun_iff, not_not]
  rw [hlong, parseIso8601]
  cases hfields : scanFields text with
  | ok f =>
    obtain ⟨tm, mseconds⟩ := f
    have hread : Converted text tm mseconds := converted_iff.2 hfields
    have hzero := toNat_instant_eq_zero hread.abs_lt.1 hread.abs_lt.2
    constructor
    · intro h
      refine ⟨by simp, fun tm' mseconds' h' => ?_⟩
      rw [converted_iff, hfields] at h'
      cases h'
      exact hzero.1 (Option.some.inj h)
    · rintro ⟨-, h⟩
      exact congrArg some (hzero.2 (h tm mseconds hread))
  | error e =>
    have hnone (tm : Tm) (mseconds : ℤ) : ¬ Converted text tm mseconds := by
      rw [converted_iff, hfields]
      simp
    cases e with
    | refused => exact iff_of_true rfl ⟨by simp, fun tm mseconds h => absurd h (hnone tm mseconds)⟩
    | overrun => exact iff_of_false (by simp) (by simp)

/-- **The documented forms.** -/
theorem parseIso8601_right_iff (text : Str) : ParsesRight text ↔ FormFits text := by
  unfold ParsesRight FormFits
  refine and_congr ?_ ?_
  · exact forall_congr' fun form => forall_congr' fun t => forall_congr' fun h =>
      documented_right_iff h
  · rw [parseIso8601_eq_zero_iff]

/-- A time of day in the basic format without seconds is refused. -/
theorem minutes_refused : ¬ ParsesRight "20160101T1200".toList := by
  rintro ⟨hdocumented, -⟩
  let noon : Civil := { year := 2016, month := 1, day := 1, hour := 12, minute := 0, second := 0,
                        milli := 0 }
  have hex : noon.Exists := by
    constructor <;> decide
  have htext : Documented (.dateTime false false false .bare) noon "20160101T1200".toList :=
    ⟨hex, ⟨fun _ => rfl, fun _ => rfl⟩, by decide⟩
  obtain ⟨n, hn, heq⟩ := hdocumented _ _ htext
  have hzero : parseIso8601 "20160101T1200".toList = some 0 := by decide
  rw [hzero] at hn
  cases hn
  revert heq
  decide

end DslinkIec61850.Iso8601
