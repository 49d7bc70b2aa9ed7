import DslinkIec61850.Value.Duration
import DslinkIec61850.Value.Iso8601

/-!
# The two parsers of times

`parseIso8601Generic` reads a duration after a `P` and a point in time otherwise
(time_iso8601.c:18–178). Its code for points in time is a second copy of
`parseIso8601` (lines 180–282).

* `duration_right_iff`: when a duration is computed.
-/

namespace DslinkIec61850.Iso8601

open Decimal Calendar

/-! ## The generic parser -/

/-- What `parseIso8601Generic` returns and leaves in `*isotime` and `*flag`. -/
structure GenericResult where
  totalTimeMs : ℕ
  isotime : ℤ
  flag : Char
  deriving DecidableEq

/-- A read past the terminator, or a value beyond `int`. -/
inductive GenericFault where
  | overrun | overflow
  deriving DecidableEq, Repr

/-- `return 0` with what `*isotime` has by then. -/
def returnZero (isotime : ℤ) (flag : Char) : GenericResult :=
  { totalTimeMs := 0, isotime := isotime, flag := flag }

/-- The text after a `P` (lines 36–90). -/
def genericDuration (text : Str) : Except GenericFault GenericResult :=
  match durationLoop .start none text with
  | .ok d => if d.total < 2 ^ 31 then .ok (returnZero d.total 'D') else .error .overflow
  | .error .refused => .ok (returnZero 0 'D')
  | .error .overflow => .error .overflow

/-- The date and the time of day as `struct tm`. -/
def pointTm (date : ℤ × ℤ × ℤ) (hours minutes seconds : ℤ) : Tm :=
  { tm_year := date.1 - 1900, tm_mon := date.2.1 - 1, tm_mday := date.2.2,
    tm_hour := hours, tm_min := minutes, tm_sec := seconds }

/-- The milliseconds behind the time of day: none at the end of the text, or a
fraction and a `Z` (lines 152–170). -/
def genericEnd (text : Str) (c : ℕ) : Except Stop ℤ := do
  if (← deref text c) = NUL then return 0
  if (← deref text c) = '.' then
    let mseconds ← scanInt 3 (text.drop (c + 1))
    if (← deref text (c + 4)) = 'Z' then return mseconds
  throw .refused

/-- A failed scan. -/
def stopped (isotime : ℤ) : Stop → Except GenericFault GenericResult
  | .refused => .ok (returnZero isotime 'T')
  | .overrun => .error .overrun

/-- The time of day at index `c` behind a date (lines 128–150). -/
def scanTimeOfDay (text : Str) (date : ℤ × ℤ × ℤ) (c : ℕ) : Except Stop (Tm × ℕ) := do
  let ((hours, minutes), c) ← scanHourMinute text c
  let (seconds, c) ← scanSeconds text c
  return (pointTm date hours minutes seconds, c)

/-- A point in time (lines 91–175). -/
def genericPoint (text : Str) : Except GenericFault GenericResult :=
  match scanDate text with
  | .error e => stopped 0 e
  | .ok (date, c) =>
    match deref text c with
    | .error e => stopped 0 e
    | .ok ch =>
      if ch = NUL then .ok (returnZero (timegm (pointTm date 0 0 0)) 'T')
      else if ch = 'T' then
        match scanTimeOfDay text date (c + 1) with
        | .error e => stopped 0 e
        | .ok (tm, c) =>
          match genericEnd text c with
          | .error e => stopped (timegm tm) e
          | .ok mseconds => .ok
              { totalTimeMs := ((timegm tm * 1000 + mseconds) % 2 ^ 64).toNat, isotime := timegm tm,
                flag := 'T' }
      else stopped 0 .refused

/-- `parseIso8601Generic` (time_iso8601.c:18–178). -/
def parseIso8601Generic (text : Str) : Except GenericFault GenericResult :=
  match text with
  | 'P' :: rest => genericDuration rest
  | text => genericPoint text

/-! ## Durations -/

/-- The components are written with numbers, in order. -/
structure WellFormed (cs : List Component) (text : Str) : Prop extends Components cs [] where
  text_eq : text = written cs
  numbers : ∀ p ∈ cs, p.1 ≠ []
  order : InOrder (cs.map Prod.snd)

/-- `*isotime` is the sum of the components of a well-formed duration and stays 0 for
every other text. -/
def DurationRight (text : Str) : Prop :=
  ∃ r, parseIso8601Generic ('P' :: text) = .ok r ∧
    (∀ cs, WellFormed cs text → r.isotime = total cs) ∧
    ((¬ ∃ cs, WellFormed cs text) → r.isotime = 0)

/-- No number that is read exceeds `int`; and if the text ends with a designator and the
loop takes all of them, then the sum is an `int`, and every designator has a number and
comes once, or the sum is 0. -/
def DurationFits (text : Str) : Prop :=
  ReadSmall [] (components text).1 (components text).2 ∧
    ((components text).2 = [] → Taken ((components text).1.map Prod.snd) →
      total (components text).1 < 2 ^ 31 ∧
        (((∀ p ∈ (components text).1, p.1 ≠ []) ∧ InOrder ((components text).1.map Prod.snd)) ∨
          total (components text).1 = 0))

theorem wellFormed_iff {cs : List Component} {text : Str} :
    WellFormed cs text ↔ components text = (cs, []) ∧ (∀ p ∈ cs, p.1 ≠ []) ∧
    InOrder (cs.map Prod.snd) := by
  constructor
  · rintro ⟨hcomponents, rfl, hnumbers, horder⟩
    exact ⟨components_written hcomponents, hnumbers, horder⟩
  · rintro ⟨hcut, hnumbers, horder⟩
    obtain ⟨hcomponents, heq⟩ := components_spec text
    rw [hcut] at hcomponents heq
    exact ⟨hcomponents, by rw [← heq, List.append_nil], hnumbers, horder⟩

/-- **Durations.** -/
theorem duration_right_iff (text : Str) : DurationRight text ↔ DurationFits text := by
  let cs := (components text).1
  have hloop := durationLoop_eq text
  have hwell : (∃ cs, WellFormed cs text) ↔
      (components text).2 = [] ∧ (∀ p ∈ cs, p.1 ≠ []) ∧ InOrder (cs.map Prod.snd) := by
    constructor
    · rintro ⟨cs', hcs'⟩
      obtain ⟨hcut, hrest⟩ := wellFormed_iff.1 hcs'
      show (components text).2 = [] ∧ (∀ p ∈ (components text).1, _) ∧
        InOrder ((components text).1.map _)
      rw [hcut]
      exact ⟨rfl, hrest⟩
    · rintro ⟨htail, hrest⟩
      exact ⟨cs, wellFormed_iff.2 ⟨Prod.ext rfl htail, hrest⟩⟩
  have hunique {cs' : List Component} (hcs' : WellFormed cs' text) : cs' = cs := by
    show cs' = (components text).1
    rw [(wellFormed_iff.1 hcs').1]
  unfold DurationRight DurationFits
  show (∃ r, genericDuration text = .ok r ∧ _) ↔ _
  rw [genericDuration, hloop]
  by_cases hread : ReadSmall [] (components text).1 (components text).2
  · rw [if_pos hread]
    by_cases htaken : (components text).2 = [] ∧ Taken ((components text).1.map Prod.snd)
    · rw [if_pos htaken]
      dsimp only
      rw [total_stateOf]
      by_cases hfits : total (components text).1 < 2 ^ 31
      · rw [if_pos hfits]
        constructor
        · rintro ⟨r, hr, -, hother⟩
          cases hr
          refine ⟨hread, fun _ _ => ⟨hfits, ?_⟩⟩
          by_cases hform : (∀ p ∈ cs, p.1 ≠ []) ∧ InOrder (cs.map Prod.snd)
          · exact .inl hform
          · right
            have hzero : ((total (components text).1 : ℕ) : ℤ) = 0 :=
              hother fun h => hform (hwell.1 h).2
            exact_mod_cast hzero
        · rintro ⟨-, hcond⟩
          obtain ⟨-, hcase⟩ := hcond htaken.1 htaken.2
          refine ⟨_, rfl, ?_, ?_⟩
          · intro cs' hcs'
            rw [hunique hcs']
            rfl
          · intro hnone
            rcases hcase with hform | hzero
            · exact absurd (hwell.2 ⟨htaken.1, hform⟩) hnone
            · show ((total (components text).1 : ℕ) : ℤ) = 0
              rw [hzero]
              rfl
      · rw [if_neg hfits]
        constructor
        · rintro ⟨r, hr, -⟩
          cases hr
        · rintro ⟨-, hcond⟩
          exact absurd (hcond htaken.1 htaken.2).1 hfits
    · -- the loop has refused the text, so it is not well-formed
      rw [if_neg htaken]
      have hnone : ¬ ∃ cs, WellFormed cs text := by
        intro h
        obtain ⟨htail, -, horder⟩ := hwell.1 h
        exact htaken ⟨htail, horder.taken⟩
      constructor
      · exact fun _ => ⟨hread, fun htail htaken' => absurd ⟨htail, htaken'⟩ htaken⟩
      · exact fun _ => ⟨_, rfl, fun cs' hcs' => absurd ⟨cs', hcs'⟩ hnone, fun _ => rfl⟩
  · rw [if_neg hread]
    constructor
    · rintro ⟨r, hr, -⟩
      cases hr
    · rintro ⟨hread', -⟩
      exact absurd hread' hread

/-- The hours are given twice, and the last ones count. -/
theorem twoHours_wrong : ¬ DurationRight "1H2H".toList := by
  rw [duration_right_iff]
  rintro ⟨-, hcond⟩
  obtain ⟨-, hcase⟩ := hcond (by decide) (by decide)
  revert hcase
  decide

end DslinkIec61850.Iso8601
