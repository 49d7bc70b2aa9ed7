import DslinkIec61850.Value.Iso8601Generic

/-!
# Two recognisers of a point in time

`parseIso8601` and the second half of `parseIso8601Generic` (time_iso8601.c:90–282) are two
copies of one recogniser. Both advance the cursor by the width of a format after each
`sscanf`, also when the conversions took fewer characters. The copies part behind a date
alone, at the end of the text behind the time of day and at a `Z` there.

* `point_cases`: both copies up to the end of the time of day.
* `cursor_inBounds_iff`: when the cursor stays in front of the terminator.
* `parsers_agree_iff`: when both return the same number.
-/

namespace DslinkIec61850.Iso8601

open Decimal Calendar Run

/-! ## The cursor -/

/-- The cursor behind a colon, if there is one. -/
def afterColon (text : Str) (c : ℕ) : ℕ := if peek text c = some ':' then c + 1 else c

/-- The seconds at `c` and the fraction behind them, if they are converted, are not
followed by the end of the text too early. -/
def SecondsFit (text : Str) (c : ℕ) : Prop :=
  peek text c ≠ some NUL → ∀ seconds, scanInt 2 (text.drop c) = .ok seconds →
    c + 2 ≤ text.length ∧
      (peek text (c + 2) = some '.' → ∀ mseconds, scanInt 3 (text.drop (c + 3)) = .ok mseconds →
        c + 6 ≤ text.length)

/-- The text is long enough for every advance: behind a date 10 or 8 characters, behind
hours and minutes 4 or 5, behind the seconds 2 and behind a fraction 3. -/
def LongEnough (text : Str) : Prop :=
  ∀ date c, scanDate text = .ok (date, c) → c ≤ text.length ∧
    (peek text c = some 'T' → ∀ hm c₁, scanHourMinute text (c + 1) = .ok (hm, c₁) →
      c₁ ≤ text.length ∧ SecondsFit text (afterColon text c₁))

theorem deref_eq_ok {text : Str} {i : ℕ} {ch : Char} :
    deref text i = .ok ch ↔ peek text i = some ch := by
  unfold deref
  cases peek text i <;> simp

theorem peek_isSome {text : Str} {i : ℕ} : (peek text i).isSome = true ↔ i ≤ text.length := by
  unfold peek
  split_ifs with hlt heq
  · rw [List.getElem?_eq_getElem hlt]
    exact iff_of_true rfl hlt.le
  · exact iff_of_true rfl heq.le
  · refine iff_of_false (by simp) ?_
    omega

/-- A character that is looked at is in the text, or it is the terminator. -/
theorem deref_cases (text : Str) (i : ℕ) :
    (i ≤ text.length ∧ ∃ ch, deref text i = .ok ch ∧ peek text i = some ch) ∨
      (text.length < i ∧ deref text i = .error .overrun) := by
  by_cases hi : i ≤ text.length
  · obtain ⟨ch, hch⟩ := Option.isSome_iff_exists.1 (peek_isSome.2 hi)
    exact .inl ⟨hi, ch, deref_eq_ok.2 hch, hch⟩
  · have hnone : peek text i = none := by
      rw [← Option.not_isSome_iff_eq_none, peek_isSome]
      exact hi
    refine .inr ⟨by omega, ?_⟩
    rw [deref, hnone]

theorem lt_length_of_peek {text : Str} {i : ℕ} {ch : Char} (h : peek text i = some ch)
    (hch : ch ≠ NUL) : i < text.length := by
  unfold peek at h
  split_ifs at h with hlt heq
  · exact hlt
  · exact absurd (Option.some.inj h).symm hch

theorem scanInt_cases (w : ℕ) (s : Str) :
    (∃ n, scanInt w s = .ok n) ∨ scanInt w s = .error .refused := by
  unfold scanInt
  cases scanNumber w s with
  | none => exact .inr rfl
  | some p => exact .inl ⟨p.1, rfl⟩

/-- The seconds are read only if the text goes on, and their cursor is in the text. -/
theorem scanSeconds_cases {text : Str} {c : ℕ} (hc : c ≤ text.length) :
    afterColon text c ≤ text.length ∧
      ((peek text (afterColon text c) = some NUL ∧
        scanSeconds text c = .ok (0, afterColon text c)) ∨
        (peek text (afterColon text c) ≠ some NUL ∧
          ((∃ s, scanInt 2 (text.drop (afterColon text c)) = .ok s ∧
              scanSeconds text c = .ok (s, afterColon text c + 2)) ∨
            (scanInt 2 (text.drop (afterColon text c)) = .error .refused ∧
              scanSeconds text c = .error .refused)))) := by
  have hcolon : ∃ ch, deref text c = .ok ch ∧
      afterColon text c = (if ch = ':' then c + 1 else c) := by
    rcases deref_cases text c with ⟨-, ch, hd, hp⟩ | ⟨hlt, -⟩
    · refine ⟨ch, hd, ?_⟩
      rw [afterColon, hp]
      simp only [Option.some.injEq]
    · omega
  have hle : afterColon text c ≤ text.length := by
    unfold afterColon
    split_ifs with hp
    · have := lt_length_of_peek hp (by decide)
      omega
    · exact hc
  refine ⟨hle, ?_⟩
  obtain ⟨ch, hd, hch⟩ := hcolon
  rcases deref_cases text (afterColon text c) with ⟨-, next, hn, hp⟩ | ⟨hlt, -⟩
  · have hs : scanSeconds text c = (if next = NUL then .ok (0, afterColon text c) else
        (scanInt 2 (text.drop (afterColon text c))).map fun s => (s, afterColon text c + 2)) := by
      unfold scanSeconds
      simp only [hd, bind, Except.bind, ← hch, hn, pure, Except.pure]
      by_cases hnul : next = NUL
      · rw [if_pos hnul, if_pos hnul]
      · rw [if_neg hnul, if_neg hnul]
        cases scanInt 2 (text.drop (afterColon text c)) <;> rfl
    rw [hs, hp]
    by_cases hnul : next = NUL
    · exact .inl ⟨by rw [hnul], if_pos hnul⟩
    · refine .inr ⟨fun h => hnul (Option.some.inj h), ?_⟩
      rw [if_neg hnul]
      rcases scanInt_cases 2 (text.drop (afterColon text c)) with ⟨s, h⟩ | h
      · exact .inl ⟨s, h, by rw [h]; rfl⟩
      · exact .inr ⟨h, by rw [h]; rfl⟩
  · omega

/-! ### The end of the time of day -/

/-- What the two parsers do behind the time of day, with the character at which the
text may stop without a fraction. -/
def endAt (last : Char) (text : Str) (c : ℕ) : Except Stop ℤ := do
  if (← deref text c) = last then return 0
  if (← deref text c) = '.' then
    let mseconds ← scanInt 3 (text.drop (c + 1))
    if (← deref text (c + 4)) = 'Z' then return mseconds
  throw .refused

theorem scanZone_eq_endAt : scanZone = endAt 'Z' := rfl

theorem genericEnd_eq_endAt : genericEnd = endAt NUL := rfl

/-- A fraction of `mseconds` at `c` with a `Z` in the fourth place behind it. -/
def Fraction (text : Str) (c : ℕ) (mseconds : ℤ) : Prop :=
  peek text c = some '.' ∧ scanInt 3 (text.drop (c + 1)) = .ok mseconds ∧
    peek text (c + 4) = some 'Z'

/-- The end of the time of day is in the text, and three characters behind the point of
a fraction are. -/
def EndFits (text : Str) (c : ℕ) : Prop :=
  c ≤ text.length ∧
    (peek text c = some '.' → ∀ mseconds, scanInt 3 (text.drop (c + 1)) = .ok mseconds →
      c + 4 ≤ text.length)

theorem endAt_spec {last : Char} (hlast : last ≠ '.') (text : Str) (c : ℕ) :
    (EndFits text c ∧ peek text c = some last ∧ endAt last text c = .ok 0) ∨
      (EndFits text c ∧ ∃ mseconds, Fraction text c mseconds ∧ endAt last text c = .ok mseconds) ∨
        (EndFits text c ∧ peek text c ≠ some last ∧ (∀ mseconds, ¬ Fraction text c mseconds) ∧
          endAt last text c = .error .refused) ∨
          (¬ EndFits text c ∧ endAt last text c = .error .overrun) := by
  rcases deref_cases text c with ⟨hle, ch, hd, hp⟩ | ⟨hlt, hd⟩
  · by_cases hstop : ch = last
    · refine .inl ⟨⟨hle, fun h => ?_⟩, by rw [hp, hstop], ?_⟩
      · rw [hp] at h
        exact absurd (hstop.symm.trans (Option.some.inj h)) hlast
      · simp only [endAt, hd, bind, Except.bind, if_pos hstop, pure, Except.pure]
    · have hne : peek text c ≠ some last := by
        rw [hp]
        exact fun h => hstop (Option.some.inj h)
      by_cases hdot : ch = '.'
      · rcases scanInt_cases 3 (text.drop (c + 1)) with ⟨mseconds, hms⟩ | hms
        · rcases deref_cases text (c + 4) with ⟨hle', z, hdz, hpz⟩ | ⟨hlt', hdz⟩
          · by_cases hz : z = 'Z'
            · refine .inr (.inl ⟨⟨hle, fun _ _ _ => hle'⟩, mseconds,
                ⟨by rw [hp, hdot], hms, by rw [hpz, hz]⟩, ?_⟩)
              simp only [endAt, hd, bind, Except.bind, if_neg hstop, if_pos hdot, hms, hdz,
                if_pos hz, pure, Except.pure]
            · refine .inr (.inr (.inl ⟨⟨hle, fun _ _ _ => hle'⟩, hne, ?_, ?_⟩))
              · rintro ms ⟨-, -, hz'⟩
                rw [hpz] at hz'
                exact hz (Option.some.inj hz')
              · simp only [endAt, hd, bind, Except.bind, if_neg hstop, if_pos hdot, hms,
                  hdz, if_neg hz]
                rfl
          · refine .inr (.inr (.inr ⟨?_, ?_⟩))
            · rintro ⟨-, hfits⟩
              have := hfits (by rw [hp, hdot]) mseconds hms
              omega
            · simp only [endAt, hd, bind, Except.bind, if_neg hstop, if_pos hdot, hms, hdz]
        · refine .inr (.inr (.inl ⟨⟨hle, fun _ ms h => ?_⟩, hne, ?_, ?_⟩))
          · rw [hms] at h
            cases h
          · rintro ms ⟨-, h, -⟩
            rw [hms] at h
            cases h
          · simp only [endAt, hd, bind, Except.bind, if_neg hstop, if_pos hdot, hms]
      · have hnodot : peek text c ≠ some '.' := by
          rw [hp]
          exact fun h => hdot (Option.some.inj h)
        refine .inr (.inr (.inl ⟨⟨hle, fun h => absurd h hnodot⟩, hne, fun ms h => hnodot h.1, ?_⟩))
        simp only [endAt, hd, bind, Except.bind, if_neg hstop, if_neg hdot]
        rfl
  · refine .inr (.inr (.inr ⟨fun h => ?_, ?_⟩))
    · have := h.1
      omega
    · simp only [endAt, hd, bind, Except.bind]

/-- The milliseconds that are read behind the time of day. -/
theorem endAt_eq_ok {last : Char} (hlast : last ≠ '.') {text : Str} {c : ℕ} {mseconds : ℤ} :
    endAt last text c = .ok mseconds ↔
      (peek text c = some last ∧ mseconds = 0) ∨ Fraction text c mseconds := by
  have hapart {ms : ℤ} (hp : peek text c = some last) : ¬ Fraction text c ms := by
    rintro ⟨hdot, -, -⟩
    rw [hp] at hdot
    exact hlast (Option.some.inj hdot)
  have hunique {ms ms' : ℤ} (h : Fraction text c ms) (h' : Fraction text c ms') : ms' = ms := by
    have heq := h'.2.1
    rw [h.2.1] at heq
    cases heq
    rfl
  rcases endAt_spec hlast text c with
    ⟨-, hp, hend⟩ | ⟨-, ms, hfraction, hend⟩ | ⟨-, hp, hnone, hend⟩ | ⟨hfits, hend⟩
  all_goals rw [hend]
  · constructor
    · intro h
      cases h
      exact .inl ⟨hp, rfl⟩
    · rintro (⟨-, rfl⟩ | hfraction)
      · rfl
      · exact absurd hfraction (hapart hp)
  · constructor
    · intro h
      cases h
      exact .inr hfraction
    · rintro (⟨hp, -⟩ | hfraction')
      · exact absurd hfraction (hapart hp)
      · rw [hunique hfraction hfraction']
  · refine iff_of_false (by simp) ?_
    rintro (⟨hp', -⟩ | hfraction)
    · exact hp hp'
    · exact hnone mseconds hfraction
  · refine iff_of_false (by simp) ?_
    rintro (⟨hp, -⟩ | ⟨hdot, hread, hz⟩)
    · refine hfits ⟨peek_isSome.1 (by rw [hp]; rfl), fun hdot => ?_⟩
      rw [hp] at hdot
      exact absurd (Option.some.inj hdot) hlast
    · exact hfits ⟨peek_isSome.1 (by rw [hdot]; rfl), fun _ _ _ => peek_isSome.1 (by rw [hz]; rfl)⟩

/-! ### Both parsers up to the end of the time of day -/

/-- The text is a date. -/
def DateAlone (text : Str) (tm : Tm) : Prop :=
  ∃ date c, scanDate text = .ok (date, c) ∧ peek text c = some NUL ∧ tm = pointTm date 0 0 0

/-- The text begins with a date, a `T` and a time of day, with the cursor at `c` behind
them. -/
def TimeAt (text : Str) (tm : Tm) (c : ℕ) : Prop :=
  ∃ date c₀, scanDate text = .ok (date, c₀) ∧ peek text c₀ = some 'T' ∧
    scanTimeOfDay text date (c₀ + 1) = .ok (tm, c)

/-- `genericPoint` behind the time of day. -/
def genericRest (tm : Tm) : Except Stop ℤ → Except GenericFault GenericResult
  | .error e => stopped (timegm tm) e
  | .ok mseconds => .ok
      { totalTimeMs := ((timegm tm * 1000 + mseconds) % 2 ^ 64).toNat, isotime := timegm tm,
        flag := 'T' }

theorem DateAlone.scanFields {text : Str} {tm : Tm} (h : DateAlone text tm) :
    scanFields text = .ok { tm := tm, mseconds := 0 } := by
  obtain ⟨⟨year, month, days⟩, c, hdate, hend, rfl⟩ := h
  unfold Iso8601.scanFields
  simp only [hdate, deref_eq_ok.2 hend, bind, Except.bind, if_true, pure, Except.pure, pointTm]

theorem DateAlone.genericPoint {text : Str} {tm : Tm} (h : DateAlone text tm) :
    genericPoint text = .ok (returnZero (timegm tm) 'T') := by
  obtain ⟨date, c, hdate, hend, rfl⟩ := h
  simp only [Iso8601.genericPoint, hdate, deref_eq_ok.2 hend, if_true]

theorem DateAlone.longEnough {text : Str} {tm : Tm} (h : DateAlone text tm) : LongEnough text := by
  obtain ⟨date, c, hdate, hend, -⟩ := h
  intro date' c' hdate'
  rw [hdate] at hdate'
  cases hdate'
  refine ⟨peek_isSome.1 (by rw [hend]; rfl), fun hT => ?_⟩
  rw [hend] at hT
  exact absurd (Option.some.inj hT) (by decide)

theorem scanTimeOfDay_eq_ok {text : Str} {date : ℤ × ℤ × ℤ} {c₀ : ℕ} {tm : Tm} {c : ℕ} :
    scanTimeOfDay text date c₀ = .ok (tm, c) ↔
      ∃ hm c₁ s, scanHourMinute text c₀ = .ok (hm, c₁) ∧ scanSeconds text c₁ = .ok (s, c) ∧
        tm = pointTm date hm.1 hm.2 s := by
  constructor
  · intro h
    obtain ⟨⟨⟨hours, minutes⟩, c₁⟩, hhm, h⟩ := bind_eq_ok.1 h
    obtain ⟨⟨seconds, c₂⟩, hs, h⟩ := bind_eq_ok.1 h
    cases h
    exact ⟨(hours, minutes), c₁, seconds, hhm, hs, rfl⟩
  · rintro ⟨hm, c₁, s, hhm, hs, rfl⟩
    unfold scanTimeOfDay
    simp only [hhm, hs, bind, Except.bind, pure, Except.pure]

theorem TimeAt.scanFields {text : Str} {tm : Tm} {c : ℕ} (h : TimeAt text tm c) :
    scanFields text = (scanZone text c).map (Fields.mk tm) := by
  obtain ⟨⟨year, month, days⟩, c₀, hdate, hT, htime⟩ := h
  obtain ⟨⟨hours, minutes⟩, c₁, s, hhm, hs, rfl⟩ := scanTimeOfDay_eq_ok.1 htime
  have hne : ('T' : Char) ≠ NUL := by decide
  unfold Iso8601.scanFields
  simp only [hdate, deref_eq_ok.2 hT, bind, Except.bind, if_neg hne, if_true, hhm, hs]
  cases scanZone text c <;> rfl

theorem TimeAt.genericPoint {text : Str} {tm : Tm} {c : ℕ} (h : TimeAt text tm c) :
    genericPoint text = genericRest tm (genericEnd text c) := by
  obtain ⟨date, c₀, hdate, hT, htime⟩ := h
  have hne : ('T' : Char) ≠ NUL := by decide
  simp only [Iso8601.genericPoint, hdate, deref_eq_ok.2 hT, if_neg hne, if_true, htime]
  rfl

theorem TimeAt.longEnough_iff {text : Str} {tm : Tm} {c : ℕ} (h : TimeAt text tm c) :
    LongEnough text ↔ EndFits text c := by
  obtain ⟨date, c₀, hdate, hT, htime⟩ := h
  obtain ⟨hm, c₁, s, hhm, hs, -⟩ := scanTimeOfDay_eq_ok.1 htime
  have hc₀ : c₀ ≤ text.length := peek_isSome.1 (by rw [hT]; rfl)
  have hc₁ : c₁ ≤ text.length := by
    rcases deref_cases text c₁ with ⟨hle, -⟩ | ⟨-, hover⟩
    · exact hle
    · unfold scanSeconds at hs
      simp only [hover, bind, Except.bind] at hs
      cases hs
  have hiff : LongEnough text ↔ SecondsFit text (afterColon text c₁) := by
    constructor
    · intro hlong
      exact ((hlong date c₀ hdate).2 hT hm c₁ hhm).2
    · intro hfit date' c' hdate'
      rw [hdate] at hdate'
      cases hdate'
      refine ⟨hc₀, fun _ hm' c₁' hhm' => ?_⟩
      rw [hhm] at hhm'
      cases hhm'
      exact ⟨hc₁, hfit⟩
  rw [hiff]
  obtain ⟨hcolon, hcase⟩ := scanSeconds_cases hc₁
  rcases hcase with ⟨hnul, hs'⟩ | ⟨hnul, ⟨s', hread, hs'⟩ | ⟨-, hs'⟩⟩
  · rw [hs'] at hs
    cases hs
    refine iff_of_true (fun h => absurd hnul h) ⟨hcolon, fun h => ?_⟩
    rw [hnul] at h
    exact absurd (Option.some.inj h) (by decide)
  · rw [hs'] at hs
    cases hs
    constructor
    · intro hfit
      exact hfit hnul s hread
    · rintro hfits - s'' -
      exact hfits
  · rw [hs'] at hs
    cases hs

theorem scanDate_cases (text : Str) :
    (∃ date c, scanDate text = .ok (date, c)) ∨ scanDate text = .error .refused := by
  unfold scanDate
  cases scanExtendedDate text with
  | some date => exact .inl ⟨date, 10, rfl⟩
  | none =>
    cases scanBasicDate text with
    | some date => exact .inl ⟨date, 8, rfl⟩
    | none => exact .inr rfl

theorem scanHourMinute_cases (text : Str) (c : ℕ) :
    (∃ hm c₁, scanHourMinute text c = .ok (hm, c₁)) ∨ scanHourMinute text c = .error .refused := by
  unfold scanHourMinute
  cases scanBasicTime (text.drop c) with
  | some hm => exact .inl ⟨hm, c + 4, rfl⟩
  | none =>
    cases scanExtendedTime (text.drop c) with
    | some hm => exact .inl ⟨hm, c + 5, rfl⟩
    | none => exact .inr rfl

/-- A time of day is refused if no cursor in it has left the text. -/
theorem scanTimeOfDay_error {text : Str} {date : ℤ × ℤ × ℤ} {c : ℕ} {e : Stop}
    (h : scanTimeOfDay text date c = .error e) :
    (∀ hm c₁, scanHourMinute text c = .ok (hm, c₁) →
      c₁ ≤ text.length ∧ SecondsFit text (afterColon text c₁)) ↔ e = .refused := by
  unfold scanTimeOfDay at h
  rcases scanHourMinute_cases text c with ⟨hm, c₁, hhm⟩ | hhm
  · simp only [hhm, bind, Except.bind] at h
    by_cases hc₁ : c₁ ≤ text.length
    · obtain ⟨-, hcase⟩ := scanSeconds_cases hc₁
      rcases hcase with ⟨-, hs⟩ | ⟨-, ⟨s, -, hs⟩ | ⟨hread, hs⟩⟩
      · rw [hs] at h
        cases h
      · rw [hs] at h
        cases h
      · rw [hs] at h
        cases h
        refine iff_of_true (fun hm' c₁' hhm' => ?_) rfl
        rw [hhm] at hhm'
        cases hhm'
        refine ⟨hc₁, fun _ s hs' => ?_⟩
        rw [hread] at hs'
        cases hs'
    · have hs : scanSeconds text c₁ = .error .overrun := by
        rcases deref_cases text c₁ with ⟨hle, -⟩ | ⟨-, hover⟩
        · exact absurd hle hc₁
        · simp only [scanSeconds, hover, bind, Except.bind]
      rw [hs] at h
      cases h
      exact iff_of_false (fun hfit => hc₁ (hfit hm c₁ hhm).1) (by decide)
  · simp only [hhm, bind, Except.bind] at h
    cases h
    refine iff_of_true (fun hm c₁ hhm' => ?_) rfl
    rw [hhm] at hhm'
    cases hhm'

theorem scanFields_timeOfDay_error {text : Str} {date : ℤ × ℤ × ℤ} {c : ℕ} {e : Stop}
    (hdate : scanDate text = .ok (date, c)) (hT : peek text c = some 'T')
    (h : scanTimeOfDay text date (c + 1) = .error e) : scanFields text = .error e := by
  obtain ⟨year, month, days⟩ := date
  have hne : ('T' : Char) ≠ NUL := by decide
  unfold scanFields
  simp only [hdate, deref_eq_ok.2 hT, bind, Except.bind, if_neg hne, if_true]
  unfold scanTimeOfDay at h
  rcases scanHourMinute_cases text (c + 1) with ⟨hm, c₁, hhm⟩ | hhm
  · simp only [hhm, bind, Except.bind] at h ⊢
    cases hs : scanSeconds text c₁ with
    | ok p =>
      rw [hs] at h
      cases h
    | error e' =>
      rw [hs] at h
      cases h
      rfl
  · simp only [hhm, bind, Except.bind] at h ⊢
    cases h
    rfl

/-- A text is a date, it begins with a date and a time of day, or both parsers stop at
the same place. -/
theorem point_cases (text : Str) :
    (∃ tm, DateAlone text tm) ∨ (∃ tm c, TimeAt text tm c) ∨
      (∃ e, (∀ tm, ¬ DateAlone text tm) ∧ (∀ tm c, ¬ TimeAt text tm c) ∧
        scanFields text = .error e ∧ genericPoint text = stopped 0 e ∧
        (LongEnough text ↔ e = .refused)) := by
  rcases scanDate_cases text with ⟨date, c, hdate⟩ | hdate
  · have halone (tm : Tm) (h : DateAlone text tm) : peek text c = some NUL := by
      obtain ⟨date', c', hdate', hend, -⟩ := h
      rw [hdate] at hdate'
      cases hdate'
      exact hend
    have htime (tm : Tm) (c₁ : ℕ) (h : TimeAt text tm c₁) :
        peek text c = some 'T' ∧ scanTimeOfDay text date (c + 1) = .ok (tm, c₁) := by
      obtain ⟨date', c', hdate', hT, htime⟩ := h
      rw [hdate] at hdate'
      cases hdate'
      exact ⟨hT, htime⟩
    have hlong : LongEnough text ↔ c ≤ text.length ∧
        (peek text c = some 'T' → ∀ hm c₁, scanHourMinute text (c + 1) = .ok (hm, c₁) →
          c₁ ≤ text.length ∧ SecondsFit text (afterColon text c₁)) := by
      constructor
      · exact fun h => h date c hdate
      · intro h date' c' hdate'
        rw [hdate] at hdate'
        cases hdate'
        exact h
    rw [hlong]
    rcases deref_cases text c with ⟨hle, ch, hd, hp⟩ | ⟨hlt, hd⟩
    · by_cases hnul : ch = NUL
      · exact .inl ⟨_, date, c, hdate, by rw [hp, hnul], rfl⟩
      · have hnul' : peek text c ≠ some NUL := by
          rw [hp]
          exact fun h => hnul (Option.some.inj h)
        by_cases hT : ch = 'T'
        · subst hT
          cases ht : scanTimeOfDay text date (c + 1) with
          | ok p => exact .inr (.inl ⟨p.1, p.2, date, c, hdate, hp, ht⟩)
          | error e =>
            refine .inr (.inr ⟨e, fun tm h => hnul' (halone tm h), fun tm c₁ h => ?_,
              scanFields_timeOfDay_error hdate hp ht, ?_, ?_⟩)
            · have := (htime tm c₁ h).2
              rw [ht] at this
              cases this
            · simp only [genericPoint, hdate, hd, if_neg hnul, if_true, ht]
            · rw [← scanTimeOfDay_error ht]
              exact ⟨fun h => h.2 hp, fun h => ⟨hle, fun _ => h⟩⟩
        · have hT' : peek text c ≠ some 'T' := by
            rw [hp]
            exact fun h => hT (Option.some.inj h)
          refine .inr (.inr ⟨.refused, fun tm h => hnul' (halone tm h),
            fun tm c₁ h => hT' (htime tm c₁ h).1, ?_, ?_, ?_⟩)
          · simp only [scanFields, hdate, hd, bind, Except.bind, if_neg hnul, if_neg hT]
            rfl
          · simp only [genericPoint, hdate, hd, if_neg hnul, if_neg hT]
          · exact iff_of_true ⟨hle, fun h => absurd h hT'⟩ rfl
    · refine .inr (.inr ⟨.overrun, fun tm h => ?_, fun tm c₁ h => ?_, ?_, ?_, ?_⟩)
      · have := peek_isSome.1 (by rw [halone tm h]; rfl)
        omega
      · have := peek_isSome.1 (by rw [(htime tm c₁ h).1]; rfl)
        omega
      · simp only [scanFields, hdate, hd, bind, Except.bind]
      · simp only [genericPoint, hdate, hd]
      · refine iff_of_false (fun h => ?_) (by decide)
        have := h.1
        omega
  · refine .inr (.inr ⟨.refused, ?_, ?_, ?_, ?_, ?_⟩)
    · rintro tm ⟨date, c, hdate', -⟩
      rw [hdate] at hdate'
      cases hdate'
    · rintro tm c₁ ⟨date, c, hdate', -⟩
      rw [hdate] at hdate'
      cases hdate'
    · simp only [scanFields, hdate, bind, Except.bind]
    · simp only [genericPoint, hdate]
    · refine iff_of_true (fun date c hdate' => ?_) rfl
      rw [hdate] at hdate'
      cases hdate'

theorem scanFields_overrun_iff (text : Str) :
    scanFields text = .error .overrun ↔ ¬ LongEnough text := by
  rcases point_cases text with ⟨tm, h⟩ | ⟨tm, c, h⟩ | ⟨e, -, -, hfields, -, hlong⟩
  · rw [h.scanFields]
    exact iff_of_false (by simp) (not_not_intro h.longEnough)
  · rw [h.scanFields, h.longEnough_iff, scanZone_eq_endAt]
    rcases endAt_spec (by decide : 'Z' ≠ '.') text c with
      ⟨hfits, -, hend⟩ | ⟨hfits, ms, -, hend⟩ | ⟨hfits, -, -, hend⟩ | ⟨hfits, hend⟩
    all_goals
      rw [hend]
      simp [Except.map, hfits]
  · rw [hfields, hlong]
    cases e <;> simp

theorem genericPoint_overrun_iff (text : Str) :
    genericPoint text = .error .overrun ↔ ¬ LongEnough text := by
  rcases point_cases text with ⟨tm, h⟩ | ⟨tm, c, h⟩ | ⟨e, -, -, -, hpoint, hlong⟩
  · rw [h.genericPoint]
    exact iff_of_false (by simp) (not_not_intro h.longEnough)
  · rw [h.genericPoint, h.longEnough_iff, genericEnd_eq_endAt]
    rcases endAt_spec (by decide : NUL ≠ '.') text c with
      ⟨hfits, -, hend⟩ | ⟨hfits, ms, -, hend⟩ | ⟨hfits, -, -, hend⟩ | ⟨hfits, hend⟩
    all_goals
      rw [hend]
      simp [genericRest, stopped, hfits]
  · rw [hpoint, hlong]
    cases e <;> simp [stopped]

theorem parseIso8601_eq_none_iff (text : Str) : parseIso8601 text = none ↔ ¬ LongEnough text := by
  rw [← scanFields_overrun_iff, parseIso8601]
  cases scanFields text with
  | ok f => simp
  | error e => cases e <;> simp

theorem genericDuration_ne_overrun (text : Str) : genericDuration text ≠ .error .overrun := by
  unfold genericDuration
  cases durationLoop .start none text with
  | ok d =>
    dsimp only
    split_ifs <;> simp
  | error e => cases e <;> simp

/-- Neither parser looks at a character past the terminator. -/
def CursorInBounds (text : Str) : Prop :=
  parseIso8601 text ≠ none ∧ parseIso8601Generic text ≠ .error .overrun

/-- **The cursor.** -/
theorem cursor_inBounds_iff (text : Str) : CursorInBounds text ↔ LongEnough text := by
  have hparse : parseIso8601 text ≠ none ↔ LongEnough text := by
    rw [ne_eq, parseIso8601_eq_none_iff, not_not]
  have hpoint : genericPoint text ≠ .error .overrun ↔ LongEnough text := by
    rw [ne_eq, genericPoint_overrun_iff, not_not]
  unfold CursorInBounds parseIso8601Generic
  rw [hparse]
  split
  · exact ⟨fun h => h.1, fun h => ⟨h, genericDuration_ne_overrun _⟩⟩
  · rw [hpoint, and_self]

/-- A date in eight characters, behind which the cursor is at index 10. -/
theorem shortDate_outOfBounds : ¬ CursorInBounds "2016-1-1".toList := by
  rintro ⟨hparse, -⟩
  exact hparse (by decide)

/-! ## The two copies -/

/-- Both parsers return the same number. -/
def SameNumber (text : Str) : Prop :=
  ∃ r, parseIso8601Generic text = .ok r ∧ parseIso8601 text = some r.totalTimeMs

/-- The cursor stays in the text, and a date alone and a time of day that ends the text or
is followed by a `Z` are the epoch. -/
def CopiesMeet (text : Str) : Prop :=
  LongEnough text ∧ (∀ tm, DateAlone text tm → timegm tm = 0) ∧
    (∀ tm c, TimeAt text tm c → peek text c = some NUL ∨ peek text c = some 'Z' → timegm tm = 0)

theorem scanInt_abs_lt {w : ℕ} {s : Str} {n : ℤ} (h : scanInt w s = .ok n) : |n| < 10 ^ w := by
  unfold scanInt at h
  split at h
  · rename_i m r hm
    cases h
    exact scanNumber_abs_lt hm
  · cases h

/-- What the date conversions read is small. -/
theorem scanDate_abs_lt {text : Str} {date : ℤ × ℤ × ℤ} {c : ℕ}
    (h : scanDate text = .ok (date, c)) :
    |date.1| < 10 ^ 4 ∧ |date.2.1| < 10 ^ 2 ∧ |date.2.2| < 10 ^ 2 := by
  unfold scanDate at h
  cases hext : scanExtendedDate text with
  | some d =>
    rw [hext] at h
    cases h
    obtain ⟨⟨year, s₁⟩, hyear, hext⟩ := Option.bind_eq_some_iff.1 hext
    obtain ⟨s₂, -, hext⟩ := Option.bind_eq_some_iff.1 hext
    obtain ⟨⟨month, s₃⟩, hmonth, hext⟩ := Option.bind_eq_some_iff.1 hext
    obtain ⟨s₄, -, hext⟩ := Option.bind_eq_some_iff.1 hext
    obtain ⟨⟨days, s₅⟩, hdays, hext⟩ := Option.bind_eq_some_iff.1 hext
    cases hext
    exact ⟨scanNumber_abs_lt hyear, scanNumber_abs_lt hmonth, scanNumber_abs_lt hdays⟩
  | none =>
    rw [hext] at h
    cases hbasic : scanBasicDate text with
    | some d =>
      rw [hbasic] at h
      cases h
      obtain ⟨⟨year, s₁⟩, hyear, hbasic⟩ := Option.bind_eq_some_iff.1 hbasic
      obtain ⟨⟨month, s₂⟩, hmonth, hbasic⟩ := Option.bind_eq_some_iff.1 hbasic
      obtain ⟨⟨days, s₃⟩, hdays, hbasic⟩ := Option.bind_eq_some_iff.1 hbasic
      cases hbasic
      exact ⟨scanNumber_abs_lt hyear, scanNumber_abs_lt hmonth, scanNumber_abs_lt hdays⟩
    | none =>
      rw [hbasic] at h
      cases h

theorem scanHourMinute_abs_lt {text : Str} {c c₁ : ℕ} {hm : ℤ × ℤ}
    (h : scanHourMinute text c = .ok (hm, c₁)) : |hm.1| < 10 ^ 2 ∧ |hm.2| < 10 ^ 2 := by
  unfold scanHourMinute at h
  cases hbasic : scanBasicTime (text.drop c) with
  | some d =>
    rw [hbasic] at h
    cases h
    obtain ⟨⟨hours, s₁⟩, hhours, hbasic⟩ := Option.bind_eq_some_iff.1 hbasic
    obtain ⟨⟨minutes, s₂⟩, hminutes, hbasic⟩ := Option.bind_eq_some_iff.1 hbasic
    cases hbasic
    exact ⟨scanNumber_abs_lt hhours, scanNumber_abs_lt hminutes⟩
  | none =>
    rw [hbasic] at h
    cases hext : scanExtendedTime (text.drop c) with
    | some d =>
      rw [hext] at h
      cases h
      obtain ⟨⟨hours, s₁⟩, hhours, hext⟩ := Option.bind_eq_some_iff.1 hext
      obtain ⟨s₂, -, hext⟩ := Option.bind_eq_some_iff.1 hext
      obtain ⟨⟨minutes, s₃⟩, hminutes, hext⟩ := Option.bind_eq_some_iff.1 hext
      cases hext
      exact ⟨scanNumber_abs_lt hhours, scanNumber_abs_lt hminutes⟩
    | none =>
      rw [hext] at h
      cases h

theorem scanSeconds_abs_lt {text : Str} {c c₁ : ℕ} {s : ℤ} (h : scanSeconds text c = .ok (s, c₁)) :
    |s| < 10 ^ 2 := by
  by_cases hc : c ≤ text.length
  · obtain ⟨-, hcase⟩ := scanSeconds_cases hc
    rcases hcase with ⟨-, hs⟩ | ⟨-, ⟨s', hread, hs⟩ | ⟨-, hs⟩⟩
    · rw [hs] at h
      cases h
      norm_num
    · rw [hs] at h
      cases h
      exact scanInt_abs_lt hread
    · rw [hs] at h
      cases h
  · rcases deref_cases text c with ⟨hle, -⟩ | ⟨-, hover⟩
    · exact absurd hle hc
    · simp only [scanSeconds, hover, bind, Except.bind] at h
      cases h

theorem pointTm_abs_lt {date : ℤ × ℤ × ℤ} {hours minutes seconds : ℤ}
    (hdate : |date.1| < 10 ^ 4 ∧ |date.2.1| < 10 ^ 2 ∧ |date.2.2| < 10 ^ 2)
    (hhours : |hours| < 10 ^ 2) (hminutes : |minutes| < 10 ^ 2) (hseconds : |seconds| < 10 ^ 2) :
    |timegm (pointTm date hours minutes seconds)| < 2 ^ 40 := by
  obtain ⟨hyear, hmonth, hdays⟩ := hdate
  refine timegm_abs_lt ?_ ?_ hdays hhours hminutes hseconds
  · show |date.1 - 1900 + 1900| < _
    rwa [sub_add_cancel]
  · show |date.2.1 - 1 + 1| < _
    rwa [sub_add_cancel]

theorem DateAlone.abs_lt {text : Str} {tm : Tm} (h : DateAlone text tm) : |timegm tm| < 2 ^ 40 := by
  obtain ⟨date, c, hdate, -, rfl⟩ := h
  exact pointTm_abs_lt (scanDate_abs_lt hdate) (by norm_num) (by norm_num) (by norm_num)

theorem TimeAt.abs_lt {text : Str} {tm : Tm} {c : ℕ} (h : TimeAt text tm c) :
    |timegm tm| < 2 ^ 40 := by
  obtain ⟨date, c₀, hdate, -, htime⟩ := h
  obtain ⟨hm, c₁, s, hhm, hs, rfl⟩ := scanTimeOfDay_eq_ok.1 htime
  obtain ⟨hhours, hminutes⟩ := scanHourMinute_abs_lt hhm
  exact pointTm_abs_lt (scanDate_abs_lt hdate) hhours hminutes (scanSeconds_abs_lt hs)

/-- An instant that a text can spell is 0 as a `uint64_t` only if it is 0. -/
theorem toNat_instant_eq_zero {seconds mseconds : ℤ} (h : |seconds| < 2 ^ 40)
    (hms : |mseconds| < 10 ^ 3) :
    ((seconds * 1000 + mseconds) % 2 ^ 64).toNat = 0 ↔ seconds * 1000 + mseconds = 0 := by
  rw [abs_lt] at h hms
  omega

theorem DateAlone.not_timeAt {text : Str} {tm tm' : Tm} {c : ℕ} (h : DateAlone text tm) :
    ¬ TimeAt text tm' c := by
  obtain ⟨date, c₁, hdate, hend, -⟩ := h
  rintro ⟨date', c', hdate', hT, -⟩
  rw [hdate] at hdate'
  cases hdate'
  rw [hend] at hT
  exact absurd (Option.some.inj hT) (by decide)

theorem DateAlone.unique {text : Str} {tm tm' : Tm} (h : DateAlone text tm)
    (h' : DateAlone text tm') : tm' = tm := by
  have heq := h'.scanFields
  rw [h.scanFields] at heq
  cases heq
  rfl

theorem TimeAt.unique {text : Str} {tm tm' : Tm} {c c' : ℕ} (h : TimeAt text tm c)
    (h' : TimeAt text tm' c') : tm' = tm ∧ c' = c := by
  obtain ⟨date, c₀, hdate, -, htime⟩ := h
  obtain ⟨date', c₀', hdate', -, htime'⟩ := h'
  rw [hdate] at hdate'
  cases hdate'
  rw [htime] at htime'
  cases htime'
  exact ⟨rfl, rfl⟩

/-- `parseIso8601` behind the time of day. -/
theorem TimeAt.parseIso8601 {text : Str} {tm : Tm} {c : ℕ} (h : TimeAt text tm c) :
    parseIso8601 text = match endAt 'Z' text c with
      | .ok mseconds => some ((timegm tm * 1000 + mseconds) % 2 ^ 64).toNat
      | .error .refused => some 0
      | .error .overrun => none := by
  rw [Iso8601.parseIso8601, h.scanFields, scanZone_eq_endAt]
  cases endAt 'Z' text c with
  | ok mseconds => rfl
  | error e => cases e <;> rfl

/-- The copies part at the end of a date and at the end of a time of day. -/
theorem genericPoint_agrees_iff (text : Str) :
    (∃ r, genericPoint text = .ok r ∧ parseIso8601 text = some r.totalTimeMs) ↔
      CopiesMeet text := by
  rcases point_cases text with ⟨tm, h⟩ | ⟨tm, c, h⟩ | ⟨e, hdate, htime, hfields, hpoint, hlong⟩
  · have hzero := toNat_instant_eq_zero h.abs_lt (by norm_num : |(0 : ℤ)| < 10 ^ 3)
    rw [add_zero] at hzero
    have hparse : parseIso8601 text = some (timegm tm * 1000 % 2 ^ 64).toNat := by
      rw [parseIso8601, h.scanFields]
      simp only [Fields.instant, add_zero]
    have hmeet : CopiesMeet text ↔ timegm tm = 0 := by
      constructor
      · exact fun hmeet => hmeet.2.1 tm h
      · intro hepoch
        refine ⟨h.longEnough, fun tm' h' => ?_, fun tm' c h' => absurd h' h.not_timeAt⟩
        rw [h.unique h']
        exact hepoch
    rw [h.genericPoint, hparse, hmeet]
    constructor
    · rintro ⟨r, hr, heq⟩
      cases hr
      have := hzero.1 (Option.some.inj heq)
      omega
    · intro hepoch
      refine ⟨_, rfl, ?_⟩
      rw [hzero.2 (by rw [hepoch]; rfl)]
      rfl
  · have hmeet : CopiesMeet text ↔
        EndFits text c ∧ (peek text c = some NUL ∨ peek text c = some 'Z' → timegm tm = 0) := by
      constructor
      · exact fun hmeet => ⟨h.longEnough_iff.1 hmeet.1, hmeet.2.2 tm c h⟩
      · rintro ⟨hfits, hepoch⟩
        refine ⟨h.longEnough_iff.2 hfits, fun tm' h' => absurd h h'.not_timeAt, fun tm' c' h' => ?_⟩
        obtain ⟨rfl, rfl⟩ := h.unique h'
        exact hepoch
    have hzero := toNat_instant_eq_zero h.abs_lt (by norm_num : |(0 : ℤ)| < 10 ^ 3)
    have hepoch : ((timegm tm * 1000 + 0) % 2 ^ 64).toNat = 0 ↔ timegm tm = 0 := by
      rw [hzero]
      omega
    rw [hmeet, h.genericPoint, genericEnd_eq_endAt, h.parseIso8601]
    have hgeneric := endAt_spec (by decide : NUL ≠ '.') text c
    rcases endAt_spec (by decide : 'Z' ≠ '.') text c with
      ⟨hfits, hZ, hend⟩ | ⟨hfits, ms, hfraction, hend⟩ | ⟨hfits, hZ, hnone, hend⟩ | ⟨hfits, hend⟩
    · -- a `Z`, which the generic parser refuses
      have hrefused : endAt NUL text c = .error .refused := by
        rcases hgeneric with ⟨-, hnul, -⟩ | ⟨-, ms, hfraction, -⟩ | ⟨-, -, -, hend'⟩ | ⟨hfits', -⟩
        · rw [hZ] at hnul
          exact absurd (Option.some.inj hnul) (by decide)
        · have hdot := hfraction.1
          rw [hZ] at hdot
          exact absurd (Option.some.inj hdot) (by decide)
        · exact hend'
        · exact absurd hfits hfits'
      rw [hend, hrefused]
      constructor
      · rintro ⟨r, hr, heq⟩
        cases hr
        exact ⟨hfits, fun _ => hepoch.1 (Option.some.inj heq)⟩
      · rintro ⟨-, hcond⟩
        exact ⟨_, rfl, congrArg some (hepoch.2 (hcond (.inr hZ)))⟩
    · -- a fraction, which both read
      have hgen : endAt NUL text c = .ok ms := by
        obtain ⟨hdot, hread, hz⟩ := hfraction
        rcases hgeneric with
          ⟨-, hnul, -⟩ | ⟨-, ms', ⟨-, hread', -⟩, hend'⟩ | ⟨-, -, hnone, -⟩ | ⟨hfits', -⟩
        · rw [hdot] at hnul
          exact absurd (Option.some.inj hnul) (by decide)
        · rw [hread] at hread'
          cases hread'
          exact hend'
        · exact absurd ⟨hdot, hread, hz⟩ (hnone ms)
        · exact absurd hfits hfits'
      rw [hend, hgen]
      refine iff_of_true ⟨_, rfl, rfl⟩ ⟨hfits, fun hstop => ?_⟩
      rw [hfraction.1] at hstop
      exact absurd hstop (by decide)
    · -- the end of the text, at which the generic parser has a result
      rw [hend]
      rcases hgeneric with
        ⟨-, hnul, hend'⟩ | ⟨-, ms, hfraction, -⟩ | ⟨-, hnul, -, hend'⟩ | ⟨hfits', -⟩
      · rw [hend']
        constructor
        · rintro ⟨r, hr, heq⟩
          cases hr
          exact ⟨hfits, fun _ => hepoch.1 (Option.some.inj heq).symm⟩
        · rintro ⟨-, hcond⟩
          exact ⟨_, rfl, congrArg some (hepoch.2 (hcond (.inl hnul))).symm⟩
      · exact absurd hfraction (hnone ms)
      · rw [hend']
        exact iff_of_true ⟨_, rfl, rfl⟩ ⟨hfits, fun hstop => absurd hstop (not_or.2 ⟨hnul, hZ⟩)⟩
      · exact absurd hfits hfits'
    · rw [hend]
      exact iff_of_false (fun ⟨r, _, heq⟩ => by cases heq) (fun hcond => hfits hcond.1)
  · have hmeet : CopiesMeet text ↔ e = .refused := by
      rw [← hlong]
      exact ⟨fun hmeet => hmeet.1, fun hfits =>
        ⟨hfits, fun tm h => absurd h (hdate tm), fun tm c h => absurd h (htime tm c)⟩⟩
    rw [hpoint, hmeet, parseIso8601, hfields]
    cases e with
    | refused => exact iff_of_true ⟨_, rfl, rfl⟩ rfl
    | overrun => exact iff_of_false (fun ⟨r, hr, _⟩ => by cases hr) (by decide)

/-- **The two copies.** -/
theorem parsers_agree_iff (text : Str) (hpoint : ∀ rest, text ≠ 'P' :: rest) :
    SameNumber text ↔ CopiesMeet text := by
  have hgeneric : parseIso8601Generic text = genericPoint text := by
    unfold parseIso8601Generic
    split
    · rename_i rest
      exact absurd rfl (hpoint rest)
    · rfl
  rw [← genericPoint_agrees_iff, SameNumber, hgeneric]

/-- A date alone is an instant for one parser and a failure for the other. -/
theorem parsers_agree_iff_date : SameNumber "20160101".toList ↔ CopiesMeet "20160101".toList :=
  parsers_agree_iff _ (fun rest h => by simp at h)

theorem date_apart :
    (∀ rest, "20160101".toList ≠ 'P' :: rest) ∧ ¬ SameNumber "20160101".toList := by
  refine ⟨fun rest h => by simp at h, ?_⟩
  rintro ⟨r, hr, heq⟩
  have hgeneric : parseIso8601Generic "20160101".toList = .ok (returnZero 1451606400 'T') := by
    decide
  have hparse : parseIso8601 "20160101".toList = some 1451606400000 := by decide
  rw [hgeneric] at hr
  cases hr
  rw [hparse] at heq
  exact absurd (Option.some.inj heq) (by decide)

end DslinkIec61850.Iso8601
