import Mathlib.Data.Int.Log
import Mathlib.Data.Rat.Floor
import Mathlib.Tactic.Linarith
import Mathlib.Tactic.Positivity
import Mathlib.Tactic.Ring

/-!
# Binary floating point

The numbers of a binary floating point format, `m * 2 ^ e` with a bounded `m` and an
`e` from a smallest one on, and the conversion of a rational to the nearest of them,
ties to even. What is too large becomes infinite. The sign of a zero and the payload of
a NaN are not kept.

* `abs_sub_nearest_le`: no number of the format is nearer.
* `convert_of_holds`: the numbers of the format stay what they are.
-/

namespace DslinkIec61850.Floating

/-! ## Nearest integers -/

/-- The integer nearest to a rational, the even one of two. -/
def roundEven (x : ℚ) : ℤ :=
  if x - ⌊x⌋ < 1 / 2 ∨ (x - ⌊x⌋ = 1 / 2 ∧ ⌊x⌋ % 2 = 0) then ⌊x⌋ else ⌊x⌋ + 1

theorem abs_sub_roundEven_le (x : ℚ) (k : ℤ) : |x - roundEven x| ≤ |x - k| := by
  have hlo := Int.floor_le x
  have hhi := Int.lt_floor_add_one x
  have hk : (k : ℚ) ≤ ⌊x⌋ ∨ (⌊x⌋ : ℚ) + 1 ≤ k := by
    rcases le_or_gt k ⌊x⌋ with h | h
    · exact .inl (by exact_mod_cast h)
    · exact .inr (by exact_mod_cast h)
  unfold roundEven
  split_ifs with hdown
  · have hhalf : x - ⌊x⌋ ≤ 1 / 2 := hdown.elim le_of_lt fun h => h.1.le
    rw [abs_of_nonneg (by linarith)]
    rcases hk with hk | hk
    · rw [abs_of_nonneg (by linarith)]
      linarith
    · rw [abs_of_nonpos (by linarith)]
      linarith
  · have hhalf : 1 / 2 ≤ x - ⌊x⌋ := not_lt.1 fun h => hdown (.inl h)
    push_cast
    rw [abs_of_nonpos (by linarith)]
    rcases hk with hk | hk
    · rw [abs_of_nonneg (by linarith)]
      linarith
    · rw [abs_of_nonpos (by linarith)]
      linarith

/-- Rounding does not leave a range that ends in integers. -/
theorem abs_roundEven_le {x : ℚ} {n : ℤ} (h : |x| ≤ n) : |roundEven x| ≤ n := by
  obtain ⟨hlo, hhi⟩ := abs_le.1 h
  have hfloor : -n ≤ ⌊x⌋ := Int.le_floor.2 (by push_cast; exact hlo)
  unfold roundEven
  split_ifs with hdown
  · exact abs_le.2 ⟨hfloor, Int.floor_le_iff.2 (by linarith)⟩
  · -- What is rounded up is no integer, so it is below the end of the range.
    have hlt : ⌊x⌋ < n := by
      refine Int.floor_lt.2 (lt_of_le_of_ne hhi fun heq => hdown (.inl ?_))
      rw [heq, Int.floor_intCast]
      norm_num
    exact abs_le.2 ⟨by omega, by omega⟩

/-! ## Formats -/

/-- A binary format: the numbers `m * 2 ^ e` with at most `precision` bits and `emin ≤ e`
that are smaller than `2 ^ emax`. -/
structure Format where
  precision : ℕ
  emin : ℤ
  emax : ℤ
  precision_pos : 0 < precision

/-- The 32-bit format. -/
def single : Format := ⟨24, -149, 128, by decide⟩

/-- The 64-bit format. -/
def double : Format := ⟨53, -1074, 1024, by decide⟩

variable (F : Format)

/-- The numbers of a format if its exponents had no upper end. -/
def Format.Grid (y : ℚ) : Prop := ∃ m e : ℤ, |m| < 2 ^ F.precision ∧ F.emin ≤ e ∧ y = m * 2 ^ e

/-- The exponent of the last digit of the numbers around `x`. -/
def Format.exponent (x : ℚ) : ℤ := max F.emin (Int.log 2 |x| - (F.precision - 1))

/-- The number nearest to `x`, before it is found too large. -/
def Format.nearest (x : ℚ) : ℚ := roundEven (x / 2 ^ F.exponent x) * 2 ^ F.exponent x

theorem Format.abs_div_exponent_lt (x : ℚ) : |x / 2 ^ F.exponent x| < 2 ^ F.precision := by
  have hpos : (0 : ℚ) < 2 ^ F.exponent x := zpow_pos two_pos _
  rw [abs_div, abs_of_pos hpos, div_lt_iff₀ hpos, ← zpow_natCast, ← zpow_add₀ two_ne_zero]
  have hlog : |x| < (2 : ℚ) ^ (Int.log 2 |x| + 1) := by
    exact_mod_cast Int.lt_zpow_succ_log_self (b := 2) (by norm_num) |x|
  refine hlog.trans_le (zpow_le_zpow_right₀ (by norm_num) ?_)
  have hmax := le_max_right F.emin (Int.log 2 |x| - (F.precision - 1))
  unfold exponent
  omega

theorem Format.grid_nearest (x : ℚ) : F.Grid (F.nearest x) := by
  have hle : |roundEven (x / 2 ^ F.exponent x)| ≤ 2 ^ F.precision :=
    abs_roundEven_le (by exact_mod_cast (F.abs_div_exponent_lt x).le)
  have hemin : F.emin ≤ F.exponent x := le_max_left _ _
  rcases lt_or_eq_of_le hle with hlt | heq
  · exact ⟨_, _, hlt, hemin, rfl⟩
  · -- The next power of two has one digit.
    have hhalf : (2 : ℤ) ^ F.precision = 2 ^ (F.precision - 1) * 2 := by
      rw [← pow_succ, Nat.sub_add_cancel F.precision_pos]
    have hpos : (0 : ℤ) < 2 ^ (F.precision - 1) := by positivity
    have hscale : (2 : ℚ) ^ (F.exponent x + 1) = 2 ^ F.exponent x * 2 := zpow_add_one₀ two_ne_zero _
    rcases eq_or_eq_neg_of_abs_eq heq with h | h
    · refine ⟨2 ^ (F.precision - 1), F.exponent x + 1, ?_, by omega, ?_⟩
      · rw [abs_of_pos hpos]
        omega
      · rw [nearest, h, hhalf, hscale]
        push_cast
        ring
    · refine ⟨-2 ^ (F.precision - 1), F.exponent x + 1, ?_, by omega, ?_⟩
      · rw [abs_neg, abs_of_pos hpos]
        omega
      · rw [nearest, h, hhalf, hscale]
        push_cast
        ring

/-- Multiples of the last digit are not nearer. -/
theorem Format.abs_sub_nearest_le_multiple (x : ℚ) (k : ℤ) :
    |x - F.nearest x| ≤ |x - k * 2 ^ F.exponent x| := by
  have hpos : (0 : ℚ) < 2 ^ F.exponent x := zpow_pos two_pos _
  have hscale (z : ℤ) :
      |x - z * 2 ^ F.exponent x| = |x / 2 ^ F.exponent x - z| * 2 ^ F.exponent x := by
    rw [← abs_of_pos hpos, ← abs_mul, abs_of_pos hpos, sub_mul, div_mul_cancel₀ _ hpos.ne']
  rw [nearest, hscale, hscale]
  exact mul_le_mul_of_nonneg_right (abs_sub_roundEven_le _ k) hpos.le

/-- **The nearest number.** No number of the format is nearer to `x`. -/
theorem Format.abs_sub_nearest_le (x : ℚ) {y : ℚ} (hy : F.Grid y) :
    |x - F.nearest x| ≤ |x - y| := by
  obtain ⟨m, e, hm, he, rfl⟩ := hy
  rcases le_or_gt (F.exponent x) e with hle | hlt
  · have hmultiple : (m : ℚ) * 2 ^ e = (m * 2 ^ (e - F.exponent x).toNat : ℤ) *
        2 ^ F.exponent x := by
      push_cast
      rw [mul_assoc, ← zpow_natCast, ← zpow_add₀ two_ne_zero, Int.toNat_of_nonneg (by omega),
        sub_add_cancel]
    rw [hmultiple]
    exact F.abs_sub_nearest_le_multiple x _
  · -- A number with a smaller last digit is below the power of two below `x`.
    have hexponent : F.exponent x = Int.log 2 |x| - (F.precision - 1) := by
      unfold exponent at hlt ⊢
      omega
    by_cases hx : x = 0
    · subst hx
      have hzero := F.abs_sub_nearest_le_multiple 0 0
      rw [Int.cast_zero, zero_mul, sub_zero, abs_zero] at hzero
      exact hzero.trans (abs_nonneg _)
    have hpower : (2 : ℚ) ^ Int.log 2 |x| ≤ |x| := by
      exact_mod_cast Int.zpow_log_le_self (b := 2) (by norm_num) (abs_pos.2 hx)
    have hsmall : |(m : ℚ) * 2 ^ e| < 2 ^ Int.log 2 |x| := by
      have hpos : (0 : ℚ) < 2 ^ e := zpow_pos two_pos _
      have hm' : |(m : ℚ)| < 2 ^ (F.precision : ℤ) := by
        rw [zpow_natCast]
        exact_mod_cast hm
      calc |(m : ℚ) * 2 ^ e| = |(m : ℚ)| * 2 ^ e := by rw [abs_mul, abs_of_pos hpos]
        _ < 2 ^ (F.precision : ℤ) * 2 ^ e := mul_lt_mul_of_pos_right hm' hpos
        _ = 2 ^ (F.precision + e) := (zpow_add₀ two_ne_zero _ _).symm
        _ ≤ 2 ^ Int.log 2 |x| := zpow_le_zpow_right₀ (by norm_num) (by omega)
    have hmultiple : (2 : ℚ) ^ Int.log 2 |x| = (2 ^ (F.precision - 1) : ℤ) * 2 ^ F.exponent x := by
      push_cast
      rw [← zpow_natCast, ← zpow_add₀ two_ne_zero, hexponent, Nat.cast_sub F.precision_pos]
      congr 1
      push_cast
      ring
    obtain ⟨hlo, hhi⟩ := abs_lt.1 hsmall
    rcases lt_or_gt_of_ne hx with hneg | hpos
    · have hnear := F.abs_sub_nearest_le_multiple x (-2 ^ (F.precision - 1))
      rw [Int.cast_neg, neg_mul, ← hmultiple] at hnear
      rw [abs_of_neg hneg] at hpower hlo hhi hnear
      refine hnear.trans ?_
      rw [abs_of_nonpos (by linarith), abs_of_nonpos (by linarith)]
      linarith
    · have hnear := F.abs_sub_nearest_le_multiple x (2 ^ (F.precision - 1))
      rw [← hmultiple] at hnear
      rw [abs_of_pos hpos] at hpower hlo hhi hnear
      refine hnear.trans ?_
      rw [abs_of_nonneg (by linarith), abs_of_nonneg (by linarith)]
      linarith

theorem Format.nearest_of_grid {y : ℚ} (hy : F.Grid y) : F.nearest y = y := by
  have h := F.abs_sub_nearest_le y hy
  rw [sub_self, abs_zero] at h
  exact (sub_eq_zero.1 (abs_eq_zero.1 (le_antisymm h (abs_nonneg _)))).symm

/-! ## Values -/

/-- The value of a floating point datum. -/
inductive Value where
  | finite (r : ℚ)
  | infinite (negative : Bool)
  | nan
  deriving DecidableEq

/-- The values of a format. It is closed, so that a pattern match on data with such a value
does not look into it. -/
@[irreducible] def Format.Holds : Value → Prop
  | .finite r => F.Grid r ∧ |r| < 2 ^ F.emax
  | _ => True

variable {F} in
theorem Format.holds_finite {r : ℚ} : F.Holds (.finite r) ↔ F.Grid r ∧ |r| < 2 ^ F.emax := by
  unfold Holds
  exact Iff.rfl

theorem Format.holds_infinite (negative : Bool) : F.Holds (.infinite negative) := by
  unfold Holds
  trivial

theorem Format.holds_nan : F.Holds .nan := by
  unfold Holds
  trivial

/-- A rational in the format. -/
def Format.ofRat (x : ℚ) : Value :=
  if |F.nearest x| < 2 ^ F.emax then .finite (F.nearest x) else .infinite (decide (x < 0))

/-- A value converted to the format. -/
def Format.convert : Value → Value
  | .finite r => F.ofRat r
  | v => v

theorem Format.holds_convert (v : Value) : F.Holds (F.convert v) := by
  cases v with
  | finite r =>
    unfold convert ofRat
    dsimp only
    split_ifs with hrange
    · exact holds_finite.2 ⟨F.grid_nearest r, hrange⟩
    · exact F.holds_infinite _
  | infinite negative => exact F.holds_infinite negative
  | nan => exact F.holds_nan

/-- A value of the format is not changed. -/
theorem Format.convert_of_holds {v : Value} (h : F.Holds v) : F.convert v = v := by
  cases v with
  | finite r =>
    obtain ⟨hgrid, hrange⟩ := holds_finite.1 h
    rw [convert, ofRat, F.nearest_of_grid hgrid, if_pos hrange]
  | infinite negative => rfl
  | nan => rfl

/-- The 64-bit number next to a tenth, in the 32-bit format. -/
example : single.convert (.finite (3602879701896397 / 2 ^ 55)) = .finite (13421773 / 2 ^ 27) := by
  decide +kernel

end DslinkIec61850.Floating
