import DslinkIec61850.Lib.Decimal
import DslinkIec61850.Lib.Floating

/-!
# JSON values

The values of jansson with the accessors the handlers use. An accessor takes
the possibly absent result of `json_object_get` and, as jansson documents,
gives 0, `false` or `NULL` for an absent or mistyped value. A `Char` stands for
one C `char`; a real is the exact rational value of a finite `double`, without the
sign of a zero.
-/

namespace DslinkIec61850

/-- What goes wrong when the C code leaves its defined behaviour. -/
inductive Fault where
  /-- A `NULL` pointer is dereferenced, or handed to `strlen`, `sscanf`, …. -/
  | nullDereference
  /-- A read or write beyond a buffer, or a shift beyond the width of an `int`. -/
  | outOfBounds
  /-- A `double` outside the range of the integer type it is converted to. -/
  | badConversion
  /-- A variable is read that was never assigned. -/
  | uninitialised
  /-- A function ends without a `return` and its value is used. -/
  | noReturn
  /-- Memory is used after it was freed. -/
  | useAfterFree
  /-- The recursion was cut off. -/
  | outOfFuel
  deriving DecidableEq, Repr

/-- `json_t` of jansson. -/
inductive Json where
  | null
  | boolean (b : Bool)
  | integer (n : ℤ)
  | real (r : ℚ)
  | string (s : Str)
  | array (elements : List Json)
  | object (members : List (Str × Json))

namespace Json

/-- `json_object_get`: `NULL` for anything but an object with the member. -/
def objectGet (key : Str) : Json → Option Json
  | object members => (members.find? fun m => m.1 = key).map Prod.snd
  | _ => none

/-- `json_string_value`. -/
def stringValue : Option Json → Option Str
  | some (string s) => some s
  | _ => none

/-- `json_boolean_value`, that is `json_is_true`. -/
def booleanValue : Option Json → Bool
  | some (boolean b) => b
  | _ => false

/-- `json_integer_value`. -/
def integerValue : Option Json → ℤ
  | some (integer n) => n
  | _ => 0

/-- `json_real`: `NULL` for a value that is not finite. -/
def ofFloat : Floating.Value → Option Json
  | .finite r => some (real r)
  | _ => none

/-! ## Numbers as `double` -/

/-- `a / b` rounded to the nearest integer, ties to even. -/
def divRound (a b : ℕ) : ℕ :=
  let q := a / b
  let r := a % b
  if 2 * r < b ∨ (2 * r = b ∧ q % 2 = 0) then q else q + 1

/-- The conversion of an `int64_t` to `double`: 53 significant bits, ties to even. -/
def intToDouble (n : ℤ) : ℚ :=
  let e := n.natAbs.log2 - 52
  (n.sign * (divRound n.natAbs (2 ^ e) * 2 ^ e : ℕ) : ℤ)

/-- `json_number_value`. -/
def numberValue : Option Json → ℚ
  | some (integer n) => intToDouble n
  | some (real r) => r
  | _ => 0

/-- A cast of a `double` to an integer type with the range `lo … hi`. -/
def castDouble (lo hi : ℤ) (x : ℚ) : Except Fault ℤ :=
  let n := if 0 ≤ x then ⌊x⌋ else ⌈x⌉
  if lo ≤ n ∧ n ≤ hi then .ok n else .error .badConversion

/-- Integers of up to 53 bits are exact. -/
theorem intToDouble_of_small {n : ℤ} (h : n.natAbs < 2 ^ 53) : intToDouble n = n := by
  have he : n.natAbs.log2 - 52 = 0 := by
    rcases Nat.eq_zero_or_pos n.natAbs with h0 | h0
    · rw [h0]; rfl
    · have := (Nat.log2_lt (by omega)).2 h
      omega
  have hd : divRound n.natAbs 1 = n.natAbs := by simp [divRound]; omega
  unfold intToDouble
  simp only [he, pow_zero, mul_one, hd]
  rw [Int.sign_mul_natAbs]

theorem le_divRound (a b : ℕ) : a / b ≤ divRound a b := by
  unfold divRound
  dsimp only
  split_ifs <;> omega

/-- Integers of more than 53 bits stay that large. -/
theorem le_natAbs_intToDouble {m : ℕ} (h : 2 ^ 53 ≤ m) :
    2 ^ 53 ≤ divRound m (2 ^ (m.log2 - 52)) * 2 ^ (m.log2 - 52) := by
  have hlog : 53 ≤ m.log2 := (Nat.le_log2 (by omega)).2 h
  have hpow : 2 ^ 52 * 2 ^ (m.log2 - 52) ≤ m := by
    rw [← pow_add]
    have : 52 + (m.log2 - 52) = m.log2 := by omega
    rw [this]
    exact Nat.log2_self_le (by omega)
  have hdiv : 2 ^ 52 ≤ m / 2 ^ (m.log2 - 52) := (Nat.le_div_iff_mul_le (by positivity)).2 hpow
  have htwo : 2 ^ 1 ≤ 2 ^ (m.log2 - 52) := Nat.pow_le_pow_right (by norm_num) (by omega)
  calc 2 ^ 53 = 2 ^ 52 * 2 ^ 1 := by norm_num
    _ ≤ divRound m (2 ^ (m.log2 - 52)) * 2 ^ (m.log2 - 52) :=
      Nat.mul_le_mul (hdiv.trans (le_divRound _ _)) htwo

theorem intToDouble_of_large {n : ℤ} (h : 2 ^ 53 ≤ n.natAbs) :
    ∃ m : ℕ, 2 ^ 53 ≤ m ∧ intToDouble n = (n.sign * m : ℤ) :=
  ⟨_, le_natAbs_intToDouble h, rfl⟩

theorem castDouble_intCast (lo hi n : ℤ) :
    castDouble lo hi n = if lo ≤ n ∧ n ≤ hi then .ok n else .error .badConversion := by
  simp [castDouble]

/-- A JSON integer cast to a range of at most 53 bits by way of `double`. -/
theorem castDouble_integer {lo hi : ℤ} (hlo : -2 ^ 52 ≤ lo) (hhi : hi ≤ 2 ^ 52) (n : ℤ) :
    castDouble lo hi (numberValue (some (integer n))) =
      if lo ≤ n ∧ n ≤ hi then .ok n else .error .badConversion := by
  rw [numberValue]
  by_cases hsmall : n.natAbs < 2 ^ 53
  · rw [intToDouble_of_small hsmall, castDouble_intCast]
  · obtain ⟨m, hm, hdouble⟩ := intToDouble_of_large (not_lt.1 hsmall)
    rw [hdouble, castDouble_intCast]
    rcases lt_or_ge n 0 with hneg | hpos
    · rw [Int.sign_eq_neg_one_of_neg hneg, if_neg (by omega), if_neg (by omega)]
    · rw [Int.sign_eq_one_of_pos (by omega), if_neg (by omega), if_neg (by omega)]

/-! ## Types of parameters -/

/-- The types of a parameter that the actions declare (`string` stands for the
`enum[…]` types, too). -/
inductive ParamType where
  | bool | number | string
  deriving DecidableEq, Repr

/-- The member is present and has the declared type. -/
def HasType : ParamType → Option Json → Prop
  | .bool, some (boolean _) => True
  | .number, some (integer _) => True
  | .number, some (real _) => True
  | .string, some (string _) => True
  | _, _ => False

end Json

/-- An `int` made of a JSON integer. -/
def intValue (v : Option Json) : ℤ := (Json.integerValue v + 2 ^ 31) % 2 ^ 32 - 2 ^ 31

end DslinkIec61850
