import Mathlib.Tactic

/-!
# Decimal numbers in C strings

A C string is the list of its characters before the terminator. `decimal w v`
prints `v` with exactly `w` digits; `scanNumber w` is the `%wd`/`%wu`
conversion of `scanf`, which skips blanks and accepts a sign and short fields.

* `scanNumber_decimal`: a zero-padded field of exactly `w` digits scans back.
* `scanNumber_of_not_digit`: nothing is converted in front of a character that
  is neither a blank, a sign nor a digit.
* `scanNumber_abs_lt`: a conversion of width `w` reads less than `10 ^ w`.
-/

namespace DslinkIec61850

/-- A C string without its terminator. -/
abbrev Str := List Char

/-- What holds of every character of a text is decided along the text, not over all
characters. -/
instance (priority := 1100) decidableForallChar (s : Str) (p : Char → Prop) [DecidablePred p] :
    Decidable (∀ c ∈ s, p c) :=
  List.decidableBAll p s

namespace Decimal

/-- The terminator. -/
def NUL : Char := Char.ofNat 0

/-- The character at index `i`, counting the terminator; `none` past it. -/
def peek (text : Str) (i : ℕ) : Option Char :=
  if i < text.length then text[i]? else if i = text.length then some NUL else none

theorem peek_append_length (a : Str) (c : Char) (b : Str) :
    peek (a ++ c :: b) a.length = some c := by
  simp [peek]

theorem peek_length (a : Str) : peek a a.length = some NUL := by simp [peek]

/-! ## Digits -/

/-- The character of the digit `d < 10`. -/
def digitChar (d : ℕ) : Char := Char.ofNat (d + 48)

/-- The value of a digit character. -/
def digitValue (c : Char) : ℕ := c.toNat - 48

theorem isDigit_digitChar {d : ℕ} (h : d < 10) : (digitChar d).isDigit = true := by
  interval_cases d <;> rfl

theorem digitValue_digitChar {d : ℕ} (h : d < 10) : digitValue (digitChar d) = d := by
  interval_cases d <;> rfl

/-- The number that a string of digits spells. -/
def value (s : Str) : ℕ := s.foldl (fun acc c => 10 * acc + digitValue c) 0

/-- `v` in exactly `w` digits (of `v % 10 ^ w`). -/
def decimal : ℕ → ℕ → Str
  | 0, _ => []
  | w + 1, v => digitChar (v / 10 ^ w % 10) :: decimal w v

@[simp] theorem length_decimal (w v : ℕ) : (decimal w v).length = w := by
  induction w with
  | zero => rfl
  | succ w ih => simp [decimal, ih]

theorem isDigit_of_mem_decimal {w v : ℕ} {c : Char} (h : c ∈ decimal w v) : c.isDigit = true := by
  induction w with
  | zero => simp [decimal] at h
  | succ w ih =>
    rw [decimal, List.mem_cons] at h
    rcases h with rfl | h
    · exact isDigit_digitChar (Nat.mod_lt _ (by norm_num))
    · exact ih h

theorem foldl_decimal (w v acc : ℕ) :
    (decimal w v).foldl (fun acc c => 10 * acc + digitValue c) acc = acc * 10 ^ w + v % 10 ^ w := by
  induction w generalizing acc with
  | zero => simp [decimal, Nat.mod_one]
  | succ w ih =>
    rw [decimal, List.foldl_cons, ih, digitValue_digitChar (Nat.mod_lt _ (by norm_num)),
      pow_succ, Nat.mod_mul]
    ring

theorem value_decimal {w v : ℕ} (h : v < 10 ^ w) : value (decimal w v) = v := by
  rw [value, foldl_decimal, Nat.mod_eq_of_lt h]; ring

/-! ## Conversions of `scanf` -/

/-- `isspace` in the C locale. -/
def isSpace (c : Char) : Bool := c == ' ' || (9 ≤ c.toNat && c.toNat ≤ 13)

/-- The longest run of at most `w` digits, and what follows it. -/
def takeDigits : ℕ → Str → Str × Str
  | 0, s => ([], s)
  | _ + 1, [] => ([], [])
  | w + 1, c :: s =>
    if c.isDigit then ((c :: (takeDigits w s).1), (takeDigits w s).2) else ([], c :: s)

/-- At least one and at most `w` digits. -/
def scanDigits (w : ℕ) (s : Str) : Option (ℕ × Str) :=
  if (takeDigits w s).1 = [] then none else some (value (takeDigits w s).1, (takeDigits w s).2)

/-- The conversions `%wd` and `%wu` stored into an `int`: blanks are skipped,
a sign counts towards the width, a negative `%u` wraps to the same `int`. -/
def scanNumber (w : ℕ) (s : Str) : Option (ℤ × Str) :=
  match s.dropWhile isSpace with
  | '+' :: r => (scanDigits (w - 1) r).map fun p => ((p.1 : ℤ), p.2)
  | '-' :: r => (scanDigits (w - 1) r).map fun p => (-(p.1 : ℤ), p.2)
  | r => (scanDigits w r).map fun p => ((p.1 : ℤ), p.2)

/-- An ordinary character of the format matches exactly itself. -/
def scanChar (c : Char) : Str → Option Str
  | [] => none
  | d :: s => if d = c then some s else none

@[simp] theorem scanChar_self (c : Char) (s : Str) : scanChar c (c :: s) = some s := by
  simp [scanChar]

theorem takeDigits_append {ds : Str} (h : ∀ c ∈ ds, c.isDigit = true) (s : Str) :
    takeDigits ds.length (ds ++ s) = (ds, s) := by
  induction ds with
  | nil => rfl
  | cons d ds ih =>
    have hd := h d (by simp)
    have := ih fun c hc => h c (by simp [hc])
    simp [takeDigits, hd, this]

theorem scanDigits_decimal {w v : ℕ} (hw : 0 < w) (hv : v < 10 ^ w) (s : Str) :
    scanDigits w (decimal w v ++ s) = some (v, s) := by
  have h := takeDigits_append (fun c hc => isDigit_of_mem_decimal (w := w) (v := v) hc) s
  rw [length_decimal] at h
  have hne : decimal w v ≠ [] := by
    intro h0
    have := length_decimal w v
    rw [h0] at this
    simp at this
    omega
  rw [scanDigits, h, if_neg hne, value_decimal hv]

/-- A digit is neither a blank nor a sign. -/
theorem digit_start {c : Char} (h : c.isDigit = true) : isSpace c = false ∧ c ≠ '+' ∧ c ≠ '-' := by
  have h48 : 48 ≤ c.toNat ∧ c.toNat ≤ 57 := by
    simp only [Char.isDigit, Bool.and_eq_true, decide_eq_true_eq, ge_iff_le,
      UInt32.le_iff_toNat_le] at h
    exact h
  refine ⟨?_, ?_, ?_⟩
  · have hsp : c ≠ ' ' := by rintro rfl; revert h48; decide
    simp [isSpace, hsp]; omega
  · rintro rfl; revert h48; decide
  · rintro rfl; revert h48; decide

theorem scanNumber_of_start {c : Char} (hsp : isSpace c = false) (hp : c ≠ '+') (hm : c ≠ '-')
    (w : ℕ) (s : Str) :
    scanNumber w (c :: s) = (scanDigits w (c :: s)).map fun p => ((p.1 : ℤ), p.2) := by
  rw [scanNumber, List.dropWhile_cons_of_neg (by simp [hsp])]
  split
  · rename_i h; cases h; exact absurd rfl hp
  · rename_i h; cases h; exact absurd rfl hm
  · rfl

/-- A zero-padded field of the full width scans back to its number. -/
theorem scanNumber_decimal {w v : ℕ} (hw : 0 < w) (hv : v < 10 ^ w) (s : Str) :
    scanNumber w (decimal w v ++ s) = some ((v : ℤ), s) := by
  obtain ⟨w, rfl⟩ : ∃ k, w = k + 1 := ⟨w - 1, by omega⟩
  have hd : (digitChar (v / 10 ^ w % 10)).isDigit = true :=
    isDigit_digitChar (Nat.mod_lt _ (by norm_num))
  obtain ⟨hsp, hp, hm⟩ := digit_start hd
  have h := scanNumber_of_start hsp hp hm (w + 1) (decimal w v ++ s)
  rw [← List.cons_append, ← decimal] at h
  rw [h, scanDigits_decimal hw hv]
  rfl

/-- In front of anything but a blank, a sign or a digit no number is read. -/
theorem scanNumber_of_not_digit {c : Char} (hsp : isSpace c = false) (hp : c ≠ '+') (hm : c ≠ '-')
    (hd : c.isDigit = false) (w : ℕ) (s : Str) : scanNumber w (c :: s) = none := by
  rw [scanNumber_of_start hsp hp hm]
  cases w with
  | zero => simp [scanDigits, takeDigits]
  | succ w => simp [scanDigits, takeDigits, hd]

/-! ## The size of what is read -/

theorem length_takeDigits_le (w : ℕ) (s : Str) : (takeDigits w s).1.length ≤ w := by
  induction w generalizing s with
  | zero => exact Nat.zero_le _
  | succ w ih =>
    cases s with
    | nil => exact Nat.zero_le _
    | cons c s =>
      rw [takeDigits]
      split_ifs
      · exact Nat.succ_le_succ (ih s)
      · exact Nat.zero_le _

theorem isDigit_of_mem_takeDigits {w : ℕ} {s : Str} {c : Char} (h : c ∈ (takeDigits w s).1) :
    c.isDigit = true := by
  induction w generalizing s with
  | zero => simp [takeDigits] at h
  | succ w ih =>
    cases s with
    | nil => simp [takeDigits] at h
    | cons d s =>
      rw [takeDigits] at h
      split_ifs at h with hd
      · rcases List.mem_cons.1 h with rfl | h
        · exact hd
        · exact ih h
      · simp at h

theorem digitValue_le {c : Char} (h : c.isDigit = true) : digitValue c ≤ 9 := by
  have hle : c.toNat ≤ 57 := by
    simp only [Char.isDigit, Bool.and_eq_true, decide_eq_true_eq, ge_iff_le,
      UInt32.le_iff_toNat_le] at h
    exact h.2
  unfold digitValue
  omega

/-- A string of digits spells a number below the power of ten of its length. -/
theorem value_lt {s : Str} (h : ∀ c ∈ s, c.isDigit = true) : value s < 10 ^ s.length := by
  induction s using List.reverseRecOn with
  | nil => decide
  | append_singleton s c ih =>
    have hs : value s < 10 ^ s.length := ih fun d hd => h d (List.mem_append_left _ hd)
    have hc : digitValue c ≤ 9 := digitValue_le (h c (by simp))
    have heq : value (s ++ [c]) = 10 * value s + digitValue c := by
      rw [value, List.foldl_append]
      rfl
    rw [heq, List.length_append, List.length_singleton, pow_succ]
    omega

theorem scanDigits_lt {w n : ℕ} {s r : Str} (h : scanDigits w s = some (n, r)) : n < 10 ^ w := by
  unfold scanDigits at h
  split_ifs at h with hne
  cases h
  calc value (takeDigits w s).1
      < 10 ^ (takeDigits w s).1.length := value_lt fun c hc => isDigit_of_mem_takeDigits hc
    _ ≤ 10 ^ w := Nat.pow_le_pow_right (by norm_num) (length_takeDigits_le w s)

/-- A conversion of width `w` reads less than `10 ^ w`. -/
theorem scanNumber_abs_lt {w : ℕ} {n : ℤ} {s r : Str} (h : scanNumber w s = some (n, r)) :
    |n| < 10 ^ w := by
  have hpow : (10 : ℤ) ^ (w - 1) ≤ 10 ^ w := pow_le_pow_right₀ (by norm_num) (Nat.sub_le w 1)
  have hmap {v : ℕ} {m : ℕ} {t : Str} (hd : scanDigits v t = some (m, r)) : (m : ℤ) < 10 ^ v := by
    exact_mod_cast scanDigits_lt hd
  unfold scanNumber at h
  split at h
  all_goals
    obtain ⟨⟨m, r'⟩, hd, heq⟩ := Option.map_eq_some_iff.1 h
    cases heq
    have hlt := hmap hd
  · rw [abs_of_nonneg (Int.natCast_nonneg m)]
    exact lt_of_lt_of_le hlt hpow
  · rw [abs_neg, abs_of_nonneg (Int.natCast_nonneg m)]
    exact lt_of_lt_of_le hlt hpow
  · rw [abs_of_nonneg (Int.natCast_nonneg m)]
    exact hlt

end Decimal

end DslinkIec61850
