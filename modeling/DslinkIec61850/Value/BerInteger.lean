import DslinkIec61850.Value.MmsValue

/-!
# The values of BER integers

A BER integer is a two's complement number with the most significant octet
first; the shortest form drops octets that only repeat the sign.

* `signedValue_compress`: compressing keeps the value.
* `Encodes.length_lt_nine_iff`: the values whose shortest form has at most eight octets.
* `value_setInt32`, `value_setUint32`: what the setters store.
-/

namespace DslinkIec61850

/-! ## Octets -/

/-- The octets are bytes. -/
def Octets (l : List ℕ) : Prop := ∀ b ∈ l, b < 256

theorem octets_cons {a : ℕ} {l : List ℕ} : Octets (a :: l) ↔ a < 256 ∧ Octets l := by simp [Octets]

theorem foldl_octets (l : List ℕ) (acc : ℕ) :
    l.foldl (fun acc b => 256 * acc + b) acc = acc * 256 ^ l.length + octetsValue l := by
  induction l generalizing acc with
  | nil => simp [octetsValue]
  | cons a l ih =>
    rw [octetsValue, List.foldl_cons, List.foldl_cons, ih, ih (256 * 0 + a),
      List.length_cons, pow_succ]
    ring

theorem octetsValue_cons (a : ℕ) (l : List ℕ) :
    octetsValue (a :: l) = a * 256 ^ l.length + octetsValue l := by
  rw [octetsValue, List.foldl_cons, foldl_octets]
  simp

theorem octetsValue_lt {l : List ℕ} (h : Octets l) : octetsValue l < 256 ^ l.length := by
  induction l with
  | nil => simp [octetsValue]
  | cons a l ih =>
    obtain ⟨ha, hl⟩ := octets_cons.1 h
    have hlt := ih hl
    have hstep : a * 256 ^ l.length + 256 ^ l.length ≤ 256 * 256 ^ l.length := by
      have hmul := Nat.mul_le_mul_right (256 ^ l.length) (show a + 1 ≤ 256 by omega)
      rwa [Nat.add_mul, one_mul] at hmul
    rw [octetsValue_cons, List.length_cons, pow_succ]
    omega

namespace BerInteger

/-- The two's complement number of a list of octets. -/
def signedValue (l : List ℕ) : ℤ :=
  if 128 ≤ l.headD 0 then (octetsValue l : ℤ) - 256 ^ l.length else octetsValue l

theorem value_def (self : BerInteger) : self.value = signedValue self.octets := rfl

theorem signedValue_cons (a : ℕ) (l : List ℕ) :
    signedValue (a :: l) = (a : ℤ) * 256 ^ l.length + octetsValue l -
      (if 128 ≤ a then 256 * 256 ^ l.length else 0) := by
  unfold signedValue
  rw [octetsValue_cons, List.length_cons, List.headD_cons, pow_succ]
  push_cast
  split_ifs <;> ring

/-! ## The shortest form -/

/-- The octets are as few as possible. -/
def Shortest (l : List ℕ) : Prop := compress l = l

theorem compress_cons_cons (a b : ℕ) (l : List ℕ) :
    compress (a :: b :: l) =
      if (a = 0 ∧ b < 128) ∨ (a = 255 ∧ 128 ≤ b) then compress (b :: l) else a :: b :: l := by
  rw [compress]

theorem length_compress_le (l : List ℕ) : (compress l).length ≤ l.length := by
  induction l with
  | nil => simp [compress]
  | cons a l ih =>
    cases l with
    | nil => simp [compress]
    | cons b l =>
      rw [compress_cons_cons]
      split_ifs
      · exact ih.trans (Nat.le_succ _)
      · exact le_rfl

/-- Compressing keeps the value. -/
theorem signedValue_compress (l : List ℕ) : signedValue (compress l) = signedValue l := by
  induction l with
  | nil => simp [compress]
  | cons a l ih =>
    cases l with
    | nil => simp [compress]
    | cons b l =>
      rw [compress_cons_cons]
      split_ifs with h
      · rw [ih, signedValue_cons, signedValue_cons, octetsValue_cons, List.length_cons, pow_succ]
        push_cast
        rcases h with ⟨rfl, hb⟩ | ⟨rfl, hb⟩
        · rw [if_neg (by omega), if_neg (by omega)]
          ring
        · rw [if_pos hb, if_pos (by omega)]
          push_cast
          ring
      · rfl

/-- A shortest form does not begin with an octet that only repeats the sign. -/
theorem not_redundant {a b : ℕ} {l : List ℕ} (h : Shortest (a :: b :: l)) :
    ¬ ((a = 0 ∧ b < 128) ∨ (a = 255 ∧ 128 ≤ b)) := by
  intro hred
  have hlen := length_compress_le (b :: l)
  rw [Shortest, compress_cons_cons, if_pos hred] at h
  rw [h] at hlen
  simp at hlen

/-- The size of a value of `n` octets. -/
theorem signedValue_bound {l : List ℕ} (h : Octets l) (hne : l ≠ []) :
    -(256 ^ l.length : ℤ) ≤ 2 * signedValue l ∧ 2 * signedValue l < 256 ^ l.length := by
  cases l with
  | nil => exact absurd rfl hne
  | cons a l =>
    obtain ⟨ha, hl⟩ := octets_cons.1 h
    have hlt : (octetsValue l : ℤ) < 256 ^ l.length := by exact_mod_cast octetsValue_lt hl
    have hpow : (0 : ℤ) < 256 ^ l.length := by positivity
    rw [signedValue_cons, List.length_cons, pow_succ]
    split_ifs with hneg
    · have h128 : (128 : ℤ) * 256 ^ l.length ≤ a * 256 ^ l.length :=
        mul_le_mul_of_nonneg_right (by exact_mod_cast hneg) hpow.le
      have h255 : (a : ℤ) * 256 ^ l.length ≤ 255 * 256 ^ l.length :=
        mul_le_mul_of_nonneg_right (by exact_mod_cast (show a ≤ 255 by omega)) hpow.le
      constructor <;> omega
    · have h127 : (a : ℤ) * 256 ^ l.length ≤ 127 * 256 ^ l.length :=
        mul_le_mul_of_nonneg_right (by exact_mod_cast (show a ≤ 127 by omega)) hpow.le
      have h0 : (0 : ℤ) ≤ a * 256 ^ l.length := by positivity
      constructor <;> omega

/-- A shortest form of more than `n + 1` octets has a value that does not fit into
`n + 1` octets. -/
theorem signedValue_long {a b : ℕ} {l : List ℕ} (h : Octets (a :: b :: l))
    (hs : Shortest (a :: b :: l)) : (128 * 256 ^ l.length : ℤ) ≤ signedValue (a :: b :: l) ∨
      signedValue (a :: b :: l) < -(128 * 256 ^ l.length) := by
  have hred := not_redundant hs
  obtain ⟨ha, hbl⟩ := octets_cons.1 h
  obtain ⟨hb, hl⟩ := octets_cons.1 hbl
  have hlt : (octetsValue l : ℤ) < 256 ^ l.length := by exact_mod_cast octetsValue_lt hl
  have hpow : (0 : ℤ) < 256 ^ l.length := by positivity
  have hmul (x y : ℕ) (hxy : x ≤ y) : (x : ℤ) * 256 ^ l.length ≤ y * 256 ^ l.length :=
    mul_le_mul_of_nonneg_right (by exact_mod_cast hxy) hpow.le
  rw [signedValue_cons, octetsValue_cons, List.length_cons, pow_succ]
  push_cast
  have hsplit : (a : ℤ) * (256 ^ l.length * 256) = 256 * a * 256 ^ l.length := by ring
  rw [hsplit]
  split_ifs with hneg
  · right
    -- the leading octet is below 255, or the second one does not repeat its sign
    rcases Nat.lt_or_ge a 255 with h255 | h255
    · have h₁ := hmul (256 * a) (256 * 254) (by omega)
      have h₂ := hmul b 255 (by omega)
      push_cast at h₁ h₂
      omega
    · have h₁ := hmul (256 * a) (256 * 255) (by omega)
      have h₂ := hmul b 127 (by omega)
      push_cast at h₁ h₂
      omega
  · left
    rcases Nat.eq_zero_or_pos a with h0 | h0
    · have h₂ := hmul 128 b (by omega)
      have h₁ := hmul 0 (256 * a) (by omega)
      push_cast at h₁ h₂
      omega
    · have h₁ := hmul 256 (256 * a) (by omega)
      have h₂ := hmul 0 b (by omega)
      push_cast at h₁ h₂
      omega

/-- The octets are the shortest form of a number. -/
structure Encodes (b : BerInteger) (v : ℤ) : Prop where
  octets_ok : Octets b.octets
  ne_nil : b.octets ≠ []
  shortest : Shortest b.octets
  value_eq : b.value = v

/-- The numbers whose shortest form has at most eight octets. -/
theorem Encodes.length_lt_nine_iff {b : BerInteger} {v : ℤ} (h : b.Encodes v) :
    b.octets.length < 9 ↔ -2 ^ 63 ≤ v ∧ v < 2 ^ 63 := by
  rw [← h.value_eq, value_def]
  obtain ⟨hoct, hne, hshort, -⟩ := h
  constructor
  · intro hlen
    have hbound := signedValue_bound hoct hne
    have hpow : (256 : ℤ) ^ b.octets.length ≤ 256 ^ 8 :=
      pow_le_pow_right₀ (by norm_num) (by omega)
    norm_num at hpow
    constructor <;> omega
  · rintro ⟨hlo, hhi⟩
    by_contra hlen
    match hl : b.octets, hoct, hshort with
    | [], _, _ => exact hne hl
    | [a], _, _ =>
      rw [hl] at hlen
      simp at hlen
    | a :: b :: l, hoct, hshort =>
      rw [hl] at hlen hlo hhi
      have hseven : 7 ≤ l.length := by
        simp only [List.length_cons] at hlen
        omega
      have hpow : (256 : ℤ) ^ 7 ≤ 256 ^ l.length := pow_le_pow_right₀ (by norm_num) hseven
      have hlong := signedValue_long hoct hshort
      norm_num at hpow
      omega

/-- Reading at most eight octets gives the number, longer forms give 0. -/
theorem Encodes.toInt64_eq {b : BerInteger} {v : ℤ} (h : b.Encodes v) :
    b.toInt64 = if -2 ^ 63 ≤ v ∧ v < 2 ^ 63 then v else 0 := by
  rw [toInt64, h.value_eq]
  exact if_congr h.length_lt_nine_iff rfl rfl

/-! ## The setters -/

theorem value_setIntegerValue {self : BerInteger} {l : List ℕ} (h : l.length ≤ self.maxSize) :
    (self.setIntegerValue l).value = signedValue l := by
  rw [setIntegerValue, if_pos ((length_compress_le l).trans h), value_def]
  exact signedValue_compress l

/-- An `int32_t` is stored as it is. -/
theorem value_setInt32 {v : ℤ} (hlo : -2 ^ 31 ≤ v) (hhi : v < 2 ^ 31) :
    (createInt32.setInt32 v).value = v := by
  have hn : (v % 2 ^ 32).toNat < 256 ^ 4 := by omega
  have hvalue := octetsValue_toOctets (w := 4) hn
  rw [setInt32, value_setIntegerValue (by simp [createInt32])]
  unfold signedValue
  rw [hvalue, length_toOctets]
  simp only [toOctets, List.headD_cons]
  split_ifs with hneg
  · have : 128 ≤ (v % 2 ^ 32).toNat / 256 ^ 3 := by omega
    omega
  · have : (v % 2 ^ 32).toNat / 256 ^ 3 % 256 = (v % 2 ^ 32).toNat / 256 ^ 3 := by omega
    omega

/-- A `uint32_t` is stored as it is. -/
theorem value_setUint32 {v : ℕ} (h : v < 2 ^ 32) : (createInt32.setUint32 v).value = v := by
  have hvalue := octetsValue_toOctets (w := 4) (v := v) (by omega)
  rw [setUint32, value_setIntegerValue (by simp [createInt32]), signedValue_cons, hvalue]
  simp

/-- A form that begins with a positive octet keeps its unsigned value. -/
theorem octetsValue_compress {a : ℕ} (ha : a < 128) (l : List ℕ) :
    octetsValue (compress (a :: l)) = octetsValue (a :: l) := by
  induction l generalizing a with
  | nil => rfl
  | cons b l ih =>
    rw [compress_cons_cons]
    split_ifs with h
    · have hzero : a = 0 := by omega
      have hb : b < 128 := by omega
      rw [ih hb, hzero, octetsValue_cons 0]
      simp
    · rfl

/-- A `uint32_t` is read back from a buffer of at least five octets. -/
theorem toUint32_setUint32 {self : BerInteger} {v : ℕ} (hmax : 5 ≤ self.maxSize) (h : v < 2 ^ 32) :
    (self.setUint32 v).toUint32 = v := by
  have hlen : (compress (0 :: toOctets 4 v)).length ≤ 5 := by
    simpa using length_compress_le (0 :: toOctets 4 v)
  have hvalue : octetsValue (compress (0 :: toOctets 4 v)) = v := by
    rw [octetsValue_compress (by norm_num), octetsValue_cons, octetsValue_toOctets (by omega)]
    simp
  rw [setUint32, setIntegerValue, if_pos (hlen.trans hmax), toUint32,
    if_pos (Nat.lt_succ_of_le hlen)]
  show octetsValue (compress (0 :: toOctets 4 v)) % 2 ^ 32 = v
  rw [hvalue, Nat.mod_eq_of_lt h]

@[simp] theorem maxSize_setUint32 (self : BerInteger) (v : ℕ) :
    (self.setUint32 v).maxSize = self.maxSize := by
  unfold setUint32 setIntegerValue
  split_ifs <;> rfl

theorem length_setUint32 {self : BerInteger} {v : ℕ} (hmax : 5 ≤ self.maxSize) :
    (self.setUint32 v).octets.length ≤ 5 := by
  have hlen : (compress (0 :: toOctets 4 v)).length ≤ 5 := by
    simpa using length_compress_le (0 :: toOctets 4 v)
  rw [setUint32, setIntegerValue, if_pos (hlen.trans hmax)]
  exact hlen

end BerInteger

end DslinkIec61850
