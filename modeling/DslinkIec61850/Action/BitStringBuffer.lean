import DslinkIec61850.Action.BitString
import Mathlib.Data.Int.Bitwise

/-!
# The buffers of bit strings

`parseBitString` (iec61850_server_defs.c:184–216) with the buffer that it allocates, and
the loop of `setValueNodeFromMMS` (client_handler.c:376–387) that prints a bit string into
one. Lengths and indices are of type `int`: the size of the parser's buffer is taken
modulo 2^32, an index beyond 2^31 is a fault.

* `parse_returns`: the parser's results, as in `Action.DataAttribute`.
* `bitBuffers_safe_iff`: the texts and the bit strings that are handled without a fault
  or a leak.
-/

namespace DslinkIec61850

open Run

/-! ## Buffers on the heap -/

/-- A buffer on the heap and whether it has been freed. -/
structure HeapBuffer (α : Type) where
  cells : List α
  freed : Bool

namespace HeapBuffer

variable {α : Type}

/-- `GLOBAL_CALLOC`. -/
def calloc (zero : α) (size : ℕ) : HeapBuffer α :=
  { cells := List.replicate size zero, freed := false }

def write (self : HeapBuffer α) (i : ℤ) (v : α) : Except Fault (HeapBuffer α) :=
  if self.freed then .error .useAfterFree
  else if 0 ≤ i ∧ i < self.cells.length then .ok { self with cells := self.cells.set i.toNat v }
  else .error .outOfBounds

/-- `GLOBAL_FREEMEM`. -/
def free (self : HeapBuffer α) : HeapBuffer α := { self with freed := true }

theorem write_ok {self : HeapBuffer α} {i : ℕ} {v : α} (hfree : self.freed = false)
    (hi : i < self.cells.length) :
    self.write i v = .ok { self with cells := self.cells.set i v } := by
  rw [write, if_neg (by simp [hfree]), if_pos ⟨by omega, by exact_mod_cast hi⟩]
  rfl

theorem write_error {self : HeapBuffer α} {i : ℕ} {v : α} (hfree : self.freed = false)
    (hi : self.cells.length ≤ i) : self.write i v = .error .outOfBounds := by
  rw [write, if_neg (by simp [hfree]), if_neg]
  omega

end HeapBuffer

/-- A number as an `int`. -/
def toInt (n : ℕ) : Except Fault ℕ := if n < 2 ^ 31 then .ok n else .error .outOfBounds

theorem toInt_ok {n : ℕ} (h : n < 2 ^ 31) : toInt n = .ok n := if_pos h

theorem toInt_error {n : ℕ} (h : 2 ^ 31 ≤ n) : toInt n = .error .outOfBounds := if_neg (by omega)

/-! ## The parser -/

/-- The loop of `parseBitString` at the index `i` of the text with `j` bits stored: the
buffer and what is returned, `none` behind the closing brace. -/
def bufferLoop (rawStrSize : ℤ) :
    ℕ → ℕ → HeapBuffer ℕ → Str → Except Fault (HeapBuffer ℕ × Option ℤ)
  | _, _, bitStrBuf, [] => .ok (bitStrBuf, none)
  | i, j, bitStrBuf, [c] =>
    if c = '1' then .ok (bitStrBuf.free, some 0)
    else do
      let bitStrBuf ← bitStrBuf.write j (if c = '0' then 0 else 1)
      let _ ← toInt (i + 1)
      return (bitStrBuf, some (if rawStrSize = j + 2 then rawStrSize else 0))
  | i, j, bitStrBuf, c :: d :: rest =>
    if c = '1' then .ok (bitStrBuf.free, some 0)
    else do
      let bitStrBuf ← bitStrBuf.write j (if c = '0' then 0 else 1)
      let i ← toInt (i + 1)
      if d = ',' then do
        let i ← toInt (i + 1)
        bufferLoop rawStrSize i (j + 1) bitStrBuf rest
      else return (bitStrBuf.free, some 0)

/-- `rawStrSize`: half of the length, rounded up, as an `int`. -/
def rawStrSize (rawString : Str) : ℤ := (((rawString.length + 1) / 2 : ℕ) : ℤ).bmod (2 ^ 32)

theorem rawStrSize_eq {rawString : Str} (h : rawString.length < 2 ^ 31) :
    rawStrSize rawString = ((rawString.length + 1) / 2 : ℕ) := by
  have hle : (rawString.length + 1) / 2 ≤ 2 ^ 30 := by omega
  exact Int.bmod_eq_of_le (by norm_num; omega) (by norm_num; omega)

/-- `parseBitString` with its buffer. -/
def parseBuffered (rawString : Str) : Except Fault (Option (HeapBuffer ℕ) × Option ℤ) :=
  if 0 < rawStrSize rawString then do
    let r ← bufferLoop (rawStrSize rawString) 0 0 (.calloc 0 (rawStrSize rawString).toNat) rawString
    return (some r.1, r.2)
  else .ok (none, some 0)

/-- The value of a call, which is not determined when the function did not return. -/
def returned : Option ℤ → Except Fault ℕ
  | some result => .ok result.toNat
  | none => .error .noReturn

/-- The parser returns; its writes stay in the buffer, which is freed when 0 is returned
and kept when the size is. -/
def ParsesSafely (text : Str) : Prop :=
  ∃ buffer result, parseBuffered text = .ok (buffer, some result) ∧
    (result = 0 → ∀ b ∈ buffer, b.freed = true) ∧ (0 < result → ∃ b ∈ buffer, b.freed = false)

/-- The text has a `1` where a bit is expected, or no comma behind a bit, at the index. -/
def RefusedAt : Str → ℕ → Prop
  | c :: _, 0 => c = '1'
  | c :: d :: _, 1 => c ≠ '1' ∧ d ≠ ','
  | c :: d :: rest, i + 2 => c ≠ '1' ∧ d = ',' ∧ RefusedAt rest i
  | _, _ => False

/-- The text is refused within the buffer and the range of the index. -/
def Refused (text : Str) : Prop :=
  ∃ i < 2 ^ 31, RefusedAt text i ∧ (((i + 1) / 2 : ℕ) : ℤ) ≤ rawStrSize text

theorem refusedAt_singleton {c : Char} {i : ℕ} : RefusedAt [c] i ↔ i = 0 ∧ c = '1' := by
  cases i with
  | zero => simp [RefusedAt]
  | succ i => cases i <;> simp [RefusedAt]

/-- Behind a character that can be a bit. -/
theorem refusedAt_pair {c d : Char} {rest : Str} {i : ℕ} (hc : c ≠ '1') :
    RefusedAt (c :: d :: rest) i ↔ if d = ',' then ∃ k, i = k + 2 ∧
    RefusedAt rest k else i = 1 := by
  cases i with
  | zero => simp [RefusedAt, hc]
  | succ i =>
    cases i with
    | zero => simp [RefusedAt, hc]
    | succ i =>
      by_cases hd : d = ','
      · simp [RefusedAt, hc, hd]
      · simp [RefusedAt, hd]

/-- By induction on the rounds: 0 is returned behind a `free` iff the text is refused. -/
theorem bufferLoop_frees_iff (size : ℤ) {i j : ℕ} {buf : HeapBuffer ℕ} (text : Str) (hi : i = 2 * j)
    (hint : i < 2 ^ 31) (hj : j ≤ buf.cells.length) (hfree : buf.freed = false) :
    (∃ b, bufferLoop size i j buf text = .ok (b, some 0) ∧ b.freed = true) ↔
      ∃ k, RefusedAt text k ∧ i + k < 2 ^ 31 ∧ (i + k + 1) / 2 ≤ buf.cells.length := by
  induction text using List.twoStepInduction generalizing i j buf with
  | nil =>
    constructor
    · rintro ⟨b, hb, -⟩
      cases hb
    · rintro ⟨k, hk, -⟩
      cases hk
  | singleton c =>
    rw [bufferLoop]
    by_cases hc : c = '1'
    · rw [if_pos hc]
      exact ⟨fun _ => ⟨0, hc, by omega, by omega⟩, fun _ => ⟨_, rfl, rfl⟩⟩
    · rw [if_neg hc]
      constructor
      · rintro ⟨b, hb, hfreed⟩
        obtain ⟨buf', hwrite, hb⟩ := bind_eq_ok.1 hb
        obtain ⟨i', -, hb⟩ := bind_eq_ok.1 hb
        by_cases hroom : j < buf.cells.length
        · rw [HeapBuffer.write_ok hfree hroom] at hwrite
          cases hwrite
          obtain ⟨rfl, -⟩ := Prod.mk.inj (Except.ok.inj hb)
          rw [show buf.freed = true from hfreed] at hfree
          cases hfree
        · rw [HeapBuffer.write_error hfree (by omega)] at hwrite
          cases hwrite
      · rintro ⟨k, hk, -⟩
        exact absurd (refusedAt_singleton.1 hk).2 hc
  | cons_cons c d rest ih _ =>
    rw [bufferLoop]
    by_cases hc : c = '1'
    · rw [if_pos hc]
      exact ⟨fun _ => ⟨0, hc, by omega, by omega⟩, fun _ => ⟨_, rfl, rfl⟩⟩
    · simp only [refusedAt_pair hc, if_neg hc]
      by_cases hroom : j < buf.cells.length ∧ i + 1 < 2 ^ 31
      · rw [HeapBuffer.write_ok hfree hroom.1, ok_bind, toInt_ok hroom.2, ok_bind]
        by_cases hd : d = ','
        · simp only [if_pos hd]
          by_cases hnext : i + 2 < 2 ^ 31
          · have hrest := @ih (i + 2)
              (j + 1) { buf with cells := buf.cells.set j (if c = '0' then 0 else 1) }
              (by omega) hnext (by simpa using hroom.1) hfree
            rw [List.length_set] at hrest
            rw [toInt_ok hnext, ok_bind, hrest]
            constructor
            · rintro ⟨k, hk, hlt, hle⟩
              exact ⟨k + 2, ⟨k, rfl, hk⟩, by omega, by omega⟩
            · rintro ⟨_, ⟨k, rfl, hk⟩, hlt, hle⟩
              exact ⟨k, hk, by omega, by omega⟩
          · rw [toInt_error (by omega)]
            constructor
            · rintro ⟨b, hb, -⟩
              cases hb
            · rintro ⟨_, ⟨k, rfl, -⟩, hlt, -⟩
              omega
        · simp only [if_neg hd]
          exact ⟨fun _ => ⟨1, rfl, by omega, by omega⟩, fun _ => ⟨_, rfl, rfl⟩⟩
      · constructor
        · rintro ⟨b, hb, -⟩
          obtain ⟨buf', hwrite, hb⟩ := bind_eq_ok.1 hb
          obtain ⟨i', hint', -⟩ := bind_eq_ok.1 hb
          by_cases hlt : j < buf.cells.length
          · rw [toInt_error (by omega)] at hint'
            cases hint'
          · rw [HeapBuffer.write_error hfree (by omega)] at hwrite
            cases hwrite
        · rintro ⟨k, hk, hlt, hle⟩
          have hpos : 0 < k := by
            split_ifs at hk
            · obtain ⟨m, rfl, -⟩ := hk
              omega
            · omega
          omega

/-- What the rounds return is 0: the size is never one more than the bits stored. -/
theorem bufferLoop_returns {rawString : Str} {i j : ℕ} {buf b : HeapBuffer ℕ} {text : Str} {n : ℤ}
    (hi : i = 2 * j) (hlen : rawString.length = i + text.length)
    (h : bufferLoop (rawStrSize rawString) i j buf text = .ok (b, some n)) : n = 0 := by
  induction text using List.twoStepInduction generalizing i j buf with
  | nil => cases h
  | singleton c =>
    rw [bufferLoop] at h
    by_cases hc : c = '1'
    · rw [if_pos hc] at h
      cases h
      rfl
    · rw [if_neg hc] at h
      obtain ⟨buf', -, h⟩ := bind_eq_ok.1 h
      obtain ⟨i', hint, h⟩ := bind_eq_ok.1 h
      have hlt : i + 1 < 2 ^ 31 := by
        by_contra hge
        rw [toInt_error (by omega)] at hint
        cases hint
      have hne : rawStrSize rawString ≠ j + 2 := by
        rw [List.length_singleton] at hlen
        rw [rawStrSize_eq (by omega)]
        omega
      rw [if_neg hne] at h
      exact (Option.some.inj (Prod.mk.inj (Except.ok.inj h)).2).symm
  | cons_cons c d rest ih _ =>
    rw [bufferLoop] at h
    by_cases hc : c = '1'
    · rw [if_pos hc] at h
      cases h
      rfl
    · rw [if_neg hc] at h
      obtain ⟨buf', -, h⟩ := bind_eq_ok.1 h
      obtain ⟨i', hint, h⟩ := bind_eq_ok.1 h
      by_cases hd : d = ','
      · rw [if_pos hd] at h
        obtain ⟨i'', hint', h⟩ := bind_eq_ok.1 h
        have hnext : i'' = i + 2 := by
          unfold toInt at hint hint'
          split_ifs at hint hint'
          cases hint
          cases hint'
          rfl
        rw [List.length_cons, List.length_cons] at hlen
        exact ih (by omega) (by omega) h
      · rw [if_neg hd] at h
        exact (Option.some.inj (Prod.mk.inj (Except.ok.inj h)).2).symm

theorem parsesSafely_iff (text : Str) :
    ParsesSafely text ↔ rawStrSize text ≤ 0 ∨ Refused text := by
  by_cases hsize : 0 < rawStrSize text
  · have hcells : ((HeapBuffer.calloc 0 (rawStrSize text).toNat : HeapBuffer ℕ).cells.length : ℤ) =
        rawStrSize text := by
      rw [HeapBuffer.calloc, List.length_replicate, Int.toNat_of_nonneg hsize.le]
    have hloop := bufferLoop_frees_iff (rawStrSize text) text (show 0 = 2 * 0 from rfl)
      (by norm_num) (Nat.zero_le (HeapBuffer.calloc 0 (rawStrSize text).toNat).cells.length) rfl
    have hrefused : Refused text ↔ ∃ b, bufferLoop (rawStrSize text) 0 0
        (HeapBuffer.calloc 0 (rawStrSize text).toNat) text = .ok (b, some 0) ∧ b.freed = true := by
      rw [hloop, Refused]
      constructor
      · rintro ⟨i, hlt, hat, hle⟩
        exact ⟨i, hat, by omega, by omega⟩
      · rintro ⟨i, hat, hlt, hle⟩
        exact ⟨i, by omega, hat, by omega⟩
    rw [or_iff_right (by omega), hrefused, ParsesSafely, parseBuffered, if_pos hsize]
    constructor
    · rintro ⟨buffer, result, hrun, hzero, -⟩
      obtain ⟨⟨b, r⟩, hloop', hrun⟩ := bind_eq_ok.1 hrun
      obtain ⟨rfl, rfl⟩ := Prod.mk.inj (Except.ok.inj hrun)
      have hresult : result = 0 :=
        bufferLoop_returns (Nat.mul_zero 2).symm (Nat.zero_add _).symm hloop'
      rw [hresult] at hloop'
      exact ⟨b, hloop', hzero hresult b rfl⟩
    · rintro ⟨b, hrun, hfreed⟩
      refine ⟨some b, 0, by rw [hrun]; rfl, ?_, fun h => absurd h (by norm_num)⟩
      intro _ b' hb'
      rwa [← Option.mem_some.1 hb']
  · rw [ParsesSafely, parseBuffered, if_neg hsize]
    constructor
    · intro _
      exact .inl (by omega)
    · intro _
      refine ⟨none, 0, rfl, ?_, fun h => absurd h (by norm_num)⟩
      intro _ b hb
      cases hb

/-- On a text whose indices are numbers of an `int` the rounds give what those without a
buffer give. -/
theorem bufferLoop_returned {size i j : ℕ} {buf : HeapBuffer ℕ} {text : Str} (hi : i = 2 * j)
    (hint : i + text.length < 2 ^ 31) (hroom : (i + text.length + 1) / 2 ≤ buf.cells.length)
    (hfree : buf.freed = false) :
    (bufferLoop size i j buf text >>= fun r => returned r.2) = parseBitLoop size j text := by
  induction text using List.twoStepInduction generalizing i j buf with
  | nil => rfl
  | singleton c =>
    rw [List.length_singleton] at hint hroom
    rw [bufferLoop, parseBitLoop]
    by_cases hc : c = '1'
    · rw [if_pos hc, if_pos hc]
      rfl
    · rw [if_neg hc, if_neg hc, HeapBuffer.write_ok hfree (by omega), ok_bind,
        toInt_ok hint, ok_bind]
      by_cases hsize : size = j + 2
      · have hcast : (size : ℤ) = j + 2 := by exact_mod_cast hsize
        rw [if_pos hsize, if_pos hcast]
        rfl
      · have hcast : (size : ℤ) ≠ j + 2 := by exact_mod_cast hsize
        rw [if_neg hsize, if_neg hcast]
        rfl
  | cons_cons c d rest ih _ =>
    rw [List.length_cons, List.length_cons] at hint hroom
    rw [bufferLoop, parseBitLoop]
    by_cases hc : c = '1'
    · rw [if_pos hc, if_pos hc]
      rfl
    · rw [if_neg hc, if_neg hc, HeapBuffer.write_ok hfree (by omega), ok_bind,
        toInt_ok (by omega), ok_bind]
      by_cases hd : d = ','
      · rw [if_pos hd, if_pos hd, toInt_ok (by omega), ok_bind]
        exact @ih (i + 2) (j + 1) { buf with cells := buf.cells.set j (if c = '0' then 0 else 1) }
          (by omega) (by omega) (by rw [List.length_set]; omega) hfree
      · rw [if_neg hd, if_neg hd]
        rfl

/-- **The parser's results.** The buffer decides nothing on a text shorter than 2^31. -/
theorem parse_returns {text : Str} (h : text.length < 2 ^ 31) :
    (parseBuffered text >>= fun r => returned r.2) = parseBitString text := by
  have hsize := rawStrSize_eq h
  rw [parseBuffered, parseBitString, hsize]
  by_cases hzero : (text.length + 1) / 2 = 0
  · rw [if_pos hzero, if_neg (by omega)]
    rfl
  · rw [if_neg hzero, if_pos (by omega), bind_assoc]
    exact bufferLoop_returned (Nat.mul_zero 2).symm (by omega)
      (by rw [HeapBuffer.calloc, List.length_replicate]; omega) rfl

/-! ## The printer -/

/-- `createBitStringArray`. -/
def createBitStringArray (bitStringSize : ℕ) : HeapBuffer Char := .calloc '\x00' (bitStringSize * 2)

/-- The loop of `setValueNodeFromMMS` from the bit `i` on. -/
def printLoop : ℕ → HeapBuffer Char → List Bool → Except Fault (HeapBuffer Char)
  | _, bitStrBuf, [] => .ok bitStrBuf
  | i, bitStrBuf, b :: bits => do
    let bitStrBuf ← bitStrBuf.write (← toInt (2 * i)) (bitDigit b)
    let bitStrBuf ← bitStrBuf.write (← toInt (2 * i + 1)) ','
    printLoop (i + 1) bitStrBuf bits

/-- The buffer that becomes the text of a bit string. -/
def printBits (bits : List Bool) : Except Fault (HeapBuffer Char) := do
  let bitStrBuf ← printLoop 0 (createBitStringArray bits.length) bits
  bitStrBuf.write ((← toInt (2 * bits.length)) - 1) '\x00'

/-- The printer's writes stay in the buffer, in which they leave a terminated string. -/
def PrintsSafely (bits : List Bool) : Prop :=
  ∃ buffer, printBits bits = .ok buffer ∧ buffer.cells.length = 2 * bits.length ∧
    '\x00' ∈ buffer.cells

/-- The digits, each with a comma. -/
def digitPairs (bits : List Bool) : Str := bits.flatMap fun b => [bitDigit b, ',']

@[simp] theorem length_digitPairs (bits : List Bool) :
    (digitPairs bits).length = 2 * bits.length := by
  rw [digitPairs, List.length_flatMap]
  simp
  omega

theorem set_pair {α : Type} (done rest : List α) (a b c d : α) :
    ((done ++ a :: b :: rest).set done.length c).set (done.length + 1) d = done ++ c ::
      d :: rest := by
  induction done with
  | nil => rfl
  | cons x done ih =>
    show x :: ((done ++ a :: b :: rest).set done.length c).set (done.length + 1) d = _
    rw [ih]
    rfl

/-- The buffer after `done` bits: their digits, then zeros for the others. -/
theorem printLoop_ok {done bits : List Bool} (h : 2 * (done.length + bits.length) < 2 ^ 31) :
    printLoop done.length { cells := digitPairs done ++ List.replicate (2 * bits.length) '\x00',
                            freed := false } bits =
      .ok { cells := digitPairs (done ++ bits), freed := false } := by
  induction bits generalizing done with
  | nil =>
    rw [printLoop, List.append_nil]
    simp
  | cons b bits ih =>
    rw [List.length_cons] at h
    have hcells : digitPairs done ++ List.replicate (2 * (b :: bits).length) '\x00' =
        digitPairs done ++ '\x00' :: '\x00' :: List.replicate (2 * bits.length) '\x00' := by
      rw [List.length_cons, show 2 * (bits.length + 1) = 2 * bits.length + 2 by omega]
      rfl
    have hset : ((digitPairs done ++ '\x00' :: '\x00' ::
        List.replicate (2 * bits.length) '\x00').set
        (2 * done.length) (bitDigit b)).set (2 * done.length + 1) ',' =
          digitPairs (done ++ [b]) ++ List.replicate (2 * bits.length) '\x00' := by
      rw [← length_digitPairs done, set_pair, digitPairs, digitPairs, List.flatMap_append,
        List.append_assoc]
      rfl
    have hrest := @ih (done ++ [b]) (by rw [List.length_append, List.length_singleton]; omega)
    rw [List.length_append, List.length_singleton, List.append_assoc, List.singleton_append,
      ← hset] at hrest
    rw [printLoop, toInt_ok (by omega), ok_bind, hcells, HeapBuffer.write_ok rfl (by simp), ok_bind,
      toInt_ok (by omega), ok_bind, HeapBuffer.write_ok rfl (by simp), ok_bind]
    exact hrest

theorem digitPairs_eq {bits : List Bool} (h : bits ≠ []) :
    digitPairs bits = bitText bits ++ [','] := by
  induction bits with
  | nil => exact absurd rfl h
  | cons b bits ih =>
    cases bits with
    | nil => rfl
    | cons c bits =>
      rw [digitPairs, List.flatMap_cons, ← digitPairs, ih (by simp), bitText_cons_cons]
      rfl

/-- **The printed text.** The buffer holds the text of the bits and the byte that ends it. -/
theorem printBits_ok {bits : List Bool} (hne : bits ≠ []) (hint : 2 * bits.length < 2 ^ 31) :
    printBits bits = .ok { cells := bitText bits ++ ['\x00'], freed := false } := by
  have hpos : 0 < bits.length := List.length_pos_of_ne_nil hne
  have hloop := @printLoop_ok [] bits (by rw [List.length_nil]; omega)
  have hlen : (bitText bits).length + 1 = 2 * bits.length := by
    rw [← length_digitPairs, digitPairs_eq hne, List.length_append, List.length_singleton]
  have hlast : ((2 * bits.length : ℕ) : ℤ) - 1 = ((bitText bits).length : ℕ) := by omega
  have hinit : createBitStringArray bits.length =
      { cells := digitPairs [] ++ List.replicate (2 * bits.length) '\x00', freed := false } := by
    rw [createBitStringArray, HeapBuffer.calloc, Nat.mul_comm]
    rfl
  rw [printBits, hinit, show (0 : ℕ) = ([] : List Bool).length by rfl, hloop, ok_bind,
    toInt_ok hint, ok_bind, hlast, List.nil_append, digitPairs_eq hne,
    HeapBuffer.write_ok rfl (by simp)]
  congr 2
  simp

theorem printsSafely_iff (bits : List Bool) :
    PrintsSafely bits ↔ 0 < bits.length ∧ 2 * bits.length < 2 ^ 31 := by
  constructor
  · rintro ⟨buffer, hrun, -, -⟩
    obtain ⟨looped, hloop, hrun⟩ := bind_eq_ok.1 hrun
    obtain ⟨n, hn, hrun⟩ := bind_eq_ok.1 hrun
    have hint : 2 * bits.length < 2 ^ 31 := by
      by_contra hge
      rw [toInt_error (by omega)] at hn
      cases hn
    refine ⟨List.length_pos_of_ne_nil ?_, hint⟩
    rintro rfl
    -- the index is -1
    cases hloop
    cases hn
    cases hrun
  · rintro ⟨hpos, hint⟩
    have hne : bits ≠ [] := List.ne_nil_of_length_pos hpos
    refine ⟨_, printBits_ok hne hint, ?_, by simp⟩
    rw [List.length_append, List.length_singleton, ← length_digitPairs, digitPairs_eq hne,
      List.length_append, List.length_singleton]

/-- **The buffers.** The parser handles the texts that it refuses and those for which it
allocates nothing; the printer handles the bit strings with a bit whose doubled size is
an `int`. -/
theorem bitBuffers_safe_iff (text : Str) (bits : List Bool) :
    (ParsesSafely text ↔ rawStrSize text ≤ 0 ∨ Refused text) ∧
    (PrintsSafely bits ↔ 0 < bits.length ∧ 2 * bits.length < 2 ^ 31) :=
  ⟨parsesSafely_iff text, printsSafely_iff bits⟩

/-- The buffer of `0` is never freed, and the byte in front of the empty bit string's
buffer is written. -/
theorem zero_leaks_empty_underflows : ¬ ParsesSafely "0".toList ∧ ¬ PrintsSafely [] := by
  constructor
  · rw [parsesSafely_iff]
    rintro (hsize | ⟨i, -, hat, -⟩)
    · have hlen : "0".toList.length = 1 := rfl
      rw [rawStrSize_eq (by omega), hlen] at hsize
      exact absurd hsize (by norm_num)
    · exact absurd (refusedAt_singleton.1 hat).2 (by decide)
  · rintro ⟨buffer, hrun, -⟩
    cases hrun

end DslinkIec61850
