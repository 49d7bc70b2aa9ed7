import DslinkIec61850.Value.Json
import DslinkIec61850.Lib.Floating
import DslinkIec61850.Lib.Keyed

/-!
# MMS values

The part of libiec61850's `MmsValue` (mms_value.c) that the link builds, prints
and updates: integers as BER octets (ber_integer.c), floating point values of 32
or 64 bits, UTC times as their eight bytes, strings that may be `NULL`.

* `toFloat_newFloat`: a `float` is what it was made of in single precision.
* `getUtcTimeInMs_newUtcTimeByMsTime`: a millisecond count below `2³²` seconds
  survives the 24-bit fraction.
-/

namespace DslinkIec61850

/-- `MmsType` (mms_common.h). -/
inductive MmsType where
  | array | struct | boolean | bitString | integer | unsigned | float | octetString
  | visibleString | generalizedTime | binaryTime | bcd | objId | string | utcTime
  | dataAccessError
  deriving DecidableEq, Repr

namespace MmsType

/-- `getMmsTypeString` (iec61850_server_defs.c:101–106) on a type of the enumeration. -/
def typeString : MmsType → Str
  | array => "MMS_ARRAY".toList
  | struct => "MMS_STRUCTURE".toList
  | boolean => "MMS_BOOLEAN".toList
  | bitString => "MMS_BIT_STRING".toList
  | integer => "MMS_INTEGER".toList
  | unsigned => "MMS_UNSIGNED".toList
  | float => "MMS_FLOAT".toList
  | octetString => "MMS_OCTET_STRING".toList
  | visibleString => "MMS_VISIBLE_STRING".toList
  | generalizedTime => "MMS_GENERALIZED_TIME".toList
  | binaryTime => "MMS_BINARY_TIME".toList
  | bcd => "MMS_BCD".toList
  | objId => "MMS_OBJ_ID".toList
  | string => "MMS_STRING".toList
  | utcTime => "MMS_UTC_TIME".toList
  | dataAccessError => "MMS_DATA_ACCESS_ERROR".toList

/-- `isMmsTypeFromString` (iec61850_server_defs.c:108–114). -/
def isMmsTypeFromString (mmsTypeStr : Str) (type : MmsType) : Bool := mmsTypeStr == type.typeString

end MmsType

/-! ## Big-endian octets -/

/-- The unsigned number of a list of octets, most significant first. -/
def octetsValue (octets : List ℕ) : ℕ := octets.foldl (fun acc b => 256 * acc + b) 0

/-- The `w` octets of `v`, most significant first. -/
def toOctets : ℕ → ℕ → List ℕ
  | 0, _ => []
  | w + 1, v => v / 256 ^ w % 256 :: toOctets w v

@[simp] theorem length_toOctets (w v : ℕ) : (toOctets w v).length = w := by
  induction w with
  | zero => rfl
  | succ w ih => simp [toOctets, ih]

theorem foldl_toOctets (w v acc : ℕ) :
    (toOctets w v).foldl (fun acc b => 256 * acc + b) acc = acc * 256 ^ w + v % 256 ^ w := by
  induction w generalizing acc with
  | zero => simp [toOctets, Nat.mod_one]
  | succ w ih => rw [toOctets, List.foldl_cons, ih, pow_succ, Nat.mod_mul]; ring

theorem octetsValue_toOctets {w v : ℕ} (h : v < 256 ^ w) : octetsValue (toOctets w v) = v := by
  rw [octetsValue, foldl_toOctets, Nat.mod_eq_of_lt h]; ring

/-! ## BER integers -/

/-- `Asn1PrimitiveValue` of an integer: the octets in use and the allocated size. -/
structure BerInteger where
  octets : List ℕ
  maxSize : ℕ
  deriving DecidableEq, Repr

namespace BerInteger

/-- `BerEncoder_compressInteger`: drops a leading octet that only repeats the sign. -/
def compress : List ℕ → List ℕ
  | a :: b :: rest =>
    if (a = 0 ∧ b < 128) ∨ (a = 255 ∧ 128 ≤ b) then compress (b :: rest) else a :: b :: rest
  | octets => octets

/-- `setIntegerValue` (ber_integer.c:28–47). -/
def setIntegerValue (self : BerInteger) (buffer : List ℕ) : BerInteger :=
  if (compress buffer).length ≤ self.maxSize then { self with octets := compress buffer } else self

/-- `BerInteger_createInt32`. -/
def createInt32 : BerInteger := { octets := [], maxSize := 5 }

/-- `BerInteger_setInt32`; `value` is an `int32_t`. -/
def setInt32 (self : BerInteger) (value : ℤ) : BerInteger :=
  self.setIntegerValue (toOctets 4 (value % 2 ^ 32).toNat)

/-- `BerInteger_setUint32`; `value` is a `uint32_t`. -/
def setUint32 (self : BerInteger) (value : ℕ) : BerInteger :=
  self.setIntegerValue (0 :: toOctets 4 value)

/-- `BerInteger_setFromBerInteger`. -/
def setFromBerInteger (self value : BerInteger) : BerInteger :=
  if value.octets.length ≤ self.maxSize then { self with octets := value.octets } else self

/-- The two's complement value of the octets. -/
def value (self : BerInteger) : ℤ :=
  if 128 ≤ self.octets.headD 0 then octetsValue self.octets - 256 ^ self.octets.length
  else octetsValue self.octets

/-- `BerInteger_toInt64`; more than eight octets leave the 0 of `MmsValue_toInt64`. -/
def toInt64 (self : BerInteger) : ℤ := if self.octets.length < 9 then self.value else 0

/-- `BerInteger_toUint32`; more than five octets leave the 0 of `MmsValue_toUint32`. -/
def toUint32 (self : BerInteger) : ℕ :=
  if self.octets.length < 6 then octetsValue self.octets % 2 ^ 32 else 0

end BerInteger

/-! ## Values -/

/-- The eight octets of an MMS UTC time: seconds, 24-bit fraction, quality. -/
structure UtcTime where
  octets : List ℕ
  length_eq : octets.length = 8
  octet_lt : ∀ b ∈ octets, b < 256

/-- The floating point value of an `MmsValue`. The value that is received in other than five or
nine octets has neither a width nor a buffer (mms_client_read.c:127–157). -/
inductive MmsFloat where
  | none
  | float32 (v : Floating.Value) (holds : Floating.single.Holds v)
  | float64 (v : Floating.Value) (holds : Floating.double.Holds v)

namespace MmsFloat

/-- `formatWidth`. -/
def formatWidth : MmsFloat → ℕ
  | none => 0
  | float32 _ _ => 32
  | float64 _ _ => 64

/-- `MmsValue_newFloat` (mms_value.c:489–505) on a `double`, which the call makes a `float`. -/
def newFloat (v : Floating.Value) : MmsFloat :=
  float32 (Floating.single.convert v) (Floating.single.holds_convert v)

/-- `MmsValue_toFloat` (mms_value.c:868–888); a 64-bit value is narrowed. -/
def toFloat : MmsFloat → Floating.Value
  | none => .finite 0
  | float32 v _ => v
  | float64 v _ => Floating.single.convert v

@[simp] theorem toFloat_newFloat (v : Floating.Value) :
    (newFloat v).toFloat = Floating.single.convert v := rfl

/-- The `float` is a value of 32 bits. -/
theorem holds_toFloat (self : MmsFloat) : Floating.single.Holds self.toFloat := by
  cases self with
  | none =>
    exact Floating.Format.holds_finite.2
      ⟨⟨0, 0, by decide, by decide, by simp⟩, by norm_num [Floating.single]⟩
  | float32 v holds => exact holds
  | float64 v holds => exact Floating.single.holds_convert v

/-- What is shown of a finite value is as near as a value of 32 bits can be. -/
theorem toFloat_nearest {r : ℚ} {holds : Floating.double.Holds (.finite r)} {r' : ℚ}
    (h : (float64 (.finite r) holds).toFloat = .finite r') {y : ℚ} (hy : Floating.single.Grid y) :
    |r - r'| ≤ |r - y| := by
  unfold toFloat Floating.Format.convert Floating.Format.ofRat at h
  dsimp only at h
  split_ifs at h
  cases h
  exact Floating.single.abs_sub_nearest_le r hy

/-- A value of 64 bits that has 32 is not changed. -/
theorem toFloat_of_holds {v : Floating.Value} {holds : Floating.double.Holds v}
    (h : Floating.single.Holds v) : (float64 v holds).toFloat = v :=
  Floating.single.convert_of_holds h

end MmsFloat

/-- `MmsValue`. The types that the link neither prints nor writes keep their
octets only. -/
inductive MmsValue where
  | array (elements : List MmsValue)
  | struct (components : List MmsValue)
  | boolean (b : Bool)
  | bitString (bits : List Bool)
  | integer (v : BerInteger)
  | unsigned (v : BerInteger)
  | float (v : MmsFloat)
  | visibleString (buf : Option Str)
  | string (buf : Option Str)
  | utcTime (v : UtcTime)
  | octetString (octets : List ℕ) (maxSize : ℕ)
  | binaryTime (octets : List ℕ)
  | other (type : MmsType) (octets : List ℕ)

namespace MmsValue

/-- `MmsValue_toUint32`. -/
def toUint32 : MmsValue → ℕ
  | integer v => v.toUint32
  | unsigned v => v.toUint32
  | _ => 0

/-- `MmsValue_toString`: the buffer of a string, which may be `NULL`. -/
def toString : MmsValue → Option Str
  | visibleString buf => buf
  | string buf => buf
  | _ => none

/-- `MmsValue_getBoolean` on a value that was read as a boolean. -/
def getBoolean : MmsValue → Bool
  | boolean b => b
  | _ => false

/-- `setVisibleStringValue` (mms_value.c:1470–1497): a `NULL` text empties the
buffer, a value without a buffer stays as it is. -/
def setVisibleStringValue (buf : Option Str) (text : Option Str) : Option Str :=
  buf.map fun _ => text.getD []

/-- `MmsValue_setVisibleString`. -/
def setVisibleString (self : MmsValue) (text : Option Str) : MmsValue :=
  match self with
  | visibleString buf => visibleString (setVisibleStringValue buf text)
  | v => v

/-- `MmsValue_setBoolean`. -/
def setBoolean (self : MmsValue) (b : Bool) : MmsValue :=
  match self with
  | boolean _ => boolean b
  | v => v

/-- `MmsValue_setUint32`; `v` is a `uint32_t`. -/
def setUint32 (self : MmsValue) (v : ℕ) : MmsValue :=
  match self with
  | unsigned old => if 4 ≤ old.maxSize then unsigned (old.setUint32 v) else unsigned old
  | w => w

/-- `MmsValue_newUnsignedFromUint32`. -/
def newUnsignedFromUint32 (v : ℕ) : MmsValue := unsigned (BerInteger.createInt32.setUint32 v)

/-- `MmsValue_setInt32` on `MmsValue_newInteger(32)`. -/
def newInteger32 (v : ℤ) : MmsValue := integer (BerInteger.createInt32.setInt32 v)

/-- The number of a bit string: bit `i` counts `2 ^ i`. -/
def bitsValue : List Bool → ℕ
  | [] => 0
  | b :: bits => b.toNat + 2 * bitsValue bits

/-- The loop of `MmsValue_getBitStringAsInteger` (mms_value.c:423–436) from the bit
`bitPos` on; `1 << bitPos` has to be an `int`. -/
def bitStringLoop (value : ℕ) : ℕ → List Bool → Except Fault ℕ
  | _, [] => .ok value
  | bitPos, false :: bits => bitStringLoop value (bitPos + 1) bits
  | bitPos, true :: bits =>
    if bitPos < 31 then bitStringLoop ((value + 2 ^ bitPos) % 2 ^ 32) (bitPos + 1) bits
    else .error .outOfBounds

/-- `MmsValue_getBitStringAsInteger`. -/
def getBitStringAsInteger (bits : List Bool) : Except Fault ℕ := bitStringLoop 0 0 bits

/-- `MmsValue_setBitStringFromInteger`. -/
def bitsOf : ℕ → ℕ → List Bool
  | 0, _ => []
  | n + 1, v => (v % 2 == 1) :: bitsOf n (v / 2)

@[simp] theorem length_bitsOf (n v : ℕ) : (bitsOf n v).length = n := by
  induction n generalizing v with
  | zero => rfl
  | succ n ih => rw [bitsOf, List.length_cons, ih]

theorem bitsValue_lt (bits : List Bool) : bitsValue bits < 2 ^ bits.length := by
  induction bits with
  | nil => simp [bitsValue]
  | cons b bits ih =>
    rw [bitsValue, List.length_cons, pow_succ]
    cases b
    · simp only [Bool.toNat_false]
      omega
    · simp only [Bool.toNat_true]
      omega

/-- No bit from the index 31 on is set. -/
def BitsFit (bits : List Bool) : Prop := true ∉ bits.drop 31

instance (bits : List Bool) : Decidable (BitsFit bits) := inferInstanceAs (Decidable (¬ _))

/-- By induction on the bits that are left; `value` has the bits before `bitPos`. -/
theorem bitStringLoop_eq {bits : List Bool} {value bitPos : ℕ} (hvalue : value < 2 ^ bitPos)
    (hpos : value < 2 ^ 31) :
    bitStringLoop value bitPos bits =
      if true ∉ bits.drop (31 - bitPos) then .ok (value + 2 ^ bitPos * bitsValue bits)
      else .error .outOfBounds := by
  induction bits generalizing value bitPos with
  | nil => simp [bitStringLoop, bitsValue]
  | cons b bits ih =>
    have hrest (hlt : bitPos < 31) :
        (b :: bits).drop (31 - bitPos) = bits.drop (31 - (bitPos + 1)) := by
      rw [show 31 - bitPos = 31 - (bitPos + 1) + 1 by omega, List.drop_succ_cons]
    have hover (hle : 31 ≤ bitPos) :
        (b :: bits).drop (31 - bitPos) = b :: bits.drop (31 - (bitPos + 1)) := by
      rw [show 31 - bitPos = 0 by omega, show 31 - (bitPos + 1) = 0 by omega]
      rfl
    cases b with
    | false =>
      have hmem : true ∉ (false :: bits).drop (31 - bitPos) ↔
          true ∉ bits.drop (31 - (bitPos + 1)) := by
        by_cases hlt : bitPos < 31
        · rw [hrest hlt]
        · rw [hover (by omega), List.mem_cons]
          simp
      rw [bitStringLoop, ih (by rw [pow_succ]; omega) hpos]
      simp only [hmem, bitsValue, Bool.toNat_false, zero_add]
      rw [pow_succ, mul_assoc]
    | true =>
      rw [bitStringLoop]
      by_cases hlt : bitPos < 31
      · have hle : 2 ^ (bitPos + 1) ≤ 2 ^ 31 := Nat.pow_le_pow_right (by norm_num) (by omega)
        have hsum : value + 2 ^ bitPos < 2 ^ (bitPos + 1) := by
          rw [pow_succ]
          omega
        have hmod : (value + 2 ^ bitPos) % 2 ^ 32 = value + 2 ^ bitPos :=
          Nat.mod_eq_of_lt (by omega)
        rw [if_pos hlt, hmod, ih hsum (by omega), hrest hlt]
        simp only [bitsValue, Bool.toNat_true]
        rw [mul_add, mul_one, pow_succ, mul_assoc, add_assoc]
      · rw [if_neg hlt, hover (by omega), if_neg]
        simp

theorem getBitStringAsInteger_eq (bits : List Bool) :
    getBitStringAsInteger bits =
      if BitsFit bits then .ok (bitsValue bits) else .error .outOfBounds := by
  have hloop := @bitStringLoop_eq bits 0 0 (by norm_num) (by norm_num)
  rw [zero_add, pow_zero, one_mul] at hloop
  exact hloop

theorem getBitStringAsInteger_ok {bits : List Bool} (h : BitsFit bits) :
    getBitStringAsInteger bits = .ok (bitsValue bits) := by
  rw [getBitStringAsInteger_eq, if_pos h]

/-- A short bit string has no bit from the index 31 on. -/
theorem bitsFit_of_length_le {bits : List Bool} (h : bits.length ≤ 31) : BitsFit bits := by
  rw [BitsFit, List.drop_eq_nil_of_le h]
  simp

/-- The bits of a number that fits are the number. -/
theorem bitsValue_bitsOf {n v : ℕ} (h : v < 2 ^ n) : bitsValue (bitsOf n v) = v := by
  induction n generalizing v with
  | zero =>
    have hv : v = 0 := by simpa using h
    rw [hv]
    rfl
  | succ n ih =>
    rw [pow_succ] at h
    rw [bitsOf, bitsValue, ih (by omega)]
    rcases Nat.mod_two_eq_zero_or_one v with hv | hv
    · rw [hv]
      simp only [show ((0 : ℕ) == 1) = false by rfl, Bool.toNat_false]
      omega
    · rw [hv]
      simp only [show ((1 : ℕ) == 1) = true by rfl, Bool.toNat_true]
      omega

/-- `MmsValue_getBitStringBit`: bits beyond the end are zero. -/
def getBitStringBit : MmsValue → ℕ → Bool
  | bitString bits, i => bits.getD i false
  | _, _ => false

mutual

/-- `MmsValue_update` (mms_value.c): the value after the update, which is the
old one when the types or the sizes do not match. -/
def update : MmsValue → MmsValue → MmsValue
  | array old, array new => array (updateComponents old new)
  | struct old, struct new => struct (updateComponents old new)
  | boolean _, boolean b => boolean b
  | float old, float new => if old.formatWidth = new.formatWidth then float new else float old
  | integer old, integer new => integer (old.setFromBerInteger new)
  | unsigned old, unsigned new => unsigned (old.setFromBerInteger new)
  | utcTime _, utcTime v => utcTime v
  | bitString old, bitString new =>
    if old.length = new.length then bitString new else bitString old
  | octetString old m, octetString new m' =>
    if m = m' then octetString new m else octetString old m
  | visibleString old, visibleString new => visibleString (setVisibleStringValue old new)
  | string old, string new => string (setVisibleStringValue old new)
  | binaryTime _, binaryTime v => binaryTime v
  | old, _ => old

/-- `updateStructuredComponent` (mms_value.c:50–65). -/
def updateComponents : List MmsValue → List MmsValue → List MmsValue
  | old :: olds, new :: news => update old new :: updateComponents olds news
  | olds, _ => olds

end

mutual

/-- `MmsValue_update` takes the new value over: the types are the same, and so are the sizes
that it compares; a string has a buffer on both sides. -/
def Takes : MmsValue → MmsValue → Prop
  | array old, array new => TakesComponents old new
  | struct old, struct new => TakesComponents old new
  | boolean _, boolean _ => True
  | float old, float new => old.formatWidth = new.formatWidth
  | integer old, integer new => new.octets.length ≤ old.maxSize
  | unsigned old, unsigned new => new.octets.length ≤ old.maxSize
  | utcTime _, utcTime _ => True
  | bitString old, bitString new => old.length = new.length
  | octetString _ m, octetString _ m' => m = m'
  | visibleString old, visibleString new => old.isSome ∧ new.isSome
  | string old, string new => old.isSome ∧ new.isSome
  | binaryTime _, binaryTime _ => True
  | _, _ => False

/-- `Takes` for all components. -/
def TakesComponents : List MmsValue → List MmsValue → Prop
  | old :: olds, new :: news => Takes old new ∧ TakesComponents olds news
  | [], [] => True
  | _, _ => False

end

/-- `MmsValue_setUtcTimeMs` (mms_value.c:677–702) on a `uint64_t`. -/
def utcTimeOctets (timeval : ℕ) : List ℕ :=
  let timeval32 := timeval / 1000 % 2 ^ 32
  let remainder := timeval % 1000
  let fractionOfSecond := remainder * 16777 + remainder * 216 / 1000
  toOctets 4 timeval32 ++ toOctets 3 fractionOfSecond ++ [0x0a]

theorem toOctets_lt {w v b : ℕ} (h : b ∈ toOctets w v) : b < 256 := by
  induction w with
  | zero => simp [toOctets] at h
  | succ w ih =>
    rw [toOctets, List.mem_cons] at h
    rcases h with rfl | h
    · exact Nat.mod_lt _ (by norm_num)
    · exact ih h

/-- `MmsValue_newUtcTimeByMsTime` (mms_value.c:1785–1797). -/
def newUtcTimeByMsTime (timeval : ℕ) : UtcTime where
  octets := utcTimeOctets timeval
  length_eq := by simp [utcTimeOctets]
  octet_lt := by
    intro b hb
    simp only [utcTimeOctets, List.mem_append, List.mem_singleton] at hb
    rcases hb with (hb | hb) | rfl
    · exact toOctets_lt hb
    · exact toOctets_lt hb
    · norm_num

/-- `MmsValue_getUtcTimeInMs` (mms_value.c:733–756). -/
def getUtcTimeInMs (self : UtcTime) : ℕ :=
  let timeval32 := octetsValue (self.octets.take 4)
  let fractionOfSecond := octetsValue ((self.octets.drop 4).take 3)
  timeval32 * 1000 + fractionOfSecond / 16777

/-- The 24-bit fraction of a millisecond decodes to that millisecond. -/
theorem fraction_decode {r : ℕ} (h : r < 1000) : (r * 16777 + r * 216 / 1000) / 16777 = r := by
  have hsmall : r * 216 / 1000 < 16777 := by omega
  omega

/-- Encoding and decoding a time below `2³²` seconds. -/
theorem getUtcTimeInMs_newUtcTimeByMsTime {ms : ℕ} (h : ms < 2 ^ 32 * 1000) :
    getUtcTimeInMs (newUtcTimeByMsTime ms) = ms := by
  have hsec : ms / 1000 < 2 ^ 32 := by omega
  have hfrac : ms % 1000 * 16777 + ms % 1000 * 216 / 1000 < 256 ^ 3 := by omega
  have hlen4 : (toOctets 4 (ms / 1000)).length = 4 := length_toOctets _ _
  have hlen3 (v : ℕ) : (toOctets 3 v).length = 3 := length_toOctets _ _
  simp only [getUtcTimeInMs, newUtcTimeByMsTime, utcTimeOctets, Nat.mod_eq_of_lt hsec,
    List.append_assoc]
  rw [List.take_append_of_le_length (by rw [hlen4]), List.take_of_length_le (by rw [hlen4]),
    List.drop_append_of_le_length (by rw [hlen4]), List.drop_of_length_le (by rw [hlen4]),
    List.nil_append, List.take_append_of_le_length (by rw [hlen3]),
    List.take_of_length_le (by rw [hlen3]), octetsValue_toOctets hsec, octetsValue_toOctets hfrac,
    fraction_decode (Nat.mod_lt _ (by norm_num))]
  omega

end MmsValue

end DslinkIec61850
