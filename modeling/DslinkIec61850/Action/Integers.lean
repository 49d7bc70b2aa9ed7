import DslinkIec61850.Action.DataAttribute
import DslinkIec61850.Value.BerInteger

/-!
# Integers read and written

A value of an integer attribute is published as a 64-bit number; a JSON integer
is written by way of a `double` as a 32-bit number (client_handler.c:342–350,
511–543). Numbers from `2⁶³` on are published as 0, and the conversion of a
`double` outside the range of the 32-bit type is undefined.

* `integers_readWrite_iff`: the numbers that keep their value on both ways.
-/

namespace DslinkIec61850

open DSLink

/-- The types of integer attributes. -/
inductive IntegerType where
  | integer | unsigned
  deriving DecidableEq, Repr

namespace IntegerType

/-- The MMS type. -/
def mmsType : IntegerType → MmsType
  | integer => .integer
  | unsigned => .unsigned

/-- A value of the type. -/
def mmsValue : IntegerType → BerInteger → MmsValue
  | integer, v => .integer v
  | unsigned, v => .unsigned v

/-- The values of an attribute of 64 bits. -/
def InRange : IntegerType → ℤ → Prop
  | integer, v => -2 ^ 63 ≤ v ∧ v < 2 ^ 63
  | unsigned, v => 0 ≤ v ∧ v < 2 ^ 64

/-- The values of the C type that a parameter is cast to. -/
def Writable : IntegerType → ℤ → Prop
  | integer, n => -2 ^ 31 ≤ n ∧ n < 2 ^ 31
  | unsigned, n => 0 ≤ n ∧ n < 2 ^ 32

end IntegerType

/-! ## Reading -/

/-- The number that is published. -/
theorem shownValue_encodes {type : IntegerType} {b : BerInteger} {v : ℤ} (h : b.Encodes v) :
    shownValue (type.mmsValue b) =
      .ok (some (some (.integer (if -2 ^ 63 ≤ v ∧ v < 2 ^ 63 then v else 0)))) := by
  rw [← h.toInt64_eq]
  cases type <;> rfl

theorem shownValue_eq_iff {type : IntegerType} {b : BerInteger} {v : ℤ} (h : b.Encodes v)
    (hrange : type.InRange v) :
    shownValue (type.mmsValue b) = .ok (some (some (.integer v))) ↔ v < 2 ^ 63 := by
  have hlo : -2 ^ 63 ≤ v := by
    cases type with
    | integer => exact hrange.1
    | unsigned => exact le_trans (by norm_num) hrange.1
  rw [shownValue_encodes h]
  simp only [Except.ok.injEq, Option.some.injEq, Json.integer.injEq]
  split_ifs with hfits
  · exact iff_of_true rfl hfits.2
  · have hlarge : ¬ v < 2 ^ 63 := fun hlt => hfits ⟨hlo, hlt⟩
    constructor
    · intro h0
      omega
    · intro hlt
      exact absurd hlt hlarge

/-! ## Writing -/

/-- The value made of a JSON integer. -/
theorem valueToWrite_integer (type : IntegerType) (n : ℤ) :
    (type.Writable n → ∃ b,
      valueToWrite (some (.integer n)) type.mmsType = .ok (some (type.mmsValue b)) ∧ b.value = n) ∧
    (¬ type.Writable n →
      valueToWrite (some (.integer n)) type.mmsType = .error .badConversion) := by
  cases type with
  | integer =>
    simp only [valueToWrite, IntegerType.mmsType, IntegerType.Writable]
    rw [Json.castDouble_integer (by norm_num) (by norm_num)]
    constructor
    · rintro ⟨hlo, hhi⟩
      rw [if_pos ⟨hlo, by omega⟩]
      exact ⟨_, rfl, BerInteger.value_setInt32 hlo hhi⟩
    · intro hout
      rw [if_neg (by omega)]
      rfl
  | unsigned =>
    simp only [valueToWrite, IntegerType.mmsType, IntegerType.Writable]
    rw [Json.castDouble_integer (by norm_num) (by norm_num)]
    constructor
    · rintro ⟨hlo, hhi⟩
      rw [if_pos ⟨hlo, by omega⟩]
      refine ⟨_, rfl, ?_⟩
      rw [BerInteger.value_setUint32 (by omega)]
      omega
    · intro hout
      rw [if_neg (by omega)]
      rfl

variable {σ W : Type} [DSLink σ] {svc : IedService W} {s : LinkState σ W} {node : Path}
  {con : ConnId} {ref : Str} {fc : FunctionalConstraint}

/-- The parameter with a JSON integer. -/
def integerParam (n : ℤ) : Json := .object [("Value".toList, .integer n)]

/-- The write phase, given a JSON integer for an integer attribute, runs to its end
and sends nothing or that number. -/
def SendsInteger (svc : IedService W) (s : LinkState σ W) (node : Path) (type : IntegerType)
    (n : ℤ) : Prop :=
  ∃ s' readBack, writeAttribute svc s node (integerParam n) = .ok (s', readBack) ∧
    (s'.requests = s.requests ∨
      ∃ con ref fc b, s'.requests = s.requests ++ [(con, .writeObject ref fc (type.mmsValue b))] ∧
        b.value = n)

/-- A write phase ends as soon as the value can be made. -/
theorem writeAttribute_ends {type : MmsType} (h : WritesTo svc s node con ref fc type)
    {params : Json}
    {v : Option MmsValue} (hv : valueToWrite (params.objectGet "Value".toList) type = .ok v) :
    ∃ s' readBack, writeAttribute svc s node params = .ok (s', readBack) ∧
      s'.requests = s.requests ++ (v.map fun v => (con, Request.writeObject ref fc v)).toList := by
  have hreq := writeAttribute_eq h params
  rw [hv] at hreq
  cases hrun : writeAttribute svc s node params with
  | error e =>
    rw [hrun] at hreq
    cases hreq
  | ok r =>
    rw [hrun] at hreq
    exact ⟨r.1, r.2, rfl, Except.ok.inj hreq⟩

theorem writeAttribute_fails {type : MmsType} (h : WritesTo svc s node con ref fc type)
    {params : Json}
    {e : Fault} (hv : valueToWrite (params.objectGet "Value".toList) type = .error e) :
    writeAttribute svc s node params = .error e := by
  have hreq := writeAttribute_eq h params
  rw [hv] at hreq
  cases hrun : writeAttribute svc s node params with
  | error e' =>
    rw [hrun] at hreq
    cases hreq
    rfl
  | ok r =>
    rw [hrun] at hreq
    cases hreq

theorem sendsInteger_iff {type : IntegerType} (h : WritesTo svc s node con ref fc type.mmsType)
    (n : ℤ) : SendsInteger svc s node type n ↔ type.Writable n := by
  have hparam : (integerParam n).objectGet "Value".toList = some (.integer n) := by
    simp [integerParam, Json.objectGet]
  obtain ⟨hin, hout⟩ := valueToWrite_integer type n
  constructor
  · rintro ⟨s', readBack, hrun, -⟩
    by_contra hnot
    rw [writeAttribute_fails h (hparam ▸ hout hnot)] at hrun
    cases hrun
  · intro hwritable
    obtain ⟨b, hb, hvalue⟩ := hin hwritable
    obtain ⟨s', readBack, hrun, hreq⟩ := writeAttribute_ends h (hparam ▸ hb)
    exact ⟨s', readBack, hrun, .inr ⟨con, ref, fc, b, hreq, hvalue⟩⟩

/-- **Integers.** A value of an attribute of up to 64 bits is published as itself
exactly when it is below `2⁶³`, and a JSON integer given to a write is sent as
itself exactly when the 32-bit type of the attribute holds it. -/
theorem integers_readWrite_iff {type : IntegerType}
    (h : WritesTo svc s node con ref fc type.mmsType) :
    (∀ (b : BerInteger) (v : ℤ), b.Encodes v → type.InRange v →
      (shownValue (type.mmsValue b) = .ok (some (some (.integer v))) ↔ v < 2 ^ 63)) ∧
    ∀ n : ℤ, -2 ^ 63 ≤ n → n < 2 ^ 63 → (SendsInteger svc s node type n ↔ type.Writable n) := by
  constructor
  · intro b v hb hv
    exact shownValue_eq_iff hb hv
  · intro n _ _
    exact sendsInteger_iff h n

/-! ## An attribute of any type -/

/-- A server that tells the type of the attribute. -/
def serviceOfType (type : MmsType) : IedService Unit :=
  { IedService.silent Unit with getVariableSpecification := fun w _ _ _ => (some type, w) }

theorem serviceOfType_writesTo (type : MmsType) :
    WritesTo (serviceOfType type) timeState timeWriteNode 0 "D/L.O.t".toList .CF type where
  daNode := ⟨"CF".toList, rfl, rfl⟩
  connection := rfl
  spec := rfl

theorem integers_readWrite_iff_unsigned :
    (∀ (b : BerInteger) (v : ℤ), b.Encodes v → IntegerType.unsigned.InRange v →
      (shownValue (.unsigned b) = .ok (some (some (.integer v))) ↔ v < 2 ^ 63)) ∧
    ∀ n : ℤ, -2 ^ 63 ≤ n → n < 2 ^ 63 →
      (SendsInteger (serviceOfType .unsigned) timeState timeWriteNode .unsigned n ↔
        IntegerType.unsigned.Writable n) :=
  integers_readWrite_iff (serviceOfType_writesTo .unsigned)

/-- `2⁶³` on nine octets. -/
def twoPow63 : BerInteger := { octets := [0, 128, 0, 0, 0, 0, 0, 0, 0], maxSize := 9 }

theorem twoPow63_encodes : twoPow63.Encodes (2 ^ 63) where
  octets_ok := by
    unfold Octets
    decide
  ne_nil := by decide
  shortest := by
    unfold BerInteger.Shortest
    decide
  value_eq := by decide

/-- The unsigned number `2⁶³` is published as 0, and `2³¹` written to an integer
attribute is converted outside the range of its type. -/
theorem integers_counterexample :
    (twoPow63.Encodes (2 ^ 63) ∧ IntegerType.unsigned.InRange (2 ^ 63) ∧
      shownValue (.unsigned twoPow63) = .ok (some (some (.integer 0)))) ∧
    writeAttribute (serviceOfType .integer) timeState timeWriteNode (integerParam (2 ^ 31)) =
      .error .badConversion := by
  refine ⟨⟨twoPow63_encodes, by norm_num [IntegerType.InRange], rfl⟩, ?_⟩
  apply writeAttribute_fails (serviceOfType_writesTo .integer)
  exact (valueToWrite_integer .integer (2 ^ 31)).2 (by norm_num [IntegerType.Writable])

end DslinkIec61850
