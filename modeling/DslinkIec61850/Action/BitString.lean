import DslinkIec61850.Action.Integers
import DslinkIec61850.Lib.Run

/-!
# Bit strings written

The text of a bit string is the list of its bits with commas in between.
`parseBitString` refuses every `1`, stores any other character as a bit, compares
the number of bits with one more than it stored and keeps the buffer to itself
(iec61850_server_defs.c:184–216), so that no text is ever sent.

* `parseBitString_eq`: its result on every text.
* `bitString_write_iff`: the texts for which the write does what the text says.
-/

namespace DslinkIec61850

open DSLink

/-! ## The text of a bit string -/

/-- The character of a bit. -/
def bitDigit (b : Bool) : Char := if b then '1' else '0'

/-- The bits with commas in between. -/
def bitText : List Bool → Str
  | [] => []
  | [b] => [bitDigit b]
  | b :: bits => bitDigit b :: ',' :: bitText bits

/-- The text is a list of one bit or more. -/
def SpellsBits (text : Str) (bits : List Bool) : Prop := bits ≠ [] ∧ text = bitText bits

theorem bitText_cons_cons (b c : Bool) (bits : List Bool) :
    bitText (b :: c :: bits) = bitDigit b :: ',' :: bitText (c :: bits) := rfl

/-- The published text of a bit string spells it. -/
theorem bitStringText_eq {bits : List Bool} (h : bits ≠ []) :
    bitStringText bits = .ok (bitText bits) := by
  rw [bitStringText, if_neg h]
  congr 1
  induction bits with
  | nil => exact absurd rfl h
  | cons b bits ih =>
    cases bits with
    | nil => rfl
    | cons c bits =>
      rw [bitText_cons_cons, ← ih (by simp), List.flatMap_cons,
        List.dropLast_append_of_ne_nil (by simp)]
      rfl

/-! ## The parser -/

/-- The text is a sequence of characters other than `1`, each with a comma. -/
def CommaPairs : Str → Prop
  | [] => True
  | [_] => False
  | c :: d :: rest => c ≠ '1' ∧ d = ',' ∧ CommaPairs rest

/-- The parser reaches the end of the text behind a comma. -/
def EndsBehindComma (text : Str) : Prop := text ≠ [] ∧ CommaPairs text

instance decidableCommaPairs : (text : Str) → Decidable (CommaPairs text)
  | [] => .isTrue trivial
  | [_] => .isFalse id
  | _ :: _ :: rest =>
    have := decidableCommaPairs rest
    inferInstanceAs (Decidable (_ ∧ _ ∧ _))

instance (text : Str) : Decidable (EndsBehindComma text) := inferInstanceAs (Decidable (_ ∧ _))

/-- The loop with `j` bits stored, by induction along its rounds. -/
theorem parseBitLoop_eq (size j : ℕ) (text : Str) (h : size = (2 * j + text.length + 1) / 2) :
    parseBitLoop size j text = if CommaPairs text then .error .noReturn else .ok 0 := by
  fun_induction parseBitLoop size j text with
  | case1 j => simp [CommaPairs]
  | case2 j => simp [CommaPairs]
  | case3 j c hc hsize =>
    -- one character is left: the size is one more than the bits stored before it
    simp at h
    omega
  | case4 j c hc hsize => simp [CommaPairs]
  | case5 j d rest => simp [CommaPairs]
  | case6 j c rest hc ih =>
    rw [ih (by simp at h; omega)]
    simp [CommaPairs, hc]
  | case7 j c d rest hc hd => simp [CommaPairs, hd]

/-- On every text the parser gives 0 or ends without a `return`. -/
theorem parseBitString_eq (text : Str) :
    parseBitString text = if EndsBehindComma text then .error .noReturn else .ok 0 := by
  unfold parseBitString
  split_ifs with hsize hends hends
  · exfalso
    cases text with
    | nil => exact hends.1 rfl
    | cons c rest =>
      simp only [List.length_cons] at hsize
      omega
  · rfl
  · rw [parseBitLoop_eq _ _ _ (by rw [mul_zero, zero_add]), if_pos hends.2]
  · rw [parseBitLoop_eq _ _ _ (by rw [mul_zero, zero_add]), if_neg]
    intro hpairs
    refine hends ⟨?_, hpairs⟩
    rintro rfl
    exact hsize rfl

/-- The value made of a text for a bit string: none. -/
theorem valueToWrite_bitString (text : Str) :
    valueToWrite (some (.string text)) .bitString =
      if EndsBehindComma text then .error .noReturn else .ok none := by
  simp only [valueToWrite, Json.stringValue, deref]
  rw [Run.ok_bind, parseBitString_eq]
  split_ifs <;> rfl

/-! ## The write -/

variable {σ W : Type} [DSLink σ] {svc : IedService W} {s : LinkState σ W} {node : Path}
  {con : ConnId} {ref : Str} {fc : FunctionalConstraint}

/-- The write phase, given a text for a bit string, runs to its end and sends
exactly the bits that the text spells, and nothing when it spells none. -/
def SendsSpelledBits (svc : IedService W) (s : LinkState σ W) (node : Path) (text : Str) : Prop :=
  ∃ s' readBack,
    writeAttribute svc s node (.object [("Value".toList, .string text)]) = .ok (s', readBack) ∧
      ((∃ bits con ref fc, SpellsBits text bits ∧
          s'.requests = s.requests ++ [(con, .writeObject ref fc (.bitString bits))]) ∨
        (¬ ∃ bits, SpellsBits text bits) ∧ s'.requests = s.requests)

/-- **Bit strings.** The write does what the text says exactly for the texts that
are no list of bits and do not end behind a comma; the text published for a
bit string is never one of them. -/
theorem bitString_write_iff (h : WritesTo svc s node con ref fc .bitString) :
    (∀ text, SendsSpelledBits svc s node text ↔
      (¬ ∃ bits, SpellsBits text bits) ∧ ¬ EndsBehindComma text) ∧
    ∀ bits, bits ≠ [] → ∃ text, bitStringText bits = .ok text ∧ SpellsBits text bits := by
  refine ⟨?_, fun bits hbits => ⟨bitText bits, bitStringText_eq hbits, hbits, rfl⟩⟩
  intro text
  have hparam : Json.objectGet "Value".toList (.object [("Value".toList, .string text)]) =
      some (.string text) := by simp [Json.objectGet]
  by_cases hends : EndsBehindComma text
  · have hv : valueToWrite (some (.string text)) .bitString = .error .noReturn := by
      rw [valueToWrite_bitString, if_pos hends]
    constructor
    · rintro ⟨s', readBack, hrun, -⟩
      rw [writeAttribute_fails h (hparam ▸ hv)] at hrun
      cases hrun
    · rintro ⟨-, hnot⟩
      exact absurd hends hnot
  · have hv : valueToWrite (some (.string text)) .bitString = .ok none := by
      rw [valueToWrite_bitString, if_neg hends]
    obtain ⟨s', readBack, hrun, hreq⟩ := writeAttribute_ends h (hparam ▸ hv)
    have hsame : s'.requests = s.requests := by simpa using hreq
    constructor
    · rintro ⟨s'', readBack', hrun', ⟨bits, con', ref', fc', -, hsent⟩ | ⟨hnone, -⟩⟩
      · rw [hrun] at hrun'
        cases hrun'
        rw [hsame] at hsent
        simp at hsent
      · exact ⟨hnone, hends⟩
    · rintro ⟨hnone, -⟩
      exact ⟨s', readBack, hrun, .inr ⟨hnone, hsame⟩⟩

theorem bitString_write_iff_text :
    (∀ text, SendsSpelledBits (serviceOfType .bitString) timeState timeWriteNode text ↔
      (¬ ∃ bits, SpellsBits text bits) ∧ ¬ EndsBehindComma text) ∧
    ∀ bits, bits ≠ [] → ∃ text, bitStringText bits = .ok text ∧ SpellsBits text bits :=
  bitString_write_iff (serviceOfType_writesTo .bitString)

/-- Nothing is sent for `0,1`. -/
theorem bitString_write_01 :
    SpellsBits "0,1".toList [false, true] ∧
      ∃ s' readBack, writeAttribute (serviceOfType .bitString) timeState timeWriteNode
          (.object [("Value".toList, .string "0,1".toList)]) = .ok (s', readBack) ∧
        s'.requests = timeState.requests := by
  have hv : valueToWrite
      (Json.objectGet "Value".toList (.object [("Value".toList, .string "0,1".toList)]))
      .bitString = .ok none := by
    show valueToWrite (some (.string "0,1".toList)) .bitString = .ok none
    rw [valueToWrite_bitString, if_neg (by decide)]
  obtain ⟨s', readBack, hrun, hreq⟩ := writeAttribute_ends (serviceOfType_writesTo .bitString) hv
  exact ⟨⟨by decide, by decide⟩, s', readBack, hrun, by simpa using hreq⟩

end DslinkIec61850
