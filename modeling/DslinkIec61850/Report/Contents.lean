import DslinkIec61850.Report.Settings
import DslinkIec61850.Value.BerInteger

/-!
# What the attributes of a report control block say

An attribute that the `set` actions change is one MMS value of the local copy.
`contentOf` is what the getters make of it, `setContent` what the setters do to it,
and `RcbContent.json` what the node of the attribute shows.

* `setContent_content`: a content that the attribute admits is read again.
* `updateValues_content`: reading back leaves the contents that the server sent.
* `Standard.content_json`: what a standard block says can be shown.
-/

namespace DslinkIec61850

open ClientReportControlBlock Run

/-! ## Contents -/

/-- What an attribute says. -/
inductive RcbContent where
  | text (s : Option Str)
  | flag (b : Bool)
  | number (n : ℕ)
  | optFlds (n : ℕ)
  | trgOps (n : ℕ)
  deriving DecidableEq, Repr

/-- The JSON value that shows the content. -/
def RcbContent.json : RcbContent → Except Fault (Option Json)
  | text s => .ok (s.map .string)
  | flag b => .ok (some (.boolean b))
  | number n => .ok (some (.integer n))
  | optFlds n => (getRCBOptFldsString n).map fun s => some (.string s)
  | trgOps n => (getRCBTrgOpsString n).map fun s => some (.string s)

/-- The contents that an attribute can be set to. -/
def Admits : RcbElement → RcbContent → Prop
  | .rptId, .text (some _) => True
  | .rptEna, .flag _ => True
  | .datSet, .text (some _) => True
  | .optFlds, .optFlds n => n < 2 ^ 8
  | .bufTm, .number n => n < 2 ^ 32
  | .trgOps, .trgOps n => n < 2 ^ 5
  | .intgPd, .number n => n < 2 ^ 32
  | _, _ => False

namespace ClientReportControlBlock

/-- The MMS value of an attribute. -/
def field (self : ClientReportControlBlock) : RcbElement → Option MmsValue
  | .rptId => self.rptId
  | .rptEna => self.rptEna
  | .datSet => self.datSet
  | .optFlds => self.optFlds
  | .bufTm => self.bufTm
  | .trgOps => self.trgOps
  | .intgPd => self.intgPd

/-- The content of an attribute, by its getter. -/
def contentOf (self : ClientReportControlBlock) : RcbElement → Except Fault RcbContent
  | .rptId => .ok (.text self.getRptId)
  | .rptEna => .ok (.flag self.getRptEna)
  | .datSet => .ok (.text self.getDataSetReference)
  | .optFlds => self.getOptFlds.map .optFlds
  | .bufTm => .ok (.number self.getBufTm)
  | .trgOps => .ok (.trgOps self.getTrgOps)
  | .intgPd => .ok (.number self.getIntgPd)

/-- The attribute changed by its setter. -/
def setContent (self : ClientReportControlBlock) :
    RcbElement → RcbContent → ClientReportControlBlock
  | .rptId, .text s => self.setRptId s
  | .rptEna, .flag b => self.setRptEna b
  | .datSet, .text s => self.setDataSetReference s
  | .optFlds, .optFlds n => self.setOptFlds n
  | .bufTm, .number n => self.setBufTm n
  | .trgOps, .trgOps n => self.setTrgOps n
  | .intgPd, .number n => self.setIntgPd n
  | _, _ => self

theorem contentOf_congr {self other : ClientReportControlBlock} {e : RcbElement}
    (h : self.field e = other.field e) : self.contentOf e = other.contentOf e := by
  cases e <;> simp only [field] at h <;>
    simp only [contentOf, getRptId, getRptEna, getDataSetReference, getOptFlds, getBufTm, getTrgOps,
      getIntgPd, h]

theorem field_setContent_of_ne (self : ClientReportControlBlock) (e e' : RcbElement)
    (c : RcbContent) (h : e' ≠ e) : (self.setContent e c).field e' = self.field e' := by
  cases e <;> cases c <;> cases e' <;> first | rfl | exact absurd rfl h

@[simp] theorem isBuffered_setContent (self : ClientReportControlBlock) (e : RcbElement)
    (c : RcbContent) : (self.setContent e c).isBuffered = self.isBuffered := by
  cases e <;> cases c <;> rfl

@[simp] theorem objectReference_setContent (self : ClientReportControlBlock) (e : RcbElement)
    (c : RcbContent) : (self.setContent e c).objectReference = self.objectReference := by
  cases e <;> cases c <;> rfl

/-! ## Standard values -/

/-- A value of the type that the standard gives to the attribute, as the client's
decoder makes it: a string has a buffer, an integer has room for eight octets. -/
def Typed : RcbElement → MmsValue → Prop
  | .rptId, .visibleString (some _) => True
  | .rptEna, .boolean _ => True
  | .datSet, .visibleString (some _) => True
  | .optFlds, .bitString bits => bits.length = 10
  | .bufTm, .unsigned v => 8 ≤ v.maxSize ∧ v.octets.length ≤ 8
  | .trgOps, .bitString bits => bits.length = 6
  | .intgPd, .unsigned v => 8 ≤ v.maxSize ∧ v.octets.length ≤ 8
  | _, _ => False

theorem setUint32_typed {v : BerInteger} {n : ℕ} (h : 8 ≤ v.maxSize ∧ v.octets.length ≤ 8) :
    8 ≤ (v.setUint32 n).maxSize ∧ (v.setUint32 n).octets.length ≤ 8 := by
  have hlen : (v.setUint32 n).octets.length ≤ 5 := BerInteger.length_setUint32 (by omega)
  rw [BerInteger.maxSize_setUint32]
  omega

/-- A block whose attributes were read from a server that keeps to the standard. -/
def Standard (self : ClientReportControlBlock) : Prop :=
  ∀ e, ∃ v, self.field e = some v ∧ Typed e v

/-- `segmentation` is the only option that is set, which has no name. -/
def SegmentationOnly (self : ClientReportControlBlock) : Prop := self.getOptFlds = .ok (2 ^ 8)

theorem segmentationOnly_iff {self : ClientReportControlBlock} :
    self.SegmentationOnly ↔ self.contentOf .optFlds = .ok (.optFlds (2 ^ 8)) := by
  unfold SegmentationOnly contentOf
  cases self.getOptFlds <;> simp [Except.map]

theorem getTrgOps_bits {self : ClientReportControlBlock} {bits : List Bool}
    (h : self.trgOps = some (.bitString bits)) (hlen : bits.length = 6) :
    self.getTrgOps = MmsValue.bitsValue bits / 2 := by
  match bits, hlen with
  | [a, b, c, d, e, f], _ =>
    simp only [getTrgOps, h, MmsValue.getBitStringBit, List.getD_cons_succ, List.getD_cons_zero,
      MmsValue.bitsValue]
    have ha := a.toNat_lt
    omega

/-- A content that the attribute admits is read again, from a value of the same
type. -/
theorem setContent_content {self : ClientReportControlBlock} {e : RcbElement} {c : RcbContent}
    (h : self.Standard) (hadm : Admits e c) :
    (self.setContent e c).contentOf e = .ok c ∧
      ∃ v, (self.setContent e c).field e = some v ∧ Typed e v := by
  obtain ⟨v, hv, htyped⟩ := h e
  cases e with
  | rptId =>
    match c, hadm, v, htyped with
    | .text (some s), _, .visibleString (some old), _ =>
      have hset : setText self.rptId (some s) = some (.visibleString (some s)) := by
        rw [show self.rptId = _ from hv]
        rfl
      refine ⟨?_, _, hset, trivial⟩
      show Except.ok (RcbContent.text (textOf (setText self.rptId (some s)))) = _
      rw [hset]
      rfl
  | rptEna =>
    match c, hadm, v, htyped with
    | .flag b, _, .boolean old, _ =>
      have hset : (self.setRptEna b).rptEna = some (.boolean b) := by
        simp only [setRptEna, show self.rptEna = _ from hv, MmsValue.setBoolean]
      refine ⟨?_, _, hset, trivial⟩
      show Except.ok (RcbContent.flag (self.setRptEna b).getRptEna) = _
      simp only [getRptEna, hset]
      rfl
  | datSet =>
    match c, hadm, v, htyped with
    | .text (some s), _, .visibleString (some old), _ =>
      have hset : setText self.datSet (some s) = some (.visibleString (some s)) := by
        rw [show self.datSet = _ from hv]
        rfl
      refine ⟨?_, _, hset, trivial⟩
      show Except.ok (RcbContent.text (textOf (setText self.datSet (some s)))) = _
      rw [hset]
      rfl
  | optFlds =>
    match c, hadm, v, htyped with
    | .optFlds n, hn, .bitString bits, hlen =>
      have hset : (self.setOptFlds n).optFlds = some (.bitString (MmsValue.bitsOf 10 (n * 2))) := by
        have hlen : bits.length = 10 := hlen
        simp only [setOptFlds, show self.optFlds = _ from hv, hlen]
      refine ⟨?_, _, hset, MmsValue.length_bitsOf _ _⟩
      show (self.setOptFlds n).getOptFlds.map RcbContent.optFlds = _
      have hn : n < 2 ^ 8 := hn
      have hfit : MmsValue.BitsFit (MmsValue.bitsOf 10 (n * 2)) :=
        MmsValue.bitsFit_of_length_le (by rw [MmsValue.length_bitsOf]; norm_num)
      simp only [getOptFlds, hset]
      rw [MmsValue.getBitStringAsInteger_ok hfit, MmsValue.bitsValue_bitsOf (by omega)]
      show Except.ok (RcbContent.optFlds (n * 2 / 2)) = _
      rw [Nat.mul_div_cancel _ (by norm_num)]
  | bufTm =>
    match c, hadm, v, htyped with
    | .number n, hn, .unsigned v, hv' =>
      have hmax : 8 ≤ v.maxSize := hv'.1
      have hset : setNumber self.bufTm n = some (.unsigned (v.setUint32 n)) := by
        rw [show self.bufTm = _ from hv]
        exact congrArg some (if_pos (by omega))
      refine ⟨?_, _, hset, setUint32_typed hv'⟩
      show Except.ok (RcbContent.number (((setNumber self.bufTm n).map MmsValue.toUint32).getD 0)) =
        _
      rw [hset]
      exact congrArg (Except.ok ∘ RcbContent.number) (BerInteger.toUint32_setUint32 (by omega) hn)
  | trgOps =>
    match c, hadm, v, htyped with
    | .trgOps n, hn, .bitString bits, hlen =>
      have hset : (self.setTrgOps n).trgOps = some (.bitString (MmsValue.bitsOf 6 (n * 2))) := by
        have hlen : bits.length = 6 := hlen
        simp only [setTrgOps, show self.trgOps = _ from hv, hlen]
      refine ⟨?_, _, hset, MmsValue.length_bitsOf _ _⟩
      show Except.ok (RcbContent.trgOps (self.setTrgOps n).getTrgOps) = _
      have hn : n < 2 ^ 5 := hn
      rw [getTrgOps_bits hset (MmsValue.length_bitsOf _ _), MmsValue.bitsValue_bitsOf (by omega),
        Nat.mul_div_cancel _ (by norm_num)]
  | intgPd =>
    match c, hadm, v, htyped with
    | .number n, hn, .unsigned v, hv' =>
      have hmax : 8 ≤ v.maxSize := hv'.1
      have hset : setNumber self.intgPd n = some (.unsigned (v.setUint32 n)) := by
        rw [show self.intgPd = _ from hv]
        exact congrArg some (if_pos (by omega))
      refine ⟨?_, _, hset, setUint32_typed hv'⟩
      show Except.ok (RcbContent.number
        (((setNumber self.intgPd n).map MmsValue.toUint32).getD 0)) = _
      rw [hset]
      exact congrArg (Except.ok ∘ RcbContent.number) (BerInteger.toUint32_setUint32 (by omega) hn)

theorem standard_setContent {self : ClientReportControlBlock} {e : RcbElement} {c : RcbContent}
    (h : self.Standard) (hadm : Admits e c) : (self.setContent e c).Standard := by
  intro e'
  by_cases he : e' = e
  · rw [he]
    exact (setContent_content h hadm).2
  · rw [field_setContent_of_ne self e e' c he]
    exact h e'

/-! ## Reading back -/

/-- The place of an attribute in the structure that is read. -/
def index (isBuffered : Bool) (e : RcbElement) : ℕ :=
  let shift := if isBuffered then 0 else 1
  match e with
  | .rptId => 0
  | .rptEna => 1
  | .datSet => 2 + shift
  | .optFlds => 4 + shift
  | .bufTm => 5 + shift
  | .trgOps => 7 + shift
  | .intgPd => 8 + shift

theorem updateOrClone_ok {v v' : Option MmsValue} {values : List MmsValue} {i : ℕ}
    (h : updateOrClone v values i = .ok v') :
    ∃ new, values[i]? = some new ∧ v' = some (v.elim new (·.update new)) := by
  unfold updateOrClone at h
  split at h
  · cases h
  · rename_i new hnew
    cases h
    exact ⟨new, hnew, by cases v <;> rfl⟩

theorem updateOrClone_total {v : Option MmsValue} {values : List MmsValue} {i : ℕ}
    (h : i < values.length) :
    updateOrClone v values i = .ok (some (v.elim values[i] (·.update values[i]))) := by
  unfold updateOrClone
  rw [List.getElem?_eq_getElem h]
  cases v <;> rfl

/-- Every attribute is taken from its place. -/
theorem updateValues_ok {self new : ClientReportControlBlock} {values : List MmsValue}
    (h : self.updateValues values = .ok new) :
    (if self.isBuffered then 12 else 10) < values.length ∧ new.isBuffered = self.isBuffered ∧
      new.objectReference = self.objectReference ∧
      ∀ e, ∃ v, values[index self.isBuffered e]? = some v ∧
        new.field e = some ((self.field e).elim v (·.update v)) := by
  unfold updateValues at h
  obtain ⟨rptId, hrptId, h⟩ := bind_eq_ok.1 h
  obtain ⟨rptEna, hrptEna, h⟩ := bind_eq_ok.1 h
  obtain ⟨datSet, hdatSet, h⟩ := bind_eq_ok.1 h
  obtain ⟨confRev, -, h⟩ := bind_eq_ok.1 h
  obtain ⟨optFlds, hoptFlds, h⟩ := bind_eq_ok.1 h
  obtain ⟨bufTm, hbufTm, h⟩ := bind_eq_ok.1 h
  obtain ⟨trgOps, htrgOps, h⟩ := bind_eq_ok.1 h
  obtain ⟨intgPd, hintgPd, h⟩ := bind_eq_ok.1 h
  by_cases hlen : values.length ≤ (if self.isBuffered then 12 else 10)
  · rw [if_pos hlen] at h
    cases h
  rw [if_neg hlen] at h
  cases h
  refine ⟨not_le.1 hlen, rfl, rfl, ?_⟩
  intro e
  cases e with
  | rptId => exact updateOrClone_ok hrptId
  | rptEna => exact updateOrClone_ok hrptEna
  | datSet => exact updateOrClone_ok hdatSet
  | optFlds => exact updateOrClone_ok hoptFlds
  | bufTm => exact updateOrClone_ok hbufTm
  | trgOps => exact updateOrClone_ok htrgOps
  | intgPd => exact updateOrClone_ok hintgPd

/-- Reading fails only when the structure is too short. -/
theorem updateValues_total {self : ClientReportControlBlock} {values : List MmsValue}
    (h : (if self.isBuffered then 12 else 10) < values.length) :
    ∃ new, self.updateValues values = .ok new := by
  have hten : 10 < values.length := by
    split_ifs at h <;> omega
  have hi (i : ℕ) (hi : i ≤ 10) : i < values.length := by omega
  unfold updateValues
  have hshift : (if self.isBuffered then 0 else 1) ≤ 1 := by
    split_ifs <;> omega
  dsimp only
  rw [updateOrClone_total (hi 0 (by omega)), ok_bind, updateOrClone_total (hi 1 (by omega)),
    ok_bind, updateOrClone_total (hi _ (by omega)), ok_bind, updateOrClone_total (hi _ (by omega)),
    ok_bind, updateOrClone_total (hi _ (by omega)), ok_bind, updateOrClone_total (hi _ (by omega)),
    ok_bind, updateOrClone_total (hi _ (by omega)), ok_bind, updateOrClone_total (hi _ (by omega)),
    ok_bind, if_neg (not_le.2 h)]
  exact ⟨_, rfl⟩

theorem update_unsigned {old new : BerInteger} (hold : 8 ≤ old.maxSize ∧ old.octets.length ≤ 8)
    (hnew : new.octets.length ≤ 8) :
    (MmsValue.unsigned old).update (.unsigned new) =
      .unsigned { old with octets := new.octets } := by
  rw [MmsValue.update, BerInteger.setFromBerInteger, if_pos (hnew.trans hold.1)]

/-- An update by a value of the same type leaves what the new value says. -/
theorem update_typed {e : RcbElement} {old new : MmsValue} (hold : Typed e old) (hnew : Typed e new)
    {self other : ClientReportControlBlock} (hself : self.field e = some (old.update new))
    (hother : other.field e = some new) :
    Typed e (old.update new) ∧ self.contentOf e = other.contentOf e := by
  match e, old, hold, new, hnew with
  | .rptId, .visibleString (some _), _, .visibleString (some _), hnew
  | .rptEna, .boolean _, _, .boolean _, hnew
  | .datSet, .visibleString (some _), _, .visibleString (some _), hnew =>
    rw [MmsValue.update] at hself ⊢
    exact ⟨hnew, contentOf_congr (hself.trans hother.symm)⟩
  | .optFlds, .bitString _, hold, .bitString _, hnew
  | .trgOps, .bitString _, hold, .bitString _, hnew =>
    rw [MmsValue.update, if_pos (Eq.trans hold (Eq.symm hnew))] at hself ⊢
    exact ⟨hnew, contentOf_congr (hself.trans hother.symm)⟩
  | .bufTm, .unsigned old, hold, .unsigned new, hnew =>
    rw [update_unsigned hold hnew.2] at hself ⊢
    refine ⟨⟨hold.1, hnew.2⟩, ?_⟩
    simp only [contentOf, getBufTm, show self.bufTm = _ from hself,
      show other.bufTm = _ from hother]
    rfl
  | .intgPd, .unsigned old, hold, .unsigned new, hnew =>
    rw [update_unsigned hold hnew.2] at hself ⊢
    refine ⟨⟨hold.1, hnew.2⟩, ?_⟩
    simp only [contentOf, getIntgPd, show self.intgPd = _ from hself,
      show other.intgPd = _ from hother]
    rfl

/-- A block read back says what a new block read from the same values says. -/
theorem updateValues_content {self fresh : ClientReportControlBlock} {ref : Str}
    {values : List MmsValue} (h : self.Standard)
    (hbuffered : self.isBuffered = isBufferedRcb ref)
    (hfresh : (create ref).updateValues values = .ok fresh) (hstd : fresh.Standard) :
    ∃ new, self.updateValues values = .ok new ∧ new.Standard ∧
      new.isBuffered = self.isBuffered ∧ ∀ e, new.contentOf e = fresh.contentOf e := by
  obtain ⟨hlen, -, -, hread⟩ := updateValues_ok hfresh
  have hsame : (create ref).isBuffered = self.isBuffered := hbuffered.symm
  rw [hsame] at hlen hread
  obtain ⟨new, hnew⟩ := updateValues_total hlen
  obtain ⟨-, hkind, -, hback⟩ := updateValues_ok hnew
  have hboth (e : RcbElement) : (∃ v, new.field e = some v ∧ Typed e v) ∧
      new.contentOf e = fresh.contentOf e := by
    obtain ⟨v, hv, hfield⟩ := hread e
    obtain ⟨v', hv', hfield'⟩ := hback e
    cases hv.symm.trans hv'
    obtain ⟨old, hold, holdTyped⟩ := h e
    obtain ⟨w, hw, hwTyped⟩ := hstd e
    have hnone : (create ref).field e = none := by cases e <;> rfl
    rw [hnone, hw] at hfield
    cases hfield
    rw [hold] at hfield'
    obtain ⟨htyped, hcontent⟩ := update_typed holdTyped hwTyped hfield' hw
    exact ⟨⟨_, hfield', htyped⟩, hcontent⟩
  exact ⟨new, hnew, fun e => (hboth e).1, hkind, fun e => (hboth e).2⟩

/-! ## Showing -/

/-- A number with a remainder modulo `2 ^ n` has one of its lower bits set. -/
theorem exists_testBit {v n : ℕ} (h : v % 2 ^ n ≠ 0) : ∃ i < n, v.testBit i = true := by
  by_contra hnone
  push Not at hnone
  apply h
  apply Nat.eq_of_testBit_eq
  intro i
  rw [Nat.testBit_mod_two_pow, Nat.zero_testBit]
  by_cases hi : i < n
  · simp [hnone i hi]
  · simp [hi]

/-- Flags whose lower bits all have a name. -/
theorem flagsText_ok {flags : List (ℕ × Str)} {v n : ℕ} (hnames : ∀ i < n, i ∈ flags.map Prod.fst)
    (hv : v ≠ 0 → v % 2 ^ n ≠ 0) : ∃ s, flagsText flags v = .ok s := by
  unfold flagsText
  split_ifs with hzero hempty
  · exact ⟨_, rfl⟩
  · obtain ⟨i, hi, hbit⟩ := exists_testBit (hv hzero)
    obtain ⟨f, hf, hfi⟩ := List.mem_map.1 (hnames i hi)
    have hmem : ',' ∈ flagNames flags v := by
      rw [flagNames, List.mem_flatMap]
      exact ⟨f, List.mem_filter.2 ⟨hf, hfi ▸ hbit⟩, by simp⟩
    rw [hempty] at hmem
    cases hmem
  · exact ⟨_, rfl⟩

/-- The options have a text unless `segmentation` is the only one. -/
theorem getRCBOptFldsString_ok {v : ℕ} (hlt : v < 2 ^ 9) (hne : v ≠ 2 ^ 8) :
    ∃ s, getRCBOptFldsString v = .ok s :=
  flagsText_ok (n := 8) (by decide) (by omega)

theorem getRCBTrgOpsString_ok {v : ℕ} (hlt : v < 2 ^ 5) : ∃ s, getRCBTrgOpsString v = .ok s :=
  flagsText_ok (n := 5) (by decide) (by omega)

end ClientReportControlBlock

/-- What can be set can be shown. -/
theorem Admits.json_ok {e : RcbElement} {c : RcbContent} (h : Admits e c) :
    ∃ v, c.json = .ok (some v) := by
  match e, c, h with
  | .rptId, .text (some s), _ => exact ⟨_, rfl⟩
  | .rptEna, .flag b, _ => exact ⟨_, rfl⟩
  | .datSet, .text (some s), _ => exact ⟨_, rfl⟩
  | .optFlds, .optFlds n, hn =>
    have hn : n < 2 ^ 8 := hn
    obtain ⟨s, hs⟩ := getRCBOptFldsString_ok (v := n) (by omega) (by omega)
    exact ⟨.string s, by rw [RcbContent.json, hs]; rfl⟩
  | .bufTm, .number n, _ => exact ⟨_, rfl⟩
  | .trgOps, .trgOps n, hn =>
    obtain ⟨s, hs⟩ := getRCBTrgOpsString_ok hn
    exact ⟨.string s, by rw [RcbContent.json, hs]; rfl⟩
  | .intgPd, .number n, _ => exact ⟨_, rfl⟩

namespace ClientReportControlBlock

/-- The options of a standard block. -/
theorem Standard.getOptFlds_ok {self : ClientReportControlBlock} (h : self.Standard) :
    ∃ n < 2 ^ 9, self.getOptFlds = .ok n := by
  obtain ⟨v, hv, htyped⟩ := h .optFlds
  match v, htyped with
  | .bitString bits, hlen =>
    have hlen : bits.length = 10 := hlen
    have hlt := MmsValue.bitsValue_lt bits
    rw [hlen] at hlt
    refine ⟨MmsValue.bitsValue bits / 2, by omega, ?_⟩
    have hfit : MmsValue.BitsFit bits := MmsValue.bitsFit_of_length_le (by omega)
    rw [getOptFlds, show self.optFlds = _ from hv]
    show (MmsValue.getBitStringAsInteger bits).map _ = _
    rw [MmsValue.getBitStringAsInteger_ok hfit]
    rfl

theorem Standard.getTrgOps_lt {self : ClientReportControlBlock} (h : self.Standard) :
    self.getTrgOps < 2 ^ 5 := by
  obtain ⟨v, hv, htyped⟩ := h .trgOps
  match v, htyped with
  | .bitString bits, hlen =>
    have hlen : bits.length = 6 := hlen
    have hlt := MmsValue.bitsValue_lt bits
    rw [hlen] at hlt
    rw [getTrgOps_bits hv hlen]
    omega

/-- What a standard block says can be shown. -/
theorem Standard.content_json {self : ClientReportControlBlock} (h : self.Standard)
    (hseg : ¬ self.SegmentationOnly) (e : RcbElement) :
    ∃ c v, self.contentOf e = .ok c ∧ c.json = .ok (some v) := by
  cases e with
  | rptId =>
    obtain ⟨v, hv, htyped⟩ := h .rptId
    match v, htyped with
    | .visibleString (some s), _ =>
      refine ⟨.text (some s), .string s, ?_, rfl⟩
      simp only [contentOf, getRptId, show self.rptId = _ from hv]
      rfl
  | rptEna => exact ⟨_, _, rfl, rfl⟩
  | datSet =>
    obtain ⟨v, hv, htyped⟩ := h .datSet
    match v, htyped with
    | .visibleString (some s), _ =>
      refine ⟨.text (some s), .string s, ?_, rfl⟩
      simp only [contentOf, getDataSetReference, show self.datSet = _ from hv]
      rfl
  | optFlds =>
    obtain ⟨n, hn, hopt⟩ := h.getOptFlds_ok
    have hne : n ≠ 2 ^ 8 := by
      rintro rfl
      exact hseg hopt
    obtain ⟨s, hs⟩ := getRCBOptFldsString_ok hn hne
    exact ⟨.optFlds n, .string s, by rw [contentOf, hopt]; rfl, by rw [RcbContent.json, hs]; rfl⟩
  | bufTm => exact ⟨_, _, rfl, rfl⟩
  | trgOps =>
    obtain ⟨s, hs⟩ := getRCBTrgOpsString_ok h.getTrgOps_lt
    exact ⟨.trgOps self.getTrgOps, .string s, rfl, by rw [RcbContent.json, hs]; rfl⟩
  | intgPd => exact ⟨_, _, rfl, rfl⟩

/-- No action sets `segmentation` alone. -/
theorem not_segmentationOnly_setContent {self : ClientReportControlBlock} {e : RcbElement}
    {c : RcbContent} (h : self.Standard) (hadm : Admits e c) (hseg : ¬ self.SegmentationOnly) :
    ¬ (self.setContent e c).SegmentationOnly := by
  by_cases he : e = .optFlds
  · subst he
    match c, hadm with
    | .optFlds n, hn =>
      have hn : n < 2 ^ 8 := hn
      have hcontent := (setContent_content h (show Admits .optFlds (.optFlds n) from hn)).1
      intro hall
      rw [contentOf, show getOptFlds _ = _ from hall] at hcontent
      have : 2 ^ 8 = n := by simpa [Except.map] using hcontent
      omega
  · have hsame : (self.setContent e c).field .optFlds = self.field .optFlds :=
      field_setContent_of_ne self e .optFlds c (Ne.symm he)
    have hopt : (self.setContent e c).optFlds = self.optFlds := hsame
    rw [SegmentationOnly, getOptFlds, hopt]
    exact hseg

end ClientReportControlBlock

end DslinkIec61850
