import DslinkIec61850.Report.Contents
import Mathlib.Data.Nat.Bitwise

/-!
# Flags as text

`getRCBOptFldsString` and `getRCBTrgOpsString` (report_handler.c:98–142) append the
names of the set flags to a buffer of the caller and cut the last character off. A word
that is not 0 but has none of the named flags leaves nothing to cut.

* `writeFlags_eq`: the writes stay in a buffer that has room for all names.
* `flags_listed_iff`: when the text lists the set flags.
-/

namespace DslinkIec61850

open Strings Run ClientReportControlBlock

/-! ## The buffers -/

/-- `strcat` on a buffer of `size` bytes that holds `text`. -/
def strcat (size : ℕ) (text name : Str) : Except Fault Str :=
  if text.length + name.length < size then .ok (text ++ name) else .error .outOfBounds

/-- The common course of the two functions on a buffer of `size` bytes. -/
def writeFlags (size : ℕ) (flags : List (ℕ × Str)) (v : ℕ) : Except Fault Str :=
  if v = 0 then strcat size [] "NONE".toList
  else do
    let text ← flags.foldlM
      (fun text f => if v.testBit f.1 then strcat size text (f.2 ++ [',']) else .ok text) []
    -- the byte at `strlen(text) - 1` is overwritten
    if text = [] then throw .outOfBounds
    return text.dropLast

/-- The named options (iec61850_common.h:77–98) in the order of the text. -/
def optFldsTable : List (ℕ × Str) :=
  [(0, "SEQ_NUM".toList), (5, "BUFFER_OVERFLOW".toList), (7, "CONF_REV".toList),
    (4, "DATA_REFERENCE".toList), (3, "DATA_SET".toList), (6, "ENTRY_ID".toList),
    (2, "REASON_FOR_INCLUSION".toList), (1, "TIME_STAMP".toList)]

/-- The named trigger options (iec61850_common.h:55–67). -/
def trgOpsTable : List (ℕ × Str) :=
  [(0, "DATA_CHANGED".toList), (2, "DATA_UPDATE".toList), (4, "GI".toList),
    (3, "INTEGRITY".toList), (1, "QUALITY_CHANGED".toList)]

/-- `getRCBOptFldsString` on its buffer of `MAX_OPT_FLDS_STR_LEN` bytes. -/
def writeOptFlds : ℕ → Except Fault Str := writeFlags 160 optFldsTable

/-- `getRCBTrgOpsString` on its buffer of `MAX_TRG_OPS_STR_LEN` bytes. -/
def writeTrgOps : ℕ → Except Fault Str := writeFlags 100 trgOpsTable

theorem flagNames_cons (f : ℕ × Str) (flags : List (ℕ × Str)) (v : ℕ) :
    flagNames (f :: flags) v = (if v.testBit f.1 then f.2 ++ [','] else []) ++
      flagNames flags v := by
  unfold flagNames
  rw [List.filter_cons]
  split_ifs
  · rfl
  · rfl

/-- By induction on the flags that are left; `text` has the names before. -/
theorem foldlM_strcat {size v : ℕ} {flags : List (ℕ × Str)} {text : Str}
    (h : text.length + (flags.map fun f => f.2.length + 1).sum < size) :
    flags.foldlM (fun text f => if v.testBit f.1 then strcat size text (f.2 ++ [',']) else .ok text)
      text = .ok (text ++ flagNames flags v) := by
  induction flags generalizing text with
  | nil =>
    rw [flagNames, List.filter_nil, List.flatMap_nil, List.append_nil]
    rfl
  | cons f flags ih =>
    rw [List.map_cons, List.sum_cons] at h
    rw [List.foldlM_cons, flagNames_cons]
    by_cases hbit : v.testBit f.1 = true
    · have hroom : text.length + (f.2 ++ [',']).length < size := by
        rw [List.length_append, List.length_singleton]
        omega
      rw [if_pos hbit, if_pos hbit, strcat, if_pos hroom, ok_bind, ih, List.append_assoc]
      rw [List.length_append, List.length_append, List.length_singleton]
      omega
    · rw [if_neg hbit, if_neg hbit, ok_bind, ih (by omega), List.nil_append]

/-- **The writes.** With room for all names they stay in the buffer. -/
theorem writeFlags_eq {size : ℕ} {flags : List (ℕ × Str)} (hnone : 4 < size)
    (h : (flags.map fun f => f.2.length + 1).sum < size) (v : ℕ) :
    writeFlags size flags v = flagsText flags v := by
  unfold writeFlags flagsText
  by_cases hv : v = 0
  · rw [if_pos hv, if_pos hv, strcat,
      if_pos (show ([] : Str).length + "NONE".toList.length < size by simpa using hnone)]
    rfl
  · rw [if_neg hv, if_neg hv, foldlM_strcat (by simpa using h), ok_bind, List.nil_append]
    by_cases hnames : flagNames flags v = []
    · rw [if_pos hnames, if_pos hnames]
      rfl
    · rw [if_neg hnames, if_neg hnames]
      rfl

theorem writeOptFlds_eq (v : ℕ) : writeOptFlds v = getRCBOptFldsString v :=
  writeFlags_eq (by norm_num) (by decide) v

theorem writeTrgOps_eq (v : ℕ) : writeTrgOps v = getRCBTrgOpsString v :=
  writeFlags_eq (by norm_num) (by decide) v

/-! ## The text -/

/-- The names of the flags that are set. -/
def namesSet (flags : List (ℕ × Str)) (set : ℕ → Bool) : List Str :=
  (flags.filter fun f => set f.1).map Prod.snd

/-- The names separated by commas, or `NONE`. -/
def listed (names : List Str) : Str := if names = [] then "NONE".toList else [','].intercalate names

/-- A word that is 0 or has a named flag has a text, which lists its flags. -/
theorem flagsText_eq {flags : List (ℕ × Str)} {v : ℕ} :
    flagsText flags v =
      if v = 0 ∨ namesSet flags v.testBit ≠ [] then .ok (listed (namesSet flags v.testBit))
      else .error .outOfBounds := by
  have hnames : flagNames flags v = (namesSet flags v.testBit).flatMap fun n => n ++ [','] := by
    rw [flagNames, namesSet, List.flatMap_map]
  by_cases hv : v = 0
  · have hempty : namesSet flags v.testBit = [] := by
      rw [hv, namesSet]
      simp
    rw [flagsText, if_pos hv, if_pos (.inl hv), hempty]
    rfl
  · rw [flagsText, if_neg hv, hnames]
    by_cases hne : namesSet flags v.testBit = []
    · rw [hne, List.flatMap_nil, if_pos rfl, if_neg]
      exact not_or.2 ⟨hv, not_not_intro rfl⟩
    · rw [if_neg, if_pos (.inr hne), flatMap_separated hne, List.dropLast_concat,
        listed, if_neg hne]
      rw [flatMap_separated hne]
      simp

/-! ## What the text lists -/

/-- The text lists the names of the flags that are set. -/
structure ListsFlags (flags : List (ℕ × Str)) (set : ℕ → Bool) (text : Str) : Prop where
  names : namesSet flags set ≠ [] → text = [','].intercalate (namesSet flags set)
  none : text = "NONE".toList ↔ namesSet flags set = []
  trailing : text.getLast? ≠ some ','

/-- A name of a table: not empty, no `N` in front, no comma at the end. -/
def FlagName (n : Str) : Prop := n ≠ [] ∧ n.head? ≠ some 'N' ∧ n.getLast? ≠ some ','

instance (n : Str) : Decidable (FlagName n) := inferInstanceAs (Decidable (_ ∧ _))

/-- Where no name begins with an `N`, the text `NONE` is that of no name. -/
theorem listed_eq_none_iff {names : List Str} (h : ∀ n ∈ names, FlagName n) :
    listed names = "NONE".toList ↔ names = [] := by
  constructor
  · intro heq
    by_contra hne
    rw [listed, if_neg hne] at heq
    obtain ⟨n, names, rfl⟩ := List.exists_cons_of_ne_nil hne
    obtain ⟨hn, hhead, -⟩ := h n List.mem_cons_self
    obtain ⟨c, s, rfl⟩ := List.exists_cons_of_ne_nil hn
    have hc : c = 'N' := by
      cases names with
      | nil =>
        rw [List.intercalate_singleton] at heq
        exact (List.cons.inj heq).1
      | cons m names =>
        rw [List.intercalate_cons_cons] at heq
        exact (List.cons.inj heq).1
    exact hhead (by rw [hc]; rfl)
  · rintro rfl
    rfl

theorem getLast?_intercalate {names : List Str} (h : ∀ n ∈ names, FlagName n) :
    ([','].intercalate names).getLast? ≠ some ',' := by
  induction names with
  | nil => simp
  | cons n names ih =>
    cases names with
    | nil =>
      rw [List.intercalate_singleton]
      exact (h n List.mem_cons_self).2.2
    | cons m names =>
      obtain ⟨c, s, rfl⟩ := List.exists_cons_of_ne_nil (h m (by simp)).1
      have hrest := ih fun k hk => h k (List.mem_cons_of_mem _ hk)
      have hne : [','].intercalate ((c :: s) :: names) ≠ [] := by
        cases names with
        | nil => simp
        | cons k names => simp [List.intercalate_cons_cons]
      rw [List.intercalate_cons_cons, List.getLast?_append_of_ne_nil _ hne]
      exact hrest

theorem lists_listed {flags : List (ℕ × Str)} (h : ∀ f ∈ flags, FlagName f.2) (set : ℕ → Bool) :
    ListsFlags flags set (listed (namesSet flags set)) := by
  have hname : ∀ n ∈ namesSet flags set, FlagName n := by
    intro n hn
    obtain ⟨f, hf, rfl⟩ := List.mem_map.1 hn
    exact h f (List.mem_of_mem_filter hf)
  refine ⟨fun hne => by rw [listed, if_neg hne], listed_eq_none_iff hname, ?_⟩
  rw [listed]
  split_ifs
  · show some 'E' ≠ some ','
    decide
  · exact getLast?_intercalate hname

/-- **One word.** There is a text that lists the flags iff the word is 0 or has a named
flag. -/
theorem lists_iff {flags : List (ℕ × Str)} (h : ∀ f ∈ flags, FlagName f.2) (v : ℕ) :
    (∃ text, flagsText flags v = .ok text ∧ ListsFlags flags v.testBit text) ↔
      v = 0 ∨ ∃ f ∈ flags, v.testBit f.1 := by
  have hset : (∃ f ∈ flags, v.testBit f.1) ↔ namesSet flags v.testBit ≠ [] := by
    rw [namesSet, ne_eq, List.map_eq_nil_iff, List.filter_eq_nil_iff]
    push Not
    rfl
  rw [hset, flagsText_eq]
  constructor
  · rintro ⟨text, htext, -⟩
    by_contra hno
    rw [if_neg hno] at htext
    cases htext
  · intro hyes
    rw [if_pos hyes]
    exact ⟨_, rfl, lists_listed h _⟩

/-! ## The flags of a report control block -/

/-- Every option string with these bits has a text, which lists its named options; the
bit 0 of the string is reserved. -/
def OptFldsListed (bits : List Bool) : Prop :=
  ∀ self : ClientReportControlBlock, self.optFlds = some (.bitString bits) →
    ∃ text, (self.getOptFlds >>= writeOptFlds) = .ok text ∧
      ListsFlags optFldsTable (fun i => bits.getD (i + 1) false) text

/-- The text of the trigger options lists the named ones. -/
def TrgOpsListed (trgOps : BitVec 32) : Prop :=
  ∃ text, writeTrgOps trgOps.toNat = .ok text ∧ ListsFlags trgOpsTable trgOps.toNat.testBit text

theorem testBit_bitsValue (bits : List Bool) (i : ℕ) :
    (MmsValue.bitsValue bits).testBit i = bits.getD i false := by
  induction bits generalizing i with
  | nil => simp [MmsValue.bitsValue]
  | cons b bits ih =>
    rw [MmsValue.bitsValue]
    cases i with
    | zero =>
      rw [Nat.testBit_zero]
      cases b <;> simp
    | succ i =>
      have hhalf : (b.toNat + 2 * MmsValue.bitsValue bits) / 2 = MmsValue.bitsValue bits := by
        have hb := Bool.toNat_lt b
        omega
      rw [Nat.testBit_succ, hhalf, ih, List.getD_cons_succ]

theorem true_mem_iff (bits : List Bool) : true ∈ bits ↔ ∃ i, bits.getD i false := by
  rw [List.mem_iff_getElem?]
  simp only [List.getD_eq_getElem?_getD]
  constructor
  · rintro ⟨i, hi⟩
    exact ⟨i, by rw [hi, Option.getD_some]⟩
  · rintro ⟨i, hi⟩
    refine ⟨i, ?_⟩
    cases h : bits[i]? with
    | none => simp [h] at hi
    | some b =>
      rw [h, Option.getD_some] at hi
      rw [hi]

/-- The named options are the bits 1 to 8 of the string. -/
theorem optFlds_named_iff (bits : List Bool) :
    (∃ f ∈ optFldsTable, bits.getD (f.1 + 1) false) ↔ true ∈ (bits.drop 1).take 8 := by
  have hindex : (∃ f ∈ optFldsTable, bits.getD (f.1 + 1) false) ↔
      ∃ i < 8, bits.getD (i + 1) false := by
    have htable : ∀ i < 8, i ∈ optFldsTable.map Prod.fst := by decide
    have hlt : ∀ f ∈ optFldsTable, f.1 < 8 := by decide
    constructor
    · rintro ⟨f, hf, hbit⟩
      exact ⟨f.1, hlt f hf, hbit⟩
    · rintro ⟨i, hi, hbit⟩
      obtain ⟨f, hf, rfl⟩ := List.mem_map.1 (htable i hi)
      exact ⟨f, hf, hbit⟩
  rw [hindex, true_mem_iff]
  simp only [List.getD_eq_getElem?_getD, List.getElem?_take, List.getElem?_drop]
  constructor
  · rintro ⟨i, hi, hbit⟩
    exact ⟨i, by rwa [if_pos hi, Nat.add_comm]⟩
  · rintro ⟨i, hbit⟩
    by_cases hi : i < 8
    · exact ⟨i, hi, by rwa [if_pos hi, Nat.add_comm] at hbit⟩
    · simp [hi] at hbit

theorem bitsValue_half_eq_zero_iff (bits : List Bool) :
    MmsValue.bitsValue bits / 2 = 0 ↔ true ∉ bits.drop 1 := by
  have hbit (i : ℕ) : (MmsValue.bitsValue bits / 2).testBit i = (bits.drop 1).getD i false := by
    rw [← Nat.testBit_succ, testBit_bitsValue, List.getD_eq_getElem?_getD,
      List.getD_eq_getElem?_getD, List.getElem?_drop, Nat.add_comm]
  rw [true_mem_iff]
  push Not
  constructor
  · intro hzero i
    rw [← hbit, hzero, Nat.zero_testBit]
    simp
  · intro hclear
    refine Nat.zero_of_testBit_eq_false fun i => ?_
    rw [hbit]
    simpa using hclear i

/-- No bit of the string beyond the reserved one: none of the named ones, none behind. -/
theorem drop_one_iff (bits : List Bool) :
    true ∉ bits.drop 1 ↔ true ∉ (bits.drop 1).take 8 ∧ true ∉ bits.drop 9 := by
  have hsplit : (bits.drop 1).take 8 ++ bits.drop 9 = bits.drop 1 := by
    rw [show bits.drop 9 = (bits.drop 1).drop 8 by rw [List.drop_drop], List.take_append_drop]
  rw [← hsplit, List.mem_append, not_or]
  rw [hsplit]

/-- A report control block of which only the options are known. -/
def ofOptFlds (bits : List Bool) : ClientReportControlBlock :=
  { create [] with optFlds := some (.bitString bits) }

theorem optFldsListed_iff (bits : List Bool) :
    OptFldsListed bits ↔
      MmsValue.BitsFit bits ∧ (true ∈ (bits.drop 1).take 8 ∨ true ∉ bits.drop 9) := by
  have hget {self : ClientReportControlBlock} (h : self.optFlds = some (.bitString bits)) :
      self.getOptFlds = (MmsValue.getBitStringAsInteger bits).map (· / 2) := by
    rw [getOptFlds, h]
  have hword : (∃ text, writeOptFlds (MmsValue.bitsValue bits / 2) = .ok text ∧
      ListsFlags optFldsTable (fun i => bits.getD (i + 1) false) text) ↔
        (true ∈ (bits.drop 1).take 8 ∨ true ∉ bits.drop 9) := by
    have hset : (MmsValue.bitsValue bits / 2).testBit = fun i => bits.getD (i + 1) false := by
      funext i
      rw [← Nat.testBit_succ, testBit_bitsValue]
    have hiff := lists_iff (show ∀ f ∈ optFldsTable, FlagName f.2 by decide)
      (MmsValue.bitsValue bits / 2)
    rw [bitsValue_half_eq_zero_iff, hset, optFlds_named_iff, drop_one_iff] at hiff
    rw [writeOptFlds_eq, show getRCBOptFldsString _ = flagsText optFldsTable _ from rfl, hiff]
    tauto
  by_cases hfit : MmsValue.BitsFit bits
  · have hvalue {self : ClientReportControlBlock} (h : self.optFlds = some (.bitString bits)) :
        self.getOptFlds >>= writeOptFlds = writeOptFlds (MmsValue.bitsValue bits / 2) := by
      rw [hget h, MmsValue.getBitStringAsInteger_ok hfit]
      rfl
    constructor
    · intro hall
      have hself := hall (ofOptFlds bits) rfl
      rw [hvalue rfl] at hself
      exact ⟨hfit, hword.1 hself⟩
    · rintro ⟨-, hnamed⟩ self hself
      rw [hvalue hself]
      exact hword.2 hnamed
  · constructor
    · intro hall
      obtain ⟨text, htext, -⟩ := hall (ofOptFlds bits) rfl
      rw [hget rfl, MmsValue.getBitStringAsInteger_eq, if_neg hfit] at htext
      cases htext
    · rintro ⟨hfit', -⟩
      exact absurd hfit' hfit

theorem trgOpsListed_iff (trgOps : BitVec 32) :
    TrgOpsListed trgOps ↔ trgOps = 0 ∨ trgOps.toNat % 32 ≠ 0 := by
  have hzero : trgOps.toNat = 0 ↔ trgOps = 0 := by
    rw [BitVec.toNat_eq]
    rfl
  have hnamed : (∃ f ∈ trgOpsTable, trgOps.toNat.testBit f.1) ↔ trgOps.toNat % 2 ^ 5 ≠ 0 := by
    have htable : ∀ i < 5, i ∈ trgOpsTable.map Prod.fst := by decide
    have hlt : ∀ f ∈ trgOpsTable, f.1 < 5 := by decide
    constructor
    · rintro ⟨f, hf, hbit⟩ hmod
      have hlow := Nat.testBit_mod_two_pow trgOps.toNat 5 f.1
      rw [hmod, Nat.zero_testBit, hbit, Bool.and_true, decide_eq_true (hlt f hf)] at hlow
      cases hlow
    · intro hmod
      obtain ⟨i, hbit⟩ := Nat.exists_testBit_of_ne_zero hmod
      rw [Nat.testBit_mod_two_pow, Bool.and_eq_true, decide_eq_true_iff] at hbit
      obtain ⟨f, hf, rfl⟩ := List.mem_map.1 (htable i hbit.1)
      exact ⟨f, hf, hbit.2⟩
  have hiff := lists_iff (show ∀ f ∈ trgOpsTable, FlagName f.2 by decide) trgOps.toNat
  rw [hnamed, hzero] at hiff
  rw [TrgOpsListed, writeTrgOps_eq]
  exact hiff

/-- **The flags.** Both texts list the set flags unless the word has only bits without
a name; the option string must not have a bit that an `int` cannot shift to. -/
theorem flags_listed_iff (bits : List Bool) (trgOps : BitVec 32) :
    (OptFldsListed bits ↔
      MmsValue.BitsFit bits ∧ (true ∈ (bits.drop 1).take 8 ∨ true ∉ bits.drop 9)) ∧
    (TrgOpsListed trgOps ↔ trgOps = 0 ∨ trgOps.toNat % 32 ≠ 0) :=
  ⟨optFldsListed_iff bits, trgOpsListed_iff trgOps⟩

/-- Only the segmentation bit is set: the byte in front of the buffer is written. -/
theorem segmentation_not_listed : ¬ OptFldsListed (List.replicate 9 false ++ [true]) := by
  intro h
  obtain ⟨text, htext, -⟩ := h (ofOptFlds (List.replicate 9 false ++ [true])) rfl
  have hfault : (ofOptFlds (List.replicate 9 false ++ [true])).getOptFlds >>= writeOptFlds =
      .error .outOfBounds := by rfl
  rw [hfault] at htext
  cases htext

end DslinkIec61850
