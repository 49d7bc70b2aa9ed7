import DslinkIec61850.Lib.Strings

/-!
# Functional constraints

The enumeration of `iec61850_common.h`, its two conversions
(`iec61850_common.c`) and the helpers of `iec61850_server_defs.c` that read a
constraint out of an entry `name[XX]`.

* `fromString_toString`: the two conversions are inverse on the 18 printable
  constraints.
* `getFunctionalConstraint_entry`: what is read from `name[XX]`.
* `getFunctionalConstraint_delivers_iff`: when the result reaches the caller.
-/

namespace DslinkIec61850

/-- `FunctionalConstraint` (iec61850_common.h). -/
inductive FunctionalConstraint where
  | ST | MX | SP | SV | CF | DC | SG | SE | SR | OR | BL | EX | CO | US | MS | RP | BR | LG
  | ALL | NONE
  deriving DecidableEq, Repr

namespace FunctionalConstraint

/-- `FunctionalConstraint_toString` (iec61850_common.c:99–141). -/
def toString : FunctionalConstraint → Option Str
  | ST => some ['S', 'T'] | MX => some ['M', 'X'] | SP => some ['S', 'P'] | SV => some ['S', 'V']
  | CF => some ['C', 'F'] | DC => some ['D', 'C'] | SG => some ['S', 'G'] | SE => some ['S', 'E']
  | SR => some ['S', 'R'] | OR => some ['O', 'R'] | BL => some ['B', 'L'] | EX => some ['E', 'X']
  | CO => some ['C', 'O'] | US => some ['U', 'S'] | MS => some ['M', 'S'] | RP => some ['R', 'P']
  | BR => some ['B', 'R'] | LG => some ['L', 'G']
  | ALL => none | NONE => none

/-- `FunctionalConstraint_fromString` (iec61850_common.c:143–224). -/
def fromString : Str → FunctionalConstraint
  | 'S' :: 'T' :: _ => ST | 'S' :: 'P' :: _ => SP | 'S' :: 'V' :: _ => SV
  | 'S' :: 'G' :: _ => SG | 'S' :: 'E' :: _ => SE | 'S' :: 'R' :: _ => SR
  | 'M' :: 'X' :: _ => MX | 'M' :: 'S' :: _ => MS
  | 'C' :: 'F' :: _ => CF | 'C' :: 'O' :: _ => CO
  | 'D' :: 'C' :: _ => DC
  | 'O' :: 'R' :: _ => OR
  | 'B' :: 'L' :: _ => BL | 'B' :: 'R' :: _ => BR
  | 'E' :: 'X' :: _ => EX
  | 'U' :: 'S' :: _ => US
  | 'R' :: 'P' :: _ => RP
  | 'L' :: 'G' :: _ => LG
  | _ => NONE

/-- The constraints that have a two-letter name. -/
def Known (fc : FunctionalConstraint) : Prop := fc ≠ ALL ∧ fc ≠ NONE

instance (fc : FunctionalConstraint) : Decidable fc.Known :=
  inferInstanceAs (Decidable (_ ∧ _))

/-- The two letters of a constraint. -/
def code (fc : FunctionalConstraint) : Str := fc.toString.getD []

theorem toString_of_known {fc : FunctionalConstraint} (h : fc.Known) :
    fc.toString = some fc.code := by
  cases fc <;> first | rfl | exact absurd rfl h.1 | exact absurd rfl h.2

theorem length_code {fc : FunctionalConstraint} (h : fc.Known) : fc.code.length = 2 := by
  cases fc <;> first | rfl | exact absurd rfl h.1 | exact absurd rfl h.2

theorem fromString_code {fc : FunctionalConstraint} (h : fc.Known) (s : Str) :
    fromString (fc.code ++ s) = fc := by
  cases fc <;> first | rfl | exact absurd rfl h.1 | exact absurd rfl h.2

/-- Printing and reading back. -/
theorem fromString_toString {fc : FunctionalConstraint} {s : Str} (h : fc.toString = some s) :
    fromString s = fc := by
  cases fc <;> simp [toString] at h <;> subst h <;> rfl

theorem code_injective {f g : FunctionalConstraint} (hf : f.Known) (hg : g.Known)
    (h : f.code = g.code) : f = g := by
  rw [← fromString_code hf [], ← fromString_code hg [], h]

theorem fromString_ne_all (s : Str) : fromString s ≠ ALL := by
  unfold fromString; split <;> simp

/-- What is read from a text is a printable constraint or none. -/
theorem known_fromString {s : Str} (h : fromString s ≠ NONE) : (fromString s).Known :=
  ⟨fromString_ne_all s, h⟩

/-- A constraint other than `NONE` was read from its own two letters. -/
theorem code_fromString {s : Str} (h : fromString s ≠ NONE) :
    (fromString s).code = s.take 2 := by
  revert h
  unfold fromString
  split <;> first | (intro _; rfl) | (intro h; exact absurd rfl h)

/-- The letters of a constraint are capital letters. -/
theorem isUpper_of_mem_code {fc : FunctionalConstraint} {c : Char} (h : c ∈ fc.code) :
    c.isUpper = true := by
  cases fc <;> simp [code, toString] at h <;> rcases h with rfl | rfl <;> rfl

end FunctionalConstraint

open FunctionalConstraint

/-! ## Helpers of the server definitions -/

/-- `isWritableFC` (iec61850_server_defs.c:77–87). -/
def isWritableFC (fc : FunctionalConstraint) : Bool :=
  fc == CF || fc == SE || fc == SP || fc == DC || fc == SV

/-- `isWritableFCWithString` (iec61850_server_defs.c:89–99). -/
def isWritableFCWithString (fcStr : Str) : Bool :=
  fcStr.take 2 == ['C', 'F'] || fcStr.take 2 == ['S', 'E'] || fcStr.take 2 == ['S', 'P'] ||
    fcStr.take 2 == ['D', 'C'] || fcStr.take 2 == ['S', 'V']

/-- What a run of `getFunctionalConstraint` leaves behind. `returned` is `none`
when the function ends without a `return`, which is the case after the call of
`FunctionalConstraint_fromString`. -/
structure FcResult where
  computed : FunctionalConstraint
  returned : Option FunctionalConstraint
  fcStr : Option Str

/-- `getFunctionalConstraint` (iec61850_server_defs.c:123–172). -/
def getFunctionalConstraint (daRef : Str) : FcResult :=
  match (Strings.cut '[' daRef).2 with
  | some rest =>
    { computed := fromString (rest.take 2), returned := none, fcStr := some (rest.take 2) }
  | none => { computed := NONE, returned := some NONE, fcStr := none }

/-- The entry `name[XX]` of a data directory. -/
def fcEntry (name : Str) (fc : FunctionalConstraint) : Str := name ++ '[' :: (fc.code ++ [']'])

theorem getFunctionalConstraint_entry {name : Str} {fc : FunctionalConstraint} (hn : '[' ∉ name)
    (h : fc.Known) :
    getFunctionalConstraint (fcEntry name fc) =
      { computed := fc, returned := none, fcStr := some fc.code } := by
  have htake : (fc.code ++ [']']).take 2 = fc.code := by
    rw [List.take_append_of_le_length (by rw [length_code h]), ← length_code h, List.take_length]
  have hfrom : fromString fc.code = fc := by simpa using fromString_code h []
  simp only [getFunctionalConstraint, fcEntry, Strings.cut_append hn, htake, hfrom]

theorem cut_fcEntry {name : Str} {fc : FunctionalConstraint} (hn : '[' ∉ name) :
    (Strings.cut '[' (fcEntry name fc)).1 = name := by
  rw [fcEntry, Strings.cut_append hn]

theorem fcEntry_injective {n m : Str} {f g : FunctionalConstraint} (hn : '[' ∉ n) (hm : '[' ∉ m)
    (hf : f.Known) (hg : g.Known) (h : fcEntry n f = fcEntry m g) : n = m ∧ f = g := by
  obtain ⟨hnm, hfg⟩ := (Strings.append_cons_inj hn hm).1 h
  exact ⟨hnm, code_injective hf hg (List.append_cancel_right hfg)⟩

theorem bracket_mem_fcEntry (name : Str) (fc : FunctionalConstraint) : '[' ∈ fcEntry name fc := by
  simp [fcEntry]

/-! ## The result of `getFunctionalConstraint` -/

/-- What a constraint `fc` and a stored text `fcStr` have to be for an entry `daRef`. -/
structure FcLaw (daRef : Str) (fc : FunctionalConstraint) (fcStr : Option Str) : Prop where
  entry : ∀ name g, '[' ∉ name → g.Known → daRef = fcEntry name g → fc = g ∧ fcStr = some g.code
  plain : '[' ∉ daRef → fc = NONE
  unknown : ∀ name s, '[' ∉ name → daRef = name ++ '[' :: s →
    (∀ g : FunctionalConstraint, g.Known → s.take 2 ≠ g.code) → fc = NONE
  writable : ∀ s, fcStr = some s → isWritableFC fc = isWritableFCWithString s

/-- The computed constraint obeys the law and is returned. -/
def FcDelivered (daRef : Str) : Prop :=
  FcLaw daRef (getFunctionalConstraint daRef).computed (getFunctionalConstraint daRef).fcStr ∧
    (getFunctionalConstraint daRef).returned = some (getFunctionalConstraint daRef).computed

/-- The two tables of writable constraints agree. -/
theorem isWritableFC_fromString (s : Str) :
    isWritableFC (fromString s) = isWritableFCWithString s := by
  by_cases h : fromString s = NONE
  · have hne (fc : FunctionalConstraint) (hfc : fc.Known) : s.take 2 ≠ fc.code := by
      intro htake
      have hfrom := fromString_code hfc (s.drop 2)
      rw [← htake, List.take_append_drop, h] at hfrom
      exact hfc.2 hfrom.symm
    have hCF : s.take 2 ≠ ['C', 'F'] := hne .CF (by decide)
    have hSE : s.take 2 ≠ ['S', 'E'] := hne .SE (by decide)
    have hSP : s.take 2 ≠ ['S', 'P'] := hne .SP (by decide)
    have hDC : s.take 2 ≠ ['D', 'C'] := hne .DC (by decide)
    have hSV : s.take 2 ≠ ['S', 'V'] := hne .SV (by decide)
    rw [h, isWritableFCWithString, beq_false_of_ne hCF, beq_false_of_ne hSE, beq_false_of_ne hSP,
      beq_false_of_ne hDC, beq_false_of_ne hSV]
    rfl
  · unfold isWritableFCWithString
    rw [← code_fromString h]
    cases fromString s <;> rfl

theorem getFunctionalConstraint_append {name s : Str} (hn : '[' ∉ name) :
    getFunctionalConstraint (name ++ '[' :: s) =
      { computed := fromString (s.take 2), returned := none, fcStr := some (s.take 2) } := by
  simp only [getFunctionalConstraint, Strings.cut_append hn]

theorem getFunctionalConstraint_plain {daRef : Str} (h : '[' ∉ daRef) :
    getFunctionalConstraint daRef = { computed := NONE, returned := some NONE, fcStr := none } := by
  simp only [getFunctionalConstraint, Strings.cut_of_not_mem h]

/-- What the function computes is right for every text. -/
theorem fcLaw_computed (daRef : Str) :
    FcLaw daRef (getFunctionalConstraint daRef).computed (getFunctionalConstraint daRef).fcStr where
  entry := by
    rintro name g hn hg rfl
    rw [getFunctionalConstraint_entry hn hg]
    exact ⟨rfl, rfl⟩
  plain h := by rw [getFunctionalConstraint_plain h]
  unknown := by
    rintro name s hn rfl hunknown
    rw [getFunctionalConstraint_append hn]
    show fromString (s.take 2) = NONE
    by_contra hne
    have hcode := code_fromString hne
    rw [List.take_take, Nat.min_self] at hcode
    exact hunknown _ (known_fromString hne) hcode.symm
  writable := by
    intro s hs
    by_cases h : '[' ∈ daRef
    · obtain ⟨name, rest, rfl, hn⟩ := List.eq_append_cons_of_mem h
      rw [getFunctionalConstraint_append hn] at hs ⊢
      cases hs
      exact isWritableFC_fromString _
    · rw [getFunctionalConstraint_plain h] at hs
      cases hs

/-- **The result of `getFunctionalConstraint`.** It is delivered only for a text without
a constraint. -/
theorem getFunctionalConstraint_delivers_iff (daRef : Str) : FcDelivered daRef ↔ '[' ∉ daRef := by
  unfold FcDelivered
  rw [and_iff_right (fcLaw_computed daRef)]
  constructor
  · intro hreturned h
    obtain ⟨name, rest, rfl, hn⟩ := List.eq_append_cons_of_mem h
    rw [getFunctionalConstraint_append hn] at hreturned
    cases hreturned
  · intro h
    rw [getFunctionalConstraint_plain h]

/-- The status value of a data object. -/
theorem stVal_not_delivered : ¬ FcDelivered "stVal[ST]".toList := by
  rintro ⟨-, hreturned⟩
  exact absurd hreturned (by decide)

/-! ## Explanations -/

/-- The table `fcExplains` (iec61850_server_defs.c:33–50), read by
`getFCExplainString`. -/
def getFCExplainString : FunctionalConstraint → Option Str
  | .ST => some "Status information".toList
  | .MX => some "Measurand - analog value".toList
  | .SP => some "Setpoint".toList
  | .SV => some "Substitution".toList
  | .CF => some "Configuration".toList
  | .DC => some "Description".toList
  | .SG => some "Setting group".toList
  | .SE => some "Setting group editable".toList
  | .SR => some "Service response / Service tracking".toList
  | .OR => some "Operate received".toList
  | .BL => some "Blocking".toList
  | .EX => some "Extended definition".toList
  | .CO => some "Control".toList
  | .US => some "Unicast SV".toList
  | .MS => some "Multicast SV".toList
  | .RP => some "Unbuffered report".toList
  | .BR => some "Buffered report".toList
  | .LG => some "Log control block".toList
  | .ALL => none
  -- `IEC61850_FC_NONE` is −1 and reads the word before the table
  | .NONE => none

end DslinkIec61850
