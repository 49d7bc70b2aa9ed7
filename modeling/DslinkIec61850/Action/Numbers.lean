import DslinkIec61850.Action.Control
import DslinkIec61850.Action.Integers
import DslinkIec61850.Report.Agreement

/-!
# Parameters of type `number`

A JSON number is an integer or a real. `daValueWriteAction` takes it as a `double`,
`controlAction`, `setBufTmAction` and `setIntgPdAction` take it with
`json_integer_value`, which is 0 for a real (client_handler.c:153–162, 511–543;
report_handler.c:349–405).

* `controlsWith_iff`, `writesWith_of_number`, `setsWith_iff`: each path on its own.
* `numbers_agree_iff`: the numbers that all paths take as themselves.
-/

namespace DslinkIec61850

open DSLink LinkState Run ClientReportControlBlock

/-! ## JSON numbers -/

namespace Json

/-- A JSON number with an integral value, in one of its two representations. -/
def IsNumber (v : Json) (n : ℤ) : Prop := v = .integer n ∨ v = .real n

theorem IsNumber.hasType {v : Json} {n : ℤ} (h : v.IsNumber n) : HasType .number (some v) := by
  rcases h with rfl | rfl
  · trivial
  · trivial

/-- As a `double` both representations are the number. -/
theorem IsNumber.castDouble {v : Json} {lo hi n : ℤ} (h : v.IsNumber n) (hlo : -2 ^ 52 ≤ lo)
    (hhi : hi ≤ 2 ^ 52)
    (hn : lo ≤ n ∧ n ≤ hi) : castDouble lo hi (numberValue (some v)) = .ok n := by
  rcases h with rfl | rfl
  · rw [castDouble_integer hlo hhi, if_pos hn]
  · rw [numberValue, castDouble_intCast, if_pos hn]

/-- As an integer only one representation is, unless the number is 0. -/
theorem IsNumber.integerValue_eq_iff {v : Json} {n : ℤ} (h : v.IsNumber n) :
    integerValue (some v) = n ↔ v = .integer n ∨ n = 0 := by
  rcases h with rfl | rfl
  · simp [integerValue]
  · simp [integerValue, eq_comm]

theorem IsNumber.integerValue_cases {v : Json} {n : ℤ} (h : v.IsNumber n) :
    integerValue (some v) = n ∨ integerValue (some v) = 0 := by
  rcases h with rfl | rfl
  · exact .inl rfl
  · exact .inr rfl

end Json

/-! ## The paths -/

/-- `controlAction` on a control of type `MMS_INTEGER`, given the parameter, operates
with the number and with nothing else. -/
def ControlsWith (v : Json) (n : ℤ) : Prop :=
  ∀ {σ W : Type} [DSLink σ] (svc : IedService W) (s : LinkState σ W) (node : Path) (params : Json)
    (con : ConnId) (ref typeStr : Str), FindsControl s node con ref typeStr →
    MmsType.isMmsTypeFromString typeStr .integer →
    (controlModelOf svc s con ref).isSome → params.objectGet daValueRefNodeKey = some v →
    ∃ call s₁ control b, beginControl svc s node params = .ok (some call, s₁) ∧
      call.control = some control ∧ call.ctlVal = .integer b ∧ b.value = n ∧
      ∀ r ∈ (performControl svc s₁ call.con control call.ctlVal).requests.drop s₁.requests.length,
        ∀ ref' m, r.2 = .operate ref' m → m = .integer b

/-- `daValueWriteAction` on an attribute of type `MMS_INTEGER` writes the number. -/
def WritesWith (v : Json) (n : ℤ) : Prop :=
  ∀ {σ W : Type} [DSLink σ] (svc : IedService W) (s : LinkState σ W) (node : Path) (params : Json)
    (con : ConnId)
    (ref : Str) (fc : FunctionalConstraint), WritesTo svc s node con ref fc .integer →
    params.objectGet daValueRefNodeKey = some v →
    ∃ s' readBack b, writeAttribute svc s node params = .ok (s', readBack) ∧
      s'.requests = s.requests ++ [(con, .writeObject ref fc (.integer b))] ∧ b.value = n

/-- `setBufTmAction` and `setIntgPdAction` store and display the number when the server
accepts the write. -/
def SetsWith (v : Json) (n : ℕ) : Prop :=
  ∀ e : RcbElement, e = .bufTm ∨ e = .intgPd →
  ∀ {σ W : Type} [DSLink σ] (svc : IedService W) (s : LinkState σ W) (rcbNode : Path)
    (params : Json) (con : ConnId)
    (ref : Str) (rcb : ClientReportControlBlock), SetsRcb svc s rcbNode e con ref rcb →
    outcomeOf svc s con ref rcb e params = .accepted → valueMember params = some v →
    ∃ s', setAction e svc s (rcbNode ++ [keyOf e, "set".toList]) params = .ok s' ∧
      Shows s'.tree rcbNode e (.number n)

theorem controlValue_integer {params : Json} {typeStr : Str}
    (h : MmsType.isMmsTypeFromString typeStr .integer = true) :
    controlValue params typeStr =
      some (.newInteger32 (intValue (params.objectGet daValueRefNodeKey))) := by
  have hstr : typeStr = MmsType.typeString .integer := eq_of_beq h
  have hbool : MmsType.isMmsTypeFromString typeStr .boolean = false := by
    rw [hstr]
    decide
  rw [controlValue, hbool, if_neg Bool.false_ne_true, if_pos h]

theorem intValue_of_int32 {v : Option Json} (hlo : -2 ^ 31 ≤ Json.integerValue v)
    (hhi : Json.integerValue v < 2 ^ 31) : intValue v = Json.integerValue v := by
  unfold intValue
  omega

/-- What an integer control operates with. -/
theorem controls_integer {σ W : Type} [DSLink σ] (svc : IedService W) {s : LinkState σ W}
    {node : Path}
    (params : Json) {con : ConnId} {ref typeStr : Str} (h : FindsControl s node con ref typeStr)
    (htype : MmsType.isMmsTypeFromString typeStr .integer = true)
    (hmodel : (controlModelOf svc s con ref).isSome = true) :
    ∃ s₁ control, beginControl svc s node params =
        .ok (some { con := con, control := some control,
                    ctlVal := .newInteger32 (intValue (params.objectGet daValueRefNodeKey)) }, s₁) ∧
      ∀ m, ∀ r ∈ (performControl svc s₁ con control m).requests.drop s₁.requests.length,
        ∀ ref' m', r.2 = .operate ref' m' → m' = m := by
  have hbegin := beginControl_eq svc h params
  rw [controlValue_integer htype] at hbegin
  rcases controlObjectCreate_eq svc ref h.live with ⟨hnone, -, -⟩ | ⟨ctlModel, -, hcreated, -⟩
  · rw [hnone] at hmodel
    cases hmodel
  · rw [hcreated] at hbegin
    refine ⟨_, _, hbegin, ?_⟩
    intro m r hr ref' m' hoperate
    rw [(performControl_eq svc _ con _ m).1, List.drop_left] at hr
    obtain ⟨request, hrequest, rfl⟩ := List.mem_map.1 hr
    rw [show request = .operate ref' m' from hoperate] at hrequest
    exact mem_controlRequests hrequest

theorem writesWith_of_number {v : Json} {n : ℤ} (h : v.IsNumber n) (hlo : -2 ^ 31 ≤ n)
    (hhi : n < 2 ^ 31) : WritesWith v n := by
  intro σ W _ svc s node params con ref fc hwrites hparam
  have hvalue : valueToWrite (params.objectGet "Value".toList) .integer =
      .ok (some (.newInteger32 n)) := by
    have hcast := h.castDouble (show -2 ^ 52 ≤ -2 ^ 31 by norm_num)
      (show 2 ^ 31 - 1 ≤ 2 ^ 52 by norm_num) ⟨hlo, by omega⟩
    rw [show params.objectGet "Value".toList = _ from hparam, valueToWrite, hcast]
    rfl
  obtain ⟨s', readBack, hrun, hreq⟩ := writeAttribute_ends hwrites hvalue
  exact ⟨s', readBack, _, hrun, hreq, BerInteger.value_setInt32 hlo hhi⟩

/-! ## A position and a buffer time -/

/-- The switch with a status of type `MMS_INTEGER`. -/
def positionState : LinkState NodeStore Unit :=
  { switchState with
    tree := setValue switchTree ["srv_a".toList, "Pos".toList, "stVal[ST]".toList,
      "MMS Type".toList] (some (.string "MMS_INTEGER".toList)) }

theorem positionState_findsControl :
    FindsControl positionState switchControlNode 0 "D/L.Pos".toList "MMS_INTEGER".toList where
  target := rfl
  connection := rfl
  live := by decide

/-- A server that accepts every write to an RCB. -/
def agreeableService : IedService Unit :=
  { IedService.silent Unit with writeRCB := fun w _ _ _ _ => (true, w) }

theorem idleState_setsRcb_accepting (e : RcbElement) :
    SetsRcb agreeableService idleState idleRcbNode e 0 "D/L.RP.r".toList idleRcb :=
  { idleState_setsRcb e with replies := by intro w values h; cases h }

/-- The parameters of an action with a `Value`. -/
def valueParams (v : Json) : Json := .object [(daValueRefNodeKey, v)]

theorem objectGet_valueParams (v : Json) :
    (valueParams v).objectGet daValueRefNodeKey = some v := by
  simp [valueParams, Json.objectGet]

/-! ## Which numbers are taken as themselves -/

variable {v : Json}

theorem controlsWith_iff {n : ℤ} (h : v.IsNumber n) (hlo : -2 ^ 31 ≤ n) (hhi : n < 2 ^ 31) :
    ControlsWith v n ↔ v = .integer n ∨ n = 0 := by
  have hint : intValue (some v) = Json.integerValue (some v) := by
    rcases h.integerValue_cases with heq | heq
    · exact intValue_of_int32 (by omega) (by omega)
    · exact intValue_of_int32 (by omega) (by omega)
  have hvalue : (BerInteger.createInt32.setInt32 (intValue (some v))).value =
      Json.integerValue (some v) := by
    rw [hint]
    rcases h.integerValue_cases with heq | heq
    · exact BerInteger.value_setInt32 (by omega) (by omega)
    · exact BerInteger.value_setInt32 (by omega) (by omega)
  rw [← h.integerValue_eq_iff]
  constructor
  · intro hcontrols
    obtain ⟨call, s₁, control, b, hbegin, -, hctlVal, hb, -⟩ :=
      hcontrols switchService positionState switchControlNode
      (valueParams v) 0 _ _ positionState_findsControl (by decide) rfl (objectGet_valueParams v)
    obtain ⟨s₁', control', hbegin', -⟩ := controls_integer switchService (valueParams v)
      positionState_findsControl (by decide) rfl
    have hcall := (Prod.mk.inj (Except.ok.inj (hbegin.symm.trans hbegin'))).1
    rw [Option.some.inj hcall, objectGet_valueParams] at hctlVal
    rw [← hb, ← hvalue, MmsValue.integer.inj hctlVal]
  · intro heq σ W _ svc s node params con ref typeStr hfinds htype hmodel hparam
    obtain ⟨s₁, control, hbegin, hoperates⟩ := controls_integer svc params hfinds htype hmodel
    rw [hparam] at hbegin
    exact ⟨_, s₁, control, _, hbegin, rfl, rfl, hvalue.trans heq, hoperates _⟩

theorem setsWith_iff {n : ℕ} (h : v.IsNumber n) (hn : n < 2 ^ 32) :
    SetsWith v n ↔ v = .integer n ∨ (n : ℤ) = 0 := by
  have huint {params : Json} (hparam : valueMember params = some v) :
      (uint32Value params : ℤ) = Json.integerValue (some v) := by
    rw [uint32Value, hparam]
    rcases h.integerValue_cases with heq | heq
    · omega
    · omega
  have htyped {params : Json} {e : RcbElement} (he : e = .bufTm ∨ e = .intgPd)
      (hparam : valueMember params = some v) :
      WellTyped params e ∧ paramOf params e = .number (uint32Value params) := by
    rcases he with rfl | rfl
    · exact ⟨by rw [WellTyped, hparam]; exact h.hasType, rfl⟩
    · exact ⟨by rw [WellTyped, hparam]; exact h.hasType, rfl⟩
  rw [← h.integerValue_eq_iff]
  constructor
  · intro hsets
    have hparam : valueMember (valueParams v) = some v := objectGet_valueParams v
    obtain ⟨hwell, hcontent⟩ := htyped (.inl rfl) hparam
    obtain ⟨s', hrun, -, shown, hjson, hdisplayed⟩ :=
      hsets .bufTm (.inl rfl) agreeableService idleState idleRcbNode
      (valueParams v) 0 _ _ (idleState_setsRcb_accepting .bufTm) rfl hparam
    have houtcome := setAction_outcome (idleState_setsRcb_accepting .bufTm) hwell
    rw [show outcomeOf agreeableService idleState 0 "D/L.RP.r".toList idleRcb .bufTm
      (valueParams v) = .accepted from rfl] at houtcome
    obtain ⟨s'', hrun', -, shown', hjson', hdisplayed'⟩ := houtcome
    cases hrun.symm.trans hrun'
    rw [hcontent] at hjson'
    cases hdisplayed.symm.trans hdisplayed'
    cases hjson
    have hsame := Json.integer.inj (Option.some.inj (Except.ok.inj hjson'))
    rw [← huint hparam, hsame]
  · intro heq e he σ W _ svc s rcbNode params con ref rcb hrcb haccepted hparam
    obtain ⟨hwell, hcontent⟩ := htyped he hparam
    have houtcome := setAction_outcome hrcb hwell
    rw [haccepted, hcontent] at houtcome
    have hnumber : uint32Value params = n := by
      have := huint hparam
      omega
    rwa [hnumber] at houtcome

/-- **Numbers.** All paths take a JSON number with an integral value as that value iff it
is a JSON integer or 0. -/
theorem numbers_agree_iff {n : ℤ} (h : v.IsNumber n) :
    (-2 ^ 31 ≤ n ∧ n < 2 ^ 31 → (ControlsWith v n ∧ WritesWith v n ↔ v = .integer n ∨ n = 0)) ∧
    (0 ≤ n ∧ n < 2 ^ 32 → (SetsWith v n.toNat ↔ v = .integer n ∨ n = 0)) := by
  constructor
  · rintro ⟨hlo, hhi⟩
    rw [controlsWith_iff h hlo hhi]
    exact and_iff_left_iff_imp.2 fun _ => writesWith_of_number h hlo hhi
  · rintro ⟨hlo, hhi⟩
    have hcast : (n.toNat : ℤ) = n := Int.toNat_of_nonneg hlo
    have hsets := setsWith_iff (v := v) (n := n.toNat) (by rwa [hcast]) (by omega)
    rwa [hcast] at hsets

theorem numbers_agree_iff_three :
    (-2 ^ 31 ≤ (3 : ℤ) ∧ (3 : ℤ) < 2 ^ 31 →
      (ControlsWith (.real (3 : ℤ)) 3 ∧ WritesWith (.real (3 : ℤ)) 3 ↔
        Json.real (3 : ℤ) = .integer 3 ∨ (3 : ℤ) = 0)) ∧
    (0 ≤ (3 : ℤ) ∧ (3 : ℤ) < 2 ^ 32 →
      (SetsWith (.real (3 : ℤ)) (3 : ℤ).toNat ↔ Json.real (3 : ℤ) = .integer 3 ∨ (3 : ℤ) = 0)) :=
  numbers_agree_iff (v := .real (3 : ℤ)) (.inr rfl)

/-- The position 3.0 is written as 3, but operated and set as another number. -/
theorem three_disagrees :
    WritesWith (.real (3 : ℤ)) 3 ∧ ¬ ControlsWith (.real (3 : ℤ)) 3 ∧
    ¬ SetsWith (.real (3 : ℤ)) 3 := by
  have hnumber : (Json.real (3 : ℤ)).IsNumber 3 := .inr rfl
  have hnot : ¬ (Json.real (3 : ℤ) = .integer 3 ∨ (3 : ℤ) = 0) := by simp
  refine ⟨writesWith_of_number hnumber (by norm_num) (by norm_num), ?_, ?_⟩
  · rw [controlsWith_iff hnumber (by norm_num) (by norm_num)]
    exact hnot
  · rw [setsWith_iff (n := 3) hnumber (by norm_num)]
    exact hnot

end DslinkIec61850
