import DslinkIec61850.Discovery.DataDirectory
import DslinkIec61850.Link.Actions

/-!
# Missing and mistyped parameters

Seven actions change the IED; each has one parameter `Value`, whose type is declared in
the `$params` of its node. The accessors of jansson give 0, `false` or `NULL` for a
member that is absent or has another type, and the actions go on with that.

* `harmless_iff_spared`: an invocation that neither sends nor shows anything is one that
  does not get that far.
* `mistyped_harmless_iff`: when a missing or mistyped parameter has no effect.
-/

namespace DslinkIec61850

open DSLink LinkState Run Strings Json

/-! ## Declared types -/

/-- The type declared for the parameter `Value`. -/
def declaredType (n : DSNode) : Option Str :=
  match n.getMeta "$params".toList with
  | some (.array rows) =>
    (rows.find? fun row =>
      Json.stringValue (row.objectGet "name".toList) == some daValueRefNodeKey).bind fun row =>
      Json.stringValue (row.objectGet "type".toList)
  | _ => none

/-- The JSON values of a declared type; `enum[…]` is a text. -/
def paramTypeOf (type : Str) : Option ParamType :=
  if type = "bool".toList then some .bool
  else if type = "number".toList then some .number
  else if type = "string".toList ∨ type.take 5 = "enum[".toList then some .string
  else none

theorem declaredType_action (n : DSNode) (type : Str) :
    declaredType (n.setMeta "$params".toList (.array [DSNode.paramRow daValueRefNodeKey type])) =
      some type := by
  unfold declaredType
  rw [DSNode.getMeta_setMeta, if_pos rfl]
  rfl

/-- A control takes a number or a truth value. -/
theorem declaredType_controlNode (type : MmsType) :
    (declaredType (controlNode type)).bind paramTypeOf =
      some (if type = .integer then .number else .bool) := by
  cases type <;> rfl

/-- What a written value is given as. -/
def writeParam : MmsType → ParamType
  | .integer => .number
  | .unsigned => .number
  | .boolean => .bool
  | .float => .number
  | _ => .string

theorem declaredType_valueWriteNode (type : MmsType) :
    (declaredType (valueWriteNode type)).bind paramTypeOf = some (writeParam type) := by
  cases type <;> rfl

theorem declaredType_setNode (f : Callback) (type : Str) :
    declaredType (setNode f (valueParam type)) = some type :=
  declaredType_action _ _

variable {σ W : Type} [DSLink σ]

/-- The action of a node declares its parameter with a type. -/
def Declares (t : σ) (node : Path) (p : ParamType) : Prop :=
  ∃ n, lookup t node = some n ∧ (declaredType n).bind paramTypeOf = some p

/-! ## The actions -/

/-- The actions that change the IED. -/
inductive ChangeAction where
  | control | writeValue | setRptEna | setRptId | setDatSet | setBufTm | setIntgPd
  deriving DecidableEq, Repr

/-- The function that is installed. -/
def ChangeAction.callback : ChangeAction → Callback
  | .control => .controlAction
  | .writeValue => .daValueWriteAction
  | .setRptEna => .setRptEnaAction
  | .setRptId => .setRptIdAction
  | .setDatSet => .setDatSetAction
  | .setBufTm => .setBufTmAction
  | .setIntgPd => .setIntgPdAction

/-- The node that a discovery makes for the action; `type` is the type of the attribute. -/
def ChangeAction.node (type : MmsType) : ChangeAction → DSNode
  | .control => controlNode type
  | .writeValue => valueWriteNode type
  | .setRptEna => setNode .setRptEnaAction (valueParam "bool".toList)
  | .setRptId => setNode .setRptIdAction (valueParam "string".toList)
  | .setDatSet => setNode .setDatSetAction (valueParam "enum[]".toList)
  | .setBufTm => setNode .setBufTmAction (valueParam "number".toList)
  | .setIntgPd => setNode .setIntgPdAction (valueParam "number".toList)

/-- What this node asks for. -/
def ChangeAction.param (type : MmsType) : ChangeAction → ParamType
  | .control => if type = .integer then .number else .bool
  | .writeValue => writeParam type
  | .setRptEna => .bool
  | .setRptId | .setDatSet => .string
  | .setBufTm | .setIntgPd => .number

/-- The nodes of the discovery declare their parameters. -/
theorem ChangeAction.declares_node (a : ChangeAction) (type : MmsType) {t : σ} {node : Path}
    (h : lookup t node = some (a.node type)) : Declares t node (a.param type) := by
  refine ⟨_, h, ?_⟩
  cases a with
  | control => exact declaredType_controlNode type
  | writeValue => exact declaredType_valueWriteNode type
  | setDatSet =>
    rw [ChangeAction.node, declaredType_setNode]
    show paramTypeOf "enum[]".toList = some .string
    decide
  | setRptEna | setRptId | setBufTm | setIntgPd =>
    rw [ChangeAction.node, declaredType_setNode]
    rfl

/-- Nothing is sent, and every node is as it was, with its value and its RCB. -/
def Harmless (s : LinkState σ W) (run : Except Fault (LinkState σ W)) : Prop :=
  ∃ s', run = .ok s' ∧ s'.requests = s.requests ∧ ∀ p, lookup s'.tree p = lookup s.tree p

/-- A parameter that is missing or has another type than the declared one is harmless. -/
def MistypedHarmless (svc : IedService W) (s : LinkState σ W) (a : ChangeAction) (node : Path)
    (params : Json) : Prop :=
  ∀ p, Declares s.tree node p → ¬ HasType p (valueMember params) →
    Harmless s (invokeAction svc s node params a.callback)

/-! ## Reading back -/

/-- A node that is live shows what it would be made to show. -/
def AlreadyShows (t : σ) (node : Path) (v : Option Json) : Prop :=
  ∀ n, lookup t node = some n → v.getD (nullValue σ n.value) = n.value

theorem lookup_setValue_eq_iff (t : σ) (node : Path) (v : Option Json) :
    (∀ p, lookup (setValue t node v) p = lookup t p) ↔ AlreadyShows t node v := by
  constructor
  · intro h n hn
    have hself := h node
    rw [lookup_setValue, if_pos rfl, hn, Option.map_some] at hself
    exact congrArg DSNode.value (Option.some.inj hself)
  · intro h p
    rw [lookup_setValue]
    split_ifs with hp
    · cases hn : lookup t node with
      | none => rw [hp, hn, Option.map_none]
      | some n => rw [hp, hn, Option.map_some, h n hn]
    · rfl

/-- The value node can be read back, and what the server returns is shown already. -/
def RereadKeeps (svc : IedService W) (s : LinkState σ W) (node : Path) : Prop :=
  ∀ fcStr objRef, attributeOf s.tree node.dropLast = some (fcStr, objRef) →
    ∃ code, fcStr = some code ∧ (s.getServerIedConnection node = .ok none ∨
      ∃ con ref, s.getServerIedConnection node = .ok (some con) ∧ objRef = some ref ∧
        ∀ v, (svc.readObject s.world con ref (FunctionalConstraint.fromString code)).1 = some v →
          ∃ shown, shownValue v = .ok shown ∧ ∀ json, shown = some json →
            AlreadyShows s.tree node json)

theorem nodeValueRead_keeps_iff (svc : IedService W) (s : LinkState σ W) (node : Path) :
    (∃ s', nodeValueRead svc s node = .ok s' ∧ ∀ p, lookup s'.tree p = lookup s.tree p) ↔
      RereadKeeps svc s node := by
  unfold nodeValueRead RereadKeeps
  cases hattr : attributeOf s.tree node.dropLast with
  | none => simp
  | some texts =>
    obtain ⟨fcStr, objRef⟩ := texts
    constructor
    · rintro ⟨s', hrun, hkeeps⟩ fcStr' objRef' heq
      cases heq
      obtain ⟨code, hcode, hrun⟩ := bind_eq_ok.1 hrun
      refine ⟨code, deref_eq_ok.1 hcode, ?_⟩
      obtain ⟨con, hcon, hrun⟩ := bind_eq_ok.1 hrun
      cases con with
      | none => exact .inl hcon
      | some con =>
        obtain ⟨ref, href, hrun⟩ := bind_eq_ok.1 hrun
        refine .inr ⟨con, ref, hcon, deref_eq_ok.1 href, ?_⟩
        intro v hv
        dsimp only [LinkState.call] at hrun
        rw [hv] at hrun
        obtain ⟨t, ht, hrun⟩ := bind_eq_ok.1 hrun
        obtain ⟨shown, hshown, ht⟩ := bind_eq_ok.1 ht
        refine ⟨shown, hshown, ?_⟩
        rintro json rfl
        cases ht
        cases hrun
        exact (lookup_setValue_eq_iff _ _ _).1 hkeeps
    · intro h
      obtain ⟨code, hcode, h⟩ := h _ _ rfl
      dsimp only
      rw [deref_eq_ok.2 hcode, ok_bind]
      rcases h with hnone | ⟨con, ref, hcon, href, hread⟩
      · rw [hnone, ok_bind]
        exact ⟨s, rfl, fun _ => rfl⟩
      · rw [hcon, ok_bind]
        dsimp only
        rw [deref_eq_ok.2 href, ok_bind]
        dsimp only [LinkState.call]
        cases hv : (svc.readObject s.world con ref (FunctionalConstraint.fromString code)).1 with
        | none => exact ⟨_, rfl, fun _ => rfl⟩
        | some v =>
          obtain ⟨shown, hshown, hshows⟩ := hread v hv
          dsimp only [setValueNodeFromMMS]
          rw [hshown, ok_bind]
          cases shown with
          | none => exact ⟨_, rfl, fun _ => rfl⟩
          | some json => exact ⟨_, rfl, (lookup_setValue_eq_iff _ _ _).2 (hshows json rfl)⟩

/-! ## Writing a value -/

/-- Nothing is written: the type is not handled, or the text is refused. -/
def WritesNothing (param : Option Json) : MmsType → Prop
  | .integer | .unsigned | .boolean | .visibleString | .string | .float => False
  | .utcTime => ∃ text, param = some (.string text) ∧ Iso8601.parseIso8601 text = some 0
  | .bitString => ∃ text, param = some (.string text) ∧ parseBitString text = .ok 0
  | _ => True

omit [DSLink σ] in
theorem stringValue_eq_some {param : Option Json} {text : Str} :
    Json.stringValue param = some text ↔ param = some (.string text) := by
  constructor
  · intro h
    unfold Json.stringValue at h
    split at h
    · rw [Option.some.inj h]
    · cases h
  · rintro rfl
    rfl

omit [DSLink σ] in
theorem valueToWrite_none_iff (param : Option Json) (type : MmsType) :
    valueToWrite param type = .ok none ↔ WritesNothing param type := by
  cases type with
  | integer =>
    refine iff_of_false ?_ id
    intro h
    obtain ⟨_, -, h⟩ := bind_eq_ok.1 h
    cases h
  | unsigned =>
    refine iff_of_false ?_ id
    intro h
    obtain ⟨_, -, h⟩ := bind_eq_ok.1 h
    cases h
  | utcTime =>
    constructor
    · intro h
      obtain ⟨text, htext, h⟩ := bind_eq_ok.1 h
      refine ⟨text, stringValue_eq_some.1 (deref_eq_ok.1 htext), ?_⟩
      split at h
      · cases h
      · rename_i msTime hms
        split_ifs at h with hzero
        · cases h
        · rw [hms, not_not.1 hzero]
    · rintro ⟨text, rfl, hms⟩
      have htext : Json.stringValue (some (.string text)) = some text := rfl
      unfold valueToWrite
      dsimp only
      rw [htext, deref, ok_bind, hms]
      rfl
  | bitString =>
    constructor
    · intro h
      obtain ⟨text, htext, h⟩ := bind_eq_ok.1 h
      obtain ⟨size, hsize, h⟩ := bind_eq_ok.1 h
      refine ⟨text, stringValue_eq_some.1 (deref_eq_ok.1 htext), ?_⟩
      split_ifs at h with hzero
      · cases h
      · rw [hsize, not_not.1 hzero]
    · rintro ⟨text, rfl, hsize⟩
      show (parseBitString text >>= fun size =>
        if size ≠ 0 then throw .uninitialised else return none :
        Except Fault (Option MmsValue)) = .ok none
      rw [hsize]
      rfl
  | boolean => exact iff_of_false (fun h => by cases h) id
  | visibleString => exact iff_of_false (fun h => by cases h) id
  | string => exact iff_of_false (fun h => by cases h) id
  | float => exact iff_of_false (fun h => by cases h) id
  | _ => exact iff_of_true rfl trivial

/-- The write does not get to its request: the attribute, the connection or the type is
missing, or nothing is written and the value that is read back is shown already. -/
def WriteSpared (svc : IedService W) (s : LinkState σ W) (node : Path) (params : Json) : Prop :=
  ∀ fcStr objRef, attributeOf s.tree node.dropLast.dropLast = some (fcStr, objRef) →
    ∃ code, fcStr = some code ∧ (s.getServerIedConnection node = .ok none ∨
      ∃ con ref, s.getServerIedConnection node = .ok (some con) ∧ objRef = some ref ∧
        ∀ type, (svc.getVariableSpecification s.world con ref
          (FunctionalConstraint.fromString code)).1 = some type →
          WritesNothing (valueMember params) type ∧
            RereadKeeps svc
              (s.call fun w =>
                svc.getVariableSpecification w con ref (FunctionalConstraint.fromString code)).2
              node.dropLast)

theorem nodeValueRead_harmless_iff (svc : IedService W) (s : LinkState σ W) (node : Path) :
    Harmless s (nodeValueRead svc s node) ↔ RereadKeeps svc s node := by
  rw [← nodeValueRead_keeps_iff]
  constructor
  · rintro ⟨s', hrun, -, hkeeps⟩
    exact ⟨s', hrun, hkeeps⟩
  · rintro ⟨s', hrun, hkeeps⟩
    exact ⟨s', hrun, (nodeValueRead_treeStep hrun).requests_eq, hkeeps⟩

theorem daValueWriteAction_harmless_iff (svc : IedService W) (s : LinkState σ W) (node : Path)
    (params : Json) :
    Harmless s (daValueWriteAction svc s node params) ↔ WriteSpared svc s node params := by
  unfold WriteSpared
  constructor
  · rintro hharmless fcStr objRef hattr
    obtain ⟨s', hrun, hend⟩ := hharmless
    obtain ⟨⟨s₁, readBack⟩, hwrite, hread⟩ := bind_eq_ok.1 hrun
    unfold writeAttribute at hwrite
    rw [hattr] at hwrite
    obtain ⟨code, hcode, hwrite⟩ := bind_eq_ok.1 hwrite
    refine ⟨code, deref_eq_ok.1 hcode, ?_⟩
    obtain ⟨con, hcon, hwrite⟩ := bind_eq_ok.1 hwrite
    cases con with
    | none => exact .inl hcon
    | some con =>
      obtain ⟨ref, href, hwrite⟩ := bind_eq_ok.1 hwrite
      refine .inr ⟨con, ref, hcon, deref_eq_ok.1 href, ?_⟩
      intro type htype
      dsimp only [LinkState.call] at hwrite
      rw [htype] at hwrite
      obtain ⟨value, hvalue, hwrite⟩ := bind_eq_ok.1 hwrite
      cases value with
      | none =>
        cases hwrite
        exact ⟨(valueToWrite_none_iff _ _).1 hvalue,
          (nodeValueRead_harmless_iff _ _ _).1 ⟨s', hread, hend⟩⟩
      | some value =>
        cases hwrite
        have hsent := (nodeValueRead_treeStep hread).requests_eq
        rw [hend.1] at hsent
        simp [LinkState.send] at hsent
  · intro h
    unfold daValueWriteAction writeAttribute
    cases hattr : attributeOf s.tree node.dropLast.dropLast with
    | none => exact ⟨s, rfl, rfl, fun _ => rfl⟩
    | some texts =>
      obtain ⟨fcStr, objRef⟩ := texts
      obtain ⟨code, hcode, h⟩ := h _ _ hattr
      dsimp only
      rw [deref_eq_ok.2 hcode, ok_bind]
      rcases h with hnone | ⟨con, ref, hcon, href, hspec⟩
      · rw [hnone]
        exact ⟨s, rfl, rfl, fun _ => rfl⟩
      · rw [hcon]
        simp only [ok_bind]
        rw [deref_eq_ok.2 href, ok_bind]
        dsimp only [LinkState.call]
        cases htype : (svc.getVariableSpecification s.world con ref
          (FunctionalConstraint.fromString code)).1 with
        | none => exact ⟨_, rfl, rfl, fun _ => rfl⟩
        | some type =>
          obtain ⟨hnothing, hkeeps⟩ := hspec type htype
          have hvalue : valueToWrite (params.objectGet "Value".toList) type = .ok none :=
            (valueToWrite_none_iff _ _).2 hnothing
          dsimp only
          rw [hvalue]
          exact (nodeValueRead_harmless_iff _ _ _).2 hkeeps

/-! ## Setting an attribute of an RCB -/

/-- The set action finds the RCB, but no connection or no reference to it. -/
def SetSpared (s : LinkState σ W) (node : Path) : Prop :=
  ∃ con ref rcb, s.getServerIedConnection node = .ok con ∧
    shownText s.tree node.dropLast.dropLast objRefNodeKey = .ok ref ∧
    rcbOf s.tree node.dropLast.dropLast = .ok rcb ∧
    (con = none ∨ ref = none)

theorem setRcbElement_harmless_iff (svc : IedService W) (s : LinkState σ W) (node : Path)
    (element : RcbElement)
    (update : ClientReportControlBlock → ClientReportControlBlock) (key : Str)
    (shown : Except Fault (Option Json)) :
    Harmless s (setRcbElement svc s node element update key shown) ↔ SetSpared s node := by
  constructor
  · rintro ⟨s', hrun, hreq, -⟩
    obtain ⟨con, hcon, hrun⟩ := bind_eq_ok.1 hrun
    obtain ⟨ref, href, hrun⟩ := bind_eq_ok.1 hrun
    obtain ⟨rcb, hrcb, hrun⟩ := bind_eq_ok.1 hrun
    refine ⟨con, ref, rcb, hcon, href, hrcb, ?_⟩
    by_contra hboth
    push Not at hboth
    obtain ⟨con, rfl⟩ := Option.ne_none_iff_exists'.1 hboth.1
    obtain ⟨ref, rfl⟩ := Option.ne_none_iff_exists'.1 hboth.2
    obtain ⟨json, -, hrun⟩ := bind_eq_ok.1 hrun
    obtain ⟨t, -, hrun⟩ := bind_eq_ok.1 hrun
    dsimp only at hrun
    split_ifs at hrun
    · cases hrun
      simp [setRCBValues, LinkState.send] at hreq
    · obtain ⟨⟨read, s₁⟩, hread, hrun⟩ := bind_eq_ok.1 hrun
      obtain ⟨t', -, hrun⟩ := bind_eq_ok.1 hrun
      cases hrun
      have hsent := (getRCBValues_ok hread).2.requests_eq
      rw [← show s₁.requests = s.requests from hreq] at hsent
      simp [setRCBValues, LinkState.send] at hsent
  · rintro ⟨con, ref, rcb, hcon, href, hrcb, hnone⟩
    unfold setRcbElement
    simp only [hcon, href, hrcb, ok_bind]
    rcases hnone with rfl | rfl
    · exact ⟨s, rfl, rfl, fun _ => rfl⟩
    · cases con <;> exact ⟨s, rfl, rfl, fun _ => rfl⟩

/-! ## Controlling -/

/-- The status of the controlled object, where it has a `Value`, keeps what it shows. -/
def StatusKept (svc : IedService W) (s : LinkState σ W) (object : Path) : Prop :=
  ∀ valueNode, ((child s.tree object "stVal[ST]".toList).bind fun stVal =>
    child s.tree stVal daValueRefNodeKey) = some valueNode → RereadKeeps svc s valueNode

/-- The control does not get to a request: a node, the connection or a value for the type
is missing, or the control model allows none and the status that is read back is shown
already. -/
def ControlSpared (svc : IedService W) (s : LinkState σ W) (node : Path) : Prop :=
  ∀ objRef typeStr, controlTarget s.tree node.dropLast = some (objRef, typeStr) →
    s.getServerIedConnection node = .ok none ∨
    ∃ con ref type, s.getServerIedConnection node = .ok (some con) ∧ objRef = some ref ∧
      typeStr = some type ∧ (¬ HandledType type ∨
        (controlModelOf svc s con ref = some .statusOnly ∨
          controlModelOf svc s con ref = some .undefined) ∧
          StatusKept svc (controlObjectCreate svc s con ref).2 node.dropLast)

theorem setControlStVal_harmless_iff (svc : IedService W) (s : LinkState σ W) (object : Path) :
    Harmless s (setControlStVal svc s object) ↔ StatusKept svc s object := by
  unfold setControlStVal StatusKept
  cases h : (child s.tree object "stVal[ST]".toList).bind fun stVal =>
    child s.tree stVal daValueRefNodeKey with
  | none =>
    refine iff_of_true ⟨s, rfl, rfl, fun _ => rfl⟩ ?_
    intro valueNode hv
    cases hv
  | some valueNode =>
    rw [show Harmless s (nodeValueRead svc s valueNode) ↔
      _ from nodeValueRead_harmless_iff svc s valueNode]
    constructor
    · intro hkeeps valueNode' hv
      rwa [← Option.some.inj hv]
    · intro hkeeps
      exact hkeeps _ rfl

omit [DSLink σ] in
/-- Creating a control object reads only, and gives one where the model can be read. -/
theorem controlObjectCreate_spec (svc : IedService W) (s : LinkState σ W) (con : ConnId)
    (ref : Str) :
    (controlObjectCreate svc s con ref).2.tree = s.tree ∧
    (controlObjectCreate svc s con ref).2.requests = s.requests ∧
      (controlObjectCreate svc s con ref).1.map ControlObject.ctlModel =
        controlModelOf svc s con ref := by
  unfold controlObjectCreate controlModelOf
  split_ifs with hlen
  · dsimp only [LinkState.call]
    cases (svc.createControl s.world con ref).1 with
    | none => exact ⟨rfl, rfl, rfl⟩
    | some m => exact ⟨rfl, rfl, rfl⟩
  · exact ⟨rfl, rfl, rfl⟩

/-- A model with a request, or none. -/
theorem controlRequests_eq_nil_iff (svc : IedService W) (w : W) (con : ConnId) (ref : Str)
    (v : MmsValue) (m : ControlModel) :
    controlRequests svc w con ref v m = [] ↔ m = .statusOnly ∨ m = .undefined := by
  cases m <;> simp [controlRequests]

omit [DSLink σ] in
/-- Without a request nothing is done for the control. -/
theorem performControl_idle (svc : IedService W) (s : LinkState σ W) (con : ConnId)
    {control : ControlObject}
    (v : MmsValue) (h : control.ctlModel = .statusOnly ∨ control.ctlModel = .undefined) :
    performControl svc s con control v = s := by
  unfold performControl
  rcases h with h | h
  · rw [h]
  · rw [h]

theorem controlAction_harmless_iff (svc : IedService W) (s : LinkState σ W) (node : Path)
    (params : Json) : Harmless s (controlAction svc s node params) ↔ ControlSpared svc s node := by
  constructor
  · rintro ⟨s', hrun, hreq, hkeeps⟩ objRef typeStr htarget
    obtain ⟨⟨call, s₁⟩, hbegin, hrun⟩ := bind_eq_ok.1 hrun
    unfold beginControl at hbegin
    rw [htarget] at hbegin
    obtain ⟨con, hcon, hbegin⟩ := bind_eq_ok.1 hbegin
    cases con with
    | none => exact .inl hcon
    | some con =>
      obtain ⟨ref, href, hbegin⟩ := bind_eq_ok.1 hbegin
      obtain ⟨htree, hreq₁, hmodel⟩ := controlObjectCreate_spec svc s con ref
      rcases hmade : controlObjectCreate svc s con ref with ⟨made, s₀⟩
      rw [hmade] at htree hreq₁ hmodel hbegin
      obtain ⟨type, htype, hbegin⟩ := bind_eq_ok.1 hbegin
      refine .inr ⟨con, ref, type, hcon, deref_eq_ok.1 href, deref_eq_ok.1 htype, ?_⟩
      by_cases hhandled : HandledType type
      · obtain ⟨v, hv⟩ := Option.isSome_iff_exists.1 ((controlValue_isSome params type).2 hhandled)
        rw [hv] at hbegin
        obtain ⟨rfl, rfl⟩ := Prod.mk.inj (Except.ok.inj hbegin)
        obtain ⟨control, hcontrol, hrun⟩ := bind_eq_ok.1 hrun
        obtain rfl : made = some control := deref_eq_ok.1 hcontrol
        obtain ⟨s₂, hstVal, hrun⟩ := bind_eq_ok.1 hrun
        cases hrun
        obtain ⟨hsent, -, -⟩ := performControl_eq svc s₀ con control v
        have hnone : controlRequests svc s₀.world con control.objectReference v control.ctlModel =
            [] := by
          have hlist : s₂.requests = s.requests := hreq
          rw [(setControlStVal_treeStep hstVal).requests_eq, hsent, hreq₁] at hlist
          simpa using hlist
        have hidle := (controlRequests_eq_nil_iff _ _ _ _ _ _).1 hnone
        refine .inr ⟨?_, ?_⟩
        · rw [← hmodel, Option.map_some, Option.some.injEq, Option.some.injEq]
          exact hidle
        · rw [performControl_idle svc _ con v hidle] at hstVal
          rw [hmade]
          refine (setControlStVal_harmless_iff _ _ _).1
            ⟨s₂, hstVal, (setControlStVal_treeStep hstVal).requests_eq, ?_⟩
          intro p
          rw [show s₀.tree = s.tree from htree]
          exact hkeeps p
      · exact .inl hhandled
  · intro h
    unfold controlAction beginControl
    cases htarget : controlTarget s.tree node.dropLast with
    | none => exact ⟨s, rfl, rfl, fun _ => rfl⟩
    | some texts =>
      obtain ⟨objRef, typeStr⟩ := texts
      dsimp only
      rcases h _ _ htarget with hnone | ⟨con, ref, type, hcon, rfl, rfl, hend⟩
      · rw [hnone]
        exact ⟨s, rfl, rfl, fun _ => rfl⟩
      · obtain ⟨htree, hreq, hmodel⟩ := controlObjectCreate_spec svc s con ref
        rw [hcon]
        simp only [ok_bind, deref]
        cases hv : controlValue params type with
        | none =>
          refine ⟨_, rfl, hreq, ?_⟩
          intro p
          rw [htree]
        | some v =>
          have hhandled : HandledType type := by
            rw [← controlValue_isSome params, hv]
            rfl
          obtain ⟨hidle, hkept⟩ := hend.resolve_left (not_not_intro hhandled)
          obtain ⟨s₂, hstVal, hreq₂, hkeeps⟩ := (setControlStVal_harmless_iff _ _ _).2 hkept
          cases hcontrol : (controlObjectCreate svc s con ref).1 with
          | none =>
            rw [hcontrol, Option.map_none] at hmodel
            rw [← hmodel] at hidle
            rcases hidle with h | h <;> cases h
          | some control =>
            rw [hcontrol, Option.map_some] at hmodel
            rw [← hmodel, Option.some.injEq, Option.some.injEq] at hidle
            show Harmless s (setControlStVal svc
              (performControl svc (controlObjectCreate svc s con ref).2 con control v)
                node.dropLast >>= fun s =>
                Except.ok (controlObjectDestroy s con control))
            rw [performControl_idle svc _ con v hidle, hstVal]
            refine ⟨_, rfl, hreq₂.trans hreq, ?_⟩
            intro p
            rw [← htree]
            exact hkeeps p

/-! ## All seven -/

/-- An invocation does not get to the point where its parameter matters. -/
def Spared (svc : IedService W) (s : LinkState σ W) (node : Path) (params : Json) :
    ChangeAction → Prop
  | .control => ControlSpared svc s node
  | .writeValue => WriteSpared svc s node params
  | .setRptEna | .setRptId | .setDatSet | .setBufTm | .setIntgPd => SetSpared s node

theorem harmless_iff_spared (svc : IedService W) (s : LinkState σ W) (a : ChangeAction)
    (node : Path) (params : Json) :
    Harmless s (invokeAction svc s node params a.callback) ↔ Spared svc s node params a := by
  cases a with
  | control => exact controlAction_harmless_iff svc s node params
  | writeValue => exact daValueWriteAction_harmless_iff svc s node params
  | setRptEna => exact setRcbElement_harmless_iff svc s node _ _ _ _
  | setRptId => exact setRcbElement_harmless_iff svc s node _ _ _ _
  | setDatSet => exact setRcbElement_harmless_iff svc s node _ _ _ _
  | setBufTm => exact setRcbElement_harmless_iff svc s node _ _ _ _
  | setIntgPd => exact setRcbElement_harmless_iff svc s node _ _ _ _

/-- The parameter has the type that the node declares, if it declares one. -/
def AsDeclared (t : σ) (node : Path) (params : Json) : Prop :=
  ∀ p, Declares t node p → HasType p (valueMember params)

/-- On a node of the discovery this is a condition on the parameters alone. -/
theorem asDeclared_node_iff (a : ChangeAction) (type : MmsType) {t : σ} {node : Path}
    {params : Json} (h : lookup t node = some (a.node type)) :
    AsDeclared t node params ↔ HasType (a.param type) (valueMember params) := by
  have hdeclares := a.declares_node type h
  constructor
  · intro htyped
    exact htyped _ hdeclares
  · rintro htype p ⟨n, hn, hp⟩
    obtain ⟨n', hn', hp'⟩ := hdeclares
    cases hn.symm.trans hn'
    cases hp.symm.trans hp'
    exact htype

/-- **Parameters.** A missing or mistyped parameter is harmless where there is none, or
where the action does not get as far as to use it. -/
theorem mistyped_harmless_iff (svc : IedService W) (s : LinkState σ W) (a : ChangeAction)
    (node : Path) (params : Json) :
    MistypedHarmless svc s a node params ↔ AsDeclared s.tree node params ∨
      Spared svc s node params a := by
  rw [← harmless_iff_spared]
  constructor
  · intro h
    by_contra hneither
    obtain ⟨htyped, hharm⟩ := not_or.1 hneither
    apply htyped
    intro p hp
    by_contra hmistyped
    exact hharm (h p hp hmistyped)
  · rintro (htyped | hspared) p hp hmistyped
    · exact absurd (htyped p hp) hmistyped
    · exact hspared

/-! ## A switch -/

/-- The switch with its control node as it is discovered. -/
def declaredSwitch : LinkState NodeStore Unit :=
  { switchState with
    tree := addChild switchTree ["srv_a".toList, "Pos".toList] "control".toList
      (controlNode .boolean) }

/-- A control without a parameter selects and operates the switch. -/
theorem control_missing_operates :
    ¬ MistypedHarmless switchService declaredSwitch .control switchControlNode (.object []) := by
  intro h
  have hdeclares := ChangeAction.declares_node .control .boolean
    (show lookup declaredSwitch.tree switchControlNode = some (controlNode .boolean) from rfl)
  have hharmless := h .bool hdeclares (by intro h; exact h)
  have hspared := (harmless_iff_spared switchService declaredSwitch .control switchControlNode
    (.object [])).1 hharmless
  rcases hspared _ _ (show controlTarget declaredSwitch.tree switchControlNode.dropLast =
      some (some "D/L.Pos".toList, some "MMS_BOOLEAN".toList) from rfl) with
    hnone | ⟨con, ref, type, hcon, href, htype, hend⟩
  · cases hnone
  · cases hcon
    cases href
    cases htype
    rcases hend with hunhandled | ⟨hmodel, -⟩
    · exact hunhandled (.inl rfl)
    · rcases hmodel with hmodel | hmodel
      · cases hmodel
      · cases hmodel

end DslinkIec61850
