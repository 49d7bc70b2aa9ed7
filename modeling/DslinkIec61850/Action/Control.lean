import DslinkIec61850.Action.DataAttribute
import DslinkIec61850.Lib.Run

/-!
# Control actions

`controlAction` (client_handler.c:102–247) finds the reference and the type of the
controlled object among its siblings, creates a control object on the connection,
operates it by the control model that the server reports, reads the status value
back and destroys the control object.

* `performControl_eq`: the requests sent for each control model.
* `controlAction_safe_iff`: when an invocation keeps to the rules of control.
-/

namespace DslinkIec61850

open DSLink LinkState Run

variable {σ W : Type}

/-! ## Control objects -/

/-- A `ControlObjectClient`: its address and what it read from the server. -/
structure ControlObject where
  address : ℕ
  objectReference : Str
  ctlModel : ControlModel

/-- The control objects of a connection. -/
def clientControls (s : LinkState σ W) (con : ConnId) : List ℕ :=
  ((Keyed.find Prod.fst con s.connections).map fun e => e.2.clientControls).getD []

/-- An address that is not in use. -/
def freshAddress (addresses : List ℕ) : ℕ := addresses.foldr max 0 + 1

/-- `ControlObjectClient_create` (client_control.c:112–219); the service tells the
control model when the control model and the specification can be read and have
the elements that a control needs. -/
def controlObjectCreate (svc : IedService W) (s : LinkState σ W) (con : ConnId)
    (objectReference : Str) : Option ControlObject × LinkState σ W :=
  if objectReference.length < 121 then
    let (ctlModel, s) := s.call fun w => svc.createControl w con objectReference
    match ctlModel with
    | none => (none, s)
    | some ctlModel =>
      let address := freshAddress (clientControls s con)
      (some { address := address, objectReference := objectReference, ctlModel := ctlModel },
        s.modifyConnection con fun c => { c with clientControls := c.clientControls ++ [address] })
  else (none, s)

/-- `ControlObjectClient_destroy` (client_control.c:377–397). -/
def controlObjectDestroy (s : LinkState σ W) (con : ConnId) (control : ControlObject) :
    LinkState σ W :=
  s.modifyConnection con fun c =>
    { c with clientControls := c.clientControls.erase control.address }

/-- `ControlObjectClient_select`. -/
def controlSelect (svc : IedService W) (s : LinkState σ W) (con : ConnId) (ref : Str) :
    Bool × LinkState σ W :=
  s.send con (.select ref) fun w => svc.select w con ref

/-- `ControlObjectClient_selectWithValue`. -/
def controlSelectWithValue (svc : IedService W) (s : LinkState σ W) (con : ConnId) (ref : Str)
    (v : MmsValue) : Bool × LinkState σ W :=
  s.send con (.selectWithValue ref v) fun w => svc.selectWithValue w con ref v

/-- `ControlObjectClient_operate`. -/
def controlOperate (svc : IedService W) (s : LinkState σ W) (con : ConnId) (ref : Str)
    (v : MmsValue) : Bool × LinkState σ W :=
  s.send con (.operate ref v) fun w => svc.operate w con ref v

/-- The branches over the control model (client_handler.c:165–239). -/
def performControl (svc : IedService W) (s : LinkState σ W) (con : ConnId) (control : ControlObject)
    (ctlVal : MmsValue) : LinkState σ W :=
  let ref := control.objectReference
  match control.ctlModel with
  | .directNormal => (controlOperate svc s con ref ctlVal).2
  | .sboNormal =>
    let (selected, s) := controlSelect svc s con ref
    if selected then (controlOperate svc s con ref ctlVal).2 else s
  | .directEnhanced => (controlOperate svc s con ref ctlVal).2
  | .sboEnhanced =>
    let (selected, s) := controlSelectWithValue svc s con ref ctlVal
    if selected then (controlOperate svc s con ref ctlVal).2 else s
  | .statusOnly => s
  | .undefined => s

/-! ## The action -/

/-- The value for a type shown by the status value (client_handler.c:152–160); any
other type is not handled. -/
def controlValue (params : Json) (mmsTypeStr : Str) : Option MmsValue :=
  if MmsType.isMmsTypeFromString mmsTypeStr .boolean then
    some (.boolean (Json.booleanValue (params.objectGet daValueRefNodeKey)))
  else if MmsType.isMmsTypeFromString mmsTypeStr .integer then
    some (.newInteger32 (intValue (params.objectGet daValueRefNodeKey)))
  else none

variable [DSLink σ]

/-- The texts of the sibling `Object` and of the `MMS Type` of the sibling
`stVal[ST]` (client_handler.c:105–138). -/
def controlTarget (t : σ) (parent : Path) : Option (Option Str × Option Str) := do
  let refNode ← child t parent daObjectRefNodeKey
  let stValNode ← child t parent "stVal[ST]".toList
  let typeNode ← child t stValNode "MMS Type".toList
  return (Json.stringValue (valueOf t refNode), Json.stringValue (valueOf t typeNode))

/-- `setControlStVal` (client_handler.c:77–100). -/
def setControlStVal (svc : IedService W) (s : LinkState σ W) (node : Path) :
    Except Fault (LinkState σ W) :=
  match (child s.tree node "stVal[ST]".toList).bind fun stVal =>
    child s.tree stVal daValueRefNodeKey with
  | none => .ok s
  | some valueNode => nodeValueRead svc s valueNode

/-- An invocation with the control object that was created for it. -/
structure ControlCall where
  con : ConnId
  control : Option ControlObject
  ctlVal : MmsValue

/-- `controlAction` up to the choice of the value (client_handler.c:102–163): `none`
is an early return. -/
def beginControl (svc : IedService W) (s : LinkState σ W) (node : Path) (params : Json) :
    Except Fault (Option ControlCall × LinkState σ W) :=
  match controlTarget s.tree node.dropLast with
  | none => .ok (none, s)
  | some (currObjRef, currMmsTypeStr) => do
    match ← s.getServerIedConnection node with
    | none => return (none, s)
    | some con =>
      let (control, s) := controlObjectCreate svc s con (← deref currObjRef)
      match controlValue params (← deref currMmsTypeStr) with
      | none => return (none, s)
      | some ctlVal => return (some { con := con, control := control, ctlVal := ctlVal }, s)

/-- `controlAction` (client_handler.c:102–247); the control object is used without
a test. -/
def controlAction (svc : IedService W) (s : LinkState σ W) (node : Path) (params : Json) :
    Except Fault (LinkState σ W) := do
  let (call, s) ← beginControl svc s node params
  match call with
  | none => return s
  | some call =>
    let control ← deref call.control
    let s := performControl svc s call.con control call.ctlVal
    let s ← setControlStVal svc s node.dropLast
    return controlObjectDestroy s call.con control

/-! ## The control objects of a connection -/

section Controls

omit [DSLink σ]

variable {s : LinkState σ W} {con con' : ConnId}

theorem find_modifyConnection (f : Connection → Connection) :
    Keyed.find Prod.fst con' (s.modifyConnection con f).connections =
      (Keyed.find Prod.fst con' s.connections).map fun e =>
        if e.1 = con then (e.1, f e.2) else e := by
  apply Keyed.find_map
  intro e
  split_ifs <;> rfl

theorem clientControls_modify_of_ne (f : Connection → Connection) (h : con' ≠ con) :
    clientControls (s.modifyConnection con f) con' = clientControls s con' := by
  unfold clientControls
  rw [find_modifyConnection]
  cases hfind : Keyed.find Prod.fst con' s.connections with
  | none => rfl
  | some e =>
    have he : e.1 ≠ con := by
      rw [Keyed.key_of_find hfind]
      exact h
    simp [he]

/-- A change of the control objects of a live connection. -/
theorem clientControls_modify (F : List ℕ → List ℕ) (h : con ∈ s.connections.map Prod.fst) :
    clientControls (s.modifyConnection con fun c => { c with clientControls := F c.clientControls })
      con = F (clientControls s con) := by
  obtain ⟨e, hfind⟩ := Option.isSome_iff_exists.1 (Keyed.find_isSome.2 h)
  unfold clientControls
  rw [find_modifyConnection, hfind]
  simp [Keyed.key_of_find hfind]

theorem lt_freshAddress {l : List ℕ} {a : ℕ} (h : a ∈ l) : a < freshAddress l := by
  unfold freshAddress
  induction l with
  | nil => simp at h
  | cons b l ih =>
    rcases List.mem_cons.1 h with rfl | h
    · simp only [List.foldr_cons]
      omega
    · have := ih h
      simp only [List.foldr_cons]
      omega

theorem freshAddress_not_mem (l : List ℕ) : freshAddress l ∉ l := fun h => (lt_freshAddress h).false

/-- A new control object is destroyed without a trace. -/
theorem erase_append_fresh (l : List ℕ) : (l ++ [freshAddress l]).erase (freshAddress l) = l := by
  rw [List.erase_append_right _ (freshAddress_not_mem l)]
  simp

/-- The control model that is read when a control object is created. -/
def controlModelOf (svc : IedService W) (s : LinkState σ W) (con : ConnId) (ref : Str) :
    Option ControlModel :=
  if ref.length < 121 then (svc.createControl s.world con ref).1 else none

/-- The state after the attempt to create a control object has the control objects
`addresses` on the connection. -/
structure ControlTried (svc : IedService W) (s s' : LinkState σ W) (con : ConnId) (ref : Str)
    (addresses : List ℕ) : Prop where
  tree_eq : s'.tree = s.tree
  requests_eq : s'.requests = s.requests
  ids_eq : s'.connections.map Prod.fst = s.connections.map Prod.fst
  world_eq : ref.length < 121 → s'.world = (svc.createControl s.world con ref).2
  controls_eq : clientControls s' con = addresses
  others : ∀ con', con' ≠ con → clientControls s' con' = clientControls s con'

theorem map_fst_modifyConnection (f : Connection → Connection) :
    (s.modifyConnection con f).connections.map Prod.fst = s.connections.map Prod.fst := by
  simp only [modifyConnection, List.map_map]
  apply List.map_congr_left
  intro e _
  simp only [Function.comp_apply]
  split_ifs <;> rfl

theorem controlObjectCreate_eq (svc : IedService W) (ref : Str)
    (hcon : con ∈ s.connections.map Prod.fst) :
    (controlModelOf svc s con ref = none ∧ (controlObjectCreate svc s con ref).1 = none ∧
      ControlTried svc s (controlObjectCreate svc s con ref).2 con ref (clientControls s con)) ∨
    ∃ ctlModel, controlModelOf svc s con ref = some ctlModel ∧
      (controlObjectCreate svc s con ref).1 =
        some { address := freshAddress (clientControls s con), objectReference := ref,
               ctlModel := ctlModel } ∧
      ControlTried svc s (controlObjectCreate svc s con ref).2 con ref
        (clientControls s con ++ [freshAddress (clientControls s con)]) := by
  unfold controlModelOf controlObjectCreate
  split_ifs with hlen
  · dsimp only [call]
    cases hmodel : (svc.createControl s.world con ref).1 with
    | none => exact .inl ⟨rfl, rfl, ⟨rfl, rfl, rfl, fun _ => rfl, rfl, fun _ _ => rfl⟩⟩
    | some ctlModel =>
      right
      let s₁ := { s with world := (svc.createControl s.world con ref).2 }
      refine ⟨ctlModel, rfl, rfl, ⟨rfl, rfl, ?_, fun _ => rfl, ?_, ?_⟩⟩
      · exact map_fst_modifyConnection (s := s₁) _
      · exact clientControls_modify (s := s₁) (· ++ [freshAddress (clientControls s con)]) hcon
      · intro con' hne
        exact clientControls_modify_of_ne (s := s₁) _ hne
  · exact .inl ⟨rfl, rfl, ⟨rfl, rfl, rfl, fun h => absurd h hlen, rfl, fun _ _ => rfl⟩⟩

end Controls

/-! ## The requests -/

/-- The requests that operate. -/
def Request.isOperate : Request → Bool
  | .operate _ _ => true
  | _ => false

/-- Under a select-before-operate model, what was sent before is a select to which
the server agreed. -/
def SelectedBefore (svc : IedService W) (w : W) (con : ConnId) (ref : Str) (v : MmsValue)
    (before : List Request) : ControlModel → Prop
  | .sboNormal => before = [.select ref] ∧ (svc.select w con ref).1 = true
  | .sboEnhanced => before = [.selectWithValue ref v] ∧ (svc.selectWithValue w con ref v).1 = true
  | _ => True

/-- The requests sent for a control model, given the replies to the selects. -/
def controlRequests (svc : IedService W) (w : W) (con : ConnId) (ref : Str) (v : MmsValue) :
    ControlModel → List Request
  | .directNormal => [.operate ref v]
  | .sboNormal => .select ref :: if (svc.select w con ref).1 then [.operate ref v] else []
  | .directEnhanced => [.operate ref v]
  | .sboEnhanced =>
    .selectWithValue ref v :: if (svc.selectWithValue w con ref v).1 then [.operate ref v] else []
  | .statusOnly => []
  | .undefined => []

omit [DSLink σ] in
/-- What is sent and what stays as it is. -/
theorem performControl_eq (svc : IedService W) (s : LinkState σ W) (con : ConnId)
    (control : ControlObject) (v : MmsValue) :
    (performControl svc s con control v).requests = s.requests ++
        (controlRequests svc s.world con control.objectReference v control.ctlModel).map (con, ·) ∧
      (performControl svc s con control v).connections = s.connections ∧
      (performControl svc s con control v).tree = s.tree := by
  obtain ⟨address, ref, ctlModel⟩ := control
  cases ctlModel with
  | statusOnly => simp [performControl, controlRequests]
  | directNormal => simp [performControl, controlRequests, controlOperate]
  | sboNormal =>
    cases hsel : (svc.select s.world con ref).1 <;>
      simp [performControl, controlRequests, controlOperate, controlSelect, send, hsel]
  | directEnhanced => simp [performControl, controlRequests, controlOperate]
  | sboEnhanced =>
    cases hsel : (svc.selectWithValue s.world con ref v).1 <;>
      simp [performControl, controlRequests, controlOperate, controlSelectWithValue, send, hsel]
  | undefined => simp [performControl, controlRequests]

theorem countP_controlRequests (svc : IedService W) (w : W) (con : ConnId) (ref : Str)
    (v : MmsValue) (ctlModel : ControlModel) :
    (controlRequests svc w con ref v ctlModel).countP Request.isOperate ≤ 1 := by
  cases ctlModel with
  | sboNormal =>
    unfold controlRequests
    split_ifs <;> simp [Request.isOperate]
  | sboEnhanced =>
    unfold controlRequests
    split_ifs <;> simp [Request.isOperate]
  | _ => simp [controlRequests, Request.isOperate]

/-- What is operated is the value of the action. -/
theorem mem_controlRequests {svc : IedService W} {w : W} {con : ConnId} {ref ref' : Str}
    {v v' : MmsValue} {ctlModel : ControlModel}
    (h : Request.operate ref' v' ∈ controlRequests svc w con ref v ctlModel) :
    v' = v := by
  cases ctlModel with
  | sboNormal =>
    dsimp only [controlRequests] at h
    split_ifs at h
    · simp at h
      exact h.2
    · simp at h
  | sboEnhanced =>
    dsimp only [controlRequests] at h
    split_ifs at h
    · simp at h
      exact h.2
    · simp at h
  | directNormal =>
    simp [controlRequests] at h
    exact h.2
  | directEnhanced =>
    simp [controlRequests] at h
    exact h.2
  | _ => simp [controlRequests] at h

theorem selectedBefore_controlRequests {svc : IedService W} {w : W} {con : ConnId} {ref ref' : Str}
    {v v' : MmsValue} {ctlModel : ControlModel} {before after : List Request}
    (h : controlRequests svc w con ref v ctlModel = before ++ .operate ref' v' :: after) :
    SelectedBefore svc w con ref v before ctlModel := by
  cases ctlModel with
  | sboNormal =>
    unfold controlRequests at h
    cases before with
    | nil => cases h
    | cons r before =>
      obtain ⟨rfl, hrest⟩ := List.cons.inj h
      split_ifs at hrest with hsel
      · cases before with
        | nil => exact ⟨rfl, hsel⟩
        | cons r before => simp at hrest
      · simp at hrest
  | sboEnhanced =>
    unfold controlRequests at h
    cases before with
    | nil => cases h
    | cons r before =>
      obtain ⟨rfl, hrest⟩ := List.cons.inj h
      split_ifs at hrest with hsel
      · cases before with
        | nil => exact ⟨rfl, hsel⟩
        | cons r before => simp at hrest
      · simp at hrest
  | _ => trivial

/-! ## An invocation -/

variable {svc : IedService W} {s s' : LinkState σ W} {node : Path} {params : Json} {con : ConnId}
  {ref typeStr : Str}

/-- Reading a value back changes the tree only. -/
theorem nodeValueRead_treeStep (h : nodeValueRead svc s node = .ok s') : TreeStep s s' := by
  unfold nodeValueRead at h
  split at h
  · cases h
    exact TreeStep.refl _
  · obtain ⟨fcStr, -, h⟩ := bind_eq_ok.1 h
    obtain ⟨con, -, h⟩ := bind_eq_ok.1 h
    split at h
    · cases h
      exact TreeStep.refl _
    · obtain ⟨ref, -, h⟩ := bind_eq_ok.1 h
      dsimp only at h
      split at h
      · cases h
        exact TreeStep.call _ _
      · obtain ⟨t, -, h⟩ := bind_eq_ok.1 h
        cases h
        exact ⟨rfl, rfl, rfl, rfl⟩

theorem setControlStVal_treeStep (h : setControlStVal svc s node = .ok s') : TreeStep s s' := by
  unfold setControlStVal at h
  split at h
  · cases h
    exact TreeStep.refl _
  · exact nodeValueRead_treeStep h

/-- The action finds the reference, the type and a live connection. -/
structure FindsControl (s : LinkState σ W) (node : Path) (con : ConnId)
    (ref typeStr : Str) : Prop where
  target : controlTarget s.tree node.dropLast = some (some ref, some typeStr)
  connection : s.getServerIedConnection node = .ok (some con)
  live : con ∈ s.connections.map Prod.fst

/-- The types that the action has a value for. -/
def HandledType (typeStr : Str) : Prop :=
  typeStr = MmsType.boolean.typeString ∨ typeStr = MmsType.integer.typeString

instance (typeStr : Str) : Decidable (HandledType typeStr) := inferInstanceAs (Decidable (_ ∨ _))

omit [DSLink σ] in
theorem controlValue_isSome (params : Json) (typeStr : Str) :
    (controlValue params typeStr).isSome = true ↔ HandledType typeStr := by
  unfold controlValue HandledType MmsType.isMmsTypeFromString
  simp only [beq_iff_eq]
  by_cases hbool : typeStr = MmsType.boolean.typeString
  · rw [if_pos hbool]
    simp [hbool]
  · rw [if_neg hbool]
    by_cases hint : typeStr = MmsType.integer.typeString
    · rw [if_pos hint]
      simp [hint]
    · rw [if_neg hint]
      simp [hbool, hint]

theorem beginControl_eq (svc : IedService W) (h : FindsControl s node con ref typeStr)
    (params : Json) : beginControl svc s node params =
      .ok ((controlValue params typeStr).map fun v =>
          { con := con, control := (controlObjectCreate svc s con ref).1, ctlVal := v },
        (controlObjectCreate svc s con ref).2) := by
  unfold beginControl
  rw [h.target]
  dsimp only
  rw [h.connection]
  simp only [deref, ok_bind]
  cases controlValue params typeStr <;> rfl

/-- An invocation keeps to the rules: a control object that could not be created is
not used, at most one operate request is sent, under a select-before-operate
model only after a successful select, and in the end the connections have the
control objects that they had before. -/
structure ControlSafe (svc : IedService W) (s : LinkState σ W) (node : Path) (params : Json)
    (con : ConnId) (ref : Str) : Prop where
  created : ∀ call s₁, beginControl svc s node params = .ok (some call, s₁) → call.control ≠ none
  atMostOne : ∀ s', controlAction svc s node params = .ok s' → ∃ sent : List Request,
    s'.requests = s.requests ++ sent.map (con, ·) ∧ sent.countP Request.isOperate ≤ 1
  selected : ∀ s' before v after ctlModel, controlAction svc s node params = .ok s' →
    controlModelOf svc s con ref = some ctlModel →
    s'.requests = s.requests ++ (before ++ .operate ref v :: after).map (con, ·) →
    SelectedBefore svc (svc.createControl s.world con ref).2 con ref v before ctlModel
  released : ∀ s', controlAction svc s node params = .ok s' →
    ∀ con', clientControls s' con' = clientControls s con'

/-- The action with a control object, step by step. -/
theorem controlAction_ok (h : FindsControl s node con ref typeStr) (htype : HandledType typeStr)
    {ctlModel : ControlModel} (hmodel : controlModelOf svc s con ref = some ctlModel)
    (hrun : controlAction svc s node params = .ok s') :
    ∃ v, s'.requests = s.requests ++
        (controlRequests svc (svc.createControl s.world con ref).2 con ref v ctlModel).map
          (con, ·) ∧
      ∀ con', clientControls s' con' = clientControls s con' := by
  obtain ⟨v, hv⟩ := Option.isSome_iff_exists.1 ((controlValue_isSome params typeStr).2 htype)
  rcases controlObjectCreate_eq svc ref h.live with ⟨hnone, -⟩ | ⟨m, hm, hcontrol, htried⟩
  · rw [hnone] at hmodel
    cases hmodel
  cases hm.symm.trans hmodel
  have hlen : ref.length < 121 := by
    by_contra hlen
    rw [controlModelOf, if_neg hlen] at hmodel
    cases hmodel
  unfold controlAction at hrun
  rw [beginControl_eq svc h, hv, hcontrol] at hrun
  simp only [ok_bind, Option.map_some, deref] at hrun
  obtain ⟨s₃, hstVal, hrun⟩ := bind_eq_ok.1 hrun
  cases hrun
  let control : ControlObject := ⟨freshAddress (clientControls s con), ref, ctlModel⟩
  obtain ⟨hreq, hconn, -⟩ :=
    performControl_eq svc (controlObjectCreate svc s con ref).2 con control v
  have hstep := setControlStVal_treeStep hstVal
  have hcontrols (con' : ConnId) : clientControls s₃ con' =
      clientControls (controlObjectCreate svc s con ref).2 con' := by
    rw [clientControls, hstep.connections_eq, hconn]
    rfl
  refine ⟨v, ?_, ?_⟩
  · show s₃.requests = _
    rw [hstep.requests_eq, hreq, htried.requests_eq, htried.world_eq hlen]
  · intro con'
    show clientControls (controlObjectDestroy s₃ con control) con' = _
    by_cases hne : con' = con
    · have hlive : con ∈ s₃.connections.map Prod.fst := by
        rw [hstep.connections_eq, hconn, htried.ids_eq]
        exact h.live
      rw [hne, controlObjectDestroy, clientControls_modify (·.erase control.address) hlive,
        hcontrols, htried.controls_eq, erase_append_fresh]
    · rw [controlObjectDestroy, clientControls_modify_of_ne _ hne, hcontrols,
        htried.others con' hne]

/-- The early return for a type without a value. -/
theorem controlAction_unhandled (svc : IedService W) (h : FindsControl s node con ref typeStr)
    (htype : ¬ HandledType typeStr) (params : Json) : controlAction svc s node params =
      .ok (controlObjectCreate svc s con ref).2 := by
  have hv : controlValue params typeStr = none := by
    rw [← Option.not_isSome_iff_eq_none]
    rw [controlValue_isSome]
    exact htype
  unfold controlAction
  rw [beginControl_eq svc h, hv]
  rfl

/-- **Control.** An invocation that finds its control keeps to the rules exactly
when the control object can be created for a type that the action handles, or
cannot be created for one that it does not handle. -/
theorem controlAction_safe_iff (h : FindsControl s node con ref typeStr) (params : Json) :
    ControlSafe svc s node params con ref ↔
      (HandledType typeStr ↔ (controlModelOf svc s con ref).isSome = true) := by
  have hcreate := controlObjectCreate_eq svc ref h.live
  by_cases htype : HandledType typeStr
  · simp only [htype, true_iff]
    obtain ⟨v, hv⟩ := Option.isSome_iff_exists.1 ((controlValue_isSome params typeStr).2 htype)
    constructor
    · intro hsafe
      rcases hcreate with ⟨-, hnone, -⟩ | ⟨m, hm, -⟩
      · have hbegin := beginControl_eq svc h params
        rw [hv] at hbegin
        exact absurd hnone (hsafe.created _ _ hbegin)
      · rw [hm]
        rfl
    · intro hsome
      obtain ⟨ctlModel, hmodel⟩ := Option.isSome_iff_exists.1 hsome
      refine ⟨?_, ?_, ?_, ?_⟩
      · intro call s₁ hbegin
        rw [beginControl_eq svc h, hv] at hbegin
        cases hbegin
        rcases hcreate with ⟨hnone, -⟩ | ⟨m, -, hcontrol, -⟩
        · rw [hnone] at hmodel
          cases hmodel
        · rw [hcontrol]
          simp
      · intro s' hrun
        obtain ⟨v, hreq, -⟩ := controlAction_ok h htype hmodel hrun
        exact ⟨_, hreq, countP_controlRequests _ _ _ _ _ _⟩
      · intro s' before v' after m hrun hm hsent
        cases hm.symm.trans hmodel
        obtain ⟨v, hreq, -⟩ := controlAction_ok h htype hmodel hrun
        rw [hreq, List.append_cancel_left_eq] at hsent
        have hlist := List.map_injective_iff.2 (Prod.mk_right_injective con) hsent
        have hv' : v' = v := by
          have hmem : Request.operate ref v' ∈
              controlRequests svc (svc.createControl s.world con ref).2 con ref v ctlModel := by
            rw [hlist]
            simp
          exact mem_controlRequests hmem
        rw [hv']
        rw [hv'] at hlist
        exact selectedBefore_controlRequests hlist
      · intro s' hrun
        obtain ⟨-, -, hreleased⟩ := controlAction_ok h htype hmodel hrun
        exact hreleased
  · simp only [htype, false_iff]
    have hrun := controlAction_unhandled svc h htype params
    constructor
    · intro hsafe hsome
      rcases hcreate with ⟨hnone, -⟩ | ⟨m, hm, -, htried⟩
      · rw [hnone] at hsome
        cases hsome
      · have hreleased := hsafe.released _ hrun con
        rw [htried.controls_eq] at hreleased
        simp at hreleased
    · intro hnone
      rcases hcreate with ⟨-, -, htried⟩ | ⟨m, hm, -⟩
      · refine ⟨?_, ?_, ?_, ?_⟩
        · intro call s₁ hbegin
          rw [beginControl_eq svc h] at hbegin
          have hv : controlValue params typeStr = none := by
            rw [← Option.not_isSome_iff_eq_none, controlValue_isSome]
            exact htype
          rw [hv] at hbegin
          cases hbegin
        · intro s' hrun'
          rw [hrun] at hrun'
          cases hrun'
          exact ⟨[], by simp [htried.requests_eq], by simp⟩
        · intro s' before v after m hrun' hm _
          rw [hm] at hnone
          exact absurd rfl hnone
        · intro s' hrun' con'
          rw [hrun] at hrun'
          cases hrun'
          by_cases hne : con' = con
          · rw [hne, htried.controls_eq]
          · exact htried.others con' hne
      · rw [hm] at hnone
        exact absurd rfl hnone

/-! ## A switch -/

/-- A server node with a controllable object whose status is a boolean. -/
def switchTree : NodeStore :=
  let object : Path := ["srv_a".toList, "Pos".toList]
  let stVal : Path := object ++ ["stVal[ST]".toList]
  let t := addChild NodeStore.empty [] "srv_a".toList .create
  let t := addChild t ["srv_a".toList] "Pos".toList .create
  let t := addChild t object "stVal[ST]".toList .create
  let t := addChild t stVal "MMS Type".toList
    (.shown "string".toList (.string "MMS_BOOLEAN".toList))
  let t := addChild t object "control".toList (.action "Control".toList .controlAction)
  addChild t object "Object".toList (.shown "string".toList (.string "D/L.Pos".toList))

/-- The node of its control action. -/
def switchControlNode : Path := ["srv_a".toList, "Pos".toList, "control".toList]

/-- Its server node. -/
def switchServer : NodePtr := { path := ["srv_a".toList], ident := 1 }

/-- The link with that server. -/
def switchState : LinkState NodeStore Unit :=
  { tree := switchTree,
    serverMap := [(switchServer, { hostname := "h".toList, tcpPort := 102, iedConn := 0 })],
    connections := [(0, { enabledReports := [], createdFor := switchServer,
                          clientControls := [] })],
    nextConn := 1, world := (), requests := [] }

/-- A server whose switch is selected before it is operated. -/
def switchService : IedService Unit :=
  { IedService.silent Unit with
    createControl := fun w _ _ => (some .sboNormal, w)
    select := fun w _ _ => (true, w)
    operate := fun w _ _ _ => (true, w) }

theorem switchState_findsControl :
    FindsControl switchState switchControlNode 0 "D/L.Pos".toList "MMS_BOOLEAN".toList where
  target := rfl
  connection := rfl
  live := by decide

theorem controlAction_safe_iff_switch :
    ControlSafe switchService switchState switchControlNode (.object []) 0 "D/L.Pos".toList ↔
      (HandledType "MMS_BOOLEAN".toList ↔
        (controlModelOf switchService switchState 0 "D/L.Pos".toList).isSome = true) :=
  controlAction_safe_iff switchState_findsControl (.object [])

/-- Where no control object can be created, none is used for the switch. -/
theorem controlAction_missing :
    controlAction (IedService.silent Unit) switchState switchControlNode (.object []) =
        .error .nullDereference ∧
      ¬ ControlSafe (IedService.silent Unit) switchState switchControlNode (.object []) 0
        "D/L.Pos".toList := by
  have hv : controlValue (.object []) "MMS_BOOLEAN".toList = some (.boolean false) := by
    have htype : MmsType.isMmsTypeFromString "MMS_BOOLEAN".toList .boolean = true := by decide
    rw [controlValue, if_pos htype]
    rfl
  have hnone : (controlObjectCreate (IedService.silent Unit) switchState 0 "D/L.Pos".toList).1 =
      none := by
    rw [controlObjectCreate, if_pos (by decide)]
    rfl
  have hbegin := beginControl_eq (IedService.silent Unit) switchState_findsControl (.object [])
  rw [hv, hnone] at hbegin
  constructor
  · unfold controlAction
    rw [hbegin]
    rfl
  · intro hsafe
    exact hsafe.created _ _ hbegin rfl

end DslinkIec61850
