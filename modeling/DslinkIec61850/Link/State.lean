import DslinkIec61850.Lib.Run
import DslinkIec61850.Sdk.Node
import DslinkIec61850.Value.FunctionalConstraint

/-!
# The state of the link

The services of the IEC 61850 client library are a parameter `IedService W`: a
call takes the state `W` of the servers and the network and gives a reply and the
next state, so that any server and any pattern of failing calls is covered. The
link's own state is the node tree, `serverMap`, the connections with their report
handlers, and the requests sent so far that can change an IED.
-/

namespace DslinkIec61850

open Run

/-- An `IedConnection`. -/
abbrev ConnId := ℕ

/-- A `DSNode*`: the path of the node and its address. -/
structure NodePtr where
  path : Path
  ident : ℕ
  deriving DecidableEq, Repr

/-- `ACSIClass` (iec61850_common.h), as far as discovery uses it. -/
inductive AcsiClass where
  | dataObject | dataSet | urcb | brcb
  deriving DecidableEq, Repr

/-- `ControlModel` (iec61850_common.h). -/
inductive ControlModel where
  | statusOnly | directNormal | sboNormal | directEnhanced | sboEnhanced
  /-- A value of `ctlModel` outside the enumeration. -/
  | undefined
  deriving DecidableEq, Repr

/-- The attributes of an RCB that `IedConnection_setRCBValues` writes one at a time. -/
inductive RcbElement where
  | rptId | rptEna | datSet | optFlds | bufTm | trgOps | intgPd
  deriving DecidableEq, Repr

/-- The services of the client library. A `none` is a call that delivers
nothing, `false` a call that reports an error. -/
structure IedService (W : Type) where
  getLogicalDeviceList : W → ConnId → Option (List Str) × W
  getLogicalDeviceDirectory : W → ConnId → Str → Option (List Str) × W
  getLogicalNodeDirectory : W → ConnId → Str → AcsiClass → Option (List Str) × W
  getDataDirectoryFC : W → ConnId → Str → Option (List Str) × W
  getDataDirectoryByFC : W → ConnId → Str → FunctionalConstraint → Option (List Str) × W
  getVariableSpecification : W → ConnId → Str → FunctionalConstraint → Option MmsType × W
  getDataSetDirectory : W → ConnId → Str → Option (List Str × Bool) × W
  createDataSet : W → ConnId → Str → List Str → Bool × W
  deleteDataSet : W → ConnId → Str → Bool × W
  readRCB : W → ConnId → Str → Option (List MmsValue) × W
  writeRCB : W → ConnId → Str → RcbElement → Option MmsValue → Bool × W
  triggerGIReport : W → ConnId → Str → Bool × W
  readObject : W → ConnId → Str → FunctionalConstraint → Option MmsValue × W
  writeObject : W → ConnId → Str → FunctionalConstraint → MmsValue → Bool × W
  createControl : W → ConnId → Str → Option ControlModel × W
  select : W → ConnId → Str → Bool × W
  selectWithValue : W → ConnId → Str → MmsValue → Bool × W
  operate : W → ConnId → Str → MmsValue → Bool × W
  connect : W → ConnId → Str → ℤ → Bool × W

/-- A world in which every call fails. -/
def IedService.silent (W : Type) : IedService W where
  getLogicalDeviceList w _ := (none, w)
  getLogicalDeviceDirectory w _ _ := (none, w)
  getLogicalNodeDirectory w _ _ _ := (none, w)
  getDataDirectoryFC w _ _ := (none, w)
  getDataDirectoryByFC w _ _ _ := (none, w)
  getVariableSpecification w _ _ _ := (none, w)
  getDataSetDirectory w _ _ := (none, w)
  createDataSet w _ _ _ := (false, w)
  deleteDataSet w _ _ := (false, w)
  readRCB w _ _ := (none, w)
  writeRCB w _ _ _ _ := (false, w)
  triggerGIReport w _ _ := (false, w)
  readObject w _ _ _ := (none, w)
  writeObject w _ _ _ _ := (false, w)
  createControl w _ _ := (none, w)
  select w _ _ := (false, w)
  selectWithValue w _ _ _ := (false, w)
  operate w _ _ _ := (false, w)
  connect w _ _ _ := (false, w)

/-- The requests that can change an IED. -/
inductive Request where
  | writeObject (ref : Str) (fc : FunctionalConstraint) (v : MmsValue)
  | select (ref : Str)
  | selectWithValue (ref : Str) (v : MmsValue)
  | operate (ref : Str) (v : MmsValue)
  | setRCBValues (ref : Str) (element : RcbElement) (v : Option MmsValue)
  | triggerGIReport (ref : Str)
  | createDataSet (ref : Str) (members : List Str)
  | deleteDataSet (ref : Str)

/-- `struct s61850Server`. -/
structure Server61850 where
  hostname : Str
  tcpPort : ℤ
  iedConn : ConnId
  deriving DecidableEq, Repr

/-- `ReasonForInclusion` (iec61850_client.h). -/
inductive ReasonForInclusion where
  | notIncluded | dataChange | qualityChange | dataUpdate | integrity | gi | unknown
  deriving DecidableEq, Repr

/-- `struct sClientReport`: an installed report handler with the values of the
reports received so far. -/
structure ClientReport where
  callbackParameter : NodePtr
  rcbReference : Str
  rptId : Option Str
  /-- `NULL` before the first report. -/
  dataSetValues : Option (List (Option MmsValue))
  reasonForInclusion : List ReasonForInclusion

/-- The part of an `IedConnection` that the link uses, and the node it was
created for. A control object is known by its address. -/
structure Connection where
  enabledReports : List ClientReport
  createdFor : NodePtr
  clientControls : List ℕ

/-- The state of the link with the node tree `σ` and the outside world `W`. -/
structure LinkState (σ W : Type) where
  tree : σ
  serverMap : List (NodePtr × Server61850)
  connections : List (ConnId × Connection)
  nextConn : ConnId
  world : W
  requests : List (ConnId × Request)

/-! ## Keys -/

/-- `SERVER_NODE_KEY_INIT`. -/
def srvKeyInit : Str := "srv_".toList

/-- `NO_DELETE_NODE_KEY_INIT`. -/
def ndlKeyInit : Str := "ndl_".toList

/-- `LOGICAL_DEVICE_NODE_KEY_INIT`. -/
def ldnKeyInit : Str := "ldn_".toList

/-- `DATASET_NODE_KEY_INIT`. -/
def dtsKeyInit : Str := "dts_".toList

/-- `DATASET_ELEMENT_NODE_KEY_INIT`. -/
def dseKeyInit : Str := "dse_".toList

/-- `URCB_NODE_KEY_INIT`. -/
def urcbNodeKeyInit : Str := "urc_".toList

/-- `BRCB_NODE_KEY_INIT`. -/
def brcbNodeKeyInit : Str := "brc_".toList

/-- `DATASET_FOLDER_NODE_KEY`. -/
def datasetFolderNodeKey : Str := "datasets".toList

/-- `DATASET_PREP_FOLDER_NODE_KEY`. -/
def datasetPrepFolderNodeKey : Str := "dataset_prep".toList

/-- `URCB_FOLDER_NODE_KEY`. -/
def urcbFolderNodeKey : Str := "urcbfolder".toList

/-- `BRCB_FOLDER_NODE_KEY`. -/
def brcbFolderNodeKey : Str := "brcbfolder".toList

/-- `DS_OBJ_REF_NODE_KEY`, also `RCB_OBJ_REF_KEY`. -/
def objRefNodeKey : Str := "objref".toList

/-- `DA_VALUE_REF_NODE_KEY`. -/
def daValueRefNodeKey : Str := "Value".toList

/-- `DA_OBJECT_REF_NODE_KEY`. -/
def daObjectRefNodeKey : Str := "Object".toList

/-- `strncmp(name, init, NODE_KEY_INIT_LEN) == 0` for a prefix of four characters. -/
def hasInit (init name : Str) : Bool := name.take 4 == init

theorem hasInit_append {init name : Str} (h : init.length = 4) :
    hasInit init (init ++ name) = true := by
  rw [hasInit, List.take_left' h, beq_self_eq_true]

/-! ## Buffers -/

/-- A text is written into a `char` array of a size that leaves room for the
terminator; `none` is an array without a bound. -/
def storeIn : Option ℕ → Str → Except Fault Unit
  | none, _ => .ok ()
  | some size, text => if text.length < size then .ok () else .error .outOfBounds

/-- The text fits into the array. -/
def FitsIn (size : Option ℕ) (text : Str) : Prop := ∀ n, size = some n → text.length < n

theorem fitsIn_some {n : ℕ} {text : Str} : FitsIn (some n) text ↔ text.length < n := by
  simp [FitsIn]

@[simp] theorem storeIn_eq_ok {size : Option ℕ} {text : Str} {u : Unit} :
    storeIn size text = .ok u ↔ FitsIn size text := by
  cases size with
  | none => simp [storeIn, FitsIn]
  | some n => simp [storeIn, FitsIn]

/-- Nothing is written outside a buffer. -/
def InBounds {α : Type} (x : Except Fault α) : Prop := FailsOnly (fun e => e ≠ .outOfBounds) x

theorem inBounds_storeIn {size : Option ℕ} {text : Str} :
    InBounds (storeIn size text) ↔ FitsIn size text := by
  unfold InBounds
  cases size with
  | none => exact iff_of_true (failsOnly_ok _) fun n h => by cases h
  | some n =>
    rw [fitsIn_some]
    show FailsOnly _ (if text.length < n then _ else _) ↔ _
    split_ifs with h
    · exact iff_of_true (failsOnly_ok _) h
    · rw [failsOnly_error]
      exact iff_of_false (fun hne => hne rfl) h

theorem inBounds_storeIn_bind_iff {α : Type} {size : Option ℕ} {text : Str}
    {f : Unit → Except Fault α} :
    InBounds (storeIn size text >>= f) ↔ FitsIn size text ∧ InBounds (f ()) := by
  rw [← inBounds_storeIn]
  refine failsOnly_bind.trans (and_congr_right fun hfits => ?_)
  have hstored : storeIn size text = .ok () := storeIn_eq_ok.2 (inBounds_storeIn.1 hfits)
  exact ⟨fun h => h () hstored, fun h _ _ => h⟩

theorem inBounds_storeIn_bind {α : Type} {size : Option ℕ} {text : Str} {f : Unit → Except Fault α}
    (h : FitsIn size text) (hf : InBounds (f ())) : InBounds (storeIn size text >>= f) :=
  inBounds_storeIn_bind_iff.2 ⟨h, hf⟩

theorem inBounds_foldlM {α β : Type} {step : β → α → Except Fault β} {l : List α} {s : β}
    (h : ∀ s, ∀ a ∈ l, InBounds (step s a)) : InBounds (l.foldlM step s) :=
  failsOnly_foldlM.2 (along_of_forall h)

/-! ## Servers of nodes -/

/-- `getServerNode` (iec61850_server_defs.c:226–235); it is not called on the
root. -/
def getServerNode : Path → Option Path
  | [] => none
  | key :: _ => if hasInit srvKeyInit key then some [key] else none

namespace LinkState

open DSLink

variable {σ W : Type}

/-! ## Service calls -/

/-- A service call that cannot change the IED. -/
def call {α : Type} (s : LinkState σ W) (f : W → α × W) : α × LinkState σ W :=
  ((f s.world).1, { s with world := (f s.world).2 })

/-- A service call that can change the IED. -/
def send {α : Type} (s : LinkState σ W) (con : ConnId) (r : Request) (f : W → α × W) :
    α × LinkState σ W :=
  ((f s.world).1, { s with world := (f s.world).2, requests := s.requests ++ [(con, r)] })

@[simp] theorem call_tree {α : Type} (s : LinkState σ W) (f : W → α × W) :
    (s.call f).2.tree = s.tree :=
  rfl

@[simp] theorem call_connections {α : Type} (s : LinkState σ W) (f : W → α × W) :
    (s.call f).2.connections = s.connections := rfl

@[simp] theorem call_serverMap {α : Type} (s : LinkState σ W) (f : W → α × W) :
    (s.call f).2.serverMap = s.serverMap := rfl

@[simp] theorem call_requests {α : Type} (s : LinkState σ W) (f : W → α × W) :
    (s.call f).2.requests = s.requests := rfl

@[simp] theorem send_tree {α : Type} (s : LinkState σ W) (con : ConnId) (r : Request)
    (f : W → α × W) : (s.send con r f).2.tree = s.tree := rfl

@[simp] theorem send_connections {α : Type} (s : LinkState σ W) (con : ConnId) (r : Request)
    (f : W → α × W) : (s.send con r f).2.connections = s.connections := rfl

@[simp] theorem send_serverMap {α : Type} (s : LinkState σ W) (con : ConnId) (r : Request)
    (f : W → α × W) : (s.send con r f).2.serverMap = s.serverMap := rfl

@[simp] theorem send_requests {α : Type} (s : LinkState σ W) (con : ConnId) (r : Request)
    (f : W → α × W) : (s.send con r f).2.requests = s.requests ++ [(con, r)] := rfl

/-- `IedConnection_getRCBValues` (client_report_control.c:427–493): the block
given, or a new one, updated with what the server returns; `none` on an error. -/
def getRCBValues (svc : IedService W) (s : LinkState σ W) (con : ConnId) (rcbReference : Str)
    (updateRcb : Option ClientReportControlBlock) :
    Except Fault (Option ClientReportControlBlock × LinkState σ W) := do
  let (reply, s) := s.call fun w => svc.readRCB w con rcbReference
  match reply with
  | none => return (none, s)
  | some values =>
    let rcb ← (updateRcb.getD (ClientReportControlBlock.create rcbReference)).updateValues values
    return (some rcb, s)

/-- `IedConnection_setRCBValues` (client_report_control.c:495–680) for one
element. -/
def setRCBValues (svc : IedService W) (s : LinkState σ W) (con : ConnId)
    (rcb : ClientReportControlBlock) (element : RcbElement) : Bool × LinkState σ W :=
  let v := match element with
    | .rptId => rcb.rptId
    | .rptEna => rcb.rptEna
    | .datSet => rcb.datSet
    | .optFlds => rcb.optFlds
    | .bufTm => rcb.bufTm
    | .trgOps => rcb.trgOps
    | .intgPd => rcb.intgPd
  s.send con (.setRCBValues rcb.objectReference element v) fun w =>
    svc.writeRCB w con rcb.objectReference element v

/-- A change of the connection. -/
def modifyConnection (s : LinkState σ W) (con : ConnId) (f : Connection → Connection) :
    LinkState σ W :=
  { s with connections := s.connections.map fun e => if e.1 = con then (e.1, f e.2) else e }

/-! ## Steps that only change the tree -/

/-- A step that changes nothing but the tree and the outside world. -/
structure TreeStep (s s' : LinkState σ W) : Prop where
  serverMap_eq : s'.serverMap = s.serverMap
  connections_eq : s'.connections = s.connections
  nextConn_eq : s'.nextConn = s.nextConn
  requests_eq : s'.requests = s.requests

theorem TreeStep.refl (s : LinkState σ W) : TreeStep s s := ⟨rfl, rfl, rfl, rfl⟩

theorem TreeStep.trans {s s' s'' : LinkState σ W} (h : TreeStep s s') (h' : TreeStep s' s'') :
    TreeStep s s'' :=
  ⟨h'.serverMap_eq.trans h.serverMap_eq, h'.connections_eq.trans h.connections_eq,
    h'.nextConn_eq.trans h.nextConn_eq, h'.requests_eq.trans h.requests_eq⟩

theorem TreeStep.setTree (s : LinkState σ W) (t : σ) : TreeStep s { s with tree := t } :=
  ⟨rfl, rfl, rfl, rfl⟩

theorem TreeStep.call {α : Type} (s : LinkState σ W) (f : W → α × W) : TreeStep s (s.call f).2 :=
  ⟨rfl, rfl, rfl, rfl⟩

/-! ## Nodes -/

variable [DSLink σ]

/-- A pointer to the node with a path. -/
def ptr (s : LinkState σ W) (p : Path) : NodePtr := { path := p, ident := ident s.tree p }

/-- The node that a pointer points to is still in the tree. -/
def Valid (s : LinkState σ W) (n : NodePtr) : Prop :=
  Live s.tree n.path ∧ ident s.tree n.path = n.ident

instance (s : LinkState σ W) (n : NodePtr) : Decidable (s.Valid n) :=
  inferInstanceAs (Decidable (_ ∧ _))

/-- `dslink_map_get(serverMap, node)`. -/
def mapGet (s : LinkState σ W) (n : NodePtr) : Option Server61850 :=
  (Keyed.find (fun e => e.1.ident) n.ident s.serverMap).map Prod.snd

/-- `getServerIedConnection` (iec61850_server_defs.c:55–68); the result of
`dslink_map_get` is used without a test. -/
def getServerIedConnection (s : LinkState σ W) (node : Path) : Except Fault (Option ConnId) :=
  match getServerNode node with
  | none => .ok none
  | some srv =>
    match s.mapGet (s.ptr srv) with
    | none => .error .nullDereference
    | some server => .ok (some server.iedConn)

end LinkState

end DslinkIec61850
