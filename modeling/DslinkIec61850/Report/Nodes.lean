import DslinkIec61850.DataSet.Nodes
import DslinkIec61850.Discovery.Nodes

/-!
# The nodes of report control blocks

`getRCBInfoAndCreateNode` (report_handler.c:491–869) reads an RCB, creates its
node and installs a report handler under the RptID that was read. A handler is
found by its RCB reference when it is installed again (client_report.c:262–306).

* `getRCBInfoAndCreateNode_ok`: the node and the handler that are left.
-/

namespace DslinkIec61850

open DSLink Strings LinkState Run

/-! ## Report handlers -/

namespace Connection

/-- `IedConnection_installReportHandler` (client_report.c:262–291). -/
def installReportHandler (self : Connection) (rcbReference : Str) (rptId : Option Str)
    (handlerParameter : NodePtr) : Connection :=
  { self with
    enabledReports := self.enabledReports.eraseP
      (fun report => report.rcbReference == rcbReference) ++
      [{ callbackParameter := handlerParameter, rcbReference := rcbReference, rptId := rptId,
         dataSetValues := none, reasonForInclusion := [] }] }

end Connection

/-! ## Folders and keys -/

/-- The folder of the RCBs of a kind. -/
def rcbFolderKey (isBuffered : Bool) : Str :=
  if isBuffered then brcbFolderNodeKey else urcbFolderNodeKey

/-- The key of an RCB before `convertRefToNodeKeyString`. -/
def rcbNodeKeyText (isBuffered : Bool) (rcbRef : Str) : Str :=
  (if isBuffered then brcbNodeKeyInit else urcbNodeKeyInit) ++ rcbRef

/-- The key of an RCB. -/
def rcbNodeKey (isBuffered : Bool) (rcbRef : Str) : Str :=
  replace '/' '$' (rcbNodeKeyText isBuffered rcbRef)

/-! ## Child nodes -/

variable {σ W : Type} [DSLink σ]

/-- `createSubNodes` (report_handler.c:144–171) without the child it adds. -/
def subNode (σ : Type) [DSLink σ] (name type : Str) (value : Option Json) : DSNode :=
  (DSNode.shown type (value.getD (nullValue σ .null))).setMeta "$name".toList (.string name)

/-- The `set` node with its parameters. -/
def setNode (f : Callback) (params : List Json) : DSNode :=
  (DSNode.action "Set".toList f).setMeta "$params".toList (.array params)

/-- One parameter `Value`. -/
def valueParam (type : Str) : List Json := [DSNode.paramRow daValueRefNodeKey type]

/-- One boolean parameter for each flag. -/
def flagParams (names : List String) : List Json :=
  names.map fun n => DSNode.paramRow n.toList "bool".toList

/-- A child of an RCB node with its `set` child. -/
structure RcbChild where
  key : Str
  node : DSNode
  set : Option DSNode

/-- The children of an RCB node in the order in which they are created
(report_handler.c:549–862). -/
def rcbChildren (σ : Type) [DSLink σ] (rcbRef : Str) (isBuffered : Bool)
    (rcb : ClientReportControlBlock) : Except Fault (List RcbChild) := do
  let text := fun (s : Option Str) => s.map Json.string
  let optFlds ← ClientReportControlBlock.getRCBOptFldsString (← rcb.getOptFlds)
  let trgOps ← ClientReportControlBlock.getRCBTrgOpsString rcb.getTrgOps
  let typeString := if isBuffered then "Buffered report control block (BRCB)".toList
    else "Unbuffered report control block (URCB)".toList
  return [
    { key := objRefNodeKey, set := none,
      node := subNode σ "Obj. Ref.".toList "string".toList (some (.string rcbRef)) },
    { key := "rcbtype".toList, set := none,
      node := subNode σ "Type".toList "string".toList (some (.string typeString)) },
    { key := "rptid".toList, set := setNode .setRptIdAction (valueParam "string".toList),
      node := subNode σ "RptId".toList "string".toList (text rcb.getRptId) },
    { key := "rptena".toList, set := setNode .setRptEnaAction (valueParam "bool".toList),
      node := subNode σ "RptEna".toList "boolean".toList (some (.boolean rcb.getRptEna)) },
    { key := "rcbdatset".toList, set := setNode .setDatSetAction (valueParam "enum[]".toList),
      node := { subNode σ "DatSet".toList "string".toList (text rcb.getDataSetReference) with
        onListOpen := some .rcbDatSetNodeOpenAction } },
    { key := "rcbconfrev".toList, set := none,
      node := subNode σ "ConfRev".toList "number".toList (some (.integer rcb.getConfRev)) },
    { key := "rcbbuftm".toList, set := setNode .setBufTmAction (valueParam "number".toList),
      node := subNode σ "BufTm".toList "number".toList (some (.integer rcb.getBufTm)) },
    { key := "rcbintgpd".toList, set := setNode .setIntgPdAction (valueParam "number".toList),
      node := subNode σ "IntgPd".toList "number".toList (some (.integer rcb.getIntgPd)) },
    { key := "rcboptflds".toList,
      set := setNode .setOptFldsAction (flagParams ["SEQ_NUM", "BUFFER_OVERFLOW", "CONF_REV",
        "DATA_REFERENCE", "DATA_SET", "ENTRY_ID", "REASON_FOR_INCLUSION", "TIME_STAMP"]),
      node := subNode σ "OptFlds".toList "string".toList (some (.string optFlds)) },
    { key := "rcbtrgops".toList,
      set := setNode .setTrgOpsAction (flagParams ["DATA_CHANGED", "DATA_UPDATE", "GI", "INTEGRITY",
        "QUALITY_CHANGED"]),
      node := subNode σ "TrgOps".toList "string".toList (some (.string trgOps)) },
    { key := "readrcb".toList, set := none,
      node := DSNode.action "Read RCB".toList .readRCBAction },
    { key := "forcegi_rcb".toList, set := none,
      node := DSNode.action "Force GI".toList .forceGIRCBAction }]

/-- The child and its `set` node are added. -/
def addRcbChild (rcbNode : Path) (t : σ) (c : RcbChild) : σ :=
  addChildren (addChild t rcbNode c.key c.node) (rcbNode ++ [c.key])
    (c.set.map fun n => ("set".toList, n)).toList

/-! ## Creating the node -/

/-- `rcbNode->data->data`. -/
def rcbOf (t : σ) (rcbNode : Path) : Except Fault ClientReportControlBlock :=
  match (lookup t rcbNode).map DSNode.data with
  | some (.rcb rcb) => .ok rcb
  | _ => .error .nullDereference

/-- `getRCBInfoAndCreateNode` (report_handler.c:491–869); the result tells whether
a node was created. -/
def getRCBInfoAndCreateNode (svc : IedService W) (s : LinkState σ W) (currNode : Path)
    (iedConn : ConnId) (rcbRef : Str) (isBuffered : Bool) :
    Except Fault (Bool × LinkState σ W) := do
  let rcbMainFolderNode := folderOf s.tree currNode (rcbFolderKey isBuffered)
  storeIn (some 200) (rcbNodeKeyText isBuffered rcbRef)
  let (rcb, s) ← s.getRCBValues svc iedConn rcbRef none
  match rcbMainFolderNode, rcb with
  | some folder, some rcb =>
    let key := rcbNodeKey isBuffered rcbRef
    let newRCBNode := folder ++ [key]
    let s := { s with
      tree := addChild s.tree folder key { namedNode rcbRef with data := .rcb rcb } }
    let handlerParameter := s.ptr newRCBNode
    let s := s.modifyConnection iedConn fun c =>
      c.installReportHandler rcbRef rcb.getRptId handlerParameter
    let children ← rcbChildren σ rcbRef isBuffered rcb
    return (true, { s with tree := children.foldl (addRcbChild newRCBNode) s.tree })
  | _, _ => return (false, s)

/-! ## What is left of an RCB -/

/-- The subtree of an RCB node. -/
def rcbTree (n : DSNode) (children : List RcbChild) : Subtree :=
  children.foldl (fun F c =>
    Subtree.set c.key (withChildren (Subtree.leaf c.node)
      (c.set.map fun n => ("set".toList, n)).toList) F)
    (Subtree.leaf n)

theorem rcbTree_nil (n : DSNode) (children : List RcbChild) : rcbTree n children [] = some n := by
  suffices H : ∀ F : Subtree, children.foldl (fun F c => Subtree.set c.key
      (withChildren (Subtree.leaf c.node) (c.set.map fun n => ("set".toList, n)).toList) F) F [] =
        F [] from
    H (Subtree.leaf n)
  intro F
  induction children generalizing F with
  | nil => rfl
  | cons c cs ih =>
    rw [List.foldl_cons, ih]
    rfl

theorem grafts_addRcbChild (t : σ) (rcbNode : Path) (c : RcbChild) :
    Grafts t (addRcbChild rcbNode t c) rcbNode
      (Subtree.set c.key
        (withChildren (Subtree.leaf c.node) (c.set.map fun n => ("set".toList, n)).toList)
        (sub t rcbNode)) :=
  (grafts_addChild_addChildren t rcbNode c.key c.node _).up

theorem grafts_addRcbChildren (t : σ) (rcbNode : Path) (children : List RcbChild) {n : DSNode}
    (h : sub t rcbNode = Subtree.leaf n) :
    Grafts t (children.foldl (addRcbChild rcbNode) t) rcbNode (rcbTree n children) := by
  suffices H : ∀ (t : σ) (F : Subtree), sub t rcbNode = F →
      Grafts t (children.foldl (addRcbChild rcbNode) t) rcbNode
        (children.foldl (fun F c => Subtree.set c.key (withChildren (Subtree.leaf c.node)
          (c.set.map fun n => ("set".toList, n)).toList) F) F) from H t _ h
  intro t F hF
  induction children generalizing t F with
  | nil => exact hF ▸ Grafts.refl t rcbNode
  | cons c cs ih =>
    have hc := grafts_addRcbChild t rcbNode c
    rw [hF] at hc
    exact hc.trans (ih _ _ hc.sub_eq)

omit [DSLink σ] in
/-- Reading an RCB changes neither the tree nor the link. -/
theorem getRCBValues_ok {svc : IedService W} {s s' : LinkState σ W} {con : ConnId} {ref : Str}
    {old new : Option ClientReportControlBlock}
    (h : s.getRCBValues svc con ref old = .ok (new, s')) : s'.tree = s.tree ∧ TreeStep s s' := by
  unfold LinkState.getRCBValues at h
  dsimp only at h
  split at h
  · cases h
    exact ⟨rfl, TreeStep.call _ _⟩
  · obtain ⟨rcb, -, h⟩ := bind_eq_ok.1 h
    cases h
    exact ⟨rfl, TreeStep.call _ _⟩

omit [DSLink σ] in
theorem getRCBValues_world {svc : IedService W} {s s' : LinkState σ W} {con : ConnId} {ref : Str}
    {old new : Option ClientReportControlBlock}
    (h : s.getRCBValues svc con ref old = .ok (new, s')) :
    s'.world = (svc.readRCB s.world con ref).2 := by
  unfold LinkState.getRCBValues at h
  dsimp only at h
  split at h
  · cases h
    rfl
  · obtain ⟨_, -, h⟩ := bind_eq_ok.1 h
    cases h
    rfl

/-- What is left when a node was created. -/
structure RcbCreated (s s' : LinkState σ W) (con : ConnId) (folder : Path) (isBuffered : Bool)
    (ref : Str) (rcb : ClientReportControlBlock) (children : List RcbChild) : Prop where
  children_eq : rcbChildren σ ref isBuffered rcb = .ok children
  grafts : Grafts s.tree s'.tree (folder ++ [rcbNodeKey isBuffered ref])
    (rcbTree { namedNode ref with data := .rcb rcb } children)
  ident_eq : ident s'.tree (folder ++ [rcbNodeKey isBuffered ref]) = fresh s.tree
  connections_eq : s'.connections = (s.modifyConnection con fun c =>
    c.installReportHandler ref rcb.getRptId
      ⟨folder ++ [rcbNodeKey isBuffered ref], fresh s.tree⟩).connections
  serverMap_eq : s'.serverMap = s.serverMap
  nextConn_eq : s'.nextConn = s.nextConn
  requests_eq : s'.requests = s.requests

theorem ident_addRcbChildren (rcbNode : Path) (children : List RcbChild) (t : σ) :
    ident (children.foldl (addRcbChild rcbNode) t) rcbNode = ident t rcbNode := by
  induction children generalizing t with
  | nil => rfl
  | cons c cs ih =>
    have h := grafts_addChild_addChildren t rcbNode c.key c.node
      (c.set.map fun n => ("set".toList, n)).toList
    rw [List.foldl_cons, ih]
    apply h.ident_frame
    intro hpre
    have := hpre.length_le
    simp at this

/-- Either nothing but the outside world changes, or the folder was found, the RCB
was read, and its node and its handler are there. -/
theorem getRCBInfoAndCreateNode_ok {svc : IedService W} {s s' : LinkState σ W} {node : Path}
    {con : ConnId} {ref : Str} {isBuffered created : Bool}
    (h : getRCBInfoAndCreateNode svc s node con ref isBuffered = .ok (created, s')) :
    (created = false ∧ s'.tree = s.tree ∧ TreeStep s s') ∨
    (created = true ∧ ∃ folder rcb children s₁,
      folderOf s.tree node (rcbFolderKey isBuffered) = some folder ∧
      s.getRCBValues svc con ref none = .ok (some rcb, s₁) ∧ s'.world = s₁.world ∧
      RcbCreated s s' con folder isBuffered ref rcb children) := by
  unfold getRCBInfoAndCreateNode at h
  obtain ⟨_, -, h⟩ := bind_eq_ok.1 h
  obtain ⟨⟨rcb, s₁⟩, hread, h⟩ := bind_eq_ok.1 h
  obtain ⟨htree, hstep⟩ := getRCBValues_ok hread
  dsimp only at h
  split at h
  · rename_i folder rcb hfolder
    obtain ⟨children, hchildren, h⟩ := bind_eq_ok.1 h
    cases h
    refine .inr ⟨rfl, folder, rcb, children, s₁, hfolder, hread, rfl, ?_⟩
    have hnode := grafts_addChild_child s.tree folder (rcbNodeKey isBuffered ref)
      { namedNode ref with data := .rcb rcb }
    have hsubs := grafts_addRcbChildren _ _ children hnode.sub_eq
    refine ⟨hchildren, ?_, ?_, ?_, hstep.serverMap_eq, hstep.nextConn_eq, hstep.requests_eq⟩
    · rw [← htree] at hnode hsubs
      exact htree ▸ hnode.trans hsubs
    · show ident (List.foldl _ _ children) _ = _
      rw [ident_addRcbChildren]
      show ident (addChild s₁.tree _ _ _) _ = _
      rw [ident_addChild, if_pos rfl, htree]
    · simp only [modifyConnection, ptr, ident_addChild, if_pos, htree, hstep.connections_eq]
  · cases h
    exact .inl ⟨rfl, htree, hstep⟩

/-- The RCB is read once. -/
theorem getRCBInfoAndCreateNode_world {svc : IedService W} {s s' : LinkState σ W} {node : Path}
    {con : ConnId} {ref : Str} {isBuffered created : Bool}
    (h : getRCBInfoAndCreateNode svc s node con ref isBuffered = .ok (created, s')) :
    s'.world = (svc.readRCB s.world con ref).2 := by
  unfold getRCBInfoAndCreateNode at h
  obtain ⟨_, -, h⟩ := bind_eq_ok.1 h
  obtain ⟨⟨rcb, s₁⟩, hread, h⟩ := bind_eq_ok.1 h
  rw [← getRCBValues_world hread]
  dsimp only at h
  split at h
  · obtain ⟨_, -, h⟩ := bind_eq_ok.1 h
    cases h
    rfl
  · cases h
    rfl

end DslinkIec61850
