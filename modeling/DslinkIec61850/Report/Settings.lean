import DslinkIec61850.Report.Nodes

/-!
# Setting the attributes of a report control block

The `set` actions (report_handler.c:247–489) change the local copy and the
displayed value first and then write the attribute; when the write fails, the
RCB is read back and all its nodes are set from the local copy.

* `setRcbElement`: what the actions have in common.
-/

namespace DslinkIec61850

open DSLink Strings LinkState Run ClientReportControlBlock

variable {σ W : Type} [DSLink σ]

/-! ## The local copy and its nodes -/

/-- The local copy changed in place. -/
def setRcb (t : σ) (rcbNode : Path) (rcb : ClientReportControlBlock) : σ :=
  modify t rcbNode fun n => { n with data := .rcb rcb }

/-- `dslink_node_set_value` on the node that `dslink_node_get_path` finds. -/
def setValueAt (t : σ) (node : Path) (key : Str) (v : Option Json) : Except Fault σ := do
  return setValue t (← deref (getPath t node key)) v

/-- `setNodeRCBValues` (report_handler.c:176–203). -/
def setNodeRCBValues (t : σ) (rcbNode : Path) (rcb : ClientReportControlBlock) :
    Except Fault σ := do
  let t ← setValueAt t rcbNode "rptid".toList (rcb.getRptId.map .string)
  let t ← setValueAt t rcbNode "rptena".toList (some (.boolean rcb.getRptEna))
  let t ← setValueAt t rcbNode "rcbdatset".toList (rcb.getDataSetReference.map .string)
  let t ← setValueAt t rcbNode "rcbconfrev".toList (some (.integer rcb.getConfRev))
  let t ← setValueAt t rcbNode "rcbbuftm".toList (some (.integer rcb.getBufTm))
  let t ← setValueAt t rcbNode "rcbintgpd".toList (some (.integer rcb.getIntgPd))
  let optFlds ← getRCBOptFldsString (← rcb.getOptFlds)
  let t ← setValueAt t rcbNode "rcboptflds".toList (some (.string optFlds))
  let trgOps ← getRCBTrgOpsString rcb.getTrgOps
  setValueAt t rcbNode "rcbtrgops".toList (some (.string trgOps))

/-- `readRCBAction` (report_handler.c:204–225). -/
def readRCBAction (svc : IedService W) (s : LinkState σ W) (node : Path) :
    Except Fault (LinkState σ W) := do
  let iedConn ← s.getServerIedConnection node
  let rcbNode := node.dropLast
  let rcbRef ← shownText s.tree rcbNode objRefNodeKey
  let rcb ← rcbOf s.tree rcbNode
  match iedConn, rcbRef with
  | some iedConn, some rcbRef =>
    let (read, s) ← s.getRCBValues svc iedConn rcbRef (some rcb)
    match read with
    | none => return s
    | some rcb =>
      return { s with tree := ← setNodeRCBValues (setRcb s.tree rcbNode rcb) rcbNode rcb }
  | _, _ => return s

/-- `forceGIRCBAction` (report_handler.c:226–245). -/
def forceGIRCBAction (svc : IedService W) (s : LinkState σ W) (node : Path) :
    Except Fault (LinkState σ W) := do
  let iedConn ← s.getServerIedConnection node
  let rcbNode := node.dropLast
  let rcbRef ← shownText s.tree rcbNode objRefNodeKey
  let _ ← rcbOf s.tree rcbNode
  match iedConn, rcbRef with
  | some iedConn, some rcbRef =>
    let (_, s) := s.send iedConn (.triggerGIReport rcbRef) fun w =>
      svc.triggerGIReport w iedConn rcbRef
    return s
  | _, _ => return s

/-! ## The set actions -/

/-- The common course of a `set` action: the attribute `element` of the local copy
is changed by `update`, the node `key` shows `shown`. -/
def setRcbElement (svc : IedService W) (s : LinkState σ W) (node : Path) (element : RcbElement)
    (update : ClientReportControlBlock → ClientReportControlBlock) (key : Str)
    (shown : Except Fault (Option Json)) : Except Fault (LinkState σ W) := do
  let iedConn ← s.getServerIedConnection node
  let rcbNode := node.dropLast.dropLast
  let rcbRef ← shownText s.tree rcbNode objRefNodeKey
  let rcb ← rcbOf s.tree rcbNode
  match iedConn, rcbRef with
  | some iedConn, some rcbRef =>
    let rcb := update rcb
    let tree ← setValueAt (setRcb s.tree rcbNode rcb) rcbNode key (← shown)
    let (ok, s) := { s with tree := tree }.setRCBValues svc iedConn rcb element
    if ok then return s
    else do
      -- a read that fails leaves the local copy as it is
      let (read, s) ← s.getRCBValues svc iedConn rcbRef (some rcb)
      let rcb := read.getD rcb
      return { s with tree := ← setNodeRCBValues (setRcb s.tree rcbNode rcb) rcbNode rcb }
  | _, _ => return s

/-- The member `Value` of the parameters. -/
def valueMember (params : Json) : Option Json := params.objectGet daValueRefNodeKey

/-- `setRptEnaAction` (report_handler.c:247–272). -/
def setRptEnaAction (svc : IedService W) (s : LinkState σ W) (node : Path) (params : Json) :
    Except Fault (LinkState σ W) :=
  let boolValue := Json.booleanValue (valueMember params)
  setRcbElement svc s node .rptEna (·.setRptEna boolValue) "rptena".toList
    (.ok (some (.boolean boolValue)))

/-- `setRptIdAction` (report_handler.c:273–300). -/
def setRptIdAction (svc : IedService W) (s : LinkState σ W) (node : Path) (params : Json) :
    Except Fault (LinkState σ W) :=
  let entValue := Json.stringValue (valueMember params)
  setRcbElement svc s node .rptId (·.setRptId entValue) "rptid".toList (.ok (entValue.map .string))

/-- `setDatSetAction` (report_handler.c:301–326). -/
def setDatSetAction (svc : IedService W) (s : LinkState σ W) (node : Path) (params : Json) :
    Except Fault (LinkState σ W) :=
  let entValue := Json.stringValue (valueMember params)
  setRcbElement svc s node .datSet (·.setDataSetReference entValue) "rcbdatset".toList
    (.ok (entValue.map .string))

/-- `(uint32_t)json_integer_value(…)`. -/
def uint32Value (params : Json) : ℕ := (Json.integerValue (valueMember params) % 2 ^ 32).toNat

/-- `setBufTmAction` (report_handler.c:349–377). -/
def setBufTmAction (svc : IedService W) (s : LinkState σ W) (node : Path) (params : Json) :
    Except Fault (LinkState σ W) :=
  let entValue := uint32Value params
  setRcbElement svc s node .bufTm (·.setBufTm entValue) "rcbbuftm".toList
    (.ok (some (.integer entValue)))

/-- `setIntgPdAction` (report_handler.c:378–405). -/
def setIntgPdAction (svc : IedService W) (s : LinkState σ W) (node : Path) (params : Json) :
    Except Fault (LinkState σ W) :=
  let entValue := uint32Value params
  setRcbElement svc s node .intgPd (·.setIntgPd entValue) "rcbintgpd".toList
    (.ok (some (.integer entValue)))

/-- The flags whose parameter is true. -/
def flagsOf (params : Json) (flags : List (String × ℕ)) : ℕ :=
  flags.foldl (fun acc f =>
    if Json.booleanValue (params.objectGet f.1.toList) then acc ||| 2 ^ f.2 else acc) 0

/-- `setOptFldsAction` (report_handler.c:406–450). -/
def setOptFldsAction (svc : IedService W) (s : LinkState σ W) (node : Path) (params : Json) :
    Except Fault (LinkState σ W) :=
  let optFlds := flagsOf params [("SEQ_NUM", 0), ("TIME_STAMP", 1), ("REASON_FOR_INCLUSION", 2),
    ("ENTRY_ID", 6), ("DATA_SET", 3), ("BUFFER_OVERFLOW", 5), ("CONF_REV", 7),
    ("DATA_REFERENCE", 4)]
  setRcbElement svc s node .optFlds (·.setOptFlds optFlds) "rcboptflds".toList
    ((getRCBOptFldsString optFlds).map fun s => some (.string s))

/-- `setTrgOpsAction` (report_handler.c:451–489). -/
def setTrgOpsAction (svc : IedService W) (s : LinkState σ W) (node : Path) (params : Json) :
    Except Fault (LinkState σ W) :=
  let trgOps := flagsOf params [("QUALITY_CHANGED", 1), ("INTEGRITY", 3), ("GI", 4),
    ("DATA_UPDATE", 2), ("DATA_CHANGED", 0)]
  setRcbElement svc s node .trgOps (·.setTrgOps trgOps) "rcbtrgops".toList
    ((getRCBTrgOpsString trgOps).map fun s => some (.string s))

end DslinkIec61850
