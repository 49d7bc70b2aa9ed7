import DslinkIec61850.Discovery.Server

/-!
# Servers

The actions on server nodes (client_handler.c:1645–1991, add_server.c): a server
has a node below the root, an entry of `serverMap` keyed by the node and a
connection.
-/

namespace DslinkIec61850

open DSLink LinkState

variable {σ W : Type} [DSLink σ]

/-! ## Adding a server -/

/-- The parameters of `ndl_editserver` with their defaults. -/
def editParams (nodeName hostName : Str) (tcpPort : ℤ) : Json :=
  let row := fun (name type : String) (default : Json) =>
    Json.object [("name".toList, .string name.toList), ("type".toList, .string type.toList),
      ("default".toList, default)]
  .array [row "Name" "string" (.string nodeName), row "Host" "string" (.string hostName),
    row "Port" "number" (.integer tcpPort)]

/-- The actions of a server node. -/
def serverActions (nodeName hostName : Str) (tcpPort : ℤ) : List (Str × DSNode) :=
  [("ndl_discoverserver".toList, .action "Discover".toList .discoverAction),
    ("ndl_editserver".toList, (DSNode.action "Edit".toList .editServerAction).setMeta
      "$params".toList (editParams nodeName hostName tcpPort)),
    ("ndl_clearserver".toList, .action "Clear".toList .clearServerAction),
    ("ndl_removeserver".toList, .action "Remove".toList .removeServerAction)]

/-- The node made by `serverStatusCreate` (server_status.c:66–108). -/
def serverStatusNode : DSNode :=
  { (DSNode.shown "string".toList (.string "Initializing".toList)).setMeta "$name".toList
      (.string "Status".toList) with onSubscribe := some .serverSubbed }

/-- The key of a server. -/
def srvKey (nodeName : Str) : Str := srvKeyInit ++ nodeName

/-- A new server node. -/
def serverNodeOf (nodeName : Str) : DSNode := { namedNode nodeName with data := .link }

/-- `responderInitClient` (client_handler.c:1850–1991). -/
def responderInitClient (svc : IedService W) (s : LinkState σ W) (nodeName hostName : Str)
    (tcpPort : ℤ) : Except Fault (LinkState σ W) := do
  storeIn (some 129) (srvKey nodeName)
  let serverNode : Path := [srvKey nodeName]
  let tree := addChild s.tree [] (srvKey nodeName) (serverNodeOf nodeName)
  let tree := addChildren tree serverNode (serverActions nodeName hostName tcpPort)
  storeIn (some 100) hostName
  let s := { s with tree := tree }
  let ptr := s.ptr serverNode
  let iedConn := s.nextConn
  let connection : Connection := { enabledReports := [], createdFor := ptr, clientControls := [] }
  let newServer : Server61850 := { hostname := hostName, tcpPort := tcpPort, iedConn := iedConn }
  let s := { s with
    serverMap := Keyed.set (fun e => e.1.ident) (ptr, newServer) s.serverMap
    connections := s.connections ++ [(iedConn, connection)]
    nextConn := iedConn + 1 }
  let (_, s) := s.call fun w => svc.connect w iedConn hostName tcpPort
  return { s with tree := addChild s.tree serverNode "ndl_connstatus".toList serverStatusNode }

/-- `invokeAddServer` (add_server.c:7–38). -/
def invokeAddServer (svc : IedService W) (s : LinkState σ W) (params : Json) :
    Except Fault (LinkState σ W) :=
  match Json.stringValue (params.objectGet "Name".toList),
    Json.stringValue (params.objectGet "Host".toList) with
  | some name, some host =>
    let portNo := intValue (params.objectGet "Port".toList)
    if portNo ≠ 0 then responderInitClient svc s name host portNo else .ok s
  | _, _ => .ok s

/-! ## Removing a server -/

/-- `removeServerNode` (client_handler.c:1682–1699); the entry of `serverMap` is
used without a test. -/
def removeServerNode (s : LinkState σ W) (serverNode : Path) :
    Except Fault (Bool × LinkState σ W) :=
  if Live s.tree serverNode then
    let ptr := s.ptr serverNode
    match s.mapGet ptr with
    | none => .error .nullDereference
    | some server =>
      .ok (true, { s with
        tree := removeTree s.tree serverNode
        serverMap := Keyed.erase (fun e => e.1.ident) ptr.ident s.serverMap
        connections := Keyed.erase Prod.fst server.iedConn s.connections })
  else .ok (false, s)

/-- `remove_server_action` (client_handler.c:1747–1778). -/
def removeServerAction (s : LinkState σ W) (node : Path) : Except Fault (LinkState σ W) := do
  let (_, s) ← removeServerNode s node.dropLast
  return s

/-- `edit_server_action` (client_handler.c:1701–1745). The name of the node, with
`srv_`, is compared with the new name, without it. -/
def editServerAction (svc : IedService W) (s : LinkState σ W) (node : Path) (params : Json) :
    Except Fault (LinkState σ W) := do
  let serverNode := node.dropLast
  let server ← deref (s.mapGet (s.ptr serverNode))
  let newTcpPort := intValue (params.objectGet "Port".toList)
  let newName ← deref (Json.stringValue (params.objectGet "Name".toList))
  if newName = [] then return s
  let newHost ← deref (Json.stringValue (params.objectGet "Host".toList))
  if newHost = [] ∨ newTcpPort = 0 then return s
  if server.hostname ≠ newHost ∨ serverNode.getLastD [] ≠ newName ∨ server.tcpPort ≠ newTcpPort then
    let (removed, s) ← removeServerNode s serverNode
    if removed then responderInitClient svc s newName newHost newTcpPort else return s
  else
    let (_, s) := s.call fun w => svc.connect w server.iedConn newHost newTcpPort
    return s

/-! ## Clearing and discovering -/

/-- `isDiscovered` (client_handler.c:1645–1658). -/
def isDiscovered (t : σ) (node : Path) : Bool :=
  hasInit srvKeyInit (node.getLastD []) && (children t node).any fun k => !hasInit ndlKeyInit k

/-- The loop of `removeAllDataModel` over the rest of the children. `nodeToRemove`
tells whether there is a reference and whether it has been freed; it is not reset
when it is freed. -/
def removeLoop (node : Path) : σ → Option Bool → List Str → Except Fault σ
  | _, some true, _ => .error .useAfterFree
  | t, _, [] => .ok t
  | t, nodeToRemove, k :: ks =>
    if hasInit ndlKeyInit k then removeLoop node t (nodeToRemove.map fun _ => true) ks
    else removeLoop node (removeTree t (node ++ [k])) (some false) ks

/-- `removeAllDataModel` (client_handler.c:1659–1680). -/
def removeAllDataModel (t : σ) (node : Path) : Except Fault σ :=
  removeLoop node t none (children t node)

/-- `clear_server_action` (client_handler.c:1779–1808). -/
def clearServerAction (s : LinkState σ W) (node : Path) : Except Fault (LinkState σ W) := do
  return { s with tree := ← removeAllDataModel s.tree node.dropLast }

/-- `discover_action` (client_handler.c:1809–1848). -/
def discoverAction (svc : IedService W) (s : LinkState σ W) (node : Path) :
    Except Fault (LinkState σ W) :=
  if isDiscovered s.tree node.dropLast then .ok s
  else do
    let server ← deref (s.mapGet (s.ptr node.dropLast))
    discover61850Server svc s node.dropLast server.iedConn

end DslinkIec61850
