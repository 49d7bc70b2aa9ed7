import DslinkIec61850.Link.Entries

/-!
# Editing a server

`edit_server_action` removes the server before `responderInitClient` makes it anew, and
the name it compares is the key of the node, with `srv_`. Any call of the node library
in `responderInitClient` (client_handler.c:1850–1991) may fail; most failures end it.

* `responderInitClientWith_cases`: what a creation with failing calls leaves.
* `edits_atomic_iff`: along which runs an edit makes the server anew or leaves it.
* `edit_keeps_iff`: when an edit with the present values leaves it.
-/

namespace DslinkIec61850

open DSLink LinkState Run Subtree

variable {σ W : Type} [DSLink σ] {svc : IedService W} {s s' : LinkState σ W}

/-! ## Calls that fail -/

/-- The calls of the node library while a server is made, by the key of their node. -/
inductive NodeCall where
  | create (key : Str)
  | setMeta (key entry : Str)
  | setValue (key : Str)
  | addChild (key : Str)
  deriving DecidableEq

/-- Which calls fail. -/
abbrev Failures := NodeCall → Bool

/-- The node without the meta entries that could not be set; the results of these calls
are not tested. -/
def withMetas (fails : Failures) (key : Str) (n : DSNode) : DSNode :=
  { n with metaData := n.metaData.filter fun m => !fails (.setMeta key m.1) }

/-- The action nodes one after the other, up to the first that cannot be created or
added; the flag tells that there are all. -/
def addActions (fails : Failures) (serverNode : Path) : σ → List (Str × DSNode) → Bool × σ
  | t, [] => (true, t)
  | t, c :: cs =>
    if fails (.create c.1) || fails (.addChild c.1) then (false, t)
    else addActions fails serverNode (addChild t serverNode c.1 (withMetas fails c.1 c.2)) cs

/-- `serverStatusCreate` (server_status.c:66–108). -/
def serverStatusCreate (fails : Failures) (t : σ) (root : Path) : σ :=
  let key := "ndl_connstatus".toList
  if fails (.create key) || fails (.setMeta key "$type".toList) ||
      fails (.setMeta key "$name".toList) || fails (.setValue key) || fails (.addChild key) then t
  else addChild t root key serverStatusNode

/-- `responderInitClient` (client_handler.c:1850–1991). -/
def responderInitClientWith (fails : Failures) (svc : IedService W) (s : LinkState σ W)
    (nodeName hostName : Str) (tcpPort : ℤ) : Except Fault (LinkState σ W) := do
  storeIn (some 129) (srvKey nodeName)
  let key := srvKey nodeName
  let serverNode : Path := [key]
  if fails (.create key) || fails (.setMeta key "$name".toList) ||
    fails (.addChild key) then return s
  let tree := addChild s.tree [] key (serverNodeOf nodeName)
  let actions := addActions fails serverNode tree (serverActions nodeName hostName tcpPort)
  if actions.1 = false then return { s with tree := actions.2 }
  storeIn (some 100) hostName
  let s := { s with tree := actions.2 }
  let ptr := s.ptr serverNode
  let iedConn := s.nextConn
  let connection : Connection := { enabledReports := [], createdFor := ptr, clientControls := [] }
  let newServer : Server61850 := { hostname := hostName, tcpPort := tcpPort, iedConn := iedConn }
  let s := { s with
    serverMap := Keyed.set (fun e => e.1.ident) (ptr, newServer) s.serverMap
    connections := s.connections ++ [(iedConn, connection)]
    nextConn := iedConn + 1 }
  let (_, s) := s.call fun w => svc.connect w iedConn hostName tcpPort
  return { s with tree := serverStatusCreate fails s.tree serverNode }

/-- `invokeAddServer`. -/
def invokeAddServerWith (fails : Failures) (svc : IedService W) (s : LinkState σ W)
    (params : Json) : Except Fault (LinkState σ W) :=
  match Json.stringValue (params.objectGet "Name".toList),
    Json.stringValue (params.objectGet "Host".toList) with
  | some name, some host =>
    let portNo := intValue (params.objectGet "Port".toList)
    if portNo ≠ 0 then responderInitClientWith fails svc s name host portNo else .ok s
  | _, _ => .ok s

/-- `edit_server_action` (client_handler.c:1701–1745). -/
def editServerActionWith (fails : Failures) (svc : IedService W) (s : LinkState σ W) (node : Path)
    (params : Json) : Except Fault (LinkState σ W) := do
  let serverNode := node.dropLast
  let server ← deref (s.mapGet (s.ptr serverNode))
  let newTcpPort := intValue (params.objectGet "Port".toList)
  let newName ← deref (Json.stringValue (params.objectGet "Name".toList))
  if newName = [] then return s
  let newHost ← deref (Json.stringValue (params.objectGet "Host".toList))
  if newHost = [] ∨ newTcpPort = 0 then return s
  if server.hostname ≠ newHost ∨ serverNode.getLastD [] ≠ newName ∨ server.tcpPort ≠ newTcpPort then
    let (removed, s) ← removeServerNode s serverNode
    if removed then responderInitClientWith fails svc s newName newHost newTcpPort else return s
  else
    let (_, s) := s.call fun w => svc.connect w server.iedConn newHost newTcpPort
    return s

/-- An event and the calls that fail in it. -/
abbrev FailingEvent := LinkEvent × Failures

/-- One event. -/
def failingEvent (svc : IedService W) (s : LinkState σ W) (e : FailingEvent) :
    Except Fault (LinkState σ W) :=
  match e.1 with
  | .addServer params => invokeAddServerWith e.2 svc s params
  | .invoke node params =>
    if Invokes s.tree node .editServerAction then editServerActionWith e.2 svc s node params
    else linkEvent svc s (.invoke node params)
  | .listOpen node => linkEvent svc s (.listOpen node)
  | .report con message => linkEvent svc s (.report con message)

/-! ## No call fails -/

/-- The calls succeed. -/
def noFailures : Failures := fun _ => false

theorem addActions_noFailures (p : Path) (t : σ) (cs : List (Str × DSNode)) :
    addActions noFailures p t cs = (true, addChildren t p cs) := by
  induction cs generalizing t with
  | nil => rfl
  | cons c cs ih =>
    have hmetas : withMetas noFailures c.1 c.2 = c.2 := by
      simp [withMetas, noFailures]
    rw [addActions, if_neg (by simp [noFailures]), hmetas, ih]
    rfl

theorem responderInitClientWith_noFailures (svc : IedService W) (s : LinkState σ W)
    (name host : Str) (port : ℤ) :
    responderInitClientWith noFailures svc s name host port =
      responderInitClient svc s name host port := by
  unfold responderInitClientWith responderInitClient
  simp only [addActions_noFailures]
  rfl

/-- Without failures the events are those of the link. -/
theorem failingEvent_noFailures (svc : IedService W) (s : LinkState σ W) (e : LinkEvent) :
    failingEvent svc s (e, noFailures) = linkEvent svc s e := by
  cases e with
  | addServer params =>
    show invokeAddServerWith noFailures svc s params = invokeAddServer svc s params
    unfold invokeAddServerWith
    simp only [responderInitClientWith_noFailures]
    rfl
  | invoke node params =>
    show (if Invokes s.tree node .editServerAction then editServerActionWith noFailures svc s node
      params else linkEvent svc s (.invoke node params)) = _
    split_ifs with hedit
    · have hf : installed s.tree node DSNode.onInvocation = some .editServerAction := hedit
      have hlink : linkEvent svc s (.invoke node params) = editServerAction svc s node params := by
        unfold linkEvent
        simp only [hf, invokeAction]
      rw [hlink]
      unfold editServerActionWith
      simp only [responderInitClientWith_noFailures]
      rfl
    · rfl
  | listOpen node => rfl
  | report con message => rfl

/-! ## What a creation leaves -/

/-- The keys of the actions of a server. -/
def actionKeys : List (Str × Callback) :=
  [("ndl_discoverserver".toList, .discoverAction), ("ndl_editserver".toList, .editServerAction),
    ("ndl_clearserver".toList, .clearServerAction),
    ("ndl_removeserver".toList, .removeServerAction)]

/-- The calls whose failure ends the creation of a server. -/
def creationCalls (name : Str) : List NodeCall :=
  [.create (srvKey name), .setMeta (srvKey name) "$name".toList, .addChild (srvKey name)] ++
    actionKeys.flatMap fun a => [.create a.1, .addChild a.1]

/-- None of these calls fails. -/
def CallsSucceed (fails : Failures) (name : Str) : Prop := ∀ c ∈ creationCalls name, fails c = false

instance (fails : Failures) (name : Str) : Decidable (CallsSucceed fails name) :=
  inferInstanceAs (Decidable (∀ c ∈ creationCalls name, fails c = false))

/-- The server is there with its actions, an entry of `serverMap` and a connection of its
own. -/
structure ServerMade (s : LinkState σ W) (name host : Str) (port : ℤ) (con : ConnId) : Prop where
  node : lookup s.tree [srvKey name] = some (serverNodeOf name)
  actions : ∀ a ∈ actionKeys, Invokes s.tree [srvKey name, a.1] a.2
  entry : s.mapGet (s.ptr [srvKey name]) =
    some { hostname := host, tcpPort := port, iedConn := con }
  connection : ∃ c, (con, c) ∈ s.connections

/-- The step that makes the server. -/
structure MakesServer (s s' : LinkState σ W) (name host : Str) (port : ℤ) : Prop where
  made : ServerMade s' name host port s.nextConn
  serverMap_eq : ∃ ptr, s'.serverMap = Keyed.set mapKey (ptr, ⟨host, port, s.nextConn⟩) s.serverMap
  nextConn_eq : s'.nextConn = s.nextConn + 1

theorem addActions_true_iff {fails : Failures} {p : Path} {t : σ} {cs : List (Str × DSNode)} :
    (addActions fails p t cs).1 = true ↔
      ∀ c ∈ cs, fails (.create c.1) = false ∧ fails (.addChild c.1) = false := by
  induction cs generalizing t with
  | nil => simp [addActions]
  | cons c cs ih =>
    rw [addActions, List.forall_mem_cons]
    by_cases hfail : (fails (.create c.1) || fails (.addChild c.1)) = true
    · rw [if_pos hfail]
      rw [Bool.or_eq_true] at hfail
      constructor
      · intro h
        cases h
      · rintro ⟨⟨hcreate, hadd⟩, -⟩
        rw [hcreate, hadd] at hfail
        simp at hfail
    · rw [if_neg hfail, ih]
      rw [Bool.or_eq_true, not_or, Bool.not_eq_true, Bool.not_eq_true] at hfail
      exact (and_iff_right hfail).symm

/-- All actions are added. -/
theorem addActions_eq {fails : Failures} {p : Path} {t : σ} {cs : List (Str × DSNode)}
    (h : (addActions fails p t cs).1 = true) :
    (addActions fails p t cs).2 =
      addChildren t p (cs.map fun c => (c.1, withMetas fails c.1 c.2)) := by
  induction cs generalizing t with
  | nil => rfl
  | cons c cs ih =>
    rw [addActions] at h ⊢
    by_cases hfail : (fails (.create c.1) || fails (.addChild c.1)) = true
    · rw [if_pos hfail] at h
      cases h
    · rw [if_neg hfail] at h ⊢
      exact ih h

theorem callsSucceed_iff (fails : Failures) (name host : Str) (port : ℤ) (p : Path) (t : σ) :
    CallsSucceed fails name ↔
      (fails (.create (srvKey name)) || fails (.setMeta (srvKey name) "$name".toList) ||
        fails (.addChild (srvKey name))) = false ∧
      (addActions fails p t (serverActions name host port)).1 = true := by
  rw [addActions_true_iff]
  simp only [CallsSucceed, creationCalls, actionKeys, serverActions, List.flatMap_cons,
    List.flatMap_nil, List.cons_append, List.nil_append, List.append_nil, List.forall_mem_cons,
    List.not_mem_nil, Bool.or_eq_false_iff]
  tauto

/-- The status node is put beside the actions. -/
theorem lookup_serverStatusCreate {fails : Failures} {t : σ} {root q : Path}
    (h : ¬ root ++ ["ndl_connstatus".toList] <+: q) :
    lookup (serverStatusCreate fails t root) q = lookup t q ∧
      ident (serverStatusCreate fails t root) q = ident t q := by
  unfold serverStatusCreate
  dsimp only
  split_ifs
  · exact ⟨rfl, rfl⟩
  · refine ⟨lookup_addChild_of_not_below h, ?_⟩
    rw [ident_addChild, if_neg]
    rintro rfl
    exact h (List.prefix_refl _)

/-- The nodes of a new server. -/
theorem lookup_serverTree (t : σ) (fails : Failures) (name host : Str) (port : ℤ) :
    let cs := (serverActions name host port).map fun c => (c.1, withMetas fails c.1 c.2)
    let t' := addChildren (addChild t [] (srvKey name) (serverNodeOf name)) [srvKey name] cs
    lookup t' [srvKey name] = some (serverNodeOf name) ∧
      ∀ a ∈ actionKeys, Invokes t' [srvKey name, a.1] a.2 := by
  intro cs t'
  have hsub : sub t' [srvKey name] = withChildren (leaf (serverNodeOf name)) cs :=
    (grafts_addChild_addChildren t [] (srvKey name) (serverNodeOf name) cs).sub_eq
  constructor
  · rw [← sub_nil, hsub, withChildren_nil, leaf_nil]
  · intro a ha
    have hlookup : lookup t' [srvKey name, a.1] =
        withChildren (leaf (serverNodeOf name)) cs [a.1] := by
      rw [← hsub, sub_apply]
      rfl
    unfold Invokes
    rw [hlookup]
    simp only [actionKeys, List.mem_cons, List.not_mem_nil, or_false] at ha
    rcases ha with rfl | rfl | rfl | rfl
    · rfl
    · rfl
    · rfl
    · rfl

/-- **A creation.** A failing call that is tested leaves `serverMap` and the connections
as they were; otherwise the server is made. -/
theorem responderInitClientWith_cases (fails : Failures) (svc : IedService W) (s : LinkState σ W)
    (name host : Str) (port : ℤ) :
    (CallsSucceed fails name ∧ Fits name host →
      ∃ s', responderInitClientWith fails svc s name host port = .ok s' ∧
        MakesServer s s' name host port) ∧
    (¬ (CallsSucceed fails name ∧ Fits name host) → ∀ s',
      responderInitClientWith fails svc s name host port = .ok s' →
        s'.serverMap = s.serverMap ∧ s'.nextConn = s.nextConn) := by
  have hcalls := callsSucceed_iff fails name host port [srvKey name]
    (addChild s.tree [] (srvKey name) (serverNodeOf name))
  unfold responderInitClientWith
  dsimp only
  constructor
  · rintro ⟨hsucceed, hname, hhost⟩
    obtain ⟨hnode, hactions⟩ := hcalls.1 hsucceed
    rw [storeIn, if_pos hname, ok_bind, if_neg (by rw [hnode]; simp), hactions, if_neg (by simp),
      storeIn, if_pos hhost, ok_bind, addActions_eq hactions]
    refine ⟨_, rfl, ?_⟩
    obtain ⟨hserver, hinvokes⟩ := lookup_serverTree s.tree fails name host port
    have hstatus {t : σ} {q : Path} (h : ¬ [srvKey name, "ndl_connstatus".toList] <+: q) :
        lookup (serverStatusCreate fails t [srvKey name]) q = lookup t q ∧
          ident (serverStatusCreate fails t [srvKey name]) q = ident t q :=
            lookup_serverStatusCreate h
    have hroot : ¬ [srvKey name, "ndl_connstatus".toList] <+: [srvKey name] :=
      fun h => by simpa using h.length_le
    refine ⟨⟨?_, ?_, ?_, ?_⟩, ⟨_, rfl⟩, rfl⟩
    · exact (hstatus hroot).1.trans hserver
    · intro a ha
      have hne : ¬ [srvKey name, "ndl_connstatus".toList] <+: [srvKey name, a.1] := by
        rw [List.cons_prefix_cons, List.cons_prefix_cons]
        rintro ⟨-, hkey, -⟩
        have hkeys : ∀ a ∈ actionKeys, "ndl_connstatus".toList ≠ a.1 := by decide
        exact hkeys a ha hkey
      unfold Invokes
      rw [(hstatus hne).1]
      exact hinvokes a ha
    · unfold mapGet ptr
      dsimp only [call]
      rw [(hstatus hroot).2, Keyed.find_set, if_pos rfl]
      rfl
    · exact ⟨_, List.mem_append_right _ List.mem_cons_self⟩
  · intro hnot s' h
    obtain ⟨_, hname, h⟩ := bind_eq_ok.1 h
    rw [storeIn_eq_ok] at hname
    split_ifs at h with hnode hactions
    · cases h
      exact ⟨rfl, rfl⟩
    · cases h
      exact ⟨rfl, rfl⟩
    · exfalso
      obtain ⟨_, hhost, -⟩ := bind_eq_ok.1 h
      rw [storeIn_eq_ok] at hhost
      rw [Bool.not_eq_true] at hnode
      rw [Bool.not_eq_false] at hactions
      exact hnot ⟨hcalls.2 ⟨hnode, hactions⟩, hname 129 rfl, hhost 100 rfl⟩

/-! ## Entries of runs -/

/-- The connections of the entries were made before. -/
def EntriesInv (s : LinkState σ W) : Prop := ∀ e ∈ s.serverMap, e.2.iedConn < s.nextConn

omit [DSLink σ] in
theorem KeepsEntries.entriesInv (h : KeepsEntries s s') (hinv : EntriesInv s) : EntriesInv s' := by
  unfold EntriesInv
  rw [h.serverMap_eq, h.nextConn_eq]
  exact hinv

theorem MakesServer.entriesInv {name host : Str} {port : ℤ} (h : MakesServer s s' name host port)
    (hinv : EntriesInv s) : EntriesInv s' := by
  intro e he
  obtain ⟨ptr, hmap⟩ := h.serverMap_eq
  rw [hmap] at he
  rw [h.nextConn_eq]
  rcases Keyed.mem_of_mem_set he with rfl | he
  · exact Nat.lt_succ_self _
  · exact (hinv e he).trans (Nat.lt_succ_self _)

theorem responderInitClientWith_entriesInv {fails : Failures} {name host : Str} {port : ℤ}
    (hinv : EntriesInv s)
    (h : responderInitClientWith fails svc s name host port = .ok s') : EntriesInv s' := by
  obtain ⟨hmade, hleft⟩ := responderInitClientWith_cases fails svc s name host port
  by_cases hall : CallsSucceed fails name ∧ Fits name host
  · obtain ⟨s₁, hs₁, hserver⟩ := hmade hall
    cases hs₁.symm.trans h
    exact hserver.entriesInv hinv
  · obtain ⟨hmap, hnext⟩ := hleft hall s' h
    exact KeepsEntries.entriesInv ⟨hmap, hnext⟩ hinv

/-- The state without the node of a server, its entry and its connection. -/
def withoutNode (s : LinkState σ W) (p : Path) (server : Server61850) : LinkState σ W :=
  { s with tree := removeTree s.tree p, serverMap := Keyed.erase mapKey (s.ptr p).ident s.serverMap,
           connections := Keyed.erase Prod.fst server.iedConn s.connections }

theorem removeServerNode_withoutNode {p : Path} {server : Server61850} (hlive : Live s.tree p)
    (hserver : s.mapGet (s.ptr p) = some server) :
    removeServerNode s p = .ok (true, withoutNode s p server) := by
  rw [removeServerNode, if_pos hlive]
  dsimp only
  rw [hserver]
  rfl

theorem removeServerNode_entriesInv {p : Path} {removed : Bool} (hinv : EntriesInv s)
    (h : removeServerNode s p = .ok (removed, s')) : EntriesInv s' ∧ s'.nextConn = s.nextConn := by
  unfold removeServerNode at h
  split_ifs at h
  · dsimp only at h
    split at h
    · cases h
    · cases h
      exact ⟨fun e he => hinv e (Keyed.mem_erase.1 he).1, rfl⟩
  · cases h
    exact ⟨hinv, rfl⟩

/-! ## Requests to edit -/

/-- The values of the parameters. -/
structure EditValues (params : Json) (name host : Str) : Prop where
  name_eq : Json.stringValue (params.objectGet "Name".toList) = some name
  host_eq : Json.stringValue (params.objectGet "Host".toList) = some host

/-- The port of the parameters. -/
def editPort (params : Json) : ℤ := intValue (params.objectGet "Port".toList)

/-- The values are complete and differ from those of the server; the name is compared
with the key of the node. -/
def Remakes (server : Server61850) (key name host : Str) (port : ℤ) : Prop :=
  (name ≠ [] ∧ host ≠ [] ∧ port ≠ 0) ∧
    (server.hostname ≠ host ∨ key ≠ name ∨ server.tcpPort ≠ port)

/-- The node and what is below it, its entry and its connection are the same. -/
structure Kept (s s' : LinkState σ W) (serverNode : Path) : Prop where
  subtree : ∀ q, serverNode <+: q → lookup s'.tree q = lookup s.tree q ∧
    ident s'.tree q = ident s.tree q
  entry : s'.mapGet (s.ptr serverNode) = s.mapGet (s.ptr serverNode)
  connection : ∀ server, s.mapGet (s.ptr serverNode) = some server →
    Keyed.find Prod.fst server.iedConn s'.connections =
      Keyed.find Prod.fst server.iedConn s.connections

theorem Kept.refl (s : LinkState σ W) (p : Path) : Kept s s p :=
  ⟨fun _ _ => ⟨rfl, rfl⟩, rfl, fun _ _ => rfl⟩

/-- The edit ends with the server made as requested, or left as it was. -/
def EditAtomic (svc : IedService W) (s : LinkState σ W) (node : Path) (params : Json)
    (fails : Failures) : Prop :=
  ∃ s', editServerActionWith fails svc s node params = .ok s' ∧
    (Kept s s' node.dropLast ∨
      ∃ name host, EditValues params name host ∧
        ServerMade s' name host (editPort params) s.nextConn)

/-- The server has an entry and the request a name; it is refused or reconnects, or it has
texts that fit and no call fails that is tested. -/
def EditSafe (s : LinkState σ W) (node : Path) (params : Json) (fails : Failures) : Prop :=
  ∃ server name, s.mapGet (s.ptr node.dropLast) = some server ∧
    Json.stringValue (params.objectGet "Name".toList) = some name ∧
    (name = [] ∨ ∃ host, Json.stringValue (params.objectGet "Host".toList) = some host ∧
      (Remakes server (node.dropLast.getLastD []) name host (editPort params) →
        CallsSucceed fails name ∧ Fits name host))

/-- What an edit with all its values does. -/
theorem editServerActionWith_eq (fails : Failures) (svc : IedService W) {node : Path}
    {params : Json} {server : Server61850} {name host : Str} (hlive : Live s.tree node.dropLast)
    (hserver : s.mapGet (s.ptr node.dropLast) = some server)
    (hvalues : EditValues params name host) :
    (Remakes server (node.dropLast.getLastD []) name host (editPort params) →
      editServerActionWith fails svc s node params =
        responderInitClientWith fails svc (withoutNode s node.dropLast server) name host
          (editPort params)) ∧
    (¬ Remakes server (node.dropLast.getLastD []) name host (editPort params) →
      ∃ s', editServerActionWith fails svc s node params = .ok s' ∧ KeepsEntries s s' ∧
        Kept s s' node.dropLast) := by
  have hport : intValue (params.objectGet "Port".toList) = editPort params := rfl
  unfold editServerActionWith Remakes
  simp only [hserver, hvalues.name_eq, hvalues.host_eq, deref, ok_bind, hport]
  constructor
  · rintro ⟨⟨hname, hhost, hp⟩, hchanged⟩
    rw [if_neg hname, if_neg (not_or.2 ⟨hhost, hp⟩), if_pos hchanged,
      removeServerNode_withoutNode hlive hserver]
    rfl
  · intro hnot
    by_cases hname : name = []
    · rw [if_pos hname]
      exact ⟨s, rfl, .refl s, .refl s _⟩
    · rw [if_neg hname]
      by_cases hrefused : host = [] ∨ editPort params = 0
      · rw [if_pos hrefused]
        exact ⟨s, rfl, .refl s, .refl s _⟩
      · rw [if_neg hrefused, if_neg fun hchanged => hnot ⟨⟨hname, by tauto, by tauto⟩, hchanged⟩]
        exact ⟨_, rfl, ⟨rfl, rfl⟩, ⟨fun _ _ => ⟨rfl, rfl⟩, rfl, fun _ _ => rfl⟩⟩

/-- Once the server was removed and not made anew, nothing is as it was. -/
theorem not_kept_of_withoutNode {p : Path} {server : Server61850}
    (hserver : s.mapGet (s.ptr p) = some server)
    (hmap : s'.serverMap = (withoutNode s p server).serverMap) : ¬ Kept s s' p := by
  intro hkept
  have hentry := hkept.entry
  have hnone : s'.mapGet (s.ptr p) = none := by
    unfold mapGet
    rw [hmap]
    show (Keyed.find mapKey (s.ptr p).ident (Keyed.erase mapKey (s.ptr p).ident s.serverMap)).map
      Prod.snd = none
    rw [Keyed.find_erase, if_pos rfl]
    rfl
  rw [hnone, hserver] at hentry
  cases hentry

/-- No entry has the connection that the new server would have. -/
theorem not_made_of_withoutNode {p : Path} {server : Server61850} {name host : Str} {port : ℤ}
    (hinv : EntriesInv s) (hmap : s'.serverMap = (withoutNode s p server).serverMap) :
    s'.mapGet (s'.ptr [srvKey name]) ≠
      some { hostname := host, tcpPort := port, iedConn := s.nextConn } := by
  intro hentry
  obtain ⟨e, hfind, he⟩ := Option.map_eq_some_iff.1 hentry
  have hmem := Keyed.mem_of_find hfind
  rw [hmap] at hmem
  have hlt := hinv e (Keyed.mem_erase.1 hmem).1
  rw [he] at hlt
  exact lt_irrefl _ hlt

/-- **One edit.** -/
theorem editAtomic_iff {node : Path} {params : Json} {fails : Failures} (hinv : EntriesInv s)
    (hlive : Live s.tree node.dropLast) :
    EditAtomic svc s node params fails ↔ EditSafe s node params fails := by
  cases hserver : s.mapGet (s.ptr node.dropLast) with
  | none =>
    constructor
    · rintro ⟨s', hrun, -⟩
      unfold editServerActionWith at hrun
      dsimp only at hrun
      rw [hserver] at hrun
      cases hrun
    · rintro ⟨_, _, h, -⟩
      rw [hserver] at h
      cases h
  | some server =>
    cases hname : Json.stringValue (params.objectGet "Name".toList) with
    | none =>
      constructor
      · rintro ⟨s', hrun, -⟩
        unfold editServerActionWith at hrun
        simp only [hserver, hname, deref, ok_bind] at hrun
        cases hrun
      · rintro ⟨_, _, -, h, -⟩
        rw [hname] at h
        cases h
    | some name =>
      by_cases hempty : name = []
      · refine iff_of_true ⟨s, ?_, .inl (.refl s _)⟩ ⟨server, name, hserver, hname, .inl hempty⟩
        unfold editServerActionWith
        simp only [hserver, hname, deref, ok_bind, if_pos hempty]
        rfl
      · cases hhost : Json.stringValue (params.objectGet "Host".toList) with
        | none =>
          constructor
          · rintro ⟨s', hrun, -⟩
            unfold editServerActionWith at hrun
            simp only [hserver, hname, hhost, deref, ok_bind, if_neg hempty] at hrun
            cases hrun
          · rintro ⟨_, name', -, hname', hsafe⟩
            cases hname.symm.trans hname'
            rcases hsafe with h | ⟨_, h, -⟩
            · exact absurd h hempty
            · rw [hhost] at h
              cases h
        | some host =>
          have hvalues : EditValues params name host := ⟨hname, hhost⟩
          obtain ⟨hremade, hleft⟩ := editServerActionWith_eq fails svc hlive hserver hvalues
          have hsafe : EditSafe s node params fails ↔
              (Remakes server (node.dropLast.getLastD []) name host (editPort params) →
                CallsSucceed fails name ∧ Fits name host) := by
            constructor
            · rintro ⟨_, _, h₁, h₂, h⟩
              cases hserver.symm.trans h₁
              cases hname.symm.trans h₂
              rcases h with h | ⟨_, h₃, h⟩
              · exact absurd h hempty
              · cases hhost.symm.trans h₃
                exact h
            · intro h
              exact ⟨server, name, hserver, hname, .inr ⟨host, hhost, h⟩⟩
          rw [hsafe]
          by_cases hremakes : Remakes server (node.dropLast.getLastD []) name host (editPort params)
          · rw [imp_iff_right hremakes, EditAtomic, hremade hremakes]
            obtain ⟨hmade, hfailed⟩ :=
              responderInitClientWith_cases fails svc (withoutNode s node.dropLast server)
              name host (editPort params)
            constructor
            · rintro ⟨s', hrun, hend⟩
              by_contra hnot
              obtain ⟨hmap, -⟩ := hfailed hnot s' hrun
              rcases hend with hkept | ⟨name', host', -, hserver'⟩
              · exact not_kept_of_withoutNode hserver hmap hkept
              · exact absurd hserver'.entry (not_made_of_withoutNode hinv hmap)
            · intro hall
              obtain ⟨s', hrun, hserver'⟩ := hmade hall
              exact ⟨s', hrun, .inr ⟨name, host, hvalues, hserver'.made⟩⟩
          · rw [iff_true_right fun h => absurd h hremakes]
            obtain ⟨s', hrun, -, hkept⟩ := hleft hremakes
            exact ⟨s', hrun, .inl hkept⟩

/-! ## Runs -/

theorem editServerActionWith_entriesInv {node : Path} {params : Json} {fails : Failures}
    (hinv : EntriesInv s)
    (h : editServerActionWith fails svc s node params = .ok s') : EntriesInv s' := by
  unfold editServerActionWith at h
  obtain ⟨server, -, h⟩ := bind_eq_ok.1 h
  obtain ⟨name, -, h⟩ := bind_eq_ok.1 h
  split_ifs at h
  · cases h
    exact hinv
  · obtain ⟨host, -, h⟩ := bind_eq_ok.1 h
    split_ifs at h
    · cases h
      exact hinv
    · obtain ⟨⟨removed, s₁⟩, hremove, h⟩ := bind_eq_ok.1 h
      have hinv₁ := (removeServerNode_entriesInv hinv hremove).1
      dsimp only at h
      split_ifs at h
      · exact responderInitClientWith_entriesInv hinv₁ h
      · cases h
        exact hinv₁
    · cases h
      exact hinv

/-- Every event keeps the invariant. -/
theorem failingEvent_entriesInv {e : FailingEvent} (hinv : EntriesInv s)
    (h : failingEvent svc s e = .ok s') : EntriesInv s' := by
  obtain ⟨event, fails⟩ := e
  unfold failingEvent at h
  cases event with
  | addServer params =>
    dsimp only [invokeAddServerWith] at h
    split at h
    · split_ifs at h
      · exact responderInitClientWith_entriesInv hinv h
      · cases h
        exact hinv
    · cases h
      exact hinv
  | invoke node params =>
    dsimp only at h
    split_ifs at h with hedit
    · exact editServerActionWith_entriesInv hinv h
    · by_cases hremove : Invokes s.tree node .removeServerAction
      · have hf : installed s.tree node DSNode.onInvocation = some .removeServerAction := hremove
        unfold linkEvent at h
        simp only [hf, invokeAction, removeServerAction] at h
        obtain ⟨⟨removed, s₁⟩, hrun, h⟩ := bind_eq_ok.1 h
        cases h
        exact (removeServerNode_entriesInv hinv hrun).1
      · have hother : ¬ ChangesEntries s.tree (.invoke node params) := not_or.2 ⟨hedit, hremove⟩
        exact (linkEvent_keepsEntries hother h).entriesInv hinv
  | listOpen node => exact (linkEvent_keepsEntries id h).entriesInv hinv
  | report con message => exact (linkEvent_keepsEntries id h).entriesInv hinv

theorem NoServers.entriesInv (h : NoServers s) : EntriesInv s := by
  unfold EntriesInv
  rw [h.serverMap_eq]
  exact fun e he => by cases he

/-- What holds of every edit among the events. -/
def EachEdit (Q : LinkState σ W → Path → Json → Failures → Prop) (s : LinkState σ W)
    (e : FailingEvent) : Prop :=
  ∀ node params, e.1 = .invoke node params → Invokes s.tree node .editServerAction →
    Live s.tree node.dropLast → Q s node params e.2

/-- **Edits.** From a link without servers, along a run with any failing calls, every edit
makes the server as requested or leaves it iff every edit is safe. -/
theorem edits_atomic_iff (h : NoServers s) (run : List FailingEvent) :
    Along (failingEvent svc) (EachEdit (EditAtomic svc)) s run ↔
      Along (failingEvent svc) (EachEdit EditSafe) s run := by
  apply along_iff (J := EntriesInv)
  · exact fun _ _ _ hinv _ hstep => failingEvent_entriesInv hinv hstep
  · intro s e hinv
    unfold EachEdit
    refine forall_congr' fun node => forall_congr' fun params => ?_
    refine imp_congr_right fun _ => imp_congr_right fun _ => imp_congr_right fun hlive => ?_
    exact editAtomic_iff hinv hlive
  · exact h.entriesInv

/-! ## An edit with the present values -/

/-- An edit with the name and the values of the server leaves everything as it is. -/
def EditKeeps (svc : IedService W) (s : LinkState σ W) (name : Str) (server : Server61850) : Prop :=
  ∃ s', linkEvent svc s
      (.invoke (editNode name) (serverParams name server.hostname server.tcpPort)) = .ok s' ∧
    Kept s s' [srvKey name]

theorem srvKey_ne (name : Str) : srvKey name ≠ name := by
  intro h
  have hlen := congrArg List.length h
  rw [srvKey, List.length_append] at hlen
  have : srvKeyInit.length = 4 := rfl
  omega

/-- A server made anew has an entry of its own. -/
theorem MakesServer.not_kept {server : Server61850} {key : Path} {name host : Str} {port : ℤ}
    (hinv : EntriesInv s) (hserver : s.mapGet (s.ptr key) = some server)
    (h : MakesServer (withoutNode s key server) s' name host port) : ¬ Kept s s' key := by
  intro hkept
  have hentry := hkept.entry.trans hserver
  obtain ⟨ptr, hmap⟩ := h.serverMap_eq
  obtain ⟨e, hfind, he⟩ := Option.map_eq_some_iff.1 hentry
  rw [hmap, Keyed.find_set] at hfind
  split_ifs at hfind
  · -- the entry found is the new one
    obtain ⟨e', hfind', he'⟩ := Option.map_eq_some_iff.1 hserver
    have hlt := hinv e' (Keyed.mem_of_find hfind')
    rw [he', ← he, ← Option.some.inj hfind] at hlt
    exact lt_irrefl _ hlt
  · rw [show (withoutNode s key server).serverMap =
      Keyed.erase mapKey (s.ptr key).ident s.serverMap from rfl,
      Keyed.find_erase, if_pos rfl] at hfind
    cases hfind

/-- **The present values.** In every state that is reached, an edit with them leaves the
server as it is iff the name, the host or the port is one that an edit refuses. -/
theorem edit_keeps_iff {s₀ : LinkState σ W} (h : NoServers s₀) {run : List FailingEvent}
    (hrun : run.foldlM (failingEvent svc) s₀ = .ok s) {name : Str} {server : Server61850}
    (hedit : Invokes s.tree (editNode name) .editServerAction) (hlive : Live s.tree [srvKey name])
    (hserver : s.mapGet (s.ptr [srvKey name]) = some server) :
    EditKeeps svc s name server ↔
      name = [] ∨ server.hostname = [] ∨ intValue (some (.integer server.tcpPort)) = 0 := by
  have hinv : EntriesInv s :=
    foldlM_invariant (I := EntriesInv)
      (fun _ _ _ _ hinv hstep => failingEvent_entriesInv hinv hstep) hrun h.entriesInv
  have hvalues : EditValues
      (serverParams name server.hostname server.tcpPort) name server.hostname := ⟨rfl, rfl⟩
  have hevent : linkEvent svc s
      (.invoke (editNode name) (serverParams name server.hostname server.tcpPort)) =
      editServerActionWith noFailures svc s (editNode name)
        (serverParams name server.hostname server.tcpPort) := by
    rw [← failingEvent_noFailures, failingEvent]
    exact if_pos hedit
  have hport : editPort (serverParams name server.hostname server.tcpPort) =
      intValue (some (.integer server.tcpPort)) := rfl
  have hkey : (editNode name).dropLast.getLastD [] = srvKey name := rfl
  obtain ⟨hremade, hleft⟩ :=
    editServerActionWith_eq noFailures svc (show Live s.tree (editNode name).dropLast from hlive)
    hserver hvalues
  have hremakes : Remakes server ((editNode name).dropLast.getLastD []) name server.hostname
      (editPort (serverParams name server.hostname server.tcpPort)) ↔
        ¬ (name = [] ∨ server.hostname = [] ∨ intValue (some (.integer server.tcpPort)) = 0) := by
    have hne := srvKey_ne name
    rw [hkey, hport, Remakes]
    tauto
  unfold EditKeeps
  rw [hevent]
  constructor
  · rintro ⟨s', hs', hkept⟩
    by_contra hnot
    rw [hremade (hremakes.2 hnot)] at hs'
    obtain ⟨hmade, hfailed⟩ :=
      responderInitClientWith_cases noFailures svc (withoutNode s [srvKey name] server)
      name server.hostname (intValue (some (.integer server.tcpPort)))
    by_cases hall : CallsSucceed noFailures name ∧ Fits name server.hostname
    · obtain ⟨s'', hs'', hmakes⟩ := hmade hall
      cases hs''.symm.trans hs'
      exact hmakes.not_kept hinv hserver hkept
    · exact not_kept_of_withoutNode hserver (hfailed hall s' hs').1 hkept
  · intro hrefused
    obtain ⟨s', hs', -, hkept⟩ := hleft fun hr => hremakes.1 hr hrefused
    exact ⟨s', hs', hkept⟩

/-! ## One server -/

/-- The addition of a server. -/
def addA : FailingEvent := (.addServer (serverParams "a".toList "h".toList 102), noFailures)

/-- Its entry. -/
def entryA : Server61850 := { hostname := "h".toList, tcpPort := 102, iedConn := 0 }

theorem addA_run : [addA].foldlM (failingEvent (IedService.silent Unit)) bareLink =
    .ok oneServer := by rfl

theorem edit_keeps_iff_a :
    EditKeeps (IedService.silent Unit) oneServer "a".toList entryA ↔
      "a".toList = [] ∨ entryA.hostname = [] ∨ intValue (some (.integer entryA.tcpPort)) = 0 :=
  edit_keeps_iff noServers_bareLink addA_run (by decide +kernel) (by decide +kernel)
    (by decide +kernel)

/-- The server is not kept by an edit that changes nothing. -/
theorem edit_a_remakes : ¬ EditKeeps (IedService.silent Unit) oneServer "a".toList entryA := by
  rw [edit_keeps_iff_a]
  decide

/-- An edit of the name during which the new node cannot be created. -/
def renameA : FailingEvent :=
  (.invoke (editNode "a".toList) (serverParams "b".toList "h".toList 102),
    fun c => c = .create (srvKey "b".toList))

theorem edits_atomic_iff_rename :
    Along (failingEvent (IedService.silent Unit))
        (EachEdit (EditAtomic (IedService.silent Unit))) bareLink [addA, renameA] ↔
      Along (failingEvent (IedService.silent Unit)) (EachEdit EditSafe) bareLink [addA, renameA] :=
  edits_atomic_iff noServers_bareLink [addA, renameA]

/-- The link is left without the server. -/
theorem rename_not_atomic :
    ¬ Along (failingEvent (IedService.silent Unit))
    (EachEdit (EditAtomic (IedService.silent Unit))) bareLink
      [addA, renameA] := by
  rintro ⟨-, hrest⟩
  obtain ⟨hrename, -⟩ := hrest oneServer rfl
  have hinv : EntriesInv oneServer :=
      failingEvent_entriesInv noServers_bareLink.entriesInv (e := addA) rfl
  have hatomic := hrename _ _ rfl (by decide +kernel) (by decide +kernel)
  obtain ⟨server, name, hserver, hname, hsafe⟩ :=
    (editAtomic_iff hinv (by decide +kernel)).1 hatomic
  cases hname
  have hentry : oneServer.mapGet (oneServer.ptr (editNode "a".toList).dropLast) = some entryA := by
    decide +kernel
  cases hentry.symm.trans hserver
  rcases hsafe with hempty | ⟨host, hhost, hsafe⟩
  · exact absurd hempty (by decide)
  · cases hhost
    have hremakes : Remakes entryA
        ((editNode "a".toList).dropLast.getLastD []) "b".toList "h".toList
        (editPort (serverParams "b".toList "h".toList 102)) := by
      refine ⟨⟨by decide, by decide, by decide⟩, .inr (.inl (by decide))⟩
    have hcall := (hsafe hremakes).1 (.create (srvKey "b".toList)) List.mem_cons_self
    rw [show renameA.2 (.create (srvKey "b".toList)) = true by decide] at hcall
    cases hcall

end DslinkIec61850
