import DslinkIec61850.Link.Servers

/-!
# Servers, their connections and their nodes

Adding, editing and removing servers keeps three stores together: the `srv_`
children of the root, `serverMap` and the connections. `MapInv` holds after every
request; that the three stores agree holds as long as no server is put over
another one and the texts fit.

* `serverStep_mapInv`: what every request keeps.
* `serverStep_agrees_iff`, `serversAgree_iff`: along which runs the stores agree.
-/

namespace DslinkIec61850

open DSLink LinkState Run

variable {σ W : Type} [DSLink σ] {svc : IedService W} {s s' : LinkState σ W}

/-! ## What the functions do -/

/-- The address of an entry of `serverMap`. -/
abbrev mapKey (e : NodePtr × Server61850) : ℕ := e.1.ident

/-- The address of the node for which a connection was created. -/
abbrev ownerKey (e : ConnId × Connection) : ℕ := e.2.createdFor.ident

/-- The state after `responderInitClient`. -/
structure ServerAdded (s s' : LinkState σ W) (name host : Str) (port : ℤ) : Prop where
  touches : Touches s.tree s'.tree [srvKey name]
  live : Live s'.tree [srvKey name]
  below : ∀ k rs, Live s'.tree (srvKey name :: k :: rs) → hasInit ndlKeyInit k = true
  ptr_eq : s'.ptr [srvKey name] = ⟨[srvKey name], fresh s.tree⟩
  fresh_lt : fresh s.tree < fresh s'.tree
  serverMap_eq : s'.serverMap = Keyed.set mapKey
    (⟨[srvKey name], fresh s.tree⟩, ⟨host, port, s.nextConn⟩) s.serverMap
  connections_eq : s'.connections = s.connections ++
    [(s.nextConn, ⟨[], ⟨[srvKey name], fresh s.tree⟩, []⟩)]
  nextConn_eq : s'.nextConn = s.nextConn + 1

theorem hasInit_srvKey (name : Str) : hasInit srvKeyInit (srvKey name) = true :=
  hasInit_append (by decide)

/-- A key of a server is made of a name. -/
theorem exists_srvKey {k : Str} (h : hasInit srvKeyInit k = true) : ∃ name, k = srvKey name := by
  rw [hasInit, beq_iff_eq] at h
  refine ⟨k.drop 4, ?_⟩
  rw [srvKey, ← h, List.take_append_drop]

theorem srvKey_injective {name name' : Str} (h : srvKey name = srvKey name') : name = name' :=
  List.append_cancel_left h

/-- The actions of a server are not cleared. -/
theorem hasInit_serverActions {name host : Str} {port : ℤ} {c : Str × DSNode}
    (h : c ∈ serverActions name host port) : hasInit ndlKeyInit c.1 = true := by
  simp only [serverActions, List.mem_cons, List.not_mem_nil, or_false] at h
  rcases h with rfl | rfl | rfl | rfl
  all_goals
    dsimp only
    decide

theorem responderInitClient_ok {name host : Str} {port : ℤ}
    (h : responderInitClient svc s name host port = .ok s') :
    ((srvKey name).length < 129 ∧ host.length < 100) ∧ ServerAdded s s' name host port := by
  unfold responderInitClient at h
  obtain ⟨_, hname, h⟩ := bind_eq_ok.1 h
  dsimp only at h
  obtain ⟨_, hhost, h⟩ := bind_eq_ok.1 h
  cases h
  rw [storeIn_eq_ok] at hname hhost
  refine ⟨⟨hname 129 rfl, hhost 100 rfl⟩, ?_⟩
  let actions := serverActions name host port
  let t₁ := addChildren (addChild s.tree [] (srvKey name) (serverNodeOf name)) [srvKey name] actions
  let t₂ := addChild t₁ [srvKey name] "ndl_connstatus".toList serverStatusNode
  have h₁ := grafts_addChild_addChildren s.tree [] (srvKey name) (serverNodeOf name) actions
  have h₂ := grafts_addChild t₁ [srvKey name] "ndl_connstatus".toList serverStatusNode
  have hident : ident t₁ [srvKey name] = fresh s.tree := by
    have hkeep (children : List (Str × DSNode)) (t : σ) :
        ident (addChildren t [srvKey name] children) [srvKey name] = ident t [srvKey name] := by
      induction children generalizing t with
      | nil => rfl
      | cons c cs ih =>
        show ident (addChildren (addChild t [srvKey name] c.1 c.2) [srvKey name] cs) [srvKey name] =
          _
        rw [ih, ident_addChild, if_neg (by simp)]
    rw [hkeep, ident_addChild]
    exact if_pos rfl
  have hsub : sub t₂ [srvKey name] =
      Subtree.set "ndl_connstatus".toList (Subtree.leaf serverStatusNode)
        (withChildren (Subtree.leaf (serverNodeOf name)) actions) := by
    have h₁sub : sub t₁ [srvKey name] = _ := h₁.sub_eq
    rw [h₂.sub_eq, h₁sub]
  constructor
  · exact h₁.touches.trans h₂.touches
  · show Live t₂ [srvKey name]
    unfold Live
    rw [← sub_nil, hsub, Subtree.set_nil, withChildren_nil]
    rfl
  · intro k rs hlive
    obtain ⟨n, hn⟩ := Option.isSome_iff_exists.1 hlive
    have hn' : sub t₂ [srvKey name] (k :: rs) = some n := hn
    rw [hsub] at hn'
    by_cases hk : k = "ndl_connstatus".toList
    · rw [hk]
      decide
    · rw [Subtree.set_cons_of_ne hk] at hn'
      exact hasInit_serverActions (mem_of_withChildren_leaf hn').2
  · show NodePtr.mk _ (ident t₂ [srvKey name]) = _
    rw [ident_addChild, if_neg (by simp), hident]
  · show fresh s.tree < fresh t₂
    have hle : fresh s.tree ≤ fresh t₁ := h₁.fresh_le
    rw [fresh_addChild]
    omega
  · show Keyed.set mapKey (NodePtr.mk _ (ident t₁ [srvKey name]), _) _ = _
    rw [hident]
  · show s.connections ++ [(_, Connection.mk _ (NodePtr.mk _ (ident t₁ [srvKey name])) _)] = _
    rw [hident]
  · rfl

theorem responderInitClient_total (svc : IedService W) (s : LinkState σ W) {name host : Str}
    (port : ℤ) (hname : (srvKey name).length < 129) (hhost : host.length < 100) :
    ∃ s', responderInitClient svc s name host port = .ok s' := by
  unfold responderInitClient
  rw [storeIn, if_pos hname, ok_bind, storeIn, if_pos hhost]
  exact ⟨_, rfl⟩

/-- The state after `removeServerNode`, where `e` is the entry of the node. -/
structure ServerRemoved (s s' : LinkState σ W) (k : Str) (e : NodePtr × Server61850) : Prop where
  tree_eq : s'.tree = removeTree s.tree [k]
  serverMap_eq : s'.serverMap = Keyed.erase mapKey e.1.ident s.serverMap
  connections_eq : s'.connections = Keyed.erase Prod.fst e.2.iedConn s.connections
  nextConn_eq : s'.nextConn = s.nextConn

/-! ## What every request keeps -/

/-- The entries of `serverMap` and the connections belong to each other, and every
server node has an entry. There may be more entries than nodes. -/
structure MapInv (s : LinkState σ W) : Prop where
  mapDistinct : Keyed.Distinct mapKey s.serverMap
  connDistinct : Keyed.Distinct Prod.fst s.connections
  ownerDistinct : Keyed.Distinct ownerKey s.connections
  mapBound : ∀ e ∈ s.serverMap, e.1.ident < fresh s.tree
  ownerBound : ∀ e ∈ s.connections, e.2.createdFor.ident < fresh s.tree
  connBound : ∀ e ∈ s.connections, e.1 < s.nextConn
  conn : ∀ e ∈ s.serverMap, ∃ c, (e.2.iedConn, c) ∈ s.connections ∧ c.createdFor = e.1
  mapped : ∀ k, hasInit srvKeyInit k = true → Live s.tree [k] → ∃ e ∈ s.serverMap, e.1 = s.ptr [k]
  rooted : ∀ k a, hasInit srvKeyInit k = true → Live s.tree [k, a] → Live s.tree [k]

/-- The entry of a server node. -/
theorem MapInv.find_eq (h : MapInv s) {k : Str} {e : NodePtr × Server61850} (he : e ∈ s.serverMap)
    (hptr : e.1 = s.ptr [k]) : Keyed.find mapKey (s.ptr [k]).ident s.serverMap = some e := by
  rw [← hptr]
  exact Keyed.find_of_mem h.mapDistinct he

theorem MapInv.mapGet_eq (h : MapInv s) {k : Str} {e : NodePtr × Server61850} (he : e ∈ s.serverMap)
    (hptr : e.1 = s.ptr [k]) : s.mapGet (s.ptr [k]) = some e.2 := by
  have hfind := h.find_eq he hptr
  show (Keyed.find mapKey (s.ptr [k]).ident s.serverMap).map Prod.snd = some e.2
  rw [hfind]
  rfl

/-- The connection that is found for a node is that of the entry of its server. -/
theorem mapGet_of_getServerIedConnection {k : Str} {q : Path} {con : ConnId}
    (h : s.getServerIedConnection (k :: q) = .ok (some con)) :
    ∃ entry, s.mapGet (s.ptr [k]) = some entry ∧ entry.iedConn = con := by
  unfold getServerIedConnection getServerNode at h
  dsimp only at h
  split_ifs at h
  · dsimp only at h
    cases hget : s.mapGet (s.ptr [k]) with
    | none =>
      rw [hget] at h
      cases h
    | some entry =>
      rw [hget] at h
      cases h
      exact ⟨entry, rfl, rfl⟩
  · cases h

theorem touches_child {t t' : σ} {k k' : Str} (h : Touches t t' [k]) (hne : k' ≠ k) (p : Path) :
    lookup t' (k' :: p) = lookup t (k' :: p) ∧ ident t' (k' :: p) = ident t (k' :: p) := by
  have hpre : ¬ [k] <+: k' :: p := by
    rw [List.cons_prefix_cons]
    exact fun hk => hne hk.1.symm
  exact ⟨h.frame _ hpre, h.ident_frame _ hpre⟩

theorem ServerAdded.mapInv {name host : Str} {port : ℤ} (h : MapInv s)
    (hadd : ServerAdded s s' name host port) : MapInv s' := by
  have hle : fresh s.tree < fresh s'.tree := hadd.fresh_lt
  have hmap : s'.serverMap = s.serverMap ++
      [(⟨[srvKey name], fresh s.tree⟩, ⟨host, port, s.nextConn⟩)] := by
    rw [hadd.serverMap_eq]
    apply Keyed.set_of_fresh
    intro e he heq
    have : e.1.ident < fresh s.tree := h.mapBound e he
    have : e.1.ident = fresh s.tree := heq
    omega
  have hmem {e : NodePtr × Server61850} : e ∈ s'.serverMap ↔
      e ∈ s.serverMap ∨ e = (⟨[srvKey name], fresh s.tree⟩, ⟨host, port, s.nextConn⟩) := by
    rw [hmap, List.mem_append, List.mem_singleton]
  have hconn {e : ConnId × Connection} : e ∈ s'.connections ↔
      e ∈ s.connections ∨ e = (s.nextConn, ⟨[], ⟨[srvKey name], fresh s.tree⟩, []⟩) := by
    rw [hadd.connections_eq, List.mem_append, List.mem_singleton]
  refine ⟨?_, ?_, ?_, ?_, ?_, ?_, ?_, ?_, ?_⟩
  · rw [hadd.serverMap_eq]
    exact Keyed.nodup_set h.mapDistinct
  · rw [hadd.connections_eq]
    exact Keyed.distinct_append_new h.connDistinct fun e he => (h.connBound e he).ne
  · rw [hadd.connections_eq]
    exact Keyed.distinct_append_new h.ownerDistinct fun e he => (h.ownerBound e he).ne
  · intro e he
    rcases hmem.1 he with he | rfl
    · exact (h.mapBound e he).trans hle
    · exact hle
  · intro e he
    rcases hconn.1 he with he | rfl
    · exact (h.ownerBound e he).trans hle
    · exact hle
  · intro e he
    rw [hadd.nextConn_eq]
    rcases hconn.1 he with he | rfl
    · exact (h.connBound e he).trans (Nat.lt_succ_self _)
    · exact Nat.lt_succ_self _
  · intro e he
    rcases hmem.1 he with he | rfl
    · obtain ⟨c, hc, howner⟩ := h.conn e he
      exact ⟨c, hconn.2 (.inl hc), howner⟩
    · exact ⟨_, hconn.2 (.inr rfl), rfl⟩
  · intro k hk hlive
    by_cases hname : k = srvKey name
    · subst hname
      exact ⟨_, hmem.2 (.inr rfl), hadd.ptr_eq.symm⟩
    · obtain ⟨hlookup, hident⟩ := touches_child hadd.touches hname []
      rw [Live, hlookup] at hlive
      obtain ⟨e, he, hptr⟩ := h.mapped k hk hlive
      refine ⟨e, hmem.2 (.inl he), ?_⟩
      rw [hptr, ptr, ptr, hident]
  · intro k a hk hlive
    by_cases hname : k = srvKey name
    · subst hname
      exact hadd.live
    · rw [Live, (touches_child hadd.touches hname _).1] at hlive
      rw [Live, (touches_child hadd.touches hname _).1]
      exact h.rooted k a hk hlive

/-- A removed node takes its entry and its connection with it. -/
theorem ServerRemoved.mapInv {k : Str} {e : NodePtr × Server61850} (h : MapInv s)
    (he : e ∈ s.serverMap)
    (hptr : e.1 = s.ptr [k]) (hrem : ServerRemoved s s' k e) : MapInv s' := by
  have hmem {m : NodePtr × Server61850} :
      m ∈ s'.serverMap ↔ m ∈ s.serverMap ∧ m.1.ident ≠ e.1.ident := by
    rw [hrem.serverMap_eq]
    exact Keyed.mem_erase
  have hconn {m : ConnId × Connection} :
      m ∈ s'.connections ↔ m ∈ s.connections ∧ m.1 ≠ e.2.iedConn := by
    rw [hrem.connections_eq]
    exact Keyed.mem_erase
  have hother {k' : Str} {p : Path} (hlive : Live s'.tree (k' :: p)) :
      k' ≠ k ∧ Live s.tree (k' :: p) ∧ s'.ptr [k'] = s.ptr [k'] := by
    rw [Live, hrem.tree_eq, lookup_removeTree] at hlive
    by_cases hk : k' = k
    · subst hk
      simp at hlive
    · have hpre : ¬ [k] <+: k' :: p := by
        rw [List.cons_prefix_cons]
        exact fun h => hk h.1.symm
      rw [if_neg hpre] at hlive
      refine ⟨hk, hlive, ?_⟩
      rw [ptr, ptr, hrem.tree_eq, ident_removeTree]
  refine ⟨?_, ?_, ?_, ?_, ?_, ?_, ?_, ?_, ?_⟩
  · rw [hrem.serverMap_eq]
    exact Keyed.nodup_erase h.mapDistinct
  · rw [hrem.connections_eq]
    exact Keyed.nodup_erase h.connDistinct
  · rw [hrem.connections_eq]
    exact (List.Sublist.map ownerKey List.filter_sublist).nodup h.ownerDistinct
  · intro m hm
    rw [hrem.tree_eq, fresh_removeTree]
    exact h.mapBound m (hmem.1 hm).1
  · intro m hm
    rw [hrem.tree_eq, fresh_removeTree]
    exact h.ownerBound m (hconn.1 hm).1
  · intro m hm
    rw [hrem.nextConn_eq]
    exact h.connBound m (hconn.1 hm).1
  · intro m hm
    obtain ⟨hm, hne⟩ := hmem.1 hm
    obtain ⟨c, hc, howner⟩ := h.conn m hm
    refine ⟨c, hconn.2 ⟨hc, ?_⟩, howner⟩
    -- the connection of another entry has another number
    intro heq
    obtain ⟨c', hc', howner'⟩ := h.conn e he
    have hsame : (m.2.iedConn, c) = (e.2.iedConn, c') := by
      have h₁ := Keyed.find_of_mem h.connDistinct hc
      have h₂ := Keyed.find_of_mem h.connDistinct hc'
      rw [show (m.2.iedConn, c).1 = (e.2.iedConn, c').1 from heq, h₂] at h₁
      exact (Option.some.inj h₁).symm
    apply hne
    rw [← howner, ← howner', (Prod.mk.inj hsame).2]
  · intro k' hk' hlive
    obtain ⟨hne, hlive, hsame⟩ := hother hlive
    obtain ⟨m, hm, hmptr⟩ := h.mapped k' hk' hlive
    refine ⟨m, hmem.2 ⟨hm, ?_⟩, hmptr.trans hsame.symm⟩
    -- the entry of another node has another address
    intro heq
    have h₁ := Keyed.find_of_mem h.mapDistinct hm
    have h₂ := Keyed.find_of_mem h.mapDistinct he
    rw [show mapKey m = mapKey e from heq, h₂] at h₁
    have hpath : ([k'] : Path) = [k] := by
      have := congrArg (fun e => e.1.path) (Option.some.inj h₁)
      rw [hptr, hmptr] at this
      exact this.symm
    exact hne (by simpa using hpath)
  · intro k' a hk' hlive
    obtain ⟨hne, hlive, -⟩ := hother hlive
    have hroot := h.rooted k' a hk' hlive
    rw [Live, hrem.tree_eq, lookup_removeTree, if_neg]
    · exact hroot
    · rw [List.cons_prefix_cons]
      exact fun h => hne h.1.symm

/-! ## Requests -/

/-- The parameters of `Add Server` and `Edit`. -/
def serverParams (name host : Str) (port : ℤ) : Json :=
  .object [("Name".toList, .string name), ("Host".toList, .string host),
    ("Port".toList, .integer port)]

/-- The requests that add, edit and remove servers. -/
inductive ServerRequest where
  | add (name host : Str) (port : ℤ)
  | edit (server name host : Str) (port : ℤ)
  | remove (server : Str)

/-- The node has the action. -/
def Invokes (t : σ) (p : Path) (f : Callback) : Prop :=
  (lookup t p).bind DSNode.onInvocation = some f

instance (t : σ) (p : Path) (f : Callback) : Decidable (Invokes t p f) :=
  inferInstanceAs (Decidable (_ = _))

theorem Invokes.live {t : σ} {p : Path} {f : Callback} (h : Invokes t p f) : Live t p := by
  unfold Invokes at h
  cases hl : lookup t p with
  | none =>
    rw [hl] at h
    cases h
  | some n => rw [Live, hl]; rfl

/-- `ndl_editserver` of a server. -/
def editNode (server : Str) : Path := [srvKey server, "ndl_editserver".toList]

/-- `ndl_removeserver` of a server. -/
def removeNode (server : Str) : Path := [srvKey server, "ndl_removeserver".toList]

/-- A request; one for a node that is not there has no effect. -/
def serverStep (svc : IedService W) (s : LinkState σ W) :
    ServerRequest → Except Fault (LinkState σ W)
  | .add name host port => invokeAddServer svc s (serverParams name host port)
  | .edit server name host port =>
    if Invokes s.tree (editNode server) .editServerAction then
      editServerAction svc s (editNode server) (serverParams name host port)
    else .ok s
  | .remove server =>
    if Invokes s.tree (removeNode server) .removeServerAction then
      removeServerAction s (removeNode server)
    else .ok s

/-- The state without a server and its entry. -/
def withoutServer (s : LinkState σ W) (k : Str) (e : NodePtr × Server61850) : LinkState σ W :=
  { s with tree := removeTree s.tree [k], serverMap := Keyed.erase mapKey e.1.ident s.serverMap,
           connections := Keyed.erase Prod.fst e.2.iedConn s.connections }

theorem withoutServer_removed (s : LinkState σ W) (k : Str) (e : NodePtr × Server61850) :
    ServerRemoved s (withoutServer s k e) k e := ⟨rfl, rfl, rfl, rfl⟩

theorem removeServerNode_eq (h : MapInv s) {k : Str} (hlive : Live s.tree [k])
    {e : NodePtr × Server61850} (he : e ∈ s.serverMap) (hptr : e.1 = s.ptr [k]) :
    removeServerNode s [k] = .ok (true, withoutServer s k e) := by
  rw [removeServerNode, if_pos hlive]
  dsimp only
  rw [h.mapGet_eq he hptr, ← hptr]
  rfl

theorem invokeAddServer_eq (svc : IedService W) (s : LinkState σ W) (name host : Str) (port : ℤ) :
    invokeAddServer svc s (serverParams name host port) =
      if intValue (some (.integer port)) ≠ 0 then
        responderInitClient svc s name host (intValue (some (.integer port)))
      else .ok s := rfl

/-- The edit request changes nothing about the server. -/
def Unchanged (e : NodePtr × Server61850) (k name host : Str) (port : ℤ) : Prop :=
  e.2.hostname = host ∧ k = name ∧ e.2.tcpPort = intValue (some (.integer port))

/-- An edit request is refused, or reconnects, or removes the server and adds it
anew. -/
theorem editServerAction_eq (svc : IedService W) (h : MapInv s) {server : Str} (name host : Str)
    (port : ℤ)
    (hlive : Live s.tree [srvKey server]) {e : NodePtr × Server61850} (he : e ∈ s.serverMap)
    (hptr : e.1 = s.ptr [srvKey server]) :
    ((name = [] ∨ host = [] ∨ intValue (some (.integer port)) = 0) ∧
      editServerAction svc s (editNode server) (serverParams name host port) = .ok s) ∨
    (Unchanged e (srvKey server) name host port ∧
      editServerAction svc s (editNode server) (serverParams name host port) =
        .ok (s.call fun w => svc.connect w e.2.iedConn host (intValue (some (.integer port)))).2) ∨
    ((name ≠ [] ∧ host ≠ [] ∧ intValue (some (.integer port)) ≠ 0) ∧
      ¬ Unchanged e (srvKey server) name host port ∧
      editServerAction svc s (editNode server) (serverParams name host port) =
        responderInitClient svc (withoutServer s (srvKey server) e) name host
          (intValue (some (.integer port)))) := by
  have hget : s.mapGet (s.ptr (editNode server).dropLast) = some e.2 := h.mapGet_eq he hptr
  have hremove : removeServerNode s (editNode server).dropLast =
      .ok (true, withoutServer s (srvKey server) e) := removeServerNode_eq h hlive he hptr
  have hname : Json.stringValue ((serverParams name host port).objectGet "Name".toList) =
      some name := rfl
  have hhost : Json.stringValue ((serverParams name host port).objectGet "Host".toList) =
      some host := rfl
  have hport : intValue ((serverParams name host port).objectGet "Port".toList) =
      intValue (some (.integer port)) := rfl
  have hlast : (editNode server).dropLast.getLastD [] = srvKey server := rfl
  unfold editServerAction
  dsimp only
  rw [hget, hname, hhost, hport, hremove, hlast]
  simp only [deref, ok_bind]
  by_cases hn : name = []
  · rw [if_pos hn]
    exact .inl ⟨.inl hn, rfl⟩
  rw [if_neg hn]
  by_cases hhp : host = [] ∨ intValue (some (.integer port)) = 0
  · rw [if_pos hhp]
    exact .inl ⟨.inr hhp, rfl⟩
  rw [if_neg hhp]
  by_cases hchanged : Unchanged e (srvKey server) name host port
  · rw [if_neg (by unfold Unchanged at hchanged; tauto)]
    exact .inr (.inl ⟨hchanged, rfl⟩)
  · rw [if_pos (by unfold Unchanged at hchanged; tauto)]
    exact .inr (.inr ⟨⟨hn, by tauto, by tauto⟩, hchanged, rfl⟩)

/-! ## Agreement -/

/-- The path is a server node of the tree. -/
def IsServer (t : σ) (k : Str) : Prop := hasInit srvKeyInit k = true ∧ Live t [k]

/-- The keys of `serverMap` are the server nodes, each with its own connection; a
node below a server reaches the connection created for it; there are no other
connections. -/
structure ServersAgree (s : LinkState σ W) : Prop where
  keys : ∀ e ∈ s.serverMap, ∃ k, IsServer s.tree k ∧ e.1 = s.ptr [k]
  own : ∀ k, IsServer s.tree k → ∃ server c, s.mapGet (s.ptr [k]) = some server ∧
    (server.iedConn, c) ∈ s.connections ∧ c.createdFor = s.ptr [k]
  reached : ∀ k p, IsServer s.tree k → ∃ con c, s.getServerIedConnection (k :: p) = .ok (some con) ∧
    (con, c) ∈ s.connections ∧ c.createdFor = s.ptr [k]
  owned : ∀ m ∈ s.connections, ∃ k, IsServer s.tree k ∧ m.2.createdFor = s.ptr [k]
  single : Keyed.Distinct mapKey s.serverMap ∧ Keyed.Distinct Prod.fst s.connections ∧
    Keyed.Distinct ownerKey s.connections

/-- No entry is without its node and no connection without its entry. -/
structure NoStale (s : LinkState σ W) : Prop where
  keys : ∀ e ∈ s.serverMap, ∃ k, IsServer s.tree k ∧ e.1 = s.ptr [k]
  conns : ∀ m ∈ s.connections, ∃ e ∈ s.serverMap, e.2.iedConn = m.1

/-- Two connections with one number are one. -/
theorem MapInv.conn_unique (h : MapInv s) {m m' : ConnId × Connection} (hm : m ∈ s.connections)
    (hm' : m' ∈ s.connections) (heq : m.1 = m'.1) : m = m' := by
  have h₁ := Keyed.find_of_mem h.connDistinct hm
  rw [heq, Keyed.find_of_mem h.connDistinct hm'] at h₁
  exact (Option.some.inj h₁).symm

theorem MapInv.entry_unique (h : MapInv s) {e e' : NodePtr × Server61850} (he : e ∈ s.serverMap)
    (he' : e' ∈ s.serverMap) (heq : mapKey e = mapKey e') : e = e' := by
  have h₁ := Keyed.find_of_mem h.mapDistinct he
  rw [heq, Keyed.find_of_mem h.mapDistinct he'] at h₁
  exact (Option.some.inj h₁).symm

theorem serversAgree_of_noStale (h : MapInv s) (hns : NoStale s) : ServersAgree s := by
  have hown : ∀ k, IsServer s.tree k → ∃ server c, s.mapGet (s.ptr [k]) = some server ∧
      (server.iedConn, c) ∈ s.connections ∧ c.createdFor = s.ptr [k] := by
    intro k hk
    obtain ⟨e, he, hptr⟩ := h.mapped k hk.1 hk.2
    obtain ⟨c, hc, howner⟩ := h.conn e he
    exact ⟨e.2, c, h.mapGet_eq he hptr, hc, howner.trans hptr⟩
  refine ⟨hns.keys, hown, ?_, ?_, h.mapDistinct, h.connDistinct, h.ownerDistinct⟩
  · intro k p hk
    obtain ⟨server, c, hget, hc, howner⟩ := hown k hk
    refine ⟨server.iedConn, c, ?_, hc, howner⟩
    have hsrv : getServerNode (k :: p) = some [k] := if_pos hk.1
    rw [getServerIedConnection, hsrv]
    dsimp only
    rw [hget]
  · intro m hm
    obtain ⟨e, he, hcon⟩ := hns.conns m hm
    obtain ⟨k, hk, hptr⟩ := hns.keys e he
    obtain ⟨c, hc, howner⟩ := h.conn e he
    refine ⟨k, hk, ?_⟩
    rw [h.conn_unique hm hc hcon.symm, ← hptr]
    exact howner

theorem noStale_of_serversAgree (h : MapInv s) (hagree : ServersAgree s) : NoStale s := by
  refine ⟨hagree.keys, ?_⟩
  intro m hm
  obtain ⟨k, hk, howner⟩ := hagree.owned m hm
  obtain ⟨e, he, hptr⟩ := h.mapped k hk.1 hk.2
  obtain ⟨c, hc, howner'⟩ := h.conn e he
  refine ⟨e, he, ?_⟩
  have h₁ := Keyed.find_of_mem h.ownerDistinct hm
  have h₂ := Keyed.find_of_mem h.ownerDistinct hc
  have hsame : ownerKey (e.2.iedConn, c) = ownerKey m := by
    show c.createdFor.ident = m.2.createdFor.ident
    rw [howner, howner', hptr]
  rw [hsame, h₁] at h₂
  rw [Option.some.inj h₂]

/-- A server that is added leaves nothing stale exactly when there was no node with
its key. -/
theorem ServerAdded.noStale_iff {name host : Str} {port : ℤ} (h : MapInv s) (hns : NoStale s)
    (hadd : ServerAdded s s' name host port) : NoStale s' ↔ ¬ Live s.tree [srvKey name] := by
  have hmap : s'.serverMap = s.serverMap ++
      [(⟨[srvKey name], fresh s.tree⟩, ⟨host, port, s.nextConn⟩)] := by
    rw [hadd.serverMap_eq]
    exact Keyed.set_of_fresh fun e he => (h.mapBound e he).ne
  constructor
  · intro hns' hlive
    obtain ⟨e, he, hptr⟩ := h.mapped _ (hasInit_srvKey name) hlive
    obtain ⟨k, -, hptr'⟩ := hns'.keys e (by rw [hmap]; exact List.mem_append_left _ he)
    have hk : ([srvKey name] : Path) = [k] := congrArg NodePtr.path (hptr.symm.trans hptr')
    rw [← hk, hadd.ptr_eq] at hptr'
    have hlt := h.mapBound e he
    rw [hptr'] at hlt
    exact lt_irrefl _ hlt
  · intro hnew
    have hold {k : Str} (hk : IsServer s.tree k) : IsServer s'.tree k ∧ s'.ptr [k] = s.ptr [k] := by
      have hne : k ≠ srvKey name := by
        rintro rfl
        exact hnew hk.2
      obtain ⟨hlookup, hident⟩ := touches_child hadd.touches hne []
      refine ⟨⟨hk.1, ?_⟩, ?_⟩
      · rw [Live, hlookup]
        exact hk.2
      · rw [ptr, ptr, hident]
    refine ⟨?_, ?_⟩
    · intro e he
      rw [hmap, List.mem_append, List.mem_singleton] at he
      rcases he with he | rfl
      · obtain ⟨k, hk, hptr⟩ := hns.keys e he
        exact ⟨k, (hold hk).1, hptr.trans (hold hk).2.symm⟩
      · exact ⟨srvKey name, ⟨hasInit_srvKey name, hadd.live⟩, hadd.ptr_eq.symm⟩
    · intro m hm
      rw [hadd.connections_eq, List.mem_append, List.mem_singleton] at hm
      rw [hmap]
      rcases hm with hm | rfl
      · obtain ⟨e, he, hcon⟩ := hns.conns m hm
        exact ⟨e, List.mem_append_left _ he, hcon⟩
      · exact ⟨_, List.mem_append_right _ (List.mem_singleton_self _), rfl⟩

theorem live_withoutServer {k : Str} {e : NodePtr × Server61850} {k' : Str} {p : Path} :
    Live (withoutServer s k e).tree (k' :: p) ↔ k' ≠ k ∧ Live s.tree (k' :: p) := by
  show (lookup (removeTree s.tree [k]) (k' :: p)).isSome = true ↔ _
  rw [lookup_removeTree]
  by_cases hk : k' = k
  · simp [hk]
  · rw [if_neg fun h => hk (List.cons_prefix_cons.1 h).1.symm]
    exact (and_iff_right hk).symm

theorem withoutServer_noStale (h : MapInv s) (hns : NoStale s) {k : Str} {e : NodePtr × Server61850}
    (he : e ∈ s.serverMap) (hptr : e.1 = s.ptr [k]) : NoStale (withoutServer s k e) := by
  have hptr' (q : Path) : (withoutServer s k e).ptr q = s.ptr q := by
    show NodePtr.mk _ (ident (removeTree s.tree [k]) q) = _
    rw [ident_removeTree]
    rfl
  refine ⟨?_, ?_⟩
  · intro m hm
    obtain ⟨hm, hne⟩ := Keyed.mem_erase.1 hm
    obtain ⟨k', hk', hmptr⟩ := hns.keys m hm
    refine ⟨k', ⟨hk'.1, live_withoutServer.2 ⟨?_, hk'.2⟩⟩, by rw [hptr', hmptr]⟩
    rintro rfl
    exact hne (by rw [mapKey, hmptr, hptr])
  · intro m hm
    obtain ⟨hm, hne⟩ := Keyed.mem_erase.1 hm
    obtain ⟨e', he', hcon⟩ := hns.conns m hm
    refine ⟨e', Keyed.mem_erase.2 ⟨he', ?_⟩, hcon⟩
    intro heq
    rw [h.entry_unique he' he heq] at hcon
    exact hne hcon.symm

/-! ## Steps -/

/-- The texts of a new server fit. -/
def Fits (name host : Str) : Prop := (srvKey name).length < 129 ∧ host.length < 100

/-- The request is ignored, or it adds a server whose texts fit under a key that no
other server has. -/
def KeepsApart (s : LinkState σ W) : ServerRequest → Prop
  | .add name host port => intValue (some (.integer port)) ≠ 0 →
      ¬ Live s.tree [srvKey name] ∧ Fits name host
  | .edit server name host port => Invokes s.tree (editNode server) .editServerAction →
      name ≠ [] → host ≠ [] → intValue (some (.integer port)) ≠ 0 →
      (∀ e ∈ s.serverMap, e.1 = s.ptr [srvKey server] →
        ¬ Unchanged e (srvKey server) name host port) →
      (name = server ∨ ¬ Live s.tree [srvKey name]) ∧ Fits name host
  | .remove _ => True

/-- A step that leaves the tree and the two stores. -/
theorem MapInv.congr (h : MapInv s) (htree : s'.tree = s.tree) (hstep : TreeStep s s') :
    MapInv s' := by
  have hptr (p : Path) : s'.ptr p = s.ptr p := by rw [ptr, ptr, htree]
  refine ⟨?_, ?_, ?_, ?_, ?_, ?_, ?_, ?_, ?_⟩
  · rw [hstep.serverMap_eq]
    exact h.mapDistinct
  · rw [hstep.connections_eq]
    exact h.connDistinct
  · rw [hstep.connections_eq]
    exact h.ownerDistinct
  · rw [hstep.serverMap_eq, htree]
    exact h.mapBound
  · rw [hstep.connections_eq, htree]
    exact h.ownerBound
  · rw [hstep.connections_eq, hstep.nextConn_eq]
    exact h.connBound
  · rw [hstep.serverMap_eq, hstep.connections_eq]
    exact h.conn
  · rw [hstep.serverMap_eq, htree]
    intro k hk hlive
    rw [hptr]
    exact h.mapped k hk hlive
  · rw [htree]
    exact h.rooted

theorem NoStale.congr (h : NoStale s) (htree : s'.tree = s.tree) (hstep : TreeStep s s') :
    NoStale s' := by
  refine ⟨?_, ?_⟩
  · rw [hstep.serverMap_eq]
    intro e he
    obtain ⟨k, hk, hptr⟩ := h.keys e he
    refine ⟨k, ?_, ?_⟩
    · rw [htree]
      exact hk
    · rw [hptr, ptr, ptr, htree]
  · rw [hstep.serverMap_eq, hstep.connections_eq]
    exact h.conns

/-- The entry of a server with an action. -/
theorem MapInv.entry_of_invokes (h : MapInv s) {server a : Str} {f : Callback}
    (hinv : Invokes s.tree [srvKey server, a] f) :
    Live s.tree [srvKey server] ∧ ∃ e ∈ s.serverMap, e.1 = s.ptr [srvKey server] := by
  have hlive := h.rooted _ _ (hasInit_srvKey server) hinv.live
  exact ⟨hlive, h.mapped _ (hasInit_srvKey server) hlive⟩

theorem removeServerAction_eq (h : MapInv s) {server : Str} (hlive : Live s.tree [srvKey server])
    {e : NodePtr × Server61850} (he : e ∈ s.serverMap) (hptr : e.1 = s.ptr [srvKey server]) :
    removeServerAction s (removeNode server) = .ok (withoutServer s (srvKey server) e) := by
  have hremove : removeServerNode s (removeNode server).dropLast =
      .ok (true, withoutServer s (srvKey server) e) := removeServerNode_eq h hlive he hptr
  rw [removeServerAction, hremove]
  rfl

/-- `MapInv` is kept by every request. -/
theorem serverStep_mapInv (h : MapInv s) {r : ServerRequest} (hs : serverStep svc s r = .ok s') :
    MapInv s' := by
  cases r with
  | add name host port =>
    rw [serverStep, invokeAddServer_eq] at hs
    split_ifs at hs with hport
    · exact (responderInitClient_ok hs).2.mapInv h
    · cases hs
      exact h
  | edit server name host port =>
    rw [serverStep] at hs
    split_ifs at hs with hinv
    · obtain ⟨hlive, e, he, hptr⟩ := h.entry_of_invokes hinv
      rcases editServerAction_eq svc h name host port hlive he hptr with
        ⟨-, hrun⟩ | ⟨-, hrun⟩ | ⟨-, -, hrun⟩
      · cases hrun.symm.trans hs
        exact h
      · cases hrun.symm.trans hs
        exact h.congr rfl (TreeStep.call _ _)
      · rw [hrun] at hs
        exact (responderInitClient_ok hs).2.mapInv
          ((withoutServer_removed s (srvKey server) e).mapInv h he hptr)
    · cases hs
      exact h
  | remove server =>
    rw [serverStep] at hs
    split_ifs at hs with hinv
    · obtain ⟨hlive, e, he, hptr⟩ := h.entry_of_invokes hinv
      rw [removeServerAction_eq h hlive he hptr] at hs
      cases hs
      exact (withoutServer_removed s (srvKey server) e).mapInv h he hptr
    · cases hs
      exact h

/-- Adding a server succeeds and leaves nothing stale exactly when its texts fit
and its key is new. -/
theorem add_agrees_iff (h : MapInv s) (hns : NoStale s) (name host : Str) (port : ℤ) :
    (∃ s', responderInitClient svc s name host port = .ok s' ∧ ServersAgree s') ↔
      ¬ Live s.tree [srvKey name] ∧ Fits name host := by
  constructor
  · rintro ⟨s', hs, hagree⟩
    obtain ⟨hfits, hadd⟩ := responderInitClient_ok hs
    exact ⟨(hadd.noStale_iff h hns).1 (noStale_of_serversAgree (hadd.mapInv h) hagree), hfits⟩
  · rintro ⟨hnew, hfits⟩
    obtain ⟨s', hs⟩ := responderInitClient_total svc s port hfits.1 hfits.2
    obtain ⟨-, hadd⟩ := responderInitClient_ok hs
    exact ⟨s', hs, serversAgree_of_noStale (hadd.mapInv h) ((hadd.noStale_iff h hns).2 hnew)⟩

/-- One request. -/
theorem serverStep_agrees_iff (h : MapInv s) (hns : NoStale s) (r : ServerRequest) :
    (∃ s', serverStep svc s r = .ok s' ∧ ServersAgree s') ↔ KeepsApart s r := by
  have hsame : ∃ s', (Except.ok s : Except Fault (LinkState σ W)) = .ok s' ∧ ServersAgree s' :=
    ⟨s, rfl, serversAgree_of_noStale h hns⟩
  cases r with
  | add name host port =>
    rw [serverStep, invokeAddServer_eq, KeepsApart]
    split_ifs with hport
    · rw [add_agrees_iff h hns]
      exact ⟨fun hfits _ => hfits, fun hfits => hfits hport⟩
    · exact iff_of_true hsame fun hne => absurd hne hport
  | edit server name host port =>
    rw [serverStep, KeepsApart]
    split_ifs with hinv
    · obtain ⟨hlive, e, he, hptr⟩ := h.entry_of_invokes hinv
      rcases editServerAction_eq svc h name host port hlive he hptr with
        ⟨hignored, hrun⟩ | ⟨hunchanged, hrun⟩ | ⟨⟨hname, hhost, hport⟩, hchanged, hrun⟩
      · rw [hrun]
        exact iff_of_true hsame fun _ hn hh hp => absurd hignored (by tauto)
      · rw [hrun]
        refine iff_of_true ⟨_, rfl, ?_⟩ fun _ _ _ _ hnot => absurd hunchanged (hnot e he hptr)
        exact serversAgree_of_noStale (h.congr rfl (TreeStep.call _ _))
          (hns.congr rfl (TreeStep.call _ _))
      · rw [hrun, add_agrees_iff ((withoutServer_removed s (srvKey server) e).mapInv h he hptr)
          (withoutServer_noStale h hns he hptr), live_withoutServer]
        have hkey : srvKey name ≠ srvKey server ↔ name ≠ server :=
          not_congr ⟨srvKey_injective, congrArg srvKey⟩
        have honly : ∀ m ∈ s.serverMap, m.1 = s.ptr [srvKey server] →
            ¬ Unchanged m (srvKey server) name host port := by
          intro m hm hmptr
          rw [h.entry_unique hm he (congrArg NodePtr.ident (hmptr.trans hptr.symm))]
          exact hchanged
        rw [hkey]
        constructor
        · rintro ⟨hnew, hfits⟩ - - - - -
          exact ⟨by tauto, hfits⟩
        · intro hapart
          obtain ⟨hnew, hfits⟩ := hapart hinv hname hhost hport honly
          exact ⟨by tauto, hfits⟩
    · exact iff_of_true hsame fun h => absurd h hinv
  | remove server =>
    rw [serverStep, KeepsApart]
    refine iff_of_true ?_ trivial
    split_ifs with hinv
    · obtain ⟨hlive, e, he, hptr⟩ := h.entry_of_invokes hinv
      refine ⟨_, removeServerAction_eq h hlive he hptr, ?_⟩
      exact serversAgree_of_noStale ((withoutServer_removed s (srvKey server) e).mapInv h he hptr)
        (withoutServer_noStale h hns he hptr)
    · exact hsame

/-! ## Runs -/

/-- A link that no server was added to. -/
structure NoServers (s : LinkState σ W) : Prop where
  nodes : ∀ k p, hasInit srvKeyInit k = true → ¬ Live s.tree (k :: p)
  serverMap_eq : s.serverMap = []
  connections_eq : s.connections = []

theorem NoServers.mapInv (h : NoServers s) : MapInv s := by
  refine ⟨?_, ?_, ?_, ?_, ?_, ?_, ?_, ?_, ?_⟩
  · rw [h.serverMap_eq]
    exact Keyed.distinct_nil _
  · rw [h.connections_eq]
    exact Keyed.distinct_nil _
  · rw [h.connections_eq]
    exact Keyed.distinct_nil _
  · simp [h.serverMap_eq]
  · simp [h.connections_eq]
  · simp [h.connections_eq]
  · simp [h.serverMap_eq]
  · exact fun k hk hlive => absurd hlive (h.nodes k [] hk)
  · exact fun k a hk hlive => absurd hlive (h.nodes k [a] hk)

theorem NoServers.noStale (h : NoServers s) : NoStale s :=
  ⟨by simp [h.serverMap_eq], by simp [h.connections_eq]⟩

/-- **Servers.** From a link without servers, the stores agree after every request
of a run exactly when no request of the run puts a server over another one or has
texts that do not fit. -/
theorem serversAgree_iff (h : NoServers s) (run : List ServerRequest) :
    Along (serverStep svc) (fun s r => ∃ s', serverStep svc s r = .ok s' ∧ ServersAgree s') s run ↔
      Along (serverStep svc) KeepsApart s run := by
  apply along_iff (J := fun s => MapInv s ∧ NoStale s)
  · rintro s r s' ⟨hinv, hns⟩ hapart hs
    have hinv' := serverStep_mapInv hinv hs
    obtain ⟨s'', hs'', hagree⟩ := (serverStep_agrees_iff hinv hns r).2 hapart
    cases hs.symm.trans hs''
    exact ⟨hinv', noStale_of_serversAgree hinv' hagree⟩
  · rintro s r ⟨hinv, hns⟩
    exact serverStep_agrees_iff hinv hns r
  · exact ⟨h.mapInv, h.noStale⟩

/-- A link without any node. -/
def bareLink : LinkState NodeStore Unit :=
  { tree := NodeStore.empty, serverMap := [], connections := [], nextConn := 0, world := (),
    requests := [] }

theorem noServers_bareLink : NoServers bareLink :=
  ⟨fun _ _ _ h => (by cases h), rfl, rfl⟩

/-- One server that is added twice. -/
def addTwice : List ServerRequest :=
  [.add "a".toList "h".toList 102, .add "a".toList "h".toList 102]

theorem serversAgree_iff_addTwice :
    Along (serverStep (IedService.silent Unit))
        (fun s r => ∃ s', serverStep (IedService.silent Unit) s r = .ok s' ∧
          ServersAgree s') bareLink
        addTwice ↔
      Along (serverStep (IedService.silent Unit)) KeepsApart bareLink addTwice :=
  serversAgree_iff noServers_bareLink addTwice

/-- The second server replaces the node of the first one, whose entry and
connection remain. -/
theorem addTwice_stale :
    ¬ Along (serverStep (IedService.silent Unit))
      (fun s r => ∃ s', serverStep (IedService.silent Unit) s r = .ok s' ∧ ServersAgree s') bareLink
      addTwice := by
  rintro ⟨⟨s₁, hs₁, hagree⟩, hrest⟩
  have hport : intValue (some (.integer 102)) ≠ 0 := by decide
  have hinv := serverStep_mapInv noServers_bareLink.mapInv hs₁
  obtain ⟨hsecond, -⟩ := hrest s₁ hs₁
  have hapart := (serverStep_agrees_iff hinv (noStale_of_serversAgree hinv hagree) _).1 hsecond
  rw [serverStep, invokeAddServer_eq, if_pos hport] at hs₁
  exact (hapart hport).1 (responderInitClient_ok hs₁).2.live

end DslinkIec61850
