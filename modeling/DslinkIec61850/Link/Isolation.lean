import DslinkIec61850.Link.Confinement
import DslinkIec61850.Link.Edit

/-!
# Isolation of servers

Every event works on behalf of one server or adds, edits or removes one. What belongs to
another server, its nodes, its entry of `serverMap`, its connection with the report
handlers and the requests sent to it, is left as it is.

* `linkEvent_effect`: what an event can do.
* `LinkInv.step`: the invariant of the link.
-/

namespace DslinkIec61850

open DSLink LinkState Run

variable {σ W : Type} [DSLink σ] {svc : IedService W} {s s' s'' : LinkState σ W} {srv b : Str}
  {q : Path} {d : Bool}

/-! ## The invariant -/

/-- Every node with an action is in its place. -/
def Placed (t : σ) : Prop :=
  ∀ p f, Invokes t p f → ∃ k q, p = k :: q ∧ hasInit srvKeyInit k = true ∧ InPlace f q

/-- Nodes of servers are below server nodes. -/
def ServerRooted (t : σ) : Prop := ∀ k q, hasInit srvKeyInit k = true → Live t (k :: q) → Live t [k]

/-- The entries, connections and nodes belong together, actions are in their places, and
every handler was given a node of the server that its connection was created for. -/
structure LinkInv (s : LinkState σ W) : Prop where
  maps : MapInv s
  rooted : ServerRooted s.tree
  placed : Placed s.tree
  owner : ∀ e ∈ s.connections, ∃ k, hasInit srvKeyInit k = true ∧ e.2.createdFor.path = [k]
  given : ∀ e ∈ s.connections, ∀ r ∈ e.2.enabledReports,
    e.2.createdFor.path <+: r.callbackParameter.path

/-- The connection belongs to the server with the key `srv`. -/
def OwnConn (s : LinkState σ W) (srv : Str) (c : ConnId) : Prop :=
  ∃ e ∈ s.connections, e.1 = c ∧ e.2.createdFor.path = [srv]

theorem LinkInv.ownConn_iff (h : LinkInv s) {e : ConnId × Connection} (he : e ∈ s.connections) :
    OwnConn s srv e.1 ↔ e.2.createdFor.path = [srv] := by
  constructor
  · rintro ⟨m, hm, hid, hpath⟩
    rwa [h.maps.conn_unique hm he hid] at hpath
  · exact fun hpath => ⟨e, he, rfl, hpath⟩

/-- A server that is there has its own connection. -/
theorem LinkInv.ownConn_of_serverConn (h : LinkInv s) (hsrv : hasInit srvKeyInit srv = true)
    (hlive : Live s.tree [srv])
    {c : ConnId} (hc : serverConn s srv = some c) : OwnConn s srv c := by
  obtain ⟨m, hm, hptr⟩ := h.maps.mapped srv hsrv hlive
  obtain ⟨conn, hconn, howner⟩ := h.maps.conn m hm
  rw [serverConn, h.maps.mapGet_eq hm hptr] at hc
  obtain rfl := Option.some.inj hc
  refine ⟨_, hconn, rfl, ?_⟩
  show conn.createdFor.path = [srv]
  rw [howner, hptr]
  rfl

/-! ## What an event can do -/

/-- What an event does, in five cases. -/
inductive EventEffect (svc : IedService W) (s : LinkState σ W) : LinkEvent → LinkState σ W → Prop
  /-- Nothing. -/
  | idle (e : LinkEvent) : EventEffect svc s e s
  /-- An action on behalf of the server of the node. -/
  | acts {srv : Str} {q : Path} {params : Json} {f : Callback} {s' : LinkState σ W}
      (hsrv : hasInit srvKeyInit srv = true)
      (hf : Invokes s.tree (srv :: q) f) (hrun : invokeAction svc s (srv :: q) params f = .ok s')
      (hs : Confined f.keepsDevices srv (serverConn s srv = some ·)
        (Asks s.tree (srv :: q) params f) s s') :
      EventEffect svc s (.invoke (srv :: q) params) s'
  /-- An action below a node that is opened gets other parameters. -/
  | opens {node p : Path} {v : Json} (hp : node <+: p) :
      EventEffect svc s (.listOpen node) { s with tree := setMeta s.tree p "$params".toList v }
  /-- A report on a connection of the server. -/
  | reports {srv : Str} {con : ConnId} {message : ReportMessage} {s' : LinkState σ W}
      (hsrv : hasInit srvKeyInit srv = true)
      (hown : OwnConn s srv con) (hnodes : SameNodes s.tree s'.tree)
      (hs : Confined true srv (· = con) (fun _ => False) s s') :
      EventEffect svc s (.report con message) s'
  /-- A server is added. -/
  | adds {params : Json} {name host : Str} {port : ℤ} {s' : LinkState σ W}
      (hname : Json.stringValue (params.objectGet "Name".toList) = some name)
      (hs : responderInitClient svc s name host port = .ok s') :
      EventEffect svc s (.addServer params) s'
  /-- A server is removed. -/
  | removes {k a : Str} {params : Json} {e : NodePtr × Server61850}
      (hk : hasInit srvKeyInit k = true) (he : e ∈ s.serverMap) (hptr : e.1 = s.ptr [k]) :
      EventEffect svc s (.invoke [k, a] params) (withoutServer s k e)
  /-- A server is removed and added anew. -/
  | remakes {k a : Str} {params : Json} {e : NodePtr × Server61850} {name host : Str} {port : ℤ}
      {s' : LinkState σ W}
      (hk : hasInit srvKeyInit k = true) (hedit : Invokes s.tree [k, a] .editServerAction)
      (he : e ∈ s.serverMap) (hptr : e.1 = s.ptr [k])
      (hname : Json.stringValue (params.objectGet "Name".toList) = some name)
      (hs : responderInitClient svc (withoutServer s k e) name host port = .ok s') :
      EventEffect svc s (.invoke [k, a] params) s'

/-- An edit is refused, reconnects, or removes the server and adds it anew. -/
theorem editServerAction_effect (hmaps : MapInv s) {k a : Str} {params : Json}
    (hk : hasInit srvKeyInit k = true)
    (hlive : Live s.tree [k]) (hf : Invokes s.tree [k, a] .editServerAction)
    (h : editServerAction svc s [k, a] params = .ok s') :
    EventEffect svc s (.invoke [k, a] params) s' := by
  obtain ⟨e, he, hptr⟩ := hmaps.mapped k hk hlive
  have hrun : invokeAction svc s [k, a] params .editServerAction = .ok s' := h
  unfold editServerAction at h
  obtain ⟨server, hserver, h⟩ := bind_eq_ok.1 h
  obtain ⟨name, hname, h⟩ := bind_eq_ok.1 h
  split_ifs at h
  · cases h
    exact .idle _
  · obtain ⟨host, -, h⟩ := bind_eq_ok.1 h
    split_ifs at h
    · cases h
      exact .idle _
    · obtain ⟨⟨removed, s₁⟩, h₁, h⟩ := bind_eq_ok.1 h
      have hremove : removeServerNode s [k] = .ok (true, withoutServer s k e) :=
        removeServerNode_eq hmaps hlive he hptr
      cases hremove.symm.trans h₁
      exact .remakes hk hf he hptr (deref_eq_ok.1 hname) h
    · cases h
      exact .acts hk hf hrun
        (.of_call s fun w =>
          svc.connect w server.iedConn host (intValue (params.objectGet "Port".toList)))

theorem linkEvent_effect (hinv : LinkInv s) {e : LinkEvent} (h : linkEvent svc s e = .ok s') :
    EventEffect svc s e s' := by
  cases e with
  | addServer params =>
    unfold linkEvent invokeAddServer at h
    dsimp only at h
    split at h
    · rename_i name host hname hhost
      split_ifs at h
      · exact .adds hname h
      · cases h
        exact .idle _
    · cases h
      exact .idle _
  | invoke node params =>
    unfold linkEvent at h
    dsimp only at h
    cases hf : installed s.tree node DSNode.onInvocation with
    | none =>
      rw [hf] at h
      cases h
      exact .idle _
    | some f =>
      rw [hf] at h
      have hf : Invokes s.tree node f := hf
      obtain ⟨k, q, rfl, hk, hplace⟩ := hinv.placed node f hf
      have hlive : Live s.tree [k] := hinv.rooted k q hk hf.live
      by_cases hedit : f = .editServerAction
      · subst hedit
        obtain ⟨a, rfl, -⟩ := hplace
        exact editServerAction_effect hinv.maps hk hlive hf h
      · by_cases hremove : f = .removeServerAction
        · subst hremove
          obtain ⟨a, rfl, -⟩ := hplace
          obtain ⟨e, he, hptr⟩ := hinv.maps.mapped k hk hlive
          have hnode : removeServerNode s [k] = .ok (true, withoutServer s k e) :=
            removeServerNode_eq hinv.maps hlive he hptr
          obtain ⟨⟨removed, s₁⟩, h₁, h⟩ := bind_eq_ok.1 h
          cases hnode.symm.trans h₁
          cases h
          exact .removes hk he hptr
        · exact .acts hk hf h (invokeAction_confined hk hplace hedit hremove h)
  | listOpen node =>
    have hopen {t : σ} {key : Str} {params : List Json}
        (ht : t = setParams s.tree node key params) :
        EventEffect svc s (.listOpen node) { s with tree := t } := by
      unfold setParams at ht
      split at ht
      · rw [ht]
        exact .idle _
      · rename_i p hp
        rw [ht]
        exact .opens (getPath_below _ _ _ _ hp).1
    unfold linkEvent at h
    dsimp only at h
    split at h
    · cases h
      exact .idle _
    · unfold openNode at h
      split at h
      · obtain ⟨t, ht, h⟩ := bind_eq_ok.1 h
        obtain ⟨enumStr, -, ht⟩ := bind_eq_ok.1 ht
        cases h
        exact hopen (Except.ok.inj ht).symm
      · obtain ⟨t, ht, h⟩ := bind_eq_ok.1 h
        obtain ⟨enumStr, -, ht⟩ := bind_eq_ok.1 ht
        cases h
        exact hopen (Except.ok.inj ht).symm
      · cases h
        exact .idle _
  | report con message =>
    have hnodes := (handleReport_keeps hinv.maps.connDistinct h).1.tree
    cases hfind : Keyed.find Prod.fst con s.connections with
    | none =>
      show EventEffect svc s (.report con message) s'
      unfold linkEvent handleReport at h
      dsimp only at h
      rw [hfind] at h
      cases h
      exact .idle _
    | some e =>
      have he := Keyed.mem_of_find hfind
      have hid : e.1 = con := Keyed.key_of_find hfind
      obtain ⟨k, hk, hpath⟩ := hinv.owner e he
      refine .reports hk ⟨e, he, hid, hpath⟩ hnodes
        (handleReport_confined hinv.maps.connDistinct ?_ h)
      rintro n ⟨m, hm, hmid, r, hr, rfl⟩
      obtain rfl := hinv.maps.conn_unique hm he (hmid.trans hid.symm)
      have hgiven := hinv.given m hm r hr
      rw [hpath] at hgiven
      obtain ⟨p, hp⟩ := hgiven
      exact ⟨p, hp.symm⟩

/-! ## The invariant is kept -/

section Kept

variable {C : ConnId → Prop} {P : Request → Prop}

omit [DSLink σ] in
theorem conn_of_map {l l' : List (ConnId × Connection)}
    (h : l'.map (fun e => (e.1, e.2.createdFor)) = l.map fun e => (e.1, e.2.createdFor))
    {e' : ConnId × Connection}
    (he' : e' ∈ l') : ∃ e ∈ l, e.1 = e'.1 ∧ e.2.createdFor = e'.2.createdFor := by
  have hmem := List.mem_map_of_mem (f := fun e : ConnId × Connection => (e.1, e.2.createdFor)) he'
  rw [h] at hmem
  obtain ⟨e, he, heq⟩ := List.mem_map.1 hmem
  exact ⟨e, he, (Prod.mk.inj heq).1, (Prod.mk.inj heq).2⟩

theorem live_of_confined (h : Confined d srv C P s s') (k : Str) :
    Live s'.tree [k] ↔ Live s.tree [k] := by
  by_cases hk : k = srv
  · rw [hk, Live, Live, h.tree.below.root]
  · rw [Live, Live, (h.tree.other hk []).1]

theorem ptr_of_confined (h : Confined d srv C P s s') (k : Str) : s'.ptr [k] = s.ptr [k] := by
  by_cases hk : k = srv
  · rw [hk, ptr, ptr, h.tree.below.ident_root]
  · rw [ptr, ptr, (h.tree.other hk []).2]

/-- A step on behalf of a server whose nodes are below its node. -/
theorem Confined.linkInv (hinv : LinkInv s) (h : Confined d srv C P s s')
    (hsrv : hasInit srvKeyInit srv = true) (hown : ∀ c, C c → OwnConn s srv c)
    (hrooted : ∀ q, Live s'.tree (srv :: q) → Live s.tree [srv]) : LinkInv s' := by
  have hmaps := hinv.maps
  have hroot : ServerRooted s'.tree := by
    intro k q hk hlive
    rw [live_of_confined h]
    by_cases hne : k = srv
    · subst hne
      exact hrooted q hlive
    · rw [Live, (h.tree.other hne q).1] at hlive
      exact hinv.rooted k q hk hlive
  have hkeys {α : Type} (f : ConnId × NodePtr → α) :
      s'.connections.map (fun e => f (e.1, e.2.createdFor)) = s.connections.map fun e =>
        f (e.1, e.2.createdFor) := by
    have := congrArg (List.map f) h.created_eq
    rwa [List.map_map, List.map_map] at this
  refine ⟨⟨?_, ?_, ?_, ?_, ?_, ?_, ?_, ?_, fun k a hk => hroot k [a] hk⟩, hroot, ?_, ?_, ?_⟩
  · rw [h.serverMap_eq]
    exact hmaps.mapDistinct
  · have hids : s'.connections.map Prod.fst = s.connections.map Prod.fst := hkeys Prod.fst
    rw [Keyed.Distinct, hids]
    exact hmaps.connDistinct
  · have howners : s'.connections.map ownerKey = s.connections.map ownerKey :=
      hkeys fun e => e.2.ident
    rw [Keyed.Distinct, howners]
    exact hmaps.ownerDistinct
  · intro e he
    rw [h.serverMap_eq] at he
    exact (hmaps.mapBound e he).trans_le h.tree.below.fresh_le
  · intro e' he'
    obtain ⟨e, he, -, hcreated⟩ := conn_of_map h.created_eq he'
    rw [← hcreated]
    exact (hmaps.ownerBound e he).trans_le h.tree.below.fresh_le
  · intro e' he'
    obtain ⟨e, he, hid, -⟩ := conn_of_map h.created_eq he'
    rw [← hid, h.nextConn_eq]
    exact hmaps.connBound e he
  · intro e he
    rw [h.serverMap_eq] at he
    obtain ⟨c, hc, howner⟩ := hmaps.conn e he
    obtain ⟨m, hm, hid, hcreated⟩ := conn_of_map h.created_eq.symm hc
    have hid : m.1 = e.2.iedConn := hid
    refine ⟨m.2, ?_, hcreated.trans howner⟩
    rw [← hid]
    exact hm
  · intro k hk hlive
    rw [live_of_confined h] at hlive
    obtain ⟨e, he, hptr⟩ := hmaps.mapped k hk hlive
    exact ⟨e, h.serverMap_eq ▸ he, hptr.trans (ptr_of_confined h k).symm⟩
  · intro p f hf
    cases p with
    | nil =>
      have hsame : lookup s'.tree [] = lookup s.tree [] := h.tree.below.frame [] (by simp)
      unfold Invokes at hf
      rw [hsame] at hf
      exact hinv.placed [] f hf
    | cons k q =>
      by_cases hne : k = srv
      · subst hne
        rcases h.tree.placed q f hf with hf | ⟨hf, hq⟩
        · exact hinv.placed _ f hf
        · refine ⟨k, q, rfl, hsrv, ?_⟩
          rwa [InPlace, if_neg (by rw [hf]; decide)]
      · unfold Invokes at hf
        rw [(h.tree.other hne q).1] at hf
        exact hinv.placed _ f hf
  · intro e' he'
    obtain ⟨e, he, -, hcreated⟩ := conn_of_map h.created_eq he'
    rw [← hcreated]
    exact hinv.owner e he
  · intro e' he' r' hr'
    obtain ⟨e, he, hid, hcreated⟩ := conn_of_map h.created_eq he'
    rw [← hcreated]
    rcases h.handlers e'.1 _ ⟨e', he', rfl, r', hr', rfl⟩ with
      ⟨m, hm, hmid, r, hr, hparam⟩ | ⟨hC, p, hp⟩
    · obtain rfl := hmaps.conn_unique hm he (hmid.trans hid.symm)
      rw [← hparam]
      exact hinv.given m hm r hr
    · rw [← hid] at hC
      rw [(hinv.ownConn_iff he).1 (hown _ hC), hp]
      exact List.prefix_append [srv] p

end Kept

/-! ## Adding and removing -/

theorem placed_addChild {t : σ} (h : Placed t) (p : Path) {k : Str} {n : DSNode}
    (hn : ∀ f, n.onInvocation = some f → ∃ k' q, p ++ [k] = k' :: q ∧ hasInit srvKeyInit k' = true ∧
      InPlace f q) :
    Placed (addChild t p k n) := by
  intro q f hf
  obtain ⟨m, hm, hm'⟩ := Option.bind_eq_some_iff.1 hf
  rcases lookup_addChild_eq_some hm with ⟨rfl, rfl⟩ | ⟨-, hold⟩
  · exact hn f hm'
  · exact h q f (Option.bind_eq_some_iff.2 ⟨m, hold, hm'⟩)

theorem placed_addChildren {t : σ} (h : Placed t) (p : Path) {children : List (Str × DSNode)}
    (hn : ∀ c ∈ children, ∀ f, c.2.onInvocation = some f →
      ∃ k' q, p ++ [c.1] = k' :: q ∧ hasInit srvKeyInit k' = true ∧ InPlace f q) :
    Placed (addChildren t p children) := by
  induction children generalizing t with
  | nil => exact h
  | cons c cs ih =>
    exact ih (placed_addChild h p (hn c List.mem_cons_self)) fun d hd =>
      hn d (List.mem_cons_of_mem _ hd)

theorem onServer_of_serverActions {name host : Str} {port : ℤ} {c : Str × DSNode} {f : Callback}
    (h : c ∈ serverActions name host port) (hf : c.2.onInvocation = some f) :
    f.onServer = true := by
  simp only [serverActions, List.mem_cons, List.not_mem_nil, or_false] at h
  rcases h with rfl | rfl | rfl | rfl
  all_goals
    cases hf
    rfl

theorem responderInitClient_placed {name host : Str} {port : ℤ} (h : Placed s.tree)
    (hs : responderInitClient svc s name host port = .ok s') :
    Placed s'.tree ∧ s'.requests = s.requests := by
  obtain ⟨_, -, hs⟩ := bind_eq_ok.1 hs
  obtain ⟨_, -, hs⟩ := bind_eq_ok.1 hs
  cases hs
  refine ⟨?_, rfl⟩
  have hnone {p : Path} {n : DSNode} (hn : n.onInvocation = none) : ∀ f, n.onInvocation = some f →
      ∃ k' q, p = k' :: q ∧ hasInit srvKeyInit k' = true ∧ InPlace f q := by
    intro f hf
    rw [hn] at hf
    cases hf
  refine placed_addChild
    (placed_addChildren (placed_addChild h [] (hnone rfl)) _ fun c hc f hf => ?_) _ (hnone rfl)
  refine ⟨srvKey name, [c.1], rfl, hasInit_srvKey name, ?_⟩
  rw [InPlace, if_pos (onServer_of_serverActions hc hf)]
  exact ⟨c.1, rfl, hasInit_serverActions hc⟩

theorem linkInv_of_added {name host : Str} {port : ℤ} (hinv : LinkInv s)
    (hs : responderInitClient svc s name host port = .ok s') : LinkInv s' := by
  have hadd := (responderInitClient_ok hs).2
  have hconn {e : ConnId × Connection} (he : e ∈ s'.connections) :
      e ∈ s.connections ∨ e = (s.nextConn, ⟨[], ⟨[srvKey name], fresh s.tree⟩, []⟩) := by
    rwa [hadd.connections_eq, List.mem_append, List.mem_singleton] at he
  refine ⟨hadd.mapInv hinv.maps, ?_, (responderInitClient_placed hinv.placed hs).1, ?_, ?_⟩
  · intro k q hk hlive
    by_cases hname : k = srvKey name
    · rw [hname]
      exact hadd.live
    · rw [Live, (touches_child hadd.touches hname q).1] at hlive
      rw [Live, (touches_child hadd.touches hname []).1]
      exact hinv.rooted k q hk hlive
  · intro e he
    rcases hconn he with he | rfl
    · exact hinv.owner e he
    · exact ⟨srvKey name, hasInit_srvKey name, rfl⟩
  · intro e he r hr
    rcases hconn he with he | rfl
    · exact hinv.given e he r hr
    · exact absurd hr List.not_mem_nil

theorem linkInv_withoutServer {k : Str} {e : NodePtr × Server61850} (hinv : LinkInv s)
    (he : e ∈ s.serverMap) (hptr : e.1 = s.ptr [k]) : LinkInv (withoutServer s k e) := by
  have hlookup {q : Path} {n : DSNode} (hn : lookup (withoutServer s k e).tree q = some n) :
      lookup s.tree q = some n := by
    have hn' : lookup (removeTree s.tree [k]) q = some n := hn
    rw [lookup_removeTree] at hn'
    split_ifs at hn'
    exact hn'
  refine ⟨(withoutServer_removed s k e).mapInv hinv.maps he hptr, ?_, ?_, ?_, ?_⟩
  · intro k' q hk' hlive
    rw [live_withoutServer] at hlive ⊢
    exact ⟨hlive.1, hinv.rooted k' q hk' hlive.2⟩
  · intro p f hf
    obtain ⟨n, hn, hf⟩ := Option.bind_eq_some_iff.1 hf
    exact hinv.placed p f (Option.bind_eq_some_iff.2 ⟨n, hlookup hn, hf⟩)
  · exact fun m hm => hinv.owner m (Keyed.mem_erase.1 hm).1
  · exact fun m hm => hinv.given m (Keyed.mem_erase.1 hm).1

/-- An assignment to a field of a node that leaves its functions. -/
theorem linkInv_modify (hinv : LinkInv s) (p : Path) {F : DSNode → DSNode}
    (hF : ∀ n, (F n).functions = n.functions) : LinkInv { s with tree := modify s.tree p F } := by
  have hinvokes {q : Path} {f : Callback} (hf : Invokes (modify s.tree p F) q f) :
      Invokes s.tree q f := by
    unfold Invokes at hf ⊢
    rw [lookup_modify] at hf
    split_ifs at hf with hq
    · rw [hq]
      cases hn : lookup s.tree p with
      | none =>
        rw [hn] at hf
        cases hf
      | some n =>
        rw [hn] at hf
        exact (congrArg Prod.fst (hF n)).symm.trans hf
    · exact hf
  have hmaps := hinv.maps
  have hptr (q : Path) : ({ s with tree := modify s.tree p F } : LinkState σ W).ptr q =
    s.ptr q := by
    show NodePtr.mk q (ident (modify s.tree p F) q) = _
    rw [ident_modify]
    rfl
  have hfresh : fresh (modify s.tree p F) = fresh s.tree := fresh_modify ..
  refine ⟨⟨hmaps.mapDistinct, hmaps.connDistinct, hmaps.ownerDistinct, ?_, ?_, hmaps.connBound,
    hmaps.conn, ?_, ?_⟩, ?_, fun q f hf => hinv.placed q f (hinvokes hf), hinv.owner, hinv.given⟩
  · intro e he
    rw [hfresh]
    exact hmaps.mapBound e he
  · intro e he
    rw [hfresh]
    exact hmaps.ownerBound e he
  · intro k hk hlive
    rw [hptr]
    exact hmaps.mapped k hk ((live_modify F).1 hlive)
  · exact fun k a hk hlive => (live_modify F).2 (hmaps.rooted k a hk ((live_modify F).1 hlive))
  · exact fun k q hk hlive => (live_modify F).2 (hinv.rooted k q hk ((live_modify F).1 hlive))

/-- Every event keeps the invariant. -/
theorem LinkInv.step (hinv : LinkInv s) {e : LinkEvent} (h : linkEvent svc s e = .ok s') :
    LinkInv s' := by
  cases linkEvent_effect hinv h with
  | idle => exact hinv
  | acts hsrv hf hrun hs =>
    have hlive := hinv.rooted _ _ hsrv hf.live
    exact hs.linkInv hinv hsrv (fun c hc => hinv.ownConn_of_serverConn hsrv hlive hc) fun _ _ =>
      hlive
  | opens hp => exact linkInv_modify hinv _ fun _ => rfl
  | reports hsrv hown hnodes hs =>
    refine hs.linkInv hinv hsrv (fun c hc => hc ▸ hown) fun q hlive => ?_
    exact hinv.rooted _ q hsrv ((hnodes.node _).live_iff.1 hlive)
  | adds hname hs => exact linkInv_of_added hinv hs
  | removes hk he hptr => exact linkInv_withoutServer hinv he hptr
  | remakes hk hedit he hptr hname hs =>
    exact linkInv_of_added (linkInv_withoutServer hinv he hptr) hs

/-- A link without servers, where no node has an action. -/
structure Unused (s : LinkState σ W) : Prop where
  servers : NoServers s
  actions : ∀ p f, ¬ Invokes s.tree p f

theorem Unused.linkInv (h : Unused s) : LinkInv s := by
  refine ⟨h.servers.mapInv, ?_, ?_, ?_, ?_⟩
  · exact fun k q hk hlive => absurd hlive (h.servers.nodes k q hk)
  · exact fun p f hf => absurd hf (h.actions p f)
  · simp [h.servers.connections_eq]
  · simp [h.servers.connections_eq]

/-- Every run of the link keeps the invariant. -/
theorem LinkInv.run (hinv : LinkInv s) {run : List LinkEvent}
    (h : run.foldlM (linkEvent svc) s = .ok s') : LinkInv s' :=
  foldlM_invariant (fun _ _ _ _ hI hstep => hI.step hstep) h hinv

/-! ## What is left alone -/

/-- Everything that belongs to the server with the key `b` is what it was: its nodes with
their addresses, its entry, its connection, and the requests that were sent on it. -/
structure Undisturbed (b : Str) (s s' : LinkState σ W) : Prop where
  nodes : ∀ q, lookup s'.tree (b :: q) = lookup s.tree (b :: q) ∧
    ident s'.tree (b :: q) = ident s.tree (b :: q)
  entries : ∀ e : NodePtr × Server61850, e.1.path = [b] → (e ∈ s'.serverMap ↔ e ∈ s.serverMap)
  connections : ∀ e : ConnId × Connection, e.2.createdFor.path = [b] →
    (e ∈ s'.connections ↔ e ∈ s.connections)
  requests : ∀ c, OwnConn s b c →
    s'.requests.filter (fun r => r.1 = c) = s.requests.filter fun r => r.1 = c

namespace Undisturbed

theorem refl (b : Str) (s : LinkState σ W) : Undisturbed b s s :=
  ⟨fun _ => ⟨rfl, rfl⟩, fun _ _ => .rfl, fun _ _ => .rfl, fun _ _ => rfl⟩

theorem ownConn_iff (h : Undisturbed b s s') {c : ConnId} : OwnConn s' b c ↔ OwnConn s b c := by
  constructor
  · rintro ⟨e, he, hid, hpath⟩
    exact ⟨e, (h.connections e hpath).1 he, hid, hpath⟩
  · rintro ⟨e, he, hid, hpath⟩
    exact ⟨e, (h.connections e hpath).2 he, hid, hpath⟩

theorem trans (h : Undisturbed b s s') (h' : Undisturbed b s' s'') : Undisturbed b s s'' where
  nodes q := ⟨(h'.nodes q).1.trans (h.nodes q).1, (h'.nodes q).2.trans (h.nodes q).2⟩
  entries e he := (h'.entries e he).trans (h.entries e he)
  connections e he := (h'.connections e he).trans (h.connections e he)
  requests c hc := (h'.requests c (h.ownConn_iff.2 hc)).trans (h.requests c hc)

/-- The entry of a server that is left alone. -/
theorem mapGet_eq (h : Undisturbed b s s') (hmaps : MapInv s) (hmaps' : MapInv s')
    (hb : hasInit srvKeyInit b = true)
    (hlive : Live s.tree [b]) : s'.mapGet (s'.ptr [b]) = s.mapGet (s.ptr [b]) := by
  obtain ⟨e, he, hptr⟩ := hmaps.mapped b hb hlive
  have hptr' : e.1 = s'.ptr [b] := by
    rw [hptr, ptr, ptr, (h.nodes []).2]
  have he' := (h.entries e (by rw [hptr]; rfl)).2 he
  rw [hmaps.mapGet_eq he hptr, hmaps'.mapGet_eq he' hptr']

end Undisturbed

theorem Confined.undisturbed {C : ConnId → Prop} {P : Request → Prop} (hinv : LinkInv s)
    (hinv' : LinkInv s')
    (h : Confined d srv C P s s') (hown : ∀ c, C c → OwnConn s srv c) (hb : b ≠ srv) :
    Undisturbed b s s' := by
  have hfree {c : ConnId} (hc : OwnConn s b c) : ¬ C c := by
    intro hC
    obtain ⟨e, he, rfl, hpath⟩ := hc
    have hpath' := (hinv.ownConn_iff he).1 (hown e.1 hC)
    rw [hpath] at hpath'
    exact hb (List.singleton_inj.1 hpath')
  refine ⟨fun q => h.tree.other hb q, fun e _ => by rw [h.serverMap_eq], fun e hpath => ?_,
    fun c hc => ?_⟩
  · constructor
    · intro he
      obtain ⟨m, hm, hid, hcreated⟩ := conn_of_map h.created_eq he
      have hsame := h.others e.1 (hfree ⟨m, hm, hid, by rw [hcreated, hpath]⟩)
      rw [Keyed.find_of_mem hinv'.maps.connDistinct he] at hsame
      exact Keyed.mem_of_find hsame.symm
    · intro he
      have hsame := h.others e.1 (hfree ⟨e, he, rfl, hpath⟩)
      rw [Keyed.find_of_mem hinv.maps.connDistinct he] at hsame
      exact Keyed.mem_of_find hsame
  · obtain ⟨sent, heq, hsent⟩ := h.requests
    have hnone : sent.filter (fun r => r.1 = c) = [] := by
      refine List.filter_eq_nil_iff.2 fun r hr => ?_
      rw [decide_eq_true_eq]
      rintro rfl
      exact hfree hc (hsent r hr).1
    rw [heq, List.filter_append, hnone, List.append_nil]

theorem undisturbed_of_added {name host : Str} {port : ℤ} (hinv : LinkInv s)
    (hs : responderInitClient svc s name host port = .ok s') (hb : srvKey name ≠ b) :
    Undisturbed b s s' := by
  have hadd := (responderInitClient_ok hs).2
  have hmap : s'.serverMap = s.serverMap ++
      [(⟨[srvKey name], fresh s.tree⟩, ⟨host, port, s.nextConn⟩)] := by
    rw [hadd.serverMap_eq]
    exact Keyed.set_of_fresh fun e he => (hinv.maps.mapBound e he).ne
  refine ⟨fun q => touches_child hadd.touches hb.symm q, fun e hpath => ?_, fun e hpath => ?_,
    fun c _ => ?_⟩
  · rw [hmap, List.mem_append, List.mem_singleton]
    refine or_iff_left ?_
    rintro rfl
    exact hb (List.singleton_inj.1 hpath)
  · rw [hadd.connections_eq, List.mem_append, List.mem_singleton]
    refine or_iff_left ?_
    rintro rfl
    exact hb (List.singleton_inj.1 hpath)
  · rw [(responderInitClient_placed hinv.placed hs).2]

theorem undisturbed_withoutServer {k : Str} {e : NodePtr × Server61850} (hinv : LinkInv s)
    (he : e ∈ s.serverMap)
    (hptr : e.1 = s.ptr [k]) (hb : b ≠ k) : Undisturbed b s (withoutServer s k e) := by
  have hpath : e.1.path = [k] := by
    rw [hptr]
    rfl
  have hdiffer {p : Path} (hp : p = [b]) (hsame : p = [k]) : False := by
    rw [hp] at hsame
    exact hb (List.singleton_inj.1 hsame)
  refine ⟨fun q => ?_, fun m hm => ?_, fun m hm => ?_, fun _ _ => rfl⟩
  · have hpre : ¬ [k] <+: b :: q := by
      rw [List.cons_prefix_cons]
      exact fun hpre => hb hpre.1.symm
    exact ⟨lookup_removeTree_of_not_below hpre, ident_removeTree ..⟩
  · show m ∈ Keyed.erase mapKey e.1.ident s.serverMap ↔ _
    rw [Keyed.mem_erase]
    refine and_iff_left_of_imp fun hmem hid => hdiffer hm ?_
    rw [hinv.maps.entry_unique hmem he hid, hpath]
  · show m ∈ Keyed.erase Prod.fst e.2.iedConn s.connections ↔ _
    rw [Keyed.mem_erase]
    refine and_iff_left_of_imp fun hmem hid => hdiffer hm ?_
    obtain ⟨c, hc, howner⟩ := hinv.maps.conn e he
    rw [hinv.maps.conn_unique hmem hc hid]
    show c.createdFor.path = [k]
    rw [howner, hpath]

/-- The event is for another server than the one with the key `b`: an action on a node
somewhere else, which does not make a server with this key, or a report on another
connection. -/
def Elsewhere (b : Str) (s : LinkState σ W) : LinkEvent → Prop
  | .addServer params =>
    ∀ name, Json.stringValue (params.objectGet "Name".toList) = some name → srvKey name ≠ b
  | .invoke node params => node.head? ≠ some b ∧ (Invokes s.tree node .editServerAction →
      ∀ name, Json.stringValue (params.objectGet "Name".toList) = some name → srvKey name ≠ b)
  | .listOpen node => ∃ k q, node = k :: q ∧ k ≠ b
  | .report con _ => ¬ OwnConn s b con

theorem linkEvent_undisturbed (hinv : LinkInv s) {e : LinkEvent} (helse : Elsewhere b s e)
    (h : linkEvent svc s e = .ok s') : Undisturbed b s s' := by
  have hinv' := hinv.step h
  cases linkEvent_effect hinv h with
  | idle => exact .refl b s
  | acts hsrv hf hrun hs =>
    have hlive := hinv.rooted _ _ hsrv hf.live
    refine hs.undisturbed hinv hinv' (fun c hc => hinv.ownConn_of_serverConn hsrv hlive hc) ?_
    rintro rfl
    exact helse.1 rfl
  | opens hp =>
    obtain ⟨k, q, rfl, hk⟩ := helse
    obtain ⟨r, rfl⟩ := hp
    refine ⟨fun q' => ⟨?_, ident_modify ..⟩, fun _ _ => .rfl, fun _ _ => .rfl, fun _ _ => rfl⟩
    show lookup (setMeta s.tree _ _ _) _ = _
    rw [setMeta, lookup_modify, if_neg]
    intro heq
    exact hk (List.cons.inj heq).1.symm
  | reports hsrv hown hnodes hs =>
    refine hs.undisturbed hinv hinv' (fun c hc => hc ▸ hown) ?_
    rintro rfl
    exact helse hown
  | adds hname hs => exact undisturbed_of_added hinv hs (helse _ hname)
  | removes hk he hptr =>
    refine undisturbed_withoutServer hinv he hptr ?_
    rintro rfl
    exact helse.1 rfl
  | remakes hk hedit he hptr hname hs =>
    have hremoved := undisturbed_withoutServer (b := b) hinv he hptr
      (by rintro rfl; exact helse.1 rfl)
    exact hremoved.trans
      (undisturbed_of_added (linkInv_withoutServer hinv he hptr) hs (helse.2 hedit _ hname))

/-- **Isolation.** After any run of a link that started without servers, a run of events
that are all for other servers leaves a server alone, whatever the IEDs answer. -/
theorem server_isolated_run {s₀ : LinkState σ W} (h₀ : Unused s₀) {before run : List LinkEvent}
    (hbefore : before.foldlM (linkEvent svc) s₀ = .ok s)
    (helse : Along (linkEvent svc) (Elsewhere b) s run)
    (h : run.foldlM (linkEvent svc) s = .ok s') : Undisturbed b s s' := by
  have hinv := h₀.linkInv.run hbefore
  have hstep (s : LinkState σ W) (e : LinkEvent) (s' : LinkState σ W) (hinv : LinkInv s)
      (he : Elsewhere b s e) (hs : linkEvent svc s e = .ok s') : LinkInv s' ∧ Undisturbed b s s' :=
    ⟨hinv.step hs, linkEvent_undisturbed hinv he hs⟩
  exact (along_relates (.refl b) (fun _ _ _ => .trans) hstep hinv helse h).2

/-! ## Where requests come from -/

/-- An action that is invoked in the state `s` is there for the request, and the request
goes to the server of its node. -/
def Causes (s : LinkState σ W) : LinkEvent → ConnId × Request → Prop
  | .invoke node params, (con, r) => ∃ srv q f, node = srv :: q ∧ Invokes s.tree node f ∧
      serverConn s srv = some con ∧ Asks s.tree node params f r
  | _, _ => False

theorem linkEvent_requests (hinv : LinkInv s) {e : LinkEvent} (h : linkEvent svc s e = .ok s') :
    ∃ sent, s'.requests = s.requests ++ sent ∧ ∀ r ∈ sent, Causes s e r := by
  have hnone (hsame : s'.requests = s.requests) : ∃ sent, s'.requests = s.requests ++ sent ∧
      ∀ r ∈ sent, Causes s e r :=
    ⟨[], by rw [hsame, List.append_nil], by simp⟩
  have hquiet {d : Bool} {srv : Str} {C : ConnId → Prop}
      (hs : Confined d srv C (fun _ => False) s s') : s'.requests = s.requests := by
    obtain ⟨sent, heq, hsent⟩ := hs.requests
    obtain rfl : sent = [] := List.eq_nil_iff_forall_not_mem.2 fun r hr => (hsent r hr).2
    rw [heq, List.append_nil]
  cases linkEvent_effect hinv h with
  | idle => exact hnone rfl
  | acts hsrv hf hrun hs =>
    obtain ⟨sent, heq, hsent⟩ := hs.requests
    exact ⟨sent, heq, fun r hr => ⟨_, _, _, rfl, hf, hsent r hr⟩⟩
  | opens hp => exact hnone rfl
  | reports hsrv hown hnodes hs => exact hnone (hquiet hs)
  | adds hname hs => exact hnone (responderInitClient_placed hinv.placed hs).2
  | removes hk he hptr => exact hnone rfl
  | remakes hk hedit he hptr hname hs =>
    exact hnone (responderInitClient_placed (linkInv_withoutServer hinv he hptr).placed hs).2

/-- **Requests.** Every request of a run that can change an IED was asked for: there is an
event of the run that invoked an action which is there for this request, on the server that
the request was sent to. -/
theorem requests_caused_run (h₀ : Unused s) {run : List LinkEvent}
    (h : run.foldlM (linkEvent svc) s = .ok s') :
    ∃ sent, s'.requests = s.requests ++ sent ∧ ∀ r ∈ sent, ∃ before e after s₁,
      run = before ++ e :: after ∧ before.foldlM (linkEvent svc) s = .ok s₁ ∧ Causes s₁ e r := by
  refine foldlM_progress (I := fun done s' => LinkInv s' ∧ done.foldlM (linkEvent svc) s = .ok s' ∧
    ∃ sent, s'.requests = s.requests ++ sent ∧ ∀ r ∈ sent, ∃ before e after s₁,
      run = before ++ e :: after ∧
      before.foldlM (linkEvent svc) s = .ok s₁ ∧ Causes s₁ e r) ?_ ?_ h |>.2.2
  · exact ⟨h₀.linkInv, rfl, [], by simp, by simp⟩
  · rintro done e rest hrun s₁ s₂ ⟨hinv, hdone, sent, heq, hsent⟩ hstep
    obtain ⟨more, heq', hmore⟩ := linkEvent_requests hinv hstep
    refine ⟨hinv.step hstep, ?_, sent ++ more, by rw [heq', heq, List.append_assoc], fun r hr => ?_⟩
    · rw [List.foldlM_append, hdone, ok_bind]
      exact foldlM_cons_eq_ok.2 ⟨s₂, hstep, rfl⟩
    · rcases List.mem_append.1 hr with hr | hr
      · exact hsent r hr
      · exact ⟨done, e, rest, s₁, hrun, hdone, hmore r hr⟩

/-! ## Two servers -/

/-- A link without any node but the root. -/
def rootLink (w : W) : LinkState NodeStore W :=
  { tree := NodeStore.empty, serverMap := [], connections := [], nextConn := 0, world := w,
    requests := [] }

theorem unused_rootLink (w : W) : Unused (rootLink w) where
  servers := ⟨fun _ _ _ h => (by cases h), rfl, rfl⟩
  actions p f h := by
    cases p with
    | nil =>
      have hnone : DSNode.create.onInvocation = some f := h
      cases hnone
    | cons k q =>
      have hlive := h.live
      cases hlive

/-- A server is added. -/
def addEvent (name : String) : LinkEvent := .addServer (serverParams name.toList "h".toList 102)

/-- The server `a` is renamed while the other one is there. -/
def renameEvent : LinkEvent :=
  .invoke (editNode "a".toList) (serverParams "c".toList "h".toList 102)

/-- The link with both servers. -/
def twoServers : LinkState NodeStore Unit :=
  match [addEvent "a", addEvent "b"].foldlM (linkEvent (IedService.silent Unit)) (rootLink ()) with
  | .ok s => s
  | .error _ => rootLink ()

/-- The link after the change of the name. -/
def renamed : LinkState NodeStore Unit :=
  match linkEvent (IedService.silent Unit) twoServers renameEvent with
  | .ok s => s
  | .error _ => twoServers

theorem server_isolated_run_rename : Undisturbed (srvKey "b".toList) twoServers renamed := by
  have hbefore : [addEvent "a", addEvent "b"].foldlM (linkEvent (IedService.silent Unit))
      (rootLink ()) = .ok twoServers := rfl
  have hrename : [renameEvent].foldlM (linkEvent (IedService.silent Unit)) twoServers =
      .ok renamed := rfl
  have helse : Along (linkEvent (IedService.silent Unit))
      (Elsewhere (srvKey "b".toList)) twoServers [renameEvent] := by
    refine ⟨⟨by decide, fun _ name hname => ?_⟩, fun _ _ => trivial⟩
    cases hname
    decide
  exact server_isolated_run (unused_rootLink ()) hbefore helse hrename

/-- A server is added and discovered, and an RptID is set. -/
def setIdRun : List LinkEvent :=
  [addEvent "a", .invoke (discoverNode "a".toList) (.object []),
    .invoke (setRptIdNode "a".toList false "D/N.RP.r".toList)
      (.object [("Value".toList, .string "new".toList)])]

/-- The link after this run. -/
def idSet : LinkState NodeStore Str :=
  match setIdRun.foldlM (linkEvent rptIdService) (rootLink "id".toList) with
  | .ok s => s
  | .error _ => rootLink "id".toList

theorem requests_caused_run_setRptId : idSet.requests.map Prod.fst = [0] ∧
    ∃ sent, idSet.requests = (rootLink "id".toList).requests ++ sent ∧
      ∀ r ∈ sent, ∃ before e after s₁, setIdRun = before ++ e :: after ∧
        before.foldlM (linkEvent rptIdService) (rootLink "id".toList) = .ok s₁ ∧ Causes s₁ e r :=
  ⟨by decide +kernel, requests_caused_run (unused_rootLink "id".toList) rfl⟩

end DslinkIec61850
