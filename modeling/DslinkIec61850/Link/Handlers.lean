import DslinkIec61850.Discovery.Rounds
import DslinkIec61850.Link.Clearing
import DslinkIec61850.Report.Agreement

/-!
# The nodes of report handlers

A discovery installs a report handler with the address of the RCB's node. The handlers
belong to the connection and the nodes to the tree: removing a server destroys both, but
clearing a server, or adding one over it, frees the nodes only.

* `linkStep_handlersInv`: what the requests keep that do not free the node of a handler.
* `handlers_live_run`: along such runs no report reaches a node that was freed.
-/

namespace DslinkIec61850

open DSLink LinkState Run

variable {σ W : Type} [DSLink σ] {svc : IedService W} {s s' : LinkState σ W}

/-! ## Handlers and their nodes -/

/-- The node of an RCB below the server with the key `k`. -/
def rcbPath (k : Str) (b : Bool) (ref : Str) : Path := [k, rcbFolderKey b, rcbNodeKey b ref]

/-- RCBs of one server have nodes next to each other. -/
theorem rcbPath_prefix {k : Str} {b b' : Bool} {ref ref' : Str}
    (h : rcbPath k b ref <+: rcbPath k b' ref') :
    b = b' ∧ rcbNodeKey b ref = rcbNodeKey b' ref' := by
  obtain ⟨-, hrest⟩ := List.cons_prefix_cons.1 h
  obtain ⟨hfolder, hkey⟩ := List.cons_prefix_cons.1 hrest
  refine ⟨?_, (List.cons_prefix_cons.1 hkey).1⟩
  cases b <;> cases b' <;> first | rfl | exact absurd hfolder (by decide)

/-- The reference of the RCB that a node is for. -/
def rcbRef (n : DSNode) : Option Str :=
  match n.data with
  | .rcb rcb => some rcb.objectReference
  | _ => none

/-- There is the node of the RCB `ref` at the path. -/
def IsRcbNode (t : σ) (p : Path) (ref : Str) : Prop := (lookup t p).bind rcbRef = some ref

/-- A handler was given the node of its RCB below the server with the key `k`. -/
structure HandlerAt (s : LinkState σ W) (k : Str) (b : Bool) (r : ClientReport) : Prop where
  parameter : r.callbackParameter = s.ptr (rcbPath k b r.rcbReference)
  folder : Live s.tree [k, rcbFolderKey b]
  block : IsRcbNode s.tree (rcbPath k b r.rcbReference) r.rcbReference

/-- Every handler was given the node of its RCB below the server that its connection was
created for; a connection has one handler for an RCB. -/
structure HandlersInv (s : LinkState σ W) : Prop where
  distinct : ∀ e ∈ s.connections, Keyed.Distinct ClientReport.rcbReference e.2.enabledReports
  owned : ∀ e ∈ s.connections, ∀ r ∈ e.2.enabledReports, ∃ k b, hasInit srvKeyInit k = true ∧
    e.2.createdFor = s.ptr [k] ∧ HandlerAt s k b r

/-- The address that a handler was given is that of an RCB node of the tree. -/
def PointsToRcb (s : LinkState σ W) (r : ClientReport) : Prop :=
  s.Valid r.callbackParameter ∧ ∃ rcb, rcbOf s.tree r.callbackParameter.path = .ok rcb

/-- Every handler of a connection points to an RCB node, and so does every handler that
the callback is called with. -/
structure HandlersLive (s : LinkState σ W) : Prop where
  installed : ∀ e ∈ s.connections, ∀ r ∈ e.2.enabledReports, PointsToRcb s r
  called : ∀ e ∈ s.connections, ∀ message report reports,
    dispatchReport message e.2.enabledReports = .ok (some (report, reports)) → PointsToRcb s report

theorem IsRcbNode.rcbOf {t : σ} {p : Path} {ref : Str} (h : IsRcbNode t p ref) :
    ∃ rcb, rcbOf t p = .ok rcb ∧ rcb.objectReference = ref := by
  obtain ⟨n, hn, href⟩ := Option.bind_eq_some_iff.1 h
  unfold DslinkIec61850.rcbOf
  rw [hn, Option.map_some]
  unfold rcbRef at href
  split at href
  · rename_i rcb hdata
    rw [hdata]
    exact ⟨rcb, rfl, Option.some.inj href⟩
  · cases href

theorem isRcbNode_of_rcbOf {t : σ} {p : Path} {rcb : ClientReportControlBlock}
    (h : rcbOf t p = .ok rcb) : IsRcbNode t p rcb.objectReference := by
  unfold rcbOf at h
  split at h
  · rename_i rcb' hdata
    cases h
    obtain ⟨n, hn, hdata⟩ := Option.map_eq_some_iff.1 hdata
    rw [IsRcbNode, hn, Option.bind_some, rcbRef, hdata]
  · cases h

theorem HandlerAt.pointsToRcb {k : Str} {b : Bool} {r : ClientReport} (h : HandlerAt s k b r) :
    PointsToRcb s r := by
  obtain ⟨rcb, hrcb, -⟩ := h.block.rcbOf
  rw [PointsToRcb, h.parameter]
  exact ⟨⟨live_of_rcbOf hrcb, rfl⟩, rcb, hrcb⟩

/-! ## What a report does to the handlers -/

/-- What a report leaves of a handler. -/
def handlerKey (r : ClientReport) : NodePtr × Str × Option Str :=
  (r.callbackParameter, r.rcbReference, r.rptId)

omit [DSLink σ] in
theorem merge_handlerKey {report report' : ClientReport} {message : ReportMessage}
    (h : report.merge message = .ok report') : handlerKey report' = handlerKey report := by
  obtain ⟨st, -, h⟩ := bind_eq_ok.1 h
  cases h
  rfl

/-- A report is delivered to one of the handlers and leaves them in their places. -/
theorem dispatchReport_keys {message : ReportMessage} {reports reports' : List ClientReport}
    {report : ClientReport} (h : dispatchReport message reports = .ok (some (report, reports'))) :
    handlerKey report ∈ reports.map handlerKey ∧
    reports'.map handlerKey = reports.map handlerKey := by
  induction reports generalizing reports' with
  | nil => cases h
  | cons r reports ih =>
    rw [dispatchReport] at h
    split_ifs at h with hid
    · obtain ⟨r', hmerge, h⟩ := bind_eq_ok.1 h
      cases h
      have hkey := merge_handlerKey hmerge
      exact ⟨by rw [hkey]; exact List.mem_cons_self, by rw [List.map_cons, List.map_cons, hkey]⟩
    · obtain ⟨found, hfound, h⟩ := bind_eq_ok.1 h
      cases found with
      | none => cases h
      | some found =>
        obtain ⟨report₁, reports₁⟩ := found
        cases h
        obtain ⟨hmem, hmap⟩ := ih hfound
        exact ⟨List.mem_cons_of_mem _ hmem, by rw [List.map_cons, List.map_cons, hmap]⟩

theorem HandlersInv.live (h : HandlersInv s) : HandlersLive s where
  installed e he r hr := by
    obtain ⟨k, b, -, -, hat⟩ := h.owned e he r hr
    exact hat.pointsToRcb
  called e he message report reports hrun := by
    obtain ⟨r, hr, hkey⟩ := List.mem_map.1 (dispatchReport_keys hrun).1
    obtain ⟨k, b, -, -, hat⟩ := h.owned e he r hr
    have hpoints := hat.pointsToRcb
    have hsame : r.callbackParameter = report.callbackParameter := congrArg Prod.fst hkey
    unfold PointsToRcb at hpoints ⊢
    rwa [hsame] at hpoints

/-! ## Frames -/

/-- The node keeps its address and the RCB that it is for, or is missing in both trees. -/
def SameNode (t t' : σ) (p : Path) : Prop :=
  (lookup t' p).map rcbRef = (lookup t p).map rcbRef ∧ ident t' p = ident t p

theorem SameNode.of_eq {t t' : σ} {p : Path}
    (h : lookup t' p = lookup t p ∧ ident t' p = ident t p) : SameNode t t' p := ⟨by rw [h.1], h.2⟩

theorem SameNode.live_iff {t t' : σ} {p : Path} (h : SameNode t t' p) : Live t' p ↔ Live t p := by
  unfold Live
  rw [← Option.isSome_map (f := rcbRef), h.1, Option.isSome_map]

theorem SameNode.isRcbNode_iff {t t' : σ} {p : Path} (h : SameNode t t' p) {ref : Str} :
    IsRcbNode t' p ref ↔ IsRcbNode t p ref := by
  have hjoin (t : σ) : (lookup t p).bind rcbRef = ((lookup t p).map rcbRef).join := by
    cases lookup t p <;> rfl
  rw [IsRcbNode, IsRcbNode, hjoin, hjoin, h.1]

/-- The server node and the folders of its RCBs stay with all their nodes. -/
structure SameRcbs (t t' : σ) (k : Str) : Prop where
  server : SameNode t t' [k]
  nodes : ∀ b q, SameNode t t' (k :: rcbFolderKey b :: q)

theorem SameRcbs.of_below {t t' : σ} {k : Str} (h : ∀ q, SameNode t t' (k :: q)) :
    SameRcbs t t' k :=
  ⟨h [], fun b q => h (rcbFolderKey b :: q)⟩

/-- What is enough for a handler to keep its node. -/
theorem HandlerAt.frame {k : Str} {b : Bool} {r r' : ClientReport} (h : HandlerAt s k b r)
    (hkey : handlerKey r' = handlerKey r) (hfolder : SameNode s.tree s'.tree [k, rcbFolderKey b])
    (hnode : SameNode s.tree s'.tree (rcbPath k b r.rcbReference)) : HandlerAt s' k b r' := by
  have hparameter : r'.callbackParameter = r.callbackParameter := congrArg Prod.fst hkey
  have href : r'.rcbReference = r.rcbReference := congrArg (fun x => x.2.1) hkey
  refine ⟨?_, hfolder.live_iff.2 h.folder, ?_⟩
  · rw [hparameter, href, h.parameter, ptr, ptr, hnode.2]
  · rw [href]
    exact hnode.isRcbNode_iff.2 h.block

/-- The handlers of a connection after reports. -/
def connKey (e : ConnId × Connection) : ConnId × NodePtr × List (NodePtr × Str × Option Str) :=
  (e.1, e.2.createdFor, e.2.enabledReports.map handlerKey)

/-- The connection has no handlers, or it had the same ones before and the nodes of their
RCBs are the same. -/
def KeepsConn (s s' : LinkState σ W) (e' : ConnId × Connection) : Prop :=
  e'.2.enabledReports = [] ∨ ∃ e ∈ s.connections, connKey e = connKey e' ∧
    ∀ k, e.2.createdFor = s.ptr [k] → (∃ r ∈ e.2.enabledReports, [k] <+: r.callbackParameter.path) →
      SameRcbs s.tree s'.tree k

theorem KeepsConn.distinct {e' : ConnId × Connection} (hkeep : KeepsConn s s' e')
    (h : HandlersInv s) : Keyed.Distinct ClientReport.rcbReference e'.2.enabledReports := by
  rcases hkeep with hnil | ⟨e, he, hkey, -⟩
  · rw [hnil]
    exact Keyed.distinct_nil _
  · have hreports : e.2.enabledReports.map handlerKey = e'.2.enabledReports.map handlerKey :=
      congrArg (fun x => x.2.2) hkey
    have hrefs := congrArg (List.map fun x => x.2.1) hreports
    rw [List.map_map, List.map_map] at hrefs
    have hdistinct := h.distinct e he
    unfold Keyed.Distinct at hdistinct ⊢
    rwa [show e'.2.enabledReports.map ClientReport.rcbReference =
      e.2.enabledReports.map ClientReport.rcbReference from
      hrefs.symm]

theorem KeepsConn.owned {e' : ConnId × Connection} (hkeep : KeepsConn s s' e') (h : HandlersInv s)
    {r' : ClientReport} (hr' : r' ∈ e'.2.enabledReports) :
    ∃ k b, hasInit srvKeyInit k = true ∧ e'.2.createdFor = s'.ptr [k] ∧ HandlerAt s' k b r' := by
  rcases hkeep with hnil | ⟨e, he, hkey, hnodes⟩
  · rw [hnil] at hr'
    cases hr'
  · have hreports : e.2.enabledReports.map handlerKey = e'.2.enabledReports.map handlerKey :=
      congrArg (fun x => x.2.2) hkey
    have howner : e.2.createdFor = e'.2.createdFor := congrArg (fun x => x.2.1) hkey
    have hmem := List.mem_map_of_mem (f := handlerKey) hr'
    rw [← hreports] at hmem
    obtain ⟨r, hr, hrkey⟩ := List.mem_map.1 hmem
    obtain ⟨k, b, hk, hptr, hat⟩ := h.owned e he r hr
    have hbelow : [k] <+: r.callbackParameter.path := by
      rw [hat.parameter]
      exact List.prefix_append [k] [rcbFolderKey b, rcbNodeKey b r.rcbReference]
    have hsame := hnodes k hptr ⟨r, hr, hbelow⟩
    refine ⟨k, b, hk, ?_, hat.frame hrkey.symm (hsame.nodes b []) (hsame.nodes b [_])⟩
    rw [← howner, hptr, ptr, ptr, hsame.server.2]

/-- The handlers keep their nodes when every connection is kept. -/
theorem HandlersInv.frame (h : HandlersInv s) (hkeep : ∀ e' ∈ s'.connections, KeepsConn s s' e') :
    HandlersInv s' where
  distinct e' he' := (hkeep e' he').distinct h
  owned e' he' _ hr' := (hkeep e' he').owned h hr'

theorem HandlersInv.congr (h : HandlersInv s) (htree : s'.tree = s.tree)
    (hconns : s'.connections = s.connections) : HandlersInv s' := by
  apply h.frame
  rw [hconns]
  exact fun e he =>
    .inr ⟨e, he, rfl, fun k _ _ => .of_below fun q => ⟨by rw [htree], by rw [htree]⟩⟩

/-- The tables stay up to the handlers, and no server node comes or goes. -/
theorem MapInv.frame (h : MapInv s) (hmap : s'.serverMap = s.serverMap)
    (hconns : s'.connections.map ownerOf = s.connections.map ownerOf)
    (hnext : s'.nextConn = s.nextConn)
    (hfresh : fresh s.tree ≤ fresh s'.tree) (hservers : ∀ k, SameNode s.tree s'.tree [k])
    (hchild : ∀ k a, hasInit srvKeyInit k = true → Live s'.tree [k, a] → Live s.tree [k]) :
    MapInv s' := by
  have hkeys {α : Type} (f : ConnId × NodePtr × List ℕ → α) :
      s'.connections.map (fun e => f (ownerOf e)) = s.connections.map fun e => f (ownerOf e) := by
    have := congrArg (List.map f) hconns
    rwa [List.map_map, List.map_map] at this
  have hold {e' : ConnId × Connection} (he' : e' ∈ s'.connections) : ∃ e ∈ s.connections,
      ownerOf e = ownerOf e' := by
    have hmem := List.mem_map_of_mem (f := ownerOf) he'
    rw [hconns] at hmem
    exact List.mem_map.1 hmem
  refine ⟨?_, ?_, ?_, ?_, ?_, ?_, ?_, ?_, ?_⟩
  · rw [hmap]
    exact h.mapDistinct
  · have hnodup : (s.connections.map fun e => (ownerOf e).1).Nodup := h.connDistinct
    rw [← hkeys fun x => x.1] at hnodup
    exact hnodup
  · have hnodup : (s.connections.map fun e => (ownerOf e).2.1.ident).Nodup := h.ownerDistinct
    rw [← hkeys fun x => x.2.1.ident] at hnodup
    exact hnodup
  · rw [hmap]
    exact fun e he => (h.mapBound e he).trans_le hfresh
  · intro e' he'
    obtain ⟨e, he, howner⟩ := hold he'
    have hcreated : e.2.createdFor = e'.2.createdFor := congrArg (fun x => x.2.1) howner
    rw [← hcreated]
    exact (h.ownerBound e he).trans_le hfresh
  · intro e' he'
    obtain ⟨e, he, howner⟩ := hold he'
    have hfst : e.1 = e'.1 := congrArg (fun x : ConnId × NodePtr × List ℕ => x.1) howner
    rw [← hfst, hnext]
    exact h.connBound e he
  · rw [hmap]
    intro e he
    obtain ⟨c, hc, hcreated⟩ := h.conn e he
    have hmem := List.mem_map_of_mem (f := ownerOf) hc
    rw [← hconns] at hmem
    obtain ⟨⟨con, c'⟩, hc', howner⟩ := List.mem_map.1 hmem
    have hfst : con = e.2.iedConn := congrArg (fun x : ConnId × NodePtr × List ℕ => x.1) howner
    have hsnd : c'.createdFor = c.createdFor :=
      congrArg (fun x : ConnId × NodePtr × List ℕ => x.2.1) howner
    exact ⟨c', hfst ▸ hc', hsnd.trans hcreated⟩
  · rw [hmap]
    intro k hk hlive
    obtain ⟨e, he, hptr⟩ := h.mapped k hk ((hservers k).live_iff.1 hlive)
    refine ⟨e, he, ?_⟩
    rw [hptr, ptr, ptr, (hservers k).2]
  · exact fun k a hk hlive => (hservers k).live_iff.2 (hchild k a hk hlive)

/-- The connection that was created for a server is the one of its entry. -/
theorem MapInv.owner_iff (h : MapInv s) {k : Str} {e : NodePtr × Server61850} (he : e ∈ s.serverMap)
    (hptr : e.1 = s.ptr [k]) {m : ConnId × Connection} (hm : m ∈ s.connections) :
    m.2.createdFor = s.ptr [k] ↔ m.1 = e.2.iedConn := by
  obtain ⟨c, hc, hcreated⟩ := h.conn e he
  constructor
  · intro howner
    have hkey : ownerKey m = ownerKey (e.2.iedConn, c) := by
      show m.2.createdFor.ident = c.createdFor.ident
      rw [howner, hcreated, hptr]
    have hfind := Keyed.find_of_mem h.ownerDistinct hm
    rw [hkey, Keyed.find_of_mem h.ownerDistinct hc] at hfind
    exact (congrArg Prod.fst (Option.some.inj hfind)).symm
  · intro hcon
    rw [h.conn_unique hm hc hcon, ← hptr]
    exact hcreated

/-! ## Adding and removing servers -/

/-- A handler of some connection has its node below the server with the key `k`. -/
def HandlersBelow (s : LinkState σ W) (k : Str) : Prop :=
  ∃ e ∈ s.connections, ∃ r ∈ e.2.enabledReports, [k] <+: r.callbackParameter.path

theorem sameRcbs_of_touches {t t' : σ} {k k' : Str} (h : Touches t t' [k]) (hne : k' ≠ k) :
    SameRcbs t t' k' :=
  .of_below fun q => .of_eq (touches_child h hne q)

theorem ServerAdded.handlersInv {name host : Str} {port : ℤ}
    (hadd : ServerAdded s s' name host port)
    (h : HandlersInv s) (hnone : ¬ HandlersBelow s (srvKey name)) : HandlersInv s' := by
  apply h.frame
  intro e he
  rw [hadd.connections_eq, List.mem_append, List.mem_singleton] at he
  rcases he with he | rfl
  · refine .inr ⟨e, he, rfl, ?_⟩
    rintro k - ⟨r, hr, hbelow⟩
    apply sameRcbs_of_touches hadd.touches
    rintro rfl
    exact hnone ⟨e, he, r, hr, hbelow⟩
  · exact .inl rfl

theorem sameNode_withoutServer {k k' : Str} {e : NodePtr × Server61850} (hne : k' ≠ k) (q : Path) :
    SameNode s.tree (withoutServer s k e).tree (k' :: q) := by
  apply SameNode.of_eq
  refine ⟨?_, ident_removeTree ..⟩
  exact lookup_removeTree_of_not_below fun hpre => hne (List.cons_prefix_cons.1 hpre).1.symm

/-- The handlers of a removed server go with its connection. -/
theorem withoutServer_handlersInv (hmap : MapInv s) (h : HandlersInv s) {k : Str}
    {e : NodePtr × Server61850}
    (he : e ∈ s.serverMap) (hptr : e.1 = s.ptr [k]) : HandlersInv (withoutServer s k e) := by
  apply h.frame
  intro m hm
  obtain ⟨hmem, hne⟩ := Keyed.mem_erase.1 hm
  refine .inr ⟨m, hmem, rfl, ?_⟩
  intro k' howner _
  apply SameRcbs.of_below
  apply sameNode_withoutServer
  rintro rfl
  exact hne ((hmap.owner_iff he hptr hmem).1 howner)

theorem not_handlersBelow_withoutServer {k : Str} {e : NodePtr × Server61850} (hmap : MapInv s)
    (h : HandlersInv s)
    (he : e ∈ s.serverMap) (hptr : e.1 = s.ptr [k]) : ¬ HandlersBelow (withoutServer s k e) k := by
  rintro ⟨m, hm, r, hr, hbelow⟩
  obtain ⟨k', b, -, -, hat⟩ := (withoutServer_handlersInv hmap h he hptr).owned m hm r hr
  rw [hat.parameter] at hbelow
  obtain rfl : k = k' := (List.cons_prefix_cons.1 hbelow).1
  exact (live_withoutServer.1 hat.folder).1 rfl

/-! ## Clearing -/

theorem removeKeys_frame {node : Path} (keys : List Str) (t : σ) {q : Path}
    (h : ∀ k ∈ keys, ¬ node ++ [k] <+: q) :
    lookup (removeKeys node t keys) q = lookup t q ∧
    ident (removeKeys node t keys) q = ident t q := by
  induction keys generalizing t with
  | nil => exact ⟨rfl, rfl⟩
  | cons k keys ih =>
    obtain ⟨hk, hkeys⟩ := List.forall_mem_cons.1 h
    obtain ⟨hlookup, hident⟩ := ih (removeTree t (node ++ [k])) hkeys
    have hsame := lookup_removeTree_of_not_below (t := t) hk
    exact ⟨hlookup.trans hsame, hident.trans (ident_removeTree ..)⟩

theorem live_of_removeKeys {node : Path} {keys : List Str} {t : σ} {q : Path}
    (h : Live (removeKeys node t keys) q) : Live t q := by
  induction keys generalizing t with
  | nil => exact h
  | cons k keys ih =>
    have hlive : Live (removeTree t (node ++ [k])) q := ih h
    unfold Live at hlive ⊢
    rw [lookup_removeTree] at hlive
    split_ifs at hlive
    · cases hlive
    · exact hlive

theorem fresh_removeKeys {node : Path} (keys : List Str) (t : σ) :
    fresh (removeKeys node t keys) = fresh t := by
  induction keys generalizing t with
  | nil => rfl
  | cons k keys ih => exact (ih (removeTree t (node ++ [k]))).trans (fresh_removeTree ..)

theorem clearServerAction_ok {server : Str} (h : clearServerAction s (clearNode server) = .ok s') :
    ∃ keys, s' = { s with tree := removeKeys [srvKey server] s.tree keys } := by
  obtain ⟨t', ht', h⟩ := bind_eq_ok.1 h
  cases h
  rw [removeAllDataModel, removeLoop_none] at ht'
  split_ifs at ht'
  cases ht'
  exact ⟨_, rfl⟩

theorem clear_mapInv {server : Str} (h : MapInv s)
    (hrun : clearServerAction s (clearNode server) = .ok s') : MapInv s' := by
  obtain ⟨keys, rfl⟩ := clearServerAction_ok hrun
  refine h.frame rfl rfl rfl (fresh_removeKeys keys s.tree).ge ?_ ?_
  · intro k
    apply SameNode.of_eq
    apply removeKeys_frame
    intro a _ hpre
    have := hpre.length_le
    simp at this
  · exact fun k a hk hlive => h.rooted k a hk (live_of_removeKeys hlive)

theorem clear_handlersInv {server : Str} (h : HandlersInv s)
    (hnone : ¬ HandlersBelow s (srvKey server))
    (hrun : clearServerAction s (clearNode server) = .ok s') : HandlersInv s' := by
  obtain ⟨keys, rfl⟩ := clearServerAction_ok hrun
  apply h.frame
  intro e he
  refine .inr ⟨e, he, rfl, ?_⟩
  rintro k - ⟨r, hr, hbelow⟩
  apply SameRcbs.of_below
  intro q
  apply SameNode.of_eq
  apply removeKeys_frame
  intro a _ hpre
  obtain rfl : srvKey server = k := (List.cons_prefix_cons.1 hpre).1
  exact hnone ⟨e, he, r, hr, hbelow⟩

/-! ## Reports -/

theorem SameNode.trans {t t' t'' : σ} {p : Path} (h : SameNode t t' p) (h' : SameNode t' t'' p) :
    SameNode t t'' p :=
  ⟨h'.1.trans h.1, h'.2.trans h.2⟩

/-- Every node keeps its address and the RCB that it is for. -/
structure SameNodes (t t' : σ) : Prop where
  node : ∀ p, SameNode t t' p
  fresh_eq : fresh t' = fresh t

theorem SameNodes.refl (t : σ) : SameNodes t t := ⟨fun _ => ⟨rfl, rfl⟩, rfl⟩

theorem SameNodes.trans {t t' t'' : σ} (h : SameNodes t t') (h' : SameNodes t' t'') :
    SameNodes t t'' :=
  ⟨fun p => (h.node p).trans (h'.node p), h'.fresh_eq.trans h.fresh_eq⟩

theorem sameNodes_setValue (t : σ) (p : Path) (v : Option Json) : SameNodes t (setValue t p v) := by
  refine ⟨fun q => ⟨?_, ident_modify ..⟩, fresh_modify ..⟩
  rw [lookup_setValue]
  split_ifs with hq
  · rw [hq, Option.map_map]
    rfl
  · rfl

/-- The nodes stay, and so do the handlers up to their values. -/
structure KeepsNodes (s s' : LinkState σ W) : Prop where
  tree : SameNodes s.tree s'.tree
  serverMap_eq : s'.serverMap = s.serverMap
  connections_eq : s'.connections.map connKey = s.connections.map connKey
  owners_eq : s'.connections.map ownerOf = s.connections.map ownerOf
  nextConn_eq : s'.nextConn = s.nextConn

theorem KeepsNodes.refl (s : LinkState σ W) : KeepsNodes s s := ⟨.refl _, rfl, rfl, rfl, rfl⟩

theorem publishMembers_sameNodes {rcbNode : Path} {report : ClientReport} {t t' : σ}
    {refs : List Str} (hrun : publishMembers rcbNode report t refs = .ok t') : SameNodes t t' := by
  refine foldlM_invariant (I := fun t' => SameNodes t t') ?_ hrun (.refl t)
  intro m _ t₁ t₂ h hstep
  rcases publishMember_sets hstep with rfl | ⟨daNode, v, -, rfl⟩
  · exact h
  · exact h.trans (sameNodes_setValue ..)

theorem handleReport_keeps (hconn : Keyed.Distinct Prod.fst s.connections) {con : ConnId}
    {message : ReportMessage}
    (h : handleReport s con message = .ok s') : KeepsNodes s s' ∧ s'.world = s.world := by
  unfold handleReport at h
  cases hfind : Keyed.find Prod.fst con s.connections with
  | none =>
    rw [hfind] at h
    cases h
    exact ⟨.refl s, rfl⟩
  | some e =>
    rw [hfind] at h
    obtain ⟨found, hdispatch, h⟩ := bind_eq_ok.1 h
    cases found with
    | none =>
      cases h
      exact ⟨.refl s, rfl⟩
    | some found =>
      obtain ⟨report, reports⟩ := found
      obtain ⟨t', refs, hpublish, rfl⟩ := reportCallbackFunction_ok h
      let f (c : Connection) : Connection := { c with enabledReports := reports }
      have howners := map_ownerOf_modifyConnection s con (f := f) fun x => ⟨rfl, rfl⟩
      refine ⟨⟨publishMembers_sameNodes hpublish, rfl, ?_, howners, rfl⟩, rfl⟩
      show (s.modifyConnection con f).connections.map connKey = _
      rw [modifyConnection, List.map_map]
      apply List.map_congr_left
      intro e' he'
      show connKey (if e'.1 = con then (e'.1, f e'.2) else e') = connKey e'
      split_ifs with hcon
      · obtain rfl : e' = e := by
          have hself := Keyed.find_of_mem hconn he'
          rw [hcon, hfind] at hself
          exact (Option.some.inj hself).symm
        unfold connKey
        rw [(dispatchReport_keys hdispatch).2]
      · rfl

theorem KeepsNodes.mapInv (hkeep : KeepsNodes s s') (h : MapInv s) : MapInv s' := by
  refine h.frame hkeep.serverMap_eq hkeep.owners_eq hkeep.nextConn_eq hkeep.tree.fresh_eq.ge ?_ ?_
  · exact fun k => hkeep.tree.node [k]
  · exact fun k a hk hlive => h.rooted k a hk ((hkeep.tree.node [k, a]).live_iff.1 hlive)

theorem KeepsNodes.handlersInv (hkeep : KeepsNodes s s') (h : HandlersInv s) : HandlersInv s' := by
  apply h.frame
  intro e' he'
  have hmem := List.mem_map_of_mem (f := connKey) he'
  rw [hkeep.connections_eq] at hmem
  obtain ⟨e, he, hkey⟩ := List.mem_map.1 hmem
  exact .inr ⟨e, he, hkey, fun k _ _ => .of_below fun q => hkeep.tree.node (k :: q)⟩

/-! ## Discovering -/

/-- The logical nodes of the server list an RCB with this reference in worlds that the
discovery can lead to. -/
def ListedReport (svc : IedService W) (con : ConnId) (w : W) (b : Bool) (ref : Str) : Prop :=
  ListsReport svc con (Reads svc con w) b ref

/-- RCBs that the server lists have nodes with different keys. -/
def KeysApart (svc : IedService W) (con : ConnId) (w : W) : Prop :=
  ∀ b ref ref', ListedReport svc con w b ref → ListedReport svc con w b ref' →
    rcbNodeKey b ref = rcbNodeKey b ref' → ref = ref'

section Discovery

variable {con : ConnId} {srv : Str} {w : W}

/-- What every round of the discovery of `srv` over `con` keeps, begun in the world `w`. -/
structure DiscoveryInv (svc : IedService W) (con : ConnId) (srv : Str) (w : W)
    (s : LinkState σ W) : Prop where
  handlers : HandlersInv s
  world : Reads svc con w s.world
  own : ∀ e ∈ s.connections, e.2.createdFor = s.ptr [srv] ↔ e.1 = con
  listed : ∀ e ∈ s.connections, e.1 = con → ∀ r ∈ e.2.enabledReports, ∃ b, HandlerAt s srv b r ∧
    ListedReport svc con w b r.rcbReference

theorem ptr_srv_injective {k k' : Str} (h : s.ptr [k] = s.ptr [k']) : k = k' :=
  (List.cons.inj (congrArg NodePtr.path h)).1

theorem sameNode_of_changesOnlyBelow {t t' : σ} (h : ChangesOnlyBelow t t' [srv]) {k : Str}
    (hne : k ≠ srv) (q : Path) : SameNode t t' (k :: q) := by
  have hpre : ¬ [srv] <+: k :: q := fun hpre => hne (List.cons_prefix_cons.1 hpre).1.symm
  exact .of_eq ⟨h.frame _ hpre, h.ident_frame _ hpre⟩

theorem QuietRound.sameRcbs (h : QuietRound svc con srv s s') (k : Str) :
    SameRcbs s.tree s'.tree k := by
  by_cases hk : k = srv
  · subst hk
    exact ⟨.of_eq ⟨h.below.root, h.below.ident_root⟩, fun b q => .of_eq (h.rcbs b q)⟩
  · exact .of_below (sameNode_of_changesOnlyBelow h.below hk)

theorem DiscoveryInv.quiet (h : DiscoveryInv svc con srv w s)
    (hquiet : QuietRound svc con srv s s') : DiscoveryInv svc con srv w s' := by
  have hconns := hquiet.step.connections_eq
  have hptr : s'.ptr [srv] = s.ptr [srv] := by rw [ptr, ptr, hquiet.below.ident_root]
  refine ⟨?_, hquiet.world _ (readsKeep_reads svc con w) h.world, ?_, ?_⟩
  · apply h.handlers.frame
    rw [hconns]
    exact fun e he => .inr ⟨e, he, rfl, fun k _ _ => hquiet.sameRcbs k⟩
  · rw [hconns, hptr]
    exact h.own
  · rw [hconns]
    intro e he hcon r hr
    obtain ⟨b, hat, hlisted⟩ := h.listed e he hcon r hr
    have hsame := hquiet.sameRcbs srv
    exact ⟨b, hat.frame rfl (hsame.nodes b []) (hsame.nodes b [_]), hlisted⟩

/-- Installing a handler again takes the old one out. -/
theorem eraseP_reference {reports : List ClientReport}
    (h : Keyed.Distinct ClientReport.rcbReference reports) (ref : Str) :
    reports.eraseP (fun report => report.rcbReference == ref) =
      Keyed.erase ClientReport.rcbReference ref reports := by
  induction reports with
  | nil => rfl
  | cons r reports ih =>
    obtain ⟨hne, hdistinct⟩ := Keyed.distinct_cons.1 h
    rw [Keyed.erase_cons]
    by_cases hr : r.rcbReference = ref
    · rw [List.eraseP_cons_of_pos (by simpa using hr), if_pos hr, Keyed.erase_of_not_mem]
      exact fun r' hr' => hr ▸ hne r' hr'
    · rw [List.eraseP_cons_of_neg (by simpa using hr), if_neg hr, ih hdistinct]

/-- The handlers after one was installed. -/
theorem mem_installReportHandler {c : Connection}
    (h : Keyed.Distinct ClientReport.rcbReference c.enabledReports)
    {ref : Str} {rptId : Option Str} {n : NodePtr} {r : ClientReport} :
    r ∈ (c.installReportHandler ref rptId n).enabledReports ↔
      (r ∈ c.enabledReports ∧ r.rcbReference ≠ ref) ∨ r = ⟨n, ref, rptId, none, []⟩ := by
  unfold Connection.installReportHandler
  rw [List.mem_append, eraseP_reference h, Keyed.mem_erase, List.mem_singleton]

theorem distinct_installReportHandler {c : Connection}
    (h : Keyed.Distinct ClientReport.rcbReference c.enabledReports) (ref : Str) (rptId : Option Str)
    (n : NodePtr) :
    Keyed.Distinct ClientReport.rcbReference
      (c.installReportHandler ref rptId n).enabledReports := by
  unfold Connection.installReportHandler
  rw [eraseP_reference h]
  exact Keyed.distinct_append_new (Keyed.nodup_erase h) fun r hr => (Keyed.mem_erase.1 hr).2

omit [DSLink σ] in
theorem mem_modifyConnection {f : Connection → Connection} {e' : ConnId × Connection}
    (h : e' ∈ (s.modifyConnection con f).connections) :
    ∃ e ∈ s.connections, e'.1 = e.1 ∧ e'.2 = if e.1 = con then f e.2 else e.2 := by
  obtain ⟨e, he, rfl⟩ := List.mem_map.1 h
  refine ⟨e, he, ?_⟩
  split_ifs
  · exact ⟨rfl, rfl⟩
  · exact ⟨rfl, rfl⟩

section Report

variable {b : Bool} {ref : Str} {rcb : ClientReportControlBlock} {children : List RcbChild}

/-- The node of another RCB stays when the node of an RCB is created. -/
theorem RcbCreated.sameNode (h : RcbCreated s s' con [srv, rcbFolderKey b] b ref rcb children)
    {q : Path} (hq : ¬ rcbPath srv b ref <+: q) : SameNode s.tree s'.tree q :=
  .of_eq ⟨h.grafts.touches.frame q hq, h.grafts.touches.ident_frame q hq⟩

theorem RcbCreated.sameFolder (h : RcbCreated s s' con [srv, rcbFolderKey b] b ref rcb children)
    (b' : Bool) : SameNode s.tree s'.tree [srv, rcbFolderKey b'] :=
  h.sameNode fun hpre => absurd hpre.length_le (by simp [rcbPath])

/-- The node that is created. -/
theorem RcbCreated.isRcbNode (h : RcbCreated s s' con [srv, rcbFolderKey b] b ref rcb children) :
    IsRcbNode s'.tree (rcbPath srv b ref) rcb.objectReference := by
  have hsub := congrFun h.grafts.sub_eq []
  rw [rcbTree_nil, sub_nil] at hsub
  have hroot : lookup s'.tree (rcbPath srv b ref) =
      some { namedNode ref with data := .rcb rcb } := hsub
  rw [IsRcbNode, hroot]
  rfl

theorem RcbCreated.handlerAt (h : RcbCreated s s' con [srv, rcbFolderKey b] b ref rcb children)
    (hrcb : rcb.objectReference = ref) (hfolder : Live s.tree [srv, rcbFolderKey b])
    {r : ClientReport} (href : r.rcbReference = ref)
    (hptr : r.callbackParameter = ⟨rcbPath srv b ref, fresh s.tree⟩) : HandlerAt s' srv b r := by
  have hident : ident s'.tree (rcbPath srv b ref) = fresh s.tree := h.ident_eq
  refine ⟨?_, (h.sameFolder b).live_iff.2 hfolder, ?_⟩
  · rw [href, hptr, ptr, hident]
  · have hnode := h.isRcbNode
    rw [hrcb] at hnode
    rw [href]
    exact hnode

/-- The handler of another RCB keeps its node. -/
theorem RcbCreated.other (h : RcbCreated s s' con [srv, rcbFolderKey b] b ref rcb children)
    (hkeys : KeysApart svc con w) (hlisted : ListedReport svc con w b ref) {b' : Bool}
    {r : ClientReport} (hat : HandlerAt s srv b' r) (hr : ListedReport svc con w b' r.rcbReference)
    (hne : r.rcbReference ≠ ref) :
    HandlerAt s' srv b' r := by
  refine hat.frame rfl (h.sameFolder b') (h.sameNode ?_)
  intro hpre
  obtain ⟨rfl, hkey⟩ := rcbPath_prefix hpre
  exact hne (hkeys b r.rcbReference ref hr hlisted hkey.symm)

/-- An RCB is discovered. -/
theorem DiscoveryInv.created (h : DiscoveryInv svc con srv w s)
    (hsrv : hasInit srvKeyInit srv = true)
    (hkeys : KeysApart svc con w) (hlisted : ListedReport svc con w b ref)
    (hfolder : Live s.tree [srv, rcbFolderKey b])
    (hcreated : RcbCreated s s' con [srv, rcbFolderKey b] b ref rcb children)
    (hrcb : rcb.objectReference = ref)
    (hworld : Reads svc con w s'.world) : DiscoveryInv svc con srv w s' := by
  have hptr (k : Str) : s'.ptr [k] = s.ptr [k] := by
    have hsame : SameNode s.tree s'.tree [k] :=
      hcreated.sameNode fun hpre => absurd hpre.length_le (by simp [rcbPath])
    rw [ptr, ptr, hsame.2]
  let f (c : Connection) : Connection :=
    c.installReportHandler ref rcb.getRptId ⟨rcbPath srv b ref, fresh s.tree⟩
  have hconn {e' : ConnId × Connection} (he' : e' ∈ s'.connections) :
      ∃ e ∈ s.connections, e'.1 = e.1 ∧ e'.2 = if e.1 = con then f e.2 else e.2 := by
    rw [hcreated.connections_eq] at he'
    exact mem_modifyConnection he'
  have howner {e : ConnId × Connection} :
      (if e.1 = con then f e.2 else e.2).createdFor = e.2.createdFor := by
    split_ifs
    · rfl
    · rfl
  have hown {e : ConnId × Connection} (he : e ∈ s.connections) (hcon : e.1 = con) {r : ClientReport}
      (hr : r ∈ (f e.2).enabledReports) : ∃ b, HandlerAt s' srv b r ∧
      ListedReport svc con w b r.rcbReference := by
    rcases (mem_installReportHandler (h.handlers.distinct e he)).1 hr with ⟨hold, hne⟩ | rfl
    · obtain ⟨b', hat, hr⟩ := h.listed e he hcon r hold
      exact ⟨b', hcreated.other hkeys hlisted hat hr hne, hr⟩
    · exact ⟨b, hcreated.handlerAt hrcb hfolder rfl rfl, hlisted⟩
  refine ⟨⟨?_, ?_⟩, hworld, ?_, ?_⟩
  · intro e' he'
    obtain ⟨e, he, -, heq⟩ := hconn he'
    rw [heq]
    split_ifs
    · exact distinct_installReportHandler (h.handlers.distinct e he) ref rcb.getRptId _
    · exact h.handlers.distinct e he
  · intro e' he' r hr
    obtain ⟨e, he, -, heq⟩ := hconn he'
    rw [heq] at hr ⊢
    rw [howner]
    by_cases hcon : e.1 = con
    · rw [if_pos hcon] at hr
      obtain ⟨b', hat, -⟩ := hown he hcon hr
      exact ⟨srv, b', hsrv, by rw [hptr]; exact (h.own e he).2 hcon, hat⟩
    · rw [if_neg hcon] at hr
      obtain ⟨k, b', hk, hcreatedFor, hat⟩ := h.handlers.owned e he r hr
      have hne : k ≠ srv := by
        rintro rfl
        exact hcon ((h.own e he).1 hcreatedFor)
      have hsame (q : Path) : SameNode s.tree s'.tree (k :: q) :=
        hcreated.sameNode fun hpre => hne (List.cons_prefix_cons.1 hpre).1.symm
      exact ⟨k, b', hk, by rw [hptr]; exact hcreatedFor, hat.frame rfl (hsame _) (hsame _)⟩
  · intro e' he'
    obtain ⟨e, he, hfst, heq⟩ := hconn he'
    rw [heq, hfst, howner, hptr]
    exact h.own e he
  · intro e' he' hcon r hr
    obtain ⟨e, he, hfst, heq⟩ := hconn he'
    rw [hfst] at hcon
    rw [heq, if_pos hcon] at hr
    exact hown he hcon hr

end Report

omit [DSLink σ] in
/-- A block that is read for the first time. -/
theorem getRCBValues_new {ref : Str} {rcb : ClientReportControlBlock} {s s₁ : LinkState σ W}
    (h : s.getRCBValues svc con ref none = .ok (some rcb, s₁)) :
    ∃ values, (svc.readRCB s.world con ref).1 = some values ∧
      (ClientReportControlBlock.create ref).updateValues values = .ok rcb := by
  unfold getRCBValues at h
  dsimp only [call] at h
  cases hreply : (svc.readRCB s.world con ref).1 with
  | none =>
    rw [hreply] at h
    cases h
  | some values =>
    rw [hreply] at h
    obtain ⟨rcb', hupdate, h⟩ := bind_eq_ok.1 h
    cases h
    exact ⟨values, rfl, hupdate⟩

omit [DSLink σ] in
/-- What is read is for the same RCB. -/
theorem getRCBValues_reference {ref : Str} {old : ClientReportControlBlock}
    {new : Option ClientReportControlBlock}
    {s s₁ : LinkState σ W} (h : s.getRCBValues svc con ref (some old) = .ok (new, s₁)) :
    (new.getD old).objectReference = old.objectReference := by
  unfold getRCBValues at h
  dsimp only at h
  split at h
  · cases h
    rfl
  · obtain ⟨rcb, hupdate, h⟩ := bind_eq_ok.1 h
    cases h
    exact (ClientReportControlBlock.updateValues_ok hupdate).2.2.1

/-- A round for an RCB. -/
theorem DiscoveryInv.report {b created : Bool} {ref : Str} (h : DiscoveryInv svc con srv w s)
    (hsrv : hasInit srvKeyInit srv = true) (hkeys : KeysApart svc con w)
    (hlisted : ListedReport svc con w b ref)
    (hrun : getRCBInfoAndCreateNode svc s [srv] con ref b = .ok (created, s')) :
    DiscoveryInv svc con srv w s' := by
  have hworld : Reads svc con w s'.world := by
    rw [getRCBInfoAndCreateNode_world hrun]
    exact h.world.tail (.readRCB s.world ref)
  rcases getRCBInfoAndCreateNode_ok hrun with
    ⟨-, htree, hstep⟩ | ⟨-, folder, rcb, children, s₁, hfolder, hread, -, hcreated⟩
  · have hptr (p : Path) : s'.ptr p = s.ptr p := by rw [ptr, ptr, htree]
    have hsame (q : Path) : SameNode s.tree s'.tree q := by rw [htree]; exact ⟨rfl, rfl⟩
    refine ⟨h.handlers.congr htree hstep.connections_eq, hworld, ?_, ?_⟩
    · rw [hstep.connections_eq, hptr]
      exact h.own
    · rw [hstep.connections_eq]
      intro e he hcon r hr
      obtain ⟨b', hat, hlisted⟩ := h.listed e he hcon r hr
      exact ⟨b', hat.frame rfl (hsame _) (hsame _), hlisted⟩
  · obtain ⟨rfl, hlive⟩ := rcbFolder_eq hsrv hfolder
    obtain ⟨values, -, hupdate⟩ := getRCBValues_new hread
    have hrcb : rcb.objectReference = ref :=
      (ClientReportControlBlock.updateValues_ok hupdate).2.2.1
    exact h.created hsrv hkeys hlisted hlive hcreated hrcb hworld

/-- The discovery of a server begins with its folders. -/
def withFolders (s : LinkState σ W) (srv : Str) : LinkState σ W :=
  { s with tree := createDatasetReportNodes s.tree [srv] }

theorem ptr_withFolders (s : LinkState σ W) (srv k : Str) :
    (withFolders s srv).ptr [k] = s.ptr [k] := by
  have hfolders : ChangesOnlyBelow s.tree (withFolders s srv).tree [srv] :=
    changesOnlyBelow_folders s.tree
  have hident : ident (withFolders s srv).tree [k] = ident s.tree [k] := by
    by_cases hk : k = srv
    · exact hk ▸ hfolders.ident_root
    · exact (sameNode_of_changesOnlyBelow hfolders hk []).2
  rw [ptr, ptr, hident]

/-- A discovery whose connection has no handlers yet. -/
theorem DiscoveryInv.start (h : HandlersInv s) (hnone : ¬ HandlersBelow s srv)
    (hown : ∀ e ∈ s.connections, e.2.createdFor = s.ptr [srv] ↔ e.1 = con) :
    DiscoveryInv svc con srv s.world (withFolders s srv) := by
  have hfolders : ChangesOnlyBelow s.tree (withFolders s srv).tree [srv] :=
    changesOnlyBelow_folders s.tree
  refine ⟨?_, .refl, ?_, ?_⟩
  · apply h.frame
    intro e he
    refine .inr ⟨e, he, rfl, ?_⟩
    rintro k - ⟨r, hr, hbelow⟩
    apply SameRcbs.of_below
    apply sameNode_of_changesOnlyBelow hfolders
    rintro rfl
    exact hnone ⟨e, he, r, hr, hbelow⟩
  · rw [ptr_withFolders]
    exact hown
  · intro e he hcon r hr
    obtain ⟨k, b, -, hcreated, hat⟩ := h.owned e he r hr
    obtain rfl : k = srv := ptr_srv_injective (hcreated.symm.trans ((hown e he).2 hcon))
    refine absurd ⟨e, he, r, hr, ?_⟩ hnone
    rw [hat.parameter]
    exact List.prefix_append [k] [rcbFolderKey b, rcbNodeKey b r.rcbReference]

theorem discover61850Server_handlersInv (h : HandlersInv s) (hsrv : hasInit srvKeyInit srv = true)
    (hnone : ¬ HandlersBelow s srv)
    (hown : ∀ e ∈ s.connections, e.2.createdFor = s.ptr [srv] ↔ e.1 = con)
    (hkeys : KeysApart svc con s.world) (hrun : discover61850Server svc s [srv] con = .ok s') :
    HandlersInv s' := by
  have hend : DiscoveryInv svc con srv s.world s' :=
    discover61850Server_rounds hsrv (fun _ hI => hI.world) (fun _ _ hquiet hI => hI.quiet hquiet)
      (fun _ _ _ _ _ hlisted hround hI => hI.report hsrv hkeys hlisted hround) hrun
        (.start h hnone hown)
  exact hend.handlers

end Discovery

/-! ## Requests -/

/-- The request does not free the node of a handler: no server is put over one with
handlers, by Add or by an Edit that is not refused, none with handlers is cleared, and the
RCBs that a discovery finds have nodes with different keys. -/
def SparesHandlers (svc : IedService W) (s : LinkState σ W) : LinkRequest → Prop
  | .server (.add name _ port) =>
    intValue (some (.integer port)) ≠ 0 → ¬ HandlersBelow s (srvKey name)
  | .server (.edit server name host port) => Invokes s.tree (editNode server) .editServerAction →
      name ≠ [] → host ≠ [] → intValue (some (.integer port)) ≠ 0 →
        name = server ∨ ¬ HandlersBelow s (srvKey name)
  | .server (.remove _) => True
  | .discover server => Invokes s.tree (discoverNode server) .discoverAction →
      isDiscovered s.tree [srvKey server] = false →
      ∀ entry, s.mapGet (s.ptr [srvKey server]) = some entry →
        KeysApart svc entry.iedConn s.world
  | .clear server =>
    Invokes s.tree (clearNode server) .clearServerAction → ¬ HandlersBelow s (srvKey server)
  | .report _ _ => True

theorem HandlersBelow.of_withoutServer {k k' : Str} {e : NodePtr × Server61850}
    (h : HandlersBelow (withoutServer s k e) k') : HandlersBelow s k' := by
  obtain ⟨m, hm, hbelow⟩ := h
  exact ⟨m, (Keyed.mem_erase.1 hm).1, hbelow⟩

theorem serverStep_handlersInv (hmap : MapInv s) (h : HandlersInv s) {r : ServerRequest}
    (hspares : SparesHandlers svc s (.server r)) (hs : serverStep svc s r = .ok s') :
    HandlersInv s' := by
  cases r with
  | add name host port =>
    rw [serverStep, invokeAddServer_eq] at hs
    split_ifs at hs with hport
    · exact (responderInitClient_ok hs).2.handlersInv h (hspares hport)
    · cases hs
      exact h
  | edit server name host port =>
    rw [serverStep] at hs
    split_ifs at hs with hinv
    · obtain ⟨hlive, e, he, hptr⟩ := hmap.entry_of_invokes hinv
      rcases editServerAction_eq svc hmap name host port hlive he hptr with
        ⟨-, hrun⟩ | ⟨-, hrun⟩ | ⟨⟨hname, hhost, hport⟩, -, hrun⟩
      · cases hrun.symm.trans hs
        exact h
      · cases hrun.symm.trans hs
        exact h.congr rfl rfl
      · rw [hrun] at hs
        refine (responderInitClient_ok hs).2.handlersInv
          (withoutServer_handlersInv hmap h he hptr) ?_
        rcases hspares hinv hname hhost hport with rfl | hnone
        · exact not_handlersBelow_withoutServer hmap h he hptr
        · exact fun hbelow => hnone hbelow.of_withoutServer
    · cases hs
      exact h
  | remove server =>
    rw [serverStep] at hs
    split_ifs at hs with hinv
    · obtain ⟨hlive, e, he, hptr⟩ := hmap.entry_of_invokes hinv
      rw [removeServerAction_eq hmap hlive he hptr] at hs
      cases hs
      exact withoutServer_handlersInv hmap h he hptr
    · cases hs
      exact h

/-- A server that is not discovered has no handlers. -/
theorem HandlersInv.none_below (h : HandlersInv s) {server : Str}
    (hnot : isDiscovered s.tree [srvKey server] = false) : ¬ HandlersBelow s (srvKey server) := by
  rintro ⟨e, he, r, hr, hbelow⟩
  obtain ⟨k, b, -, -, hat⟩ := h.owned e he r hr
  rw [hat.parameter] at hbelow
  obtain rfl : srvKey server = k := (List.cons_prefix_cons.1 hbelow).1
  have hfolder : hasInit ndlKeyInit (rcbFolderKey b) = false := by cases b <;> decide
  rw [isDiscovered_of_child hat.folder hfolder] at hnot
  cases hnot

/-- Discover does nothing, or discovers the server over the connection of its entry. -/
theorem discoverAction_cases (hmap : MapInv s) {server : Str}
    (hinv : Invokes s.tree (discoverNode server) .discoverAction)
    (hrun : discoverAction svc s (discoverNode server) = .ok s') :
    s' = s ∨ (isDiscovered s.tree [srvKey server] = false ∧ ∃ entry,
      s.mapGet (s.ptr [srvKey server]) = some entry ∧
      (∀ m ∈ s.connections, m.2.createdFor = s.ptr [srvKey server] ↔ m.1 = entry.iedConn) ∧
      discover61850Server svc s [srvKey server] entry.iedConn = .ok s') := by
  have hnode : (discoverNode server).dropLast = [srvKey server] := rfl
  unfold discoverAction at hrun
  rw [hnode] at hrun
  split_ifs at hrun with hdiscovered
  · cases hrun
    exact .inl rfl
  · obtain ⟨-, e, he, hptr⟩ := hmap.entry_of_invokes hinv
    have hget := hmap.mapGet_eq he hptr
    rw [hget, deref, ok_bind] at hrun
    exact .inr ⟨by simpa using hdiscovered, e.2, hget, fun m hm => hmap.owner_iff he hptr hm, hrun⟩

theorem discoverAction_mapInv (hmap : MapInv s) {server : Str}
    (hinv : Invokes s.tree (discoverNode server) .discoverAction)
    (hrun : discoverAction svc s (discoverNode server) = .ok s') : MapInv s' := by
  obtain ⟨hlive, -⟩ := hmap.entry_of_invokes hinv
  rcases discoverAction_cases hmap hinv hrun with rfl | ⟨-, entry, -, -, hdiscover⟩
  · exact hmap
  · have hkeeps := discover61850Server_keeps (hasInit_srvKey server) hdiscover
    apply hmap.frame hkeeps.serverMap_eq hkeeps.connections_eq hkeeps.nextConn_eq
      hkeeps.below.fresh_le
    · intro k
      by_cases hk : k = srvKey server
      · subst hk
        exact .of_eq ⟨hkeeps.below.root, hkeeps.below.ident_root⟩
      · exact sameNode_of_changesOnlyBelow hkeeps.below hk []
    · intro k a hk hchild
      by_cases hserver : k = srvKey server
      · exact hserver ▸ hlive
      · exact hmap.rooted k a hk
          ((sameNode_of_changesOnlyBelow hkeeps.below hserver [a]).live_iff.1 hchild)

theorem discoverAction_handlersInv (hmap : MapInv s) (h : HandlersInv s) {server : Str}
    (hinv : Invokes s.tree (discoverNode server) .discoverAction)
    (hspares : SparesHandlers svc s (.discover server))
    (hrun : discoverAction svc s (discoverNode server) = .ok s') : HandlersInv s' := by
  rcases discoverAction_cases hmap hinv hrun with rfl | ⟨hnot, entry, hget, hown, hdiscover⟩
  · exact h
  · exact discover61850Server_handlersInv h (hasInit_srvKey server) (h.none_below hnot) hown
      (hspares hinv hnot entry hget) hdiscover

theorem linkStep_handlersInv (hmap : MapInv s) (h : HandlersInv s) {r : LinkRequest}
    (hspares : SparesHandlers svc s r)
    (hs : linkStep svc s r = .ok s') : MapInv s' ∧ HandlersInv s' := by
  cases r with
  | server r => exact ⟨serverStep_mapInv hmap hs, serverStep_handlersInv hmap h hspares hs⟩
  | discover server =>
    rw [linkStep] at hs
    split_ifs at hs with hinv
    · exact ⟨discoverAction_mapInv hmap hinv hs, discoverAction_handlersInv hmap h hinv hspares hs⟩
    · cases hs
      exact ⟨hmap, h⟩
  | clear server =>
    rw [linkStep] at hs
    split_ifs at hs with hinv
    · exact ⟨clear_mapInv hmap hs, clear_handlersInv h (hspares hinv) hs⟩
    · cases hs
      exact ⟨hmap, h⟩
  | report con message =>
    have hkeeps := (handleReport_keeps hmap.connDistinct hs).1
    exact ⟨hkeeps.mapInv hmap, hkeeps.handlersInv h⟩

/-! ## Runs -/

theorem NoServers.handlersInv (h : NoServers s) : HandlersInv s :=
  ⟨by simp [h.connections_eq], by simp [h.connections_eq]⟩

/-- **Handlers.** In a run whose requests spare the nodes of the handlers, every handler
points to an RCB node of the tree before and after every request. -/
theorem handlers_live_run (h : NoServers s) {run : List LinkRequest}
    (hspares : Along (linkStep svc) (SparesHandlers svc) s run) :
    Along (linkStep svc)
      (fun s r => HandlersLive s ∧ ∀ s', linkStep svc s r = .ok s' → HandlersLive s') s run := by
  apply along_invariant (J := fun s => MapInv s ∧ HandlersInv s) ?_ ?_
    ⟨h.mapInv, h.handlersInv⟩ hspares
  · exact fun s r s' hJ hr hs => linkStep_handlersInv hJ.1 hJ.2 hr hs
  · exact fun s r hJ hr => ⟨hJ.2.live, fun s' hs => (linkStep_handlersInv hJ.1 hJ.2 hr hs).2.live⟩

/-! ## A server with one RCB -/

/-- A device with one logical node, whose RCB can be read. -/
def oneRcbService : IedService Unit :=
  { IedService.silent Unit with
    getLogicalDeviceList := fun w _ => (some ["D".toList], w)
    getLogicalDeviceDirectory := fun w _ _ => (some ["N".toList], w)
    getLogicalNodeDirectory := fun w _ ref c =>
      (some (if ref = "D/N".toList ∧ c = .urcb then ["r".toList] else []), w)
    readRCB := fun w _ _ => (some
      [.visibleString (some "id".toList), .boolean true, .boolean false,
        .visibleString (some "D/N$ds".toList), .unsigned { octets := [1], maxSize := 8 },
        .bitString (MmsValue.bitsOf 10 0), .unsigned { octets := [0], maxSize := 8 },
        .unsigned { octets := [0], maxSize := 8 }, .bitString (MmsValue.bitsOf 6 0),
        .unsigned { octets := [0], maxSize := 8 }, .boolean false], w) }

/-- The link after the server was discovered. -/
def rcbLink : LinkState NodeStore Unit :=
  match linkStep oneRcbService oneServer (.discover "a".toList) with
  | .ok s => s
  | .error _ => oneServer

/-- The link after the server was cleared. -/
def clearedLink : LinkState NodeStore Unit :=
  match linkStep oneRcbService rcbLink (.clear "a".toList) with
  | .ok s => s
  | .error _ => rcbLink

/-- There is one RCB in the lists of the server. -/
theorem keysApart_oneRcb (con : ConnId) (w : Unit) : KeysApart oneRcbService con w := by
  have hone {b : Bool} {ref : Str} (h : ListedReport oneRcbService con w b ref) :
      ref = rcbRefOf b "D/N".toList "r".toList := by
    obtain ⟨lnRef, -, _, names, name, -, hreply, hname, rfl⟩ := h
    cases hreply
    split_ifs at hname with hln
    · rw [hln.1, List.mem_singleton.1 hname]
    · cases hname
  intro b ref ref' href href' _
  rw [hone href, hone href']

/-- A report for the RCB. -/
def rcbMessage : ReportMessage :=
  { rptId := "id".toList, inclusion := [], values := [], reasons := none }

theorem handlers_live_run_remove :
    Along (linkStep oneRcbService)
      (fun s r => HandlersLive s ∧ ∀ s', linkStep oneRcbService s r = .ok s' →
        HandlersLive s') bareLink
      (addAndDiscover ++ [.report 0 rcbMessage, .server (.remove "a".toList)]) := by
  apply handlers_live_run noServers_bareLink
  refine ⟨?_, fun _ _ => ⟨?_, fun _ _ => ⟨trivial, fun _ _ => ⟨trivial, fun _ _ => trivial⟩⟩⟩⟩
  · rintro - ⟨e, he, -⟩
    cases he
  · exact fun _ _ entry _ => keysApart_oneRcb entry.iedConn _

/-- Clearing the server leaves the handler with the node that it freed. -/
theorem clear_leaves_handler :
    ¬ Along (linkStep oneRcbService)
      (fun s r => HandlersLive s ∧ ∀ s', linkStep oneRcbService s r = .ok s' →
        HandlersLive s') bareLink
      (addAndDiscover ++ [.clear "a".toList, .report 0 rcbMessage]) := by
  rintro ⟨-, hadded⟩
  obtain ⟨-, hdiscovered⟩ := hadded oneServer rfl
  obtain ⟨⟨-, hcleared⟩, -⟩ := hdiscovered rcbLink rfl
  have hlive := hcleared clearedLink rfl
  have hvalid : ∀ e ∈ clearedLink.connections, ∀ r ∈ e.2.enabledReports,
      clearedLink.Valid r.callbackParameter :=
    fun e he r hr => (hlive.installed e he r hr).1
  exact absurd hvalid (by decide +kernel)

-- the report is delivered with the freed node
example : linkStep oneRcbService clearedLink (.report 0 rcbMessage) = .error .useAfterFree := rfl

end DslinkIec61850
