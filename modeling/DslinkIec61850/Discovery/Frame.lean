import DslinkIec61850.Discovery.Tree

/-!
# What a discovery leaves

A discovery of a server changes the nodes below the server node and the report
handlers; the server node, the other servers, `serverMap` and the connections
with their owners are as they were.

* `discover61850Server_keeps`: this holds of every discovery that ends.
-/

namespace DslinkIec61850

open DSLink LinkState Run

variable {σ W : Type} [DSLink σ] {svc : IedService W} {con : ConnId} {srv : Str}

/-- Something happens to nodes below `p`. -/
abbrev ChangesOnlyBelow (t t' : σ) (p : Path) : Prop := ChangesBelow (fun _ => False) t t' p

theorem Touches.changesOnlyBelow {t t' : σ} {p r : Path} (h : Touches t t' (p ++ r)) (hr : r ≠ []) :
    ChangesOnlyBelow t t' p := ChangesBelow.of_grafts h hr fun _ _ _ => id

theorem ChangesBelow.onlyBelow {Q : DSNode → Prop} {t t' : σ} {p r : Path}
    (h : ChangesBelow Q t t' (p ++ r)) (hr : r ≠ []) : ChangesOnlyBelow t t' p where
  frame q hq := h.frame q fun hpre => hq ((List.prefix_append p r).trans hpre)
  ident_frame q hq := h.ident_frame q fun hpre => hq ((List.prefix_append p r).trans hpre)
  root := h.frame p fun hpre => hr (by simpa using hpre.length_le)
  ident_root := h.ident_frame p fun hpre => hr (by simpa using hpre.length_le)
  fresh_le := h.fresh_le
  noNew _ _ _ := False.elim

/-- A connection without its report handlers. -/
def ownerOf (e : ConnId × Connection) : ConnId × NodePtr × List ℕ :=
  (e.1, e.2.createdFor, e.2.clientControls)

/-- Nothing but the nodes below the server node, the report handlers and the
outside world changes. -/
structure DiscoveryKeeps (srv : Str) (s s' : LinkState σ W) : Prop where
  below : ChangesOnlyBelow s.tree s'.tree [srv]
  serverMap_eq : s'.serverMap = s.serverMap
  connections_eq : s'.connections.map ownerOf = s.connections.map ownerOf
  nextConn_eq : s'.nextConn = s.nextConn
  requests_eq : s'.requests = s.requests

namespace DiscoveryKeeps

variable {s s' s'' : LinkState σ W}

theorem trans (h : DiscoveryKeeps srv s s') (h' : DiscoveryKeeps srv s' s'') :
    DiscoveryKeeps srv s s'' :=
  ⟨h.below.trans h'.below, h'.serverMap_eq.trans h.serverMap_eq,
    h'.connections_eq.trans h.connections_eq, h'.nextConn_eq.trans h.nextConn_eq,
    h'.requests_eq.trans h.requests_eq⟩

theorem of_treeStep (hbelow : ChangesOnlyBelow s.tree s'.tree [srv]) (hstep : TreeStep s s') :
    DiscoveryKeeps srv s s' :=
  ⟨hbelow, hstep.serverMap_eq, by rw [hstep.connections_eq], hstep.nextConn_eq, hstep.requests_eq⟩

/-- The server has the connection that it had. -/
theorem getServerIedConnection_eq (h : DiscoveryKeeps srv s s') (q : Path) :
    s'.getServerIedConnection (srv :: q) = s.getServerIedConnection (srv :: q) := by
  have hptr : s'.ptr [srv] = s.ptr [srv] := by rw [ptr, ptr, h.below.ident_root]
  unfold getServerIedConnection getServerNode mapGet
  dsimp only
  split_ifs
  · simp only [hptr, h.serverMap_eq]
  · rfl

theorem connections_live (h : DiscoveryKeeps srv s s') :
    s'.connections.map Prod.fst = s.connections.map Prod.fst := by
  have hfst (l : List (ConnId × Connection)) : l.map Prod.fst = (l.map ownerOf).map Prod.fst := by
    rw [List.map_map]
    rfl
  rw [hfst, hfst, h.connections_eq]

end DiscoveryKeeps

omit [DSLink σ] in
theorem map_ownerOf_modifyConnection (s : LinkState σ W) (c : ConnId) {f : Connection → Connection}
    (hf : ∀ x, (f x).createdFor = x.createdFor ∧ (f x).clientControls = x.clientControls) :
    (s.modifyConnection c f).connections.map ownerOf = s.connections.map ownerOf := by
  simp only [modifyConnection, List.map_map]
  apply List.map_congr_left
  intro e _
  simp only [Function.comp_apply, ownerOf]
  split_ifs
  · rw [(hf e.2).1, (hf e.2).2]
  · rfl

theorem RcbCreated.keeps {s s' : LinkState σ W} {isBuffered : Bool} {ref : Str}
    {rcb : ClientReportControlBlock} {children : List RcbChild}
    (h : RcbCreated s s' con [srv, rcbFolderKey isBuffered] isBuffered ref rcb children) :
    DiscoveryKeeps srv s s' where
  below := Touches.changesOnlyBelow (p := [srv])
    (r := [rcbFolderKey isBuffered, rcbNodeKey isBuffered ref]) h.grafts.touches (by simp)
  serverMap_eq := h.serverMap_eq
  connections_eq := by
    rw [h.connections_eq]
    exact map_ownerOf_modifyConnection s con fun x => ⟨rfl, rfl⟩
  nextConn_eq := h.nextConn_eq
  requests_eq := h.requests_eq

theorem DiscoveryStep.keeps (hsrv : hasInit srvKeyInit srv = true) {s s' : LinkState σ W}
    (hstep : DiscoveryStep svc con srv s s') : DiscoveryKeeps srv s s' := by
  cases hstep with
  | device ld _ htree heq =>
    refine .of_treeStep ?_ htree
    rw [heq]
    exact (grafts_addChild_child s.tree [srv] (ldKey ld) (folderNode ld)).touches.changesOnlyBelow
      (by simp)
  | node ld ln _ htree htouch _ =>
    exact .of_treeStep (Touches.changesOnlyBelow (p := [srv]) (r := [ldKey ld, ln]) htouch
      (by simp)) htree
  | dataSet htree hchange =>
    exact .of_treeStep (ChangesBelow.onlyBelow (p := [srv]) (r := [datasetFolderNodeKey]) hchange
      (by simp)) htree
  | report isBuffered created lnRef name hrun =>
    rcases getRCBInfoAndCreateNode_ok hrun with
      ⟨-, heq, htree⟩ | ⟨-, folder, rcb, cs, s₁, hfolder, -, -, hcreated⟩
    · refine .of_treeStep ?_ htree
      rw [heq]
      exact ChangesBelow.refl _ _
    · rw [(rcbFolder_eq hsrv hfolder).1] at hcreated
      exact hcreated.keeps
  | world htree heq =>
    refine .of_treeStep ?_ htree
    rw [heq]
    exact ChangesBelow.refl _ _

theorem changesOnlyBelow_folders (t : σ) :
    ChangesOnlyBelow t (createDatasetReportNodes t [srv]) [srv] := by
  have hadd (t : σ) (k : Str) (n : DSNode) : ChangesOnlyBelow t (addChild t [srv] k n) [srv] :=
    (grafts_addChild_child t [srv] k n).touches.changesOnlyBelow (by simp)
  have hdesc (t : σ) (k : Str) (n : DSNode) :
      ChangesOnlyBelow t (addChild t ([srv] ++ [datasetPrepFolderNodeKey]) k n) [srv] :=
    (grafts_addChild t ([srv] ++ [datasetPrepFolderNodeKey]) k n).touches.changesOnlyBelow (by simp)
  exact ((((hadd _ _ _).trans (hadd _ _ _)).trans (hdesc _ _ _)).trans (hadd _ _ _)).trans
    (hadd _ _ _)

/-- **What is left.** -/
theorem discover61850Server_keeps (hsrv : hasInit srvKeyInit srv = true) {s s' : LinkState σ W}
    (hrun : discover61850Server svc s [srv] con = .ok s') : DiscoveryKeeps srv s s' := by
  have hsteps := discover61850Server_steps hsrv hrun
  clear hrun
  induction hsteps with
  | refl => exact .of_treeStep (changesOnlyBelow_folders _) (TreeStep.setTree _ _)
  | tail _ hstep ih => exact ih.trans (hstep.keeps hsrv)

end DslinkIec61850
