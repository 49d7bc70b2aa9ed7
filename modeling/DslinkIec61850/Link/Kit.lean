import DslinkIec61850.Link.Isolation

/-!
# What every server node keeps

A server node has five children with `ndl_`, its four actions and its status. They keep
their functions as long as the server is there, nothing comes below them, and everything
else below the server is below one of its folders. So a server that does not count as
discovered has nothing left of an earlier discovery.

* `EquippedInv.step`: the invariant.
* `EquippedInv.undiscovered`: what is left.
-/

namespace DslinkIec61850

open DSLink LinkState Run

variable {σ W : Type} [DSLink σ] {svc : IedService W} {s s' : LinkState σ W} {srv k : Str}

/-! ## The children that every server has -/

/-- The functions of the children of a server that are not cleared. -/
def serverKit : List (Str × Option Callback × Option Callback × Option Callback) :=
  [("ndl_discoverserver".toList, (some .discoverAction, none, none)),
    ("ndl_editserver".toList, (some .editServerAction, none, none)),
    ("ndl_clearserver".toList, (some .clearServerAction, none, none)),
    ("ndl_removeserver".toList, (some .removeServerAction, none, none)),
    ("ndl_connstatus".toList, (none, none, some .serverSubbed))]

/-- The functions at and below such a child. -/
def kitFunctions (a : Str) : Path → Option (Option Callback × Option Callback × Option Callback)
  | [] => (Keyed.find Prod.fst a serverKit).map Prod.snd
  | _ :: _ => none

/-- The server node has these children and its other nodes are below folders. -/
structure Equipped (t : σ) (k : Str) : Prop where
  kit : ∀ a rs, hasInit ndlKeyInit a = true →
    (lookup t (k :: a :: rs)).map DSNode.functions = kitFunctions a rs
  rooted : FolderRooted k t

/-- No other node with these keys is below a server. -/
theorem Equipped.onListOpen_eq {t : σ} (h : Equipped t k) {a : Str} {rs : Path} {n : DSNode}
    (ha : hasInit ndlKeyInit a = true) (hn : lookup t (k :: a :: rs) = some n) :
    n.onListOpen = none := by
  have hkit := h.kit a rs ha
  rw [hn, Option.map_some] at hkit
  cases rs with
  | cons r rs => cases hkit
  | nil =>
    obtain ⟨e, he, heq⟩ := Option.map_eq_some_iff.1 hkit.symm
    have hnone : ∀ e ∈ serverKit, e.2.2.1 = none := by decide
    have hopen : n.functions.2.1 = none := by
      rw [← heq]
      exact hnone e (Keyed.mem_of_find he)
    exact hopen

theorem Equipped.invokes {t : σ} (h : Equipped t k) {a : Str} {f : Callback}
    (ha : hasInit ndlKeyInit a = true) :
    Invokes t [k, a] f ↔ (kitFunctions a []).bind Prod.fst = some f := by
  rw [← h.kit a [] ha, Invokes]
  cases lookup t [k, a] <;> rfl

/-! ## The invariant -/

/-- The invariant of the link, with the children of its servers. -/
structure EquippedInv (s : LinkState σ W) : Prop extends LinkInv s where
  equipped : ∀ k, hasInit srvKeyInit k = true → Live s.tree [k] → Equipped s.tree k

/-- The nodes of a server that are the same. -/
theorem Equipped.congr {t t' : σ} (h : Equipped t k)
    (hsame : ∀ q, lookup t' (k :: q) = lookup t (k :: q)) : Equipped t' k where
  kit a rs ha := by rw [hsame, h.kit a rs ha]
  rooted a rs hlive := by
    rw [Live, hsame] at hlive ⊢
    exact h.rooted a rs hlive

theorem Confined.equipped {d : Bool} {C : ConnId → Prop} {P : Request → Prop}
    (hconf : Confined d srv C P s s') (h : Equipped s.tree k) : Equipped s'.tree k := by
  by_cases hk : k = srv
  · subst hk
    exact ⟨fun a rs ha => (hconf.tree.kept a rs (keptKey_of_ndl ha)).trans (h.kit a rs ha),
      hconf.tree.rooted h.rooted⟩
  · exact h.congr fun q => (hconf.tree.other hk q).1

theorem Equipped.modify {t : σ} (h : Equipped t k) (p : Path) {F : DSNode → DSNode}
    (hF : ∀ n, (F n).functions = n.functions) : Equipped (modify t p F) k where
  kit a rs ha := by
    rw [← h.kit a rs ha, lookup_modify]
    split_ifs with hq
    · rw [hq, Option.map_map]
      congr 1
      exact funext hF
    · rfl
  rooted a rs hlive := (live_modify _).2 (h.rooted a rs ((live_modify _).1 hlive))

theorem kitFunctions_of_mem {name host : Str} {port : ℤ} {c : Str × DSNode}
    (hc : c ∈ serverActions name host port)
    (rs : Path) : (Subtree.leaf c.2 rs).map DSNode.functions = kitFunctions c.1 rs := by
  simp only [serverActions, List.mem_cons, List.not_mem_nil, or_false] at hc
  rcases hc with rfl | rfl | rfl | rfl <;> cases rs <;> rfl

/-- The nodes of a server that was added. -/
theorem lookup_added {name host : Str} {port : ℤ}
    (hs : responderInitClient svc s name host port = .ok s') (a : Str)
    (rs : Path) : (lookup s'.tree (srvKey name :: a :: rs)).map DSNode.functions =
      kitFunctions a rs := by
  obtain ⟨_, -, hs⟩ := bind_eq_ok.1 hs
  obtain ⟨_, -, hs⟩ := bind_eq_ok.1 hs
  cases hs
  let actions := serverActions name host port
  let t₁ := addChildren (addChild s.tree [] (srvKey name) (serverNodeOf name)) [srvKey name] actions
  let t₂ := addChild t₁ [srvKey name] "ndl_connstatus".toList serverStatusNode
  have hsub : sub t₂ [srvKey name] =
      Subtree.set "ndl_connstatus".toList (Subtree.leaf serverStatusNode)
        (withChildren (Subtree.leaf (serverNodeOf name)) actions) := by
    have h₁ : sub t₁ [srvKey name] = _ :=
      (grafts_addChild_addChildren s.tree [] (srvKey name) (serverNodeOf name) actions).sub_eq
    rw [(grafts_addChild t₁ [srvKey name] "ndl_connstatus".toList serverStatusNode).sub_eq, h₁]
  show (sub t₂ [srvKey name] (a :: rs)).map DSNode.functions = _
  rw [hsub]
  by_cases ha : a = "ndl_connstatus".toList
  · rw [ha, Subtree.set_cons_self]
    cases rs <;> rfl
  · rw [Subtree.set_cons_of_ne ha]
    rcases withChildren_cons (Subtree.leaf (serverNodeOf name)) actions a rs with
      ⟨c, hc, rfl, heq⟩ | ⟨hnone, heq⟩
    · rw [heq, kitFunctions_of_mem hc]
    · rw [heq]
      cases rs with
      | cons r rs => rfl
      | nil =>
        have hfind : Keyed.find Prod.fst a serverKit = none := by
          rw [Keyed.find_eq_none]
          intro e he heq
          simp only [serverKit, List.mem_cons, List.not_mem_nil, or_false] at he
          rcases he with rfl | rfl | rfl | rfl | rfl
          · exact hnone _ List.mem_cons_self heq
          · exact hnone _ (List.mem_cons_of_mem _ List.mem_cons_self) heq
          · exact hnone _ (List.mem_cons_of_mem _ (List.mem_cons_of_mem _ List.mem_cons_self)) heq
          · exact hnone _ (List.mem_cons_of_mem
              _ (List.mem_cons_of_mem _ (List.mem_cons_of_mem _ List.mem_cons_self))) heq
          · exact ha heq.symm
        rw [kitFunctions, hfind]
        rfl

theorem equipped_of_added {name host : Str} {port : ℤ}
    (hs : responderInitClient svc s name host port = .ok s') : Equipped s'.tree (srvKey name) := by
  refine ⟨fun a rs _ => lookup_added hs a rs, fun a rs hlive => ?_⟩
  cases rs with
  | nil => exact hlive
  | cons r rs =>
    have hnone := lookup_added hs a (r :: rs)
    rw [kitFunctions, Option.map_eq_none_iff] at hnone
    rw [Live, hnone] at hlive
    cases hlive

theorem EquippedInv.added {name host : Str} {port : ℤ} (h : EquippedInv s)
    (hs : responderInitClient svc s name host port = .ok s') : EquippedInv s' := by
  have hadd := (responderInitClient_ok hs).2
  refine ⟨linkInv_of_added h.toLinkInv hs, fun k hk hlive => ?_⟩
  by_cases hname : k = srvKey name
  · rw [hname]
    exact equipped_of_added hs
  · have hsame (q : Path) := (touches_child hadd.touches hname q).1
    rw [Live, hsame []] at hlive
    exact (h.equipped k hk hlive).congr hsame

theorem EquippedInv.withoutServer {e : NodePtr × Server61850} (h : EquippedInv s)
    (he : e ∈ s.serverMap) (hptr : e.1 = s.ptr [srv]) : EquippedInv (withoutServer s srv e) := by
  refine ⟨linkInv_withoutServer h.toLinkInv he hptr, fun k hk hlive => ?_⟩
  rw [live_withoutServer] at hlive
  refine (h.equipped k hk hlive.2).congr fun q => ?_
  show lookup (removeTree s.tree [srv]) (k :: q) = _
  rw [lookup_removeTree_of_not_below]
  rw [List.cons_prefix_cons]
  exact fun hpre => hlive.1 hpre.1.symm

theorem EquippedInv.modify (h : EquippedInv s) (p : Path) {F : DSNode → DSNode}
    (hF : ∀ n, (F n).functions = n.functions) : EquippedInv { s with tree := modify s.tree p F } :=
  ⟨linkInv_modify h.toLinkInv p hF,
    fun k hk hlive => (h.equipped k hk ((live_modify _).1 hlive)).modify p hF⟩

/-- Every event keeps the invariant. -/
theorem EquippedInv.step (h : EquippedInv s) {e : LinkEvent} (hs : linkEvent svc s e = .ok s') :
    EquippedInv s' := by
  have hinv' := h.toLinkInv.step hs
  cases linkEvent_effect h.toLinkInv hs with
  | idle => exact h
  | acts hsrv hf hrun hconf =>
    refine ⟨hinv', fun k hk hlive => ?_⟩
    rw [live_of_confined hconf] at hlive
    exact hconf.equipped (h.equipped k hk hlive)
  | opens hp => exact h.modify _ fun _ => rfl
  | reports hsrv hown hnodes hconf =>
    refine ⟨hinv', fun k hk hlive => ?_⟩
    rw [live_of_confined hconf] at hlive
    exact hconf.equipped (h.equipped k hk hlive)
  | adds hname hadd => exact h.added hadd
  | removes hk he hptr => exact h.withoutServer he hptr
  | remakes hk hedit he hptr hname hadd => exact (h.withoutServer he hptr).added hadd

theorem Unused.equippedInv (h : Unused s) : EquippedInv s :=
  ⟨h.linkInv, fun k hk hlive => absurd hlive (h.servers.nodes k [] hk)⟩

theorem EquippedInv.run (h : EquippedInv s) {run : List LinkEvent}
    (hrun : run.foldlM (linkEvent svc) s = .ok s') : EquippedInv s' :=
  foldlM_invariant (fun _ _ _ _ hI hstep => hI.step hstep) hrun h

/-! ## What is left of a discovery -/

theorem isDiscovered_iff {t : σ} (hk : hasInit srvKeyInit k = true) :
    isDiscovered t [k] = true ↔ ∃ a, Live t [k, a] ∧ hasInit ndlKeyInit a = false := by
  rw [isDiscovered, List.getLastD_cons, List.getLastD_nil, hk, Bool.true_and, List.any_eq_true]
  simp only [mem_children, Bool.not_eq_true']
  rfl

/-- Nothing of a discovery is left below a server that does not count as discovered. -/
theorem EquippedInv.undiscovered (h : EquippedInv s) (hk : hasInit srvKeyInit k = true)
    (hnew : isDiscovered s.tree [k] = false) : Undiscovered k s.tree := by
  intro a rs n hn
  have hlive : Live s.tree (k :: a :: rs) := by
    rw [Live, hn]
    rfl
  have hequipped := h.equipped k hk (h.rooted k _ hk hlive)
  have hndl : hasInit ndlKeyInit a = true := by
    by_contra hndl
    have hdiscovered := (isDiscovered_iff hk).2
      ⟨a, hequipped.rooted a rs hlive, by simpa using hndl⟩
    rw [hdiscovered] at hnew
    cases hnew
  exact ⟨hndl, by simp [IsAttributeNode, hequipped.onListOpen_eq hndl hn]⟩

end DslinkIec61850
