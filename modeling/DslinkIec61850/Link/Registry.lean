import DslinkIec61850.Link.Kit

/-!
# The registry of servers

What the link is for, seen from its servers: a map from server names to the endpoints that
were given for them. `registryStep` is this map under the events of the link; `serverMap`,
the nodes of the tree and the connections implement it.

* `registry_step`: one event.
* `registry_refines_run`: any run.
* `commands_end_run`: which commands on servers come to an end.
-/

namespace DslinkIec61850

open DSLink LinkState Run

variable {σ W : Type} [DSLink σ] {svc : IedService W} {s s' : LinkState σ W} {k : Str}

/-! ## The map -/

/-- Where a server is. -/
structure Endpoint where
  hostname : Str
  tcpPort : ℤ
  deriving DecidableEq

/-- The endpoints by the keys of the servers. -/
abbrev Registry := Str → Option Endpoint

/-- An edit of the server `k`: it is refused, or changes nothing, or replaces the server.
As in the code the key is compared with the new name. -/
def Registry.edit (R : Registry) (k : Str) (e : Endpoint) (name host : Str) (port : ℤ) : Registry :=
  if name = [] ∨ host = [] ∨ port = 0 then R
  else if e = ⟨host, port⟩ ∧ k = name then R
  else Function.update (Function.update R k none) (srvKey name) (some ⟨host, port⟩)

/-- The map after an event. -/
def registryStep (R : Registry) : LinkEvent → Registry
  | .addServer params =>
    match Json.stringValue (params.objectGet "Name".toList),
      Json.stringValue (params.objectGet "Host".toList) with
    | some name, some host =>
      if intValue (params.objectGet "Port".toList) ≠ 0 then
        Function.update R (srvKey name) (some ⟨host, intValue (params.objectGet "Port".toList)⟩)
      else R
    | _, _ => R
  | .invoke [k, a] params =>
    match R k with
    | none => R
    | some e =>
      if a = "ndl_removeserver".toList then Function.update R k none
      else if a = "ndl_editserver".toList then
        R.edit k e ((Json.stringValue (params.objectGet "Name".toList)).getD [])
          ((Json.stringValue (params.objectGet "Host".toList)).getD [])
          (intValue (params.objectGet "Port".toList))
      else R
  | _ => R

/-! ## The map of a state -/

/-- The endpoint of an entry of `serverMap`. -/
def Server61850.endpoint (e : Server61850) : Endpoint := ⟨e.hostname, e.tcpPort⟩

/-- The endpoints of the servers that have a node. -/
def registry (s : LinkState σ W) : Registry := fun k =>
  if hasInit srvKeyInit k = true ∧
    Live s.tree [k] then (s.mapGet (s.ptr [k])).map Server61850.endpoint else none

theorem registry_eq (hinv : LinkInv s) (hk : hasInit srvKeyInit k = true)
    (hlive : Live s.tree [k]) :
    ∃ e ∈ s.serverMap, e.1 = s.ptr [k] ∧ s.mapGet (s.ptr [k]) = some e.2 ∧
      registry s k = some e.2.endpoint := by
  obtain ⟨e, he, hptr⟩ := hinv.maps.mapped k hk hlive
  have hget := hinv.maps.mapGet_eq he hptr
  refine ⟨e, he, hptr, hget, ?_⟩
  rw [registry, if_pos ⟨hk, hlive⟩, hget]
  rfl

/-- The servers with an endpoint are those with a node. -/
theorem registry_eq_some {e : Endpoint} (h : registry s k = some e) :
    hasInit srvKeyInit k = true ∧ Live s.tree [k] := by
  rw [registry] at h
  split_ifs at h with hserver
  exact hserver

theorem registry_congr (h : ∀ k, hasInit srvKeyInit k = true → (Live s'.tree [k] ↔ Live s.tree [k]))
    (hget : ∀ k, hasInit srvKeyInit k = true → Live s.tree [k] →
      s'.mapGet (s'.ptr [k]) = s.mapGet (s.ptr [k])) :
    registry s' = registry s := by
  funext k
  by_cases hk : hasInit srvKeyInit k = true
  · by_cases hlive : Live s.tree [k]
    · rw [registry, registry, if_pos ⟨hk, (h k hk).2 hlive⟩, if_pos ⟨hk, hlive⟩, hget k hk hlive]
    · rw [registry, registry, if_neg fun hs => hlive ((h k hk).1 hs.2), if_neg fun hs => hlive hs.2]
  · rw [registry, registry, if_neg fun hs => hk hs.1, if_neg fun hs => hk hs.1]

theorem registry_undisturbed (h : Undisturbed k s s') (hinv : LinkInv s) (hinv' : LinkInv s') :
    registry s' k = registry s k := by
  have hlive : Live s'.tree [k] ↔ Live s.tree [k] := by
    rw [Live, Live, (h.nodes []).1]
  by_cases hserver : hasInit srvKeyInit k = true ∧ Live s.tree [k]
  · rw [registry, registry, if_pos ⟨hserver.1, hlive.2 hserver.2⟩, if_pos hserver,
      h.mapGet_eq hinv.maps hinv'.maps hserver.1 hserver.2]
  · rw [registry, registry, if_neg fun hs => hserver ⟨hs.1, hlive.1 hs.2⟩, if_neg hserver]

theorem registry_confined {d : Bool} {srv : Str} {C : ConnId → Prop} {P : Request → Prop}
    (h : Confined d srv C P s s') : registry s' = registry s := by
  refine registry_congr (fun k _ => live_of_confined h k) fun k _ _ => ?_
  rw [mapGet, mapGet, h.serverMap_eq, ptr_of_confined h]

theorem registry_added {name host : Str} {port : ℤ} (hinv : LinkInv s)
    (hs : responderInitClient svc s name host port = .ok s') :
    registry s' = Function.update (registry s) (srvKey name) (some ⟨host, port⟩) := by
  have hadd := (responderInitClient_ok hs).2
  have hinv' := linkInv_of_added hinv hs
  funext k
  by_cases hk : k = srvKey name
  · subst hk
    have hmem : (⟨[srvKey name], fresh s.tree⟩, ⟨host, port, s.nextConn⟩) ∈ s'.serverMap := by
      rw [hadd.serverMap_eq]
      exact Keyed.mem_set_self ..
    rw [Function.update_self, registry, if_pos ⟨hasInit_srvKey name, hadd.live⟩,
      hinv'.maps.mapGet_eq hmem hadd.ptr_eq.symm]
    rfl
  · rw [Function.update_of_ne hk]
    exact registry_undisturbed (undisturbed_of_added hinv hs (Ne.symm hk)) hinv hinv'

theorem registry_withoutServer {srv : Str} {e : NodePtr × Server61850} (hinv : LinkInv s)
    (he : e ∈ s.serverMap) (hptr : e.1 = s.ptr [srv]) :
    registry (withoutServer s srv e) = Function.update (registry s) srv none := by
  funext k
  by_cases hk : k = srv
  · rw [hk, Function.update_self, registry, if_neg]
    exact fun hs => (live_withoutServer.1 hs.2).1 rfl
  · rw [Function.update_of_ne hk]
    exact registry_undisturbed (undisturbed_withoutServer hinv he hptr hk) hinv
      (linkInv_withoutServer hinv he hptr)

/-! ## One event -/

/-- The keys of the actions on a server. -/
theorem key_of_kit {a : Str} {f : Callback} (h : (kitFunctions a []).bind Prod.fst = some f) :
    (a = "ndl_editserver".toList ↔ f = .editServerAction) ∧
    (a = "ndl_removeserver".toList ↔ f = .removeServerAction) := by
  obtain ⟨g, hg, hf⟩ := Option.bind_eq_some_iff.1 h
  obtain ⟨e, he, rfl⟩ := Option.map_eq_some_iff.1 hg
  obtain rfl := Keyed.key_of_find he
  have hmem := Keyed.mem_of_find he
  simp only [serverKit, List.mem_cons, List.not_mem_nil, or_false] at hmem
  rcases hmem with rfl | rfl | rfl | rfl | rfl
  all_goals
    cases hf
  all_goals
    decide

theorem registry_edit (hinv : EquippedInv s) {a : Str} {params : Json}
    (hk : hasInit srvKeyInit k = true)
    (hlive : Live s.tree [k]) {e : Endpoint} (he : registry s k = some e)
    (h : editServerAction svc s [k, a] params = .ok s') :
    registry s' = (registry s).edit k e
      ((Json.stringValue (params.objectGet "Name".toList)).getD [])
      ((Json.stringValue (params.objectGet "Host".toList)).getD [])
      (intValue (params.objectGet "Port".toList)) := by
  obtain ⟨m, hm, hptr, hget, hreg⟩ := registry_eq hinv.toLinkInv hk hlive
  obtain rfl : m.2.endpoint = e := Option.some.inj (hreg.symm.trans he)
  unfold editServerAction at h
  obtain ⟨server, hserver, h⟩ := bind_eq_ok.1 h
  obtain rfl : m.2 = server := Option.some.inj (hget.symm.trans (deref_eq_ok.1 hserver))
  obtain ⟨name, hname, h⟩ := bind_eq_ok.1 h
  rw [deref_eq_ok.1 hname, Option.getD_some]
  unfold Registry.edit
  split_ifs at h with hempty
  · cases h
    rw [if_pos (.inl hempty)]
  · obtain ⟨host, hhost, h⟩ := bind_eq_ok.1 h
    rw [deref_eq_ok.1 hhost, Option.getD_some]
    split_ifs at h with hmissing hchanged
    · cases h
      rw [if_pos (.inr hmissing)]
    · obtain ⟨⟨removed, s₁⟩, h₁, h⟩ := bind_eq_ok.1 h
      have hremove : removeServerNode s [k] = .ok (true, withoutServer s k m) :=
        removeServerNode_eq hinv.maps hlive hm hptr
      cases hremove.symm.trans h₁
      rw [if_neg (by tauto), if_neg,
        registry_added (linkInv_withoutServer hinv.toLinkInv hm hptr) h,
        registry_withoutServer hinv.toLinkInv hm hptr]
      rintro ⟨hsame, hname⟩
      obtain ⟨hhost, hport⟩ := Endpoint.mk.inj hsame
      rcases hchanged with hne | hne | hne
      · exact hne hhost
      · exact hne hname
      · exact hne hport
    · cases h
      push Not at hchanged
      obtain ⟨hhost, hname, hport⟩ := hchanged
      rw [if_neg (by tauto), if_pos]
      · exact registry_congr (fun _ _ => .rfl) fun _ _ _ => rfl
      · refine ⟨?_, hname⟩
        rw [Server61850.endpoint, hhost, hport]

/-- The other nodes leave the map as it is. -/
theorem registryStep_other {R : Registry} {q : Path} {params : Json}
    (h : ∀ a, q = [a] → R k ≠ none → a ≠ "ndl_editserver".toList ∧ a ≠ "ndl_removeserver".toList) :
    registryStep R (.invoke (k :: q) params) = R := by
  match q with
  | [] => rfl
  | _ :: _ :: _ => rfl
  | [a] =>
    unfold registryStep
    dsimp only
    cases hR : R k with
    | none => rfl
    | some e =>
      obtain ⟨hedit, hremove⟩ := h a rfl (by simp [hR])
      dsimp only
      rw [if_neg hremove, if_neg hedit]

/-- The actions on servers are where they belong. -/
theorem EquippedInv.key_iff (hinv : EquippedInv s) {a : Str} {f : Callback}
    (hf : Invokes s.tree [k, a] f) : (a = "ndl_editserver".toList ↔ f = .editServerAction) ∧
      (a = "ndl_removeserver".toList ↔ f = .removeServerAction) := by
  obtain ⟨k', q, heq, hk, hplace⟩ := hinv.placed _ f hf
  obtain ⟨rfl, rfl⟩ := List.cons.inj heq
  have hequipped := hinv.equipped k hk (hinv.rooted k _ hk hf.live)
  unfold InPlace at hplace
  split_ifs at hplace
  · obtain ⟨a', ha', hndl⟩ := hplace
    cases ha'
    exact key_of_kit ((hequipped.invokes hndl).1 hf)
  · have := hplace.1
    simp at this

/-- The map follows every event. -/
theorem registry_step (hinv : EquippedInv s) {e : LinkEvent} (h : linkEvent svc s e = .ok s') :
    registry s' = registryStep (registry s) e := by
  cases e with
  | addServer params =>
    unfold linkEvent invokeAddServer at h
    unfold registryStep
    dsimp only at h ⊢
    cases hname : Json.stringValue (params.objectGet "Name".toList) with
    | none =>
      rw [hname] at h
      cases h
      rfl
    | some name =>
      rw [hname] at h
      cases hhost : Json.stringValue (params.objectGet "Host".toList) with
      | none =>
        rw [hhost] at h
        cases h
        rfl
      | some host =>
        rw [hhost] at h
        dsimp only at h ⊢
        split_ifs at h ⊢
        · exact registry_added hinv.toLinkInv h
        · cases h
          rfl
  | invoke node params =>
    unfold linkEvent at h
    dsimp only at h
    cases hf : installed s.tree node DSNode.onInvocation with
    | none =>
      rw [hf] at h
      cases h
      match node with
      | [] => rfl
      | k :: q =>
        refine (registryStep_other fun a hq hR => ?_).symm
        subst hq
        obtain ⟨e, he⟩ := Option.ne_none_iff_exists'.1 hR
        obtain ⟨hk, hlive⟩ := registry_eq_some he
        have hequipped := hinv.equipped k hk hlive
        have hnone {f : Callback} (hf' : Invokes s.tree [k, a] f) : False := by
          have hsome : installed s.tree [k, a] DSNode.onInvocation = some f := hf'
          rw [hf] at hsome
          cases hsome
        constructor
        · rintro rfl
          exact hnone ((hequipped.invokes (f := .editServerAction) (by decide)).2 rfl)
        · rintro rfl
          exact hnone ((hequipped.invokes (f := .removeServerAction) (by decide)).2 rfl)
    | some f =>
      rw [hf] at h
      have hf : Invokes s.tree node f := hf
      obtain ⟨k, q, rfl, hk, hplace⟩ := hinv.placed node f hf
      have hlive : Live s.tree [k] := hinv.rooted k q hk hf.live
      obtain ⟨e, he, hptr, hget, hreg⟩ := registry_eq hinv.toLinkInv hk hlive
      by_cases hedit : f = .editServerAction
      · subst hedit
        obtain ⟨a, rfl, -⟩ := hplace
        obtain rfl := (hinv.key_iff hf).1.2 rfl
        unfold registryStep
        dsimp only
        rw [hreg]
        dsimp only
        rw [if_neg (by decide), if_pos rfl]
        exact registry_edit hinv hk hlive hreg h
      · by_cases hremove : f = .removeServerAction
        · subst hremove
          obtain ⟨a, rfl, -⟩ := hplace
          obtain rfl := (hinv.key_iff hf).2.2 rfl
          have hnode : removeServerNode s [k] = .ok (true, withoutServer s k e) :=
            removeServerNode_eq hinv.maps hlive he hptr
          obtain ⟨⟨removed, s₁⟩, h₁, h⟩ := bind_eq_ok.1 h
          cases hnode.symm.trans h₁
          cases h
          unfold registryStep
          dsimp only
          rw [hreg]
          dsimp only
          rw [if_pos rfl]
          exact registry_withoutServer hinv.toLinkInv he hptr
        · rw [registry_confined (invokeAction_confined hk hplace hedit hremove h)]
          refine (registryStep_other fun a hq _ => ?_).symm
          subst hq
          exact ⟨fun ha => hedit ((hinv.key_iff hf).1.1 ha),
            fun ha => hremove ((hinv.key_iff hf).2.1 ha)⟩
  | listOpen node =>
    show registry s' = registry s
    cases linkEvent_effect hinv.toLinkInv h with
    | idle => rfl
    | opens hp =>
      refine registry_congr (fun k _ => live_modify _) fun k _ _ => ?_
      show s.mapGet ⟨[k], ident (setMeta s.tree _ _ _) [k]⟩ = _
      rw [setMeta, ident_modify]
      rfl
  | report con message =>
    show registry s' = registry s
    cases linkEvent_effect hinv.toLinkInv h with
    | idle => rfl
    | reports hsrv hown hnodes hconf => exact registry_confined hconf

/-- **Registry.** After any run of a link that started without servers, the endpoints of the
servers are those that the events gave, whatever else happened. -/
theorem registry_refines_run (h₀ : Unused s) {run : List LinkEvent}
    (h : run.foldlM (linkEvent svc) s = .ok s') :
    registry s' = run.foldl registryStep fun _ => none := by
  have hnone : registry s = fun _ => none := by
    funext k
    rw [registry, if_neg fun hs => h₀.servers.nodes k [] hs.1 hs.2]
  rw [← hnone]
  exact (foldlM_refines (J := EquippedInv)
    (fun _ _ _ hI hstep => ⟨hI.step hstep, registry_step hI hstep⟩) h₀.equippedInv h).2

/-- One of two servers is renamed, and the node that was its edit action is invoked again. -/
def renameRun : List LinkEvent := [addEvent "a", addEvent "b", renameEvent, renameEvent]

theorem registry_refines_run_rename :
    (renameRun.foldl registryStep fun _ => none) (srvKey "c".toList) = some ⟨"h".toList, 102⟩ ∧
      (renameRun.foldl registryStep fun _ => none) (srvKey "a".toList) = none ∧
      registry renamed = renameRun.foldl registryStep fun _ => none := by
  refine ⟨by decide +kernel, by decide +kernel, ?_⟩
  have hrun : renameRun.foldlM (linkEvent (IedService.silent Unit)) (rootLink ()) = .ok renamed :=
    rfl
  exact registry_refines_run (unused_rootLink ()) hrun

/-! ## Commands -/

theorem responderInitClient_isOk_iff {name host : Str} {port : ℤ} :
    (∃ s', responderInitClient svc s name host port = .ok s') ↔ name.length < 125 ∧
    host.length < 100 := by
  have hlen : (srvKey name).length = name.length + 4 := by
    rw [srvKey, List.length_append, Nat.add_comm]
    rfl
  constructor
  · rintro ⟨s', hs⟩
    have hfits := (responderInitClient_ok hs).1
    rw [hlen] at hfits
    exact ⟨by omega, hfits.2⟩
  · rintro ⟨hname, hhost⟩
    exact responderInitClient_total svc s port (by rw [hlen]; omega) hhost

/-- An edit of the server `k` comes to its end: the name is a text, and so is the host unless the
name is empty; and when the server is made anew, its name and its host fit. -/
def Registry.EditEnds (R : Registry) (k : Str) (params : Json) : Prop :=
  ∃ name, Json.stringValue (params.objectGet "Name".toList) = some name ∧ (name = [] ∨
    ∃ host, Json.stringValue (params.objectGet "Host".toList) = some host ∧
      (host = [] ∨ intValue (params.objectGet "Port".toList) = 0 ∨
        (R k = some ⟨host, intValue (params.objectGet "Port".toList)⟩ ∧ k = name) ∨
        name.length < 125 ∧ host.length < 100))

theorem editServerAction_isOk_iff (hinv : EquippedInv s) (hk : hasInit srvKeyInit k = true)
    (hlive : Live s.tree [k]) (a : Str) (params : Json) :
    (∃ s', editServerAction svc s [k, a] params = .ok s') ↔ (registry s).EditEnds k params := by
  obtain ⟨m, hm, hptr, hget, hreg⟩ := registry_eq hinv.toLinkInv hk hlive
  have hget : s.mapGet (s.ptr [k]) = some m.2 := hget
  have hremove : removeServerNode s [k] = .ok (true, withoutServer s k m) :=
    removeServerNode_eq hinv.maps hlive hm hptr
  unfold editServerAction Registry.EditEnds
  dsimp only
  rw [show ([k, a] : Path).dropLast = [k] from rfl, hget, hremove, hreg, deref, ok_bind]
  cases hname : Json.stringValue (params.objectGet "Name".toList) with
  | none => simp [deref]
  | some name =>
    rw [deref, ok_bind]
    by_cases hempty : name = []
    · rw [if_pos hempty]
      exact iff_of_true ⟨_, rfl⟩ ⟨name, rfl, .inl hempty⟩
    rw [if_neg hempty]
    cases hhost : Json.stringValue (params.objectGet "Host".toList) with
    | none =>
      refine iff_of_false ?_ ?_
      · rintro ⟨s', hs⟩
        cases hs
      · rintro ⟨name', hname', hcases⟩
        cases hname'
        rcases hcases with h | ⟨host, hhost, -⟩
        · exact hempty h
        · cases hhost
    | some host =>
      rw [deref, ok_bind]
      by_cases hmissing : host = [] ∨ intValue (params.objectGet "Port".toList) = 0
      · rw [if_pos hmissing]
        exact iff_of_true ⟨_, rfl⟩ ⟨name, rfl, .inr ⟨host, rfl, hmissing.imp_right .inl⟩⟩
      rw [if_neg hmissing]
      by_cases hsame : m.2.endpoint = ⟨host, intValue (params.objectGet "Port".toList)⟩ ∧ k = name
      · have hunchanged := Endpoint.mk.inj hsame.1
        rw [if_neg (by
          rintro (hne | hne | hne)
          · exact hne hunchanged.1
          · exact hne hsame.2
          · exact hne hunchanged.2)]
        exact iff_of_true ⟨_, rfl⟩
          ⟨name, rfl, .inr ⟨host, rfl, .inr (.inr (.inl ⟨congrArg some hsame.1, hsame.2⟩))⟩⟩
      · -- The server is removed, which always works, and is made anew.
        rw [if_pos (by
          by_contra hcon
          push Not at hcon
          obtain ⟨hhost, hname, hport⟩ := hcon
          exact hsame ⟨by rw [Server61850.endpoint, hhost, hport], hname⟩), ok_bind]
        dsimp only
        rw [if_pos rfl, responderInitClient_isOk_iff]
        constructor
        · exact fun hfits => ⟨name, rfl, .inr ⟨host, rfl, .inr (.inr (.inr hfits))⟩⟩
        · rintro ⟨name', hname', hcases⟩
          cases hname'
          rcases hcases with hname | ⟨host', hhost', hcases⟩
          · exact absurd hname hempty
          · cases hhost'
            rcases hcases with h | h | h | h
            · exact absurd (.inl h) hmissing
            · exact absurd (.inr h) hmissing
            · exact absurd ⟨Option.some.inj h.1, h.2⟩ hsame
            · exact h

/-- **Commands.** In every state that a run reaches, the commands on the servers depend on their
parameters and the endpoints alone: an added server fits, a server that is there can be removed,
and an edit of it comes to its end when its parameters are texts that fit. -/
theorem commands_end_run (h₀ : Unused s) {run : List LinkEvent}
    (h : run.foldlM (linkEvent svc) s = .ok s') (params : Json) :
    ((∃ s'', linkEvent svc s' (.addServer params) = .ok s'') ↔ AddFits params) ∧
    ∀ k, hasInit srvKeyInit k = true → Live s'.tree [k] →
      (∃ s'', linkEvent svc s' (.invoke [k, "ndl_removeserver".toList] params) = .ok s'') ∧
      ((∃ s'', linkEvent svc s' (.invoke [k, "ndl_editserver".toList] params) = .ok s'') ↔
        (registry s').EditEnds k params) := by
  have hinv : EquippedInv s' := h₀.equippedInv.run h
  refine ⟨?_, fun k hk hlive => ⟨?_, ?_⟩⟩
  · unfold linkEvent invokeAddServer AddFits
    dsimp only
    cases hname : Json.stringValue (params.objectGet "Name".toList) with
    | none => exact iff_of_true ⟨_, rfl⟩ fun name host hname' => by cases hname'
    | some name =>
      cases hhost : Json.stringValue (params.objectGet "Host".toList) with
      | none => exact iff_of_true ⟨_, rfl⟩ fun name host _ hhost' => by cases hhost'
      | some host =>
        dsimp only
        split_ifs with hport
        · rw [responderInitClient_isOk_iff]
          refine ⟨fun hfits name' host' hname' hhost' _ => ?_, fun hfits => ?_⟩
          · cases hname'
            cases hhost'
            exact hfits
          · exact hfits name host rfl rfl hport
        · exact iff_of_true ⟨_, rfl⟩ fun name host _ _ hport' => absurd hport' hport
  · have hf : installed s'.tree [k, "ndl_removeserver".toList] DSNode.onInvocation =
        some .removeServerAction :=
      ((hinv.equipped k hk hlive).invokes (by decide)).2 rfl
    obtain ⟨e, he, hptr, -, -⟩ := registry_eq hinv.toLinkInv hk hlive
    unfold linkEvent
    dsimp only
    rw [hf]
    refine ⟨withoutServer s' k e, ?_⟩
    show removeServerAction s' [k, "ndl_removeserver".toList] = _
    rw [removeServerAction, show ([k, "ndl_removeserver".toList] : Path).dropLast = [k] from rfl,
      removeServerNode_eq hinv.maps hlive he hptr]
    rfl
  · have hf : installed s'.tree [k, "ndl_editserver".toList] DSNode.onInvocation =
        some .editServerAction :=
      ((hinv.equipped k hk hlive).invokes (by decide)).2 rfl
    unfold linkEvent
    dsimp only
    rw [hf]
    exact editServerAction_isOk_iff hinv hk hlive _ params

/-- A server can be removed after the renaming, and a name that is too long cannot be added. -/
theorem commands_end_run_rename :
    (∃ s'', linkEvent (IedService.silent Unit) renamed
      (.invoke [srvKey "c".toList, "ndl_removeserver".toList] (.object [])) = .ok s'') ∧
    ¬ ∃ s'', linkEvent (IedService.silent Unit) renamed
      (.addServer (serverParams (List.replicate 125 'a') "h".toList 102)) = .ok s'' := by
  have hrun : renameRun.foldlM (linkEvent (IedService.silent Unit)) (rootLink ()) = .ok renamed :=
    rfl
  have hcommands (params : Json) := commands_end_run (unused_rootLink ()) hrun params
  refine ⟨((hcommands _).2 (srvKey "c".toList) (hasInit_srvKey _) (by decide +kernel)).1,
    fun hends => ?_⟩
  have hfits := (hcommands _).1.1 hends (List.replicate 125 'a') "h".toList rfl rfl
    (show (102 : ℤ) ≠ 0 by decide)
  rw [List.length_replicate] at hfits
  exact lt_irrefl 125 hfits.1

end DslinkIec61850
