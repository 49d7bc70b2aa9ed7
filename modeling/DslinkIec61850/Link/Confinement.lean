import DslinkIec61850.Link.Placement

/-!
# What an action may touch

An action that is invoked on a node below a server changes nodes below that server only,
uses the connection of that server only, and sends only the requests that it is there for.

* `Asks`: the requests that an action is there for.
* `invokeAction_confined`: every action but those that add and remove servers.
-/

namespace DslinkIec61850

open DSLink LinkState Run

variable {σ W : Type} [DSLink σ] {svc : IedService W} {s s' s'' : LinkState σ W} {srv : Str}
  {q : Path} {d : Bool}

/-! ## Requests -/

/-- What the local copy holds for an attribute. -/
def elementValue (rcb : ClientReportControlBlock) : RcbElement → Option MmsValue
  | .rptId => rcb.rptId
  | .rptEna => rcb.rptEna
  | .datSet => rcb.datSet
  | .optFlds => rcb.optFlds
  | .bufTm => rcb.bufTm
  | .trgOps => rcb.trgOps
  | .intgPd => rcb.intgPd

/-- The request that writes an attribute of an RCB, where `update` changes the local copy. -/
def AsksRcb (t : σ) (node : Path) (element : RcbElement)
    (update : ClientReportControlBlock → ClientReportControlBlock) : Request → Prop
  | .setRCBValues ref e v => e = element ∧ ∃ rcb, rcbOf t node.dropLast.dropLast = .ok rcb ∧
      ref = rcb.objectReference ∧ v = elementValue (update rcb) element
  | _ => False

/-- The requests that an action is there for when it is invoked on a node with parameters:
they are about what the node is shown for, and carry the value of the parameters. -/
def Asks (t : σ) (node : Path) (params : Json) : Callback → Request → Prop
  | .daValueWriteAction, .writeObject ref fc v => ∃ code type,
      attributeOf t node.dropLast.dropLast = some (some code, some ref) ∧
      FunctionalConstraint.fromString code = fc ∧
      valueToWrite (params.objectGet "Value".toList) type = .ok (some v)
  | .controlAction, .select ref => ∃ type, controlTarget t node.dropLast = some (some ref, type)
  | .controlAction, .selectWithValue ref v =>
      ∃ type, controlTarget t node.dropLast = some (some ref, some type) ∧
      controlValue params type = some v
  | .controlAction, .operate ref v =>
      ∃ type, controlTarget t node.dropLast = some (some ref, some type) ∧
      controlValue params type = some v
  | .setRptEnaAction, r =>
    AsksRcb t node .rptEna (·.setRptEna (Json.booleanValue (valueMember params))) r
  | .setRptIdAction, r =>
    AsksRcb t node .rptId (·.setRptId (Json.stringValue (valueMember params))) r
  | .setDatSetAction, r =>
    AsksRcb t node .datSet (·.setDataSetReference (Json.stringValue (valueMember params))) r
  | .setBufTmAction, r => AsksRcb t node .bufTm (·.setBufTm (uint32Value params)) r
  | .setIntgPdAction, r => AsksRcb t node .intgPd (·.setIntgPd (uint32Value params)) r
  | .setOptFldsAction, r => ∃ flags, AsksRcb t node .optFlds (·.setOptFlds flags) r
  | .setTrgOpsAction, r => ∃ flags, AsksRcb t node .trgOps (·.setTrgOps flags) r
  | .forceGIRCBAction, .triggerGIReport ref =>
    shownText t node.dropLast objRefNodeKey = .ok (some ref)
  | .removeDatasetAction, .deleteDataSet ref =>
    shownText t node.dropLast objRefNodeKey = .ok (some ref)
  | .createDsOnserverAction, .createDataSet ref members =>
      shownText t node.dropLast objRefNodeKey = .ok (some ref) ∧
        preparedMembers t node.dropLast = .ok members
  | _, _ => False

/-! ## Confinement -/

/-- The connection of the server with the key `srv`. -/
def serverConn (s : LinkState σ W) (srv : Str) : Option ConnId :=
  (s.mapGet (s.ptr [srv])).map Server61850.iedConn

theorem serverConn_eq {con : ConnId} (h : s.getServerIedConnection (srv :: q) = .ok (some con)) :
    serverConn s srv = some con := by
  obtain ⟨entry, hget, rfl⟩ := mapGet_of_getServerIedConnection h
  rw [serverConn, hget]
  rfl

/-- A handler of the connection `c` has this parameter. -/
def HandlerGiven (s : LinkState σ W) (c : ConnId) (n : NodePtr) : Prop :=
  ∃ e ∈ s.connections, e.1 = c ∧ ∃ r ∈ e.2.enabledReports, r.callbackParameter = n

/-- On behalf of the server with the key `srv`: only nodes below it change, only the
connections `C` are used, and only the requests `P` are sent. -/
structure Confined (devices : Bool) (srv : Str) (C : ConnId → Prop) (P : Request → Prop)
    (s s' : LinkState σ W) : Prop where
  tree : StaysBelow devices srv s.tree s'.tree
  serverMap_eq : s'.serverMap = s.serverMap
  nextConn_eq : s'.nextConn = s.nextConn
  created_eq : s'.connections.map (fun e => (e.1, e.2.createdFor)) = s.connections.map fun e =>
    (e.1, e.2.createdFor)
  others : ∀ c, ¬ C c → Keyed.find Prod.fst c s'.connections = Keyed.find Prod.fst c s.connections
  handlers : ∀ c n, HandlerGiven s' c n → HandlerGiven s c n ∨ (C c ∧ ∃ r, n.path = srv :: r)
  requests : ∃ sent, s'.requests = s.requests ++ sent ∧ ∀ e ∈ sent, C e.1 ∧ P e.2

namespace Confined

variable {C : ConnId → Prop} {P : Request → Prop}

theorem refl (s : LinkState σ W) : Confined d srv C P s s :=
  ⟨.refl d srv s.tree, rfl, rfl, rfl, fun _ _ => rfl, fun _ _ => .inl, [], by simp, by simp⟩

theorem trans (h : Confined d srv C P s s') (h' : Confined d srv C P s' s'') :
    Confined d srv C P s s'' where
  tree := h.tree.trans h'.tree
  serverMap_eq := h'.serverMap_eq.trans h.serverMap_eq
  nextConn_eq := h'.nextConn_eq.trans h.nextConn_eq
  created_eq := h'.created_eq.trans h.created_eq
  others c hc := (h'.others c hc).trans (h.others c hc)
  handlers c n hn := by
    rcases h'.handlers c n hn with hn | hn
    · exact h.handlers c n hn
    · exact .inr hn
  requests := by
    obtain ⟨sent, heq, hsent⟩ := h.requests
    obtain ⟨sent', heq', hsent'⟩ := h'.requests
    refine ⟨sent ++ sent', by rw [heq', heq, List.append_assoc], fun e he => ?_⟩
    rcases List.mem_append.1 he with he | he
    · exact hsent e he
    · exact hsent' e he

/-- A step that leaves the connections. -/
theorem of_treeStep (htree : StaysBelow d srv s.tree s'.tree) (hstep : TreeStep s s') :
    Confined d srv C P s s' where
  tree := htree
  serverMap_eq := hstep.serverMap_eq
  nextConn_eq := hstep.nextConn_eq
  created_eq := by rw [hstep.connections_eq]
  others _ _ := by rw [hstep.connections_eq]
  handlers c n hn := by
    left
    rw [HandlerGiven, hstep.connections_eq] at hn
    exact hn
  requests := ⟨[], by rw [hstep.requests_eq, List.append_nil], by simp⟩

theorem setTree {t : σ} (htree : StaysBelow d srv s.tree t) :
    Confined d srv C P s { s with tree := t } :=
  of_treeStep htree (TreeStep.setTree s t)

theorem of_call {α : Type} (s : LinkState σ W) (f : W → α × W) :
    Confined d srv C P s (s.call f).2 :=
  of_treeStep (.refl d srv s.tree) (TreeStep.call s f)

theorem of_send {α : Type} (s : LinkState σ W) {con : ConnId} {r : Request} (f : W → α × W)
    (hcon : C con) (hr : P r) : Confined d srv C P s (s.send con r f).2 where
  tree := .refl d srv s.tree
  serverMap_eq := rfl
  nextConn_eq := rfl
  created_eq := rfl
  others _ _ := rfl
  handlers _ _ := .inl
  requests := ⟨[(con, r)], rfl, by simpa using ⟨hcon, hr⟩⟩

/-- A connection that may be used is changed; its handlers are the old ones, or were given
a node below the server. -/
theorem of_modifyConnection (s : LinkState σ W) {con : ConnId} {f : Connection → Connection}
    (hcon : C con) (hcreated : ∀ x, (f x).createdFor = x.createdFor)
    (hhandlers : ∀ e ∈ s.connections, e.1 = con → ∀ r' ∈ (f e.2).enabledReports,
      (∃ r ∈ e.2.enabledReports, r.callbackParameter = r'.callbackParameter) ∨
        ∃ p, r'.callbackParameter.path = srv :: p) :
    Confined d srv C P s (s.modifyConnection con f) where
  tree := .refl d srv s.tree
  serverMap_eq := rfl
  nextConn_eq := rfl
  created_eq := by
    simp only [modifyConnection, List.map_map]
    refine List.map_congr_left fun e _ => ?_
    simp only [Function.comp_apply]
    split_ifs
    · rw [hcreated]
    · rfl
  others c hc := by
    have hne : c ≠ con := by
      rintro rfl
      exact hc hcon
    rw [find_modifyConnection]
    cases hfind : Keyed.find Prod.fst c s.connections with
    | none => rfl
    | some e =>
      have he : e.1 ≠ con := by
        rw [Keyed.key_of_find hfind]
        exact hne
      rw [Option.map_some, if_neg he]
  handlers c n hn := by
    obtain ⟨e', he', rfl, r', hr', rfl⟩ := hn
    obtain ⟨e, he, hid, hvalue⟩ := mem_modifyConnection he'
    rw [hvalue] at hr'
    split_ifs at hr' with hkey
    · rcases hhandlers e he hkey r' hr' with ⟨r, hr, hparam⟩ | hbelow
      · exact .inl ⟨e, he, hid.symm, r, hr, hparam⟩
      · refine .inr ⟨?_, hbelow⟩
        rw [hid, hkey]
        exact hcon
    · exact .inl ⟨e, he, hid.symm, r', hr', rfl⟩
  requests := ⟨[], by rw [List.append_nil]; rfl, by simp⟩

/-- More connections and requests may be allowed. -/
theorem mono {C' : ConnId → Prop} {P' : Request → Prop} (h : Confined d srv C P s s')
    (hC : ∀ c, C c → C' c) (hP : ∀ r, P r → P' r) : Confined d srv C' P' s s' where
  tree := h.tree
  serverMap_eq := h.serverMap_eq
  nextConn_eq := h.nextConn_eq
  created_eq := h.created_eq
  others c hc := h.others c fun hcc => hc (hC c hcc)
  handlers c n hn := (h.handlers c n hn).imp id fun hbelow => ⟨hC c hbelow.1, hbelow.2⟩
  requests := by
    obtain ⟨sent, heq, hsent⟩ := h.requests
    exact ⟨sent, heq, fun e he => ⟨hC _ (hsent e he).1, hP _ (hsent e he).2⟩⟩

end Confined

/-! ## Data attributes -/

omit [DSLink σ] in
theorem controlObjectCreate_reference (svc : IedService W) (s : LinkState σ W) (con : ConnId)
    (ref : Str) :
    ∀ control, (controlObjectCreate svc s con ref).1 = some control →
      control.objectReference = ref := by
  unfold controlObjectCreate
  intro control h
  split_ifs at h
  · dsimp only at h
    split at h
    · cases h
    · cases h
      rfl

section Actions

variable {C : ConnId → Prop} {P : Request → Prop} {params : Json}

theorem setValueNodeFromMMS_growsBelow {t t' : σ} {r : Path} {v : Option MmsValue} (hr : r ≠ [])
    (h : setValueNodeFromMMS t (srv :: r) v = .ok t') : GrowsBelow d srv t t' := by
  cases v with
  | none => cases h
  | some v =>
    obtain ⟨json, -, h⟩ := bind_eq_ok.1 h
    cases json with
    | none =>
      cases h
      exact .refl d srv t
    | some json =>
      cases h
      exact growsBelow_setValue t hr json

theorem nodeValueRead_confined {r : Path} (hr : r ≠ [])
    (h : nodeValueRead svc s (srv :: r) = .ok s') : Confined d srv C P s s' := by
  refine .of_treeStep ?_ (nodeValueRead_treeStep h)
  unfold nodeValueRead at h
  split at h
  · cases h
    exact .refl d srv s.tree
  · obtain ⟨code, -, h⟩ := bind_eq_ok.1 h
    obtain ⟨con, -, h⟩ := bind_eq_ok.1 h
    split at h
    · cases h
      exact .refl d srv s.tree
    · obtain ⟨ref, -, h⟩ := bind_eq_ok.1 h
      dsimp only at h
      split at h
      · cases h
        exact .refl d srv s.tree
      · obtain ⟨t, ht, h⟩ := bind_eq_ok.1 h
        cases h
        exact (setValueNodeFromMMS_growsBelow hr ht).toStaysBelow

theorem writeAttribute_confined {readBack : Bool}
    (h : writeAttribute svc s (srv :: q) params = .ok (s', readBack)) :
    Confined d srv (serverConn s srv = some ·)
      (Asks s.tree (srv :: q) params .daValueWriteAction) s s' := by
  unfold writeAttribute at h
  split at h
  · cases h
    exact .refl s
  · rename_i fcStr ref hattribute
    obtain ⟨code, hcode, h⟩ := bind_eq_ok.1 h
    obtain ⟨con?, hcon, h⟩ := bind_eq_ok.1 h
    split at h
    · cases h
      exact .refl s
    · rename_i con
      obtain ⟨ref', href, h⟩ := bind_eq_ok.1 h
      rw [deref_eq_ok.1 hcode, deref_eq_ok.1 href] at hattribute
      dsimp only at h
      split at h
      · cases h
        exact .of_call s _
      · rename_i type _
        obtain ⟨value, hvalue, h⟩ := bind_eq_ok.1 h
        split at h
        · cases h
          exact .of_call s _
        · cases h
          exact (Confined.of_call s _).trans
            (.of_send _ _ (serverConn_eq hcon) ⟨code, type, hattribute, rfl, hvalue⟩)

theorem daValueWriteAction_confined (hq : 3 ≤ q.length)
    (h : daValueWriteAction svc s (srv :: q) params = .ok s') :
    Confined d srv (serverConn s srv = some ·)
      (Asks s.tree (srv :: q) params .daValueWriteAction) s s' := by
  unfold daValueWriteAction at h
  obtain ⟨⟨s₁, readBack⟩, h₁, h⟩ := bind_eq_ok.1 h
  have hwrite := writeAttribute_confined (d := d) h₁
  dsimp only at h
  split at h
  · rw [List.dropLast_cons_of_ne_nil (by rintro rfl; simp at hq)] at h
    refine hwrite.trans (nodeValueRead_confined ?_ h)
    intro hnil
    have := congrArg List.length hnil
    rw [List.length_dropLast, List.length_nil] at this
    omega
  · cases h
    exact hwrite

/-! ## Controls -/

omit [DSLink σ] in
theorem mem_controlRequests_reference {w : W} {con : ConnId} {ref : Str} {v : MmsValue}
    {ctlModel : ControlModel} {r : Request} (h : r ∈ controlRequests svc w con ref v ctlModel) :
    r = .select ref ∨ r = .selectWithValue ref v ∨ r = .operate ref v := by
  cases ctlModel with
  | sboNormal =>
    dsimp only [controlRequests] at h
    split_ifs at h
    · rcases List.mem_pair.1 h with rfl | rfl <;> simp
    · rw [List.mem_singleton.1 h]
      exact .inl rfl
  | sboEnhanced =>
    dsimp only [controlRequests] at h
    split_ifs at h
    · rcases List.mem_pair.1 h with rfl | rfl <;> simp
    · rw [List.mem_singleton.1 h]
      exact .inr (.inl rfl)
  | directNormal => exact .inr (.inr (List.mem_singleton.1 h))
  | directEnhanced => exact .inr (.inr (List.mem_singleton.1 h))
  | statusOnly => exact absurd h List.not_mem_nil
  | undefined => exact absurd h List.not_mem_nil

theorem controlObjectCreate_confined (s : LinkState σ W) {con : ConnId} (ref : Str) (hcon : C con) :
    Confined d srv C P s (controlObjectCreate svc s con ref).2 := by
  unfold controlObjectCreate
  split_ifs
  · have hread : Confined d srv C P s (s.call fun w => svc.createControl w con ref).2 :=
      .of_call s _
    dsimp only
    split
    · exact hread
    · refine hread.trans ?_
      dsimp only
      apply Confined.of_modifyConnection _ hcon
      · exact fun _ => rfl
      · exact fun e _ _ r hr => .inl ⟨r, hr, rfl⟩
  · exact .refl s

theorem performControl_confined (s : LinkState σ W) {con : ConnId} {control : ControlObject}
    {v : MmsValue} (hcon : C con) (hP : ∀ r, r = .select control.objectReference ∨
      r = .selectWithValue control.objectReference v ∨
      r = .operate control.objectReference v → P r) :
    Confined d srv C P s (performControl svc s con control v) := by
  obtain ⟨hrequests, hconns, htree⟩ := performControl_eq svc s con control v
  have hkeeps := performControl_keepsEntries svc s con control v
  refine ⟨.of_eq htree, hkeeps.serverMap_eq, hkeeps.nextConn_eq, by rw [hconns],
    fun _ _ => by rw [hconns], ?_, ?_⟩
  · intro c n hn
    left
    rw [HandlerGiven, hconns] at hn
    exact hn
  · refine ⟨_, hrequests, fun e he => ?_⟩
    obtain ⟨r, hr, rfl⟩ := List.mem_map.1 he
    exact ⟨hcon, hP r (mem_controlRequests_reference hr)⟩

theorem setControlStVal_confined {r : Path} (h : setControlStVal svc s (srv :: r) = .ok s') :
    Confined d srv C P s s' := by
  unfold setControlStVal at h
  split at h
  · cases h
    exact .refl s
  · rename_i valueNode hvalue
    obtain ⟨stVal, hstVal, hvalue⟩ := Option.bind_eq_some_iff.1 hvalue
    obtain ⟨rfl, -⟩ := child_eq_some.1 hstVal
    obtain ⟨rfl, -⟩ := child_eq_some.1 hvalue
    exact nodeValueRead_confined (r := r ++ ["stVal[ST]".toList] ++ [daValueRefNodeKey]) (by simp) h

theorem controlAction_confined (hq : 3 ≤ q.length)
    (h : controlAction svc s (srv :: q) params = .ok s') :
    Confined d srv (serverConn s srv = some ·)
      (Asks s.tree (srv :: q) params .controlAction) s s' := by
  have hdrop : (srv :: q).dropLast = srv :: q.dropLast :=
    List.dropLast_cons_of_ne_nil (by rintro rfl; simp at hq)
  unfold controlAction at h
  obtain ⟨⟨call, s₁⟩, h₁, h⟩ := bind_eq_ok.1 h
  unfold beginControl at h₁
  split at h₁
  · cases h₁
    cases h
    exact .refl s
  · rename_i ref type htarget
    obtain ⟨con?, hcon, h₁⟩ := bind_eq_ok.1 h₁
    split at h₁
    · cases h₁
      cases h
      exact .refl s
    · rename_i con
      have hown := serverConn_eq hcon
      obtain ⟨ref', href, h₁⟩ := bind_eq_ok.1 h₁
      obtain ⟨type', htype, h₁⟩ := bind_eq_ok.1 h₁
      rw [deref_eq_ok.1 href, deref_eq_ok.1 htype] at htarget
      have hcreate : Confined d srv (serverConn s srv = some ·)
          (Asks s.tree (srv :: q) params .controlAction) s
          (controlObjectCreate svc s con ref').2 := controlObjectCreate_confined s ref' hown
      have hreference := controlObjectCreate_reference svc s con ref'
      dsimp only at h₁
      split at h₁
      · cases h₁
        cases h
        exact hcreate
      · rename_i v hv
        cases h₁
        dsimp only at h
        obtain ⟨control, hcontrol, h⟩ := bind_eq_ok.1 h
        obtain ⟨s₂, h₂, h⟩ := bind_eq_ok.1 h
        cases h
        rw [hdrop] at h₂
        have hsame : control.objectReference = ref' := hreference control (deref_eq_ok.1 hcontrol)
        have hperform : Confined d srv (serverConn s srv = some ·)
            (Asks s.tree (srv :: q) params .controlAction) (controlObjectCreate svc s con ref').2
            (performControl svc (controlObjectCreate svc s con ref').2 con control v) := by
          refine performControl_confined _ hown fun r hr => ?_
          rw [hsame] at hr
          rcases hr with rfl | rfl | rfl
          · exact ⟨some type', htarget⟩
          · exact ⟨type', htarget, hv⟩
          · exact ⟨type', htarget, hv⟩
        refine ((hcreate.trans hperform).trans (setControlStVal_confined h₂)).trans ?_
        exact .of_modifyConnection _ hown (fun _ => rfl) fun e _ _ r hr => .inl ⟨r, hr, rfl⟩

/-! ## Report control blocks -/

theorem setValueAt_growsBelow {t t' : σ} {r : Path} {key : Str} {v : Option Json} (hr : r ≠ [])
    (h : setValueAt t (srv :: r) key v = .ok t') : GrowsBelow d srv t t' := by
  obtain ⟨p, hp, h⟩ := bind_eq_ok.1 h
  obtain ⟨r', rfl, hpre⟩ := getPath_server (deref_eq_ok.1 hp)
  cases h
  refine growsBelow_setValue t ?_ v
  rintro rfl
  exact hr (List.prefix_nil.1 hpre)

theorem setNodeRCBValues_growsBelow {t t' : σ} {r : Path} {rcb : ClientReportControlBlock}
    (hr : r ≠ []) (h : setNodeRCBValues t (srv :: r) rcb = .ok t') : GrowsBelow d srv t t' := by
  unfold setNodeRCBValues at h
  obtain ⟨t₁, h₁, h⟩ := bind_eq_ok.1 h
  obtain ⟨t₂, h₂, h⟩ := bind_eq_ok.1 h
  obtain ⟨t₃, h₃, h⟩ := bind_eq_ok.1 h
  obtain ⟨t₄, h₄, h⟩ := bind_eq_ok.1 h
  obtain ⟨t₅, h₅, h⟩ := bind_eq_ok.1 h
  obtain ⟨t₆, h₆, h⟩ := bind_eq_ok.1 h
  obtain ⟨flags, -, h⟩ := bind_eq_ok.1 h
  obtain ⟨optFlds, -, h⟩ := bind_eq_ok.1 h
  obtain ⟨t₇, h₇, h⟩ := bind_eq_ok.1 h
  obtain ⟨trgOps, -, h₈⟩ := bind_eq_ok.1 h
  have hset {t t' : σ} {key : Str} {v : Option Json} (h : setValueAt t (srv :: r) key v = .ok t') :
      GrowsBelow d srv t t' := setValueAt_growsBelow hr h
  exact (((((((hset h₁).trans (hset h₂)).trans (hset h₃)).trans (hset h₄)).trans (hset h₅)).trans
    (hset h₆)).trans (hset h₇)).trans (hset h₈)

theorem setRcb_growsBelow {r : Path} (hr : r ≠ []) (t : σ) (rcb : ClientReportControlBlock) :
    GrowsBelow d srv t (setRcb t (srv :: r) rcb) := growsBelow_modify t hr fun _ => rfl

theorem setRcbElement_confined {element : RcbElement}
    {update : ClientReportControlBlock → ClientReportControlBlock}
    {key : Str} {shown : Except Fault (Option Json)} (hq : 3 ≤ q.length)
    (hupdate : ∀ rcb, (update rcb).objectReference = rcb.objectReference)
    (h : setRcbElement svc s (srv :: q) element update key shown = .ok s') :
    Confined d srv (serverConn s srv = some ·) (AsksRcb s.tree (srv :: q) element update) s s' := by
  obtain ⟨r, hr, hdrop⟩ : ∃ r, r ≠ [] ∧ (srv :: q).dropLast.dropLast = srv :: r := by
    refine ⟨q.dropLast.dropLast, ?_, ?_⟩
    · intro hnil
      have := congrArg List.length hnil
      rw [List.length_dropLast, List.length_dropLast, List.length_nil] at this
      omega
    · have hne : q ≠ [] := by
        rintro rfl
        simp at hq
      have hne' : q.dropLast ≠ [] := by
        intro hnil
        have := congrArg List.length hnil
        rw [List.length_dropLast, List.length_nil] at this
        omega
      rw [List.dropLast_cons_of_ne_nil hne, List.dropLast_cons_of_ne_nil hne']
  unfold setRcbElement at h
  obtain ⟨con?, hcon, h⟩ := bind_eq_ok.1 h
  dsimp only at h
  obtain ⟨ref?, -, h⟩ := bind_eq_ok.1 h
  obtain ⟨rcb, hrcb, h⟩ := bind_eq_ok.1 h
  split at h
  · have hown := serverConn_eq hcon
    obtain ⟨v, -, h⟩ := bind_eq_ok.1 h
    obtain ⟨t, ht, h⟩ := bind_eq_ok.1 h
    rw [hdrop] at ht h
    have htree := (setRcb_growsBelow (d := d) hr s.tree (update rcb)).trans
      (setValueAt_growsBelow hr ht)
    have hsend {con : ConnId} (hown : serverConn s srv = some con) :
        Confined d srv (serverConn s srv = some ·) (AsksRcb s.tree (srv :: q) element update) s
          ({ s with tree := t }.setRCBValues svc con (update rcb) element).2 := by
      refine (Confined.setTree htree.toStaysBelow).trans ?_
      unfold setRCBValues
      refine .of_send _ _ hown ⟨rfl, rcb, hrcb, hupdate rcb, ?_⟩
      cases element <;> rfl
    split at h
    · cases h
      exact hsend hown
    · obtain ⟨⟨read, s₁⟩, h₁, h⟩ := bind_eq_ok.1 h
      obtain ⟨t', ht', h⟩ := bind_eq_ok.1 h
      cases h
      obtain ⟨htree₁, hstep⟩ := getRCBValues_ok h₁
      have hread := (hsend hown).trans (Confined.of_treeStep (.of_eq htree₁) hstep)
      exact hread.trans
        (.setTree ((setRcb_growsBelow hr s₁.tree _).trans
          (setNodeRCBValues_growsBelow hr ht')).toStaysBelow)
  · cases h
    exact .refl s

/-- The node of an action and the folder that it is below. -/
theorem Deep.dropLast {f : Callback} (srv : Str) (hq : Deep f q) :
    ∃ folder r, hasInit ndlKeyInit folder = false ∧
    (f.removesNode = true → keptKey d folder = false) ∧
    (srv :: q).dropLast = srv :: folder :: r := by
  obtain ⟨hlength, hfolder⟩ := hq
  match q, hlength with
  | folder :: k :: l :: r, _ =>
    obtain ⟨hndl, hremoves⟩ := hfolder folder rfl
    refine ⟨folder, (k :: l :: r).dropLast, hndl, fun hf => ?_, rfl⟩
    rw [keptKey, hndl, hremoves hf, Bool.and_false]
    rfl

theorem readRCBAction_confined (hq : 3 ≤ q.length) (h : readRCBAction svc s (srv :: q) = .ok s') :
    Confined d srv C P s s' := by
  obtain ⟨r, hr, hdrop⟩ : ∃ r, r ≠ [] ∧ (srv :: q).dropLast = srv :: r := by
    match q, hq with
    | a :: b :: q, _ => exact ⟨(a :: b :: q).dropLast, by simp, rfl⟩
  unfold readRCBAction at h
  obtain ⟨con?, -, h⟩ := bind_eq_ok.1 h
  dsimp only at h
  obtain ⟨ref?, -, h⟩ := bind_eq_ok.1 h
  obtain ⟨rcb, -, h⟩ := bind_eq_ok.1 h
  split at h
  · obtain ⟨⟨read, s₁⟩, h₁, h⟩ := bind_eq_ok.1 h
    obtain ⟨htree₁, hstep⟩ := getRCBValues_ok h₁
    have hread : Confined d srv C P s s₁ := .of_treeStep (.of_eq htree₁) hstep
    dsimp only at h
    split at h
    · cases h
      exact hread
    · obtain ⟨t', ht', h⟩ := bind_eq_ok.1 h
      cases h
      rw [hdrop] at ht'
      exact hread.trans
        (.setTree ((setRcb_growsBelow hr s₁.tree _).trans
          (setNodeRCBValues_growsBelow hr ht')).toStaysBelow)
  · cases h
    exact .refl s

theorem forceGIRCBAction_confined (h : forceGIRCBAction svc s (srv :: q) = .ok s') :
    Confined d srv (serverConn s srv = some ·)
      (Asks s.tree (srv :: q) params .forceGIRCBAction) s s' := by
  unfold forceGIRCBAction at h
  obtain ⟨con?, hcon, h⟩ := bind_eq_ok.1 h
  dsimp only at h
  obtain ⟨ref?, href, h⟩ := bind_eq_ok.1 h
  obtain ⟨rcb, -, h⟩ := bind_eq_ok.1 h
  split at h
  · cases h
    exact .of_send s _ (serverConn_eq hcon) href
  · cases h
    exact .refl s

/-! ## Data sets -/

theorem removeDatasetAction_confined (hq : Deep .removeDatasetAction q)
    (h : removeDatasetAction svc s (srv :: q) = .ok s') :
    Confined d srv (serverConn s srv = some ·)
      (Asks s.tree (srv :: q) params .removeDatasetAction) s s' := by
  obtain ⟨folder, r, -, hfolder, hdrop⟩ := hq.dropLast (d := d) srv
  unfold removeDatasetAction at h
  obtain ⟨con?, hcon, h⟩ := bind_eq_ok.1 h
  dsimp only at h
  obtain ⟨ref?, href, h⟩ := bind_eq_ok.1 h
  have hsend {con : ConnId} {ref : Str} (f : W → Bool × W) (hown : serverConn s srv = some con)
      (href : shownText s.tree (srv :: q).dropLast objRefNodeKey = .ok (some ref)) :
      Confined d srv (serverConn s srv = some ·)
        (Asks s.tree (srv :: q) params .removeDatasetAction) s
        (s.send con (.deleteDataSet ref) f).2 := .of_send s f hown href
  split at h
  · split at h
    · cases h
      refine (hsend _ (serverConn_eq hcon) href).trans (.setTree ?_)
      rw [hdrop]
      exact staysBelow_removeTree (hfolder rfl) _ r
    · cases h
      exact hsend _ (serverConn_eq hcon) href
  · cases h
    exact .refl s

theorem createPrepDatasetNode_growsBelow (hsrv : hasInit srvKeyInit srv = true) {t t' : σ}
    {r : Path} {dsRef : Str}
    {created : Bool} (h : createPrepDatasetNode t (srv :: r) dsRef = .ok (created, t')) :
    GrowsBelow d srv t t' := by
  unfold createPrepDatasetNode at h
  obtain ⟨_, -, h⟩ := bind_eq_ok.1 h
  split at h
  · rename_i hmain hprep
    rw [getMainPrepDatasetNode, folderOf_server hsrv _ _ (by decide) (by decide),
      child_eq_some] at hprep
    obtain ⟨rfl, hlive⟩ := hprep
    dsimp only at h
    split_ifs at h
    · cases h
      exact .refl d srv t
    · cases h
      refine growsBelow_addChild_addChildren (keptKey_folder (by decide)) hlive []
        (mayInvoke_none rfl) fun c hc => ?_
      simp only [prepDatasetChildren, List.mem_cons, List.not_mem_nil, or_false] at hc
      rcases hc with rfl | rfl | rfl
      · exact mayInvoke_none rfl
      · exact mayInvoke_action rfl rfl (by simp) fun _ => rfl
      · exact mayInvoke_action rfl rfl (by simp) fun _ => rfl
  · cases h
    exact .refl d srv t

theorem prepareDatasetAction_growsBelow (hsrv : hasInit srvKeyInit srv = true) (hq : 3 ≤ q.length)
    {t t' : σ} (h : prepareDatasetAction t (srv :: q) params = .ok t') : GrowsBelow d srv t t' := by
  have hdrop : (srv :: q).dropLast = srv :: q.dropLast :=
    List.dropLast_cons_of_ne_nil (by rintro rfl; simp at hq)
  unfold prepareDatasetAction at h
  split at h
  · cases h
    exact .refl d srv t
  · split at h
    · cases h
      exact .refl d srv t
    · obtain ⟨_, -, h⟩ := bind_eq_ok.1 h
      obtain ⟨⟨created, t₁⟩, h₁, h⟩ := bind_eq_ok.1 h
      cases h
      rw [hdrop] at h₁
      exact createPrepDatasetNode_growsBelow hsrv h₁

theorem addMemberToPrepDatasetNode_growsBelow {t t' : σ}
    (hlive : Live t [srv, datasetPrepFolderNodeKey]) {r : Path} {memberName : Str}
    (h : addMemberToPrepDatasetNode t (srv :: datasetPrepFolderNodeKey :: r) memberName =
      .ok t') :
    GrowsBelow d srv t t' := by
  unfold addMemberToPrepDatasetNode at h
  obtain ⟨_, -, h⟩ := bind_eq_ok.1 h
  obtain ⟨key, -, h⟩ := bind_eq_ok.1 h
  cases h
  let children : List (Str × DSNode) :=
    [("rm_mem_prepds".toList, .action "Remove".toList .rmMemberPrepdsAction)]
  refine growsBelow_addChild_addChildren (keptKey_folder (by decide)) hlive r (mayInvoke_none rfl)
    fun c (hc : c ∈ children) => ?_
  obtain rfl := List.mem_singleton.1 hc
  exact mayInvoke_action rfl rfl (by omega) fun _ => rfl

theorem addDAToDSAction_growsBelow (hsrv : hasInit srvKeyInit srv = true) {t t' : σ}
    (h : addDAToDSAction t (srv :: q) params = .ok t') : GrowsBelow d srv t t' := by
  unfold addDAToDSAction at h
  split at h
  · cases h
    exact .refl d srv t
  · cases h
    exact .refl d srv t
  · obtain ⟨_, -, h⟩ := bind_eq_ok.1 h
    dsimp only at h
    split at h
    · split at h
      · cases h
      · rename_i main hmain
        split at h
        · cases h
          exact .refl d srv t
        · rename_i prepDatasetNode hprep
          obtain ⟨ref, -, h⟩ := bind_eq_ok.1 h
          obtain ⟨fc, -, h⟩ := bind_eq_ok.1 h
          obtain ⟨_, -, h⟩ := bind_eq_ok.1 h
          rw [getMainPrepDatasetNode, folderOf_server hsrv _ _ (by decide) (by decide),
            child_eq_some] at hmain
          obtain ⟨rfl, hlive⟩ := hmain
          obtain ⟨r, rfl, hpre⟩ := getPath_server hprep
          obtain ⟨r, rfl⟩ := hpre
          exact addMemberToPrepDatasetNode_growsBelow hlive h
    · cases h
      exact .refl d srv t

theorem createDsOnserverAction_confined (hsrv : hasInit srvKeyInit srv = true)
    (hq : Deep .createDsOnserverAction q) (h : createDsOnserverAction svc s (srv :: q) = .ok s') :
    Confined d srv (serverConn s srv = some ·)
      (Asks s.tree (srv :: q) params .createDsOnserverAction) s s' := by
  obtain ⟨folder, r, -, hfolder, hdrop⟩ := hq.dropLast (d := d) srv
  unfold createDsOnserverAction at h
  dsimp only at h
  obtain ⟨members, hmembers, h⟩ := bind_eq_ok.1 h
  obtain ⟨ref?, href?, h⟩ := bind_eq_ok.1 h
  split at h
  · cases h
    exact .refl s
  · obtain ⟨con?, hcon?, h⟩ := bind_eq_ok.1 h
    obtain ⟨con, hcon, h⟩ := bind_eq_ok.1 h
    obtain ⟨ref, href, h⟩ := bind_eq_ok.1 h
    rw [deref_eq_ok.1 hcon] at hcon?
    rw [deref_eq_ok.1 href] at href?
    have hsend : Confined d srv (serverConn s srv = some ·)
        (Asks s.tree (srv :: q) params .createDsOnserverAction) s
        (s.send con (.createDataSet ref members) fun w => svc.createDataSet w con ref members).2 :=
      .of_send s _ (serverConn_eq hcon?) ⟨href?, hmembers⟩
    split at h
    · obtain ⟨⟨found, s₁⟩, h₁, h⟩ := bind_eq_ok.1 h
      have hread := hsend.trans
        (Confined.of_treeStep (getDatasetInfoFromServerCreateNode_growsBelow hsrv h₁).toStaysBelow
        (getDatasetInfoFromServerCreateNode_ok h₁).1)
      dsimp only at h
      split at h
      · cases h
        refine hread.trans (.setTree ?_)
        rw [hdrop]
        exact staysBelow_removeTree (hfolder rfl) _ r
      · cases h
        exact hread
    · cases h
      exact hsend

/-! ## Discovering and clearing -/

/-- An RCB that is read gets a handler with its node on the connection of the server. -/
theorem RcbCreated.confined {con : ConnId} {b : Bool} {ref : Str} {rcb : ClientReportControlBlock}
    {children : List RcbChild} (hlive : Live s.tree [srv, rcbFolderKey b])
    (h : RcbCreated s s' con [srv, rcbFolderKey b] b ref rcb children) (hcon : C con) :
    Confined d srv C P s s' := by
  let s₁ := s.modifyConnection con fun c =>
    c.installReportHandler ref rcb.getRptId ⟨[srv, rcbFolderKey b, rcbNodeKey b ref], fresh s.tree⟩
  have hhandler : Confined d srv C P s s₁ := by
    refine .of_modifyConnection s hcon (fun _ => rfl) fun e _ _ r' hr' => ?_
    rcases List.mem_append.1 hr' with hr' | hr'
    · exact .inl ⟨r', List.mem_of_mem_eraseP hr', rfl⟩
    · rw [List.mem_singleton.1 hr']
      exact .inr ⟨[rcbFolderKey b, rcbNodeKey b ref], rfl⟩
  have hrest : TreeStep s₁ s' := ⟨h.serverMap_eq, h.connections_eq, h.nextConn_eq, h.requests_eq⟩
  exact hhandler.trans (.of_treeStep (h.growsBelow hlive).toStaysBelow hrest)

/-- The connections after a discovery; what it does to the tree is left aside. -/
theorem discover61850Server_confined (hsrv : hasInit srvKeyInit srv = true) {con : ConnId}
    (hcon : C con)
    (h : discover61850Server svc s [srv] con = .ok s') : Confined false srv C P s s' := by
  have hbelow := discover61850Server_growsBelow hsrv h
  have hconns : Confined false srv C P s { s' with tree := s.tree } := by
    refine discover61850Server_rounds
      (I := fun s' => Confined false srv C P s { s' with tree := s.tree }) (Q := fun _ => True)
      hsrv (fun _ _ => trivial) ?_ ?_ h
      (.of_treeStep (.refl false srv s.tree) ⟨rfl, rfl, rfl, rfl⟩)
    · intro s₁ s₂ hquiet hI
      have hstep := hquiet.step
      exact hI.trans (.of_treeStep (.refl false srv s.tree)
        ⟨hstep.serverMap_eq, hstep.connections_eq, hstep.nextConn_eq, hstep.requests_eq⟩)
    · intro s₁ s₂ b created ref _ hround hI
      rcases getRCBInfoAndCreateNode_ok hround with
        ⟨-, -, hstep⟩ | ⟨-, folder, rcb, cs, _, hfolder, -, -, hcreated⟩
      · exact hI.trans (.of_treeStep (.refl false srv s.tree)
          ⟨hstep.serverMap_eq, hstep.connections_eq, hstep.nextConn_eq, hstep.requests_eq⟩)
      · obtain ⟨rfl, hlive⟩ := rcbFolder_eq hsrv hfolder
        have hround : Confined false srv C P s₁ s₂ := hcreated.confined hlive hcon
        refine hI.trans ⟨.refl false srv s.tree, hround.serverMap_eq, hround.nextConn_eq,
          hround.created_eq, hround.others, hround.handlers, hround.requests⟩
  exact hconns.trans (.of_treeStep hbelow.toStaysBelow ⟨rfl, rfl, rfl, rfl⟩)

theorem discoverAction_confined (hsrv : hasInit srvKeyInit srv = true) {a : Str}
    (h : discoverAction svc s [srv, a] = .ok s') :
    Confined false srv (serverConn s srv = some ·) P s s' := by
  unfold discoverAction at h
  split_ifs at h
  · cases h
    exact .refl s
  · obtain ⟨server, hserver, h⟩ := bind_eq_ok.1 h
    refine discover61850Server_confined hsrv ?_ h
    have hget : s.mapGet (s.ptr [srv]) = some server := deref_eq_ok.1 hserver
    rw [serverConn, hget]
    rfl

theorem removeLoop_staysBelow {keys : List Str} {t t' : σ} {removed : Option Bool}
    (h : removeLoop [srv] t removed keys = .ok t') : StaysBelow false srv t t' := by
  induction keys generalizing t removed with
  | nil =>
    match removed with
    | none =>
      cases h
      exact .refl false srv _
    | some false =>
      cases h
      exact .refl false srv _
    | some true => cases h
  | cons k keys ih =>
    by_cases hremoved : removed = some true
    · rw [hremoved, removeLoop] at h
      cases h
    · rw [removeLoop_cons hremoved] at h
      split_ifs at h
      · exact ih h
      · rename_i hk
        exact (staysBelow_removeTree (by simpa [keptKey] using hk) t []).trans (ih h)

theorem clearServerAction_confined {a : Str} (h : clearServerAction s [srv, a] = .ok s') :
    Confined false srv C P s s' := by
  obtain ⟨t, ht, h⟩ := bind_eq_ok.1 h
  cases h
  exact .setTree (removeLoop_staysBelow ht)

/-! ## Reports -/

/-- A node that is found is reached from the one where the search starts. -/
theorem scanNames_below {t : σ} {fcStr : Str} {names : List Str} {p p' : Path}
    (h : scanNames t fcStr p names = .ok (some p')) : p <+: p' := by
  induction names generalizing p with
  | nil =>
    cases h
    exact List.prefix_refl _
  | cons name names ih =>
    obtain ⟨found, hfound, h⟩ := bind_eq_ok.1 h
    cases found with
    | none => cases h
    | some next =>
      refine List.IsPrefix.trans ?_ (ih h)
      obtain ⟨_, -, hfound⟩ := bind_eq_ok.1 hfound
      split at hfound
      · rename_i next' hname
        cases hfound
        exact (getPath_below _ _ _ _ hname).1
      · obtain ⟨_, -, hfound⟩ := bind_eq_ok.1 hfound
        exact (getPath_below _ _ _ _ (Except.ok.inj hfound)).1

theorem getDANode_server {t : σ} {ref : Str} {p : Path}
    (h : getDANode t (srv :: q) ref = .ok (some p)) : ∃ r, p = srv :: r := by
  suffices hpre : [srv] <+: p by
    obtain ⟨r, rfl⟩ := hpre
    exact ⟨r, rfl⟩
  unfold getDANode getServerNode at h
  obtain ⟨_, -, h⟩ := bind_eq_ok.1 h
  split at h
  · cases h
  · dsimp only at h
    split_ifs at h
    · unfold scanServer at h
      dsimp only at h
      split at h
      · cases h
      · obtain ⟨_, -, h⟩ := bind_eq_ok.1 h
        split at h
        · cases h
        · rename_i ldNode hld
          split at h
          · cases h
          · split at h
            · cases h
            · rename_i lnNode hln
              exact ((getPath_below _ _ _ _ hld).1.trans (getPath_below _ _ _ _ hln).1).trans
                (scanNames_below h)
    · cases h

theorem publishMember_growsBelow {t t' : σ} {report : ClientReport} {i : ℕ} {entryName : Str}
    (h : publishMember (srv :: q) report t i entryName = .ok t') : GrowsBelow d srv t t' := by
  unfold publishMember at h
  split at h
  · cases h
  · cases h
    exact .refl d srv t
  · obtain ⟨daNode, hda, h⟩ := bind_eq_ok.1 h
    split at h
    · cases h
      exact .refl d srv t
    · obtain ⟨r, rfl⟩ := getDANode_server hda
      split at h
      · cases h
        exact .refl d srv t
      · rename_i valNode hval
        obtain ⟨values, -, h⟩ := bind_eq_ok.1 h
        rw [getPath_eq_child (by decide) (by decide)] at hval
        obtain ⟨rfl, -⟩ := child_eq_some.1 hval
        exact setValueNodeFromMMS_growsBelow (r := r ++ [daValueRefNodeKey]) (by simp) h

/-- A report changes the handler that it is delivered to and nodes below the server of this
handler. -/
theorem handleReport_confined {con : ConnId} {message : ReportMessage}
    (hconns : Keyed.Distinct Prod.fst s.connections)
    (howned : ∀ n, HandlerGiven s con n → ∃ p, n.path = srv :: p)
    (h : handleReport s con message = .ok s') :
    Confined d srv (· = con) P s s' := by
  unfold handleReport at h
  cases hfind : Keyed.find Prod.fst con s.connections with
  | none =>
    rw [hfind] at h
    cases h
    exact .refl s
  | some e =>
    rw [hfind] at h
    obtain ⟨delivered, hdelivered, h⟩ := bind_eq_ok.1 h
    cases delivered with
    | none =>
      cases h
      exact .refl s
    | some delivered =>
      obtain ⟨report, reports⟩ := delivered
      obtain ⟨hmem, hkeys⟩ := dispatchReport_keys hdelivered
      have he : e ∈ s.connections ∧ e.1 = con := ⟨Keyed.mem_of_find hfind, Keyed.key_of_find hfind⟩
      have hreports : Confined d srv (· = con) P s
          (s.modifyConnection con fun c => { c with enabledReports := reports }) := by
        refine .of_modifyConnection s rfl (fun _ => rfl) fun e' he' hcon r' hr' => .inl ?_
        have hsame : e' = e := by
          have hfind' := Keyed.find_of_mem hconns he'
          rw [hcon, hfind] at hfind'
          exact (Option.some.inj hfind').symm
        have hkey := List.mem_map_of_mem (f := handlerKey) hr'
        rw [hkeys] at hkey
        obtain ⟨r, hr, hrkey⟩ := List.mem_map.1 hkey
        exact ⟨r, hsame ▸ hr, congrArg Prod.fst hrkey⟩
      obtain ⟨r, hr, hkey⟩ := List.mem_map.1 hmem
      obtain ⟨p, hp⟩ := howned r.callbackParameter ⟨e, he.1, he.2, r, hr, rfl⟩
      have hparam : report.callbackParameter.path = srv :: p := by
        rw [← hp]
        exact congrArg (fun k => k.1.path) hkey.symm
      obtain ⟨t', refs, hpublish, rfl⟩ := reportCallbackFunction_ok h
      refine hreports.trans (.setTree ?_)
      rw [hparam] at hpublish
      exact (growsBelow_foldlM
        (fun _ _ _ hstep => publishMember_growsBelow hstep) hpublish).toStaysBelow

/-! ## Any action -/

/-- The actions on a server are children of its node, the others lie further down. -/
def InPlace (f : Callback) (q : Path) : Prop :=
  if f.onServer then ∃ a, q = [a] ∧ hasInit ndlKeyInit a = true else Deep f q

/-- The actions that leave what is below the logical devices as it is, but for values. -/
def Callback.keepsDevices : Callback → Bool
  | .discoverAction | .clearServerAction => false
  | _ => true

/-- **Actions.** An action that does not add or remove servers, invoked below a server. -/
theorem invokeAction_confined (hsrv : hasInit srvKeyInit srv = true) {f : Callback}
    (hplace : InPlace f q) (hedit : f ≠ .editServerAction) (hremove : f ≠ .removeServerAction)
    (h : invokeAction svc s (srv :: q) params f = .ok s') :
    Confined f.keepsDevices srv (serverConn s srv = some ·)
      (Asks s.tree (srv :: q) params f) s s' := by
  have hserver (hf : f.onServer = true) : ∃ a, q = [a] := by
    rw [InPlace, if_pos hf] at hplace
    obtain ⟨a, ha, -⟩ := hplace
    exact ⟨a, ha⟩
  have hbelow (hf : f.onServer = false) : Deep f q := by
    rwa [InPlace, if_neg (by rw [hf]; decide)] at hplace
  have hset {element : RcbElement} {update : ClientReportControlBlock → ClientReportControlBlock}
      {key : Str} {shown : Except Fault (Option Json)}
      (hrun : setRcbElement svc s (srv :: q) element update key shown = .ok s') (hq : 3 ≤ q.length)
      (hupdate : ∀ rcb, (update rcb).objectReference = rcb.objectReference)
      (hasks : ∀ r, AsksRcb s.tree (srv :: q) element update r →
        Asks s.tree (srv :: q) params f r) :
      Confined f.keepsDevices srv (serverConn s srv = some ·)
        (Asks s.tree (srv :: q) params f) s s' :=
    (setRcbElement_confined hq hupdate hrun).mono (fun _ => id) hasks
  unfold invokeAction at h
  cases f with
  | editServerAction => exact absurd rfl hedit
  | removeServerAction => exact absurd rfl hremove
  | discoverAction =>
    obtain ⟨a, rfl⟩ := hserver rfl
    exact discoverAction_confined hsrv h
  | clearServerAction =>
    obtain ⟨a, rfl⟩ := hserver rfl
    exact clearServerAction_confined h
  | prepareDatasetAction =>
    obtain ⟨t, ht, h⟩ := bind_eq_ok.1 h
    cases h
    exact .setTree (prepareDatasetAction_growsBelow hsrv (hbelow rfl).1 ht).toStaysBelow
  | addDAToDSAction =>
    obtain ⟨t, ht, h⟩ := bind_eq_ok.1 h
    cases h
    exact .setTree (addDAToDSAction_growsBelow hsrv ht).toStaysBelow
  | removeDatasetAction => exact removeDatasetAction_confined (hbelow rfl) h
  | rmMemberPrepdsAction =>
    obtain ⟨folder, r, -, hfolder, hdrop⟩ := (hbelow rfl).dropLast (d := true) srv
    cases h
    refine .setTree ?_
    rw [rmMemberPrepdsAction, hdrop]
    exact staysBelow_removeTree (hfolder rfl) s.tree r
  | removePrepdsAction =>
    obtain ⟨folder, r, -, hfolder, hdrop⟩ := (hbelow rfl).dropLast (d := true) srv
    cases h
    refine .setTree ?_
    rw [removePrepdsAction, hdrop]
    exact staysBelow_removeTree (hfolder rfl) s.tree r
  | createDsOnserverAction => exact createDsOnserverAction_confined hsrv (hbelow rfl) h
  | daValueReadAction =>
    obtain ⟨folder, r, -, -, hdrop⟩ := (hbelow rfl).dropLast (d := true) srv
    dsimp only at h
    rw [hdrop] at h
    exact nodeValueRead_confined (List.cons_ne_nil _ _) h
  | daValueWriteAction => exact daValueWriteAction_confined (hbelow rfl).1 h
  | controlAction => exact controlAction_confined (hbelow rfl).1 h
  | readRCBAction => exact readRCBAction_confined (hbelow rfl).1 h
  | forceGIRCBAction => exact forceGIRCBAction_confined h
  | setRptEnaAction => exact hset h (hbelow rfl).1 (fun _ => rfl) fun _ => id
  | setRptIdAction => exact hset h (hbelow rfl).1 (fun _ => rfl) fun _ => id
  | setDatSetAction => exact hset h (hbelow rfl).1 (fun _ => rfl) fun _ => id
  | setBufTmAction => exact hset h (hbelow rfl).1 (fun _ => rfl) fun _ => id
  | setIntgPdAction => exact hset h (hbelow rfl).1 (fun _ => rfl) fun _ => id
  | setOptFldsAction => exact hset h (hbelow rfl).1 (fun _ => rfl) fun _ hr => ⟨_, hr⟩
  | setTrgOpsAction => exact hset h (hbelow rfl).1 (fun _ => rfl) fun _ hr => ⟨_, hr⟩
  | serverSubbed =>
    cases h
    exact .refl s
  | daNodeListOpenedAction =>
    cases h
    exact .refl s
  | rcbDatSetNodeOpenAction =>
    cases h
    exact .refl s

end Actions

end DslinkIec61850
