import DslinkIec61850.Discovery.Controls
import DslinkIec61850.Link.Isolation

/-!
# Operate requests of a run

Where an operate request stands in what was sent, the control action was invoked on an
object whose reference and value it carries, and under a select-before-operate model the
request right before it is the select to which the IED agreed.

* `controlAction_sends`: what one invocation sends.
* `operates_authorised_run`: every operate request of a run.
-/

namespace DslinkIec61850

open DSLink LinkState Run

variable {σ W : Type}

/-! ## One invocation -/

theorem controlObjectCreate_some {svc : IedService W} {s : LinkState σ W} {con : ConnId} {ref : Str}
    {control : ControlObject} (h : (controlObjectCreate svc s con ref).1 = some control) :
    controlModelOf svc s con ref = some control.ctlModel ∧ control.objectReference = ref ∧
      (controlObjectCreate svc s con ref).2.world = (svc.createControl s.world con ref).2 := by
  unfold controlObjectCreate at h ⊢
  unfold controlModelOf
  split_ifs at h ⊢
  dsimp only at h ⊢
  cases hmodel : (svc.createControl s.world con ref).1 with
  | none =>
    simp [call, hmodel] at h
  | some model =>
    simp only [call, hmodel, Option.some.injEq] at h ⊢
    rw [← h]
    exact ⟨rfl, rfl, rfl⟩

theorem controlObjectCreate_requests (svc : IedService W) (s : LinkState σ W) (con : ConnId)
    (ref : Str) : (controlObjectCreate svc s con ref).2.requests = s.requests := by
  unfold controlObjectCreate
  split_ifs
  · dsimp only
    split <;> rfl
  · rfl

/-- The control models under which something is operated. -/
def ControlModel.Operable (m : ControlModel) : Prop := m ≠ .statusOnly ∧ m ≠ .undefined

/-- What is operated comes last, and the requests before it select. -/
theorem controlRequests_split {svc : IedService W} {w : W} {con : ConnId} {ref ref' : Str}
    {v v' : MmsValue} {ctlModel : ControlModel} {before after : List Request}
    (h : controlRequests svc w con ref v ctlModel = before ++ .operate ref' v' :: after) :
    after = [] ∧ ctlModel.Operable := by
  have hlast {l : List Request} {r : Request} (hr : l = [r])
      (hl : l = before ++ .operate ref' v' :: after) : after = [] := by
    rw [hr] at hl
    cases before with
    | nil => exact (List.cons.inj hl).2.symm
    | cons b before => simp at hl
  cases ctlModel with
  | directNormal => exact ⟨hlast rfl h, by simp [ControlModel.Operable]⟩
  | directEnhanced => exact ⟨hlast rfl h, by simp [ControlModel.Operable]⟩
  | sboNormal =>
    refine ⟨?_, by simp [ControlModel.Operable]⟩
    unfold controlRequests at h
    cases before with
    | nil => cases h
    | cons r before =>
      obtain ⟨-, hrest⟩ := List.cons.inj h
      split_ifs at hrest
      · cases before with
        | nil => exact (List.cons.inj hrest).2.symm
        | cons b before => simp at hrest
      · simp at hrest
  | sboEnhanced =>
    refine ⟨?_, by simp [ControlModel.Operable]⟩
    unfold controlRequests at h
    cases before with
    | nil => cases h
    | cons r before =>
      obtain ⟨-, hrest⟩ := List.cons.inj h
      split_ifs at hrest
      · cases before with
        | nil => exact (List.cons.inj hrest).2.symm
        | cons b before => simp at hrest
      · simp at hrest
  | statusOnly => simp [controlRequests] at h
  | undefined => simp [controlRequests] at h

variable [DSLink σ] {svc : IedService W} {s s' : LinkState σ W} {node : Path} {params : Json}
  {srv : Str} {q : Path}

/-- What one invocation sends. -/
theorem controlAction_sends (h : controlAction svc s node params = .ok s') :
    s'.requests = s.requests ∨ ∃ con ref type v ctlModel,
    s.getServerIedConnection node = .ok (some con) ∧
      controlTarget s.tree node.dropLast = some (some ref, some type) ∧
      controlValue params type = some v ∧
      controlModelOf svc s con ref = some ctlModel ∧ s'.requests = s.requests ++
        (controlRequests svc (svc.createControl s.world con ref).2 con ref v ctlModel).map
          (con, ·) := by
  unfold controlAction at h
  obtain ⟨⟨call, s₁⟩, h₁, h⟩ := bind_eq_ok.1 h
  unfold beginControl at h₁
  split at h₁
  · cases h₁
    cases h
    exact .inl rfl
  · rename_i ref type htarget
    obtain ⟨con?, hcon, h₁⟩ := bind_eq_ok.1 h₁
    split at h₁
    · cases h₁
      cases h
      exact .inl rfl
    · rename_i con
      obtain ⟨ref', href, h₁⟩ := bind_eq_ok.1 h₁
      obtain ⟨type', htype, h₁⟩ := bind_eq_ok.1 h₁
      rw [deref_eq_ok.1 href, deref_eq_ok.1 htype] at htarget
      have hcreated := controlObjectCreate_requests svc s con ref'
      have hsome {control : ControlObject}
          (h : (controlObjectCreate svc s con ref').1 = some control) :=
        controlObjectCreate_some h
      dsimp only at h₁
      split at h₁
      · cases h₁
        cases h
        exact .inl hcreated
      · rename_i v hv
        cases h₁
        dsimp only at h
        obtain ⟨control, hcontrol, h⟩ := bind_eq_ok.1 h
        obtain ⟨s₂, h₂, h⟩ := bind_eq_ok.1 h
        cases h
        obtain ⟨hmodel, hsame, hworld⟩ := hsome (deref_eq_ok.1 hcontrol)
        obtain ⟨hrequests, -⟩ :=
          performControl_eq svc (controlObjectCreate svc s con ref').2 con control v
        have hback : s₂.requests =
            (performControl svc (controlObjectCreate svc s con ref').2 con control v).requests :=
          (setControlStVal_treeStep h₂).requests_eq
        refine .inr ⟨con, ref', type', v, control.ctlModel, hcon, htarget, hv, hmodel, ?_⟩
        show s₂.requests = _
        rw [hback, hrequests, hcreated, hsame, hworld]

/-! ## Operate requests -/

/-- The invocation of `node` with `params` takes `s` to `s'` and sends the operate request
last, after the requests `before`. -/
structure Operates (svc : IedService W) (s s' : LinkState σ W) (node : Path) (params : Json)
    (con : ConnId) (ref : Str) (v : MmsValue) (before : List Request) : Prop where
  /-- The node is that of a control. -/
  action : Invokes s.tree node .controlAction
  /-- The request goes to the server of the node. -/
  server : ∃ srv q, node = srv :: q ∧ OwnConn s srv con
  /-- The reference is that of the object, the value that of the parameters for its type. -/
  target : ∃ type, controlTarget s.tree node.dropLast = some (some ref, some type) ∧
    controlValue params type = some v
  /-- The object can be operated, and was selected before where its control model says so. -/
  selected : ∃ ctlModel, controlModelOf svc s con ref = some ctlModel ∧ ctlModel.Operable ∧
    SelectedBefore svc (svc.createControl s.world con ref).2 con ref v before ctlModel
  /-- It is the only one. -/
  requests : s'.requests = s.requests ++ (before ++ [Request.operate ref v]).map (con, ·)
  once : ∀ r ∈ before, r.isOperate = false

theorem not_operate_of_split {w : W} {con : ConnId} {ref ref' : Str} {v v' : MmsValue}
    {ctlModel : ControlModel} {before after : List Request}
    (h : controlRequests svc w con ref v ctlModel = before ++ .operate ref' v' :: after) :
    ∀ r ∈ before, r.isOperate = false := by
  have hcount := countP_controlRequests svc w con ref v ctlModel
  rw [h, List.countP_append, List.countP_cons_of_pos rfl] at hcount
  intro r hr
  by_contra hop
  have : 0 < before.countP Request.isOperate := List.countP_pos_iff.2 ⟨r, hr, by simpa using hop⟩
  omega

/-- An operate request among what an event sent. -/
theorem linkEvent_operates (hinv : LinkInv s) {e : LinkEvent} (h : linkEvent svc s e = .ok s')
    {pre post : List (ConnId × Request)} {con : ConnId} {ref : Str} {v : MmsValue}
    (hsent : s'.requests = s.requests ++ (pre ++ (con, .operate ref v) :: post)) :
    ∃ node params before, e = .invoke node params ∧ pre = before.map (con, ·) ∧
      Operates svc s s' node params con ref v before := by
  obtain ⟨sent, heq, hcauses⟩ := linkEvent_requests hinv h
  obtain rfl : sent = _ := List.append_cancel_left (heq.symm.trans hsent)
  have hcause := hcauses (con, .operate ref v) (by simp)
  cases e with
  | invoke node params =>
    obtain ⟨srv, q, f, rfl, hf, -, hasks⟩ := hcause
    have hcontrol : f = .controlAction := by
      cases f <;> first | rfl | exact absurd hasks (by simp [Asks, AsksRcb])
    subst hcontrol
    have hrun : controlAction svc s (srv :: q) params = .ok s' := by
      unfold linkEvent at h
      dsimp only at h
      rw [show installed s.tree (srv :: q) DSNode.onInvocation = some .controlAction from hf] at h
      exact h
    obtain ⟨k, r, heq', hk, -⟩ := hinv.placed _ _ hf
    obtain ⟨rfl, -⟩ := List.cons.inj heq'
    rcases controlAction_sends hrun with
      hnone | ⟨con', ref', type, v', ctlModel, hcon, htarget, hv, hmodel, hreq⟩
    · rw [hnone] at hsent
      have := congrArg List.length hsent
      simp at this
    · have hlist := List.append_cancel_left (hreq.symm.trans hsent)
      obtain ⟨before, rest, hrequests, hbefore, hrest⟩ := List.map_eq_append_iff.1 hlist
      obtain ⟨r₁, after, hcons, hr₁, hafter⟩ := List.map_eq_cons_iff.1 hrest
      obtain ⟨rfl, rfl⟩ := Prod.mk.inj hr₁
      rw [hcons] at hrequests
      obtain ⟨rfl, hoperable⟩ := controlRequests_split hrequests
      have hmem : Request.operate ref v ∈
          controlRequests svc (svc.createControl s.world con' ref').2 con' ref' v' ctlModel := by
        rw [hrequests]
        simp
      obtain rfl := mem_controlRequests hmem
      obtain rfl : ref = ref' := by
        rcases mem_controlRequests_reference hmem with h | h | h
        · cases h
        · cases h
        · exact (Request.operate.inj h).1
      refine ⟨_, params, before, rfl, hbefore.symm, hf, ⟨srv, q, rfl, ?_⟩, ⟨type, htarget, hv⟩,
        ⟨ctlModel, hmodel, hoperable, selectedBefore_controlRequests hrequests⟩, ?_, ?_⟩
      · exact hinv.ownConn_of_serverConn hk (hinv.rooted _ _ hk hf.live) (serverConn_eq hcon)
      · rw [hreq, hrequests]
      · exact not_operate_of_split hrequests
  | addServer params => exact hcause.elim
  | listOpen node => exact hcause.elim
  | report con message => exact hcause.elim

/-- **Control over runs.** Every operate request that a run sends stands at the end of what
one invocation of a control action sent: for the reference that the object has and the value
of the parameters, after a select to which the IED agreed where the control model asks for
one, on the connection of the server of the object. -/
theorem operates_authorised_run (h₀ : Unused s) {run : List LinkEvent}
    (h : run.foldlM (linkEvent svc) s = .ok s') :
    ∃ sent, s'.requests = s.requests ++ sent ∧ ∀ pre con ref v post,
      sent = pre ++ (con, .operate ref v) :: post →
      ∃ done node params after s₁ s₂ before, run = done ++ .invoke node params :: after ∧
        done.foldlM (linkEvent svc) s = .ok s₁ ∧ linkEvent svc s₁ (.invoke node params) = .ok s₂ ∧
        s.requests ++ pre = s₁.requests ++ before.map (con, ·) ∧
        Operates svc s₁ s₂ node params con ref v before := by
  refine foldlM_progress (I := fun done s' => LinkInv s' ∧ done.foldlM (linkEvent svc) s = .ok s' ∧
    ∃ sent, s'.requests = s.requests ++ sent ∧ ∀ pre con ref v post,
      sent = pre ++ (con, .operate ref v) :: post →
      ∃ done node params after s₁ s₂ before, run = done ++ .invoke node params :: after ∧
        done.foldlM (linkEvent svc) s = .ok s₁ ∧ linkEvent svc s₁ (.invoke node params) = .ok s₂ ∧
        s.requests ++ pre = s₁.requests ++ before.map (con, ·) ∧
        Operates svc s₁ s₂ node params con ref v before)
    ?_ ?_ h |>.2.2
  · exact ⟨h₀.linkInv, rfl, [], by simp, by simp⟩
  · rintro done e rest hrun s₁ s₂ ⟨hinv, hdone, sent, heq, hsent⟩ hstep
    obtain ⟨more, hmore, -⟩ := linkEvent_requests hinv hstep
    refine ⟨hinv.step hstep, ?_, sent ++ more, by rw [hmore, heq, List.append_assoc], ?_⟩
    · rw [List.foldlM_append, hdone, ok_bind]
      exact foldlM_cons_eq_ok.2 ⟨s₂, hstep, rfl⟩
    · intro pre con ref v post hsplit
      -- The request was sent before, or it is one of this event.
      rcases List.append_eq_append_iff.1 hsplit with ⟨pre', rfl, hnew⟩ | ⟨post', hold, hrest⟩
      · rw [hnew] at hmore
        obtain ⟨node, params, before, rfl, hbefore, hoperates⟩ :=
          linkEvent_operates hinv hstep hmore
        refine ⟨done, node, params, rest, s₁, s₂, before, hrun, hdone, hstep, ?_, hoperates⟩
        rw [heq, ← hbefore, List.append_assoc]
      · cases post' with
        | nil =>
          rw [List.append_nil] at hold
          have hnew : more = [] ++ (con, .operate ref v) :: post := by simpa using hrest.symm
          rw [hnew] at hmore
          obtain ⟨node, params, before, rfl, hbefore, hoperates⟩ :=
            linkEvent_operates hinv hstep hmore
          refine ⟨done, node, params, rest, s₁, s₂, before, hrun, hdone, hstep, ?_, hoperates⟩
          rw [heq, ← hbefore, List.append_nil, hold]
        | cons r post' =>
          obtain ⟨rfl, -⟩ := List.cons.inj hrest
          exact hsent pre con ref v post' hold

/-! ## A switch that is found and operated -/

/-- A data object that is operated. -/
def switchNode : NodeModel where
  name := "N".toList
  objects :=
    [("P".toList, [("Oper".toList, .leaf .CO .boolean), ("stVal".toList, .leaf .ST .boolean)])]

theorem switchNode_ok : ModelName switchNode.name ∧ switchNode.tree.Ok := by
  have hobject : AttributeTree.Ok (.node
      [("Oper".toList, .leaf .CO .boolean), ("stVal".toList, .leaf .ST .boolean)]) :=
    .node (by decide) (by decide) (by simpa using ⟨.leaf (by decide), .leaf (by decide)⟩)
  exact ⟨by decide, .node (by decide) (by decide) (by simpa [switchNode] using hobject)⟩

/-- The server with this object agrees to be selected before it is operated. -/
def operatedService : IedService Unit :=
  let server := ServerModel.single "D".toList switchNode modelName_D switchNode_ok
  { server.service fun _ => some [] with
    createControl := fun w _ _ => (some .sboNormal, w)
    select := fun w _ _ => (true, w)
    operate := fun w _ _ _ => (true, w) }

/-- A server is added and discovered, and its switch is operated. -/
def operateRun : List LinkEvent :=
  [addEvent "a", .invoke (discoverNode "a".toList) (.object []),
    .invoke (daPath (srvKey "a".toList) "D".toList "N".toList "P".toList .ST [] ++ [controlKey])
      (.object [(daValueRefNodeKey, .boolean true)])]

/-- The link after this run. -/
def operated : LinkState NodeStore Unit :=
  match operateRun.foldlM (linkEvent operatedService) (rootLink ()) with
  | .ok s => s
  | .error _ => rootLink ()

theorem operates_authorised_run_switch :
    operated.requests.map (fun r => r.2.isOperate) = [false, true] ∧
    ∃ sent, operated.requests = (rootLink ()).requests ++ sent ∧
      ∀ pre con ref v post, sent = pre ++ (con, .operate ref v) :: post →
        ∃ done node params after s₁ s₂ before, operateRun = done ++ .invoke node params :: after ∧
          done.foldlM (linkEvent operatedService) (rootLink ()) = .ok s₁ ∧
          linkEvent operatedService s₁ (.invoke node params) = .ok s₂ ∧
          (rootLink ()).requests ++ pre = s₁.requests ++ before.map (con, ·) ∧
          Operates operatedService s₁ s₂ node params con ref v before :=
  ⟨by decide +kernel, operates_authorised_run (unused_rootLink ()) rfl⟩

end DslinkIec61850
