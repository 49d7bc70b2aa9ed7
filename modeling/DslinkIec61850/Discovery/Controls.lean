import DslinkIec61850.Action.Control
import DslinkIec61850.Discovery.Attributes
import DslinkIec61850.Discovery.Frame
import DslinkIec61850.Link.Requests

/-!
# Discovered controls

A `control` node is added where an `Oper` is listed, and the control action looks
for the status value among the siblings of its node.

* `controls_operable_iff`: all `control` nodes find theirs exactly when no status
  has another constraint than `ST` and none belongs to an object below a data
  object whose `Oper` has another one.
-/

namespace DslinkIec61850

open DSLink Subtree Strings LinkState Run

variable {σ W : Type} [DSLink σ] {svc : IedService W} {con : ConnId} {m : ServerModel}
  {devices : LogicalDevices} {variableLists : Str → Option (List Str)} {srv ld ln n : Str} {t : σ}

/-! ## What the action finds -/

/-- The action finds the reference and the type among its siblings and goes on with
a connection. -/
def Operable (s : LinkState σ W) (node : Path) : Prop :=
  ∃ con ref typeStr, FindsControl s node con ref typeStr

/-- Every status that discovery takes for that of a control has the constraint
`ST`, and is that of a data object or was found by an `Oper` with that constraint. -/
def StatusInReach (m : ServerModel) : Prop :=
  ∀ ld ln n ns fc g, (∃ x, m.NodeOf ld ln x) → Listed m ld ln n → StatusOf m ld ln (n :: ns) fc →
    m.Has ld ln (n :: ns ++ [operName]) g → fc = .ST ∧ (ns = [] ∨ g = .ST)

theorem controlTarget_live {p : Path} {r : Option Str × Option Str}
    (h : controlTarget t p = some r) : Live t (p ++ [fcEntry stValName .ST]) := by
  unfold controlTarget at h
  obtain ⟨_, -, h⟩ := Option.bind_eq_some_iff.1 h
  obtain ⟨_, hst, -⟩ := Option.bind_eq_some_iff.1 h
  exact (child_eq_some.1 hst).2

theorem controlTarget_shown {p : Path} {type type' ref typeStr : Str}
    (href : sub t p [daObjectRefNodeKey] = some (.shown type (.string ref)))
    (hlive : (sub t p [fcEntry stValName .ST]).isSome)
    (htype : sub t p [fcEntry stValName .ST, "MMS Type".toList] =
      some (.shown type' (.string typeStr))) :
    controlTarget t p = some (some ref, some typeStr) := by
  have hkey : "stVal[ST]".toList = fcEntry stValName .ST := rfl
  have h₁ : child t p daObjectRefNodeKey = some (p ++ [daObjectRefNodeKey]) :=
    child_eq_some.2 ⟨rfl, Option.isSome_iff_exists.2 ⟨_, href⟩⟩
  have h₂ : child t p (fcEntry stValName .ST) = some (p ++ [fcEntry stValName .ST]) :=
    child_eq_some.2 ⟨rfl, hlive⟩
  have htype' : lookup t (p ++ [fcEntry stValName .ST] ++ ["MMS Type".toList]) =
      some (.shown type' (.string typeStr)) := by
    rw [List.append_assoc]
    exact htype
  have h₃ : child t (p ++ [fcEntry stValName .ST]) "MMS Type".toList =
      some (p ++ [fcEntry stValName .ST] ++ ["MMS Type".toList]) :=
    child_eq_some.2 ⟨rfl, Option.isSome_iff_exists.2 ⟨_, htype'⟩⟩
  have href' : lookup t (p ++ [daObjectRefNodeKey]) = some (.shown type (.string ref)) := href
  unfold controlTarget
  rw [hkey, h₁, h₂]
  simp only [Option.bind_eq_bind, Option.bind_some, h₃, valueOf, href', htype']
  rfl

/-- The constraint of a status is unique. -/
theorem StatusOf.fc_eq {names : List Str} {fc g : FunctionalConstraint}
    (h : StatusOf m ld ln names fc) (hhas : m.Has ld ln (names ++ [stValName]) g) : g = fc := by
  obtain ⟨type, hleaf, -⟩ := h
  obtain ⟨rest, type', hleaf'⟩ := hhas
  exact (hleaf.unique hleaf').2.1

/-- A `control` node of an object whose parts were built: what it finds. -/
theorem NodeBuilt.controlTarget_isSome {p : Path} {ns : List Str} {inFC : FunctionalConstraint}
    (h : NodeBuilt m ld ln (n :: ns) inFC (sub t p)) (hcontrol : Live t (p ++ [controlKey]))
    (hstVal : m.Has ld ln (n :: ns ++ [stValName]) .ST → Within inFC .ST →
      NodeBuilt m ld ln (n :: ns ++ [stValName]) .ST fun r =>
        sub t p (fcEntry stValName .ST :: r)) :
    (∃ ref typeStr, controlTarget t p = some (some ref, some typeStr)) ↔
      m.Has ld ln (n :: ns ++ [stValName]) .ST ∧ Within inFC .ST := by
  have hplain : PlainName stValName := ⟨by decide, by decide, by decide, by decide, by decide⟩
  constructor
  · rintro ⟨ref, typeStr, htarget⟩
    exact (h.entry stValName .ST hplain (by decide)).1 (controlTarget_live htarget)
  · rintro ⟨hhas, hwithin⟩
    have hlive := (h.entry stValName .ST hplain (by decide)).2 ⟨hhas, hwithin⟩
    obtain ⟨type, -, htype⟩ := (hstVal hhas hwithin).typeNode (by decide)
    exact ⟨_, _, controlTarget_shown (h.controlRef hcontrol) hlive htype⟩

/-- The status value that is looked up. -/
theorem Built.stVal (h : Built m ld ln [n] .NONE (sub t (doPath srv ld ln n))) {ns : List Str}
    (hhas : m.Has ld ln (n :: ns ++ [stValName]) .ST) :
    NodeBuilt m ld ln (n :: ns ++ [stValName]) .ST
      fun r => sub t (daPath srv ld ln n .ST ns) (fcEntry stValName .ST :: r) := by
  simp only [sub_daPath_snoc]
  exact h.nodeAt (by simp) hhas

/-- **Controls.** All `control` nodes below the data objects of a discovered server
are operable exactly when the status of each is in reach. -/
theorem controls_operable_iff (hsrv : hasInit srvKeyInit srv = true)
    (h : Serves svc con m devices variableLists) {s s' : LinkState σ W}
    (hnew : Undiscovered srv s.tree) (hcon : s.getServerIedConnection [srv] = .ok (some con))
    (hlive : con ∈ s.connections.map Prod.fst)
    (hrun : discover61850Server svc s [srv] con = .ok s') :
    (∀ ld ln n ns fc, n ∉ createdKeys → PlainNames ns → fc.Known →
        Live s'.tree (daPath srv ld ln n fc ns ++ [controlKey]) →
        Operable s' (daPath srv ld ln n fc ns ++ [controlKey])) ↔ StatusInReach m := by
  have hshape := discover61850Server_shape hsrv h.namesOk hnew hrun
  have hcovered := discover61850Server_covered hsrv h hnew hrun
  have hkeeps := discover61850Server_keeps hsrv hrun
  have hpath (ld ln n : Str) (ns : List Str) (fc : FunctionalConstraint) :
      daPath srv ld ln n fc ns ++ [controlKey] =
        srv :: ldKey ld :: ln :: n :: (attrPath fc ns ++ [controlKey]) := by simp [daPath, doPath]
  -- the connection is there, so only the target matters
  have hoperable (ld ln n : Str) (ns : List Str) (fc : FunctionalConstraint) :
      Operable s' (daPath srv ld ln n fc ns ++ [controlKey]) ↔
        ∃ ref typeStr, controlTarget s'.tree (daPath srv ld ln n fc ns) =
          some (some ref, some typeStr) := by
    constructor
    · rintro ⟨c, ref, typeStr, hfinds⟩
      have htarget := hfinds.target
      rw [List.dropLast_concat] at htarget
      exact ⟨ref, typeStr, htarget⟩
    · rintro ⟨ref, typeStr, htarget⟩
      refine ⟨con, ref, typeStr, ?_, ?_, ?_⟩
      · rw [List.dropLast_concat]
        exact htarget
      · rw [hpath, hkeeps.getServerIedConnection_eq]
        exact hcon
      · rw [hkeeps.connections_live]
        exact hlive
  constructor
  · intro hall ld ln n ns fc g hex hlisted hstatus hoper
    obtain ⟨x, hx⟩ := hex
    obtain ⟨-, hbuilt⟩ := hcovered.built_of_listed hx hlisted
    obtain ⟨-, -, hg, hnames⟩ := hoper.names_ok
    have hns : PlainNames ns := fun y hy => (hnames y (by simp [hy])).plain
    have htarget := fun hcontrol =>
      (hoperable ld ln n ns g).1 (hall ld ln n ns g hlisted.name_ok.2 hns hg hcontrol)
    cases ns with
    | nil =>
      rw [daPath_nil] at htarget
      have hcontrol : Live s'.tree (doPath srv ld ln n ++ [controlKey]) :=
        hbuilt.node.control.2 ⟨⟨fc, hstatus⟩, g, hoper, .inl rfl⟩
      obtain ⟨hhas, -⟩ := (hbuilt.node.controlTarget_isSome hcontrol fun hhas _ =>
        hbuilt.stVal hhas).1 (htarget hcontrol)
      exact ⟨(hstatus.fc_eq hhas).symm, .inl rfl⟩
    | cons y ns =>
      have hhas : m.Has ld ln (n :: y :: ns) g := ServerModel.Has.of_append [operName] hoper
      have hnode := hbuilt.nodeAt (by simp) hhas
      have hcontrol : Live s'.tree (daPath srv ld ln n g (y :: ns) ++ [controlKey]) :=
        hnode.control.2 ⟨⟨fc, hstatus⟩, g, hoper, .inr rfl⟩
      have hstVal (hhas : m.Has ld ln (n :: y :: ns ++ [stValName]) .ST) (hwithin : Within g .ST) :
          NodeBuilt m ld ln (n :: y :: ns ++ [stValName]) .ST
            fun r => sub s'.tree (daPath srv ld ln n g (y :: ns)) (fcEntry stValName .ST :: r) := by
        rw [← hwithin.resolve_left hg.2]
        exact hbuilt.stVal hhas
      obtain ⟨hst, hwithin⟩ := (hnode.controlTarget_isSome hcontrol hstVal).1 (htarget hcontrol)
      exact ⟨(hstatus.fc_eq hst).symm, .inr (hwithin.resolve_left hg.2).symm⟩
  · intro hreach ld ln n ns fc hn hns hfc hcontrol
    rw [hoperable]
    obtain ⟨hx, hlisted, hbuilt⟩ := hcovered.object_built hshape hn (hpath ld ln n ns fc ▸ hcontrol)
    cases ns with
    | nil =>
      rw [daPath_nil] at hcontrol ⊢
      obtain ⟨⟨fc', hstatus⟩, g, hoper, -⟩ := hbuilt.node.control.1 hcontrol
      obtain ⟨rfl, -⟩ := hreach ld ln n [] fc' g hx hlisted hstatus hoper
      obtain ⟨type, hleaf, -⟩ := hstatus
      exact (hbuilt.node.controlTarget_isSome hcontrol fun hhas _ => hbuilt.stVal hhas).2
        ⟨hleaf.has, .inl rfl⟩
    | cons y ns =>
      have hsome : (sub s'.tree (doPath srv ld ln n)
          (attrPath fc (y :: ns) ++ [controlKey])).isSome := by
        rw [← sub_append]
        exact hcontrol
      obtain ⟨hhas, -⟩ := hbuilt.has_of_isSome hns hfc hsome
      have hnode := hbuilt.nodeAt (by simp) hhas
      obtain ⟨⟨fc', hstatus⟩, g, hoper, hwithin⟩ := hnode.control.1 hcontrol
      obtain rfl := hwithin.resolve_left hfc.2
      obtain ⟨rfl, hns'⟩ := hreach ld ln n (y :: ns) fc' g hx hlisted hstatus hoper
      obtain rfl := hns'.resolve_left (by simp)
      obtain ⟨type, hleaf, -⟩ := hstatus
      exact (hnode.controlTarget_isSome hcontrol fun hst _ => hbuilt.stVal hst).2
        ⟨hleaf.has, .inr rfl⟩

/-! ## A control below a data object -/

/-- A data object with a controllable object below it. -/
def subControlNode : NodeModel where
  name := "N".toList
  objects := [("P".toList, [("S".toList, .node
    [("Oper".toList, .leaf .CO .boolean), ("stVal".toList, .leaf .ST .boolean)])])]

theorem subControlNode_ok : ModelName subControlNode.name ∧ subControlNode.tree.Ok := by
  have hsub : AttributeTree.Ok (.node
      [("Oper".toList, .leaf .CO .boolean), ("stVal".toList, .leaf .ST .boolean)]) :=
    .node (by decide) (by decide) (by simpa using ⟨.leaf (by decide), .leaf (by decide)⟩)
  have hobject : AttributeTree.Ok (.node [("S".toList, .node
      [("Oper".toList, .leaf .CO .boolean), ("stVal".toList, .leaf .ST .boolean)])]) :=
    .node (by decide) (by decide) (by simpa using hsub)
  exact ⟨by decide, .node (by decide) (by decide) (by simpa [subControlNode] using hobject)⟩

/-- A server with this logical node. -/
def subControl : ServerModel := .single "D".toList subControlNode modelName_D subControlNode_ok

/-- The service of this server. -/
def subControlService : IedService Unit := subControl.service fun _ => some []

/-- The link after the discovery of this server. -/
def subControlLink : LinkState NodeStore Unit :=
  match discover61850Server subControlService oneServer [srvKey "a".toList] 0 with
  | .ok s => s
  | .error _ => oneServer

theorem subControl_run :
    discover61850Server subControlService oneServer [srvKey "a".toList] 0 = .ok subControlLink :=
  rfl

/-- What is below the server is read off the list of the nodes. -/
theorem undiscovered_of_nodes {t : NodeStore} (h : ∀ e ∈ t.nodes, e.1.length < 2 ∨
    (hasInit ndlKeyInit (e.1.getD 1 []) = true ∧ e.2.onListOpen = none)) (srv : Str) :
    Undiscovered srv t := by
  intro k rs node hnode
  obtain ⟨e, he, rfl⟩ := Option.map_eq_some_iff.1 hnode
  have hpath : e.1 = srv :: k :: rs := Keyed.key_of_find he
  rcases h e (Keyed.mem_of_find he) with hlt | ⟨hndl, hopen⟩
  · simp [hpath] at hlt
  · rw [hpath] at hndl
    exact ⟨hndl, by simp [IsAttributeNode, hopen]⟩

theorem undiscovered_oneServer (srv : Str) : Undiscovered srv oneServer.tree :=
  undiscovered_of_nodes (by decide +kernel) srv

theorem controls_operable_iff_sub :
    (∀ ld ln n ns fc, n ∉ createdKeys → PlainNames ns → fc.Known →
        Live subControlLink.tree (daPath (srvKey "a".toList) ld ln n fc ns ++ [controlKey]) →
        Operable subControlLink (daPath (srvKey "a".toList) ld ln n fc ns ++ [controlKey])) ↔
      StatusInReach subControl :=
  controls_operable_iff (by decide) (subControl.serves_service (fun _ => rfl) 0)
    (undiscovered_oneServer _) (by rfl) (by decide +kernel) subControl_run

/-- The status lies under another node than the control. -/
theorem subControl_unreached :
    discover61850Server subControlService oneServer [srvKey "a".toList] 0 = .ok subControlLink ∧
      ¬ ∀ ld ln n ns fc, n ∉ createdKeys → PlainNames ns → fc.Known →
        Live subControlLink.tree (daPath (srvKey "a".toList) ld ln n fc ns ++ [controlKey]) →
        Operable subControlLink (daPath (srvKey "a".toList) ld ln n fc ns ++ [controlKey]) := by
  refine ⟨subControl_run, fun hall => ?_⟩
  obtain ⟨con, ref, typeStr, hfinds⟩ := hall "D".toList "N".toList "P".toList ["S".toList] .CO
    (by decide) (by simpa [PlainNames] using
      ⟨by decide, by decide, by decide, by decide, by decide⟩)
    (by decide) (by decide +kernel)
  have htarget := hfinds.target
  rw [List.dropLast_concat] at htarget
  have hnot : ¬ Live subControlLink.tree
      (daPath (srvKey "a".toList) "D".toList "N".toList "P".toList .CO
      ["S".toList] ++ [fcEntry stValName .ST]) := by decide +kernel
  exact hnot (controlTarget_live htarget)

end DslinkIec61850
