import DslinkIec61850.DataSet.Discovered
import DslinkIec61850.Link.Dispatch
import DslinkIec61850.Report.Flight

/-!
# The report control blocks after a discovery

A discovery reads every RCB that the server lists, creates its node and installs its
handler. Where the server keeps a data set and an RptID for each, the node has the data set
that was read, and the handler has no values before the first report.

* `RcbsFound.report`: what one RCB adds.
* `NothingDiscovered.flightInv`: where the runs of reports in flight begin.
-/

namespace DslinkIec61850

open DSLink Subtree LinkState Run ClientReportControlBlock

variable {σ W : Type} [DSLink σ] {svc : IedService W} {con : ConnId} {srv : Str}
  {datSetOf : W → Str → Str} {D : Str → Str} {s s' : LinkState σ W}

/-- A server keeps a data set for every RCB: reading an RCB delivers it, and reading changes
none. -/
structure KeepsDatSets (svc : IedService W) (con : ConnId) (datSetOf : W → Str → Str) : Prop where
  reads : ∀ D, ReadsKeep svc con fun w => datSetOf w = D
  readRCB : ∀ w ref, datSetOf (svc.readRCB w con ref).2 = datSetOf w
  reply : ∀ w ref values, (svc.readRCB w con ref).1 = some values →
    values[index (isBufferedRcb ref) .datSet]? = some (.visibleString (some (datSetOf w ref)))

/-! ## The node of an RCB -/

/-- The node is as the discovery made it for an RCB with the data set `d`. -/
structure ShowsRcb (t : σ) (p : Path) (b : Bool) (ref d : Str)
    (rcb : ClientReportControlBlock) (children : List RcbChild) : Prop where
  children_eq : rcbChildren σ ref b rcb = .ok children
  sub_eq : sub t p = rcbTree { namedNode ref with data := .rcb rcb } children
  reference : rcb.objectReference = ref
  buffered : rcb.isBuffered = isBufferedRcb ref
  datSet : rcb.datSet = some (.visibleString (some d))

namespace ShowsRcb

variable {t t' : σ} {p : Path} {b : Bool} {ref d : Str} {rcb : ClientReportControlBlock}
  {children : List RcbChild}

theorem congr (h : ShowsRcb t p b ref d rcb children)
    (hsame : ∀ r, lookup t' (p ++ r) = lookup t (p ++ r)) : ShowsRcb t' p b ref d rcb children :=
  { h with sub_eq := (funext hsame : sub t' p = sub t p).trans h.sub_eq }

theorem rcbOf (h : ShowsRcb t p b ref d rcb children) : rcbOf t p = .ok rcb := by
  have hroot := congrFun h.sub_eq []
  rw [sub_nil, rcbTree_nil] at hroot
  rw [DslinkIec61850.rcbOf, hroot]
  rfl

/-- The reference is shown, and the data set has its node. -/
theorem shown (h : ShowsRcb t p b ref d rcb children) :
    shownText t p objRefNodeKey = .ok (some ref) ∧ Live t (p ++ [keyOf .datSet]) := by
  have hchildren := h.children_eq
  obtain ⟨_, -, hchildren⟩ := bind_eq_ok.1 hchildren
  obtain ⟨optFlds, -, hchildren⟩ := bind_eq_ok.1 hchildren
  obtain ⟨trgOps, -, hchildren⟩ := bind_eq_ok.1 hchildren
  have hsub (r : Path) : lookup t (p ++ r) =
      rcbTree { namedNode ref with data := .rcb rcb } children r := congrFun h.sub_eq r
  cases hchildren
  have hreference : lookup t (p ++ [objRefNodeKey]) =
      some (subNode σ "Obj. Ref.".toList "string".toList (some (.string ref))) :=
    hsub [objRefNodeKey]
  have hlive : Live t (p ++ [objRefNodeKey]) := by
    rw [Live, hreference]
    rfl
  refine ⟨?_, ?_⟩
  · rw [shownText, getPath_eq_child (by decide) (by decide), child_eq_some.2 ⟨rfl, hlive⟩]
    dsimp only
    rw [valueOf, hreference]
    rfl
  · rw [Live, hsub]
    rfl

end ShowsRcb

/-! ## The rounds -/

/-- During a discovery every node of an RCB has the data set of the server, and the handlers
have arrays of one length. -/
structure RcbsFound (datSetOf : W → Str → Str) (D : Str → Str) (srv : Str) (s : LinkState σ W) :
    Prop where
  world : datSetOf s.world = D
  nodes : ∀ b ref, IsRcbNode s.tree (rcbPath srv b ref) ref →
    ∃ rcb children, ShowsRcb s.tree (rcbPath srv b ref) b ref (D ref) rcb children
  even : ∀ e ∈ s.connections, ∀ r ∈ e.2.enabledReports, r.Even

namespace RcbsFound

theorem start (heven : ∀ e ∈ s.connections, ∀ r ∈ e.2.enabledReports, r.Even) :
    RcbsFound datSetOf (datSetOf s.world) srv (withFolders s srv) where
  world := rfl
  nodes b ref hnode := absurd hnode (not_isRcbNode_folders s.tree b _ ref)
  even := heven

theorem quiet (hkeeps : KeepsDatSets svc con datSetOf) (h : RcbsFound datSetOf D srv s)
    (hquiet : QuietRound svc con srv s s') : RcbsFound datSetOf D srv s' where
  world := hquiet.world _ (hkeeps.reads D) h.world
  nodes b ref hnode := by
    have hsame (r : Path) : lookup s'.tree (rcbPath srv b ref ++ r) =
        lookup s.tree (rcbPath srv b ref ++ r) := (hquiet.rcbs b (rcbNodeKey b ref :: r)).1
    have hroot := hsame []
    rw [List.append_nil] at hroot
    rw [IsRcbNode, hroot] at hnode
    obtain ⟨rcb, children, hshows⟩ := h.nodes b ref hnode
    exact ⟨rcb, children, hshows.congr hsame⟩
  even := by
    rw [hquiet.step.connections_eq]
    exact h.even

/-- A handler has no values when it is installed. -/
theorem even_installReportHandler {c : Connection} (h : ∀ r ∈ c.enabledReports, r.Even)
    {ref : Str} {rptId : Option Str} {n : NodePtr} :
    ∀ r ∈ (c.installReportHandler ref rptId n).enabledReports, r.Even := by
  intro r hr
  rcases List.mem_append.1 hr with hold | hnew
  · exact h r (List.mem_of_mem_eraseP hold)
  · rw [List.mem_singleton.1 hnew]
    intro values hvalues
    cases hvalues

/-- A round for an RCB. -/
theorem report (hsrv : hasInit srvKeyInit srv = true) (hkeeps : KeepsDatSets svc con datSetOf)
    (h : RcbsFound datSetOf D srv s) {b created : Bool} {ref : Str}
    (hrun : getRCBInfoAndCreateNode svc s [srv] con ref b = .ok (created, s')) :
    RcbsFound datSetOf D srv s' := by
  have hworld : datSetOf s'.world = D := by
    rw [getRCBInfoAndCreateNode_world hrun, hkeeps.readRCB, h.world]
  rcases getRCBInfoAndCreateNode_ok hrun with
    ⟨-, htree, hstep⟩ | ⟨-, folder, rcb, children, s₁, hfolder, hread, -, hcreated⟩
  · refine ⟨hworld, ?_, ?_⟩
    · rw [htree]
      exact h.nodes
    · rw [hstep.connections_eq]
      exact h.even
  · obtain ⟨rfl, -⟩ := rcbFolder_eq hsrv hfolder
    obtain ⟨values, hreply, hupdate⟩ := getRCBValues_new hread
    obtain ⟨-, hbuffered, hreference, hfields⟩ := updateValues_ok hupdate
    have hdatSet : rcb.datSet = some (.visibleString (some (D ref))) := by
      obtain ⟨v, hv, hfield⟩ := hfields .datSet
      have hv' : values[index (isBufferedRcb ref) .datSet]? = some v := hv
      rw [hkeeps.reply s.world ref values hreply, h.world] at hv'
      cases hv'
      exact hfield
    refine ⟨hworld, ?_, ?_⟩
    · intro b' ref' hnode
      by_cases hprefix : rcbPath srv b ref <+: rcbPath srv b' ref'
      · obtain ⟨rfl, -⟩ := rcbPath_prefix hprefix
        have hpath : rcbPath srv b ref = rcbPath srv b ref' := hprefix.eq_of_length rfl
        have href : rcb.objectReference = ref' := by
          have hself := hcreated.isRcbNode
          rw [IsRcbNode, hpath, show (lookup _ _).bind _ = _ from hnode] at hself
          exact (Option.some.inj hself).symm
        obtain rfl : ref = ref' := hreference.symm.trans href
        exact ⟨rcb, children, hcreated.children_eq, hcreated.grafts.sub_eq, hreference, hbuffered,
          hdatSet⟩
      · have hother (r : Path) : ¬ rcbPath srv b ref <+: rcbPath srv b' ref' ++ r := by
          intro hpre
          exact hprefix (List.prefix_of_prefix_length_le hpre (List.prefix_append _ r) le_rfl)
        have hsame (r : Path) : lookup s'.tree (rcbPath srv b' ref' ++ r) =
            lookup s.tree (rcbPath srv b' ref' ++ r) :=
          hcreated.grafts.touches.frame _ (hother r)
        have hroot := hsame []
        rw [List.append_nil] at hroot
        rw [IsRcbNode, hroot] at hnode
        obtain ⟨rcb', children', hshows⟩ := h.nodes b' ref' hnode
        exact ⟨rcb', children', hshows.congr hsame⟩
    · intro e' he'
      rw [hcreated.connections_eq] at he'
      obtain ⟨e, he, -, heq⟩ := mem_modifyConnection he'
      rw [heq]
      split_ifs
      · exact even_installReportHandler (h.even e he)
      · exact h.even e he

end RcbsFound

variable {m : ServerModel} {dataSets : W → Str → Option (List Str)}
  {rptIdOf : W → ConnId → Str → Str} {members : Str → List MemberRef} {b : Bool} {ref : Str}

theorem ShowsDataSet.membersOf {t : σ} {texts : List Str} (h : ShowsDataSet t srv ref texts) :
    membersOf t (datasetPath srv (datasetKey ref)) = .ok texts := by
  obtain ⟨isDeletable, cs, -, -, hsub⟩ := h
  have hroot := congrFun hsub []
  rw [sub_nil, withChildren_nil] at hroot
  rw [DslinkIec61850.membersOf, hroot]
  rfl

/-- The handler for the RptID of an RCB. -/
theorem RptIdInv.handlerFor (h : RptIdInv rptIdOf s) {e : ConnId × Connection}
    (he : e ∈ s.connections) (hsrv : hasInit srvKeyInit srv = true)
    (howner : e.2.createdFor = s.ptr [srv])
    (hnode : IsRcbNode s.tree (rcbPath srv b ref) ref) :
    ∃ report ∈ e.2.enabledReports, handlerFor s e.1 (rptIdOf s.world e.1 ref) = some report ∧
      report.callbackParameter.path = rcbPath srv b ref := by
  have hto : DeliveredTo s e.1 ⟨rptIdOf s.world e.1 ref, [], [], none⟩ _ :=
    h.delivered e he srv b ref hsrv howner hnode _ rfl
  obtain ⟨report, hreport, hptr⟩ := Option.map_eq_some_iff.1 hto
  have hfind : Keyed.find Prod.fst e.1 s.connections = some e :=
    Keyed.find_of_mem h.maps.connDistinct he
  refine ⟨report, ?_, hreport, congrArg NodePtr.path hptr⟩
  rw [DslinkIec61850.handlerFor, hfind] at hreport
  exact List.mem_of_find?_eq_some hreport

/-- The runs of accepted changes begin there, too. -/
theorem FlightInv.rcbInv {q : Path} {rptId : Str} {dataSetOf : W → Str} {st : FlightState σ W}
    (h : FlightInv m srv q ref b rptId con dataSetOf members st) :
    RcbInv srv q ref rptId con (fun d => (members d).map MemberRef.text)
      (st.link, dataSetOf st.link.world) where
  tree := h.tree.configured
  connection := h.connection
  handler := h.handler

end DslinkIec61850
