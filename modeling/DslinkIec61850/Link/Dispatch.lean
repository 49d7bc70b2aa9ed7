import DslinkIec61850.Link.Handlers
import DslinkIec61850.Report.Changes

/-!
# RptIDs

A report goes to the first handler that is registered for its RptID. The RptID of an RCB
is kept by the server, by the local copy and by the handler; `setRptIdAction` changes the
first two.

* `reports_delivered_run`: in a run without a change of an RptID, and where RCBs have
  different ones, every report reaches the node of its RCB.
-/

namespace DslinkIec61850

open DSLink Strings LinkState Run ClientReportControlBlock

variable {σ W : Type} [DSLink σ] {svc : IedService W} {rptIdOf : W → ConnId → Str → Str}
  {s s' : LinkState σ W}

/-! ## Servers with RptIDs -/

/-- A server keeps an RptID for every reference of an RCB: reading an RCB delivers it, and
reading changes none. -/
structure KeepsRptIds (svc : IedService W) (rptIdOf : W → ConnId → Str → Str) : Prop where
  reads : ∀ con con' ref id, ReadsKeep svc con fun w => rptIdOf w con' ref = id
  readRCB : ∀ w con con' ref ref', rptIdOf (svc.readRCB w con ref').2 con' ref = rptIdOf w con' ref
  reply : ∀ w con ref values, (svc.readRCB w con ref).1 = some values →
    values[0]? = some (.visibleString (some (rptIdOf w con ref)))

theorem KeepsRptIds.of_reads (h : KeepsRptIds svc rptIdOf) {con : ConnId} {w w' : W}
    (hreads : Reads svc con w w')
    (con' : ConnId) (ref : Str) : rptIdOf w' con' ref = rptIdOf w con' ref := by
  have hkeep := h.reads con con' ref (rptIdOf w con' ref)
  exact hreads.keep hkeep (fun w' ref' hw' => (h.readRCB w' con con' ref ref').trans hw') rfl

/-! ## Delivery -/

/-- The handler that is registered for the RptID of the report was given the node `n`. -/
def DeliveredTo (s : LinkState σ W) (con : ConnId) (message : ReportMessage) (n : NodePtr) : Prop :=
  (handlerFor s con message.rptId).map ClientReport.callbackParameter = some n

/-- A report that is delivered to a node is merged into its handler, and the callback is
called once, with this handler. -/
theorem DeliveredTo.handleReport_eq {con : ConnId} {message : ReportMessage} {n : NodePtr}
    (h : DeliveredTo s con message n) :
    ∃ report : ClientReport, report.callbackParameter = n ∧
      ((∃ e, report.merge message = .error e ∧ handleReport s con message = .error e) ∨
        ∃ (report' : ClientReport) (reports : List ClientReport),
          report.merge message = .ok report' ∧ report'.callbackParameter = n ∧
          handleReport s con message =
            reportCallbackFunction
              (s.modifyConnection con fun c => { c with enabledReports := reports }) report') := by
  obtain ⟨report, hreport, rfl⟩ := Option.map_eq_some_iff.1 h
  obtain ⟨c, hc, hfind⟩ := deliveredReport_handler hreport
  refine ⟨report, rfl, ?_⟩
  unfold handleReport
  rw [hc]
  dsimp only
  cases hmerge : report.merge message with
  | error e =>
    rw [dispatchReport_error hfind hmerge]
    exact .inl ⟨e, rfl, rfl⟩
  | ok report' =>
    have hkey := merge_handlerKey hmerge
    have hid : report'.matchId = report.matchId := by
      have href : report'.rcbReference = report.rcbReference := congrArg (fun x => x.2.1) hkey
      have hrptId : report'.rptId = report.rptId := congrArg (fun x => x.2.2) hkey
      rw [ClientReport.matchId, ClientReport.matchId, href, hrptId]
    obtain ⟨reports, hdispatch, -⟩ := dispatchReport_ok hfind hmerge hid
    rw [hdispatch]
    exact .inr ⟨report', reports, rfl, congrArg Prod.fst hkey, rfl⟩

/-- Every report that carries the RptID of an RCB is delivered to the node of this RCB. -/
def ReportsDelivered (rptIdOf : W → ConnId → Str → Str) (s : LinkState σ W) : Prop :=
  ∀ e ∈ s.connections, ∀ k b ref, hasInit srvKeyInit k = true → e.2.createdFor = s.ptr [k] →
    IsRcbNode s.tree (rcbPath k b ref) ref → ∀ message : ReportMessage,
      message.rptId = rptIdOf s.world e.1 ref → DeliveredTo s e.1 message (s.ptr (rcbPath k b ref))

/-! ## The three copies -/

/-- Every handler is registered for the RptID that the server keeps, no two handlers of a
connection for the same one, and every RCB node was given to a handler. -/
structure IdsAgree (rptIdOf : W → ConnId → Str → Str) (s : LinkState σ W) : Prop where
  registered : ∀ e ∈ s.connections, ∀ r ∈ e.2.enabledReports,
    r.rptId = some (rptIdOf s.world e.1 r.rcbReference)
  apart : ∀ e ∈ s.connections, ∀ r ∈ e.2.enabledReports, ∀ r' ∈ e.2.enabledReports,
    rptIdOf s.world e.1 r.rcbReference = rptIdOf s.world e.1 r'.rcbReference →
    r.rcbReference = r'.rcbReference
  covered : ∀ e ∈ s.connections, ∀ k b ref, hasInit srvKeyInit k = true →
    e.2.createdFor = s.ptr [k] → IsRcbNode s.tree (rcbPath k b ref) ref →
      ∃ r ∈ e.2.enabledReports, r.rcbReference = ref ∧ r.callbackParameter = s.ptr (rcbPath k b ref)

theorem IdsAgree.delivered (h : IdsAgree rptIdOf s) (hconns : Keyed.Distinct Prod.fst s.connections)
    (hdistinct : ∀ e ∈ s.connections, Keyed.Distinct ClientReport.rcbReference e.2.enabledReports) :
    ReportsDelivered rptIdOf s := by
  intro e he k b ref hk howner hnode message hid
  obtain ⟨r, hr, href, hptr⟩ := h.covered e he k b ref hk howner hnode
  have hfind : Keyed.find Prod.fst e.1 s.connections = some e := Keyed.find_of_mem hconns he
  have hmatch {r' : ClientReport} (hr' : r' ∈ e.2.enabledReports) :
      r'.matchId = rptIdOf s.world e.1 r'.rcbReference := by
    rw [ClientReport.matchId, h.registered e he r' hr']
    rfl
  have hfirst : e.2.enabledReports.find? (fun report => report.matchId = message.rptId) =
      some r := by
    cases hfound : e.2.enabledReports.find? (fun report => report.matchId = message.rptId) with
    | none =>
      have hnone := List.find?_eq_none.1 hfound r hr
      rw [hmatch hr, href, hid] at hnone
      simp at hnone
    | some r' =>
      have hr' := List.mem_of_find?_eq_some hfound
      have hid' := List.find?_some hfound
      rw [decide_eq_true_eq, hmatch hr', hid, ← href] at hid'
      have hsame := h.apart e he r' hr' r hr hid'
      rw [List.inj_on_of_nodup_map (hdistinct e he) hr' hr hsame]
  rw [DeliveredTo, handlerFor, hfind, Option.map_some, Option.bind_some, hfirst,
    Option.map_some, hptr]

theorem IdsAgree.frame (h : IdsAgree rptIdOf s)
    (hconns : s'.connections.map connKey = s.connections.map connKey)
    (hrcbs : ∀ k, SameRcbs s.tree s'.tree k)
    (hids : ∀ con ref, rptIdOf s'.world con ref = rptIdOf s.world con ref) :
    IdsAgree rptIdOf s' := by
  have hold {e' : ConnId × Connection} (he' : e' ∈ s'.connections) : ∃ e ∈ s.connections,
      e.1 = e'.1 ∧
      e.2.createdFor = e'.2.createdFor ∧
      e.2.enabledReports.map handlerKey = e'.2.enabledReports.map handlerKey := by
    have hmem := List.mem_map_of_mem (f := connKey) he'
    rw [hconns] at hmem
    obtain ⟨e, he, hkey⟩ := List.mem_map.1 hmem
    exact ⟨e, he, congrArg (fun x : ConnId × NodePtr × List (NodePtr × Str × Option Str) => x.1)
      hkey, congrArg (fun x => x.2.1) hkey, congrArg (fun x => x.2.2) hkey⟩
  have hhandler {l l' : List ClientReport}
      (hkeys : l.map handlerKey = l'.map handlerKey) {r' : ClientReport}
      (hr' : r' ∈ l') : ∃ r ∈ l, r.callbackParameter = r'.callbackParameter ∧
      r.rcbReference = r'.rcbReference ∧
        r.rptId = r'.rptId := by
    have hmem := List.mem_map_of_mem (f := handlerKey) hr'
    rw [← hkeys] at hmem
    obtain ⟨r, hr, hkey⟩ := List.mem_map.1 hmem
    exact ⟨r, hr, congrArg Prod.fst hkey, congrArg (fun x => x.2.1) hkey,
      congrArg (fun x => x.2.2) hkey⟩
  have hptr (k : Str) : s'.ptr [k] = s.ptr [k] := by rw [ptr, ptr, (hrcbs k).server.2]
  refine ⟨?_, ?_, ?_⟩
  · intro e' he' r' hr'
    obtain ⟨e, he, hcon, -, hkeys⟩ := hold he'
    obtain ⟨r, hr, -, href, hid⟩ := hhandler hkeys hr'
    rw [← hid, ← href, hids, ← hcon]
    exact h.registered e he r hr
  · intro e' he' r₁' hr₁' r₂' hr₂' heq
    obtain ⟨e, he, hcon, -, hkeys⟩ := hold he'
    obtain ⟨r₁, hr₁, -, href₁, -⟩ := hhandler hkeys hr₁'
    obtain ⟨r₂, hr₂, -, href₂, -⟩ := hhandler hkeys hr₂'
    rw [← href₁, ← href₂, hids, hids, ← hcon] at heq
    rw [← href₁, ← href₂]
    exact h.apart e he r₁ hr₁ r₂ hr₂ heq
  · intro e' he' k b ref hk howner hnode
    obtain ⟨e, he, -, hcreated, hkeys⟩ := hold he'
    rw [← hcreated, hptr] at howner
    have hsame := (hrcbs k).nodes b [rcbNodeKey b ref]
    obtain ⟨r, hr, href, hparameter⟩ :=
      h.covered e he k b ref hk howner (hsame.isRcbNode_iff.1 hnode)
    obtain ⟨r', hr', hparameter', href', -⟩ := hhandler hkeys.symm hr
    refine ⟨r', hr', href'.trans href, ?_⟩
    have hident : ident s'.tree (rcbPath k b ref) = ident s.tree (rcbPath k b ref) := hsame.2
    rw [hparameter', hparameter, ptr, ptr, hident]

/-! ## Setting an RptID -/

theorem sameNodes_setRcb {t : σ} {p : Path} {rcb : ClientReportControlBlock}
    (h : IsRcbNode t p rcb.objectReference) : SameNodes t (setRcb t p rcb) := by
  refine ⟨fun q => ⟨?_, ident_modify ..⟩, fresh_modify ..⟩
  rw [setRcb, lookup_modify]
  split_ifs with hq
  · obtain ⟨n, hn, hrcb⟩ := Option.bind_eq_some_iff.1 h
    rw [hq, hn, Option.map_some, Option.map_some, Option.map_some, hrcb]
    rfl
  · rfl

theorem setValueAt_sameNodes {t t' : σ} {node : Path} {key : Str} {v : Option Json}
    (h : setValueAt t node key v = .ok t') : SameNodes t t' := by
  obtain ⟨q, -, h⟩ := bind_eq_ok.1 h
  cases h
  exact sameNodes_setValue t q v

theorem setNodeRCBValues_sameNodes {t t' : σ} {node : Path} {rcb : ClientReportControlBlock}
    (h : setNodeRCBValues t node rcb = .ok t') : SameNodes t t' := by
  obtain ⟨t₁, h₁, h⟩ := bind_eq_ok.1 h
  obtain ⟨t₂, h₂, h⟩ := bind_eq_ok.1 h
  obtain ⟨t₃, h₃, h⟩ := bind_eq_ok.1 h
  obtain ⟨t₄, h₄, h⟩ := bind_eq_ok.1 h
  obtain ⟨t₅, h₅, h⟩ := bind_eq_ok.1 h
  obtain ⟨t₆, h₆, h⟩ := bind_eq_ok.1 h
  obtain ⟨_, -, h⟩ := bind_eq_ok.1 h
  obtain ⟨_, -, h⟩ := bind_eq_ok.1 h
  obtain ⟨t₇, h₇, h⟩ := bind_eq_ok.1 h
  obtain ⟨_, -, h₈⟩ := bind_eq_ok.1 h
  have hfirst := ((setValueAt_sameNodes h₁).trans (setValueAt_sameNodes h₂)).trans
    (setValueAt_sameNodes h₃)
  have hsecond := ((setValueAt_sameNodes h₄).trans (setValueAt_sameNodes h₅)).trans
    (setValueAt_sameNodes h₆)
  exact (hfirst.trans hsecond).trans ((setValueAt_sameNodes h₇).trans (setValueAt_sameNodes h₈))

/-- The world after the write of a Set-RptId. -/
def writtenRptId (svc : IedService W) (s : LinkState σ W) (con : ConnId)
    (rcb : ClientReportControlBlock) (params : Json) : W :=
  (svc.writeRCB s.world con rcb.objectReference .rptId
    (rcb.setRptId (Json.stringValue (valueMember params))).rptId).2

/-- Nothing happens, or the RptID is written and, when the write fails, the RCB is read
back; the handlers are left in any case. -/
theorem setRptIdAction_keeps {node : Path} {params : Json}
    (h : setRptIdAction svc s node params = .ok s') :
    s' = s ∨ ∃ con rcb, s.getServerIedConnection node = .ok (some con) ∧
      rcbOf s.tree node.dropLast.dropLast = .ok rcb ∧ KeepsNodes s s' ∧
      (s'.world = writtenRptId svc s con rcb params ∨
        ∃ ref, s'.world = (svc.readRCB (writtenRptId svc s con rcb params) con ref).2) := by
  obtain ⟨con, hcon, h⟩ := bind_eq_ok.1 h
  obtain ⟨ref, href, h⟩ := bind_eq_ok.1 h
  obtain ⟨rcb, hrcb, h⟩ := bind_eq_ok.1 h
  cases con with
  | none =>
    cases h
    exact .inl rfl
  | some con =>
    cases ref with
    | none =>
      cases h
      exact .inl rfl
    | some ref =>
      dsimp only at h
      obtain ⟨_, -, h⟩ := bind_eq_ok.1 h
      obtain ⟨t, ht, h⟩ := bind_eq_ok.1 h
      let rcb' := rcb.setRptId (Json.stringValue (valueMember params))
      have href : rcb'.objectReference = rcb.objectReference := rfl
      have hnode : IsRcbNode s.tree node.dropLast.dropLast rcb'.objectReference := by
        rw [href]
        exact isRcbNode_of_rcbOf hrcb
      have htree : SameNodes s.tree t := (sameNodes_setRcb hnode).trans (setValueAt_sameNodes ht)
      refine .inr ⟨con, rcb, hcon, hrcb, ?_⟩
      split_ifs at h
      · cases h
        exact ⟨⟨htree, rfl, rfl, rfl, rfl⟩, .inl rfl⟩
      · obtain ⟨⟨read, s₁⟩, hread, h⟩ := bind_eq_ok.1 h
        obtain ⟨t', ht', h⟩ := bind_eq_ok.1 h
        cases h
        obtain ⟨htree₁, hstep⟩ := getRCBValues_ok hread
        have hback : IsRcbNode s₁.tree node.dropLast.dropLast (read.getD rcb').objectReference := by
          rw [getRCBValues_reference hread, htree₁]
          exact (htree.node _).isRcbNode_iff.2 hnode
        have hset := (sameNodes_setRcb hback).trans (setNodeRCBValues_sameNodes ht')
        rw [htree₁] at hset
        refine ⟨⟨htree.trans hset, hstep.serverMap_eq, ?_, ?_, hstep.nextConn_eq⟩,
          .inr ⟨ref, getRCBValues_world hread⟩⟩
        · show s₁.connections.map connKey = _
          rw [hstep.connections_eq]
          rfl
        · show s₁.connections.map ownerOf = _
          rw [hstep.connections_eq]
          rfl

/-! ## Discovering -/

/-- RCBs that the server lists have different RptIDs. -/
def IdsApart (svc : IedService W) (rptIdOf : W → ConnId → Str → Str) (con : ConnId)
    (w : W) : Prop :=
  ∀ b b' ref ref', ListedReport svc con w b ref → ListedReport svc con w b' ref' →
    rptIdOf w con ref = rptIdOf w con ref' → b = b' ∧ ref = ref'

section Discovery

variable {con : ConnId} {srv : Str} {w : W}

theorem IdsAgree.quiet (h : IdsAgree rptIdOf s) (hids : KeepsRptIds svc rptIdOf)
    (hquiet : QuietRound svc con srv s s') : IdsAgree rptIdOf s' := by
  apply h.frame
  · rw [hquiet.step.connections_eq]
  · exact hquiet.sameRcbs
  · exact hids.of_reads (hquiet.world _ (readsKeep_reads svc con s.world) .refl)

/-- The RptID that is read is the one that the server keeps. -/
theorem KeepsRptIds.getRptId (hids : KeepsRptIds svc rptIdOf) {ref : Str}
    {rcb : ClientReportControlBlock}
    {values : List MmsValue} {w : W} (hreply : (svc.readRCB w con ref).1 = some values)
    (hupdate : (ClientReportControlBlock.create ref).updateValues values = .ok rcb) :
    rcb.getRptId = some (rptIdOf w con ref) := by
  obtain ⟨v, hv, hfield⟩ := (updateValues_ok hupdate).2.2.2 .rptId
  have hzero : values[0]? = some v := hv
  rw [hids.reply w con ref values hreply] at hzero
  cases hzero
  have hrptId : rcb.rptId = some (.visibleString (some (rptIdOf w con ref))) := hfield
  rw [ClientReportControlBlock.getRptId, hrptId]
  rfl

variable {b : Bool} {ref : Str} {rcb : ClientReportControlBlock} {children : List RcbChild}

/-- The node of a new RCB is given to a handler, and the others keep theirs. -/
theorem IdsAgree.created (h : IdsAgree rptIdOf s) (hbefore : DiscoveryInv svc con srv w s)
    (hafter : DiscoveryInv svc con srv w s') (hids : KeepsRptIds svc rptIdOf)
    (happart : IdsApart svc rptIdOf con w) (hlisted : ListedReport svc con w b ref)
    (hcreated : RcbCreated s s' con [srv, rcbFolderKey b] b ref rcb children)
    (hrcb : rcb.objectReference = ref)
    (hrptId : rcb.getRptId = some (rptIdOf s.world con ref)) : IdsAgree rptIdOf s' := by
  have hworld (con' : ConnId) (ref' : Str) :
      rptIdOf s'.world con' ref' = rptIdOf s.world con' ref' := by
    rw [hids.of_reads hafter.world, hids.of_reads hbefore.world]
  have hptr (k : Str) : s'.ptr [k] = s.ptr [k] := by
    have hsame : SameNode s.tree s'.tree [k] :=
      hcreated.sameNode fun hpre => absurd hpre.length_le (by simp [rcbPath])
    rw [ptr, ptr, hsame.2]
  let n : NodePtr := ⟨rcbPath srv b ref, fresh s.tree⟩
  have hconn {e' : ConnId × Connection} (he' : e' ∈ s'.connections) : ∃ e ∈ s.connections,
      e'.1 = e.1 ∧
      e'.2 = if e.1 = con then e.2.installReportHandler ref rcb.getRptId n else e.2 := by
    rw [hcreated.connections_eq] at he'
    exact mem_modifyConnection he'
  refine ⟨?_, ?_, ?_⟩
  · intro e' he' r hr
    obtain ⟨e, he, hfst, heq⟩ := hconn he'
    rw [hworld, hfst]
    rw [heq] at hr
    split_ifs at hr with hcon
    · rcases (mem_installReportHandler (hbefore.handlers.distinct e he)).1 hr with ⟨hold, -⟩ | rfl
      · exact h.registered e he r hold
      · rw [hcon]
        exact hrptId
    · exact h.registered e he r hr
  · intro e' he' r hr r' hr' hsame
    obtain ⟨e, he, hfst, heq⟩ := hconn he'
    by_cases hcon : e'.1 = con
    · obtain ⟨b₁, -, hlisted₁⟩ := hafter.listed e' he' hcon r hr
      obtain ⟨b₂, -, hlisted₂⟩ := hafter.listed e' he' hcon r' hr'
      rw [hcon, hids.of_reads hafter.world, hids.of_reads hafter.world] at hsame
      exact (happart b₁ b₂ _ _ hlisted₁ hlisted₂ hsame).2
    · rw [heq, if_neg (by rwa [← hfst])] at hr hr'
      rw [hworld, hworld, hfst] at hsame
      exact h.apart e he r hr r' hr' hsame
  · intro e' he' k b' ref' hk howner hnode
    obtain ⟨e, he, hfst, heq⟩ := hconn he'
    by_cases hserver : k = srv
    · subst hserver
      have hcon : e.1 = con := hfst ▸ (hafter.own e' he').1 howner
      rw [heq, if_pos hcon]
      by_cases hpath : rcbPath k b ref <+: rcbPath k b' ref'
      · obtain ⟨rfl, hkey⟩ := rcbPath_prefix hpath
        have hsame : rcbPath k b ref' = rcbPath k b ref := by rw [rcbPath, rcbPath, hkey]
        rw [hsame] at hnode ⊢
        have href : ref' = ref := by
          have hroot := hcreated.isRcbNode
          rw [IsRcbNode, hrcb] at hroot
          rw [IsRcbNode, hroot] at hnode
          exact (Option.some.inj hnode).symm
        have hident : ident s'.tree (rcbPath k b ref) = fresh s.tree := hcreated.ident_eq
        refine ⟨_, (mem_installReportHandler (hbefore.handlers.distinct e he)).2 (.inr rfl),
          href.symm, ?_⟩
        rw [ptr, hident]
      · have hsame := hcreated.sameNode hpath
        have hcreatedFor : e.2.createdFor = s.ptr [k] := (hbefore.own e he).2 hcon
        obtain ⟨r, hr, href, hparameter⟩ :=
          h.covered e he k b' ref' hk hcreatedFor (hsame.isRcbNode_iff.1 hnode)
        have hne : r.rcbReference ≠ ref := by
          -- another RCB with this reference would have its RptID
          intro hsameRef
          obtain ⟨b₁, hat, hlisted₁⟩ := hbefore.listed e he hcon r hr
          have hpaths : rcbPath k b₁ r.rcbReference = rcbPath k b' ref' :=
            congrArg NodePtr.path (hat.parameter.symm.trans hparameter)
          rw [hsameRef] at hlisted₁ hpaths
          obtain ⟨rfl, -⟩ := happart b₁ b ref ref hlisted₁ hlisted rfl
          exact hpath (hpaths ▸ List.prefix_refl _)
        refine ⟨r, (mem_installReportHandler (hbefore.handlers.distinct e he)).2 (.inl ⟨hr, hne⟩),
          href, ?_⟩
        rw [hparameter, ptr, ptr, hsame.2]
    · have hcon : e.1 ≠ con := by
        intro hcon
        have hown := (hafter.own e' he').2 (hfst.trans hcon)
        exact hserver (ptr_srv_injective (howner.symm.trans hown))
      have hsame (q : Path) : SameNode s.tree s'.tree (k :: q) :=
        hcreated.sameNode fun hpre => hserver (List.cons_prefix_cons.1 hpre).1.symm
      rw [heq, if_neg hcon] at howner ⊢
      rw [hptr] at howner
      obtain ⟨r, hr, href, hparameter⟩ :=
        h.covered e he k b' ref' hk howner ((hsame _).isRcbNode_iff.1 hnode)
      refine ⟨r, hr, href, ?_⟩
      have hident : ident s'.tree (rcbPath k b' ref') = ident s.tree (rcbPath k b' ref') :=
        (hsame _).2
      rw [hparameter, ptr, ptr, hident]

/-- The folders of the RCBs are empty at first. -/
theorem not_isRcbNode_folders (t : σ) (b : Bool) (key ref : Str) :
    ¬ IsRcbNode (createDatasetReportNodes t [srv]) [srv, rcbFolderKey b, key] ref := by
  have hnone : lookup (createDatasetReportNodes t [srv]) [srv, rcbFolderKey b, key] = none := by
    cases b with
    | true => exact lookup_addChild_below (p := [srv]) (r := [key]) (by simp)
    | false =>
      have hother : ¬ [srv] ++ [brcbFolderNodeKey] <+: [srv, rcbFolderKey false, key] := by
        rw [List.singleton_append, List.cons_prefix_cons, List.cons_prefix_cons]
        exact fun h => absurd h.2.1 (by decide)
      unfold createDatasetReportNodes
      dsimp only
      rw [lookup_addChild_of_not_below hother]
      exact lookup_addChild_below (p := [srv]) (r := [key]) (by simp)
  rw [IsRcbNode, hnone]
  exact fun h => by cases h

theorem IdsAgree.start (h : IdsAgree rptIdOf s) : IdsAgree rptIdOf (withFolders s srv) := by
  refine ⟨h.registered, h.apart, ?_⟩
  intro e he k b ref hk howner hnode
  rw [ptr_withFolders] at howner
  by_cases hserver : k = srv
  · subst hserver
    exact absurd hnode (not_isRcbNode_folders s.tree b _ ref)
  · have hfolders : ChangesOnlyBelow s.tree (withFolders s srv).tree [srv] :=
      changesOnlyBelow_folders s.tree
    have hsame := sameNode_of_changesOnlyBelow hfolders hserver [rcbFolderKey b, rcbNodeKey b ref]
    obtain ⟨r, hr, href, hparameter⟩ :=
      h.covered e he k b ref hk howner (hsame.isRcbNode_iff.1 hnode)
    have hident : ident (withFolders s srv).tree (rcbPath k b ref) =
        ident s.tree (rcbPath k b ref) := hsame.2
    exact ⟨r, hr, href, by rw [hparameter, ptr, ptr, hident]⟩

/-- A round for an RCB. -/
theorem IdsAgree.report {created : Bool} (h : IdsAgree rptIdOf s)
    (hbefore : DiscoveryInv svc con srv w s) (hsrv : hasInit srvKeyInit srv = true)
    (hids : KeepsRptIds svc rptIdOf) (hkeys : KeysApart svc con w)
    (happart : IdsApart svc rptIdOf con w) (hlisted : ListedReport svc con w b ref)
    (hrun : getRCBInfoAndCreateNode svc s [srv] con ref b = .ok (created, s')) :
    IdsAgree rptIdOf s' := by
  have hafter := hbefore.report hsrv hkeys hlisted hrun
  rcases getRCBInfoAndCreateNode_ok hrun with
    ⟨-, htree, hstep⟩ | ⟨-, folder, rcb, children, s₁, hfolder, hread, -, hcreated⟩
  · apply h.frame
    · rw [hstep.connections_eq]
    · intro k
      rw [htree]
      exact .of_below fun _ => ⟨rfl, rfl⟩
    · rw [getRCBInfoAndCreateNode_world hrun]
      exact fun con' ref' => hids.readRCB s.world con con' ref' ref
  · obtain ⟨rfl, -⟩ := rcbFolder_eq hsrv hfolder
    obtain ⟨values, hreply, hupdate⟩ := getRCBValues_new hread
    have hrcb : rcb.objectReference = ref := (updateValues_ok hupdate).2.2.1
    exact h.created hbefore hafter hids happart hlisted hcreated hrcb
      (hids.getRptId hreply hupdate)

theorem discover61850Server_idsAgree (h : IdsAgree rptIdOf s) (hhandlers : HandlersInv s)
    (hsrv : hasInit srvKeyInit srv = true) (hnone : ¬ HandlersBelow s srv)
    (hown : ∀ e ∈ s.connections, e.2.createdFor = s.ptr [srv] ↔ e.1 = con)
    (hids : KeepsRptIds svc rptIdOf)
    (hkeys : KeysApart svc con s.world) (happart : IdsApart svc rptIdOf con s.world)
    (hrun : discover61850Server svc s [srv] con = .ok s') : IdsAgree rptIdOf s' := by
  have hstart : DiscoveryInv svc con srv s.world (withFolders s srv) := .start hhandlers hnone hown
  have hend : DiscoveryInv svc con srv s.world s' ∧ IdsAgree rptIdOf s' := by
    refine discover61850Server_rounds
      (I := fun s' => DiscoveryInv svc con srv s.world s' ∧ IdsAgree rptIdOf s') hsrv
      (fun _ hI => hI.1.world) ?_ ?_ hrun ⟨hstart, h.start⟩
    · exact fun _ _ hquiet hI => ⟨hI.1.quiet hquiet, hI.2.quiet hids hquiet⟩
    · intro _ _ _ _ _ hlisted hround hI
      exact ⟨hI.1.report hsrv hkeys hlisted hround,
        hI.2.report hI.1 hsrv hids hkeys happart hlisted hround⟩
  exact hend.2

end Discovery

/-! ## Runs -/

/-- The node that sets the RptID of an RCB. -/
def setRptIdNode (server : Str) (b : Bool) (ref : Str) : Path :=
  rcbPath (srvKey server) b ref ++ ["rptid".toList, "set".toList]

/-- A discovery, a Set-RptId on an RCB, or a report. -/
inductive RptIdRequest where
  | discover (server : Str)
  | setRptId (server : Str) (b : Bool) (ref : Str) (params : Json)
  | report (con : ConnId) (message : ReportMessage)

/-- A request; one for a node that is not there has no effect. -/
def rptIdStep (svc : IedService W) (s : LinkState σ W) : RptIdRequest → Except Fault (LinkState σ W)
  | .discover server => linkStep svc s (.discover server)
  | .setRptId server b ref params =>
    if Invokes s.tree (setRptIdNode server b ref) .setRptIdAction then
      setRptIdAction svc s (setRptIdNode server b ref) params
    else .ok s
  | .report con message => handleReport s con message

/-- The RCBs of a server that is discovered have different RptIDs, and a Set-RptId leaves
the RptIDs of the server as they are. -/
def LeavesRptIds (svc : IedService W) (rptIdOf : W → ConnId → Str → Str) (s : LinkState σ W) :
    RptIdRequest → Prop
  | .discover server => Invokes s.tree (discoverNode server) .discoverAction →
      isDiscovered s.tree [srvKey server] = false →
      ∀ entry, s.mapGet (s.ptr [srvKey server]) = some entry →
        KeysApart svc entry.iedConn s.world ∧ IdsApart svc rptIdOf entry.iedConn s.world
  | .setRptId server b ref params => Invokes s.tree (setRptIdNode server b ref) .setRptIdAction →
      ∀ con rcb, s.getServerIedConnection (setRptIdNode server b ref) = .ok (some con) →
        rcbOf s.tree (rcbPath (srvKey server) b ref) = .ok rcb →
        ∀ con' ref', rptIdOf (writtenRptId svc s con rcb params) con' ref' =
          rptIdOf s.world con' ref'
  | .report _ _ => True

/-- The tables, the handlers and the RptIDs. -/
structure RptIdInv (rptIdOf : W → ConnId → Str → Str) (s : LinkState σ W) : Prop where
  maps : MapInv s
  handlers : HandlersInv s
  ids : IdsAgree rptIdOf s

theorem RptIdInv.step (hids : KeepsRptIds svc rptIdOf) (h : RptIdInv rptIdOf s) {r : RptIdRequest}
    (hleaves : LeavesRptIds svc rptIdOf s r) (hs : rptIdStep svc s r = .ok s') :
    RptIdInv rptIdOf s' := by
  cases r with
  | discover server =>
    rw [rptIdStep, linkStep] at hs
    split_ifs at hs with hinv
    · have hmaps := discoverAction_mapInv h.maps hinv hs
      have hspares : SparesHandlers svc s (.discover server) :=
        fun hinv hnot e hget => (hleaves hinv hnot e hget).1
      have hhandlers := discoverAction_handlersInv h.maps h.handlers hinv hspares hs
      refine ⟨hmaps, hhandlers, ?_⟩
      rcases discoverAction_cases h.maps hinv hs with rfl | ⟨hnot, entry, hget, hown, hdiscover⟩
      · exact h.ids
      · obtain ⟨hkeys, happart⟩ := hleaves hinv hnot entry hget
        exact discover61850Server_idsAgree h.ids h.handlers (hasInit_srvKey server)
          (h.handlers.none_below hnot) hown hids hkeys happart hdiscover
    · cases hs
      exact h
  | setRptId server b ref params =>
    rw [rptIdStep] at hs
    split_ifs at hs with hinv
    · rcases setRptIdAction_keeps hs with rfl | ⟨con, rcb, hcon, hrcb, hkeeps, hworld⟩
      · exact h
      · have hsame := hleaves hinv con rcb hcon hrcb
        refine ⟨hkeeps.mapInv h.maps, hkeeps.handlersInv h.handlers, ?_⟩
        apply h.ids.frame hkeeps.connections_eq
        · exact fun k => .of_below fun q => hkeeps.tree.node (k :: q)
        · intro con' ref'
          rcases hworld with heq | ⟨ref₁, heq⟩
          · rw [heq]
            exact hsame con' ref'
          · rw [heq, hids.readRCB]
            exact hsame con' ref'
    · cases hs
      exact h
  | report con message =>
    obtain ⟨hkeeps, hworld⟩ := handleReport_keeps h.maps.connDistinct hs
    refine ⟨hkeeps.mapInv h.maps, hkeeps.handlersInv h.handlers, ?_⟩
    apply h.ids.frame hkeeps.connections_eq
    · exact fun k => .of_below fun q => hkeeps.tree.node (k :: q)
    · rw [hworld]
      exact fun _ _ => rfl

theorem RptIdInv.delivered (h : RptIdInv rptIdOf s) : ReportsDelivered rptIdOf s :=
  h.ids.delivered h.maps.connDistinct h.handlers.distinct

/-- The servers of the link are there, but none of them was discovered. -/
structure NothingDiscovered (s : LinkState σ W) : Prop where
  maps : MapInv s
  handlers : ∀ e ∈ s.connections, e.2.enabledReports = []
  nodes : ∀ server, Undiscovered (srvKey server) s.tree

theorem NothingDiscovered.not_isRcbNode (h : NothingDiscovered s) {k : Str}
    (hk : hasInit srvKeyInit k = true) (b : Bool) (ref : Str) :
    ¬ IsRcbNode s.tree (rcbPath k b ref) ref := by
  intro hnode
  obtain ⟨server, rfl⟩ := exists_srvKey hk
  obtain ⟨n, hn, -⟩ := Option.bind_eq_some_iff.1 hnode
  have hkept := (h.nodes server _ _ n hn).1
  cases b <;> exact absurd hkept (by decide)

theorem NothingDiscovered.inv (h : NothingDiscovered s) : RptIdInv rptIdOf s where
  maps := h.maps
  handlers := by
    refine ⟨fun e he => ?_, fun e he r hr => ?_⟩
    · rw [h.handlers e he]
      exact Keyed.distinct_nil _
    · rw [h.handlers e he] at hr
      cases hr
  ids := by
    refine ⟨fun e he r hr => ?_, fun e he r hr => ?_, fun e he k b ref hk _ hnode => ?_⟩
    · rw [h.handlers e he] at hr
      cases hr
    · rw [h.handlers e he] at hr
      cases hr
    · exact absurd hnode (h.not_isRcbNode hk b ref)

/-- **RptIDs.** In a run that leaves the RptIDs of the servers as they are, and where the
RCBs of a server have different ones, every report reaches the node of its RCB. -/
theorem reports_delivered_run (hids : KeepsRptIds svc rptIdOf) (h : NothingDiscovered s)
    {run : List RptIdRequest} (hleaves : Along (rptIdStep svc) (LeavesRptIds svc rptIdOf) s run) :
    Along (rptIdStep svc) (fun s r => ReportsDelivered rptIdOf s ∧
      ∀ s', rptIdStep svc s r = .ok s' → ReportsDelivered rptIdOf s') s run := by
  apply along_invariant (J := RptIdInv rptIdOf) ?_ ?_ h.inv hleaves
  · exact fun s r s' hinv hr hs => hinv.step hids hr hs
  · exact fun s r hinv hr => ⟨hinv.delivered, fun s' hs => (hinv.step hids hr hs).delivered⟩

/-! ## An RCB with an RptID -/

/-- A device with one RCB, whose RptID is its state. -/
def rptIdService : IedService Str :=
  { IedService.silent Str with
    getLogicalDeviceList := fun w _ => (some ["D".toList], w)
    getLogicalDeviceDirectory := fun w _ _ => (some ["N".toList], w)
    getLogicalNodeDirectory := fun w _ ref c =>
      (some (if ref = "D/N".toList ∧ c = .urcb then ["r".toList] else []), w)
    readRCB := fun w _ _ => (some
      [.visibleString (some w), .boolean true, .boolean false,
        .visibleString (some "D/N$ds".toList), .unsigned { octets := [1], maxSize := 8 },
        .bitString (MmsValue.bitsOf 10 0), .unsigned { octets := [0], maxSize := 8 },
        .unsigned { octets := [0], maxSize := 8 }, .bitString (MmsValue.bitsOf 6 0),
        .unsigned { octets := [0], maxSize := 8 }, .boolean false], w)
    writeRCB := fun w _ _ element v =>
      if element = .rptId then (true, (textOf v).getD w) else (false, w) }

theorem keepsRptIds_rptIdService : KeepsRptIds rptIdService fun w _ _ => w where
  reads _ _ _ _ := ⟨fun _ => id, fun _ _ => id, fun _ _ _ => id, fun _ _ => id, fun _ _ _ => id,
    fun _ _ _ => id, fun _ _ => id⟩
  readRCB _ _ _ _ _ := rfl
  reply w con ref values h := by
    cases h
    rfl

/-- The link with the server, before its discovery. -/
def idServer : LinkState NodeStore Str :=
  { tree := oneServer.tree, serverMap := oneServer.serverMap, connections := oneServer.connections,
    nextConn := oneServer.nextConn, world := "id".toList, requests := oneServer.requests }

/-- The link after the discovery. -/
def idDiscovered : LinkState NodeStore Str :=
  match rptIdStep rptIdService idServer (.discover "a".toList) with
  | .ok s => s
  | .error _ => idServer

/-- A Set-RptId on the RCB. -/
def setIdRequest (id : String) : RptIdRequest :=
  .setRptId "a".toList false "D/N.RP.r".toList (.object [("Value".toList, .string id.toList)])

/-- The link after another RptID was set. -/
def idChanged : LinkState NodeStore Str :=
  match rptIdStep rptIdService idDiscovered (setIdRequest "new") with
  | .ok s => s
  | .error _ => idDiscovered

theorem nothingDiscovered_oneServer (w : W) : NothingDiscovered
    ({ tree := oneServer.tree, serverMap := oneServer.serverMap,
       connections := oneServer.connections, nextConn := oneServer.nextConn, world := w,
       requests := oneServer.requests } : LinkState NodeStore W) where
  maps := by
    have hadd : serverStep (IedService.silent Unit) bareLink (.add "a".toList "h".toList 102) =
        .ok oneServer := rfl
    have h := serverStep_mapInv noServers_bareLink.mapInv hadd
    exact ⟨h.mapDistinct, h.connDistinct, h.ownerDistinct, h.mapBound, h.ownerBound, h.connBound,
      h.conn, h.mapped, h.rooted⟩
  handlers := by
    show ∀ e ∈ oneServer.connections, e.2.enabledReports = []
    decide +kernel
  nodes server := undiscovered_oneServer (srvKey server)

theorem nothingDiscovered_idServer : NothingDiscovered idServer := nothingDiscovered_oneServer _

/-- There is one RCB in the lists of the server. -/
theorem listed_rptIdService {con : ConnId} {w : Str} {b : Bool} {ref : Str}
    (h : ListedReport rptIdService con w b ref) : b = false ∧ ref = "D/N.RP.r".toList := by
  obtain ⟨lnRef, -, _, names, name, -, hreply, hname, rfl⟩ := h
  cases hreply
  split_ifs at hname with hln
  · cases b with
    | false => exact ⟨rfl, by rw [hln.1, List.mem_singleton.1 hname]; rfl⟩
    | true => cases hln.2
  · cases hname

theorem reports_delivered_run_same :
    Along (rptIdStep rptIdService) (fun s r => ReportsDelivered (fun w _ _ => w) s ∧
      ∀ s', rptIdStep rptIdService s r = .ok s' → ReportsDelivered (fun w _ _ => w) s') idServer
      [.discover "a".toList, setIdRequest "id", .report 0 rcbMessage] := by
  apply reports_delivered_run keepsRptIds_rptIdService nothingDiscovered_idServer
  refine ⟨?_, fun s₁ hs₁ => ⟨?_, fun s₂ _ => ⟨trivial, fun _ _ => trivial⟩⟩⟩
  · intro _ _ entry _
    refine ⟨fun b ref ref' href href' _ => ?_, fun b b' ref ref' href href' _ => ?_⟩
    · rw [(listed_rptIdService href).2, (listed_rptIdService href').2]
    · obtain ⟨rfl, rfl⟩ := listed_rptIdService href
      obtain ⟨rfl, rfl⟩ := listed_rptIdService href'
      exact ⟨rfl, rfl⟩
  · have hfirst : rptIdStep rptIdService idServer (.discover "a".toList) = .ok idDiscovered := rfl
    cases hfirst.symm.trans hs₁
    intro _ con rcb _ hrcb _ _
    obtain ⟨rcb', hrcb', hrptId⟩ : ∃ rcb',
        rcbOf idDiscovered.tree (rcbPath (srvKey "a".toList) false "D/N.RP.r".toList) = .ok rcb' ∧
          rcb'.rptId = some (.visibleString (some "id".toList)) := ⟨_, rfl, rfl⟩
    cases hrcb'.symm.trans hrcb
    show (textOf (setText rcb.rptId (some "id".toList))).getD idDiscovered.world =
      idDiscovered.world
    rw [hrptId]
    rfl

/-- The handler stays registered for the RptID that was read. -/
theorem setRptId_drops_reports :
    ¬ Along (rptIdStep rptIdService) (fun s r => ReportsDelivered (fun w _ _ => w) s ∧
      ∀ s', rptIdStep rptIdService s r = .ok s' → ReportsDelivered (fun w _ _ => w) s') idServer
      [.discover "a".toList, setIdRequest "new"] := by
  rintro ⟨-, hdiscovered⟩
  obtain ⟨⟨-, hset⟩, -⟩ := hdiscovered idDiscovered rfl
  have hdelivered : ReportsDelivered (fun w _ _ => w) idChanged := hset idChanged rfl
  have hconns : idChanged.connections ≠ [] := by
    intro hnil
    have hlen := congrArg List.length hnil
    cases hlen
  obtain ⟨e, he⟩ := List.exists_mem_of_ne_nil _ hconns
  have hdropped : ∀ e ∈ idChanged.connections, e.2.createdFor = idChanged.ptr [srvKey "a".toList] ∧
      (handlerFor idChanged e.1 "new".toList).isNone = true := by decide +kernel
  obtain ⟨howner, hnone⟩ := hdropped e he
  have hnode : IsRcbNode idChanged.tree
      (rcbPath (srvKey "a".toList) false "D/N.RP.r".toList) "D/N.RP.r".toList := rfl
  have hto := hdelivered e he (srvKey "a".toList) false "D/N.RP.r".toList (by decide) howner hnode
    { rcbMessage with rptId := "new".toList } rfl
  rw [DeliveredTo, Option.isNone_iff_eq_none.1 hnone] at hto
  cases hto

end DslinkIec61850
