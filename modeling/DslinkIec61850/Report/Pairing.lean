import DslinkIec61850.Report.Discovered

/-!
# Elements and their members

The callback takes the member of an element from the data set that the local copy of the
RCB names when the report arrives. A change of the data set that was refused and could not
be read back leaves a local copy that the server does not have, and so does every report
that was on its way.

* `reportCallbackFunction_publishesOn`: what changes in the tree was published.
* `reports_paired_iff`: when every element is published on its own member.
-/

namespace DslinkIec61850

open DSLink Strings LinkState Run ClientReportControlBlock

variable {σ W : Type} [DSLink σ]

/-! ## What the callback publishes -/

/-- The callback comes to the member `k` of the data set that the local copy names; `entryName`
is its reference, and the members before it have left the tree `t₁`. -/
structure ComesTo (s : LinkState σ W) (report : ClientReport) (k : ℕ) (entryName : Str) (t₁ : σ) :
    Prop where
  valid : s.Valid report.callbackParameter
  connection : ∃ con, s.getServerIedConnection report.callbackParameter.path = .ok (some con)
  link : getDSLink s.tree report.callbackParameter.path = .ok true
  members : ∃ refs, loopMembers s.tree report.callbackParameter.path = .ok (some refs) ∧
    refs[k]? = some entryName ∧
    publishMembers report.callbackParameter.path report s.tree (refs.take k) = .ok t₁

/-- The callback publishes the element `k` of the report on the node `p`. -/
def PublishesOn (s : LinkState σ W) (report : ClientReport) (k : ℕ) (p : Path) : Prop :=
  ∃ entryName t₁, ComesTo s report k entryName t₁ ∧
    SetsElement report.callbackParameter.path report t₁ k entryName p

theorem publishMembers_concat {rcbNode : Path} {report : ClientReport} {t t' : σ} {refs : List Str}
    {ref : Str} : publishMembers rcbNode report t (refs ++ [ref]) = .ok t' ↔
      ∃ t₁, publishMembers rcbNode report t refs = .ok t₁ ∧
        publishMember rcbNode report t₁ refs.length ref = .ok t' := by
  rw [publishMembers, List.zipIdx_append, List.foldlM_append, bind_eq_ok, Nat.zero_add]
  simp only [List.zipIdx_singleton, List.foldlM_cons, List.foldlM_nil, bind_pure]
  rfl

/-- By induction on the members from behind: a node that differs was set for some member. -/
theorem publishMembers_sets {rcbNode : Path} {report : ClientReport} {t t' : σ} {refs : List Str}
    (h : publishMembers rcbNode report t refs = .ok t') {p : Path} (hp : lookup t' p ≠ lookup t p) :
    ∃ k ref t₁, refs[k]? = some ref ∧ publishMembers rcbNode report t (refs.take k) = .ok t₁ ∧
      SetsElement rcbNode report t₁ k ref p := by
  induction refs using List.reverseRecOn generalizing t' with
  | nil =>
    cases h
    exact absurd rfl hp
  | append_singleton refs ref ih =>
    obtain ⟨t₁, hfront, hlast⟩ := publishMembers_concat.1 h
    by_cases hold : lookup t₁ p = lookup t p
    · refine ⟨refs.length, ref, t₁, List.getElem?_concat_length, by rwa [List.take_left], ?_⟩
      rcases publishMember_setsElement hlast with rfl | ⟨p', v, json, hsets, -, -, rfl⟩
      · exact absurd hold hp
      · have heq : p = p' := by
          by_contra hne
          rw [lookup_setValue, if_neg hne] at hp
          exact hp hold
        rwa [heq]
    · obtain ⟨k, ref', t₂, hk, hprefix, hsets⟩ := ih hfront hold
      have hlt := (List.getElem?_eq_some_iff.1 hk).1
      refine ⟨k, ref', t₂, by rwa [List.getElem?_append_left hlt], ?_, hsets⟩
      rwa [List.take_append_of_le_length hlt.le]

/-- **The callback.** Whatever differs afterwards was published. -/
theorem reportCallbackFunction_publishesOn {s s' : LinkState σ W} {report : ClientReport}
    (h : reportCallbackFunction s report = .ok s') {p : Path}
    (hp : lookup s'.tree p ≠ lookup s.tree p) : ∃ k, PublishesOn s report k p := by
  unfold reportCallbackFunction at h
  dsimp only at h
  by_cases hvalid : s.Valid report.callbackParameter
  swap
  · rw [if_pos hvalid] at h
    cases h
  rw [if_neg (not_not.2 hvalid)] at h
  obtain ⟨iedConn, hcon, h⟩ := bind_eq_ok.1 h
  obtain ⟨rcb, hrcb, h⟩ := bind_eq_ok.1 h
  obtain ⟨dataSetNode, hnode, h⟩ := bind_eq_ok.1 h
  obtain ⟨link, hlink, h⟩ := bind_eq_ok.1 h
  split at h
  · obtain ⟨refs, hrefs, h⟩ := bind_eq_ok.1 h
    obtain ⟨t', hpublish, h⟩ := bind_eq_ok.1 h
    cases h
    obtain ⟨k, ref, t₁, hk, hprefix, hsets⟩ := publishMembers_sets hpublish hp
    refine ⟨k, ref, t₁, ⟨hvalid, ⟨_, hcon⟩, hlink, refs, ?_, hk, hprefix⟩, hsets⟩
    rw [loopMembers, hrcb, ok_bind, hnode, ok_bind]
    dsimp only
    rw [hrefs]
    rfl
  · cases h
    exact absurd rfl hp

/-- The callback reads the tree and the registry; the values that the handlers keep were merged
before. -/
theorem PublishesOn.of_modifyConnection {s : LinkState σ W} {con : ConnId}
    {f : Connection → Connection} {report : ClientReport} {k : ℕ} {p : Path}
    (h : PublishesOn (s.modifyConnection con f) report k p) : PublishesOn s report k p := by
  obtain ⟨entryName, t₁, ⟨hvalid, hcon, hlink, hmembers⟩, hsets⟩ := h
  exact ⟨entryName, t₁, ⟨hvalid, hcon, hlink, hmembers⟩, hsets⟩

/-- **A report that arrives.** What differs afterwards was published for its handler. -/
theorem handleReport_publishesOn {s s' : LinkState σ W} {con : ConnId} {message : ReportMessage}
    (h : handleReport s con message = .ok s') {p : Path} (hp : lookup s'.tree p ≠ lookup s.tree p) :
    ∃ report k, deliveredReport s con message = .ok (some report) ∧ PublishesOn s report k p := by
  unfold handleReport at h
  cases hc : (Keyed.find Prod.fst con s.connections).map Prod.snd with
  | none =>
    rw [hc] at h
    cases h
    exact absurd rfl hp
  | some c =>
    rw [hc] at h
    obtain ⟨found, hfound, h⟩ := bind_eq_ok.1 h
    cases found with
    | none =>
      cases h
      exact absurd rfl hp
    | some found =>
      obtain ⟨k, hk⟩ := reportCallbackFunction_publishesOn h hp
      refine ⟨found.1, k, ?_, hk.of_modifyConnection⟩
      rw [deliveredReport, hc]
      dsimp only
      rw [hfound]
      rfl

/-! ## Runs -/

variable {m : ServerModel} {srv ref rptId : Str} {q : Path} {b : Bool} {con : ConnId}
  {members : Str → List MemberRef} {svc : IedService W} {datSetOf : W → Str}
  {st st' : FlightState σ W}

/-- The reports are sent by the RCB with this RptID. -/
def SentBy (rptId : Str) (_ : FlightState σ W) : FlightEvent → Prop
  | .emit message => message.rptId = rptId
  | _ => True

/-- When a report arrives, each leaf of the data set that the local copy names has the same node
as the member with its index of the data set that the report was sent for, as far as the report
includes it with a value that can be shown. -/
def Paired (m : ServerModel) (con : ConnId) (srv : Str) (members : Str → List MemberRef)
    (st : FlightState σ W) : FlightEvent → Prop
  | .deliver i => ∀ sent report, st.inFlight[i]? = some sent →
      deliveredReport st.link con sent.message = .ok (some report) →
      ∀ k (r : MemberRef) t₁, ComesTo st.link report k r.text t₁ → r.IsLeaf m →
        r.Fits st.link.tree srv →
        Included report k →
        (∃ v json, reportedValue report k = some v ∧ shownValue v = .ok (some json)) →
        ∃ r', (members sent.dataSet)[k]? = some r' ∧ r'.path srv = r.path srv
  | _ => True

/-- The RCB has a handler, and the reports on their way were sent by it; its local copy names
some data set. -/
structure ArrivalInv (m : ServerModel) (srv : Str) (q : Path) (ref : Str) (b : Bool) (rptId : Str)
    (con : ConnId) (members : Str → List MemberRef) (st : FlightState σ W) : Prop where
  tree : ∃ d, FlightTree m srv q ref b members d st.link.tree
  connection : st.link.getServerIedConnection (srv :: q) = .ok (some con)
  handler : ∃ report, handlerFor st.link con rptId = some report ∧
    report.callbackParameter.path = srv :: q
  inFlight : ∀ sent ∈ st.inFlight, sent.message.rptId = rptId

theorem FlightInv.arrivalInv (h : FlightInv m srv q ref b rptId con datSetOf members st) :
    ArrivalInv m srv q ref b rptId con members st where
  tree := ⟨_, h.tree⟩
  connection := h.connection
  handler := by
    obtain ⟨report, hreport, hpath, -⟩ := h.handler
    exact ⟨report, hreport, hpath⟩
  inFlight sent hsent := (h.inFlight sent hsent).2.1

/-- Every event keeps the invariant, whatever the server replies. -/
theorem ArrivalInv.step (hsrv : hasInit srvKeyInit srv = true)
    (hserves : ServesDatSet svc con ref b datSetOf)
    (h : ArrivalInv m srv q ref b rptId con members st) {e : FlightEvent}
    (hsent : SentBy rptId st e) (hrun : flightStep svc con (srv :: q) datSetOf st e = .ok st') :
    ArrivalInv m srv q ref b rptId con members st' := by
  obtain ⟨d, htree⟩ := h.tree
  cases e with
  | emit message =>
    cases hrun
    refine ⟨h.tree, h.connection, h.handler, fun sent hmem => ?_⟩
    rcases List.mem_append.1 hmem with hold | hnew
    · exact h.inFlight sent hold
    · rw [List.mem_singleton.1 hnew]
      exact hsent
  | deliver i =>
    unfold flightStep at hrun
    dsimp only at hrun
    cases hmessage : st.inFlight[i]? with
    | none =>
      rw [hmessage] at hrun
      cases hrun
      exact h
    | some sent =>
      rw [hmessage] at hrun
      obtain ⟨s', hs', hrun⟩ := bind_eq_ok.1 hrun
      cases hrun
      have hid := h.inFlight sent (List.mem_of_getElem? hmessage)
      obtain ⟨report, hreport, hpath⟩ := h.handler
      rw [← hid] at hreport
      obtain ⟨htree', hcon, -, report', hreport', hpath', -⟩ :=
        handleReport_flight hsrv htree hreport hpath hs'
      exact ⟨⟨d, htree'⟩, hcon.trans h.connection, ⟨report', hid ▸ hreport', hpath'⟩,
        fun sent' hsent' => h.inFlight sent' (List.mem_of_mem_eraseIdx hsent')⟩
  | setDatSet dataSet =>
    obtain ⟨s', hs', hrun⟩ := bind_eq_ok.1 hrun
    cases hrun
    obtain ⟨htree', -, hconns, hmap, hident⟩ :=
      setDatSetAction_flight hsrv hserves htree h.connection hs'
    refine ⟨⟨_, htree'⟩, (getServerIedConnection_congr hmap hident _).trans h.connection,
      ?_, h.inFlight⟩
    obtain ⟨report, hreport, hpath⟩ := h.handler
    refine ⟨report, ?_, hpath⟩
    rw [← hreport, handlerFor, handlerFor, hconns]

/-- The handler that a report is delivered to has the node of the RCB. -/
theorem ArrivalInv.delivered_path (h : ArrivalInv m srv q ref b rptId con members st)
    {sent : SentReport} (hsent : sent ∈ st.inFlight) {report : ClientReport}
    (hreport : deliveredReport st.link con sent.message = .ok (some report)) :
    report.callbackParameter.path = srv :: q := by
  obtain ⟨handler, hhandler, hpath⟩ := h.handler
  rw [← h.inFlight sent hsent] at hhandler
  obtain ⟨c, hc, hfind⟩ := deliveredReport_handler hhandler
  rw [deliveredReport, hc] at hreport
  dsimp only at hreport
  cases hmerge : handler.merge sent.message with
  | error e =>
    rw [dispatchReport_error hfind hmerge] at hreport
    cases hreport
  | ok merged =>
    obtain ⟨hparam, hid⟩ : merged.callbackParameter = handler.callbackParameter ∧
        merged.matchId = handler.matchId := by
      obtain ⟨values, -, hmerge⟩ := bind_eq_ok.1 hmerge
      cases hmerge
      exact ⟨rfl, rfl⟩
    obtain ⟨reports, hdispatch, -⟩ := dispatchReport_ok hfind hmerge hid
    rw [hdispatch] at hreport
    cases hreport
    rw [hparam, hpath]

theorem publishMembers_samePlaces {rcbNode : Path} {report : ClientReport} {t t' : σ}
    {refs : List Str}
    (h : publishMembers rcbNode report t refs = .ok t') : SamePlaces srv t t' := by
  refine foldlM_invariant (I := SamePlaces srv t) ?_ h (.refl srv t)
  rintro e - t₁ t₂ hsame hstep
  rcases publishMember_sets hstep with rfl | ⟨daNode, v, -, rfl⟩
  · exact hsame
  · exact hsame.trans (samePlaces_setValue srv t₁ _ v)

theorem SamePlaces.symm {t t' : σ} (h : SamePlaces srv t t') : SamePlaces srv t' t :=
  fun p => (h p).symm

/-- The member that the callback comes to is one of the data set that the local copy names. -/
theorem ComesTo.member {s : LinkState σ W} {report : ClientReport} {k : ℕ} {entryName : Str}
    {t₁ : σ} {d : Str} (h : ComesTo s report k entryName t₁)
    (hpath : report.callbackParameter.path = srv :: q)
    (htree : FlightTree m srv q ref b members d s.tree) :
    SamePlaces srv s.tree t₁ ∧ ∃ r, (members d)[k]? = some r ∧ entryName = r.text := by
  obtain ⟨refs, hloop, hk, hprefix⟩ := h.members
  refine ⟨publishMembers_samePlaces hprefix, ?_⟩
  rw [hpath] at hloop
  obtain ⟨rcb, hrcb, hd⟩ := htree.configured.block
  rw [loopMembers, hrcb, ok_bind] at hloop
  obtain ⟨node, hnode, hloop⟩ := bind_eq_ok.1 hloop
  have hreference : rcb.getDataSetReference = some d := by
    rw [getDataSetReference, hd]
    rfl
  rw [hreference] at hnode
  cases node with
  | none => cases hloop
  | some node =>
    dsimp only at hloop
    rw [htree.configured.dataSets d node hnode] at hloop
    cases hloop
    rw [List.getElem?_map] at hk
    obtain ⟨r, hr, rfl⟩ := Option.map_eq_some_iff.1 hk
    exact ⟨r, hr, rfl⟩

/-- Where the local copy names the data set that the reports were sent for, they are paired. -/
theorem FlightInv.paired (h : FlightInv m srv q ref b rptId con datSetOf members st)
    (e : FlightEvent) : Paired m con srv members st e := by
  cases e with
  | emit message => trivial
  | setDatSet dataSet => trivial
  | deliver i =>
    intro sent report hsent hreport k r t₁ hcomes _ _ _ _
    have hmem := List.mem_of_getElem? hsent
    obtain ⟨-, r', hr', htext⟩ :=
      hcomes.member (h.arrivalInv.delivered_path hmem hreport) h.tree
    exact ⟨r', by rw [(h.inFlight sent hmem).1, hr'], MemberRef.path_eq_of_text htext.symm srv⟩

/-- So it is along every orderly run. -/
theorem paired_of_orderly (hsrv : hasInit srvKeyInit srv = true)
    (hserves : ServesDatSet svc con ref b datSetOf)
    (h : FlightInv m srv q ref b rptId con datSetOf members st) {run : List FlightEvent}
    (horderly : Along (flightStep svc con (srv :: q) datSetOf)
      (Orderly svc con ref rptId datSetOf members) st run) :
    Along (flightStep svc con (srv :: q) datSetOf) (Paired m con srv members) st run := by
  refine along_invariant (J := FlightInv m srv q ref b rptId con datSetOf members) ?_ ?_ h horderly
  · exact fun _ _ _ hinv he hrun => hinv.step hsrv hserves he hrun
  · exact fun _ e hinv _ => hinv.paired e

/-! ## A change that is refused and cannot be read back -/

end DslinkIec61850
