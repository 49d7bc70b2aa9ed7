import DslinkIec61850.Report.Nodes

/-!
# Reports

A report that arrives on a connection goes to the first installed handler whose
RptID is the one in the report (client_report.c:345–638). Its values are merged
into the values kept with the handler, and `reportCallbackFunction`
(client_handler.c:1993–2055) publishes the included members.

* `publishMember_setsElement`: what the callback does for one member.
* `dispatchReport_ok`: which handler a report is delivered to.
* `reportCallbackFunction_ok`: what the callback changes.
-/

namespace DslinkIec61850

open DSLink Strings LinkState Run

/-! ## The values of a report -/

/-- A report on the wire, as far as the link uses it. -/
structure ReportMessage where
  rptId : Str
  /-- The inclusion bit string, one bit for each member of the data set. -/
  inclusion : List Bool
  /-- The values of the included members. -/
  values : List MmsValue
  /-- The reason codes of the included members, when the report has them. -/
  reasons : Option (List (List Bool))

/-- The reason given by a reason code; a code without a known bit leaves the reason
of the last report. -/
def reasonOf (code : List Bool) (old : ReasonForInclusion) : ReasonForInclusion :=
  if code.getD 1 false then .dataChange
  else if code.getD 2 false then .qualityChange
  else if code.getD 3 false then .dataUpdate
  else if code.getD 4 false then .integrity
  else if code.getD 5 false then .gi
  else old

/-- The values and reasons that a handler keeps. -/
structure ReportValues where
  values : List (Option MmsValue)
  reasons : List ReasonForInclusion

/-- `MmsValue_setElement`: an index outside the array is ignored. -/
def setElement (values : List (Option MmsValue)) (i : ℕ) (v : MmsValue) : List (Option MmsValue) :=
  values.set i (some v)

/-- The reason for an included member. The index of the reason code is not moved
on: every member gets the first code. -/
def memberReason (reasons : Option (List (List Bool))) (old : ReasonForInclusion) :
    Except Fault ReasonForInclusion :=
  match reasons with
  | none => .ok .unknown
  | some [] => .error .nullDereference
  | some (code :: _) => .ok (reasonOf code old)

/-- The loop over the inclusion bits (client_report.c:583–628) from the index `i`
on; `values` are the rest of the included values. A reason is written without a
test of the index. -/
def mergeReport (reasons : Option (List (List Bool))) :
    ReportValues → ℕ → List Bool → List MmsValue → Except Fault ReportValues
  | st, _, [], _ => .ok st
  | st, i, false :: bits, values =>
    if i < st.reasons.length then
      mergeReport reasons { st with reasons := st.reasons.set i .notIncluded } (i + 1) bits values
    else .error .outOfBounds
  | _, _, true :: _, [] => .error .nullDereference
  | st, i, true :: bits, v :: values => do
    let new := match st.values[i]? with
      | some (some old) => old.update v
      | _ => v
    if i < st.reasons.length then
      let reason ← memberReason reasons (st.reasons.getD i .notIncluded)
      mergeReport reasons { values := setElement st.values i new,
                            reasons := st.reasons.set i reason }
        (i + 1) bits values
    else .error .outOfBounds

/-- The values and reasons kept with a handler, created for the first report. -/
def ClientReport.kept (report : ClientReport) (size : ℕ) : ReportValues :=
  match report.dataSetValues with
  | some values => { values := values, reasons := report.reasonForInclusion }
  | none => { values := List.replicate size none, reasons := List.replicate size .notIncluded }

/-- The handler after the values of a report were merged. -/
def ClientReport.merge (report : ClientReport) (message : ReportMessage) :
    Except Fault ClientReport := do
  let st ← mergeReport message.reasons (report.kept message.inclusion.length) 0 message.inclusion
    message.values
  return { report with dataSetValues := some st.values, reasonForInclusion := st.reasons }

/-- The RptID a handler is registered for. -/
def ClientReport.matchId (report : ClientReport) : Str := report.rptId.getD report.rcbReference

variable {σ W : Type} [DSLink σ]

/-! ## The callback -/

/-- One member of the data set (client_handler.c:2031–2047). -/
def publishMember (rcbNode : Path) (report : ClientReport) (t : σ) (i : ℕ) (entryName : Str) :
    Except Fault σ :=
  match report.reasonForInclusion[i]? with
  | none => .error .outOfBounds
  | some .notIncluded => .ok t
  | some _ => do
    match ← getDANode t rcbNode entryName with
    | none => return t
    | some daNode =>
      match getPath t daNode daValueRefNodeKey with
      | none => return t
      | some daValNode =>
        let values ← deref report.dataSetValues
        setValueNodeFromMMS t daValNode ((values[i]?).join)

/-- The report gives a reason for the member. -/
def Included (report : ClientReport) (i : ℕ) : Prop :=
  ∃ reason, report.reasonForInclusion[i]? = some reason ∧ reason ≠ .notIncluded

/-- The reported value of a member. -/
def reportedValue (report : ClientReport) (i : ℕ) : Option MmsValue :=
  report.dataSetValues.bind fun values => (values[i]?).join

/-- The `Value` at `p` is set for the member `i`, whose reference is `entryName`. -/
structure SetsElement (rcbNode : Path) (report : ClientReport) (t : σ) (i : ℕ) (entryName : Str)
    (p : Path) : Prop where
  included : Included report i
  node : ∃ daNode, getDANode t rcbNode entryName = .ok (some daNode) ∧
    getPath t daNode daValueRefNodeKey = some p
  value : ∃ v json, reportedValue report i = some v ∧ shownValue v = .ok (some json)

/-- A member is passed over, or its `Value` is set to what its element shows. -/
theorem publishMember_setsElement {rcbNode : Path} {report : ClientReport} {t t' : σ} {i : ℕ}
    {entryName : Str} (hrun : publishMember rcbNode report t i entryName = .ok t') :
    t' = t ∨ ∃ p v json, SetsElement rcbNode report t i entryName p ∧
    reportedValue report i = some v ∧
      shownValue v = .ok (some json) ∧ t' = setValue t p json := by
  unfold publishMember at hrun
  split at hrun
  · cases hrun
  · cases hrun
    exact .inl rfl
  · rename_i reason hnot hreason
    obtain ⟨daNode, hda, hrun⟩ := bind_eq_ok.1 hrun
    cases daNode with
    | none =>
      cases hrun
      exact .inl rfl
    | some daNode =>
      dsimp only at hrun
      cases hval : getPath t daNode daValueRefNodeKey with
      | none =>
        rw [hval] at hrun
        cases hrun
        exact .inl rfl
      | some daValNode =>
        rw [hval] at hrun
        obtain ⟨values, hvalues, hrun⟩ := bind_eq_ok.1 hrun
        cases hv : (values[i]?).join with
        | none =>
          rw [hv] at hrun
          cases hrun
        | some v =>
          rw [hv] at hrun
          obtain ⟨shown, hshown, hrun⟩ := bind_eq_ok.1 hrun
          cases shown with
          | none =>
            cases hrun
            exact .inl rfl
          | some json =>
            cases hrun
            have helement : reportedValue report i = some v := by
              rw [reportedValue, deref_eq_ok.1 hvalues]
              exact hv
            refine .inr ⟨daValNode, v, json, ⟨⟨reason, hreason, hnot⟩, ⟨daNode, hda, hval⟩, ?_⟩,
              helement, hshown, rfl⟩
            exact ⟨v, json, helement, hshown⟩

/-- A member is passed over, or the `Value` of a node is set. -/
theorem publishMember_sets {rcbNode : Path} {report : ClientReport} {t t' : σ} {i : ℕ}
    {entryName : Str} (hrun : publishMember rcbNode report t i entryName = .ok t') :
    t' = t ∨ ∃ daNode v, Live t (daNode ++ [daValueRefNodeKey]) ∧
      t' = setValue t (daNode ++ [daValueRefNodeKey]) v := by
  rcases publishMember_setsElement hrun with hsame | ⟨p, v, json, hsets, -, -, rfl⟩
  · exact .inl hsame
  · obtain ⟨daNode, -, hval⟩ := hsets.node
    rw [getPath_eq_child (by decide) (by decide), child_eq_some] at hval
    obtain ⟨rfl, hlive⟩ := hval
    exact .inr ⟨daNode, json, hlive, rfl⟩

/-- The loop over the members of the data set. -/
def publishMembers (rcbNode : Path) (report : ClientReport) (t : σ) (members : List Str) :
    Except Fault σ :=
  members.zipIdx.foldlM (fun t m => publishMember rcbNode report t m.2 m.1) t

/-- The member list kept with a data set node; `node->data` is used without a test. -/
def membersOf (t : σ) (dataSetNode : Path) : Except Fault (List Str) :=
  match (lookup t dataSetNode).map DSNode.data with
  | some (.members refs) => .ok refs
  | _ => .error .nullDereference

/-- `getDSLink` (iec61850_server_defs.c:218–224); the data of the server node is
used without a test. -/
def getDSLink (t : σ) (node : Path) : Except Fault Bool :=
  match getServerNode node with
  | none => .ok false
  | some serverNode =>
    match (lookup t serverNode).map DSNode.data with
    | some .link => .ok true
    | _ => .error .nullDereference

/-- `reportCallbackFunction` (client_handler.c:1993–2055) on a handler with its
values; the node is used whether or not it is still in the tree. -/
def reportCallbackFunction (s : LinkState σ W) (report : ClientReport) :
    Except Fault (LinkState σ W) := do
  let rcbNode := report.callbackParameter.path
  if ¬ s.Valid report.callbackParameter then throw .useAfterFree
  let iedConn ← s.getServerIedConnection rcbNode
  let rcb ← rcbOf s.tree rcbNode
  let dataSetNode ← getDataSetNodeFromRef s.tree rcbNode rcb.getDataSetReference
  let link ← getDSLink s.tree rcbNode
  match iedConn, dataSetNode, link with
  | some _, some dataSetNode, true =>
    let members ← membersOf s.tree dataSetNode
    return { s with tree := ← publishMembers rcbNode report s.tree members }
  | _, _, _ => return s

/-- The callback changes the tree only, by publishing members. -/
theorem reportCallbackFunction_ok {s s' : LinkState σ W} {report : ClientReport}
    (hrun : reportCallbackFunction s report = .ok s') :
    ∃ t' refs, publishMembers report.callbackParameter.path report s.tree refs = .ok t' ∧
      s' = { s with tree := t' } := by
  unfold reportCallbackFunction at hrun
  dsimp only at hrun
  by_cases hvalid : s.Valid report.callbackParameter
  swap
  · rw [if_pos hvalid] at hrun
    cases hrun
  rw [if_neg (not_not.2 hvalid)] at hrun
  obtain ⟨con, -, hrun⟩ := bind_eq_ok.1 hrun
  obtain ⟨rcb, -, hrun⟩ := bind_eq_ok.1 hrun
  obtain ⟨dataSetNode, -, hrun⟩ := bind_eq_ok.1 hrun
  obtain ⟨link, -, hrun⟩ := bind_eq_ok.1 hrun
  split at hrun
  · obtain ⟨refs, -, hrun⟩ := bind_eq_ok.1 hrun
    obtain ⟨t', hpublish, hrun⟩ := bind_eq_ok.1 hrun
    cases hrun
    exact ⟨t', refs, hpublish, rfl⟩
  · cases hrun
    exact ⟨s.tree, [], rfl, rfl⟩

/-! ## Dispatch -/

/-- `private_IedConnection_handleReport` (client_report.c:345–638): the first
handler with the RptID of the report, and the handlers with its values merged. -/
def dispatchReport (message : ReportMessage) :
    List ClientReport → Except Fault (Option (ClientReport × List ClientReport))
  | [] => .ok none
  | report :: reports =>
    if report.matchId = message.rptId then do
      let report ← report.merge message
      return some (report, report :: reports)
    else do
      match ← dispatchReport message reports with
      | none => return none
      | some (found, reports) => return some (found, report :: reports)

theorem dispatchReport_error {message : ReportMessage} {reports : List ClientReport}
    {report : ClientReport}
    {e : Fault} (hfind : reports.find? (fun r => r.matchId = message.rptId) = some report)
    (hmerge : report.merge message = .error e) : dispatchReport message reports = .error e := by
  induction reports with
  | nil => cases hfind
  | cons r reports ih =>
    rw [dispatchReport]
    by_cases hid : r.matchId = message.rptId
    · rw [List.find?_cons_of_pos (by simpa using hid)] at hfind
      cases hfind
      rw [if_pos hid, hmerge]
      rfl
    · rw [List.find?_cons_of_neg (by simpa using hid)] at hfind
      rw [if_neg hid, ih hfind]
      rfl

/-- The report goes to the handler of its RptID, which keeps its place. -/
theorem dispatchReport_ok {message : ReportMessage} {reports : List ClientReport}
    {report report' : ClientReport}
    (hfind : reports.find? (fun r => r.matchId = message.rptId) = some report)
    (hmerge : report.merge message = .ok report') (hid' : report'.matchId = report.matchId) :
    ∃ reports', dispatchReport message reports = .ok (some (report', reports')) ∧
      reports'.find? (fun r => r.matchId = message.rptId) = some report' := by
  induction reports with
  | nil => cases hfind
  | cons r reports ih =>
    rw [dispatchReport]
    by_cases hid : r.matchId = message.rptId
    · rw [List.find?_cons_of_pos (by simpa using hid)] at hfind
      cases hfind
      refine ⟨report' :: reports, by rw [if_pos hid, hmerge]; rfl, ?_⟩
      exact List.find?_cons_of_pos (by simpa [hid'] using hid)
    · rw [List.find?_cons_of_neg (by simpa using hid)] at hfind
      obtain ⟨reports', hrun, hfind'⟩ := ih hfind
      refine ⟨r :: reports', by rw [if_neg hid, hrun]; rfl, ?_⟩
      rw [List.find?_cons_of_neg (by simpa using hid)]
      exact hfind'

/-- A report arrives on a connection. -/
def handleReport (s : LinkState σ W) (con : ConnId) (message : ReportMessage) :
    Except Fault (LinkState σ W) :=
  match (Keyed.find Prod.fst con s.connections).map Prod.snd with
  | none => .ok s
  | some c => do
    match ← dispatchReport message c.enabledReports with
    | none => return s
    | some (report, reports) =>
      let s := s.modifyConnection con fun c => { c with enabledReports := reports }
      reportCallbackFunction s report

end DslinkIec61850
