import DslinkIec61850.Report.Agreement
import DslinkIec61850.Report.Publication

/-!
# Reports after a change of the data set

The arrays of values and reasons of a handler get their size from the first report
after it was installed (client_report.c:544–555) and keep it, whatever data set is
configured later. `reportCallbackFunction` goes through the members of the data set
that is configured when the report arrives.

* `reports_covered_iff`: in a run of changes and reports, the callback stays inside
  the arrays exactly when no report comes for more members than they have.
-/

namespace DslinkIec61850

open DSLink Strings LinkState Run ClientReportControlBlock

variable {σ W : Type} [DSLink σ]

/-! ## Merging -/

/-- Bits that were merged without a fault lie inside the array of reasons. -/
theorem mergeReport_fits {reasons : Option (List (List Bool))} {bits : List Bool}
    {st st' : ReportValues} {i : ℕ} {values : List MmsValue} (hi : i ≤ st.reasons.length)
    (h : mergeReport reasons st i bits values = .ok st') : i + bits.length ≤ st.reasons.length := by
  induction bits generalizing st i values with
  | nil => exact hi
  | cons bit bits ih =>
    cases bit with
    | false =>
      rw [mergeReport] at h
      split_ifs at h with hlt
      have := ih (by rw [List.length_set]; exact hlt) h
      rw [List.length_set] at this
      rw [List.length_cons]
      omega
    | true =>
      cases values with
      | nil => cases h
      | cons v values =>
        rw [mergeReport] at h
        split_ifs at h with hlt
        obtain ⟨reason, -, h⟩ := bind_eq_ok.1 h
        have := ih (by rw [List.length_set]; exact hlt) h
        rw [List.length_set] at this
        rw [List.length_cons]
        omega

/-- What the merge of a report leaves from the index `i` on: a member with a reason
has a value. -/
structure MergedFrom (st st' : ReportValues) (i n : ℕ) : Prop where
  values_length : st'.values.length = st.values.length
  reasons_length : st'.reasons.length = st.reasons.length
  before : ∀ j < i, st'.values[j]? = st.values[j]? ∧ st'.reasons[j]? = st.reasons[j]?
  present : ∀ j, i ≤ j → j < i + n → st'.reasons[j]? ≠ some .notIncluded →
    ∃ v, st'.values[j]? = some (some v)

/-- One more bit: `st₁` is the state after it. -/
theorem MergedFrom.cons {st st₁ st' : ReportValues} {i n : ℕ}
    (h : MergedFrom st₁ st' (i + 1) n) (hvalues : st₁.values.length = st.values.length)
    (hreasons : st₁.reasons.length = st.reasons.length)
    (hbefore : ∀ j < i, st₁.values[j]? = st.values[j]? ∧ st₁.reasons[j]? = st.reasons[j]?)
    (hnow : st₁.reasons[i]? ≠ some .notIncluded → ∃ v, st₁.values[i]? = some (some v)) :
    MergedFrom st st' i (n + 1) where
  values_length := h.values_length.trans hvalues
  reasons_length := h.reasons_length.trans hreasons
  before j hj := by
    obtain ⟨hv, hr⟩ := h.before j (by omega)
    obtain ⟨hv', hr'⟩ := hbefore j hj
    exact ⟨hv.trans hv', hr.trans hr'⟩
  present j hij hj hne := by
    rcases Nat.eq_or_lt_of_le hij with rfl | hlt
    · obtain ⟨hv, hr⟩ := h.before i (by omega)
      rw [hv]
      exact hnow (by rw [← hr]; exact hne)
    · exact h.present j hlt (by omega) hne

theorem memberReason_total {reasons : Option (List (List Bool))} (h : reasons ≠ some [])
    (old : ReasonForInclusion) : ∃ reason, memberReason reasons old = .ok reason := by
  cases reasons with
  | none => exact ⟨_, rfl⟩
  | some codes =>
    cases codes with
    | nil => exact absurd rfl h
    | cons code codes => exact ⟨_, rfl⟩

/-- A report whose bits lie inside the arrays is merged. -/
theorem mergeReport_total {reasons : Option (List (List Bool))} {bits : List Bool}
    {st : ReportValues}
    {i : ℕ} {values : List MmsValue} (hlen : st.reasons.length = st.values.length)
    (hfits : i + bits.length ≤ st.reasons.length) (hvalues : values.length = bits.count true)
    (hreasons : bits.count true ≠ 0 → reasons ≠ some []) :
    ∃ st', mergeReport reasons st i bits values = .ok st' ∧ MergedFrom st st' i bits.length := by
  induction bits generalizing st i values with
  | nil => exact ⟨st, rfl, rfl, rfl, fun _ _ => ⟨rfl, rfl⟩,
    fun j hij hj => absurd hj (by simp; omega)⟩
  | cons bit bits ih =>
    rw [List.length_cons] at hfits
    have hlt : i < st.reasons.length := by omega
    cases bit with
    | false =>
      let next : ReportValues := { st with reasons := st.reasons.set i .notIncluded }
      obtain ⟨st', hrun, hmerged⟩ : ∃ st', mergeReport reasons next (i + 1) bits values = .ok st' ∧
          MergedFrom next st' (i + 1) bits.length :=
        ih (by simpa [next] using hlen) (by simp [next]; omega) (by simpa using hvalues)
          (by simpa using hreasons)
      refine ⟨st', by rw [mergeReport, if_pos hlt, hrun], hmerged.cons rfl (by simp [next]) ?_ ?_⟩
      · intro j hj
        exact ⟨rfl, List.getElem?_set_ne (by omega)⟩
      · intro hne
        exact absurd (List.getElem?_set_self hlt) hne
    | true =>
      rw [List.count_cons_self] at hvalues hreasons
      cases values with
      | nil => cases hvalues
      | cons v values =>
        obtain ⟨reason, hreason⟩ := memberReason_total (hreasons (by omega))
          (st.reasons.getD i .notIncluded)
        have hstep (new : MmsValue) : ∃ st', mergeReport reasons
            { values := setElement st.values i new, reasons := st.reasons.set i reason }
              (i + 1) bits values = .ok st' ∧ MergedFrom st st' i (bits.length + 1) := by
          let next : ReportValues :=
            { values := setElement st.values i new, reasons := st.reasons.set i reason }
          obtain ⟨st', hrun, hmerged⟩ :
              ∃ st', mergeReport reasons next (i + 1) bits values = .ok st' ∧
              MergedFrom next st' (i + 1) bits.length :=
            ih (by simpa [next, setElement] using hlen) (by simp [next]; omega)
              (by simpa using hvalues) (fun h => hreasons (by omega))
          refine ⟨st', hrun, hmerged.cons (by simp [next, setElement]) (by simp [next]) ?_ ?_⟩
          · intro j hj
            exact ⟨List.getElem?_set_ne (by omega), List.getElem?_set_ne (by omega)⟩
          · intro _
            exact ⟨new, List.getElem?_set_self (by omega)⟩
        rw [mergeReport, if_pos hlt, hreason, ok_bind]
        exact hstep _

/-- The number of members that the arrays of a handler have room for, once it has them. -/
def ClientReport.keptSize (report : ClientReport) : Option ℕ :=
  report.dataSetValues.map fun _ => report.reasonForInclusion.length

/-- The two arrays have the same length. -/
def ClientReport.Even (report : ClientReport) : Prop :=
  ∀ values, report.dataSetValues = some values → report.reasonForInclusion.length = values.length

/-- A report as a server sends it for a data set of `n` members. -/
structure ReportMessage.Proper (message : ReportMessage) (n : ℕ) : Prop where
  inclusion : message.inclusion.length = n
  values : message.values.length = message.inclusion.count true
  reasons : ∀ codes, message.reasons = some codes → codes.length = message.inclusion.count true

/-- The arrays cover the members that the callback goes through: every index lies in
both, and an included member has its value. -/
def Covers (report : ClientReport) (refs : List Str) : Prop :=
  ∀ i < refs.length, i < report.reasonForInclusion.length ∧
    (∃ values, report.dataSetValues = some values ∧ i < values.length) ∧
    (Included report i → ∃ v, reportedValue report i = some v)

theorem merge_fits {report report' : ClientReport} {message : ReportMessage}
    (h : report.merge message = .ok report') :
    ∀ size, report.keptSize = some size → message.inclusion.length ≤ size := by
  intro size hsize
  obtain ⟨st, hst, -⟩ := bind_eq_ok.1 h
  have hfits := mergeReport_fits (Nat.zero_le _) hst
  unfold ClientReport.keptSize at hsize
  unfold ClientReport.kept at hfits
  cases hvalues : report.dataSetValues with
  | none =>
    rw [hvalues] at hsize
    cases hsize
  | some values =>
    rw [hvalues] at hsize hfits
    cases hsize
    simpa using hfits

/-- A proper report that the arrays have room for is merged, and then they cover its
data set. -/
theorem merge_total {report : ClientReport} {message : ReportMessage} {n : ℕ} (heven : report.Even)
    (hproper : message.Proper n) (hfits : ∀ size, report.keptSize = some size → n ≤ size) :
    ∃ report', report.merge message = .ok report' ∧ report'.Even ∧
      report'.callbackParameter = report.callbackParameter ∧ report'.matchId = report.matchId ∧
      report'.keptSize = some (report.keptSize.getD n) ∧ ∀ refs : List Str, refs.length = n →
      Covers report' refs := by
  have hn := hproper.inclusion
  have hlen : (report.kept n).reasons.length = (report.kept n).values.length ∧
      n ≤ (report.kept n).reasons.length := by
    unfold ClientReport.kept
    cases hvalues : report.dataSetValues with
    | none => simp
    | some values =>
      have hsize : report.keptSize = some report.reasonForInclusion.length := by
        rw [ClientReport.keptSize, hvalues]
        rfl
      exact ⟨heven values hvalues, hfits _ hsize⟩
  have hreasons : message.inclusion.count true ≠ 0 → message.reasons ≠ some [] := by
    intro hcount hnil
    exact hcount (hproper.reasons [] hnil).symm
  obtain ⟨st, hst, hmerged⟩ :=
    mergeReport_total hlen.1 (i := 0) (by rw [hn, Nat.zero_add]; exact hlen.2)
    hproper.values hreasons
  have hst_len : st.reasons.length = st.values.length := by
    rw [hmerged.reasons_length, hmerged.values_length]
    exact hlen.1
  have hroom : n ≤ st.reasons.length := by
    rw [hmerged.reasons_length]
    exact hlen.2
  refine ⟨{ report with dataSetValues := some st.values, reasonForInclusion := st.reasons }, ?_, ?_,
    rfl, rfl, ?_, ?_⟩
  · rw [ClientReport.merge, hn, hst]
    rfl
  · intro values hvalues
    cases hvalues
    exact hst_len
  · show some st.reasons.length = _
    rw [hmerged.reasons_length, ClientReport.kept, ClientReport.keptSize]
    cases report.dataSetValues <;> simp
  · intro refs hrefs i hi
    refine ⟨by show i < st.reasons.length; omega, ⟨st.values, rfl, by omega⟩, ?_⟩
    rintro ⟨reason, hreason, hne⟩
    have hsome : st.reasons[i]? ≠ some .notIncluded := by
      rw [show st.reasons[i]? = some reason from hreason]
      exact fun h => hne (Option.some.inj h)
    obtain ⟨v, hv⟩ := hmerged.present i (Nat.zero_le _) (by omega) hsome
    refine ⟨v, ?_⟩
    show (st.values[i]?).join = some v
    rw [hv]
    rfl

/-! ## The delivered report -/

/-- The handler that a report is delivered to, as the callback gets it. -/
def deliveredReport (s : LinkState σ W) (con : ConnId) (message : ReportMessage) :
    Except Fault (Option ClientReport) :=
  match (Keyed.find Prod.fst con s.connections).map Prod.snd with
  | none => .ok none
  | some c => do return (← dispatchReport message c.enabledReports).map Prod.fst

/-- The handler for an RptID. -/
def handlerFor (s : LinkState σ W) (con : ConnId) (rptId : Str) : Option ClientReport :=
  ((Keyed.find Prod.fst con s.connections).map Prod.snd).bind fun c =>
    c.enabledReports.find? fun report => report.matchId = rptId

/-- The members that the callback goes through. -/
def loopMembers (t : σ) (rcbNode : Path) : Except Fault (Option (List Str)) := do
  let rcb ← rcbOf t rcbNode
  match ← getDataSetNodeFromRef t rcbNode rcb.getDataSetReference with
  | none => return none
  | some dataSetNode => return some (← membersOf t dataSetNode)

/-! ## The tree -/

variable {srv : Str} {q : Path} {t : σ} {ref : Str} {members : Str → List Str} {d : Str}

/-- The node of an RCB in a tree: `d` is the data set that is configured in the
local copy, and a data set that is found has the members `members`. -/
structure ConfiguredTree (t : σ) (rcbNode : Path) (ref : Str) (members : Str → List Str)
    (d : Str) : Prop where
  reference : shownText t rcbNode objRefNodeKey = .ok (some ref)
  block : ∃ rcb, rcbOf t rcbNode = .ok rcb ∧ rcb.datSet = some (.visibleString (some d))
  datSetNode : Live t (rcbNode ++ [keyOf .datSet])
  dataSets : ∀ d node, getDataSetNodeFromRef t rcbNode (some d) = .ok (some node) →
    membersOf t node = .ok (members d)

theorem child_modify (t : σ) (p node : Path) (k : Str) (f : DSNode → DSNode) :
    child (modify t p f) node k = child t node k := by
  have h : (lookup (modify t p f) (node ++ [k])).isSome = (lookup t (node ++ [k])).isSome := by
    rw [Bool.eq_iff_iff]
    exact live_modify f
  rw [child, child, h]

theorem getDataSetNodeFromRef_modify (hsrv : hasInit srvKeyInit srv = true) (p : Path)
    (f : DSNode → DSNode) (r : Option Str) :
    getDataSetNodeFromRef (modify t p f) (srv :: q) r = getDataSetNodeFromRef t (srv :: q) r := by
  cases r with
  | none => rfl
  | some r => simp only [getDataSetNodeFromRef_eq hsrv, child_modify]

/-- The data of the nodes that are not changed. -/
theorem data_modify {p node : Path} {f : DSNode → DSNode}
    (h : node = p → ∀ n, (f n).data = n.data) :
    (lookup (modify t p f) node).map DSNode.data = (lookup t node).map DSNode.data := by
  rw [lookup_modify]
  split_ifs with hp
  · rw [hp, Option.map_map]
    exact Option.map_congr fun n _ => h hp n
  · rfl

theorem rcbOf_modify {p node : Path} {f : DSNode → DSNode}
    (h : node = p → ∀ n, (f n).data = n.data) : rcbOf (modify t p f) node = rcbOf t node := by
  rw [rcbOf, rcbOf, data_modify h]

theorem membersOf_modify {p node : Path} {f : DSNode → DSNode}
    (h : node = p → ∀ n, (f n).data = n.data) :
    membersOf (modify t p f) node = membersOf t node := by
  rw [membersOf, membersOf, data_modify h]

theorem shownText_modify {p node : Path} {k : Str} {f : DSNode → DSNode} (hne : k ≠ [])
    (hslash : '/' ∉ k)
    (h : p ≠ node ++ [k]) : shownText (modify t p f) node k = shownText t node k := by
  unfold shownText
  rw [getPath_eq_child hne hslash, getPath_eq_child hne hslash, child_modify]
  cases hchild : child t node k with
  | none => rfl
  | some r =>
    obtain ⟨rfl, -⟩ := child_eq_some.1 hchild
    dsimp only
    rw [valueOf, valueOf, lookup_modify, if_neg (Ne.symm h)]

theorem ConfiguredTree.setValue (hsrv : hasInit srvKeyInit srv = true) {p : Path} (v : Option Json)
    (hp : p ≠ srv :: q ++ [objRefNodeKey]) (h : ConfiguredTree t (srv :: q) ref members d) :
    ConfiguredTree (setValue t p v) (srv :: q) ref members d where
  reference := (shownText_modify (by decide) (by decide) hp).trans h.reference
  block := by
    obtain ⟨rcb, hrcb, hd⟩ := h.block
    refine ⟨rcb, ?_, hd⟩
    rw [DSLink.setValue, rcbOf_modify]
    · exact hrcb
    · exact fun _ _ => rfl
  datSetNode := (live_setValue v).2 h.datSetNode
  dataSets d node hnode := by
    rw [DSLink.setValue, getDataSetNodeFromRef_modify hsrv] at hnode
    rw [DSLink.setValue, membersOf_modify]
    · exact h.dataSets d node hnode
    · exact fun _ _ => rfl

/-- The action changes the local copy. -/
theorem ConfiguredTree.setRcb (hsrv : hasInit srvKeyInit srv = true)
    {rcb : ClientReportControlBlock}
    {d' : Str} (hrcb : rcb.datSet = some (.visibleString (some d')))
    (h : ConfiguredTree t (srv :: q) ref members d) :
    ConfiguredTree (setRcb t (srv :: q) rcb) (srv :: q) ref members d' where
  reference := by
    refine (shownText_modify (by decide) (by decide) fun heq => ?_).trans h.reference
    have := congrArg List.length heq
    simp at this
  block := by
    obtain ⟨old, hold, -⟩ := h.block
    exact ⟨rcb, rcbOf_setRcb (live_of_rcbOf hold) rcb, hrcb⟩
  datSetNode := (live_modify _).2 h.datSetNode
  dataSets d node hnode := by
    have hmembers := h.dataSets d node ((getDataSetNodeFromRef_modify hsrv _ _ _).symm.trans hnode)
    refine (membersOf_modify fun heq => ?_).trans hmembers
    -- the node of a data set is not the node of the RCB
    obtain ⟨old, hold, -⟩ := h.block
    rw [heq, membersOf] at hmembers
    rw [rcbOf] at hold
    split at hold
    · rename_i hdata
      rw [hdata] at hmembers
      cases hmembers
    · cases hold

/-- The callback sets values of data attributes only. -/
theorem publishMember_configured (hsrv : hasInit srvKeyInit srv = true) {t t' t₀ : σ} {node : Path}
    {report : ClientReport} {i : ℕ} {entryName : Str}
    (h : ConfiguredTree t (srv :: q) ref members d ∧ ∀ p, ident t p = ident t₀ p)
    (hrun : publishMember node report t i entryName = .ok t') :
    ConfiguredTree t' (srv :: q) ref members d ∧ ∀ p, ident t' p = ident t₀ p := by
  rcases publishMember_sets hrun with rfl | ⟨daNode, v, -, rfl⟩
  · exact h
  · have hne : daNode ++ [daValueRefNodeKey] ≠ srv :: q ++ [objRefNodeKey] := by
      intro heq
      have hlast := congrArg List.getLast? heq
      rw [List.getLast?_concat, List.getLast?_concat] at hlast
      cases hlast
    exact ⟨h.1.setValue hsrv v hne, fun p => (ident_modify ..).trans (h.2 p)⟩

/-! ## Runs -/

/-- What happens to an RCB: another data set is chosen, or a report arrives. -/
inductive RcbEvent where
  | datSet (dataSet : Str)
  | report (message : ReportMessage)

/-- The parameters of the action that chooses a data set. -/
def datSetParams (dataSet : Str) : Json := .object [(daValueRefNodeKey, .string dataSet)]

/-- An event at the link, and the data set that the server has configured after it. -/
def rcbStep (svc : IedService W) (con : ConnId) (rcbNode : Path) (st : LinkState σ W × Str) :
    RcbEvent → Except Fault (LinkState σ W × Str)
  | .datSet dataSet => do
    let s ← setDatSetAction svc st.1 (rcbNode ++ [keyOf .datSet, "set".toList])
      (datSetParams dataSet)
    return (s, dataSet)
  | .report message => do
    return (← handleReport st.1 con message, st.2)

/-- The server accepts the change; a report is for the RptID, with the inclusion bits of the
data set that is configured. -/
def ProperEvent (svc : IedService W) (con : ConnId) (rcbNode : Path) (rptId : Str)
    (members : Str → List Str) (st : LinkState σ W × Str) : RcbEvent → Prop
  | .datSet dataSet => ∀ rcb, rcbOf st.1.tree rcbNode = .ok rcb →
      (st.1.setRCBValues svc con (rcb.setDataSetReference (some dataSet)) .datSet).1 = true
  | .report message => message.rptId = rptId ∧ message.Proper (members st.2).length

/-- A report reaches the callback with arrays that cover the members of its loop. -/
def ReportCovered (con : ConnId) (st : LinkState σ W × Str) : RcbEvent → Prop
  | .datSet _ => True
  | .report message => ∃ report, deliveredReport st.1 con message = .ok (some report) ∧
      ∀ refs, loopMembers st.1.tree report.callbackParameter.path = .ok (some refs) →
        Covers report refs

/-- The arrays of the handler have room for the data set that is configured. -/
def ReportFits (con : ConnId) (rptId : Str) (members : Str → List Str) (st : LinkState σ W × Str) :
    RcbEvent → Prop
  | .datSet _ => True
  | .report _ =>
      ∀ report size, handlerFor st.1 con rptId = some report → report.keptSize = some size →
      (members st.2).length ≤ size

/-- The RCB has a handler, and the local copy names the data set of the server. -/
structure RcbInv (srv : Str) (q : Path) (ref rptId : Str) (con : ConnId) (members : Str → List Str)
    (st : LinkState σ W × Str) : Prop where
  tree : ConfiguredTree st.1.tree (srv :: q) ref members st.2
  connection : st.1.getServerIedConnection (srv :: q) = .ok (some con)
  handler : ∃ report, handlerFor st.1 con rptId = some report ∧
    report.callbackParameter.path = srv :: q ∧ report.Even

variable {svc : IedService W} {con : ConnId} {rptId : Str} {st st' : LinkState σ W × Str}

theorem ConfiguredTree.loopMembers (h : ConfiguredTree t (srv :: q) ref members d) {refs : List Str}
    (hrun : loopMembers t (srv :: q) = .ok (some refs)) : refs = members d := by
  obtain ⟨rcb, hrcb, hd⟩ := h.block
  have href : rcb.getDataSetReference = some d := by
    rw [getDataSetReference, hd]
    rfl
  rw [DslinkIec61850.loopMembers, hrcb, ok_bind, href] at hrun
  obtain ⟨node, hnode, hrun⟩ := bind_eq_ok.1 hrun
  cases node with
  | none => cases hrun
  | some node =>
    dsimp only at hrun
    rw [h.dataSets d node hnode] at hrun
    cases hrun
    rfl

omit [DSLink σ] in
/-- The delivery finds the handler. -/
theorem deliveredReport_handler {s : LinkState σ W} {message : ReportMessage}
    {report : ClientReport} (h : handlerFor s con message.rptId = some report) :
    ∃ c, (Keyed.find Prod.fst con s.connections).map Prod.snd = some c ∧
      c.enabledReports.find? (fun r => r.matchId = message.rptId) = some report := by
  unfold handlerFor at h
  exact Option.bind_eq_some_iff.1 h

/-- As long as the RCB has its handler, a report is covered when it fits. -/
theorem reportCovered_iff (h : RcbInv srv q ref rptId con members st) {e : RcbEvent}
    (hproper : ProperEvent svc con (srv :: q) rptId members st e) :
    ReportCovered con st e ↔ ReportFits con rptId members st e := by
  cases e with
  | datSet => exact Iff.rfl
  | report message =>
    obtain ⟨rfl, hmessage⟩ := hproper
    obtain ⟨report, hreport, hpath, heven⟩ := h.handler
    obtain ⟨c, hc, hfind⟩ := deliveredReport_handler hreport
    constructor
    · rintro ⟨report', hdelivered, -⟩ r size hr hsize
      cases hreport.symm.trans hr
      rw [deliveredReport, hc] at hdelivered
      cases hmerge : report.merge message with
      | error e =>
        dsimp only at hdelivered
        rw [dispatchReport_error hfind hmerge] at hdelivered
        cases hdelivered
      | ok merged =>
        have := merge_fits hmerge size hsize
        rw [hmessage.inclusion] at this
        exact this
    · intro hfits
      obtain ⟨report', hmerge, -, hparam, hid, -, hcovers⟩ :=
        merge_total heven hmessage fun size hsize => hfits report size hreport hsize
      obtain ⟨reports', hrun, -⟩ := dispatchReport_ok hfind hmerge hid
      refine ⟨report', ?_, fun refs hrefs => ?_⟩
      · rw [deliveredReport, hc]
        dsimp only
        rw [hrun]
        rfl
      · rw [hparam, hpath] at hrefs
        rw [h.tree.loopMembers hrefs]
        exact hcovers _ rfl

/-! ## What the events keep -/

theorem getServerIedConnection_congr {s s' : LinkState σ W} (hmap : s'.serverMap = s.serverMap)
    (hident : ∀ p, ident s'.tree p = ident s.tree p) (node : Path) :
    s'.getServerIedConnection node = s.getServerIedConnection node := by
  unfold getServerIedConnection mapGet LinkState.ptr
  rw [hmap]
  simp only [hident]

theorem dropLast_two (p : Path) (k k' : Str) : (p ++ [k, k']).dropLast.dropLast = p := by simp

/-- An accepted change of the data set. -/
theorem setDatSetAction_accepted (hsrv : hasInit srvKeyInit srv = true) {s s' : LinkState σ W}
    (h : ConfiguredTree s.tree (srv :: q) ref members d)
    (hcon : s.getServerIedConnection (srv :: q) = .ok (some con)) {dataSet : Str}
    (haccepted : ∀ rcb, rcbOf s.tree (srv :: q) = .ok rcb →
      (s.setRCBValues svc con (rcb.setDataSetReference (some dataSet)) .datSet).1 = true)
    (hrun : setDatSetAction svc s (srv :: q ++ [keyOf .datSet, "set".toList])
      (datSetParams dataSet) = .ok s') :
    ConfiguredTree s'.tree (srv :: q) ref members dataSet ∧ s'.connections = s.connections ∧
      s'.serverMap = s.serverMap ∧ ∀ p, ident s'.tree p = ident s.tree p := by
  obtain ⟨rcb, hrcb, hd⟩ := h.block
  have hvalue : Json.stringValue (valueMember (datSetParams dataSet)) = some dataSet := by
    simp [valueMember, datSetParams, Json.objectGet, Json.stringValue]
  have hnode : s.getServerIedConnection (srv :: q ++ [keyOf .datSet, "set".toList]) =
      .ok (some con) := by
    rw [← hcon]
    rfl
  have hdrop : (srv :: q ++ [keyOf .datSet, "set".toList]).dropLast.dropLast = srv :: q :=
    dropLast_two (srv :: q) _ _
  have hnew : (rcb.setDataSetReference (some dataSet)).datSet =
      some (.visibleString (some dataSet)) := by
    rw [setDataSetReference, hd]
    rfl
  have htree := h.setRcb hsrv hnew
  have hset : setValueAt (setRcb s.tree (srv :: q) (rcb.setDataSetReference (some dataSet)))
      (srv :: q) "rcbdatset".toList (some (.string dataSet)) =
        .ok (setValue (setRcb s.tree (srv :: q) (rcb.setDataSetReference (some dataSet)))
          (srv :: q ++ [keyOf .datSet]) (some (.string dataSet))) := by
    have hlive : child (setRcb s.tree (srv :: q) (rcb.setDataSetReference (some dataSet)))
        (srv :: q)
        "rcbdatset".toList = some (srv :: q ++ [keyOf .datSet]) :=
          child_eq_some.2 ⟨rfl, htree.datSetNode⟩
    rw [setValueAt, getPath_eq_child (by decide) (by decide), hlive]
    rfl
  have hok := haccepted rcb hrcb
  unfold setDatSetAction setRcbElement at hrun
  simp only [hdrop, hnode, h.reference, hrcb, ok_bind, hvalue, Option.map_some, hset] at hrun
  split at hrun
  · cases hrun
    refine ⟨htree.setValue hsrv _ ?_, rfl, rfl, fun p => ?_⟩
    · intro heq
      have hlast := congrArg List.getLast? heq
      rw [List.getLast?_concat, List.getLast?_concat] at hlast
      cases hlast
    · exact (ident_modify ..).trans (ident_modify ..)
  · rename_i hrejected
    exact absurd hok hrejected

/-- A report that is handled changes the handler, and values of data attributes. -/
theorem handleReport_configured (hsrv : hasInit srvKeyInit srv = true) {s s' : LinkState σ W}
    (h : ConfiguredTree s.tree (srv :: q) ref members d) {message : ReportMessage}
    (hrun : handleReport s con message = .ok s') {report : ClientReport}
    {reports : List ClientReport}
    {c : Connection} (hc : (Keyed.find Prod.fst con s.connections).map Prod.snd = some c)
    (hdispatch : dispatchReport message c.enabledReports = .ok (some (report, reports))) :
    ConfiguredTree s'.tree (srv :: q) ref members d ∧
      s'.connections = (s.modifyConnection con fun c =>
        { c with enabledReports := reports }).connections ∧
      s'.serverMap = s.serverMap ∧ ∀ p, ident s'.tree p = ident s.tree p := by
  rw [handleReport, hc] at hrun
  dsimp only at hrun
  rw [hdispatch, ok_bind] at hrun
  obtain ⟨t', refs, hpublish, rfl⟩ := reportCallbackFunction_ok hrun
  obtain ⟨htree, hident⟩ := foldlM_invariant
    (I := fun t => ConfiguredTree t (srv :: q) ref members d ∧ ∀ p, ident t p = ident s.tree p)
    (fun m _ t t' hI hstep => publishMember_configured hsrv hI hstep) hpublish ⟨h, fun _ => rfl⟩
  exact ⟨htree, rfl, rfl, hident⟩

omit [DSLink σ] in
theorem handlerFor_modifyConnection {s : LinkState σ W} {c : Connection}
    {reports : List ClientReport}
    (hc : (Keyed.find Prod.fst con s.connections).map Prod.snd = some c) :
    handlerFor (s.modifyConnection con fun c => { c with enabledReports := reports }) con rptId =
      reports.find? fun r => r.matchId = rptId := by
  obtain ⟨e, he, rfl⟩ := Option.map_eq_some_iff.1 hc
  have hkey := Keyed.key_of_find he
  unfold handlerFor modifyConnection
  dsimp only
  rw [Keyed.find_map fun a => by split_ifs <;> rfl, he, Option.map_some, if_pos hkey]
  rfl

/-- A report of the run leaves the handler with its arrays. -/
theorem RcbInv.step (hsrv : hasInit srvKeyInit srv = true) {e : RcbEvent}
    (h : RcbInv srv q ref rptId con members st)
    (hproper : ProperEvent svc con (srv :: q) rptId members st e)
    (hfits : ReportFits con rptId members st e) (hrun : rcbStep svc con (srv :: q) st e = .ok st') :
    RcbInv srv q ref rptId con members st' := by
  cases e with
  | datSet dataSet =>
    obtain ⟨s', hs', hst⟩ := bind_eq_ok.1 hrun
    cases hst
    obtain ⟨htree, hcons, hmap, hident⟩ :=
      setDatSetAction_accepted hsrv h.tree h.connection hproper hs'
    refine ⟨htree, (getServerIedConnection_congr hmap hident _).trans h.connection, ?_⟩
    obtain ⟨report, hreport, hrest⟩ := h.handler
    refine ⟨report, ?_, hrest⟩
    rw [← hreport, handlerFor, handlerFor, hcons]
  | report message =>
    obtain ⟨s', hs', hst⟩ := bind_eq_ok.1 hrun
    cases hst
    obtain ⟨rfl, hmessage⟩ := hproper
    obtain ⟨report, hreport, hpath, heven⟩ := h.handler
    obtain ⟨c, hc, hfind⟩ := deliveredReport_handler hreport
    obtain ⟨report', hmerge, heven', hparam, hid, -, -⟩ :=
      merge_total heven hmessage fun size hsize => hfits report size hreport hsize
    obtain ⟨reports', hdispatch, hfind'⟩ := dispatchReport_ok hfind hmerge hid
    obtain ⟨htree, hcons, hmap, hident⟩ := handleReport_configured hsrv h.tree hs' hc hdispatch
    refine ⟨htree, (getServerIedConnection_congr hmap hident _).trans h.connection, report',
      ?_, ?_, heven'⟩
    · rw [← hfind', ← handlerFor_modifyConnection hc, handlerFor, handlerFor, hcons]
    · rw [hparam, hpath]

/-- In a run of accepted changes and of reports for the data set that is configured, the
callback stays inside the arrays and finds the included values exactly when no report
comes for more members than the arrays have room for; they got their size from the
first report. -/
theorem reports_covered_iff (hsrv : hasInit srvKeyInit srv = true)
    (h : RcbInv srv q ref rptId con members st) {run : List RcbEvent}
    (hproper : Along (rcbStep svc con (srv :: q))
      (ProperEvent svc con (srv :: q) rptId members) st run) :
    Along (rcbStep svc con (srv :: q)) (ReportCovered con) st run ↔
      Along (rcbStep svc con (srv :: q)) (ReportFits con rptId members) st run := by
  refine along_iff_of_along (J := RcbInv srv q ref rptId con members) ?_ ?_ h hproper
  · intro st e st' hinv hp hfits hrun
    exact hinv.step hsrv hp hfits hrun
  · intro st e hinv hp
    exact reportCovered_iff hinv hp

/-! ## A larger data set after the first report -/

/-- The members of the data set `ds`, and of any other one. -/
def growingMembers (dataSet : Str) : List Str :=
  if refNodeKey dataSet = "dts_D$L.ds".toList then ["D/L.x[ST]".toList]
  else ["D/L.x[ST]".toList, "D/L.y[ST]".toList]

/-- The server of an RCB with the data sets `ds` and `two`. -/
def growingTree : NodeStore :=
  let folder := ["srv_a".toList, datasetFolderNodeKey]
  let t := modify idleTree ["srv_a".toList] fun n => { n with data := .link }
  let t := addChild t ["srv_a".toList] datasetFolderNodeKey .create
  let t := addChild t folder "dts_D$L.ds".toList
    { DSNode.create with data := .members (growingMembers "D/L$ds".toList) }
  addChild t folder "dts_D$L.two".toList
    { DSNode.create with data := .members (growingMembers "D/L$two".toList) }

/-- A server that accepts every write. -/
def acceptingService : IedService Unit :=
  { IedService.silent Unit with writeRCB := fun w _ _ _ _ => (true, w) }

/-- The link with a handler for the RCB and no report so far. -/
def growingState : LinkState NodeStore Unit × Str :=
  let handler : ClientReport :=
    { callbackParameter := { path := idleRcbNode, ident := 2 }, rcbReference := "D/L.RP.r".toList,
      rptId := some "id".toList, dataSetValues := none, reasonForInclusion := [] }
  let connection : Connection :=
    { enabledReports := [handler], createdFor := idleServer, clientControls := [] }
  ({ idleState with tree := growingTree, connections := [(0, connection)] }, "D/L$ds".toList)

/-- A report with a value for each of `n` members. -/
def fullReport (n : ℕ) : ReportMessage :=
  { rptId := "id".toList, inclusion := List.replicate n true,
    values := List.replicate n (.boolean true), reasons := none }

/-- A report for `ds`, the change to `two`, and a report for it. -/
def growingRun : List RcbEvent :=
  [.report (fullReport 1), .datSet "D/L$two".toList, .report (fullReport 2)]

/-- The link after the first events. -/
def growingAfter (n : ℕ) : LinkState NodeStore Unit × Str :=
  match (growingRun.take n).foldlM (rcbStep acceptingService 0 idleRcbNode) growingState with
  | .ok st => st
  | .error _ => growingState

theorem growingState_inv :
    RcbInv "srv_a".toList ["urc_D$L.RP.r".toList] "D/L.RP.r".toList "id".toList 0 growingMembers
      growingState where
  tree :=
    { reference := by rfl
      block := ⟨idleRcb, by rfl, rfl⟩
      datSetNode := by decide +kernel
      dataSets := by
        intro d node hnode
        obtain ⟨rfl, hlive⟩ := getDataSetNodeFromRef_below (by decide) hnode
        have hchild : refNodeKey d ∈ ["dts_D$L.ds".toList, "dts_D$L.two".toList] :=
          (mem_children growingTree ["srv_a".toList, datasetFolderNodeKey] (refNodeKey d)).2 hlive
        unfold growingMembers
        rcases List.mem_pair.1 hchild with hk | hk
        · rw [hk]
          rfl
        · rw [hk]
          rfl }
  connection := by rfl
  handler := ⟨_, by rfl, rfl, fun values h => by cases h⟩

theorem growingRun_proper :
    Along (rcbStep acceptingService 0 idleRcbNode)
      (ProperEvent acceptingService 0 idleRcbNode "id".toList growingMembers) growingState
        growingRun := by
  have hfirst : rcbStep acceptingService 0 idleRcbNode growingState (.report (fullReport 1)) =
      .ok (growingAfter 1) := by rfl
  have hsecond : rcbStep acceptingService 0 idleRcbNode (growingAfter 1)
      (.datSet "D/L$two".toList) = .ok (growingAfter 2) := by rfl
  refine ⟨⟨rfl, by decide, by decide, fun codes h => by cases h⟩, fun st hst => ?_⟩
  cases hfirst.symm.trans hst
  refine ⟨fun rcb _ => rfl, fun st hst => ?_⟩
  cases hsecond.symm.trans hst
  exact ⟨⟨rfl, by decide, by decide, fun codes h => by cases h⟩, fun _ _ => trivial⟩

theorem reports_covered_iff_growing :
    Along (rcbStep acceptingService 0 idleRcbNode) (ReportCovered 0) growingState growingRun ↔
      Along (rcbStep acceptingService 0 idleRcbNode) (ReportFits 0 "id".toList growingMembers)
        growingState growingRun :=
  reports_covered_iff (by decide) growingState_inv growingRun_proper

/-- The report for the larger data set is written beyond the arrays. -/
theorem growingRun_uncovered :
    RcbInv "srv_a".toList ["urc_D$L.RP.r".toList] "D/L.RP.r".toList "id".toList 0 growingMembers
      growingState ∧ Along (rcbStep acceptingService 0 idleRcbNode)
        (ProperEvent acceptingService 0 idleRcbNode "id".toList growingMembers) growingState
          growingRun ∧
      ¬ Along (rcbStep acceptingService 0 idleRcbNode)
        (ReportCovered 0) growingState growingRun := by
  refine ⟨growingState_inv, growingRun_proper, fun h => ?_⟩
  have hfirst : rcbStep acceptingService 0 idleRcbNode growingState (.report (fullReport 1)) =
      .ok (growingAfter 1) := by rfl
  have hsecond : rcbStep acceptingService 0 idleRcbNode (growingAfter 1)
      (.datSet "D/L$two".toList) = .ok (growingAfter 2) := by rfl
  obtain ⟨⟨report, hdelivered, -⟩, -⟩ := (h.2 _ hfirst).2 _ hsecond
  have hfault : deliveredReport (growingAfter 2).1 0 (fullReport 2) = .error .outOfBounds := by rfl
  cases hdelivered.symm.trans hfault

end DslinkIec61850
