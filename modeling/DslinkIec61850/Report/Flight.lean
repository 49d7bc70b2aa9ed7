import DslinkIec61850.Report.Changes

/-!
# Reports in flight

A report carries the values of the data set that the server had configured when it was
sent; the callback goes by the local copy of the RCB at the time of the delivery. In
between the data set may be changed, and each change may be accepted, rejected or lost.

* `merge_element`: what a handler keeps of an element of a report.
* `publishMembers_changes`: what the loop over the members may change.
-/

namespace DslinkIec61850

open DSLink Strings LinkState Run ClientReportControlBlock

variable {σ W : Type} [DSLink σ]

/-! ## Elements -/

/-- The element of a report for the member `i` of its data set. -/
def ReportMessage.element (message : ReportMessage) (i : ℕ) : Option MmsValue :=
  if message.inclusion[i]? = some true then message.values[(message.inclusion.take i).count true]?
  else none

/-- What is kept of a new value when `old` was kept before. -/
def keptValue (old : Option (Option MmsValue)) (v : MmsValue) : MmsValue :=
  old.join.elim v (·.update v)

theorem mergeReport_included (reasons : Option (List (List Bool))) (st : ReportValues) (i : ℕ)
    (bits : List Bool) (v : MmsValue) (values : List MmsValue) :
    mergeReport reasons st i (true :: bits) (v :: values) =
      if i < st.reasons.length then
        memberReason reasons (st.reasons.getD i .notIncluded) >>= fun reason =>
          mergeReport reasons { values := setElement st.values i (keptValue st.values[i]? v),
                                reasons := st.reasons.set i reason } (i + 1) bits values
      else .error .outOfBounds := by
  rw [mergeReport, keptValue]
  cases st.values[i]? with
  | none => rfl
  | some old => cases old <;> rfl

/-- What the merge of the bits from the index `i` on leaves: an index with a clear bit has
no reason, one with a set bit has the next value. -/
structure MergedBits (st st' : ReportValues) (i : ℕ) (bits : List Bool)
    (values : List MmsValue) : Prop where
  values_length : st'.values.length = st.values.length
  reasons_length : st'.reasons.length = st.reasons.length
  before : ∀ j < i, st'.values[j]? = st.values[j]? ∧ st'.reasons[j]? = st.reasons[j]?
  excluded : ∀ k, bits[k]? = some false → st'.reasons[i + k]? = some .notIncluded
  included : ∀ k, bits[k]? = some true → ∃ v, values[(bits.take k).count true]? = some v ∧
    (i + k < st.values.length → st'.values[i + k]? = some (some (keptValue st.values[i + k]? v)))

theorem mergeReport_bits {reasons : Option (List (List Bool))} {bits : List Bool}
    {st st' : ReportValues}
    {i : ℕ} {values : List MmsValue} (h : mergeReport reasons st i bits values = .ok st') :
    MergedBits st st' i bits values := by
  induction bits generalizing st i values with
  | nil =>
    cases h
    exact ⟨rfl, rfl, fun _ _ => ⟨rfl, rfl⟩, fun k hk => by simp at hk, fun k hk => by simp at hk⟩
  | cons bit bits ih =>
    cases bit with
    | false =>
      rw [mergeReport] at h
      split_ifs at h with hlt
      obtain ⟨hv, hr, hbefore, hex, hin⟩ := ih h
      refine ⟨hv, hr.trans (List.length_set ..), fun j hj => ?_, fun k hk => ?_, fun k hk => ?_⟩
      · obtain ⟨hjv, hjr⟩ := hbefore j (by omega)
        exact ⟨hjv, hjr.trans (List.getElem?_set_ne (by omega))⟩
      · cases k with
        | zero =>
          rw [Nat.add_zero, (hbefore i (by omega)).2]
          exact List.getElem?_set_self hlt
        | succ k =>
          rw [show i + (k + 1) = i + 1 + k by omega]
          exact hex k (by simpa using hk)
      · cases k with
        | zero => simp at hk
        | succ k =>
          obtain ⟨v, hval, hset⟩ := hin k (by simpa using hk)
          refine ⟨v, by simpa using hval, fun hlen => ?_⟩
          rw [show i + (k + 1) = i + 1 + k by omega]
          exact hset (show i + 1 + k < st.values.length by omega)
    | true =>
      cases values with
      | nil => cases h
      | cons v values =>
        rw [mergeReport_included] at h
        split_ifs at h with hlt
        obtain ⟨reason, -, h⟩ := bind_eq_ok.1 h
        obtain ⟨hv, hr, hbefore, hex, hin⟩ := ih h
        have hlength : (setElement st.values i (keptValue st.values[i]? v)).length =
            st.values.length :=
          List.length_set ..
        refine ⟨hv.trans hlength, hr.trans (List.length_set ..), fun j hj => ?_, fun k hk => ?_,
          fun k hk => ?_⟩
        · obtain ⟨hjv, hjr⟩ := hbefore j (by omega)
          exact ⟨hjv.trans (List.getElem?_set_ne (by omega)),
            hjr.trans (List.getElem?_set_ne (by omega))⟩
        · cases k with
          | zero => simp at hk
          | succ k =>
            rw [show i + (k + 1) = i + 1 + k by omega]
            exact hex k (by simpa using hk)
        · cases k with
          | zero =>
            refine ⟨v, by simp, fun hlen => ?_⟩
            rw [Nat.add_zero, (hbefore i (by omega)).1]
            exact List.getElem?_set_self hlen
          | succ k =>
            obtain ⟨v', hval, hset⟩ := hin k (by simpa using hk)
            refine ⟨v', by simpa using hval, fun hlen => ?_⟩
            have hother : (setElement st.values i (keptValue st.values[i]? v))[i + 1 + k]? =
                st.values[i + 1 + k]? :=
              List.getElem?_set_ne (by omega)
            have := hset (by rw [hlength]; omega)
            rw [hother] at this
            rw [show i + (k + 1) = i + 1 + k by omega]
            exact this

variable {m : ServerModel} {srv : Str} {q : Path} {t t' : σ}

/-- The node is the `Value` of a member that the report includes, and shows what the handler
has for this member. -/
def ShowsElement (report : ClientReport) (srv : Str) (members : List MemberRef) (t : σ)
    (p : Path) : Prop :=
  ∃ i r v json, members[i]? = some r ∧ Included report i ∧ p = r.valuePath srv ∧
    reportedValue report i = some v ∧
    shownValue v = .ok (some json) ∧ ∀ j, json = some j → valueOf t p = some j

theorem ShowsElement.congr {report : ClientReport} {members : List MemberRef} {p : Path}
    (h : ShowsElement report srv members t p) (hsame : lookup t' p = lookup t p) :
    ShowsElement report srv members t' p := by
  obtain ⟨i, r, v, json, hr, hincluded, hp, hv, hshown, hvalue⟩ := h
  refine ⟨i, r, v, json, hr, hincluded, hp, hv, hshown, fun j hj => ?_⟩
  rw [valueOf, hsame]
  exact hvalue j hj

variable {ref : Str} {b : Bool} {members : Str → List MemberRef} {d : Str}

/-- The node of an RCB in the tree of a server model: the local copy names the data set `d`,
and data sets that are found have their members. -/
structure FlightTree (m : ServerModel) (srv : Str) (q : Path) (ref : Str) (b : Bool)
    (members : Str → List MemberRef) (d : Str) (t : σ) : Prop where
  configured : ConfiguredTree t (srv :: q) ref (fun d => (members d).map MemberRef.text) d
  block : ∃ rcb, rcbOf t (srv :: q) = .ok rcb ∧ rcb.objectReference = ref ∧ rcb.isBuffered = b
  model : ModelTree m srv t

namespace FlightTree

theorem setValue (hsrv : hasInit srvKeyInit srv = true) {p : Path} (v : Option Json)
    (hp : p ≠ srv :: q ++ [objRefNodeKey]) (h : FlightTree m srv q ref b members d t) :
    FlightTree m srv q ref b members d (setValue t p v) where
  configured := h.configured.setValue hsrv v hp
  block := by
    obtain ⟨rcb, hrcb, hrest⟩ := h.block
    refine ⟨rcb, ?_, hrest⟩
    rw [DSLink.setValue, rcbOf_modify]
    · exact hrcb
    · exact fun _ _ => rfl
  model := h.model.samePlaces (samePlaces_setValue srv t p v)

theorem setRcb (hsrv : hasInit srvKeyInit srv = true) {rcb : ClientReportControlBlock} {d' : Str}
    (hd : rcb.datSet = some (.visibleString (some d'))) (href : rcb.objectReference = ref)
    (hb : rcb.isBuffered = b) (h : FlightTree m srv q ref b members d t) :
    FlightTree m srv q ref b members d' (setRcb t (srv :: q) rcb) where
  configured := h.configured.setRcb hsrv hd
  block := by
    obtain ⟨old, hold, -⟩ := h.block
    exact ⟨rcb, rcbOf_setRcb (live_of_rcbOf hold) rcb, href, hb⟩
  model := h.model.samePlaces fun _ => live_modify _

theorem setValueAt (hsrv : hasInit srvKeyInit srv = true) {key : Str} {v : Option Json}
    (hne : key ≠ [])
    (hslash : '/' ∉ key) (hkey : key ≠ objRefNodeKey) (h : FlightTree m srv q ref b members d t)
    (hrun : setValueAt t (srv :: q) key v = .ok t') :
    FlightTree m srv q ref b members d t' ∧ ∀ p, ident t' p = ident t p := by
  obtain ⟨p, hp, hrun⟩ := bind_eq_ok.1 hrun
  have hpath := deref_eq_ok.1 hp
  rw [getPath_eq_child hne hslash] at hpath
  obtain ⟨rfl, -⟩ := child_eq_some.1 hpath
  cases hrun
  refine ⟨h.setValue hsrv v fun heq => ?_, fun p => ident_modify ..⟩
  have hlast := congrArg List.getLast? heq
  rw [List.getLast?_concat, List.getLast?_concat] at hlast
  exact hkey (Option.some.inj hlast)

theorem setNodeRCBValues (hsrv : hasInit srvKeyInit srv = true) {rcb : ClientReportControlBlock}
    (h : FlightTree m srv q ref b members d t) (hrun : setNodeRCBValues t (srv :: q) rcb = .ok t') :
    FlightTree m srv q ref b members d t' ∧ ∀ p, ident t' p = ident t p := by
  have hset {t₁ t₂ : σ} {key : Str} {v : Option Json} (hkey : key ∈ rcbKeys)
      (h₁ : FlightTree m srv q ref b members d t₁ ∧ ∀ p, ident t₁ p = ident t p)
      (hrun : DslinkIec61850.setValueAt t₁ (srv :: q) key v = .ok t₂) :
      FlightTree m srv q ref b members d t₂ ∧ ∀ p, ident t₂ p = ident t p := by
    have hkeys : ∀ key ∈ rcbKeys, key ≠ [] ∧ '/' ∉ key ∧ key ≠ objRefNodeKey := by decide
    obtain ⟨hne, hslash, hobj⟩ := hkeys key hkey
    obtain ⟨htree, hident⟩ := h₁.1.setValueAt hsrv hne hslash hobj hrun
    exact ⟨htree, fun p => (hident p).trans (h₁.2 p)⟩
  obtain ⟨t₁, h₁, hrun⟩ := bind_eq_ok.1 hrun
  obtain ⟨t₂, h₂, hrun⟩ := bind_eq_ok.1 hrun
  obtain ⟨t₃, h₃, hrun⟩ := bind_eq_ok.1 hrun
  obtain ⟨t₄, h₄, hrun⟩ := bind_eq_ok.1 hrun
  obtain ⟨t₅, h₅, hrun⟩ := bind_eq_ok.1 hrun
  obtain ⟨t₆, h₆, hrun⟩ := bind_eq_ok.1 hrun
  obtain ⟨_, -, hrun⟩ := bind_eq_ok.1 hrun
  obtain ⟨_, -, hrun⟩ := bind_eq_ok.1 hrun
  obtain ⟨t₇, h₇, hrun⟩ := bind_eq_ok.1 hrun
  obtain ⟨_, -, h₈⟩ := bind_eq_ok.1 hrun
  have hfirst := hset (by decide)
    (hset (by decide) (hset (by decide) (hset (by decide) ⟨h, fun _ => rfl⟩ h₁) h₂) h₃) h₄
  exact hset (by decide) (hset (by decide) (hset (by decide) (hset (by decide) hfirst h₅) h₆) h₇) h₈

end FlightTree

/-! ## Changes of the data set -/

/-- A server keeps a data set for the RCB: an accepted write sets it, a write that fails may
or may not have reached the server, and reading delivers it. -/
structure ServesDatSet (svc : IedService W) (con : ConnId) (ref : Str) (b : Bool)
    (datSetOf : W → Str) : Prop where
  accepted : ∀ w d, (svc.writeRCB w con ref .datSet (some (.visibleString (some d)))).1 = true →
    datSetOf (svc.writeRCB w con ref .datSet (some (.visibleString (some d)))).2 = d
  failed : ∀ w d, (svc.writeRCB w con ref .datSet (some (.visibleString (some d)))).1 = false →
    datSetOf (svc.writeRCB w con ref .datSet (some (.visibleString (some d)))).2 = datSetOf w ∨
      datSetOf (svc.writeRCB w con ref .datSet (some (.visibleString (some d)))).2 = d
  read : ∀ w, datSetOf (svc.readRCB w con ref).2 = datSetOf w
  reply : ∀ w values, (svc.readRCB w con ref).1 = some values →
    values[index b .datSet]? = some (.visibleString (some (datSetOf w)))

/-- The write of a data set. -/
def writeDatSet (svc : IedService W) (w : W) (con : ConnId) (ref d : Str) : Bool × W :=
  svc.writeRCB w con ref .datSet (some (.visibleString (some d)))

/-- The data set of the local copy after the action: the new one, or the one that was read
back. -/
def copiedDatSet (svc : IedService W) (w : W) (con : ConnId) (ref : Str) (datSetOf : W → Str)
    (d : Str) : Str :=
  if (writeDatSet svc w con ref d).1 then d
  else if (svc.readRCB (writeDatSet svc w con ref d).2 con ref).1.isSome then datSetOf
    (writeDatSet svc w con ref d).2
  else d

variable {svc : IedService W} {con : ConnId} {datSetOf : W → Str} {s s' : LinkState σ W}

omit [DSLink σ] in
/-- What the read-back puts into the local copy. -/
theorem getRCBValues_datSet (hserves : ServesDatSet svc con ref b datSetOf)
    {rcb : ClientReportControlBlock}
    {read : Option ClientReportControlBlock} (hd : rcb.datSet = some (.visibleString (some d)))
    (href : rcb.objectReference = ref) (hb : rcb.isBuffered = b)
    (h : s.getRCBValues svc con ref (some rcb) = .ok (read, s')) :
    (read.getD rcb).objectReference = ref ∧ (read.getD rcb).isBuffered = b ∧
      (read.getD rcb).datSet = some (.visibleString (some
        (if (svc.readRCB s.world con ref).1.isSome then datSetOf s.world else d))) := by
  unfold getRCBValues at h
  dsimp only [call] at h
  cases hreply : (svc.readRCB s.world con ref).1 with
  | none =>
    rw [hreply] at h
    cases h
    exact ⟨href, hb, hd⟩
  | some values =>
    rw [hreply] at h
    obtain ⟨rcb', hupdate, h⟩ := bind_eq_ok.1 h
    cases h
    obtain ⟨-, hbuffered, hreference, hfields⟩ := updateValues_ok hupdate
    obtain ⟨v, hv, hfield⟩ := hfields .datSet
    have hv' : values[index b .datSet]? = some v := hb ▸ hv
    rw [hserves.reply s.world values hreply] at hv'
    cases hv'
    have hold : rcb.field .datSet = some (.visibleString (some d)) := hd
    rw [Option.getD_some] at hfield
    refine ⟨hreference.trans href, hbuffered.trans hb, ?_⟩
    show rcb'.datSet = _
    rw [Option.isSome_some, if_pos rfl]
    have hnew : rcb'.datSet = _ := hfield
    rw [hnew, hold]
    rfl

/-- **A change of the data set.** -/
theorem setDatSetAction_flight (hsrv : hasInit srvKeyInit srv = true)
    (hserves : ServesDatSet svc con ref b datSetOf) (h : FlightTree m srv q ref b members d s.tree)
    (hcon : s.getServerIedConnection (srv :: q) = .ok (some con)) {dataSet : Str}
    (hrun : setDatSetAction svc s (srv :: q ++ [keyOf .datSet, "set".toList])
      (datSetParams dataSet) = .ok s') :
    FlightTree m srv q ref b members (copiedDatSet svc s.world con ref datSetOf dataSet) s'.tree ∧
      datSetOf s'.world = datSetOf (writeDatSet svc s.world con ref dataSet).2 ∧
      s'.connections = s.connections ∧ s'.serverMap = s.serverMap ∧
      ∀ p, ident s'.tree p = ident s.tree p := by
  obtain ⟨rcb, hrcb, href, hb⟩ := h.block
  have hd : rcb.datSet = some (.visibleString (some d)) := by
    obtain ⟨rcb', hrcb', hd⟩ := h.configured.block
    cases hrcb.symm.trans hrcb'
    exact hd
  have hvalue : Json.stringValue (valueMember (datSetParams dataSet)) = some dataSet := by
    simp [valueMember, datSetParams, Json.objectGet, Json.stringValue]
  have hnode : s.getServerIedConnection (srv :: q ++ [keyOf .datSet, "set".toList]) =
      .ok (some con) := by
    rw [← hcon]
    rfl
  have hdrop : (srv :: q ++ [keyOf .datSet, "set".toList]).dropLast.dropLast = srv :: q :=
    dropLast_two (srv :: q) _ _
  let new := rcb.setDataSetReference (some dataSet)
  have hnew : new.datSet = some (.visibleString (some dataSet)) := by
    show (rcb.setDataSetReference (some dataSet)).datSet = _
    rw [setDataSetReference, hd]
    rfl
  have hnewRef : new.objectReference = ref := href
  have htree := h.setRcb hsrv hnew hnewRef hb
  unfold setDatSetAction setRcbElement at hrun
  simp only [hdrop, hnode, h.configured.reference, hrcb, ok_bind, hvalue] at hrun
  obtain ⟨t₁, h₁, hrun⟩ := bind_eq_ok.1 hrun
  obtain ⟨htree₁, hident₁⟩ := htree.setValueAt hsrv (by decide) (by decide) (by decide) h₁
  have hident₁ (p : Path) : ident t₁ p = ident s.tree p := (hident₁ p).trans (ident_modify ..)
  have hwrite : ({ s with tree := t₁ }.setRCBValues svc con new .datSet).1 =
      (writeDatSet svc s.world con ref dataSet).1 ∧
      ({ s with tree := t₁ }.setRCBValues svc con new .datSet).2.world =
        (writeDatSet svc s.world con ref dataSet).2 := by
    unfold setRCBValues writeDatSet
    dsimp only [send]
    rw [hnew, hnewRef]
    exact ⟨rfl, rfl⟩
  obtain ⟨hok, hworld⟩ := hwrite
  split at hrun
  · rename_i haccepted
    cases hrun
    have hdone : (writeDatSet svc s.world con ref dataSet).1 = true := hok.symm.trans haccepted
    refine ⟨?_, by rw [← hworld], rfl, rfl, hident₁⟩
    rw [copiedDatSet, if_pos hdone]
    exact htree₁
  · rename_i hrejected
    obtain ⟨⟨read, s₂⟩, hread, hrun⟩ := bind_eq_ok.1 hrun
    obtain ⟨t₂, h₂, hrun⟩ := bind_eq_ok.1 hrun
    cases hrun
    have hfailed : ¬ (writeDatSet svc s.world con ref dataSet).1 = true := by rwa [← hok]
    obtain ⟨hreadTree, hreadStep⟩ := getRCBValues_ok hread
    obtain ⟨hbackRef, hbackBuffered, hback⟩ := getRCBValues_datSet hserves hnew hnewRef hb hread
    rw [hworld] at hback
    have hcopied : copiedDatSet svc s.world con ref datSetOf dataSet =
        if (svc.readRCB (writeDatSet svc s.world con ref dataSet).2 con ref).1.isSome then
          datSetOf (writeDatSet svc s.world con ref dataSet).2 else dataSet := by
      rw [copiedDatSet, if_neg hfailed]
    rw [← hcopied] at hback
    have htree₂ : FlightTree m srv q ref b members dataSet s₂.tree := by
      rw [hreadTree]
      exact htree₁
    obtain ⟨htree₃, hident₃⟩ :=
      (htree₂.setRcb hsrv hback hbackRef hbackBuffered).setNodeRCBValues hsrv h₂
    refine ⟨htree₃, ?_, hreadStep.connections_eq, hreadStep.serverMap_eq, fun p => ?_⟩
    · show datSetOf s₂.world = _
      rw [getRCBValues_world hread, hworld, hserves.read]
    · refine (hident₃ p).trans ((ident_modify ..).trans ?_)
      rw [hreadTree]
      exact hident₁ p

/-! ## Runs -/

/-- A report that was sent, and the data set that was configured then. -/
structure SentReport where
  message : ReportMessage
  dataSet : Str

/-- The link and the reports that are on their way to it. -/
structure FlightState (σ W : Type) where
  link : LinkState σ W
  inFlight : List SentReport

/-- The server sends a report, some report arrives, or another data set is chosen. -/
inductive FlightEvent where
  | emit (message : ReportMessage)
  | deliver (i : ℕ)
  | setDatSet (dataSet : Str)

/-- Reports may arrive in any order, and not at all. -/
def flightStep (svc : IedService W) (con : ConnId) (rcbNode : Path) (datSetOf : W → Str)
    (st : FlightState σ W) : FlightEvent → Except Fault (FlightState σ W)
  | .emit message => .ok { st with inFlight := st.inFlight ++ [⟨message, datSetOf st.link.world⟩] }
  | .deliver i =>
    match st.inFlight[i]? with
    | none => .ok st
    | some sent => do
      return { link := ← handleReport st.link con sent.message, inFlight := st.inFlight.eraseIdx i }
  | .setDatSet dataSet => do
    let s ← setDatSetAction svc st.link (rcbNode ++ [keyOf .datSet, "set".toList])
      (datSetParams dataSet)
    return { st with link := s }

/-- A report is sent for the RptID of the RCB, with the inclusion bits of its data set. While
reports are on their way, the data set of the server does not change; and the local copy has
the data set of the server after each change, because the write was accepted or had reached
the server, or the RCB was read back. -/
def Orderly (svc : IedService W) (con : ConnId) (ref rptId : Str) (datSetOf : W → Str)
    (members : Str → List MemberRef) (st : FlightState σ W) : FlightEvent → Prop
  | .emit message =>
    message.rptId = rptId ∧ message.Proper (members (datSetOf st.link.world)).length
  | .deliver _ => True
  | .setDatSet dataSet =>
    let written := writeDatSet svc st.link.world con ref dataSet
    (st.inFlight ≠ [] → datSetOf written.2 = datSetOf st.link.world) ∧
      (written.1 = false → (svc.readRCB written.2 con ref).1.isSome ∨ datSetOf written.2 = dataSet)

/-- The RCB has a handler, the local copy names the data set of the server, and every report
on its way was sent for it. -/
structure FlightInv (m : ServerModel) (srv : Str) (q : Path) (ref : Str) (b : Bool) (rptId : Str)
    (con : ConnId)
    (datSetOf : W → Str) (members : Str → List MemberRef) (st : FlightState σ W) : Prop where
  tree : FlightTree m srv q ref b members (datSetOf st.link.world) st.link.tree
  connection : st.link.getServerIedConnection (srv :: q) = .ok (some con)
  handler : ∃ report, handlerFor st.link con rptId = some report ∧
    report.callbackParameter.path = srv :: q ∧ report.Even
  inFlight : ∀ sent ∈ st.inFlight, sent.dataSet = datSetOf st.link.world ∧
    sent.message.rptId = rptId ∧ sent.message.Proper (members sent.dataSet).length

variable {rptId : Str} {st st' : FlightState σ W}

theorem merge_even {report report' : ClientReport} {message : ReportMessage} (heven : report.Even)
    (h : report.merge message = .ok report') : report'.Even := by
  obtain ⟨st, hst, h⟩ := bind_eq_ok.1 h
  cases h
  have hbits := mergeReport_bits hst
  intro values hvalues
  cases hvalues
  show st.reasons.length = st.values.length
  rw [hbits.values_length, hbits.reasons_length]
  unfold ClientReport.kept
  cases hold : report.dataSetValues with
  | none => simp
  | some values => exact heven values hold

/-- A report that is handled was merged, and the callback was called with the handler. -/
theorem handleReport_merged {message : ReportMessage} {report : ClientReport}
    (hreport : handlerFor s con message.rptId = some report)
    (h : handleReport s con message = .ok s') :
    ∃ (report' : ClientReport) (reports : List ClientReport), report.merge message = .ok report' ∧
      report'.callbackParameter = report.callbackParameter ∧ report'.matchId = report.matchId ∧
      reports.find? (fun r => r.matchId = message.rptId) = some report' ∧
      (∃ c, (Keyed.find Prod.fst con s.connections).map Prod.snd = some c) ∧
      reportCallbackFunction (s.modifyConnection con fun c => { c with enabledReports := reports })
        report' = .ok s' := by
  obtain ⟨c, hc, hfind⟩ := deliveredReport_handler hreport
  rw [handleReport, hc] at h
  dsimp only at h
  cases hmerge : report.merge message with
  | error e =>
    rw [dispatchReport_error hfind hmerge] at h
    cases h
  | ok report' =>
    obtain ⟨hparam, hid⟩ : report'.callbackParameter = report.callbackParameter ∧
        report'.matchId = report.matchId := by
      obtain ⟨st, -, hmerge⟩ := bind_eq_ok.1 hmerge
      cases hmerge
      exact ⟨rfl, rfl⟩
    obtain ⟨reports, hdispatch, hfind'⟩ := dispatchReport_ok hfind hmerge hid
    rw [hdispatch, ok_bind] at h
    exact ⟨report', reports, rfl, hparam, hid, hfind', ⟨c, hc⟩, h⟩

/-- The callback goes through the members of the data set of the local copy, or leaves the
tree. -/
theorem reportCallbackFunction_members {report : ClientReport}
    (h : reportCallbackFunction s report = .ok s')
    (hpath : report.callbackParameter.path = srv :: q)
    (htree : FlightTree m srv q ref b members d s.tree) :
    ∃ t', s' = { s with tree := t' } ∧
      (t' = s.tree ∨ publishMembers (srv :: q) report s.tree ((members d).map MemberRef.text) =
        .ok t') := by
  obtain ⟨rcb, hrcb, hd⟩ := htree.configured.block
  have href : rcb.getDataSetReference = some d := by
    rw [getDataSetReference, hd]
    rfl
  unfold reportCallbackFunction at h
  dsimp only at h
  rw [hpath] at h
  by_cases hvalid : s.Valid report.callbackParameter
  swap
  · rw [if_pos hvalid] at h
    cases h
  rw [if_neg (not_not.2 hvalid)] at h
  obtain ⟨iedConn, -, h⟩ := bind_eq_ok.1 h
  rw [hrcb, ok_bind, href] at h
  obtain ⟨dataSetNode, hnode, h⟩ := bind_eq_ok.1 h
  obtain ⟨link, -, h⟩ := bind_eq_ok.1 h
  cases dataSetNode with
  | none =>
    cases iedConn <;> cases h <;> exact ⟨s.tree, rfl, .inl rfl⟩
  | some dataSetNode =>
    cases iedConn with
    | none =>
      cases h
      exact ⟨s.tree, rfl, .inl rfl⟩
    | some iedConn =>
      cases link with
      | false =>
        cases h
        exact ⟨s.tree, rfl, .inl rfl⟩
      | true =>
        dsimp only at h
        rw [htree.configured.dataSets d dataSetNode hnode, ok_bind] at h
        obtain ⟨t', hpublish, h⟩ := bind_eq_ok.1 h
        cases h
        exact ⟨t', rfl, .inr hpublish⟩

theorem FlightTree.publishMembers (hsrv : hasInit srvKeyInit srv = true)
    (h : FlightTree m srv q ref b members d t)
    {rcbNode : Path} {report : ClientReport} {refs : List Str}
    (hrun : publishMembers rcbNode report t refs = .ok t') :
    FlightTree m srv q ref b members d t' ∧ ∀ p, ident t' p = ident t p := by
  refine foldlM_invariant
    (I := fun t' => FlightTree m srv q ref b members d t' ∧ ∀ p, ident t' p = ident t p) ?_ hrun
    ⟨h, fun _ => rfl⟩
  rintro e - t₁ t₂ ⟨htree, hident⟩ hstep
  rcases publishMember_sets hstep with rfl | ⟨daNode, v, -, rfl⟩
  · exact ⟨htree, hident⟩
  · refine ⟨htree.setValue hsrv v fun heq => ?_, fun p => (ident_modify ..).trans (hident p)⟩
    have hlast := congrArg List.getLast? heq
    rw [List.getLast?_concat, List.getLast?_concat] at hlast
    cases hlast

/-- A report that is handled leaves the tree as it must be and the connection, and the handler
stays installed for the RCB. -/
theorem handleReport_flight (hsrv : hasInit srvKeyInit srv = true)
    (h : FlightTree m srv q ref b members d s.tree)
    {message : ReportMessage} {report : ClientReport}
    (hreport : handlerFor s con message.rptId = some report)
    (hpath : report.callbackParameter.path = srv :: q) (hs' : handleReport s con message = .ok s') :
    FlightTree m srv q ref b members d s'.tree ∧
      s'.getServerIedConnection (srv :: q) = s.getServerIedConnection (srv :: q) ∧
      s'.world = s.world ∧
      ∃ report', handlerFor s' con message.rptId = some report' ∧
        report'.callbackParameter.path = srv :: q ∧ (report.Even → report'.Even) := by
  obtain ⟨report', reports, hmerge, hparam, hid, hfind, ⟨c, hc⟩, hcallback⟩ :=
    handleReport_merged hreport hs'
  obtain ⟨t', rfl, ht'⟩ := reportCallbackFunction_members hcallback (by rw [hparam, hpath]) h
  have htree : FlightTree m srv q ref b members d t' ∧ ∀ p, ident t' p = ident s.tree p := by
    rcases ht' with rfl | hpublish
    · exact ⟨h, fun _ => rfl⟩
    · exact h.publishMembers hsrv hpublish
  refine ⟨htree.1, ?_, rfl, report', ?_, by rw [hparam, hpath],
    fun heven => merge_even heven hmerge⟩
  · let handled := { s.modifyConnection con fun c => { c with enabledReports := reports } with
      tree := t' }
    have hmap : handled.serverMap = s.serverMap := rfl
    exact getServerIedConnection_congr hmap htree.2 _
  · rw [← hfind]
    exact handlerFor_modifyConnection hc

/-- Every orderly event keeps the invariant. -/
theorem FlightInv.step (hsrv : hasInit srvKeyInit srv = true)
    (hserves : ServesDatSet svc con ref b datSetOf)
    (h : FlightInv m srv q ref b rptId con datSetOf members st) {e : FlightEvent}
    (horderly : Orderly svc con ref rptId datSetOf members st e)
    (hrun : flightStep svc con (srv :: q) datSetOf st e = .ok st') :
    FlightInv m srv q ref b rptId con datSetOf members st' := by
  cases e with
  | emit message =>
    cases hrun
    refine ⟨h.tree, h.connection, h.handler, fun sent hsent => ?_⟩
    rcases List.mem_append.1 hsent with hsent | hsent
    · exact h.inFlight sent hsent
    · rw [List.mem_singleton.1 hsent]
      exact ⟨rfl, horderly⟩
  | deliver i =>
    unfold flightStep at hrun
    dsimp only at hrun
    cases hsent : st.inFlight[i]? with
    | none =>
      rw [hsent] at hrun
      cases hrun
      exact h
    | some sent =>
      rw [hsent] at hrun
      obtain ⟨s', hs', hrun⟩ := bind_eq_ok.1 hrun
      cases hrun
      obtain ⟨-, hid, -⟩ := h.inFlight sent (List.mem_of_getElem? hsent)
      obtain ⟨report, hreport, hpath, heven⟩ := h.handler
      rw [← hid] at hreport
      obtain ⟨htree, hcon, hworld, report', hreport', hpath', heven'⟩ :=
        handleReport_flight hsrv h.tree hreport hpath hs'
      refine ⟨?_, hcon.trans h.connection, ⟨report', hid ▸ hreport', hpath', heven' heven⟩, ?_⟩
      · rw [hworld]
        exact htree
      · intro sent' hsent'
        rw [hworld]
        exact h.inFlight sent' (List.mem_of_mem_eraseIdx hsent')
  | setDatSet dataSet =>
    obtain ⟨s', hs', hrun⟩ := bind_eq_ok.1 hrun
    cases hrun
    obtain ⟨htree, hworld, hconns, hmap, hident⟩ :=
      setDatSetAction_flight hsrv hserves h.tree h.connection hs'
    have hagree : copiedDatSet svc st.link.world con ref datSetOf dataSet = datSetOf s'.world := by
      rw [hworld, copiedDatSet]
      split_ifs with haccepted hread
      · exact (hserves.accepted st.link.world dataSet haccepted).symm
      · rfl
      · rcases horderly.2 (by simpa using haccepted) with hsome | hreached
        · exact absurd hsome hread
        · exact hreached.symm
    rw [hagree] at htree
    refine ⟨htree, (getServerIedConnection_congr hmap hident _).trans h.connection, ?_,
      fun sent hsent => ?_⟩
    · obtain ⟨report, hreport, hrest⟩ := h.handler
      refine ⟨report, ?_, hrest⟩
      rw [← hreport, handlerFor, handlerFor, hconns]
    · obtain ⟨hset, hrest⟩ := h.inFlight sent hsent
      refine ⟨?_, hrest⟩
      show sent.dataSet = datSetOf s'.world
      rw [hset, hworld, horderly.1 (List.ne_nil_of_mem hsent)]

end DslinkIec61850
