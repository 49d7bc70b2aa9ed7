import DslinkIec61850.Report.Contents

/-!
# After a `set` action

The seven `set` actions of an RCB (report_handler.c:247–489) differ in the
attribute only. The outcome of the two service calls decides what is left in the
local copy and at the node of the attribute.

* `setNodeRCBValues_ok`, `setNodeRCBValues_segmentation`: showing a block.
* `setAction_agrees_iff`: when the attribute agrees with the server.
-/

namespace DslinkIec61850

open DSLink LinkState Run ClientReportControlBlock

variable {σ W : Type} [DSLink σ]

/-! ## The actions -/

/-- The action of an attribute. -/
def setAction : RcbElement → IedService W → LinkState σ W → Path → Json →
    Except Fault (LinkState σ W)
  | .rptId => setRptIdAction
  | .rptEna => setRptEnaAction
  | .datSet => setDatSetAction
  | .optFlds => setOptFldsAction
  | .bufTm => setBufTmAction
  | .trgOps => setTrgOpsAction
  | .intgPd => setIntgPdAction

/-- The key of the node of an attribute. -/
def keyOf : RcbElement → Str
  | .rptId => "rptid".toList
  | .rptEna => "rptena".toList
  | .datSet => "rcbdatset".toList
  | .optFlds => "rcboptflds".toList
  | .bufTm => "rcbbuftm".toList
  | .trgOps => "rcbtrgops".toList
  | .intgPd => "rcbintgpd".toList

/-- The options with the names of their parameters. -/
def optFldsParams : List (String × ℕ) :=
  [("SEQ_NUM", 0), ("TIME_STAMP", 1), ("REASON_FOR_INCLUSION", 2), ("ENTRY_ID", 6), ("DATA_SET", 3),
    ("BUFFER_OVERFLOW", 5), ("CONF_REV", 7), ("DATA_REFERENCE", 4)]

/-- The trigger options with the names of their parameters. -/
def trgOpsParams : List (String × ℕ) :=
  [("QUALITY_CHANGED", 1), ("INTEGRITY", 3), ("GI", 4), ("DATA_UPDATE", 2), ("DATA_CHANGED", 0)]

/-- What the parameters set an attribute to. -/
def paramOf (params : Json) : RcbElement → RcbContent
  | .rptId => .text (Json.stringValue (valueMember params))
  | .rptEna => .flag (Json.booleanValue (valueMember params))
  | .datSet => .text (Json.stringValue (valueMember params))
  | .optFlds => .optFlds (flagsOf params optFldsParams)
  | .bufTm => .number (uint32Value params)
  | .trgOps => .trgOps (flagsOf params trgOpsParams)
  | .intgPd => .number (uint32Value params)

/-- The parameters have the types that the action declares. -/
def WellTyped (params : Json) : RcbElement → Prop
  | .rptId => Json.HasType .string (valueMember params)
  | .rptEna => Json.HasType .bool (valueMember params)
  | .datSet => Json.HasType .string (valueMember params)
  | .optFlds => ∀ f ∈ optFldsParams, Json.HasType .bool (params.objectGet f.1.toList)
  | .bufTm => Json.HasType .number (valueMember params)
  | .trgOps => ∀ f ∈ trgOpsParams, Json.HasType .bool (params.objectGet f.1.toList)
  | .intgPd => Json.HasType .number (valueMember params)

/-- All actions take the same course. -/
theorem setAction_eq (svc : IedService W) (s : LinkState σ W) (node : Path) (params : Json)
    (e : RcbElement) :
    setAction e svc s node params =
      setRcbElement svc s node e (·.setContent e (paramOf params e)) (keyOf e)
        (paramOf params e).json := by
  cases e <;> rfl

theorem flagsOf_lt {params : Json} {flags : List (String × ℕ)} {n : ℕ} (h : ∀ f ∈ flags, f.2 < n) :
    flagsOf params flags < 2 ^ n := by
  suffices H : ∀ acc, acc < 2 ^ n → flags.foldl (fun acc f =>
      if Json.booleanValue (params.objectGet f.1.toList) then acc ||| 2 ^ f.2 else acc) acc <
        2 ^ n from
    H 0 (by positivity)
  induction flags with
  | nil => exact fun acc hacc => hacc
  | cons f flags ih =>
    intro acc hacc
    rw [List.foldl_cons]
    apply ih fun g hg => h g (List.mem_cons_of_mem _ hg)
    split_ifs
    · exact Nat.or_lt_two_pow hacc (Nat.pow_lt_pow_right (by norm_num) (h f List.mem_cons_self))
    · exact hacc

theorem hasType_string {v : Option Json} (h : Json.HasType .string v) :
    ∃ s, Json.stringValue v = some s := by
  match v, h with
  | some (.string s), _ => exact ⟨s, rfl⟩

/-- Well-typed parameters are admitted. -/
theorem paramOf_admits {params : Json} {e : RcbElement} (h : WellTyped params e) :
    Admits e (paramOf params e) := by
  cases e with
  | rptId =>
    obtain ⟨s, hs⟩ := hasType_string h
    rw [paramOf, hs]
    trivial
  | rptEna => trivial
  | datSet =>
    obtain ⟨s, hs⟩ := hasType_string h
    rw [paramOf, hs]
    trivial
  | optFlds => exact flagsOf_lt (n := 8) (by decide)
  | bufTm =>
    show uint32Value params < 2 ^ 32
    unfold uint32Value
    omega
  | trgOps => exact flagsOf_lt (n := 5) (by decide)
  | intgPd =>
    show uint32Value params < 2 ^ 32
    unfold uint32Value
    omega

/-! ## Values of several children -/

/-- `dslink_node_set_value` for a list of children. -/
def setValues (t : σ) (node : Path) (l : List (Str × Option Json)) : σ :=
  l.foldl (fun t kv => setValue t (node ++ [kv.1]) kv.2) t

theorem lookup_setValues_of_ne {t : σ} {node q : Path} {l : List (Str × Option Json)}
    (h : ∀ kv ∈ l, q ≠ node ++ [kv.1]) : lookup (setValues t node l) q = lookup t q := by
  induction l generalizing t with
  | nil => rfl
  | cons kv l ih =>
    have hne := h kv List.mem_cons_self
    have hrest := ih (t := setValue t (node ++ [kv.1]) kv.2) fun kv' hkv' =>
      h kv' (List.mem_cons_of_mem _ hkv')
    rw [lookup_setValue, if_neg hne] at hrest
    exact hrest

/-- Each child shows the value that it is given. -/
theorem valueOf_setValues {t : σ} {node : Path} {l : List (Str × Option Json)}
    (hnodup : (l.map Prod.fst).Nodup) {k : Str} {v : Json} (hmem : (k, some v) ∈ l)
    (hlive : Live t (node ++ [k])) : valueOf (setValues t node l) (node ++ [k]) = some v := by
  induction l generalizing t with
  | nil => cases hmem
  | cons kv l ih =>
    rw [List.map_cons, List.nodup_cons] at hnodup
    rcases List.mem_cons.1 hmem with rfl | hmem
    · have hsame : lookup (setValues (setValue t (node ++ [k]) (some v)) node l) (node ++ [k]) =
          lookup (setValue t (node ++ [k]) (some v)) (node ++ [k]) := by
        apply lookup_setValues_of_ne
        intro kv' hkv' heq
        apply hnodup.1
        have hk : k = kv'.1 := by simpa using heq
        exact List.mem_map.2 ⟨kv', hkv', hk.symm⟩
      show (lookup (setValues (setValue t (node ++ [k]) (some v)) node l) (node ++ [k])).map _ = _
      obtain ⟨n, hn⟩ := Option.isSome_iff_exists.1 hlive
      rw [hsame, lookup_setValue, if_pos rfl, hn]
      rfl
    · exact ih hnodup.2 hmem ((live_setValue _).2 hlive)

/-! ## Showing a block -/

/-- The keys of the children that show the attributes. -/
def rcbKeys : List Str :=
  ["rptid".toList, "rptena".toList, "rcbdatset".toList, "rcbconfrev".toList, "rcbbuftm".toList,
    "rcbintgpd".toList, "rcboptflds".toList, "rcbtrgops".toList]

/-- What they show. -/
def rcbValues (rcb : ClientReportControlBlock) (optFlds trgOps : Str) : List (Str × Option Json) :=
  [("rptid".toList, rcb.getRptId.map .string), ("rptena".toList, some (.boolean rcb.getRptEna)),
    ("rcbdatset".toList, rcb.getDataSetReference.map .string),
    ("rcbconfrev".toList, some (.integer rcb.getConfRev)),
    ("rcbbuftm".toList, some (.integer rcb.getBufTm)),
    ("rcbintgpd".toList, some (.integer rcb.getIntgPd)),
    ("rcboptflds".toList, some (.string optFlds)), ("rcbtrgops".toList, some (.string trgOps))]

theorem map_fst_rcbValues (rcb : ClientReportControlBlock) (optFlds trgOps : Str) :
    (rcbValues rcb optFlds trgOps).map Prod.fst = rcbKeys := rfl

/-- Each attribute is among them. -/
theorem mem_rcbValues {rcb : ClientReportControlBlock} {n : ℕ} {optFlds trgOps : Str}
    (hn : rcb.getOptFlds = .ok n) (hopt : getRCBOptFldsString n = .ok optFlds)
    (htrg : getRCBTrgOpsString rcb.getTrgOps = .ok trgOps) {e : RcbElement}
    {c : RcbContent} {v : Json} (hc : rcb.contentOf e = .ok c) (hjson : c.json = .ok (some v)) :
    (keyOf e, some v) ∈ rcbValues rcb optFlds trgOps := by
  suffices h : ∀ o, c.json = .ok o → (keyOf e, o) ∈ rcbValues rcb optFlds trgOps from h _ hjson
  intro o ho
  cases e with
  | rptId =>
    cases hc
    cases ho
    exact List.mem_of_getElem? (i := 0) rfl
  | rptEna =>
    cases hc
    cases ho
    exact List.mem_of_getElem? (i := 1) rfl
  | datSet =>
    cases hc
    cases ho
    exact List.mem_of_getElem? (i := 2) rfl
  | optFlds =>
    rw [contentOf, hn] at hc
    cases hc
    rw [RcbContent.json, hopt] at ho
    cases ho
    exact List.mem_of_getElem? (i := 6) rfl
  | bufTm =>
    cases hc
    cases ho
    exact List.mem_of_getElem? (i := 4) rfl
  | trgOps =>
    cases hc
    rw [RcbContent.json, htrg] at ho
    cases ho
    exact List.mem_of_getElem? (i := 7) rfl
  | intgPd =>
    cases hc
    cases ho
    exact List.mem_of_getElem? (i := 5) rfl

/-- The children that the actions refer to are there. -/
def HasRcbChildren (t : σ) (rcbNode : Path) : Prop := ∀ k ∈ rcbKeys, Live t (rcbNode ++ [k])

instance (t : σ) (rcbNode : Path) : Decidable (HasRcbChildren t rcbNode) :=
  inferInstanceAs (Decidable (∀ k ∈ rcbKeys, Live t (rcbNode ++ [k])))

theorem HasRcbChildren.modify {t : σ} {rcbNode p : Path} {f : DSNode → DSNode}
    (h : HasRcbChildren t rcbNode) : HasRcbChildren (DSLink.modify t p f) rcbNode :=
  fun k hk => (live_modify f).2 (h k hk)

theorem HasRcbChildren.setValue {t : σ} {rcbNode p : Path} {v : Option Json}
    (h : HasRcbChildren t rcbNode) : HasRcbChildren (DSLink.setValue t p v) rcbNode := h.modify

theorem setValueAt_eq {t : σ} {rcbNode : Path} (h : HasRcbChildren t rcbNode) {k : Str}
    (hk : k ∈ rcbKeys) (v : Option Json) :
    setValueAt t rcbNode k v = .ok (setValue t (rcbNode ++ [k]) v) := by
  have hname : ∀ k ∈ rcbKeys, k ≠ [] ∧ '/' ∉ k := by decide
  have hlive : (lookup t (rcbNode ++ [k])).isSome = true := h k hk
  rw [setValueAt, getPath_name t rcbNode k (hname k hk).1 (hname k hk).2, if_pos hlive]
  rfl

/-- All children are set. -/
theorem setNodeRCBValues_eq {t : σ} {rcbNode : Path} (h : HasRcbChildren t rcbNode)
    {rcb : ClientReportControlBlock} {n : ℕ} {optFlds trgOps : Str} (hn : rcb.getOptFlds = .ok n)
    (hopt : getRCBOptFldsString n = .ok optFlds)
    (htrg : getRCBTrgOpsString rcb.getTrgOps = .ok trgOps) :
    setNodeRCBValues t rcbNode rcb = .ok (setValues t rcbNode (rcbValues rcb optFlds trgOps)) := by
  unfold setNodeRCBValues
  rw [setValueAt_eq h (by decide), ok_bind, setValueAt_eq h.setValue (by decide), ok_bind,
    setValueAt_eq h.setValue.setValue (by decide), ok_bind,
    setValueAt_eq h.setValue.setValue.setValue (by decide), ok_bind,
    setValueAt_eq h.setValue.setValue.setValue.setValue (by decide), ok_bind,
    setValueAt_eq h.setValue.setValue.setValue.setValue.setValue (by decide), ok_bind, hn, ok_bind,
    hopt, ok_bind,
    setValueAt_eq h.setValue.setValue.setValue.setValue.setValue.setValue (by decide), ok_bind,
    htrg, ok_bind,
    setValueAt_eq h.setValue.setValue.setValue.setValue.setValue.setValue.setValue (by decide)]
  rfl

/-- The cached content of an attribute. -/
def cached (t : σ) (rcbNode : Path) (e : RcbElement) : Except Fault RcbContent := do
  (← rcbOf t rcbNode).contentOf e

/-- The value that the node of an attribute displays. -/
def displayed (t : σ) (rcbNode : Path) (e : RcbElement) : Option Json :=
  valueOf t (rcbNode ++ [keyOf e])

/-- A content is cached and displayed. -/
def Shows (t : σ) (rcbNode : Path) (e : RcbElement) (c : RcbContent) : Prop :=
  cached t rcbNode e = .ok c ∧ ∃ v, c.json = .ok (some v) ∧ displayed t rcbNode e = some v

theorem rcbOf_setRcb {t : σ} {rcbNode : Path} (h : Live t rcbNode)
    (rcb : ClientReportControlBlock) : rcbOf (setRcb t rcbNode rcb) rcbNode = .ok rcb := by
  obtain ⟨n, hn⟩ := Option.isSome_iff_exists.1 h
  rw [rcbOf, setRcb, lookup_modify, if_pos rfl, hn]
  rfl

theorem live_of_rcbOf {t : σ} {rcbNode : Path} {rcb : ClientReportControlBlock}
    (h : rcbOf t rcbNode = .ok rcb) : Live t rcbNode := by
  unfold rcbOf at h
  cases hl : lookup t rcbNode with
  | none =>
    rw [hl] at h
    cases h
  | some n => rw [Live, hl]; rfl

/-- The local copy is at the node itself, not at a child. -/
theorem rcbOf_setValues {t : σ} {rcbNode : Path} {l : List (Str × Option Json)} :
    rcbOf (setValues t rcbNode l) rcbNode = rcbOf t rcbNode := by
  rw [rcbOf, lookup_setValues_of_ne, rcbOf]
  intro kv _ heq
  have := congrArg List.length heq
  simp at this

/-- A standard block that is shown is cached and displayed. -/
theorem setNodeRCBValues_ok {t : σ} {rcbNode : Path} (hnode : Live t rcbNode)
    (hchildren : HasRcbChildren t rcbNode) {rcb : ClientReportControlBlock} (hstd : rcb.Standard)
    (hseg : ¬ rcb.SegmentationOnly) :
    ∃ t', setNodeRCBValues (setRcb t rcbNode rcb) rcbNode rcb = .ok t' ∧
      ∀ e c, rcb.contentOf e = .ok c → Shows t' rcbNode e c := by
  obtain ⟨n, hn, hopt⟩ := hstd.getOptFlds_ok
  have hne : n ≠ 2 ^ 8 := by
    rintro rfl
    exact hseg hopt
  obtain ⟨optFlds, hoptFlds⟩ := getRCBOptFldsString_ok hn hne
  obtain ⟨trgOps, htrgOps⟩ := getRCBTrgOpsString_ok hstd.getTrgOps_lt
  have hchildren' : HasRcbChildren (setRcb t rcbNode rcb) rcbNode := hchildren.modify
  refine ⟨_, setNodeRCBValues_eq hchildren' hopt hoptFlds htrgOps, ?_⟩
  intro e c hc
  obtain ⟨c', v, hc', hjson⟩ := hstd.content_json hseg e
  cases hc.symm.trans hc'
  constructor
  · rw [cached, rcbOf_setValues, rcbOf_setRcb hnode, ok_bind, hc]
  · refine ⟨v, hjson, valueOf_setValues (map_fst_rcbValues rcb optFlds trgOps ▸ by decide)
      (mem_rcbValues hopt hoptFlds htrgOps hc hjson) ?_⟩
    apply hchildren'
    cases e <;> decide

/-- A block whose only option has no name is never shown. -/
theorem setNodeRCBValues_segmentation {t t' : σ} {rcbNode : Path} {rcb : ClientReportControlBlock}
    (hseg : rcb.SegmentationOnly) : setNodeRCBValues t rcbNode rcb ≠ .ok t' := by
  intro h
  unfold setNodeRCBValues at h
  obtain ⟨_, -, h⟩ := bind_eq_ok.1 h
  obtain ⟨_, -, h⟩ := bind_eq_ok.1 h
  obtain ⟨_, -, h⟩ := bind_eq_ok.1 h
  obtain ⟨_, -, h⟩ := bind_eq_ok.1 h
  obtain ⟨_, -, h⟩ := bind_eq_ok.1 h
  obtain ⟨_, -, h⟩ := bind_eq_ok.1 h
  rw [show rcb.getOptFlds = _ from hseg, ok_bind] at h
  have hfault : getRCBOptFldsString (2 ^ 8) = .error .outOfBounds := by decide
  rw [hfault] at h
  cases h

/-! ## An action and its outcome -/

variable {svc : IedService W} {s : LinkState σ W} {rcbNode : Path} {con : ConnId} {ref : Str}
  {rcb : ClientReportControlBlock} {e : RcbElement} {params : Json}

/-- The action finds the RCB, and the server answers with values of the standard
types. -/
structure SetsRcb (svc : IedService W) (s : LinkState σ W) (rcbNode : Path) (e : RcbElement)
    (con : ConnId) (ref : Str) (rcb : ClientReportControlBlock) : Prop where
  connection : s.getServerIedConnection (rcbNode ++ [keyOf e, "set".toList]) = .ok (some con)
  reference : shownText s.tree rcbNode objRefNodeKey = .ok (some ref)
  block : rcbOf s.tree rcbNode = .ok rcb
  children : HasRcbChildren s.tree rcbNode
  standard : rcb.Standard
  nameable : ¬ rcb.SegmentationOnly
  kind : rcb.isBuffered = isBufferedRcb ref
  replies : ∀ w values, (svc.readRCB w con ref).1 = some values →
    ∃ fresh, (create ref).updateValues values = .ok fresh ∧ fresh.Standard

/-- What the two service calls lead to. -/
inductive Outcome where
  | accepted
  | readBack (fresh : ClientReportControlBlock)
  | lost

/-- The reply to the write, and the state of the world after it. -/
def writeReply (svc : IedService W) (s : LinkState σ W) (con : ConnId)
    (rcb : ClientReportControlBlock) (e : RcbElement) (params : Json) : Bool × W :=
  svc.writeRCB s.world con rcb.objectReference e ((rcb.setContent e (paramOf params e)).field e)

/-- The outcome of an action; what is read back is read into a new block. -/
def outcomeOf (svc : IedService W) (s : LinkState σ W) (con : ConnId) (ref : Str)
    (rcb : ClientReportControlBlock) (e : RcbElement) (params : Json) : Outcome :=
  if (writeReply svc s con rcb e params).1 then .accepted
  else match (svc.readRCB (writeReply svc s con rcb e params).2 con ref).1 with
    | none => .lost
    | some values =>
      match (create ref).updateValues values with
      | .ok fresh => .readBack fresh
      | .error _ => .lost

/-- The content that the server is known to hold. -/
def heldAfter (e : RcbElement) (c : RcbContent) : Outcome → Except Fault (Option RcbContent)
  | .accepted => .ok (some c)
  | .readBack fresh => (fresh.contentOf e).map some
  | .lost => .ok none

/-- After the action the attribute is cached and displayed as the server holds it,
or as before when the server could not be consulted. -/
def AgreesAfter (svc : IedService W) (s : LinkState σ W) (rcbNode : Path) (e : RcbElement)
    (params : Json) (outcome : Outcome) : Prop :=
  ∃ s', setAction e svc s (rcbNode ++ [keyOf e, "set".toList]) params = .ok s' ∧
    ∃ held, heldAfter e (paramOf params e) outcome = .ok held ∧
      match held with
      | some c => Shows s'.tree rcbNode e c
      | none => cached s'.tree rcbNode e = cached s.tree rcbNode e ∧
          displayed s'.tree rcbNode e = displayed s.tree rcbNode e

/-- The tree before the write is sent: cached and displayed as the parameter says. -/
def changedTree (t : σ) (rcbNode : Path) (rcb : ClientReportControlBlock) (e : RcbElement)
    (c : RcbContent) (v : Option Json) : σ :=
  setValue (setRcb t rcbNode (rcb.setContent e c)) (rcbNode ++ [keyOf e]) v

theorem keyOf_mem (e : RcbElement) : keyOf e ∈ rcbKeys := by cases e <;> decide

theorem changedTree_shows (hblock : rcbOf s.tree rcbNode = .ok rcb)
    (hchildren : HasRcbChildren s.tree rcbNode) (hstd : rcb.Standard) {c : RcbContent}
    (hadm : Admits e c) {v : Json} (hjson : c.json = .ok (some v)) :
    rcbOf (changedTree s.tree rcbNode rcb e c (some v)) rcbNode = .ok (rcb.setContent e c) ∧
      HasRcbChildren (changedTree s.tree rcbNode rcb e c (some v)) rcbNode ∧
      Shows (changedTree s.tree rcbNode rcb e c (some v)) rcbNode e c := by
  have hnode : Live s.tree rcbNode := live_of_rcbOf hblock
  have hrcb : rcbOf (changedTree s.tree rcbNode rcb e c (some v)) rcbNode =
      .ok (rcb.setContent e c) := by
    have h : rcbOf (setValues (setRcb s.tree rcbNode (rcb.setContent e c)) rcbNode
        [(keyOf e, some v)]) rcbNode = rcbOf (setRcb s.tree rcbNode (rcb.setContent e c)) rcbNode :=
      rcbOf_setValues
    exact h.trans (rcbOf_setRcb hnode _)
  refine ⟨hrcb, HasRcbChildren.setValue hchildren.modify, ?_, v, hjson, ?_⟩
  · rw [cached, hrcb, ok_bind]
    exact (setContent_content hstd hadm).1
  · have hlive : Live (setRcb s.tree rcbNode (rcb.setContent e c)) (rcbNode ++ [keyOf e]) :=
      (live_modify _).2 (hchildren _ (keyOf_mem e))
    exact valueOf_setValues (l := [(keyOf e, some v)]) (by simp) List.mem_cons_self hlive

/-- What an action does after the local change. -/
theorem setAction_run (h : SetsRcb svc s rcbNode e con ref rcb) {v : Option Json}
    (hjson : (paramOf params e).json = .ok v) :
    setAction e svc s (rcbNode ++ [keyOf e, "set".toList]) params =
      (let rcb' := rcb.setContent e (paramOf params e)
       let sent := { s with
         tree := changedTree s.tree rcbNode rcb e (paramOf params e) v }.setRCBValues svc con rcb' e
       if sent.1 then .ok sent.2
       else do
         let (read, s) ← sent.2.getRCBValues svc con ref (some rcb')
         let rcb' := read.getD rcb'
         return { s with
           tree := ← setNodeRCBValues (setRcb s.tree rcbNode rcb') rcbNode rcb' }) := by
  have hdrop : (rcbNode ++ [keyOf e, "set".toList]).dropLast.dropLast = rcbNode := by simp
  have hset : setValueAt (setRcb s.tree rcbNode (rcb.setContent e (paramOf params e))) rcbNode
      (keyOf e) v = .ok (changedTree s.tree rcbNode rcb e (paramOf params e) v) :=
    setValueAt_eq (HasRcbChildren.modify h.children) (keyOf_mem e) v
  rw [setAction_eq]
  unfold setRcbElement
  simp only [hdrop, h.connection, h.reference, h.block, ok_bind, hjson, hset]
  rfl

omit [DSLink σ] in
theorem setRCBValues_reply (svc : IedService W) (s : LinkState σ W) (con : ConnId)
    (rcb : ClientReportControlBlock) (e : RcbElement) (c : RcbContent) (t : σ) :
    ({ s with tree := t }.setRCBValues svc con (rcb.setContent e c) e).1 =
        (svc.writeRCB s.world con rcb.objectReference e ((rcb.setContent e c).field e)).1 ∧
      ({ s with tree := t }.setRCBValues svc con (rcb.setContent e c) e).2.world =
        (svc.writeRCB s.world con rcb.objectReference e ((rcb.setContent e c).field e)).2 ∧
      ({ s with tree := t }.setRCBValues svc con (rcb.setContent e c) e).2.tree = t := by
  rw [← objectReference_setContent rcb e c]
  cases e <;> exact ⟨rfl, rfl, rfl⟩

/-- Each outcome of an action. -/
theorem setAction_outcome (h : SetsRcb svc s rcbNode e con ref rcb) (hp : WellTyped params e) :
    match outcomeOf svc s con ref rcb e params with
    | .readBack fresh => fresh.Standard ∧
        (fresh.SegmentationOnly → ∀ s',
          setAction e svc s (rcbNode ++ [keyOf e, "set".toList]) params ≠ .ok s') ∧
        (¬ fresh.SegmentationOnly → ∃ s',
          setAction e svc s (rcbNode ++ [keyOf e, "set".toList]) params = .ok s' ∧
            ∀ c, fresh.contentOf e = .ok c → Shows s'.tree rcbNode e c)
    | _ => ∃ s', setAction e svc s (rcbNode ++ [keyOf e, "set".toList]) params = .ok s' ∧
        Shows s'.tree rcbNode e (paramOf params e) := by
  have hadm := paramOf_admits hp
  obtain ⟨v, hjson⟩ := hadm.json_ok
  obtain ⟨hrcb, hchildren, hshows⟩ := changedTree_shows h.block h.children h.standard hadm hjson
  obtain ⟨hreply, hworld, htree⟩ := setRCBValues_reply svc s con rcb e (paramOf params e)
    (changedTree s.tree rcbNode rcb e (paramOf params e) (some v))
  rw [setAction_run h hjson]
  dsimp only
  rw [hreply]
  unfold outcomeOf writeReply
  by_cases haccepted : (svc.writeRCB s.world con rcb.objectReference e
      ((rcb.setContent e (paramOf params e)).field e)).1 = true
  · rw [if_pos haccepted, if_pos haccepted]
    exact ⟨_, rfl, by rw [htree]; exact hshows⟩
  · rw [if_neg haccepted, if_neg haccepted]
    have hstd' := standard_setContent h.standard hadm
    have hseg' := not_segmentationOnly_setContent h.standard hadm h.nameable
    have hnode := live_of_rcbOf hrcb
    unfold LinkState.getRCBValues
    simp only [call, hworld]
    cases hread : (svc.readRCB (svc.writeRCB s.world con rcb.objectReference e
        ((rcb.setContent e (paramOf params e)).field e)).2 con ref).1 with
    | none =>
      -- the local copy is shown as it was changed
      obtain ⟨t', ht', hshow⟩ := setNodeRCBValues_ok hnode hchildren hstd' hseg'
      simp only [pure_bind, Option.getD_none, htree, ht', ok_bind]
      exact ⟨_, rfl, hshow e _ (setContent_content h.standard hadm).1⟩
    | some values =>
      obtain ⟨fresh, hfresh, hstd⟩ := h.replies _ _ hread
      obtain ⟨new, hnew, hnewStd, -, hcontent⟩ := updateValues_content hstd'
        ((isBuffered_setContent _ _ _).trans h.kind) hfresh hstd
      have hseg : new.SegmentationOnly ↔ fresh.SegmentationOnly := by
        rw [segmentationOnly_iff, segmentationOnly_iff, hcontent]
      simp only [Option.getD_some, hnew, ok_bind, pure_bind, hfresh, htree]
      refine ⟨hstd, ?_, ?_⟩
      · intro hall s' hrun
        obtain ⟨t', ht', -⟩ := bind_eq_ok.1 hrun
        exact setNodeRCBValues_segmentation (hseg.2 hall) ht'
      · intro hnot
        obtain ⟨t', ht', hshow⟩ := setNodeRCBValues_ok hnode hchildren hnewStd (mt hseg.1 hnot)
        refine ⟨_, bind_eq_ok.2 ⟨t', ht', rfl⟩, ?_⟩
        intro c hc
        exact hshow e c ((hcontent e).trans hc)

/-- **Agreement.** After an action the attribute agrees with the server exactly
when the write was accepted, or the RCB was read back with options that have a
text, or the attribute had said before what the parameter says. -/
theorem setAction_agrees_iff (h : SetsRcb svc s rcbNode e con ref rcb) (hp : WellTyped params e) :
    AgreesAfter svc s rcbNode e params (outcomeOf svc s con ref rcb e params) ↔
      match outcomeOf svc s con ref rcb e params with
      | .accepted => True
      | .readBack fresh => ¬ fresh.SegmentationOnly
      | .lost => Shows s.tree rcbNode e (paramOf params e) := by
  have hrun := setAction_outcome h hp
  cases houtcome : outcomeOf svc s con ref rcb e params with
  | accepted =>
    rw [houtcome] at hrun
    obtain ⟨s', hs', hshows⟩ := hrun
    exact iff_true_intro ⟨s', hs', _, rfl, hshows⟩
  | readBack fresh =>
    rw [houtcome] at hrun
    obtain ⟨hstd, hfault, hshown⟩ := hrun
    constructor
    · rintro ⟨s', hs', -⟩ hseg
      exact hfault hseg s' hs'
    · intro hseg
      obtain ⟨s', hs', hshows⟩ := hshown hseg
      obtain ⟨c, v, hc, -⟩ := hstd.content_json hseg e
      exact ⟨s', hs', some c, by rw [heldAfter, hc]; rfl, hshows c hc⟩
  | lost =>
    rw [houtcome] at hrun
    obtain ⟨s', hs', hcached, v, hjson, hdisplayed⟩ := hrun
    constructor
    · rintro ⟨s'', hs'', held, hheld, hsame⟩
      cases hs'.symm.trans hs''
      cases hheld
      exact ⟨hsame.1.symm.trans hcached, v, hjson, hsame.2.symm.trans hdisplayed⟩
    · rintro ⟨hbefore, v', hjson', hdisplayed'⟩
      cases hjson.symm.trans hjson'
      exact ⟨s', hs', none, rfl, hcached.trans hbefore.symm, hdisplayed.trans hdisplayed'.symm⟩

/-! ## A rejected write that is not read back -/

/-- A block as a server delivers it. -/
def idleRcb : ClientReportControlBlock :=
  { objectReference := "D/L.RP.r".toList, isBuffered := false,
    rptId := some (.visibleString (some "id".toList)), rptEna := some (.boolean false),
    datSet := some (.visibleString (some "D/L$ds".toList)),
    confRev := some (.unsigned { octets := [1], maxSize := 8 }),
    optFlds := some (.bitString (MmsValue.bitsOf 10 0)),
    bufTm := some (.unsigned { octets := [0], maxSize := 8 }),
    trgOps := some (.bitString (MmsValue.bitsOf 6 0)),
    intgPd := some (.unsigned { octets := [0], maxSize := 8 }) }

/-- Its node. -/
def idleRcbNode : Path := ["srv_a".toList, "urc_D$L.RP.r".toList]

/-- The server node with the RCB below it. -/
def idleTree : NodeStore :=
  let t := addChild NodeStore.empty [] "srv_a".toList .create
  let t := addChild t ["srv_a".toList] "urc_D$L.RP.r".toList
    { DSNode.create with data := .rcb idleRcb }
  match rcbChildren NodeStore "D/L.RP.r".toList false idleRcb with
  | .ok children => children.foldl (addRcbChild idleRcbNode) t
  | .error _ => t

/-- The server node. -/
def idleServer : NodePtr := { path := ["srv_a".toList], ident := 1 }

/-- The link with that server. -/
def idleState : LinkState NodeStore Unit :=
  { tree := idleTree,
    serverMap := [(idleServer, { hostname := "h".toList, tcpPort := 102, iedConn := 0 })],
    connections := [(0, { enabledReports := [], createdFor := idleServer, clientControls := [] })],
    nextConn := 1, world := (), requests := [] }

theorem standard_idleRcb : idleRcb.Standard := by
  intro e
  cases e with
  | bufTm => exact ⟨_, rfl, by norm_num, by norm_num⟩
  | intgPd => exact ⟨_, rfl, by norm_num, by norm_num⟩
  | _ => exact ⟨_, rfl, by trivial⟩

theorem idleState_setsRcb (e : RcbElement) :
    SetsRcb (IedService.silent Unit) idleState idleRcbNode e 0 "D/L.RP.r".toList idleRcb where
  connection := by cases e <;> rfl
  reference := rfl
  block := rfl
  children := by decide +kernel
  standard := standard_idleRcb
  nameable := by
    intro h
    have hopt : idleRcb.getOptFlds = .ok 0 := rfl
    cases hopt.symm.trans h
  kind := by decide
  replies := by
    intro w values h
    cases h

/-- The parameter of an action that enables the RCB. -/
def enableParams : Json := .object [("Value".toList, .boolean true)]

theorem setAction_agrees_iff_idle :
    AgreesAfter (IedService.silent Unit) idleState idleRcbNode .rptEna enableParams .lost ↔
      Shows idleState.tree idleRcbNode .rptEna (.flag true) :=
  setAction_agrees_iff (idleState_setsRcb .rptEna)
    (show WellTyped enableParams .rptEna from trivial)

/-- The RCB is shown and cached as enabled after the server refused to enable it. -/
theorem setAction_rejected :
    outcomeOf (IedService.silent Unit) idleState 0 "D/L.RP.r".toList idleRcb .rptEna enableParams =
      .lost ∧
      ¬ AgreesAfter (IedService.silent Unit) idleState idleRcbNode .rptEna enableParams .lost := by
  refine ⟨rfl, ?_⟩
  rintro ⟨s', hrun, held, hheld, hsame⟩
  have hp : WellTyped enableParams .rptEna := trivial
  obtain ⟨s'', hrun', hcached, -⟩ := setAction_outcome (idleState_setsRcb .rptEna) hp
  cases hrun.symm.trans hrun'
  cases hheld
  have hbefore : cached idleState.tree idleRcbNode .rptEna = .ok (.flag false) := rfl
  have := (hcached.symm.trans hsame.1).trans hbefore
  simp [paramOf, enableParams, valueMember, Json.objectGet, daValueRefNodeKey,
    Json.booleanValue] at this

end DslinkIec61850
