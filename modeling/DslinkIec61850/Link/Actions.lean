import DslinkIec61850.Action.Control
import DslinkIec61850.DataSet.Enumeration
import DslinkIec61850.Link.Requests
import DslinkIec61850.Report.Settings

/-!
# Everything that can happen to the link

A user adds a server, invokes the action of a node or opens a node; a report
arrives. `linkEvent` runs the function that is installed for it.

* `bufferLengths_iff`: along which runs the names of users and of data sets stay
  within the arrays they are copied to.
-/

namespace DslinkIec61850

open DSLink LinkState Run

variable {σ W : Type} [DSLink σ] {svc : IedService W} {s : LinkState σ W}

/-! ## Events -/

/-- What can happen to the link. -/
inductive LinkEvent where
  | addServer (params : Json)
  | invoke (node : Path) (params : Json)
  | listOpen (node : Path)
  | report (con : ConnId) (message : ReportMessage)

/-- The function that is run when a node is invoked. -/
def invokeAction (svc : IedService W) (s : LinkState σ W) (node : Path) (params : Json) :
    Callback → Except Fault (LinkState σ W)
  | .discoverAction => discoverAction svc s node
  | .editServerAction => editServerAction svc s node params
  | .clearServerAction => clearServerAction s node
  | .removeServerAction => removeServerAction s node
  | .prepareDatasetAction => do return { s with tree := ← prepareDatasetAction s.tree node params }
  | .addDAToDSAction => do return { s with tree := ← addDAToDSAction s.tree node params }
  | .removeDatasetAction => removeDatasetAction svc s node
  | .rmMemberPrepdsAction => .ok { s with tree := rmMemberPrepdsAction s.tree node }
  | .removePrepdsAction => .ok { s with tree := removePrepdsAction s.tree node }
  | .createDsOnserverAction => createDsOnserverAction svc s node
  | .daValueReadAction => nodeValueRead svc s node.dropLast
  | .daValueWriteAction => daValueWriteAction svc s node params
  | .controlAction => controlAction svc s node params
  | .setRptEnaAction => setRptEnaAction svc s node params
  | .setRptIdAction => setRptIdAction svc s node params
  | .setDatSetAction => setDatSetAction svc s node params
  | .setBufTmAction => setBufTmAction svc s node params
  | .setIntgPdAction => setIntgPdAction svc s node params
  | .setOptFldsAction => setOptFldsAction svc s node params
  | .setTrgOpsAction => setTrgOpsAction svc s node params
  | .readRCBAction => readRCBAction svc s node
  | .forceGIRCBAction => forceGIRCBAction svc s node
  -- these are never installed for an invocation
  | .serverSubbed | .daNodeListOpenedAction | .rcbDatSetNodeOpenAction => .ok s

/-- The function that is run when a node is opened. -/
def openNode (s : LinkState σ W) (node : Path) : Callback → Except Fault (LinkState σ W)
  | .daNodeListOpenedAction => do return { s with tree := ← daNodeListOpenedAction s.tree node }
  | .rcbDatSetNodeOpenAction => do return { s with tree := ← rcbDatSetNodeOpenAction s.tree node }
  | _ => .ok s

/-- The function that a node has installed. -/
def installed (t : σ) (node : Path) (field : DSNode → Option Callback) : Option Callback :=
  (lookup t node).bind field

/-- One event; one for a node without a function has no effect. -/
def linkEvent (svc : IedService W) (s : LinkState σ W) : LinkEvent → Except Fault (LinkState σ W)
  | .addServer params => invokeAddServer svc s params
  | .invoke node params =>
    match installed s.tree node DSNode.onInvocation with
    | none => .ok s
    | some f => invokeAction svc s node params f
  | .listOpen node =>
    match installed s.tree node DSNode.onListOpen with
    | none => .ok s
    | some f => openNode s node f
  | .report con message => handleReport s con message

/-! ## Lengths -/

/-- A server that is added has a name and a host that fit. -/
def AddFits (params : Json) : Prop :=
  ∀ name host, Json.stringValue (params.objectGet "Name".toList) = some name →
    Json.stringValue (params.objectGet "Host".toList) = some host →
    intValue (params.objectGet "Port".toList) ≠ 0 → name.length < 125 ∧ host.length < 100

/-- An edit that makes the server anew has a name and a host that fit. -/
def EditFits (s : LinkState σ W) (node : Path) (params : Json) : Prop :=
  ∀ server name host, s.mapGet (s.ptr node.dropLast) = some server → Live s.tree node.dropLast →
    Json.stringValue (params.objectGet "Name".toList) = some name → name ≠ [] →
    Json.stringValue (params.objectGet "Host".toList) = some host → host ≠ [] →
    intValue (params.objectGet "Port".toList) ≠ 0 →
    server.hostname ≠ host ∨ node.dropLast.getLastD [] ≠ name ∨
      server.tcpPort ≠ intValue (params.objectGet "Port".toList) →
    name.length < 125 ∧ host.length < 100

/-- The reference of the logical node, a dot, the name and `dts_` fit. -/
def PrepareFits (t : σ) (node : Path) (params : Json) : Prop :=
  ∀ name ref, Json.stringValue (params.objectGet "Name".toList) = some name →
    child t node.dropLast "Reference".toList = some ref →
    (printed (Json.stringValue (valueOf t ref))).length + name.length + 5 < 300

/-- The prepared data set and the attribute that an Add to dataset finds. -/
structure FindsMember (t : σ) (node : Path) (dsName : Str) (prepDatasetNode : Path)
    (ref fc : Str) : Prop where
  dataSet : (getMainPrepDatasetNode t node).bind
    (fun main => getPath t main (dtsKeyInit ++ dsName)) = some prepDatasetNode
  reference : (getPath t node.dropLast daObjectRefNodeKey).bind
    (fun n => Json.stringValue (valueOf t n)) = some ref
  constraint : (getPath t node.dropLast "FC".toList).bind
    (fun n => Json.stringValue (valueOf t n)) = some fc

/-- The key of the data set fits, and, when there is such a prepared data set, the
reference of the attribute with its constraint and `dse_`. -/
def AddToDatasetFits (t : σ) (node : Path) (params : Json) : Prop :=
  ∀ dsName, Json.stringValue (params.objectGet "Dataset".toList) = some dsName → dsName ≠ [] →
    dsName.length < 196 ∧ ∀ prepDatasetNode ref fc,
    FindsMember t node dsName prepDatasetNode ref fc →
      ref.length + fc.length + 6 < 400

/-- The lengths of what the event copies and of what the tree already holds. -/
def LengthsFit (s : LinkState σ W) : LinkEvent → Prop
  | .addServer params => AddFits params
  | .invoke node params =>
    (Invokes s.tree node .editServerAction → EditFits s node params) ∧
    (Invokes s.tree node .prepareDatasetAction → PrepareFits s.tree node params) ∧
    (Invokes s.tree node .addDAToDSAction → AddToDatasetFits s.tree node params)
  | .listOpen node =>
    (installed s.tree node DSNode.onListOpen = some .daNodeListOpenedAction →
      5 + lengthOf (prepDSNames s.tree node) < 1000) ∧
    (installed s.tree node DSNode.onListOpen = some .rcbDatSetNodeOpenAction →
      5 + lengthOf (dataSetRefs s.tree node) < 1000)
  | .report _ _ => True

/-- The events whose texts are copied without their lengths: a server is added or
edited, a data set is prepared or filled, or a node is opened. -/
def CopiesNames (t : σ) : LinkEvent → Prop
  | .addServer _ => True
  | .invoke node _ => Invokes t node .editServerAction ∨ Invokes t node .prepareDatasetAction ∨
      Invokes t node .addDAToDSAction
  | .listOpen _ => True
  | .report _ _ => False

/-- An event that copies names stays within the arrays. -/
def KeepsToBuffers (svc : IedService W) (s : LinkState σ W) (e : LinkEvent) : Prop :=
  CopiesNames s.tree e → InBounds (linkEvent svc s e)

/-! ## One event -/

theorem inBounds_responderInitClient (svc : IedService W) (s : LinkState σ W) (name host : Str)
    (port : ℤ) :
    InBounds (responderInitClient svc s name host port) ↔ name.length < 125 ∧
    host.length < 100 := by
  have hlength : (srvKey name).length = name.length + 4 := by
    rw [srvKey, List.length_append, Nat.add_comm]
    rfl
  unfold responderInitClient
  rw [inBounds_storeIn_bind_iff, fitsIn_some, hlength]
  apply and_congr
  · omega
  · dsimp only
    rw [inBounds_storeIn_bind_iff, fitsIn_some]
    exact and_iff_left (failsOnly_pure _)

theorem inBounds_invokeAddServer (svc : IedService W) (s : LinkState σ W) (params : Json) :
    InBounds (invokeAddServer svc s params) ↔ AddFits params := by
  unfold invokeAddServer AddFits
  split
  · rename_i name host hname hhost
    rw [hname, hhost]
    dsimp only
    split_ifs with hport
    · rw [inBounds_responderInitClient]
      constructor
      · rintro h _ _ ⟨⟩ ⟨⟩ _
        exact h
      · exact fun h => h name host rfl rfl hport
    · exact iff_of_true (failsOnly_ok _) fun _ _ _ _ h => absurd h hport
  · rename_i hnot
    exact iff_of_true (failsOnly_ok _) fun name host hname hhost =>
      (hnot name host hname hhost).elim

/-- A removed server was found in `serverMap`, so that the edit goes on. -/
theorem removeServerNode_found {node : Path} {server : Server61850} (hlive : Live s.tree node)
    (hserver : s.mapGet (s.ptr node) = some server) :
    ∃ s', removeServerNode s node = .ok (true, s') := by
  unfold removeServerNode
  rw [if_pos hlive]
  dsimp only
  rw [hserver]
  exact ⟨_, rfl⟩

theorem inBounds_editServerAction (svc : IedService W) (s : LinkState σ W) (node : Path)
    (params : Json) : InBounds (editServerAction svc s node params) ↔ EditFits s node params := by
  unfold editServerAction EditFits
  dsimp only
  cases hserver : s.mapGet (s.ptr node.dropLast) with
  | none => exact iff_of_true (failsOnly_error.2 (by decide)) fun _ _ _ h => by cases h
  | some server =>
    cases hname : Json.stringValue (params.objectGet "Name".toList) with
    | none => exact iff_of_true (failsOnly_error.2 (by decide)) fun _ _ _ _ _ h => by cases h
    | some name =>
      simp only [deref, ok_bind]
      by_cases hempty : name = []
      · rw [if_pos hempty]
        refine iff_of_true (failsOnly_pure _) ?_
        rintro _ _ _ _ _ ⟨⟩ hne
        exact absurd hempty hne
      · rw [if_neg hempty]
        cases hhost : Json.stringValue (params.objectGet "Host".toList) with
        | none =>
          exact iff_of_true (failsOnly_error.2 (by decide)) fun _ _ _ _ _ _ _ h => by cases h
        | some host =>
          rw [ok_bind]
          by_cases hrefused : host = [] ∨ intValue (params.objectGet "Port".toList) = 0
          · rw [if_pos hrefused]
            refine iff_of_true (failsOnly_pure _) ?_
            rintro _ _ _ _ _ _ _ ⟨⟩ hhost hport
            exact absurd hrefused (not_or.2 ⟨hhost, hport⟩)
          · rw [if_neg hrefused]
            obtain ⟨hhost, hport⟩ := not_or.1 hrefused
            by_cases hchanged : server.hostname ≠ host ∨ node.dropLast.getLastD [] ≠ name ∨
                server.tcpPort ≠ intValue (params.objectGet "Port".toList)
            · rw [if_pos hchanged]
              by_cases hlive : Live s.tree node.dropLast
              · obtain ⟨s₁, hremoved⟩ := removeServerNode_found hlive hserver
                rw [hremoved, ok_bind]
                dsimp only
                rw [if_pos rfl, inBounds_responderInitClient]
                constructor
                · rintro h _ _ _ ⟨⟩ _ ⟨⟩ _ ⟨⟩ _ _ _
                  exact h
                · exact fun h => h server name host rfl hlive rfl hempty rfl hhost hport hchanged
              · refine iff_of_true ?_ fun _ _ _ _ h => absurd h hlive
                unfold removeServerNode
                rw [if_neg hlive]
                exact failsOnly_pure _
            · rw [if_neg hchanged]
              refine iff_of_true (failsOnly_pure _) ?_
              rintro _ _ _ ⟨⟩ _ ⟨⟩ _ ⟨⟩ _ _ h
              exact absurd h hchanged

theorem length_dtsKeyInit : dtsKeyInit.length = 4 := rfl

theorem inBounds_createPrepDatasetNode (t : σ) (lnNode : Path) (dsRef : Str) :
    InBounds (createPrepDatasetNode t lnNode dsRef) ↔ dsRef.length < 296 := by
  unfold createPrepDatasetNode
  rw [inBounds_storeIn_bind_iff, fitsIn_some, List.length_append, length_dtsKeyInit]
  refine (and_iff_left ?_).trans (by omega)
  split
  · dsimp only
    split_ifs <;> exact failsOnly_pure _
  · exact failsOnly_pure _

theorem inBounds_prepareDatasetAction (t : σ) (node : Path) (params : Json) :
    InBounds (prepareDatasetAction t node params) ↔ PrepareFits t node params := by
  unfold prepareDatasetAction PrepareFits
  cases hname : Json.stringValue (params.objectGet "Name".toList) with
  | none => exact iff_of_true (failsOnly_ok _) fun _ _ h => by cases h
  | some name =>
    cases href : child t node.dropLast "Reference".toList with
    | none => exact iff_of_true (failsOnly_ok _) fun _ _ _ h => by cases h
    | some ref =>
      have hlength : (printed (Json.stringValue (valueOf t ref)) ++ '.' :: name).length =
          (printed (Json.stringValue (valueOf t ref))).length + name.length + 1 := by
        simp [Nat.add_assoc]
      have hcreate (k : Bool × σ → Except Fault σ) (hk : ∀ p, InBounds (k p)) :
          InBounds (createPrepDatasetNode t node.dropLast
            (printed (Json.stringValue (valueOf t ref)) ++ '.' :: name) >>= k) ↔
            (printed (Json.stringValue (valueOf t ref)) ++ '.' :: name).length < 296 := by
        rw [← inBounds_createPrepDatasetNode t node.dropLast]
        exact failsOnly_bind.trans (and_iff_left fun p _ => hk p)
      dsimp only
      rw [inBounds_storeIn_bind_iff, fitsIn_some, hcreate _ fun _ => failsOnly_pure _, hlength]
      constructor
      · rintro ⟨-, h⟩ _ _ ⟨⟩ ⟨⟩
        omega
      · intro h
        have := h name ref rfl rfl
        omega

theorem inBounds_addMemberToPrepDatasetNode (t : σ) (prepDSNode : Path) (memberName : Str) :
    InBounds (addMemberToPrepDatasetNode t prepDSNode memberName) ↔ memberName.length < 396 := by
  have hlength : (dseKeyInit ++ memberName).length = memberName.length + 4 := by
    rw [List.length_append, Nat.add_comm]
    rfl
  unfold addMemberToPrepDatasetNode
  rw [inBounds_storeIn_bind_iff, fitsIn_some, hlength]
  refine (and_iff_left (failsOnly_bind.2 ⟨?_, fun _ _ => failsOnly_pure _⟩)).trans (by omega)
  unfold replaceSlash
  split
  · exact failsOnly_error.2 (by decide)
  · exact failsOnly_ok _

/-- The member with its constraint. -/
theorem inBounds_daRefFull (t : σ) (prepDatasetNode : Path) (ref fc : Str) :
    InBounds (storeIn (some 400) (ref ++ '[' :: (fc ++ [']'])) >>= fun _ =>
      addMemberToPrepDatasetNode t prepDatasetNode (ref ++ '[' :: (fc ++ [']']))) ↔
      ref.length + fc.length + 6 < 400 := by
  have hlength : (ref ++ '[' :: (fc ++ [']'])).length = ref.length + fc.length + 2 := by
    simp only [List.length_append, List.length_cons, List.length_nil]
    omega
  rw [inBounds_storeIn_bind_iff, fitsIn_some, inBounds_addMemberToPrepDatasetNode, hlength]
  omega

/-- The member is put together from the texts of two nodes. -/
theorem inBounds_derefMember (t : σ) (prepDatasetNode : Path) (ref fc : Option Str) :
    InBounds (do
      let ref ← deref ref
      let fc ← deref fc
      let daRefFull := ref ++ '[' :: (fc ++ [']'])
      storeIn (some 400) daRefFull
      addMemberToPrepDatasetNode t prepDatasetNode daRefFull) ↔
      ∀ ref' fc', ref = some ref' → fc = some fc' → ref'.length + fc'.length + 6 < 400 := by
  cases ref with
  | none => exact iff_of_true (failsOnly_error.2 (by decide)) fun _ _ h => by cases h
  | some ref =>
    cases fc with
    | none => exact iff_of_true (failsOnly_error.2 (by decide)) fun _ _ _ h => by cases h
    | some fc =>
      refine (inBounds_daRefFull t prepDatasetNode ref fc).trans ?_
      constructor
      · rintro hfits _ _ ⟨⟩ ⟨⟩
        exact hfits
      · exact fun h => h ref fc rfl rfl

/-- What comes after the key. -/
theorem inBounds_findMember (t : σ) (node : Path) (dsName : Str) :
    InBounds (match getPath t node.dropLast daObjectRefNodeKey,
      getPath t node.dropLast "FC".toList with
      | some daObjRefNode, some daFCNode =>
        match getMainPrepDatasetNode t node with
        | none => throw .uninitialised
        | some main =>
          match getPath t main (dtsKeyInit ++ dsName) with
          | none => return t
          | some prepDatasetNode => do
            let ref ← deref (Json.stringValue (valueOf t daObjRefNode))
            let fc ← deref (Json.stringValue (valueOf t daFCNode))
            let daRefFull := ref ++ '[' :: (fc ++ [']'])
            storeIn (some 400) daRefFull
            addMemberToPrepDatasetNode t prepDatasetNode daRefFull
      | _, _ => return t) ↔
    ∀ prepDatasetNode ref fc, FindsMember t node dsName prepDatasetNode ref fc →
      ref.length + fc.length + 6 < 400 := by
  split
  · rename_i daObjRefNode daFCNode hobj hfc
    split
    · rename_i hmain
      refine iff_of_true (failsOnly_error.2 (by decide)) ?_
      rintro _ _ _ ⟨h, -, -⟩
      rw [hmain] at h
      cases h
    · rename_i main hmain
      split
      · rename_i hprep
        refine iff_of_true (failsOnly_pure _) ?_
        rintro _ _ _ ⟨h, -, -⟩
        rw [hmain, Option.bind_some, hprep] at h
        cases h
      · rename_i prepDatasetNode hprep
        rw [inBounds_derefMember]
        constructor
        · rintro hfits _ ref fc ⟨-, href, hcode⟩
          rw [hobj, Option.bind_some] at href
          rw [hfc, Option.bind_some] at hcode
          exact hfits ref fc href hcode
        · intro hfits ref fc href hcode
          refine hfits prepDatasetNode ref fc ⟨?_, ?_, ?_⟩
          · rw [hmain, Option.bind_some, hprep]
          · rw [hobj, Option.bind_some, href]
          · rw [hfc, Option.bind_some, hcode]
  · rename_i hnot
    refine iff_of_true (failsOnly_pure _) ?_
    rintro _ _ _ ⟨-, href, hcode⟩
    obtain ⟨daObjRefNode, hobj, -⟩ := Option.bind_eq_some_iff.1 href
    obtain ⟨daFCNode, hfc, -⟩ := Option.bind_eq_some_iff.1 hcode
    exact (hnot daObjRefNode daFCNode hobj hfc).elim

theorem inBounds_addDAToDSAction (t : σ) (node : Path) (params : Json) :
    InBounds (addDAToDSAction t node params) ↔ AddToDatasetFits t node params := by
  unfold addDAToDSAction AddToDatasetFits
  cases Json.stringValue (params.objectGet "Dataset".toList) with
  | none => exact iff_of_true (failsOnly_ok _) fun _ h => by cases h
  | some dsName =>
    cases dsName with
    | nil =>
      refine iff_of_true (failsOnly_ok _) ?_
      rintro _ ⟨⟩ hne
      exact absurd rfl hne
    | cons c cs =>
      have hkey : FitsIn (some 200) (dtsKeyInit ++ c :: cs) ↔ (c :: cs).length < 196 := by
        rw [fitsIn_some, List.length_append, length_dtsKeyInit]
        omega
      dsimp only
      rw [inBounds_storeIn_bind_iff, hkey]
      simp only [Option.some.injEq, forall_eq', ne_eq, reduceCtorEq, not_false_eq_true,
        forall_const]
      apply and_congr_right
      intro _
      exact inBounds_findMember t node (c :: cs)

/-! ## Runs -/

omit [DSLink σ] in
/-- Changing only the tree cannot leave a buffer. -/
theorem inBounds_setTree {x : Except Fault σ} (s : LinkState σ W) :
    InBounds (do return { s with tree := ← x }) ↔ InBounds x :=
  failsOnly_bind.trans (and_iff_left fun _ _ => failsOnly_pure _)

/-- One event. -/
theorem keepsToBuffers_iff (svc : IedService W) (s : LinkState σ W) (e : LinkEvent) :
    KeepsToBuffers svc s e ↔ LengthsFit s e := by
  cases e with
  | addServer params =>
    show (True → _) ↔ _
    rw [true_imp_iff]
    exact inBounds_invokeAddServer svc s params
  | invoke node params =>
    have hrun {f : Callback} (hf : Invokes s.tree node f) :
        linkEvent svc s (.invoke node params) = invokeAction svc s node params f := by
      unfold linkEvent
      dsimp only
      rw [show installed s.tree node DSNode.onInvocation = some f from hf]
    have hedit (hf : Invokes s.tree node .editServerAction) :
        InBounds (linkEvent svc s (.invoke node params)) ↔ EditFits s node params := by
      rw [hrun hf]
      exact inBounds_editServerAction svc s node params
    have hprepare (hf : Invokes s.tree node .prepareDatasetAction) :
        InBounds (linkEvent svc s (.invoke node params)) ↔ PrepareFits s.tree node params := by
      rw [hrun hf, ← inBounds_prepareDatasetAction]
      exact inBounds_setTree s
    have hadd (hf : Invokes s.tree node .addDAToDSAction) :
        InBounds (linkEvent svc s (.invoke node params)) ↔ AddToDatasetFits s.tree node params := by
      rw [hrun hf, ← inBounds_addDAToDSAction]
      exact inBounds_setTree s
    constructor
    · intro h
      exact ⟨fun hf => (hedit hf).1 (h (.inl hf)), fun hf => (hprepare hf).1 (h (.inr (.inl hf))),
        fun hf => (hadd hf).1 (h (.inr (.inr hf)))⟩
    · rintro ⟨he, hp, ha⟩ (hf | hf | hf)
      · exact (hedit hf).2 (he hf)
      · exact (hprepare hf).2 (hp hf)
      · exact (hadd hf).2 (ha hf)
  | listOpen node =>
    show (True → InBounds _) ↔ _
    rw [true_imp_iff]
    unfold linkEvent LengthsFit
    dsimp only
    cases installed s.tree node DSNode.onListOpen with
    | none => exact iff_of_true (failsOnly_ok _) ⟨(fun h => by cases h), fun h => by cases h⟩
    | some f =>
      dsimp only
      by_cases hda : f = .daNodeListOpenedAction
      · rw [hda, ← inBounds_daNodeListOpenedAction]
        have := inBounds_setTree (x := daNodeListOpenedAction s.tree node) s
        simpa [openNode] using this
      · by_cases hrcb : f = .rcbDatSetNodeOpenAction
        · rw [hrcb, ← inBounds_rcbDatSetNodeOpenAction]
          have := inBounds_setTree (x := rcbDatSetNodeOpenAction s.tree node) s
          simpa [openNode] using this
        · refine iff_of_true ?_
            ⟨fun h => absurd (Option.some.inj h) hda, fun h => absurd (Option.some.inj h) hrcb⟩
          have hnone : openNode s node f = .ok s := by
            unfold openNode
            cases f <;> simp_all
          rw [hnone]
          exact failsOnly_ok _
  | report con message => exact iff_of_true (fun h => h.elim) trivial

/-- **Names.** Along a run every event that copies names stays within the arrays
exactly when the lengths fit in the state in which it happens. -/
theorem bufferLengths_iff (svc : IedService W) (s : LinkState σ W) (run : List LinkEvent) :
    Along (linkEvent svc) (KeepsToBuffers svc) s run ↔ Along (linkEvent svc) LengthsFit s run :=
  along_congr fun s e _ => keepsToBuffers_iff svc s e

/-! ## A name that is too long -/

/-- A server whose key has 129 characters. -/
def longServer : Json := serverParams (List.replicate 125 'a') "h".toList 102

/-- It does not fit into the array of the key. -/
theorem longServer_overflow :
    ¬ ∀ (run : List LinkEvent), Along (linkEvent (IedService.silent Unit))
      (KeepsToBuffers (IedService.silent Unit)) bareLink run := by
  intro h
  have hkeeps := (h [.addServer longServer]).1
  have hfits := (keepsToBuffers_iff _ _ _).1 hkeeps
    (List.replicate 125 'a') "h".toList rfl rfl (by decide)
  exact absurd hfits.1 (by simp)

end DslinkIec61850
