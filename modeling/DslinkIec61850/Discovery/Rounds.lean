import DslinkIec61850.Discovery.Frame

/-!
# The rounds of a discovery

A discovery creates the folders and goes through the lists of the server. What matters to
the report control blocks are the rounds for them: every other round leaves their folders
and the connections. The rounds for devices, nodes and data objects leave all folders.

* `discover61850Server_modelRounds`: what every round keeps holds after the discovery.
* `discover61850Server_rounds`: the same where the data sets do not matter.
-/

namespace DslinkIec61850

open DSLink LinkState Run

variable {σ W : Type} [DSLink σ] {svc : IedService W} {con : ConnId} {srv : Str}

/-- The class of the RCBs of a kind. -/
def rcbClass (isBuffered : Bool) : AcsiClass := if isBuffered then .brcb else .urcb

/-! ## What the server lists -/

/-- In a world with `Q` the server lists this device. -/
def ListsDevice (svc : IedService W) (con : ConnId) (Q : W → Prop) (ld : Str) : Prop :=
  ∃ w devices, Q w ∧ (svc.getLogicalDeviceList w con).1 = some devices ∧ ld ∈ devices

/-- In worlds with `Q` the server lists the device and the logical node of this reference. -/
def ListsNode (svc : IedService W) (con : ConnId) (Q : W → Prop) (lnRef : Str) : Prop :=
  ∃ ld, ListsDevice svc con Q ld ∧ ∃ w nodes ln, Q w ∧
    (svc.getLogicalDeviceDirectory w con ld).1 = some nodes ∧ ln ∈ nodes ∧ lnRef = ld ++ '/' :: ln

/-- In worlds with `Q` the server lists an RCB with this reference at one of its logical
nodes. -/
def ListsReport (svc : IedService W) (con : ConnId) (Q : W → Prop) (isBuffered : Bool)
    (ref : Str) : Prop :=
  ∃ lnRef, ListsNode svc con Q lnRef ∧ ∃ w names name, Q w ∧
    (svc.getLogicalNodeDirectory w con lnRef (rcbClass isBuffered)).1 = some names ∧
    name ∈ names ∧ ref = rcbRefOf isBuffered lnRef name

/-! ## The outside world -/

/-- The services that are called for the data model keep a property of the world. -/
structure ReadsKeep (svc : IedService W) (con : ConnId) (P : W → Prop) : Prop where
  deviceList : ∀ w, P w → P (svc.getLogicalDeviceList w con).2
  deviceDirectory : ∀ w ld, P w → P (svc.getLogicalDeviceDirectory w con ld).2
  nodeDirectory : ∀ w ref c, P w → P (svc.getLogicalNodeDirectory w con ref c).2
  directoryFC : ∀ w ref, P w → P (svc.getDataDirectoryFC w con ref).2
  directoryByFC : ∀ w ref fc, P w → P (svc.getDataDirectoryByFC w con ref fc).2
  specification : ∀ w ref fc, P w → P (svc.getVariableSpecification w con ref fc).2
  dataSetDirectory : ∀ w ref, P w → P (svc.getDataSetDirectory w con ref).2

/-- A call of a discovery. -/
inductive ReadCall (svc : IedService W) (con : ConnId) : W → W → Prop
  | deviceList (w : W) : ReadCall svc con w (svc.getLogicalDeviceList w con).2
  | deviceDirectory (w : W) (ld : Str) :
    ReadCall svc con w (svc.getLogicalDeviceDirectory w con ld).2
  | nodeDirectory (w : W) (ref : Str) (c : AcsiClass) :
    ReadCall svc con w (svc.getLogicalNodeDirectory w con ref c).2
  | directoryFC (w : W) (ref : Str) : ReadCall svc con w (svc.getDataDirectoryFC w con ref).2
  | directoryByFC (w : W) (ref : Str) (fc : FunctionalConstraint) :
    ReadCall svc con w (svc.getDataDirectoryByFC w con ref fc).2
  | specification (w : W) (ref : Str) (fc : FunctionalConstraint) :
    ReadCall svc con w (svc.getVariableSpecification w con ref fc).2
  | dataSetDirectory (w : W) (ref : Str) : ReadCall svc con w (svc.getDataSetDirectory w con ref).2
  | readRCB (w : W) (ref : Str) : ReadCall svc con w (svc.readRCB w con ref).2

/-- From `w` the calls of a discovery can lead to `w'`. -/
abbrev Reads (svc : IedService W) (con : ConnId) : W → W → Prop :=
  Relation.ReflTransGen (ReadCall svc con)

theorem readsKeep_reads (svc : IedService W) (con : ConnId) (w : W) :
    ReadsKeep svc con (Reads svc con w) where
  deviceList w' h := h.tail (.deviceList w')
  deviceDirectory w' ld h := h.tail (.deviceDirectory w' ld)
  nodeDirectory w' ref c h := h.tail (.nodeDirectory w' ref c)
  directoryFC w' ref h := h.tail (.directoryFC w' ref)
  directoryByFC w' ref fc h := h.tail (.directoryByFC w' ref fc)
  specification w' ref fc h := h.tail (.specification w' ref fc)
  dataSetDirectory w' ref h := h.tail (.dataSetDirectory w' ref)

/-- What every call keeps is kept. -/
theorem Reads.keep {P : W → Prop} (hP : ReadsKeep svc con P)
    (hrcb : ∀ w ref, P w → P (svc.readRCB w con ref).2)
    {w w' : W} (hreads : Reads svc con w w') (hw : P w) : P w' := by
  induction hreads with
  | refl => exact hw
  | tail _ hcall ih =>
    cases hcall with
    | deviceList => exact hP.deviceList _ ih
    | deviceDirectory ld => exact hP.deviceDirectory _ ld ih
    | nodeDirectory ref c => exact hP.nodeDirectory _ ref c ih
    | directoryFC ref => exact hP.directoryFC _ ref ih
    | directoryByFC ref fc => exact hP.directoryByFC _ ref fc ih
    | specification ref fc => exact hP.specification _ ref fc ih
    | dataSetDirectory ref => exact hP.dataSetDirectory _ ref ih
    | readRCB ref => exact hrcb _ ref ih

section World

variable {P : W → Prop} {refSize : Option ℕ} {s s' : LinkState σ W}

theorem handleControllableNode_world (hP : ReadsKeep svc con P) {node : Path} {doRef : Str}
    (h : handleControllableNode svc con refSize s node doRef = .ok s') (hw : P s.world) :
    P s'.world := by
  unfold handleControllableNode at h
  dsimp only at h
  have hread : P (s.call fun w => svc.getDataDirectoryFC w con doRef).2.world :=
    hP.directoryFC _ _ hw
  split at h
  · cases h
    exact hread
  · obtain ⟨_, -, h⟩ := bind_eq_ok.1 h
    split_ifs at h
    · cases h
      exact hread
    · obtain ⟨type, -, h⟩ := bind_eq_ok.1 h
      split_ifs at h
      · cases h
        exact hP.specification _ _ _ hread
      · cases h
        exact hP.specification _ _ _ hread

theorem discoverLeaf_world (hP : ReadsKeep svc con P) {node : Path}
    (h : discoverLeaf svc con s node = .ok s') (hw : P s.world) : P s'.world := by
  unfold discoverLeaf at h
  split at h
  · cases h
    exact hw
  · obtain ⟨code, -, h⟩ := bind_eq_ok.1 h
    dsimp only at h
    split_ifs at h
    · cases h
      exact hw
    · obtain ⟨ref, -, h⟩ := bind_eq_ok.1 h
      split at h
      · cases h
        exact hP.specification _ _ _ hw
      · cases h
        exact hP.specification _ _ _ hw

theorem discoverEntry_world (hP : ReadsKeep svc con P) {node : Path} {doRef entry : Str}
    (h : discoverEntry svc con refSize node doRef s entry = .ok s') (hw : P s.world) :
    P s'.world := by
  have hoper {s : LinkState σ W}
      (h : (if entryName entry =
        "Oper".toList then handleControllableNode svc con refSize s node doRef
        else pure s) = .ok s') (hw : P s.world) : P s'.world := by
    split_ifs at h
    · exact handleControllableNode_world hP h hw
    · cases h
      exact hw
  unfold discoverEntry at h
  obtain ⟨_, -, h⟩ := bind_eq_ok.1 h
  dsimp only at h
  by_cases hnone : entryFC entry = .NONE
  · rw [if_pos hnone, pure_bind] at h
    exact hoper h hw
  · rw [if_neg hnone] at h
    obtain ⟨type, -, h⟩ := bind_eq_ok.1 h
    exact hoper h (hP.specification _ _ _ hw)

theorem discoverDataDirectory_world (hP : ReadsKeep svc con P) (depth : ℕ) :
    ∀ (s s' : LinkState σ W) (node : Path) (doRef : Str) (inFC : FunctionalConstraint),
      discoverDataDirectory svc con refSize depth s node doRef inFC = .ok s' → P s.world →
      P s'.world := by
  induction depth with
  | zero =>
    intro s s' node doRef inFC h
    cases h
  | succ depth ih =>
    intro s s' node doRef inFC h hw
    unfold discoverDataDirectory at h
    dsimp only at h
    have hread : P (s.call (dataDirectory svc con doRef inFC)).2.world := by
      show P (dataDirectory svc con doRef inFC s.world).2
      unfold dataDirectory
      split_ifs
      · exact hP.directoryFC _ _ hw
      · exact hP.directoryByFC _ _ _ hw
    split at h
    · cases h
      exact hread
    · exact discoverLeaf_world hP h hread
    · refine foldlM_invariant (I := fun s => P s.world) ?_ h hread
      intro entry _ s₁ s₂ hw₁ hround
      obtain ⟨s₃, hentry, hnext⟩ := bind_eq_ok.1 hround
      exact ih _ _ _ _ _ hnext (discoverEntry_world hP hentry hw₁)

theorem discoverDataObject_world (hP : ReadsKeep svc con P) {node : Path} {lnRef name : Str}
    (h : discoverDataObject svc con node lnRef s name = .ok s') (hw : P s.world) : P s'.world := by
  unfold discoverDataObject at h
  dsimp only at h
  obtain ⟨_, -, h⟩ := bind_eq_ok.1 h
  exact discoverDataDirectory_world hP _ _ _ _ _ _ h hw

end World

/-! ## Rounds that leave folders -/

/-- A round that leaves the children of the server node with a key in `K`, with all their
nodes; what it does to the world is done by the services for the data model. -/
structure ModelRound (svc : IedService W) (con : ConnId) (srv : Str) (K : Str → Prop)
    (s s' : LinkState σ W) : Prop where
  step : TreeStep s s'
  world : ∀ P, ReadsKeep svc con P → P s.world → P s'.world
  below : ChangesOnlyBelow s.tree s'.tree [srv]
  kept : ∀ k, K k → ∀ r, lookup s'.tree (srv :: k :: r) = lookup s.tree (srv :: k :: r) ∧
    ident s'.tree (srv :: k :: r) = ident s.tree (srv :: k :: r)

/-- A round that leaves the folders of the RCBs. -/
abbrev QuietRound (svc : IedService W) (con : ConnId) (srv : Str) (s s' : LinkState σ W) : Prop :=
  ModelRound svc con srv (fun k => ∃ b, k = rcbFolderKey b) s s'

theorem QuietRound.rcbs {s s' : LinkState σ W} (h : QuietRound svc con srv s s') (b : Bool)
    (r : Path) :
    lookup s'.tree (srv :: rcbFolderKey b :: r) = lookup s.tree (srv :: rcbFolderKey b :: r) ∧
      ident s'.tree (srv :: rcbFolderKey b :: r) = ident s.tree (srv :: rcbFolderKey b :: r) :=
  h.kept _ ⟨b, rfl⟩ r

namespace ModelRound

variable {K K' : Str → Prop} {s s' : LinkState σ W}

theorem mono (h : ModelRound svc con srv K s s') (hK : ∀ k, K' k → K k) :
    ModelRound svc con srv K' s s' where
  step := h.step
  world := h.world
  below := h.below
  kept k hk r := h.kept k (hK k hk) r

theorem of_tree_eq (hstep : TreeStep s s')
    (hworld : ∀ P, ReadsKeep svc con P → P s.world → P s'.world)
    (htree : s'.tree = s.tree) : ModelRound svc con srv K s s' := by
  refine ⟨hstep, hworld, ?_, ?_⟩
  · rw [htree]
    exact ChangesBelow.refl _ _
  · rw [htree]
    exact fun _ _ _ => ⟨rfl, rfl⟩

/-- A round that touches another child of the server only. -/
theorem of_touches {k : Str} {r : Path} (hstep : TreeStep s s')
    (hworld : ∀ P, ReadsKeep svc con P → P s.world → P s'.world)
    (htouch : Touches s.tree s'.tree (srv :: k :: r)) (hk : ¬ K k) :
    ModelRound svc con srv K s s' := by
  refine ⟨hstep, hworld, Touches.changesOnlyBelow (p := [srv]) (r := k :: r) htouch (by simp), ?_⟩
  intro k' hk' r'
  have hpre : ¬ srv :: k :: r <+: srv :: k' :: r' := by
    rw [List.cons_prefix_cons, List.cons_prefix_cons]
    rintro ⟨-, rfl, -⟩
    exact hk hk'
  exact ⟨htouch.frame _ hpre, htouch.ident_frame _ hpre⟩

end ModelRound

theorem rcbFolderKey_mem (b : Bool) : rcbFolderKey b ∈ folderKeys := by cases b <;> decide

theorem discoverDataSet_quiet (hsrv : hasInit srvKeyInit srv = true) {s s' : LinkState σ W}
    {q : Path} {lnRef name : Str} (h : discoverDataSet svc con (srv :: q) lnRef s name = .ok s') :
    QuietRound svc con srv s s' := by
  unfold discoverDataSet at h
  dsimp only at h
  obtain ⟨_, -, h⟩ := bind_eq_ok.1 h
  obtain ⟨⟨found, s₁⟩, h₁, h⟩ := bind_eq_ok.1 h
  cases h
  obtain ⟨hstep, hworld, ⟨-, htree, -⟩ | ⟨-, main, members, isDeletable, cs, hmain, -, hread⟩⟩ :=
    getDatasetInfoFromServerCreateNode_ok h₁
  all_goals
    have hreads (P : W → Prop) (hP : ReadsKeep svc con P) (hw : P s.world) : P s₁.world := by
      rw [hworld]
      exact hP.dataSetDirectory _ _ hw
  · exact .of_tree_eq hstep hreads htree
  · have htouch := hread.grafts.touches
    rw [getMainDatasetNode_below hsrv hmain] at htouch
    refine .of_touches (r := [_]) hstep hreads htouch ?_
    rintro ⟨b, hb⟩
    cases b <;> exact absurd hb (by decide)

/-- The node of a logical node and its data objects. -/
theorem discoverDataObjects_modelRound {s s' : LinkState σ W} {ld ln : Str}
    (h : forEach (discoverDataObject svc con ([srv] ++ [ldKey ld] ++ [ln]) (ld ++ '/' :: ln))
      ({ s with tree := createLNNode s.tree ([srv] ++ [ldKey ld]) (ld ++ '/' :: ln) ln }.call
        fun w =>
        svc.getLogicalNodeDirectory w con (ld ++ '/' :: ln) .dataObject) = .ok s') :
    ModelRound svc con srv (· ∈ folderKeys) s s' := by
  obtain ⟨names, -, h⟩ := bind_eq_ok.1 h
  have hln := grafts_createLNNode s.tree [srv, ldKey ld] (ld ++ '/' :: ln) ln
  obtain ⟨htouch, hstep, -⟩ := discoverDataObjects_ok h
  refine .of_touches ?_ ?_ (hln.touches.trans htouch) (ldKey_not_folder ld)
  · exact ⟨hstep.1, hstep.2, hstep.3, hstep.4⟩
  · intro P hP hw
    refine foldlM_invariant (I := fun s => P s.world) ?_ h (hP.nodeDirectory _ _ _ hw)
    exact fun name _ s s' hw hround => discoverDataObject_world hP hround hw

section Rounds

variable {I : LinkState σ W → Prop} {Q : W → Prop} (hworld : ∀ s, I s → Q s.world)
  (hmodel : ∀ s s', ModelRound svc con srv (· ∈ folderKeys) s s' → I s → I s')
  (hdataSet : ∀ s s' q lnRef name,
    discoverDataSet svc con (srv :: q) lnRef s name = .ok s' → I s → I s')
  (hreport : ∀ s s' b created ref, ListsReport svc con Q b ref →
    getRCBInfoAndCreateNode svc s [srv] con ref b = .ok (created, s') → I s → I s')
include hworld hmodel hreport

/-- The loop over the RCBs of a kind of a logical node. -/
theorem forEach_discoverReport {s s' : LinkState σ W} {b : Bool} {lnRef : Str}
    (hnode : ListsNode svc con Q lnRef) (h : forEach (discoverReport svc con [srv] b lnRef)
      (s.call fun w => svc.getLogicalNodeDirectory w con lnRef (rcbClass b)) = .ok s')
    (hI : I s) : I s' := by
  obtain ⟨names, hreply, h⟩ := bind_eq_ok.1 h
  refine foldlM_invariant ?_ h (hmodel s _ (.of_tree_eq (TreeStep.call _ _) ?_ rfl) hI)
  · intro name hname s₁ s₂ hI₁ hround
    unfold discoverReport at hround
    dsimp only at hround
    obtain ⟨_, -, hround⟩ := bind_eq_ok.1 hround
    obtain ⟨⟨created, s₃⟩, hrcb, hround⟩ := bind_eq_ok.1 hround
    cases hround
    refine hreport _ _ _ _ _ ⟨lnRef, hnode, s.world, names, name, hworld s hI, ?_, hname, rfl⟩
      hrcb hI₁
    exact deref_eq_ok.1 hreply
  · exact fun P hP hw => hP.nodeDirectory _ _ _ hw

include hdataSet

theorem discoverLogicalNode_rounds {s s' : LinkState σ W} {ld ln : Str}
    (hnode : ListsNode svc con Q (ld ++ '/' :: ln))
    (h : discoverLogicalNode svc con [srv] ld s ln = .ok s') (hI : I s) : I s' := by
  unfold discoverLogicalNode at h
  dsimp only at h
  obtain ⟨_, -, h⟩ := bind_eq_ok.1 h
  obtain ⟨s₁, h₁, h⟩ := bind_eq_ok.1 h
  obtain ⟨s₂, h₂, h⟩ := bind_eq_ok.1 h
  obtain ⟨s₃, h₃, h₄⟩ := bind_eq_ok.1 h
  have hobjects : I s₁ := hmodel s s₁ (discoverDataObjects_modelRound h₁) hI
  have hdata : I s₂ := by
    obtain ⟨names, -, h₂⟩ := bind_eq_ok.1 h₂
    refine foldlM_invariant ?_ h₂ (hmodel s₁ _ (.of_tree_eq (TreeStep.call _ _) ?_ rfl) hobjects)
    · exact fun name _ s s' hI hround => hdataSet s s' _ _ _ hround hI
    · exact fun P hP hw => hP.nodeDirectory _ _ _ hw
  have hunbuffered : I s₃ := forEach_discoverReport hworld hmodel hreport hnode h₃ hdata
  exact forEach_discoverReport hworld hmodel hreport hnode h₄ hunbuffered

theorem discoverLogicalDevice_rounds {s s' : LinkState σ W} {ld : Str}
    (hdevice : ListsDevice svc con Q ld) (h : discoverLogicalDevice svc con [srv] s ld = .ok s')
    (hI : I s) : I s' := by
  unfold discoverLogicalDevice createLDNode at h
  obtain ⟨t, ht, h⟩ := bind_eq_ok.1 h
  obtain ⟨_, -, ht⟩ := bind_eq_ok.1 ht
  cases ht
  have htouch := (grafts_addChild_child s.tree [srv] (ldKey ld) (folderNode ld)).touches
  obtain ⟨names, hreply, h⟩ := bind_eq_ok.1 h
  refine foldlM_invariant ?_ h
    (hmodel s _ (.of_touches (r := []) ?_ ?_ htouch (ldKey_not_folder ld)) hI)
  · intro ln hln s₁ s₂ hI₁ hround
    refine discoverLogicalNode_rounds hworld hmodel hdataSet hreport ?_ hround hI₁
    exact ⟨ld, hdevice, s.world, names, ln, hworld s hI, deref_eq_ok.1 hreply, hln, rfl⟩
  · exact ⟨rfl, rfl, rfl, rfl⟩
  · exact fun P hP hw => hP.deviceDirectory _ _ hw

/-- **Rounds.** -/
theorem discover61850Server_modelRounds {s s' : LinkState σ W}
    (h : discover61850Server svc s [srv] con = .ok s')
    (hI : I { s with tree := createDatasetReportNodes s.tree [srv] }) : I s' := by
  have hcall (s : LinkState σ W) (hI : I s) :
      I (s.call fun w => svc.getLogicalDeviceList w con).2 :=
    hmodel s _ (.of_tree_eq (TreeStep.call _ _) (fun P hP hw => hP.deviceList _ hw) rfl) hI
  unfold discover61850Server at h
  dsimp only at h
  split at h
  · cases h
    exact hcall _ hI
  · rename_i devices hreply
    refine foldlM_invariant ?_ h (hcall _ hI)
    intro ld hld s₁ s₂ hI₁ hround
    refine discoverLogicalDevice_rounds hworld hmodel hdataSet hreport ?_ hround hI₁
    have hstart : Q s.world := hworld { s with tree := createDatasetReportNodes s.tree [srv] } hI
    exact ⟨s.world, devices, hstart, hreply, hld⟩

end Rounds

/-- The rounds of an invariant that does not look at the data sets. -/
theorem discover61850Server_rounds {I : LinkState σ W → Prop} {Q : W → Prop}
    (hsrv : hasInit srvKeyInit srv = true) (hworld : ∀ s, I s → Q s.world)
    (hquiet : ∀ s s', QuietRound svc con srv s s' → I s → I s')
    (hreport : ∀ s s' b created ref, ListsReport svc con Q b ref →
      getRCBInfoAndCreateNode svc s [srv] con ref b = .ok (created, s') → I s → I s')
    {s s' : LinkState σ W} (h : discover61850Server svc s [srv] con = .ok s')
    (hI : I { s with tree := createDatasetReportNodes s.tree [srv] }) : I s' := by
  refine discover61850Server_modelRounds hworld ?_ ?_ hreport h hI
  · intro s s' hround
    refine hquiet s s' (hround.mono ?_)
    rintro k ⟨b, rfl⟩
    exact rcbFolderKey_mem b
  · exact fun s s' q lnRef name hround => hquiet s s' (discoverDataSet_quiet hsrv hround)

end DslinkIec61850
