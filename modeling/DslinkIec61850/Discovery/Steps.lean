import DslinkIec61850.Discovery.Shape
import DslinkIec61850.Discovery.Server
import Mathlib.Logic.Relation

/-!
# Discovery as a sequence of steps

A discovery that ends is a sequence of steps of a few kinds: a logical device, a
logical node with its data objects, a data set, a report control block. What a
discovery keeps is proved once for each kind of step.

* `discover61850Server_steps`: every discovery is such a sequence.
-/

namespace DslinkIec61850

open DSLink LinkState Run

variable {σ W : Type} [DSLink σ] {svc : IedService W} {con : ConnId}

/-- The names in the replies of the directory services are plain. -/
structure NamesOk (svc : IedService W) (con : ConnId) : Prop extends EntriesOk svc con where
  devices : ∀ w l w', svc.getLogicalDeviceList w con = (some l, w') → ∀ n ∈ l, PlainName n
  logicalNodes : ∀ w ld l w', svc.getLogicalDeviceDirectory w con ld = (some l, w') →
    ∀ n ∈ l, PlainName n
  dataObjects : ∀ w ref l w', svc.getLogicalNodeDirectory w con ref .dataObject = (some l, w') →
    ∀ n ∈ l, PlainName n

/-- A logical node's subtree. -/
structure LogicalNode (lnRef : Str) (F : Subtree) : Prop where
  root : ∃ n, F [] = some n ∧ ¬ IsAttributeNode n
  below : ∀ k rs n, F (k :: rs) = some n → (k ∈ createdKeys ∧ ¬ IsAttributeNode n) ∨
    (PlainName k ∧ DataObject (lnRef ++ '.' :: k) fun r => F (k :: r))

/-- One step of the discovery of the server with the key `srv`. -/
inductive DiscoveryStep (svc : IedService W) (con : ConnId) (srv : Str) :
    LinkState σ W → LinkState σ W → Prop
  | device {s s' : LinkState σ W} (ld : Str) : (NamesOk svc con → PlainName ld) → TreeStep s s' →
      s'.tree = addChild s.tree [srv] (ldKey ld) (folderNode ld) → DiscoveryStep svc con srv s s'
  | node {s s' : LinkState σ W} (ld ln : Str) : Live s.tree [srv, ldKey ld] → TreeStep s s' →
      Touches s.tree s'.tree [srv, ldKey ld, ln] →
      (NamesOk svc con → PlainName ld ∧ PlainName ln ∧
        LogicalNode (ld ++ '/' :: ln) (sub s'.tree [srv, ldKey ld, ln])) →
      DiscoveryStep svc con srv s s'
  | dataSet {s s' : LinkState σ W} : TreeStep s s' →
      ChangesBelow IsAttributeNode s.tree s'.tree [srv, datasetFolderNodeKey] →
      DiscoveryStep svc con srv s s'
  | report {s s' : LinkState σ W} (isBuffered created : Bool) (lnRef name : Str) :
      getRCBInfoAndCreateNode svc s [srv] con (rcbRefOf isBuffered lnRef name) isBuffered =
        .ok (created, s') → DiscoveryStep svc con srv s s'
  | world {s s' : LinkState σ W} : TreeStep s s' → s'.tree = s.tree → DiscoveryStep svc con srv s s'

/-- A sequence of steps. -/
abbrev DiscoverySteps (svc : IedService W) (con : ConnId) (srv : Str) :
    LinkState σ W → LinkState σ W → Prop := Relation.ReflTransGen (DiscoveryStep svc con srv)

/-! ## Data objects -/

theorem LogicalNode.set {lnRef : Str} {F G : Subtree} (h : LogicalNode lnRef F) {name : Str}
    (hname : PlainName name) (hG : DataObject (lnRef ++ '.' :: name) G) :
    LogicalNode lnRef (Subtree.set name G F) := by
  refine ⟨h.root, ?_⟩
  intro k rs n hn
  by_cases hk : k = name
  · right
    rw [hk]
    refine ⟨hname, ?_⟩
    have : (fun r => Subtree.set name G F (name :: r)) = G := by
      funext r
      exact Subtree.set_cons_self _ _ _ _
    rw [this]
    exact hG
  · rw [Subtree.set_cons_of_ne hk] at hn
    have : (fun r => Subtree.set name G F (k :: r)) = fun r => F (k :: r) := by
      funext r
      exact Subtree.set_cons_of_ne hk _ _ _
    rw [this]
    exact h.below k rs n hn

theorem logicalNode_lnTree (lnRef : Str) : LogicalNode lnRef (lnTree lnRef) := by
  refine ⟨⟨.create, withChildren_nil _ _, by simp [IsAttributeNode]⟩, ?_⟩
  intro k rs n hn
  left
  have hm := (mem_of_withChildren_leaf hn).2
  simp only [lnNodeChildren, List.mem_cons, Prod.mk.injEq, List.not_mem_nil, or_false] at hm
  rcases hm with ⟨rfl, rfl⟩ | ⟨rfl, rfl⟩
  · exact ⟨by decide, by simp [IsAttributeNode]⟩
  · exact ⟨by decide, by simp [IsAttributeNode]⟩

/-- A data object with the walk over it. -/
theorem discoverDataObject_ok {s s' : LinkState σ W} {node : Path} {lnRef name : Str}
    (h : discoverDataObject svc con node lnRef s name = .ok s') :
    Touches s.tree s'.tree (node ++ [name]) ∧ TreeStep s s' ∧
      (EntriesOk svc con → DataObject (lnRef ++ '.' :: name) (sub s'.tree (node ++ [name]))) := by
  unfold discoverDataObject at h
  dsimp only at h
  obtain ⟨_, -, h⟩ := bind_eq_ok.1 h
  have hdo := grafts_createDONode s.tree node (lnRef ++ '.' :: name) name
  obtain ⟨htouch, hstep⟩ := discoverDataDirectory_touches _ _ _ _ _ _ h
  refine ⟨hdo.touches.trans htouch, (TreeStep.setTree s _).trans hstep, ?_⟩
  intro hentries
  have hnew := dataObject_doTree (lnRef ++ '.' :: name)
  obtain ⟨n, hn, hattr⟩ := hnew.1
  obtain ⟨F, hF, hshape⟩ := discoverDataDirectory_shape hentries _ _ _ _ _ _ (.inl rfl)
    (by rw [← sub_nil, hdo.sub_eq, hn]; rfl) (by rw [hdo.sub_eq]; exact hnew.2) h
  rw [hF.grafts.sub_eq]
  refine ⟨⟨n, ?_, hattr⟩, hshape⟩
  rw [hF.keeps.root, hdo.sub_eq, hn]

/-- The data objects of a logical node. -/
theorem discoverDataObjects_ok {s s' : LinkState σ W} {node : Path} {lnRef : Str} {names : List Str}
    (h : names.foldlM (discoverDataObject svc con node lnRef) s = .ok s') :
    Touches s.tree s'.tree node ∧ TreeStep s s' ∧
      (EntriesOk svc con → (∀ n ∈ names, PlainName n) → LogicalNode lnRef (sub s.tree node) →
        LogicalNode lnRef (sub s'.tree node)) := by
  induction names generalizing s with
  | nil =>
    cases h
    exact ⟨Touches.refl _ _, TreeStep.refl _, fun _ _ h => h⟩
  | cons name names ih =>
    obtain ⟨s₁, h₁, h₂⟩ := foldlM_cons_eq_ok.1 h
    obtain ⟨htouch, hstep, hshape⟩ := discoverDataObject_ok h₁
    obtain ⟨htouch', hstep', hshape'⟩ := ih h₂
    refine ⟨htouch.up.trans htouch', hstep.trans hstep', ?_⟩
    intro hentries hnames hln
    refine hshape' hentries (fun n hn => hnames n (List.mem_cons_of_mem _ hn)) ?_
    have hup := Grafts.up htouch
    rw [hup.sub_eq]
    exact hln.set (hnames name List.mem_cons_self) (hshape hentries)

/-! ## Data sets -/

theorem namedNode_not_attribute (name : Str) (data : NodeData) :
    ¬ IsAttributeNode { namedNode name with data := data } := by
  simp [IsAttributeNode, namedNode]

theorem folderNode_not_attribute (name : Str) : ¬ IsAttributeNode (folderNode name) := by
  simp [IsAttributeNode, folderNode]

/-- No node of a data set is a data attribute. -/
theorem DatasetRead.not_attribute {s s' : LinkState σ W} {main : Path} {ref : Str}
    {members : List Str} {isDeletable : Bool} {cs : List (Str × DSNode)}
    (h : DatasetRead s s' main ref members isDeletable cs) :
    ChangesBelow IsAttributeNode s.tree s'.tree main := by
  refine ChangesBelow.of_grafts h.grafts (by simp) ?_
  intro r n hn
  cases r with
  | nil =>
    rw [withChildren_nil] at hn
    cases hn
    exact namedNode_not_attribute ref _
  | cons k rs =>
    have hm := (mem_of_withChildren_leaf hn).2
    rcases List.mem_append.1 hm with hm | hm
    · simp only [datasetChildren, List.mem_cons, Prod.mk.injEq, List.not_mem_nil, or_false] at hm
      rcases hm with ⟨-, rfl⟩ | ⟨-, rfl⟩ | ⟨-, rfl⟩
      all_goals simp [IsAttributeNode]
    · obtain ⟨m, -, -, data, rfl⟩ := exists_of_mem_memberNodes h.memberNodes hm
      exact namedNode_not_attribute m data

theorem discoverDataSet_step {srv : Str} (hsrv : hasInit srvKeyInit srv = true)
    {s s' : LinkState σ W}
    {q : Path} {lnRef name : Str} (h : discoverDataSet svc con (srv :: q) lnRef s name = .ok s') :
    DiscoveryStep svc con srv s s' := by
  unfold discoverDataSet at h
  dsimp only at h
  obtain ⟨_, -, h⟩ := bind_eq_ok.1 h
  obtain ⟨⟨found, s₁⟩, h₁, h⟩ := bind_eq_ok.1 h
  cases h
  obtain ⟨hstep, -, ⟨-, htree, -⟩ | ⟨-, main, members, del, cs, hmain, -, hread⟩⟩ :=
    getDatasetInfoFromServerCreateNode_ok h₁
  · exact .world hstep htree
  · exact .dataSet hstep (getMainDatasetNode_below hsrv hmain ▸ hread.not_attribute)

theorem discoverReport_step {srv : Str} {s s' : LinkState σ W} {isBuffered : Bool}
    {lnRef name : Str} (h : discoverReport svc con [srv] isBuffered lnRef s name = .ok s') :
    DiscoveryStep svc con srv s s' := by
  unfold discoverReport at h
  dsimp only at h
  obtain ⟨_, -, h⟩ := bind_eq_ok.1 h
  obtain ⟨⟨created, s₁⟩, h₁, h⟩ := bind_eq_ok.1 h
  cases h
  exact .report isBuffered created lnRef name h₁

/-! ## The whole discovery -/

/-- A loop over names whose rounds are steps. -/
theorem forEach_steps {srv : Str} {f : LinkState σ W → Str → Except Fault (LinkState σ W)}
    {call : W → Option (List Str) × W} {s s' : LinkState σ W}
    (hf : ∀ s s' n, f s n = .ok s' → DiscoveryStep svc con srv s s')
    (h : forEach f (s.call call) = .ok s') : DiscoverySteps svc con srv s s' := by
  obtain ⟨names, -, h⟩ := bind_eq_ok.1 h
  refine foldlM_invariant (I := fun s' => DiscoverySteps svc con srv s s') ?_ h
    (.single (.world (TreeStep.call _ _) rfl))
  intro n _ s₁ s₂ hsteps hn
  exact hsteps.tail (hf s₁ s₂ n hn)

/-- A step leaves the nodes of the devices. -/
theorem DiscoveryStep.live_device {srv ld : Str} (hsrv : hasInit srvKeyInit srv = true)
    {s s' : LinkState σ W} (h : DiscoveryStep svc con srv s s')
    (hlive : Live s.tree [srv, ldKey ld]) :
    Live s'.tree [srv, ldKey ld] := by
  have hfolder (k : Str) (hk : hasInit ldnKeyInit k = false) : ¬ [srv, k] <+: [srv, ldKey ld] := by
    rw [List.cons_prefix_cons, List.cons_prefix_cons]
    rintro ⟨-, rfl, -⟩
    rw [ldKey, hasInit_append (by decide)] at hk
    cases hk
  cases h with
  | device ld' _ _ htree =>
    unfold Live
    rw [htree, lookup_addChild]
    split_ifs with h₁ h₂
    · rfl
    · exfalso
      rw [List.singleton_append, List.cons_prefix_cons, List.cons_prefix_cons] at h₂
      exact h₁ (by rw [h₂.2.1]; rfl)
    · exact hlive
  | node ld' ln _ _ htouch _ =>
    unfold Live
    rw [htouch.frame]
    · exact hlive
    · intro hpre
      simpa using hpre.length_le
  | dataSet _ hchange =>
    unfold Live
    rw [hchange.frame _ (hfolder _ (by decide))]
    exact hlive
  | report isBuffered created lnRef name hrun =>
    rcases getRCBInfoAndCreateNode_ok hrun with
      ⟨-, htree, -⟩ | ⟨-, folder, rcb, cs, s₁, hfolder', -, -, hcreated⟩
    · rw [htree]
      exact hlive
    · have hf : folder = [srv, rcbFolderKey isBuffered] := by
        rw [folderOf_server hsrv s.tree [] (by cases isBuffered <;> decide)
          (by cases isBuffered <;> decide), child_eq_some] at hfolder'
        exact hfolder'.1
      unfold Live
      rw [hcreated.grafts.frame]
      · exact hlive
      · rw [hf]
        intro hpre
        exact hfolder (rcbFolderKey isBuffered) (by cases isBuffered <;> decide)
          ((List.prefix_append _ _).trans hpre)
  | world _ htree =>
    rw [htree]
    exact hlive

theorem DiscoverySteps.live_device {srv ld : Str} (hsrv : hasInit srvKeyInit srv = true)
    {s s' : LinkState σ W} (h : DiscoverySteps svc con srv s s')
    (hlive : Live s.tree [srv, ldKey ld]) :
    Live s'.tree [srv, ldKey ld] := by
  induction h with
  | refl => exact hlive
  | tail _ hstep ih => exact hstep.live_device hsrv ih

theorem discoverLogicalNode_steps {srv : Str} (hsrv : hasInit srvKeyInit srv = true)
    {s s' : LinkState σ W} {ld ln : Str} (hlive : Live s.tree [srv, ldKey ld])
    (hnames : NamesOk svc con → PlainName ld ∧ PlainName ln)
    (h : discoverLogicalNode svc con [srv] ld s ln = .ok s') : DiscoverySteps svc con srv s s' := by
  unfold discoverLogicalNode at h
  dsimp only at h
  obtain ⟨_, -, h⟩ := bind_eq_ok.1 h
  obtain ⟨s₁, h₁, h⟩ := bind_eq_ok.1 h
  obtain ⟨s₂, h₂, h⟩ := bind_eq_ok.1 h
  obtain ⟨s₃, h₃, h₄⟩ := bind_eq_ok.1 h
  -- the node and its data objects are one step
  have hnode : DiscoveryStep svc con srv s s₁ := by
    obtain ⟨names, hreply, h₁⟩ := bind_eq_ok.1 h₁
    rw [deref_eq_ok] at hreply
    have hln := grafts_createLNNode s.tree [srv, ldKey ld] (ld ++ '/' :: ln) ln
    obtain ⟨htouch, hstep, hshape⟩ := discoverDataObjects_ok h₁
    refine .node ld ln hlive ?_ (hln.touches.trans htouch) ?_
    · exact ⟨hstep.1, hstep.2, hstep.3, hstep.4⟩
    · intro hok
      obtain ⟨hld, hlnName⟩ := hnames hok
      refine ⟨hld, hlnName, hshape hok.toEntriesOk ?_ ?_⟩
      · exact hok.dataObjects s.world (ld ++ '/' :: ln) names _ (Prod.ext hreply rfl)
      · exact hln.sub_eq ▸ logicalNode_lnTree _
  refine .head hnode (.trans (forEach_steps (fun s s' n hn => ?_) h₂)
    (.trans (forEach_steps (fun s s' n hn => ?_) h₃) (forEach_steps (fun s s' n hn => ?_) h₄)))
  · exact discoverDataSet_step hsrv hn
  · exact discoverReport_step hn
  · exact discoverReport_step hn

theorem discoverLogicalDevice_steps {srv : Str} (hsrv : hasInit srvKeyInit srv = true)
    {s s' : LinkState σ W} {ld : Str} (hld : NamesOk svc con → PlainName ld)
    (h : discoverLogicalDevice svc con [srv] s ld = .ok s') : DiscoverySteps svc con srv s s' := by
  unfold discoverLogicalDevice createLDNode at h
  obtain ⟨t, ht, h⟩ := bind_eq_ok.1 h
  obtain ⟨_, -, ht⟩ := bind_eq_ok.1 ht
  cases ht
  obtain ⟨names, hreply, h⟩ := bind_eq_ok.1 h
  rw [deref_eq_ok] at hreply
  let t := addChild s.tree [srv] (ldKey ld) (folderNode ld)
  have hdevice : DiscoveryStep svc con srv s { s with tree := t } :=
    .device ld hld (TreeStep.setTree s t) rfl
  have hlive : Live t [srv, ldKey ld] := by
    unfold Live
    rw [lookup_addChild, if_pos (by rfl)]
    rfl
  refine .head hdevice ?_
  refine foldlM_invariant (I := fun s' => DiscoverySteps svc con srv _ s') ?_ h
    (.single (.world (TreeStep.call _ _) rfl))
  intro n hn s₁ s₂ hsteps hround
  refine hsteps.trans (discoverLogicalNode_steps hsrv ?_ ?_ hround)
  · exact DiscoverySteps.live_device hsrv hsteps hlive
  · intro hok
    exact ⟨hld hok, hok.logicalNodes s.world ld names _ (Prod.ext hreply rfl) n hn⟩

/-- **Discovery.** A discovery that ends is the creation of the folders and then a
sequence of steps. -/
theorem discover61850Server_steps {srv : Str} (hsrv : hasInit srvKeyInit srv = true)
    {s s' : LinkState σ W} (h : discover61850Server svc s [srv] con = .ok s') :
    DiscoverySteps svc con srv { s with tree := createDatasetReportNodes s.tree [srv] } s' := by
  unfold discover61850Server at h
  dsimp only at h
  split at h
  · cases h
    exact .single (.world (TreeStep.call _ _) rfl)
  · rename_i devices hreply
    refine foldlM_invariant (I := fun s' => DiscoverySteps svc con srv _ s') ?_ h
      (.single (.world (TreeStep.call _ _) rfl))
    intro ld hld s₁ s₂ hsteps hround
    refine hsteps.trans (discoverLogicalDevice_steps hsrv ?_ hround)
    intro hok
    exact hok.devices s.world devices _ (Prod.ext hreply rfl) ld hld

end DslinkIec61850
