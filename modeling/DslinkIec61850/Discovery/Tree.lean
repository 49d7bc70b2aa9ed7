import DslinkIec61850.Discovery.Steps

/-!
# The tree of a discovered server

Below a server node, a key `ldn_…` is that of a logical device and leads to
logical nodes, data objects and data attributes; no other key leads to a data
attribute.

* `discover61850Server_shape`: a discovery of an undiscovered server leaves such
  a tree.
-/

namespace DslinkIec61850

open DSLink LinkState Run

variable {σ W : Type} [DSLink σ] {svc : IedService W} {con : ConnId} {srv : Str}

/-- A logical device's subtree. -/
structure LogicalDevice (ld : Str) (F : Subtree) : Prop where
  root : ∃ n, F [] = some n ∧ ¬ IsAttributeNode n
  below : ∀ k rs n, F (k :: rs) = some n →
    PlainName k ∧ LogicalNode (ld ++ '/' :: k) fun r => F (k :: r)

/-- The tree below the server node. -/
structure ServerShape (srv : Str) (t : σ) : Prop where
  device : ∀ k rs n, hasInit ldnKeyInit k = true → lookup t (srv :: k :: rs) = some n →
    ∃ ld, k = ldKey ld ∧ PlainName ld ∧ LogicalDevice ld (sub t [srv, k])
  other : ∀ k rs n, hasInit ldnKeyInit k = false → lookup t (srv :: k :: rs) = some n →
    ¬ IsAttributeNode n

/-- A server node that has not been discovered. -/
def Undiscovered (srv : Str) (t : σ) : Prop :=
  ∀ k rs n, lookup t (srv :: k :: rs) = some n → hasInit ndlKeyInit k = true ∧ ¬ IsAttributeNode n

theorem hasInit_ldKey (ld : Str) : hasInit ldnKeyInit (ldKey ld) = true :=
  hasInit_append (by decide)

theorem ldKey_injective {ld ld' : Str} (h : ldKey ld = ldKey ld') : ld = ld' :=
  List.append_cancel_left h

/-- The keys of the four folders. -/
def folderKeys : List Str :=
  [datasetFolderNodeKey, datasetPrepFolderNodeKey, urcbFolderNodeKey, brcbFolderNodeKey]

theorem hasInit_folderKeys {k : Str} (h : k ∈ folderKeys) : hasInit ldnKeyInit k = false := by
  revert k
  decide

theorem ldKey_not_folder (ld : Str) : ldKey ld ∉ folderKeys := by
  intro hmem
  have hinit := hasInit_ldKey ld
  rw [hasInit_folderKeys hmem] at hinit
  cases hinit

/-! ## The start -/

/-- The folders lie at their own keys and hold no data attribute. -/
theorem lookup_createDatasetReportNodes (t : σ) {k : Str} {rs : Path} {n : DSNode}
    (h : lookup (createDatasetReportNodes t [srv]) (srv :: k :: rs) = some n) :
    (k ∈ folderKeys ∧ ¬ IsAttributeNode n) ∨
      (k ∉ folderKeys ∧ lookup t (srv :: k :: rs) = some n) := by
  have hkey {key : Str} (ks : Path) (hnot : ¬ srv :: key :: ks <+: srv :: k :: rs) (hks : ks = []) :
      k ≠ key := by
    rintro rfl
    apply hnot
    rw [hks, List.cons_prefix_cons, List.cons_prefix_cons]
    exact ⟨rfl, rfl, List.nil_prefix⟩
  have hnew {key : Str} {ks : Path} (heq : srv :: k :: rs = srv :: key :: ks)
      (hmem : key ∈ folderKeys) : k ∈ folderKeys := by
    cases heq
    exact hmem
  rcases lookup_addChild_eq_some h with ⟨heq, rfl⟩ | ⟨h₁, h⟩
  · exact .inl ⟨hnew heq (by decide), folderNode_not_attribute _⟩
  rcases lookup_addChild_eq_some h with ⟨heq, rfl⟩ | ⟨h₂, h⟩
  · exact .inl ⟨hnew heq (by decide), folderNode_not_attribute _⟩
  rcases lookup_addChild_eq_some h with ⟨heq, rfl⟩ | ⟨-, h⟩
  · exact .inl ⟨hnew heq (by decide), by simp [IsAttributeNode]⟩
  rcases lookup_addChild_eq_some h with ⟨heq, rfl⟩ | ⟨h₃, h⟩
  · exact .inl ⟨hnew heq (by decide), folderNode_not_attribute _⟩
  rcases lookup_addChild_eq_some h with ⟨heq, rfl⟩ | ⟨h₄, h⟩
  · exact .inl ⟨hnew heq (by decide), folderNode_not_attribute _⟩
  refine .inr ⟨?_, h⟩
  simp only [folderKeys, List.mem_cons, List.not_mem_nil, or_false, not_or]
  exact ⟨hkey [] h₄ rfl, hkey [] h₃ rfl, hkey [] h₂ rfl, hkey [] h₁ rfl⟩

theorem serverShape_folders {t : σ} (h : Undiscovered srv t) :
    ServerShape srv (createDatasetReportNodes t [srv]) where
  device k rs n hk hn := by
    exfalso
    rcases lookup_createDatasetReportNodes t hn with ⟨hmem, -⟩ | ⟨-, hold⟩
    · rw [hasInit_folderKeys hmem] at hk
      cases hk
    · have hndl := (h k rs n hold).1
      rw [hasInit, beq_iff_eq] at hk hndl
      rw [hk] at hndl
      exact absurd hndl (by decide)
  other k rs n _ hn := by
    rcases lookup_createDatasetReportNodes t hn with ⟨-, hattr⟩ | ⟨-, hold⟩
    · exact hattr
    · exact (h k rs n hold).2

/-! ## The steps -/

/-- What happens in a folder does not matter. -/
theorem ServerShape.of_changesBelow {t t' : σ} (h : ServerShape srv t) {key : Str}
    (hkey : hasInit ldnKeyInit key = false)
    (hchange : ChangesBelow IsAttributeNode t t' [srv, key]) :
    ServerShape srv t' := by
  have hframe (k : Str) (rs : Path) (hk : hasInit ldnKeyInit k = true) :
      lookup t' (srv :: k :: rs) = lookup t (srv :: k :: rs) := by
    apply hchange.frame
    rw [List.cons_prefix_cons, List.cons_prefix_cons]
    rintro ⟨-, rfl, -⟩
    rw [hkey] at hk
    cases hk
  refine ⟨?_, ?_⟩
  · intro k rs n hk hn
    rw [hframe k rs hk] at hn
    obtain ⟨ld, hld, hplain, hshape⟩ := h.device k rs n hk hn
    refine ⟨ld, hld, hplain, ?_⟩
    have hsub : sub t' [srv, k] = sub t [srv, k] := by
      funext r
      exact hframe k r hk
    rw [hsub]
    exact hshape
  · intro k rs n hk hn hattr
    obtain ⟨n', hn', hattr'⟩ := hchange.noNew _ n hn hattr
    exact h.other k rs n' hk hn' hattr'

theorem subNode_not_attribute (name type : Str) (value : Option Json) :
    ¬ IsAttributeNode (subNode σ name type value) := by
  simp [IsAttributeNode, subNode]

theorem setNode_not_attribute (f : Callback) (params : List Json) :
    ¬ IsAttributeNode (setNode f params) := by
  simp [IsAttributeNode, setNode]

theorem action_not_attribute (name : Str) (f : Callback) :
    ¬ IsAttributeNode (DSNode.action name f) := by
  simp [IsAttributeNode]

/-- Neither the node nor its `set` child is a data attribute. -/
def RcbChild.Aside (c : RcbChild) : Prop :=
  ¬ IsAttributeNode c.node ∧ ∀ m, c.set = some m → ¬ IsAttributeNode m

theorem rcbChildren_aside {ref : Str} {isBuffered : Bool} {rcb : ClientReportControlBlock}
    {children : List RcbChild} (h : rcbChildren σ ref isBuffered rcb = .ok children) :
    ∀ c ∈ children, c.Aside := by
  unfold rcbChildren at h
  obtain ⟨v, -, h⟩ := bind_eq_ok.1 h
  obtain ⟨optFlds, -, h⟩ := bind_eq_ok.1 h
  obtain ⟨trgOps, -, h⟩ := bind_eq_ok.1 h
  cases h
  have hset (f : Callback) (params : List Json) (m : DSNode)
      (hm : some (setNode f params) = some m) :
      ¬ IsAttributeNode m := Option.some.inj hm ▸ setNode_not_attribute f params
  have hnone (m : DSNode) (hm : (none : Option DSNode) = some m) :
      ¬ IsAttributeNode m := by cases hm
  have hsub (name type : Str) (value : Option Json) :=
      subNode_not_attribute (σ := σ) name type value
  have hopen (n : DSNode) :
      ¬ IsAttributeNode { n with onListOpen := some .rcbDatSetNodeOpenAction } := by
    simp [IsAttributeNode]
  simp only [List.forall_mem_cons, List.not_mem_nil, false_implies, implies_true, and_true]
  exact ⟨⟨hsub _ _ _, hnone⟩, ⟨hsub _ _ _, hnone⟩, ⟨hsub _ _ _, hset _ _⟩, ⟨hsub _ _ _, hset _ _⟩,
    ⟨hopen _, hset _ _⟩, ⟨hsub _ _ _, hnone⟩, ⟨hsub _ _ _, hset _ _⟩, ⟨hsub _ _ _, hset _ _⟩,
    ⟨hsub _ _ _, hset _ _⟩, ⟨hsub _ _ _, hset _ _⟩, ⟨action_not_attribute _ _, hnone⟩,
    ⟨action_not_attribute _ _, hnone⟩⟩

/-- One more child with its `set` node. -/
theorem RcbChild.Aside.set {c : RcbChild} (hc : c.Aside) {F : Subtree}
    (hF : ∀ r n, F r = some n → ¬ IsAttributeNode n) (r : Path) (n : DSNode)
    (hn : Subtree.set c.key (withChildren (Subtree.leaf c.node)
      (c.set.map fun n => ("set".toList, n)).toList) F r = some n) : ¬ IsAttributeNode n := by
  cases r with
  | nil => exact hF [] n hn
  | cons k rs =>
    by_cases hk : k = c.key
    · rw [hk, Subtree.set_cons_self] at hn
      cases rs with
      | nil =>
        rw [withChildren_nil, Subtree.leaf_nil] at hn
        exact Option.some.inj hn ▸ hc.1
      | cons k' rs =>
        have hm := (mem_of_withChildren_leaf hn).2
        rw [Option.mem_toList, Option.map_eq_some_iff] at hm
        obtain ⟨m, hm, heq⟩ := hm
        obtain rfl : m = n := (Prod.ext_iff.1 heq).2
        exact hc.2 m hm
    · rw [Subtree.set_cons_of_ne hk] at hn
      exact hF _ n hn

/-- No node of an RCB is a data attribute. -/
theorem rcbTree_not_attribute {children : List RcbChild} (hchildren : ∀ c ∈ children, c.Aside)
    {root : DSNode} (hroot : ¬ IsAttributeNode root) :
    ∀ r n, rcbTree root children r = some n → ¬ IsAttributeNode n := by
  suffices H : ∀ F : Subtree, (∀ r n, F r = some n → ¬ IsAttributeNode n) →
      ∀ r n, children.foldl (fun F c => Subtree.set c.key (withChildren (Subtree.leaf c.node)
        (c.set.map fun n => ("set".toList, n)).toList) F) F r = some n → ¬ IsAttributeNode n by
    refine H (Subtree.leaf root) ?_
    intro r n hn
    cases r with
    | nil => exact Option.some.inj hn ▸ hroot
    | cons k rs => cases hn
  induction children with
  | nil => exact fun F hF => hF
  | cons c cs ih =>
    intro F hF
    exact ih (fun d hd => hchildren d (List.mem_cons_of_mem _ hd)) _
      fun r n => (hchildren c List.mem_cons_self).set hF r n

theorem rcbFolder_eq (hsrv : hasInit srvKeyInit srv = true) {t : σ} {q folder : Path}
    {isBuffered : Bool} (h : folderOf t (srv :: q) (rcbFolderKey isBuffered) = some folder) :
    folder = [srv, rcbFolderKey isBuffered] ∧ Live t folder := by
  rw [folderOf_server hsrv t q (by cases isBuffered <;> decide) (by cases isBuffered <;> decide),
    child_eq_some] at h
  exact ⟨h.1, h.1 ▸ h.2⟩

theorem RcbCreated.changesBelow {s s' : LinkState σ W} {folder : Path} {isBuffered : Bool}
    {ref : Str} {rcb : ClientReportControlBlock} {children : List RcbChild}
    (h : RcbCreated s s' con folder isBuffered ref rcb children) :
    ChangesBelow IsAttributeNode s.tree s'.tree folder :=
  ChangesBelow.of_grafts h.grafts (by simp)
    (rcbTree_not_attribute (rcbChildren_aside h.children_eq) (namedNode_not_attribute _ _))

theorem DiscoveryStep.serverShape (hsrv : hasInit srvKeyInit srv = true) (hok : NamesOk svc con)
    {s s' : LinkState σ W} (hstep : DiscoveryStep svc con srv s s') (h : ServerShape srv s.tree) :
    ServerShape srv s'.tree := by
  cases hstep with
  | device ld hld _ htree =>
    have hnew := grafts_addChild_child s.tree [srv] (ldKey ld) (folderNode ld)
    rw [← htree] at hnew
    refine ⟨?_, ?_⟩
    · intro k rs n hk hn
      by_cases hkey : k = ldKey ld
      · refine ⟨ld, hkey, hld hok, ?_⟩
        have hsub : sub s'.tree [srv, k] = Subtree.leaf (folderNode ld) := hkey ▸ hnew.sub_eq
        rw [hsub]
        exact ⟨⟨_, rfl, folderNode_not_attribute ld⟩, fun k rs n hn => by cases hn⟩
      · have hframe (r : Path) :
            lookup s'.tree (srv :: k :: r) = lookup s.tree (srv :: k :: r) := by
          apply hnew.frame
          rw [List.singleton_append, List.cons_prefix_cons, List.cons_prefix_cons]
          rintro ⟨-, rfl, -⟩
          exact hkey rfl
        rw [hframe] at hn
        obtain ⟨ld', hld', hplain, hshape⟩ := h.device k rs n hk hn
        refine ⟨ld', hld', hplain, ?_⟩
        have hsub : sub s'.tree [srv, k] = sub s.tree [srv, k] := by
          funext r
          exact hframe r
        rw [hsub]
        exact hshape
    · intro k rs n hk hn
      rw [hnew.frame] at hn
      · exact h.other k rs n hk hn
      · rw [List.singleton_append, List.cons_prefix_cons, List.cons_prefix_cons]
        rintro ⟨-, rfl, -⟩
        rw [hasInit_ldKey] at hk
        cases hk
  | node ld ln hlive _ htouch hshape =>
    obtain ⟨hld, hln, hnode⟩ := hshape hok
    refine ⟨?_, ?_⟩
    · intro k rs n hk hn
      by_cases hkey : k = ldKey ld
      · refine ⟨ld, hkey, hld, ?_⟩
        obtain ⟨m, hm⟩ := Option.isSome_iff_exists.1 hlive
        obtain ⟨ld', hld', -, hdevice⟩ := h.device (ldKey ld) [] m (hasInit_ldKey ld) hm
        cases ldKey_injective hld'
        rw [hkey]
        refine ⟨?_, ?_⟩
        · obtain ⟨m', hm', hattr⟩ := hdevice.root
          refine ⟨m', ?_, hattr⟩
          rw [sub_nil, htouch.frame, ← sub_nil, hm']
          intro hpre
          simpa using hpre.length_le
        · intro k' rs' n' hn'
          by_cases hk' : k' = ln
          · rw [hk']
            refine ⟨hln, ?_⟩
            have : (fun r => sub s'.tree [srv, ldKey ld] (ln :: r)) =
                sub s'.tree [srv, ldKey ld, ln] := rfl
            rw [this]
            exact hnode
          · have hframe (r : Path) : sub s'.tree [srv, ldKey ld] (k' :: r) =
                sub s.tree [srv, ldKey ld] (k' :: r) := by
              apply htouch.frame
              simp only [List.cons_append, List.nil_append, List.cons_prefix_cons, true_and]
              rintro ⟨rfl, -⟩
              exact hk' rfl
            rw [hframe] at hn'
            have := hdevice.below k' rs' n' hn'
            simpa only [hframe] using this
      · have hframe (r : Path) :
            lookup s'.tree (srv :: k :: r) = lookup s.tree (srv :: k :: r) := by
          apply htouch.frame
          rw [List.cons_prefix_cons, List.cons_prefix_cons]
          rintro ⟨-, rfl, -⟩
          exact hkey rfl
        rw [hframe] at hn
        obtain ⟨ld', hld', hplain, hshape⟩ := h.device k rs n hk hn
        refine ⟨ld', hld', hplain, ?_⟩
        have hsub : sub s'.tree [srv, k] = sub s.tree [srv, k] := by
          funext r
          exact hframe r
        rw [hsub]
        exact hshape
    · intro k rs n hk hn
      rw [htouch.frame] at hn
      · exact h.other k rs n hk hn
      · rw [List.cons_prefix_cons, List.cons_prefix_cons]
        rintro ⟨-, rfl, -⟩
        rw [hasInit_ldKey] at hk
        cases hk
  | dataSet _ hchange => exact h.of_changesBelow (by decide) hchange
  | report isBuffered created lnRef name hrun =>
    rcases getRCBInfoAndCreateNode_ok hrun with
      ⟨-, htree, -⟩ | ⟨-, folder, rcb, cs, s₁, hfolder, -, -, hcreated⟩
    · exact htree ▸ h
    · have hchange := hcreated.changesBelow
      rw [(rcbFolder_eq hsrv hfolder).1] at hchange
      exact h.of_changesBelow (by cases isBuffered <;> decide) hchange
  | world _ htree => exact htree ▸ h

/-- **The tree of a discovered server.** -/
theorem discover61850Server_shape (hsrv : hasInit srvKeyInit srv = true) (hok : NamesOk svc con)
    {s s' : LinkState σ W} (hnew : Undiscovered srv s.tree)
    (h : discover61850Server svc s [srv] con = .ok s') : ServerShape srv s'.tree := by
  have hsteps := discover61850Server_steps hsrv h
  clear h
  induction hsteps with
  | refl => exact serverShape_folders hnew
  | tail _ hstep ih => exact hstep.serverShape hsrv hok ih

end DslinkIec61850
