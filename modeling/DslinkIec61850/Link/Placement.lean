import DslinkIec61850.Link.Dispatch
import DslinkIec61850.Link.Entries

/-!
# Where actions are installed

The actions on a server are children of its node, every other action is at least three
levels further down. What the functions of the link do to the tree on behalf of a server
stays below its node and keeps to this.

* `StaysBelow`, `GrowsBelow`: the changes that are allowed.
* `discover61850Server_growsBelow`: a discovery.
-/

namespace DslinkIec61850

open DSLink LinkState Run

variable {σ W : Type} [DSLink σ] {svc : IedService W} {con : ConnId} {srv : Str} {t t' t'' : σ}
  {r : Path} {d : Bool}

/-! ## Changes below a server node -/

/-- The actions on a server. -/
def Callback.onServer : Callback → Bool
  | .discoverAction | .editServerAction | .clearServerAction | .removeServerAction => true
  | _ => false

/-- The actions that take a node out of a folder. -/
def Callback.removesNode : Callback → Bool
  | .removeDatasetAction | .rmMemberPrepdsAction | .removePrepdsAction | .createDsOnserverAction =>
    true
  | _ => false

/-- A node `n` keys below the server node, in this folder, may have this function. -/
def MayInvoke (folder : Str) (n : ℕ) (node : DSNode) : Prop := ∀ f, node.onInvocation = some f →
  f.onServer = false ∧ 3 ≤ n ∧ (f.removesNode = true → hasInit ldnKeyInit folder = false)

theorem mayInvoke_none {folder : Str} {n : ℕ} {node : DSNode} (h : node.onInvocation = none) :
    MayInvoke folder n node := by
  intro f hf
  rw [h] at hf
  cases hf

theorem mayInvoke_action {folder : Str} {n : ℕ} {node : DSNode} {f : Callback}
    (h : node.onInvocation = some f) (hf : f.onServer = false) (hn : 3 ≤ n)
    (hremoves : f.removesNode = true → hasInit ldnKeyInit folder = false) :
    MayInvoke folder n node := by
  intro g hg
  rw [h] at hg
  cases hg
  exact ⟨hf, hn, hremoves⟩

/-- A path from the server node to a node well below a folder where this function may be. -/
def Deep (f : Callback) (q : Path) : Prop := 3 ≤ q.length ∧ ∀ folder ∈ q.head?,
  hasInit ndlKeyInit folder = false ∧ (f.removesNode = true → hasInit ldnKeyInit folder = false)

/-- The children of a server that keep what is below them: those with `ndl_`, and its
logical devices, where they are kept. -/
def keptKey (devices : Bool) (a : Str) : Bool :=
  hasInit ndlKeyInit a || (devices && hasInit ldnKeyInit a)

theorem keptKey_of_ndl {devices : Bool} {a : Str} (h : hasInit ndlKeyInit a = true) :
    keptKey devices a = true := by
  rw [keptKey, h]
  rfl

theorem ndl_of_not_kept {devices : Bool} {folder : Str} (h : keptKey devices folder = false) :
    hasInit ndlKeyInit folder = false := (Bool.or_eq_false_iff.1 h).1

theorem keptKey_folder {k : Str} (h : k ∈ folderKeys) : keptKey d k = false := by
  revert d k
  decide

theorem keptKey_ldKey (ld : Str) : keptKey false (ldKey ld) = false := rfl

/-- The functions that are installed on a node. -/
def DSNode.functions (n : DSNode) : Option Callback × Option Callback × Option Callback :=
  (n.onInvocation, n.onListOpen, n.onSubscribe)

/-- What lies below a server node is below a child of it. -/
def FolderRooted (srv : Str) (t : σ) : Prop := ∀ k rs, Live t (srv :: k :: rs) → Live t [srv, k]

/-- Only nodes below the server node change, actions are installed in their places, and the
nodes at and below the children that are kept keep their functions; where the devices are
kept, no folder is new. -/
structure StaysBelow (devices : Bool) (srv : Str) (t t' : σ) : Prop where
  below : ChangesOnlyBelow t t' [srv]
  placed : ∀ q f, Invokes t' (srv :: q) f → Invokes t (srv :: q) f ∨ (f.onServer = false ∧ Deep f q)
  kept : ∀ a rs, keptKey devices a = true →
    (lookup t' (srv :: a :: rs)).map DSNode.functions =
      (lookup t (srv :: a :: rs)).map DSNode.functions
  rooted : FolderRooted srv t → FolderRooted srv t'
  noFolder : devices = true → ∀ k, Live t' [srv, k] → Live t [srv, k]

namespace StaysBelow

theorem refl (d : Bool) (srv : Str) (t : σ) : StaysBelow d srv t t :=
  ⟨ChangesBelow.refl _ _, fun _ _ => .inl, fun _ _ _ => rfl, id, fun _ _ => id⟩

theorem trans (h : StaysBelow d srv t t') (h' : StaysBelow d srv t' t'') :
    StaysBelow d srv t t'' where
  below := h.below.trans h'.below
  placed q f hf := by
    rcases h'.placed q f hf with hf | hf
    · exact h.placed q f hf
    · exact .inr hf
  kept a rs ha := (h'.kept a rs ha).trans (h.kept a rs ha)
  rooted hr := h'.rooted (h.rooted hr)
  noFolder hd k hk := h.noFolder hd k (h'.noFolder hd k hk)

theorem of_eq (h : t' = t) : StaysBelow d srv t t' := h ▸ refl d srv t

/-- The node of another server is what it was. -/
theorem other (h : StaysBelow d srv t t') {k : Str} (hk : k ≠ srv) (q : Path) :
    lookup t' (k :: q) = lookup t (k :: q) ∧ ident t' (k :: q) = ident t (k :: q) := by
  have hpre : ¬ [srv] <+: k :: q := by
    rw [List.cons_prefix_cons]
    exact fun heq => hk heq.1.symm
  exact ⟨h.below.frame _ hpre, h.below.ident_frame _ hpre⟩

end StaysBelow

/-- As before, and no child of the server node is lost. -/
structure GrowsBelow (devices : Bool) (srv : Str) (t t' : σ) : Prop
    extends StaysBelow devices srv t t' where
  folders : ∀ k, Live t [srv, k] → Live t' [srv, k]

namespace GrowsBelow

theorem refl (d : Bool) (srv : Str) (t : σ) : GrowsBelow d srv t t := ⟨.refl d srv t, fun _ => id⟩

theorem trans (h : GrowsBelow d srv t t') (h' : GrowsBelow d srv t' t'') : GrowsBelow d srv t t'' :=
  ⟨h.toStaysBelow.trans h'.toStaysBelow, fun k hk => h'.folders k (h.folders k hk)⟩

theorem of_eq (h : t' = t) : GrowsBelow d srv t t' := h ▸ refl d srv t

end GrowsBelow

theorem not_prefix_cons {q : Path} (h : ¬ [srv] <+: q) (r : Path) : ¬ srv :: r <+: q := by
  intro hpre
  exact h ((List.prefix_append [srv] r).trans hpre)

theorem not_below_folder {k folder : Str} (h : k ≠ folder) (r rs : Path) :
    ¬ srv :: folder :: r <+: srv :: k :: rs := by
  rw [List.cons_prefix_cons, List.cons_prefix_cons]
  exact fun hpre => h hpre.2.1.symm

theorem ne_of_kept {a folder : Str} (ha : keptKey d a = true) (hfolder : keptKey d folder = false) :
    a ≠ folder := by
  rintro rfl
  rw [ha] at hfolder
  cases hfolder

/-- A change at or below a folder that is there afterwards, and before unless it may be new. -/
theorem growsBelow_of_touches {folder : Str} (hfolder : keptKey d folder = false)
    (h : Touches t t' (srv :: folder :: r)) (hbefore : d = true → Live t [srv, folder])
    (hlive : Live t' [srv, folder])
    (hplaced : ∀ q f, Invokes t' (srv :: q) f → Invokes t (srv :: q) f ∨
      (f.onServer = false ∧ Deep f q)) :
    GrowsBelow d srv t t' where
  below := h.changesOnlyBelow (p := [srv]) (r := folder :: r) (by simp)
  placed := hplaced
  kept a rs ha := by rw [h.frame _ (not_below_folder (ne_of_kept ha hfolder) r rs)]
  rooted hr k rs hk := by
    by_cases hne : k = folder
    · rw [hne]
      exact hlive
    · rw [Live, h.frame _ (not_below_folder hne r _)] at hk ⊢
      exact hr k rs hk
  noFolder hd k hk := by
    by_cases hne : k = folder
    · rw [hne]
      exact hbefore hd
    · rwa [Live, h.frame _ (not_below_folder hne r _)] at hk
  folders k hk := by
    by_cases hne : k = folder
    · rw [hne]
      exact hlive
    · rwa [Live, h.frame _ (not_below_folder hne r _)]

theorem placed_of_addChild {p : Path} {k : Str} {n : DSNode}
    (hn : ∀ q f, p ++ [k] = srv :: q → n.onInvocation = some f → f.onServer = false ∧ Deep f q)
    (q : Path) (f : Callback) (hf : Invokes (addChild t p k n) (srv :: q) f) :
    Invokes t (srv :: q) f ∨ (f.onServer = false ∧ Deep f q) := by
  obtain ⟨m, hm, hm'⟩ := Option.bind_eq_some_iff.1 hf
  rcases lookup_addChild_eq_some hm with ⟨hq, rfl⟩ | ⟨-, hold⟩
  · exact .inr (hn q f hq.symm hm')
  · exact .inl (Option.bind_eq_some_iff.2 ⟨m, hold, hm'⟩)

/-- A folder of the server. -/
theorem growsBelow_addFolder (t : σ) {folder : Str} {n : DSNode}
    (hfolder : keptKey false folder = false)
    (hn : n.onInvocation = none) : GrowsBelow false srv t (addChild t [srv] folder n) := by
  refine growsBelow_of_touches (r := []) hfolder (grafts_addChild_child t [srv] folder n).touches
    (by simp) ?_ ?_
  · rw [Live, show [srv, folder] = [srv] ++ [folder] from rfl, lookup_addChild_self]
    rfl
  · refine placed_of_addChild fun _ _ _ hf => ?_
    rw [hn] at hf
    cases hf

section Folder

variable {folder : Str} (hfolder : keptKey d folder = false)
include hfolder

theorem growsBelow_addChild (hlive : Live t [srv, folder]) (r : Path) {k : Str} {n : DSNode}
    (hn : MayInvoke folder (r.length + 2) n) :
    GrowsBelow d srv t (addChild t (srv :: folder :: r) k n) := by
  refine growsBelow_of_touches (r := r ++ [k]) hfolder
    (grafts_addChild_child t (srv :: folder :: r) k n).touches
    (fun _ => hlive) ?_ (placed_of_addChild fun q f hq hf => ?_)
  · rwa [Live, lookup_addChild_of_not_below]
    intro hpre
    have := hpre.length_le
    simp at this
  · obtain rfl : folder :: r ++ [k] = q := (List.cons.inj hq).2
    obtain ⟨honServer, hlength, hremoves⟩ := hn f hf
    exact ⟨honServer, by simpa using hlength, by simpa using ⟨ndl_of_not_kept hfolder, hremoves⟩⟩

theorem growsBelow_addChildren (hlive : Live t [srv, folder]) (r : Path)
    {children : List (Str × DSNode)} (h : ∀ c ∈ children, MayInvoke folder (r.length + 2) c.2) :
    GrowsBelow d srv t (addChildren t (srv :: folder :: r) children) := by
  induction children generalizing t with
  | nil => exact .refl d srv t
  | cons c cs ih =>
    have hfirst : GrowsBelow d srv t (addChild t (srv :: folder :: r) c.1 c.2) :=
      growsBelow_addChild hfolder hlive r (h c List.mem_cons_self)
    exact hfirst.trans (ih (hfirst.folders _ hlive) fun d hd => h d (List.mem_cons_of_mem _ hd))

/-- A child with its children. -/
theorem growsBelow_addChild_addChildren (hlive : Live t [srv, folder]) (r : Path) {k : Str}
    {n : DSNode} {children : List (Str × DSNode)} (hn : MayInvoke folder (r.length + 2) n)
    (h : ∀ c ∈ children, MayInvoke folder (r.length + 3) c.2) :
    GrowsBelow d srv t (addChildren (addChild t (srv :: folder :: r) k n)
      (srv :: folder :: r ++ [k]) children) := by
  have hfirst : GrowsBelow d srv t (addChild t (srv :: folder :: r) k n) :=
    growsBelow_addChild hfolder hlive r hn
  refine hfirst.trans (growsBelow_addChildren hfolder (hfirst.folders _ hlive)
    (r ++ [k]) fun c hc => ?_)
  simpa using h c hc

omit hfolder in
theorem placed_of_removeTree (r q : Path) (f : Callback)
    (hf : Invokes (removeTree t (srv :: folder :: r)) (srv :: q) f) :
    Invokes t (srv :: q) f ∨ (f.onServer = false ∧ Deep f q) := by
  left
  unfold Invokes at hf ⊢
  rw [lookup_removeTree] at hf
  split_ifs at hf
  · cases hf
  · exact hf

theorem staysBelow_removeTree (t : σ) (r : Path) :
    StaysBelow d srv t (removeTree t (srv :: folder :: r)) where
  below :=
    { frame := fun q hq => lookup_removeTree_of_not_below (not_prefix_cons hq (folder :: r))
      ident_frame := fun q _ => ident_removeTree t (srv :: folder :: r) q
      root := lookup_removeTree_of_not_below fun hpre => by simpa using hpre.length_le
      ident_root := ident_removeTree t (srv :: folder :: r) [srv]
      fresh_le := (fresh_removeTree t (srv :: folder :: r)).ge
      noNew := fun _ _ _ => False.elim }
  placed := placed_of_removeTree r
  kept a rs ha := by
    rw [lookup_removeTree_of_not_below (not_below_folder (ne_of_kept ha hfolder) r rs)]
  rooted hr k rs hk := by
    rw [Live, lookup_removeTree] at hk ⊢
    split_ifs at hk with hpre
    · cases hk
    · rw [if_neg fun hpre' => hpre (hpre'.trans (List.prefix_append [srv, k] rs))]
      exact hr k rs hk
  noFolder _ k hk := by
    rw [Live, lookup_removeTree] at hk
    split_ifs at hk
    · cases hk
    · exact hk

end Folder

theorem growsBelow_modify (t : σ) (hr : r ≠ []) {F : DSNode → DSNode}
    (hF : ∀ n, (F n).functions = n.functions) : GrowsBelow d srv t (modify t (srv :: r) F) := by
  have hsame (q : Path) :
      (lookup (modify t (srv :: r) F) q).map DSNode.functions =
        (lookup t q).map DSNode.functions := by
    rw [lookup_modify]
    split_ifs with hq
    · rw [hq, Option.map_map]
      congr 1
      exact funext hF
    · rfl
  refine ⟨⟨ChangesBelow.of_modify (r := r) t [srv] hr fun _ => id, fun q f hf => .inl ?_,
    fun a rs _ => hsame _, ?_, fun _ k hk => (live_modify F).1 hk⟩, ?_⟩
  · have hinvoke (t : σ) : (lookup t (srv :: q)).bind DSNode.onInvocation =
        ((lookup t (srv :: q)).map DSNode.functions).bind Prod.fst := by
      cases lookup t (srv :: q) <;> rfl
    rw [Invokes, hinvoke, ← hsame, ← hinvoke]
    exact hf
  · intro h k rs hk
    exact (live_modify F).2 (h k rs ((live_modify F).1 hk))
  · exact fun k hk => (live_modify F).2 hk

theorem growsBelow_setValue (t : σ) (hr : r ≠ []) (v : Option Json) :
    GrowsBelow d srv t (setValue t (srv :: r) v) :=
  growsBelow_modify t hr fun _ => rfl

/-- A loop over changes. -/
theorem growsBelow_foldlM {α : Type} {step : σ → α → Except Fault σ} {l : List α}
    (hstep : ∀ t t' a, step t a = .ok t' → GrowsBelow d srv t t') (h : l.foldlM step t = .ok t') :
    GrowsBelow d srv t t' :=
  foldlM_invariant (I := fun t' => GrowsBelow d srv t t')
    (fun a _ t₁ t₂ hw ha => hw.trans (hstep t₁ t₂ a ha)) h (.refl d srv t)

/-- What is found by a path lies below. -/
theorem getPath_server {k : Str} {p : Path} (h : getPath t (srv :: r) k = some p) :
    ∃ r', p = srv :: r' ∧ r <+: r' := by
  obtain ⟨hpre, -⟩ := getPath_below _ _ _ _ h
  obtain ⟨x, rfl⟩ := hpre
  exact ⟨r ++ x, rfl, List.prefix_append r x⟩

/-! ## Discovery -/

section DataDirectory

variable {refSize : Option ℕ} {s s' : LinkState σ W} {doRef folder : Str}
  (hfolder : keptKey d folder = false)
include hfolder

omit hfolder in
theorem onInvocation_controlNode (type : MmsType) :
    (controlNode type).onInvocation = some .controlAction := by
  cases type <;> rfl

theorem handleControllableNode_growsBelow (hlive : Live s.tree [srv, folder]) (hr : 1 ≤ r.length)
    (h : handleControllableNode svc con refSize s (srv :: folder :: r) doRef = .ok s') :
    GrowsBelow d srv s.tree s'.tree := by
  obtain ⟨children, hcontrol, htree, -⟩ := handleControllableNode_ok h
  rw [htree]
  apply growsBelow_addChildren hfolder hlive
  rcases hcontrol with rfl | ⟨type, rfl⟩
  · simp
  · intro c hc
    simp only [controlChildren, List.mem_cons, List.not_mem_nil, or_false] at hc
    rcases hc with rfl | rfl
    · exact mayInvoke_action (onInvocation_controlNode type) rfl (by omega)
        (by simp [Callback.removesNode])
    · exact mayInvoke_none rfl

theorem createValueNode_growsBelow (hlive : Live t [srv, folder]) (hr : 1 ≤ r.length)
    (fc : FunctionalConstraint)
    (type : MmsType) : GrowsBelow d srv t (createValueNode t (srv :: folder :: r) fc type) := by
  have hvalue : MayInvoke folder (r.length + 2) (valueNode type) := by
    apply mayInvoke_none
    unfold valueNode
    split <;> rfl
  have hwrite : (valueWriteNode type).onInvocation = some .daValueWriteAction := by
    cases type <;> rfl
  rw [createValueNode_eq]
  refine growsBelow_addChild_addChildren hfolder hlive r hvalue fun c hc => ?_
  unfold valueChildren at hc
  rcases List.mem_cons.1 hc with rfl | hc
  · exact mayInvoke_action rfl rfl (by omega) (by simp [Callback.removesNode])
  · split_ifs at hc
    · obtain rfl := List.mem_singleton.1 hc
      exact mayInvoke_action hwrite rfl (by omega) (by simp [Callback.removesNode])
    · exact absurd hc List.not_mem_nil

theorem createDONode_growsBelow (hlive : Live t [srv, folder]) (r : Path) (doName : Str) :
    GrowsBelow d srv t (createDONode t (srv :: folder :: r) doRef doName) := by
  let children : List (Str × DSNode) :=
    [("Reference".toList, .shown "string".toList (.string doRef))]
  show GrowsBelow d srv t
    (addChildren (addChild t (srv :: folder :: r) doName .create)
      (srv :: folder :: r ++ [doName]) children)
  refine growsBelow_addChild_addChildren hfolder hlive r (mayInvoke_none rfl) fun c hc => ?_
  obtain rfl := List.mem_singleton.1 hc
  exact mayInvoke_none rfl

theorem createDANode_growsBelow (hlive : Live t [srv, folder]) (hr : 1 ≤ r.length)
    (daRef daNameFC fcStr : Str) (fc : FunctionalConstraint) (type : Str) :
    GrowsBelow d srv t (createDANode t (srv :: folder :: r) daRef daNameFC fcStr fc type) := by
  refine growsBelow_addChild_addChildren hfolder hlive r (mayInvoke_none rfl) fun c hc => ?_
  simp only [daNodeChildren, List.mem_append, List.mem_singleton] at hc
  rcases hc with ((hc | rfl) | hc) | rfl
  · split_ifs at hc
    · rcases List.mem_pair.1 hc with rfl | rfl
      · exact mayInvoke_none rfl
      · exact mayInvoke_none rfl
    · exact absurd hc List.not_mem_nil
  · exact mayInvoke_none rfl
  · split_ifs at hc
    · obtain rfl := List.mem_singleton.1 hc
      exact mayInvoke_none rfl
    · exact absurd hc List.not_mem_nil
  · exact mayInvoke_action rfl rfl (by omega) (by simp [Callback.removesNode])

theorem discoverEntry_growsBelow (hlive : Live s.tree [srv, folder]) (hr : 1 ≤ r.length)
    {entry : Str} (h : discoverEntry svc con refSize (srv :: folder :: r) doRef s entry = .ok s') :
    GrowsBelow d srv s.tree s'.tree := by
  unfold discoverEntry at h
  obtain ⟨_, -, h⟩ := bind_eq_ok.1 h
  have hobject (ref name : Str) :
      GrowsBelow d srv s.tree (createDONode s.tree (srv :: folder :: r) ref name) :=
    createDONode_growsBelow hfolder hlive r name
  have hattribute (ref name fcStr : Str) (fc : FunctionalConstraint) (type : Str) :=
    createDANode_growsBelow hfolder hlive hr ref name fcStr fc type
  dsimp only at h
  split_ifs at h with hfc hoper
  · refine (hobject _ _).trans (handleControllableNode_growsBelow hfolder ?_ hr h)
    exact (hobject _ _).folders _ hlive
  · cases h
    exact hobject _ _
  · obtain ⟨type, -, h⟩ := bind_eq_ok.1 h
    refine (hattribute _ _ _ _ _).trans (handleControllableNode_growsBelow hfolder ?_ hr h)
    exact (hattribute _ _ _ _ _).folders _ hlive
  · obtain ⟨type, -, h⟩ := bind_eq_ok.1 h
    cases h
    exact hattribute _ _ _ _ _

/-- The walk over a data object, by induction on the depth that is left. -/
theorem discoverDataDirectory_growsBelow (depth : ℕ) :
    ∀ (s s' : LinkState σ W) (r : Path) (doRef : Str) (inFC : FunctionalConstraint),
      Live s.tree [srv, folder] →
      1 ≤ r.length →
      discoverDataDirectory svc con refSize depth s (srv :: folder :: r) doRef inFC = .ok s' →
      GrowsBelow d srv s.tree s'.tree := by
  induction depth with
  | zero =>
    intro s s' r doRef inFC _ _ h
    cases h
  | succ depth ih =>
    intro s s' r doRef inFC hlive hr h
    unfold discoverDataDirectory at h
    dsimp only at h
    split at h
    · cases h
      exact .refl d srv _
    · obtain ⟨htree | ⟨fc, type, htree⟩, -⟩ := discoverLeaf_ok h
      · exact .of_eq htree
      · rw [htree]
        exact createValueNode_growsBelow hfolder hlive hr fc type
    · refine foldlM_invariant (I := fun s' => GrowsBelow d srv s.tree s'.tree) ?_ h (.refl d srv _)
      intro entry _ s₀ s₂ hbelow hround
      obtain ⟨s₁, h₁, h₂⟩ := bind_eq_ok.1 hround
      have hdeeper : 1 ≤ (r ++ [entryKey entry]).length := by
        rw [List.length_append]
        omega
      have hentry := hbelow.trans (discoverEntry_growsBelow hfolder (hbelow.folders _ hlive) hr h₁)
      exact hentry.trans (ih s₁ s₂ _ _ _ (hentry.folders _ hlive) hdeeper h₂)

end DataDirectory

theorem createDatasetReportNodes_growsBelow (t : σ) :
    GrowsBelow false srv t (createDatasetReportNodes t [srv]) := by
  have hadd (t : σ) {k : Str} (hk : k ∈ folderKeys) (name : Str) :
      GrowsBelow false srv t (addChild t [srv] k (folderNode name)) :=
        growsBelow_addFolder t (keptKey_folder hk) rfl
  let t₁ := addChild t [srv] datasetFolderNodeKey (folderNode "Data Sets".toList)
  let t₂ := addChild t₁ [srv] datasetPrepFolderNodeKey (folderNode "Data Set Prep".toList)
  have hlive : Live t₂ [srv, datasetPrepFolderNodeKey] := by
    rw [Live, show [srv, datasetPrepFolderNodeKey] = [srv] ++ [datasetPrepFolderNodeKey] from rfl,
      lookup_addChild_self]
    rfl
  have hdesc (n : DSNode) (hn : n.onInvocation = none) :
      GrowsBelow false srv t₂ (addChild t₂ [srv, datasetPrepFolderNodeKey] "desc".toList n) :=
    growsBelow_addChild (keptKey_folder (by decide)) hlive [] (mayInvoke_none hn)
  exact ((((hadd t (by decide) _).trans (hadd t₁ (by decide) _)).trans (hdesc _ rfl)).trans
    (hadd _ (by decide) _)).trans (hadd _ (by decide) _)

/-- What is put in the place of a subtree below a folder. -/
theorem growsBelow_of_grafts {folder : Str} (hfolder : keptKey d folder = false)
    (hlive : Live t [srv, folder])
    {F : Subtree} (hr : r ≠ []) (h : Grafts t t' (srv :: folder :: r) F)
    (hF : ∀ x n, F x = some n → MayInvoke folder (r.length + x.length + 1) n) :
    GrowsBelow d srv t t' := by
  refine growsBelow_of_touches hfolder h.touches (fun _ => hlive) ?_ fun q f hf => ?_
  · rwa [Live, h.frame]
    intro hpre
    have hlength := hpre.length_le
    have hpos := List.length_pos_iff.2 hr
    simp only [List.length_cons, List.length_nil] at hlength
    omega
  · obtain ⟨n, hn, hf'⟩ := Option.bind_eq_some_iff.1 hf
    by_cases hpre : srv :: folder :: r <+: srv :: q
    · obtain ⟨x, hx⟩ := hpre
      obtain rfl : folder :: r ++ x = q := (List.cons.inj hx).2
      have hx' : F x = some n := by
        rw [← h.sub_eq]
        exact hn
      obtain ⟨honServer, hlength, hremoves⟩ := hF x n hx' f hf'
      refine .inr ⟨honServer, ?_, by simpa using ⟨ndl_of_not_kept hfolder, hremoves⟩⟩
      rw [List.length_append, List.length_cons]
      omega
    · rw [h.frame _ hpre] at hn
      exact .inl (Option.bind_eq_some_iff.2 ⟨n, hn, hf'⟩)

theorem getDatasetInfoFromServerCreateNode_growsBelow (hsrv : hasInit srvKeyInit srv = true)
    {s s' : LinkState σ W} {q : Path} {ref : Str} {found : Bool}
    (h : getDatasetInfoFromServerCreateNode svc s (srv :: q) con ref = .ok (found, s')) :
    GrowsBelow d srv s.tree s'.tree := by
  obtain ⟨-, -, ⟨-, htree, -⟩ | ⟨-, main, members, isDeletable, cs, hmain, -, hread⟩⟩ :=
    getDatasetInfoFromServerCreateNode_ok h
  · exact .of_eq htree
  · rw [getMainDatasetNode, folderOf_server hsrv _ _ (by decide) (by decide),
      child_eq_some] at hmain
    obtain ⟨rfl, hlive⟩ := hmain
    refine growsBelow_of_grafts (r := [datasetKey ref]) (keptKey_folder (by decide)) hlive
      (by simp) hread.grafts ?_
    intro x n hn
    cases x with
    | nil =>
      rw [withChildren_nil] at hn
      cases hn
      exact mayInvoke_none rfl
    | cons k rs =>
      obtain ⟨rfl, hmem⟩ := mem_of_withChildren_leaf hn
      rcases List.mem_append.1 hmem with hmem | hmem
      · simp only [datasetChildren, List.mem_cons, Prod.mk.injEq, List.not_mem_nil,
          or_false] at hmem
        rcases hmem with ⟨-, rfl⟩ | ⟨-, rfl⟩ | ⟨-, rfl⟩
        · exact mayInvoke_none rfl
        · exact mayInvoke_none rfl
        · exact mayInvoke_action rfl rfl (by simp) fun _ => rfl
      · obtain ⟨m, -, -, data, hdata⟩ := exists_of_mem_memberNodes hread.memberNodes hmem
        obtain rfl : n = { namedNode m with data := data } := hdata
        exact mayInvoke_none rfl

/-- The node has no function of a server. -/
def OffServer (n : DSNode) : Prop := ∀ f, n.onInvocation = some f → f.onServer = false

theorem offServer_none {n : DSNode} (h : n.onInvocation = none) : OffServer n := by
  intro f hf
  rw [h] at hf
  cases hf

theorem offServer_action {n : DSNode} {f : Callback} (h : n.onInvocation = some f)
    (hf : f.onServer = false) : OffServer n := by
  intro g hg
  rw [h] at hg
  cases hg
  exact hf

theorem rcbChildren_offServer {ref : Str} {b : Bool} {rcb : ClientReportControlBlock}
    {children : List RcbChild} (h : rcbChildren σ ref b rcb = .ok children) :
    ∀ c ∈ children, OffServer c.node ∧ ∀ m, c.set = some m → OffServer m := by
  unfold rcbChildren at h
  obtain ⟨flags, -, h⟩ := bind_eq_ok.1 h
  obtain ⟨optFlds, -, h⟩ := bind_eq_ok.1 h
  obtain ⟨trgOps, -, h⟩ := bind_eq_ok.1 h
  cases h
  have hset (f : Callback) (hf : f.onServer = false) (params : List Json) (m : DSNode)
      (hm : some (setNode f params) = some m) : OffServer m :=
    Option.some.inj hm ▸ offServer_action (f := f) rfl hf
  have hnone (m : DSNode) (hm : (none : Option DSNode) = some m) : OffServer m := by cases hm
  have hsub (name type : Str) (value : Option Json) : OffServer (subNode σ name type value) :=
    offServer_none rfl
  simp only [List.forall_mem_cons, List.not_mem_nil, false_implies, implies_true, and_true]
  exact ⟨⟨hsub _ _ _, hnone⟩, ⟨hsub _ _ _, hnone⟩, ⟨hsub _ _ _, hset _ rfl _⟩,
    ⟨hsub _ _ _, hset _ rfl _⟩, ⟨offServer_none rfl, hset _ rfl _⟩, ⟨hsub _ _ _, hnone⟩,
    ⟨hsub _ _ _, hset _ rfl _⟩, ⟨hsub _ _ _, hset _ rfl _⟩, ⟨hsub _ _ _, hset _ rfl _⟩,
    ⟨hsub _ _ _, hset _ rfl _⟩, ⟨offServer_action (f := .readRCBAction) rfl rfl, hnone⟩,
    ⟨offServer_action (f := .forceGIRCBAction) rfl rfl, hnone⟩⟩

/-- What holds of the children of an RCB holds of everything below it. -/
theorem rcbTree_cons {P : DSNode → Prop} {root : DSNode} {children : List RcbChild}
    (h : ∀ c ∈ children, P c.node ∧ ∀ m, c.set = some m → P m) {k : Str} {rs : Path} {n : DSNode}
    (hn : rcbTree root children (k :: rs) = some n) : P n := by
  suffices H : ∀ F : Subtree, (∀ k rs n, F (k :: rs) = some n → P n) →
      ∀ k rs n, children.foldl (fun F c => Subtree.set c.key (withChildren (Subtree.leaf c.node)
        (c.set.map fun n => ("set".toList, n)).toList) F) F (k :: rs) = some n → P n by
    exact H (Subtree.leaf root) (fun _ _ _ hleaf => by cases hleaf) k rs n hn
  clear hn
  induction children with
  | nil => exact fun F hF => hF
  | cons c cs ih =>
    intro F hF
    refine ih (fun d hd => h d (List.mem_cons_of_mem _ hd)) _ fun k rs n hn => ?_
    dsimp only at hn
    by_cases hk : k = c.key
    · rw [hk, Subtree.set_cons_self] at hn
      cases rs with
      | nil =>
        rw [withChildren_nil, Subtree.leaf_nil] at hn
        exact Option.some.inj hn ▸ (h c List.mem_cons_self).1
      | cons k' rs =>
        have hm := (mem_of_withChildren_leaf hn).2
        rw [Option.mem_toList, Option.map_eq_some_iff] at hm
        obtain ⟨m, hm, heq⟩ := hm
        obtain rfl : m = n := (Prod.ext_iff.1 heq).2
        exact (h c List.mem_cons_self).2 m hm
    · rw [Subtree.set_cons_of_ne hk] at hn
      exact hF k rs n hn

theorem RcbCreated.growsBelow {s s' : LinkState σ W} {b : Bool} {ref : Str}
    {rcb : ClientReportControlBlock}
    {children : List RcbChild} (hlive : Live s.tree [srv, rcbFolderKey b])
    (h : RcbCreated s s' con [srv, rcbFolderKey b] b ref rcb children) :
    GrowsBelow d srv s.tree s'.tree := by
  have hfolder : rcbFolderKey b ∈ folderKeys := by cases b <;> decide
  refine growsBelow_of_grafts (r := [rcbNodeKey b ref]) (keptKey_folder hfolder) hlive
    (by simp) h.grafts ?_
  intro x n hn
  cases x with
  | nil =>
    rw [rcbTree_nil] at hn
    cases hn
    exact mayInvoke_none rfl
  | cons k rs =>
    have hoff : OffServer n := rcbTree_cons (rcbChildren_offServer h.children_eq) hn
    intro f hf
    refine ⟨hoff f hf, ?_, fun _ => hasInit_folderKeys hfolder⟩
    show 3 ≤ 1 + (rs.length + 1) + 1
    omega

section Server

variable (hsrv : hasInit srvKeyInit srv = true) {s s' : LinkState σ W}
include hsrv

theorem getRCBInfoAndCreateNode_growsBelow {b created : Bool} {q : Path} {ref : Str}
    (h : getRCBInfoAndCreateNode svc s (srv :: q) con ref b = .ok (created, s')) :
    GrowsBelow d srv s.tree s'.tree := by
  rcases getRCBInfoAndCreateNode_ok h with
    ⟨-, htree, -⟩ | ⟨-, folder, rcb, cs, s₁, hfolder, hread, -, hcreated⟩
  · exact .of_eq htree
  · obtain ⟨rfl, hlive⟩ := rcbFolder_eq hsrv hfolder
    exact hcreated.growsBelow hlive

omit hsrv in
theorem forEach_growsBelow {f : LinkState σ W → Str → Except Fault (LinkState σ W)}
    {call : W → Option (List Str) × W} {folder : Str} (hlive : Live s.tree [srv, folder])
    (hf : ∀ s s' name, Live s.tree [srv, folder] → f s name = .ok s' →
      GrowsBelow d srv s.tree s'.tree)
    (h : forEach f (s.call call) = .ok s') : GrowsBelow d srv s.tree s'.tree := by
  obtain ⟨names, -, h⟩ := bind_eq_ok.1 h
  refine foldlM_invariant (I := fun s' => GrowsBelow d srv s.tree s'.tree) ?_ h (.refl d srv s.tree)
  exact fun name _ s₁ s₂ hbelow hround =>
    hbelow.trans (hf s₁ s₂ name (hbelow.folders _ hlive) hround)

theorem discoverReport_growsBelow {b : Bool} {lnRef name : Str}
    (h : discoverReport svc con [srv] b lnRef s name = .ok s') :
    GrowsBelow d srv s.tree s'.tree := by
  unfold discoverReport at h
  obtain ⟨_, -, h⟩ := bind_eq_ok.1 h
  obtain ⟨⟨created, s₁⟩, h₁, h⟩ := bind_eq_ok.1 h
  cases h
  exact getRCBInfoAndCreateNode_growsBelow hsrv h₁

theorem discoverLogicalNode_growsBelow {ld ln : Str} (hlive : Live s.tree [srv, ldKey ld])
    (h : discoverLogicalNode svc con [srv] ld s ln = .ok s') :
    GrowsBelow false srv s.tree s'.tree := by
  have hfolder := keptKey_ldKey ld
  unfold discoverLogicalNode at h
  dsimp only at h
  obtain ⟨_, -, h⟩ := bind_eq_ok.1 h
  obtain ⟨s₁, h₁, h⟩ := bind_eq_ok.1 h
  obtain ⟨s₂, h₂, h⟩ := bind_eq_ok.1 h
  obtain ⟨s₃, h₃, h₄⟩ := bind_eq_ok.1 h
  have hnode : GrowsBelow false srv s.tree
      (createLNNode s.tree [srv, ldKey ld] (ld ++ '/' :: ln) ln) := by
    refine growsBelow_addChild_addChildren hfolder hlive [] (mayInvoke_none rfl) fun c hc => ?_
    rcases List.mem_pair.1 hc with rfl | rfl
    · exact mayInvoke_none rfl
    · exact mayInvoke_action rfl rfl (by simp) (by simp [Callback.removesNode])
  have hobjects : GrowsBelow false srv
      (createLNNode s.tree [srv, ldKey ld] (ld ++ '/' :: ln) ln) s₁.tree := by
    refine forEach_growsBelow (hnode.folders _ hlive) (fun s s' name hlive hround => ?_) h₁
    unfold discoverDataObject at hround
    obtain ⟨_, -, hround⟩ := bind_eq_ok.1 hround
    have hobject : GrowsBelow false srv s.tree
        (createDONode s.tree [srv, ldKey ld, ln] (ld ++ '/' :: ln ++ '.' :: name) name) :=
      createDONode_growsBelow hfolder hlive [ln] name
    exact hobject.trans
      (discoverDataDirectory_growsBelow hfolder _ _ s' [ln, name] _ _ (hobject.folders _ hlive)
        (by simp) hround)
  have hobjects := hnode.trans hobjects
  have hsets : GrowsBelow false srv s₁.tree s₂.tree := by
    refine forEach_growsBelow (hobjects.folders _ hlive) (fun s s' name _ hround => ?_) h₂
    unfold discoverDataSet at hround
    obtain ⟨_, -, hround⟩ := bind_eq_ok.1 hround
    obtain ⟨⟨found, s₁⟩, hread, hround⟩ := bind_eq_ok.1 hround
    cases hround
    exact getDatasetInfoFromServerCreateNode_growsBelow hsrv hread
  have hsets := hobjects.trans hsets
  have hurcbs := hsets.trans
    (forEach_growsBelow (hsets.folders _ hlive)
      (fun _ _ _ _ hround => discoverReport_growsBelow hsrv hround) h₃)
  exact hurcbs.trans
    (forEach_growsBelow (hurcbs.folders _ hlive)
      (fun _ _ _ _ hround => discoverReport_growsBelow hsrv hround) h₄)

/-- **A discovery.** -/
theorem discover61850Server_growsBelow (h : discover61850Server svc s [srv] con = .ok s') :
    GrowsBelow false srv s.tree s'.tree := by
  have hfolders : GrowsBelow false srv s.tree (createDatasetReportNodes s.tree [srv]) :=
    createDatasetReportNodes_growsBelow s.tree
  unfold discover61850Server at h
  dsimp only at h
  split at h
  · cases h
    exact hfolders
  · refine foldlM_invariant (I := fun s' => GrowsBelow false srv s.tree s'.tree) ?_ h hfolders
    intro ld _ s₁ s₂ hbelow hround
    unfold discoverLogicalDevice createLDNode at hround
    obtain ⟨t, ht, hround⟩ := bind_eq_ok.1 hround
    obtain ⟨_, -, ht⟩ := bind_eq_ok.1 ht
    cases ht
    have hdevice : GrowsBelow false srv s₁.tree
        (addChild s₁.tree [srv] (ldKey ld) (folderNode ld)) :=
      growsBelow_addFolder s₁.tree (keptKey_ldKey ld) rfl
    have hlive : Live (addChild s₁.tree [srv] (ldKey ld) (folderNode ld))
        ([srv] ++ [ldKey ld]) := by
      rw [Live, lookup_addChild_self]
      rfl
    exact (hbelow.trans hdevice).trans
      (forEach_growsBelow hlive
        (fun _ _ _ hlive hnode => discoverLogicalNode_growsBelow hsrv hlive hnode) hround)

end Server

end DslinkIec61850
