import DslinkIec61850.Discovery.DataDirectory

/-!
# The shape of what the walk builds

For every server and every pattern of replies whose entries are `name[FC]`, the
nodes below a data object are data attributes under keys `name₁[FC], …, nameₖ[FC]`
with one constraint along the path, and the children that the code itself
creates. Each attribute shows its constraint and its reference.

* `Shape.set`: one more attribute with its subtree.
* `discoverDataDirectory_shape`: the walk builds this shape.
-/

namespace DslinkIec61850

open DSLink Subtree Strings LinkState Run

/-! ## Names -/

/-- The keys that the code itself creates as children. -/
def createdKeys : List Str :=
  ["Reference".toList, "prepdataset".toList, "control".toList, "Object".toList, "FC".toList,
    "Type".toList, "MMS Type".toList, "adddataset".toList, "Value".toList]

/-- The name of a device, node, object or attribute that keeps to itself. -/
structure PlainName (n : Str) : Prop where
  ne_nil : n ≠ []
  slash : '/' ∉ n
  dot : '.' ∉ n
  bracket : '[' ∉ n
  notCreated : n ∉ createdKeys

/-- The names of a path are all plain. -/
def PlainNames (names : List Str) : Prop := ∀ n ∈ names, PlainName n

theorem plainNames_nil : PlainNames [] := by simp [PlainNames]

theorem plainNames_cons {n : Str} {names : List Str} :
    PlainNames (n :: names) ↔ PlainName n ∧ PlainNames names := by simp [PlainNames]

theorem plainNames_append {names names' : List Str} :
    PlainNames (names ++ names') ↔ PlainNames names ∧ PlainNames names' := by
  simp [PlainNames, or_imp, forall_and]

/-- No key of the code's own has a constraint. -/
theorem bracket_not_mem_createdKeys {k : Str} (h : k ∈ createdKeys) : '[' ∉ k := by
  revert k
  decide

theorem fcEntry_not_mem_createdKeys (n : Str) (fc : FunctionalConstraint) :
    fcEntry n fc ∉ createdKeys :=
  fun h => bracket_not_mem_createdKeys h (bracket_mem_fcEntry n fc)

/-- The keys of the attribute path `n₁[FC], …, nₖ[FC]`. -/
def attrPath (fc : FunctionalConstraint) (names : List Str) : Path :=
  names.map fun n => fcEntry n fc

@[simp] theorem attrPath_nil (fc : FunctionalConstraint) : attrPath fc [] = [] := rfl

@[simp] theorem attrPath_cons (fc : FunctionalConstraint) (n : Str) (names : List Str) :
    attrPath fc (n :: names) = fcEntry n fc :: attrPath fc names := rfl

theorem attrPath_append (fc : FunctionalConstraint) (names names' : List Str) :
    attrPath fc (names ++ names') = attrPath fc names ++ attrPath fc names' := by
  simp [attrPath]

/-! ## The shape -/

/-- The node of a data attribute. -/
def IsAttributeNode (n : DSNode) : Prop := n.onListOpen = some .daNodeListOpenedAction

/-- A child of the code's own. -/
def Created (c : Str × DSNode) : Prop := c.1 ∈ createdKeys ∧ ¬ IsAttributeNode c.2

/-- The subtree at a node with the reference `ref`, the constraint `inFC` for a
data attribute and `NONE` for a data object. -/
structure Shape (ref : Str) (inFC : FunctionalConstraint) (F : Subtree) : Prop where
  place : ∀ r n, r ≠ [] → F r = some n → ∃ names fc tail, r = attrPath fc names ++ tail ∧
    PlainNames names ∧ fc.Known ∧ (names = [] ∨ inFC = .NONE ∨ fc = inFC) ∧
    ((tail = [] ∧ IsAttributeNode n) ∨
      ∃ k ks, tail = k :: ks ∧ k ∈ createdKeys ∧ ¬ IsAttributeNode n)
  shown : ∀ names fc, names ≠ [] → PlainNames names → fc.Known → (F (attrPath fc names)).isSome →
    F (attrPath fc names ++ ["FC".toList]) = some (.shown "string".toList (.string fc.code)) ∧
    F (attrPath fc names ++ ["Object".toList]) =
      some (.shown "string".toList (.string (ref ++ prefixed '.' names)))
  closed : ∀ names n fc, PlainNames (names ++ [n]) → fc.Known →
    (F (attrPath fc (names ++ [n]))).isSome → (F (attrPath fc names)).isSome

/-- A change that leaves the node itself and its constraint, and its reference
either as it was or as `ref`. -/
structure KeepsRoot (ref : Str) (F F' : Subtree) : Prop where
  root : F' [] = F []
  fc : F' ["FC".toList] = F ["FC".toList]
  object : F' ["Object".toList] = F ["Object".toList] ∨
    F' ["Object".toList] = some (.shown "string".toList (.string ref))

theorem KeepsRoot.refl (ref : Str) (F : Subtree) : KeepsRoot ref F F := ⟨rfl, rfl, .inl rfl⟩

theorem KeepsRoot.trans {ref : Str} {F F' F'' : Subtree} (h : KeepsRoot ref F F')
    (h' : KeepsRoot ref F' F'') : KeepsRoot ref F F'' where
  root := h'.root.trans h.root
  fc := h'.fc.trans h.fc
  object := by
    rcases h'.object with h₁ | h₁
    · rw [h₁]
      exact h.object
    · exact .inr h₁

/-- Attaching under a key with a constraint. -/
theorem keepsRoot_set_entry (ref : Str) (F G : Subtree) (n : Str) (fc : FunctionalConstraint) :
    KeepsRoot ref F (set (fcEntry n fc) G F) := by
  have hne (k : Str) (hk : k ∈ createdKeys) : k ≠ fcEntry n fc := by
    rintro rfl
    exact fcEntry_not_mem_createdKeys n fc hk
  refine ⟨rfl, ?_, .inl ?_⟩
  · exact set_cons_of_ne (hne _ (by decide)) _ _ _
  · exact set_cons_of_ne (hne _ (by decide)) _ _ _

/-- A data object's subtree. -/
def DataObject (ref : Str) (F : Subtree) : Prop :=
  (∃ n, F [] = some n ∧ ¬ IsAttributeNode n) ∧ Shape ref .NONE F

/-- A data attribute's subtree. -/
structure DataAttribute (ref : Str) (fc : FunctionalConstraint) (F : Subtree) : Prop where
  root : ∃ n, F [] = some n ∧ IsAttributeNode n
  fc_eq : F ["FC".toList] = some (.shown "string".toList (.string fc.code))
  object_eq : F ["Object".toList] = some (.shown "string".toList (.string ref))
  shape : Shape ref fc F

namespace Shape

variable {ref : Str} {inFC : FunctionalConstraint} {F G : Subtree}

/-- A node whose children are the code's own. -/
theorem of_created (h : ∀ k rs n, F (k :: rs) = some n → k ∈ createdKeys ∧ ¬ IsAttributeNode n) :
    Shape ref inFC F where
  place r n hr hn := by
    cases r with
    | nil => exact absurd rfl hr
    | cons k rs =>
      obtain ⟨hk, hattr⟩ := h k rs n hn
      exact ⟨[], .ST, k :: rs, rfl, plainNames_nil, by decide, .inl rfl,
        .inr ⟨k, rs, rfl, hk, hattr⟩⟩
  shown names fc hne _ _ hlive := by
    cases names with
    | nil => exact absurd rfl hne
    | cons n names =>
      obtain ⟨m, hm⟩ := Option.isSome_iff_exists.1 hlive
      exact absurd (h _ _ m hm).1 (fcEntry_not_mem_createdKeys n fc)
  closed names n fc _ _ hlive := by
    obtain ⟨m, hm⟩ := Option.isSome_iff_exists.1 hlive
    exfalso
    cases names with
    | nil => exact fcEntry_not_mem_createdKeys n fc (h _ _ m hm).1
    | cons n' names => exact fcEntry_not_mem_createdKeys n' fc (h _ _ m hm).1

/-- One more child of the code's own. -/
theorem set_created (h : Shape ref inFC F) {k : Str} (hk : k ∈ createdKeys)
    (hG : ∀ r n, G r = some n → ¬ IsAttributeNode n) : Shape ref inFC (set k G F) := by
  have hne (n : Str) (fc : FunctionalConstraint) : fcEntry n fc ≠ k := by
    rintro rfl
    exact fcEntry_not_mem_createdKeys n fc hk
  -- the attributes are where they were
  have hold (names : List Str) (fc : FunctionalConstraint) (tail : Path) (hnames : names ≠ []) :
      set k G F (attrPath fc names ++ tail) = F (attrPath fc names ++ tail) := by
    cases names with
    | nil => exact absurd rfl hnames
    | cons n names => exact set_cons_of_ne (hne n fc) _ _ _
  have hold' (names : List Str) (fc : FunctionalConstraint) :
      set k G F (attrPath fc names) = F (attrPath fc names) := by
    cases names with
    | nil => rfl
    | cons n names => exact set_cons_of_ne (hne n fc) _ _ _
  refine ⟨?_, ?_, ?_⟩
  · intro r n hr hn
    cases r with
    | nil => exact absurd rfl hr
    | cons k' rs =>
      by_cases hk' : k' = k
      · rw [hk', set_cons_self] at hn
        exact ⟨[], .ST, k' :: rs, rfl, plainNames_nil, by decide, .inl rfl,
          .inr ⟨k', rs, rfl, hk' ▸ hk, hG _ _ hn⟩⟩
      · rw [set_cons_of_ne hk'] at hn
        exact h.place _ _ hr hn
  · intro names fc hnames hplain hfc hlive
    rw [hold' names fc] at hlive
    rw [hold names fc _ hnames, hold names fc _ hnames]
    exact h.shown names fc hnames hplain hfc hlive
  · intro names n fc hplain hfc hlive
    rw [hold'] at hlive ⊢
    exact h.closed names n fc hplain hfc hlive

/-- Children of the code's own. -/
theorem withChildren_created (h : Shape ref inFC F) {children : List (Str × DSNode)}
    (hc : ∀ c ∈ children, Created c) :
    Shape ref inFC (withChildren F children) := by
  induction children generalizing F with
  | nil => exact h
  | cons c cs ih =>
    obtain ⟨hk, hattr⟩ := hc c List.mem_cons_self
    refine ih (h.set_created hk ?_) fun d hd => hc d (List.mem_cons_of_mem _ hd)
    intro r n hn
    cases r with
    | nil =>
      cases hn
      exact hattr
    | cons k' rs => cases hn

/-- One more attribute with its subtree. -/
theorem set (h : Shape ref inFC F) {name : Str} {fc : FunctionalConstraint} (hname : PlainName name)
    (hfc : fc.Known) (hin : inFC = .NONE ∨ fc = inFC) (hroot : (F []).isSome)
    (hG : DataAttribute (ref ++ '.' :: name) fc G) :
    Shape ref inFC (Subtree.set (fcEntry name fc) G F) := by
  refine ⟨?_, ?_, ?_⟩
  · intro r n hr hn
    cases r with
    | nil => exact absurd rfl hr
    | cons k rs =>
      by_cases hk : k = fcEntry name fc
      · rw [hk, set_cons_self] at hn
        cases rs with
        | nil =>
          obtain ⟨m, hm, hattr⟩ := hG.root
          rw [hm] at hn
          cases hn
          exact ⟨[name], fc, [], by rw [hk]; rfl, plainNames_cons.2 ⟨hname, plainNames_nil⟩, hfc,
            .inr hin, .inl ⟨rfl, hattr⟩⟩
        | cons k' rs =>
          obtain ⟨names, g, tail, hpath, hplain, hg, hgfc, hcase⟩ := hG.shape.place _ n (by simp) hn
          have hgfc' : names = [] ∨ g = fc := by
            rcases hgfc with h₁ | h₁ | h₁
            · exact .inl h₁
            · exact absurd h₁ hfc.2
            · exact .inr h₁
          refine ⟨name :: names, fc, tail, ?_, plainNames_cons.2 ⟨hname, hplain⟩, hfc,
            .inr hin, hcase⟩
          rw [hk, hpath]
          rcases hgfc' with rfl | rfl <;> rfl
      · rw [set_cons_of_ne hk] at hn
        exact h.place _ n hr hn
  · intro names g hnames hplain hg hlive
    cases names with
    | nil => exact absurd rfl hnames
    | cons x names =>
      obtain ⟨hx, hrest⟩ := plainNames_cons.1 hplain
      by_cases hk : fcEntry x g = fcEntry name fc
      · obtain ⟨rfl, rfl⟩ := fcEntry_injective hx.bracket hname.bracket hg hfc hk
        simp only [attrPath_cons, List.cons_append, set_cons_self, prefixed_cons] at hlive ⊢
        cases names with
        | nil => exact ⟨hG.fc_eq, by simpa using hG.object_eq⟩
        | cons y names =>
          have := hG.shape.shown (y :: names) g (by simp) hrest hg hlive
          simpa using this
      · simp only [attrPath_cons, List.cons_append, set_cons_of_ne hk] at hlive ⊢
        exact h.shown (x :: names) g (by simp) hplain hg hlive
  · intro names n g hplain hg hlive
    cases names with
    | nil => exact hroot
    | cons x names =>
      obtain ⟨hx, hrest⟩ := plainNames_cons.1 hplain
      by_cases hk : fcEntry x g = fcEntry name fc
      · obtain ⟨rfl, rfl⟩ := fcEntry_injective hx.bracket hname.bracket hg hfc hk
        simp only [attrPath_cons, List.cons_append, set_cons_self] at hlive ⊢
        exact hG.shape.closed names n g hrest hg hlive
      · simp only [attrPath_cons, List.cons_append, set_cons_of_ne hk] at hlive ⊢
        exact h.closed (x :: names) n g hplain hg hlive

end Shape

/-! ## Nodes as they are created -/

theorem created_of_onListOpen {k : Str} {n : DSNode} (hk : k ∈ createdKeys)
    (hn : n.onListOpen = none) : Created (k, n) := by
  refine ⟨hk, ?_⟩
  rw [IsAttributeNode, hn]
  simp

/-- A new node whose children are the code's own. -/
theorem shape_withChildren_leaf (ref : Str) (inFC : FunctionalConstraint) (n : DSNode)
    {children : List (Str × DSNode)} (h : ∀ c ∈ children, Created c) :
    Shape ref inFC (withChildren (leaf n) children) := by
  apply Shape.of_created
  intro k rs m hm
  exact h _ (mem_of_withChildren_leaf hm).2

theorem onListOpen_controlNode (type : MmsType) : (controlNode type).onListOpen = none := by
  cases type <;> rfl

theorem ControlChildren.created {doRef : Str} {children : List (Str × DSNode)}
    (h : ControlChildren doRef children) : ∀ c ∈ children, Created c := by
  rcases h with rfl | ⟨type, rfl⟩
  · simp
  · have hcontrol := created_of_onListOpen (by decide : "control".toList ∈ createdKeys)
      (onListOpen_controlNode type)
    have hobject := created_of_onListOpen (by decide : daObjectRefNodeKey ∈ createdKeys)
      (DSNode.onListOpen_shown "string".toList (.string doRef))
    intro c hc
    simp only [controlChildren, List.mem_cons, List.not_mem_nil, or_false] at hc
    rcases hc with rfl | rfl
    · exact hcontrol
    · exact hobject

theorem ControlChildren.keepsRoot {doRef : Str} {children : List (Str × DSNode)}
    (h : ControlChildren doRef children) (F : Subtree) :
    KeepsRoot doRef F (withChildren F children) := by
  rcases h with rfl | ⟨type, rfl⟩
  · exact KeepsRoot.refl _ _
  · exact ⟨rfl, rfl, .inr rfl⟩

/-- A new data attribute. -/
theorem dataAttribute_daTree (ref : Str) {fc : FunctionalConstraint} (hfc : fc.Known) (type : Str) :
    DataAttribute ref fc (daTree ref fc type) := by
  unfold daTree
  rw [daNodeChildren_of_ne hfc.2]
  refine ⟨⟨daNode, withChildren_nil _ _, rfl⟩, rfl, rfl, shape_withChildren_leaf _ _ _ ?_⟩
  intro c hc
  simp only [List.mem_cons, List.not_mem_nil, or_false] at hc
  rcases hc with rfl | rfl | rfl | rfl | rfl
  all_goals
    apply created_of_onListOpen
    · decide
    · rfl

/-- A new data object. -/
theorem dataObject_doTree (ref : Str) : DataObject ref (doTree ref) := by
  refine ⟨⟨.create, withChildren_nil _ _, by simp [IsAttributeNode]⟩,
    shape_withChildren_leaf _ _ _ ?_⟩
  intro c hc
  rw [List.mem_singleton] at hc
  rw [hc]
  exact created_of_onListOpen (by decide) rfl

theorem valueTree_not_attribute (fc : FunctionalConstraint) (type : MmsType) (r : Path) (n : DSNode)
    (h : valueTree fc type r = some n) : ¬ IsAttributeNode n := by
  have hvalue : (valueNode type).onListOpen = none := by cases type <;> rfl
  have hwrite : (valueWriteNode type).onListOpen = none := by cases type <;> rfl
  unfold IsAttributeNode
  cases r with
  | nil =>
    rw [valueTree, withChildren_nil, leaf_nil, Option.some.injEq] at h
    simp [← h, hvalue]
  | cons k rs =>
    have hm := (mem_of_withChildren_leaf h).2
    unfold valueChildren at hm
    split_ifs at hm
    · simp only [List.mem_cons, Prod.mk.injEq, List.not_mem_nil, or_false] at hm
      rcases hm with ⟨-, rfl⟩ | ⟨-, rfl⟩
      · simp
      · simp [hwrite]
    · simp only [List.mem_cons, Prod.mk.injEq, List.not_mem_nil, or_false] at hm
      simp [hm.2]

/-! ## The walk -/

/-- The directory replies consist of entries `name[FC]`. -/
structure EntriesOk (svc : IedService W) (con : ConnId) : Prop where
  directoryFC : ∀ w ref l w', svc.getDataDirectoryFC w con ref = (some l, w') →
    ∀ e ∈ l, ∃ name fc, PlainName name ∧ fc.Known ∧ e = fcEntry name fc
  directoryByFC : ∀ w ref fc l w', svc.getDataDirectoryByFC w con ref fc = (some l, w') →
    ∀ e ∈ l, ∃ name, PlainName name ∧ e = fcEntry name fc

variable {σ W : Type} [DSLink σ] {svc : IedService W} {con : ConnId} {refSize : Option ℕ}

theorem EntriesOk.dataDirectory (h : EntriesOk svc con) {w : W} {ref : Str}
    {inFC : FunctionalConstraint} {l : List Str} (hin : inFC = .NONE ∨ inFC.Known)
    (hl : (DslinkIec61850.dataDirectory svc con ref inFC w).1 = some l) :
    ∀ e ∈ l, ∃ name fc, PlainName name ∧ fc.Known ∧ (inFC = .NONE ∨ fc = inFC) ∧
      e = fcEntry name fc := by
  intro e he
  unfold DslinkIec61850.dataDirectory at hl
  split_ifs at hl with hnone
  · obtain ⟨name, fc, hname, hfc, rfl⟩ := h.directoryFC w ref l _ (Prod.ext hl rfl) e he
    exact ⟨name, fc, hname, hfc, .inl hnone, rfl⟩
  · obtain ⟨name, hname, rfl⟩ := h.directoryByFC w ref inFC l _ (Prod.ext hl rfl) e he
    exact ⟨name, inFC, hname, hin.resolve_left hnone, .inr rfl, rfl⟩

/-- The walk at `node` left the subtree `F`. -/
structure Walked (s s' : LinkState σ W) (node : Path) (ref : Str) (F : Subtree) : Prop where
  grafts : Grafts s.tree s'.tree node F
  keeps : KeepsRoot ref (sub s.tree node) F
  treeStep : TreeStep s s'

/-- A leaf gets at most a `Value` node. -/
theorem discoverLeaf_walked {s s' : LinkState σ W} {node : Path} (ref : Str)
    (h : discoverLeaf svc con s node = .ok s') :
    ∃ F, Walked s s' node ref F ∧
      (F = sub s.tree node ∨ ∃ fc type,
        F = set daValueRefNodeKey (valueTree fc type) (sub s.tree node)) := by
  obtain ⟨htree, hstep⟩ := discoverLeaf_ok h
  rcases htree with htree | ⟨fc, type, htree⟩
  · exact ⟨_, ⟨by rw [htree]; exact Grafts.refl _ _, KeepsRoot.refl _ _, hstep⟩, .inl rfl⟩
  · refine ⟨_, ⟨by rw [htree]; exact (grafts_createValueNode s.tree node fc type).up, ?_, hstep⟩,
      .inr ⟨fc, type, rfl⟩⟩
    exact ⟨rfl, rfl, .inl rfl⟩

/-- A new attribute, the children that its parent may get, and what a later change
of the attribute's subtree makes of the whole. -/
theorem grafts_entry {t t₁ : σ} {node : Path} {doRef daRef name type : Str}
    {fc : FunctionalConstraint}
    {children : List (Str × DSNode)} (hcontrol : ControlChildren doRef children)
    (htree : t₁ = addChildren (createDANode t node daRef (fcEntry name fc) fc.code fc type) node
      children) :
    sub t₁ (node ++ [fcEntry name fc]) = daTree daRef fc type ∧
      ∀ t' G, Grafts t₁ t' (node ++ [fcEntry name fc]) G →
        Grafts t t' node (set (fcEntry name fc) G (withChildren (sub t node) children)) := by
  have hda := (grafts_createDANode t node daRef (fcEntry name fc) fc type).up
  have hchildren := grafts_addChildren (createDANode t node daRef (fcEntry name fc) fc.code fc type)
    node children
  rw [hda.sub_eq, ← htree] at hchildren
  -- the control node's children have other keys than the attribute
  have hkeys : ∀ c ∈ children, c.1 ≠ fcEntry name fc := by
    intro c hc heq
    exact fcEntry_not_mem_createdKeys name fc (heq ▸ (hcontrol.created c hc).1)
  refine ⟨?_, ?_⟩
  · funext r
    rw [sub_append, hchildren.sub_eq]
    show withChildren _ children (fcEntry name fc :: r) = _
    rw [withChildren_of_not_mem hkeys, set_cons_self]
  · intro t' G hG
    have hup := hG.up
    rw [hchildren.sub_eq, set_withChildren_set] at hup
    exact (hda.trans hchildren).trans hup

/-- The nodes that one entry contributes before the recursive call. -/
theorem discoverEntry_walked {s s₁ : LinkState σ W} {node : Path} {ref name : Str}
    {fc : FunctionalConstraint} (hname : PlainName name) (hfc : fc.Known)
    (h : discoverEntry svc con refSize node ref s (fcEntry name fc) = .ok s₁) :
    ∃ type children, ControlChildren ref children ∧ TreeStep s s₁ ∧
      sub s₁.tree (node ++ [fcEntry name fc]) = daTree (ref ++ '.' :: name) fc type ∧
      ∀ t G, Grafts s₁.tree t (node ++ [fcEntry name fc]) G →
        Grafts s.tree t node
          (set (fcEntry name fc) G (withChildren (sub s.tree node) children)) := by
  obtain ⟨type, children, hcontrol, htree, hstep⟩ := discoverEntry_ok hname.bracket hfc h
  obtain ⟨hsub, hup⟩ := grafts_entry hcontrol htree
  exact ⟨type, children, hcontrol, hstep, hsub, hup⟩

/-- One entry, whatever it is, only touches the node and what is below. -/
theorem discoverEntry_touches {s s' : LinkState σ W} {node : Path} {ref entry : Str}
    (h : discoverEntry svc con refSize node ref s entry = .ok s') :
    Touches s.tree s'.tree node ∧ TreeStep s s' := by
  have hcontrol {s s' : LinkState σ W}
      (h : handleControllableNode svc con refSize s node ref = .ok s') :
      Touches s.tree s'.tree node ∧ TreeStep s s' := by
    obtain ⟨children, -, htree, hstep⟩ := handleControllableNode_ok h
    refine ⟨?_, hstep⟩
    rw [htree]
    exact (grafts_addChildren _ _ _).touches
  unfold discoverEntry at h
  obtain ⟨_, -, h⟩ := bind_eq_ok.1 h
  dsimp only at h
  split_ifs at h with hfc hoper
  · obtain ⟨htouch, hstep⟩ := hcontrol h
    have hdo := (grafts_createDONode s.tree node (entryRef ref entry) (entryName entry)).touches.up
    exact ⟨hdo.trans htouch, (TreeStep.setTree s _).trans hstep⟩
  · cases h
    exact ⟨(grafts_createDONode s.tree node (entryRef ref entry) (entryName entry)).touches.up,
      TreeStep.setTree s _⟩
  · obtain ⟨type, -, h⟩ := bind_eq_ok.1 h
    have hda (fcStr : Str) : Touches s.tree
        (createDANode s.tree node (entryRef ref entry) entry fcStr (entryFC entry) type.typeString)
          node :=
      (grafts_addChild_addChildren s.tree node entry daNode _).touches.up
    obtain ⟨htouch, hstep⟩ := hcontrol h
    exact ⟨(hda _).trans htouch, ⟨hstep.1, hstep.2, hstep.3, hstep.4⟩⟩
  · obtain ⟨type, -, h⟩ := bind_eq_ok.1 h
    cases h
    exact ⟨(grafts_addChild_addChildren s.tree node entry daNode _).touches.up,
      ⟨rfl, rfl, rfl, rfl⟩⟩

/-- The walk only touches the node and what is below. -/
theorem discoverDataDirectory_touches (depth : ℕ) :
    ∀ (s s' : LinkState σ W) (node : Path) (ref : Str) (inFC : FunctionalConstraint),
      discoverDataDirectory svc con refSize depth s node ref inFC = .ok s' →
      Touches s.tree s'.tree node ∧ TreeStep s s' := by
  induction depth with
  | zero => intro s s' node ref inFC h; cases h
  | succ depth ih =>
    intro s s' node ref inFC h
    unfold discoverDataDirectory at h
    dsimp only at h
    have hcall : TreeStep s (s.call (dataDirectory svc con ref inFC)).2 := TreeStep.call _ _
    split at h
    · cases h
      exact ⟨Touches.refl _ _, hcall⟩
    · obtain ⟨F, ⟨hgrafts, -, hstep⟩, -⟩ := discoverLeaf_walked ref h
      exact ⟨hgrafts.touches, hcall.trans hstep⟩
    · refine foldlM_invariant (I := fun s' => Touches s.tree s'.tree node ∧ TreeStep s s') ?_ h
        ⟨Touches.refl _ _, hcall⟩
      rintro e - s₀ s₂ ⟨htouch, hstep⟩ hround
      obtain ⟨s₁, h₁, h₂⟩ := bind_eq_ok.1 hround
      obtain ⟨htouch₁, hstep₁⟩ := discoverEntry_touches h₁
      obtain ⟨htouch₂, hstep₂⟩ := ih _ _ _ _ _ h₂
      exact ⟨(htouch.trans htouch₁).trans htouch₂.up, (hstep.trans hstep₁).trans hstep₂⟩

/-- **The walk.** Whatever the server replies, a walk that ends leaves a subtree
of the shape, and of what was there before the node itself, its constraint and
its reference. -/
theorem discoverDataDirectory_shape (hentries : EntriesOk svc con) (depth : ℕ) :
    ∀ (s s' : LinkState σ W) (node : Path) (ref : Str) (inFC : FunctionalConstraint),
      (inFC = .NONE ∨ inFC.Known) → (lookup s.tree node).isSome →
      Shape ref inFC (sub s.tree node) →
      discoverDataDirectory svc con refSize depth s node ref inFC = .ok s' →
      ∃ F, Walked s s' node ref F ∧ Shape ref inFC F := by
  induction depth with
  | zero => intro s s' node ref inFC _ _ _ h; cases h
  | succ depth ih =>
    intro s s' node ref inFC hin hlive hshape h
    unfold discoverDataDirectory at h
    dsimp only at h
    have hcall : TreeStep s (s.call (dataDirectory svc con ref inFC)).2 := TreeStep.call _ _
    split at h
    · cases h
      exact ⟨_, ⟨Grafts.refl _ _, KeepsRoot.refl _ _, hcall⟩, hshape⟩
    · obtain ⟨F, ⟨hgrafts, hkeeps, hstep⟩, hF⟩ := discoverLeaf_walked ref h
      refine ⟨F, ⟨hgrafts, hkeeps, hcall.trans hstep⟩, ?_⟩
      rcases hF with rfl | ⟨fc, type, rfl⟩
      · exact hshape
      · exact hshape.set_created (by decide) (valueTree_not_attribute fc type)
    · rename_i entries _ hreply
      have hl := hentries.dataDirectory hin hreply
      refine foldlM_invariant (I := fun s' => ∃ F, Walked s s' node ref F ∧ Shape ref inFC F)
        ?_ h ⟨_, ⟨Grafts.refl _ _, KeepsRoot.refl _ _, hcall⟩, hshape⟩
      rintro e he s₀ s₂ ⟨F, hwalked, hF⟩ hround
      obtain ⟨name, fc, hname, hfc, hfcIn, rfl⟩ := hl e he
      obtain ⟨s₁, h₁, h₂⟩ := bind_eq_ok.1 hround
      rw [entryRef_fcEntry hname.bracket, entryFC_fcEntry hname.bracket hfc,
        entryKey_fcEntry hname.bracket hfc] at h₂
      obtain ⟨type, children, hcontrol, hstep, hsub, hup⟩ := discoverEntry_walked hname hfc h₁
      have hnew := dataAttribute_daTree (ref ++ '.' :: name) hfc type
      have hlive₁ : (lookup s₁.tree (node ++ [fcEntry name fc])).isSome := by
        rw [← sub_nil, hsub, daTree, withChildren_nil]
        rfl
      obtain ⟨G, hG, hGshape⟩ :=
        ih s₁ s₂ _ _ fc (.inr hfc) hlive₁ (by rw [hsub]; exact hnew.shape) h₂
      have hkeepsG := hG.keeps
      rw [hsub] at hkeepsG
      have hGattr : DataAttribute (ref ++ '.' :: name) fc G :=
        ⟨by rw [hkeepsG.root]; exact hnew.root, by rw [hkeepsG.fc]; exact hnew.fc_eq,
          by rcases hkeepsG.object with h' | h' <;> rw [h']; exact hnew.object_eq, hGshape⟩
      have hgrafts := hup _ _ hG.grafts
      rw [hwalked.grafts.sub_eq] at hgrafts
      have hkeepsC := hcontrol.keepsRoot F
      refine ⟨_, ⟨hwalked.grafts.trans hgrafts, ?_, ?_⟩, ?_⟩
      · exact (hwalked.keeps.trans hkeepsC).trans (keepsRoot_set_entry _ _ _ _ _)
      · exact (hwalked.treeStep.trans hstep).trans hG.treeStep
      · refine (hF.withChildren_created hcontrol.created).set hname hfc hfcIn ?_ hGattr
        rw [hkeepsC.root, hwalked.keeps.root, sub_nil]
        exact hlive

end DslinkIec61850
