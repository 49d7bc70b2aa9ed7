import DslinkIec61850.Client.Model
import DslinkIec61850.Discovery.Failures

/-!
# The walk over a data object of a server model

`Built` says what is below a node when the walk has come back from it: the
attributes of the model with their types, the `Value` nodes of the leaves, and the
`control` node where an `Oper` was listed.

* `discoverEntry_served`: what one entry contributes.
* `discoverDataDirectory_built`: the walk builds it.
-/

namespace DslinkIec61850

open DSLink Subtree Strings LinkState Run

/-- `Oper`. -/
def operName : Str := "Oper".toList

/-- `stVal`. -/
def stValName : Str := "stVal".toList

/-- The key of the node of a control action. -/
def controlKey : Str := "control".toList

/-- The object has a status that discovery takes for that of a control. -/
def StatusOf (m : ServerModel) (ld ln : Str) (names : List Str)
    (fc : FunctionalConstraint) : Prop :=
  ∃ type, m.LeafAt ld ln (names ++ [stValName]) fc type ∧ (type = .boolean ∨ type = .integer)

/-- The constraints under which the walk at a node with the constraint `inFC` lists. -/
def Within (inFC fc : FunctionalConstraint) : Prop := inFC = .NONE ∨ fc = inFC

/-- What the walk leaves at the node of a reference. -/
structure NodeBuilt (m : ServerModel) (ld ln : Str) (names : List Str) (inFC : FunctionalConstraint)
    (F : Subtree) : Prop where
  entry : ∀ x fc, PlainName x → fc.Known →
    ((F [fcEntry x fc]).isSome ↔ m.Has ld ln (names ++ [x]) fc ∧ Within inFC fc)
  noEntry : ∀ x fc, PlainName x → fc.Known → ¬ (m.Has ld ln (names ++ [x]) fc ∧ Within inFC fc) →
    ∀ r, F (fcEntry x fc :: r) = none
  control : (F [controlKey]).isSome ↔ (∃ fc, StatusOf m ld ln names fc) ∧
    ∃ fc, m.Has ld ln (names ++ [operName]) fc ∧ Within inFC fc
  controlRef : (F [controlKey]).isSome →
    F [daObjectRefNodeKey] = some (.shown "string".toList (.string (objectRef ld ln names)))
  typeNode : inFC ≠ .NONE → ∃ type, m.TypeAt ld ln names inFC type ∧
    F ["MMS Type".toList] = some (.shown "string".toList (.string type.typeString))
  value : ∀ type, inFC ≠ .NONE → m.LeafAt ld ln names inFC type → ∀ r,
    F (daValueRefNodeKey :: r) = valueTree inFC type r
  noValue : (inFC = .NONE ∨ ∀ type, ¬ m.LeafAt ld ln names inFC type) → ∀ r,
    F (daValueRefNodeKey :: r) = none

/-- What the walk leaves at the node of a reference and below. -/
structure Built (m : ServerModel) (ld ln : Str) (names : List Str) (inFC : FunctionalConstraint)
    (F : Subtree) : Prop where
  node : NodeBuilt m ld ln names inFC F
  below : ∀ x ns fc, m.Has ld ln (names ++ x :: ns) fc → Within inFC fc →
    NodeBuilt m ld ln (names ++ x :: ns) fc fun r => F (fcEntry x fc :: (attrPath fc ns ++ r))

/-- A node below is there because the model has it. -/
theorem Built.has_of_isSome {m : ServerModel} {ld ln : Str} {names : List Str}
    {inFC : FunctionalConstraint}
    {F : Subtree} (h : Built m ld ln names inFC F) {x : Str} {ns : List Str}
    {fc : FunctionalConstraint} (hplain : PlainNames (x :: ns)) (hfc : fc.Known) {r : Path}
    (hsome : (F (attrPath fc (x :: ns) ++ r)).isSome) :
    m.Has ld ln (names ++ x :: ns) fc ∧ Within inFC fc := by
  induction ns using List.reverseRecOn generalizing r with
  | nil =>
    by_contra hno
    rw [attrPath_cons, attrPath_nil, List.singleton_append,
      h.node.noEntry x fc (plainNames_cons.1 hplain).1 hfc hno] at hsome
    cases hsome
  | append_singleton ns y ih =>
    rw [← List.cons_append, plainNames_append] at hplain
    rw [← List.cons_append, attrPath_append, List.append_assoc] at hsome
    obtain ⟨hhas, hwithin⟩ := ih hplain.1 hsome
    refine ⟨?_, hwithin⟩
    by_contra hno
    have hnode := h.below x ns fc hhas hwithin
    have hy := (plainNames_cons.1 hplain.2).1
    have := hnode.noEntry y fc hy hfc (fun hhas' => hno (by simpa using hhas'.1)) r
    have hnone : F (attrPath fc (x :: ns) ++ (attrPath fc [y] ++ r)) = none := by simpa using this
    rw [hnone] at hsome
    cases hsome

variable {σ W : Type} [DSLink σ] {svc : IedService W} {con : ConnId} {m : ServerModel}
  {devices : LogicalDevices} {variableLists : Str → Option (List Str)} {ld ln : Str}

/-! ## Controllable objects -/

theorem take_fcEntry_stVal {x : Str} {fc : FunctionalConstraint} (hx : '[' ∉ x) :
    (fcEntry x fc).take 6 = "stVal[".toList ↔ x = stValName := by
  constructor
  · intro h
    have hcut := congrArg (cut '[') (List.take_append_drop 6 (fcEntry x fc))
    rw [h, fcEntry, cut_append hx] at hcut
    exact (congrArg Prod.fst hcut).symm
  · rintro rfl
    rfl

/-- The objects that have a name in the model. -/
structure Named (m : ServerModel) (devices : LogicalDevices) (ld ln : Str)
    (names : List Str) : Prop where
  device : ld ∈ devices.map Prod.fst
  ld_ok : ModelName ld
  ln_ok : ModelName ln
  names_ok : ∀ n ∈ names, ModelName n
  names_ne : names ≠ []

theorem Named.append {names : List Str} (h : Named m devices ld ln names) {x : Str}
    (hx : ModelName x) : Named m devices ld ln (names ++ [x]) :=
  ⟨h.device, h.ld_ok, h.ln_ok, by
    intro n hn
    rcases List.mem_append.1 hn with hn | hn
    · exact h.names_ok n hn
    · rw [List.mem_singleton] at hn
      exact hn ▸ hx, by simp⟩

theorem Serves.entriesOf (h : Serves svc con m devices variableLists) {names : List Str}
    (hnamed : Named m devices ld ln names) (hshort : (objectRef ld ln names).length < 129)
    {inFC : FunctionalConstraint} (hin : inFC = .NONE ∨ inFC.Known) (w : W) :
    ∃ l, (dataDirectory svc con (objectRef ld ln names) inFC w).1 = some l ∧ l.Nodup ∧
      ∀ e, e ∈ l ↔ ∃ x fc, m.Has ld ln (names ++ [x]) fc ∧ Within inFC fc ∧ e = fcEntry x fc := by
  obtain ⟨hdevice, hld, hln, hnames, hne⟩ := hnamed
  cases names with
  | nil => exact absurd rfl hne
  | cons n ns => exact h.entries hdevice hld hln hnames hshort hin w

/-- The entry that discovery takes for the status value. -/
theorem Serves.stValEntry (h : Serves svc con m devices variableLists) {names : List Str}
    (hnamed : Named m devices ld ln names) (hshort : (objectRef ld ln names).length < 129) (w : W) :
    (((svc.getDataDirectoryFC w con (objectRef ld ln names)).1.bind DslinkIec61850.stValEntry =
      none) ∧
        ∀ fc, ¬ m.Has ld ln (names ++ [stValName]) fc) ∨
      ∃ fc, (svc.getDataDirectoryFC w con (objectRef ld ln names)).1.bind
        DslinkIec61850.stValEntry =
        some (fcEntry stValName fc) ∧ m.Has ld ln (names ++ [stValName]) fc := by
  obtain ⟨l, hl, -, hmem⟩ := h.entriesOf hnamed hshort (.inl rfl) w
  rw [dataDirectory, if_pos rfl] at hl
  rw [hl, Option.bind_some]
  unfold DslinkIec61850.stValEntry
  cases hfind : l.find? fun e => e.take 6 == "stVal[".toList with
  | none =>
    refine .inl ⟨rfl, fun fc hhas => ?_⟩
    have := List.find?_eq_none.1 hfind (fcEntry stValName fc)
      ((hmem _).2 ⟨stValName, fc, hhas, .inl rfl, rfl⟩)
    exact this rfl
  | some e =>
    obtain ⟨x, fc, hhas, -, rfl⟩ := (hmem e).1 (List.mem_of_find?_eq_some hfind)
    have htake := List.find?_some hfind
    rw [beq_iff_eq, take_fcEntry_stVal (hhas.names_ok.2.2.2 x (by simp)).plain.bracket] at htake
    subst htake
    exact .inr ⟨fc, rfl, hhas⟩

/-- The nodes added to an object with an `Oper`. -/
theorem handleControllableNode_served (h : Serves svc con m devices variableLists)
    {names : List Str} (hnamed : Named m devices ld ln names)
    (hshort : (objectRef ld ln names).length < 129) {s s' : LinkState σ W} {node : Path}
    (hrun : handleControllableNode svc con (some 129) s node (objectRef ld ln names) = .ok s') :
    ∃ children, s'.tree = addChildren s.tree node children ∧ TreeStep s s' ∧
      ((children = [] ∧ ∀ fc, ¬ StatusOf m ld ln names fc) ∨
        ((∃ type, children = controlChildren type (objectRef ld ln names)) ∧
          ∃ fc, StatusOf m ld ln names fc)) := by
  unfold handleControllableNode at hrun
  dsimp only [call] at hrun
  rcases h.stValEntry hnamed hshort s.world with ⟨hnone, hno⟩ | ⟨fc, hsome, hhas⟩
  · rw [hnone] at hrun
    cases hrun
    refine ⟨[], rfl, ⟨rfl, rfl, rfl, rfl⟩, .inl ⟨rfl, ?_⟩⟩
    rintro fc ⟨type, hleaf, -⟩
    exact hno fc hleaf.has
  · rw [hsome] at hrun
    dsimp only at hrun
    have hknown := hhas.names_ok.2.2.1
    rw [getFunctionalConstraint_entry (by decide) hknown] at hrun
    obtain ⟨_, -, hrun⟩ := bind_eq_ok.1 hrun
    rw [if_neg hknown.2] at hrun
    obtain ⟨type, htype, hrun⟩ := bind_eq_ok.1 hrun
    rw [deref_eq_ok] at htype
    obtain ⟨type', hspec, hat⟩ := h.specification
      (svc.getDataDirectoryFC s.world con (objectRef ld ln names)).2 ld ln _ fc hhas
    rw [objectRef_append] at hspec
    obtain rfl : type' = type := Option.some.inj (hspec.symm.trans htype)
    split_ifs at hrun with hcase
    · cases hrun
      refine ⟨_, rfl, ⟨rfl, rfl, rfl, rfl⟩, .inr ⟨⟨type', rfl⟩, fc, type', ?_, hcase⟩⟩
      rcases hat with hat | ⟨rfl, -⟩
      · exact hat
      · rcases hcase with hcase | hcase <;> cases hcase
    · cases hrun
      refine ⟨[], rfl, ⟨rfl, rfl, rfl, rfl⟩, .inl ⟨rfl, ?_⟩⟩
      rintro fc' ⟨type'', hleaf, hcontrol⟩
      rw [← (hat.eq_of_leaf hleaf).2] at hcontrol
      exact hcase hcontrol

/-- The nodes that an entry adds to its own node. -/
theorem discoverEntry_served (h : Serves svc con m devices variableLists) {names : List Str}
    (hnamed : Named m devices ld ln names) (hshort : (objectRef ld ln names).length < 129)
    {x : Str} {fc : FunctionalConstraint} (hhas : m.Has ld ln (names ++ [x]) fc)
    {s s' : LinkState σ W} {node : Path}
    (hrun : discoverEntry svc con (some 129) node (objectRef ld ln names) s
      (fcEntry x fc) = .ok s') :
    ∃ type children, m.TypeAt ld ln (names ++ [x]) fc type ∧ TreeStep s s' ∧
      s'.tree = addChildren
        (createDANode s.tree node (objectRef ld ln (names ++ [x])) (fcEntry x fc)
        fc.code fc type.typeString) node children ∧
      ((children = [] ∧ (x = operName → ∀ fc, ¬ StatusOf m ld ln names fc)) ∨
        ((∃ type, children = controlChildren type (objectRef ld ln names)) ∧ x = operName ∧
          ∃ fc, StatusOf m ld ln names fc)) := by
  have hname := (hhas.names_ok.2.2.2 x (by simp)).plain.bracket
  have hfc := hhas.names_ok.2.2.1
  unfold discoverEntry at hrun
  dsimp only [call] at hrun
  rw [entryRef_fcEntry hname, entryFC_fcEntry hname hfc, getFunctionalConstraint_entry hname hfc,
    if_neg hfc.2, entryName_fcEntry hname, ← objectRef_append] at hrun
  obtain ⟨_, -, hrun⟩ := bind_eq_ok.1 hrun
  obtain ⟨type, htype, hrun⟩ := bind_eq_ok.1 hrun
  rw [deref_eq_ok] at htype
  obtain ⟨type', hspec, hat⟩ := h.specification s.world ld ln _ fc hhas
  obtain rfl : type' = type := Option.some.inj (hspec.symm.trans htype)
  dsimp only at hrun
  split_ifs at hrun with hoper
  · obtain ⟨children, htree, hstep, hcase⟩ := handleControllableNode_served h hnamed hshort hrun
    refine ⟨type', children, hat, ⟨hstep.1, hstep.2, hstep.3, hstep.4⟩, htree, ?_⟩
    rcases hcase with ⟨hnil, hno⟩ | ⟨hctl, hstatus⟩
    · exact .inl ⟨hnil, fun _ => hno⟩
    · exact .inr ⟨hctl, hoper, hstatus⟩
  · cases hrun
    exact ⟨type', [], hat, ⟨rfl, rfl, rfl, rfl⟩, rfl, .inl ⟨rfl, fun hx => absurd hx hoper⟩⟩

/-- The reference of an entry was stored. -/
theorem storedEntry {names : List Str} {x : Str} {fc : FunctionalConstraint} (hx : '[' ∉ x)
    {s s' : LinkState σ W} {node : Path}
    (hrun : discoverEntry svc con (some 129) node (objectRef ld ln names) s
      (fcEntry x fc) = .ok s') :
    (objectRef ld ln (names ++ [x])).length < 129 := by
  unfold discoverEntry at hrun
  obtain ⟨_, hfits, -⟩ := bind_eq_ok.1 hrun
  have := storeIn_eq_ok.1 hfits 129 rfl
  rwa [entryRef_fcEntry hx, ← objectRef_append] at this

/-! ## The rounds -/

/-- A node before the walk: it has what its creation gave it. -/
structure NewNode (m : ServerModel) (ld ln : Str) (names : List Str) (inFC : FunctionalConstraint)
    (F : Subtree) : Prop where
  entry : ∀ x fc r, F (fcEntry x fc :: r) = none
  control : F [controlKey] = none
  value : ∀ r, F (daValueRefNodeKey :: r) = none
  shown : inFC ≠ .NONE → F ["FC".toList] = some (.shown "string".toList (.string inFC.code)) ∧
    F [daObjectRefNodeKey] = some (.shown "string".toList (.string (objectRef ld ln names))) ∧
    ∃ type, m.TypeAt ld ln names inFC type ∧
      F ["MMS Type".toList] = some (.shown "string".toList (.string type.typeString))
  object : inFC = .NONE → F ["FC".toList] = none

theorem newNode_doTree (ref : Str) (names : List Str) :
    NewNode m ld ln names .NONE (doTree ref) := by
  have hnone (k : Str) (r : Path) (hk : k ≠ "Reference".toList) : doTree ref (k :: r) = none :=
    withChildren_of_not_mem (by simpa [eq_comm] using hk) _ _
  refine ⟨fun x fc r => hnone _ _ ?_, hnone _ _ (by decide), fun r => hnone _ _ (by decide),
    fun h => absurd rfl h, fun _ => hnone _ _ (by decide)⟩
  intro heq
  exact fcEntry_not_mem_createdKeys x fc (heq ▸ by decide)

theorem newNode_daTree {names : List Str} {fc : FunctionalConstraint} (hfc : fc.Known)
    {type : MmsType} (htype : m.TypeAt ld ln names fc type) :
    NewNode m ld ln names fc (daTree (objectRef ld ln names) fc type.typeString) := by
  have hkeys {k : Str} {r : Path} (hk : k ∉ ["FC".toList, "Type".toList, "Object".toList,
      "MMS Type".toList, "adddataset".toList]) :
      daTree (objectRef ld ln names) fc type.typeString (k :: r) = none := by
    unfold daTree
    rw [daNodeChildren_of_ne hfc.2]
    refine withChildren_of_not_mem ?_ _ _
    intro c hc heq
    apply hk
    rw [← heq]
    simp only [List.mem_cons, List.not_mem_nil, or_false] at hc
    rcases hc with rfl | rfl | rfl | rfl | rfl <;> simp [daObjectRefNodeKey]
  have hnew := dataAttribute_daTree (objectRef ld ln names) hfc type.typeString
  refine ⟨fun x g r => hkeys ?_, hkeys (by decide), fun r => hkeys (by decide), fun _ =>
    ⟨hnew.fc_eq, hnew.object_eq, type, htype, ?_⟩, fun h => absurd h hfc.2⟩
  · intro hmem
    have hcreated : fcEntry x g ∈ createdKeys := by
      revert hmem
      generalize fcEntry x g = k
      revert k
      decide
    exact fcEntry_not_mem_createdKeys x g hcreated
  · unfold daTree
    rw [daNodeChildren_of_ne hfc.2]
    rfl

/-- What the rounds over the entries `done` made of a node that was `F₀`. -/
structure Rounds (m : ServerModel) (ld ln : Str) (names : List Str) (F₀ : Subtree) (done : List Str)
    (F : Subtree) : Prop where
  entry : ∀ x fc, PlainName x → fc.Known → ((F [fcEntry x fc]).isSome ↔ fcEntry x fc ∈ done)
  noEntry : ∀ x fc, PlainName x → fc.Known → fcEntry x fc ∉ done → ∀ r, F (fcEntry x fc :: r) = none
  below : ∀ x fc, PlainName x → fc.Known → fcEntry x fc ∈ done →
    Built m ld ln (names ++ [x]) fc fun r => F (fcEntry x fc :: r)
  control : (F [controlKey]).isSome ↔ (∃ fc, StatusOf m ld ln names fc) ∧
    ∃ fc, fc.Known ∧ fcEntry operName fc ∈ done
  controlRef : (F [controlKey]).isSome →
    F [daObjectRefNodeKey] = some (.shown "string".toList (.string (objectRef ld ln names)))
  others : ∀ k ∈ ["Value".toList, "MMS Type".toList], ∀ r, F (k :: r) = F₀ (k :: r)

theorem NewNode.rounds {names : List Str} {inFC : FunctionalConstraint} {F : Subtree}
    (h : NewNode m ld ln names inFC F) : Rounds m ld ln names F [] F where
  entry x fc _ _ := by simp [h.entry]
  noEntry x fc _ _ _ r := h.entry x fc r
  below x fc _ _ hmem := by simp at hmem
  control := by simp [h.control]
  controlRef hs := by simp [h.control] at hs
  others _ _ _ := rfl

/-- One more round. -/
theorem Rounds.round {names done : List Str} {F₀ F G : Subtree} (h : Rounds m ld ln names F₀ done F)
    {x : Str} {fc : FunctionalConstraint} (hx : PlainName x) (hfc : fc.Known)
    {children : List (Str × DSNode)}
    (hchildren : (children = [] ∧ (x = operName → ∀ fc, ¬ StatusOf m ld ln names fc)) ∨
      ((∃ type, children = controlChildren type (objectRef ld ln names)) ∧ x = operName ∧
        ∃ fc, StatusOf m ld ln names fc))
    (hG : (G []).isSome) (hbuilt : Built m ld ln (names ++ [x]) fc G) :
    Rounds m ld ln names F₀ (done ++ [fcEntry x fc])
      (set (fcEntry x fc) G (withChildren F children)) := by
  have hcontrol : ControlChildren (objectRef ld ln names) children :=
    hchildren.imp And.left And.left
  have hkey {k : Str} (hk : k ∈ createdKeys) : k ≠ fcEntry x fc := by
    rintro rfl
    exact fcEntry_not_mem_createdKeys x fc hk
  have hentry (y : Str) (g : FunctionalConstraint) (r : Path) (hne : fcEntry y g ≠ fcEntry x fc) :
      set (fcEntry x fc) G (withChildren F children) (fcEntry y g :: r) = F (fcEntry y g :: r) := by
    rw [set_cons_of_ne hne]
    refine withChildren_of_not_mem ?_ _ _
    intro c hc heq
    exact fcEntry_not_mem_createdKeys y g (heq ▸ (hcontrol.created c hc).1)
  have hmem (e : Str) : e ∈ done ++ [fcEntry x fc] ↔ e ∈ done ∨ e = fcEntry x fc := by simp
  refine ⟨?_, ?_, ?_, ?_, ?_, ?_⟩
  · intro y g hy hg
    rw [hmem]
    by_cases heq : fcEntry y g = fcEntry x fc
    · rw [heq, set_cons_self]
      exact iff_of_true hG (.inr rfl)
    · rw [hentry y g _ heq, h.entry y g hy hg]
      simp [heq]
  · intro y g hy hg hdone r
    rw [hmem, not_or] at hdone
    rw [hentry y g _ hdone.2]
    exact h.noEntry y g hy hg hdone.1 r
  · intro y g hy hg hdone
    by_cases heq : fcEntry y g = fcEntry x fc
    · obtain ⟨rfl, rfl⟩ := fcEntry_injective hy.bracket hx.bracket hg hfc heq
      simpa only [set_cons_self] using hbuilt
    · have := h.below y g hy hg (((hmem _).1 hdone).resolve_right heq)
      simpa only [hentry y g _ heq] using this
  · rw [set_cons_of_ne (hkey (by decide))]
    rcases hchildren with ⟨rfl, hno⟩ | ⟨⟨type, rfl⟩, rfl, hstatus⟩
    · show (F [controlKey]).isSome ↔ _
      rw [h.control]
      apply and_congr_right
      rintro ⟨fc', hstatus⟩
      apply exists_congr
      intro g
      apply and_congr_right
      intro hg
      rw [hmem]
      constructor
      · exact .inl
      · rintro (hdone | heq)
        · exact hdone
        · obtain ⟨rfl, -⟩ := fcEntry_injective (by decide) hx.bracket hg hfc heq
          exact absurd hstatus (hno rfl fc')
    · refine iff_of_true rfl ⟨hstatus, fc, hfc, ?_⟩
      simp
  · rw [set_cons_of_ne (hkey (by decide)), set_cons_of_ne (hkey (by decide))]
    rcases hchildren with ⟨rfl, -⟩ | ⟨⟨type, rfl⟩, -, -⟩
    · exact h.controlRef
    · exact fun _ => rfl
  · intro k hk r
    have hcreated : k ∈ createdKeys ∧ k ≠ "control".toList ∧ k ≠ "Object".toList := by
      revert k
      decide
    rw [set_cons_of_ne (hkey hcreated.1), ← h.others k hk r]
    refine withChildren_of_not_mem ?_ _ _
    intro c hc heq
    rcases hcontrol with rfl | ⟨type, rfl⟩
    · simp at hc
    · simp only [controlChildren, List.mem_cons, List.not_mem_nil, or_false] at hc
      rcases hc with rfl | rfl
      · exact hcreated.2.1 heq.symm
      · exact hcreated.2.2 heq.symm

/-! ## The walk -/

/-- A node without entries: a data object stays as it is, and a leaf gets its
`Value` node. -/
theorem discoverLeaf_built (h : Serves svc con m devices variableLists) {names : List Str}
    {inFC : FunctionalConstraint} (hin : inFC = .NONE ∨ m.Has ld ln names inFC)
    (hempty : ∀ x fc, m.Has ld ln (names ++ [x]) fc → ¬ Within inFC fc) {s s' : LinkState σ W}
    {node : Path} (hrun : discoverLeaf svc con s node = .ok s')
    (hnew : NewNode m ld ln names inFC (sub s.tree node)) :
    ∃ F, Grafts s.tree s'.tree node F ∧ F [] = sub s.tree node [] ∧ Built m ld ln names inFC F := by
  have hentry {F : Subtree} (hF : ∀ x fc r, F (fcEntry x fc :: r) = none) (x : Str)
      (fc : FunctionalConstraint) :
      (F [fcEntry x fc]).isSome ↔ m.Has ld ln (names ++ [x]) fc ∧ Within inFC fc := by
    rw [hF]
    exact iff_of_false (by simp) fun hhas => hempty x fc hhas.1 hhas.2
  have hcontrol {F : Subtree} (hF : F [controlKey] = none) : (F [controlKey]).isSome ↔
      (∃ fc, StatusOf m ld ln names fc) ∧ ∃ fc, m.Has ld ln (names ++ [operName]) fc ∧
      Within inFC fc := by
    rw [hF]
    exact iff_of_false (by simp) fun ⟨_, fc, hhas, hwithin⟩ => hempty _ fc hhas hwithin
  have hbelow {F : Subtree} : ∀ x ns fc, m.Has ld ln (names ++ x :: ns) fc → Within inFC fc →
      NodeBuilt m ld ln (names ++ x :: ns) fc fun r =>
        F (fcEntry x fc :: (attrPath fc ns ++ r)) := by
    intro x ns fc hhas hwithin
    refine absurd hwithin (hempty x fc ?_)
    refine ServerModel.Has.of_append ns ?_
    rwa [List.append_assoc]
  rcases hin with rfl | hhas
  · have hattr : attributeOf s.tree node = none := by
      have hfc : lookup s.tree (node ++ ["FC".toList]) = none := hnew.object rfl
      unfold attributeOf child
      rw [hfc]
      rfl
    rw [discoverLeaf, hattr] at hrun
    cases hrun
    exact ⟨_, Grafts.refl _ _, rfl, ⟨fun x fc _ _ => hentry hnew.entry x fc,
      fun x fc _ _ _ r => hnew.entry x fc r, hcontrol hnew.control,
      fun hs => by simp [hnew.control] at hs, fun hne => absurd rfl hne, fun _ hne =>
        absurd rfl hne,
      fun _ => hnew.value⟩, hbelow⟩
  · have hknown := hhas.names_ok.2.2.1
    obtain ⟨type, hleaf⟩ : ∃ type, m.LeafAt ld ln names inFC type := by
      rcases hhas.cases with hleaf | ⟨x, hx⟩
      · exact hleaf
      · exact absurd (.inr rfl) (hempty x inFC hx)
    obtain ⟨hfc, href, type', htype', htypeNode⟩ := hnew.shown hknown.2
    have hattr : attributeOf s.tree node = some (some inFC.code, some (objectRef ld ln names)) :=
      attributeOf_shown hfc href
    obtain ⟨type'', hspec, hat⟩ := h.specification s.world ld ln names inFC hhas
    have hcode : FunctionalConstraint.fromString inFC.code = inFC := by
      simpa using FunctionalConstraint.fromString_code hknown []
    rw [discoverLeaf, hattr] at hrun
    simp only [deref, ok_bind, hcode, if_neg hknown.2, call] at hrun
    rw [hspec] at hrun
    cases hrun
    rw [(hat.eq_of_leaf hleaf).2]
    have hset (k : Str) (r : Path) (hk : k ≠ daValueRefNodeKey) :
        set daValueRefNodeKey (valueTree inFC type) (sub s.tree node) (k :: r) =
          sub s.tree node (k :: r) :=
      set_cons_of_ne hk _ _ _
    have hentryKey (x : Str) (fc : FunctionalConstraint) : fcEntry x fc ≠ daValueRefNodeKey := by
      intro heq
      exact fcEntry_not_mem_createdKeys x fc (heq ▸ by decide)
    have hnone (x : Str) (fc : FunctionalConstraint) (r : Path) :
        set daValueRefNodeKey (valueTree inFC type) (sub s.tree node) (fcEntry x fc :: r) =
          none := by
      rw [hset _ _ (hentryKey x fc)]
      exact hnew.entry x fc r
    have hno : set daValueRefNodeKey (valueTree inFC type) (sub s.tree node) [controlKey] =
        none := by
      rw [hset _ _ (by decide)]
      exact hnew.control
    refine ⟨_, (grafts_createValueNode s.tree node inFC type).up, rfl,
      ⟨fun x fc _ _ => hentry hnone x fc, fun x fc _ _ _ r => hnone x fc r, hcontrol hno,
        fun hs => by simp [hno] at hs, fun _ => ⟨type', htype', ?_⟩, fun type₁ _ hleaf₁ r => ?_,
        fun hcase => ?_⟩, hbelow⟩
    · rw [hset _ _ (by decide)]
      exact htypeNode
    · rw [set_cons_self, (hleaf.eq hleaf₁).2]
    · rcases hcase with hcase | hcase
      · exact absurd hcase hknown.2
      · exact absurd hleaf (hcase type)

/-- **The walk.** A walk that comes back has built what the model has below the
reference, and nothing else is touched. -/
theorem discoverDataDirectory_built (h : Serves svc con m devices variableLists) (depth : ℕ) :
    ∀ (names : List Str) (inFC : FunctionalConstraint) (s s' : LinkState σ W) (node : Path),
      Named m devices ld ln names → (objectRef ld ln names).length < 129 →
      (inFC = .NONE ∨ m.Has ld ln names inFC) → NewNode m ld ln names inFC (sub s.tree node) →
      discoverDataDirectory svc con (some 129) depth s node (objectRef ld ln names) inFC = .ok s' →
      ∃ F, Grafts s.tree s'.tree node F ∧ F [] = sub s.tree node [] ∧
        Built m ld ln names inFC F := by
  induction depth with
  | zero => intro names inFC s s' node _ _ _ _ hrun; cases hrun
  | succ depth ih =>
    intro names inFC s s' node hnamed hshort hin hnew hrun
    have hknown : inFC = .NONE ∨ inFC.Known := hin.imp id fun hhas => hhas.names_ok.2.2.1
    obtain ⟨l, hl, hnodup, hmem⟩ := h.entriesOf hnamed hshort hknown s.world
    unfold discoverDataDirectory at hrun
    dsimp only [call] at hrun
    rw [hl] at hrun
    cases l with
    | nil =>
      dsimp only at hrun
      have hempty : ∀ x fc, m.Has ld ln (names ++ [x]) fc → ¬ Within inFC fc := by
        intro x fc hhas hwithin
        have := (hmem (fcEntry x fc)).2 ⟨x, fc, hhas, hwithin, rfl⟩
        simp at this
      have hleaf := discoverLeaf_built h hin hempty hrun
      exact hleaf hnew
    | cons e es =>
      dsimp only at hrun
      have hI := fun hstart hstep => foldlM_progress
        (I := fun done (s' : LinkState σ W) => ∃ F, Grafts s.tree s'.tree node F ∧
          F [] = sub s.tree node [] ∧ Rounds m ld ln names (sub s.tree node) done F)
            hstart hstep hrun
      have hI := hI ⟨_, Grafts.refl _ _, rfl, hnew.rounds⟩ ?_
      · obtain ⟨F, hgrafts, hroot, hrounds⟩ := hI
        have hlisted {x : Str} {fc : FunctionalConstraint} (hx : '[' ∉ x) (hfc : fc.Known) :
            fcEntry x fc ∈ e :: es ↔ m.Has ld ln (names ++ [x]) fc ∧ Within inFC fc := by
          rw [hmem]
          constructor
          · rintro ⟨y, g, hhas, hwithin, heq⟩
            obtain ⟨-, -, hg, hy⟩ := hhas.names_ok
            obtain ⟨rfl, rfl⟩ := fcEntry_injective hx (hy y (by simp)).plain.bracket hfc hg heq
            exact ⟨hhas, hwithin⟩
          · rintro ⟨hhas, hwithin⟩
            exact ⟨x, fc, hhas, hwithin, rfl⟩
        refine ⟨F, hgrafts, hroot, ⟨?_, ?_, ?_, hrounds.controlRef, ?_, ?_, ?_⟩, ?_⟩
        · intro x fc hx hfc
          rw [hrounds.entry x fc hx hfc, hlisted hx.bracket hfc]
        · intro x fc hx hfc hno
          exact hrounds.noEntry x fc hx hfc (mt (hlisted hx.bracket hfc).1 hno)
        · rw [hrounds.control]
          apply and_congr_right
          rintro -
          apply exists_congr
          intro fc
          constructor
          · rintro ⟨hfc, hmem'⟩
            exact (hlisted (by decide) hfc).1 hmem'
          · rintro hhas
            have hfc := hhas.1.names_ok.2.2.1
            exact ⟨hfc, (hlisted (by decide) hfc).2 hhas⟩
        · intro hne
          obtain ⟨-, -, type, htype, hnode⟩ := hnew.shown hne
          refine ⟨type, htype, ?_⟩
          rw [hrounds.others _ (by simp)]
          exact hnode
        · -- something is listed, so the reference is no leaf
          intro type hne hleaf r
          obtain ⟨x, fc, hhas, -, -⟩ := (hmem e).1 List.mem_cons_self
          exact absurd hhas hleaf.not_has
        · intro _ r
          rw [hrounds.others _ (by simp [daValueRefNodeKey])]
          exact hnew.value r
        · intro x ns fc hhas hwithin
          obtain ⟨-, -, hfc, hx⟩ := hhas.names_ok
          have hhas' : m.Has ld ln (names ++ [x]) fc := by
            refine ServerModel.Has.of_append ns ?_
            rwa [List.append_assoc]
          have hbuilt := hrounds.below x fc (hx x (by simp)).plain hfc
            ((hmem _).2 ⟨x, fc, hhas', hwithin, rfl⟩)
          cases ns with
          | nil => exact hbuilt.node
          | cons y ns =>
            have := hbuilt.below y ns fc (by rwa [List.append_assoc]) (.inr rfl)
            rwa [List.append_assoc] at this
      · rintro done e' rest heq s₀ s₂ ⟨F, hgrafts, hroot, hrounds⟩ hround
        obtain ⟨x, fc, hhas, hwithin, rfl⟩ := (hmem e').1 (by rw [heq]; simp)
        have hx := (hhas.names_ok.2.2.2 x (by simp)).plain
        have hfc := hhas.names_ok.2.2.1
        obtain ⟨s₁, h₁, h₂⟩ := bind_eq_ok.1 hround
        have hstored := storedEntry hx.bracket h₁
        rw [entryRef_fcEntry hx.bracket, entryFC_fcEntry hx.bracket hfc,
          entryKey_fcEntry hx.bracket hfc, ← objectRef_append] at h₂
        obtain ⟨type, children, htype, -, htree, hchildren⟩ :=
          discoverEntry_served h hnamed hshort hhas h₁
        obtain ⟨hsub, hup⟩ := grafts_entry (hchildren.imp And.left And.left) htree
        obtain ⟨G, hG, hGroot, hbuilt⟩ := ih (names ++ [x]) fc s₁ s₂ _
          (hnamed.append (hhas.names_ok.2.2.2 x (by simp))) hstored (.inr hhas)
          (by rw [hsub]; exact newNode_daTree hfc htype) h₂
        have hnext := hup _ _ hG
        rw [hgrafts.sub_eq] at hnext
        refine ⟨_, hgrafts.trans hnext, ?_, hrounds.round hx hfc hchildren ?_ hbuilt⟩
        · rw [set_nil, withChildren_nil, hroot]
        · rw [hGroot, hsub, daTree, withChildren_nil]
          rfl

end DslinkIec61850
