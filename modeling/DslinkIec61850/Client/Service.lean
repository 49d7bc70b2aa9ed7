import DslinkIec61850.Client.Model

/-!
# Serving a model

Every server model can be served: the variables of its devices are listed, and the
library's functions answer out of the list. The service is what concrete
discoveries are evaluated on.

* `mem_leaves`: the leaves of a tree.
* `serves_service`: the service serves its model.
-/

namespace DslinkIec61850

open Strings

/-! ## Leaves -/

namespace AttributeTree

mutual

/-- The leaves of a tree with their paths. -/
def leaves : AttributeTree → List (List Str × FunctionalConstraint × MmsType)
  | .leaf fc type => [([], fc, type)]
  | .node components => leavesOf components

/-- The leaves of a list of components. -/
def leavesOf : List (Str × AttributeTree) → List (List Str × FunctionalConstraint × MmsType)
  | [] => []
  | (n, c) :: components => (leaves c).map (fun l => (n :: l.1, l.2)) ++ leavesOf components

end

theorem mem_leavesOf {components : List (Str × AttributeTree)}
    {l : List Str × FunctionalConstraint × MmsType} :
    l ∈ leavesOf components ↔ ∃ c ∈ components, ∃ names, (names, l.2) ∈ leaves c.2 ∧
    l.1 = c.1 :: names := by
  induction components with
  | nil => simp [leavesOf]
  | cons c cs ih =>
    obtain ⟨n, c⟩ := c
    rw [leavesOf, List.mem_append, List.mem_map, ih]
    simp only [List.mem_cons, exists_eq_or_imp]
    apply or_congr_left
    constructor
    · rintro ⟨l', hl', rfl⟩
      exact ⟨l'.1, hl', rfl⟩
    · rintro ⟨names, hmem, hnames⟩
      exact ⟨(names, l.2), hmem, Prod.ext hnames.symm rfl⟩

/-- The leaves are listed. -/
theorem LeafAt.mem_leaves {t : AttributeTree} {names : List Str} {fc : FunctionalConstraint}
    {type : MmsType} (h : LeafAt fc type t names) : (names, fc, type) ∈ leaves t := by
  induction h with
  | leaf => simp [leaves]
  | node hmem _ ih =>
    rw [leaves, mem_leavesOf]
    exact ⟨_, hmem, _, ih, rfl⟩

/-- What is listed is a leaf. -/
theorem leafAt_of_mem (names : List Str) : ∀ {t : AttributeTree} {fc : FunctionalConstraint}
    {type : MmsType}, (names, fc, type) ∈ leaves t → LeafAt fc type t names := by
  induction names with
  | nil =>
    intro t fc type h
    cases t with
    | leaf fc' type' =>
      simp only [leaves, List.mem_singleton, Prod.mk.injEq, true_and] at h
      obtain ⟨rfl, rfl⟩ := h
      exact .leaf
    | node components =>
      rw [leaves, mem_leavesOf] at h
      obtain ⟨c, -, names, -, hnames⟩ := h
      cases hnames
  | cons n names ih =>
    intro t fc type h
    cases t with
    | leaf fc' type' => simp [leaves] at h
    | node components =>
      rw [leaves, mem_leavesOf] at h
      obtain ⟨c, hc, names', hmem, hnames⟩ := h
      cases hnames
      exact .node hc (ih hmem)

theorem mem_leaves {t : AttributeTree} {names : List Str} {fc : FunctionalConstraint}
    {type : MmsType} : (names, fc, type) ∈ leaves t ↔ LeafAt fc type t names :=
  ⟨leafAt_of_mem names, LeafAt.mem_leaves⟩

end AttributeTree

/-! ## Variables -/

/-- An attribute of a server: device, node, path, constraint and type. -/
structure Attribute where
  ld : Str
  ln : Str
  names : List Str
  fc : FunctionalConstraint
  type : MmsType

namespace ServerModel

variable {m : ServerModel} {ld ln : Str} {names : List Str} {fc : FunctionalConstraint}

/-- The attributes that a leaf stands for: itself and the structures above it. -/
def attributesOf (ld ln : Str) (leaf : List Str × FunctionalConstraint × MmsType) :
    List Attribute :=
  leaf.1.inits.map fun names =>
    { ld := ld, ln := ln, names := names, fc := leaf.2.1,
      type := if names = leaf.1 then leaf.2.2 else .struct }

/-- The attributes of a server. -/
def attributes (m : ServerModel) : List Attribute :=
  m.devices.flatMap fun d => d.nodes.flatMap fun l =>
    l.tree.leaves.flatMap fun leaf => attributesOf d.name l.name leaf

theorem mem_attributes {a : Attribute} : a ∈ m.attributes ↔ ∃ rest type,
    m.LeafAt a.ld a.ln (a.names ++ rest) a.fc type ∧
    a.type = if rest = [] then type else .struct := by
  simp only [attributes, attributesOf, List.mem_flatMap, List.mem_map, List.mem_inits]
  constructor
  · rintro ⟨d, hd, l, hl, ⟨names, fc, type⟩, hleaf, ns, ⟨rest, hrest⟩, rfl⟩
    refine ⟨rest, type, ⟨l, ⟨d, hd, rfl, hl, rfl⟩, ?_⟩, ?_⟩
    · rw [hrest]
      exact AttributeTree.mem_leaves.1 hleaf
    · rw [← hrest]
      simp
  · rintro ⟨rest, type, ⟨l, ⟨d, hd, hdn, hl, hln⟩, hleaf⟩, htype⟩
    refine ⟨d, hd, l, hl, (a.names ++ rest, a.fc, type), AttributeTree.mem_leaves.2 hleaf, a.names,
      List.prefix_append _ _, ?_⟩
    obtain ⟨ald, aln, anames, afc, atype⟩ := a
    dsimp only at hdn hln htype ⊢
    rw [hdn, hln, htype]
    simp

/-- The variables of a device. -/
def variablesOf (m : ServerModel) (d : DeviceModel) : List Str :=
  d.nodes.map NodeModel.name ++
    (m.attributes.filter fun a => a.ld = d.name).map fun a => mmsName a.ln (a.fc.code :: a.names)

/-- The devices as the library has read them. -/
def logicalDevices (m : ServerModel) : LogicalDevices :=
  m.devices.map fun d => (d.name, m.variablesOf d)

theorem has_iff : m.Has ld ln names fc ↔ ∃ a ∈ m.attributes, a.ld = ld ∧ a.ln = ln ∧
    a.names = names ∧ a.fc = fc := by
  constructor
  · rintro ⟨rest, type, hleaf⟩
    exact ⟨⟨ld, ln, names, fc, if rest = [] then type else .struct⟩,
      mem_attributes.2 ⟨rest, type, hleaf, rfl⟩, rfl, rfl, rfl, rfl⟩
  · rintro ⟨a, ha, rfl, rfl, rfl, rfl⟩
    obtain ⟨rest, type, hleaf, -⟩ := mem_attributes.1 ha
    exact ⟨rest, type, hleaf⟩

theorem mem_variablesOf {d : DeviceModel} (hd : d ∈ m.devices) {v : Str} :
    v ∈ m.variablesOf d ↔ ∃ ln names, m.Variable d.name ln names ∧ v = mmsName ln names := by
  simp only [variablesOf, List.mem_append, List.mem_map, List.mem_filter, decide_eq_true_eq]
  constructor
  · rintro (⟨l, hl, rfl⟩ | ⟨a, ⟨ha, had⟩, rfl⟩)
    · exact ⟨l.name, [], ⟨l, d, hd, rfl, hl, rfl⟩, by simp [mmsName]⟩
    · exact ⟨a.ln, a.fc.code :: a.names, ⟨a.fc, has_iff.2 ⟨a, ha, had, rfl, rfl, rfl⟩, rfl⟩, rfl⟩
  · rintro ⟨ln, names, hv, rfl⟩
    cases names with
    | nil =>
      obtain ⟨l, d', hd', hdn, hl, rfl⟩ := hv
      obtain rfl := List.inj_on_of_nodup_map m.distinct hd' hd hdn
      exact .inl ⟨l, hl, by simp [mmsName]⟩
    | cons code names =>
      obtain ⟨fc, hhas, rfl⟩ := hv
      obtain ⟨a, ha, had, rfl, rfl, rfl⟩ := has_iff.1 hhas
      exact .inr ⟨a, ⟨ha, had⟩, rfl⟩

theorem lists_logicalDevices (m : ServerModel) : Lists m.logicalDevices m where
  distinct := by
    have hnames : m.logicalDevices.map Prod.fst = m.devices.map DeviceModel.name := by
      simp [logicalDevices]
    show (m.logicalDevices.map Prod.fst).Nodup
    rw [hnames]
    exact m.distinct
  device ld := by simp [logicalDevices]
  listed ld vars hmem v := by
    obtain ⟨d, hd, heq⟩ := List.mem_map.1 hmem
    cases heq
    exact mem_variablesOf hd

/-! ## The service -/

/-- The type of an attribute found by its reference. -/
def specificationOf (m : ServerModel) (ref : Str) (fc : FunctionalConstraint) : Option MmsType :=
  (m.attributes.find? fun a => objectRef a.ld a.ln a.names = ref ∧ a.fc = fc).map Attribute.type

/-- The server with the named variable lists `variableLists`; it has no report
control blocks and refuses every change. -/
def service (m : ServerModel) (variableLists : Str → Option (List Str)) : IedService Unit :=
  { IedService.silent Unit with
    getLogicalDeviceList := fun w _ => (some (m.logicalDevices.map Prod.fst), w)
    getLogicalDeviceDirectory := fun w _ ld => (m.logicalDevices.getLogicalDeviceDirectory ld, w)
    getLogicalNodeDirectory := fun w _ ref acsiClass =>
      (m.logicalDevices.getLogicalNodeDirectory variableLists ref acsiClass, w)
    getDataDirectoryFC := fun w _ ref => (m.logicalDevices.getDataDirectoryFC ref, w)
    getDataDirectoryByFC := fun w _ ref fc => (m.logicalDevices.getDataDirectoryByFC ref fc, w)
    getVariableSpecification := fun w _ ref fc => (m.specificationOf ref fc, w) }

end ServerModel

/-- References of plain names are different. -/
theorem objectRef_injective {ld ld' ln ln' : Str} {names names' : List Str} (hld : '/' ∉ ld)
    (hld' : '/' ∉ ld') (hln : '.' ∉ ln) (hln' : '.' ∉ ln') (hnames : ∀ n ∈ names, '.' ∉ n)
    (hnames' : ∀ n ∈ names', '.' ∉ n) (h : objectRef ld ln names = objectRef ld' ln' names') :
    ld = ld' ∧ ln = ln' ∧ names = names' := by
  obtain ⟨hdevice, hrest⟩ := (append_cons_inj hld hld').1 h
  obtain ⟨hnode, hpath⟩ := (append_prefixed_inj hln hln').1 hrest
  exact ⟨hdevice, hnode, prefixed_injective hnames hnames' hpath⟩

namespace ServerModel

variable {m : ServerModel}

theorem Has.objectRef_injective {ld ld' ln ln' : Str} {names names' : List Str}
    {fc fc' : FunctionalConstraint} (h : m.Has ld ln names fc) (h' : m.Has ld' ln' names' fc')
    (heq : objectRef ld ln names = objectRef ld' ln' names') :
    ld = ld' ∧ ln = ln' ∧ names = names' := by
  obtain ⟨hld, hln, -, hnames⟩ := h.names_ok
  obtain ⟨hld', hln', -, hnames'⟩ := h'.names_ok
  exact DslinkIec61850.objectRef_injective hld.plain.slash hld'.plain.slash hln.plain.dot
    hln'.plain.dot (fun n hn => (hnames n hn).plain.dot) (fun n hn => (hnames' n hn).plain.dot) heq

theorem specificationOf_eq {ld ln : Str} {names : List Str} {fc : FunctionalConstraint}
    (h : m.Has ld ln names fc) :
    ∃ type, m.specificationOf (objectRef ld ln names) fc = some type ∧
      m.TypeAt ld ln names fc type := by
  obtain ⟨a, ha, rfl, rfl, rfl, rfl⟩ := has_iff.1 h
  have hfound : (m.attributes.find? fun b =>
      objectRef b.ld b.ln b.names = objectRef a.ld a.ln a.names ∧ b.fc = a.fc).isSome := by
    rw [List.find?_isSome]
    exact ⟨a, ha, by simp⟩
  obtain ⟨b, hb⟩ := Option.isSome_iff_exists.1 hfound
  have hmem := List.mem_of_find?_eq_some hb
  have hprop := List.find?_some hb
  rw [decide_eq_true_eq] at hprop
  obtain ⟨hld, hln, hnames⟩ :=
    Has.objectRef_injective (has_iff.2 ⟨b, hmem, rfl, rfl, rfl, rfl⟩) h hprop.1
  refine ⟨b.type, by rw [specificationOf, hb]; rfl, ?_⟩
  obtain ⟨rest, type, hleaf, htype⟩ := mem_attributes.1 hmem
  rw [hld, hln, hnames, hprop.2] at hleaf
  cases rest with
  | nil =>
    rw [if_pos rfl] at htype
    rw [List.append_nil] at hleaf
    exact .inl (htype ▸ hleaf)
  | cons x rest =>
    rw [if_neg (by simp)] at htype
    exact .inr ⟨htype, x, rest, type, by simpa using hleaf⟩

/-- **Service.** Every model is served. -/
theorem serves_service (m : ServerModel) {variableLists : Str → Option (List Str)}
    (hlists : ∀ ld, (variableLists ld).isSome = true) (con : ConnId) :
    Serves (m.service variableLists) con m m.logicalDevices variableLists where
  lists := m.lists_logicalDevices
  deviceList _ := rfl
  deviceDirectory _ _ := rfl
  variableLists_isSome ld _ := hlists ld
  nodeDirectory _ _ _ := rfl
  dataDirectoryFC _ _ := rfl
  dataDirectoryByFC _ _ _ := rfl
  specification _ _ _ _ _ hhas := specificationOf_eq hhas

end ServerModel

/-! ## A server with a control block -/

/-- A logical node with a status and an unbuffered control block. -/
def blockNode : NodeModel where
  name := "N".toList
  objects := [("P".toList, [("stVal".toList, .leaf .ST .boolean)]),
    ("urcb".toList, [("RptID".toList, .leaf .RP .visibleString)])]

theorem blockNode_ok : ModelName blockNode.name ∧ blockNode.tree.Ok := by
  have hstatus : AttributeTree.Ok (.node [("stVal".toList, .leaf .ST .boolean)]) :=
    .node (by decide) (by decide) (by simpa using .leaf (by decide))
  have hblock : AttributeTree.Ok (.node [("RptID".toList, .leaf .RP .visibleString)]) :=
    .node (by decide) (by decide) (by simpa using .leaf (by decide))
  exact ⟨by decide, .node (by decide) (by decide) (by simpa [blockNode] using ⟨hstatus, hblock⟩)⟩

theorem modelName_D : ModelName "D".toList := by decide

/-- A server with this logical node. -/
def blockServer : ServerModel := .single "D".toList blockNode modelName_D blockNode_ok

/-- The service of this server. -/
def blockService : IedService Unit := blockServer.service fun _ => some []

end DslinkIec61850
