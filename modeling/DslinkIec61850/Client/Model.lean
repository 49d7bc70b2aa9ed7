import DslinkIec61850.Client.Directory
import DslinkIec61850.Discovery.Shape

/-!
# Server models

A server is modelled by its logical devices, their logical nodes, the data
objects of these, and the attribute trees of the data objects; a leaf of such a
tree has a constraint and a type. The reference of an attribute is there under a
constraint when a leaf at or below it has the constraint. `Serves` says that the
client library answers out of such a model and that every call succeeds.

* `ServerModel.LeafAt.unique`: a leaf has one constraint and one type, and nothing
  below it.
* `Serves.entries`: the entries listed for a reference.
-/

namespace DslinkIec61850

open Strings LogicalDevices

/-! ## Attribute trees -/

/-- An attribute: a leaf with its constraint and its type, or named components. -/
inductive AttributeTree where
  | leaf (fc : FunctionalConstraint) (type : MmsType)
  | node (components : List (Str × AttributeTree))

/-- A name of a model is not a key of the link's own. -/
def ModelName (n : Str) : Prop := NameChars n ∧ n ∉ createdKeys

instance (n : Str) : Decidable (ModelName n) :=
  inferInstanceAs (Decidable ((n ≠ [] ∧ ∀ c ∈ n, c.isAlphanum = true ∨ c = '_') ∧ n ∉ createdKeys))

theorem ModelName.plain {n : Str} (h : ModelName n) : PlainName n :=
  ⟨h.1.1, h.1.not_mem (by decide) (by decide), h.1.not_mem (by decide) (by decide),
    h.1.not_mem (by decide) (by decide), h.2⟩

theorem ModelName.dollar {n : Str} (h : ModelName n) : '$' ∉ n :=
  h.1.not_mem (by decide) (by decide)

namespace AttributeTree

variable {fc fc' : FunctionalConstraint} {type type' : MmsType} {t : AttributeTree}

/-- The leaf at a path. -/
inductive LeafAt (fc : FunctionalConstraint) (type : MmsType) : AttributeTree → List Str → Prop
  | leaf : LeafAt fc type (leaf fc type) []
  | node {components : List (Str × AttributeTree)} {n : Str} {c : AttributeTree}
      {names : List Str} :
      (n, c) ∈ components → LeafAt fc type c names → LeafAt fc type (node components) (n :: names)

/-- The components of a node have different names of the model, and the constraints
are known. -/
inductive Ok : AttributeTree → Prop
  | leaf {fc : FunctionalConstraint} {type : MmsType} : fc.Known → Ok (leaf fc type)
  | node {components : List (Str × AttributeTree)} : Keyed.Distinct Prod.fst components →
      (∀ c ∈ components, ModelName c.1) → (∀ c ∈ components, Ok c.2) → Ok (node components)

theorem LeafAt.known {names : List Str} (hleaf : LeafAt fc type t names) (h : Ok t) : fc.Known := by
  induction hleaf with
  | leaf =>
    cases h with
    | leaf hfc => exact hfc
  | node hmem _ ih =>
    cases h with
    | node _ _ hok => exact ih (hok _ hmem)

theorem LeafAt.names_ok {names : List Str} (hleaf : LeafAt fc type t names) (h : Ok t) :
    ∀ n ∈ names, ModelName n := by
  induction hleaf with
  | leaf => simp
  | node hmem _ ih =>
    cases h with
    | node _ hnames hok => exact List.forall_mem_cons.2 ⟨hnames _ hmem, ih (hok _ hmem)⟩

/-- Below a leaf there is nothing. -/
theorem LeafAt.unique {names rest : List Str} (hleaf : LeafAt fc type t names) (h : Ok t)
    (hleaf' : LeafAt fc' type' t (names ++ rest)) : rest = [] ∧ fc' = fc ∧ type' = type := by
  induction hleaf with
  | leaf =>
    cases hleaf' with
    | leaf => exact ⟨rfl, rfl, rfl⟩
  | node hmem _ ih =>
    cases h with
    | node hdistinct _ hok =>
      cases hleaf' with
      | node hmem' hbelow =>
        have heq := List.inj_on_of_nodup_map hdistinct hmem hmem' rfl
        cases heq
        exact ih (hok _ hmem) hbelow

end AttributeTree

/-! ## Servers -/

/-- A logical node: its data objects with their components. -/
structure NodeModel where
  name : Str
  objects : List (Str × List (Str × AttributeTree))

/-- The data objects of a logical node as a tree. -/
def NodeModel.tree (l : NodeModel) : AttributeTree :=
  .node (l.objects.map fun o => (o.1, .node o.2))

/-- A logical device. -/
structure DeviceModel where
  name : Str
  nodes : List NodeModel

/-- A server. -/
structure ServerModel where
  devices : List DeviceModel
  distinct : Keyed.Distinct DeviceModel.name devices
  device_ok : ∀ d ∈ devices, ModelName d.name ∧ Keyed.Distinct NodeModel.name d.nodes
  node_ok : ∀ d ∈ devices, ∀ l ∈ d.nodes, ModelName l.name ∧ l.tree.Ok

namespace ServerModel

/-- A server with one logical node. -/
def single (ld : Str) (l : NodeModel) (hld : ModelName ld) (hl : ModelName l.name ∧ l.tree.Ok) :
    ServerModel where
  devices := [{ name := ld, nodes := [l] }]
  distinct := by simp [Keyed.Distinct]
  device_ok := by simp [Keyed.Distinct, hld]
  node_ok := by simpa using hl

variable {m : ServerModel} {ld ln : Str} {names : List Str} {fc fc' : FunctionalConstraint}
  {type type' : MmsType}

/-- The logical node of a device. -/
def NodeOf (m : ServerModel) (ld ln : Str) (l : NodeModel) : Prop :=
  ∃ d ∈ m.devices, d.name = ld ∧ l ∈ d.nodes ∧ l.name = ln

/-- The leaf with a reference. -/
def LeafAt (m : ServerModel) (ld ln : Str) (names : List Str) (fc : FunctionalConstraint)
    (type : MmsType) : Prop :=
  ∃ l, m.NodeOf ld ln l ∧ AttributeTree.LeafAt fc type l.tree names

/-- The reference is there under the constraint. -/
def Has (m : ServerModel) (ld ln : Str) (names : List Str) (fc : FunctionalConstraint) : Prop :=
  ∃ rest type, m.LeafAt ld ln (names ++ rest) fc type

theorem NodeOf.unique {l l' : NodeModel} (h : m.NodeOf ld ln l) (h' : m.NodeOf ld ln l') :
    l = l' := by
  obtain ⟨d, hd, hdn, hl, hln⟩ := h
  obtain ⟨d', hd', hdn', hl', hln'⟩ := h'
  obtain rfl := List.inj_on_of_nodup_map m.distinct hd hd' (hdn.trans hdn'.symm)
  exact List.inj_on_of_nodup_map (m.device_ok d hd).2 hl hl' (hln.trans hln'.symm)

theorem NodeOf.ok {l : NodeModel} (h : m.NodeOf ld ln l) :
    ModelName ld ∧ ModelName ln ∧ l.tree.Ok := by
  obtain ⟨d, hd, rfl, hl, rfl⟩ := h
  exact ⟨(m.device_ok d hd).1, m.node_ok d hd l hl⟩

theorem LeafAt.has (h : m.LeafAt ld ln names fc type) : m.Has ld ln names fc :=
  ⟨[], type, by rwa [List.append_nil]⟩

theorem LeafAt.unique {rest : List Str} (h : m.LeafAt ld ln names fc type)
    (h' : m.LeafAt ld ln (names ++ rest) fc' type') : rest = [] ∧ fc' = fc ∧ type' = type := by
  obtain ⟨l, hl, hleaf⟩ := h
  obtain ⟨l', hl', hleaf'⟩ := h'
  obtain rfl := hl.unique hl'
  exact hleaf.unique hl.ok.2.2 hleaf'

/-- A leaf has one constraint and one type. -/
theorem LeafAt.eq (h : m.LeafAt ld ln names fc type) (h' : m.LeafAt ld ln names fc' type') :
    fc' = fc ∧ type' = type := by
  rw [← List.append_nil names] at h'
  exact (h.unique h').2

/-- A data object is no leaf. -/
theorem LeafAt.length (h : m.LeafAt ld ln names fc type) : ∃ n x ns, names = n :: x :: ns := by
  obtain ⟨l, -, hleaf⟩ := h
  unfold NodeModel.tree at hleaf
  cases hleaf with
  | node hmem hbelow =>
    obtain ⟨o, -, ho⟩ := List.mem_map.1 hmem
    cases ho
    cases hbelow with
    | node _ _ => exact ⟨_, _, _, rfl⟩

theorem Has.of_append (rest : List Str) (h : m.Has ld ln (names ++ rest) fc) :
    m.Has ld ln names fc := by
  obtain ⟨rest', type, h⟩ := h
  exact ⟨rest ++ rest', type, by rwa [← List.append_assoc]⟩

theorem Has.names_ok (h : m.Has ld ln names fc) :
    ModelName ld ∧ ModelName ln ∧ fc.Known ∧ ∀ n ∈ names, ModelName n := by
  obtain ⟨rest, type, l, hl, hleaf⟩ := h
  obtain ⟨hld, hln, hok⟩ := hl.ok
  exact ⟨hld, hln, hleaf.known hok, fun n hn => hleaf.names_ok hok n (List.mem_append_left _ hn)⟩

/-- A reference is a leaf or has a component. -/
theorem Has.cases (h : m.Has ld ln names fc) :
    (∃ type, m.LeafAt ld ln names fc type) ∨ ∃ x, m.Has ld ln (names ++ [x]) fc := by
  obtain ⟨rest, type, h⟩ := h
  cases rest with
  | nil => exact .inl ⟨type, by simpa using h⟩
  | cons x rest => exact .inr ⟨x, rest, type, by simpa using h⟩

/-- A leaf has no components. -/
theorem LeafAt.not_has {x : Str} (h : m.LeafAt ld ln names fc type) :
    ¬ m.Has ld ln (names ++ [x]) fc' := by
  rintro ⟨rest, type', h'⟩
  rw [List.append_assoc] at h'
  have := (h.unique h').1
  simp at this

/-- The type of an attribute: that of the leaf, or a structure. -/
def TypeAt (m : ServerModel) (ld ln : Str) (names : List Str) (fc : FunctionalConstraint)
    (type : MmsType) : Prop :=
  m.LeafAt ld ln names fc type ∨ (type = .struct ∧ ∃ x, m.Has ld ln (names ++ [x]) fc)

theorem TypeAt.eq_of_leaf (h : m.TypeAt ld ln names fc type)
    (hleaf : m.LeafAt ld ln names fc' type') : fc = fc' ∧ type = type' := by
  rcases h with h | ⟨-, x, hx⟩
  · exact hleaf.eq h
  · exact absurd hx hleaf.not_has

/-- The names of the MMS variables of a device. -/
def Variable (m : ServerModel) (ld ln : Str) : List Str → Prop
  | [] => ∃ l, m.NodeOf ld ln l
  | code :: names => ∃ fc, m.Has ld ln names fc ∧ fc.code = code

end ServerModel

/-! ## What is served -/

/-- The devices with their variables are those of the model. -/
structure Lists (devices : LogicalDevices) (m : ServerModel) : Prop where
  distinct : Keyed.Distinct Prod.fst devices
  device : ∀ ld, ld ∈ devices.map Prod.fst ↔ ld ∈ m.devices.map DeviceModel.name
  listed : ∀ ld vars, (ld, vars) ∈ devices → ∀ v,
    v ∈ vars ↔ ∃ ln names, m.Variable ld ln names ∧ v = mmsName ln names

variable {W : Type}

/-- The library answers out of the model and every call succeeds. -/
structure Serves (svc : IedService W) (con : ConnId) (m : ServerModel) (devices : LogicalDevices)
    (variableLists : Str → Option (List Str)) : Prop where
  lists : Lists devices m
  deviceList : ∀ w, (svc.getLogicalDeviceList w con).1 = some (devices.map Prod.fst)
  deviceDirectory : ∀ w ld, (svc.getLogicalDeviceDirectory w con ld).1 =
    LogicalDevices.getLogicalDeviceDirectory devices ld
  variableLists_isSome : ∀ ld ∈ devices.map Prod.fst, (variableLists ld).isSome = true
  nodeDirectory : ∀ w ref acsiClass, (svc.getLogicalNodeDirectory w con ref acsiClass).1 =
    LogicalDevices.getLogicalNodeDirectory devices variableLists ref acsiClass
  dataDirectoryFC : ∀ w ref, (svc.getDataDirectoryFC w con ref).1 =
    LogicalDevices.getDataDirectoryFC devices ref
  dataDirectoryByFC : ∀ w ref fc, (svc.getDataDirectoryByFC w con ref fc).1 =
    LogicalDevices.getDataDirectoryByFC devices ref fc
  specification : ∀ w ld ln names fc, m.Has ld ln names fc →
    ∃ type, (svc.getVariableSpecification w con (objectRef ld ln names) fc).1 = some type ∧
      m.TypeAt ld ln names fc type

namespace Lists

variable {devices : LogicalDevices} {m : ServerModel} {ld : Str}

theorem names (h : Lists devices m) {vars : List Str} (hvars : variablesOf devices ld = some vars) :
    Names vars (m.Variable ld) where
  mem := by
    obtain ⟨e, he, rfl⟩ := Option.map_eq_some_iff.1 hvars
    refine h.listed ld e.2 ?_
    rw [← Keyed.key_of_find he]
    exact Keyed.mem_of_find he
  ln_ok ln names hv := by
    cases names with
    | nil =>
      obtain ⟨l, hl⟩ := hv
      exact hl.ok.2.1.dollar
    | cons code names =>
      obtain ⟨fc, hhas, -⟩ := hv
      exact hhas.names_ok.2.1.dollar
  names_ok ln names hv n hn := by
    cases names with
    | nil => simp at hn
    | cons code names =>
      obtain ⟨fc, hhas, rfl⟩ := hv
      rcases List.mem_cons.1 hn with rfl | hn
      · intro hm
        exact absurd (FunctionalConstraint.isUpper_of_mem_code hm) (by decide)
      · exact (hhas.names_ok.2.2.2 n hn).dollar

end Lists

theorem LogicalDevices.variablesOf_isSome {devices : LogicalDevices} {ld : Str}
    (hld : ld ∈ devices.map Prod.fst) : ∃ vars, variablesOf devices ld = some vars := by
  obtain ⟨e, he⟩ := Option.isSome_iff_exists.1 (Keyed.find_isSome.2 hld)
  exact ⟨e.2, by rw [variablesOf, he]; rfl⟩

theorem ServerModel.length_variable {m : ServerModel} {ld ln code : Str} {rest : List Str}
    (h : m.Variable ld ln (code :: rest)) : code.length = 2 := by
  obtain ⟨fc, hhas, rfl⟩ := h
  exact FunctionalConstraint.length_code hhas.names_ok.2.2.1

namespace Serves

variable {svc : IedService W} {con : ConnId} {m : ServerModel} {devices : LogicalDevices}
  {variableLists : Str → Option (List Str)} {ld ln : Str}

/-- **Entries.** What is listed for a reference below a logical node. -/
theorem entries (h : Serves svc con m devices variableLists) (hld : ld ∈ devices.map Prod.fst)
    (hldName : ModelName ld) (hln : ModelName ln) {n : Str} {ns : List Str}
    (hns : ∀ x ∈ n :: ns, ModelName x) (hshort : (objectRef ld ln (n :: ns)).length < 129)
    {inFC : FunctionalConstraint} (hin : inFC = .NONE ∨ inFC.Known) (w : W) :
    ∃ l, (dataDirectory svc con (objectRef ld ln (n :: ns)) inFC w).1 = some l ∧ l.Nodup ∧
      ∀ e, e ∈ l ↔ ∃ x fc, m.Has ld ln (n :: ns ++ [x]) fc ∧ (inFC = .NONE ∨ fc = inFC) ∧
        e = fcEntry x fc := by
  obtain ⟨vars, hvars⟩ := variablesOf_isSome hld
  have hlist := mem_getDataDirectory hvars (h.lists.names hvars)
    (fun _ _ _ hv => ServerModel.length_variable hv) hldName.plain.slash hln.plain.dot
    (fun x hx => (hns x hx).plain.dot) (fun x hx => (hns x hx).dollar)
    (hns n List.mem_cons_self).plain.ne_nil (by omega)
  rcases eq_or_ne inFC .NONE with rfl | hne
  · obtain ⟨l, hl, hnodup, hmem⟩ := hlist none
    refine ⟨l, ?_, hnodup, ?_⟩
    · rw [dataDirectory, if_pos rfl, h.dataDirectoryFC]
      exact hl
    · intro e
      rw [hmem]
      constructor
      · rintro ⟨code, x, -, ⟨fc, hhas, rfl⟩, rfl⟩
        exact ⟨x, fc, hhas, .inl rfl, rfl⟩
      · rintro ⟨x, fc, hhas, -, rfl⟩
        exact ⟨fc.code, x, .inl rfl, ⟨fc, hhas, rfl⟩, rfl⟩
  · have hknown := hin.resolve_left hne
    obtain ⟨l, hl, hnodup, hmem⟩ := hlist (some inFC.code)
    refine ⟨l, ?_, hnodup, ?_⟩
    · rw [dataDirectory, if_neg hne, h.dataDirectoryByFC, getDataDirectoryByFC,
        FunctionalConstraint.toString_of_known hknown]
      exact hl
    · intro e
      rw [hmem]
      constructor
      · rintro ⟨code, x, hfc, ⟨fc, hhas, rfl⟩, rfl⟩
        rcases hfc with hfc | hfc
        · cases hfc
        · exact ⟨x, fc, hhas, .inr (FunctionalConstraint.code_injective hhas.names_ok.2.2.1 hknown
            (Option.some.inj hfc).symm), rfl⟩
      · rintro ⟨x, fc, hhas, hfc, rfl⟩
        rw [hfc.resolve_left hne] at hhas ⊢
        exact ⟨inFC.code, x, .inr rfl, ⟨inFC, hhas, rfl⟩, rfl⟩

/-- **Data objects.** The data objects listed for a logical node; a node's name may
go on behind the name of the one that has the object. -/
theorem dataObjects (h : Serves svc con m devices variableLists) (hld : ld ∈ devices.map Prod.fst)
    (hldName : ModelName ld) (hshort : (ld ++ '/' :: ln).length < 129) (w : W) :
    ∃ l, (svc.getLogicalNodeDirectory w con (ld ++ '/' :: ln) .dataObject).1 = some l ∧ l.Nodup ∧
      ∀ n, n ∈ l ↔ ∃ ln' fc, m.Has ld ln' [n] fc ∧ fc ≠ .RP ∧ fc ≠ .BR ∧ ln' <+: ln := by
  obtain ⟨vars, hvars⟩ := variablesOf_isSome hld
  refine ⟨LogicalDevices.dataObjects vars ln, ?_, Keyed.nodup_collect _ _, ?_⟩
  · rw [h.nodeDirectory, getLogicalNodeDirectory, if_neg (by omega), cut_append hldName.plain.slash]
    dsimp only
    rw [hvars]
    rfl
  · intro n
    rw [mem_dataObjects (h.lists.names hvars) fun _ _ _ hv => ServerModel.length_variable hv]
    constructor
    · rintro ⟨ln', code, ⟨fc, hhas, rfl⟩, ⟨hrp, hbr, -⟩, hpre⟩
      refine ⟨ln', fc, hhas, ?_, ?_, hpre⟩
      · rintro rfl
        exact hrp rfl
      · rintro rfl
        exact hbr rfl
    · rintro ⟨ln', fc, hhas, hrp, hbr, hpre⟩
      refine ⟨ln', fc.code, ⟨fc, hhas, rfl⟩, ?_, hpre⟩
      have hknown := hhas.names_ok.2.2.1
      revert hrp hbr hknown
      cases fc <;> decide

end Serves

end DslinkIec61850
