import DslinkIec61850.Discovery.Nodes
import DslinkIec61850.Lib.Run
import DslinkIec61850.Action.DataAttribute

/-!
# The walk over a data object

`discoverDataDirectory` (client_handler.c:1148–1249) lists a reference and calls
itself for every entry: with all constraints below a data object, with the one
inherited from the parent below a data attribute. A reference without entries is
a leaf and gets a `Value` node.

`getFunctionalConstraint` ends without a `return` on an entry with a constraint;
the walk goes on with the constraint that it computed.

* `discoverEntry_ok`: the nodes that one entry contributes.
* `discoverLeaf_ok`: what happens at a leaf.
-/

namespace DslinkIec61850

open DSLink Subtree Strings

variable {σ W : Type} [DSLink σ]

/-! ## Controllable objects -/

/-- The `control` node for a status value of a type (client_handler.c:279–318);
the type is `MMS_BOOLEAN` or `MMS_INTEGER`. -/
def controlNode (type : MmsType) : DSNode :=
  let node := DSNode.action "Control".toList .controlAction
  match type with
  | .integer => (node.setMeta "$editor".toList (.string "int".toList)).setMeta "$params".toList
      (.array [DSNode.paramRow daValueRefNodeKey "number".toList])
  | _ => node.setMeta "$params".toList (.array [DSNode.paramRow daValueRefNodeKey "bool".toList])

/-- The nodes added to a controllable object. -/
def controlChildren (type : MmsType) (doRef : Str) : List (Str × DSNode) :=
  [("control".toList, controlNode type),
    (daObjectRefNodeKey, .shown "string".toList (.string doRef))]

/-- The first entry that `strncmp("stVal[", …, 6)` finds. -/
def stValEntry (entries : List Str) : Option Str :=
  entries.find? fun e => e.take 6 == "stVal[".toList

/-- `handleControllableNode` (client_handler.c:249–340), called when an `Oper` is
found; the specification of `stVal` is used without a test. -/
def handleControllableNode (svc : IedService W) (con : ConnId) (refSize : Option ℕ)
    (s : LinkState σ W) (node : Path) (doRef : Str) : Except Fault (LinkState σ W) := do
  let (dataAttributesFC, s) := s.call fun w => svc.getDataDirectoryFC w con doRef
  match dataAttributesFC.bind stValEntry with
  | none => return s
  | some entry =>
    let daRef := doRef ++ ".stVal".toList
    storeIn refSize daRef
    let fc := (getFunctionalConstraint entry).computed
    if fc = .NONE then return s
    let (mmsVarSpec, s) := s.call fun w => svc.getVariableSpecification w con daRef fc
    let type ← deref mmsVarSpec
    if type = .boolean ∨ type = .integer then
      return { s with tree := addChildren s.tree node (controlChildren type doRef) }
    else return s

/-! ## One reference -/

/-- A reference without entries (client_handler.c:1166–1203): the constraint and
the reference are read back from the node's children. -/
def discoverLeaf (svc : IedService W) (con : ConnId) (s : LinkState σ W) (node : Path) :
    Except Fault (LinkState σ W) :=
  match attributeOf s.tree node with
  | none => .ok s
  | some (fcStr, ref) => do
    let currFc := FunctionalConstraint.fromString (← deref fcStr)
    if currFc = .NONE then return s
    let currObjRef ← deref ref
    let (mmsVarSpec, s) := s.call fun w => svc.getVariableSpecification w con currObjRef currFc
    match mmsVarSpec with
    | none => return s
    | some type => return { s with tree := createValueNode s.tree node currFc type }

/-- The name of an entry `name[FC]`. -/
def entryName (entry : Str) : Str := (cut '[' entry).1

/-- The reference of an entry. -/
def entryRef (doRef entry : Str) : Str := doRef ++ '.' :: entryName entry

/-- The constraint of an entry. -/
def entryFC (entry : Str) : FunctionalConstraint := (getFunctionalConstraint entry).computed

/-- The key of the node of an entry: without a constraint it is a sub data object. -/
def entryKey (entry : Str) : Str := if entryFC entry = .NONE then entryName entry else entry

/-- One round of the loop over the entries (client_handler.c:1205–1235) up to the
recursive call; the specification of an attribute is used without a test. -/
def discoverEntry (svc : IedService W) (con : ConnId) (refSize : Option ℕ) (node : Path)
    (doRef : Str) (s : LinkState σ W) (entry : Str) : Except Fault (LinkState σ W) := do
  let daName := entryName entry
  let daRef := entryRef doRef entry
  storeIn refSize daRef
  let fc := entryFC entry
  let fcStr := ((getFunctionalConstraint entry).fcStr).getD []
  let s ← if fc = .NONE then
      pure { s with tree := createDONode s.tree node daRef daName }
    else do
      let (mmsVarSpec, s) := s.call fun w => svc.getVariableSpecification w con daRef fc
      let type ← deref mmsVarSpec
      pure { s with tree := createDANode s.tree node daRef entry fcStr fc type.typeString }
  if daName = "Oper".toList then handleControllableNode svc con refSize s node doRef else pure s

/-- The directory asked for. -/
def dataDirectory (svc : IedService W) (con : ConnId) (doRef : Str) (inFC : FunctionalConstraint)
    (w : W) : Option (List Str) × W :=
  if inFC = .NONE then svc.getDataDirectoryFC w con doRef
  else svc.getDataDirectoryByFC w con doRef inFC

/-- `discoverDataDirectory` (client_handler.c:1148–1249). The first argument
bounds the depth of the recursion. -/
def discoverDataDirectory (svc : IedService W) (con : ConnId) (refSize : Option ℕ) :
    ℕ → LinkState σ W → Path → Str → FunctionalConstraint → Except Fault (LinkState σ W)
  | 0, _, _, _, _ => .error .outOfFuel
  | depth + 1, s, node, doRef, inFC => do
    let (dataAttributesFC, s) := s.call (dataDirectory svc con doRef inFC)
    match dataAttributesFC with
    | none => return s
    | some [] => discoverLeaf svc con s node
    | some entries =>
      entries.foldlM (fun s entry => do
        let s ← discoverEntry svc con refSize node doRef s entry
        discoverDataDirectory svc con refSize depth s (node ++ [entryKey entry])
          (entryRef doRef entry) (entryFC entry)) s

/-- The library answers no reference of more than 129 characters, and a reference
gets longer with every level: the recursion ends before this depth. -/
def maxDepth : ℕ := 131

/-! ## What one reference contributes -/

open LinkState Run

/-- The children that a controllable object may get. -/
def ControlChildren (doRef : Str) (children : List (Str × DSNode)) : Prop :=
  children = [] ∨ ∃ type, children = controlChildren type doRef

theorem handleControllableNode_ok {svc : IedService W} {con : ConnId} {refSize : Option ℕ}
    {s s' : LinkState σ W} {node : Path} {doRef : Str}
    (h : handleControllableNode svc con refSize s node doRef = .ok s') :
    ∃ children, ControlChildren doRef children ∧ s'.tree = addChildren s.tree node children ∧
      TreeStep s s' := by
  have hnone : ∃ children, ControlChildren doRef children ∧
      s.tree = addChildren s.tree node children := ⟨[], .inl rfl, rfl⟩
  obtain ⟨children, hcontrol, htree⟩ := hnone
  unfold handleControllableNode at h
  dsimp only at h
  split at h
  · cases h
    exact ⟨children, hcontrol, htree, TreeStep.call _ _⟩
  · obtain ⟨_, -, h⟩ := bind_eq_ok.1 h
    split_ifs at h with hfc
    · cases h
      exact ⟨children, hcontrol, htree, TreeStep.call _ _⟩
    · obtain ⟨type, -, h⟩ := bind_eq_ok.1 h
      split_ifs at h with htype
      · cases h
        exact ⟨_, .inr ⟨type, rfl⟩, rfl, ⟨rfl, rfl, rfl, rfl⟩⟩
      · cases h
        exact ⟨children, hcontrol, htree, ⟨rfl, rfl, rfl, rfl⟩⟩

theorem discoverLeaf_ok {svc : IedService W} {con : ConnId} {s s' : LinkState σ W} {node : Path}
    (h : discoverLeaf svc con s node = .ok s') :
    (s'.tree = s.tree ∨ ∃ fc type, s'.tree = createValueNode s.tree node fc type) ∧
    TreeStep s s' := by
  unfold discoverLeaf at h
  split at h
  · cases h
    exact ⟨.inl rfl, TreeStep.refl _⟩
  · obtain ⟨code, -, h⟩ := bind_eq_ok.1 h
    dsimp only at h
    split_ifs at h with hfc
    · cases h
      exact ⟨.inl rfl, TreeStep.refl _⟩
    · obtain ⟨ref, -, h⟩ := bind_eq_ok.1 h
      split at h
      · cases h
        exact ⟨.inl rfl, TreeStep.call _ _⟩
      · cases h
        exact ⟨.inr ⟨_, _, rfl⟩, ⟨rfl, rfl, rfl, rfl⟩⟩

section Entry

variable {name : Str} {fc : FunctionalConstraint}

theorem entryName_fcEntry (hname : '[' ∉ name) : entryName (fcEntry name fc) = name :=
  cut_fcEntry hname

theorem entryRef_fcEntry (hname : '[' ∉ name) (doRef : Str) :
    entryRef doRef (fcEntry name fc) = doRef ++ '.' :: name := by
  rw [entryRef, entryName_fcEntry hname]

theorem entryFC_fcEntry (hname : '[' ∉ name) (hfc : fc.Known) : entryFC (fcEntry name fc) = fc := by
  rw [entryFC, getFunctionalConstraint_entry hname hfc]

theorem entryKey_fcEntry (hname : '[' ∉ name) (hfc : fc.Known) :
    entryKey (fcEntry name fc) = fcEntry name fc := by
  rw [entryKey, entryFC_fcEntry hname hfc, if_neg hfc.2]

theorem discoverEntry_ok {svc : IedService W} {con : ConnId} {refSize : Option ℕ}
    {s s' : LinkState σ W} {node : Path} {doRef : Str} (hname : '[' ∉ name) (hfc : fc.Known)
    (h : discoverEntry svc con refSize node doRef s (fcEntry name fc) = .ok s') :
    ∃ type children, ControlChildren doRef children ∧
      s'.tree = addChildren (createDANode s.tree node (doRef ++ '.' :: name) (fcEntry name fc)
        fc.code fc type) node children ∧ TreeStep s s' := by
  unfold discoverEntry at h
  dsimp only at h
  rw [entryRef_fcEntry hname, entryFC_fcEntry hname hfc, getFunctionalConstraint_entry hname hfc,
    if_neg hfc.2, entryName_fcEntry hname] at h
  obtain ⟨_, -, h⟩ := bind_eq_ok.1 h
  obtain ⟨type, -, h⟩ := bind_eq_ok.1 h
  dsimp only at h
  split_ifs at h with hoper
  · obtain ⟨children, hcontrol, htree, hstep⟩ := handleControllableNode_ok h
    refine ⟨type.typeString, children, hcontrol, htree, TreeStep.trans ?_ hstep⟩
    exact ⟨rfl, rfl, rfl, rfl⟩
  · cases h
    exact ⟨type.typeString, [], .inl rfl, rfl, ⟨rfl, rfl, rfl, rfl⟩⟩

end Entry

end DslinkIec61850
