import DslinkIec61850.Sdk.Subtree
import DslinkIec61850.Link.State

/-!
# The nodes that discovery creates

The builders of client_handler.c for logical devices, logical nodes, data
objects, data attributes and their values. Each of them adds a node and its
children; the calls of the SDK succeed.

* `grafts_createDONode`, `grafts_createDANode`, `grafts_createLNNode`: what each
  of them leaves at the node it creates.
-/

namespace DslinkIec61850

open DSLink Subtree

variable {σ : Type} [DSLink σ]

/-! ## Values -/

/-- The type set on the `Value` node (client_handler.c:659–718). -/
def valueTypeString : MmsType → Option Str
  | .integer => some "number".toList
  | .unsigned => some "number".toList
  | .boolean => some "bool".toList
  | .visibleString => some "string".toList
  | .string => some "string".toList
  | .float => some "real".toList
  | .utcTime => some "string".toList
  | .bitString => some "string".toList
  | _ => none

/-- The type of the parameter of `writevalue` (client_handler.c:763–793). -/
def writeTypeString : MmsType → Str
  | .integer => "number".toList
  | .unsigned => "number".toList
  | .boolean => "bool".toList
  | .float => "number".toList
  | _ => "string".toList

/-- The `Value` node. -/
def valueNode (type : MmsType) : DSNode :=
  match valueTypeString type with
  | some s => DSNode.create.setMeta "$type".toList (.string s)
  | none => DSNode.create

/-- The `writevalue` node. -/
def valueWriteNode (type : MmsType) : DSNode :=
  let node := DSNode.action "Write".toList .daValueWriteAction
  let node := match type with
    | .integer => node.setMeta "$editor".toList (.string "int".toList)
    | .utcTime => node.setMeta "$editor".toList (.string "date".toList)
    | _ => node
  node.setMeta "$params".toList
    (.array [DSNode.paramRow daValueRefNodeKey (writeTypeString type)])

/-- `createValueNode` (client_handler.c:648–801). -/
def createValueNode (t : σ) (parentNode : Path) (fc : FunctionalConstraint) (mmsType : MmsType) :
    σ :=
  let valuePath := parentNode ++ [daValueRefNodeKey]
  let t := addChild t parentNode daValueRefNodeKey (valueNode mmsType)
  let t := addChild t valuePath "readvalue".toList
    (DSNode.action "Read".toList .daValueReadAction)
  if isWritableFC fc then addChild t valuePath "writevalue".toList (valueWriteNode mmsType) else t

/-! ## Data objects and data attributes -/

/-- `createDONode` (client_handler.c:870–905). -/
def createDONode (t : σ) (lnNode : Path) (doRef doName : Str) : σ :=
  let t := addChild t lnNode doName .create
  addChild t (lnNode ++ [doName]) "Reference".toList (.shown "string".toList (.string doRef))

/-- A data attribute's own node. -/
def daNode : DSNode := { DSNode.create with onListOpen := some .daNodeListOpenedAction }

/-- The children of a new data attribute (client_handler.c:924–1046). -/
def daNodeChildren (daRef fcStr : Str) (fc : FunctionalConstraint) (mmsTypeStr : Str) :
    List (Str × DSNode) :=
  let string := "string".toList
  (if fc ≠ .NONE then
    [("FC".toList, .shown string (.string fcStr)),
      ("Type".toList, .shown string ((getFCExplainString fc).elim .null .string))] else []) ++
  [(daObjectRefNodeKey, .shown string (.string daRef))] ++
  (if fc ≠ .NONE then [("MMS Type".toList, .shown string (.string mmsTypeStr))] else []) ++
  [("adddataset".toList, (DSNode.action "Add to dataset".toList .addDAToDSAction).setMeta
    "$params".toList (.array [DSNode.paramRow "Dataset".toList "enum[]".toList]))]

theorem daNodeChildren_of_ne {fc : FunctionalConstraint} (h : fc ≠ .NONE)
    (daRef fcStr mmsTypeStr : Str) : daNodeChildren daRef fcStr fc mmsTypeStr =
      [("FC".toList, .shown "string".toList (.string fcStr)),
        ("Type".toList, .shown "string".toList ((getFCExplainString fc).elim .null .string)),
        (daObjectRefNodeKey, .shown "string".toList (.string daRef)),
        ("MMS Type".toList, .shown "string".toList (.string mmsTypeStr)),
        ("adddataset".toList, (DSNode.action "Add to dataset".toList .addDAToDSAction).setMeta
          "$params".toList (.array [DSNode.paramRow "Dataset".toList "enum[]".toList]))] := by
  simp [daNodeChildren, h]

/-- `createDANode` (client_handler.c:907–1051). -/
def createDANode (t : σ) (topNode : Path) (daRef daNameFC fcStr : Str) (fc : FunctionalConstraint)
    (mmsTypeStr : Str) : σ :=
  addChildren (addChild t topNode daNameFC daNode) (topNode ++ [daNameFC])
    (daNodeChildren daRef fcStr fc mmsTypeStr)

/-! ## Logical nodes and logical devices -/

/-- The children of a new logical node. -/
def lnNodeChildren (lnRef : Str) : List (Str × DSNode) :=
  [("Reference".toList, .shown "string".toList (.string lnRef)),
    ("prepdataset".toList, (DSNode.action "Prepare Dataset".toList .prepareDatasetAction).setMeta
      "$params".toList (.array [DSNode.paramRow "Name".toList "string".toList]))]

/-- `createLNNode` (client_handler.c:1304–1367). -/
def createLNNode (t : σ) (ldNode : Path) (lnRef lnName : Str) : σ :=
  addChildren (addChild t ldNode lnName .create) (ldNode ++ [lnName]) (lnNodeChildren lnRef)

/-- The key of a logical device. -/
def ldKey (ldName : Str) : Str := ldnKeyInit ++ ldName

/-- `createLDNode` (client_handler.c:1369–1389). -/
def createLDNode (t : σ) (srvNode : Path) (ldName : Str) : Except Fault σ := do
  storeIn (some 129) (ldKey ldName)
  return addChild t srvNode (ldKey ldName) (DSNode.create.setMeta "$name".toList (.string ldName))

/-! ## Folders -/

/-- A folder with a display name. -/
def folderNode (name : Str) : DSNode := DSNode.create.setMeta "$name".toList (.string name)

/-- `createDatasetReportNodes` (client_handler.c:1391–1485). -/
def createDatasetReportNodes (t : σ) (node : Path) : σ :=
  let t := addChild t node datasetFolderNodeKey (folderNode "Data Sets".toList)
  let t := addChild t node datasetPrepFolderNodeKey (folderNode "Data Set Prep".toList)
  let t := addChild t (node ++ [datasetPrepFolderNodeKey]) "desc".toList
    ((DSNode.shown "string".toList
        (.string "Preparation for datasets to be created in the server".toList)).setMeta
      "$name".toList (.string "Description".toList))
  let t := addChild t node urcbFolderNodeKey (folderNode "Unbuffered Report Control Blocks".toList)
  addChild t node brcbFolderNodeKey (folderNode "Buffered Report Control Blocks".toList)

/-! ## The subtrees -/

/-- What a node with its children leaves: the children replace what was there. -/
theorem grafts_addChild_addChildren (t : σ) (p : Path) (k : Str) (n : DSNode)
    (children : List (Str × DSNode)) :
    Grafts t (addChildren (addChild t p k n) (p ++ [k]) children) (p ++ [k])
      (withChildren (leaf n) children) := by
  have h := grafts_addChildren (addChild t p k n) (p ++ [k]) children
  rw [sub_addChild_child] at h
  exact (grafts_addChild_child t p k n).trans h

/-- The subtree of a new data object. -/
def doTree (doRef : Str) : Subtree :=
  withChildren (leaf .create) [("Reference".toList, .shown "string".toList (.string doRef))]

/-- The subtree of a new data attribute. -/
def daTree (daRef : Str) (fc : FunctionalConstraint) (mmsTypeStr : Str) : Subtree :=
  withChildren (leaf daNode) (daNodeChildren daRef fc.code fc mmsTypeStr)

/-- The subtree of a new logical node. -/
def lnTree (lnRef : Str) : Subtree := withChildren (leaf .create) (lnNodeChildren lnRef)

theorem grafts_createDONode (t : σ) (lnNode : Path) (doRef doName : Str) :
    Grafts t (createDONode t lnNode doRef doName) (lnNode ++ [doName]) (doTree doRef) :=
  grafts_addChild_addChildren t lnNode doName .create
    [("Reference".toList, .shown "string".toList (.string doRef))]

theorem grafts_createDANode (t : σ) (topNode : Path) (daRef daNameFC : Str)
    (fc : FunctionalConstraint) (mmsTypeStr : Str) :
    Grafts t (createDANode t topNode daRef daNameFC fc.code fc mmsTypeStr) (topNode ++ [daNameFC])
      (daTree daRef fc mmsTypeStr) :=
  grafts_addChild_addChildren t topNode daNameFC daNode _

theorem grafts_createLNNode (t : σ) (ldNode : Path) (lnRef lnName : Str) :
    Grafts t (createLNNode t ldNode lnRef lnName) (ldNode ++ [lnName]) (lnTree lnRef) :=
  grafts_addChild_addChildren t ldNode lnName .create _

/-- The children of the `Value` node. -/
def valueChildren (fc : FunctionalConstraint) (mmsType : MmsType) : List (Str × DSNode) :=
  ("readvalue".toList, DSNode.action "Read".toList .daValueReadAction) ::
    if isWritableFC fc then [("writevalue".toList, valueWriteNode mmsType)] else []

/-- The subtree of a new `Value` node. -/
def valueTree (fc : FunctionalConstraint) (mmsType : MmsType) : Subtree :=
  withChildren (leaf (valueNode mmsType)) (valueChildren fc mmsType)

theorem createValueNode_eq (t : σ) (parentNode : Path) (fc : FunctionalConstraint)
    (mmsType : MmsType) :
    createValueNode t parentNode fc mmsType =
      addChildren (addChild t parentNode daValueRefNodeKey (valueNode mmsType))
        (parentNode ++ [daValueRefNodeKey]) (valueChildren fc mmsType) := by
  unfold createValueNode valueChildren
  cases isWritableFC fc <;> rfl

theorem grafts_createValueNode (t : σ) (parentNode : Path) (fc : FunctionalConstraint)
    (mmsType : MmsType) :
    Grafts t (createValueNode t parentNode fc mmsType) (parentNode ++ [daValueRefNodeKey])
      (valueTree fc mmsType) := by
  rw [createValueNode_eq]
  exact grafts_addChild_addChildren t parentNode daValueRefNodeKey _ _

end DslinkIec61850
