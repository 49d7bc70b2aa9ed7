import DslinkIec61850.Report.ControlBlock

/-!
# The node tree of the DSLink SDK

The SDK is a submodule whose source is not part of the repository. `DSLink` is
the interface that the link's code relies on: nodes found by their path of keys,
the replacement of a child that is added under an existing key, the identity of
a node (the address that `serverMap` and the report handlers keep), and path
lookup. A node pointer of the C code is the path of the node; `node->parent` is
the path without its last key.

The map iteration delivers the children of a node in an order of the SDK's own.
-/

namespace DslinkIec61850

/-- The keys from the root to a node. -/
abbrev Path := List Str

/-- The functions installed as `on_invocation`, `on_list_open` or `on_subscribe`. -/
inductive Callback where
  | discoverAction | editServerAction | clearServerAction | removeServerAction | serverSubbed
  | prepareDatasetAction | addDAToDSAction | daNodeListOpenedAction
  | removeDatasetAction | rmMemberPrepdsAction | removePrepdsAction | createDsOnserverAction
  | daValueReadAction | daValueWriteAction | controlAction
  | setRptEnaAction | setRptIdAction | setDatSetAction | rcbDatSetNodeOpenAction
  | setBufTmAction | setIntgPdAction | setOptFldsAction | setTrgOpsAction
  | readRCBAction | forceGIRCBAction
  deriving DecidableEq, Repr

/-- `node->data`. -/
inductive NodeData where
  | none
  | link
  | rcb (rcb : ClientReportControlBlock)
  | members (refs : List Str)
  | node (path : Path)

/-- The fields of a `DSNode` that the link's code uses. -/
structure DSNode where
  value : Json
  metaData : List (Str × Json)
  onInvocation : Option Callback
  onListOpen : Option Callback
  onSubscribe : Option Callback
  data : NodeData

namespace DSNode

/-- `dslink_node_create`. -/
def create : DSNode :=
  { value := .null, metaData := [], onInvocation := none, onListOpen := none, onSubscribe := none,
    data := .none }

/-- `dslink_node_set_meta`. -/
def setMeta (node : DSNode) (key : Str) (v : Json) : DSNode :=
  { node with metaData := Keyed.set Prod.fst (key, v) node.metaData }

/-- The value of a meta entry. -/
def getMeta (node : DSNode) (key : Str) : Option Json :=
  (Keyed.find Prod.fst key node.metaData).map Prod.snd

/-- A node that shows a value of a type. -/
def shown (type : Str) (v : Json) : DSNode :=
  { create.setMeta "$type".toList (.string type) with value := v }

/-- A node that is invoked. -/
def action (name : Str) (f : Callback) : DSNode :=
  { (create.setMeta "$name".toList (.string name)).setMeta "$invokable".toList
    (.string "read".toList) with onInvocation := some f }

/-- A parameter row of the meta entry `$params`. -/
def paramRow (name type : Str) : Json :=
  .object [("name".toList, .string name), ("type".toList, .string type)]

@[simp] theorem getMeta_setMeta (node : DSNode) (key key' : Str) (v : Json) :
    (node.setMeta key v).getMeta key' = if key = key' then some v else node.getMeta key' := by
  simp only [getMeta, setMeta, Keyed.find_set]
  split_ifs <;> simp

@[simp] theorem onListOpen_setMeta (node : DSNode) (key : Str) (v : Json) :
    (node.setMeta key v).onListOpen = node.onListOpen := rfl

@[simp] theorem onListOpen_create : create.onListOpen = none := rfl

@[simp] theorem onListOpen_shown (type : Str) (v : Json) : (shown type v).onListOpen = none := rfl

@[simp] theorem onListOpen_action (name : Str) (f : Callback) : (action name f).onListOpen = none :=
  rfl

end DSNode

/-- The SDK's node tree `σ`. -/
class DSLink (σ : Type) where
  /-- The node with a path. -/
  lookup : σ → Path → Option DSNode
  /-- The address of the node with a path. -/
  ident : σ → Path → ℕ
  /-- The address of the next node. -/
  fresh : σ → ℕ
  /-- The keys of the children, in the order of `dslink_map_foreach`. -/
  children : σ → Path → List Str
  /-- `dslink_node_create` and `dslink_node_add_child`. -/
  addChild : σ → Path → Str → DSNode → σ
  /-- `dslink_map_remove_get` and `dslink_node_tree_free`. -/
  removeTree : σ → Path → σ
  /-- Assignments to the fields of a node. -/
  modify : σ → Path → (DSNode → DSNode) → σ
  /-- `dslink_node_get_path`. -/
  getPath : σ → Path → Str → Option Path
  /-- What `dslink_node_set_value` makes of a value when it is given `NULL`. -/
  nullValue : Json → Json
  lookup_addChild : ∀ t p k n q, lookup (addChild t p k n) q =
    if q = p ++ [k] then some n else if p ++ [k] <+: q then none else lookup t q
  lookup_removeTree : ∀ t p q, lookup (removeTree t p) q = if p <+: q then none else lookup t q
  lookup_modify : ∀ t p f q,
    lookup (modify t p f) q = if q = p then (lookup t p).map f else lookup t q
  nodup_children : ∀ t p, (children t p).Nodup
  mem_children : ∀ t p k, k ∈ children t p ↔ (lookup t (p ++ [k])).isSome = true
  /-- A path of one name finds the child with that key. -/
  getPath_name : ∀ t p k, k ≠ [] → '/' ∉ k →
    getPath t p k = if (lookup t (p ++ [k])).isSome then some (p ++ [k]) else none
  /-- Any other path finds, if anything, a node of the subtree. -/
  getPath_below : ∀ t p s q, getPath t p s = some q → p <+: q ∧ (lookup t q).isSome = true
  ident_addChild : ∀ t p k n q,
    ident (addChild t p k n) q = if q = p ++ [k] then fresh t else ident t q
  ident_removeTree : ∀ t p q, ident (removeTree t p) q = ident t q
  ident_modify : ∀ t p f q, ident (modify t p f) q = ident t q
  fresh_addChild : ∀ t p k n, fresh (addChild t p k n) = fresh t + 1
  fresh_removeTree : ∀ t p, fresh (removeTree t p) = fresh t
  fresh_modify : ∀ t p f, fresh (modify t p f) = fresh t

namespace DSLink

variable {σ : Type} [DSLink σ] {t : σ} {p q : Path} {k : Str} {n : DSNode}

attribute [simp] ident_removeTree ident_modify fresh_addChild fresh_removeTree fresh_modify

/-- There is a node with the path. -/
def Live (t : σ) (p : Path) : Prop := (lookup t p).isSome = true

instance : Decidable (Live t p) := inferInstanceAs (Decidable (_ = true))

/-- `dslink_node_set_value`, where `NULL` stands for a missing JSON value. -/
def setValue (t : σ) (p : Path) (v : Option Json) : σ :=
  modify t p fun n => { n with value := v.getD (nullValue σ n.value) }

/-- `dslink_node_set_meta` on a node of the tree. -/
def setMeta (t : σ) (p : Path) (key : Str) (v : Json) : σ := modify t p fun n => n.setMeta key v

/-- `node->value`. -/
def valueOf (t : σ) (p : Path) : Option Json := (lookup t p).map DSNode.value

/-- `dslink_map_get(node->children, key)`. -/
def child (t : σ) (p : Path) (k : Str) : Option Path :=
  if (lookup t (p ++ [k])).isSome then some (p ++ [k]) else none

theorem lookup_addChild_self : lookup (addChild t p k n) (p ++ [k]) = some n := by
  rw [lookup_addChild, if_pos rfl]

/-- Adding a child keeps what is not below its path. -/
theorem lookup_addChild_of_not_below (h : ¬ p ++ [k] <+: q) :
    lookup (addChild t p k n) q = lookup t q := by
  rw [lookup_addChild, if_neg, if_neg h]
  rintro rfl
  exact h (List.prefix_refl _)

theorem lookup_addChild_eq_some {m : DSNode} (h : lookup (addChild t p k n) q = some m) :
    (q = p ++ [k] ∧ m = n) ∨ (¬ p ++ [k] <+: q ∧ lookup t q = some m) := by
  rw [lookup_addChild] at h
  split_ifs at h with hq hpre
  · exact .inl ⟨hq, (Option.some.inj h).symm⟩
  · exact .inr ⟨hpre, h⟩

theorem lookup_addChild_below {r : Path} (hr : r ≠ []) :
    lookup (addChild t p k n) (p ++ [k] ++ r) = none := by
  rw [lookup_addChild, if_neg, if_pos (List.prefix_append _ _)]
  intro h
  have := congrArg List.length h
  simp at this
  exact hr this

theorem lookup_removeTree_of_not_below (h : ¬ p <+: q) :
    lookup (removeTree t p) q = lookup t q := by
  rw [lookup_removeTree, if_neg h]

theorem lookup_setValue (v : Option Json) :
    lookup (setValue t p v) q =
      if q = p then (lookup t p).map fun n => { n with value := v.getD (nullValue σ n.value) }
      else lookup t q := by
  rw [setValue, lookup_modify]

theorem live_modify (f : DSNode → DSNode) : Live (modify t p f) q ↔ Live t q := by
  unfold Live
  rw [lookup_modify]
  split_ifs with h
  · rw [h, Option.isSome_map]
  · rfl

theorem live_setValue (v : Option Json) : Live (setValue t p v) q ↔ Live t q := live_modify _

theorem child_eq_some : child t p k = some q ↔ q = p ++ [k] ∧ Live t (p ++ [k]) := by
  unfold child Live
  split_ifs with h
  · simp [h, eq_comm]
  · simp [h]

theorem getPath_eq_child (hne : k ≠ []) (hslash : '/' ∉ k) : getPath t p k = child t p k := by
  rw [getPath_name t p k hne hslash, child]

end DSLink

end DslinkIec61850
