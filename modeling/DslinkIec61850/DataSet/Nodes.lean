import DslinkIec61850.DataSet.Lookup
import DslinkIec61850.Action.DataAttribute
import DslinkIec61850.Sdk.Subtree

/-!
# Data sets

The nodes of the folders `datasets` and `dataset_prep` and the actions on them
(dataset_handler.c:164–569, client_handler.c:803–841 and 1263–1302).

* `createDatasetNode_ok`, `addMembers_ok`: what is left of a data set that is
  read from the server.
-/

namespace DslinkIec61850

open DSLink Strings LinkState Run

/-! ## Keys -/

/-- The first `/` becomes `$`; the result of `strchr` is used without a test. -/
def replaceSlash (s : Str) : Except Fault Str :=
  match cut '/' s with
  | (_, none) => .error .nullDereference
  | (a, some b) => .ok (a ++ '$' :: b)

/-! ## Nodes of data sets -/

/-- The children of a new data set. -/
def datasetChildren (dataSetRef : Str) (isDeletable : Bool) : List (Str × DSNode) :=
  [(objRefNodeKey, (DSNode.shown "string".toList (.string dataSetRef)).setMeta
      "$name".toList (.string "Obj. Ref.".toList)),
    ("deletable".toList, (DSNode.shown "boolean".toList (.boolean isDeletable)).setMeta
      "$name".toList (.string "Deletable".toList)),
    ("removedataset".toList, DSNode.action "Remove".toList .removeDatasetAction)]

/-- The children of a new prepared data set. -/
def prepDatasetChildren (dsRef : Str) : List (Str × DSNode) :=
  [(objRefNodeKey, (DSNode.shown "string".toList (.string dsRef)).setMeta
      "$name".toList (.string "Obj. Ref.".toList)),
    ("createdataset".toList, DSNode.action "Create on Server".toList .createDsOnserverAction),
    ("removedataset".toList, DSNode.action "Remove".toList .removePrepdsAction)]

/-- A node with a display name. -/
def namedNode (name : Str) : DSNode := DSNode.create.setMeta "$name".toList (.string name)

variable {σ W : Type} [DSLink σ]

/-- `createDatasetNode` (dataset_handler.c:190–289). -/
def createDatasetNode (t : σ) (mainDatasetNode : Option Path) (dataSetRef : Str)
    (isDeletable : Bool) : Except Fault (Option Path × σ) := do
  storeIn (some 300) (dtsKeyInit ++ dataSetRef)
  match mainDatasetNode with
  | none => return (none, t)
  | some main =>
    let newDSNode := main ++ [datasetKey dataSetRef]
    let t := addChild t main (datasetKey dataSetRef) (namedNode dataSetRef)
    return (some newDSNode, addChildren t newDSNode (datasetChildren dataSetRef isDeletable))

/-- `addMemberToDatasetNode` (dataset_handler.c:291–323). -/
def addMemberToDatasetNode (newDSNode : Path) (t : σ) (memberName : Str) : Except Fault σ := do
  storeIn (some 200) memberName
  let chMemberName ← replaceSlash memberName
  let t := addChild t newDSNode chMemberName (namedNode memberName)
  match ← getDANode t newDSNode memberName with
  | none => return t
  | some daNode =>
    return modify t (newDSNode ++ [chMemberName]) fun n => { n with data := .node daNode }

/-- `getDatasetInfoFromServerCreateNode` (dataset_handler.c:536–569). -/
def getDatasetInfoFromServerCreateNode (svc : IedService W) (s : LinkState σ W) (currNode : Path)
    (iedConn : ConnId) (dsRef : Str) : Except Fault (Bool × LinkState σ W) := do
  let (reply, s) := s.call fun w => svc.getDataSetDirectory w iedConn dsRef
  match reply with
  | none => return (false, s)
  | some (dataSetMembers, isDeletable) =>
    let (newDSNode, tree) ←
      createDatasetNode s.tree (getMainDatasetNode s.tree currNode) dsRef isDeletable
    match newDSNode with
    | none => return (false, { s with tree := tree })
    | some newDSNode =>
      let tree := modify tree newDSNode fun n => { n with data := .members dataSetMembers }
      let tree ← dataSetMembers.foldlM (addMemberToDatasetNode newDSNode) tree
      return (true, { s with tree := tree })

/-- `removeDatasetNode`, `removePrepDS`: the node leaves its folder. -/
def removeDatasetNode (t : σ) (datasetNode : Path) : σ := removeTree t datasetNode

/-- `json_string_value(dslink_node_get_path(node, key)->value)`. -/
def shownText (t : σ) (node : Path) (key : Str) : Except Fault (Option Str) :=
  match getPath t node key with
  | none => .error .nullDereference
  | some p => .ok (Json.stringValue (valueOf t p))

/-- `remove_dataset_action` (dataset_handler.c:173–189). -/
def removeDatasetAction (svc : IedService W) (s : LinkState σ W) (node : Path) :
    Except Fault (LinkState σ W) := do
  let iedConn ← s.getServerIedConnection node
  let datasetNode := node.dropLast
  let dsRef ← shownText s.tree datasetNode objRefNodeKey
  match iedConn, dsRef with
  | some iedConn, some dsRef =>
    let (ok, s) := s.send iedConn (.deleteDataSet dsRef) fun w => svc.deleteDataSet w iedConn dsRef
    if ok then return { s with tree := removeDatasetNode s.tree datasetNode } else return s
  | _, _ => return s

/-! ## Prepared data sets -/

/-- `createPrepDatasetNode` (dataset_handler.c:437–534). -/
def createPrepDatasetNode (t : σ) (lnNode : Path) (dsRef : Str) : Except Fault (Bool × σ) := do
  storeIn (some 300) (dtsKeyInit ++ dsRef)
  match getMainDatasetNode t lnNode, getMainPrepDatasetNode t lnNode with
  | some datasetNode, some prepDatasetNode =>
    let dsKey := datasetKey dsRef
    if (child t datasetNode dsKey).isSome || (child t prepDatasetNode dsKey).isSome then
      return (false, t)
    else
      let t := addChild t prepDatasetNode dsKey (namedNode dsRef)
      return (true, addChildren t (prepDatasetNode ++ [dsKey]) (prepDatasetChildren dsRef))
  | _, _ => return (false, t)

/-- `%s` of a string that may be `NULL`. -/
def printed (s : Option Str) : Str := s.getD "(null)".toList

/-- `prepare_dataset_action` (client_handler.c:1263–1302). -/
def prepareDatasetAction (t : σ) (node : Path) (params : Json) : Except Fault σ :=
  match Json.stringValue (params.objectGet "Name".toList) with
  | none => .ok t
  | some name =>
    match child t node.dropLast "Reference".toList with
    | none => .ok t
    | some currRefNode => do
      let dsRef := printed (Json.stringValue (valueOf t currRefNode)) ++ '.' :: name
      storeIn (some 300) dsRef
      let (_, t) ← createPrepDatasetNode t node.dropLast dsRef
      return t

/-- `addMemberToPrepDatasetNode` (dataset_handler.c:336–377). -/
def addMemberToPrepDatasetNode (t : σ) (prepDSNode : Path) (memberName : Str) : Except Fault σ := do
  storeIn (some 400) (dseKeyInit ++ memberName)
  let chMemberName ← replaceSlash (dseKeyInit ++ memberName)
  let t := addChild t prepDSNode chMemberName (namedNode memberName)
  return addChild t (prepDSNode ++ [chMemberName]) "rm_mem_prepds".toList
    (DSNode.action "Remove".toList .rmMemberPrepdsAction)

/-- `addDAToDSAction` (client_handler.c:803–841); the pointer to the prepared data
set is only assigned when there is a folder. -/
def addDAToDSAction (t : σ) (node : Path) (params : Json) : Except Fault σ :=
  match Json.stringValue (params.objectGet "Dataset".toList) with
  | none => .ok t
  | some [] => .ok t
  | some dsName => do
    storeIn (some 200) (dtsKeyInit ++ dsName)
    let mainPrepDSNode := getMainPrepDatasetNode t node
    match getPath t node.dropLast daObjectRefNodeKey, getPath t node.dropLast "FC".toList with
    | some daObjRefNode, some daFCNode =>
      match mainPrepDSNode with
      | none => throw .uninitialised
      | some main =>
        match getPath t main (dtsKeyInit ++ dsName) with
        | none => return t
        | some prepDatasetNode =>
          let ref ← deref (Json.stringValue (valueOf t daObjRefNode))
          let fc ← deref (Json.stringValue (valueOf t daFCNode))
          let daRefFull := ref ++ '[' :: (fc ++ [']'])
          storeIn (some 400) daRefFull
          addMemberToPrepDatasetNode t prepDatasetNode daRefFull
    | _, _ => return t

/-- `rm_member_prepds_action` (dataset_handler.c:324–335). -/
def rmMemberPrepdsAction (t : σ) (node : Path) : σ := removeTree t node.dropLast

/-- `remove_prepds_action` (dataset_handler.c:387–399). -/
def removePrepdsAction (t : σ) (node : Path) : σ := removeDatasetNode t node.dropLast

/-- The display names of the members of a prepared data set, in the order of the
map (dataset_handler.c:406–411). -/
def preparedMembers (t : σ) (datasetNode : Path) : Except Fault (List Str) :=
  ((children t datasetNode).filter (hasInit dseKeyInit)).mapM fun key =>
    match lookup t (datasetNode ++ [key]) with
    | none => .error .nullDereference
    | some n => deref (Json.stringValue (n.getMeta "$name".toList))

/-- `create_ds_onserver_action` (dataset_handler.c:400–435). -/
def createDsOnserverAction (svc : IedService W) (s : LinkState σ W) (node : Path) :
    Except Fault (LinkState σ W) := do
  let datasetNode := node.dropLast
  let members ← preparedMembers s.tree datasetNode
  let dsRef ← shownText s.tree datasetNode objRefNodeKey
  if members = [] then return s
  let iedConn ← deref (← s.getServerIedConnection node)
  let dsRef ← deref dsRef
  let (ok, s) := s.send iedConn (.createDataSet dsRef members) fun w =>
    svc.createDataSet w iedConn dsRef members
  if ok then do
    let (found, s) ← getDatasetInfoFromServerCreateNode svc s node iedConn dsRef
    if found then return { s with tree := removeDatasetNode s.tree datasetNode } else return s
  else return s

/-! ## What is left of a data set -/

/-- The subtree of a new data set without its members. -/
def datasetTree (dataSetRef : Str) (isDeletable : Bool) : Subtree :=
  withChildren (Subtree.leaf (namedNode dataSetRef)) (datasetChildren dataSetRef isDeletable)

theorem createDatasetNode_ok {t t' : σ} {main node : Option Path} {ref : Str} {isDeletable : Bool}
    (h : createDatasetNode t main ref isDeletable = .ok (node, t')) :
    (main = none ∧ node = none ∧ t' = t) ∨
    ∃ m, main = some m ∧ node = some (m ++ [datasetKey ref]) ∧
      Grafts t t' (m ++ [datasetKey ref]) (datasetTree ref isDeletable) := by
  unfold createDatasetNode at h
  obtain ⟨_, -, h⟩ := bind_eq_ok.1 h
  cases main with
  | none =>
    cases h
    exact .inl ⟨rfl, rfl, rfl⟩
  | some m =>
    cases h
    refine .inr ⟨m, rfl, rfl, ?_⟩
    have h₁ := grafts_addChild_child t m (datasetKey ref) (namedNode ref)
    have h₂ := grafts_addChildren (addChild t m (datasetKey ref) (namedNode ref))
      (m ++ [datasetKey ref]) (datasetChildren ref isDeletable)
    rw [h₁.sub_eq] at h₂
    exact h₁.trans h₂

/-- The key of a member. -/
def memberKey (memberName : Str) : Str :=
  (cut '/' memberName).1 ++ '$' :: ((cut '/' memberName).2.getD [])

theorem replaceSlash_ok {s k : Str} (h : replaceSlash s = .ok k) : '/' ∈ s ∧ k = memberKey s := by
  unfold replaceSlash at h
  split at h
  · cases h
  · rename_i a b hcut
    cases h
    constructor
    · by_contra hs
      rw [cut_of_not_mem hs] at hcut
      cases hcut
    · rw [memberKey, hcut]
      rfl

/-- A member of a data set: its node, and the attribute that was found for it. -/
theorem addMemberToDatasetNode_ok {t t' : σ} {node : Path} {m : Str}
    (h : addMemberToDatasetNode node t m = .ok t') :
    '/' ∈ m ∧ ∃ data, Grafts t t' (node ++ [memberKey m])
      (Subtree.leaf { namedNode m with data := data }) := by
  unfold addMemberToDatasetNode at h
  obtain ⟨_, -, h⟩ := bind_eq_ok.1 h
  obtain ⟨k, hk, h⟩ := bind_eq_ok.1 h
  obtain ⟨hslash, rfl⟩ := replaceSlash_ok hk
  obtain ⟨da, -, h⟩ := bind_eq_ok.1 h
  refine ⟨hslash, ?_⟩
  have hnew := grafts_addChild_child t node (memberKey m) (namedNode m)
  cases da with
  | none =>
    cases h
    exact ⟨.none, hnew⟩
  | some da =>
    cases h
    refine ⟨.node da, ?_⟩
    have hmod := grafts_modify (addChild t node (memberKey m) (namedNode m)) (node ++ [memberKey m])
      fun n => { n with data := .node da }
    refine hnew.trans ⟨?_, hmod.frame, hmod.ident_frame, hmod.fresh_le⟩
    rw [hmod.sub_eq]
    funext r
    cases r with
    | nil =>
      rw [if_pos rfl, lookup_addChild_self]
      rfl
    | cons k rs =>
      rw [if_neg (by simp)]
      exact lookup_addChild_below (by simp)

/-- The node of a member. -/
def MemberNode (m : Str) (c : Str × DSNode) : Prop :=
  c.1 = memberKey m ∧ ∃ data, c.2 = { namedNode m with data := data }

theorem exists_of_mem_memberNodes {members : List Str} {cs : List (Str × DSNode)}
    (h : List.Forall₂ MemberNode members cs) {c : Str × DSNode} (hc : c ∈ cs) :
    ∃ m ∈ members, MemberNode m c := by
  induction h with
  | nil => simp at hc
  | cons hmc _ ih =>
    rcases List.mem_cons.1 hc with rfl | hc
    · exact ⟨_, List.mem_cons_self, hmc⟩
    · obtain ⟨m, hm, hmc⟩ := ih hc
      exact ⟨m, List.mem_cons_of_mem _ hm, hmc⟩

theorem addMembers_ok {node : Path} {members : List Str} {t t' : σ}
    (h : members.foldlM (addMemberToDatasetNode node) t = .ok t') :
    (∀ m ∈ members, '/' ∈ m) ∧ ∃ cs, List.Forall₂ MemberNode members cs ∧
      Grafts t t' node (withChildren (sub t node) cs) := by
  induction members generalizing t with
  | nil =>
    cases h
    exact ⟨by simp, [], .nil, Grafts.refl _ _⟩
  | cons m ms ih =>
    obtain ⟨t₁, h₁, h₂⟩ := foldlM_cons_eq_ok.1 h
    obtain ⟨hslash, data, hm⟩ := addMemberToDatasetNode_ok h₁
    obtain ⟨hslashes, cs, hcs, hgrafts⟩ := ih h₂
    have hup := hm.up
    rw [hup.sub_eq] at hgrafts
    refine ⟨by simpa using ⟨hslash, hslashes⟩,
      (memberKey m, { namedNode m with data := data }) :: cs, .cons ⟨rfl, data, rfl⟩ hcs,
      hup.trans hgrafts⟩

/-- A data set as it was read from the server. -/
structure DatasetRead (s s' : LinkState σ W) (main : Path) (ref : Str) (members : List Str)
    (isDeletable : Bool) (cs : List (Str × DSNode)) : Prop where
  slash : ∀ m ∈ members, '/' ∈ m
  memberNodes : List.Forall₂ MemberNode members cs
  grafts : Grafts s.tree s'.tree (main ++ [datasetKey ref])
    (withChildren (Subtree.leaf { namedNode ref with data := .members members })
      (datasetChildren ref isDeletable ++ cs))

/-- Either nothing but the outside world changes, or the folder was found, the
directory was read, and the data set is there. -/
theorem getDatasetInfoFromServerCreateNode_ok {svc : IedService W} {s s' : LinkState σ W}
    {node : Path} {con : ConnId} {ref : Str} {found : Bool}
    (h : getDatasetInfoFromServerCreateNode svc s node con ref = .ok (found, s')) :
    TreeStep s s' ∧ s'.world = (svc.getDataSetDirectory s.world con ref).2 ∧
      ((found = false ∧ s'.tree = s.tree ∧
          ((svc.getDataSetDirectory s.world con ref).1 = none ∨
            getMainDatasetNode s.tree node = none)) ∨
        (found = true ∧ ∃ main members isDeletable cs, getMainDatasetNode s.tree node = some main ∧
          (svc.getDataSetDirectory s.world con ref).1 = some (members, isDeletable) ∧
          DatasetRead s s' main ref members isDeletable cs)) := by
  unfold getDatasetInfoFromServerCreateNode LinkState.call at h
  dsimp only at h
  split at h
  · rename_i hreply
    cases h
    exact ⟨⟨rfl, rfl, rfl, rfl⟩, rfl, .inl ⟨rfl, rfl, .inl hreply⟩⟩
  · rename_i members isDeletable hreply
    obtain ⟨⟨node', t₁⟩, h₁, h⟩ := bind_eq_ok.1 h
    dsimp only at h
    rcases createDatasetNode_ok h₁ with ⟨hmain, rfl, rfl⟩ | ⟨main, hmain, rfl, hgrafts⟩
    · cases h
      exact ⟨⟨rfl, rfl, rfl, rfl⟩, rfl, .inl ⟨rfl, rfl, .inr hmain⟩⟩
    · obtain ⟨t₂, h₂, h⟩ := bind_eq_ok.1 h
      cases h
      obtain ⟨hslash, cs, hcs, hmembers⟩ := addMembers_ok h₂
      have hmod := grafts_modify t₁ (main ++ [datasetKey ref]) fun n =>
        { n with data := .members members }
      refine ⟨⟨rfl, rfl, rfl, rfl⟩, rfl, .inr ⟨rfl, main, members, isDeletable, cs, hmain, hreply,
        hslash, hcs, ?_⟩⟩
      have hroot : sub (modify t₁ (main ++ [datasetKey ref]) fun n =>
          { n with data := .members members }) (main ++ [datasetKey ref]) =
          withChildren (Subtree.leaf { namedNode ref with data := .members members })
            (datasetChildren ref isDeletable) := by
        rw [hmod.sub_eq]
        funext r
        cases r with
        | nil =>
          rw [if_pos rfl, ← sub_nil, hgrafts.sub_eq, datasetTree, withChildren_nil,
            withChildren_nil]
          rfl
        | cons k rs =>
          rw [if_neg (by simp), ← sub_apply, hgrafts.sub_eq]
          exact withChildren_congr _ (fun _ _ => rfl) k rs
      rw [hroot, ← withChildren_append] at hmembers
      exact (hgrafts.trans ⟨rfl, hmod.frame, hmod.ident_frame, hmod.fresh_le⟩).trans hmembers

end DslinkIec61850
