import DslinkIec61850.DataSet.Nodes
import DslinkIec61850.Link.ServerMap

/-!
# The data sets of the server and of the tree

Prepare Dataset, Add to dataset, Create on Server and Remove on a discovered
server (dataset_handler.c:164–569). A data set is created on the server first and
then read back; only the data set that was read gets a node.

* `dataSetStep_keeps_iff`: one request keeps the folder and the server together
  exactly when a data set that was created is read back.
* `dataSets_agree_iff`: the same along a run.
-/

namespace DslinkIec61850

open DSLink LinkState Run Strings

variable {σ W : Type} [DSLink σ] {svc : IedService W} {s s' : LinkState σ W} {con : ConnId}
  {srv : Str} {dataSets : W → Str → Option (List Str)}

/-! ## The data sets of the server -/

/-- The data set services of a server whose data sets nobody else changes. A call
that fails changes nothing; the directory of a data set can be read or not. -/
structure DataSetServer (svc : IedService W) (con : ConnId)
    (dataSets : W → Str → Option (List Str)) : Prop where
  created : ∀ w ref members, (svc.createDataSet w con ref members).1 = true →
    dataSets (svc.createDataSet w con ref members).2 =
      Function.update (dataSets w) ref (some members)
  notCreated : ∀ w ref members, (svc.createDataSet w con ref members).1 = false →
    dataSets (svc.createDataSet w con ref members).2 = dataSets w
  deleted : ∀ w ref, (svc.deleteDataSet w con ref).1 = true →
    dataSets (svc.deleteDataSet w con ref).2 = Function.update (dataSets w) ref none
  notDeleted : ∀ w ref, (svc.deleteDataSet w con ref).1 = false →
    dataSets (svc.deleteDataSet w con ref).2 = dataSets w
  directory : ∀ w ref members isDeletable,
    (svc.getDataSetDirectory w con ref).1 = some (members, isDeletable) →
    dataSets w ref = some members
  directory_keeps : ∀ w ref, dataSets (svc.getDataSetDirectory w con ref).2 = dataSets w

/-! ## Requests -/

/-- The requests on data sets; `node` is a path below the server. -/
inductive DataSetRequest where
  | prepare (node : Path) (params : Json)
  | add (node : Path) (params : Json)
  | removeMember (ds member : Str)
  | removePrepared (ds : Str)
  | create (ds : Str)
  | remove (ds : Str)

/-- A prepared data set. -/
def prepPath (srv ds : Str) : Path := [srv, datasetPrepFolderNodeKey, ds]

/-- A data set that was read from the server. -/
def datasetPath (srv ds : Str) : Path := [srv, datasetFolderNodeKey, ds]

@[simp] theorem length_datasetPath (srv ds : Str) : (datasetPath srv ds).length = 3 := rfl

/-- A request on the server `srv`; one for a node that is not there has no effect. -/
def dataSetStep (svc : IedService W) (srv : Str) (s : LinkState σ W) :
    DataSetRequest → Except Fault (LinkState σ W)
  | .prepare node params =>
    if Invokes s.tree (srv :: node) .prepareDatasetAction then do
      return { s with tree := ← prepareDatasetAction s.tree (srv :: node) params }
    else .ok s
  | .add node params =>
    if Invokes s.tree (srv :: node) .addDAToDSAction then do
      return { s with tree := ← addDAToDSAction s.tree (srv :: node) params }
    else .ok s
  | .removeMember ds member =>
    if Invokes s.tree (prepPath srv ds ++ [member, "rm_mem_prepds".toList])
      .rmMemberPrepdsAction then
      .ok { s with
        tree := rmMemberPrepdsAction s.tree (prepPath srv ds ++ [member, "rm_mem_prepds".toList]) }
    else .ok s
  | .removePrepared ds =>
    if Invokes s.tree (prepPath srv ds ++ ["removedataset".toList]) .removePrepdsAction then
      .ok { s with tree := removePrepdsAction s.tree (prepPath srv ds ++ ["removedataset".toList]) }
    else .ok s
  | .create ds =>
    if Invokes s.tree (prepPath srv ds ++ ["createdataset".toList]) .createDsOnserverAction then
      createDsOnserverAction svc s (prepPath srv ds ++ ["createdataset".toList])
    else .ok s
  | .remove ds =>
    if Invokes s.tree (datasetPath srv ds ++ ["removedataset".toList]) .removeDatasetAction then
      removeDatasetAction svc s (datasetPath srv ds ++ ["removedataset".toList])
    else .ok s

/-! ## Agreement -/

/-- The folder shows a data set with its members and nothing else below it. -/
def ShowsDataSet (t : σ) (srv ref : Str) (members : List Str) : Prop :=
  ∃ isDeletable cs, List.Forall₂ MemberNode members cs ∧ (∀ m ∈ members, '/' ∈ m) ∧
    sub t (datasetPath srv (datasetKey ref)) =
      withChildren (Subtree.leaf { namedNode ref with data := .members members })
        (datasetChildren ref isDeletable ++ cs)

/-- The children of the folder are the data sets of the server, each with the
members it has on the server. -/
structure DataSetsAgree (dataSets : W → Str → Option (List Str)) (srv : Str)
    (s : LinkState σ W) : Prop where
  keys : ∀ ds, ds ∈ children s.tree [srv, datasetFolderNodeKey] ↔
    ∃ ref members, dataSets s.world ref = some members ∧ ds = datasetKey ref
  shown : ∀ ref members, dataSets s.world ref = some members → ShowsDataSet s.tree srv ref members

/-- What holds between the requests. A prepared data set has the key of its
reference, and there is no data set with that key. -/
structure DataSetInv (dataSets : W → Str → Option (List Str)) (con : ConnId) (srv : Str)
    (s : LinkState σ W) : Prop where
  isServer : hasInit srvKeyInit srv = true
  connected : s.getServerIedConnection [srv] = .ok (some con)
  folder : Live s.tree [srv, datasetFolderNodeKey]
  shown : ∀ ref members, dataSets s.world ref = some members → ShowsDataSet s.tree srv ref members
  below : ∀ ds r, Live s.tree (datasetPath srv ds ++ r) →
    ∃ ref members, dataSets s.world ref = some members ∧ ds = datasetKey ref
  prepared : ∀ ds n ref, lookup s.tree (prepPath srv ds ++ [objRefNodeKey]) = some n →
    Json.stringValue (some n.value) = some ref → ds = datasetKey ref
  apart : ∀ ds, Live s.tree (prepPath srv ds ++ [objRefNodeKey]) →
    ¬ Live s.tree (datasetPath srv ds)

theorem ShowsDataSet.live {t : σ} {ref : Str} {members : List Str}
    (h : ShowsDataSet t srv ref members) : Live t (datasetPath srv (datasetKey ref)) := by
  obtain ⟨isDeletable, cs, -, -, hsub⟩ := h
  rw [Live, ← sub_nil, hsub, withChildren_nil]
  rfl

theorem DataSetInv.agree (h : DataSetInv dataSets con srv s) : DataSetsAgree dataSets srv s where
  keys ds := by
    rw [mem_children]
    constructor
    · exact fun hlive => h.below ds [] hlive
    · rintro ⟨ref, members, hds, rfl⟩
      exact (h.shown ref members hds).live
  shown := h.shown

/-- The node of a member is not one of the other children. -/
theorem memberKey_ne {m k : Str} (h : '$' ∉ k) : memberKey m ≠ k := by
  intro hk
  apply h
  rw [← hk, memberKey]
  simp

/-- The reference that a data set shows. -/
theorem ShowsDataSet.objRef {t : σ} {ref : Str} {members : List Str}
    (h : ShowsDataSet t srv ref members) :
    shownText t (datasetPath srv (datasetKey ref)) objRefNodeKey = .ok (some ref) := by
  obtain ⟨isDeletable, cs, hcs, -, hsub⟩ := h
  have hmembers : ∀ c ∈ cs, c.1 ≠ objRefNodeKey := by
    intro c hc
    obtain ⟨m, -, hm, -⟩ := exists_of_mem_memberNodes hcs hc
    rw [hm]
    exact memberKey_ne (by decide)
  have hobj : lookup t (datasetPath srv (datasetKey ref) ++ [objRefNodeKey]) =
      some ((DSNode.shown "string".toList (.string ref)).setMeta "$name".toList
        (.string "Obj. Ref.".toList)) := by
    rw [← sub_apply, hsub, withChildren_append, withChildren_of_not_mem hmembers]
    rfl
  have hlive : Live t (datasetPath srv (datasetKey ref) ++ [objRefNodeKey]) := by
    rw [Live, hobj]
    rfl
  have hpath : getPath t (datasetPath srv (datasetKey ref)) objRefNodeKey =
      some (datasetPath srv (datasetKey ref) ++ [objRefNodeKey]) := by
    rw [getPath_eq_child (by decide) (by decide), child_eq_some]
    exact ⟨rfl, hlive⟩
  rw [shownText, hpath]
  dsimp only
  rw [valueOf, hobj]
  rfl

/-- Two data sets do not have the same node. -/
theorem ShowsDataSet.injective {t : σ} {ref ref' : Str} {members members' : List Str}
    (h : ShowsDataSet t srv ref members) (h' : ShowsDataSet t srv ref' members')
    (hkey : datasetKey ref = datasetKey ref') : ref = ref' := by
  have href := h.objRef
  rw [hkey, h'.objRef] at href
  cases href
  rfl

/-! ## Preparing -/

theorem not_prefix_of_ne {a b c : Str} (h : a ≠ b) (r : Path) : ¬ [c, a] <+: c :: b :: r := by
  rw [List.cons_prefix_cons, List.cons_prefix_cons]
  exact fun hpre => h hpre.2.1

theorem not_prefix_child {p r : Path} {k k' : Str} (h : k ≠ k') : ¬ p ++ [k] <+: p ++ k' :: r := by
  rw [List.prefix_append_right_inj, List.cons_prefix_cons]
  exact fun hpre => h hpre.1

theorem connected_of_eq (hmap : s'.serverMap = s.serverMap)
    (hident : ident s'.tree [srv] = ident s.tree [srv])
    (h : s.getServerIedConnection [srv] = .ok (some con)) :
    s'.getServerIedConnection [srv] = .ok (some con) := by
  have hptr : s'.ptr [srv] = s.ptr [srv] := by rw [ptr, ptr, hident]
  rw [← h]
  unfold getServerIedConnection getServerNode mapGet
  dsimp only
  split_ifs
  · simp only [hptr, hmap]
  · rfl

/-- Only the folder of the prepared data sets changes. What is new there has the key
of its reference, and there is no data set with that key. -/
structure PrepChange (srv : Str) (t t' : σ) : Prop where
  frame : ∀ q, ¬ [srv, datasetPrepFolderNodeKey] <+: q → lookup t' q = lookup t q
  ident_eq : ident t' [srv] = ident t [srv]
  objRef : ∀ ds n, lookup t' (prepPath srv ds ++ [objRefNodeKey]) = some n →
    lookup t (prepPath srv ds ++ [objRefNodeKey]) = some n ∨
      (¬ Live t (datasetPath srv ds) ∧
        ∀ ref, Json.stringValue (some n.value) = some ref → ds = datasetKey ref)

theorem PrepChange.datasets {t t' : σ} (h : PrepChange srv t t') (ds : Str) (r : Path) :
    lookup t' (datasetPath srv ds ++ r) = lookup t (datasetPath srv ds ++ r) :=
  h.frame _ (not_prefix_of_ne (by decide) _)

theorem ShowsDataSet.congr {t t' : σ} {ref : Str} {members : List Str}
    (h : ShowsDataSet t srv ref members)
    (heq : ∀ r, lookup t' (datasetPath srv (datasetKey ref) ++ r) =
      lookup t (datasetPath srv (datasetKey ref) ++ r)) : ShowsDataSet t' srv ref members := by
  obtain ⟨isDeletable, cs, hcs, hslash, hsub⟩ := h
  refine ⟨isDeletable, cs, hcs, hslash, ?_⟩
  rw [← hsub]
  funext r
  exact heq r

theorem DataSetInv.prepChange (h : DataSetInv dataSets con srv s) {t : σ}
    (hchange : PrepChange srv s.tree t) : DataSetInv dataSets con srv { s with tree := t } where
  isServer := h.isServer
  connected := connected_of_eq (s := s) rfl hchange.ident_eq h.connected
  folder := by
    have hfolder := hchange.frame [srv, datasetFolderNodeKey] (not_prefix_of_ne (by decide) [])
    rw [Live, hfolder]
    exact h.folder
  shown ref members hds := (h.shown ref members hds).congr (hchange.datasets _)
  below ds r hlive := by
    rw [Live, hchange.datasets] at hlive
    exact h.below ds r hlive
  prepared ds n ref hn href := by
    rcases hchange.objRef ds n hn with hold | ⟨-, hkey⟩
    · exact h.prepared ds n ref hold href
    · exact hkey ref href
  apart ds hlive := by
    obtain ⟨n, hn⟩ := Option.isSome_iff_exists.1 hlive
    have hdatasets := hchange.datasets ds []
    rw [List.append_nil] at hdatasets
    rw [Live, hdatasets]
    rcases hchange.objRef ds n hn with hold | ⟨hnot, -⟩
    · apply h.apart ds
      rw [Live, hold]
      rfl
    · exact hnot

theorem prepChange_removeTree (t : σ) (ds : Str) (r : Path) :
    PrepChange srv t (removeTree t (prepPath srv ds ++ r)) where
  frame q hq := by
    apply lookup_removeTree_of_not_below
    intro hpre
    exact hq ((List.prefix_append [srv, datasetPrepFolderNodeKey] (ds :: r)).trans hpre)
  ident_eq := ident_removeTree _ _ _
  objRef ds' n hn := by
    rw [lookup_removeTree] at hn
    split_ifs at hn
    exact .inl hn

/-- A member that is put into a prepared data set. -/
theorem addMemberToPrepDatasetNode_ok {t t' : σ} {node : Path} {m : Str}
    (h : addMemberToPrepDatasetNode t node m = .ok t') :
    ∃ k, hasInit dseKeyInit k = true ∧ ∃ n, Grafts t t' (node ++ [k]) (withChildren (Subtree.leaf n)
      [("rm_mem_prepds".toList, DSNode.action "Remove".toList .rmMemberPrepdsAction)]) := by
  unfold addMemberToPrepDatasetNode at h
  obtain ⟨_, -, h⟩ := bind_eq_ok.1 h
  obtain ⟨k, hk, h⟩ := bind_eq_ok.1 h
  cases h
  obtain ⟨-, rfl⟩ := replaceSlash_ok hk
  refine ⟨memberKey (dseKeyInit ++ m), ?_, namedNode m, ?_⟩
  · simp [memberKey, dseKeyInit, cut, hasInit]
  · exact grafts_addChild_addChildren t node (memberKey (dseKeyInit ++ m)) (namedNode m)
      [("rm_mem_prepds".toList, DSNode.action "Remove".toList .rmMemberPrepdsAction)]

/-- A member is put somewhere below the folder, under a key of its own. -/
theorem prepChange_addMember {t t' : σ} {node : Path} {m : Str}
    (hnode : [srv, datasetPrepFolderNodeKey] <+: node)
    (h : addMemberToPrepDatasetNode t node m = .ok t') : PrepChange srv t t' := by
  obtain ⟨k, hk, n, hgrafts⟩ := addMemberToPrepDatasetNode_ok h
  have hbelow {q : Path} (hq : node ++ [k] <+: q) : [srv, datasetPrepFolderNodeKey] <+: q :=
    (hnode.trans (List.prefix_append node [k])).trans hq
  refine ⟨fun q hq => hgrafts.frame q fun hpre => hq (hbelow hpre), ?_, ?_⟩
  · apply hgrafts.ident_frame
    intro hpre
    have := (hbelow hpre).length_le
    simp at this
  · intro ds n' hn
    by_cases hpre : node ++ [k] <+: prepPath srv ds ++ [objRefNodeKey]
    · -- the member has no child with the key of a reference
      exfalso
      obtain ⟨r, hr⟩ := hpre
      rw [← hr, ← sub_apply, hgrafts.sub_eq] at hn
      have hlast : (node ++ [k] ++ r).getLast? = some objRefNodeKey := by rw [hr]; rfl
      cases r with
      | nil =>
        simp only [List.append_nil, List.getLast?_append, List.getLast?_singleton, Option.some_or,
          Option.some.injEq] at hlast
        rw [hlast] at hk
        exact absurd hk (by decide)
      | cons x rs =>
        obtain ⟨rfl, hmem⟩ := mem_of_withChildren_leaf hn
        have hx : x = "rm_mem_prepds".toList := by
          simpa using congrArg Prod.fst (List.mem_singleton.1 hmem)
        rw [hx] at hlast
        simp at hlast
        exact absurd hlast (by decide)
    · rw [← hgrafts.frame _ hpre]
      exact .inl hn

/-- An Add to dataset that ends. -/
theorem prepChange_addDAToDSAction (hsrv : hasInit srvKeyInit srv = true) {t t' : σ} {q : Path}
    {params : Json}
    (h : addDAToDSAction t (srv :: q) params = .ok t') : t' = t ∨ PrepChange srv t t' := by
  unfold addDAToDSAction at h
  split at h
  · cases h
    exact .inl rfl
  · cases h
    exact .inl rfl
  · obtain ⟨_, -, h⟩ := bind_eq_ok.1 h
    dsimp only at h
    split at h
    · split at h
      · cases h
      · rename_i main hmain
        split at h
        · cases h
          exact .inl rfl
        · rename_i prepDatasetNode hprep
          obtain ⟨ref, -, h⟩ := bind_eq_ok.1 h
          obtain ⟨fc, -, h⟩ := bind_eq_ok.1 h
          obtain ⟨_, -, h⟩ := bind_eq_ok.1 h
          right
          refine prepChange_addMember ?_ h
          rw [← getMainPrepDatasetNode_below hsrv hmain]
          exact (getPath_below _ _ _ _ hprep).1
    · cases h
      exact .inl rfl

/-- A prepared data set that is created has a key that no data set has. -/
theorem prepChange_createPrepDatasetNode (hsrv : hasInit srvKeyInit srv = true) {t t' : σ}
    {q : Path} {dsRef : Str} {created : Bool}
    (h : createPrepDatasetNode t (srv :: q) dsRef = .ok (created, t')) :
    t' = t ∨ PrepChange srv t t' := by
  unfold createPrepDatasetNode at h
  obtain ⟨_, -, h⟩ := bind_eq_ok.1 h
  split at h
  · rename_i main prep hmain hprep
    dsimp only at h
    split_ifs at h with hexists
    · cases h
      exact .inl rfl
    · cases h
      rw [getMainDatasetNode, folderOf_server hsrv t q (by decide) (by decide),
        child_eq_some] at hmain
      rw [getMainPrepDatasetNode_below hsrv hprep]
      have hnot : ¬ Live t (datasetPath srv (datasetKey dsRef)) := by
        intro hlive
        apply hexists
        have hchild : child t main (datasetKey dsRef) = some (main ++ [datasetKey dsRef]) := by
          rw [child_eq_some]
          refine ⟨rfl, ?_⟩
          rw [hmain.1]
          exact hlive
        rw [hchild]
        rfl
      have hgrafts := grafts_addChild_addChildren t [srv, datasetPrepFolderNodeKey]
        (datasetKey dsRef) (namedNode dsRef) (prepDatasetChildren dsRef)
      refine .inr ⟨?_, ?_, ?_⟩
      · intro q hq
        exact hgrafts.frame q fun hpre => hq ((List.prefix_append _ [datasetKey dsRef]).trans hpre)
      · apply hgrafts.ident_frame
        intro hpre
        simpa using hpre.length_le
      · intro ds n hn
        by_cases hds : datasetKey dsRef = ds
        · right
          rw [← hds] at hn ⊢
          refine ⟨hnot, ?_⟩
          have hobj : sub _ ([srv, datasetPrepFolderNodeKey] ++ [datasetKey dsRef])
              [objRefNodeKey] = some n := hn
          rw [hgrafts.sub_eq] at hobj
          have hmem := (mem_of_withChildren_leaf hobj).2
          simp only [prepDatasetChildren, List.mem_cons, Prod.mk.injEq, List.not_mem_nil,
            or_false] at hmem
          rcases hmem with ⟨-, rfl⟩ | ⟨hk, -⟩ | ⟨hk, -⟩
          · rintro ref ⟨⟩
            rfl
          · exact absurd hk (by decide)
          · exact absurd hk (by decide)
        · left
          rw [← hn]
          exact (hgrafts.frame _ (not_prefix_child (p := [srv, datasetPrepFolderNodeKey]) hds)).symm
  · cases h
    exact .inl rfl

/-- A Prepare Dataset that ends. -/
theorem prepChange_prepareDatasetAction (hsrv : hasInit srvKeyInit srv = true) {t t' : σ} {q : Path}
    {params : Json} (h : prepareDatasetAction t (srv :: q) params = .ok t') :
    t' = t ∨ PrepChange srv t t' := by
  unfold prepareDatasetAction at h
  split at h
  · cases h
    exact .inl rfl
  · split at h
    · cases h
      exact .inl rfl
    · obtain ⟨_, -, h⟩ := bind_eq_ok.1 h
      obtain ⟨⟨created, t₁⟩, h₁, h⟩ := bind_eq_ok.1 h
      cases h
      cases q with
      | nil =>
        -- the root has no server
        left
        obtain ⟨_, -, h₁⟩ := bind_eq_ok.1 h₁
        cases h₁
        rfl
      | cons k q => exact prepChange_createPrepDatasetNode hsrv h₁

/-! ## Creating and removing -/

/-- A Create on Server that ends: there is nothing to create, the server refuses, or
the data set is created and read back. -/
theorem createDsOnserverAction_ok {node : Path}
    (hcon : s.getServerIedConnection node = .ok (some con))
    (h : createDsOnserverAction svc s node = .ok s') :
    s' = s ∨ ∃ members ref, preparedMembers s.tree node.dropLast = .ok members ∧ members ≠ [] ∧
      shownText s.tree node.dropLast objRefNodeKey = .ok (some ref) ∧
      (((svc.createDataSet s.world con ref members).1 = false ∧ s'.tree = s.tree ∧
          s'.serverMap = s.serverMap ∧ s'.world = (svc.createDataSet s.world con ref members).2) ∨
        ((svc.createDataSet s.world con ref members).1 = true ∧ ∃ found s₁ s₂,
          s₁.tree = s.tree ∧ s₁.serverMap = s.serverMap ∧
          s₁.world = (svc.createDataSet s.world con ref members).2 ∧
          getDatasetInfoFromServerCreateNode svc s₁ node con ref = .ok (found, s₂) ∧
          s' = if found then { s₂ with tree := removeTree s₂.tree node.dropLast } else s₂)) := by
  unfold createDsOnserverAction at h
  obtain ⟨members, hmembers, h⟩ := bind_eq_ok.1 h
  obtain ⟨dsRef, href, h⟩ := bind_eq_ok.1 h
  split_ifs at h with hnone
  · cases h
    exact .inl rfl
  · rw [hcon, ok_bind, deref, ok_bind] at h
    obtain ⟨ref, hsome, h⟩ := bind_eq_ok.1 h
    rw [deref_eq_ok] at hsome
    rw [hsome] at href
    refine .inr ⟨members, ref, hmembers, hnone, href, ?_⟩
    dsimp only [send] at h
    split_ifs at h with hcreated
    · obtain ⟨⟨found, s₂⟩, hread, h⟩ := bind_eq_ok.1 h
      refine .inr ⟨hcreated, found,
        { s with
          world := (svc.createDataSet s.world con ref members).2
          requests := s.requests ++ [(con, .createDataSet ref members)] },
        s₂, rfl, rfl, rfl, hread, ?_⟩
      dsimp only at h
      split_ifs at h with hfound
      · cases h
        rw [if_pos hfound]
        rfl
      · cases h
        rw [if_neg hfound]
    · cases h
      exact .inl ⟨by simpa using hcreated, rfl, rfl, rfl⟩

/-- The data set that was created, and its preparation is gone. -/
theorem DataSetInv.dataSetCreated (h : DataSetInv dataSets con srv s) {ref : Str}
    {members : List Str} {t : σ} {isDeletable : Bool} {cs : List (Str × DSNode)}
    (hobj : Live s.tree (prepPath srv (datasetKey ref) ++ [objRefNodeKey]))
    (hgrafts : Grafts s.tree t (datasetPath srv (datasetKey ref))
      (withChildren (Subtree.leaf { namedNode ref with data := .members members })
        (datasetChildren ref isDeletable ++ cs)))
    (hcs : List.Forall₂ MemberNode members cs) (hslash : ∀ m ∈ members, '/' ∈ m)
    (htree : s'.tree = removeTree t (prepPath srv (datasetKey ref)))
      (hmap : s'.serverMap = s.serverMap)
    (hworld : dataSets s'.world = Function.update (dataSets s.world) ref (some members)) :
    DataSetInv dataSets con srv s' := by
  have hnew := h.apart _ hobj
  have hgone {q : Path} (hq : ¬ [srv, datasetPrepFolderNodeKey] <+: q) :
      lookup s'.tree q = lookup t q := by
    rw [htree]
    apply lookup_removeTree_of_not_below
    exact fun hpre =>
      hq ((List.prefix_append [srv, datasetPrepFolderNodeKey] [datasetKey ref]).trans hpre)
  have hsame (r : Path) : lookup s'.tree (datasetPath srv (datasetKey ref) ++ r) =
      lookup t (datasetPath srv (datasetKey ref) ++ r) := hgone (not_prefix_of_ne (by decide) _)
  have hother {ds : Str} (hne : datasetKey ref ≠ ds) (r : Path) :
      lookup s'.tree (datasetPath srv ds ++ r) = lookup s.tree (datasetPath srv ds ++ r) := by
    rw [hgone (q := datasetPath srv ds ++ r) (not_prefix_of_ne (by decide) _)]
    exact hgrafts.frame _ (not_prefix_child (p := [srv, datasetFolderNodeKey]) hne)
  have hprep {q : Path} {n : DSNode}
      (hn : lookup s'.tree ([srv, datasetPrepFolderNodeKey] ++ q) = some n) :
      ¬ prepPath srv (datasetKey ref) <+: [srv, datasetPrepFolderNodeKey] ++ q ∧
        lookup s.tree ([srv, datasetPrepFolderNodeKey] ++ q) = some n := by
    rw [htree, lookup_removeTree] at hn
    split_ifs at hn with hpre
    refine ⟨hpre, ?_⟩
    rw [← hn]
    symm
    apply hgrafts.frame
    exact fun hpre =>
      not_prefix_of_ne (by decide) q ((List.prefix_append [srv, datasetFolderNodeKey] _).trans hpre)
  have hkeys {ref' : Str} {members' : List Str} (hds : dataSets s.world ref' = some members') :
      datasetKey ref ≠ datasetKey ref' := by
    intro hkey
    apply hnew
    rw [hkey]
    exact (h.shown ref' members' hds).live
  refine ⟨h.isServer, ?_, ?_, ?_, ?_, ?_, ?_⟩
  · have hident : ident s'.tree [srv] = ident s.tree [srv] := by
      rw [htree, ident_removeTree]
      apply hgrafts.ident_frame
      intro hpre
      simpa using hpre.length_le
    exact connected_of_eq hmap hident h.connected
  · rw [Live, hgone (not_prefix_of_ne (by decide) []), hgrafts.frame]
    · exact h.folder
    · intro hpre
      simpa using hpre.length_le
  · intro ref' members' hds
    rw [hworld, Function.update_apply] at hds
    split_ifs at hds with href
    · cases hds
      rw [href]
      refine ⟨isDeletable, cs, hcs, hslash, ?_⟩
      rw [← hgrafts.sub_eq]
      funext r
      exact hsame r
    · exact (h.shown ref' members' hds).congr (hother (hkeys hds))
  · intro ds r hlive
    rw [hworld]
    by_cases hds : datasetKey ref = ds
    · exact ⟨ref, members, Function.update_self .., hds.symm⟩
    · rw [Live, hother hds] at hlive
      obtain ⟨ref', members', hds', rfl⟩ := h.below ds r hlive
      refine ⟨ref', members', ?_, rfl⟩
      rw [Function.update_of_ne, hds']
      rintro rfl
      exact hds rfl
  · exact fun ds n ref' hn => h.prepared ds n ref' (hprep (q := [ds, objRefNodeKey]) hn).2
  · intro ds hlive
    obtain ⟨n, hn⟩ := Option.isSome_iff_exists.1 hlive
    obtain ⟨hpre, hold⟩ := hprep (q := [ds, objRefNodeKey]) hn
    have hne : datasetKey ref ≠ ds := by
      rintro rfl
      exact hpre (List.prefix_append _ _)
    have hdatasets := hother hne []
    rw [List.append_nil] at hdatasets
    rw [Live, hdatasets]
    apply h.apart ds
    rw [Live]
    show (lookup s.tree ([srv, datasetPrepFolderNodeKey] ++ [ds, objRefNodeKey])).isSome = true
    rw [hold]
    rfl

/-- A data set that is deleted. -/
theorem DataSetInv.dataSetDeleted (h : DataSetInv dataSets con srv s) {ref : Str}
    {members : List Str} (hds : dataSets s.world ref = some members)
    (htree : s'.tree = removeTree s.tree (datasetPath srv (datasetKey ref)))
    (hmap : s'.serverMap = s.serverMap)
    (hworld : dataSets s'.world = Function.update (dataSets s.world) ref none) :
    DataSetInv dataSets con srv s' := by
  have hframe {q : Path} (hq : ¬ datasetPath srv (datasetKey ref) <+: q) :
      lookup s'.tree q = lookup s.tree q := by
    rw [htree]
    exact lookup_removeTree_of_not_below hq
  have hother {ds : Str} (hne : datasetKey ref ≠ ds) (r : Path) :
      lookup s'.tree (datasetPath srv ds ++ r) = lookup s.tree (datasetPath srv ds ++ r) :=
    hframe (not_prefix_child (p := [srv, datasetFolderNodeKey]) hne)
  have hprep (q : Path) : lookup s'.tree ([srv, datasetPrepFolderNodeKey] ++ q) =
      lookup s.tree ([srv, datasetPrepFolderNodeKey] ++ q) :=
    hframe fun hpre =>
      not_prefix_of_ne (by decide) q ((List.prefix_append [srv, datasetFolderNodeKey] _).trans hpre)
  have hlive {ds : Str} {r : Path} (hlive : Live s'.tree (datasetPath srv ds ++ r)) :
      datasetKey ref ≠ ds := by
    rintro rfl
    rw [Live, htree, lookup_removeTree, if_pos (List.prefix_append _ _)] at hlive
    cases hlive
  refine ⟨h.isServer, ?_, ?_, ?_, ?_, ?_, ?_⟩
  · have hident : ident s'.tree [srv] = ident s.tree [srv] := by
      rw [htree, ident_removeTree]
    exact connected_of_eq hmap hident h.connected
  · rw [Live, hframe]
    · exact h.folder
    · intro hpre
      simpa using hpre.length_le
  · intro ref' members' hds'
    rw [hworld, Function.update_apply] at hds'
    split_ifs at hds' with href
    have hshown := h.shown ref' members' hds'
    refine hshown.congr (hother fun hkey => href ?_)
    exact ((h.shown ref members hds).injective hshown hkey).symm
  · intro ds r hl
    have hne := hlive hl
    rw [Live, hother hne] at hl
    obtain ⟨ref', members', hds', rfl⟩ := h.below ds r hl
    refine ⟨ref', members', ?_, rfl⟩
    rw [hworld, Function.update_of_ne, hds']
    rintro rfl
    exact hne rfl
  · intro ds n ref' hn
    rw [show prepPath srv ds ++ [objRefNodeKey] = [srv, datasetPrepFolderNodeKey] ++
      [ds, objRefNodeKey] from rfl, hprep] at hn
    exact h.prepared ds n ref' hn
  · intro ds hl hdataset
    rw [Live, show prepPath srv ds ++ [objRefNodeKey] = [srv, datasetPrepFolderNodeKey] ++
      [ds, objRefNodeKey] from rfl, hprep] at hl
    have hne : datasetKey ref ≠ ds := hlive (r := []) (by rwa [List.append_nil])
    have hdatasets := hother hne []
    rw [List.append_nil] at hdatasets
    rw [Live, hdatasets] at hdataset
    exact h.apart ds hl hdataset

theorem DataSetInv.congr (h : DataSetInv dataSets con srv s) (htree : s'.tree = s.tree)
    (hmap : s'.serverMap = s.serverMap) (hworld : dataSets s'.world = dataSets s.world) :
    DataSetInv dataSets con srv s' where
  isServer := h.isServer
  connected := connected_of_eq hmap (by rw [htree]) h.connected
  folder := htree ▸ h.folder
  shown ref members hds := htree ▸ h.shown ref members (hworld ▸ hds)
  below ds r hlive := hworld ▸ h.below ds r (htree ▸ hlive)
  prepared ds n ref hn := h.prepared ds n ref (htree ▸ hn)
  apart ds hlive := htree ▸ h.apart ds (htree ▸ hlive)

/-! ## One request -/

/-- A data set that the server creates for a prepared data set can be read back. -/
def ReadBack (svc : IedService W) (con : ConnId) (srv : Str) (s : LinkState σ W) :
    DataSetRequest → Prop
  | .create ds =>
      Invokes s.tree (prepPath srv ds ++ ["createdataset".toList]) .createDsOnserverAction →
      ∀ members ref, preparedMembers s.tree (prepPath srv ds) = .ok members → members ≠ [] →
        shownText s.tree (prepPath srv ds) objRefNodeKey = .ok (some ref) →
        (svc.createDataSet s.world con ref members).1 = true →
        (svc.getDataSetDirectory (svc.createDataSet s.world con ref members).2 con
          ref).1.isSome = true
  | _ => True

/-- A prepared data set is gone only when the server has it with its members. -/
def GoneWhenCreated (dataSets : W → Str → Option (List Str)) (srv : Str) (s s' : LinkState σ W)
    (ds : Str) : Prop :=
  ∀ members, preparedMembers s.tree (prepPath srv ds) = .ok members →
    Live s.tree (prepPath srv ds) → ¬ Live s'.tree (prepPath srv ds) →
    ∃ ref, shownText s.tree (prepPath srv ds) objRefNodeKey = .ok (some ref) ∧
      dataSets s'.world ref = some members

/-- After the request the folder and the server agree, and a Create on Server has
dropped the preparation only of what is there. -/
def KeepsDataSets (svc : IedService W) (dataSets : W → Str → Option (List Str)) (srv : Str)
    (s : LinkState σ W) (r : DataSetRequest) : Prop :=
  ∀ s', dataSetStep svc srv s r = .ok s' →
    DataSetsAgree dataSets srv s' ∧ ∀ ds, r = .create ds → GoneWhenCreated dataSets srv s s' ds

/-- The node that shows a reference. -/
theorem lookup_of_shownText {t : σ} {p : Path} {ref : Str}
    (h : shownText t p objRefNodeKey = .ok (some ref)) :
    ∃ n, lookup t (p ++ [objRefNodeKey]) = some n ∧ Json.stringValue (some n.value) = some ref := by
  unfold shownText at h
  split at h
  · cases h
  · rename_i q hq
    rw [getPath_eq_child (by decide) (by decide), child_eq_some] at hq
    obtain ⟨rfl, hlive⟩ := hq
    obtain ⟨n, hn⟩ := Option.isSome_iff_exists.1 hlive
    refine ⟨n, hn, ?_⟩
    rw [valueOf, hn] at h
    exact Except.ok.inj h

theorem DataSetInv.preparedKey (h : DataSetInv dataSets con srv s) {ds ref : Str}
    (href : shownText s.tree (prepPath srv ds) objRefNodeKey = .ok (some ref)) :
    ds = datasetKey ref ∧ Live s.tree (prepPath srv ds ++ [objRefNodeKey]) := by
  obtain ⟨n, hn, hvalue⟩ := lookup_of_shownText href
  refine ⟨h.prepared ds n ref hn hvalue, ?_⟩
  rw [Live, hn]
  rfl

theorem dropLast_snoc (p : Path) (k : Str) : (p ++ [k]).dropLast = p := List.dropLast_concat

/-- A Create on Server whose data set is read back. -/
theorem create_keeps (hsvc : DataSetServer svc con dataSets) (h : DataSetInv dataSets con srv s)
    {ds : Str} (hback : ReadBack svc con srv s (.create ds))
    (hinv : Invokes s.tree (prepPath srv ds ++ ["createdataset".toList]) .createDsOnserverAction)
    (hs : createDsOnserverAction svc s (prepPath srv ds ++ ["createdataset".toList]) = .ok s') :
    DataSetInv dataSets con srv s' ∧ GoneWhenCreated dataSets srv s s' ds := by
  have hcon : s.getServerIedConnection (prepPath srv ds ++ ["createdataset".toList]) =
      .ok (some con) :=
    h.connected
  rcases createDsOnserverAction_ok hcon hs with
    rfl | ⟨members, ref, hmembers, hne, href, ⟨hrefused, htree, hmap, hworld⟩ |
      ⟨hcreated, found, s₁, s₂, htree₁, hmap₁, hworld₁, hread, rfl⟩⟩
  · exact ⟨h, fun _ _ hlive hgone => absurd hlive hgone⟩
  · refine ⟨h.congr htree hmap ?_, fun _ _ hlive hgone => absurd (htree ▸ hlive) hgone⟩
    rw [hworld]
    exact hsvc.notCreated _ _ _ hrefused
  · rw [dropLast_snoc] at hmembers href
    obtain ⟨rfl, hobj⟩ := h.preparedKey href
    have hreply := hback hinv members ref hmembers hne href hcreated
    have hstored := hsvc.created _ _ _ hcreated
    obtain ⟨hstep, hworld₂,
        ⟨-, -, hnone | hmain⟩ | ⟨rfl, main, members', isDeletable, cs, hmain, hdir, hdata⟩⟩ :=
      getDatasetInfoFromServerCreateNode_ok hread
    · rw [hworld₁] at hnone
      rw [hnone] at hreply
      cases hreply
    · rw [htree₁, prepPath, getMainDatasetNode] at hmain
      rw [show [srv, datasetPrepFolderNodeKey, datasetKey ref] ++ ["createdataset".toList] =
          srv :: [datasetPrepFolderNodeKey, datasetKey ref, "createdataset".toList] from rfl,
        folderOf_server h.isServer _ _ (by decide) (by decide), child] at hmain
      have hfolder := h.folder
      unfold Live at hfolder
      rw [List.singleton_append, hfolder] at hmain
      cases hmain
    · rw [htree₁] at hmain
      obtain rfl := getMainDatasetNode_below h.isServer hmain
      have hsame := hsvc.directory _ _ _ _ hdir
      rw [hworld₁, hstored, Function.update_self] at hsame
      cases hsame
      have hgrafts := hdata.grafts
      rw [htree₁] at hgrafts
      have hfinal : dataSets s₂.world = Function.update (dataSets s.world) ref (some members) := by
        rw [hworld₂, hsvc.directory_keeps, hworld₁, hstored]
      rw [if_pos rfl, dropLast_snoc]
      refine ⟨?_, ?_⟩
      · exact h.dataSetCreated hobj hgrafts hdata.memberNodes hdata.slash rfl
          (hstep.serverMap_eq.trans hmap₁) hfinal
      · intro members' hmembers' _ _
        rw [hmembers] at hmembers'
        cases hmembers'
        refine ⟨ref, href, ?_⟩
        show dataSets s₂.world ref = _
        rw [hfinal, Function.update_self]

/-- A data set is removed from the server, and then its node. -/
theorem remove_keeps (hsvc : DataSetServer svc con dataSets) (h : DataSetInv dataSets con srv s)
    {ds : Str}
    (hinv : Invokes s.tree (datasetPath srv ds ++ ["removedataset".toList]) .removeDatasetAction)
    (hs : removeDatasetAction svc s (datasetPath srv ds ++ ["removedataset".toList]) = .ok s') :
    DataSetInv dataSets con srv s' := by
  have hcon : s.getServerIedConnection (datasetPath srv ds ++ ["removedataset".toList]) =
      .ok (some con) :=
    h.connected
  obtain ⟨ref, members, hds, rfl⟩ := h.below ds _ hinv.live
  unfold removeDatasetAction at hs
  rw [dropLast_snoc, hcon, ok_bind] at hs
  dsimp only at hs
  rw [(h.shown ref members hds).objRef, ok_bind] at hs
  cases hdeleted : (svc.deleteDataSet s.world con ref).1 with
  | true =>
    simp only [send, hdeleted, if_true] at hs
    cases hs
    exact h.dataSetDeleted hds rfl rfl (hsvc.deleted _ _ hdeleted)
  | false =>
    simp only [send, hdeleted, Bool.false_eq_true, if_false] at hs
    cases hs
    exact h.congr rfl rfl (hsvc.notDeleted _ _ hdeleted)

/-- A request other than Create on Server, or one whose data set is read back. -/
theorem dataSetStep_keeps (hsvc : DataSetServer svc con dataSets)
    (h : DataSetInv dataSets con srv s) {r : DataSetRequest} (hback : ReadBack svc con srv s r)
    (hs : dataSetStep svc srv s r = .ok s') :
    DataSetInv dataSets con srv s' ∧ ∀ ds, r = .create ds →
    GoneWhenCreated dataSets srv s s' ds := by
  have hprep {t : σ} (hchange : t = s.tree ∨ PrepChange srv s.tree t) :
      DataSetInv dataSets con srv { s with tree := t } := by
    rcases hchange with rfl | hchange
    · exact h
    · exact h.prepChange hchange
  unfold dataSetStep at hs
  cases r with
  | prepare node params =>
    refine ⟨?_, fun _ hr => by cases hr⟩
    dsimp only at hs
    split_ifs at hs with hinv
    · obtain ⟨t, ht, hs⟩ := bind_eq_ok.1 hs
      cases hs
      exact hprep (prepChange_prepareDatasetAction h.isServer ht)
    · cases hs
      exact h
  | add node params =>
    refine ⟨?_, fun _ hr => by cases hr⟩
    dsimp only at hs
    split_ifs at hs with hinv
    · obtain ⟨t, ht, hs⟩ := bind_eq_ok.1 hs
      cases hs
      exact hprep (prepChange_addDAToDSAction h.isServer ht)
    · cases hs
      exact h
  | removeMember ds member =>
    refine ⟨?_, fun _ hr => by cases hr⟩
    dsimp only at hs
    split_ifs at hs with hinv
    · cases hs
      exact hprep (.inr (prepChange_removeTree s.tree ds [member]))
    · cases hs
      exact h
  | removePrepared ds =>
    refine ⟨?_, fun _ hr => by cases hr⟩
    dsimp only at hs
    split_ifs at hs with hinv
    · cases hs
      exact hprep (.inr (prepChange_removeTree s.tree ds []))
    · cases hs
      exact h
  | create ds =>
    dsimp only at hs
    split_ifs at hs with hinv
    · obtain ⟨hkeep, hgone⟩ := create_keeps hsvc h hback hinv hs
      refine ⟨hkeep, ?_⟩
      rintro _ ⟨⟩
      exact hgone
    · cases hs
      exact ⟨h, fun _ _ _ _ hlive hgone => absurd hlive hgone⟩
  | remove ds =>
    refine ⟨?_, fun _ hr => by cases hr⟩
    dsimp only at hs
    split_ifs at hs with hinv
    · exact remove_keeps hsvc h hinv hs
    · cases hs
      exact h

/-- A data set that the server creates and that is not read back has no node. -/
theorem create_unread (hsvc : DataSetServer svc con dataSets) (h : DataSetInv dataSets con srv s)
    {ds ref : Str} {members : List Str}
    (hinv : Invokes s.tree (prepPath srv ds ++ ["createdataset".toList]) .createDsOnserverAction)
    (hmembers : preparedMembers s.tree (prepPath srv ds) = .ok members) (hne : members ≠ [])
    (href : shownText s.tree (prepPath srv ds) objRefNodeKey = .ok (some ref))
    (hcreated : (svc.createDataSet s.world con ref members).1 = true)
    (hunread : (svc.getDataSetDirectory (svc.createDataSet s.world con ref members).2 con ref).1 =
      none) :
    ∃ s', dataSetStep svc srv s (.create ds) = .ok s' ∧ ¬ DataSetsAgree dataSets srv s' := by
  have hcon : s.getServerIedConnection (prepPath srv ds ++ ["createdataset".toList]) =
      .ok (some con) :=
    h.connected
  have hrun : ∃ s', dataSetStep svc srv s (.create ds) = .ok s' ∧ s'.tree = s.tree ∧
      s'.world = (svc.getDataSetDirectory
        (svc.createDataSet s.world con ref members).2 con ref).2 := by
    unfold dataSetStep
    dsimp only
    rw [if_pos hinv]
    unfold createDsOnserverAction
    rw [dropLast_snoc]
    dsimp only
    rw [hmembers, ok_bind, href, ok_bind, if_neg hne, hcon, ok_bind, deref, ok_bind, deref, ok_bind]
    simp only [send, hcreated, if_true, getDatasetInfoFromServerCreateNode, call, hunread]
    exact ⟨_, rfl, rfl, rfl⟩
  obtain ⟨s', hs', htree, hworld⟩ := hrun
  refine ⟨s', hs', fun hagree => ?_⟩
  obtain ⟨rfl, hobj⟩ := h.preparedKey href
  have hstored : dataSets s'.world ref = some members := by
    rw [hworld, hsvc.directory_keeps, hsvc.created _ _ _ hcreated, Function.update_self]
  apply h.apart _ hobj
  rw [← htree]
  exact (hagree.shown ref members hstored).live

/-- One request. -/
theorem dataSetStep_keeps_iff (hsvc : DataSetServer svc con dataSets)
    (h : DataSetInv dataSets con srv s)
    (r : DataSetRequest) : KeepsDataSets svc dataSets srv s r ↔ ReadBack svc con srv s r := by
  constructor
  · intro hkeep
    cases r with
    | create ds =>
      intro hinv members ref hmembers hne href hcreated
      by_contra hunread
      obtain ⟨s', hs', hnot⟩ := create_unread hsvc h hinv hmembers hne href hcreated
        (Option.not_isSome_iff_eq_none.1 hunread)
      exact hnot (hkeep s' hs').1
    | prepare | add | removeMember | removePrepared | remove => trivial
  · intro hback s' hs
    obtain ⟨hinv, hgone⟩ := dataSetStep_keeps hsvc h hback hs
    exact ⟨hinv.agree, hgone⟩

/-- **Data sets.** Along a run the folder and the server agree after every request
exactly when every data set that is created is read back. -/
theorem dataSets_agree_iff (hsvc : DataSetServer svc con dataSets)
    (h : DataSetInv dataSets con srv s) (run : List DataSetRequest) :
    Along (dataSetStep svc srv) (KeepsDataSets svc dataSets srv) s run ↔
      Along (dataSetStep svc srv) (ReadBack svc con srv) s run :=
  along_iff (fun _ _ _ h hback hs => (dataSetStep_keeps hsvc h hback hs).1)
    (fun _ r h => dataSetStep_keeps_iff hsvc h r) h run

/-! ## A server whose directories cannot be read -/

section NewFolders

variable {t : σ}

/-- A path that lies in none of the last three nodes. -/
theorem lookup_newFolders {q : Path} (hu : ¬ [srv, urcbFolderNodeKey] <+: q)
    (hb : ¬ [srv, brcbFolderNodeKey] <+: q)
    (hdesc : ¬ [srv, datasetPrepFolderNodeKey, "desc".toList] <+: q) :
    lookup (createDatasetReportNodes t [srv]) q =
      lookup (addChild (addChild t [srv] datasetFolderNodeKey (folderNode "Data Sets".toList)) [srv]
        datasetPrepFolderNodeKey (folderNode "Data Set Prep".toList)) q := by
  unfold createDatasetReportNodes
  rw [lookup_addChild_of_not_below hb, lookup_addChild_of_not_below hu,
    lookup_addChild_of_not_below hdesc]

theorem lookup_newFolders_datasets (r : Path) :
    lookup (createDatasetReportNodes t [srv]) (srv :: datasetFolderNodeKey :: r) =
      lookup (addChild t [srv] datasetFolderNodeKey (folderNode "Data Sets".toList))
        (srv :: datasetFolderNodeKey :: r) := by
  rw [lookup_newFolders (not_prefix_of_ne (by decide) r) (not_prefix_of_ne (by decide) r)]
  · exact lookup_addChild_of_not_below (not_prefix_of_ne (by decide) r)
  · exact fun hpre =>
      not_prefix_of_ne (by decide) r ((List.prefix_append _ ["desc".toList]).trans hpre)

/-- The folder of the data sets is empty. -/
theorem lookup_newFolders_dataset (ds : Str) (r : Path) :
    lookup (createDatasetReportNodes t [srv]) (datasetPath srv ds ++ r) = none :=
  (lookup_newFolders_datasets (ds :: r)).trans
    (lookup_addChild_below (p := [srv]) (r := ds :: r) (by simp))

/-- The folder of the prepared data sets has one child, which has none. -/
theorem lookup_newFolders_prep {ds : Str} {r : Path} (h : ds ≠ "desc".toList ∨ r ≠ []) :
    lookup (createDatasetReportNodes t [srv]) (prepPath srv ds ++ r) = none := by
  show lookup (createDatasetReportNodes t [srv]) (srv :: datasetPrepFolderNodeKey :: ds :: r) = _
  by_cases hds : "desc".toList = ds
  · have hr := h.resolve_left fun hne => hne hds.symm
    rw [← hds]
    unfold createDatasetReportNodes
    rw [lookup_addChild_of_not_below (not_prefix_of_ne (by decide) _),
      lookup_addChild_of_not_below (not_prefix_of_ne (by decide) _)]
    exact lookup_addChild_below (p := [srv, datasetPrepFolderNodeKey]) hr
  · rw [lookup_newFolders (not_prefix_of_ne (by decide) _) (not_prefix_of_ne (by decide) _)]
    · exact lookup_addChild_below (p := [srv]) (r := ds :: r) (by simp)
    · exact not_prefix_child (p := [srv, datasetPrepFolderNodeKey]) hds

end NewFolders

/-- After the folders were created there is neither a data set nor a prepared one. -/
theorem dataSetInv_folders (hsrv : hasInit srvKeyInit srv = true)
    (hcon : s.getServerIedConnection [srv] = .ok (some con))
    (hnone : ∀ ref, dataSets s.world ref = none) :
    DataSetInv dataSets con srv { s with tree := createDatasetReportNodes s.tree [srv] } := by
  have hprep (ds : Str) :
      lookup (createDatasetReportNodes s.tree [srv]) (prepPath srv ds ++ [objRefNodeKey]) = none :=
    lookup_newFolders_prep (.inr (by simp))
  refine ⟨hsrv, ?_, ?_, ?_, ?_, ?_, ?_⟩
  · refine connected_of_eq (s := s) rfl ?_ hcon
    simp only [createDatasetReportNodes, ident_addChild]
    rw [if_neg (by simp), if_neg (by simp), if_neg (by simp), if_neg (by simp), if_neg (by simp)]
  · have hlookup : lookup _ [srv, datasetFolderNodeKey] = _ :=
        lookup_newFolders_datasets (t := s.tree) []
    rw [Live, hlookup]
    show (lookup (addChild s.tree [srv] _ _) ([srv] ++ [datasetFolderNodeKey])).isSome = true
    rw [lookup_addChild_self]
    rfl
  · intro ref members hds
    rw [hnone] at hds
    cases hds
  · intro ds r hlive
    rw [Live, lookup_newFolders_dataset] at hlive
    cases hlive
  · intro ds n ref hn
    rw [hprep] at hn
    cases hn
  · intro ds hlive
    rw [Live, hprep] at hlive
    cases hlive

/-- A server that keeps data sets by their references; the directories can be read
or not. -/
def storeService (readable : Bool) : IedService (Str → Option (List Str)) :=
  { IedService.silent _ with
    createDataSet := fun w _ ref members =>
      if (w ref).isSome then (false, w) else (true, Function.update w ref (some members))
    deleteDataSet := fun w _ ref =>
      if (w ref).isSome then (true, Function.update w ref none) else (false, w)
    getDataSetDirectory := fun w _ ref =>
      (if readable then (w ref).map fun members => (members, true) else none, w) }

theorem dataSetServer_storeService (readable : Bool) :
    DataSetServer (storeService readable) con id where
  created w ref members h := by
    by_cases hw : (w ref).isSome = true
    · simp [storeService, hw] at h
    · simp [storeService, hw]
  notCreated w ref members h := by
    by_cases hw : (w ref).isSome = true
    · simp [storeService, hw]
    · simp [storeService, hw] at h
  deleted w ref h := by
    by_cases hw : (w ref).isSome = true
    · simp [storeService, hw]
    · simp [storeService, hw] at h
  notDeleted w ref h := by
    by_cases hw : (w ref).isSome = true
    · simp [storeService, hw] at h
    · simp [storeService, hw]
  directory w ref members isDeletable h := by
    cases readable with
    | true =>
      have hread : w ref = some members ∧ isDeletable = true := by simpa [storeService] using h
      exact hread.1
    | false => simp [storeService] at h
  directory_keeps w ref := rfl

/-- A server with one data attribute. -/
def attributeTree : NodeStore :=
  let srv := "srv_a".toList
  let t := addChild NodeStore.empty [] srv (serverNodeOf "a".toList)
  let t := createLNNode t [srv, "ldn_D".toList] "D/L".toList "L".toList
  createDANode t [srv, "ldn_D".toList, "L".toList] "D/L.x".toList "x[ST]".toList "ST".toList .ST
    "MMS_BOOLEAN".toList

/-- The link with that server. -/
def attributeLink : LinkState NodeStore (Str → Option (List Str)) :=
  { tree := createDatasetReportNodes attributeTree ["srv_a".toList],
    serverMap := [({ path := ["srv_a".toList], ident := 1 },
      { hostname := "h".toList, tcpPort := 102, iedConn := 0 })],
    connections := [], nextConn := 1, world := fun _ => none, requests := [] }

theorem dataSetInv_attributeLink : DataSetInv id 0 "srv_a".toList attributeLink :=
  dataSetInv_folders (s := { attributeLink with tree := attributeTree }) (by decide)
    (by rfl) fun _ => rfl

/-- A data set is prepared. -/
def prepareOne : DataSetRequest :=
  .prepare ["ldn_D".toList, "L".toList, "prepdataset".toList]
    (.object [("Name".toList, .string "ds".toList)])

/-- The attribute is added to it. -/
def addOne : DataSetRequest :=
  .add ["ldn_D".toList, "L".toList, "x[ST]".toList, "adddataset".toList]
    (.object [("Dataset".toList, .string "D$L.ds".toList)])

/-- A data set with the attribute is prepared and created. -/
def createOne : List DataSetRequest := [prepareOne, addOne, .create "dts_D$L.ds".toList]

theorem dataSets_agree_iff_createOne :
    Along (dataSetStep (storeService true) "srv_a".toList)
      (KeepsDataSets (storeService true) id "srv_a".toList)
        attributeLink createOne ↔
      Along (dataSetStep (storeService true) "srv_a".toList)
        (ReadBack (storeService true) 0 "srv_a".toList) attributeLink createOne :=
  dataSets_agree_iff (dataSetServer_storeService true) dataSetInv_attributeLink createOne

/-- The link after the first requests. -/
def afterRequests (n : ℕ) : LinkState NodeStore (Str → Option (List Str)) :=
  match (createOne.take n).foldlM
    (dataSetStep (storeService false) "srv_a".toList) attributeLink with
  | .ok s => s
  | .error _ => attributeLink

theorem preparedMembers_afterRequests :
    preparedMembers (afterRequests 2).tree (prepPath "srv_a".toList "dts_D$L.ds".toList) =
      .ok ["D/L.x[ST]".toList] := by rfl

theorem shownText_afterRequests :
    shownText (afterRequests 2).tree (prepPath "srv_a".toList "dts_D$L.ds".toList) objRefNodeKey =
      .ok (some "D/L.ds".toList) := by rfl

/-- The server creates the data set, and its directory cannot be read. -/
theorem createOne_unread :
    DataSetServer (storeService false) 0 id ∧ DataSetInv id 0 "srv_a".toList attributeLink ∧
      ¬ Along (dataSetStep (storeService false) "srv_a".toList)
        (KeepsDataSets (storeService false) id "srv_a".toList) attributeLink createOne := by
  have hsvc : DataSetServer (storeService false) 0 id := dataSetServer_storeService false
  refine ⟨hsvc, dataSetInv_attributeLink, fun h => ?_⟩
  have hprepare : dataSetStep (storeService false) "srv_a".toList attributeLink prepareOne =
      .ok (afterRequests 1) := by rfl
  have hadd : dataSetStep (storeService false) "srv_a".toList (afterRequests 1) addOne =
      .ok (afterRequests 2) := by rfl
  have hinv₁ := (dataSetStep_keeps
    (r := prepareOne) hsvc dataSetInv_attributeLink trivial hprepare).1
  have hinv₂ := (dataSetStep_keeps (r := addOne) hsvc hinv₁ trivial hadd).1
  obtain ⟨hkeeps, -⟩ := (h.2 _ hprepare).2 _ hadd
  have hback := (dataSetStep_keeps_iff hsvc hinv₂ _).1 hkeeps (by decide +kernel) _ _
    preparedMembers_afterRequests (by decide) shownText_afterRequests (by decide +kernel)
  exact absurd hback (by decide +kernel)

end DslinkIec61850
