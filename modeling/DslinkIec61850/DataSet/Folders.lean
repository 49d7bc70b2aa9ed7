import DslinkIec61850.DataSet.Preparation
import DslinkIec61850.Discovery.Controls
import DslinkIec61850.Discovery.Frame
import DslinkIec61850.Link.Clearing
import DslinkIec61850.Link.Requests

/-!
# The two folders of a server

A data set reference has its node in `datasets` when the server has the data set
and in `dataset_prep` while it is prepared. The reference is looked up in both
folders only when it is prepared (dataset_handler.c:449–459); Create on Server
adds the node to the one before it takes it from the other, and a discovery fills
the one that it has emptied together with the other.

* `folderStep_changes`: what a request can do to the folders of its server.
* `folders_run`: after every run no reference is shown twice, and every data set
  has the key of the reference that it shows.
-/

namespace DslinkIec61850

open DSLink LinkState Run Strings Subtree

variable {σ W : Type} [DSLink σ] {svc : IedService W} {con : ConnId} {srv : Str} {t t' : σ}

/-! ## Requests -/

/-- The requests that reach the folders, each for a server. -/
inductive FolderRequest where
  | discover (server : Str)
  | clear (server : Str)
  | dataSet (server : Str) (r : DataSetRequest)

/-- The server of a request. -/
def FolderRequest.server : FolderRequest → Str
  | .discover server => server
  | .clear server => server
  | .dataSet server _ => server

/-- A request; one for a node that is not there has no effect. -/
def folderStep (svc : IedService W) (s : LinkState σ W) :
    FolderRequest → Except Fault (LinkState σ W)
  | .discover server => linkStep svc s (.discover server)
  | .clear server => linkStep svc s (.clear server)
  | .dataSet server r => dataSetStep svc (srvKey server) s r

/-- The data set that a member is added to has no `/` in its name. -/
def FolderRequest.Plain : FolderRequest → Prop
  | .dataSet _ (.add _ params) =>
    ∀ name, Json.stringValue (params.objectGet "Dataset".toList) = some name → '/' ∉ name
  | _ => True

/-! ## What is shown -/

/-- The value of `objref` below a node. -/
def shownRef (t : σ) (p : Path) : Option Str :=
  (lookup t (p ++ [objRefNodeKey])).bind fun n => Json.stringValue (some n.value)

/-- The child of `dataset_prep` that is not a data set. -/
def descKey : Str := "desc".toList

/-- No reference is shown twice, and the key of a data set is the key of the
reference that it shows. -/
structure DataSetFolders (srv : Str) (t : σ) : Prop where
  datasets : ∀ ds ∈ children t [srv, datasetFolderNodeKey],
    ∃ ref, shownRef t (datasetPath srv ds) = some ref ∧ ds = datasetKey ref
  prepared : ∀ ds ∈ children t [srv, datasetPrepFolderNodeKey], ds ≠ descKey →
    ∃ ref, shownRef t (prepPath srv ds) = some ref ∧ ds = datasetKey ref
  apart : ∀ ds ∈ children t [srv, datasetFolderNodeKey],
    ∀ ds' ∈ children t [srv, datasetPrepFolderNodeKey],
    ∀ ref, shownRef t (datasetPath srv ds) = some ref → shownRef t (prepPath srv ds') ≠ some ref
  once : ∀ folder ∈ [datasetFolderNodeKey, datasetPrepFolderNodeKey],
    ∀ ds ∈ children t [srv, folder],
    ∀ ds' ∈ children t [srv, folder], ∀ ref, shownRef t [srv, folder, ds] = some ref →
      shownRef t [srv, folder, ds'] = some ref → ds = ds'

/-- What holds between the requests. A reference of a prepared data set lies below
its data set and has no action of a member below it. -/
structure FoldersInv (srv : Str) (t : σ) : Prop where
  dataset : ∀ ds, Live t (datasetPath srv ds) →
    ∃ ref, shownRef t (datasetPath srv ds) = some ref ∧ ds = datasetKey ref
  prepared : ∀ ds, Live t (prepPath srv ds) → (ds = descKey ∧ shownRef t (prepPath srv ds) = none) ∨
    ∃ ref, shownRef t (prepPath srv ds) = some ref ∧ ds = datasetKey ref
  apart : ∀ ds, Live t (datasetPath srv ds) → ¬ Live t (prepPath srv ds)
  parent : ∀ ds, Live t (prepPath srv ds ++ [objRefNodeKey]) → Live t (prepPath srv ds)
  reference : ∀ ds, ¬ Live t (prepPath srv ds ++ [objRefNodeKey, "rm_mem_prepds".toList])

theorem FoldersInv.folders (h : FoldersInv srv t) : DataSetFolders srv t where
  datasets ds hds := h.dataset ds ((mem_children t _ ds).1 hds)
  prepared ds hds hdesc := by
    rcases h.prepared ds ((mem_children t _ ds).1 hds) with ⟨rfl, -⟩ | hshown
    · exact absurd rfl hdesc
    · exact hshown
  apart ds hds ds' hds' ref href href' := by
    rw [mem_children] at hds hds'
    obtain ⟨x, hx, hkey⟩ := h.dataset ds hds
    rcases h.prepared ds' hds' with ⟨-, hnone⟩ | ⟨x', hx', hkey'⟩
    · rw [hnone] at href'
      cases href'
    · -- both have the key of the reference
      rw [href] at hx
      rw [href'] at hx'
      cases hx
      cases hx'
      apply h.apart ds hds
      rw [hkey, ← hkey']
      exact hds'
  once folder hfolder ds hds ds' hds' ref href href' := by
    rw [mem_children] at hds hds'
    have hkey {ds : Str} (hlive : Live t [srv, folder, ds])
        (hshown : shownRef t [srv, folder, ds] = some ref) : ds = datasetKey ref := by
      simp only [List.mem_cons, List.not_mem_nil, or_false] at hfolder
      rcases hfolder with rfl | rfl
      · obtain ⟨x, hx, hkey⟩ := h.dataset ds hlive
        rw [datasetPath, hshown] at hx
        cases hx
        exact hkey
      · rcases h.prepared ds hlive with ⟨-, hnone⟩ | ⟨x, hx, hkey⟩
        · rw [prepPath, hshown] at hnone
          cases hnone
        · rw [prepPath, hshown] at hx
          cases hx
          exact hkey
    rw [hkey hds href, hkey hds' href']

/-! ## Changes -/

/-- What can happen to the folders of a server. -/
inductive FolderChange (srv : Str) : σ → σ → Prop
  /-- Both folders are created and empty. -/
  | created (t : σ) : FolderChange srv t (createDatasetReportNodes t [srv])
  /-- Something changes below another child of the server. -/
  | other {t t' : σ} (k : Str) : k ≠ datasetFolderNodeKey → k ≠ datasetPrepFolderNodeKey →
      Touches t t' [srv, k] → FolderChange srv t t'
  /-- A data set was read from the server. -/
  | read {t t' : σ} (ref : Str) (members : List Str) (isDeletable : Bool)
      (cs : List (Str × DSNode)) :
      List.Forall₂ MemberNode members cs → ¬ Live t (prepPath srv (datasetKey ref)) →
      Grafts t t' (datasetPath srv (datasetKey ref))
        (withChildren (leaf { namedNode ref with data := .members members })
          (datasetChildren ref isDeletable ++ cs)) → FolderChange srv t t'
  /-- A data set is prepared. -/
  | prepared {t t' : σ} (ref : Str) : ¬ Live t (datasetPath srv (datasetKey ref)) →
      Grafts t t' (prepPath srv (datasetKey ref)) (prepTree ref) → FolderChange srv t t'
  /-- A member is added to a prepared data set. -/
  | member {t t' : σ} (ds m : Str) :
      Grafts t t' (prepPath srv ds ++ [prepMemberKey m]) (memberTree m) → FolderChange srv t t'
  /-- A node below the server is removed, and it is not the reference of a data set. -/
  | removed (t : σ) (k : Str) (r : Path) : (∀ ds, r ≠ [ds, objRefNodeKey]) →
      FolderChange srv t (removeTree t (srv :: k :: r))

/-- A change stays below the server. -/
theorem FolderChange.frame (h : FolderChange srv t t') {q : Path} (hq : ¬ [srv] <+: q) :
    lookup t' q = lookup t q := by
  have hbelow {p : Path} (hp : [srv] <+: p) : ¬ p <+: q := fun hpre => hq (hp.trans hpre)
  cases h with
  | created => exact (changesOnlyBelow_folders t).frame q hq
  | other k _ _ htouch => exact htouch.frame q (hbelow (List.prefix_append [srv] [k]))
  | read ref _ _ _ _ _ hgrafts => exact hgrafts.frame q (hbelow (List.prefix_append [srv] _))
  | prepared ref _ hgrafts => exact hgrafts.frame q (hbelow (List.prefix_append [srv] _))
  | member ds m hgrafts => exact hgrafts.frame q (hbelow (List.prefix_append [srv] _))
  | removed k r _ =>
    exact lookup_removeTree_of_not_below (hbelow (List.prefix_append [srv] (k :: r)))

/-- The invariant looks at the children of the folders and at their references. -/
theorem FoldersInv.congr (h : FoldersInv srv t)
    (hds : ∀ folder ∈ [datasetFolderNodeKey, datasetPrepFolderNodeKey], ∀ ds,
      lookup t' [srv, folder, ds] = lookup t [srv, folder, ds])
    (href : ∀ folder ∈ [datasetFolderNodeKey, datasetPrepFolderNodeKey], ∀ ds r,
      lookup t' (srv :: folder :: ds :: objRefNodeKey :: r) =
        lookup t (srv :: folder :: ds :: objRefNodeKey :: r)) :
    FoldersInv srv t' := by
  have hdatasetLive (ds : Str) : Live t' (datasetPath srv ds) ↔ Live t (datasetPath srv ds) := by
    rw [Live, Live, datasetPath, hds datasetFolderNodeKey (by simp)]
  have hprepLive (ds : Str) : Live t' (prepPath srv ds) ↔ Live t (prepPath srv ds) := by
    rw [Live, Live, prepPath, hds datasetPrepFolderNodeKey (by simp)]
  have hdatasetRef (ds : Str) :
      shownRef t' (datasetPath srv ds) = shownRef t (datasetPath srv ds) := by
    have hsame := href datasetFolderNodeKey (by simp) ds []
    unfold shownRef datasetPath
    exact congrArg (fun o => Option.bind o _) hsame
  have hprepRef (ds : Str) : shownRef t' (prepPath srv ds) = shownRef t (prepPath srv ds) := by
    have hsame := href datasetPrepFolderNodeKey (by simp) ds []
    unfold shownRef prepPath
    exact congrArg (fun o => Option.bind o _) hsame
  refine ⟨?_, ?_, ?_, ?_, ?_⟩
  · intro ds hlive
    rw [hdatasetRef]
    exact h.dataset ds ((hdatasetLive ds).1 hlive)
  · intro ds hlive
    rw [hprepRef]
    exact h.prepared ds ((hprepLive ds).1 hlive)
  · intro ds hlive hprep
    exact h.apart ds ((hdatasetLive ds).1 hlive) ((hprepLive ds).1 hprep)
  · intro ds hlive
    have hsame := href datasetPrepFolderNodeKey (by simp) ds []
    apply (hprepLive ds).2
    apply h.parent ds
    rw [Live] at hlive ⊢
    rw [← hlive]
    exact congrArg Option.isSome hsame.symm
  · intro ds hlive
    have hsame := href datasetPrepFolderNodeKey (by simp) ds ["rm_mem_prepds".toList]
    apply h.reference ds
    rw [Live] at hlive ⊢
    rw [← hlive]
    exact congrArg Option.isSome hsame.symm

/-- A change below something else than the folders. -/
theorem FoldersInv.of_frame (h : FoldersInv srv t)
    (hframe : ∀ folder ∈ [datasetFolderNodeKey, datasetPrepFolderNodeKey], ∀ r,
      lookup t' (srv :: folder :: r) = lookup t (srv :: folder :: r)) : FoldersInv srv t' :=
  h.congr (fun folder hfolder ds => hframe folder hfolder [ds])
    fun folder hfolder ds r => hframe folder hfolder (ds :: objRefNodeKey :: r)

theorem shownRef_eq {p : Path} {n : DSNode} (h : lookup t (p ++ [objRefNodeKey]) = some n) :
    shownRef t p = Json.stringValue (some n.value) := by
  rw [shownRef, h]
  rfl

theorem FoldersInv.created (t : σ) : FoldersInv srv (createDatasetReportNodes t [srv]) where
  dataset ds hlive := by
    have hnone : lookup _ (datasetPath srv ds ++ []) = none :=
        lookup_newFolders_dataset (t := t) ds []
    rw [List.append_nil] at hnone
    rw [Live, hnone] at hlive
    cases hlive
  prepared ds hlive := by
    left
    constructor
    · by_contra hds
      have hnone : lookup _ (prepPath srv ds ++ []) = none :=
          lookup_newFolders_prep (t := t) (.inl hds)
      rw [List.append_nil] at hnone
      rw [Live, hnone] at hlive
      cases hlive
    · rw [shownRef, lookup_newFolders_prep (.inr (by simp))]
      rfl
  apart ds hlive := by
    have hnone : lookup _ (datasetPath srv ds ++ []) = none :=
        lookup_newFolders_dataset (t := t) ds []
    rw [List.append_nil] at hnone
    rw [Live, hnone] at hlive
    cases hlive
  parent ds hlive := by
    rw [Live, lookup_newFolders_prep (.inr (by simp))] at hlive
    cases hlive
  reference ds hlive := by
    rw [Live, lookup_newFolders_prep (.inr (by simp))] at hlive
    cases hlive

/-- The key of a data set is not the one of the description. -/
theorem datasetKey_ne_desc (ref : Str) : datasetKey ref ≠ descKey := by
  intro h
  have hinit : hasInit dtsKeyInit (datasetKey ref) = true := by
    simp [datasetKey, replace, dtsKeyInit, hasInit]
  rw [h] at hinit
  exact absurd hinit (by decide)

/-- A data set that is read shows its reference. -/
theorem FoldersInv.read (h : FoldersInv srv t) {ref : Str} {members : List Str} {isDeletable : Bool}
    {cs : List (Str × DSNode)} (hcs : List.Forall₂ MemberNode members cs)
    (hfree : ¬ Live t (prepPath srv (datasetKey ref)))
    (hgrafts : Grafts t t' (datasetPath srv (datasetKey ref))
      (withChildren (leaf { namedNode ref with data := .members members })
        (datasetChildren ref isDeletable ++ cs))) : FoldersInv srv t' := by
  have hprep (q : Path) : lookup t' (srv :: datasetPrepFolderNodeKey :: q) =
      lookup t (srv :: datasetPrepFolderNodeKey :: q) := by
    apply hgrafts.frame
    exact fun hpre =>
      not_prefix_of_ne (by decide) q ((List.prefix_append _ [datasetKey ref]).trans hpre)
  have hother {ds : Str} (hne : datasetKey ref ≠ ds) (r : Path) :
      lookup t' (datasetPath srv ds ++ r) = lookup t (datasetPath srv ds ++ r) :=
    hgrafts.frame _ (not_prefix_child (p := [srv, datasetFolderNodeKey]) hne)
  have hotherLive {ds : Str} (hne : datasetKey ref ≠ ds) (hlive : Live t' (datasetPath srv ds)) :
      Live t (datasetPath srv ds) := by
    have hsame := hother hne []
    rw [List.append_nil] at hsame
    rwa [Live, ← hsame]
  have hprepLive (q : Path) : Live t' (srv :: datasetPrepFolderNodeKey :: q) ↔
      Live t (srv :: datasetPrepFolderNodeKey :: q) := by
    rw [Live, Live, hprep]
  have hnew : shownRef t' (datasetPath srv (datasetKey ref)) = some ref := by
    have hmembers : ∀ c ∈ cs, c.1 ≠ objRefNodeKey := by
      intro c hc
      obtain ⟨m, -, hm, -⟩ := exists_of_mem_memberNodes hcs hc
      rw [hm]
      exact memberKey_ne (by decide)
    refine shownRef_eq (n := (DSNode.shown "string".toList (.string ref)).setMeta "$name".toList
      (.string "Obj. Ref.".toList)) ?_
    rw [← sub_apply, hgrafts.sub_eq, withChildren_append, withChildren_of_not_mem hmembers]
    rfl
  refine ⟨?_, ?_, ?_, ?_, ?_⟩
  · intro ds hlive
    by_cases hds : datasetKey ref = ds
    · exact ⟨ref, hds ▸ hnew, hds.symm⟩
    · rw [shownRef, hother hds]
      exact h.dataset ds (hotherLive hds hlive)
  · intro ds hlive
    have hsame := hprep [ds, objRefNodeKey]
    have hshown : shownRef t' (prepPath srv ds) = shownRef t (prepPath srv ds) :=
      congrArg (fun o => Option.bind o _) hsame
    rw [hshown]
    exact h.prepared ds ((hprepLive [ds]).1 hlive)
  · intro ds hlive hprepared
    by_cases hds : datasetKey ref = ds
    · rw [← hds] at hprepared
      exact hfree ((hprepLive [datasetKey ref]).1 hprepared)
    · exact h.apart ds (hotherLive hds hlive) ((hprepLive [ds]).1 hprepared)
  · exact fun ds hlive => (hprepLive [ds]).2 (h.parent ds ((hprepLive [ds, objRefNodeKey]).1 hlive))
  · exact fun ds hlive =>
      h.reference ds ((hprepLive [ds, objRefNodeKey, "rm_mem_prepds".toList]).1 hlive)

/-- A data set that is prepared shows its reference. -/
theorem FoldersInv.prepare (h : FoldersInv srv t) {ref : Str}
    (hfree : ¬ Live t (datasetPath srv (datasetKey ref)))
    (hgrafts : Grafts t t' (prepPath srv (datasetKey ref)) (prepTree ref)) : FoldersInv srv t' := by
  have hdatasets (q : Path) : lookup t' (srv :: datasetFolderNodeKey :: q) =
      lookup t (srv :: datasetFolderNodeKey :: q) := by
    apply hgrafts.frame
    exact fun hpre =>
      not_prefix_of_ne (by decide) q ((List.prefix_append _ [datasetKey ref]).trans hpre)
  have hother {ds : Str} (hne : datasetKey ref ≠ ds) (r : Path) :
      lookup t' (prepPath srv ds ++ r) = lookup t (prepPath srv ds ++ r) :=
    hgrafts.frame _ (not_prefix_child (p := [srv, datasetPrepFolderNodeKey]) hne)
  have hotherLive {ds : Str} (hne : datasetKey ref ≠ ds) (hlive : Live t' (prepPath srv ds)) :
      Live t (prepPath srv ds) := by
    have hsame := hother hne []
    rw [List.append_nil] at hsame
    rwa [Live, ← hsame]
  have hdatasetLive {ds : Str} (hlive : Live t' (datasetPath srv ds)) :
      Live t (datasetPath srv ds) := by
    have hsame := hdatasets [ds]
    rw [datasetPath, Live, hsame] at hlive
    exact hlive
  have hnew : shownRef t' (prepPath srv (datasetKey ref)) = some ref := by
    refine shownRef_eq (n := (DSNode.shown "string".toList (.string ref)).setMeta "$name".toList
      (.string "Obj. Ref.".toList)) ?_
    rw [← sub_apply, hgrafts.sub_eq]
    rfl
  refine ⟨?_, ?_, ?_, ?_, ?_⟩
  · intro ds hlive
    have hsame := hdatasets [ds, objRefNodeKey]
    have hshown : shownRef t' (datasetPath srv ds) = shownRef t (datasetPath srv ds) :=
      congrArg (fun o => Option.bind o _) hsame
    rw [hshown]
    exact h.dataset ds (hdatasetLive hlive)
  · intro ds hlive
    by_cases hds : datasetKey ref = ds
    · exact .inr ⟨ref, hds ▸ hnew, hds.symm⟩
    · rw [shownRef, hother hds]
      exact h.prepared ds (hotherLive hds hlive)
  · intro ds hlive hprepared
    by_cases hds : datasetKey ref = ds
    · rw [← hds] at hlive
      exact hfree (hdatasetLive hlive)
    · exact h.apart ds (hdatasetLive hlive) (hotherLive hds hprepared)
  · intro ds hlive
    by_cases hds : datasetKey ref = ds
    · rw [← hds, Live, ← sub_nil, hgrafts.sub_eq, prepTree, withChildren_nil]
      rfl
    · have hsame := hother hds []
      rw [List.append_nil] at hsame
      rw [Live, hother hds] at hlive
      rw [Live, hsame]
      exact h.parent ds hlive
  · intro ds hlive
    by_cases hds : datasetKey ref = ds
    · obtain ⟨n, hn⟩ := Option.isSome_iff_exists.1 hlive
      rw [← hds, ← sub_apply, hgrafts.sub_eq] at hn
      have hdeep := (mem_of_withChildren_leaf hn).1
      cases hdeep
    · rw [Live, hother hds] at hlive
      exact h.reference ds hlive

/-- Every node that is left has kept its reference. -/
theorem FoldersInv.removed (h : FoldersInv srv t) {k : Str} {r : Path}
    (hr : ∀ ds, r ≠ [ds, objRefNodeKey]) : FoldersInv srv (removeTree t (srv :: k :: r)) := by
  have hlive {q : Path} (hq : Live (removeTree t (srv :: k :: r)) q) : ¬ srv :: k :: r <+: q ∧
      Live t q := by
    rw [Live, lookup_removeTree] at hq
    split_ifs at hq with hpre
    · cases hq
    · exact ⟨hpre, hq⟩
  have hshown {folder ds : Str} (hq : Live (removeTree t (srv :: k :: r)) [srv, folder, ds]) :
      shownRef (removeTree t (srv :: k :: r)) [srv, folder, ds] = shownRef t [srv, folder, ds] := by
    have hnot : ¬ srv :: k :: r <+: [srv, folder, ds] ++ [objRefNodeKey] := by
      intro hpre
      rcases List.prefix_concat_iff.1 hpre with heq | hpre
      · cases heq
        exact hr ds rfl
      · exact (hlive hq).1 hpre
    rw [shownRef, lookup_removeTree_of_not_below hnot]
    rfl
  refine ⟨?_, ?_, ?_, ?_, ?_⟩
  · intro ds hq
    rw [datasetPath, hshown hq]
    exact h.dataset ds (hlive hq).2
  · intro ds hq
    rw [prepPath, hshown hq]
    exact h.prepared ds (hlive hq).2
  · exact fun ds hq hq' => h.apart ds (hlive hq).2 (hlive hq').2
  · intro ds hq
    obtain ⟨hnot, hold⟩ := hlive hq
    rw [Live, lookup_removeTree_of_not_below fun hpre =>
      hnot (hpre.trans (List.prefix_append _ _))]
    exact h.parent ds hold
  · exact fun ds hq => h.reference ds (hlive hq).2

theorem FoldersInv.member (h : FoldersInv srv t) {ds m : Str}
    (hgrafts : Grafts t t' (prepPath srv ds ++ [prepMemberKey m]) (memberTree m)) :
    FoldersInv srv t' := by
  apply h.congr
  · intro folder _ ds'
    apply hgrafts.frame
    exact fun hpre => by simpa [prepPath] using hpre.length_le
  · intro folder _ ds' r
    apply hgrafts.frame
    intro hpre
    have hkey : prepMemberKey m = objRefNodeKey := by
      simp only [prepPath, List.cons_append, List.nil_append, List.cons_prefix_cons] at hpre
      exact hpre.2.2.2.1
    have hinit := hasInit_prepMemberKey m
    rw [hkey] at hinit
    exact absurd hinit (by decide)

/-- A change keeps the invariant. -/
theorem FoldersInv.step (h : FoldersInv srv t) (hchange : FolderChange srv t t') :
    FoldersInv srv t' := by
  cases hchange with
  | created => exact FoldersInv.created t
  | other k hdatasets hprep htouch =>
    apply h.of_frame
    intro folder hfolder r
    apply htouch.frame
    apply not_prefix_of_ne
    rintro rfl
    simp only [List.mem_cons, List.not_mem_nil, or_false] at hfolder
    exact hfolder.elim hdatasets hprep
  | read ref members isDeletable cs hcs hfree hgrafts => exact h.read hcs hfree hgrafts
  | prepared ref hfree hgrafts => exact h.prepare hfree hgrafts
  | member ds m hgrafts => exact h.member hgrafts
  | removed k r hr => exact h.removed hr

/-- A sequence of changes. -/
abbrev FolderChanges (srv : Str) : σ → σ → Prop := Relation.ReflTransGen (FolderChange srv)

theorem FoldersInv.changes (h : FoldersInv srv t) (hchanges : FolderChanges srv t t') :
    FoldersInv srv t' := by
  induction hchanges with
  | refl => exact h
  | tail _ hchange ih => exact ih.step hchange

theorem FolderChanges.frame (h : FolderChanges srv t t') {q : Path} (hq : ¬ [srv] <+: q) :
    lookup t' q = lookup t q := by
  induction h with
  | refl => rfl
  | tail _ hchange ih => exact (hchange.frame hq).trans ih

/-! ## Discovery -/

/-- There is no prepared data set. -/
def NothingPrepared (srv : Str) (t : σ) : Prop := ∀ ds, ds ≠ descKey → ¬ Live t (prepPath srv ds)

/-- With no data set prepared the change is one of the folders, and none is prepared
by it. -/
def Fills (srv : Str) (t t' : σ) : Prop :=
  NothingPrepared srv t → FolderChanges srv t t' ∧ NothingPrepared srv t'

namespace Fills

variable {t'' : σ}

theorem refl (t : σ) : Fills srv t t := fun h => ⟨.refl, h⟩

theorem trans (h : Fills srv t t') (h' : Fills srv t' t'') : Fills srv t t'' := by
  intro hnone
  obtain ⟨hchanges, hnone'⟩ := h hnone
  obtain ⟨hchanges', hnone''⟩ := h' hnone'
  exact ⟨hchanges.trans hchanges', hnone''⟩

/-- Something below another child of the server. -/
theorem other {k : Str} (hk : k ∉ [datasetFolderNodeKey, datasetPrepFolderNodeKey])
    (h : Touches t t' [srv, k]) : Fills srv t t' := by
  simp only [List.mem_cons, List.not_mem_nil, or_false, not_or] at hk
  intro hnone
  refine ⟨.single (.other k hk.1 hk.2 h), fun ds hds hlive => hnone ds hds ?_⟩
  have hsame := h.frame (prepPath srv ds) (not_prefix_of_ne hk.2 [ds])
  rwa [Live, ← hsame]

theorem read {s s' : LinkState σ W} {ref : Str} {members : List Str} {isDeletable : Bool}
    {cs : List (Str × DSNode)}
    (h : DatasetRead s s' [srv, datasetFolderNodeKey] ref members isDeletable cs) :
    Fills srv s.tree s'.tree := by
  intro hnone
  have hgrafts : Grafts s.tree s'.tree (datasetPath srv (datasetKey ref)) _ := h.grafts
  refine ⟨.single (.read ref members isDeletable cs h.memberNodes
    (hnone _ (datasetKey_ne_desc ref)) hgrafts), fun ds hds hlive => hnone ds hds ?_⟩
  have hsame := hgrafts.frame (prepPath srv ds) fun hpre =>
    not_prefix_of_ne (by decide) [ds] ((List.prefix_append _ [datasetKey ref]).trans hpre)
  rwa [Live, ← hsame]

end Fills

theorem discoverDataSet_fills (hsrv : hasInit srvKeyInit srv = true) {s s' : LinkState σ W}
    {q : Path} {lnRef name : Str} (h : discoverDataSet svc con (srv :: q) lnRef s name = .ok s') :
    Fills srv s.tree s'.tree := by
  unfold discoverDataSet at h
  dsimp only at h
  obtain ⟨_, -, h⟩ := bind_eq_ok.1 h
  obtain ⟨⟨found, s₁⟩, h₁, h⟩ := bind_eq_ok.1 h
  cases h
  obtain ⟨-, -, ⟨-, htree, -⟩ | ⟨-, main, members, isDeletable, cs, hmain, -, hread⟩⟩ :=
    getDatasetInfoFromServerCreateNode_ok h₁
  · rw [htree]
    exact Fills.refl _
  · rw [getMainDatasetNode_below hsrv hmain] at hread
    exact Fills.read hread

theorem discoverReport_fills (hsrv : hasInit srvKeyInit srv = true) {s s' : LinkState σ W}
    {isBuffered : Bool}
    {lnRef name : Str} (h : discoverReport svc con [srv] isBuffered lnRef s name = .ok s') :
    Fills srv s.tree s'.tree := by
  unfold discoverReport at h
  dsimp only at h
  obtain ⟨_, -, h⟩ := bind_eq_ok.1 h
  obtain ⟨⟨created, s₁⟩, h₁, h⟩ := bind_eq_ok.1 h
  cases h
  rcases getRCBInfoAndCreateNode_ok h₁ with
    ⟨-, htree, -⟩ | ⟨-, folder, rcb, cs, s₂, hfolder, -, -, hcreated⟩
  · rw [htree]
    exact Fills.refl _
  · have hgrafts := hcreated.grafts
    rw [(rcbFolder_eq hsrv hfolder).1] at hgrafts
    exact Fills.other (by cases isBuffered <;> decide)
      (Touches.up (p := [srv, rcbFolderKey isBuffered]) hgrafts.touches)

/-- A loop over names whose rounds fill the folders. -/
theorem forEach_fills {f : LinkState σ W → Str → Except Fault (LinkState σ W)}
    {call : W → Option (List Str) × W} {s s' : LinkState σ W}
    (hf : ∀ s s' n, f s n = .ok s' → Fills srv s.tree s'.tree)
    (h : forEach f (s.call call) = .ok s') :
    Fills srv s.tree s'.tree := by
  obtain ⟨names, -, h⟩ := bind_eq_ok.1 h
  refine foldlM_invariant (I := fun s' => Fills srv s.tree s'.tree) ?_ h (Fills.refl _)
  intro n _ s₁ s₂ hfills hn
  exact hfills.trans (hf s₁ s₂ n hn)

theorem ldKey_not_dataSetFolder (ld : Str) :
    ldKey ld ∉ [datasetFolderNodeKey, datasetPrepFolderNodeKey] := by
  intro hmem
  apply ldKey_not_folder ld
  rw [List.mem_pair] at hmem
  simp only [folderKeys, List.mem_cons]
  exact hmem.elim .inl fun h => .inr (.inl h)

theorem discoverLogicalNode_fills (hsrv : hasInit srvKeyInit srv = true) {s s' : LinkState σ W}
    {ld ln : Str}
    (h : discoverLogicalNode svc con [srv] ld s ln = .ok s') : Fills srv s.tree s'.tree := by
  unfold discoverLogicalNode at h
  dsimp only at h
  obtain ⟨_, -, h⟩ := bind_eq_ok.1 h
  obtain ⟨s₁, h₁, h⟩ := bind_eq_ok.1 h
  obtain ⟨s₂, h₂, h⟩ := bind_eq_ok.1 h
  obtain ⟨s₃, h₃, h₄⟩ := bind_eq_ok.1 h
  have hnode : Fills srv s.tree s₁.tree := by
    obtain ⟨names, -, h₁⟩ := bind_eq_ok.1 h₁
    have hln := grafts_createLNNode s.tree [srv, ldKey ld] (ld ++ '/' :: ln) ln
    have htouch := hln.touches.trans (discoverDataObjects_ok h₁).1
    exact Fills.other (ldKey_not_dataSetFolder ld) (Touches.up (p := [srv, ldKey ld]) htouch)
  refine hnode.trans ((forEach_fills (fun s s' n hn => ?_) h₂).trans
    ((forEach_fills (fun s s' n hn => ?_) h₃).trans (forEach_fills (fun s s' n hn => ?_) h₄)))
  · exact discoverDataSet_fills hsrv hn
  · exact discoverReport_fills hsrv hn
  · exact discoverReport_fills hsrv hn

theorem discoverLogicalDevice_fills (hsrv : hasInit srvKeyInit srv = true) {s s' : LinkState σ W}
    {ld : Str}
    (h : discoverLogicalDevice svc con [srv] s ld = .ok s') : Fills srv s.tree s'.tree := by
  unfold discoverLogicalDevice createLDNode at h
  obtain ⟨t, ht, h⟩ := bind_eq_ok.1 h
  obtain ⟨_, -, ht⟩ := bind_eq_ok.1 ht
  cases ht
  have hdevice := (grafts_addChild_child s.tree [srv] (ldKey ld) (folderNode ld)).touches
  exact (Fills.other (ldKey_not_dataSetFolder ld) hdevice).trans
    (forEach_fills (fun s s' n hn => discoverLogicalNode_fills hsrv hn) h)

/-- A discovery empties the folders and fills the one. -/
theorem discover61850Server_changes (hsrv : hasInit srvKeyInit srv = true) {s s' : LinkState σ W}
    (h : discover61850Server svc s [srv] con = .ok s') : FolderChanges srv s.tree s'.tree := by
  have hempty : NothingPrepared srv (createDatasetReportNodes s.tree [srv]) := by
    intro ds hds hlive
    have hnone : lookup _ (prepPath srv ds ++ []) = none :=
        lookup_newFolders_prep (t := s.tree) (.inl hds)
    rw [List.append_nil] at hnone
    rw [Live, hnone] at hlive
    cases hlive
  have hfills : Fills srv (createDatasetReportNodes s.tree [srv]) s'.tree := by
    unfold discover61850Server at h
    dsimp only at h
    split at h
    · cases h
      exact Fills.refl _
    · refine foldlM_invariant
        (I := fun s' => Fills srv (createDatasetReportNodes s.tree [srv]) s'.tree) ?_ h
        (Fills.refl _)
      intro ld _ s₁ s₂ hfills hround
      exact hfills.trans (discoverLogicalDevice_fills hsrv hround)
  exact .head (.created s.tree) (hfills hempty).1

/-! ## What a request changes -/

theorem removeKeys_changes (keys : List Str) (t : σ) :
    FolderChanges srv t (removeKeys [srv] t keys) := by
  induction keys generalizing t with
  | nil => exact .refl
  | cons k keys ih => exact .head (.removed t k [] (by simp)) (ih _)

/-- An Add to dataset that ends; the name of the data set has no `/`. -/
theorem addDAToDSAction_changes (hsrv : hasInit srvKeyInit srv = true) {q : Path} {params : Json}
    (hplain : ∀ name, Json.stringValue (params.objectGet "Dataset".toList) = some name → '/' ∉ name)
    (h : addDAToDSAction t (srv :: q) params = .ok t') : FolderChanges srv t t' := by
  unfold addDAToDSAction at h
  split at h
  · cases h
    exact .refl
  · cases h
    exact .refl
  · rename_i name _ hname
    obtain ⟨_, -, h⟩ := bind_eq_ok.1 h
    dsimp only at h
    split at h
    · split at h
      · cases h
      · rename_i main hmain
        split at h
        · cases h
          exact .refl
        · rename_i prepDatasetNode hprep
          obtain ⟨ref, -, h⟩ := bind_eq_ok.1 h
          obtain ⟨fc, -, h⟩ := bind_eq_ok.1 h
          obtain ⟨_, -, h⟩ := bind_eq_ok.1 h
          have hslash : '/' ∉ dtsKeyInit ++ name := by
            rw [List.mem_append, not_or]
            exact ⟨by decide, hplain name hname⟩
          rw [getPath_eq_child (by simp [dtsKeyInit]) hslash, child_eq_some] at hprep
          have hgrafts := addMemberToPrepDatasetNode_grafts h
          rw [hprep.1, getMainPrepDatasetNode_below hsrv hmain] at hgrafts
          exact .single (.member (dtsKeyInit ++ name) (ref ++ '[' :: (fc ++ [']'])) hgrafts)
    · cases h
      exact .refl

/-- Without a connection nothing is created. -/
theorem createDsOnserverAction_connection {s s' : LinkState σ W} {node : Path}
    (h : createDsOnserverAction svc s node = .ok s') :
    s' = s ∨ ∃ con, s.getServerIedConnection node = .ok (some con) := by
  unfold createDsOnserverAction at h
  obtain ⟨members, -, h⟩ := bind_eq_ok.1 h
  obtain ⟨dsRef, -, h⟩ := bind_eq_ok.1 h
  split_ifs at h with hnone
  · cases h
    exact .inl rfl
  · obtain ⟨connection, hget, h⟩ := bind_eq_ok.1 h
    obtain ⟨con, hcon, -⟩ := bind_eq_ok.1 h
    rw [deref_eq_ok] at hcon
    exact .inr ⟨con, by rw [hget, hcon]⟩

/-- A Create on Server leaves the folders as they are, or the data set goes from the
one to the other. -/
theorem createDsOnserverAction_changes (hsrv : hasInit srvKeyInit srv = true) {s s' : LinkState σ W}
    {ds k : Str} (hinv : FoldersInv srv s.tree)
    (h : createDsOnserverAction svc s (prepPath srv ds ++ [k]) = .ok s') :
    FolderChanges srv s.tree s'.tree := by
  rcases createDsOnserverAction_connection h with rfl | ⟨con, hcon⟩
  · exact .refl
  rcases createDsOnserverAction_ok hcon h with
    rfl | ⟨members, ref, -, -, href, ⟨-, htree, -⟩ | ⟨-, found, s₁, s₂, htree₁, -, -, hread, rfl⟩⟩
  · exact .refl
  · rw [htree]
  · rw [dropLast_snoc] at href ⊢
    obtain ⟨-, -, ⟨rfl, htree, -⟩ | ⟨rfl, main, members', isDeletable, cs, hmain, -, hdata⟩⟩ :=
      getDatasetInfoFromServerCreateNode_ok hread
    · rw [if_neg (by simp), htree, htree₁]
    · rw [if_pos rfl]
      obtain ⟨n, hn, hvalue⟩ := lookup_of_shownText href
      have hshown : shownRef s.tree (prepPath srv ds) = some ref := by
        rw [shownRef_eq hn, hvalue]
      have hlive : Live s.tree (prepPath srv ds) := by
        apply hinv.parent
        rw [Live, hn]
        rfl
      rcases hinv.prepared ds hlive with ⟨-, hnone⟩ | ⟨ref', href', hkey⟩
      · rw [hnone] at hshown
        cases hshown
      · -- the data set has the key of its reference, so the same key leaves and arrives
        rw [hshown] at href'
        cases href'
        have hgrafts := hdata.grafts
        rw [getMainDatasetNode_below hsrv hmain, htree₁] at hgrafts
        have hmoved := Grafts.removeTree (q := prepPath srv ds) hgrafts fun r hpre => by
          have hne := not_prefix_of_ne (a := datasetPrepFolderNodeKey) (b := datasetFolderNodeKey)
            (c := srv) (by decide) (datasetKey ref :: r)
          exact hne ((List.prefix_append _ [ds]).trans hpre)
        refine .head (.removed s.tree datasetPrepFolderNodeKey [ds] (by simp)) (.single ?_)
        refine .read ref members' isDeletable cs hdata.memberNodes ?_ hmoved
        rw [← hkey, Live]
        show ¬ (lookup (removeTree s.tree (prepPath srv ds)) (prepPath srv ds)).isSome = true
        rw [lookup_removeTree, if_pos (List.prefix_refl _)]
        exact Bool.false_ne_true

/-- **Changes.** What a request that ends does to the folders of its server. -/
theorem folderStep_changes {s s' : LinkState σ W} {r : FolderRequest}
    (hinv : FoldersInv (srvKey r.server) s.tree)
    (hplain : r.Plain) (h : folderStep svc s r = .ok s') :
    FolderChanges (srvKey r.server) s.tree s'.tree := by
  have hsrv : hasInit srvKeyInit (srvKey r.server) = true := hasInit_srvKey _
  cases r with
  | discover server =>
    simp only [folderStep, linkStep] at h
    split_ifs at h
    · unfold discoverAction at h
      split_ifs at h
      · cases h
        exact .refl
      · obtain ⟨entry, -, h⟩ := bind_eq_ok.1 h
        exact discover61850Server_changes hsrv h
    · cases h
      exact .refl
  | clear server =>
    simp only [folderStep, linkStep] at h
    split_ifs at h
    · obtain ⟨t, ht, h⟩ := bind_eq_ok.1 h
      cases h
      rw [removeAllDataModel, removeLoop_none] at ht
      split_ifs at ht
      cases ht
      exact removeKeys_changes _ _
    · cases h
      exact .refl
  | dataSet server r =>
    simp only [folderStep] at h
    cases r with
    | prepare node params =>
      simp only [dataSetStep] at h
      split_ifs at h
      · obtain ⟨t, ht, h⟩ := bind_eq_ok.1 h
        cases h
        rcases prepareDatasetAction_ok hsrv ht with hsame | ⟨lnRef, name, -, hfree, -, hgrafts⟩
        · rw [← hsame]
        · exact .single (.prepared _ hfree hgrafts)
      · cases h
        exact .refl
    | add node params =>
      simp only [dataSetStep] at h
      split_ifs at h
      · obtain ⟨t, ht, h⟩ := bind_eq_ok.1 h
        cases h
        exact addDAToDSAction_changes hsrv hplain ht
      · cases h
        exact .refl
    | removeMember ds member =>
      simp only [dataSetStep] at h
      split_ifs at h with hcan
      · cases h
        refine .single (.removed s.tree datasetPrepFolderNodeKey [ds, member] fun ds' heq => ?_)
        cases heq
        exact hinv.reference ds hcan.live
      · cases h
        exact .refl
    | removePrepared ds =>
      simp only [dataSetStep] at h
      split_ifs at h
      · cases h
        exact .single (.removed s.tree datasetPrepFolderNodeKey [ds] (by simp))
      · cases h
        exact .refl
    | create ds =>
      simp only [dataSetStep] at h
      split_ifs at h
      · exact createDsOnserverAction_changes hsrv hinv h
      · cases h
        exact .refl
    | remove ds =>
      simp only [dataSetStep] at h
      split_ifs at h
      · unfold removeDatasetAction at h
        obtain ⟨iedConn, -, h⟩ := bind_eq_ok.1 h
        obtain ⟨dsRef, -, h⟩ := bind_eq_ok.1 h
        cases iedConn with
        | none =>
          cases h
          exact .refl
        | some con =>
          cases dsRef with
          | none =>
            cases h
            exact .refl
          | some ref =>
            dsimp only [send] at h
            split_ifs at h
            · cases h
              exact .single (.removed s.tree datasetFolderNodeKey [ds] (by simp))
            · cases h
              exact .refl
      · cases h
        exact .refl

/-! ## Runs -/

/-- A request keeps the invariant for every server. -/
theorem folderStep_keeps {s s' : LinkState σ W} {r : FolderRequest}
    (hinv : ∀ server, FoldersInv (srvKey server) s.tree) (hplain : r.Plain)
    (h : folderStep svc s r = .ok s') (server : Str) : FoldersInv (srvKey server) s'.tree := by
  have hchanges := folderStep_changes (hinv r.server) hplain h
  by_cases hserver : srvKey server = srvKey r.server
  · rw [hserver]
    exact (hinv r.server).changes hchanges
  · apply (hinv server).of_frame
    intro folder _ q
    apply hchanges.frame
    rw [List.cons_prefix_cons]
    exact fun hpre => hserver hpre.1.symm

/-- Before a server is discovered it has no folders. -/
theorem foldersInv_undiscovered (h : Undiscovered srv t) : FoldersInv srv t := by
  have hnone {folder : Str} (hfolder : hasInit ndlKeyInit folder = false) (r : Path) :
      ¬ Live t (srv :: folder :: r) := by
    intro hlive
    obtain ⟨n, hn⟩ := Option.isSome_iff_exists.1 hlive
    rw [(h folder r n hn).1] at hfolder
    cases hfolder
  exact
    { dataset := fun ds hlive => absurd hlive (hnone (by decide) [ds])
      prepared := fun ds hlive => absurd hlive (hnone (by decide) [ds])
      apart := fun ds hlive => absurd hlive (hnone (by decide) [ds])
      parent := fun ds hlive => absurd hlive (hnone (by decide) [ds, objRefNodeKey])
      reference := fun ds hlive =>
        absurd hlive (hnone (by decide) [ds, objRefNodeKey, "rm_mem_prepds".toList]) }

/-- **Folders.** After every run on servers that were not discovered before, no
reference is shown twice by a server, be it by a data set or by a prepared one, and
every data set has the key of the reference that it shows. -/
theorem folders_run {s s' : LinkState σ W} (hnew : ∀ server, Undiscovered (srvKey server) s.tree)
    {run : List FolderRequest} (hplain : ∀ r ∈ run, r.Plain)
    (hrun : run.foldlM (folderStep svc) s = .ok s')
    (server : Str) : DataSetFolders (srvKey server) s'.tree := by
  have hinv : ∀ server, FoldersInv (srvKey server) s'.tree := by
    refine foldlM_invariant (I := fun s => ∀ server, FoldersInv (srvKey server) s.tree) ?_ hrun
      fun server => foldersInv_undiscovered (hnew server)
    exact fun r hr s s' hinv hstep => folderStep_keeps hinv (hplain r hr) hstep
  exact (hinv server).folders

/-- The server with the control block; it creates every data set. -/
def creatingService : IedService Unit :=
  { blockService with
    createDataSet := fun w _ _ _ => (true, w)
    getDataSetDirectory := fun w _ _ => (some (["D/N.P.stVal[ST]".toList], true), w) }

/-- A data set is prepared and created, a second one is prepared under the name of the
first and a third one under its own, and the server is cleared and discovered again. -/
def createAndClear : List FolderRequest :=
  let prepare (name : String) : DataSetRequest :=
    .prepare ["ldn_D".toList, "N".toList, "prepdataset".toList]
      (.object [("Name".toList, .string name.toList)])
  let add : DataSetRequest :=
    .add ["ldn_D".toList, "N".toList, "P".toList, "stVal[ST]".toList, "adddataset".toList]
      (addParams "dts_D$N.ds".toList)
  [.discover "a".toList, .dataSet "a".toList (prepare "ds"), .dataSet "a".toList add,
    .dataSet "a".toList (.create "dts_D$N.ds".toList), .dataSet "a".toList (prepare "ds"),
    .dataSet "a".toList (prepare "other"), .clear "a".toList, .discover "a".toList]

/-- The link after these requests. -/
def createdAndCleared : LinkState NodeStore Unit :=
  match createAndClear.foldlM (folderStep creatingService) oneServer with
  | .ok s => s
  | .error _ => oneServer

theorem folders_run_createAndClear : DataSetFolders (srvKey "a".toList) createdAndCleared.tree := by
  have hrun : createAndClear.foldlM (folderStep creatingService) oneServer =
      .ok createdAndCleared := by rfl
  refine folders_run (s := oneServer) (fun _ => undiscovered_oneServer _) ?_ hrun _
  intro r hr
  simp only [createAndClear, List.mem_cons, List.not_mem_nil, or_false] at hr
  rcases hr with rfl | rfl | rfl | rfl | rfl | rfl | rfl | rfl
  · trivial
  · trivial
  · intro name hname
    cases hname
    decide
  all_goals trivial

end DslinkIec61850
