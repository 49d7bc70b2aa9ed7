import DslinkIec61850.DataSet.Agreement
import DslinkIec61850.DataSet.Resolution
import DslinkIec61850.Discovery.Rounds

/-!
# The data sets after a discovery

A discovery reads every data set that the server lists into the folder `datasets`. Where the
server lists all its data sets and delivers their directories, the folder and the server agree
when the discovery has ended, and nothing is prepared.

* `DataSetsFound.dataSet`: what one data set adds.
* `discover61850Server_dataSetInv`: the whole discovery.
-/

namespace DslinkIec61850

open DSLink LinkState Run

variable {σ W : Type} [DSLink σ] {svc : IedService W} {con : ConnId} {srv : Str}
  {dataSets : W → Str → Option (List Str)} {D : Str → Option (List Str)} {s s' : LinkState σ W}

/-- Reading leaves the data sets `D` of the server, and a directory that is delivered has the
members of its data set. -/
structure DataSetsRead (svc : IedService W) (con : ConnId)
    (dataSets : W → Str → Option (List Str)) (D : Str → Option (List Str)) : Prop where
  reads : ReadsKeep svc con fun w => dataSets w = D
  readRCB : ∀ w ref, dataSets w = D → dataSets (svc.readRCB w con ref).2 = D
  directory : ∀ w ref members isDeletable, dataSets w = D →
    (svc.getDataSetDirectory w con ref).1 = some (members, isDeletable) → D ref = some members

/-- All data sets are listed at their logical nodes, their directories are delivered, and no
two have the same node key. -/
structure DataSetsListed (svc : IedService W) (con : ConnId)
    (dataSets : W → Str → Option (List Str)) (D : Str → Option (List Str)) : Prop
    extends DataSetsRead svc con dataSets D where
  devices : ∀ w, (svc.getLogicalDeviceList w con).1.isSome = true
  listed : ∀ ref members, D ref = some members → ∃ ld ln name,
    ref = ld ++ '/' :: ln ++ '.' :: name ∧
    (∀ w l, (svc.getLogicalDeviceList w con).1 = some l → ld ∈ l) ∧
    (∀ w l, (svc.getLogicalDeviceDirectory w con ld).1 = some l → ln ∈ l) ∧
    ∀ w l, (svc.getLogicalNodeDirectory w con (ld ++ '/' :: ln) .dataSet).1 = some l → name ∈ l
  readable : ∀ w ref members, dataSets w = D → D ref = some members →
    ∃ isDeletable, (svc.getDataSetDirectory w con ref).1 = some (members, isDeletable)
  apart : ∀ ref ref', (D ref).isSome → (D ref').isSome →
    datasetKey ref = datasetKey ref' → ref = ref'

/-- During a discovery the folder shows data sets of the server only, each with its members,
and nothing is prepared. -/
structure DataSetsFound (dataSets : W → Str → Option (List Str)) (D : Str → Option (List Str))
    (con : ConnId) (srv : Str) (s : LinkState σ W) : Prop where
  connected : s.getServerIedConnection [srv] = .ok (some con)
  world : dataSets s.world = D
  folder : Live s.tree [srv, datasetFolderNodeKey]
  below : ∀ ds r, Live s.tree (datasetPath srv ds ++ r) → ∃ ref members, D ref = some members ∧
    ds = datasetKey ref ∧ ShowsDataSet s.tree srv ref members
  prepared : ∀ ds, lookup s.tree (prepPath srv ds ++ [objRefNodeKey]) = none

namespace DataSetsFound

theorem start (hcon : s.getServerIedConnection [srv] = .ok (some con)) :
    DataSetsFound dataSets (dataSets s.world) con srv
      { s with tree := createDatasetReportNodes s.tree [srv] } where
  connected := by
    refine connected_of_eq (s := s) rfl ?_ hcon
    exact (changesOnlyBelow_folders s.tree).ident_root
  world := rfl
  folder := by
    have hlookup : lookup _ [srv, datasetFolderNodeKey] = _ :=
        lookup_newFolders_datasets (t := s.tree) []
    rw [Live, hlookup]
    show (lookup (addChild s.tree [srv] _ _) ([srv] ++ [datasetFolderNodeKey])).isSome = true
    rw [lookup_addChild_self]
    rfl
  below ds r hlive := by
    rw [Live, lookup_newFolders_dataset] at hlive
    cases hlive
  prepared ds := lookup_newFolders_prep (.inr (by simp))

/-- A round that leaves both folders. -/
theorem congr (h : DataSetsFound dataSets D con srv s)
    (hcon : s'.getServerIedConnection [srv] = s.getServerIedConnection [srv])
    (hworld : dataSets s'.world = D)
    (hdatasets : ∀ r, lookup s'.tree (srv :: datasetFolderNodeKey :: r) =
      lookup s.tree (srv :: datasetFolderNodeKey :: r))
    (hprep : ∀ r, lookup s'.tree (srv :: datasetPrepFolderNodeKey :: r) =
      lookup s.tree (srv :: datasetPrepFolderNodeKey :: r)) :
    DataSetsFound dataSets D con srv s' where
  connected := hcon.trans h.connected
  world := hworld
  folder := by
    rw [Live, hdatasets []]
    exact h.folder
  below ds r hlive := by
    have hsame (ds : Str) (r : Path) : lookup s'.tree (datasetPath srv ds ++ r) =
        lookup s.tree (datasetPath srv ds ++ r) := hdatasets (ds :: r)
    rw [Live, hsame] at hlive
    obtain ⟨ref, members, hD, hkey, hshows⟩ := h.below ds r hlive
    exact ⟨ref, members, hD, hkey, hshows.congr (hsame _)⟩
  prepared ds := (hprep [ds, objRefNodeKey]).trans (h.prepared ds)

theorem model (hread : DataSetsRead svc con dataSets D) (h : DataSetsFound dataSets D con srv s)
    (hround : ModelRound svc con srv (· ∈ folderKeys) s s') :
    DataSetsFound dataSets D con srv s' := by
  refine h.congr ?_ (hround.world _ hread.reads h.world) ?_ ?_
  · rw [h.connected]
    exact connected_of_eq hround.step.serverMap_eq hround.below.ident_root h.connected
  · exact fun r => (hround.kept _ (by decide) r).1
  · exact fun r => (hround.kept _ (by decide) r).1

/-- A round for an RCB. -/
theorem report (hsrv : hasInit srvKeyInit srv = true) (hread : DataSetsRead svc con dataSets D)
    (h : DataSetsFound dataSets D con srv s) {b created : Bool} {ref : Str}
    (hrun : getRCBInfoAndCreateNode svc s [srv] con ref b = .ok (created, s')) :
    DataSetsFound dataSets D con srv s' ∧ ∀ ds, Live s.tree (datasetPath srv ds) →
      Live s'.tree (datasetPath srv ds) := by
  have hworld : dataSets s'.world = D := by
    rw [getRCBInfoAndCreateNode_world hrun]
    exact hread.readRCB _ _ h.world
  rcases getRCBInfoAndCreateNode_ok hrun with
    ⟨-, htree, hstep⟩ | ⟨-, folder, rcb, children, s₁, hfolder, -, -, hcreated⟩
  · refine ⟨h.congr ?_ hworld ?_ ?_, fun ds hlive => by rwa [htree]⟩
    · rw [h.connected]
      exact connected_of_eq hstep.serverMap_eq (by rw [htree]) h.connected
    · exact fun r => by rw [htree]
    · exact fun r => by rw [htree]
  · obtain ⟨rfl, -⟩ := rcbFolder_eq hsrv hfolder
    have hother {k : Str} (hk : rcbFolderKey b ≠ k) (r : Path) :
        lookup s'.tree (srv :: k :: r) = lookup s.tree (srv :: k :: r) := by
      apply hcreated.grafts.frame
      intro hpre
      exact hk (List.cons_prefix_cons.1 (List.cons_prefix_cons.1 hpre).2).1
    have hdatasets := hother (k := datasetFolderNodeKey) (by cases b <;> decide)
    refine ⟨h.congr (hcreated.keeps.getServerIedConnection_eq []) hworld hdatasets ?_, ?_⟩
    · exact hother (by cases b <;> decide)
    · intro ds hlive
      rw [Live, show datasetPath srv ds = srv :: datasetFolderNodeKey :: [ds] from rfl, hdatasets]
      exact hlive

/-- A data set is read: it is shown, and so is what was shown. -/
theorem dataSet (hsrv : hasInit srvKeyInit srv = true) (hread : DataSetsRead svc con dataSets D)
    (h : DataSetsFound dataSets D con srv s) {q : Path} {lnRef name : Str}
    (hrun : discoverDataSet svc con (srv :: q) lnRef s name = .ok s') :
    DataSetsFound dataSets D con srv s' ∧
      (∀ ds, Live s.tree (datasetPath srv ds) → Live s'.tree (datasetPath srv ds)) ∧
      ((svc.getDataSetDirectory s.world con (lnRef ++ '.' :: name)).1.isSome = true →
        Live s'.tree (datasetPath srv (datasetKey (lnRef ++ '.' :: name)))) := by
  obtain ⟨_, -, hrun⟩ := bind_eq_ok.1 hrun
  obtain ⟨⟨found, s₁⟩, hrun₁, hrun⟩ := bind_eq_ok.1 hrun
  cases hrun
  obtain ⟨hstep, hworld, hcase⟩ := getDatasetInfoFromServerCreateNode_ok hrun₁
  have hD : dataSets s'.world = D := by
    rw [hworld]
    exact hread.reads.dataSetDirectory _ _ h.world
  rcases hcase with ⟨-, htree, hnone⟩ | ⟨-, main, members, isDeletable, cs, hmain, hreply, hmade⟩
  · refine ⟨h.congr ?_ hD ?_ ?_, fun ds hlive => by rwa [htree], fun hsome => ?_⟩
    · rw [h.connected]
      exact connected_of_eq hstep.serverMap_eq (by rw [htree]) h.connected
    · exact fun r => by rw [htree]
    · exact fun r => by rw [htree]
    · rcases hnone with hnone | hnone
      · rw [hnone] at hsome
        cases hsome
      · rw [getMainDatasetNode, folderOf_server hsrv _ _ (by decide) (by decide),
          child_eq_some.2 ⟨rfl, h.folder⟩] at hnone
        cases hnone
  · obtain rfl := getMainDatasetNode_below hsrv hmain
    have hgrafts : Grafts s.tree s'.tree (datasetPath srv (datasetKey (lnRef ++ '.' :: name))) _ :=
      hmade.grafts
    have hset : D (lnRef ++ '.' :: name) = some members :=
      hread.directory s.world _ members isDeletable h.world hreply
    have hshows : ShowsDataSet s'.tree srv (lnRef ++ '.' :: name) members :=
      ⟨isDeletable, cs, hmade.memberNodes, hmade.slash, hgrafts.sub_eq⟩
    have hother {ds : Str} (hne : datasetKey (lnRef ++ '.' :: name) ≠ ds) (r : Path) :
        lookup s'.tree (datasetPath srv ds ++ r) = lookup s.tree (datasetPath srv ds ++ r) :=
      hgrafts.frame _ (not_prefix_child (p := [srv, datasetFolderNodeKey]) hne)
    refine ⟨⟨?_, hD, ?_, ?_, ?_⟩, ?_, fun _ => hshows.live⟩
    · refine connected_of_eq hstep.serverMap_eq (hgrafts.ident_frame _ fun hpre => ?_) h.connected
      simpa using hpre.length_le
    · rw [Live, hgrafts.frame _ fun hpre => by simpa using hpre.length_le]
      exact h.folder
    · intro ds r hlive
      by_cases hds : datasetKey (lnRef ++ '.' :: name) = ds
      · exact ⟨_, members, hset, hds.symm, hshows⟩
      · rw [Live, hother hds] at hlive
        obtain ⟨ref, members', hD', rfl, hshows'⟩ := h.below ds r hlive
        exact ⟨ref, members', hD', rfl, hshows'.congr (hother hds)⟩
    · intro ds
      refine (hgrafts.frame _ fun hpre => ?_).trans (h.prepared ds)
      have hfolder := (List.prefix_append [srv, datasetFolderNodeKey] _).trans hpre
      exact not_prefix_of_ne (by decide) [ds, objRefNodeKey] hfolder
    · intro ds hlive
      by_cases hds : datasetKey (lnRef ++ '.' :: name) = ds
      · exact hds ▸ hshows.live
      · have hsame := hother hds []
        rw [List.append_nil] at hsame
        rwa [Live, hsame]

end DataSetsFound

/-! ## The discovery -/

section Discovery

variable (hsrv : hasInit srvKeyInit srv = true)
include hsrv

/-- What the rounds keep: what is shown belongs to the server, and a data set that is shown
stays. -/
theorem dataSetRounds (hread : DataSetsRead svc con dataSets D) (σ : Type) [DSLink σ]
    (ds : Option Str) :
    let I := fun s : LinkState σ W => DataSetsFound dataSets D con srv s ∧
      ∀ key, ds = some key → Live s.tree (datasetPath srv key)
    (∀ s s', ModelRound svc con srv (· ∈ folderKeys) s s' → I s → I s') ∧
    (∀ s s' q lnRef name, discoverDataSet svc con (srv :: q) lnRef s name = .ok s' → I s → I s') ∧
    ∀ s s' b created ref, ListsReport svc con (fun _ => True) b ref →
      getRCBInfoAndCreateNode svc s [srv] con ref b = .ok (created, s') → I s → I s' := by
  refine ⟨fun s s' hround hI => ⟨hI.1.model hread hround, fun key hkey => ?_⟩,
    fun s s' q lnRef name hrun hI => ?_, fun s s' b created ref _ hrun hI => ?_⟩
  · have hkept := (hround.kept datasetFolderNodeKey (by decide) [key]).1
    rw [Live, show datasetPath srv key = srv :: datasetFolderNodeKey :: [key] from rfl, hkept]
    exact hI.2 key hkey
  · obtain ⟨hfound, hstays, -⟩ := hI.1.dataSet hsrv hread hrun
    exact ⟨hfound, fun key hkey => hstays key (hI.2 key hkey)⟩
  · obtain ⟨hfound, hstays⟩ := hI.1.report hsrv hread hrun
    exact ⟨hfound, fun key hkey => hstays key (hI.2 key hkey)⟩

/-- What is shown in the end belongs to the server. -/
theorem discover61850Server_dataSetsFound
    (hread : DataSetsRead svc con dataSets (dataSets s.world))
    (hcon : s.getServerIedConnection [srv] = .ok (some con))
    (hrun : discover61850Server svc s [srv] con = .ok s') :
    DataSetsFound dataSets (dataSets s.world) con srv s' := by
  obtain ⟨hmodel, hdataSet, hreport⟩ := dataSetRounds hsrv hread σ none
  exact (discover61850Server_modelRounds (fun _ _ => trivial) hmodel hdataSet hreport hrun
    ⟨.start hcon, fun key hkey => by cases hkey⟩).1

variable (hlisted : DataSetsListed svc con dataSets D)
include hlisted

/-- The round of the logical node of a data set. -/
theorem discoverLogicalNode_reaches {ld ln name : Str} {members : List Str}
    (hnode : ListsNode svc con (fun _ => True) (ld ++ '/' :: ln))
    (hset : D (ld ++ '/' :: ln ++ '.' :: name) = some members)
    (hname : ∀ w l, (svc.getLogicalNodeDirectory w con (ld ++ '/' :: ln) .dataSet).1 = some l →
      name ∈ l)
    (h : DataSetsFound dataSets D con srv s)
    (hrun : discoverLogicalNode svc con [srv] ld s ln = .ok s') :
      DataSetsFound dataSets D con srv s' ∧
      ∀ key, some (datasetKey (ld ++ '/' :: ln ++ '.' :: name)) = some key →
        Live s'.tree (datasetPath srv key) := by
  obtain ⟨hmodel, hdataSet, hreport⟩ :=
    dataSetRounds hsrv hlisted.toDataSetsRead σ
      (some (datasetKey (ld ++ '/' :: ln ++ '.' :: name)))
  unfold discoverLogicalNode at hrun
  dsimp only at hrun
  obtain ⟨_, -, hrun⟩ := bind_eq_ok.1 hrun
  obtain ⟨s₁, h₁, hrun⟩ := bind_eq_ok.1 hrun
  obtain ⟨s₂, h₂, hrun⟩ := bind_eq_ok.1 hrun
  obtain ⟨s₃, h₃, h₄⟩ := bind_eq_ok.1 hrun
  have hfound₁ := h.model hlisted.toDataSetsRead (discoverDataObjects_modelRound h₁)
  obtain ⟨names, hreply, h₂⟩ := bind_eq_ok.1 h₂
  have hcall : ModelRound svc con srv (· ∈ folderKeys) s₁
      (s₁.call fun w => svc.getLogicalNodeDirectory w con (ld ++ '/' :: ln) .dataSet).2 :=
    .of_tree_eq (TreeStep.call _ _) (fun P hP hw => hP.nodeDirectory _ _ _ hw) rfl
  have h₂ := foldlM_reaches (I := DataSetsFound dataSets D con srv)
    (hname _ _ (deref_eq_ok.1 hreply))
    ?_ (fun other _ s s' hI hround => hdataSet s s' _ _ _ hround hI)
    (fun other _ s s' hI hround => (hI.dataSet hsrv hlisted.toDataSetsRead hround).1) h₂
    (hfound₁.model hlisted.toDataSetsRead hcall)
  · have h₃ := forEach_discoverReport (fun _ _ => trivial) hmodel hreport hnode h₃ h₂
    exact forEach_discoverReport (fun _ _ => trivial) hmodel hreport hnode h₄ h₃
  · intro s s' hI hround
    obtain ⟨hfound, -, hshown⟩ := hI.dataSet hsrv hlisted.toDataSetsRead hround
    obtain ⟨isDeletable, hdirectory⟩ := hlisted.readable s.world _ members hI.world hset
    refine ⟨hfound, fun key hkey => ?_⟩
    cases hkey
    exact hshown (by rw [hdirectory]; rfl)

/-- A data set of the server is shown in the end. -/
theorem discover61850Server_reaches {ref : Str} {members : List Str} (hset : D ref = some members)
    (hstart : DataSetsFound dataSets D con srv
      { s with tree := createDatasetReportNodes s.tree [srv] })
    (hrun : discover61850Server svc s [srv] con = .ok s') :
    Live s'.tree (datasetPath srv (datasetKey ref)) := by
  obtain ⟨ld, ln, name, rfl, hld, hln, hname⟩ := hlisted.listed ref members hset
  obtain ⟨hmodel, hdataSet, hreport⟩ :=
    dataSetRounds hsrv hlisted.toDataSetsRead σ
      (some (datasetKey (ld ++ '/' :: ln ++ '.' :: name)))
  obtain ⟨hmodel₀, hdataSet₀, hreport₀⟩ := dataSetRounds hsrv hlisted.toDataSetsRead σ none
  have hfound {s : LinkState σ W} (h : DataSetsFound dataSets D con srv s) :
      DataSetsFound dataSets D con srv s ∧ ∀ key, none = some key →
      Live s.tree (datasetPath srv key) :=
    ⟨h, fun key hkey => by cases hkey⟩
  have hdevices := hlisted.devices s.world
  unfold discover61850Server at hrun
  dsimp only at hrun
  split at hrun
  · rename_i hnone
    rw [show (svc.getLogicalDeviceList s.world con).1 = none from hnone] at hdevices
    cases hdevices
  · rename_i devices hreply
    have hcall : ModelRound svc con srv (· ∈ folderKeys)
        { s with tree := createDatasetReportNodes s.tree [srv] }
        (({ s with tree := createDatasetReportNodes s.tree [srv] } : LinkState σ W).call fun w =>
          svc.getLogicalDeviceList w con).2 :=
      .of_tree_eq (TreeStep.call _ _) (fun P hP hw => hP.deviceList _ hw) rfl
    have hlists {ld : Str} (hld : ld ∈ devices) : ListsDevice svc con (fun _ => True) ld :=
      ⟨s.world, devices, trivial, hreply, hld⟩
    refine (foldlM_reaches (I := DataSetsFound dataSets D con srv) (hld _ _ hreply) ?_
      (fun ld hld s s' hI hround => discoverLogicalDevice_rounds (fun _ _ => trivial) hmodel
        hdataSet hreport (hlists hld) hround hI)
      (fun ld hld s s' hI hround => (discoverLogicalDevice_rounds (fun _ _ => trivial) hmodel₀
        hdataSet₀ hreport₀ (hlists hld) hround (hfound hI)).1)
      hrun (hstart.model hlisted.toDataSetsRead hcall)).2 _ rfl
    intro s s' hI hround
    unfold discoverLogicalDevice createLDNode at hround
    obtain ⟨t, ht, hround⟩ := bind_eq_ok.1 hround
    obtain ⟨_, -, ht⟩ := bind_eq_ok.1 ht
    cases ht
    have hdevice := (grafts_addChild_child s.tree [srv] (ldKey ld) (folderNode ld)).touches
    obtain ⟨names, hnames, hround⟩ := bind_eq_ok.1 hround
    have hstep : ModelRound svc con srv (· ∈ folderKeys) s
        (({ s with tree := addChild s.tree [srv] (ldKey ld) (folderNode ld) } : LinkState σ W).call
          fun w => svc.getLogicalDeviceDirectory w con ld).2 :=
      .of_touches (r := []) ⟨rfl, rfl, rfl, rfl⟩ (fun P hP hw => hP.deviceDirectory _ _ hw) hdevice
        (ldKey_not_folder ld)
    have hreply' := deref_eq_ok.1 hnames
    have hnode {ln : Str} (hln : ln ∈ names) :
        ListsNode svc con (fun _ => True) (ld ++ '/' :: ln) :=
      ⟨ld, hlists (hld _ _ hreply), s.world, names, ln, trivial, hreply', hln, rfl⟩
    exact foldlM_reaches (I := DataSetsFound dataSets D con srv) (hln _ _ hreply')
      (fun s s' hI hround => discoverLogicalNode_reaches hsrv hlisted
        (hnode (hln _ _ hreply')) hset hname hI hround)
      (fun ln hln s s' hI hround => discoverLogicalNode_rounds (fun _ _ => trivial) hmodel
        hdataSet hreport (hnode hln) hround hI)
      (fun ln hln s s' hI hround => (discoverLogicalNode_rounds (fun _ _ => trivial) hmodel₀
        hdataSet₀ hreport₀ (hnode hln) hround (hfound hI)).1)
      hround (hI.model hlisted.toDataSetsRead hstep)

end Discovery

/-- **After a discovery.** The folder and the server agree, and nothing is prepared. -/
theorem discover61850Server_dataSetInv (hsrv : hasInit srvKeyInit srv = true)
    (hlisted : DataSetsListed svc con dataSets (dataSets s.world))
    (hcon : s.getServerIedConnection [srv] = .ok (some con))
    (hrun : discover61850Server svc s [srv] con = .ok s') : DataSetInv dataSets con srv s' := by
  have hend := discover61850Server_dataSetsFound hsrv hlisted.toDataSetsRead hcon hrun
  refine ⟨hsrv, hend.connected, hend.folder, ?_, ?_, ?_, ?_⟩
  · intro ref members hset
    rw [hend.world] at hset
    have hlive := discover61850Server_reaches hsrv hlisted hset (.start hcon) hrun
    obtain ⟨ref', members', hset', hkey, hshows⟩ :=
      hend.below (datasetKey ref) [] (by rwa [List.append_nil])
    obtain rfl := hlisted.apart ref ref' (by rw [hset]; rfl) (by rw [hset']; rfl) hkey
    cases hset.symm.trans hset'
    exact hshows
  · intro ds r hlive
    obtain ⟨ref, members, hset, hkey, -⟩ := hend.below ds r hlive
    exact ⟨ref, members, hend.world ▸ hset, hkey⟩
  · intro ds n ref hn
    rw [hend.prepared] at hn
    cases hn
  · intro ds hlive
    rw [Live, hend.prepared] at hlive
    cases hlive

/-! ## A server with one data set -/

/-- The data set `D/N.ds`. -/
def oneDataSet (members : List Str) (ref : Str) : Option (List Str) :=
  if ref = "D/N.ds".toList then some members else none

theorem dataSetServer_membersService (members : List Str) :
    DataSetServer (membersService members) con fun _ => oneDataSet members where
  created _ _ _ h := by cases h
  notCreated _ _ _ _ := rfl
  deleted _ _ h := by cases h
  notDeleted _ _ _ := rfl
  directory w ref members' isDeletable h := by
    have hread : ref = "D/N.ds".toList ∧ members = members' ∧ isDeletable = false := by
      simpa [membersService] using h
    rw [oneDataSet, if_pos hread.1, hread.2.1]
  directory_keeps _ _ := rfl

theorem dataSetsListed_membersService (members : List Str) :
    DataSetsListed (membersService members) con (fun _ => oneDataSet members)
      (oneDataSet members) where
  reads := ⟨fun _ _ => rfl, fun _ _ _ => rfl, fun _ _ _ _ => rfl, fun _ _ _ => rfl,
    fun _ _ _ _ => rfl, fun _ _ _ _ => rfl, fun _ _ _ => rfl⟩
  readRCB _ _ _ := rfl
  directory w ref members' isDeletable _ h :=
    (dataSetServer_membersService members).directory w ref members' isDeletable h
  devices _ := rfl
  listed ref members' h := by
    by_cases href : ref = "D/N.ds".toList
    · refine ⟨"D".toList, "N".toList, "ds".toList, href, ?_, ?_, ?_⟩
      · intro w l hl
        cases hl
        decide
      · intro w l hl
        cases hl
        decide
      · intro w l hl
        cases hl
        decide
    · rw [oneDataSet, if_neg href] at h
      cases h
  readable w ref members' _ h := by
    by_cases href : ref = "D/N.ds".toList
    · rw [oneDataSet, if_pos href] at h
      cases h
      exact ⟨false, by simp [membersService, href]⟩
    · rw [oneDataSet, if_neg href] at h
      cases h
  apart ref ref' h h' _ := by
    have honly {r : Str} (hr : (oneDataSet members r).isSome) : r = "D/N.ds".toList := by
      by_contra hne
      rw [oneDataSet, if_neg hne] at hr
      cases hr
    rw [honly h, honly h']

/-- A link that is connected to this server and has discovered nothing. -/
def connectedLink : LinkState NodeStore Unit :=
  { emptyLink "srv_a".toList with
    serverMap := [({ path := ["srv_a".toList], ident := 1 },
      { hostname := "h".toList, tcpPort := 102, iedConn := 0 })] }

theorem dataSetInv_membersService : ∃ s',
    discover61850Server (membersService ["D/N.P.stVal[ST]".toList]) connectedLink
      ["srv_a".toList] 0 = .ok s' ∧
    Live s'.tree (datasetPath "srv_a".toList "dts_D$N.ds".toList) ∧
    DataSetInv (fun _ => oneDataSet ["D/N.P.stVal[ST]".toList]) 0 "srv_a".toList s' := by
  have hshown : (discover61850Server (membersService ["D/N.P.stVal[ST]".toList]) connectedLink
      ["srv_a".toList] 0 >>= fun s => .ok (decide
        (Live s.tree (datasetPath "srv_a".toList "dts_D$N.ds".toList)))) = .ok true := by
    decide +kernel
  obtain ⟨s', hrun, hs'⟩ := bind_eq_ok.1 hshown
  exact ⟨s', hrun, of_decide_eq_true (Except.ok.inj hs'),
    discover61850Server_dataSetInv (by decide) (dataSetsListed_membersService _) (by rfl) hrun⟩

end DslinkIec61850
