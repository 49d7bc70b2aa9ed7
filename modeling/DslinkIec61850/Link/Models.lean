import DslinkIec61850.Discovery.Controls
import DslinkIec61850.Link.Clearing
import DslinkIec61850.Link.Kit
import DslinkIec61850.Report.Publication

/-!
# What is shown of the servers' models

Where every IED answers out of its model, a server that counts as discovered shows the
model of the IED that it is connected with, whatever else was done with the link: reports,
reads and writes, data sets, settings of RCBs, discoveries, and servers that come and go.

* `discover61850Server_modelShown`: what a discovery leaves.
* `ShowsModel.acts`, `ShowsModel.undisturbed`: what an event does to it.
* `models_shown_run`: any run.
-/

namespace DslinkIec61850

open DSLink LinkState Run

variable {σ W : Type} [DSLink σ] {svc : IedService W} {s s' : LinkState σ W} {srv k : Str}

/-! ## The logical devices -/

/-- The same places are in use at and below the logical devices. -/
def KeepsDevices (srv : Str) (t t' : σ) : Prop :=
  ∀ ld rs, Live t' (srv :: ldKey ld :: rs) ↔ Live t (srv :: ldKey ld :: rs)

theorem StaysBelow.keepsDevices {t t' : σ} (h : StaysBelow true srv t t') :
    KeepsDevices srv t t' := by
  intro ld rs
  have hkept := h.kept (ldKey ld) rs rfl
  have hsome := congrArg Option.isSome hkept
  rw [Option.isSome_map, Option.isSome_map] at hsome
  rw [Live, Live, hsome]

theorem ModelTree.keepsDevices {m : ServerModel} {t t' : σ} (h : ModelTree m srv t)
    (hldn : KeepsDevices srv t t') : ModelTree m srv t' := by
  have href := h.references
  refine ⟨⟨?_, ?_, ?_, ?_, ?_, ?_⟩, fun r hleaf => (hldn _ _).2 (h.live r hleaf),
    fun r => (hldn _ _).trans (h.value r)⟩
  · exact fun ld r hlive => (hldn _ _).2 (href.live_device ld r ((hldn _ _).1 hlive))
  · exact fun ld ln r hlive => (hldn _ _).2 (href.live_node ld ln r ((hldn _ _).1 hlive))
  · exact fun ld ln n r hn hlive =>
      (hldn _ _).2 (href.live_object ld ln n r hn ((hldn _ _).1 hlive))
  · exact fun ld ln n ns ms _ hn hfc hplain hlive =>
      (hldn _ _).2 (href.live_prefix ld ln n ns ms hn hfc hplain ((hldn _ _).1 hlive))
  · exact fun ld ln n fc ns x hn hx hlive =>
      href.not_live_bare ld ln n fc ns x hn hx ((hldn _ _).1 hlive)
  · exact fun ld ln n fc hlive => href.not_live_entry ld ln n fc ((hldn _ _).1 hlive)

/-! ## Devices, nodes, objects and attributes -/

/-- The devices, logical nodes, data objects and data attributes below the server node are
those of the model, and nothing else is there but the children that the code itself creates. -/
structure ModelShown (m : ServerModel) (srv : Str) (t : σ) : Prop extends ModelTree m srv t where
  device : ∀ ld, Live t [srv, ldKey ld] ↔ ld ∈ m.devices.map DeviceModel.name
  node : ∀ ld ln, Live t [srv, ldKey ld, ln] ↔ ∃ x, m.NodeOf ld ln x
  object : ∀ ld ln n, n ∉ createdKeys →
    (Live t (doPath srv ld ln n) ↔ (∃ x, m.NodeOf ld ln x) ∧ Listed m ld ln n)
  dataAttribute : ∀ ld ln n ns (fc : FunctionalConstraint), n ∉ createdKeys → PlainNames ns →
    ns ≠ [] → fc.Known → (Live t (daPath srv ld ln n fc ns) ↔ DiscoveredRef m ld ln n ns fc)
  only : ∀ ld ln n r, n ∉ createdKeys → Live t (doPath srv ld ln n ++ r) →
    ∃ (ns : List Str) (fc : FunctionalConstraint) (tail : Path), r = attrPath fc ns ++ tail ∧
      PlainNames ns ∧ fc.Known ∧ (tail = [] ∨ ∃ k ks, tail = k :: ks ∧ k ∈ createdKeys)

theorem ModelShown.keepsDevices {m : ServerModel} {t t' : σ} (h : ModelShown m srv t)
    (hldn : KeepsDevices srv t t') : ModelShown m srv t' where
  toModelTree := h.toModelTree.keepsDevices hldn
  device ld := (hldn ld []).trans (h.device ld)
  node ld ln := (hldn ld [ln]).trans (h.node ld ln)
  object ld ln n hn := (hldn ld [ln, n]).trans (h.object ld ln n hn)
  dataAttribute ld ln n ns fc hn hns hne hfc :=
    (hldn ld (ln :: n :: attrPath fc ns)).trans (h.dataAttribute ld ln n ns fc hn hns hne hfc)
  only ld ln n r hn hlive := h.only ld ln n r hn ((hldn ld (ln :: n :: r)).1 hlive)

/-- A discovery leaves the model. -/
theorem discover61850Server_modelShown {m : ServerModel} {con : ConnId} {devices : LogicalDevices}
    {variableLists : Str → Option (List Str)} (hsrv : hasInit srvKeyInit srv = true)
    (h : Serves svc con m devices variableLists) (hnew : Undiscovered srv s.tree)
    (hrun : discover61850Server svc s [srv] con = .ok s') : ModelShown m srv s'.tree := by
  have hshape := discover61850Server_shape hsrv h.namesOk hnew hrun
  have hcovered := discover61850Server_covered hsrv h hnew hrun
  refine ⟨discover61850Server_modelTree hsrv h hnew hrun, hcovered.device, ?_, ?_, ?_, ?_⟩
  · intro ld ln
    constructor
    · intro hlive
      exact ((hcovered.covered ld ((hcovered.device ld).1 (hshape.live_device hlive))).node ln).1
        hlive
    · rintro ⟨x, hx⟩
      obtain ⟨d, hd, hdn, -⟩ := id hx
      exact ((hcovered.covered ld (List.mem_map.2 ⟨d, hd, hdn⟩)).node ln).2 ⟨x, hx⟩
  · intro ld ln n hn
    constructor
    · intro hlive
      obtain ⟨hnode, hlisted, -⟩ := hcovered.object_built hshape hn (r := []) hlive
      exact ⟨hnode, hlisted⟩
    · rintro ⟨⟨x, hx⟩, hlisted⟩
      exact (hcovered.built_of_listed hx hlisted).1
  · intro ld ln n ns fc hn hns hne hfc
    constructor
    · exact fun hlive => (hcovered.discoveredRef_of_live hshape hn hns hne hfc hlive).2
    · exact fun href => (hcovered.node_of_discoveredRef href).1
  · intro ld ln n r hn hlive
    cases r with
    | nil => exact ⟨[], .ST, [], rfl, plainNames_nil, by decide, .inl rfl⟩
    | cons k r =>
      obtain ⟨node, hnode⟩ := Option.isSome_iff_exists.1 hlive
      obtain ⟨ns, fc, tail, hpath, hns, hfc, -, hcase⟩ :=
        (hshape.dataObject hn (r := k :: r) hlive).2.2.place (k :: r) node (by simp) hnode
      refine ⟨ns, fc, tail, hpath, hns, hfc, ?_⟩
      rcases hcase with ⟨htail, -⟩ | ⟨k', ks, htail, hk', -⟩
      · exact .inl htail
      · exact .inr ⟨k', ks, htail, hk'⟩

/-- Where the devices are kept, a server counts as discovered only if it did before. -/
theorem StaysBelow.isDiscovered {t t' : σ} (h : StaysBelow true srv t t')
    (hsrv : hasInit srvKeyInit srv = true)
    (hd : isDiscovered t' [srv] = true) : isDiscovered t [srv] = true := by
  rw [isDiscovered_iff hsrv] at hd ⊢
  obtain ⟨a, hlive, ha⟩ := hd
  exact ⟨a, h.noFolder rfl a hlive, ha⟩

/-- Clearing ends with a server that does not count as discovered. -/
theorem removeAllDataModel_isDiscovered {t t' : σ} (h : removeAllDataModel t [srv] = .ok t') :
    isDiscovered t' [srv] = false := by
  have hkept : KeptFirst (children t [srv]) := by
    by_contra hkept
    rw [removeAllDataModel, removeLoop_none, if_neg hkept] at h
    cases h
  obtain ⟨t₁, h₁, -, hnew⟩ := ((clearsModel_iff t [srv]).2 hkept).ends
  cases h₁.symm.trans h
  exact hnew

/-! ## The invariant -/

/-- If the server counts as discovered, the model of the IED at its connection is shown. -/
def ShowsModel (m : ConnId → ServerModel) (s : LinkState σ W) (k : Str) : Prop :=
  ∀ c, serverConn s k = some c → isDiscovered s.tree [k] = true → ModelShown (m c) k s.tree

/-- Every IED answers out of its model. -/
def AllServe (svc : IedService W) (m : ConnId → ServerModel) : Prop :=
  ∀ c, ∃ devices variableLists, Serves svc c (m c) devices variableLists

variable {m : ConnId → ServerModel}

theorem ShowsModel.undisturbed (h : ShowsModel m s k) (hsame : Undisturbed k s s')
    (hinv : EquippedInv s)
    (hinv' : LinkInv s') (hk : hasInit srvKeyInit k = true) : ShowsModel m s' k := by
  have hlive (rs : Path) : Live s'.tree (k :: rs) ↔ Live s.tree (k :: rs) := by
    rw [Live, Live, (hsame.nodes rs).1]
  intro c hc hd
  have hd' : isDiscovered s.tree [k] = true := by
    rw [isDiscovered_iff hk] at hd ⊢
    obtain ⟨a, ha, hndl⟩ := hd
    exact ⟨a, (hlive [a]).1 ha, hndl⟩
  obtain ⟨a, ha, -⟩ := (isDiscovered_iff hk).1 hd'
  rw [serverConn, hsame.mapGet_eq hinv.maps hinv'.maps hk (hinv.rooted k [a] hk ha)] at hc
  exact (h c hc hd').keepsDevices fun ld rs => hlive (ldKey ld :: rs)

/-- A step that keeps the devices of its server. -/
theorem ShowsModel.confined {C : ConnId → Prop} {P : Request → Prop} (h : ShowsModel m s srv)
    (hconf : Confined true srv C P s s') (hsrv : hasInit srvKeyInit srv = true) :
    ShowsModel m s' srv := by
  intro c hc hd
  rw [serverConn, mapGet, hconf.serverMap_eq, ptr_of_confined hconf] at hc
  exact (h c hc (hconf.tree.isDiscovered hsrv hd)).keepsDevices hconf.tree.keepsDevices

/-- An action on behalf of the server. -/
theorem ShowsModel.acts (h : ShowsModel m s srv) (hinv : EquippedInv s) (hserve : AllServe svc m)
    (hsrv : hasInit srvKeyInit srv = true) {q : Path} {f : Callback} {params : Json}
    (hf : Invokes s.tree (srv :: q) f) (hrun : invokeAction svc s (srv :: q) params f = .ok s')
    (hconf : Confined f.keepsDevices srv (serverConn s srv = some ·)
      (Asks s.tree (srv :: q) params f) s s') :
    ShowsModel m s' srv := by
  have hserver (hf' : f.onServer = true) : ∃ a, q = [a] := by
    obtain ⟨k, q', heq, -, hplace⟩ := hinv.placed _ _ hf
    obtain ⟨-, rfl⟩ := List.cons.inj heq
    rw [InPlace, if_pos hf'] at hplace
    obtain ⟨a, ha, -⟩ := hplace
    exact ⟨a, ha⟩
  by_cases hkeeps : f.keepsDevices = true
  · rw [hkeeps] at hconf
    exact h.confined hconf hsrv
  have hcases : f = .discoverAction ∨ f = .clearServerAction := by
    revert hkeeps
    cases f <;> simp [Callback.keepsDevices]
  rcases hcases with rfl | rfl
  · obtain ⟨a, rfl⟩ := hserver rfl
    have hrun : discoverAction svc s [srv, a] = .ok s' := hrun
    unfold discoverAction at hrun
    split_ifs at hrun with hd
    · cases hrun
      exact h
    · obtain ⟨server, hget, hrun⟩ := bind_eq_ok.1 hrun
      have hget : s.mapGet (s.ptr [srv]) = some server := deref_eq_ok.1 hget
      have hnew : Undiscovered srv s.tree := hinv.undiscovered hsrv (by simpa using hd)
      intro c hc _
      rw [serverConn, mapGet, hconf.serverMap_eq, ptr_of_confined hconf] at hc
      have hsame : serverConn s srv = some server.iedConn := by
        rw [serverConn, hget]
        rfl
      obtain rfl : server.iedConn = c := Option.some.inj (hsame.symm.trans hc)
      obtain ⟨devices, variableLists, hserves⟩ := hserve server.iedConn
      exact discover61850Server_modelShown hsrv hserves hnew hrun
  · obtain ⟨a, rfl⟩ := hserver rfl
    obtain ⟨t, ht, hrun⟩ := bind_eq_ok.1 (show clearServerAction s [srv, a] = .ok s' from hrun)
    cases hrun
    intro c _ hd
    have hnew : isDiscovered t [srv] = false := removeAllDataModel_isDiscovered ht
    rw [show isDiscovered t [srv] = true from hd] at hnew
    cases hnew

end DslinkIec61850
