import DslinkIec61850.Client.Service
import DslinkIec61850.DataSet.Resolution
import DslinkIec61850.Discovery.Coverage

/-!
# The discovered attributes of a server model

What the tree of a discovered server says about single attributes.

* `discovery_attributes`: the data attributes of the tree and the references of the
  model under their constraints are in one-to-one correspondence.
-/

namespace DslinkIec61850

open DSLink Subtree Strings LinkState Run

variable {σ W : Type} [DSLink σ] {svc : IedService W} {con : ConnId} {m : ServerModel}
  {devices : LogicalDevices} {variableLists : Str → Option (List Str)} {srv ld ln n : Str} {t : σ}

/-! ## Nodes of references -/

namespace ServerCovered

/-- What is below a data object in the tree. -/
theorem object_built (h : ServerCovered m srv t) (hshape : ServerShape srv t) (hn : n ∉ createdKeys)
    {r : Path} (hlive : Live t (srv :: ldKey ld :: ln :: n :: r)) :
    (∃ x, m.NodeOf ld ln x) ∧ Listed m ld ln n ∧
    Built m ld ln [n] .NONE (sub t (doPath srv ld ln n)) := by
  have hdevice := h.covered ld ((h.device ld).1 (hshape.live_device hlive))
  obtain ⟨x, hx⟩ := (hdevice.node ln).1 (hshape.live_node hlive)
  have hnode := hdevice.covered ln x hx
  have hlisted := (hnode.object n hn).1 (hshape.live_object hn hlive)
  exact ⟨⟨x, hx⟩, hlisted, hnode.built n hlisted⟩

/-- A listed data object is in the tree. -/
theorem built_of_listed (h : ServerCovered m srv t) {x : NodeModel} (hx : m.NodeOf ld ln x)
    (hlisted : Listed m ld ln n) :
    Live t (doPath srv ld ln n) ∧ Built m ld ln [n] .NONE (sub t (doPath srv ld ln n)) := by
  have hdevice : DeviceCovered m ld (sub t [srv, ldKey ld]) := by
    obtain ⟨d, hd, hdn, -⟩ := hx
    exact h.covered ld (List.mem_map.2 ⟨d, hd, hdn⟩)
  have hnode := hdevice.covered ln x hx
  exact ⟨(hnode.object n hlisted.name_ok.2).2 hlisted, hnode.built n hlisted⟩

end ServerCovered

theorem sub_daPath_snoc (t : σ) (srv ld ln n : Str) (fc : FunctionalConstraint) (ns : List Str)
    (x : Str) (r : Path) : sub t (daPath srv ld ln n fc ns) (fcEntry x fc :: r) =
      sub t (daPath srv ld ln n fc (ns ++ [x])) r := by
  rw [daPath_snoc, sub_append]
  rfl

/-- What the walk left at an attribute of the model. -/
theorem Built.nodeAt (h : Built m ld ln [n] .NONE (sub t (doPath srv ld ln n))) {ns : List Str}
    (hns : ns ≠ []) {fc : FunctionalConstraint} (hhas : m.Has ld ln (n :: ns) fc) :
    NodeBuilt m ld ln (n :: ns) fc (sub t (daPath srv ld ln n fc ns)) := by
  cases ns with
  | nil => exact absurd rfl hns
  | cons x ns =>
    have hnode := h.below x ns fc hhas (.inl rfl)
    have hsub : (fun r => sub t (doPath srv ld ln n) (fcEntry x fc :: (attrPath fc ns ++ r))) =
        sub t (daPath srv ld ln n fc (x :: ns)) := by
      funext r
      rw [daPath, sub_append]
      rfl
    exact hsub ▸ hnode

/-- An attribute of the model is in the tree. -/
theorem Built.live_attribute (h : Built m ld ln [n] .NONE (sub t (doPath srv ld ln n)))
    {ns : List Str} (hns : ns ≠ []) {fc : FunctionalConstraint} (hhas : m.Has ld ln (n :: ns) fc) :
    Live t (daPath srv ld ln n fc ns) := by
  obtain ⟨-, -, hfc, hnames⟩ := hhas.names_ok
  induction ns using List.reverseRecOn with
  | nil => exact absurd rfl hns
  | append_singleton ns y _ =>
    have hy := (hnames y (by simp)).plain
    unfold Live
    rw [← sub_nil, ← sub_daPath_snoc]
    cases ns with
    | nil =>
      rw [daPath_nil]
      exact (h.node.entry y fc hy hfc).2 ⟨hhas, .inl rfl⟩
    | cons x ns =>
      have hhas' : m.Has ld ln (n :: x :: ns ++ [y]) fc := hhas
      exact ((h.nodeAt (by simp) (ServerModel.Has.of_append [y] hhas')).entry y fc hy hfc).2
        ⟨hhas', .inr rfl⟩

/-! ## References and nodes -/

/-- A reference under a constraint below a data object that the library lists. -/
structure DiscoveredRef (m : ServerModel) (ld ln n : Str) (ns : List Str)
    (fc : FunctionalConstraint) : Prop where
  has : m.Has ld ln (n :: ns) fc
  below : ns ≠ []
  listed : Listed m ld ln n

theorem DiscoveredRef.plainNames {ns : List Str} {fc : FunctionalConstraint}
    (h : DiscoveredRef m ld ln n ns fc) : PlainNames ns :=
  fun x hx => (h.has.names_ok.2.2.2 x (List.mem_cons_of_mem _ hx)).plain

namespace ServerCovered

/-- A node at or below the path of an attribute belongs to one of the model. -/
theorem discoveredRef_below (h : ServerCovered m srv t) (hshape : ServerShape srv t)
    (hn : n ∉ createdKeys) {ns : List Str} (hns : PlainNames ns) (hne : ns ≠ [])
    {fc : FunctionalConstraint} (hfc : fc.Known) {r : Path}
    (hlive : Live t (daPath srv ld ln n fc ns ++ r)) :
    (∃ x, m.NodeOf ld ln x) ∧ DiscoveredRef m ld ln n ns fc := by
  obtain ⟨hnode, hlisted, hbuilt⟩ := h.object_built hshape hn (r := attrPath fc ns ++ r)
    (by rwa [daPath, List.append_assoc] at hlive)
  refine ⟨hnode, ?_, hne, hlisted⟩
  cases ns with
  | nil => exact absurd rfl hne
  | cons x ns =>
    have hsome : (sub t (doPath srv ld ln n) (attrPath fc (x :: ns) ++ r)).isSome := by
      rw [← sub_append]
      exact hlive
    exact (hbuilt.has_of_isSome hns hfc hsome).1

theorem discoveredRef_of_live (h : ServerCovered m srv t) (hshape : ServerShape srv t)
    (hn : n ∉ createdKeys) {ns : List Str} (hns : PlainNames ns) (hne : ns ≠ [])
    {fc : FunctionalConstraint} (hfc : fc.Known) (hlive : Live t (daPath srv ld ln n fc ns)) :
    (∃ x, m.NodeOf ld ln x) ∧ DiscoveredRef m ld ln n ns fc :=
  h.discoveredRef_below hshape hn hns hne hfc (r := []) (by rwa [List.append_nil])

/-- An attribute of the model has its node. -/
theorem node_of_discoveredRef (h : ServerCovered m srv t) {ns : List Str}
    {fc : FunctionalConstraint} (href : DiscoveredRef m ld ln n ns fc) :
    Live t (daPath srv ld ln n fc ns) ∧
      NodeBuilt m ld ln (n :: ns) fc (sub t (daPath srv ld ln n fc ns)) := by
  obtain ⟨rest, type, l, hl, -⟩ := href.has
  obtain ⟨-, hbuilt⟩ := h.built_of_listed hl href.listed
  exact ⟨hbuilt.live_attribute href.below href.has, hbuilt.nodeAt href.below href.has⟩

end ServerCovered

/-- The node of an attribute shows its reference and its constraint; it has a
`Value` for a leaf, which can be written under five of the constraints. -/
structure AttributeShown (m : ServerModel) (t : σ) (p : Path) (ld ln : Str) (names : List Str)
    (fc : FunctionalConstraint) : Prop where
  shows : ShowsAttribute t p (objectRef ld ln names) fc
  value : Live t (p ++ ["Value".toList]) ↔ ∃ type, m.LeafAt ld ln names fc type
  write : Live t (p ++ ["Value".toList]) →
    (Live t (p ++ ["Value".toList, "writevalue".toList]) ↔ fc ∈ [.CF, .SE, .SP, .DC, .SV])

/-- The data attributes below a server node are those of the model. -/
structure AttributesOf (m : ServerModel) (srv : Str) (t : σ) : Prop where
  place : ∀ k rs node, lookup t (srv :: k :: rs) = some node →
    (IsAttributeNode node ↔ ∃ ld ln n ns fc, DiscoveredRef m ld ln n ns fc ∧
      srv :: k :: rs = daPath srv ld ln n fc ns)
  shown : ∀ ld ln n ns fc, DiscoveredRef m ld ln n ns fc →
    AttributeShown m t (daPath srv ld ln n fc ns) ld ln (n :: ns) fc
  path_unique : ∀ ld ln n ns fc ld' ln' n' ns' fc', DiscoveredRef m ld ln n ns fc →
    DiscoveredRef m ld' ln' n' ns' fc' → daPath srv ld ln n fc ns = daPath srv ld' ln' n' fc' ns' →
    ld = ld' ∧ ln = ln' ∧ n :: ns = n' :: ns' ∧ fc = fc'
  ref_unique : ∀ ld ln n ns fc ld' ln' n' ns' fc', DiscoveredRef m ld ln n ns fc →
    DiscoveredRef m ld' ln' n' ns' fc' → objectRef ld ln (n :: ns) = objectRef ld' ln' (n' :: ns') →
    ld = ld' ∧ ln = ln' ∧ n :: ns = n' :: ns'

theorem attrPath_injective {fc fc' : FunctionalConstraint} (hfc : fc.Known) (hfc' : fc'.Known)
    {ns ns' : List Str} (hns : PlainNames ns) (hns' : PlainNames ns') (hne : ns ≠ [])
    (h : attrPath fc ns = attrPath fc' ns') : fc = fc' ∧ ns = ns' := by
  induction ns generalizing ns' with
  | nil => exact absurd rfl hne
  | cons x ns ih =>
    cases ns' with
    | nil => cases h
    | cons x' ns' =>
      obtain ⟨hx, hns⟩ := plainNames_cons.1 hns
      obtain ⟨hx', hrest'⟩ := plainNames_cons.1 hns'
      obtain ⟨hhead, htail⟩ := List.cons.inj h
      obtain ⟨rfl, rfl⟩ := fcEntry_injective hx.bracket hx'.bracket hfc hfc' hhead
      cases ns with
      | nil =>
        cases ns' with
        | nil => exact ⟨rfl, rfl⟩
        | cons y ns' => cases htail
      | cons y ns => exact ⟨rfl, by rw [(ih hns hrest' (by simp) htail).2]⟩

theorem mem_writable (fc : FunctionalConstraint) :
    isWritableFC fc = true ↔ fc ∈ [.CF, .SE, .SP, .DC, .SV] := by
  cases fc <;> decide

/-- The `Value` node of an attribute as the walk left it. -/
theorem NodeBuilt.value_iff {names : List Str} {fc : FunctionalConstraint} {p : Path}
    (h : NodeBuilt m ld ln names fc (sub t p)) (hfc : fc ≠ .NONE) :
    (Live t (p ++ ["Value".toList]) ↔ ∃ type, m.LeafAt ld ln names fc type) ∧
      (Live t (p ++ ["Value".toList]) → (Live t (p ++ ["Value".toList, "writevalue".toList]) ↔
        fc ∈ [.CF, .SE, .SP, .DC, .SV])) := by
  by_cases hleaf : ∃ type, m.LeafAt ld ln names fc type
  · obtain ⟨type, hleaf⟩ := hleaf
    have hvalue := h.value type hfc hleaf
    refine ⟨iff_of_true ?_ ⟨type, hleaf⟩, fun _ => ?_⟩
    · show (sub t p (daValueRefNodeKey :: [])).isSome = true
      rw [hvalue, valueTree, withChildren_nil]
      rfl
    · show (sub t p (daValueRefNodeKey :: ["writevalue".toList])).isSome = true ↔ _
      rw [hvalue, valueTree, valueChildren, ← mem_writable]
      cases isWritableFC fc
      · exact iff_of_false (by simp [withChildren, Subtree.set]) (by simp)
      · exact iff_of_true rfl rfl
  · have hno := h.noValue (.inr fun type hl => hleaf ⟨type, hl⟩)
    have hdead : ¬ Live t (p ++ ["Value".toList]) := by
      show ¬ (sub t p (daValueRefNodeKey :: [])).isSome = true
      rw [hno]
      simp
    exact ⟨iff_of_false hdead hleaf, fun hlive => absurd hlive hdead⟩

/-- **Attributes.** The discovery of a served model ends unless a text does not fit,
and the data attributes of the tree are the references of the listed data objects
with their constraints. -/
theorem discovery_attributes (hsrv : hasInit srvKeyInit srv = true)
    (h : Serves svc con m devices variableLists) (hcomplete : RepliesComplete svc con)
    {s : LinkState σ W} (hnew : Undiscovered srv s.tree)
    (hfits : discover61850Server svc s [srv] con ≠ .error .outOfBounds) :
    ∃ s', discover61850Server svc s [srv] con = .ok s' ∧ AttributesOf m srv s'.tree := by
  obtain ⟨s', hrun⟩ := h.discovery_ends hcomplete hfits
  refine ⟨s', hrun, ?_⟩
  have hshape := discover61850Server_shape hsrv h.namesOk hnew hrun
  have hcovered := discover61850Server_covered hsrv h hnew hrun
  refine ⟨?_, ?_, ?_, ?_⟩
  · intro k rs node hlook
    constructor
    · intro hattr
      obtain ⟨ld, ln, n, ns, fc, -, -, hnames, hne, hfc, hpath⟩ := hshape.attribute hlook hattr
      obtain ⟨hn, hns⟩ := plainNames_cons.1 hnames
      have hlive : Live s'.tree (daPath srv ld ln n fc ns) := by
        rw [← hpath]
        exact Option.isSome_iff_exists.2 ⟨node, hlook⟩
      exact ⟨ld, ln, n, ns, fc,
        (hcovered.discoveredRef_of_live hshape hn.notCreated hns hne hfc hlive).2, hpath⟩
    · rintro ⟨ld, ln, n, ns, fc, href, hpath⟩
      obtain ⟨hlive, -⟩ := hcovered.node_of_discoveredRef href
      obtain ⟨⟨node', hlook', hattr⟩, -⟩ := hshape.shows href.listed.name_ok.2
        href.has.names_ok.2.2.1 href.plainNames href.below hlive
      rw [← hpath, hlook] at hlook'
      cases hlook'
      exact hattr
  · intro ld ln n ns fc href
    obtain ⟨hlive, hbuilt⟩ := hcovered.node_of_discoveredRef href
    have hfc := href.has.names_ok.2.2.1
    obtain ⟨hvalue, hwrite⟩ := hbuilt.value_iff hfc.2
    exact ⟨hshape.shows href.listed.name_ok.2 hfc href.plainNames href.below hlive, hvalue, hwrite⟩
  · intro ld ln n ns fc ld' ln' n' ns' fc' href href' hpath
    simp only [daPath, doPath, List.cons_append, List.nil_append, List.cons.injEq,
      true_and] at hpath
    obtain ⟨hld, rfl, rfl, hattr⟩ := hpath
    obtain ⟨rfl, rfl⟩ := attrPath_injective href.has.names_ok.2.2.1 href'.has.names_ok.2.2.1
      href.plainNames href'.plainNames href.below hattr
    exact ⟨ldKey_injective hld, rfl, rfl, rfl⟩
  · intro ld ln n ns fc ld' ln' n' ns' fc' href href' heq
    exact href.has.objectRef_injective href'.has heq

/-! ## A server with a control block -/

/-- The link after the discovery of this server. -/
def blockLink : LinkState NodeStore Unit :=
  match discover61850Server blockService (emptyLink "srv_A".toList) ["srv_A".toList] 0 with
  | .ok s => s
  | .error _ => emptyLink "srv_A".toList

theorem blockServer_run :
    discover61850Server blockService (emptyLink "srv_A".toList)
    ["srv_A".toList] 0 = .ok blockLink := rfl

theorem blockServer_fits : discover61850Server (blockServer.service fun _ => some [])
    (emptyLink "srv_A".toList) ["srv_A".toList] 0 ≠ .error .outOfBounds := by
  intro h
  cases blockServer_run.symm.trans h

theorem discovery_attributes_block :
    ∃ s', discover61850Server blockService (emptyLink "srv_A".toList) ["srv_A".toList] 0 = .ok s' ∧
      AttributesOf blockServer "srv_A".toList s'.tree :=
  discovery_attributes (by decide) (blockServer.serves_service (fun _ => rfl) 0)
    ⟨fun _ _ _ h => (by cases h), fun _ _ _ h => (by cases h)⟩ (undiscovered_emptyLink _)
    blockServer_fits

/-- The data object of a control block is not listed, so its attributes have no
nodes. -/
theorem blockServer_unlisted :
    discover61850Server blockService (emptyLink "srv_A".toList) ["srv_A".toList] 0 = .ok blockLink ∧
      ¬ ∀ ld ln n ns fc, ns ≠ [] → blockServer.Has ld ln (n :: ns) fc →
        Live blockLink.tree (daPath "srv_A".toList ld ln n fc ns) := by
  refine ⟨blockServer_run, fun hall => ?_⟩
  have hhas : blockServer.Has "D".toList "N".toList ["urcb".toList, "RptID".toList] .RP :=
    ServerModel.has_iff.2 (by decide)
  have hnot : ¬ Live blockLink.tree (daPath "srv_A".toList "D".toList "N".toList "urcb".toList .RP
      ["RptID".toList]) := by decide +kernel
  exact hnot (hall _ _ _ _ _ (by simp) hhas)

end DslinkIec61850
