import DslinkIec61850.Discovery.Controls
import DslinkIec61850.Report.Delivery

/-!
# What a report publishes

The callback looks for the node of every included member of the data set and sets
its `Value`, if it has one. On the tree of a discovered server these are the leaf
attributes: a data object or a structured attribute has no `Value`, and the values
of its leaves stay as they were.

* `publishMembers_ok`: the loop over the members.
* `reportCallbackFunction_publishes`: the callback.
-/

namespace DslinkIec61850

open DSLink Subtree Strings LinkState Run

variable {σ W : Type} [DSLink σ] {svc : IedService W} {con : ConnId} {m : ServerModel}
  {devices : LogicalDevices} {variableLists : Str → Option (List Str)} {srv : Str} {t : σ}

/-! ## Members -/

/-- A member of a data set: a data object or a data attribute with a constraint. -/
structure MemberRef where
  ld : Str
  ln : Str
  n : Str
  ns : List Str
  fc : FunctionalConstraint
  ld_plain : PlainName ld
  ln_plain : PlainName ln
  names_plain : PlainNames (n :: ns)
  fc_known : fc.Known

namespace MemberRef

/-- The member in the directory of the data set. -/
def text (r : MemberRef) : Str := fcEntry (objectRef r.ld r.ln (r.n :: r.ns)) r.fc

/-- The path of its node. -/
def path (srv : Str) (r : MemberRef) : Path := daPath srv r.ld r.ln r.n r.fc r.ns

/-- The path of the `Value` of its node. -/
def valuePath (srv : Str) (r : MemberRef) : Path := r.path srv ++ [daValueRefNodeKey]

/-- The member is a leaf attribute that is discovered. -/
def IsLeaf (m : ServerModel) (r : MemberRef) : Prop :=
  Listed m r.ld r.ln r.n ∧ ∃ type, m.LeafAt r.ld r.ln (r.n :: r.ns) r.fc type

/-- The copies that are made of the reference fit. -/
def Fits (t : σ) (srv : Str) (r : MemberRef) : Prop := CopiesFit t srv r.ld r.ln r.n r.fc r.ns

theorem n_notCreated (r : MemberRef) : r.n ∉ createdKeys :=
  (plainNames_cons.1 r.names_plain).1.notCreated

/-- The text names the node. -/
theorem path_eq_of_text {r r' : MemberRef} (h : r.text = r'.text) (srv : Str) :
    r.path srv = r'.path srv := by
  obtain ⟨href, hfc⟩ := fcEntry_injective
    (bracket_not_mem_objectRef r.ld_plain r.ln_plain r.names_plain)
    (bracket_not_mem_objectRef r'.ld_plain r'.ln_plain r'.names_plain) r.fc_known r'.fc_known h
  obtain ⟨hld, hln, hnames⟩ := objectRef_injective r.ld_plain.slash r'.ld_plain.slash
    r.ln_plain.dot r'.ln_plain.dot (fun n hn => (r.names_plain n hn).dot)
    (fun n hn => (r'.names_plain n hn).dot) href
  obtain ⟨hn, hns⟩ := List.cons.inj hnames
  rw [path, path, hld, hln, hn, hns, hfc]

end MemberRef

/-! ## The tree of a server model -/

/-- The tree below the server node as far as the callback looks at it: the leaves
of the model, and no other member, have a `Value`. -/
structure ModelTree (m : ServerModel) (srv : Str) (t : σ) : Prop where
  references : ReferenceTree srv t
  live : ∀ r : MemberRef, r.IsLeaf m → Live t (r.path srv)
  value : ∀ r : MemberRef, Live t (r.valuePath srv) ↔ r.IsLeaf m

/-- The same places are in use below the server node. -/
def SamePlaces (srv : Str) (t t' : σ) : Prop := ∀ q, Live t' (srv :: q) ↔ Live t (srv :: q)

theorem SamePlaces.refl (srv : Str) (t : σ) : SamePlaces srv t t := fun _ => Iff.rfl

theorem SamePlaces.trans {t t' t'' : σ} (h : SamePlaces srv t t') (h' : SamePlaces srv t' t'') :
    SamePlaces srv t t'' := fun q => (h' q).trans (h q)

theorem samePlaces_setValue (srv : Str) (t : σ) (p : Path) (v : Option Json) :
    SamePlaces srv t (setValue t p v) := fun _ => live_setValue v

theorem ReferenceTree.samePlaces {t' : σ} (h : ReferenceTree srv t) (hsame : SamePlaces srv t t') :
    ReferenceTree srv t' where
  live_device ld r hlive := (hsame _).2 (h.live_device ld r ((hsame _).1 hlive))
  live_node ld ln r hlive := (hsame _).2 (h.live_node ld ln r ((hsame _).1 hlive))
  live_object ld ln n r hn hlive := (hsame _).2 (h.live_object ld ln n r hn ((hsame _).1 hlive))
  live_prefix ld ln n ns ms _ hn hfc hplain hlive :=
    (hsame _).2 (h.live_prefix ld ln n ns ms hn hfc hplain ((hsame _).1 hlive))
  not_live_bare ld ln n fc ns x hn hx hlive :=
    h.not_live_bare ld ln n fc ns x hn hx ((hsame _).1 hlive)
  not_live_entry ld ln n fc hlive := h.not_live_entry ld ln n fc ((hsame _).1 hlive)

theorem ModelTree.samePlaces {t' : σ} (h : ModelTree m srv t) (hsame : SamePlaces srv t t') :
    ModelTree m srv t' where
  references := h.references.samePlaces hsame
  live r hleaf := (hsame _).2 (h.live r hleaf)
  value r := (hsame _).trans (h.value r)

theorem MemberRef.Fits.samePlaces {t' : σ} {r : MemberRef} (h : r.Fits t srv)
    (hsame : SamePlaces srv t t') : r.Fits t' srv where
  whole := h.whole
  device := h.device
  object hlive := by
    obtain ⟨hn, hentry⟩ := h.object ((hsame _).1 hlive)
    refine ⟨hn, fun hdead => hentry fun hlive' => hdead ?_⟩
    exact (hsame _).2 hlive'
  attributes front x back hns hlive := h.attributes front x back hns ((hsame _).1 hlive)

/-- A discovery builds such a tree. -/
theorem discover61850Server_modelTree (hsrv : hasInit srvKeyInit srv = true)
    (h : Serves svc con m devices variableLists) {s s' : LinkState σ W}
    (hnew : Undiscovered srv s.tree)
    (hrun : discover61850Server svc s [srv] con = .ok s') : ModelTree m srv s'.tree := by
  have hshape := discover61850Server_shape hsrv h.namesOk hnew hrun
  have hcovered := discover61850Server_covered hsrv h hnew hrun
  have hleaf (r : MemberRef) (hr : r.IsLeaf m) : Live s'.tree (r.path srv) ∧
      NodeBuilt m r.ld r.ln (r.n :: r.ns) r.fc (sub s'.tree (r.path srv)) := by
    obtain ⟨hlisted, type, hleaf⟩ := hr
    refine hcovered.node_of_discoveredRef ⟨hleaf.has, ?_, hlisted⟩
    obtain ⟨n, x, ns, heq⟩ := hleaf.length
    rw [(List.cons.inj heq).2]
    simp
  refine ⟨hshape.referenceTree, fun r hr => (hleaf r hr).1,
    fun r => ⟨fun hlive => ?_, fun hr => ?_⟩⟩
  · have hns := (plainNames_cons.1 r.names_plain).2
    by_cases hnil : r.ns = []
    · -- a data object has no value
      have hpath : r.valuePath srv = srv :: ldKey r.ld :: r.ln :: r.n :: [daValueRefNodeKey] := by
        simp [MemberRef.valuePath, MemberRef.path, daPath, doPath, hnil]
      rw [hpath] at hlive
      obtain ⟨-, -, hbuilt⟩ := hcovered.object_built hshape r.n_notCreated hlive
      have hsome : (sub s'.tree (doPath srv r.ld r.ln r.n) [daValueRefNodeKey]).isSome := hlive
      rw [hbuilt.node.noValue (.inl rfl) []] at hsome
      cases hsome
    · have href := (hcovered.discoveredRef_below hshape r.n_notCreated hns hnil r.fc_known hlive).2
      obtain ⟨hvalue, -⟩ := (hcovered.node_of_discoveredRef href).2.value_iff r.fc_known.2
      exact ⟨href.listed, hvalue.1 hlive⟩
  · obtain ⟨hvalue, -⟩ := (hleaf r hr).2.value_iff r.fc_known.2
    exact hvalue.2 hr.2

/-! ## One member -/

/-- What the callback relies on for the member `i` of the data set. -/
structure MemberOk (m : ServerModel) (srv : Str) (t : σ) (report : ClientReport) (i : ℕ)
    (r : MemberRef) : Prop where
  reason : i < report.reasonForInclusion.length
  fits : Included report i → r.Fits t srv
  value : Included report i → r.IsLeaf m →
    ∃ v shown, reportedValue report i = some v ∧ shownValue v = .ok shown

theorem MemberOk.samePlaces {t' : σ} {report : ClientReport} {i : ℕ} {r : MemberRef}
    (h : MemberOk m srv t report i r) (hsame : SamePlaces srv t t') :
    MemberOk m srv t' report i r :=
  ⟨h.reason, fun hincluded => (h.fits hincluded).samePlaces hsame, h.value⟩

end DslinkIec61850
