import DslinkIec61850.DataSet.Lookup
import DslinkIec61850.Client.Service
import DslinkIec61850.Discovery.Coverage
import DslinkIec61850.Sdk.Reference

/-!
# References lead back to the discovered attributes

`getDANode` takes a reference to pieces that discovery put together by another
recursion. On a discovered tree the two are inverse as long as the pieces fit
into the buffers of `getDANode`: 300 characters for the whole reference, 100 for
each key that is looked up.

* `getDANode_eq_ok_iff`: the result for any reference of plain names.
* `getDANode_discovered`: after a discovery every attribute is found by what it
  shows and nothing else is, exactly when the copies fit.
-/

namespace DslinkIec61850

open DSLink LinkState Strings Run

variable {σ W : Type} [DSLink σ] {svc : IedService W} {con : ConnId} {srv : Str} {t : σ}

/-! ## What the shape says about keys -/

/-- The path of a data object. -/
def doPath (srv ld ln n : Str) : Path := [srv, ldKey ld, ln, n]

/-- The path of a data attribute. -/
def daPath (srv ld ln n : Str) (fc : FunctionalConstraint) (ns : List Str) : Path :=
  doPath srv ld ln n ++ attrPath fc ns

@[simp] theorem daPath_nil (srv ld ln n : Str) (fc : FunctionalConstraint) :
    daPath srv ld ln n fc [] = doPath srv ld ln n := by simp [daPath]

theorem objectRef_singleton (ld ln n : Str) :
    objectRef ld ln [n] = ld ++ '/' :: ln ++ '.' :: n := by
  simp [objectRef]

theorem daPath_snoc (srv ld ln n : Str) (fc : FunctionalConstraint) (ns : List Str) (x : Str) :
    daPath srv ld ln n fc (ns ++ [x]) = daPath srv ld ln n fc ns ++ [fcEntry x fc] := by
  simp [daPath, attrPath_append]

/-- A bare plain name does not occur where attributes and created children do. -/
theorem attrPath_snoc_ne (fc fc' : FunctionalConstraint) (names ns : List Str) {x : Str}
    (hx : PlainName x) {tail : Path}
    (htail : tail = [] ∨ ∃ k ks, tail = k :: ks ∧ k ∈ createdKeys) :
    attrPath fc ns ++ [x] ≠ attrPath fc' names ++ tail := by
  induction names generalizing ns with
  | nil =>
    rintro rfl
    rcases htail with htail | ⟨k, ks, htail, hk⟩
    · simp at htail
    · cases ns with
      | nil =>
        cases htail
        exact hx.notCreated hk
      | cons y ns =>
        cases htail
        exact fcEntry_not_mem_createdKeys y fc hk
  | cons y names ih =>
    intro heq
    cases ns with
    | nil =>
      have hxy := (List.cons.inj heq).1
      exact hx.bracket (hxy ▸ bracket_mem_fcEntry y fc')
    | cons z ns => exact ih ns (List.cons.inj heq).2

namespace ServerShape

variable {ld ln n : Str}

/-- A logical device in the tree. -/
theorem logicalDevice (h : ServerShape srv t) {r : Path} (hlive : Live t (srv :: ldKey ld :: r)) :
    PlainName ld ∧ LogicalDevice ld (sub t [srv, ldKey ld]) := by
  obtain ⟨m, hm⟩ := Option.isSome_iff_exists.1 hlive
  obtain ⟨ld', hld', hplain, hshape⟩ := h.device _ r m (hasInit_ldKey ld) hm
  cases ldKey_injective hld'
  exact ⟨hplain, hshape⟩

theorem logicalNode (h : ServerShape srv t) {r : Path}
    (hlive : Live t (srv :: ldKey ld :: ln :: r)) :
    PlainName ln ∧ LogicalNode (ld ++ '/' :: ln) (sub t [srv, ldKey ld, ln]) := by
  obtain ⟨m, hm⟩ := Option.isSome_iff_exists.1 hlive
  exact (h.logicalDevice hlive).2.below ln r m hm

theorem dataObject (h : ServerShape srv t) (hn : n ∉ createdKeys) {r : Path}
    (hlive : Live t (srv :: ldKey ld :: ln :: n :: r)) :
    PlainName n ∧ DataObject (objectRef ld ln [n]) (sub t (doPath srv ld ln n)) := by
  obtain ⟨m, hm⟩ := Option.isSome_iff_exists.1 hlive
  rcases (h.logicalNode hlive).2.below n r m hm with ⟨hk, -⟩ | ⟨hplain, hdo⟩
  · exact absurd hk hn
  · refine ⟨hplain, ?_⟩
    rw [objectRef_singleton]
    exact hdo

theorem live_device (h : ServerShape srv t) {r : Path} (hlive : Live t (srv :: ldKey ld :: r)) :
    Live t [srv, ldKey ld] := by
  obtain ⟨m, hm, -⟩ := (h.logicalDevice hlive).2.root
  exact Option.isSome_iff_exists.2 ⟨m, by rwa [sub_nil] at hm⟩

theorem live_node (h : ServerShape srv t) {r : Path} (hlive : Live t (srv :: ldKey ld :: ln :: r)) :
    Live t [srv, ldKey ld, ln] := by
  obtain ⟨m, hm, -⟩ := (h.logicalNode hlive).2.root
  exact Option.isSome_iff_exists.2 ⟨m, by rwa [sub_nil] at hm⟩

theorem live_object (h : ServerShape srv t) (hn : n ∉ createdKeys) {r : Path}
    (hlive : Live t (srv :: ldKey ld :: ln :: n :: r)) : Live t (doPath srv ld ln n) := by
  obtain ⟨m, hm, -⟩ := (h.dataObject hn hlive).2.1
  exact Option.isSome_iff_exists.2 ⟨m, by rwa [sub_nil] at hm⟩

/-- With an attribute all attributes above it are in the tree. -/
theorem live_prefix (h : ServerShape srv t) (hn : n ∉ createdKeys) {fc : FunctionalConstraint}
    (hfc : fc.Known) {ns : List Str} (ms : List Str) (hplain : PlainNames (ns ++ ms))
    (hlive : Live t (daPath srv ld ln n fc (ns ++ ms))) : Live t (daPath srv ld ln n fc ns) := by
  induction ms using List.reverseRecOn with
  | nil => simpa using hlive
  | append_singleton ms x ih =>
    rw [← List.append_assoc] at hlive hplain
    have hdo := (h.dataObject hn (r := attrPath fc (ns ++ ms ++ [x])) hlive).2
    exact ih (plainNames_append.1 hplain).1 (hdo.2.closed (ns ++ ms) x fc hplain hfc hlive)

/-- Below a data object a plain name is never a key. -/
theorem not_live_bare (h : ServerShape srv t) (hn : n ∉ createdKeys) (fc : FunctionalConstraint)
    (ns : List Str) {x : Str} (hx : PlainName x) : ¬ Live t (daPath srv ld ln n fc ns ++ [x]) := by
  intro hlive
  rw [daPath, List.append_assoc] at hlive
  have hdo := (h.dataObject hn (r := attrPath fc ns ++ [x]) hlive).2
  obtain ⟨m, hm⟩ := Option.isSome_iff_exists.1 hlive
  obtain ⟨names, fc', tail, hpath, -, -, -, hcase⟩ :=
    hdo.2.place (attrPath fc ns ++ [x]) m (by simp) hm
  refine attrPath_snoc_ne fc fc' names ns hx ?_ hpath
  rcases hcase with ⟨htail, -⟩ | ⟨k, ks, htail, hk, -⟩
  · exact .inl htail
  · exact .inr ⟨k, ks, htail, hk⟩

end ServerShape

/-- What the walk relies on: no key lies below a missing one, and names occur with
their constraint below a data object and without one above. -/
structure ReferenceTree (srv : Str) (t : σ) : Prop where
  live_device : ∀ ld r, Live t (srv :: ldKey ld :: r) → Live t [srv, ldKey ld]
  live_node : ∀ ld ln r, Live t (srv :: ldKey ld :: ln :: r) → Live t [srv, ldKey ld, ln]
  live_object : ∀ ld ln n r, n ∉ createdKeys → Live t (srv :: ldKey ld :: ln :: n :: r) →
    Live t (doPath srv ld ln n)
  live_prefix : ∀ ld ln n ns ms {fc : FunctionalConstraint}, n ∉ createdKeys → fc.Known →
    PlainNames (ns ++ ms) → Live t (daPath srv ld ln n fc (ns ++ ms)) →
    Live t (daPath srv ld ln n fc ns)
  not_live_bare : ∀ ld ln n fc ns x, n ∉ createdKeys → PlainName x →
    ¬ Live t (daPath srv ld ln n fc ns ++ [x])
  not_live_entry : ∀ ld ln n fc, ¬ Live t ([srv, ldKey ld, ln] ++ [fcEntry n fc])

theorem ServerShape.referenceTree (h : ServerShape srv t) : ReferenceTree srv t where
  live_device _ _ hlive := h.live_device hlive
  live_node _ _ _ hlive := h.live_node hlive
  live_object _ _ _ _ hn hlive := h.live_object hn hlive
  live_prefix _ _ _ _ ms _ hn hfc hplain hlive := h.live_prefix hn hfc ms hplain hlive
  not_live_bare _ _ _ fc ns _ hn hx := h.not_live_bare hn fc ns hx
  not_live_entry ld ln n fc hlive := by
    obtain ⟨m, hm⟩ := Option.isSome_iff_exists.1 hlive
    rcases (h.logicalNode hlive).2.below (fcEntry n fc) [] m hm with ⟨hk, -⟩ | ⟨hplain, -⟩
    · exact fcEntry_not_mem_createdKeys n fc hk
    · exact hplain.bracket (bracket_mem_fcEntry n fc)

/-! ## The walk of `getDANode` -/

/-- The copies made below `done` for the names `rest` fit. -/
def AttributesFit (t : σ) (srv ld ln n : Str) (fc : FunctionalConstraint)
    (done rest : List Str) : Prop :=
  ∀ front x back, rest = front ++ x :: back → Live t (daPath srv ld ln n fc (done ++ front)) →
    (fcEntry x fc).length < 100

/-- The copies that `getDANode` makes of a reference and of its parts fit, as far
as the walk gets. -/
structure CopiesFit (t : σ) (srv ld ln n : Str) (fc : FunctionalConstraint)
    (ns : List Str) : Prop where
  whole : (fcEntry (objectRef ld ln (n :: ns)) fc).length < 300
  device : (ldKey ld).length < 100
  object : Live t [srv, ldKey ld, ln] → n.length < 100 ∧
    (¬ Live t (doPath srv ld ln n) → (fcEntry n fc).length < 100)
  attributes : AttributesFit t srv ld ln n fc [] ns

/-- The node with a path, if there is one. -/
def nodeAt (t : σ) (p : Path) : Option Path := if Live t p then some p else none

theorem nodeAt_eq_some {p q : Path} : nodeAt t p = some q ↔ q = p ∧ Live t p := by
  unfold nodeAt
  split_ifs with h
  · simp [h, eq_comm]
  · simp [h]

theorem child_eq_nodeAt (t : σ) (p : Path) (k : Str) : child t p k = nodeAt t (p ++ [k]) := rfl

/-- The suffix that the walk puts behind a name. -/
def fcSuffix (fc : FunctionalConstraint) : Str := '[' :: (fc.code ++ [']'])

theorem append_fcSuffix (n : Str) (fc : FunctionalConstraint) : n ++ fcSuffix fc = fcEntry n fc :=
  rfl

theorem length_fcEntry (n : Str) {fc : FunctionalConstraint} (hfc : fc.Known) :
    (fcEntry n fc).length = n.length + 4 := by
  simp [fcEntry, FunctionalConstraint.length_code hfc]

theorem PlainName.getPath {x : Str} (hx : PlainName x) (t : σ) (p : Path) :
    DSLink.getPath t p x = nodeAt t (p ++ [x]) :=
  getPath_eq_child hx.ne_nil hx.slash

theorem PlainName.getPath_fcEntry {x : Str} (hx : PlainName x) (fc : FunctionalConstraint)
    (t : σ) (p : Path) : DSLink.getPath t p (fcEntry x fc) = nodeAt t (p ++ [fcEntry x fc]) := by
  apply getPath_eq_child
  · simp [fcEntry]
  · intro hm
    rcases List.mem_append.1 hm with hm | hm
    · exact hx.slash hm
    · rcases List.mem_cons.1 hm with hm | hm
      · exact absurd hm (by decide)
      · rcases List.mem_append.1 hm with hm | hm
        · exact absurd (FunctionalConstraint.isUpper_of_mem_code hm) (by decide)
        · exact absurd hm (by decide)

section Walk

variable {ld ln n x : Str} {fc : FunctionalConstraint}

/-- One attribute name: the bare name is no key, so the name with the constraint
decides. -/
theorem scanName_attribute (h : ReferenceTree srv t) (hn : n ∉ createdKeys) (hfc : fc.Known)
    (done : List Str) (hx : PlainName x) (r : Option Path) :
    scanName t (fcSuffix fc) (daPath srv ld ln n fc done) x = .ok r ↔
      (fcEntry x fc).length < 100 ∧ r = nodeAt t (daPath srv ld ln n fc (done ++ [x])) := by
  unfold scanName
  rw [hx.getPath, nodeAt, if_neg (h.not_live_bare _ _ _ fc done _ hn hx), append_fcSuffix,
    hx.getPath_fcEntry fc, daPath_snoc, length_fcEntry x hfc]
  simp only [bind_eq_ok, storeIn_eq_ok, FitsIn, Option.some.injEq, forall_eq', exists_const]
  rw [length_fcEntry x hfc]
  constructor
  · rintro ⟨-, hfit, hr⟩
    cases hr
    exact ⟨hfit, rfl⟩
  · rintro ⟨hfit, rfl⟩
    exact ⟨by omega, hfit, rfl⟩

theorem attributesFit_cons {done rest : List Str} (hlive : Live t (daPath srv ld ln n fc done)) :
    AttributesFit t srv ld ln n fc done (x :: rest) ↔
      (fcEntry x fc).length < 100 ∧ AttributesFit t srv ld ln n fc (done ++ [x]) rest := by
  constructor
  · intro h
    refine ⟨h [] x rest rfl (by simpa using hlive), ?_⟩
    intro front y back hrest hfront
    refine h (x :: front) y back (by rw [hrest]; rfl) ?_
    simpa using hfront
  · rintro ⟨hx, h⟩ front y back hrest hfront
    cases front with
    | nil =>
      cases hrest
      exact hx
    | cons z front =>
      cases hrest
      exact h front y back rfl (by simpa using hfront)

/-- The names below an attribute, by induction on the names that are left. -/
theorem scanNames_attributes (h : ReferenceTree srv t) (hn : n ∉ createdKeys) (hfc : fc.Known)
    (rest : List Str) : ∀ done, PlainNames (done ++ rest) →
    Live t (daPath srv ld ln n fc done) → ∀ r,
    (scanNames t (fcSuffix fc) (daPath srv ld ln n fc done) rest = .ok r ↔
      AttributesFit t srv ld ln n fc done rest ∧
        r = nodeAt t (daPath srv ld ln n fc (done ++ rest))) := by
  induction rest with
  | nil =>
    intro done _ hlive r
    rw [scanNames, List.append_nil, nodeAt, if_pos hlive]
    simp [AttributesFit, eq_comm]
  | cons x rest ih =>
    intro done hplain hlive r
    obtain ⟨hdone, hx, hrest⟩ : PlainNames done ∧ PlainName x ∧ PlainNames rest := by
      rw [plainNames_append, plainNames_cons] at hplain
      exact hplain
    have hsplit : done ++ x :: rest = done ++ [x] ++ rest := by simp
    rw [scanNames, bind_eq_ok, attributesFit_cons hlive, hsplit]
    simp only [scanName_attribute h hn hfc done hx]
    by_cases hnext : Live t (daPath srv ld ln n fc (done ++ [x]))
    · rw [nodeAt, if_pos hnext]
      have hrec := ih (done ++ [x]) (hsplit ▸ hplain) hnext r
      constructor
      · rintro ⟨_, ⟨hfit, rfl⟩, hscan⟩
        obtain ⟨hfits, hr⟩ := hrec.1 hscan
        exact ⟨⟨hfit, hfits⟩, hr⟩
      · rintro ⟨⟨hfit, hfits⟩, hr⟩
        exact ⟨_, ⟨hfit, rfl⟩, hrec.2 ⟨hfits, hr⟩⟩
    · -- nothing is below a node that is not there
      have hdead (front : List Str) (hplain' : PlainNames (done ++ [x] ++ front)) :
          ¬ Live t (daPath srv ld ln n fc (done ++ [x] ++ front)) := by
        intro hlive'
        exact hnext (h.live_prefix _ _ _ _ front hn hfc hplain' hlive')
      rw [nodeAt, if_neg hnext, nodeAt, if_neg (hdead rest (hsplit ▸ hplain))]
      constructor
      · rintro ⟨_, ⟨hfit, rfl⟩, hscan⟩
        cases hscan
        refine ⟨⟨hfit, ?_⟩, rfl⟩
        intro front y back hsplit' hlive'
        refine absurd hlive' (hdead front ?_)
        rw [hsplit] at hplain
        rw [hsplit', ← List.append_assoc] at hplain
        exact (plainNames_append.1 hplain).1
      · rintro ⟨⟨hfit, -⟩, rfl⟩
        exact ⟨_, ⟨hfit, rfl⟩, rfl⟩

/-- The name of a data object: below a logical node no key has a constraint. -/
theorem scanName_object (h : ReferenceTree srv t) (hn : PlainName n) (r : Option Path) :
    scanName t (fcSuffix fc) [srv, ldKey ld, ln] n = .ok r ↔
      (n.length < 100 ∧ (¬ Live t (doPath srv ld ln n) → (fcEntry n fc).length < 100)) ∧
        r = nodeAt t (doPath srv ld ln n) := by
  have hsuffix : ¬ Live t ([srv, ldKey ld, ln] ++ [fcEntry n fc]) := h.not_live_entry ld ln n fc
  have hpath : [srv, ldKey ld, ln] ++ [n] = doPath srv ld ln n := rfl
  unfold scanName
  rw [hn.getPath, hpath, append_fcSuffix, hn.getPath_fcEntry fc]
  simp only [bind_eq_ok, storeIn_eq_ok, FitsIn, Option.some.injEq, forall_eq', exists_const]
  by_cases hlive : Live t (doPath srv ld ln n)
  · rw [nodeAt, if_pos hlive]
    constructor
    · rintro ⟨hfit, hr⟩
      cases hr
      exact ⟨⟨hfit, absurd hlive⟩, rfl⟩
    · rintro ⟨⟨hfit, -⟩, rfl⟩
      exact ⟨hfit, rfl⟩
  · rw [nodeAt, if_neg hlive, nodeAt, if_neg hsuffix]
    simp only [bind_eq_ok, storeIn_eq_ok, FitsIn, Option.some.injEq, forall_eq', exists_const]
    constructor
    · rintro ⟨hfit, hfit', hr⟩
      cases hr
      exact ⟨⟨hfit, fun _ => hfit'⟩, rfl⟩
    · rintro ⟨⟨hfit, hfit'⟩, rfl⟩
      exact ⟨hfit, hfit' hlive, rfl⟩

/-- The names below a logical node. -/
theorem scanNames_object (h : ReferenceTree srv t) (hfc : fc.Known) {ns : List Str}
    (hn : PlainName n) (hns : PlainNames ns) (r : Option Path) :
    scanNames t (fcSuffix fc) [srv, ldKey ld, ln] (n :: ns) = .ok r ↔
      ((n.length < 100 ∧ (¬ Live t (doPath srv ld ln n) → (fcEntry n fc).length < 100)) ∧
        AttributesFit t srv ld ln n fc [] ns) ∧ r = nodeAt t (daPath srv ld ln n fc ns) := by
  rw [scanNames, bind_eq_ok]
  simp only [scanName_object h hn]
  by_cases hlive : Live t (doPath srv ld ln n)
  · rw [nodeAt, if_pos hlive]
    have hrec := scanNames_attributes h hn.notCreated hfc ns [] hns (by simpa using hlive) r
    rw [daPath_nil, List.nil_append] at hrec
    constructor
    · rintro ⟨_, ⟨hfit, rfl⟩, hscan⟩
      obtain ⟨hfits, hr⟩ := hrec.1 hscan
      exact ⟨⟨hfit, hfits⟩, hr⟩
    · rintro ⟨⟨hfit, hfits⟩, hr⟩
      exact ⟨_, ⟨hfit, rfl⟩, hrec.2 ⟨hfits, hr⟩⟩
  · have hdead (front : List Str) : ¬ Live t (daPath srv ld ln n fc front) := by
      intro hlive'
      exact hlive (h.live_object _ _ _ (attrPath fc front) hn.notCreated hlive')
    rw [nodeAt, if_neg hlive, nodeAt, if_neg (hdead ns)]
    constructor
    · rintro ⟨_, ⟨hfit, rfl⟩, hscan⟩
      cases hscan
      exact ⟨⟨hfit, fun front _ _ _ hlive' => absurd hlive' (hdead front)⟩, rfl⟩
    · rintro ⟨⟨hfit, -⟩, rfl⟩
      exact ⟨_, ⟨hfit, rfl⟩, rfl⟩

end Walk

/-- The walk from the server node. -/
theorem scanServer_eq_ok (h : ReferenceTree srv t) {ld ln n : Str} {ns : List Str}
    {fc : FunctionalConstraint} (hfc : fc.Known) (hld : PlainName ld) (hln : PlainName ln)
    (hn : PlainName n) (hns : PlainNames ns) (r : Option Path) :
    scanServer t [srv] (objectRef ld ln (n :: ns)) (fcSuffix fc) = .ok r ↔
      ((ldKey ld).length < 100 ∧
        (Live t [srv, ldKey ld, ln] → n.length < 100 ∧
          (¬ Live t (doPath srv ld ln n) → (fcEntry n fc).length < 100)) ∧
        AttributesFit t srv ld ln n fc [] ns) ∧ r = nodeAt t (daPath srv ld ln n fc ns) := by
  have hsplit : split '.' (n ++ prefixed '.' ns) = n :: ns :=
    split_append_prefixed hn.dot fun m hm => (hns m hm).dot
  have hcutDot : cut '.' (ln ++ prefixed '.' (n :: ns)) = (ln, some (n ++ prefixed '.' ns)) := by
    rw [prefixed_cons, cut_append hln.dot]
  have hldSlash : '/' ∉ ldnKeyInit ++ ld := by
    intro hm
    rcases List.mem_append.1 hm with hm | hm
    · exact absurd hm (by decide)
    · exact hld.slash hm
  rw [scanServer, objectRef, cut_append hld.slash]
  dsimp only
  rw [getPath_eq_child (by simp [ldnKeyInit]) hldSlash, child_eq_nodeAt, hcutDot]
  dsimp only
  rw [hsplit]
  simp only [bind_eq_ok, storeIn_eq_ok, FitsIn, Option.some.injEq, forall_eq', exists_const]
  rw [and_assoc]
  show (ldKey ld).length < 100 ∧ _ ↔ _
  apply and_congr_right
  intro _
  by_cases hnode : Live t [srv, ldKey ld, ln]
  · have hdevice : Live t ([srv] ++ [ldnKeyInit ++ ld]) := h.live_device ld [ln] hnode
    rw [nodeAt, if_pos hdevice]
    dsimp only
    have hlnNode : nodeAt t ([srv] ++ [ldnKeyInit ++ ld] ++ [ln]) = some [srv, ldKey ld, ln] := by
      rw [nodeAt_eq_some]
      exact ⟨rfl, hnode⟩
    rw [hln.getPath, hlnNode]
    simp only [hnode, true_implies]
    exact scanNames_object h hfc hn hns r
  · -- a reference through a device or a node that is not there
    have hdead (front : List Str) : ¬ Live t (daPath srv ld ln n fc front) := by
      intro hlive
      exact hnode (h.live_node ld ln (n :: attrPath fc front) hlive)
    have hmiss : (Except.ok none : Except Fault (Option Path)) = .ok r ↔
        ((Live t [srv, ldKey ld, ln] → n.length < 100 ∧
          (¬ Live t (doPath srv ld ln n) → (fcEntry n fc).length < 100)) ∧
        AttributesFit t srv ld ln n fc [] ns) ∧ r = nodeAt t (daPath srv ld ln n fc ns) := by
      rw [nodeAt, if_neg (hdead ns), Except.ok.injEq, eq_comm]
      constructor
      · intro hr
        exact ⟨⟨fun hlive => absurd hlive hnode,
          fun front _ _ _ hlive => absurd hlive (hdead front)⟩, hr⟩
      · intro hr
        exact hr.2
    by_cases hdevice : Live t ([srv] ++ [ldnKeyInit ++ ld])
    · have hlnNode : nodeAt t ([srv] ++ [ldnKeyInit ++ ld] ++ [ln]) = none := if_neg hnode
      rw [nodeAt, if_pos hdevice]
      dsimp only
      rw [hln.getPath, hlnNode]
      exact hmiss
    · rw [nodeAt, if_neg hdevice]
      exact hmiss

theorem bracket_not_mem_objectRef {ld ln : Str} {names : List Str} (hld : PlainName ld)
    (hln : PlainName ln) (hnames : PlainNames names) : '[' ∉ objectRef ld ln names := by
  intro hm
  rcases List.mem_append.1 hm with hm | hm
  · exact hld.bracket hm
  · rcases List.mem_cons.1 hm with hm | hm
    · exact absurd hm (by decide)
    · rcases List.mem_append.1 hm with hm | hm
      · exact hln.bracket hm
      · obtain ⟨m, hm', hm⟩ := List.mem_flatMap.1 hm
        rcases List.mem_cons.1 hm with hm | hm
        · exact absurd hm (by decide)
        · exact (hnames m hm').bracket hm

/-- `getDANode` on a reference of plain names: it delivers the node at the path
that the reference describes, exactly when its copies fit. -/
theorem getDANode_eq_ok_iff (h : ReferenceTree srv t) (hsrv : hasInit srvKeyInit srv = true)
    (q : Path) {ld ln n : Str} {ns : List Str} {fc : FunctionalConstraint} (hfc : fc.Known)
    (hld : PlainName ld)
    (hln : PlainName ln) (hn : PlainName n) (hns : PlainNames ns) (r : Option Path) :
    getDANode t (srv :: q) (fcEntry (objectRef ld ln (n :: ns)) fc) = .ok r ↔
      CopiesFit t srv ld ln n fc ns ∧ r = nodeAt t (daPath srv ld ln n fc ns) := by
  have hnames : PlainNames (n :: ns) := plainNames_cons.2 ⟨hn, hns⟩
  have hbracket := bracket_not_mem_objectRef hld hln hnames
  rw [getDANode_fcEntry hsrv q hbracket hfc, bind_eq_ok]
  simp only [storeIn_eq_ok, FitsIn, Option.some.injEq, forall_eq', exists_const]
  rw [← fcSuffix, scanServer_eq_ok h hfc hld hln hn hns]
  constructor
  · rintro ⟨hwhole, ⟨hdevice, hobject, hattributes⟩, hr⟩
    exact ⟨⟨hwhole, hdevice, hobject, hattributes⟩, hr⟩
  · rintro ⟨hfits, hr⟩
    exact ⟨hfits.whole, ⟨hfits.device, hfits.object, hfits.attributes⟩, hr⟩

/-! ## Discovered attributes -/

/-- The node at `d` is a data attribute and shows the constraint and the reference. -/
def ShowsAttribute (t : σ) (d : Path) (ref : Str) (fc : FunctionalConstraint) : Prop :=
  (∃ node, lookup t d = some node ∧ IsAttributeNode node) ∧
    attributeOf t d = some (some fc.code, some ref)

theorem attrPath_ne_created (fc fc' : FunctionalConstraint) (names ns : List Str) {k : Str}
    (hk : k ∈ createdKeys) (ks : Path) : attrPath fc ns ≠ attrPath fc' names ++ k :: ks := by
  intro heq
  have hmem : k ∈ attrPath fc ns := by
    rw [heq]
    simp
  obtain ⟨x, -, rfl⟩ := List.mem_map.1 hmem
  exact fcEntry_not_mem_createdKeys x fc hk

/-- A node at the path of an attribute shows what the path says. -/
theorem ServerShape.shows (h : ServerShape srv t) {ld ln n : Str} (hn : n ∉ createdKeys)
    {fc : FunctionalConstraint} (hfc : fc.Known) {ns : List Str} (hns : PlainNames ns)
    (hne : ns ≠ []) (hlive : Live t (daPath srv ld ln n fc ns)) :
    ShowsAttribute t (daPath srv ld ln n fc ns) (objectRef ld ln (n :: ns)) fc := by
  obtain ⟨-, -, hshape⟩ := h.dataObject hn (r := attrPath fc ns) hlive
  have hpath (r : Path) : sub t (doPath srv ld ln n) (attrPath fc ns ++ r) =
      lookup t (daPath srv ld ln n fc ns ++ r) := by
    rw [sub_apply, daPath, List.append_assoc]
  have hpath' : sub t (doPath srv ld ln n) (attrPath fc ns) = lookup t (daPath srv ld ln n fc ns) :=
    rfl
  refine ⟨?_, ?_⟩
  · obtain ⟨m, hm⟩ := Option.isSome_iff_exists.1 hlive
    obtain ⟨names, fc', tail, heq, -, -, -, ⟨-, hattr⟩ | ⟨k, ks, rfl, hk, -⟩⟩ :=
      hshape.place (attrPath fc ns) m (by simpa [attrPath] using hne) (hpath'.trans hm)
    · exact ⟨m, hm, hattr⟩
    · exact absurd heq (attrPath_ne_created fc fc' names ns hk ks)
  · obtain ⟨hfcNode, hrefNode⟩ := hshape.shown ns fc hne hns hfc (hpath' ▸ hlive)
    have href : objectRef ld ln [n] ++ prefixed '.' ns = objectRef ld ln (n :: ns) := by
      simp [objectRef]
    rw [hpath, href] at hrefNode
    rw [hpath] at hfcNode
    exact attributeOf_shown hfcNode hrefNode

/-- Every data attribute of a discovered server lies at such a path. -/
theorem ServerShape.attribute (h : ServerShape srv t) {k : Str} {rs : Path} {node : DSNode}
    (hnode : lookup t (srv :: k :: rs) = some node) (hattr : IsAttributeNode node) :
    ∃ ld ln n ns fc, PlainName ld ∧ PlainName ln ∧ PlainNames (n :: ns) ∧ ns ≠ [] ∧
      FunctionalConstraint.Known fc ∧ srv :: k :: rs = daPath srv ld ln n fc ns := by
  cases hk : hasInit ldnKeyInit k with
  | false => exact absurd hattr (h.other k rs node hk hnode)
  | true =>
    obtain ⟨ld, rfl, hld, hdevice⟩ := h.device k rs node hk hnode
    have hroot {o : Option DSNode} (ho : ∃ m, o = some m ∧ ¬ IsAttributeNode m) :
        o ≠ some node := by
      obtain ⟨m, hm, hnot⟩ := ho
      intro heq
      cases hm.symm.trans heq
      exact hnot hattr
    cases rs with
    | nil => exact absurd hnode (by simpa using hroot hdevice.root)
    | cons ln rs =>
      obtain ⟨hln, hlnShape⟩ := hdevice.below ln rs node hnode
      cases rs with
      | nil => exact (hroot hlnShape.root hnode).elim
      | cons n rs =>
        rcases hlnShape.below n rs node hnode with ⟨-, hnot⟩ | ⟨hn, hdo, hshape⟩
        · exact absurd hattr hnot
        · cases rs with
          | nil => exact (hroot hdo hnode).elim
          | cons k' rs =>
            obtain ⟨ns, fc, tail, hpath, hns, hfc, -, hcase⟩ :=
              hshape.place (k' :: rs) node (by simp) hnode
            rcases hcase with ⟨rfl, -⟩ | ⟨-, -, -, -, hnot⟩
            · rw [List.append_nil] at hpath
              refine ⟨ld, ln, n, ns, fc, hld, hln, plainNames_cons.2 ⟨hn, hns⟩, ?_, hfc, ?_⟩
              · rintro rfl
                cases hpath
              · rw [hpath]
                rfl
            · exact absurd hattr hnot

/-- No attribute shows the reference of a data object. -/
theorem ServerShape.not_shows_object (h : ServerShape srv t) {ld ln n : Str} (hld : PlainName ld)
    (hln : PlainName ln) (hn : PlainName n) (fc : FunctionalConstraint) (k : Str) (rs : Path) :
    ¬ ShowsAttribute t (srv :: k :: rs) (objectRef ld ln [n]) fc := by
  rintro ⟨⟨node, hnode, hattr⟩, hshown⟩
  obtain ⟨ld', ln', n', ns, fc', hld', hln', hnames, hne, hfc', hpath⟩ := h.attribute hnode hattr
  obtain ⟨hn', hns⟩ := plainNames_cons.1 hnames
  have hlive : Live t (daPath srv ld' ln' n' fc' ns) := by
    rw [← hpath]
    exact Option.isSome_iff_exists.2 ⟨node, hnode⟩
  have hshown' := (h.shows hn'.notCreated hfc' hns hne hlive).2
  rw [← hpath, hshown] at hshown'
  have href : objectRef ld ln [n] = objectRef ld' ln' (n' :: ns) := by
    simpa using congrArg (Option.bind · Prod.snd) hshown'
  obtain ⟨-, -, heq⟩ := objectRef_injective hld.slash hld'.slash hln.dot hln'.dot
    (by simpa using hn.dot) (fun x hx => (hnames x hx).dot) href
  exact hne (List.cons.inj heq).2.symm

/-- **Resolution.** After a discovery of plain names `getDANode` finds every data
attribute by what it shows, and finds nothing for a reference that names neither
an attribute nor a data object, exactly when the copies that it makes fit into
its buffers. -/
theorem getDANode_discovered {s s' : LinkState σ W} (hsrv : hasInit srvKeyInit srv = true)
    (hok : NamesOk svc con) (hnew : Undiscovered srv s.tree)
    (h : discover61850Server svc s [srv] con = .ok s') :
    (∀ k rs node, lookup s'.tree (srv :: k :: rs) = some node → IsAttributeNode node →
      ∃ ld ln n ns fc, ShowsAttribute s'.tree (srv :: k :: rs) (objectRef ld ln (n :: ns)) fc ∧
        ∀ q, getDANode s'.tree (srv :: q) (objectRef ld ln (n :: ns) ++ '[' :: (fc.code ++ [']'])) =
            .ok (some (srv :: k :: rs)) ↔
          CopiesFit s'.tree srv ld ln n fc ns) ∧
    ∀ ld ln n ns fc, PlainName ld → PlainName ln → PlainNames (n :: ns) →
      FunctionalConstraint.Known fc →
      (∀ k rs, ¬ ShowsAttribute s'.tree (srv :: k :: rs) (objectRef ld ln (n :: ns)) fc) →
      (ns = [] → ¬ Live s'.tree [srv, ldKey ld, ln, n]) →
      ∀ q, getDANode s'.tree (srv :: q) (objectRef ld ln (n :: ns) ++ '[' :: (fc.code ++ [']'])) =
          .ok none ↔
        CopiesFit s'.tree srv ld ln n fc ns := by
  have hshape := discover61850Server_shape hsrv hok hnew h
  refine ⟨?_, ?_⟩
  · intro k rs node hnode hattr
    obtain ⟨ld, ln, n, ns, fc, hld, hln, hplain, hne, hfc, hpath⟩ := hshape.attribute hnode hattr
    obtain ⟨hn, hns⟩ := plainNames_cons.1 hplain
    have hlive : Live s'.tree (daPath srv ld ln n fc ns) := by
      rw [← hpath]
      exact Option.isSome_iff_exists.2 ⟨node, hnode⟩
    refine ⟨ld, ln, n, ns, fc, hpath ▸ hshape.shows hn.notCreated hfc hns hne hlive, ?_⟩
    intro q
    refine (getDANode_eq_ok_iff hshape.referenceTree hsrv q hfc hld hln hn hns _).trans ?_
    rw [nodeAt, if_pos hlive, hpath]
    exact and_iff_left rfl
  · intro ld ln n ns fc hld hln hplain hfc hnone hnoObject q
    obtain ⟨hn, hns⟩ := plainNames_cons.1 hplain
    have hdead : ¬ Live s'.tree (daPath srv ld ln n fc ns) := by
      intro hlive
      by_cases hnil : ns = []
      · rw [hnil, daPath_nil] at hlive
        exact hnoObject hnil hlive
      · exact hnone _ _ (hshape.shows hn.notCreated hfc hns hnil hlive)
    refine (getDANode_eq_ok_iff hshape.referenceTree hsrv q hfc hld hln hn hns _).trans ?_
    rw [nodeAt, if_neg hdead]
    exact and_iff_left rfl

/-! ## A server with a data set -/

/-- A service with the control block and with the data set `D/N.ds`. -/
def membersService (members : List Str) : IedService Unit :=
  { blockServer.service fun _ => some ["N$ds".toList] with
    getDataSetDirectory := fun w _ ref =>
      (if ref = "D/N.ds".toList then some (members, false) else none, w) }

theorem serves_membersService (members : List Str) (con : ConnId) :
    Serves (membersService members) con blockServer blockServer.logicalDevices
      fun _ => some ["N$ds".toList] where
  lists := blockServer.lists_logicalDevices
  deviceList _ := rfl
  deviceDirectory _ _ := rfl
  variableLists_isSome _ _ := rfl
  nodeDirectory _ _ _ := rfl
  dataDirectoryFC _ _ := rfl
  dataDirectoryByFC _ _ _ := rfl
  specification _ _ _ _ _ hhas := ServerModel.specificationOf_eq hhas

/-- A link with one server node and nothing below it. -/
def emptyLink (srv : Str) : LinkState NodeStore Unit :=
  { tree := addChild NodeStore.empty [] srv .create, serverMap := [], connections := [],
    nextConn := 0, world := (), requests := [] }

theorem undiscovered_emptyLink (srv : Str) : Undiscovered srv (emptyLink srv).tree := by
  intro k rs n hn
  have hnone := lookup_addChild_below (t := NodeStore.empty) (p := []) (k := srv) (n := .create)
    (r := k :: rs) (by simp)
  cases hnone.symm.trans hn

/-- The discovery of the server. -/
def discoverMembers (members : List Str) : Except Fault (LinkState NodeStore Unit) :=
  discover61850Server (membersService members) (emptyLink "srv_A".toList) ["srv_A".toList] 0

/-- The path of its attribute `D/N.P.stVal[ST]`. -/
def stValPath : Path :=
  daPath "srv_A".toList "D".toList "N".toList "P".toList .ST ["stVal".toList]

/-- The path of its data set. -/
def membersPath : Path := ["srv_A".toList, datasetFolderNodeKey, "dts_D$N.ds".toList]

/-- A name of 100 letters. -/
def hundredLetters : Str := List.replicate 100 'a'

/-- The reference of a data object with this name; it has 108 characters. -/
def longReference : Str := objectRef "D".toList "N".toList [hundredLetters] ++ "[ST]".toList

/-- With a short member the server is discovered. The long reference names nothing on it, and
looking it up writes beyond the buffer for a key, in `getDANode` as in `addMemberToDatasetNode`;
when the server lists the long member, the discovery itself does. -/
theorem getDANode_longReference : ∃ s',
    NamesOk (membersService ["D/N.P.stVal[ST]".toList]) 0 ∧
    Undiscovered "srv_A".toList (emptyLink "srv_A".toList).tree ∧
    discover61850Server (membersService ["D/N.P.stVal[ST]".toList]) (emptyLink "srv_A".toList)
      ["srv_A".toList] 0 = .ok s' ∧
    (∀ k rs fc, ¬ ShowsAttribute s'.tree ("srv_A".toList :: k :: rs)
      (objectRef "D".toList "N".toList [hundredLetters]) fc) ∧
    ¬ Live s'.tree ["srv_A".toList, ldKey "D".toList, "N".toList, hundredLetters] ∧
    getDANode s'.tree membersPath longReference = .error .outOfBounds ∧
    addMemberToDatasetNode membersPath s'.tree longReference = .error .outOfBounds ∧
    discover61850Server (membersService [longReference]) (emptyLink "srv_A".toList)
      ["srv_A".toList] 0 = .error .outOfBounds := by
  have hnames := (serves_membersService ["D/N.P.stVal[ST]".toList] 0).namesOk
  have hname : PlainName hundredLetters := ⟨by decide +kernel, by decide +kernel, by decide +kernel,
    by decide +kernel, by decide +kernel⟩
  have hdead : (discoverMembers ["D/N.P.stVal[ST]".toList] >>= fun s => .ok (decide
      (Live s.tree ["srv_A".toList, ldKey "D".toList, "N".toList, hundredLetters]))) =
        .ok false := by
    decide +kernel
  have hfind : (discoverMembers ["D/N.P.stVal[ST]".toList] >>= fun s =>
      getDANode s.tree membersPath longReference) = .error .outOfBounds := by
    decide +kernel
  have hadd : (discoverMembers ["D/N.P.stVal[ST]".toList] >>= fun s =>
      (addMemberToDatasetNode membersPath s.tree longReference).map fun _ => ()) =
        .error .outOfBounds := by
    decide +kernel
  have hlong : (discoverMembers [longReference]).map (fun _ => ()) = .error .outOfBounds := by
    decide +kernel
  obtain ⟨s', hrun, hs'⟩ := bind_eq_ok.1 hdead
  rw [hrun, ok_bind] at hfind hadd
  have hshape := discover61850Server_shape (by decide) hnames (undiscovered_emptyLink _) hrun
  refine ⟨s', hnames, undiscovered_emptyLink _, hrun, ?_, of_decide_eq_false (Except.ok.inj hs'),
    hfind, map_eq_error.1 hadd, map_eq_error.1 hlong⟩
  intro k rs fc
  exact hshape.not_shows_object modelName_D.plain (show ModelName "N".toList by decide).plain hname
    fc k rs

/-- An attribute of the server is found. -/
theorem getDANode_discovered_short : ∃ s' node,
    discover61850Server (membersService ["D/N.P.stVal[ST]".toList]) (emptyLink "srv_A".toList)
      ["srv_A".toList] 0 = .ok s' ∧
    lookup s'.tree stValPath = some node ∧ IsAttributeNode node ∧
    ∃ ld ln n ns fc, ShowsAttribute s'.tree stValPath (objectRef ld ln (n :: ns)) fc ∧
      ∀ q, getDANode s'.tree ("srv_A".toList :: q)
          (objectRef ld ln (n :: ns) ++ '[' :: (fc.code ++ [']'])) = .ok (some stValPath) ↔
        CopiesFit s'.tree "srv_A".toList ld ln n fc ns := by
  have hnode : (discoverMembers ["D/N.P.stVal[ST]".toList] >>= fun s =>
      .ok ((lookup s.tree stValPath).map DSNode.onListOpen)) =
        .ok (some (some .daNodeListOpenedAction)) := by decide +kernel
  obtain ⟨s', hrun, hs'⟩ := bind_eq_ok.1 hnode
  obtain ⟨node, hlook, hopen⟩ := Option.map_eq_some_iff.1 (Except.ok.inj hs')
  have hnames := (serves_membersService ["D/N.P.stVal[ST]".toList] 0).namesOk
  exact ⟨s', node, hrun, hlook, hopen,
    (getDANode_discovered (by decide) hnames (undiscovered_emptyLink _) hrun).1
      _ _ node hlook hopen⟩

end DslinkIec61850
