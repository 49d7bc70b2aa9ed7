import DslinkIec61850.Client.Limits
import DslinkIec61850.DataSet.Resolution
import DslinkIec61850.Discovery.Failures

/-!
# The buffers of a discovery

Which of the texts that a discovery puts together fit into their `char` arrays when
the names of the server have at most 64 characters. The reference of a logical node
has room for 128 characters, one less than two names and a `/`.

* `discovery_texts_fit`: all texts fit as long as the references of logical nodes,
  data objects and data sets do.
* `discovery_texts_fit_iff`: and only then.
-/

namespace DslinkIec61850

open DSLink LinkState Run Strings LogicalDevices

variable {σ W : Type} [DSLink σ] {svc : IedService W} {con : ConnId} {devices : LogicalDevices}
  {variableLists : Str → List Str}

/-! ## What is answered -/

/-- The library answers out of the lists that it has read, or the call fails. The
members of data sets have names of MMS; what is read is arbitrary. -/
structure AnswersFrom (svc : IedService W) (con : ConnId) (devices : LogicalDevices)
    (variableLists : Str → List Str) : Prop where
  deviceList : ∀ w l, (svc.getLogicalDeviceList w con).1 = some l → l = devices.map Prod.fst
  deviceDirectory : ∀ w ld l, (svc.getLogicalDeviceDirectory w con ld).1 = some l →
    LogicalDevices.getLogicalDeviceDirectory devices ld = some l
  nodeDirectory : ∀ w ref acsiClass l,
    (svc.getLogicalNodeDirectory w con ref acsiClass).1 = some l →
    LogicalDevices.getLogicalNodeDirectory devices
      (fun ld => some (variableLists ld)) ref acsiClass = some l
  dataDirectoryFC : ∀ w ref l, (svc.getDataDirectoryFC w con ref).1 = some l →
    LogicalDevices.getDataDirectoryFC devices ref = some l
  dataDirectoryByFC : ∀ w ref fc l, (svc.getDataDirectoryByFC w con ref fc).1 = some l →
    LogicalDevices.getDataDirectoryByFC devices ref fc = some l
  dataSetDirectory : ∀ w ref reply, (svc.getDataSetDirectory w con ref).1 = some reply →
    ∀ x ∈ reply.1, ∃ domainId itemId, MmsName domainId ∧ MmsName itemId ∧
      varAccessSpecToObjectReference domainId itemId = some x

/-- The references of the logical nodes, of their data objects and of their data
sets fit into 129 bytes. -/
def ReferencesFit (devices : LogicalDevices) (variableLists : Str → List Str) : Prop :=
  ∀ ld vars, variablesOf devices ld = some vars → ∀ ln ∈ vars, '$' ∉ ln →
    ld.length + ln.length < 128 ∧
    (∀ n ∈ dataObjects vars ln, ld.length + ln.length + n.length < 127) ∧
    ∀ n ∈ dataSetsOf ln (variableLists ld), ld.length + ln.length + n.length < 127

/-! ## The walk -/

theorem NameLimits.length_entryRef_le (h : NameLimits devices variableLists) {ref e : Str}
    {fc : Option Str} {l : List Str} (hl : getDataDirectory devices ref fc = some l) (he : e ∈ l) :
    (ref ++ '.' :: (cut '[' e).1).length ≤ 128 :=
  LogicalDevices.length_entryRef_le (fun e he => (h.domain e he).1)
    (fun e he v hv => (h.item e he v hv).1) hl he

theorem AnswersFrom.entry_fits (h : AnswersFrom svc con devices variableLists)
    (hlimits : NameLimits devices variableLists)
    {w : W} {doRef e : Str} {inFC : FunctionalConstraint} {l : List Str}
    (hl : (dataDirectory svc con doRef inFC w).1 = some l) (he : e ∈ l) :
    FitsIn (some 129) (entryRef doRef e) := by
  have hle : (entryRef doRef e).length ≤ 128 := by
    unfold dataDirectory at hl
    split_ifs at hl
    · exact hlimits.length_entryRef_le (h.dataDirectoryFC _ _ _ hl) he
    · have hanswer := h.dataDirectoryByFC _ _ _ _ hl
      unfold LogicalDevices.getDataDirectoryByFC at hanswer
      split at hanswer
      · cases hanswer
      · exact hlimits.length_entryRef_le hanswer he
  intro n hn
  cases hn
  omega

/-- The entry of a status makes the reference of the status. -/
theorem entryRef_stVal {e : Str} (h : e.take 6 = "stVal[".toList) (doRef : Str) :
    entryRef doRef e = doRef ++ ".stVal".toList := by
  have hsplit : e = "stVal".toList ++ '[' :: e.drop 6 := by
    conv_lhs => rw [← List.take_append_drop 6 e, h]
    rfl
  rw [entryRef, entryName, hsplit, cut_append (by decide)]
  rfl

theorem inBounds_handleControllableNode (h : AnswersFrom svc con devices variableLists)
    (hlimits : NameLimits devices variableLists) (s : LinkState σ W) (node : Path) (doRef : Str) :
    InBounds (handleControllableNode svc con (some 129) s node doRef) := by
  unfold handleControllableNode
  dsimp only
  split
  · exact failsOnly_pure _
  · rename_i entry hentry
    obtain ⟨l, hl, hfind⟩ := Option.bind_eq_some_iff.1 hentry
    have hread : (dataDirectory svc con doRef .NONE s.world).1 = some l := by
      rw [dataDirectory, if_pos rfl]
      exact hl
    have hfits := h.entry_fits hlimits hread (List.mem_of_find?_eq_some hfind)
    rw [entryRef_stVal (by simpa using List.find?_some hfind)] at hfits
    refine inBounds_storeIn_bind hfits ?_
    split_ifs
    · exact failsOnly_pure _
    · refine failsOnly_bind.2 ⟨inBounds_deref _, fun type _ => ?_⟩
      split_ifs <;> exact failsOnly_pure _

theorem inBounds_discoverEntry (h : AnswersFrom svc con devices variableLists)
    (hlimits : NameLimits devices variableLists)
    (node : Path) {doRef e : Str} (hfits : FitsIn (some 129) (entryRef doRef e))
    (s : LinkState σ W) :
    InBounds (discoverEntry svc con (some 129) node doRef s e) := by
  have hoper (s : LinkState σ W) : InBounds
      (if entryName e = "Oper".toList then handleControllableNode svc con (some 129) s node doRef
        else pure s) := by
    split_ifs
    · exact inBounds_handleControllableNode h hlimits _ _ _
    · exact failsOnly_pure _
  unfold discoverEntry
  refine inBounds_storeIn_bind hfits ?_
  dsimp only
  by_cases hnone : entryFC e = .NONE
  · rw [if_pos hnone, pure_bind]
    exact hoper _
  · rw [if_neg hnone]
    exact failsOnly_bind.2 ⟨inBounds_deref _, fun _ _ => hoper _⟩

theorem inBounds_discoverLeaf (s : LinkState σ W) (node : Path) :
    InBounds (discoverLeaf svc con s node) := by
  unfold discoverLeaf
  split
  · exact failsOnly_ok _
  · refine failsOnly_bind.2 ⟨inBounds_deref _, fun code _ => ?_⟩
    dsimp only
    split_ifs
    · exact failsOnly_pure _
    · refine failsOnly_bind.2 ⟨inBounds_deref _, fun ref _ => ?_⟩
      split <;> exact failsOnly_pure _

/-- **The walk.** By induction on the depth. -/
theorem inBounds_discoverDataDirectory (h : AnswersFrom svc con devices variableLists)
    (hlimits : NameLimits devices variableLists) (depth : ℕ) :
    ∀ (s : LinkState σ W) (node : Path) (doRef : Str)
      (inFC : FunctionalConstraint),
      InBounds (discoverDataDirectory svc con (some 129) depth s node doRef inFC) := by
  induction depth with
  | zero =>
    intro _ _ _ _
    exact failsOnly_error.2 (by decide)
  | succ depth ih =>
    intro s node doRef inFC
    unfold discoverDataDirectory
    dsimp only
    split
    · exact failsOnly_pure _
    · exact inBounds_discoverLeaf _ _
    · rename_i entries _ hentries
      refine inBounds_foldlM fun s e he => ?_
      refine failsOnly_bind.2 ⟨?_, fun s₁ _ => ih _ _ _ _⟩
      exact inBounds_discoverEntry h hlimits node (h.entry_fits hlimits hentries he) s

/-! ## Data sets -/

theorem inBounds_scanNames (t : σ) (fcStr : Str) {names : List Str}
    (h : ∀ n ∈ names, n.length + fcStr.length < 100) :
    ∀ scanNode, InBounds (scanNames t fcStr scanNode names) := by
  induction names with
  | nil => exact fun _ => failsOnly_ok _
  | cons name names ih =>
    intro scanNode
    have hname := h name List.mem_cons_self
    refine failsOnly_bind.2 ⟨?_, fun found _ => ?_⟩
    · unfold scanName
      refine inBounds_storeIn_bind ?_ ?_
      · intro n hn
        cases hn
        omega
      · split
        · exact failsOnly_pure _
        · refine inBounds_storeIn_bind ?_ (failsOnly_pure _)
          intro n hn
          cases hn
          rw [List.length_append]
          exact hname
    · cases found with
      | none => exact failsOnly_pure _
      | some newScanNode => exact ih (fun n hn => h n (List.mem_cons_of_mem _ hn)) newScanNode

/-- The copies of a member that `getDANode` makes. -/
theorem MemberText.inBounds_getDANode {x domain ln names fcStr : Str}
    (h : MemberText x domain ln names fcStr)
    (t : σ) (node : Path) : InBounds (getDANode t node x) := by
  have hbracket : '[' ∉ domain ++ '/' :: (ln ++ '.' :: names) := by
    simp only [List.mem_append, List.mem_cons, not_or]
    exact ⟨h.domain_free.2, by decide, h.ln_free.2, by decide, h.names_free⟩
  have hwhole := h.length_le
  have hdomain := h.domain_le
  have hln := h.ln_le
  have hfc := h.fcStr_le
  unfold getDANode
  refine inBounds_storeIn_bind ?_ ?_
  · intro n hn
    cases hn
    omega
  · rw [h.eq, cut_append hbracket]
    dsimp only
    split
    · exact failsOnly_pure _
    · unfold scanServer
      rw [cut_append h.domain_free.1]
      dsimp only
      refine inBounds_storeIn_bind ?_ ?_
      · intro n hn
        cases hn
        rw [List.length_append]
        have : ldnKeyInit.length = 4 := rfl
        omega
      · split
        · exact failsOnly_pure _
        · rw [cut_append h.ln_free.1]
          dsimp only
          split
          · exact failsOnly_pure _
          · refine inBounds_scanNames t _ ?_ _
            intro n hn
            have := length_le_of_mem_split hn
            rw [List.length_take, List.length_cons]
            omega

theorem inBounds_addMember (newDSNode : Path) (t : σ) {x domain ln names fcStr : Str}
    (h : MemberText x domain ln names fcStr) : InBounds (addMemberToDatasetNode newDSNode t x) := by
  unfold addMemberToDatasetNode
  refine inBounds_storeIn_bind ?_ (failsOnly_bind.2 ⟨?_, fun key _ => ?_⟩)
  · have := h.length_le
    intro n hn
    cases hn
    omega
  · unfold replaceSlash
    split
    · exact failsOnly_error.2 (by decide)
    · exact failsOnly_ok _
  · refine failsOnly_bind.2 ⟨h.inBounds_getDANode _ _, fun found _ => ?_⟩
    cases found <;> exact failsOnly_pure _

theorem inBounds_discoverDataSet (h : AnswersFrom svc con devices variableLists) (node : Path)
    {lnRef name : Str} (hfits : FitsIn (some 129) (lnRef ++ '.' :: name)) (s : LinkState σ W) :
    InBounds (discoverDataSet svc con node lnRef s name) := by
  unfold discoverDataSet
  refine inBounds_storeIn_bind hfits (failsOnly_bind.2 ⟨?_, fun _ _ => failsOnly_pure _⟩)
  unfold getDatasetInfoFromServerCreateNode
  dsimp only
  split
  · exact failsOnly_pure _
  · rename_i members isDeletable hreply
    refine failsOnly_bind.2 ⟨?_, fun created _ => ?_⟩
    · unfold createDatasetNode
      refine inBounds_storeIn_bind ?_ ?_
      · intro n hn
        cases hn
        have := hfits 129 rfl
        have : dtsKeyInit.length = 4 := rfl
        rw [List.length_append]
        omega
      · split <;> exact failsOnly_pure _
    · obtain ⟨newDSNode, tree⟩ := created
      cases newDSNode with
      | none => exact failsOnly_pure _
      | some newDSNode =>
        refine failsOnly_bind.2 ⟨?_, fun _ _ => failsOnly_pure _⟩
        refine inBounds_foldlM fun t x hx => ?_
        obtain ⟨domainId, itemId, hdomain, hitem, hx⟩ := h.dataSetDirectory _ _ _ hreply x hx
        obtain ⟨ln, names, fcStr, htext⟩ := memberText_of_spec hdomain hitem hx
        exact inBounds_addMember _ _ htext

/-! ## The texts of a discovery -/

/-- The references of report control blocks and their keys fit. -/
def ReportsFit (isBuffered : Bool) (lnRef : Str) (names : Option (List Str)) : Prop :=
  ∀ l, names = some l → ∀ n ∈ l, FitsIn (some 200) (rcbRefOf isBuffered lnRef n) ∧
    FitsIn (some 200) (rcbNodeKeyText isBuffered (rcbRefOf isBuffered lnRef n))

/-- The texts made for a logical node fit: its reference, those of its data objects
and what is below, those of its data sets with their keys and members, and those of
its report control blocks. -/
def NodeTextsFit (svc : IedService W) (con : ConnId) (node : Path) (ld : Str) (s : LinkState σ W)
    (ln : Str) : Prop :=
  let lnRef := ld ++ '/' :: ln
  let lnNode := node ++ [ldKey ld] ++ [ln]
  let s₀ := { s with tree := createLNNode s.tree (node ++ [ldKey ld]) lnRef ln }
  FitsIn (some 129) lnRef ∧
  InBounds (forEach (discoverDataObject svc con lnNode lnRef)
    (nodeDirectory svc con lnRef s₀ .dataObject)) ∧
  ∀ s₁, forEach (discoverDataObject svc con lnNode lnRef)
      (nodeDirectory svc con lnRef s₀ .dataObject) = .ok s₁ →
    InBounds (forEach (discoverDataSet svc con lnNode lnRef)
      (nodeDirectory svc con lnRef s₁ .dataSet)) ∧
    ∀ s₂, forEach (discoverDataSet svc con lnNode lnRef) (nodeDirectory svc con lnRef s₁ .dataSet) =
        .ok s₂ →
      ReportsFit false lnRef (nodeDirectory svc con lnRef s₂ .urcb).1 ∧
      ∀ s₃, forEach (discoverReport svc con node false lnRef)
          (nodeDirectory svc con lnRef s₂ .urcb) = .ok s₃ →
        ReportsFit true lnRef (nodeDirectory svc con lnRef s₃ .brcb).1

/-- The texts made for a logical device fit. -/
def DeviceTextsFit (svc : IedService W) (con : ConnId) (node : Path) (s : LinkState σ W)
    (ld : Str) : Prop :=
  FitsIn (some 129) (ldKey ld) ∧
  let reply := { s with tree := addChild s.tree node (ldKey ld) (folderNode ld) }.call fun w =>
    svc.getLogicalDeviceDirectory w con ld
  ∀ nodes, reply.1 = some nodes →
    Along (discoverLogicalNode svc con node ld) (NodeTextsFit svc con node ld) reply.2 nodes

/-- All texts that a discovery makes fit, as far as it gets. -/
def DiscoveryTextsFit (svc : IedService W) (s : LinkState σ W) (node : Path)
    (con : ConnId) : Prop :=
  let reply := { s with tree := createDatasetReportNodes s.tree node }.call fun w =>
    svc.getLogicalDeviceList w con
  ∀ lds, reply.1 = some lds →
    Along (discoverLogicalDevice svc con node) (DeviceTextsFit svc con node) reply.2 lds

theorem length_append_slash (ld ln : Str) :
    (ld ++ '/' :: ln).length = ld.length + ln.length + 1 := by
  rw [List.length_append, List.length_cons]
  omega

theorem length_append_dot (lnRef name : Str) :
    (lnRef ++ '.' :: name).length = lnRef.length + name.length + 1 := by
  rw [List.length_append, List.length_cons]
  omega

/-- The directory of a node whose reference is short enough. -/
theorem getLogicalNodeDirectory_eq {ld ln : Str} (hld : '/' ∉ ld)
    (hshort : (ld ++ '/' :: ln).length < 129) (acsiClass : AcsiClass) :
    LogicalDevices.getLogicalNodeDirectory devices (fun ld => some (variableLists ld))
      (ld ++ '/' :: ln) acsiClass =
      match acsiClass with
      | .dataSet => some (dataSetsOf ln (variableLists ld))
      | .dataObject => (variablesOf devices ld).map fun vars => dataObjects vars ln
      | .urcb => (variablesOf devices ld).map (variablesWithFc ['R', 'P'] ln)
      | .brcb => (variablesOf devices ld).map (variablesWithFc ['B', 'R'] ln) := by
  rw [LogicalDevices.getLogicalNodeDirectory, if_neg (by omega), cut_append hld]
  cases acsiClass <;> rfl

omit [DSLink σ] in
theorem inBounds_forEach {f : LinkState σ W → Str → Except Fault (LinkState σ W)}
    {reply : Option (List Str) × LinkState σ W}
    (h : ∀ l, reply.1 = some l → ∀ s, ∀ n ∈ l, InBounds (f s n)) : InBounds (forEach f reply) := by
  unfold forEach
  refine failsOnly_bind.2 ⟨inBounds_deref _, fun l hl => ?_⟩
  rw [deref_eq_ok] at hl
  exact inBounds_foldlM (h l hl)

/-- The references of report control blocks: four characters go with the names. -/
theorem reportsFit_of_lengths {isBuffered : Bool} {lnRef : Str} {names : Option (List Str)}
    (hlnRef : lnRef.length < 129) (h : ∀ l, names = some l → ∀ n ∈ l, n.length ≤ 62) :
    ReportsFit isBuffered lnRef names := by
  intro l hl n hn
  have hname := h l hl n hn
  have href : (rcbRefOf isBuffered lnRef n).length = lnRef.length + 4 + n.length := by
    cases isBuffered <;> simp [rcbRefOf] <;> omega
  have hkey : (rcbNodeKeyText isBuffered (rcbRefOf isBuffered lnRef n)).length =
      4 + (rcbRefOf isBuffered lnRef n).length := by
    cases isBuffered <;> simp [rcbNodeKeyText, brcbNodeKeyInit, urcbNodeKeyInit] <;> omega
  rw [fitsIn_some, fitsIn_some]
  constructor <;> omega

theorem AnswersFrom.report_le (h : AnswersFrom svc con devices variableLists)
    (hlimits : NameLimits devices variableLists) {ld ln : Str} (hld : '/' ∉ ld)
    (hshort : (ld ++ '/' :: ln).length < 129) {acsiClass : AcsiClass}
    (hclass : acsiClass = .urcb ∨ acsiClass = .brcb) {w : W} {l : List Str}
    (hl : (svc.getLogicalNodeDirectory w con (ld ++ '/' :: ln) acsiClass).1 = some l) :
    ∀ n ∈ l, n.length ≤ 62 := by
  intro n hn
  have hanswer := h.nodeDirectory _ _ _ _ hl
  rw [getLogicalNodeDirectory_eq hld hshort] at hanswer
  have hvariables : ∃ vars fc, variablesOf devices ld = some vars ∧
      n ∈ variablesWithFc fc ln vars := by
    rcases hclass with rfl | rfl
    all_goals
      obtain ⟨vars, hvars, rfl⟩ := Option.map_eq_some_iff.1 hanswer
      exact ⟨vars, _, hvars, hn⟩
  obtain ⟨vars, fc, hvars, hn⟩ := hvariables
  obtain ⟨v, hv, hname⟩ := Keyed.mem_collect.1 hn
  have := (hlimits.item _ (mem_of_variablesOf hvars) v hv).1
  have := length_nameBelow hname
  omega

/-- **Buffers.** All texts fit as long as the references of logical nodes, data
objects and data sets do. -/
theorem discovery_texts_fit (hlimits : NameLimits devices variableLists)
    (hfit : ReferencesFit devices variableLists) (h : AnswersFrom svc con devices variableLists)
    (s : LinkState σ W) (node : Path) : DiscoveryTextsFit svc s node con := by
  intro lds hlds
  obtain rfl := h.deviceList _ _ hlds
  apply along_of_forall
  intro s ld hld
  obtain ⟨e, he, rfl⟩ := List.mem_map.1 hld
  have hdomain := hlimits.domain e he
  have hslash : '/' ∉ e.1 := hdomain.not_mem (by decide) (by decide) (by decide)
  refine ⟨?_, ?_⟩
  · have := hdomain.1
    have : ldnKeyInit.length = 4 := rfl
    rw [fitsIn_some, ldKey, List.length_append]
    omega
  · intro reply nodes hnodes
    apply along_of_forall
    intro s ln hln
    have hdirectory := h.deviceDirectory _ _ _ hnodes
    unfold LogicalDevices.getLogicalDeviceDirectory at hdirectory
    obtain ⟨vars, hvars, rfl⟩ := Option.map_eq_some_iff.1 hdirectory
    obtain ⟨hmem, hdollar⟩ := List.mem_filter.1 hln
    obtain ⟨hnode, hobjects, hdataSets⟩ := hfit e.1 vars hvars ln hmem (by simpa using hdollar)
    have hlnRef := length_append_slash e.1 ln
    have hshort : (e.1 ++ '/' :: ln).length < 129 := by omega
    unfold NodeTextsFit
    intro lnRef lnNode s₀
    have hname (n : Str) (hn : e.1.length + ln.length + n.length < 127) :
        FitsIn (some 129) (lnRef ++ '.' :: n) := by
      rw [fitsIn_some, length_append_dot]
      show (e.1 ++ '/' :: ln).length + n.length + 1 < 129
      omega
    refine ⟨fitsIn_some.2 hshort, inBounds_forEach ?_, fun s₁ _ => ⟨inBounds_forEach ?_, fun s₂ _ =>
      ⟨reportsFit_of_lengths hshort fun l hl => ?_, fun s₃ _ =>
        reportsFit_of_lengths hshort fun l hl => ?_⟩⟩⟩
    · intro l hl s n hn
      have hanswer := h.nodeDirectory _ _ _ _ hl
      rw [getLogicalNodeDirectory_eq hslash hshort] at hanswer
      simp only [hvars, Option.map_some, Option.some.injEq] at hanswer
      unfold discoverDataObject
      refine inBounds_storeIn_bind (hname n (hobjects n (hanswer ▸ hn))) ?_
      exact inBounds_discoverDataDirectory h hlimits _ _ _ _ _
    · intro l hl s n hn
      have hanswer := h.nodeDirectory _ _ _ _ hl
      rw [getLogicalNodeDirectory_eq hslash hshort] at hanswer
      simp only [Option.some.injEq] at hanswer
      exact inBounds_discoverDataSet h _ (hname n (hdataSets n (hanswer ▸ hn))) s
    · exact h.report_le hlimits hslash hshort (.inl rfl) hl
    · exact h.report_le hlimits hslash hshort (.inr rfl) hl

/-! ## A server whose data is not read -/

/-- The directories of devices and nodes are delivered, all other calls fail. -/
def listingService (W : Type) (devices : LogicalDevices) (variableLists : Str → List Str) :
    IedService W :=
  { IedService.silent W with
    getLogicalDeviceList := fun w _ => (some (devices.map Prod.fst), w)
    getLogicalDeviceDirectory :=
      fun w _ ld => (LogicalDevices.getLogicalDeviceDirectory devices ld, w)
    getLogicalNodeDirectory := fun w _ ref acsiClass =>
      (LogicalDevices.getLogicalNodeDirectory devices
        (fun ld => some (variableLists ld)) ref acsiClass, w) }

theorem answersFrom_listingService (con : ConnId) :
    AnswersFrom (listingService W devices variableLists) con devices variableLists where
  deviceList _ _ h := (Option.some.inj h).symm
  deviceDirectory _ _ _ h := h
  nodeDirectory _ _ _ _ h := h
  dataDirectoryFC _ _ _ h := by cases h
  dataDirectoryByFC _ _ _ _ h := by cases h
  dataSetDirectory _ _ _ h := by cases h

omit [DSLink σ] in
/-- A loop whose rounds only store a text. -/
theorem foldlM_storeIn {size : Option ℕ} {text : Str → Str}
    {f : LinkState σ W → Str → Except Fault (LinkState σ W)}
    (hf : ∀ s n, ∃ s₁, f s n = (storeIn size (text n) >>= fun _ => .ok s₁)) {l : List Str}
    {s : LinkState σ W} (h : InBounds (l.foldlM f s)) :
    (∀ n ∈ l, FitsIn size (text n)) ∧ ∃ s', l.foldlM f s = .ok s' := by
  induction l generalizing s with
  | nil => exact ⟨fun n hn => absurd hn List.not_mem_nil, s, rfl⟩
  | cons n l ih =>
    obtain ⟨s₁, hs₁⟩ := hf s n
    obtain ⟨hstep, hrest⟩ := failsOnly_bind.1 (List.foldlM_cons (f := f) ▸ h)
    rw [hs₁] at hstep
    have hfits := inBounds_storeIn.1 (failsOnly_bind.1 hstep).1
    have hok : f s n = .ok s₁ := by
      rw [hs₁, (storeIn_eq_ok (u := ())).2 hfits, ok_bind]
    obtain ⟨hall, s', hs'⟩ := ih (hrest s₁ hok)
    exact ⟨List.forall_mem_cons.2 ⟨hfits, hall⟩, s', foldlM_cons_eq_ok.2 ⟨s₁, hok, hs'⟩⟩

section Listing

variable {node lnNode : Path} {ld ln lnRef : Str}

theorem listing_dataObject (s : LinkState σ W) (n : Str) :
    ∃ s₁, discoverDataObject (listingService W devices variableLists) con lnNode lnRef s n =
      (storeIn (some 129) (lnRef ++ '.' :: n) >>= fun _ => .ok s₁) := ⟨_, rfl⟩

theorem listing_dataSet (s : LinkState σ W) (n : Str) :
    ∃ s₁, discoverDataSet (listingService W devices variableLists) con lnNode lnRef s n =
      (storeIn (some 129) (lnRef ++ '.' :: n) >>= fun _ => .ok s₁) := ⟨_, rfl⟩

theorem listing_report {isBuffered : Bool} {s : LinkState σ W} {n : Str}
    (href : FitsIn (some 200) (rcbRefOf isBuffered lnRef n))
    (hkey : FitsIn (some 200) (rcbNodeKeyText isBuffered (rcbRefOf isBuffered lnRef n))) :
    ∃ s₁, discoverReport (listingService W devices variableLists) con node isBuffered lnRef s n =
      .ok s₁ := by
  unfold discoverReport getRCBInfoAndCreateNode
  dsimp only
  rw [(storeIn_eq_ok (u := ())).2 href, ok_bind, (storeIn_eq_ok (u := ())).2 hkey, ok_bind]
  refine ⟨s, ?_⟩
  cases folderOf s.tree node (rcbFolderKey isBuffered) <;> rfl

theorem listing_reports {isBuffered : Bool} {s : LinkState σ W} {l : List Str}
    (h : ReportsFit isBuffered lnRef (some l)) :
    ∃ s₁, l.foldlM (discoverReport (listingService W devices variableLists) con node isBuffered
      lnRef) s = .ok s₁ := by
  have hround (s : LinkState σ W) (n : Str) (hn : n ∈ l) :
      ∃ s₁, discoverReport (listingService W devices variableLists) con node isBuffered lnRef s n =
        .ok s₁ :=
    listing_report (h l rfl n hn).1 (h l rfl n hn).2
  exact (along_total (Q := fun _ _ => True) (fun s n hn _ => hround s n hn)
    (along_of_forall fun _ _ _ => trivial)).2

/-- A logical node whose texts fit. -/
theorem listing_logicalNode {vars : List Str} (hld : '/' ∉ ld)
    (hvars : variablesOf devices ld = some vars) {s : LinkState σ W}
    (h : NodeTextsFit (listingService W devices variableLists) con node ld s ln) :
    (ld.length + ln.length < 128 ∧
      (∀ n ∈ dataObjects vars ln, ld.length + ln.length + n.length < 127) ∧
      ∀ n ∈ dataSetsOf ln (variableLists ld), ld.length + ln.length + n.length < 127) ∧
    ∃ s', discoverLogicalNode (listingService W devices variableLists) con node ld s ln =
      .ok s' := by
  unfold NodeTextsFit at h
  obtain ⟨hlnRef, hobjects, hrest⟩ := h
  have hshort := fitsIn_some.1 hlnRef
  have hdirectory (s : LinkState σ W) (acsiClass : AcsiClass) :
      nodeDirectory (listingService W devices variableLists) con (ld ++ '/' :: ln) s acsiClass =
        ((match acsiClass with
          | .dataSet => some (dataSetsOf ln (variableLists ld))
          | .dataObject => some (dataObjects vars ln)
          | .urcb => some (variablesWithFc ['R', 'P'] ln vars)
          | .brcb => some (variablesWithFc ['B', 'R'] ln vars)), s) := by
    show (LogicalDevices.getLogicalNodeDirectory devices _ _ _, _) = _
    rw [getLogicalNodeDirectory_eq hld hshort acsiClass, hvars]
    cases acsiClass <;> rfl
  have hname {n : Str} (hfits : FitsIn (some 129) (ld ++ '/' :: ln ++ '.' :: n)) :
      ld.length + ln.length + n.length < 127 := by
    have hlen := fitsIn_some.1 hfits
    rw [length_append_dot, length_append_slash] at hlen
    omega
  simp only [hdirectory] at hobjects hrest
  obtain ⟨hobjectsFit, s₁, hs₁⟩ := foldlM_storeIn listing_dataObject hobjects
  obtain ⟨hdataSets, hrest⟩ := hrest s₁ hs₁
  obtain ⟨hdataSetsFit, s₂, hs₂⟩ := foldlM_storeIn listing_dataSet hdataSets
  obtain ⟨hurcb, hrest⟩ := hrest s₂ hs₂
  have hreports {isBuffered : Bool} {l : List Str}
      (hfit : ReportsFit isBuffered (ld ++ '/' :: ln) (some l)) (s : LinkState σ W) :
        ∃ s', l.foldlM (discoverReport (listingService W devices variableLists) con node
        isBuffered (ld ++ '/' :: ln)) s = .ok s' := listing_reports hfit
  obtain ⟨s₃, hs₃⟩ := hreports hurcb s₂
  obtain ⟨s₄, hs₄⟩ := hreports (hrest s₃ hs₃) s₃
  -- a directory is delivered without a change of the state
  have hloop {f : LinkState σ W → Str → Except Fault (LinkState σ W)} {s s' : LinkState σ W}
      (acsiClass : AcsiClass)
      (hrun : forEach f ((match acsiClass with
          | .dataSet => some (dataSetsOf ln (variableLists ld))
          | .dataObject => some (dataObjects vars ln)
          | .urcb => some (variablesWithFc ['R', 'P'] ln vars)
          | .brcb => some (variablesWithFc ['B', 'R'] ln vars)), s) = .ok s') :
      forEach f (nodeDirectory (listingService W devices variableLists) con
        (ld ++ '/' :: ln) s acsiClass) = .ok s' := by
    rw [hdirectory]
    exact hrun
  refine ⟨⟨?_, fun n hn => hname (hobjectsFit n hn), fun n hn => hname (hdataSetsFit n hn)⟩, s₄, ?_⟩
  · rw [length_append_slash] at hshort
    omega
  · unfold discoverLogicalNode
    refine bind_eq_ok.2 ⟨(), storeIn_eq_ok.2 hlnRef, bind_eq_ok.2 ⟨s₁, hloop .dataObject hs₁, ?_⟩⟩
    exact bind_eq_ok.2 ⟨s₂, hloop .dataSet hs₂, bind_eq_ok.2 ⟨s₃, hloop .urcb hs₃, hloop .brcb hs₄⟩⟩

/-- A logical device whose texts fit. -/
theorem listing_logicalDevice (hlimits : NameLimits devices variableLists) {vars : List Str}
    (hvars : variablesOf devices ld = some vars) {s : LinkState σ W}
    (h : DeviceTextsFit (listingService W devices variableLists) con node s ld) :
    (∀ ln ∈ vars, '$' ∉ ln → ld.length + ln.length < 128 ∧
      (∀ n ∈ dataObjects vars ln, ld.length + ln.length + n.length < 127) ∧
      ∀ n ∈ dataSetsOf ln (variableLists ld), ld.length + ln.length + n.length < 127) ∧
    ∃ s', discoverLogicalDevice (listingService W devices variableLists) con node s ld =
      .ok s' := by
  obtain ⟨hkey, hnodes⟩ := h
  have hslash : '/' ∉ ld :=
    (hlimits.domain _ (mem_of_variablesOf hvars)).not_mem (by decide) (by decide) (by decide)
  have hdirectory : LogicalDevices.getLogicalDeviceDirectory devices ld =
      some (vars.filter fun v => '$' ∉ v) := by
    rw [LogicalDevices.getLogicalDeviceDirectory, hvars]
    rfl
  obtain ⟨hall, s', hs'⟩ := along_total (fun s ln _ hln => (listing_logicalNode hslash hvars hln).2)
    (hnodes _ hdirectory)
  refine ⟨fun ln hln hdollar => ?_, s', ?_⟩
  · obtain ⟨s₁, hs₁⟩ := hall ln (List.mem_filter.2 ⟨hln, by simpa using hdollar⟩)
    exact (listing_logicalNode hslash hvars hs₁).1
  · unfold discoverLogicalDevice createLDNode
    refine bind_eq_ok.2 ⟨_, bind_eq_ok.2 ⟨(), storeIn_eq_ok.2 hkey, rfl⟩, ?_⟩
    exact bind_eq_ok.2 ⟨_, deref_eq_ok.2 hdirectory, hs'⟩

end Listing

/-- **Buffers.** For a server whose names are within the limits, all texts of every
discovery fit exactly when the references of logical nodes, data objects and data
sets do. -/
theorem discovery_texts_fit_iff (hlimits : NameLimits devices variableLists) (s : LinkState σ W)
    (node : Path) (con : ConnId) :
    (∀ svc : IedService W, AnswersFrom svc con devices variableLists →
      DiscoveryTextsFit svc s node con) ↔ ReferencesFit devices variableLists := by
  constructor
  · intro hall ld vars hvars ln hln hdollar
    have hfits := hall (listingService W devices variableLists)
      (answersFrom_listingService con) _ rfl
    have hdevice (ld : Str) (hld : ld ∈ devices.map Prod.fst) :
        ∃ vars, variablesOf devices ld = some vars := by
      obtain ⟨e, he⟩ := Option.isSome_iff_exists.1 (Keyed.find_isSome.2 hld)
      exact ⟨e.2, by rw [variablesOf, he]; rfl⟩
    obtain ⟨hdevices, -⟩ := along_total (fun s ld hld h => by
      obtain ⟨vars, hvars⟩ := hdevice ld hld
      exact (listing_logicalDevice hlimits hvars h).2) hfits
    obtain ⟨s₁, hs₁⟩ := hdevices ld (List.mem_map.2 ⟨_, mem_of_variablesOf hvars, rfl⟩)
    exact (listing_logicalDevice hlimits hvars hs₁).1 ln hln hdollar
  · intro hfit svc h
    exact discovery_texts_fit hlimits hfit h s node

/-! ## Two names of 64 characters -/

/-- A device with one logical node, both with names of 64 letters. -/
def longNames : LogicalDevices := [(List.replicate 64 'D', [List.replicate 64 'N'])]

theorem nameLimits_longNames : NameLimits longNames fun _ => [] where
  domain := by
    intro e he
    rw [List.mem_singleton.1 he]
    refine ⟨by decide, fun c hc => ?_⟩
    rw [List.eq_of_mem_replicate hc]
    exact .inl (by decide)
  item := by
    intro e he v hv
    rw [List.mem_singleton.1 he] at hv
    rw [List.mem_singleton.1 hv]
    refine ⟨by decide, fun c hc => ?_⟩
    rw [List.eq_of_mem_replicate hc]
    exact .inl (by decide)
  variableList := by simp

theorem discovery_texts_fit_iff_longNames :
    (∀ svc : IedService Unit, AnswersFrom svc 0 longNames (fun _ => []) →
      DiscoveryTextsFit svc (emptyLink "srv_A".toList) ["srv_A".toList] 0) ↔
      ReferencesFit longNames fun _ => [] :=
  discovery_texts_fit_iff nameLimits_longNames (emptyLink "srv_A".toList) ["srv_A".toList] 0

/-- The reference of the logical node has 129 characters. -/
theorem longNames_overflow :
    NameLimits longNames (fun _ => []) ∧
    AnswersFrom (listingService Unit longNames fun _ => []) 0 longNames (fun _ => []) ∧
    discover61850Server (listingService Unit longNames fun _ => []) (emptyLink "srv_A".toList)
    ["srv_A".toList] 0 =
      .error .outOfBounds ∧
    ¬ DiscoveryTextsFit (listingService Unit longNames fun _ => []) (emptyLink "srv_A".toList)
      ["srv_A".toList] 0 := by
  have hfault : (match discover61850Server (listingService Unit longNames fun _ => [])
      (emptyLink "srv_A".toList) ["srv_A".toList] 0 with
    | .error e => some e
    | .ok _ => none) = some .outOfBounds := by decide +kernel
  refine ⟨nameLimits_longNames, answersFrom_listingService 0, ?_, ?_⟩
  · cases hrun : discover61850Server (listingService Unit longNames fun _ => [])
        (emptyLink "srv_A".toList) ["srv_A".toList] 0 with
    | error e =>
      rw [hrun] at hfault
      rw [Option.some.inj hfault]
    | ok s =>
      rw [hrun] at hfault
      cases hfault
  intro h
  obtain ⟨⟨-, hnodes⟩, -⟩ := h _ rfl
  have hnode := (hnodes _ rfl).1
  unfold NodeTextsFit at hnode
  exact absurd (fitsIn_some.1 hnode.1) (by decide +kernel)

end DslinkIec61850
