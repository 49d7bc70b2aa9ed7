import DslinkIec61850.Discovery.Tree
import DslinkIec61850.Discovery.Walk

/-!
# The discovery of a server model

The loops around the walk: every device, every logical node and every data object
that the library lists is gone through, and what a later round does leaves the
nodes of an earlier one as they are.

* `discover61850Server_covered`: after a discovery the tree is that of the model.
-/

namespace DslinkIec61850

open DSLink Subtree Strings LinkState Run

variable {σ W : Type} [DSLink σ] {svc : IedService W} {con : ConnId} {m : ServerModel}
  {devices : LogicalDevices} {variableLists : Str → Option (List Str)} {srv ld ln : Str}

/-! ## What is listed -/

/-- The library lists the data object for the logical node. -/
def Listed (m : ServerModel) (ld ln n : Str) : Prop :=
  ∃ ln' fc, m.Has ld ln' [n] fc ∧ fc ≠ .RP ∧ fc ≠ .BR ∧ ln' <+: ln

theorem Listed.name_ok {n : Str} (h : Listed m ld ln n) : ModelName n := by
  obtain ⟨ln', fc, hhas, -⟩ := h
  exact hhas.names_ok.2.2.2 n List.mem_cons_self

theorem Lists.names_of_mem (h : Lists devices m) {l : List Str} {P : Str → Prop}
    (hl : LogicalDevices.getLogicalDeviceDirectory devices ld = some l)
    (hP : ∀ ln x, m.NodeOf ld ln x → P ln) : ∀ n ∈ l, P n := by
  intro n hn
  obtain ⟨vars, hvars, rfl⟩ := Option.map_eq_some_iff.1 hl
  rw [List.mem_filter, decide_eq_true_eq, (h.names hvars).mem] at hn
  obtain ⟨⟨ln, names, hv, rfl⟩, hdollar⟩ := hn
  cases names with
  | nil =>
    obtain ⟨x, hx⟩ := hv
    rw [mmsName, prefixed_nil, List.append_nil]
    exact hP ln x hx
  | cons code names =>
    exfalso
    apply hdollar
    simp [mmsName]

theorem Serves.logicalNodes (h : Serves svc con m devices variableLists)
    (hld : ld ∈ devices.map Prod.fst) (w : W) :
    ∃ l, (svc.getLogicalDeviceDirectory w con ld).1 = some l ∧ ∀ n, n ∈ l ↔
      ∃ x, m.NodeOf ld n x := by
  obtain ⟨vars, hvars⟩ := LogicalDevices.variablesOf_isSome hld
  have hl : LogicalDevices.getLogicalDeviceDirectory devices ld =
      some (vars.filter fun v => '$' ∉ v) := by
    rw [LogicalDevices.getLogicalDeviceDirectory, hvars]
    rfl
  refine ⟨vars.filter fun v => '$' ∉ v, by rw [h.deviceDirectory, hl], fun n => ⟨?_, ?_⟩⟩
  · exact h.lists.names_of_mem (P := fun n => ∃ x, m.NodeOf ld n x) hl (fun ln x hx => ⟨x, hx⟩) n
  · rintro ⟨x, hx⟩
    rw [List.mem_filter, decide_eq_true_eq, (h.lists.names hvars).mem]
    exact ⟨⟨n, [], ⟨x, hx⟩, by simp [mmsName]⟩, hx.ok.2.1.dollar⟩

/-- The names in all replies are plain. -/
theorem Serves.namesOk (h : Serves svc con m devices variableLists) : NamesOk svc con where
  devices w l w' hreply n hn := by
    have hl := h.deviceList w
    rw [hreply] at hl
    cases hl
    obtain ⟨d, hd, rfl⟩ := List.mem_map.1 ((h.lists.device n).1 hn)
    exact (m.device_ok d hd).1.plain
  logicalNodes w ld l w' hreply := by
    have hl := h.deviceDirectory w ld
    rw [hreply] at hl
    exact h.lists.names_of_mem hl.symm fun ln x hx => hx.ok.2.1.plain
  dataObjects w ref l w' hreply n hn := by
    have hl := (h.nodeDirectory w ref .dataObject).symm
    rw [hreply, LogicalDevices.getLogicalNodeDirectory] at hl
    split_ifs at hl
    split at hl
    · cases hl
    · obtain ⟨vars, hvars, rfl⟩ := Option.map_eq_some_iff.1 hl
      obtain ⟨ln', code, ⟨fc, hhas, -⟩, -⟩ := (LogicalDevices.mem_dataObjects (h.lists.names hvars)
        (fun _ _ _ hv => ServerModel.length_variable hv) _ n).1 hn
      exact (hhas.names_ok.2.2.2 n List.mem_cons_self).plain
  directoryFC w ref l w' hreply e he := by
    have hl := (h.dataDirectoryFC w ref).symm
    rw [hreply] at hl
    obtain ⟨ld, ln, code, names, sub, ⟨fc, hhas, rfl⟩, -, rfl⟩ :=
      LogicalDevices.getDataDirectory_entry
      (fun _ _ hvars => h.lists.names hvars)
        (fun _ _ _ _ hv => ServerModel.length_variable hv) hl he
    exact ⟨sub, fc, (hhas.names_ok.2.2.2 sub (by simp)).plain, hhas.names_ok.2.2.1, rfl⟩
  directoryByFC w ref fc l w' hreply e he := by
    have hl := (h.dataDirectoryByFC w ref fc).symm
    rw [hreply, LogicalDevices.getDataDirectoryByFC] at hl
    split at hl
    · cases hl
    · rename_i code hcode
      obtain ⟨ld, ln, code', names, sub, ⟨fc', hhas, rfl⟩, hfc, rfl⟩ :=
        LogicalDevices.getDataDirectory_entry (fun _ _ hvars => h.lists.names hvars)
          (fun _ _ _ _ hv => ServerModel.length_variable hv) hl he
      refine ⟨sub, (hhas.names_ok.2.2.2 sub (by simp)).plain, ?_⟩
      have hsame : code = fc'.code := by simpa using hfc
      have hfcCode : fc.code = code := by rw [FunctionalConstraint.code, hcode]; rfl
      rw [fcEntry, hfcCode, hsame]

/-! ## Data objects -/

/-- A logical node with the data objects of the model. -/
structure NodeCovered (m : ServerModel) (ld ln : Str) (F : Subtree) : Prop where
  object : ∀ n, n ∉ createdKeys → ((F [n]).isSome ↔ Listed m ld ln n)
  built : ∀ n, Listed m ld ln n → Built m ld ln [n] .NONE fun r => F (n :: r)

theorem discoverDataObject_built (h : Serves svc con m devices variableLists) {n : Str}
    (hnamed : Named m devices ld ln [n]) {s s' : LinkState σ W} {node : Path}
    (hrun : discoverDataObject svc con node (ld ++ '/' :: ln) s n = .ok s') :
    ∃ F, Grafts s.tree s'.tree (node ++ [n]) F ∧ (F []).isSome ∧ Built m ld ln [n] .NONE F := by
  have href : objectRef ld ln [n] = ld ++ '/' :: ln ++ '.' :: n := by simp [objectRef]
  unfold discoverDataObject at hrun
  dsimp only at hrun
  rw [← href] at hrun
  obtain ⟨_, hfits, hrun⟩ := bind_eq_ok.1 hrun
  have hdo := grafts_createDONode s.tree node (objectRef ld ln [n]) n
  obtain ⟨F, hF, hroot, hbuilt⟩ :=
    discoverDataDirectory_built h maxDepth [n] .NONE _ s' (node ++ [n]) hnamed
    (storeIn_eq_ok.1 hfits 129 rfl) (.inl rfl) (by rw [hdo.sub_eq]; exact newNode_doTree _ _) hrun
  refine ⟨F, hdo.trans hF, ?_, hbuilt⟩
  rw [hroot, hdo.sub_eq, doTree, withChildren_nil]
  rfl

/-- The loop over the data objects of a logical node. -/
theorem discoverDataObjects_built (h : Serves svc con m devices variableLists) {l : List Str}
    (hl : ∀ n ∈ l, Named m devices ld ln [n]) {s s' : LinkState σ W} {node : Path}
    (hrun : l.foldlM (discoverDataObject svc con node (ld ++ '/' :: ln)) s = .ok s') :
    ∃ F, Grafts s.tree s'.tree node F ∧ F [] = sub s.tree node [] ∧
      (∀ n ∈ l, (F [n]).isSome ∧ Built m ld ln [n] .NONE fun r => F (n :: r)) ∧
      ∀ n, n ∉ l → ∀ r, F (n :: r) = sub s.tree node (n :: r) := by
  refine foldlM_progress (I := fun done (s' : LinkState σ W) => ∃ F, Grafts s.tree s'.tree node F ∧
    F [] = sub s.tree node [] ∧
    (∀ n ∈ done, (F [n]).isSome ∧ Built m ld ln [n] .NONE fun r => F (n :: r)) ∧
    ∀ n, n ∉ done → ∀ r, F (n :: r) = sub s.tree node (n :: r))
    ⟨_, Grafts.refl _ _, rfl, by simp, fun _ _ _ => rfl⟩ ?_ hrun
  rintro done n rest heq s₀ s₁ ⟨F, hF, hroot, hdone, hrest⟩ hround
  obtain ⟨G, hG, hsome, hbuilt⟩ := discoverDataObject_built h (hl n (by rw [heq]; simp)) hround
  have hup := hG.up
  rw [hF.sub_eq] at hup
  refine ⟨_, hF.trans hup, by rw [set_nil, hroot], ?_, ?_⟩
  · intro k hk
    by_cases hkn : k = n
    · rw [hkn]
      simp only [set_cons_self]
      exact ⟨hsome, hbuilt⟩
    · simp only [set_cons_of_ne hkn]
      exact hdone k ((List.mem_append.1 hk).resolve_right (by simpa using hkn))
  · intro k hk r
    rw [List.mem_append, not_or] at hk
    rw [set_cons_of_ne (by simpa using hk.2)]
    exact hrest k hk.1 r

/-! ## Data sets and reports -/

/-- The devices of the server are as they were. -/
def SameDevices (srv : Str) (t t' : σ) : Prop :=
  ∀ ld r, lookup t' (srv :: ldKey ld :: r) = lookup t (srv :: ldKey ld :: r)

theorem SameDevices.trans {t t' t'' : σ} (h : SameDevices srv t t') (h' : SameDevices srv t' t'') :
    SameDevices srv t t'' := fun ld r => (h' ld r).trans (h ld r)

/-- What happens in a folder leaves the devices. -/
theorem sameDevices_of_frame {t t' : σ} {key : Str} (hkey : hasInit ldnKeyInit key = false)
    (h : ∀ q, ¬ [srv, key] <+: q → lookup t' q = lookup t q) : SameDevices srv t t' := by
  intro ld r
  apply h
  rw [List.cons_prefix_cons, List.cons_prefix_cons]
  rintro ⟨-, rfl, -⟩
  rw [hasInit_ldKey] at hkey
  cases hkey

theorem discoverDataSet_sameDevices (hsrv : hasInit srvKeyInit srv = true) {s s' : LinkState σ W}
    {q : Path}
    {lnRef name : Str} (hrun : discoverDataSet svc con (srv :: q) lnRef s name = .ok s') :
    SameDevices srv s.tree s'.tree := by
  unfold discoverDataSet at hrun
  dsimp only at hrun
  obtain ⟨_, -, hrun⟩ := bind_eq_ok.1 hrun
  obtain ⟨⟨found, s₁⟩, h₁, hrun⟩ := bind_eq_ok.1 hrun
  cases hrun
  obtain ⟨-, -, ⟨-, htree, -⟩ | ⟨-, main, members, del, cs, hmain, -, hread⟩⟩ :=
    getDatasetInfoFromServerCreateNode_ok h₁
  · intro ld r
    rw [htree]
  · rw [getMainDatasetNode_below hsrv hmain] at hread
    exact sameDevices_of_frame (by decide) hread.not_attribute.frame

theorem discoverReport_sameDevices (hsrv : hasInit srvKeyInit srv = true) {s s' : LinkState σ W}
    {isBuffered : Bool} {lnRef name : Str}
    (hrun : discoverReport svc con [srv] isBuffered lnRef s name = .ok s') :
    SameDevices srv s.tree s'.tree := by
  unfold discoverReport at hrun
  dsimp only at hrun
  obtain ⟨_, -, hrun⟩ := bind_eq_ok.1 hrun
  obtain ⟨⟨created, s₁⟩, h₁, hrun⟩ := bind_eq_ok.1 hrun
  cases hrun
  rcases getRCBInfoAndCreateNode_ok h₁ with
    ⟨-, htree, -⟩ | ⟨-, folder, rcb, cs, s₂, hfolder, -, -, hcreated⟩
  · intro ld r
    rw [htree]
  · have hchange := hcreated.changesBelow
    rw [(rcbFolder_eq hsrv hfolder).1] at hchange
    exact sameDevices_of_frame (by cases isBuffered <;> decide) hchange.frame

/-- A loop whose rounds leave the devices. -/
theorem forEach_sameDevices {f : LinkState σ W → Str → Except Fault (LinkState σ W)}
    {call : W → Option (List Str) × W} {s s' : LinkState σ W}
    (hf : ∀ s s' n, f s n = .ok s' → SameDevices srv s.tree s'.tree)
    (hrun : forEach f (s.call call) = .ok s') : SameDevices srv s.tree s'.tree := by
  obtain ⟨names, -, hrun⟩ := bind_eq_ok.1 hrun
  refine foldlM_invariant (I := fun s' => SameDevices srv s.tree s'.tree) ?_ hrun fun _ _ => rfl
  intro n _ s₁ s₂ hsame hn
  exact hsame.trans (hf s₁ s₂ n hn)

/-! ## Logical nodes -/

theorem discoverLogicalNode_covered (hsrv : hasInit srvKeyInit srv = true)
    (h : Serves svc con m devices variableLists) (hld : ld ∈ devices.map Prod.fst)
    {x : NodeModel} (hnode : m.NodeOf ld ln x) {s s' : LinkState σ W}
    (hrun : discoverLogicalNode svc con [srv] ld s ln = .ok s') :
    Live s'.tree [srv, ldKey ld, ln] ∧ NodeCovered m ld ln (sub s'.tree [srv, ldKey ld, ln]) ∧
      ∀ ld' r, ¬ [srv, ldKey ld, ln] <+: srv :: ldKey ld' :: r →
        lookup s'.tree (srv :: ldKey ld' :: r) = lookup s.tree (srv :: ldKey ld' :: r) := by
  obtain ⟨hldName, hlnName, -⟩ := hnode.ok
  unfold discoverLogicalNode at hrun
  dsimp only at hrun
  obtain ⟨_, hfits, hrun⟩ := bind_eq_ok.1 hrun
  obtain ⟨s₁, h₁, hrun⟩ := bind_eq_ok.1 hrun
  obtain ⟨s₂, h₂, hrun⟩ := bind_eq_ok.1 hrun
  obtain ⟨s₃, h₃, h₄⟩ := bind_eq_ok.1 hrun
  have hsame : SameDevices srv s₁.tree s'.tree :=
    ((forEach_sameDevices (fun s s' n hn => discoverDataSet_sameDevices hsrv hn) h₂).trans
      (forEach_sameDevices (fun s s' n hn => discoverReport_sameDevices hsrv hn) h₃)).trans
        (forEach_sameDevices (fun s s' n hn => discoverReport_sameDevices hsrv hn) h₄)
  obtain ⟨l, hreply, h₁⟩ := bind_eq_ok.1 h₁
  rw [deref_eq_ok] at hreply
  obtain ⟨l', hl', -, hmem⟩ := h.dataObjects hld hldName (storeIn_eq_ok.1 hfits 129 rfl) s.world
  obtain rfl : l' = l := Option.some.inj (hl'.symm.trans hreply)
  have hln := grafts_createLNNode s.tree [srv, ldKey ld] (ld ++ '/' :: ln) ln
  obtain ⟨F, hF, hroot, hlisted, hrest⟩ := discoverDataObjects_built h
    (fun n hn => ⟨hld, hldName, hlnName, by simpa using Listed.name_ok ((hmem n).1 hn), by simp⟩) h₁
  have hsub : sub s'.tree [srv, ldKey ld, ln] = F := by
    funext r
    rw [← hF.sub_eq]
    exact hsame ld (ln :: r)
  have hnew (n : Str) (hn : n ∉ createdKeys) (r : Path) :
      sub (createLNNode s.tree [srv, ldKey ld] (ld ++ '/' :: ln) ln) ([srv, ldKey ld] ++ [ln])
        (n :: r) = none := by
    rw [hln.sub_eq, lnTree, withChildren_of_not_mem]
    · rfl
    · intro c hc heq
      apply hn
      rw [← heq]
      simp only [lnNodeChildren, List.mem_cons, List.not_mem_nil, or_false] at hc
      rcases hc with rfl | rfl <;> simp [createdKeys]
  refine ⟨?_, ⟨?_, ?_⟩, ?_⟩
  · unfold Live
    rw [← sub_nil, hsub, hroot]
    show (sub (createLNNode s.tree [srv, ldKey ld] (ld ++ '/' :: ln) ln)
      ([srv, ldKey ld] ++ [ln]) []).isSome = true
    rw [hln.sub_eq, lnTree, withChildren_nil]
    rfl
  · intro n hn
    rw [hsub]
    by_cases hl : n ∈ l'
    · exact iff_of_true (hlisted n hl).1 ((hmem n).1 hl)
    · rw [hrest n hl]
      refine iff_of_false ?_ fun hlist => hl ((hmem n).2 hlist)
      show ¬ (sub (createLNNode s.tree [srv, ldKey ld] (ld ++ '/' :: ln) ln)
        ([srv, ldKey ld] ++ [ln]) [n]).isSome = true
      rw [hnew n hn]
      simp
  · intro n hlist
    rw [hsub]
    exact (hlisted n ((hmem n).2 hlist)).2
  · intro ld' r hr
    rw [hsame, hF.frame _ hr]
    exact hln.frame _ hr

/-! ## Logical devices -/

/-- A logical device with the logical nodes of the model. -/
structure DeviceCovered (m : ServerModel) (ld : Str) (F : Subtree) : Prop where
  node : ∀ ln, (F [ln]).isSome ↔ ∃ x, m.NodeOf ld ln x
  covered : ∀ ln x, m.NodeOf ld ln x → NodeCovered m ld ln fun r => F (ln :: r)

theorem discoverLogicalDevice_covered (hsrv : hasInit srvKeyInit srv = true)
    (h : Serves svc con m devices variableLists) (hld : ld ∈ devices.map Prod.fst)
    {s s' : LinkState σ W} (hrun : discoverLogicalDevice svc con [srv] s ld = .ok s') :
    Live s'.tree [srv, ldKey ld] ∧ DeviceCovered m ld (sub s'.tree [srv, ldKey ld]) ∧
      ∀ ld', ld' ≠ ld →
        ∀ r, lookup s'.tree (srv :: ldKey ld' :: r) = lookup s.tree (srv :: ldKey ld' :: r) := by
  unfold discoverLogicalDevice createLDNode at hrun
  obtain ⟨t, ht, hrun⟩ := bind_eq_ok.1 hrun
  obtain ⟨_, -, ht⟩ := bind_eq_ok.1 ht
  cases ht
  obtain ⟨l, hreply, hrun⟩ := bind_eq_ok.1 hrun
  rw [deref_eq_ok] at hreply
  obtain ⟨l', hl', hmem⟩ := h.logicalNodes hld s.world
  obtain rfl : l' = l := Option.some.inj (hl'.symm.trans hreply)
  have hnew := grafts_addChild_child s.tree [srv] (ldKey ld) (folderNode ld)
  have hI := fun hstart hstep => foldlM_progress
    (I := fun done (s' : LinkState σ W) => Live s'.tree [srv, ldKey ld] ∧
      (∀ ln ∈ done, Live s'.tree [srv, ldKey ld, ln] ∧
        NodeCovered m ld ln (sub s'.tree [srv, ldKey ld, ln])) ∧
      (∀ ln, ln ∉ done → lookup s'.tree [srv, ldKey ld, ln] = none) ∧
      ∀ ld', ld' ≠ ld → ∀ r, lookup s'.tree (srv :: ldKey ld' :: r) =
        lookup s.tree (srv :: ldKey ld' :: r)) hstart hstep hrun
  have hI := hI ⟨?_, by simp, ?_, ?_⟩ ?_
  · obtain ⟨hlive, hdone, hrest, hframe⟩ := hI
    refine ⟨hlive, ⟨?_, ?_⟩, hframe⟩
    · intro ln
      rw [← hmem]
      by_cases hln : ln ∈ l'
      · exact iff_of_true (hdone ln hln).1 hln
      · refine iff_of_false ?_ hln
        rw [sub_apply]
        show ¬ (lookup s'.tree [srv, ldKey ld, ln]).isSome = true
        rw [hrest ln hln]
        simp
    · intro ln x hx
      exact (hdone ln ((hmem ln).2 ⟨x, hx⟩)).2
  · unfold Live
    show (lookup (addChild s.tree [srv] (ldKey ld) (folderNode ld)) [srv, ldKey ld]).isSome = true
    rw [lookup_addChild, if_pos (by rfl)]
    rfl
  · intro ln _
    exact lookup_addChild_below (p := [srv]) (r := [ln]) (by simp)
  · intro ld' hne r
    apply hnew.frame
    rw [List.singleton_append, List.cons_prefix_cons, List.cons_prefix_cons]
    rintro ⟨-, hkey, -⟩
    exact hne (ldKey_injective hkey).symm
  · rintro done ln rest heq s₀ s₁ ⟨hlive, hdone, hrest, hframe⟩ hround
    obtain ⟨x, hx⟩ := (hmem ln).1 (by rw [heq]; simp)
    obtain ⟨hliveLn, hcovered, hkeep⟩ := discoverLogicalNode_covered hsrv h hld hx hround
    have hdevice (ld' : Str) (hne : ld' ≠ ld) (r : Path) :
        ¬ [srv, ldKey ld, ln] <+: srv :: ldKey ld' :: r := by
      rw [List.cons_prefix_cons, List.cons_prefix_cons]
      rintro ⟨-, hkey, -⟩
      exact hne (ldKey_injective hkey).symm
    have hother (k : Str) (hne : k ≠ ln) (r : Path) :
        ¬ [srv, ldKey ld, ln] <+: srv :: ldKey ld :: k :: r := by
      simp only [List.cons_prefix_cons, true_and]
      rintro ⟨rfl, -⟩
      exact hne rfl
    refine ⟨?_, ?_, ?_, ?_⟩
    · unfold Live
      rw [hkeep ld [] (by simp)]
      exact hlive
    · intro k hk
      by_cases hkn : k = ln
      · rw [hkn]
        exact ⟨hliveLn, hcovered⟩
      · obtain ⟨hlive', hcovered'⟩ :=
          hdone k ((List.mem_append.1 hk).resolve_right (by simpa using hkn))
        have hsub : sub s₁.tree [srv, ldKey ld, k] = sub s₀.tree [srv, ldKey ld, k] := by
          funext r
          exact hkeep ld (k :: r) (hother k hkn r)
        rw [hsub]
        refine ⟨?_, hcovered'⟩
        unfold Live
        rw [hkeep ld [k] (hother k hkn [])]
        exact hlive'
    · intro k hk
      rw [List.mem_append, not_or] at hk
      rw [hkeep ld [k] (hother k (by simpa using hk.2) [])]
      exact hrest k hk.1
    · intro ld' hne r
      rw [hkeep ld' r (hdevice ld' hne r)]
      exact hframe ld' hne r

/-! ## The server -/

/-- The tree below the server node is that of the model. -/
structure ServerCovered (m : ServerModel) (srv : Str) (t : σ) : Prop where
  device : ∀ ld, Live t [srv, ldKey ld] ↔ ld ∈ m.devices.map DeviceModel.name
  covered : ∀ ld ∈ m.devices.map DeviceModel.name, DeviceCovered m ld (sub t [srv, ldKey ld])

/-- **Coverage.** A discovery of an undiscovered server builds the tree of its
model. -/
theorem discover61850Server_covered (hsrv : hasInit srvKeyInit srv = true)
    (h : Serves svc con m devices variableLists) {s s' : LinkState σ W}
    (hnew : Undiscovered srv s.tree) (hrun : discover61850Server svc s [srv] con = .ok s') :
    ServerCovered m srv s'.tree := by
  unfold discover61850Server at hrun
  dsimp only [call] at hrun
  rw [h.deviceList] at hrun
  dsimp only at hrun
  have hI := fun hstart hstep => foldlM_progress
    (I := fun done (s' : LinkState σ W) =>
      (∀ ld ∈ done, Live s'.tree [srv, ldKey ld] ∧
        DeviceCovered m ld (sub s'.tree [srv, ldKey ld])) ∧
      ∀ ld, ld ∉ done → lookup s'.tree [srv, ldKey ld] = none) hstart hstep hrun
  have hI := hI ⟨by simp, ?_⟩ ?_
  · obtain ⟨hdone, hrest⟩ := hI
    refine ⟨?_, ?_⟩
    · intro ld
      rw [← h.lists.device]
      by_cases hld : ld ∈ devices.map Prod.fst
      · exact iff_of_true (hdone ld hld).1 hld
      · refine iff_of_false ?_ hld
        unfold Live
        rw [hrest ld hld]
        simp
    · intro ld hld
      exact (hdone ld ((h.lists.device ld).2 hld)).2
  · intro ld _
    rw [Option.eq_none_iff_forall_ne_some]
    intro n hn
    rcases lookup_createDatasetReportNodes s.tree hn with ⟨hfolder, -⟩ | ⟨-, hold⟩
    · exact absurd hfolder (ldKey_not_folder ld)
    · have hndl := (hnew _ _ n hold).1
      have hldn := hasInit_ldKey ld
      rw [hasInit, beq_iff_eq] at hndl hldn
      rw [hldn] at hndl
      exact absurd hndl (by decide)
  · rintro done ld rest heq s₀ s₁ ⟨hdone, hrest⟩ hround
    obtain ⟨hlive, hcovered, hkeep⟩ :=
      discoverLogicalDevice_covered hsrv h (by rw [heq]; simp) hround
    refine ⟨?_, ?_⟩
    · intro k hk
      by_cases hkn : k = ld
      · rw [hkn]
        exact ⟨hlive, hcovered⟩
      · obtain ⟨hlive', hcovered'⟩ :=
          hdone k ((List.mem_append.1 hk).resolve_right (by simpa using hkn))
        have hsub : sub s₁.tree [srv, ldKey k] = sub s₀.tree [srv, ldKey k] := by
          funext r
          exact hkeep k hkn r
        rw [hsub]
        refine ⟨?_, hcovered'⟩
        unfold Live
        rw [hkeep k hkn []]
        exact hlive'
    · intro k hk
      rw [List.mem_append, not_or] at hk
      rw [hkeep k (by simpa using hk.2) []]
      exact hrest k hk.1

/-! ## Nothing fails -/

theorem Serves.controlDelivers (h : Serves svc con m devices variableLists) {names : List Str}
    (hnamed : Named m devices ld ln names) (hshort : (objectRef ld ln names).length < 129) (w : W) :
    ControlDelivers svc con (some 129) w (objectRef ld ln names) := by
  intro entry hentry _ _
  rcases h.stValEntry hnamed hshort w with ⟨hnone, -⟩ | ⟨fc, hsome, hhas⟩
  · rw [hnone] at hentry
    cases hentry
  · obtain rfl := Option.some.inj (hsome.symm.trans hentry)
    obtain ⟨type, hspec, -⟩ :=
      h.specification (svc.getDataDirectoryFC w con (objectRef ld ln names)).2 ld ln _ fc hhas
    rw [objectRef_append] at hspec
    rw [entryFC_fcEntry (by decide) hhas.names_ok.2.2.1]
    exact Option.isSome_iff_exists.2 ⟨type, hspec⟩

theorem Serves.walkDelivers (h : Serves svc con m devices variableLists) (depth : ℕ) :
    ∀ (names : List Str) (inFC : FunctionalConstraint) (s : LinkState σ W) (node : Path),
      Named m devices ld ln names → (objectRef ld ln names).length < 129 →
      (inFC = .NONE ∨ inFC.Known) →
      WalkDelivers svc con (some 129) depth s node (objectRef ld ln names) inFC := by
  induction depth with
  | zero => intro _ _ _ _ _ _ _; trivial
  | succ depth ih =>
    intro names inFC s node hnamed hshort hin entries hentries
    obtain ⟨l, hl, -, hmem⟩ := h.entriesOf hnamed hshort hin s.world
    obtain rfl : l = entries := Option.some.inj (hl.symm.trans hentries)
    apply along_of_forall
    intro s e he
    obtain ⟨x, fc, hhas, -, rfl⟩ := (hmem e).1 he
    have hx := hhas.names_ok.2.2.2 x (by simp)
    have hfc := hhas.names_ok.2.2.1
    refine ⟨fun _ => ?_, fun s₁ h₁ => ?_⟩
    · rw [entryFC_fcEntry hx.plain.bracket hfc, if_neg hfc.2, entryRef_fcEntry hx.plain.bracket,
        ← objectRef_append]
      obtain ⟨type, hspec, -⟩ := h.specification s.world ld ln _ fc hhas
      exact ⟨Option.isSome_iff_exists.2 ⟨type, hspec⟩, fun _ => h.controlDelivers hnamed hshort _⟩
    · have hstored := storedEntry hx.plain.bracket h₁
      rw [entryRef_fcEntry hx.plain.bracket, entryFC_fcEntry hx.plain.bracket hfc,
        ← objectRef_append]
      exact ih (names ++ [x]) fc s₁ _ (hnamed.append hx) hstored (.inr hfc)

theorem Serves.nodeDirectory_isSome (h : Serves svc con m devices variableLists)
    (hld : ld ∈ devices.map Prod.fst) (hldName : ModelName ld)
    (hshort : (ld ++ '/' :: ln).length < 129) (w : W) (acsiClass : AcsiClass) :
    (svc.getLogicalNodeDirectory w con (ld ++ '/' :: ln) acsiClass).1.isSome = true := by
  obtain ⟨vars, hvars⟩ := LogicalDevices.variablesOf_isSome hld
  obtain ⟨lists, hlists⟩ := Option.isSome_iff_exists.1 (h.variableLists_isSome ld hld)
  rw [h.nodeDirectory, LogicalDevices.getLogicalNodeDirectory, if_neg (by omega),
    cut_append hldName.plain.slash]
  cases acsiClass <;> simp [hvars, hlists]

/-- Every call that a discovery does not test delivers. -/
theorem Serves.discoveryDelivers (h : Serves svc con m devices variableLists) (s : LinkState σ W)
    (node : Path) : DiscoveryDelivers svc s node con := by
  intro lds hlds
  have hdevices := h.deviceList s.world
  obtain rfl := Option.some.inj (hlds.symm.trans hdevices)
  apply along_of_forall
  intro s ld hld _
  obtain ⟨l, hl, hmem⟩ := h.logicalNodes hld s.world
  refine ⟨Option.isSome_iff_exists.2 ⟨l, hl⟩, fun names hnames => ?_⟩
  obtain rfl := Option.some.inj (hl.symm.trans hnames)
  apply along_of_forall
  intro s ln hln
  obtain ⟨x, hx⟩ := (hmem ln).1 hln
  obtain ⟨hldName, hlnName, -⟩ := hx.ok
  unfold NodeDelivers
  intro lnRef lnNode s₀ hfits
  have hsome := fun w => h.nodeDirectory_isSome hld hldName (hfits 129 rfl) w
  refine ⟨⟨hsome _ _, fun objects hobjects => ?_⟩, fun s₁ _ =>
    ⟨hsome _ _, fun s₂ _ => ⟨hsome _ _, fun s₃ _ => hsome _ _⟩⟩⟩
  obtain ⟨l', hl', -, hmem'⟩ := h.dataObjects hld hldName (hfits 129 rfl) s₀.world
  obtain rfl := Option.some.inj (hl'.symm.trans hobjects)
  apply along_of_forall
  intro s n hn hfitsDo
  have hn' := Listed.name_ok ((hmem' n).1 hn)
  have href : lnRef ++ '.' :: n = objectRef ld ln [n] := by simp [lnRef, objectRef]
  rw [href] at hfitsDo ⊢
  exact h.walkDelivers maxDepth [n] .NONE _ _ ⟨hld, hldName, hlnName, by simpa using hn', by simp⟩
    (hfitsDo 129 rfl) (.inl rfl)

/-- A discovery of a served model ends unless a text does not fit. -/
theorem Serves.discovery_ends (h : Serves svc con m devices variableLists)
    (hcomplete : RepliesComplete svc con) {s : LinkState σ W} {node : Path}
    (hfits : discover61850Server svc s node con ≠ .error .outOfBounds) :
    ∃ s', discover61850Server svc s node con = .ok s' := by
  have hfails := (discovery_ends_iff hcomplete s node).2 (h.discoveryDelivers s node)
  cases hrun : discover61850Server svc s node con with
  | ok s' => exact ⟨s', rfl⟩
  | error e =>
    rw [hfails e hrun] at hrun
    exact absurd hrun hfits

end DslinkIec61850
