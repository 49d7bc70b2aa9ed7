import DslinkIec61850.Client.Model
import DslinkIec61850.Discovery.DataDirectory

/-!
# The depth of the walk

`discoverDataDirectory` follows whatever the server lists. The library answers no
reference of more than 129 characters (ied_connection.c:1780–1785), and with every level
the reference gets a dot and a name, so that the walk ends also on a server whose objects
contain themselves. References are texts without a bound here (`refSize` is `none`).

* `discoverDataDirectory_congr`: beyond `depthBound` the bound on the depth decides
  nothing.
* `discoverDataDirectory_endsWithin`: the walk ends within it.
-/

namespace DslinkIec61850

open DSLink Run Strings

variable {σ W : Type} [DSLink σ] {svc : IedService W} {con : ConnId}

/-- No directory for a reference of more than 129 characters. -/
def ShortDirectories (svc : IedService W) (con : ConnId) : Prop :=
  ∀ (w : W) (ref : Str) (fc : FunctionalConstraint), 129 < ref.length →
    (dataDirectory svc con ref fc w).1 = none

omit [DSLink σ] in
/-- The library answers like that, whatever the server's variables are. -/
theorem shortDirectories_of_devices {devices : LogicalDevices}
    (hfc : ∀ w ref l, (svc.getDataDirectoryFC w con ref).1 = some l →
      LogicalDevices.getDataDirectoryFC devices ref = some l)
    (hbyFC : ∀ w ref fc l, (svc.getDataDirectoryByFC w con ref fc).1 = some l →
      LogicalDevices.getDataDirectoryByFC devices ref fc = some l) : ShortDirectories svc con := by
  have hlong {ref : Str} (h : 129 < ref.length) (fc : Option Str) :
      LogicalDevices.getDataDirectory devices ref fc = none := by
    rw [LogicalDevices.getDataDirectory, if_pos h]
  intro w ref fc hlength
  rw [Option.eq_none_iff_forall_ne_some]
  intro l hl
  unfold dataDirectory at hl
  split_ifs at hl
  · have hanswer := hfc w ref l hl
    rw [LogicalDevices.getDataDirectoryFC, hlong hlength] at hanswer
    cases hanswer
  · have hanswer := hbyFC w ref fc l hl
    unfold LogicalDevices.getDataDirectoryByFC at hanswer
    split at hanswer
    · cases hanswer
    · rw [hlong hlength] at hanswer
      cases hanswer

/-- The levels that a walk from a reference can have. -/
def depthBound (doRef : Str) : ℕ := max 1 (131 - doRef.length)

/-- A reference gets longer even by an entry without a name. -/
theorem length_lt_entryRef (doRef entry : Str) : doRef.length < (entryRef doRef entry).length := by
  rw [entryRef, List.length_append, List.length_cons]
  omega

/-- One level less is left for the entries of a reference that is answered. -/
theorem depthBound_entryRef {doRef : Str} (hshort : doRef.length ≤ 129) (entry : Str) {depth : ℕ}
    (h : depthBound doRef ≤ depth + 1) : depthBound (entryRef doRef entry) ≤ depth := by
  have hlt := length_lt_entryRef doRef entry
  unfold depthBound at h ⊢
  omega

/-! ## Nothing is cut off -/

/-- The program ends by itself. -/
def Ends {α : Type} (x : Except Fault α) : Prop := FailsOnly (fun e => e ≠ .outOfFuel) x

theorem ends_deref {α : Type} (x : Option α) : Ends (deref x) := by
  cases x with
  | none => exact failsOnly_error.2 (by decide)
  | some a => exact failsOnly_ok a

theorem ends_storeIn (size : Option ℕ) (text : Str) : Ends (storeIn size text) := by
  unfold storeIn
  split
  · exact failsOnly_ok _
  · split_ifs
    · exact failsOnly_ok _
    · exact failsOnly_error.2 (by decide)

variable {refSize : Option ℕ}

/-- The scan for `stVal` ends at the first one or at the end of the list. -/
theorem ends_handleControllableNode (s : LinkState σ W) (node : Path) (doRef : Str) :
    Ends (handleControllableNode svc con refSize s node doRef) := by
  unfold handleControllableNode
  dsimp only
  split
  · exact failsOnly_pure _
  · refine failsOnly_bind.2 ⟨ends_storeIn _ _, fun _ _ => ?_⟩
    split_ifs
    · exact failsOnly_pure _
    · refine failsOnly_bind.2 ⟨ends_deref _, fun type _ => ?_⟩
      split_ifs
      · exact failsOnly_pure _
      · exact failsOnly_pure _

theorem ends_discoverLeaf (s : LinkState σ W) (node : Path) :
    Ends (discoverLeaf svc con s node) := by
  unfold discoverLeaf
  split
  · exact failsOnly_ok _
  · refine failsOnly_bind.2 ⟨ends_deref _, fun code _ => ?_⟩
    dsimp only
    split_ifs
    · exact failsOnly_pure _
    · refine failsOnly_bind.2 ⟨ends_deref _, fun ref _ => ?_⟩
      split
      · exact failsOnly_pure _
      · exact failsOnly_pure _

theorem ends_discoverEntry (s : LinkState σ W) (node : Path) (doRef entry : Str) :
    Ends (discoverEntry svc con refSize node doRef s entry) := by
  have hoper (s : LinkState σ W) : Ends
      (if entryName entry =
        "Oper".toList then handleControllableNode svc con refSize s node doRef else pure s) := by
    split_ifs
    · exact ends_handleControllableNode s node doRef
    · exact failsOnly_pure _
  unfold discoverEntry
  refine failsOnly_bind.2 ⟨ends_storeIn _ _, fun _ _ => ?_⟩
  dsimp only
  by_cases hnone : entryFC entry = .NONE
  · rw [if_pos hnone, pure_bind]
    exact hoper _
  · rw [if_neg hnone]
    exact failsOnly_bind.2 ⟨ends_deref _, fun _ _ => hoper _⟩

/-- By induction on the levels that are left. -/
theorem ends_discoverDataDirectory (hshort : ShortDirectories svc con) (depth : ℕ) :
    ∀ (s : LinkState σ W) (node : Path) (doRef : Str) (inFC : FunctionalConstraint),
      depthBound doRef ≤ depth →
      Ends (discoverDataDirectory svc con refSize depth s node doRef inFC) := by
  induction depth with
  | zero =>
    intro s node doRef inFC hdepth
    unfold depthBound at hdepth
    omega
  | succ depth ih =>
    intro s node doRef inFC hdepth
    unfold discoverDataDirectory
    dsimp only
    split
    · exact failsOnly_pure _
    · exact ends_discoverLeaf _ _
    · rename_i entries _ hreply
      have hlength : doRef.length ≤ 129 := by
        by_contra hlong
        have hnone : (dataDirectory svc con doRef inFC s.world).1 = none := hshort _ _ _ (by omega)
        cases hnone.symm.trans hreply
      refine failsOnly_foldlM.2 (along_of_forall fun s₁ entry _ => ?_)
      refine failsOnly_bind.2 ⟨ends_discoverEntry _ _ _ _, fun s₂ _ => ?_⟩
      exact ih _ _ _ _ (depthBound_entryRef hlength entry hdepth)

/-- Two bounds that are large enough give the same walk; by induction on the first. -/
theorem discoverDataDirectory_congr (hshort : ShortDirectories svc con) (depth : ℕ) :
    ∀ (depth' : ℕ) (s : LinkState σ W) (node : Path) (doRef : Str) (inFC : FunctionalConstraint),
      depthBound doRef ≤ depth → depthBound doRef ≤ depth' →
      discoverDataDirectory svc con refSize depth s node doRef inFC =
        discoverDataDirectory svc con refSize depth' s node doRef inFC := by
  induction depth with
  | zero =>
    intro depth' s node doRef inFC hdepth _
    unfold depthBound at hdepth
    omega
  | succ depth ih =>
    intro depth' s node doRef inFC hdepth hdepth'
    obtain ⟨depth', rfl⟩ : ∃ d, depth' = d + 1 := by
      refine ⟨depth' - 1, ?_⟩
      unfold depthBound at hdepth'
      omega
    by_cases hlength : doRef.length ≤ 129
    · have hround (s : LinkState σ W) (entry : Str) :
          discoverDataDirectory svc con refSize depth s (node ++ [entryKey entry])
            (entryRef doRef entry)
              (entryFC entry) =
            discoverDataDirectory svc con refSize depth' s (node ++ [entryKey entry])
              (entryRef doRef entry) (entryFC entry) :=
        ih depth' _ _ _ _ (depthBound_entryRef hlength entry hdepth)
          (depthBound_entryRef hlength entry hdepth')
      unfold discoverDataDirectory
      simp only [hround]
    · have hnone : (dataDirectory svc con doRef inFC s.world).1 = none := hshort _ _ _ (by omega)
      unfold discoverDataDirectory
      dsimp only [LinkState.call]
      rw [hnone]

/-- The walk ends, and no deeper recursion changes it. -/
def EndsWithin (svc : IedService W) (con : ConnId) (depth : ℕ) (s : LinkState σ W) (node : Path)
    (doRef : Str) (inFC : FunctionalConstraint) : Prop :=
  discoverDataDirectory svc con none depth s node doRef inFC ≠ .error .outOfFuel ∧
    ∀ more, depth ≤ more → discoverDataDirectory svc con none more s node doRef inFC =
      discoverDataDirectory svc con none depth s node doRef inFC

theorem endsWithin_depthBound (hshort : ShortDirectories svc con) (s : LinkState σ W) (node : Path)
    (doRef : Str) (inFC : FunctionalConstraint) :
    EndsWithin svc con (depthBound doRef) s node doRef inFC := by
  constructor
  · intro hcut
    exact ends_discoverDataDirectory hshort _ s node doRef inFC le_rfl _ hcut rfl
  · intro more hmore
    exact discoverDataDirectory_congr hshort _ _ _ _ _ _ hmore le_rfl

/-- **Termination.** From any reference, whatever the server lists, the walk ends, with at
most so many levels of recursion. -/
theorem discoverDataDirectory_endsWithin (hshort : ShortDirectories svc con) (s : LinkState σ W)
    (node : Path) (doRef : Str) (inFC : FunctionalConstraint) :
    EndsWithin svc con (max 1 (131 - doRef.length)) s node doRef inFC :=
  endsWithin_depthBound hshort s node doRef inFC

/-- So it does where the library answers out of the model of an IED. -/
theorem Serves.endsWithin {m : ServerModel} {devices : LogicalDevices}
    {variableLists : Str → Option (List Str)} (h : Serves svc con m devices variableLists)
    (s : LinkState σ W) (node : Path) (doRef : Str) (inFC : FunctionalConstraint) :
    EndsWithin svc con (depthBound doRef) s node doRef inFC := by
  have hfc (w : W) (ref : Str) (l : List Str)
      (hl : (svc.getDataDirectoryFC w con ref).1 = some l) :
      devices.getDataDirectoryFC ref = some l := by
    rw [← hl, h.dataDirectoryFC]
  have hbyFC (w : W) (ref : Str) (fc : FunctionalConstraint) (l : List Str)
      (hl : (svc.getDataDirectoryByFC w con ref fc).1 = some l) :
      devices.getDataDirectoryByFC ref fc = some l := by
    rw [← hl, h.dataDirectoryByFC]
  exact endsWithin_depthBound (shortDirectories_of_devices hfc hbyFC) s node doRef inFC

/-! ## An object that contains itself -/

/-- A server that lists two entries below every reference that the library asks for. -/
def selfSimilar : IedService Unit :=
  { IedService.silent Unit with
    getDataDirectoryFC :=
      fun w _ ref => (if 129 < ref.length then none else some ["a[ST]".toList, "b[MX]".toList], w)
    getDataDirectoryByFC :=
      fun w _ ref _ => (if 129 < ref.length then none else some ["a[ST]".toList, "".toList], w)
    getVariableSpecification := fun w _ _ _ => (some .boolean, w) }

theorem selfSimilar_shortDirectories : ShortDirectories selfSimilar 0 := by
  intro w ref fc hlong
  unfold dataDirectory
  split_ifs
  · exact if_pos hlong
  · exact if_pos hlong

/-- The link before any discovery. -/
def selfSimilarLink : LinkState NodeStore Unit :=
  { tree := NodeStore.empty, serverMap := [], connections := [], nextConn := 0, world := (),
    requests := [] }

/-- The walk over the object `D/L.O` ends, after at most 126 levels. -/
theorem discoverDataDirectory_endsWithin_selfSimilar :
    EndsWithin selfSimilar 0 126 selfSimilarLink ["srv_A".toList, "O".toList]
      "D/L.O".toList .NONE :=
  discoverDataDirectory_endsWithin selfSimilar_shortDirectories selfSimilarLink
    ["srv_A".toList, "O".toList] "D/L.O".toList .NONE

end DslinkIec61850
