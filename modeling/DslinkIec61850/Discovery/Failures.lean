import DslinkIec61850.Client.Service
import DslinkIec61850.Discovery.Steps
import DslinkIec61850.Report.Contents

/-!
# Service calls that fail during a discovery

A call that fails delivers nothing. The discovery tests the list of logical
devices, the data directories, the data set directories and the blocks that it
reads; the directories of devices and nodes and the variable specifications are
used as they are.

* `discovery_ends_iff`: a discovery goes wrong in no other way than by a text that
  does not fit exactly when the calls of the second kind deliver.
-/

namespace DslinkIec61850

open DSLink LinkState Run Strings ClientReportControlBlock

variable {σ W : Type} [DSLink σ] {svc : IedService W} {con : ConnId}

/-- An access outside the bounds of a buffer. -/
def IsOverflow (e : Fault) : Prop := e = .outOfBounds

theorem overflowsOnly_storeIn (size : Option ℕ) (text : Str) :
    FailsOnly IsOverflow (storeIn size text) := by
  cases size with
  | none => exact failsOnly_ok _
  | some n =>
    show FailsOnly IsOverflow (if text.length < n then _ else _)
    split_ifs
    · exact failsOnly_ok _
    · exact failsOnly_error.2 rfl

theorem overflowsOnly_deref {α : Type} {o : Option α} :
    FailsOnly IsOverflow (deref o) ↔ o.isSome = true := by
  cases o with
  | none => exact iff_of_false (fun h => by cases h _ rfl) (by simp)
  | some a => exact iff_of_true (failsOnly_ok a) rfl

/-- A text is stored before the rest. -/
theorem overflowsOnly_storeIn_bind {α : Type} {size : Option ℕ} {text : Str}
    {f : Unit → Except Fault α} :
    FailsOnly IsOverflow (storeIn size text >>= f) ↔
      (FitsIn size text → FailsOnly IsOverflow (f ())) := by
  rw [failsOnly_bind]
  constructor
  · intro h hfits
    exact h.2 () (storeIn_eq_ok.2 hfits)
  · intro h
    exact ⟨overflowsOnly_storeIn size text, fun _ hok => h (storeIn_eq_ok.1 hok)⟩

/-! ## Data sets -/

/-- What is delivered is complete: a member reference names its device, a block
has the attributes of its kind. -/
structure RepliesComplete (svc : IedService W) (con : ConnId) : Prop where
  members : ∀ w ref reply, (svc.getDataSetDirectory w con ref).1 = some reply →
    ∀ m ∈ reply.1, '/' ∈ m
  blocks : ∀ w ref values, (svc.readRCB w con ref).1 = some values →
    (if isBufferedRcb ref then 12 else 10) < values.length

theorem overflowsOnly_scanName (t : σ) (fcStr : Str) (scanNode : Path) (name : Str) :
    FailsOnly IsOverflow (scanName t fcStr scanNode name) := by
  unfold scanName
  rw [overflowsOnly_storeIn_bind]
  intro _
  split
  · exact failsOnly_pure _
  · rw [overflowsOnly_storeIn_bind]
    exact fun _ => failsOnly_pure _

theorem overflowsOnly_scanNames (t : σ) (fcStr : Str) (names : List Str) (scanNode : Path) :
    FailsOnly IsOverflow (scanNames t fcStr scanNode names) := by
  induction names generalizing scanNode with
  | nil => exact failsOnly_ok _
  | cons name names ih =>
    rw [scanNames, failsOnly_bind]
    refine ⟨overflowsOnly_scanName t fcStr scanNode name, ?_⟩
    intro found _
    cases found with
    | none => exact failsOnly_pure _
    | some newScanNode => exact ih newScanNode

theorem overflowsOnly_getDANode (t : σ) (node : Path) (ref : Str) :
    FailsOnly IsOverflow (getDANode t node ref) := by
  unfold getDANode
  rw [overflowsOnly_storeIn_bind]
  intro _
  split
  · exact failsOnly_pure _
  · split
    · exact failsOnly_pure _
    · unfold scanServer
      split
      · exact failsOnly_ok _
      · rw [overflowsOnly_storeIn_bind]
        intro _
        split
        · exact failsOnly_pure _
        · split
          · exact failsOnly_pure _
          · split
            · exact failsOnly_pure _
            · exact overflowsOnly_scanNames t _ _ _

theorem overflowsOnly_addMember (newDSNode : Path) (t : σ) {member : Str} (h : '/' ∈ member) :
    FailsOnly IsOverflow (addMemberToDatasetNode newDSNode t member) := by
  unfold addMemberToDatasetNode
  rw [overflowsOnly_storeIn_bind]
  intro _
  have hslash : ∃ key, replaceSlash member = .ok key := by
    unfold replaceSlash
    split
    · rename_i hcut
      exact absurd h (cut_snd_eq_none.1 (by rw [hcut]))
    · exact ⟨_, rfl⟩
  obtain ⟨key, hkey⟩ := hslash
  rw [hkey, ok_bind, failsOnly_bind]
  refine ⟨overflowsOnly_getDANode _ _ _, ?_⟩
  intro found _
  cases found <;> exact failsOnly_pure _

theorem overflowsOnly_discoverDataSet (h : RepliesComplete svc con) (node : Path) (lnRef : Str)
    (s : LinkState σ W) (name : Str) :
    FailsOnly IsOverflow (discoverDataSet svc con node lnRef s name) := by
  unfold discoverDataSet
  dsimp only
  rw [overflowsOnly_storeIn_bind]
  intro _
  rw [failsOnly_bind]
  refine ⟨?_, fun _ _ => failsOnly_pure _⟩
  unfold getDatasetInfoFromServerCreateNode
  dsimp only
  split
  · exact failsOnly_pure _
  · rename_i members isDeletable hreply
    rw [failsOnly_bind]
    refine ⟨?_, ?_⟩
    · unfold createDatasetNode
      rw [overflowsOnly_storeIn_bind]
      intro _
      split <;> exact failsOnly_pure _
    · rintro ⟨found, t⟩ _
      cases found with
      | none => exact failsOnly_pure _
      | some newDSNode =>
        dsimp only
        rw [failsOnly_bind]
        refine ⟨?_, fun _ _ => failsOnly_pure _⟩
        rw [failsOnly_foldlM]
        apply along_of_forall
        intro t m hm
        exact overflowsOnly_addMember newDSNode t (h.members _ _ _ hreply m hm)

/-! ## Report control blocks -/

theorem overflowsOnly_flagsText (flags : List (ℕ × Str)) (v : ℕ) :
    FailsOnly IsOverflow (flagsText flags v) := by
  unfold flagsText
  split_ifs
  · exact failsOnly_ok _
  · exact failsOnly_error.2 rfl
  · exact failsOnly_ok _

theorem overflowsOnly_rcbChildren {rcb : ClientReportControlBlock} {v : MmsValue}
    (h : rcb.optFlds = some v)
    (ref : Str) (isBuffered : Bool) : FailsOnly IsOverflow (rcbChildren σ ref isBuffered rcb) := by
  unfold rcbChildren
  rw [failsOnly_bind]
  constructor
  · rw [getOptFlds, h]
    cases v with
    | bitString bits =>
      show FailsOnly IsOverflow ((MmsValue.getBitStringAsInteger bits).map _)
      rw [MmsValue.getBitStringAsInteger_eq]
      split_ifs
      · exact failsOnly_ok _
      · exact failsOnly_error.2 rfl
    | _ => exact failsOnly_error.2 rfl
  · intro n _
    rw [failsOnly_bind]
    refine ⟨overflowsOnly_flagsText _ _, fun _ _ => ?_⟩
    rw [failsOnly_bind]
    exact ⟨overflowsOnly_flagsText _ _, fun _ _ => failsOnly_pure _⟩

theorem overflowsOnly_discoverReport (h : RepliesComplete svc con) (node : Path) (isBuffered : Bool)
    (lnRef : Str) (s : LinkState σ W) (name : Str) :
    FailsOnly IsOverflow (discoverReport svc con node isBuffered lnRef s name) := by
  unfold discoverReport
  dsimp only
  rw [overflowsOnly_storeIn_bind]
  intro _
  rw [failsOnly_bind]
  refine ⟨?_, fun _ _ => failsOnly_pure _⟩
  unfold getRCBInfoAndCreateNode
  dsimp only
  rw [overflowsOnly_storeIn_bind]
  intro _
  let ref := rcbRefOf isBuffered lnRef name
  cases hread : (svc.readRCB s.world con ref).1 with
  | none =>
    have hnone : s.getRCBValues svc con ref none =
        .ok (none, (s.call fun w => svc.readRCB w con ref).2) := by
      unfold LinkState.getRCBValues
      simp only [call, hread]
      rfl
    rw [hnone, ok_bind]
    dsimp only
    split
    · rename_i _ hsome
      cases hsome
    · exact failsOnly_pure _
  | some values =>
    have hlen : (if (create ref).isBuffered then 12 else 10) < values.length := h.blocks _ _ _ hread
    obtain ⟨rcb, hrcb⟩ := updateValues_total hlen
    have hsome : s.getRCBValues svc con ref none =
        .ok (some rcb, (s.call fun w => svc.readRCB w con ref).2) := by
      unfold LinkState.getRCBValues
      simp only [call, hread, Option.getD_none, hrcb, ok_bind]
      rfl
    obtain ⟨-, -, -, hfields⟩ := updateValues_ok hrcb
    obtain ⟨v, -, hopt⟩ := hfields .optFlds
    rw [hsome, ok_bind]
    dsimp only
    split
    · rename_i _ heq
      cases heq
      rw [failsOnly_bind]
      exact ⟨overflowsOnly_rcbChildren hopt _ _, fun _ _ => failsOnly_pure _⟩
    · exact failsOnly_pure _

/-! ## Controllable objects -/

/-- The specification asked for when an `Oper` is found delivers. -/
def ControlDelivers (svc : IedService W) (con : ConnId) (refSize : Option ℕ) (w : W)
    (doRef : Str) : Prop :=
  ∀ entry, (svc.getDataDirectoryFC w con doRef).1.bind stValEntry = some entry →
    FitsIn refSize (doRef ++ ".stVal".toList) → entryFC entry ≠ .NONE →
    (svc.getVariableSpecification (svc.getDataDirectoryFC w con doRef).2 con
      (doRef ++ ".stVal".toList) (entryFC entry)).1.isSome = true

theorem overflowsOnly_handleControllableNode (refSize : Option ℕ) (s : LinkState σ W) (node : Path)
    (doRef : Str) : FailsOnly IsOverflow (handleControllableNode svc con refSize s node doRef) ↔
      ControlDelivers svc con refSize s.world doRef := by
  unfold handleControllableNode ControlDelivers
  dsimp only
  cases hentry : (svc.getDataDirectoryFC s.world con doRef).1.bind stValEntry with
  | none =>
    simp only [call, hentry]
    exact iff_of_true (failsOnly_pure _) fun _ h => by cases h
  | some entry =>
    simp only [call, hentry, Option.some.injEq, forall_eq']
    rw [overflowsOnly_storeIn_bind]
    apply imp_congr_right
    intro _
    have hfc : (getFunctionalConstraint entry).computed = entryFC entry := rfl
    rw [hfc]
    by_cases hnone : entryFC entry = .NONE
    · rw [if_pos hnone]
      exact iff_of_true (failsOnly_pure _) fun h => absurd hnone h
    · rw [if_neg hnone, failsOnly_bind, overflowsOnly_deref]
      constructor
      · exact fun h _ => h.1
      · intro h
        refine ⟨h hnone, fun type _ => ?_⟩
        split_ifs <;> exact failsOnly_pure _

/-! ## The walk -/

/-- The specifications asked for because of an entry deliver. -/
def EntryDelivers (svc : IedService W) (con : ConnId) (refSize : Option ℕ) (doRef : Str) (w : W)
    (entry : Str) : Prop :=
  FitsIn refSize (entryRef doRef entry) →
    if entryFC entry = .NONE then
      entryName entry = "Oper".toList → ControlDelivers svc con refSize w doRef
    else
      (svc.getVariableSpecification w con (entryRef doRef entry) (entryFC entry)).1.isSome = true ∧
        (entryName entry = "Oper".toList → ControlDelivers svc con refSize
          (svc.getVariableSpecification w con (entryRef doRef entry) (entryFC entry)).2 doRef)

theorem overflowsOnly_discoverEntry (refSize : Option ℕ) (node : Path) (doRef : Str)
    (s : LinkState σ W)
    (entry : Str) : FailsOnly IsOverflow (discoverEntry svc con refSize node doRef s entry) ↔
      EntryDelivers svc con refSize doRef s.world entry := by
  unfold discoverEntry EntryDelivers
  dsimp only
  rw [overflowsOnly_storeIn_bind]
  apply imp_congr_right
  intro _
  have hoper (s : LinkState σ W) : FailsOnly IsOverflow
      (if entryName entry = "Oper".toList then handleControllableNode svc con refSize s node doRef
        else pure s) ↔
        (entryName entry = "Oper".toList → ControlDelivers svc con refSize s.world doRef) := by
    split_ifs with h
    · rw [overflowsOnly_handleControllableNode]
      exact ⟨fun hc _ => hc, fun hc => hc h⟩
    · exact iff_of_true (failsOnly_pure _) fun h' => absurd h' h
  by_cases hnone : entryFC entry = .NONE
  · rw [if_pos hnone, if_pos hnone, pure_bind]
    exact hoper _
  · rw [if_neg hnone, if_neg hnone]
    simp only [call, pure_bind]
    rw [failsOnly_bind, overflowsOnly_deref]
    apply and_congr_right
    intro hsome
    obtain ⟨type, htype⟩ := Option.isSome_iff_exists.1 hsome
    constructor
    · intro h
      exact (hoper _).1 (h type (deref_eq_ok.2 htype))
    · intro h type _
      exact (hoper _).2 h

/-- The constraint and the reference below a node are texts when they are there. -/
def Readable (t : σ) (node : Path) : Prop :=
  ∀ fcStr ref, attributeOf t node = some (fcStr, ref) → fcStr.isSome = true ∧ ref.isSome = true

/-- The child is a text. -/
def IsText (c : Str × DSNode) : Prop := ∃ s, c.2.value = .string s

theorem readable_withChildren {t : σ} {node : Path} {n : DSNode} {children : List (Str × DSNode)}
    (hsub : sub t node = withChildren (Subtree.leaf n) children)
    (htext : ∀ c ∈ children, c.1 = "FC".toList ∨ c.1 = "Object".toList → IsText c) :
    Readable t node := by
  have hvalue {k : Str} (hk : k = "FC".toList ∨ k = "Object".toList) {p : Path}
      (h : child t node k = some p) : (Json.stringValue (valueOf t p)).isSome = true := by
    obtain ⟨rfl, hlive⟩ := child_eq_some.1 h
    obtain ⟨m, hm⟩ := Option.isSome_iff_exists.1 hlive
    have hm' : sub t node [k] = some m := hm
    rw [hsub] at hm'
    obtain ⟨s, hs⟩ := htext (k, m) (mem_of_withChildren_leaf hm').2 hk
    have hs' : m.value = .string s := hs
    rw [valueOf, hm, Option.map_some, hs']
    rfl
  intro fcStr ref h
  unfold attributeOf at h
  split at h
  · rename_i hfc href
    cases h
    exact ⟨hvalue (.inl rfl) hfc, hvalue (.inr rfl) href⟩
  · cases h

theorem readable_createDONode (t : σ) (node : Path) (ref name : Str) :
    Readable (createDONode t node ref name) (node ++ [name]) := by
  apply readable_withChildren (grafts_createDONode t node ref name).sub_eq
  intro c hc _
  rw [List.mem_singleton] at hc
  exact hc ▸ ⟨ref, rfl⟩

theorem daNodeChildren_text {daRef fcStr type : Str} {fc : FunctionalConstraint}
    (hfc : fc ≠ .NONE) :
    ∀ c ∈ daNodeChildren daRef fcStr fc type, c.1 = "FC".toList ∨ c.1 = "Object".toList →
      IsText c := by
  intro c hc hk
  have htype : ¬ ("Type".toList = "FC".toList ∨ "Type".toList = "Object".toList) := by decide
  have hadd : ¬ ("adddataset".toList = "FC".toList ∨ "adddataset".toList = "Object".toList) := by
    decide
  rw [daNodeChildren_of_ne hfc] at hc
  simp only [List.mem_cons, List.not_mem_nil, or_false] at hc
  rcases hc with rfl | rfl | rfl | rfl | rfl
  · exact ⟨_, rfl⟩
  · exact absurd hk htype
  · exact ⟨_, rfl⟩
  · exact ⟨_, rfl⟩
  · exact absurd hk hadd

/-- The node of a new entry. -/
theorem discoverEntry_readable {refSize : Option ℕ} {node : Path} {doRef entry : Str}
    {s s₁ : LinkState σ W} (h : discoverEntry svc con refSize node doRef s entry = .ok s₁) :
    Readable s₁.tree (node ++ [entryKey entry]) := by
  -- the children of a controllable object have other keys
  have hcontrol {s s₁ : LinkState σ W} {k : Str} {F : Subtree} (hoper : entryName k = "Oper".toList)
      (h : handleControllableNode svc con refSize s node doRef = .ok s₁)
      (hsub : sub s.tree (node ++ [k]) = F) : sub s₁.tree (node ++ [k]) = F := by
    obtain ⟨added, hadded, htree, -⟩ := handleControllableNode_ok h
    rw [← hsub, htree]
    funext r
    have hgraft := (grafts_addChildren s.tree node added).sub_eq
    rw [sub_append, hgraft, List.singleton_append, withChildren_of_not_mem, sub_append]
    · rfl
    · rintro c hc rfl
      rcases hadded with rfl | ⟨type, rfl⟩
      · cases hc
      · have hcontrolKey : entryName "control".toList ≠ "Oper".toList := by decide
        have hobjectKey : entryName "Object".toList ≠ "Oper".toList := by decide
        simp only [controlChildren, List.mem_cons, List.not_mem_nil, or_false] at hc
        rcases hc with rfl | rfl
        · exact hcontrolKey hoper
        · exact hobjectKey hoper
  unfold discoverEntry at h
  obtain ⟨_, -, h⟩ := bind_eq_ok.1 h
  dsimp only at h
  by_cases hnone : entryFC entry = .NONE
  · have hkey : entryKey entry = entryName entry := if_pos hnone
    rw [if_pos hnone, pure_bind] at h
    rw [hkey]
    have hsub := (grafts_createDONode s.tree node (entryRef doRef entry) (entryName entry)).sub_eq
    have htext : ∀ c ∈ [("Reference".toList,
        DSNode.shown "string".toList (.string (entryRef doRef entry)))],
        c.1 = "FC".toList ∨ c.1 = "Object".toList → IsText c := by
      intro c hc _
      rw [List.mem_singleton] at hc
      exact hc ▸ ⟨_, rfl⟩
    split_ifs at h with hoper
    · have hname : entryName (entryName entry) = "Oper".toList := by
        rw [hoper]
        decide
      exact readable_withChildren (hcontrol hname h hsub) htext
    · cases h
      exact readable_withChildren hsub htext
  · have hkey : entryKey entry = entry := if_neg hnone
    rw [if_neg hnone] at h
    rw [hkey]
    obtain ⟨type, -, h⟩ := bind_eq_ok.1 h
    rw [pure_bind] at h
    have hsub := (grafts_addChild_addChildren s.tree node entry daNode
      (daNodeChildren (entryRef doRef entry) ((getFunctionalConstraint entry).fcStr.getD [])
        (entryFC entry) type.typeString)).sub_eq
    split_ifs at h with hoper
    · exact readable_withChildren (hcontrol hoper h hsub) (daNodeChildren_text hnone)
    · cases h
      exact readable_withChildren hsub (daNodeChildren_text hnone)

theorem overflowsOnly_discoverLeaf {s : LinkState σ W} {node : Path} (h : Readable s.tree node) :
    FailsOnly IsOverflow (discoverLeaf svc con s node) := by
  unfold discoverLeaf
  split
  · exact failsOnly_ok _
  · rename_i fcStr ref hattr
    obtain ⟨hfc, href⟩ := h fcStr ref hattr
    rw [failsOnly_bind, overflowsOnly_deref]
    refine ⟨hfc, fun code _ => ?_⟩
    dsimp only
    split_ifs
    · exact failsOnly_pure _
    · rw [failsOnly_bind, overflowsOnly_deref]
      refine ⟨href, fun _ _ => ?_⟩
      split <;> exact failsOnly_pure _

/-- One round of the walk. -/
def walkRound (svc : IedService W) (con : ConnId) (refSize : Option ℕ) (depth : ℕ) (node : Path)
    (doRef : Str) (s : LinkState σ W) (entry : Str) : Except Fault (LinkState σ W) := do
  let s ← discoverEntry svc con refSize node doRef s entry
  discoverDataDirectory svc con refSize depth s (node ++ [entryKey entry]) (entryRef doRef entry)
    (entryFC entry)

/-- The specifications asked for during a walk deliver. -/
def WalkDelivers (svc : IedService W) (con : ConnId) (refSize : Option ℕ) :
    ℕ → LinkState σ W → Path → Str → FunctionalConstraint → Prop
  | 0, _, _, _, _ => True
  | depth + 1, s, node, doRef, inFC =>
    ∀ entries, (dataDirectory svc con doRef inFC s.world).1 = some entries →
      Along (walkRound svc con refSize depth node doRef) (fun s entry =>
        EntryDelivers svc con refSize doRef s.world entry ∧
          ∀ s₁, discoverEntry svc con refSize node doRef s entry = .ok s₁ →
            WalkDelivers svc con refSize depth s₁ (node ++ [entryKey entry]) (entryRef doRef entry)
              (entryFC entry))
        (s.call (dataDirectory svc con doRef inFC)).2 entries

/-- A reference that was stored leaves the walk at most as deep as `maxDepth`. -/
theorem overflowsOnly_discoverDataDirectory (depth : ℕ) :
    ∀ (s : LinkState σ W) (node : Path) (doRef : Str) (inFC : FunctionalConstraint),
      Readable s.tree node → doRef.length < 129 → maxDepth ≤ doRef.length + depth →
      (FailsOnly IsOverflow (discoverDataDirectory svc con (some 129) depth s node doRef inFC) ↔
        WalkDelivers svc con (some 129) depth s node doRef inFC) := by
  induction depth with
  | zero =>
    intro s node doRef inFC _ hlt hle
    unfold maxDepth at hle
    omega
  | succ depth ih =>
    intro s node doRef inFC hreadable hlt hle
    unfold discoverDataDirectory WalkDelivers
    dsimp only
    cases hreply : (dataDirectory svc con doRef inFC s.world).1 with
    | none =>
      simp only [call, hreply]
      exact iff_of_true (failsOnly_pure _) fun _ h => by cases h
    | some entries =>
      simp only [Option.some.injEq, forall_eq']
      cases entries with
      | nil =>
        simp only [call, hreply]
        exact iff_of_true (overflowsOnly_discoverLeaf hreadable) trivial
      | cons e es =>
        simp only [call, hreply]
        rw [failsOnly_foldlM]
        apply along_congr
        intro s entry _
        rw [failsOnly_bind, overflowsOnly_discoverEntry]
        apply and_congr_right
        intro _
        apply forall_congr'
        intro s₁
        apply imp_congr_right
        intro hentry
        have hstored : (entryRef doRef entry).length < 129 := by
          unfold discoverEntry at hentry
          obtain ⟨_, hfits, -⟩ := bind_eq_ok.1 hentry
          exact storeIn_eq_ok.1 hfits 129 rfl
        have hlonger : doRef.length < (entryRef doRef entry).length := by
          rw [entryRef, List.length_append, List.length_cons]
          omega
        exact ih s₁ _ _ _ (discoverEntry_readable hentry) hstored (by omega)

/-! ## The whole discovery -/

/-- A list delivers, and so do the calls made for its names. -/
def ListDelivers (f : LinkState σ W → Str → Except Fault (LinkState σ W))
    (Q : LinkState σ W → Str → Prop) (reply : Option (List Str) × LinkState σ W) : Prop :=
  reply.1.isSome = true ∧ ∀ names, reply.1 = some names → Along f Q reply.2 names

omit [DSLink σ] in
theorem overflowsOnly_forEach {f : LinkState σ W → Str → Except Fault (LinkState σ W)}
    {Q : LinkState σ W → Str → Prop} (h : ∀ s n, FailsOnly IsOverflow (f s n) ↔ Q s n)
    (reply : Option (List Str) × LinkState σ W) :
    FailsOnly IsOverflow (forEach f reply) ↔ ListDelivers f Q reply := by
  unfold forEach ListDelivers
  rw [failsOnly_bind, overflowsOnly_deref]
  apply and_congr_right
  intro _
  apply forall_congr'
  intro names
  rw [deref_eq_ok, failsOnly_foldlM, along_congr fun s n _ => h s n]

omit [DSLink σ] in
/-- A loop whose rounds make no call of the second kind. -/
theorem overflowsOnly_forEach_isSome {f : LinkState σ W → Str → Except Fault (LinkState σ W)}
    (h : ∀ s n, FailsOnly IsOverflow (f s n)) (reply : Option (List Str) × LinkState σ W) :
    FailsOnly IsOverflow (forEach f reply) ↔ reply.1.isSome = true := by
  rw [overflowsOnly_forEach fun s n => iff_true_intro (h s n)]
  exact ⟨And.left, fun hsome => ⟨hsome, fun _ _ => along_of_forall fun _ _ _ => trivial⟩⟩

/-- The calls made for a data object deliver. -/
def DataObjectDelivers (svc : IedService W) (con : ConnId) (newLNNode : Path) (lnRef : Str)
    (s : LinkState σ W) (name : Str) : Prop :=
  FitsIn (some 129) (lnRef ++ '.' :: name) →
    WalkDelivers svc con (some 129) maxDepth
      { s with tree := createDONode s.tree newLNNode (lnRef ++ '.' :: name) name }
        (newLNNode ++ [name])
      (lnRef ++ '.' :: name) .NONE

theorem overflowsOnly_discoverDataObject (newLNNode : Path) (lnRef : Str) (s : LinkState σ W)
    (name : Str) : FailsOnly IsOverflow (discoverDataObject svc con newLNNode lnRef s name) ↔
      DataObjectDelivers svc con newLNNode lnRef s name := by
  unfold discoverDataObject DataObjectDelivers
  dsimp only
  rw [overflowsOnly_storeIn_bind]
  apply imp_congr_right
  intro hfits
  refine overflowsOnly_discoverDataDirectory maxDepth _ _ _ _ (readable_createDONode _ _ _ _)
    (hfits 129 rfl) ?_
  omega

/-- The directory of a logical node. -/
def nodeDirectory (svc : IedService W) (con : ConnId) (lnRef : Str) (s : LinkState σ W)
    (acsiClass : AcsiClass) : Option (List Str) × LinkState σ W :=
  s.call fun w => svc.getLogicalNodeDirectory w con lnRef acsiClass

/-- The calls made for a logical node deliver. -/
def NodeDelivers (svc : IedService W) (con : ConnId) (node : Path) (ld : Str) (s : LinkState σ W)
    (ln : Str) : Prop :=
  let lnRef := ld ++ '/' :: ln
  let lnNode := node ++ [ldKey ld] ++ [ln]
  let s₀ := { s with tree := createLNNode s.tree (node ++ [ldKey ld]) lnRef ln }
  FitsIn (some 129) lnRef →
    ListDelivers (discoverDataObject svc con lnNode lnRef) (DataObjectDelivers svc con lnNode lnRef)
      (nodeDirectory svc con lnRef s₀ .dataObject) ∧
    ∀ s₁, forEach (discoverDataObject svc con lnNode lnRef)
        (nodeDirectory svc con lnRef s₀ .dataObject) = .ok s₁ →
      (nodeDirectory svc con lnRef s₁ .dataSet).1.isSome = true ∧
      ∀ s₂, forEach (discoverDataSet svc con lnNode lnRef)
          (nodeDirectory svc con lnRef s₁ .dataSet) = .ok s₂ →
        (nodeDirectory svc con lnRef s₂ .urcb).1.isSome = true ∧
        ∀ s₃, forEach (discoverReport svc con node false lnRef)
            (nodeDirectory svc con lnRef s₂ .urcb) = .ok s₃ →
          (nodeDirectory svc con lnRef s₃ .brcb).1.isSome = true

theorem overflowsOnly_discoverLogicalNode (h : RepliesComplete svc con) (node : Path) (ld : Str)
    (s : LinkState σ W) (ln : Str) :
    FailsOnly IsOverflow (discoverLogicalNode svc con node ld s ln) ↔
      NodeDelivers svc con node ld s ln := by
  unfold discoverLogicalNode NodeDelivers nodeDirectory
  dsimp only
  rw [overflowsOnly_storeIn_bind]
  apply imp_congr_right
  intro _
  rw [failsOnly_bind, overflowsOnly_forEach (overflowsOnly_discoverDataObject _ _)]
  apply and_congr_right
  intro _
  apply forall_congr'
  intro s₁
  apply imp_congr_right
  intro _
  rw [failsOnly_bind, overflowsOnly_forEach_isSome (overflowsOnly_discoverDataSet h _ _)]
  apply and_congr_right
  intro _
  apply forall_congr'
  intro s₂
  apply imp_congr_right
  intro _
  rw [failsOnly_bind, overflowsOnly_forEach_isSome (overflowsOnly_discoverReport h _ _ _)]
  apply and_congr_right
  intro _
  apply forall_congr'
  intro s₃
  rw [overflowsOnly_forEach_isSome (overflowsOnly_discoverReport h _ _ _)]

/-- The calls made for a logical device deliver. -/
def DeviceDelivers (svc : IedService W) (con : ConnId) (node : Path) (s : LinkState σ W)
    (ld : Str) : Prop :=
  FitsIn (some 129) (ldKey ld) →
    ListDelivers (discoverLogicalNode svc con node ld) (NodeDelivers svc con node ld)
      ({ s with tree := addChild s.tree node (ldKey ld) (folderNode ld) }.call fun w =>
        svc.getLogicalDeviceDirectory w con ld)

theorem overflowsOnly_discoverLogicalDevice (h : RepliesComplete svc con) (node : Path)
    (s : LinkState σ W) (ld : Str) :
    FailsOnly IsOverflow (discoverLogicalDevice svc con node s ld) ↔
      DeviceDelivers svc con node s ld := by
  unfold discoverLogicalDevice createLDNode DeviceDelivers
  rw [bind_assoc, overflowsOnly_storeIn_bind]
  apply imp_congr_right
  intro _
  rw [pure_bind]
  exact overflowsOnly_forEach (overflowsOnly_discoverLogicalNode h node ld) _

/-- The calls made during a discovery and used without a test deliver: the
directory of each device, the four directories of each node, and the specification
of each attribute and of each controllable status. -/
def DiscoveryDelivers (svc : IedService W) (s : LinkState σ W) (node : Path)
    (con : ConnId) : Prop :=
  ∀ devices, (svc.getLogicalDeviceList s.world con).1 = some devices →
    Along (discoverLogicalDevice svc con node) (DeviceDelivers svc con node)
      ({ s with tree := createDatasetReportNodes s.tree node }.call fun w =>
        svc.getLogicalDeviceList w con).2 devices

/-- **Failed calls.** Apart from texts that do not fit, a discovery runs to its end
exactly when the calls that it does not test deliver. -/
theorem discovery_ends_iff (h : RepliesComplete svc con) (s : LinkState σ W) (node : Path) :
    FailsOnly IsOverflow (discover61850Server svc s node con) ↔
      DiscoveryDelivers svc s node con := by
  unfold discover61850Server DiscoveryDelivers
  dsimp only
  cases hreply : (svc.getLogicalDeviceList s.world con).1 with
  | none =>
    simp only [call, hreply]
    exact iff_of_true (failsOnly_ok _) fun _ h => by cases h
  | some devices =>
    simp only [call, hreply, Option.some.injEq, forall_eq']
    rw [failsOnly_foldlM, along_congr fun s ld _ => overflowsOnly_discoverLogicalDevice h node s ld]

/-! ## A server that does not list its data sets -/

/-- The server with the control block; the list of its named variable lists is refused. -/
def noDataSets : IedService Unit := blockServer.service fun _ => none

theorem repliesComplete_noDataSets (con : ConnId) : RepliesComplete noDataSets con :=
  ⟨fun _ _ _ h => (by cases h), fun _ _ _ h => (by cases h)⟩

/-- A link with a server node. -/
def serverLink : LinkState NodeStore Unit :=
  { tree := addChild NodeStore.empty [] "srv_a".toList .create, serverMap := [], connections := [],
    nextConn := 1, world := (), requests := [] }

theorem discovery_ends_iff_noDataSets :
    FailsOnly IsOverflow (discover61850Server noDataSets serverLink ["srv_a".toList] 0) ↔
      DiscoveryDelivers noDataSets serverLink ["srv_a".toList] 0 :=
  discovery_ends_iff (repliesComplete_noDataSets 0) serverLink ["srv_a".toList]

/-- The list of data sets that was not delivered is used. -/
theorem discovery_noDataSets :
    (noDataSets.getLogicalNodeDirectory () 0 "D/N".toList .dataSet).1 = none ∧
    discover61850Server noDataSets serverLink ["srv_a".toList] 0 = .error .nullDereference ∧
      ¬ FailsOnly IsOverflow (discover61850Server noDataSets serverLink ["srv_a".toList] 0) := by
  have hrun : discover61850Server noDataSets serverLink ["srv_a".toList] 0 =
      .error .nullDereference := rfl
  refine ⟨rfl, hrun, ?_⟩
  rw [hrun, failsOnly_error]
  intro h
  cases h

end DslinkIec61850
