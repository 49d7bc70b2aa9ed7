import DslinkIec61850.Discovery.Shape
import DslinkIec61850.Link.Actions

/-!
# The entries of `serverMap`

Only the actions on servers change `serverMap` and make connections.

* `linkEvent_keepsEntries`: every other event leaves both.
-/

namespace DslinkIec61850

open DSLink LinkState Run

variable {σ W : Type} {svc : IedService W} {s s' s'' : LinkState σ W}

/-! ## What other functions keep -/

/-- `serverMap` and the number of connections made so far are the same. -/
structure KeepsEntries (s s' : LinkState σ W) : Prop where
  serverMap_eq : s'.serverMap = s.serverMap
  nextConn_eq : s'.nextConn = s.nextConn

namespace KeepsEntries

theorem refl (s : LinkState σ W) : KeepsEntries s s := ⟨rfl, rfl⟩

theorem trans (h : KeepsEntries s s') (h' : KeepsEntries s' s'') : KeepsEntries s s'' :=
  ⟨h'.serverMap_eq.trans h.serverMap_eq, h'.nextConn_eq.trans h.nextConn_eq⟩

theorem of_treeStep (h : TreeStep s s') : KeepsEntries s s' := ⟨h.serverMap_eq, h.nextConn_eq⟩

/-- A function that only gives a new tree. -/
theorem of_setTree {x : Except Fault σ} (h : (do return { s with tree := ← x }) = .ok s') :
    KeepsEntries s s' := by
  obtain ⟨t, -, h⟩ := bind_eq_ok.1 h
  cases h
  exact ⟨rfl, rfl⟩

end KeepsEntries

variable [DSLink σ] {node : Path} {params : Json} {con : ConnId}

/-! ## Discovery -/

theorem discoverDataObjects_keepsEntries {lnNode : Path} {lnRef name : Str}
    (h : discoverDataObject svc con lnNode lnRef s name = .ok s') : KeepsEntries s s' := by
  unfold discoverDataObject at h
  obtain ⟨_, -, h⟩ := bind_eq_ok.1 h
  have hstep := (discoverDataDirectory_touches _ _ _ _ _ _ h).2
  exact ⟨hstep.serverMap_eq, hstep.nextConn_eq⟩

theorem discoverDataSet_keepsEntries {lnNode : Path} {lnRef name : Str}
    (h : discoverDataSet svc con lnNode lnRef s name = .ok s') : KeepsEntries s s' := by
  unfold discoverDataSet at h
  obtain ⟨_, -, h⟩ := bind_eq_ok.1 h
  obtain ⟨⟨found, s₁⟩, h₁, h⟩ := bind_eq_ok.1 h
  cases h
  exact .of_treeStep (getDatasetInfoFromServerCreateNode_ok h₁).1

theorem discoverReport_keepsEntries {isBuffered : Bool} {lnRef name : Str}
    (h : discoverReport svc con node isBuffered lnRef s name = .ok s') : KeepsEntries s s' := by
  unfold discoverReport at h
  obtain ⟨_, -, h⟩ := bind_eq_ok.1 h
  obtain ⟨⟨created, s₁⟩, h₁, h⟩ := bind_eq_ok.1 h
  cases h
  rcases getRCBInfoAndCreateNode_ok h₁ with
    ⟨-, -, hstep⟩ | ⟨-, folder, rcb, cs, s₂, -, -, -, hcreated⟩
  · exact .of_treeStep hstep
  · exact ⟨hcreated.serverMap_eq, hcreated.nextConn_eq⟩

omit [DSLink σ] in
theorem forEach_keepsEntries {f : LinkState σ W → Str → Except Fault (LinkState σ W)}
    {call : W → Option (List Str) × W} (hf : ∀ s s' n, f s n = .ok s' → KeepsEntries s s')
    (h : forEach f (s.call call) = .ok s') : KeepsEntries s s' := by
  obtain ⟨names, -, h⟩ := bind_eq_ok.1 h
  refine foldlM_invariant (I := fun s' => KeepsEntries s s') ?_ h (.of_treeStep (TreeStep.call _ _))
  intro n _ s₁ s₂ hkeeps hn
  exact hkeeps.trans (hf s₁ s₂ n hn)

theorem discoverLogicalNode_keepsEntries {ld ln : Str}
    (h : discoverLogicalNode svc con node ld s ln = .ok s') : KeepsEntries s s' := by
  unfold discoverLogicalNode at h
  obtain ⟨_, -, h⟩ := bind_eq_ok.1 h
  dsimp only at h
  obtain ⟨s₁, h₁, h⟩ := bind_eq_ok.1 h
  obtain ⟨s₂, h₂, h⟩ := bind_eq_ok.1 h
  obtain ⟨s₃, h₃, h₄⟩ := bind_eq_ok.1 h
  have hloop := forEach_keepsEntries (fun _ _ _ hn => discoverDataObjects_keepsEntries hn) h₁
  have hobjects : KeepsEntries s s₁ := ⟨hloop.serverMap_eq, hloop.nextConn_eq⟩
  have hsets := forEach_keepsEntries (fun _ _ _ hn => discoverDataSet_keepsEntries hn) h₂
  have hurcbs := forEach_keepsEntries (fun _ _ _ hn => discoverReport_keepsEntries hn) h₃
  have hbrcbs := forEach_keepsEntries (fun _ _ _ hn => discoverReport_keepsEntries hn) h₄
  exact (hobjects.trans hsets).trans (hurcbs.trans hbrcbs)

theorem discover61850Server_keepsEntries (h : discover61850Server svc s node con = .ok s') :
    KeepsEntries s s' := by
  unfold discover61850Server at h
  dsimp only at h
  split at h
  · cases h
    exact ⟨rfl, rfl⟩
  · refine foldlM_invariant (I := fun s' => KeepsEntries s s') ?_ h ⟨rfl, rfl⟩
    intro ld _ s₁ s₂ hkeeps hround
    unfold discoverLogicalDevice at hround
    obtain ⟨t, -, hround⟩ := bind_eq_ok.1 hround
    have hnodes := forEach_keepsEntries (fun _ _ _ hn => discoverLogicalNode_keepsEntries hn) hround
    exact hkeeps.trans ⟨hnodes.serverMap_eq, hnodes.nextConn_eq⟩

/-! ## The other actions -/

theorem removeDatasetAction_keepsEntries (h : removeDatasetAction svc s node = .ok s') :
    KeepsEntries s s' := by
  unfold removeDatasetAction at h
  obtain ⟨iedConn, -, h⟩ := bind_eq_ok.1 h
  obtain ⟨dsRef, -, h⟩ := bind_eq_ok.1 h
  split at h
  · dsimp only at h
    split at h
    · cases h
      exact ⟨rfl, rfl⟩
    · cases h
      exact ⟨rfl, rfl⟩
  · cases h
    exact .refl s

theorem createDsOnserverAction_keepsEntries (h : createDsOnserverAction svc s node = .ok s') :
    KeepsEntries s s' := by
  unfold createDsOnserverAction at h
  obtain ⟨members, -, h⟩ := bind_eq_ok.1 h
  obtain ⟨dsRef, -, h⟩ := bind_eq_ok.1 h
  split at h
  · cases h
    exact .refl s
  · obtain ⟨iedConn?, -, h⟩ := bind_eq_ok.1 h
    obtain ⟨iedConn, -, h⟩ := bind_eq_ok.1 h
    obtain ⟨ref, -, h⟩ := bind_eq_ok.1 h
    dsimp only at h
    split at h
    · obtain ⟨⟨found, s₁⟩, h₁, h⟩ := bind_eq_ok.1 h
      have hstep := (getDatasetInfoFromServerCreateNode_ok h₁).1
      dsimp only at h
      split at h
      · cases h
        exact ⟨hstep.serverMap_eq, hstep.nextConn_eq⟩
      · cases h
        exact ⟨hstep.serverMap_eq, hstep.nextConn_eq⟩
    · cases h
      exact ⟨rfl, rfl⟩

theorem writeAttribute_keepsEntries {readBack : Bool}
    (h : writeAttribute svc s node params = .ok (s', readBack)) : KeepsEntries s s' := by
  unfold writeAttribute at h
  split at h
  · cases h
    exact .refl s
  · obtain ⟨fc, -, h⟩ := bind_eq_ok.1 h
    obtain ⟨con, -, h⟩ := bind_eq_ok.1 h
    split at h
    · cases h
      exact .refl s
    · obtain ⟨ref, -, h⟩ := bind_eq_ok.1 h
      dsimp only at h
      split at h
      · cases h
        exact ⟨rfl, rfl⟩
      · obtain ⟨value, -, h⟩ := bind_eq_ok.1 h
        split at h
        · cases h
          exact ⟨rfl, rfl⟩
        · cases h
          exact ⟨rfl, rfl⟩

theorem daValueWriteAction_keepsEntries (h : daValueWriteAction svc s node params = .ok s') :
    KeepsEntries s s' := by
  unfold daValueWriteAction at h
  obtain ⟨⟨s₁, readBack⟩, h₁, h⟩ := bind_eq_ok.1 h
  have hwrite := writeAttribute_keepsEntries h₁
  dsimp only at h
  split at h
  · exact hwrite.trans (.of_treeStep (nodeValueRead_treeStep h))
  · cases h
    exact hwrite

omit [DSLink σ] in
theorem controlObjectCreate_keepsEntries (svc : IedService W) (s : LinkState σ W) (con : ConnId)
    (ref : Str) : KeepsEntries s (controlObjectCreate svc s con ref).2 := by
  unfold controlObjectCreate
  split_ifs
  · dsimp only
    split
    · exact ⟨rfl, rfl⟩
    · exact ⟨rfl, rfl⟩
  · exact .refl s

omit [DSLink σ] in
theorem performControl_keepsEntries (svc : IedService W) (s : LinkState σ W) (con : ConnId)
    (control : ControlObject) (v : MmsValue) :
    KeepsEntries s (performControl svc s con control v) := by
  unfold performControl
  dsimp only
  split
  · exact ⟨rfl, rfl⟩
  · split_ifs
    · exact ⟨rfl, rfl⟩
    · exact ⟨rfl, rfl⟩
  · exact ⟨rfl, rfl⟩
  · split_ifs
    · exact ⟨rfl, rfl⟩
    · exact ⟨rfl, rfl⟩
  · exact .refl s
  · exact .refl s

theorem controlAction_keepsEntries (h : controlAction svc s node params = .ok s') :
    KeepsEntries s s' := by
  unfold controlAction at h
  obtain ⟨⟨call, s₁⟩, h₁, h⟩ := bind_eq_ok.1 h
  have hbegin : KeepsEntries s s₁ := by
    unfold beginControl at h₁
    split at h₁
    · cases h₁
      exact .refl s
    · obtain ⟨iedConn, -, h₁⟩ := bind_eq_ok.1 h₁
      split at h₁
      · cases h₁
        exact .refl s
      · obtain ⟨ref, -, h₁⟩ := bind_eq_ok.1 h₁
        dsimp only at h₁
        obtain ⟨typeStr, -, h₁⟩ := bind_eq_ok.1 h₁
        split at h₁
        · cases h₁
          exact controlObjectCreate_keepsEntries svc s _ ref
        · cases h₁
          exact controlObjectCreate_keepsEntries svc s _ ref
  dsimp only at h
  split at h
  · cases h
    exact hbegin
  · obtain ⟨control, -, h⟩ := bind_eq_ok.1 h
    obtain ⟨s₂, h₂, h⟩ := bind_eq_ok.1 h
    cases h
    have hstVal := KeepsEntries.of_treeStep (setControlStVal_treeStep h₂)
    have hend : KeepsEntries s s₂ :=
      (hbegin.trans (performControl_keepsEntries svc s₁ _ control _)).trans hstVal
    exact ⟨hend.serverMap_eq, hend.nextConn_eq⟩

theorem setRcbElement_keepsEntries {element : RcbElement}
    {update : ClientReportControlBlock → ClientReportControlBlock}
    {key : Str} {shown : Except Fault (Option Json)}
    (h : setRcbElement svc s node element update key shown = .ok s') : KeepsEntries s s' := by
  unfold setRcbElement at h
  obtain ⟨iedConn, -, h⟩ := bind_eq_ok.1 h
  obtain ⟨rcbRef, -, h⟩ := bind_eq_ok.1 h
  obtain ⟨rcb, -, h⟩ := bind_eq_ok.1 h
  split at h
  · obtain ⟨v, -, h⟩ := bind_eq_ok.1 h
    obtain ⟨t, -, h⟩ := bind_eq_ok.1 h
    dsimp only at h
    split at h
    · cases h
      exact ⟨rfl, rfl⟩
    · obtain ⟨⟨read, s₁⟩, h₁, h⟩ := bind_eq_ok.1 h
      obtain ⟨t', -, h⟩ := bind_eq_ok.1 h
      cases h
      have hstep := (getRCBValues_ok h₁).2
      exact ⟨hstep.serverMap_eq, hstep.nextConn_eq⟩
  · cases h
    exact .refl s

theorem readRCBAction_keepsEntries (h : readRCBAction svc s node = .ok s') : KeepsEntries s s' := by
  unfold readRCBAction at h
  obtain ⟨iedConn, -, h⟩ := bind_eq_ok.1 h
  obtain ⟨rcbRef, -, h⟩ := bind_eq_ok.1 h
  obtain ⟨rcb, -, h⟩ := bind_eq_ok.1 h
  split at h
  · obtain ⟨⟨read, s₁⟩, h₁, h⟩ := bind_eq_ok.1 h
    have hread := KeepsEntries.of_treeStep (getRCBValues_ok h₁).2
    dsimp only at h
    split at h
    · cases h
      exact hread
    · obtain ⟨t', -, h⟩ := bind_eq_ok.1 h
      cases h
      exact ⟨hread.serverMap_eq, hread.nextConn_eq⟩
  · cases h
    exact .refl s

theorem forceGIRCBAction_keepsEntries (h : forceGIRCBAction svc s node = .ok s') :
    KeepsEntries s s' := by
  unfold forceGIRCBAction at h
  obtain ⟨iedConn, -, h⟩ := bind_eq_ok.1 h
  obtain ⟨rcbRef, -, h⟩ := bind_eq_ok.1 h
  obtain ⟨rcb, -, h⟩ := bind_eq_ok.1 h
  split at h
  · cases h
    exact ⟨rfl, rfl⟩
  · cases h
    exact .refl s

theorem handleReport_keepsEntries {message : ReportMessage}
    (h : handleReport s con message = .ok s') : KeepsEntries s s' := by
  unfold handleReport at h
  split at h
  · cases h
    exact .refl s
  · obtain ⟨delivered, -, h⟩ := bind_eq_ok.1 h
    split at h
    · cases h
      exact .refl s
    · obtain ⟨t', refs, -, rfl⟩ := reportCallbackFunction_ok h
      exact ⟨rfl, rfl⟩

/-! ## Any event -/

/-- The event runs one of the actions that change `serverMap`. -/
def ChangesEntries (t : σ) : LinkEvent → Prop
  | .addServer _ => True
  | .invoke node _ => Invokes t node .editServerAction ∨ Invokes t node .removeServerAction
  | _ => False

/-- **Other events.** -/
theorem linkEvent_keepsEntries {e : LinkEvent} (hother : ¬ ChangesEntries s.tree e)
    (h : linkEvent svc s e = .ok s') : KeepsEntries s s' := by
  cases e with
  | addServer params => exact absurd trivial hother
  | invoke node params =>
    unfold linkEvent at h
    dsimp only at h
    cases hf : installed s.tree node DSNode.onInvocation with
    | none =>
      rw [hf] at h
      cases h
      exact .refl s
    | some f =>
      rw [hf] at h
      have hf : Invokes s.tree node f := hf
      unfold invokeAction at h
      cases f with
      | editServerAction => exact absurd (.inl hf) hother
      | removeServerAction => exact absurd (.inr hf) hother
      | discoverAction =>
        dsimp only [discoverAction] at h
        split_ifs at h
        · cases h
          exact .refl s
        · obtain ⟨server, -, h⟩ := bind_eq_ok.1 h
          exact discover61850Server_keepsEntries h
      | clearServerAction => exact .of_setTree h
      | prepareDatasetAction => exact .of_setTree h
      | addDAToDSAction => exact .of_setTree h
      | removeDatasetAction => exact removeDatasetAction_keepsEntries h
      | rmMemberPrepdsAction =>
        cases h
        exact ⟨rfl, rfl⟩
      | removePrepdsAction =>
        cases h
        exact ⟨rfl, rfl⟩
      | createDsOnserverAction => exact createDsOnserverAction_keepsEntries h
      | daValueReadAction => exact .of_treeStep (nodeValueRead_treeStep h)
      | daValueWriteAction => exact daValueWriteAction_keepsEntries h
      | controlAction => exact controlAction_keepsEntries h
      | readRCBAction => exact readRCBAction_keepsEntries h
      | forceGIRCBAction => exact forceGIRCBAction_keepsEntries h
      | serverSubbed =>
        cases h
        exact .refl s
      | daNodeListOpenedAction =>
        cases h
        exact .refl s
      | rcbDatSetNodeOpenAction =>
        cases h
        exact .refl s
      | _ => exact setRcbElement_keepsEntries h
  | listOpen node =>
    unfold linkEvent at h
    dsimp only at h
    split at h
    · cases h
      exact .refl s
    · unfold openNode at h
      split at h
      · exact .of_setTree h
      · exact .of_setTree h
      · cases h
        exact .refl s
  | report con message => exact handleReport_keepsEntries h

end DslinkIec61850
