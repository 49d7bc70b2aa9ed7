import DslinkIec61850.DataSet.Agreement
import DslinkIec61850.Discovery.Attributes

/-!
# The members of a prepared data set

The members are kept as children of the data set (dataset_handler.c:324–376): the
key is `dse_` and the reference with its first `/` made `$`, the reference itself
is the display name. Create on Server reads the display names of the children with
`dse_` (dataset_handler.c:406–411).

* `memberKey_injective`: different references have different keys.
* `preparedMembers_run`: after a run of additions and removals, what is created are
  the references that were added and not removed since.
* `discover61850Server_readable`: the references of a discovered server.
-/

namespace DslinkIec61850

open DSLink LinkState Run Strings Subtree

variable {σ W : Type} [DSLink σ] {srv ds : Str} {t t' t₀ : σ}

/-! ## Keys of members -/

/-- The key of a member of a prepared data set. -/
def prepMemberKey (member : Str) : Str := memberKey (dseKeyInit ++ member)

/-- A reference whose first `/` can be told from the `$` that it becomes. -/
def ReadableRef (member : Str) : Prop :=
  ∃ ld rest, member = ld ++ '/' :: rest ∧ '/' ∉ ld ∧ '$' ∉ rest

theorem prepMemberKey_eq {ld rest : Str} (hld : '/' ∉ ld) :
    prepMemberKey (ld ++ '/' :: rest) = dseKeyInit ++ (ld ++ '$' :: rest) := by
  have hfree : '/' ∉ dseKeyInit ++ ld := by
    rw [List.mem_append, not_or]
    exact ⟨by decide, hld⟩
  rw [prepMemberKey, memberKey, ← List.append_assoc, cut_append hfree]
  simp

/-- The key is cut at its last `$`. -/
theorem memberKey_injective {m m' : Str} (h : ReadableRef m) (h' : ReadableRef m')
    (heq : prepMemberKey m = prepMemberKey m') : m = m' := by
  obtain ⟨ld, rest, rfl, hld, hrest⟩ := h
  obtain ⟨ld', rest', rfl, hld', hrest'⟩ := h'
  rw [prepMemberKey_eq hld, prepMemberKey_eq hld'] at heq
  have hreverse := congrArg List.reverse (List.append_cancel_left heq)
  simp only [List.reverse_append, List.reverse_cons, List.append_assoc,
    List.singleton_append] at hreverse
  obtain ⟨hr, hl⟩ := (append_cons_inj (by simpa using hrest) (by simpa using hrest')).1 hreverse
  rw [List.reverse_inj.1 hr, List.reverse_inj.1 hl]

theorem hasInit_prepMemberKey (m : Str) : hasInit dseKeyInit (prepMemberKey m) = true := by
  simp [prepMemberKey, memberKey, dseKeyInit, cut, hasInit]

/-! ## Adding and removing -/

/-- The subtree of a member. -/
def memberTree (member : Str) : Subtree :=
  withChildren (leaf (namedNode member))
    [("rm_mem_prepds".toList, DSNode.action "Remove".toList .rmMemberPrepdsAction)]

theorem addMemberToPrepDatasetNode_grafts {node : Path} {m : Str}
    (h : addMemberToPrepDatasetNode t node m = .ok t') :
    Grafts t t' (node ++ [prepMemberKey m]) (memberTree m) := by
  unfold addMemberToPrepDatasetNode at h
  obtain ⟨_, -, h⟩ := bind_eq_ok.1 h
  obtain ⟨k, hk, h⟩ := bind_eq_ok.1 h
  cases h
  obtain ⟨-, rfl⟩ := replaceSlash_ok hk
  exact grafts_addChild_addChildren t node (prepMemberKey m) (namedNode m)
    [("rm_mem_prepds".toList, DSNode.action "Remove".toList .rmMemberPrepdsAction)]

/-- The reference with the constraint of a data attribute. -/
def memberOf (t : σ) (da : Path) : Option Str :=
  match attributeOf t da with
  | some (some fc, some ref) => some (ref ++ '[' :: (fc ++ [']']))
  | _ => none

/-- The parameters of Add to dataset: the option for a prepared data set. -/
def addParams (ds : Str) : Json := .object [("Dataset".toList, .string (ds.drop 4))]

/-- The key of a prepared data set. -/
structure PreparedKey (ds : Str) : Prop where
  init : hasInit dtsKeyInit ds = true
  slash : '/' ∉ ds
  option_ne : ds.drop 4 ≠ []

theorem PreparedKey.eq (h : PreparedKey ds) : dtsKeyInit ++ ds.drop 4 = ds := by
  have hinit : ds.take 4 = dtsKeyInit := eq_of_beq h.init
  rw [← hinit, List.take_append_drop]

/-- An Add to dataset that ends puts the reference into the data set of its option. -/
theorem addDAToDSAction_ok (hsrv : hasInit srvKeyInit srv = true) (hkey : PreparedKey ds)
    {da : Path} {a : Str} (hlive : Live t (prepPath srv ds))
    (h : addDAToDSAction t (srv :: da ++ [a]) (addParams ds) = .ok t') :
    match memberOf t (srv :: da) with
    | none => t' = t
    | some m => Grafts t t' (prepPath srv ds ++ [prepMemberKey m]) (memberTree m) := by
  have hparam : Json.stringValue ((addParams ds).objectGet "Dataset".toList) =
      some (ds.drop 4) := by
    simp [addParams, Json.objectGet, Json.stringValue]
  unfold addDAToDSAction at h
  rw [hparam] at h
  obtain ⟨d, option, hoption⟩ := List.exists_cons_of_ne_nil hkey.option_ne
  rw [hoption] at h
  dsimp only at h
  rw [← hoption, hkey.eq] at h
  obtain ⟨_, -, h⟩ := bind_eq_ok.1 h
  rw [show (srv :: da ++ [a]).dropLast = srv :: da from dropLast_snoc (srv :: da) a,
    getPath_eq_child (by decide) (by decide), getPath_eq_child (by decide) (by decide)] at h
  unfold memberOf attributeOf
  cases hobj : child t (srv :: da) daObjectRefNodeKey with
  | none =>
    rw [hobj] at h
    cases h
    have hnone : child t (srv :: da) "Object".toList = none := hobj
    rw [hnone]
    cases child t (srv :: da) "FC".toList <;> rfl
  | some objNode =>
    have hsome : child t (srv :: da) "Object".toList = some objNode := hobj
    rw [hsome]
    rw [hobj] at h
    cases hfc : child t (srv :: da) "FC".toList with
    | none =>
      rw [hfc] at h
      cases h
      rfl
    | some fcNode =>
      rw [hfc] at h
      dsimp only at h ⊢
      cases hmain : getMainPrepDatasetNode t (srv :: da ++ [a]) with
      | none =>
        rw [hmain] at h
        cases h
      | some main =>
        obtain rfl := getMainPrepDatasetNode_below hsrv hmain
        have hchild : child t [srv, datasetPrepFolderNodeKey] ds = some (prepPath srv ds) :=
          child_eq_some.2 ⟨rfl, hlive⟩
        have hne : ds ≠ [] := by
          rintro rfl
          exact hkey.option_ne rfl
        rw [hmain] at h
        dsimp only at h
        rw [getPath_eq_child hne hkey.slash, hchild] at h
        obtain ⟨ref, href, h⟩ := bind_eq_ok.1 h
        obtain ⟨fc, hfcText, h⟩ := bind_eq_ok.1 h
        obtain ⟨_, -, h⟩ := bind_eq_ok.1 h
        rw [deref_eq_ok] at href hfcText
        rw [href, hfcText]
        exact addMemberToPrepDatasetNode_grafts h

/-! ## Runs -/

/-- An action on the members of a prepared data set: Add to dataset at a data
attribute, or Remove at the member that shows a reference. -/
inductive MemberEvent where
  | add (da : Path)
  | remove (member : Str)

/-- There is a data attribute below a logical device, with its action. -/
def CanAdd (t : σ) (srv : Str) (da : Path) : Prop :=
  hasInit ldnKeyInit (da.headD []) = true ∧
    (lookup t (srv :: da)).bind DSNode.onListOpen = some .daNodeListOpenedAction ∧
    Invokes t (srv :: da ++ ["adddataset".toList]) .addDAToDSAction

instance (t : σ) (srv : Str) (da : Path) : Decidable (CanAdd t srv da) :=
  inferInstanceAs (Decidable (_ ∧ _ ∧ _))

/-- The reference that a member shows. -/
def shownMember (t : σ) (srv ds k : Str) : Option Str :=
  (lookup t (prepPath srv ds ++ [k])).bind fun n => Json.stringValue (n.getMeta "$name".toList)

theorem lookup_of_shownMember {k m : Str} (h : shownMember t srv ds k = some m) :
    ∃ n, lookup t (prepPath srv ds ++ [k]) = some n ∧
      Json.stringValue (n.getMeta "$name".toList) = some m := by
  unfold shownMember at h
  exact Option.bind_eq_some_iff.1 h

theorem live_of_shownMember {k m : Str} (h : shownMember t srv ds k = some m) :
    Live t (prepPath srv ds ++ [k]) := by
  obtain ⟨n, hn, -⟩ := lookup_of_shownMember h
  rw [Live, hn]
  rfl

/-- The action of a member. -/
def removePath (srv ds member : Str) : Path :=
  prepPath srv ds ++ [prepMemberKey member] ++ ["rm_mem_prepds".toList]

/-- A member is shown with its action. -/
def CanRemove (t : σ) (srv ds member : Str) : Prop :=
  shownMember t srv ds (prepMemberKey member) = some member ∧
    Invokes t (removePath srv ds member) .rmMemberPrepdsAction

instance (t : σ) (srv ds member : Str) : Decidable (CanRemove t srv ds member) :=
  inferInstanceAs (Decidable (_ ∧ _))

/-- An action on the data set `ds`; one for a node that is not there has no effect. -/
def memberStep (srv ds : Str) (t : σ) : MemberEvent → Except Fault σ
  | .add da =>
    if CanAdd t srv da then addDAToDSAction t (srv :: da ++ ["adddataset".toList])
      (addParams ds) else .ok t
  | .remove member =>
    if CanRemove t srv ds member then .ok
      (rmMemberPrepdsAction t (removePath srv ds member)) else .ok t

/-- The reference that an Add to dataset adds. -/
def addedMember (t : σ) (srv : Str) (da : Path) : Option Str :=
  if CanAdd t srv da then memberOf t (srv :: da) else none

/-- A reference was added and not removed since. -/
def AddedLast (t : σ) (srv : Str) (run : List MemberEvent) (member : Str) : Prop :=
  ∃ front da back, run = front ++ .add da :: back ∧ addedMember t srv da = some member ∧
    MemberEvent.remove member ∉ back

theorem not_addedLast_nil (t : σ) (member : Str) : ¬ AddedLast t srv [] member := by
  rintro ⟨front, da, back, h, -⟩
  simp at h

theorem addedLast_add {run : List MemberEvent} {da : Path} {member : Str} :
    AddedLast t srv (run ++ [.add da]) member ↔
      AddedLast t srv run member ∨ addedMember t srv da = some member := by
  constructor
  · rintro ⟨front, da', back, h, hadd, hback⟩
    rcases List.eq_nil_or_concat back with rfl | ⟨back, e, rfl⟩
    · obtain ⟨-, hlast⟩ := List.append_inj' h rfl
      cases hlast
      exact .inr hadd
    · rw [List.concat_eq_append] at h hback
      rw [← List.cons_append, ← List.append_assoc] at h
      obtain ⟨hrun, -⟩ := List.append_inj' h rfl
      exact .inl ⟨front, da', back, hrun, hadd, fun hmem => hback (List.mem_append_left _ hmem)⟩
  · rintro (⟨front, da', back, rfl, hadd, hback⟩ | hadd)
    · refine ⟨front, da', back ++ [.add da], by simp, hadd, ?_⟩
      simpa using hback
    · exact ⟨run, da, [], rfl, hadd, List.not_mem_nil⟩

theorem addedLast_remove {run : List MemberEvent} {m member : Str} :
    AddedLast t srv (run ++ [.remove m]) member ↔ AddedLast t srv run member ∧ member ≠ m := by
  constructor
  · rintro ⟨front, da, back, h, hadd, hback⟩
    rcases List.eq_nil_or_concat back with rfl | ⟨back, e, rfl⟩
    · obtain ⟨-, hlast⟩ := List.append_inj' h rfl
      cases hlast
    · rw [List.concat_eq_append] at h hback
      rw [← List.cons_append, ← List.append_assoc] at h
      obtain ⟨hrun, hlast⟩ := List.append_inj' h rfl
      cases hlast
      refine ⟨⟨front, da, back, hrun, hadd, fun hmem => hback (List.mem_append_left _ hmem)⟩, ?_⟩
      rintro rfl
      exact hback (List.mem_append_right _ List.mem_cons_self)
  · rintro ⟨⟨front, da, back, rfl, hadd, hback⟩, hne⟩
    refine ⟨front, da, back ++ [.remove m], by simp, hadd, ?_⟩
    simpa [hback] using hne

/-! ## What a run keeps -/

/-- The members `members` are shown in the prepared data set, under their keys, and
nothing outside it has changed. -/
structure Prepared (t₀ t : σ) (srv ds : Str) (members : Str → Prop) : Prop where
  frame : ∀ q, ¬ prepPath srv ds <+: q → lookup t q = lookup t₀ q
  live : Live t (prepPath srv ds)
  readable : ∀ m, members m → ReadableRef m
  node : ∀ m, members m → shownMember t srv ds (prepMemberKey m) = some m ∧
    Invokes t (removePath srv ds m) .rmMemberPrepdsAction
  only : ∀ k, hasInit dseKeyInit k = true → Live t (prepPath srv ds ++ [k]) →
    ∃ m, members m ∧ k = prepMemberKey m

/-- Every data attribute shows a readable reference. -/
def ReadableAttributes (srv : Str) (t : σ) : Prop :=
  ∀ da m, hasInit ldnKeyInit (da.headD []) = true →
    (lookup t (srv :: da)).bind DSNode.onListOpen = some .daNodeListOpenedAction →
    memberOf t (srv :: da) = some m → ReadableRef m

theorem Prepared.congr {members members' : Str → Prop} (h : Prepared t₀ t srv ds members)
    (heq : ∀ m, members' m ↔ members m) : Prepared t₀ t srv ds members' where
  frame := h.frame
  live := h.live
  readable m hm := h.readable m ((heq m).1 hm)
  node m hm := h.node m ((heq m).1 hm)
  only k hk hlive := by
    obtain ⟨m, hm, hkey⟩ := h.only k hk hlive
    exact ⟨m, (heq m).2 hm, hkey⟩

theorem prefix_child_iff {p r : Path} {k k' : Str} : p ++ [k] <+: p ++ k' :: r ↔ k = k' := by
  rw [List.prefix_append_right_inj, List.cons_prefix_cons]
  exact and_iff_left List.nil_prefix

/-- One more member. -/
theorem Prepared.grafts {members : Str → Prop} (h : Prepared t₀ t srv ds members) {m : Str}
    (hm : ReadableRef m)
    (hgrafts : Grafts t t' (prepPath srv ds ++ [prepMemberKey m]) (memberTree m)) :
    Prepared t₀ t' srv ds fun x => members x ∨ x = m where
  frame q hq := by
    rw [hgrafts.frame q fun hpre => hq ((List.prefix_append _ _).trans hpre)]
    exact h.frame q hq
  live := by
    have hsame := hgrafts.frame (prepPath srv ds) fun hpre => by simpa using hpre.length_le
    rw [Live, hsame]
    exact h.live
  readable x hx := by
    rcases hx with hx | rfl
    · exact h.readable x hx
    · exact hm
  node x hx := by
    by_cases hkey : prepMemberKey m = prepMemberKey x
    · -- the key is the one of `m`, so it is `m`
      have hreadable : ReadableRef x := by
        rcases hx with hx | rfl
        · exact h.readable x hx
        · exact hm
      obtain rfl := memberKey_injective hm hreadable hkey
      unfold shownMember removePath Invokes
      rw [← sub_nil, ← sub_apply, hgrafts.sub_eq]
      exact ⟨rfl, rfl⟩
    · have hold : members x := hx.resolve_right fun heq => hkey (by rw [heq])
      obtain ⟨hshown, hinvokes⟩ := h.node x hold
      have hframe (r : Path) : lookup t' (prepPath srv ds ++ prepMemberKey x :: r) =
          lookup t (prepPath srv ds ++ prepMemberKey x :: r) :=
        hgrafts.frame _ fun hpre => hkey (prefix_child_iff.1 hpre)
      unfold shownMember at hshown ⊢
      unfold removePath Invokes at hinvokes ⊢
      rw [List.append_assoc] at hinvokes ⊢
      rw [hframe []]
      exact ⟨hshown, by rw [List.singleton_append] at hinvokes ⊢; rw [hframe]; exact hinvokes⟩
  only k hk hlive := by
    by_cases hkey : prepMemberKey m = k
    · exact ⟨m, .inr rfl, hkey.symm⟩
    · have hframe := hgrafts.frame (prepPath srv ds ++ [k]) fun hpre =>
        hkey (prefix_child_iff.1 hpre)
      rw [Live, hframe] at hlive
      obtain ⟨x, hx, hxk⟩ := h.only k hk hlive
      exact ⟨x, .inl hx, hxk⟩

/-- One member less. -/
theorem Prepared.removeTree {members : Str → Prop} (h : Prepared t₀ t srv ds members) {m : Str}
    (hm : members m) :
    Prepared t₀ (removeTree t (prepPath srv ds ++ [prepMemberKey m])) srv ds fun x =>
      members x ∧ x ≠ m where
  frame q hq := by
    rw [lookup_removeTree_of_not_below fun hpre => hq ((List.prefix_append _ _).trans hpre)]
    exact h.frame q hq
  live := by
    have hsame := lookup_removeTree_of_not_below (t := t)
      (p := prepPath srv ds ++ [prepMemberKey m])
      (q := prepPath srv ds) fun hpre => by simpa using hpre.length_le
    rw [Live, hsame]
    exact h.live
  readable x hx := h.readable x hx.1
  node x hx := by
    obtain ⟨hx, hne⟩ := hx
    have hkey : prepMemberKey m ≠ prepMemberKey x := fun hkey =>
      hne (memberKey_injective (h.readable m hm) (h.readable x hx) hkey).symm
    obtain ⟨hshown, hinvokes⟩ := h.node x hx
    have hframe (r : Path) : lookup (DSLink.removeTree t (prepPath srv ds ++ [prepMemberKey m]))
        (prepPath srv ds ++ prepMemberKey x :: r) =
          lookup t (prepPath srv ds ++ prepMemberKey x :: r) :=
      lookup_removeTree_of_not_below fun hpre => hkey (prefix_child_iff.1 hpre)
    unfold shownMember at hshown ⊢
    unfold removePath Invokes at hinvokes ⊢
    rw [List.append_assoc, List.singleton_append] at hinvokes ⊢
    rw [hframe [], hframe]
    exact ⟨hshown, hinvokes⟩
  only k hk hlive := by
    rw [Live, lookup_removeTree] at hlive
    split_ifs at hlive with hpre
    · cases hlive
    · obtain ⟨x, hx, rfl⟩ := h.only k hk hlive
      refine ⟨x, ⟨hx, ?_⟩, rfl⟩
      rintro rfl
      exact hpre (List.prefix_refl _)

theorem attributeOf_congr {da : Path} (h : ∀ k, lookup t (da ++ [k]) = lookup t₀ (da ++ [k])) :
    attributeOf t da = attributeOf t₀ da := by
  unfold attributeOf child
  rw [h, h]
  split_ifs
  · show some (_, _) = some (_, _)
    rw [valueOf, valueOf, valueOf, valueOf, h, h]
  · rfl
  · rfl
  · rfl

/-- What is below a logical device is not below the folder of the prepared data sets. -/
theorem not_prefix_device {da : Path} (hda : hasInit ldnKeyInit (da.headD []) = true) (r : Path) :
    ¬ [srv, datasetPrepFolderNodeKey] <+: srv :: da ++ r := by
  intro hpre
  cases da with
  | nil => cases hda
  | cons k ks =>
    obtain ⟨-, hpre⟩ := List.cons_prefix_cons.1 hpre
    obtain ⟨rfl, -⟩ := List.cons_prefix_cons.1 hpre
    cases hda

theorem memberOf_congr {da : Path} (hda : hasInit ldnKeyInit (da.headD []) = true)
    (hframe : ∀ q, ¬ [srv, datasetPrepFolderNodeKey] <+: q → lookup t q = lookup t₀ q) :
    memberOf t (srv :: da) = memberOf t₀ (srv :: da) := by
  rw [memberOf, memberOf, attributeOf_congr fun k => hframe _ (not_prefix_device hda [k])]

/-- What is added does not depend on what is prepared. -/
theorem addedMember_congr (hframe : ∀ q, ¬ prepPath srv ds <+: q → lookup t q = lookup t₀ q)
    (da : Path) : addedMember t srv da = addedMember t₀ srv da := by
  unfold addedMember
  by_cases hda : hasInit ldnKeyInit (da.headD []) = true
  · have hprep (q : Path) (hq : ¬ [srv, datasetPrepFolderNodeKey] <+: q) :
        lookup t q = lookup t₀ q :=
      hframe q fun hpre => hq ((List.prefix_append _ [ds]).trans hpre)
    have hsame (r : Path) : lookup t (srv :: da ++ r) = lookup t₀ (srv :: da ++ r) :=
      hprep _ (not_prefix_device hda r)
    have hself := hsame []
    rw [List.append_nil] at hself
    have hcan : CanAdd t srv da ↔ CanAdd t₀ srv da := by
      unfold CanAdd Invokes
      rw [hself, hsame]
    simp only [hcan, memberOf_congr hda hprep]
  · have hnot (t : σ) : ¬ CanAdd t srv da := fun h => hda h.1
    rw [if_neg (hnot t), if_neg (hnot t₀)]

/-- One action on the members. -/
theorem Prepared.step (hsrv : hasInit srvKeyInit srv = true) (hkey : PreparedKey ds)
    (hreadable : ReadableAttributes srv t₀) {run : List MemberEvent} {e : MemberEvent}
    (h : Prepared t₀ t srv ds (AddedLast t₀ srv run)) (hstep : memberStep srv ds t e = .ok t') :
    Prepared t₀ t' srv ds (AddedLast t₀ srv (run ++ [e])) := by
  cases e with
  | add da =>
    have hadded := addedMember_congr h.frame da
    rw [memberStep] at hstep
    by_cases hcan : CanAdd t srv da
    · rw [if_pos hcan] at hstep
      rw [addedMember, if_pos hcan] at hadded
      have hadd := addDAToDSAction_ok hsrv hkey h.live hstep
      cases hm : memberOf t (srv :: da) with
      | none =>
        rw [hm] at hadd hadded
        rw [hadd]
        exact h.congr fun m => by rw [addedLast_add, ← hadded]; simp
      | some m =>
        rw [hm] at hadd hadded
        have hm₀ : ReadableRef m := by
          unfold addedMember at hadded
          split_ifs at hadded with hcan₀
          exact hreadable da m hcan₀.1 hcan₀.2.1 hadded.symm
        refine (h.grafts hm₀ hadd).congr fun x => ?_
        rw [addedLast_add, ← hadded, Option.some.injEq, eq_comm]
    · rw [if_neg hcan] at hstep
      cases hstep
      rw [addedMember, if_neg hcan] at hadded
      exact h.congr fun m => by rw [addedLast_add, ← hadded]; simp
  | remove m =>
    rw [memberStep] at hstep
    by_cases hcan : CanRemove t srv ds m
    · rw [if_pos hcan] at hstep
      cases hstep
      obtain ⟨hshown, hinvokes⟩ := hcan
      -- the member with this key shows `m`
      obtain ⟨x, hx, hxkey⟩ := h.only _ (hasInit_prepMemberKey m) (live_of_shownMember hshown)
      obtain ⟨hx', -⟩ := h.node x hx
      rw [hxkey, hx'] at hshown
      obtain rfl := Option.some.inj hshown
      have hpath : (removePath srv ds x).dropLast = prepPath srv ds ++ [prepMemberKey x] :=
        dropLast_snoc _ _
      rw [rmMemberPrepdsAction, hpath]
      exact (h.removeTree hx).congr fun y => addedLast_remove
    · rw [if_neg hcan] at hstep
      cases hstep
      refine h.congr fun y => addedLast_remove.trans (and_iff_left_of_imp fun hy => ?_)
      rintro rfl
      exact hcan (h.node y hy)

/-! ## What is created -/

theorem mapM_eq_map {α β : Type} {f : α → Except Fault β} {g : α → β} {l : List α}
    (h : ∀ a ∈ l, f a = .ok (g a)) : l.mapM f = .ok (l.map g) := by
  induction l with
  | nil => rfl
  | cons a l ih =>
    rw [List.mapM_cons, h a List.mem_cons_self, ok_bind,
      ih fun b hb => h b (List.mem_cons_of_mem _ hb)]
    rfl

/-- The members that are shown are what Create on Server reads, each once. -/
theorem Prepared.preparedMembers {members : Str → Prop} (h : Prepared t₀ t srv ds members) :
    ∃ l, preparedMembers t (prepPath srv ds) = .ok l ∧ l.Nodup ∧ ∀ m, m ∈ l ↔ members m := by
  let keys := (children t (prepPath srv ds)).filter (hasInit dseKeyInit)
  let nameOf (k : Str) : Str := (shownMember t srv ds k).getD []
  have hkeys (k : Str) : k ∈ keys ↔ ∃ m, members m ∧ k = prepMemberKey m := by
    rw [List.mem_filter, mem_children]
    constructor
    · exact fun hk => h.only k hk.2 hk.1
    · rintro ⟨m, hm, rfl⟩
      exact ⟨live_of_shownMember (h.node m hm).1, hasInit_prepMemberKey m⟩
  have hname (m : Str) (hm : members m) : nameOf (prepMemberKey m) = m := by
    show (shownMember t srv ds (prepMemberKey m)).getD [] = m
    rw [(h.node m hm).1]
    rfl
  refine ⟨keys.map nameOf, ?_, ?_, ?_⟩
  · apply mapM_eq_map
    intro k hk
    obtain ⟨m, hm, rfl⟩ := (hkeys k).1 hk
    obtain ⟨n, hn, hshown⟩ := lookup_of_shownMember (h.node m hm).1
    rw [hname m hm, hn]
    exact deref_eq_ok.2 hshown
  · -- the key is read back from the name
    have hback : (keys.map nameOf).map prepMemberKey = keys := by
      rw [List.map_map, List.map_congr_left (g := id), List.map_id]
      intro k hk
      obtain ⟨m, hm, rfl⟩ := (hkeys k).1 hk
      rw [Function.comp_apply, hname m hm, id]
    apply List.Nodup.of_map prepMemberKey
    rw [hback]
    exact (nodup_children t _).filter _
  · intro m
    rw [List.mem_map]
    constructor
    · rintro ⟨k, hk, rfl⟩
      obtain ⟨x, hx, rfl⟩ := (hkeys k).1 hk
      rw [hname x hx]
      exact hx
    · exact fun hm => ⟨prepMemberKey m, (hkeys _).2 ⟨m, hm, rfl⟩, hname m hm⟩

/-- What Create on Server sends. -/
theorem createDsOnserverAction_requests {svc : IedService W} {s s' : LinkState σ W} {node : Path}
    {l : List Str} (hl : DslinkIec61850.preparedMembers s.tree node.dropLast = .ok l)
    (h : createDsOnserverAction svc s node = .ok s') :
    (l = [] ∧ s' = s) ∨
      (l ≠ [] ∧ ∃ con ref, s'.requests = s.requests ++ [(con, .createDataSet ref l)]) := by
  unfold createDsOnserverAction at h
  dsimp only at h
  rw [hl, ok_bind] at h
  obtain ⟨dsRef, -, h⟩ := bind_eq_ok.1 h
  split_ifs at h with hnone
  · cases h
    exact .inl ⟨hnone, rfl⟩
  · obtain ⟨con?, -, h⟩ := bind_eq_ok.1 h
    obtain ⟨con, -, h⟩ := bind_eq_ok.1 h
    obtain ⟨ref, -, h⟩ := bind_eq_ok.1 h
    refine .inr ⟨hnone, con, ref, ?_⟩
    cases hcreated : (svc.createDataSet s.world con ref l).1 with
    | true =>
      simp only [send, hcreated, if_true] at h
      obtain ⟨⟨found, s₂⟩, hread, h⟩ := bind_eq_ok.1 h
      obtain ⟨hstep, -, -⟩ := getDatasetInfoFromServerCreateNode_ok hread
      dsimp only at h
      cases found with
      | true =>
        cases h
        exact hstep.requests_eq
      | false =>
        cases h
        exact hstep.requests_eq
    | false =>
      simp only [send, hcreated, Bool.false_eq_true, if_false] at h
      cases h
      rfl

/-- A data set that was prepared and has no members yet. -/
structure FreshlyPrepared (srv ds : Str) (t : σ) : Prop where
  key : PreparedKey ds
  live : Live t (prepPath srv ds)
  empty : ∀ k, hasInit dseKeyInit k = true → ¬ Live t (prepPath srv ds ++ [k])

/-- **Members.** After a run of additions and removals Create on Server sends the
references that were added and not removed since they were added last, each once
and as they were added. -/
theorem preparedMembers_run (hsrv : hasInit srvKeyInit srv = true)
    (hattr : ReadableAttributes srv t₀) (hnew : FreshlyPrepared srv ds t₀) {run : List MemberEvent}
    (hrun : run.foldlM (memberStep srv ds) t₀ = .ok t) :
    ∃ l, preparedMembers t (prepPath srv ds) = .ok l ∧ l.Nodup ∧
      (∀ m, m ∈ l ↔ AddedLast t₀ srv run m) ∧
      ∀ (svc : IedService W) (s s' : LinkState σ W), s.tree = t →
        createDsOnserverAction svc s (prepPath srv ds ++ ["createdataset".toList]) = .ok s' →
        (l = [] ∧ s' = s) ∨
          (l ≠ [] ∧ ∃ con ref, s'.requests = s.requests ++ [(con, .createDataSet ref l)]) := by
  have hstart : Prepared t₀ t₀ srv ds (AddedLast t₀ srv []) :=
    { frame := fun _ _ => rfl
      live := hnew.live
      readable := fun m hm => absurd hm (not_addedLast_nil t₀ m)
      node := fun m hm => absurd hm (not_addedLast_nil t₀ m)
      only := fun k hk hlive => absurd hlive (hnew.empty k hk) }
  have hprepared : Prepared t₀ t srv ds (AddedLast t₀ srv run) := by
    refine foldlM_progress (I := fun done t => Prepared t₀ t srv ds (AddedLast t₀ srv done))
      hstart ?_ hrun
    intro done e rest _ t t' h hstep
    exact h.step hsrv hnew.key hattr hstep
  obtain ⟨l, hl, hnodup, hmem⟩ := hprepared.preparedMembers
  refine ⟨l, hl, hnodup, hmem, ?_⟩
  rintro svc s s' rfl hs
  apply createDsOnserverAction_requests _ hs
  rw [dropLast_snoc]
  exact hl

/-! ## Preparing -/

/-- The subtree of a new prepared data set. -/
def prepTree (dsRef : Str) : Subtree :=
  withChildren (leaf (namedNode dsRef)) (prepDatasetChildren dsRef)

/-- A data set is prepared when its key is free in both folders. -/
theorem createPrepDatasetNode_ok (hsrv : hasInit srvKeyInit srv = true) {q : Path} {dsRef : Str}
    {created : Bool} (h : createPrepDatasetNode t (srv :: q) dsRef = .ok (created, t')) :
    t' = t ∨ (¬ Live t (datasetPath srv (datasetKey dsRef)) ∧
      ¬ Live t (prepPath srv (datasetKey dsRef)) ∧
      Grafts t t' (prepPath srv (datasetKey dsRef)) (prepTree dsRef)) := by
  unfold createPrepDatasetNode at h
  obtain ⟨_, -, h⟩ := bind_eq_ok.1 h
  split at h
  · rename_i main prep hmain hprep
    obtain rfl := getMainDatasetNode_below hsrv hmain
    obtain rfl := getMainPrepDatasetNode_below hsrv hprep
    dsimp only at h
    split_ifs at h with hexists
    · cases h
      exact .inl rfl
    · cases h
      have hnot (folder : Path) (hfolder : ¬ (child t folder (datasetKey dsRef)).isSome = true) :
          ¬ Live t (folder ++ [datasetKey dsRef]) := by
        intro hlive
        apply hfolder
        rw [child_eq_some.2 ⟨rfl, hlive⟩]
        rfl
      rw [Bool.or_eq_true, not_or] at hexists
      exact .inr ⟨hnot _ hexists.1, hnot _ hexists.2,
        grafts_addChild_addChildren t [srv, datasetPrepFolderNodeKey] (datasetKey dsRef)
          (namedNode dsRef) (prepDatasetChildren dsRef)⟩
  · cases h
    exact .inl rfl

/-- A Prepare Dataset that ends. -/
theorem prepareDatasetAction_ok (hsrv : hasInit srvKeyInit srv = true) {q : Path} {params : Json}
    (h : prepareDatasetAction t (srv :: q) params = .ok t') :
    t' = t ∨ ∃ lnRef name, Json.stringValue (params.objectGet "Name".toList) = some name ∧
      ¬ Live t (datasetPath srv (datasetKey (lnRef ++ '.' :: name))) ∧
      ¬ Live t (prepPath srv (datasetKey (lnRef ++ '.' :: name))) ∧
      Grafts t t' (prepPath srv (datasetKey (lnRef ++ '.' :: name)))
        (prepTree (lnRef ++ '.' :: name)) := by
  unfold prepareDatasetAction at h
  split at h
  · cases h
    exact .inl rfl
  · rename_i name hname
    split at h
    · cases h
      exact .inl rfl
    · obtain ⟨_, -, h⟩ := bind_eq_ok.1 h
      obtain ⟨⟨created, t₁⟩, h₁, h⟩ := bind_eq_ok.1 h
      cases h
      cases q with
      | nil =>
        -- the root has no server
        obtain ⟨_, -, h₁⟩ := bind_eq_ok.1 h₁
        cases h₁
        exact .inl rfl
      | cons k q =>
        rcases createPrepDatasetNode_ok hsrv h₁ with hsame | hnew
        · exact .inl hsame
        · exact .inr ⟨_, name, hname, hnew⟩

theorem preparedKey_datasetKey (lnRef name : Str) :
    PreparedKey (datasetKey (lnRef ++ '.' :: name)) where
  init := by simp [datasetKey, replace, dtsKeyInit, hasInit]
  slash := not_mem_replaced (by decide) _
  option_ne := by simp [datasetKey, replace, dtsKeyInit]

/-- What is prepared has no members. -/
theorem freshlyPrepared_of_grafts {lnRef name : Str}
    (h : Grafts t t' (prepPath srv (datasetKey (lnRef ++ '.' :: name)))
      (prepTree (lnRef ++ '.' :: name))) :
    FreshlyPrepared srv (datasetKey (lnRef ++ '.' :: name)) t' where
  key := preparedKey_datasetKey lnRef name
  live := by
    rw [Live, ← sub_nil, h.sub_eq, prepTree, withChildren_nil]
    rfl
  empty k hk hlive := by
    obtain ⟨n, hn⟩ := Option.isSome_iff_exists.1 hlive
    rw [← sub_apply, h.sub_eq] at hn
    have hmem := (mem_of_withChildren_leaf hn).2
    simp only [prepDatasetChildren, List.mem_cons, Prod.mk.injEq, List.not_mem_nil,
      or_false] at hmem
    rcases hmem with ⟨rfl, -⟩ | ⟨rfl, -⟩ | ⟨rfl, -⟩ <;> exact absurd hk (by decide)

/-- What a Prepare Dataset leaves, unless it leaves everything, is a data set to add members to. -/
theorem prepareDatasetAction_freshlyPrepared (hsrv : hasInit srvKeyInit srv = true) {q : Path}
    {params : Json} (h : prepareDatasetAction t (srv :: q) params = .ok t') :
    t' = t ∨ ∃ lnRef name, Json.stringValue (params.objectGet "Name".toList) = some name ∧
      FreshlyPrepared srv (datasetKey (lnRef ++ '.' :: name)) t' := by
  rcases prepareDatasetAction_ok hsrv h with hsame | ⟨lnRef, name, hname, -, -, hgrafts⟩
  · exact .inl hsame
  · exact .inr ⟨lnRef, name, hname, freshlyPrepared_of_grafts hgrafts⟩

theorem ReadableAttributes.congr (h : ReadableAttributes srv t)
    (hframe : ∀ q, ¬ [srv, datasetPrepFolderNodeKey] <+: q → lookup t' q = lookup t q) :
    ReadableAttributes srv t' := by
  intro da m hda hattr hmember
  have hself := hframe (srv :: da ++ []) (not_prefix_device hda [])
  rw [List.append_nil] at hself
  rw [hself] at hattr
  rw [memberOf_congr hda hframe] at hmember
  exact h da m hda hattr hmember

/-! ## Discovered servers -/

/-- The data attributes of a discovered server show readable references. -/
theorem discover61850Server_readable {svc : IedService W} {con : ConnId} {m : ServerModel}
    {devices : LogicalDevices} {variableLists : Str → Option (List Str)}
    (hsrv : hasInit srvKeyInit srv = true) (h : Serves svc con m devices variableLists)
    {s s' : LinkState σ W} (hnew : Undiscovered srv s.tree)
    (hrun : discover61850Server svc s [srv] con = .ok s') : ReadableAttributes srv s'.tree := by
  have hshape := discover61850Server_shape hsrv h.namesOk hnew hrun
  have hcovered := discover61850Server_covered hsrv h hnew hrun
  intro da member hda hlook hmember
  obtain ⟨node, hnode, hattr⟩ := Option.bind_eq_some_iff.1 hlook
  cases da with
  | nil => cases hda
  | cons k rs =>
    obtain ⟨ld, ln, n, ns, fc, hld, -, hnames, hne, hfc, hpath⟩ := hshape.attribute hnode hattr
    obtain ⟨hn, hns⟩ := plainNames_cons.1 hnames
    have hlive : Live s'.tree (daPath srv ld ln n fc ns) := by
      rw [← hpath]
      exact Option.isSome_iff_exists.2 ⟨node, hnode⟩
    have hhas := (hcovered.discoveredRef_of_live hshape hn.notCreated hns hne hfc hlive).2.has
    obtain ⟨-, hshown⟩ := hshape.shows hn.notCreated hfc hns hne hlive
    obtain ⟨-, hlnName, -, hnamesOk⟩ := hhas.names_ok
    rw [memberOf, hpath, hshown] at hmember
    obtain rfl := Option.some.inj hmember
    refine ⟨ld, ln ++ prefixed '.' (n :: ns) ++ '[' :: (fc.code ++ [']']), by simp [objectRef],
      hld.slash, ?_⟩
    intro hdollar
    simp only [List.mem_append, List.mem_cons, List.not_mem_nil, or_false] at hdollar
    rcases hdollar with (hdollar | hdollar) | hdollar | hdollar | hdollar
    · exact hlnName.dollar hdollar
    · exact not_mem_prefixed (by decide) (fun x hx => (hnamesOk x hx).dollar) hdollar
    · exact absurd hdollar (by decide)
    · exact absurd (FunctionalConstraint.isUpper_of_mem_code hdollar) (by decide)
    · exact absurd hdollar (by decide)

/-- The discovered server with the control block, with a data set prepared. -/
def preparedBlock : NodeStore :=
  match prepareDatasetAction blockLink.tree ["srv_A".toList, "ldn_D".toList, "N".toList,
      "prepdataset".toList] (.object [("Name".toList, .string "ds".toList)]) with
  | .ok t => t
  | .error _ => blockLink.tree

/-- The status is added, removed and added again. -/
def addAgain : List MemberEvent :=
  let da := ["ldn_D".toList, "N".toList, "P".toList, "stVal[ST]".toList]
  [.add da, .remove "D/N.P.stVal[ST]".toList, .add da]

/-- The tree after these actions. -/
def addedAgain : NodeStore :=
  match addAgain.foldlM (memberStep "srv_A".toList "dts_D$N.ds".toList) preparedBlock with
  | .ok t => t
  | .error _ => preparedBlock

theorem preparedBlock_ok : prepareDatasetAction blockLink.tree
    ["srv_A".toList, "ldn_D".toList, "N".toList, "prepdataset".toList]
    (.object [("Name".toList, .string "ds".toList)]) = .ok preparedBlock := by rfl

theorem preparedMembers_run_addAgain :
    ∃ l, preparedMembers addedAgain (prepPath "srv_A".toList "dts_D$N.ds".toList) = .ok l ∧
      l.Nodup ∧ (∀ m, m ∈ l ↔ AddedLast preparedBlock "srv_A".toList addAgain m) ∧
      ∀ (svc : IedService Unit) (s s' : LinkState NodeStore Unit), s.tree = addedAgain →
        createDsOnserverAction svc s (prepPath "srv_A".toList "dts_D$N.ds".toList ++
          ["createdataset".toList]) = .ok s' →
        (l = [] ∧ s' = s) ∨
          (l ≠ [] ∧ ∃ con ref, s'.requests = s.requests ++ [(con, .createDataSet ref l)]) := by
  have hserver := discover61850Server_readable (by decide)
    (blockServer.serves_service (fun _ => rfl) 0) (undiscovered_emptyLink _) blockServer_run
  have hreadable : ReadableAttributes "srv_A".toList preparedBlock := by
    rcases prepChange_prepareDatasetAction (by decide) preparedBlock_ok with heq | hchange
    · rw [heq]
      exact hserver
    · exact hserver.congr hchange.frame
  have hfresh : FreshlyPrepared "srv_A".toList "dts_D$N.ds".toList preparedBlock := by
    refine ⟨preparedKey_datasetKey "D/N".toList "ds".toList, by decide +kernel,
      fun k hk hlive => ?_⟩
    have hchildren : k ∈ [objRefNodeKey, "createdataset".toList, "removedataset".toList] :=
      (mem_children preparedBlock (prepPath "srv_A".toList "dts_D$N.ds".toList) k).2 hlive
    simp only [List.mem_cons, List.not_mem_nil, or_false] at hchildren
    rcases hchildren with rfl | rfl | rfl <;> exact absurd hk (by decide)
  exact preparedMembers_run (by decide) hreadable hfresh (by rfl)

end DslinkIec61850
