import DslinkIec61850.DataSet.Enumeration
import DslinkIec61850.DataSet.Preparation

/-!
# Choosing a data set

A client of the DSA reads `enum[a,b]` as the options `a` and `b` and sends one of
them back. For the data set of an RCB an option is the reference with `.` made `$`
(report_handler.c:49–73), which `getDataSetNodeFromRef` takes back; for Add to dataset
it is the name that was prepared (dataset_handler.c:15–37, client_handler.c:803–841).

* `references_identify`: references of clean names are told apart by their keys and
  by their options.
* `options_choose_iff`: when every prepared data set has one option that leads to it.
-/

namespace DslinkIec61850

open DSLink LinkState Run Strings Subtree

variable {σ : Type} [DSLink σ] {srv : Str} {t t' t₀ : σ}

/-! ## The text of an enumeration -/

/-- The names between brackets, separated by commas. -/
def enumText (names : List Str) : Str := "enum[".toList ++ ([','].intercalate names ++ [']'])

/-- The options of a text `enum[…]`. -/
def enumOptions (text : Str) : List Str :=
  let body := (text.drop 5).dropLast
  if body = [] then [] else body.splitOn ','

theorem intercalate_ne_nil {names : List Str} (hne : names ≠ []) (hnames : ∀ n ∈ names, n ≠ []) :
    [','].intercalate names ≠ [] := by
  obtain ⟨n, rest, rfl⟩ := List.exists_cons_of_ne_nil hne
  have hn := hnames n List.mem_cons_self
  cases rest with
  | nil => simpa using hn
  | cons m rest =>
    rw [List.intercalate_cons_cons]
    simp

/-- The names are read back exactly when none has a comma. -/
theorem enumOptions_enumText_iff {names : List Str} (hnames : ∀ n ∈ names, n ≠ []) :
    enumOptions (enumText names) = names ↔ ∀ n ∈ names, ',' ∉ n := by
  have hbody : ((enumText names).drop 5).dropLast = [','].intercalate names :=
    List.dropLast_concat
  unfold enumOptions
  dsimp only
  rw [hbody]
  by_cases hne : names = []
  · rw [hne]
    simp
  · rw [if_neg (intercalate_ne_nil hne hnames)]
    exact splitOn_intercalate_iff hne

/-- The loop over data sets that all have a name. -/
theorem appendNames_eq {nameOf : Str → Except Fault Str} {name : Str → Str} {keys : List Str}
    (hname : ∀ key ∈ keys, nameOf key = .ok (name key)) {enumStr : Str}
    (h : enumStr.length < 1000) :
    appendNames nameOf enumStr keys =
      if enumStr.length + lengthOf (keys.map name) < 1000 then
        .ok (enumStr ++ (keys.map name).flatMap fun n => n ++ [','])
      else .error .outOfBounds := by
  induction keys generalizing enumStr with
  | nil => simp [appendNames, lengthOf, h, pure, Except.pure]
  | cons key keys ih =>
    obtain ⟨hkey, hkeys⟩ := List.forall_mem_cons.1 hname
    have hlength : lengthOf ((key :: keys).map name) = (name key).length + 1 +
        lengthOf (keys.map name) := rfl
    have hround : appendNames nameOf enumStr (key :: keys) =
        (appendName enumStr (name key) >>= fun enumStr => appendNames nameOf enumStr keys) := by
      show List.foldlM _ _ _ = _
      rw [List.foldlM_cons, hkey]
      rfl
    rw [hround, hlength, appendName, storeIn]
    by_cases hfits : (enumStr ++ (name key ++ [','])).length < 1000
    · have hsum : (enumStr ++ (name key ++ [','])).length + lengthOf (keys.map name) =
          enumStr.length + ((name key).length + 1 + lengthOf (keys.map name)) := by
        simp only [List.length_append, List.length_singleton]
        omega
      rw [if_pos hfits]
      show appendNames nameOf (enumStr ++ (name key ++ [','])) keys = _
      rw [ih hkeys hfits, hsum]
      simp
    · rw [if_neg hfits, if_neg]
      · rfl
      · simp only [List.length_append, List.length_singleton] at hfits
        omega

/-- An enumeration of data sets that all have a name. -/
theorem enumStrOf_eq {folder : Path} {nameOf : Path → Str → Except Fault Str} {name : Str → Str}
    (hname : ∀ key ∈ datasetKeys t folder, nameOf folder key = .ok (name key)) :
    enumStrOf t (some folder) nameOf =
      if 5 + lengthOf ((datasetKeys t folder).map name) < 1000 then
        .ok (decide (datasetKeys t folder ≠ []), enumText ((datasetKeys t folder).map name))
      else .error .outOfBounds := by
  have hloop : appendNames (nameOf folder) "enum[".toList (datasetKeys t folder) = _ :=
    appendNames_eq hname (by decide)
  have hstart : "enum[".toList.length = 5 := by decide
  unfold enumStrOf
  dsimp only
  rw [hloop, hstart]
  by_cases hfits : 5 + lengthOf ((datasetKeys t folder).map name) < 1000
  · rw [if_pos hfits, if_pos hfits, ok_bind]
    by_cases hnone : datasetKeys t folder = []
    · rw [hnone]
      rfl
    · have hmap : (datasetKeys t folder).map name ≠ [] := by simpa using hnone
      rw [if_neg hnone, flatMap_separated hmap, ← List.append_assoc, List.dropLast_concat, enumText]
      simp [hnone, pure, Except.pure]
  · rw [if_neg hfits, if_neg hfits]
    rfl

/-! ## References of clean names -/

/-- A name without the characters that references, keys and enumerations use. -/
def CleanName (n : Str) : Prop := ∀ c ∈ ['/', '.', '$', ','], c ∉ n

instance (n : Str) : Decidable (CleanName n) := inferInstanceAs (Decidable (∀ c ∈ _, c ∉ n))

/-- A reference `LD/LN.DS` of clean names. -/
@[ext] structure DataSetRef where
  ld : Str
  ln : Str
  ds : Str
  ld_clean : CleanName ld
  ln_clean : CleanName ln
  ds_clean : CleanName ds

namespace DataSetRef

/-- The reference as it is written. -/
def text (r : DataSetRef) : Str := r.ld ++ '/' :: (r.ln ++ '.' :: r.ds)

/-- The option for a data set. -/
def option (r : DataSetRef) : Str := replace '.' '$' r.text

theorem not_mem_text (r : DataSetRef) {c : Char} (hc : c ∈ ['$', ',']) : c ∉ r.text := by
  have hsep : c ∈ ['/', '.', '$', ','] := by
    simp only [List.mem_cons, List.not_mem_nil, or_false] at hc ⊢
    exact .inr (.inr hc)
  have hslash : c ≠ '/' := by
    rintro rfl
    exact absurd hc (by decide)
  have hdot : c ≠ '.' := by
    rintro rfl
    exact absurd hc (by decide)
  simp only [text, List.mem_append, List.mem_cons, not_or]
  exact ⟨r.ld_clean c hsep, hslash, r.ln_clean c hsep, hdot, r.ds_clean c hsep⟩

theorem datasetKey_text (r : DataSetRef) :
    datasetKey r.text = dtsKeyInit ++ (r.ld ++ '$' :: (r.ln ++ '.' :: r.ds)) := by
  have hfree {n : Str} (hn : CleanName n) : replace '/' '$' n = n :=
    replace_of_not_mem (hn '/' (by decide))
  have hinit : replace '/' '$' dtsKeyInit = dtsKeyInit := by decide
  have hslash : replace '/' '$' ('/' :: (r.ln ++ '.' :: r.ds)) = '$' ::
      replace '/' '$' (r.ln ++ '.' :: r.ds) := rfl
  have hdot : replace '/' '$' ('.' :: r.ds) = '.' :: replace '/' '$' r.ds := rfl
  rw [datasetKey, text, replace_append, replace_append, hinit, hslash, replace_append, hdot,
    hfree r.ld_clean, hfree r.ln_clean, hfree r.ds_clean]

/-- The key is cut at the first `$` after `dts_` and then at the first `.`. -/
theorem datasetKey_injective {r r' : DataSetRef} (h : datasetKey r.text = datasetKey r'.text) :
    r = r' := by
  rw [datasetKey_text, datasetKey_text, List.append_cancel_left_eq] at h
  obtain ⟨hld, h⟩ :=
    (append_cons_inj (r.ld_clean '$' (by decide)) (r'.ld_clean '$' (by decide))).1 h
  obtain ⟨hln, hds⟩ :=
    (append_cons_inj (r.ln_clean '.' (by decide)) (r'.ln_clean '.' (by decide))).1 h
  exact DataSetRef.ext hld hln hds

/-- What becomes of an option is the key of the reference: there was no `$` before. -/
theorem refNodeKey_option (r : DataSetRef) : refNodeKey r.option = datasetKey r.text := by
  have hback : replace '$' '.' (dtsKeyInit ++ r.option) = dtsKeyInit ++ r.text := by
    have hinit : replace '$' '.' dtsKeyInit = dtsKeyInit := by decide
    rw [replace_append, hinit, option, replace_replace (r.not_mem_text (by decide))]
  rw [refNodeKey, hback, datasetKey]

theorem option_ne_nil (r : DataSetRef) : r.option ≠ [] := by
  simp [option, text, replace]

theorem length_option (r : DataSetRef) : r.option.length = r.text.length := by
  simp [option, replace]

theorem comma_not_mem_option (r : DataSetRef) : ',' ∉ r.option := by
  intro h
  obtain ⟨c, hc, hcomma⟩ := List.mem_map.1 h
  split_ifs at hcomma with hdot
  · cases hcomma
  · rw [hcomma] at hc
    exact r.not_mem_text (by decide) hc

end DataSetRef

/-- The reference `LD/LN.RP.name` or `LD/LN.BR.name` of an RCB, of clean names. -/
@[ext] structure RcbRef where
  isBuffered : Bool
  ld : Str
  ln : Str
  name : Str
  ld_clean : CleanName ld
  ln_clean : CleanName ln
  name_clean : CleanName name

namespace RcbRef

/-- The reference as it is written. -/
def text (r : RcbRef) : Str := rcbRefOf r.isBuffered (r.ld ++ '/' :: r.ln) r.name

/-- The key of the node. -/
def key (r : RcbRef) : Str := rcbNodeKey r.isBuffered r.text

/-- The letters between the points. -/
def kind (isBuffered : Bool) : Str := if isBuffered then "BR".toList else "RP".toList

theorem text_eq (r : RcbRef) :
    r.text = r.ld ++ '/' :: (r.ln ++ '.' :: (kind r.isBuffered ++ '.' :: r.name)) := by
  unfold text rcbRefOf kind
  cases r.isBuffered <;> simp

theorem key_eq (r : RcbRef) :
    r.key = (if r.isBuffered then brcbNodeKeyInit else urcbNodeKeyInit) ++
      (r.ld ++ '$' :: (r.ln ++ '.' :: (kind r.isBuffered ++ '.' :: r.name))) := by
  have hfree {n : Str} (hn : CleanName n) : replace '/' '$' n = n :=
    replace_of_not_mem (hn '/' (by decide))
  have hcons {c : Char} (hc : c ≠ '/') (s : Str) :
      replace '/' '$' (c :: s) = c :: replace '/' '$' s := by
    simp [replace, hc]
  have hslash (s : Str) : replace '/' '$' ('/' :: s) = '$' :: replace '/' '$' s := rfl
  have hkind : replace '/' '$' (kind r.isBuffered) = kind r.isBuffered := by
    cases r.isBuffered <;> decide
  have hinit : replace '/' '$' (if r.isBuffered then brcbNodeKeyInit else urcbNodeKeyInit) =
      if r.isBuffered then brcbNodeKeyInit else urcbNodeKeyInit := by
    cases r.isBuffered <;> decide
  rw [key, rcbNodeKey, rcbNodeKeyText, text_eq, replace_append, hinit, replace_append, hslash,
    replace_append, hcons (by decide), replace_append, hkind, hcons (by decide), hfree r.ld_clean,
    hfree r.ln_clean, hfree r.name_clean]

/-- The first four characters tell the kinds apart. -/
theorem key_injective {r r' : RcbRef} (h : r.key = r'.key) : r = r' := by
  have hkinds : r.isBuffered = r'.isBuffered := by
    have htake := congrArg (List.take 4) h
    rw [key_eq, key_eq] at htake
    cases hb : r.isBuffered <;> cases hb' : r'.isBuffered
    · rfl
    · rw [hb, hb'] at htake
      simp [urcbNodeKeyInit, brcbNodeKeyInit] at htake
    · rw [hb, hb'] at htake
      simp [urcbNodeKeyInit, brcbNodeKeyInit] at htake
    · rfl
  rw [key_eq, key_eq, hkinds, List.append_cancel_left_eq] at h
  obtain ⟨hld, h⟩ :=
    (append_cons_inj (r.ld_clean '$' (by decide)) (r'.ld_clean '$' (by decide))).1 h
  obtain ⟨hln, h⟩ :=
    (append_cons_inj (r.ln_clean '.' (by decide)) (r'.ln_clean '.' (by decide))).1 h
  have hkind : '.' ∉ kind r'.isBuffered := by cases r'.isBuffered <;> decide
  obtain ⟨-, hname⟩ := (append_cons_inj hkind hkind).1 h
  exact RcbRef.ext hkinds hld hln hname

end RcbRef

/-! ## The data set of an RCB -/

/-- A data set with a clean reference: it was copied into the array for the key when
the node was created, the node has its key and shows it. -/
structure CleanDataSet (srv : Str) (t : σ) (ds : Str) (r : DataSetRef) : Prop where
  fits : FitsIn (some 300) (dtsKeyInit ++ r.text)
  key : ds = datasetKey r.text
  shown : shownText t (datasetPath srv ds) objRefNodeKey = .ok (some r.text)

/-- Every data set of the folder has a clean reference. -/
def CleanFolder (srv : Str) (t : σ) : Prop :=
  ∀ ds ∈ datasetKeys t [srv, datasetFolderNodeKey], ∃ r, CleanDataSet srv t ds r

theorem mem_datasetKeys {folder : Path} {ds : Str} :
    ds ∈ datasetKeys t folder ↔ Live t (folder ++ [ds]) ∧ hasInit dtsKeyInit ds = true := by
  rw [datasetKeys, List.mem_filter, mem_children]
  rfl

theorem shownText_congr {p : Path}
    (h : lookup t' (p ++ [objRefNodeKey]) = lookup t (p ++ [objRefNodeKey])) :
    shownText t' p objRefNodeKey = shownText t p objRefNodeKey := by
  unfold shownText
  rw [getPath_eq_child (by decide) (by decide), getPath_eq_child (by decide) (by decide),
    child, child, h]
  split_ifs
  · dsimp only
    rw [valueOf, valueOf, h]
  · rfl

/-- A data set that is created has a clean reference when its names are clean. -/
theorem CleanFolder.create {node : Option Path} {r : DataSetRef} {isDeletable : Bool}
    (h : CleanFolder srv t)
    (hcreate : createDatasetNode t (some [srv, datasetFolderNodeKey]) r.text isDeletable =
      .ok (node, t')) :
    CleanFolder srv t' := by
  have hfits : FitsIn (some 300) (dtsKeyInit ++ r.text) := by
    obtain ⟨_, hstored, -⟩ := bind_eq_ok.1 hcreate
    exact storeIn_eq_ok.1 hstored
  rcases createDatasetNode_ok hcreate with ⟨hnone, -⟩ | ⟨main, hmain, -, hgrafts⟩
  · cases hnone
  cases hmain
  intro ds hds
  by_cases hkey : datasetKey r.text = ds
  · rw [← hkey]
    refine ⟨r, hfits, rfl, ?_⟩
    have hobj : lookup t' (datasetPath srv (datasetKey r.text) ++ [objRefNodeKey]) =
        some ((DSNode.shown "string".toList (.string r.text)).setMeta "$name".toList
          (.string "Obj. Ref.".toList)) := by
      show sub t' ([srv, datasetFolderNodeKey] ++ [datasetKey r.text]) [objRefNodeKey] = _
      rw [hgrafts.sub_eq]
      rfl
    have hchild : child t' (datasetPath srv (datasetKey r.text)) objRefNodeKey =
        some (datasetPath srv (datasetKey r.text) ++ [objRefNodeKey]) := by
      rw [child_eq_some, Live, hobj]
      exact ⟨rfl, rfl⟩
    rw [shownText, getPath_eq_child (by decide) (by decide), hchild]
    dsimp only
    rw [valueOf, hobj]
    rfl
  · have hsame (q : Path) :
        lookup t' (datasetPath srv ds ++ q) = lookup t (datasetPath srv ds ++ q) :=
      hgrafts.frame _ (not_prefix_child (p := [srv, datasetFolderNodeKey]) hkey)
    obtain ⟨hlive, hinit⟩ := mem_datasetKeys.1 hds
    have hold : Live t ([srv, datasetFolderNodeKey] ++ [ds]) := by
      have hself := hsame []
      rw [List.append_nil] at hself
      exact (congrArg Option.isSome hself).symm.trans hlive
    obtain ⟨r', hclean⟩ := h ds (mem_datasetKeys.2 ⟨hold, hinit⟩)
    exact ⟨r', hclean.fits, hclean.key,
      (shownText_congr (hsame [objRefNodeKey])).trans hclean.shown⟩

/-- The option of a data set leads to its node. -/
theorem CleanDataSet.chosen (hsrv : hasInit srvKeyInit srv = true) {ds : Str} {r : DataSetRef}
    (h : CleanDataSet srv t ds r) (hfolder : Live t [srv, datasetFolderNodeKey])
    (hlive : Live t (datasetPath srv ds)) (q : Path) : getDataSetNodeFromRef t (srv :: q)
    (some r.option) = .ok (some (datasetPath srv ds)) := by
  have hfits : FitsIn (some 300) (dtsKeyInit ++ r.option) := by
    have hold := h.fits
    rw [fitsIn_some, List.length_append] at hold ⊢
    rw [r.length_option]
    exact hold
  have hmain : child t [srv] datasetFolderNodeKey = some [srv, datasetFolderNodeKey] :=
    child_eq_some.2 ⟨rfl, hfolder⟩
  have hnode : child t [srv, datasetFolderNodeKey] (refNodeKey r.option) =
      some (datasetPath srv ds) := by
    rw [r.refNodeKey_option, ← h.key]
    exact child_eq_some.2 ⟨rfl, hlive⟩
  have hstored : storeIn (some 300) (dtsKeyInit ++ r.option) = .ok () := storeIn_eq_ok.2 hfits
  rw [getDataSetNodeFromRef_eq hsrv, hstored, ok_bind, hmain]
  dsimp only
  rw [hnode]

/-- An option of the enumeration for an RCB: it is the reference of a data set with
`.` made `$`, and stored in an RCB it leads to the node of this data set. -/
def ChoosesDataSet (srv : Str) (t : σ) (ds option : Str) : Prop :=
  (∃ ref, shownText t (datasetPath srv ds) objRefNodeKey = .ok (some ref) ∧
    option = replace '.' '$' ref) ∧
    ∀ (q : Path) (rcb : ClientReportControlBlock), rcb.getDataSetReference = some option →
      getDataSetNodeFromRef t (srv :: q) rcb.getDataSetReference = .ok (some (datasetPath srv ds))

theorem CleanDataSet.rcbDataSetRef {ds : Str} {r : DataSetRef} (h : CleanDataSet srv t ds r) :
    DslinkIec61850.rcbDataSetRef t [srv, datasetFolderNodeKey] ds = .ok r.option := by
  have hshown : shownText t ([srv, datasetFolderNodeKey] ++ [ds]) objRefNodeKey =
      .ok (some r.text) := h.shown
  rw [DslinkIec61850.rcbDataSetRef, hshown]
  rfl

theorem CleanDataSet.chooses (hsrv : hasInit srvKeyInit srv = true) {ds : Str} {r : DataSetRef}
    (h : CleanDataSet srv t ds r) (hfolder : Live t [srv, datasetFolderNodeKey])
    (hlive : Live t (datasetPath srv ds)) :
    ChoosesDataSet srv t ds r.option := by
  refine ⟨⟨r.text, h.shown, rfl⟩, fun q rcb hrcb => ?_⟩
  rw [hrcb]
  exact h.chosen hsrv hfolder hlive q

/-- **References.** References of clean names have different node keys, for data sets
and for RCBs. The option for a data set with such a reference leads to its node; and
when all data sets have such references, the options that are read from the enumeration
are one for each data set of the folder, in its order. -/
theorem references_identify (hsrv : hasInit srvKeyInit srv = true)
    (hfolder : Live t [srv, datasetFolderNodeKey]) :
    (∀ r r' : DataSetRef, datasetKey r.text = datasetKey r'.text → r = r') ∧
    (∀ (ds : Str) (r : DataSetRef), CleanDataSet srv t ds r → Live t (datasetPath srv ds) →
      rcbDataSetRef t [srv, datasetFolderNodeKey] ds = .ok r.option ∧
      ChoosesDataSet srv t ds r.option) ∧
    (CleanFolder srv t → ∀ (q : Path) (found : Bool) (text : Str),
      getDataSetListEnumStrForRCB t (srv :: q) = .ok (found, text) →
      List.Forall₂ (ChoosesDataSet srv t) (datasetKeys t [srv, datasetFolderNodeKey])
        (enumOptions text)) ∧
    ∀ r r' : RcbRef, r.key = r'.key → r = r' := by
  refine ⟨fun r r' => DataSetRef.datasetKey_injective,
    fun ds r h hlive => ⟨h.rcbDataSetRef, h.chooses hsrv hfolder hlive⟩, ?_,
    fun r r' => RcbRef.key_injective⟩
  intro hclean q found text htext
  let folder := [srv, datasetFolderNodeKey]
  let name (ds : Str) : Str := match rcbDataSetRef t folder ds with
    | .ok option => option
    | .error _ => []
  have hname {ds : Str} {r : DataSetRef} (h : CleanDataSet srv t ds r) : name ds = r.option := by
    show (match rcbDataSetRef t folder ds with
      | .ok option => option
      | .error _ => []) = _
    rw [h.rcbDataSetRef]
  have hnames : ∀ ds ∈ datasetKeys t folder, rcbDataSetRef t folder ds = .ok (name ds) := by
    intro ds hds
    obtain ⟨r, hr⟩ := hclean ds hds
    rw [hname hr]
    exact hr.rcbDataSetRef
  have hmain : getMainDatasetNode t (srv :: q) = some folder := by
    rw [getMainDatasetNode, folderOf_server hsrv t q (by decide) (by decide)]
    exact child_eq_some.2 ⟨rfl, hfolder⟩
  rw [getDataSetListEnumStrForRCB, hmain, enumStrOf_eq hnames] at htext
  split_ifs at htext with hfits
  cases htext
  have hoptions : enumOptions (enumText ((datasetKeys t folder).map name)) =
      (datasetKeys t folder).map name := by
    apply (enumOptions_enumText_iff _).2
    · intro n hn
      obtain ⟨ds, hds, rfl⟩ := List.mem_map.1 hn
      obtain ⟨r, hr⟩ := hclean ds hds
      rw [hname hr]
      exact r.comma_not_mem_option
    · intro n hn
      obtain ⟨ds, hds, rfl⟩ := List.mem_map.1 hn
      obtain ⟨r, hr⟩ := hclean ds hds
      rw [hname hr]
      exact r.option_ne_nil
  rw [hoptions, List.forall₂_map_right_iff, List.forall₂_same]
  intro ds hds
  obtain ⟨r, hr⟩ := hclean ds hds
  rw [hname hr]
  exact hr.chooses hsrv hfolder (mem_datasetKeys.1 hds).1

/-- Two data sets with clean references. -/
def statusDataSet : DataSetRef where
  ld := "D".toList
  ln := "LLN0".toList
  ds := "status".toList
  ld_clean := by decide
  ln_clean := by decide
  ds_clean := by decide

def eventDataSet : DataSetRef := { statusDataSet with ds := "events".toList, ds_clean := by decide }

/-- The folder with a data set. -/
def withDataSet (t : NodeStore) (r : DataSetRef) : NodeStore :=
  match createDatasetNode t (some ["srv_a".toList, datasetFolderNodeKey]) r.text true with
  | .ok (_, t) => t
  | .error _ => t

theorem cleanFolder_withDataSet {t : NodeStore} (h : CleanFolder "srv_a".toList t)
    (r : DataSetRef) : CleanFolder "srv_a".toList (withDataSet t r) := by
  unfold withDataSet
  split
  · rename_i t' hcreate
    exact h.create hcreate
  · exact h

/-- The folder with both. -/
def twoDataSets : NodeStore :=
  let folders := createDatasetReportNodes NodeStore.empty ["srv_a".toList]
  withDataSet (withDataSet folders statusDataSet) eventDataSet

theorem cleanFolder_twoDataSets : CleanFolder "srv_a".toList twoDataSets := by
  have hempty : CleanFolder "srv_a".toList
      (createDatasetReportNodes NodeStore.empty ["srv_a".toList]) := by
    intro ds hds
    have hnone : datasetKeys (createDatasetReportNodes NodeStore.empty ["srv_a".toList])
        ["srv_a".toList, datasetFolderNodeKey] = [] := by rfl
    rw [hnone] at hds
    cases hds
  exact cleanFolder_withDataSet (cleanFolder_withDataSet hempty _) _

theorem references_identify_twoDataSets :
    List.Forall₂ (ChoosesDataSet "srv_a".toList twoDataSets)
      (datasetKeys twoDataSets ["srv_a".toList, datasetFolderNodeKey])
      ["D/LLN0$status".toList, "D/LLN0$events".toList] := by
  have htext : getDataSetListEnumStrForRCB twoDataSets ["srv_a".toList] =
      .ok (true, "enum[D/LLN0$status,D/LLN0$events]".toList) := by rfl
  exact (references_identify (by decide) (by decide +kernel)).2.2.1 cleanFolder_twoDataSets
    [] _ _ htext

/-! ## The prepared data sets -/

/-- Each prepared data set has one option, its name, and Add to dataset with this option
puts the reference `m` of the data attribute `da` into this data set and nowhere else. -/
structure OptionsChoose (srv : Str) (t : σ) (q da : Path) (a m : Str) : Prop where
  options : ∃ found text, getPrepDSListEnumStr t (srv :: q) = .ok (found, text) ∧
    enumOptions text = (datasetKeys t [srv, datasetPrepFolderNodeKey]).map (List.drop 4)
  chosen : ∀ ds ∈ datasetKeys t [srv, datasetPrepFolderNodeKey], ∃ t',
    addDAToDSAction t (srv :: da ++ [a]) (addParams ds) = .ok t' ∧
      Grafts t t' (prepPath srv ds ++ [prepMemberKey m]) (memberTree m)

/-- The names can be told apart in the text and fit into the arrays. -/
structure OptionsFit (keys : List Str) : Prop where
  comma : ∀ ds ∈ keys, ',' ∉ ds
  length : ∀ ds ∈ keys, ds.length < 200
  text : 5 + lengthOf (keys.map (List.drop 4)) < 1000

/-- The data sets that are prepared one after the other. -/
def prepareAll (srv : Str) (t : σ) (run : List (Path × Json)) : Except Fault σ :=
  run.foldlM (fun t r => prepareDatasetAction t (srv :: r.1) r.2) t

/-- What is left of preparations in an empty folder. -/
structure PreparedFrom (srv : Str) (t₀ t : σ) : Prop where
  frame : ∀ q, ¬ [srv, datasetPrepFolderNodeKey] <+: q → lookup t q = lookup t₀ q
  folder : Live t [srv, datasetPrepFolderNodeKey]
  keys : ∀ ds, hasInit dtsKeyInit ds = true → Live t (prepPath srv ds) → PreparedKey ds

theorem PreparedFrom.prepare (hsrv : hasInit srvKeyInit srv = true) (h : PreparedFrom srv t₀ t)
    {q : Path} {params : Json} (hrun : prepareDatasetAction t (srv :: q) params = .ok t') :
    PreparedFrom srv t₀ t' := by
  rcases prepareDatasetAction_ok hsrv hrun with rfl | ⟨lnRef, name, -, -, -, hgrafts⟩
  · exact h
  · refine ⟨?_, ?_, ?_⟩
    · intro x hx
      rw [hgrafts.frame x fun hpre =>
        hx ((List.prefix_append _ [datasetKey (lnRef ++ '.' :: name)]).trans hpre)]
      exact h.frame x hx
    · have hsame := hgrafts.frame [srv, datasetPrepFolderNodeKey] fun hpre => by
        simpa [prepPath] using hpre.length_le
      rw [Live, hsame]
      exact h.folder
    · intro ds hinit hlive
      by_cases hds : datasetKey (lnRef ++ '.' :: name) = ds
      · rw [← hds]
        exact preparedKey_datasetKey lnRef name
      · have hsame := hgrafts.frame (prepPath srv ds)
          (not_prefix_child (p := [srv, datasetPrepFolderNodeKey]) (r := []) hds)
        rw [Live, hsame] at hlive
        exact h.keys ds hinit hlive

theorem preparedFrom_prepareAll (hsrv : hasInit srvKeyInit srv = true)
    (hfolder : Live t₀ [srv, datasetPrepFolderNodeKey])
    (hempty : ∀ ds, hasInit dtsKeyInit ds = true → ¬ Live t₀ (prepPath srv ds))
    {run : List (Path × Json)} (hrun : prepareAll srv t₀ run = .ok t) : PreparedFrom srv t₀ t := by
  refine foldlM_invariant (I := PreparedFrom srv t₀) ?_ hrun
    ⟨fun _ _ => rfl, hfolder, fun ds hinit hlive => absurd hlive (hempty ds hinit)⟩
  exact fun r _ t t' h hstep => h.prepare hsrv hstep

theorem attributeOf_of_memberOf {da : Path} {m : Str} (h : memberOf t da = some m) :
    ∃ fc ref, attributeOf t da = some (some fc, some ref) ∧ m = ref ++ '[' :: (fc ++ [']']) := by
  unfold memberOf at h
  split at h
  · rename_i fc ref hattr
    exact ⟨fc, ref, hattr, (Option.some.inj h).symm⟩
  · cases h

theorem addMemberToPrepDatasetNode_ends (node : Path) {m : Str} (hslash : '/' ∈ m)
    (hfits : FitsIn (some 400) (dseKeyInit ++ m)) :
    ∃ t', addMemberToPrepDatasetNode t node m = .ok t' := by
  have hstored : storeIn (some 400) (dseKeyInit ++ m) = .ok () := storeIn_eq_ok.2 hfits
  have hcut : ∃ rest, (cut '/' (dseKeyInit ++ m)).2 = some rest := by
    rw [← Option.ne_none_iff_exists', Ne, cut_snd_eq_none, not_not]
    exact List.mem_append_right _ hslash
  obtain ⟨rest, hrest⟩ := hcut
  have hreplaced : replaceSlash (dseKeyInit ++ m) =
      .ok ((cut '/' (dseKeyInit ++ m)).1 ++ '$' :: rest) := by
    unfold replaceSlash
    rw [← Prod.mk.eta (p := cut '/' (dseKeyInit ++ m)), hrest]
  unfold addMemberToPrepDatasetNode
  rw [hstored, ok_bind, hreplaced, ok_bind]
  exact ⟨_, rfl⟩

/-- An Add to dataset with the option of a prepared data set ends exactly when the key
fits into its array. -/
theorem addDAToDSAction_ends_iff (hsrv : hasInit srvKeyInit srv = true) {ds a m : Str}
    (hkey : PreparedKey ds) (hfolder : Live t [srv, datasetPrepFolderNodeKey])
    (hlive : Live t (prepPath srv ds)) {da : Path}
    (hm : memberOf t (srv :: da) = some m) (hslash : '/' ∈ m)
    (hfits : FitsIn (some 400) (dseKeyInit ++ m)) :
    (∃ t', addDAToDSAction t (srv :: da ++ [a]) (addParams ds) = .ok t') ↔ ds.length < 200 := by
  have hparam : Json.stringValue ((addParams ds).objectGet "Dataset".toList) =
      some (ds.drop 4) := by
    simp [addParams, Json.objectGet, Json.stringValue]
  obtain ⟨d, option, hoption⟩ := List.exists_cons_of_ne_nil hkey.option_ne
  obtain ⟨fc, ref, hattr, hmember⟩ := attributeOf_of_memberOf hm
  unfold addDAToDSAction
  rw [hparam, hoption]
  dsimp only
  rw [← hoption, hkey.eq]
  constructor
  · rintro ⟨t', h⟩
    obtain ⟨_, hstored, -⟩ := bind_eq_ok.1 h
    exact fitsIn_some.1 (storeIn_eq_ok.1 hstored)
  · intro hlength
    have hstored : storeIn (some 200) ds = .ok () := storeIn_eq_ok.2 (fitsIn_some.2 hlength)
    have hwhole : storeIn (some 400) m = .ok () := by
      rw [storeIn_eq_ok]
      rw [fitsIn_some, List.length_append] at hfits
      exact fitsIn_some.2 (by omega)
    have hmain : getMainPrepDatasetNode t (srv :: da ++ [a]) =
        some [srv, datasetPrepFolderNodeKey] := by
      rw [getMainPrepDatasetNode, List.cons_append,
        folderOf_server hsrv t _ (by decide) (by decide)]
      exact child_eq_some.2 ⟨rfl, hfolder⟩
    have hnode : getPath t [srv, datasetPrepFolderNodeKey] ds = some (prepPath srv ds) := by
      have hne : ds ≠ [] := by
        rintro rfl
        exact hkey.option_ne rfl
      rw [getPath_eq_child hne hkey.slash]
      exact child_eq_some.2 ⟨rfl, hlive⟩
    obtain ⟨t', hadded⟩ := addMemberToPrepDatasetNode_ends (t := t) (prepPath srv ds) hslash hfits
    refine ⟨t', ?_⟩
    unfold attributeOf at hattr
    rw [hstored, ok_bind, List.dropLast_concat, getPath_eq_child (by decide) (by decide),
      getPath_eq_child (by decide) (by decide), hmain]
    split at hattr
    · rename_i fcNode refNode hfcNode hrefNode
      obtain ⟨hfc, href⟩ := Prod.mk.inj (Option.some.inj hattr)
      have hobject : child t (srv :: da) daObjectRefNodeKey = some refNode := hrefNode
      rw [hobject, hfcNode]
      dsimp only
      rw [hnode]
      dsimp only
      rw [hfc, href, deref, ok_bind, deref, ok_bind, ← hmember, hwhole, ok_bind]
      exact hadded
    · cases hattr

/-- The text for prepared data sets. -/
theorem getPrepDSListEnumStr_eq (hsrv : hasInit srvKeyInit srv = true)
    (hfolder : Live t [srv, datasetPrepFolderNodeKey]) (q : Path) :
    getPrepDSListEnumStr t (srv :: q) =
      if 5 + lengthOf
          ((datasetKeys t [srv, datasetPrepFolderNodeKey]).map (List.drop 4)) < 1000 then
        .ok (decide (datasetKeys t [srv, datasetPrepFolderNodeKey] ≠ []),
          enumText ((datasetKeys t [srv, datasetPrepFolderNodeKey]).map (List.drop 4)))
      else .error .outOfBounds := by
  have hmain : getMainPrepDatasetNode t (srv :: q) = some [srv, datasetPrepFolderNodeKey] := by
    rw [getMainPrepDatasetNode, folderOf_server hsrv t q (by decide) (by decide)]
    exact child_eq_some.2 ⟨rfl, hfolder⟩
  rw [getPrepDSListEnumStr, hmain]
  exact enumStrOf_eq fun _ _ => rfl

/-- **Options.** After a run of preparations in an empty folder every prepared data set
has one option, which leads to it, exactly when no name has a comma and the names fit
into the arrays. -/
theorem options_choose_iff (hsrv : hasInit srvKeyInit srv = true)
    (hfolder : Live t₀ [srv, datasetPrepFolderNodeKey])
    (hempty : ∀ ds, hasInit dtsKeyInit ds = true → ¬ Live t₀ (prepPath srv ds))
    {run : List (Path × Json)} (hrun : prepareAll srv t₀ run = .ok t) {da : Path}
    (hda : hasInit ldnKeyInit (da.headD []) = true) {m : Str}
    (hm : memberOf t₀ (srv :: da) = some m) (hslash : '/' ∈ m)
    (hfits : FitsIn (some 400) (dseKeyInit ++ m)) (q : Path) (a : Str) :
    OptionsChoose srv t q da a m ↔ OptionsFit (datasetKeys t [srv, datasetPrepFolderNodeKey]) := by
  have hprepared := preparedFrom_prepareAll hsrv hfolder hempty hrun
  have hkeys {ds : Str} (hds : ds ∈ datasetKeys t [srv, datasetPrepFolderNodeKey]) :
      PreparedKey ds ∧ Live t (prepPath srv ds) := by
    obtain ⟨hlive, hinit⟩ := mem_datasetKeys.1 hds
    exact ⟨hprepared.keys ds hinit hlive, hlive⟩
  have hmember : memberOf t (srv :: da) = some m := by
    rw [memberOf_congr hda hprepared.frame, hm]
  have hends {ds : Str} (hds : ds ∈ datasetKeys t [srv, datasetPrepFolderNodeKey]) :
      (∃ t', addDAToDSAction t (srv :: da ++ [a]) (addParams ds) = .ok t') ↔ ds.length < 200 :=
    addDAToDSAction_ends_iff hsrv (hkeys hds).1 hprepared.folder (hkeys hds).2 hmember hslash hfits
  have hnames : ∀ n ∈ (datasetKeys t [srv, datasetPrepFolderNodeKey]).map (List.drop 4),
      n ≠ [] := by
    intro n hn
    obtain ⟨ds, hds, rfl⟩ := List.mem_map.1 hn
    exact (hkeys hds).1.option_ne
  have hcomma {ds : Str} (hds : ds ∈ datasetKeys t [srv, datasetPrepFolderNodeKey]) :
      ',' ∈ ds ↔ ',' ∈ ds.drop 4 := by
    conv_lhs => rw [← (hkeys hds).1.eq, List.mem_append]
    exact or_iff_right (by decide)
  have htext := getPrepDSListEnumStr_eq hsrv hprepared.folder q
  constructor
  · rintro ⟨⟨found, text, hok, hoptions⟩, hchosen⟩
    rw [htext] at hok
    split_ifs at hok with hsum
    cases hok
    refine ⟨fun ds hds => ?_, fun ds hds => ?_, hsum⟩
    · rw [hcomma hds]
      exact (enumOptions_enumText_iff hnames).1 hoptions _ (List.mem_map_of_mem hds)
    · obtain ⟨t', hadd, -⟩ := hchosen ds hds
      exact (hends hds).1 ⟨t', hadd⟩
  · intro hfit
    constructor
    · refine ⟨_, _, by rw [htext, if_pos hfit.text], ?_⟩
      apply (enumOptions_enumText_iff hnames).2
      intro n hn
      obtain ⟨ds, hds, rfl⟩ := List.mem_map.1 hn
      rw [← hcomma hds]
      exact hfit.comma ds hds
    · intro ds hds
      obtain ⟨t', hadd⟩ := (hends hds).2 (hfit.length ds hds)
      have hgrafts := addDAToDSAction_ok hsrv (hkeys hds).1 (hkeys hds).2 hadd
      rw [hmember] at hgrafts
      exact ⟨t', hadd, hgrafts⟩

/-- Data sets that are prepared with these names. -/
def prepareNames (names : List String) : List (Path × Json) :=
  names.map fun name =>
    (["ldn_D".toList, "N".toList, "prepdataset".toList],
      .object [("Name".toList, .string name.toList)])

/-- The discovered server with these data sets prepared. -/
def preparedNames (names : List String) : NodeStore :=
  match prepareAll "srv_A".toList blockLink.tree (prepareNames names) with
  | .ok t => t
  | .error _ => blockLink.tree

/-- The path of the status. -/
def statusPath : Path := ["ldn_D".toList, "N".toList, "P".toList, "stVal[ST]".toList]

theorem options_choose_iff_two :
    OptionsChoose "srv_A".toList (preparedNames ["ds", "events"]) [] statusPath "adddataset".toList
        "D/N.P.stVal[ST]".toList ↔
      OptionsFit (datasetKeys
        (preparedNames ["ds", "events"]) ["srv_A".toList, datasetPrepFolderNodeKey]) := by
  have hempty (ds : Str) (hinit : hasInit dtsKeyInit ds = true) :
      ¬ Live blockLink.tree (prepPath "srv_A".toList ds) := by
    intro hlive
    have hchild : ds ∈ ["desc".toList] :=
      (mem_children blockLink.tree ["srv_A".toList, datasetPrepFolderNodeKey] ds).2 hlive
    rw [List.mem_singleton.1 hchild] at hinit
    exact absurd hinit (by decide)
  have hrun : prepareAll "srv_A".toList blockLink.tree (prepareNames ["ds", "events"]) =
      .ok (preparedNames ["ds", "events"]) := by rfl
  have hm : memberOf blockLink.tree ("srv_A".toList :: statusPath) =
      some "D/N.P.stVal[ST]".toList := by rfl
  exact options_choose_iff (by decide) (by decide +kernel) hempty hrun (by decide) hm (by decide)
    (fitsIn_some.2 (by decide)) [] _

/-- A name with a comma becomes two options. -/
theorem comma_options :
    prepareAll "srv_A".toList blockLink.tree (prepareNames ["a,b"]) = .ok (preparedNames ["a,b"]) ∧
      ¬ OptionsChoose "srv_A".toList (preparedNames ["a,b"]) [] statusPath "adddataset".toList
        "D/N.P.stVal[ST]".toList := by
  refine ⟨rfl, fun h => ?_⟩
  obtain ⟨found, text, htext, hoptions⟩ := h.options
  have hcomma : getPrepDSListEnumStr (preparedNames ["a,b"]) ["srv_A".toList] =
      .ok (true, "enum[D$N.a,b]".toList) := by rfl
  have hkeys : datasetKeys (preparedNames ["a,b"]) ["srv_A".toList, datasetPrepFolderNodeKey] =
      ["dts_D$N.a,b".toList] := by rfl
  rw [hcomma] at htext
  cases htext
  rw [hkeys] at hoptions
  exact absurd hoptions (by decide)

end DslinkIec61850
