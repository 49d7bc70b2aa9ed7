import DslinkIec61850.DataSet.Nodes

/-!
# The data sets to choose from

When the node of a data attribute or of the data set of an RCB is opened, the
parameter of its action becomes an enumeration of the data sets
(dataset_handler.c:15–37, report_handler.c:49–73). The text is put together in an
array of 1000 characters.

* `inBounds_enumStrOf`: the names fit exactly when the sum of their lengths does.
-/

namespace DslinkIec61850

open DSLink LinkState Run Strings

variable {σ : Type} [DSLink σ]

/-! ## The text of an enumeration -/

/-- A name and a comma are appended. -/
def appendName (enumStr name : Str) : Except Fault Str := do
  storeIn (some 1000) (enumStr ++ (name ++ [',']))
  return enumStr ++ (name ++ [','])

/-- The keys of the data sets in a folder. -/
def datasetKeys (t : σ) (folder : Path) : List Str :=
  (children t folder).filter (hasInit dtsKeyInit)

/-- The loop over the data sets of a folder. -/
def appendNames (nameOf : Str → Except Fault Str) (enumStr : Str) (keys : List Str) :
    Except Fault Str :=
  keys.foldlM (fun enumStr key => do appendName enumStr (← nameOf key)) enumStr

/-- The common course of both enumerations; the flag tells whether there is a data
set. The last comma is replaced. -/
def enumStrOf (t : σ) (folder : Option Path) (nameOf : Path → Str → Except Fault Str) :
    Except Fault (Bool × Str) :=
  match folder with
  | none => .ok (false, "enum[]".toList)
  | some folder => do
    let enumStr ← appendNames (nameOf folder) "enum[".toList (datasetKeys t folder)
    if datasetKeys t folder = [] then return (false, enumStr ++ [']'])
    else return (true, enumStr.dropLast ++ [']'])

/-- `getPrepDSListEnumStr` (dataset_handler.c:15–37) on the text `enum[`. -/
def getPrepDSListEnumStr (t : σ) (node : Path) : Except Fault (Bool × Str) :=
  enumStrOf t (getMainPrepDatasetNode t node) fun _ key => .ok (key.drop 4)

/-- The reference of a data set as an RCB has it, `convertDataSetRef`. -/
def rcbDataSetRef (t : σ) (folder : Path) (key : Str) : Except Fault Str := do
  return replace '.' '$' (← deref (← shownText t (folder ++ [key]) objRefNodeKey))

/-- `getDataSetListEnumStrForRCB` (report_handler.c:49–73) on the text `enum[`. -/
def getDataSetListEnumStrForRCB (t : σ) (node : Path) : Except Fault (Bool × Str) :=
  enumStrOf t (getMainDatasetNode t node) (rcbDataSetRef t)

/-! ## Opening a node -/

/-- The meta entry `$params` of the action that is found below a node. -/
def setParams (t : σ) (node : Path) (key : Str) (params : List Json) : σ :=
  match getPath t node key with
  | none => t
  | some actionNode => setMeta t actionNode "$params".toList (.array params)

/-- `daNodeListOpenedAction` (client_handler.c:843–868). -/
def daNodeListOpenedAction (t : σ) (node : Path) : Except Fault σ := do
  let (_, enumStr) ← getPrepDSListEnumStr t node
  return setParams t node "adddataset".toList [DSNode.paramRow "Dataset".toList enumStr]

/-- `rcbDatSetNodeOpenAction` (report_handler.c:328–347). -/
def rcbDatSetNodeOpenAction (t : σ) (node : Path) : Except Fault σ := do
  let (_, enumStr) ← getDataSetListEnumStrForRCB t node
  return setParams t node "set".toList [DSNode.paramRow daValueRefNodeKey enumStr]

/-! ## The length of the text -/

/-- The names that are appended: those before the first data set without one. -/
def namesOf (nameOf : Str → Except Fault Str) : List Str → List Str
  | [] => []
  | key :: keys =>
    match nameOf key with
    | .error _ => []
    | .ok name => name :: namesOf nameOf keys

/-- The characters that names take with their commas. -/
def lengthOf (names : List Str) : ℕ := (names.map fun name => name.length + 1).sum

theorem inBounds_appendName {enumStr name : Str} :
    InBounds (appendName enumStr name) ↔ enumStr.length + (name.length + 1) < 1000 := by
  have hfits : FitsIn (some 1000) (enumStr ++ (name ++ [','])) ↔
      enumStr.length + (name.length + 1) < 1000 := by
    simp [FitsIn]
  unfold appendName
  rw [← hfits]
  exact inBounds_storeIn_bind_iff.trans (and_iff_left (failsOnly_pure _))

/-- The loop stays within the array exactly when all names fit. -/
theorem inBounds_appendNames {nameOf : Str → Except Fault Str} {keys : List Str}
    (hname : ∀ key, InBounds (nameOf key)) {enumStr : Str} (h : enumStr.length < 1000) :
    InBounds (appendNames nameOf enumStr keys) ↔
      enumStr.length + lengthOf (namesOf nameOf keys) < 1000 := by
  induction keys generalizing enumStr with
  | nil => exact iff_of_true (failsOnly_pure _) h
  | cons key keys ih =>
    have hround : InBounds (appendNames nameOf enumStr (key :: keys)) ↔
        InBounds (nameOf key >>= appendName enumStr) ∧ ∀ enumStr',
          (nameOf key >>= appendName enumStr) = .ok enumStr' →
          InBounds (appendNames nameOf enumStr' keys) := by
      show InBounds (List.foldlM _ _ _) ↔ _
      rw [List.foldlM_cons]
      exact failsOnly_bind
    rw [hround]
    cases hk : nameOf key with
    | error e =>
      have hnames : namesOf nameOf (key :: keys) = [] := by rw [namesOf, hk]
      rw [hnames]
      refine iff_of_true ⟨?_, fun _ hok => by cases hok⟩ h
      rw [← hk]
      exact failsOnly_bind.2 ⟨hname key, fun _ hok => by rw [hk] at hok; cases hok⟩
    | ok name =>
      have hlength : lengthOf (namesOf nameOf (key :: keys)) =
          name.length + 1 + lengthOf (namesOf nameOf keys) := by
        rw [namesOf, hk]
        rfl
      rw [hlength, ok_bind, inBounds_appendName]
      constructor
      · rintro ⟨hfits, hrest⟩
        have hstored : appendName enumStr name = .ok (enumStr ++ (name ++ [','])) := by
          simp [appendName, storeIn, hfits, pure, Except.pure]
        have hfits' : (enumStr ++ (name ++ [','])).length < 1000 := by simpa using hfits
        have := (ih hfits').1 (hrest _ hstored)
        simp only [List.length_append, List.length_singleton] at this
        omega
      · intro hsum
        refine ⟨by omega, fun enumStr' hok => ?_⟩
        obtain ⟨_, hstored, hok⟩ := bind_eq_ok.1 hok
        cases hok
        apply (ih (storeIn_eq_ok.1 hstored 1000 rfl)).2
        simp only [List.length_append, List.length_singleton]
        omega

/-- The names of an enumeration. -/
def enumNames (t : σ) (folder : Option Path) (nameOf : Path → Str → Except Fault Str) : List Str :=
  (folder.map fun folder => namesOf (nameOf folder) (datasetKeys t folder)).getD []

/-- **Enumerations.** The text fits exactly when `enum[` and the names do. -/
theorem inBounds_enumStrOf (t : σ) (folder : Option Path) {nameOf : Path → Str → Except Fault Str}
    (hname : ∀ folder key, InBounds (nameOf folder key)) :
    InBounds (enumStrOf t folder nameOf) ↔ 5 + lengthOf (enumNames t folder nameOf) < 1000 := by
  cases folder with
  | none =>
    have hlength : lengthOf (enumNames t none nameOf) = 0 := rfl
    rw [hlength]
    exact iff_of_true (failsOnly_ok _) (by omega)
  | some folder =>
    have hloop : InBounds (appendNames (nameOf folder) "enum[".toList (datasetKeys t folder)) ↔
        "enum[".toList.length + lengthOf (namesOf (nameOf folder) (datasetKeys t folder)) < 1000 :=
      inBounds_appendNames (hname folder) (by decide)
    show InBounds (_ >>= _) ↔ "enum[".toList.length + _ < 1000
    apply Iff.trans _ hloop
    refine failsOnly_bind.trans (and_iff_left fun enumStr _ => ?_)
    split_ifs <;> exact failsOnly_pure _

theorem inBounds_shownText (t : σ) (node : Path) (key : Str) : InBounds (shownText t node key) := by
  unfold shownText
  split
  · exact failsOnly_error.2 (by decide)
  · exact failsOnly_ok _

theorem inBounds_rcbDataSetRef (t : σ) (folder : Path) (key : Str) :
    InBounds (rcbDataSetRef t folder key) :=
  failsOnly_bind.2 ⟨inBounds_shownText _ _ _, fun _ _ =>
    failsOnly_bind.2 ⟨inBounds_deref _, fun _ _ => failsOnly_pure _⟩⟩

/-- The names of the prepared data sets. -/
def prepDSNames (t : σ) (node : Path) : List Str :=
  enumNames t (getMainPrepDatasetNode t node) fun _ key => .ok (key.drop 4)

/-- The references of the data sets. -/
def dataSetRefs (t : σ) (node : Path) : List Str :=
  enumNames t (getMainDatasetNode t node) (rcbDataSetRef t)

theorem inBounds_daNodeListOpenedAction (t : σ) (node : Path) :
    InBounds (daNodeListOpenedAction t node) ↔ 5 + lengthOf (prepDSNames t node) < 1000 := by
  rw [prepDSNames, ← inBounds_enumStrOf t _ fun _ _ => failsOnly_ok _]
  exact failsOnly_bind.trans (and_iff_left fun _ _ => failsOnly_pure _)

theorem inBounds_rcbDatSetNodeOpenAction (t : σ) (node : Path) :
    InBounds (rcbDatSetNodeOpenAction t node) ↔ 5 + lengthOf (dataSetRefs t node) < 1000 := by
  rw [dataSetRefs, ← inBounds_enumStrOf t _ (inBounds_rcbDataSetRef t)]
  exact failsOnly_bind.trans (and_iff_left fun _ _ => failsOnly_pure _)

end DslinkIec61850
