import DslinkIec61850.Link.State

/-!
# The directory services of the client library

libiec61850 answers the directory services out of the list of MMS variable names
that it read from each logical device (ied_connection.c:1198–1935). A name is
`LN`, `LN$FC`, `LN$FC$DO` or `LN$FC$DO$…`.

* `mem_getDataDirectory`: the entries listed for a reference are the elements
  `name[FC]` of the names one level deeper.
* `mem_dataObjects`: the data objects listed for a logical node.
-/

namespace DslinkIec61850

open Strings

/-! ## References and variable names -/

/-- The MMS name `LN$n₁$…$nₖ`. -/
def mmsName (ln : Str) (names : List Str) : Str := ln ++ prefixed '$' names

/-- The object reference `LD/LN.n₁.….nₖ`. -/
def objectRef (ld ln : Str) (names : List Str) : Str := ld ++ '/' :: (ln ++ prefixed '.' names)

/-- A name of the model: letters, digits and underscores. -/
def NameChars (n : Str) : Prop := n ≠ [] ∧ ∀ c ∈ n, c.isAlphanum = true ∨ c = '_'

theorem NameChars.not_mem {n : Str} (h : NameChars n) {c : Char} (hc : c.isAlphanum = false)
    (hu : c ≠ '_') : c ∉ n := by
  intro hm
  rcases h.2 c hm with h | h
  · rw [h] at hc; exact absurd hc (by decide)
  · exact hu h

theorem objectRef_append (ld ln : Str) (names : List Str) (n : Str) :
    objectRef ld ln (names ++ [n]) = objectRef ld ln names ++ '.' :: n := by
  simp [objectRef, prefixed_append]

/-- The logical devices with the names of their MMS variables
(`self->logicalDevices`). -/
abbrev LogicalDevices := List (Str × List Str)

namespace LogicalDevices

/-- The variables of the device found by its name. -/
def variablesOf (devices : LogicalDevices) (ld : Str) : Option (List Str) :=
  (Keyed.find Prod.fst ld devices).map Prod.snd

/-- `IedConnection_getLogicalDeviceDirectory` (ied_connection.c:1197–1237). -/
def getLogicalDeviceDirectory (devices : LogicalDevices) (logicalDeviceName : Str) :
    Option (List Str) :=
  (variablesOf devices logicalDeviceName).map fun vars => vars.filter fun v => '$' ∉ v

/-! ## Logical nodes -/

/-- The name after `LN$FC$` when the variable belongs to the logical node and
nothing deeper follows. The node names are compared over the length of the
variable's own one. -/
def nameBelow (logicalNodeName : Str) (fcOk : Str → Bool) (variableName : Str) : Option Str :=
  match cut '$' variableName with
  | (ln, some afterLn) =>
    if fcOk (afterLn.take 2) ∧ ln <+: logicalNodeName then
      match (cut '$' afterLn).2 with
      | some name => if '$' ∈ name then none else some name
      | none => none
    else none
  | (_, none) => none

/-- `ACSI_CLASS_DATA_OBJECT`: the variables of report and GOOSE control blocks
are skipped (ied_connection.c:1441–1481). -/
def dataObjects (vars : List Str) (logicalNodeName : Str) : List Str :=
  Keyed.collect (nameBelow logicalNodeName fun fc =>
    fc != ['R', 'P'] && fc != ['B', 'R'] && fc != ['G', 'O']) vars

/-- `addVariablesWithFc` (ied_connection.c:1255–1287). -/
def variablesWithFc (fc : Str) (logicalNodeName : Str) (vars : List Str) : List Str :=
  Keyed.collect (nameBelow logicalNodeName fun c => c == fc) vars

/-- `getLogicalNodeDirectoryDataSets` (ied_connection.c:1332–1372) on the named
variable lists of the device. -/
def dataSetsOf (logicalNodeName : Str) (variableLists : List Str) : List Str :=
  variableLists.filterMap fun name =>
    match cut '$' name with
    | (ln, some dataSet) => if ln = logicalNodeName then some dataSet else none
    | (_, none) => none

/-- `IedConnection_getLogicalNodeDirectory` (ied_connection.c:1374–1526);
`variableLists` are the names that the server lists for a device. -/
def getLogicalNodeDirectory (devices : LogicalDevices) (variableLists : Str → Option (List Str))
    (logicalNodeReference : Str) (acsiClass : AcsiClass) : Option (List Str) :=
  if 129 < logicalNodeReference.length then none
  else
    match cut '/' logicalNodeReference with
    | (_, none) => none
    | (ld, some ln) =>
      match acsiClass with
      | .dataSet => (variableLists ld).map (dataSetsOf ln)
      | .dataObject => (variablesOf devices ld).map fun vars => dataObjects vars ln
      | .urcb => (variablesOf devices ld).map (variablesWithFc ['R', 'P'] ln)
      | .brcb => (variablesOf devices ld).map (variablesWithFc ['B', 'R'] ln)

/-! ## Data directories -/

/-- The element `name[FC]` of a variable one level below the data
`LN$…$dataNamePart`, for the constraint `fc` if one is asked for. -/
def elementOf (logicalNodeName dataNamePart : Str) (fc : Option Str) (variableName : Str) :
    Option Str :=
  match cut '$' variableName with
  | (_, none) => none
  | (ln, some afterLn) =>
    if ln = logicalNodeName then
      match (cut '$' afterLn).2 with
      | none => none
      | some remainingPart =>
        if fc = none ∨ fc = some (afterLn.take 2) then
          if dataNamePart ++ ['$'] <+: remainingPart ∧
              '$' ∉ remainingPart.drop (dataNamePart.length + 1) then
            some (remainingPart.drop (dataNamePart.length + 1) ++ '[' :: (afterLn.take 2 ++ [']']))
          else none
        else none
    else none

/-- `getDataDirectory` and `getDataDirectoryByFc` (ied_connection.c:1614–1929).
A reference without `/`, which the library does not test for, is not passed. -/
def getDataDirectory (devices : LogicalDevices) (dataReference : Str) (fc : Option Str) :
    Option (List Str) :=
  if 129 < dataReference.length then none
  else
    match cut '/' dataReference with
    | (_, none) => none
    | (ld, some rest) =>
      match cut '.' rest with
      | (_, none) => none
      | (_, some []) => none
      | (ln, some dataNamePart) =>
        (variablesOf devices ld).map fun vars =>
          Keyed.collect (elementOf ln (replace '.' '$' dataNamePart) fc) vars

/-- `IedConnection_getDataDirectoryFC`. -/
def getDataDirectoryFC (devices : LogicalDevices) (dataReference : Str) : Option (List Str) :=
  getDataDirectory devices dataReference none

/-- `IedConnection_getDataDirectoryByFC`. -/
def getDataDirectoryByFC (devices : LogicalDevices) (dataReference : Str)
    (fc : FunctionalConstraint) : Option (List Str) :=
  match fc.toString with
  | none => none
  | some code => getDataDirectory devices dataReference (some code)

/-! ## What the directories list -/

/-- The variable list consists of the names in `P`, whose parts are free of `$`. -/
structure Names (vars : List Str) (P : Str → List Str → Prop) : Prop where
  mem : ∀ v, v ∈ vars ↔ ∃ ln names, P ln names ∧ v = mmsName ln names
  ln_ok : ∀ ln names, P ln names → '$' ∉ ln
  names_ok : ∀ ln names, P ln names → ∀ n ∈ names, '$' ∉ n

theorem cut_mmsName {ln n : Str} {names : List Str} (h : '$' ∉ ln) :
    cut '$' (mmsName ln (n :: names)) = (ln, some (n ++ prefixed '$' names)) := by
  rw [mmsName, prefixed_cons, cut_append h]

theorem cut_names {n m : Str} {names : List Str} (h : '$' ∉ n) :
    cut '$' (n ++ prefixed '$' (m :: names)) = (n, some (m ++ prefixed '$' names)) := by
  rw [prefixed_cons, cut_append h]

theorem cut_names_nil {n : Str} (h : '$' ∉ n) : cut '$' (n ++ prefixed '$' []) = (n, none) := by
  rw [prefixed_nil, List.append_nil, cut_of_not_mem h]

/-- A path of `$`-free names that is one name longer than another. -/
theorem names_eq_append {n m : Str} {ns ms : List Str} {sub : Str} (hn : ∀ x ∈ n :: ns, '$' ∉ x)
    (hm : ∀ x ∈ m :: ms, '$' ∉ x) (hsub : '$' ∉ sub) :
    m ++ prefixed '$' ms = n ++ prefixed '$' ns ++ '$' :: sub ↔ m :: ms = n :: ns ++ [sub] := by
  have hns : ∀ x ∈ ns ++ [sub], '$' ∉ x := by
    intro x hx
    rcases List.mem_append.1 hx with hx | hx
    · exact hn x (List.mem_cons_of_mem _ hx)
    · rw [List.mem_singleton] at hx
      rwa [hx]
  have htext : n ++ prefixed '$' ns ++ '$' :: sub = n ++ prefixed '$' (ns ++ [sub]) := by
    simp [prefixed_append]
  rw [htext, append_prefixed_inj (hm m List.mem_cons_self) (hn n List.mem_cons_self)]
  constructor
  · rintro ⟨rfl, h⟩
    rw [prefixed_injective (fun x hx => hm x (List.mem_cons_of_mem _ hx)) hns h]
    rfl
  · intro h
    rw [List.cons_append, List.cons.injEq] at h
    exact ⟨h.1, by rw [h.2]⟩

theorem drop_append_cons (D : Str) (c : Char) (s : Str) :
    (D ++ c :: s).drop (D.length + 1) = s := by
  simp

/-- A text that continues another one after a `$`. -/
theorem prefix_dollar_iff {D R : Str} :
    (D ++ ['$'] <+: R ∧ '$' ∉ R.drop (D.length + 1)) ↔
      '$' ∉ R.drop (D.length + 1) ∧ R = D ++ '$' :: R.drop (D.length + 1) := by
  constructor
  · rintro ⟨⟨r, rfl⟩, h⟩
    exact ⟨h, by simp⟩
  · rintro ⟨h, hR⟩
    refine ⟨⟨R.drop (D.length + 1), ?_⟩, h⟩
    rw [List.append_assoc]
    exact hR.symm

/-- The elements that a variable contributes to the directory of `n.ns`. -/
theorem elementOf_eq_some {ln ln' n code : Str} {ns rest : List Str} {fc : Option Str} {e : Str}
    (hln : '$' ∉ ln') (hcode : '$' ∉ code) (hlen : code.length = 2) (hns : ∀ x ∈ n :: ns, '$' ∉ x)
    (hrest : ∀ x ∈ rest, '$' ∉ x) :
    elementOf ln (n ++ prefixed '$' ns) fc (mmsName ln' (code :: rest)) = some e ↔
      ln' = ln ∧ (fc = none ∨ fc = some code) ∧
        ∃ sub, rest = n :: ns ++ [sub] ∧ e = sub ++ '[' :: (code ++ [']']) := by
  have htake (t : Str) : (code ++ t).take 2 = code := List.take_left' hlen
  unfold elementOf
  rw [cut_mmsName hln]
  dsimp only
  by_cases heq : ln' = ln
  · rw [if_pos heq]
    cases rest with
    | nil =>
      rw [cut_names_nil hcode]
      simp
    | cons m ms =>
      rw [cut_names hcode]
      simp only [htake, prefix_dollar_iff]
      generalize hR : m ++ prefixed '$' ms = R
      constructor
      · intro h
        split_ifs at h with hfc hsplit
        obtain ⟨hsub, hcut⟩ := hsplit
        refine ⟨heq, hfc, R.drop ((n ++ prefixed '$' ns).length + 1), ?_, (Option.some.inj h).symm⟩
        exact (names_eq_append hns hrest hsub).1 (hR.trans hcut)
      · rintro ⟨-, hfc, sub, hsub, rfl⟩
        have hfree : '$' ∉ sub := hrest sub (by rw [hsub]; simp)
        have hRsub := (names_eq_append hns hrest hfree).2 hsub
        rw [hR] at hRsub
        have hdrop : R.drop ((n ++ prefixed '$' ns).length + 1) = sub := by
          rw [hRsub]
          exact drop_append_cons _ _ _
        rw [if_pos hfc, hdrop, if_pos ⟨hfree, hRsub⟩]
  · rw [if_neg heq]
    simp [heq]

/-- A logical node's own name contributes nothing. -/
theorem elementOf_nil {ln ln' D : Str} {fc : Option Str} (hln : '$' ∉ ln') :
    elementOf ln D fc (mmsName ln' []) = none := by
  rw [elementOf, mmsName, prefixed_nil, List.append_nil, cut_of_not_mem hln]

theorem objectRef_cut {ld ln : Str} (n : Str) (ns : List Str) (hld : '/' ∉ ld) (hln : '.' ∉ ln) :
    cut '/' (objectRef ld ln (n :: ns)) = (ld, some (ln ++ prefixed '.' (n :: ns))) ∧
      cut '.' (ln ++ prefixed '.' (n :: ns)) = (ln, some (n ++ prefixed '.' ns)) := by
  constructor
  · rw [objectRef, cut_append hld]
  · rw [prefixed_cons, cut_append hln]

theorem replace_prefixed {names : List Str} (h : ∀ n ∈ names, '.' ∉ n) :
    replace '.' '$' (prefixed '.' names) = prefixed '$' names := by
  induction names with
  | nil => rfl
  | cons n ns ih =>
    have hn := h n List.mem_cons_self
    have hns := ih fun m hm => h m (List.mem_cons_of_mem _ hm)
    rw [prefixed_cons, prefixed_cons, ← List.singleton_append, replace_append, replace_append,
      replace_of_not_mem hn, hns]
    rfl

/-- **Data directories.** The elements listed for `LD/LN.n.ns` are the names one
level deeper, with the constraint of their variable. -/
theorem mem_getDataDirectory {devices : LogicalDevices} {ld ln n : Str} {ns : List Str}
    {vars : List Str} {P : Str → List Str → Prop} (hvars : variablesOf devices ld = some vars)
    (hnames : Names vars P) (hlen : ∀ ln code rest, P ln (code :: rest) → code.length = 2)
    (hld : '/' ∉ ld) (hln : '.' ∉ ln) (hdot : ∀ x ∈ n :: ns, '.' ∉ x)
    (hdollar : ∀ x ∈ n :: ns, '$' ∉ x)
    (hne : n ≠ []) (hshort : (objectRef ld ln (n :: ns)).length ≤ 129) (fc : Option Str) :
    ∃ l, getDataDirectory devices (objectRef ld ln (n :: ns)) fc = some l ∧ l.Nodup ∧
      ∀ e, e ∈ l ↔ ∃ code sub, (fc = none ∨ fc = some code) ∧ P ln (code :: (n :: ns ++ [sub])) ∧
        e = sub ++ '[' :: (code ++ [']']) := by
  obtain ⟨hcutLd, hcutLn⟩ := objectRef_cut n ns hld hln
  obtain ⟨c, cs, rfl⟩ : ∃ c cs, n = c :: cs := by
    cases n with
    | nil => exact absurd rfl hne
    | cons c cs => exact ⟨c, cs, rfl⟩
  have hrepl : replace '.' '$' ((c :: cs) ++ prefixed '.' ns) = (c :: cs) ++ prefixed '$' ns := by
    rw [replace_append, replace_of_not_mem (hdot _ List.mem_cons_self),
      replace_prefixed fun x hx => hdot x (List.mem_cons_of_mem _ hx)]
  refine ⟨Keyed.collect (elementOf ln ((c :: cs) ++ prefixed '$' ns) fc) vars, ?_,
    Keyed.nodup_collect _ _, ?_⟩
  · unfold getDataDirectory
    rw [if_neg (by omega), hcutLd]
    dsimp only
    rw [hcutLn]
    simp only [List.cons_append] at hrepl ⊢
    rw [hvars, hrepl]
    rfl
  · intro e
    rw [Keyed.mem_collect]
    constructor
    · rintro ⟨v, hv, he⟩
      obtain ⟨ln', names, hP, rfl⟩ := (hnames.mem v).1 hv
      have hln' := hnames.ln_ok ln' names hP
      have hns' := hnames.names_ok ln' names hP
      cases names with
      | nil => rw [elementOf_nil hln'] at he; cases he
      | cons code rest =>
        obtain ⟨rfl, hfc, sub, rfl, rfl⟩ :=
          (elementOf_eq_some hln' (hns' code List.mem_cons_self) (hlen ln' code rest hP) hdollar
            fun x hx => hns' x (List.mem_cons_of_mem _ hx)).1 he
        exact ⟨code, sub, hfc, hP, rfl⟩
    · rintro ⟨code, sub, hfc, hP, rfl⟩
      have hns' := hnames.names_ok ln _ hP
      refine ⟨mmsName ln (code :: ((c :: cs) :: ns ++ [sub])), (hnames.mem _).2 ⟨_, _, hP, rfl⟩, ?_⟩
      exact (elementOf_eq_some (hnames.ln_ok ln _ hP) (hns' code List.mem_cons_self)
        (hlen ln code _ hP) hdollar fun x hx => hns' x (List.mem_cons_of_mem _ hx)).2
          ⟨rfl, hfc, sub, rfl, rfl⟩

/-- Whatever reference is asked for, the entries are names of variables with their
constraint. -/
theorem getDataDirectory_entry {devices : LogicalDevices} {ref : Str} {fc : Option Str}
    {l : List Str} {P : Str → Str → List Str → Prop}
    (hnames : ∀ ld vars, variablesOf devices ld = some vars → Names vars (P ld))
    (hlen : ∀ ld ln code rest, P ld ln (code :: rest) → code.length = 2)
    (hl : getDataDirectory devices ref fc = some l) {e : Str} (he : e ∈ l) :
    ∃ ld ln code names sub, P ld ln (code :: (names ++ [sub])) ∧ (fc = none ∨ fc = some code) ∧
      e = sub ++ '[' :: (code ++ [']']) := by
  unfold getDataDirectory at hl
  split_ifs at hl
  split at hl
  · cases hl
  · rename_i ld rest _
    split at hl
    · cases hl
    · cases hl
    · rename_i ln part _ _
      obtain ⟨vars, hvars, rfl⟩ := Option.map_eq_some_iff.1 hl
      rw [Keyed.mem_collect] at he
      obtain ⟨v, hv, he⟩ := he
      have hP := hnames ld vars hvars
      obtain ⟨ln', names, hPv, rfl⟩ := (hP.mem v).1 hv
      have hln' := hP.ln_ok ln' names hPv
      have hns' := hP.names_ok ln' names hPv
      obtain ⟨n, ns, hpart, hfree⟩ := exists_eq_prefixed '$' (replace '.' '$' part)
      rw [hpart] at he
      cases names with
      | nil =>
        rw [elementOf_nil hln'] at he
        cases he
      | cons code rest =>
        obtain ⟨rfl, hfc, sub, rfl, rfl⟩ :=
          (elementOf_eq_some hln' (hns' code List.mem_cons_self) (hlen ld ln' code rest hPv) hfree
            fun x hx => hns' x (List.mem_cons_of_mem _ hx)).1 he
        exact ⟨ld, ln', code, n :: ns, sub, hPv, hfc, rfl⟩

/-! ## What the logical node directories list -/

/-- The data object or control block that a variable contributes. -/
theorem nameBelow_eq_some {ln ln' : Str} {fcOk : Str → Bool} {names : List Str} {n : Str}
    (hln : '$' ∉ ln') (hns : ∀ x ∈ names, '$' ∉ x)
    (hlen : ∀ code rest, names = code :: rest → code.length = 2) :
    nameBelow ln fcOk (mmsName ln' names) = some n ↔
      ∃ code, names = [code, n] ∧ fcOk code = true ∧ ln' <+: ln := by
  cases names with
  | nil =>
    rw [nameBelow, mmsName, prefixed_nil, List.append_nil, cut_of_not_mem hln]
    simp
  | cons code rest =>
    have hcode := hns code List.mem_cons_self
    have htake (t : Str) : (code ++ t).take 2 = code := List.take_left' (hlen code rest rfl)
    unfold nameBelow
    rw [cut_mmsName hln]
    simp only [htake]
    by_cases hok : fcOk code = true ∧ ln' <+: ln
    · rw [if_pos hok]
      cases rest with
      | nil =>
        rw [cut_names_nil hcode]
        simp
      | cons m ms =>
        rw [cut_names hcode]
        dsimp only
        cases ms with
        | nil =>
          have hm := hns m (by simp)
          rw [prefixed_nil, List.append_nil, if_neg hm]
          simp [hok, and_assoc]
        | cons k ks => simp
    · rw [if_neg hok]
      simp only [reduceCtorEq, List.cons.injEq, false_iff, not_exists]
      rintro code' ⟨⟨rfl, -⟩, hok'⟩
      exact hok hok'

theorem mem_collect_nameBelow {vars : List Str} {P : Str → List Str → Prop} (hnames : Names vars P)
    (hlen : ∀ ln code rest, P ln (code :: rest) → code.length = 2) (ln : Str) (fcOk : Str → Bool)
    (n : Str) :
    n ∈ Keyed.collect (nameBelow ln fcOk) vars ↔
      ∃ ln' code, P ln' [code, n] ∧ fcOk code = true ∧ ln' <+: ln := by
  rw [Keyed.mem_collect]
  constructor
  · rintro ⟨v, hv, hn⟩
    obtain ⟨ln', names, hP, rfl⟩ := (hnames.mem v).1 hv
    obtain ⟨code, rfl, hok, hpre⟩ :=
      (nameBelow_eq_some (hnames.ln_ok _ _ hP) (hnames.names_ok _ _ hP)
      fun code rest h => hlen ln' code rest (h ▸ hP)).1 hn
    exact ⟨ln', code, hP, hok, hpre⟩
  · rintro ⟨ln', code, hP, hok, hpre⟩
    refine ⟨_, (hnames.mem _).2 ⟨_, _, hP, rfl⟩, ?_⟩
    exact (nameBelow_eq_some (hnames.ln_ok _ _ hP) (hnames.names_ok _ _ hP)
      fun c rest h => hlen ln' c rest (h ▸ hP)).2 ⟨code, rfl, hok, hpre⟩

/-- **Data objects.** The data objects listed for a logical node are those with
a variable under a constraint other than RP, BR and GO, in any logical node
whose name the given one begins with. -/
theorem mem_dataObjects {vars : List Str} {P : Str → List Str → Prop} (hnames : Names vars P)
    (hlen : ∀ ln code rest, P ln (code :: rest) → code.length = 2) (ln n : Str) :
    n ∈ dataObjects vars ln ↔ ∃ ln' code, P ln' [code, n] ∧
      (code ≠ ['R', 'P'] ∧ code ≠ ['B', 'R'] ∧ code ≠ ['G', 'O']) ∧ ln' <+: ln := by
  rw [dataObjects, mem_collect_nameBelow hnames hlen]
  simp only [Bool.and_eq_true, bne_iff_ne, ne_eq, and_assoc]

end LogicalDevices

end DslinkIec61850
