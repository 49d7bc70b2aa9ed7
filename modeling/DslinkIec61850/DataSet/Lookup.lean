import DslinkIec61850.Link.State

/-!
# Finding nodes by reference

`getDANode` (dataset_handler.c:46–129) takes a reference `LD/LN.n₁.….nₖ[FC]` to
pieces and goes down from the server node; below the logical node every name is
tried as it is and then with the constraint. `getDataSetNodeFromRef`
(dataset_handler.c:153–163) finds a data set by the key made of its reference.

* `getDANode_fcEntry`: the walk on a reference `r[FC]`.
-/

namespace DslinkIec61850

open DSLink Strings Run

variable {σ : Type} [DSLink σ]

/-! ## Data attributes -/

/-- One name (dataset_handler.c:90–104, 108–118): first the bare name, then the
name with the constraint. -/
def scanName (t : σ) (fcStr : Str) (scanNode : Path) (name : Str) : Except Fault (Option Path) := do
  storeIn (some 100) name
  match getPath t scanNode name with
  | some newScanNode => return some newScanNode
  | none =>
    storeIn (some 100) (name ++ fcStr)
    return getPath t scanNode (name ++ fcStr)

/-- The names between the dots. -/
def scanNames (t : σ) (fcStr : Str) : Path → List Str → Except Fault (Option Path)
  | scanNode, [] => .ok (some scanNode)
  | scanNode, name :: names => do
    match ← scanName t fcStr scanNode name with
    | none => return none
    | some newScanNode => scanNames t fcStr newScanNode names

/-- The walk from the server node. -/
def scanServer (t : σ) (serverNode : Path) (daRef fcStr : Str) : Except Fault (Option Path) :=
  match cut '/' daRef with
  | (_, none) => .ok none
  | (ld, some rest) => do
    storeIn (some 100) (ldnKeyInit ++ ld)
    match getPath t serverNode (ldnKeyInit ++ ld) with
    | none => return none
    | some ldNode =>
      match cut '.' rest with
      | (_, none) => return none
      | (ln, some rest) =>
        match getPath t ldNode ln with
        | none => return none
        | some lnNode => scanNames t fcStr lnNode (split '.' rest)

/-- `getDANode` (dataset_handler.c:46–129). -/
def getDANode (t : σ) (node : Path) (daRefWithFC : Str) : Except Fault (Option Path) := do
  storeIn (some 300) daRefWithFC
  match cut '[' daRefWithFC with
  | (_, none) => return none
  | (daRef, some rest) =>
    match getServerNode node with
    | none => return none
    | some serverNode => scanServer t serverNode daRef (('[' :: rest).take 4)

/-! ## Data sets -/

/-- The folder with a key below the server of a node. -/
def folderOf (t : σ) (node : Path) (key : Str) : Option Path :=
  (getServerNode node).bind fun serverNode => getPath t serverNode key

/-- `getMainDatasetNode`. -/
def getMainDatasetNode (t : σ) (node : Path) : Option Path := folderOf t node datasetFolderNodeKey

/-- `getMainPrepDatasetNode`. -/
def getMainPrepDatasetNode (t : σ) (node : Path) : Option Path :=
  folderOf t node datasetPrepFolderNodeKey

/-- `convertDataSetRefForNodeKey` on the key of a data set. -/
def datasetKey (dataSetRef : Str) : Str := replace '/' '$' (dtsKeyInit ++ dataSetRef)

/-- `getDataSetNodeFromRef` (dataset_handler.c:153–163); both pointers it is
given are used without a test. -/
def getDataSetNodeFromRef (t : σ) (node : Path) (dataSetRef : Option Str) :
    Except Fault (Option Path) :=
  match dataSetRef with
  | none => .error .nullDereference
  | some dataSetRef => do
    storeIn (some 300) (dtsKeyInit ++ dataSetRef)
    match getMainDatasetNode t node with
    | none => .error .nullDereference
    | some main =>
      return getPath t main (replace '/' '$' (replace '$' '.' (dtsKeyInit ++ dataSetRef)))

/-! ## References taken to pieces -/

theorem folderOf_server {srv : Str} (hsrv : hasInit srvKeyInit srv = true) (t : σ) (q : Path)
    {key : Str}
    (hne : key ≠ []) (hslash : '/' ∉ key) : folderOf t (srv :: q) key = child t [srv] key := by
  rw [folderOf, getServerNode, if_pos hsrv]
  exact getPath_eq_child hne hslash

theorem getMainDatasetNode_below {srv : Str} (hsrv : hasInit srvKeyInit srv = true) {t : σ}
    {q main : Path}
    (h : getMainDatasetNode t (srv :: q) = some main) : main = [srv, datasetFolderNodeKey] := by
  rw [getMainDatasetNode, folderOf_server hsrv t q (by decide) (by decide), child_eq_some] at h
  exact h.1

theorem getMainPrepDatasetNode_below {srv : Str} (hsrv : hasInit srvKeyInit srv = true) {t : σ}
    {q main : Path} (h : getMainPrepDatasetNode t (srv :: q) = some main) :
    main = [srv, datasetPrepFolderNodeKey] := by
  rw [getMainPrepDatasetNode, folderOf_server hsrv t q (by decide) (by decide), child_eq_some] at h
  exact h.1

/-- The key that `getDataSetNodeFromRef` looks for. -/
def refNodeKey (dataSetRef : Str) : Str :=
  replace '/' '$' (replace '$' '.' (dtsKeyInit ++ dataSetRef))

theorem getPath_refNodeKey (t : σ) (main : Path) (dataSetRef : Str) :
    getPath t main (refNodeKey dataSetRef) = child t main (refNodeKey dataSetRef) :=
  getPath_eq_child (by simp [refNodeKey, replace, dtsKeyInit]) (not_mem_replaced (by decide) _)

/-- The look-up goes to the child of the folder with that key. -/
theorem getDataSetNodeFromRef_eq {srv : Str} (hsrv : hasInit srvKeyInit srv = true) (t : σ)
    (q : Path) (dataSetRef : Str) :
    getDataSetNodeFromRef t (srv :: q) (some dataSetRef) =
      (storeIn (some 300) (dtsKeyInit ++ dataSetRef) >>= fun _ =>
        match child t [srv] datasetFolderNodeKey with
        | none => .error .nullDereference
        | some main => .ok (child t main (refNodeKey dataSetRef))) := by
  rw [← folderOf_server hsrv t q (by decide) (by decide)]
  simp only [← getPath_refNodeKey]
  rfl

/-- The node of a data set is a child of the folder. -/
theorem getDataSetNodeFromRef_below {srv : Str} (hsrv : hasInit srvKeyInit srv = true) {t : σ}
    {q node : Path} {dataSetRef : Str} (h : getDataSetNodeFromRef t (srv :: q) (some dataSetRef) =
      .ok (some node)) :
    node = [srv, datasetFolderNodeKey, refNodeKey dataSetRef] ∧ Live t node := by
  rw [getDataSetNodeFromRef_eq hsrv] at h
  obtain ⟨-, -, h⟩ := bind_eq_ok.1 h
  cases hmain : child t [srv] datasetFolderNodeKey with
  | none =>
    rw [hmain] at h
    cases h
  | some main =>
    rw [hmain] at h
    obtain ⟨rfl, -⟩ := child_eq_some.1 hmain
    obtain ⟨rfl, hlive⟩ := child_eq_some.1 (Except.ok.inj h)
    exact ⟨rfl, hlive⟩

theorem take_four_fcStr {fc : FunctionalConstraint} (hfc : fc.Known) :
    ('[' :: (fc.code ++ [']'])).take 4 = '[' :: (fc.code ++ [']']) := by
  apply List.take_of_length_le
  simp [FunctionalConstraint.length_code hfc]

/-- The walk on a reference with its constraint. -/
theorem getDANode_fcEntry {t : σ} {srv : Str} (hsrv : hasInit srvKeyInit srv = true) (q : Path)
    {ref : Str} {fc : FunctionalConstraint} (href : '[' ∉ ref) (hfc : fc.Known) :
    getDANode t (srv :: q) (fcEntry ref fc) =
      (storeIn (some 300) (fcEntry ref fc) >>= fun _ =>
        scanServer t [srv] ref ('[' :: (fc.code ++ [']']))) := by
  unfold getDANode
  rw [fcEntry, cut_append href, getServerNode, if_pos hsrv]
  dsimp only
  rw [take_four_fcStr hfc]

end DslinkIec61850
