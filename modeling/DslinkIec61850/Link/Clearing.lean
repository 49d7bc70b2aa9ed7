import DslinkIec61850.Link.Actions

/-!
# Clearing a server

`removeAllDataModel` (client_handler.c:1659–1680) takes a child out of the map in one
round of its loop and frees it in the next one. `nodeToRemove` is not reset when
it is freed, so that it is freed again after a child that is kept.

* `clearsModel_iff`: the loop ends well exactly when no kept child comes after one
  that is removed.
-/

namespace DslinkIec61850

open DSLink Run

variable {σ : Type} [DSLink σ] {t : σ} {node : Path}

/-! ## What is freed -/

/-- The children that the loop frees, in the order in which it frees them;
`nodeToRemove` is freed at the beginning of every round and at the end. -/
def removeFrees : Option Str → List Str → List Str
  | nodeToRemove, [] => nodeToRemove.toList
  | nodeToRemove, k :: ks =>
    nodeToRemove.toList ++ removeFrees (if hasInit ndlKeyInit k then nodeToRemove else some k) ks

/-- The loop ends without using what it has freed. It frees every child without
`ndl_` once, the others are left, and the node does not count as discovered. -/
structure ClearsModel (t : σ) (node : Path) : Prop where
  ends : ∃ t', removeAllDataModel t node = .ok t' ∧
    (∀ k, k ∈ children t' node ↔ k ∈ children t node ∧ hasInit ndlKeyInit k = true) ∧
    isDiscovered t' node = false
  freed : ∀ k ∈ children t node,
    (removeFrees none (children t node)).count k = if hasInit ndlKeyInit k then 0 else 1
  others : ∀ k ∈ removeFrees none (children t node), k ∈ children t node

/-- No child with `ndl_` comes after one without. -/
def KeptFirst (keys : List Str) : Prop :=
  keys.Pairwise fun k k' => hasInit ndlKeyInit k' = true → hasInit ndlKeyInit k = true

instance (keys : List Str) : Decidable (KeptFirst keys) :=
  inferInstanceAs (Decidable (List.Pairwise _ _))

/-! ## The loop -/

/-- The subtrees below some keys are taken out. -/
def removeKeys (node : Path) (t : σ) (keys : List Str) : σ :=
  keys.foldl (fun t k => removeTree t (node ++ [k])) t

theorem child_below_iff {k k' : Str} : node ++ [k] <+: node ++ [k'] ↔ k = k' := by
  rw [List.prefix_append_right_inj, List.cons_prefix_cons]
  exact and_iff_left List.nil_prefix

theorem mem_children_removeKeys (keys : List Str) (k : Str) :
    k ∈ children (removeKeys node t keys) node ↔ k ∈ children t node ∧ k ∉ keys := by
  induction keys generalizing t with
  | nil => simp [removeKeys]
  | cons k' keys ih =>
    have hfirst : k ∈ children (removeTree t (node ++ [k'])) node ↔ k ∈ children t node ∧
        k ≠ k' := by
      rw [mem_children, mem_children, lookup_removeTree]
      by_cases hk : k' = k
      · rw [if_pos (child_below_iff.2 hk)]
        simp [hk]
      · rw [if_neg (fun h => hk (child_below_iff.1 h))]
        exact (and_iff_left (Ne.symm hk)).symm
    show k ∈ children (removeKeys node (removeTree t (node ++ [k'])) keys) node ↔ _
    rw [ih, hfirst, List.mem_cons, not_or, and_assoc]

theorem removeLoop_cons {removed : Option Bool} (hr : removed ≠ some true) (k : Str)
    (keys : List Str) : removeLoop node t removed (k :: keys) =
      if hasInit ndlKeyInit k then removeLoop node t (removed.map fun _ => true) keys
      else removeLoop node (removeTree t (node ++ [k])) (some false) keys := by
  rw [removeLoop]
  exact hr

/-- Once a child was removed, the loop ends only when no kept child follows. -/
theorem removeLoop_removing (t : σ) (keys : List Str) :
    removeLoop node t (some false) keys =
      if ∃ k ∈ keys, hasInit ndlKeyInit k = true then .error .useAfterFree
      else .ok (removeKeys node t keys) := by
  induction keys generalizing t with
  | nil => simp [removeLoop, removeKeys]
  | cons k keys ih =>
    rw [removeLoop_cons (by decide)]
    by_cases hk : hasInit ndlKeyInit k = true
    · have hex : ∃ k' ∈ k :: keys, hasInit ndlKeyInit k' = true := ⟨k, List.mem_cons_self, hk⟩
      rw [if_pos hk, if_pos hex]
      cases keys <;> rfl
    · have hiff : (∃ k' ∈ k :: keys, hasInit ndlKeyInit k' = true) ↔
          ∃ k' ∈ keys, hasInit ndlKeyInit k' = true := by
        simp [hk]
      rw [if_neg hk, ih]
      simp only [hiff]
      rfl

theorem keptFirst_cons (k : Str) (keys : List Str) :
    KeptFirst (k :: keys) ↔
      if hasInit ndlKeyInit k then KeptFirst keys else ¬ ∃ k' ∈ keys,
      hasInit ndlKeyInit k' = true := by
  rw [KeptFirst, List.pairwise_cons]
  by_cases hk : hasInit ndlKeyInit k = true
  · rw [if_pos hk]
    exact and_iff_right fun _ _ _ => hk
  · rw [if_neg hk]
    have hnone : (∀ k' ∈ keys, hasInit ndlKeyInit k' = true → hasInit ndlKeyInit k = true) ↔
        ¬ ∃ k' ∈ keys, hasInit ndlKeyInit k' = true := by
      push Not
      exact forall₂_congr fun k' _ =>
        ⟨fun h => by simpa using fun h' => hk (h h'), fun h h' => absurd h' (by simp [h])⟩
    rw [hnone]
    refine and_iff_left_of_imp fun h => ?_
    exact List.pairwise_of_forall_mem_list fun _ _ k' hmem hk' => absurd ⟨k', hmem, hk'⟩ h

/-- The loop takes the children without `ndl_` out when they come last. -/
theorem removeLoop_none (t : σ) (keys : List Str) :
    removeLoop node t none keys =
      if KeptFirst keys then .ok (removeKeys node t (keys.filter fun k => !hasInit ndlKeyInit k))
      else .error .useAfterFree := by
  induction keys generalizing t with
  | nil => simp [removeLoop, removeKeys, KeptFirst]
  | cons k keys ih =>
    rw [removeLoop_cons (by decide)]
    simp only [keptFirst_cons]
    by_cases hk : hasInit ndlKeyInit k = true
    · rw [if_pos hk, Option.map_none, ih]
      simp [hk]
    · rw [if_neg hk, removeLoop_removing]
      by_cases hex : ∃ k' ∈ keys, hasInit ndlKeyInit k' = true
      · rw [if_pos hex, if_neg (by simpa [hk] using hex)]
      · have hall : keys.filter (fun k => !hasInit ndlKeyInit k) = keys := by
          apply List.filter_eq_self.2
          intro k' hk'
          simpa using fun h => hex ⟨k', hk', h⟩
        rw [if_neg hex, if_pos (by simpa [hk] using hex),
          List.filter_cons_of_pos (by simp [hk]), hall]
        rfl

/-- From a removed child on, each of the others is freed once. -/
theorem removeFrees_removing (k : Str) {keys : List Str}
    (h : ∀ k' ∈ keys, hasInit ndlKeyInit k' = false) : removeFrees (some k) keys = k :: keys := by
  induction keys generalizing k with
  | nil => rfl
  | cons k' keys ih =>
    obtain ⟨hk', hkeys⟩ := List.forall_mem_cons.1 h
    show k :: removeFrees (if hasInit ndlKeyInit k' then some k else some k') keys = _
    rw [if_neg (by simp [hk']), ih k' hkeys]

/-- What is freed when the kept children come first: every other child, once. -/
theorem removeFrees_none {keys : List Str} (h : KeptFirst keys) :
    removeFrees none keys = keys.filter fun k => !hasInit ndlKeyInit k := by
  induction keys with
  | nil => rfl
  | cons k keys ih =>
    rw [keptFirst_cons] at h
    show removeFrees (if hasInit ndlKeyInit k then none else some k) keys = _
    by_cases hk : hasInit ndlKeyInit k = true
    · rw [if_pos hk] at h
      rw [if_pos hk, ih h, List.filter_cons_of_neg (by simp [hk])]
    · rw [if_neg hk] at h
      have hall : ∀ k' ∈ keys, hasInit ndlKeyInit k' = false :=
        fun k' hk' => by simpa using fun h' => h ⟨k', hk', h'⟩
      have hfilter : keys.filter (fun k => !hasInit ndlKeyInit k) = keys :=
        List.filter_eq_self.2 fun k' hk' => by rw [hall k' hk']; rfl
      rw [if_neg hk, removeFrees_removing k hall, List.filter_cons_of_pos (by simp [hk]), hfilter]

/-! ## The exact condition -/

/-- After the children without `ndl_` were taken out, those with `ndl_` are left. -/
theorem mem_children_cleared (k : Str) :
    k ∈ children (removeKeys node t ((children t node).filter fun k => !hasInit ndlKeyInit k))
      node ↔ k ∈ children t node ∧ hasInit ndlKeyInit k = true := by
  rw [mem_children_removeKeys, List.mem_filter]
  by_cases hk : hasInit ndlKeyInit k = true <;> simp [hk]

/-- `removeAllDataModel` keeps the children with `ndl_`, frees every other one once
and uses none of them afterwards, exactly when no kept child comes after a removed
one in the order of the map; the order is any order. -/
theorem clearsModel_iff (t : σ) (node : Path) :
    ClearsModel t node ↔ KeptFirst (children t node) := by
  constructor
  · rintro ⟨⟨t', hok, -⟩, -, -⟩
    by_contra hkept
    rw [removeAllDataModel, removeLoop_none, if_neg hkept] at hok
    cases hok
  · intro hkept
    have hfrees := removeFrees_none hkept
    refine ⟨⟨_, by rw [removeAllDataModel, removeLoop_none, if_pos hkept], mem_children_cleared,
      ?_⟩, ?_, ?_⟩
    · rw [isDiscovered, Bool.and_eq_false_iff, List.any_eq_false]
      right
      intro k hk
      rw [mem_children_cleared] at hk
      simp [hk.2]
    · intro k hk
      rw [hfrees]
      by_cases hndl : hasInit ndlKeyInit k = true
      · rw [if_pos hndl]
        exact List.count_eq_zero_of_not_mem fun h => by simp [hndl] at h
      · rw [if_neg hndl]
        exact List.count_eq_one_of_mem ((nodup_children t node).filter _)
          (List.mem_filter.2 ⟨hk, by simpa using hndl⟩)
    · intro k hk
      rw [hfrees] at hk
      exact (List.mem_filter.1 hk).1

/-- A server whose folder `datasets` comes before one of its actions. -/
def folderFirst : NodeStore :=
  let server := [srvKey "a".toList]
  let t := addChild NodeStore.empty [] (srvKey "a".toList) .create
  addChild (addChild t server "datasets".toList .create) server "ndl_clearserver".toList .create

/-- The folder is freed in the round of the action and once more at the end. -/
theorem folderFirst_clear : ¬ ClearsModel folderFirst [srvKey "a".toList] := by
  rintro ⟨⟨t', hok, -⟩, -, -⟩
  have hfault : removeAllDataModel folderFirst [srvKey "a".toList] = .error .useAfterFree := rfl
  rw [hfault] at hok
  cases hok

end DslinkIec61850
