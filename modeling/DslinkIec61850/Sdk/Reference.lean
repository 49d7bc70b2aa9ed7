import DslinkIec61850.Sdk.Node

/-!
# A node tree as a list

An implementation of the interface `DSLink`: the nodes in the order in which
they were added, each with its path, and the addresses given out so far. It
shows that the interface is consistent and is what concrete runs are evaluated
on.
-/

namespace DslinkIec61850

/-- The nodes by path, and the last address given to each path. -/
structure NodeStore where
  nodes : List (Path × DSNode)
  distinct : Keyed.Distinct Prod.fst nodes
  idents : List (Path × ℕ)
  next : ℕ

namespace NodeStore

/-- Only the root. -/
def empty : NodeStore :=
  { nodes := [([], DSNode.create)], distinct := by simp [Keyed.Distinct], idents := [([], 0)],
    next := 1 }

def lookup (t : NodeStore) (p : Path) : Option DSNode :=
  (Keyed.find Prod.fst p t.nodes).map Prod.snd

def ident (t : NodeStore) (p : Path) : ℕ := ((Keyed.find Prod.fst p t.idents).map Prod.snd).getD 0

/-- The nodes that are not in the subtree at `p`. -/
def outside (t : NodeStore) (p : Path) : List (Path × DSNode) := t.nodes.filter fun e => ¬ p <+: e.1

def addChild (t : NodeStore) (p : Path) (k : Str) (n : DSNode) : NodeStore :=
  { nodes := Keyed.set Prod.fst (p ++ [k], n) (t.outside (p ++ [k])),
    distinct := Keyed.nodup_set ((List.Sublist.map _ List.filter_sublist).nodup t.distinct),
    idents := (p ++ [k], t.next) :: t.idents, next := t.next + 1 }

def removeTree (t : NodeStore) (p : Path) : NodeStore :=
  { t with nodes := t.outside p,
           distinct := (List.Sublist.map _ List.filter_sublist).nodup t.distinct }

def modify (t : NodeStore) (p : Path) (f : DSNode → DSNode) : NodeStore :=
  { t with nodes := t.nodes.map fun e => if e.1 = p then (e.1, f e.2) else e,
           distinct := by
             have hfst : (fun e : Path × DSNode => (if e.1 = p then (e.1, f e.2) else e).1) =
                 Prod.fst := by
               funext e
               split_ifs <;> rfl
             have := t.distinct
             simp only [Keyed.Distinct, List.map_map, Function.comp_def, hfst] at this ⊢
             exact this }

/-- The last key of a path right below `p`. -/
def lastBelow (p q : Path) : Option Str :=
  if q = p ++ [q.getLastD []] then some (q.getLastD []) else none

def children (t : NodeStore) (p : Path) : List Str := t.nodes.filterMap fun e => lastBelow p e.1

def getPath (t : NodeStore) (p : Path) (s : Str) : Option Path :=
  let q := p ++ (Strings.split '/' s).filter (· ≠ [])
  if (t.lookup q).isSome then some q else none

theorem lastBelow_eq_some {p q : Path} {k : Str} : lastBelow p q = some k ↔ q = p ++ [k] := by
  unfold lastBelow
  constructor
  · intro h
    split_ifs at h with hq
    rw [← Option.some.inj h]
    exact hq
  · rintro rfl
    simp

theorem find_outside (t : NodeStore) (p q : Path) :
    Keyed.find Prod.fst q (t.outside p) = if p <+:
      q then none else Keyed.find Prod.fst q t.nodes := by
  unfold outside
  induction t.nodes with
  | nil => simp
  | cons e es ih =>
    by_cases he : p <+: e.1
    · rw [List.filter_cons_of_neg (by simpa using he), ih, Keyed.find_cons]
      by_cases hq : e.1 = q
      · rw [if_pos (hq ▸ he), if_pos (hq ▸ he)]
      · rw [if_neg hq]
    · rw [List.filter_cons_of_pos (by simpa using he), Keyed.find_cons, Keyed.find_cons, ih]
      by_cases hq : e.1 = q
      · rw [if_pos hq, if_pos hq, if_neg (hq ▸ he)]
      · rw [if_neg hq, if_neg hq]

theorem lookup_addChild (t : NodeStore) (p : Path) (k : Str) (n : DSNode) (q : Path) :
    (t.addChild p k n).lookup q =
      if q = p ++ [k] then some n else if p ++ [k] <+: q then none else t.lookup q := by
  simp only [lookup, addChild, Keyed.find_set, find_outside, eq_comm (a := q)]
  split_ifs <;> simp

theorem lookup_removeTree (t : NodeStore) (p q : Path) :
    (t.removeTree p).lookup q = if p <+: q then none else t.lookup q := by
  simp only [lookup, removeTree, find_outside]
  split_ifs <;> simp

theorem lookup_modify (t : NodeStore) (p : Path) (f : DSNode → DSNode) (q : Path) :
    (t.modify p f).lookup q = if q = p then (t.lookup p).map f else t.lookup q := by
  simp only [lookup, modify]
  induction t.nodes with
  | nil => simp
  | cons e es ih =>
    by_cases hp : e.1 = p
    · by_cases hq : q = p
      · simp [Keyed.find_cons, hp, hq]
      · have hpq : ¬ p = q := fun h => hq h.symm
        simpa [Keyed.find_cons, hp, hq, hpq] using ih
    · by_cases hq : q = p
      · simpa [Keyed.find_cons, hp, hq] using ih
      · by_cases heq : e.1 = q
        · simp [Keyed.find_cons, heq, hq]
        · simpa [Keyed.find_cons, hp, hq, heq] using ih

theorem mem_children (t : NodeStore) (p : Path) (k : Str) :
    k ∈ t.children p ↔ (t.lookup (p ++ [k])).isSome = true := by
  rw [lookup, Option.isSome_map, Keyed.find_isSome, children, List.mem_filterMap, List.mem_map]
  constructor
  · rintro ⟨e, he, hk⟩
    exact ⟨e, he, lastBelow_eq_some.1 hk⟩
  · rintro ⟨e, he, hk⟩
    exact ⟨e, he, lastBelow_eq_some.2 hk⟩

theorem nodup_children (t : NodeStore) (p : Path) : (t.children p).Nodup := by
  have hmap : t.children p = (t.nodes.map Prod.fst).filterMap (lastBelow p) := by
    rw [children, List.filterMap_map]
    rfl
  rw [hmap]
  refine List.Nodup.filterMap ?_ t.distinct
  intro q q' k hk hk'
  rw [Option.mem_def, lastBelow_eq_some] at hk hk'
  rw [hk, hk']

theorem getPath_name (t : NodeStore) (p : Path) (k : Str) (hne : k ≠ []) (hslash : '/' ∉ k) :
    t.getPath p k = if (t.lookup (p ++ [k])).isSome then some (p ++ [k]) else none := by
  have hsplit : Strings.split '/' k = [k] := by
    have := Strings.split_append_prefixed (p := []) hslash (by simp)
    simpa using this
  simp [getPath, hsplit, hne]

theorem getPath_below (t : NodeStore) (p : Path) (s : Str) (q : Path) (h : t.getPath p s = some q) :
    p <+: q ∧ (t.lookup q).isSome = true := by
  simp only [getPath] at h
  split_ifs at h with hs
  rw [← Option.some.inj h]
  exact ⟨List.prefix_append _ _, hs⟩

theorem ident_addChild (t : NodeStore) (p : Path) (k : Str) (n : DSNode) (q : Path) :
    (t.addChild p k n).ident q = if q = p ++ [k] then t.next else t.ident q := by
  simp only [ident, addChild, Keyed.find_cons, eq_comm (a := q)]
  split_ifs <;> simp

instance : DSLink NodeStore where
  lookup := lookup
  ident := ident
  fresh := next
  children := children
  addChild := addChild
  removeTree := removeTree
  modify := modify
  getPath := getPath
  nullValue := id
  lookup_addChild := lookup_addChild
  lookup_removeTree := lookup_removeTree
  lookup_modify := lookup_modify
  nodup_children := nodup_children
  mem_children := mem_children
  getPath_name := getPath_name
  getPath_below := getPath_below
  ident_addChild := ident_addChild
  ident_removeTree _ _ _ := rfl
  ident_modify _ _ _ _ := rfl
  fresh_addChild _ _ _ _ := rfl
  fresh_removeTree _ _ := rfl
  fresh_modify _ _ _ := rfl

end NodeStore

end DslinkIec61850
