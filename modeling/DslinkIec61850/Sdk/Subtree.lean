import DslinkIec61850.Sdk.Node

/-!
# Subtrees

`sub t p` is the subtree at the path `p` as a function of the keys below it.
`Grafts t t' p f` says that a change of the tree leaves `f` at `p` and touches
nothing else; it composes along a sequence of changes and lifts to the parent.

* `grafts_addChild`, `grafts_modify`: the elementary changes.
* `Grafts.trans`, `Grafts.up`: composition and lifting.
-/

namespace DslinkIec61850

open DSLink

/-- A tree of nodes below a path. -/
abbrev Subtree := Path → Option DSNode

namespace Subtree

/-- A node without children. -/
def leaf (n : DSNode) : Subtree := fun r => if r = [] then some n else none

/-- The subtree `c` attached under the key `k`. -/
def set (k : Str) (c : Subtree) (f : Subtree) : Subtree
  | [] => f []
  | k' :: rs => if k' = k then c rs else f (k' :: rs)

@[simp] theorem leaf_nil (n : DSNode) : leaf n [] = some n := rfl

@[simp] theorem leaf_cons (n : DSNode) (k : Str) (rs : Path) : leaf n (k :: rs) = none := rfl

@[simp] theorem set_nil (k : Str) (c f : Subtree) : set k c f [] = f [] := rfl

theorem set_cons (k : Str) (c f : Subtree) (k' : Str) (rs : Path) :
    set k c f (k' :: rs) = if k' = k then c rs else f (k' :: rs) := rfl

@[simp] theorem set_cons_self (k : Str) (c f : Subtree) (rs : Path) : set k c f (k :: rs) = c rs :=
  if_pos rfl

theorem set_cons_of_ne {k k' : Str} (h : k' ≠ k) (c f : Subtree) (rs : Path) :
    set k c f (k' :: rs) = f (k' :: rs) := if_neg h

theorem set_set (k : Str) (c c' f : Subtree) : set k c (set k c' f) = set k c f := by
  funext r
  cases r with
  | nil => rfl
  | cons k' rs =>
    by_cases h : k' = k
    · rw [h, set_cons_self, set_cons_self]
    · rw [set_cons_of_ne h, set_cons_of_ne h, set_cons_of_ne h]

theorem set_comm {k k' : Str} (h : k ≠ k') (c c' f : Subtree) :
    set k c (set k' c' f) = set k' c' (set k c f) := by
  funext r
  cases r with
  | nil => rfl
  | cons x rs =>
    by_cases hk : x = k
    · rw [hk, set_cons_self, set_cons_of_ne h, set_cons_self]
    · rw [set_cons_of_ne hk]
      by_cases hk' : x = k'
      · rw [hk', set_cons_self, set_cons_self]
      · rw [set_cons_of_ne hk', set_cons_of_ne hk', set_cons_of_ne hk]

end Subtree

open Subtree

variable {σ : Type} [DSLink σ] {t t' t'' : σ} {p q : Path} {k : Str} {n : DSNode} {f g : Subtree}

/-- The subtree at `p`. -/
def sub (t : σ) (p : Path) : Subtree := fun r => lookup t (p ++ r)

theorem sub_apply (r : Path) : sub t p r = lookup t (p ++ r) := rfl

@[simp] theorem sub_nil : sub t p [] = lookup t p := by rw [sub_apply, List.append_nil]

theorem sub_append (r : Path) : sub t (p ++ q) r = sub t p (q ++ r) := by
  rw [sub_apply, sub_apply, List.append_assoc]

/-- The change from `t` to `t'` leaves `f` at `p` and nothing else is touched. -/
structure Grafts (t t' : σ) (p : Path) (f : Subtree) : Prop where
  sub_eq : sub t' p = f
  frame : ∀ q, ¬ p <+: q → lookup t' q = lookup t q
  ident_frame : ∀ q, ¬ p <+: q → ident t' q = ident t q
  fresh_le : fresh t ≤ fresh t'

theorem Grafts.refl (t : σ) (p : Path) : Grafts t t p (sub t p) :=
  ⟨rfl, fun _ _ => rfl, fun _ _ => rfl, le_rfl⟩

theorem Grafts.trans (h : Grafts t t' p f) (h' : Grafts t' t'' p g) : Grafts t t'' p g :=
  ⟨h'.sub_eq, fun q hq => (h'.frame q hq).trans (h.frame q hq),
    fun q hq => (h'.ident_frame q hq).trans (h.ident_frame q hq), h.fresh_le.trans h'.fresh_le⟩

/-- Only the subtree at `p` is touched. -/
def Touches (t t' : σ) (p : Path) : Prop := Grafts t t' p (sub t' p)

theorem Grafts.touches (h : Grafts t t' p f) : Touches t t' p :=
  ⟨rfl, h.frame, h.ident_frame, h.fresh_le⟩

theorem Touches.refl (t : σ) (p : Path) : Touches t t p := Grafts.refl t p

theorem Touches.trans (h : Touches t t' p) (h' : Touches t' t'' p) : Touches t t'' p :=
  Grafts.trans h h'

/-- A change below a child seen from the parent. -/
theorem Grafts.up (h : Grafts t t' (p ++ [k]) f) : Grafts t t' p (set k f (sub t p)) where
  sub_eq := by
    funext r
    cases r with
    | nil =>
      rw [set_nil, sub_nil, sub_nil]
      apply h.frame
      intro hpre
      have := hpre.length_le
      simp at this
    | cons k' rs =>
      by_cases hk : k' = k
      · rw [hk, set_cons_self, ← h.sub_eq, sub_append]
        rfl
      · rw [set_cons_of_ne hk]
        apply h.frame
        rw [List.prefix_append_right_inj]
        intro hpre
        rw [List.cons_prefix_cons] at hpre
        exact hk hpre.1.symm
  frame q hq := by
    apply h.frame
    intro hpre
    exact hq ((List.prefix_append p [k]).trans hpre)
  ident_frame q hq := by
    apply h.ident_frame
    intro hpre
    exact hq ((List.prefix_append p [k]).trans hpre)
  fresh_le := h.fresh_le

theorem Touches.up (h : Touches t t' (p ++ [k])) : Touches t t' p := (Grafts.up h).touches

theorem sub_addChild_child : sub (addChild t p k n) (p ++ [k]) = leaf n := by
  funext r
  cases r with
  | nil => rw [sub_nil, lookup_addChild_self, leaf_nil]
  | cons k' rs =>
    rw [leaf_cons]
    exact lookup_addChild_below (by simp)

theorem grafts_addChild_child (t : σ) (p : Path) (k : Str) (n : DSNode) :
    Grafts t (addChild t p k n) (p ++ [k]) (leaf n) where
  sub_eq := sub_addChild_child
  frame _ hq := lookup_addChild_of_not_below hq
  ident_frame q hq := by
    rw [ident_addChild, if_neg]
    rintro rfl
    exact hq (List.prefix_refl _)
  fresh_le := by simp

theorem grafts_addChild (t : σ) (p : Path) (k : Str) (n : DSNode) :
    Grafts t (addChild t p k n) p (set k (leaf n) (sub t p)) :=
  (grafts_addChild_child t p k n).up

theorem grafts_modify (t : σ) (p : Path) (F : DSNode → DSNode) :
    Grafts t (modify t p F) p
      (fun r => if r = [] then (lookup t p).map F else lookup t (p ++ r)) where
  sub_eq := by
    funext r
    rw [sub_apply, lookup_modify]
    by_cases hr : r = []
    · rw [if_pos hr, if_pos (by rw [hr, List.append_nil])]
    · rw [if_neg hr, if_neg (by simpa using hr)]
  frame q hq := by
    rw [lookup_modify, if_neg]
    rintro rfl
    exact hq (List.prefix_refl _)
  ident_frame q _ := ident_modify _ _ _ _
  fresh_le := by simp

/-- A subtree elsewhere can be removed before or after. -/
theorem Grafts.removeTree (h : Grafts t t' p f) (hq : ∀ r, ¬ q <+: p ++ r) :
    Grafts (DSLink.removeTree t q) (DSLink.removeTree t' q) p f where
  sub_eq := by
    rw [← h.sub_eq]
    funext r
    rw [sub_apply, lookup_removeTree_of_not_below (hq r), sub_apply]
  frame x hx := by
    rw [lookup_removeTree, lookup_removeTree, h.frame x hx]
  ident_frame x hx := by
    rw [ident_removeTree, ident_removeTree]
    exact h.ident_frame x hx
  fresh_le := by
    rw [fresh_removeTree, fresh_removeTree]
    exact h.fresh_le

/-! ## A sequence of children -/

/-- `dslink_node_create` and `dslink_node_add_child` for a list of children
without children of their own. -/
def addChildren (t : σ) (p : Path) (children : List (Str × DSNode)) : σ :=
  children.foldl (fun t c => addChild t p c.1 c.2) t

/-- The subtree with the children attached. -/
def withChildren (f : Subtree) (children : List (Str × DSNode)) : Subtree :=
  children.foldl (fun f c => set c.1 (leaf c.2) f) f

theorem grafts_addChildren (t : σ) (p : Path) (children : List (Str × DSNode)) :
    Grafts t (addChildren t p children) p (withChildren (sub t p) children) := by
  induction children generalizing t with
  | nil => exact Grafts.refl t p
  | cons c cs ih =>
    have h := grafts_addChild t p c.1 c.2
    have h' := ih (addChild t p c.1 c.2)
    rw [h.sub_eq] at h'
    exact h.trans h'

@[simp] theorem withChildren_nil (f : Subtree) (children : List (Str × DSNode)) :
    withChildren f children [] = f [] := by
  induction children generalizing f with
  | nil => rfl
  | cons c cs ih =>
    show withChildren (set c.1 (leaf c.2) f) cs [] = f []
    rw [ih, set_nil]

/-- Below the attached children there is the last one with the key, or what was
there before. -/
theorem withChildren_cons (f : Subtree) (children : List (Str × DSNode)) (k : Str) (rs : Path) :
    (∃ c ∈ children, c.1 = k ∧ withChildren f children (k :: rs) = leaf c.2 rs) ∨
      ((∀ c ∈ children, c.1 ≠ k) ∧ withChildren f children (k :: rs) = f (k :: rs)) := by
  induction children generalizing f with
  | nil => exact .inr ⟨by simp, rfl⟩
  | cons c cs ih =>
    show (∃ d ∈ c :: cs, d.1 = k ∧ withChildren (set c.1 (leaf c.2) f) cs (k :: rs) = leaf d.2 rs) ∨
      ((∀ d ∈ c :: cs, d.1 ≠ k) ∧
        withChildren (set c.1 (leaf c.2) f) cs (k :: rs) = f (k :: rs))
    rcases ih (set c.1 (leaf c.2) f) with ⟨d, hd, hk, heq⟩ | ⟨hne, heq⟩
    · exact .inl ⟨d, List.mem_cons_of_mem _ hd, hk, heq⟩
    · by_cases hc : k = c.1
      · left
        refine ⟨c, List.mem_cons_self, hc.symm, ?_⟩
        rw [heq, hc, set_cons_self]
      · right
        refine ⟨?_, ?_⟩
        · intro d hd
          rcases List.mem_cons.1 hd with rfl | hd
          · exact Ne.symm hc
          · exact hne d hd
        · rw [heq, set_cons_of_ne hc]

theorem withChildren_of_not_mem {children : List (Str × DSNode)} (h : ∀ c ∈ children, c.1 ≠ k)
    (f : Subtree) (rs : Path) : withChildren f children (k :: rs) = f (k :: rs) := by
  rcases withChildren_cons f children k rs with ⟨c, hc, hk, -⟩ | ⟨-, heq⟩
  · exact absurd hk (h c hc)
  · exact heq

theorem withChildren_append (f : Subtree) (cs ds : List (Str × DSNode)) :
    withChildren f (cs ++ ds) = withChildren (withChildren f cs) ds := List.foldl_append

/-- Attached children hide what the subtrees differ in at the root. -/
theorem withChildren_congr {f g : Subtree} (children : List (Str × DSNode))
    (h : ∀ k rs, f (k :: rs) = g (k :: rs)) (k : Str) (rs : Path) :
    withChildren f children (k :: rs) = withChildren g children (k :: rs) := by
  induction children generalizing f g with
  | nil => exact h k rs
  | cons c cs ih =>
    refine ih (f := set c.1 (leaf c.2) f) (g := set c.1 (leaf c.2) g) ?_
    intro k' rs'
    rw [set_cons, set_cons, h]

/-- What is below a node whose children have no children. -/
theorem mem_of_withChildren_leaf {children : List (Str × DSNode)} {k : Str} {rs : Path} {m : DSNode}
    (h : withChildren (leaf n) children (k :: rs) = some m) : rs = [] ∧ (k, m) ∈ children := by
  rcases withChildren_cons (leaf n) children k rs with ⟨c, hc, rfl, heq⟩ | ⟨-, heq⟩
  · rw [heq] at h
    cases rs with
    | nil =>
      cases h
      exact ⟨rfl, hc⟩
    | cons k' rs => cases h
  · rw [heq] at h
    cases h

/-- A later change under a key hides an earlier one. -/
theorem set_withChildren_set (k : Str) (F G G' : Subtree) (children : List (Str × DSNode)) :
    set k G (withChildren (set k G' F) children) = set k G (withChildren F children) := by
  funext r
  cases r with
  | nil => simp
  | cons k' rs =>
    by_cases hk : k' = k
    · rw [hk, set_cons_self, set_cons_self]
    · rw [set_cons_of_ne hk, set_cons_of_ne hk]
      induction children generalizing F G' with
      | nil => exact set_cons_of_ne hk _ _ _
      | cons c cs ih =>
        show withChildren (set c.1 (leaf c.2) (set k G' F)) cs (k' :: rs) =
          withChildren (set c.1 (leaf c.2) F) cs (k' :: rs)
        by_cases hc : c.1 = k
        · rw [hc, set_set]
        · rw [set_comm hc, ih]

/-! ## Changes below a folder -/

/-- The change from `t` to `t'` touches only nodes strictly below `p`, and no node
there gets the property `Q` that did not have it. -/
structure ChangesBelow (Q : DSNode → Prop) (t t' : σ) (p : Path) : Prop where
  frame : ∀ q, ¬ p <+: q → lookup t' q = lookup t q
  ident_frame : ∀ q, ¬ p <+: q → ident t' q = ident t q
  root : lookup t' p = lookup t p
  ident_root : ident t' p = ident t p
  fresh_le : fresh t ≤ fresh t'
  noNew : ∀ q n, lookup t' q = some n → Q n → ∃ n', lookup t q = some n' ∧ Q n'

namespace ChangesBelow

variable {Q : DSNode → Prop}

theorem refl (t : σ) (p : Path) : ChangesBelow Q t t p :=
  ⟨fun _ _ => rfl, fun _ _ => rfl, rfl, rfl, le_rfl, fun _ n h hQ => ⟨n, h, hQ⟩⟩

theorem trans (h : ChangesBelow Q t t' p) (h' : ChangesBelow Q t' t'' p) :
    ChangesBelow Q t t'' p where
  frame q hq := (h'.frame q hq).trans (h.frame q hq)
  ident_frame q hq := (h'.ident_frame q hq).trans (h.ident_frame q hq)
  root := h'.root.trans h.root
  ident_root := h'.ident_root.trans h.ident_root
  fresh_le := h.fresh_le.trans h'.fresh_le
  noNew q n hn hQ := by
    obtain ⟨n', hn', hQ'⟩ := h'.noNew q n hn hQ
    exact h.noNew q n' hn' hQ'

/-- A subtree without the property is put below `p`. -/
theorem of_grafts {r : Path} (h : Grafts t t' (p ++ r) f) (hr : r ≠ [])
    (hQ : ∀ x n, f x = some n → ¬ Q n) : ChangesBelow Q t t' p where
  frame q hq := h.frame q fun hpre => hq ((List.prefix_append p r).trans hpre)
  ident_frame q hq := h.ident_frame q fun hpre => hq ((List.prefix_append p r).trans hpre)
  root := h.frame p fun hpre => hr (by simpa using hpre.length_le)
  ident_root := h.ident_frame p fun hpre => hr (by simpa using hpre.length_le)
  fresh_le := h.fresh_le
  noNew q n hn hQn := by
    by_cases hpre : p ++ r <+: q
    · obtain ⟨x, rfl⟩ := hpre
      rw [← sub_apply, h.sub_eq] at hn
      exact absurd hQn (hQ x n hn)
    · exact ⟨n, by rw [← h.frame q hpre, hn], hQn⟩

/-- Fields of a node below `p` are assigned. -/
theorem of_modify {r : Path} {F : DSNode → DSNode} (t : σ) (p : Path) (hr : r ≠ [])
    (hQ : ∀ n, Q (F n) → Q n) : ChangesBelow Q t (modify t (p ++ r) F) p where
  frame q hq := by
    rw [lookup_modify, if_neg]
    rintro rfl
    exact hq (List.prefix_append p r)
  ident_frame _ _ := ident_modify _ _ _ _
  root := by
    rw [lookup_modify, if_neg]
    intro h
    exact hr (by simpa using h)
  ident_root := ident_modify _ _ _ _
  fresh_le := by simp
  noNew q n hn hQn := by
    rw [lookup_modify] at hn
    split_ifs at hn with hq
    · obtain ⟨n', hn', rfl⟩ := Option.map_eq_some_iff.1 hn
      exact ⟨n', by rw [hq, hn'], hQ n' hQn⟩
    · exact ⟨n, hn, hQn⟩

end ChangesBelow

end DslinkIec61850
