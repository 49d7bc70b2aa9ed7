import Mathlib.Tactic

/-!
# Lists with keys

A keyed list holds at most one element for each key, in insertion order.
`set` replaces the element with the same key or appends a new one; `erase`
drops the element with a key.

* `find_set`: what is found after `set`.
* `nodup_set`, `nodup_erase`: both keep the keys distinct.
* `mem_of_mem_set`, `mem_erase`: membership after each operation.
-/

namespace DslinkIec61850.Keyed

variable {α κ : Type*} (key : α → κ)

/-- The keys are distinct. -/
def Distinct (l : List α) : Prop := (l.map key).Nodup

@[simp] theorem distinct_nil : Distinct key ([] : List α) := List.nodup_nil

theorem distinct_cons {key : α → κ} {l : List α} {y : α} :
    Distinct key (y :: l) ↔ (∀ z ∈ l, key z ≠ key y) ∧ Distinct key l := by
  simp [Distinct, List.nodup_cons]

variable [DecidableEq κ]

instance (l : List α) : Decidable (Distinct key l) := inferInstanceAs (Decidable (List.Nodup _))

/-- The element with key `k`. -/
def find (k : κ) (l : List α) : Option α := l.find? fun a => key a = k

/-- Replaces the element with `x`'s key by `x`, or appends `x`. -/
def set (x : α) : List α → List α
  | [] => [x]
  | y :: ys => if key y = key x then x :: ys else y :: set x ys

/-- Drops the elements with key `k`. -/
def erase (k : κ) (l : List α) : List α := l.filter fun a => key a ≠ k

variable {key} {l : List α} {x y : α} {k : κ}

@[simp] theorem find_nil : find key k ([] : List α) = none := rfl

theorem find_cons : find key k (y :: l) = if key y = k then some y else find key k l := by
  by_cases h : key y = k <;> simp [find, List.find?, h]

@[simp] theorem set_nil : set key x [] = [x] := rfl

/-! ## Finding -/

theorem mem_of_find (h : find key k l = some x) : x ∈ l := List.mem_of_find?_eq_some h

theorem key_of_find (h : find key k l = some x) : key x = k := by
  simpa using List.find?_some h

theorem find_eq_none : find key k l = none ↔ ∀ z ∈ l, key z ≠ k := by
  simp [find, List.find?_eq_none]

theorem find_isSome : (find key k l).isSome = true ↔ k ∈ l.map key := by
  simp only [find, List.find?_isSome, decide_eq_true_eq, List.mem_map]

theorem find_of_mem (hd : Distinct key l) (hx : x ∈ l) : find key (key x) l = some x := by
  induction l with
  | nil => simp at hx
  | cons y ys ih =>
    obtain ⟨hne, hd⟩ := distinct_cons.1 hd
    rcases List.mem_cons.1 hx with rfl | hx
    · rw [find_cons, if_pos rfl]
    · rw [find_cons, if_neg (hne x hx).symm, ih hd hx]

theorem find_map {g : α → α} (h : ∀ a, key (g a) = key a) :
    find key k (l.map g) = (find key k l).map g := by
  induction l with
  | nil => rfl
  | cons y ys ih =>
    rw [List.map_cons, find_cons, find_cons, h, ih]
    split_ifs <;> rfl

/-! ## Setting -/

theorem find_set : find key k (set key x l) = if key x = k then some x else find key k l := by
  induction l with
  | nil => simp [set, find_cons]
  | cons y ys ih =>
    by_cases hy : key y = key x
    · by_cases hk : key x = k
      · simp [set, hy, find_cons, hk]
      · simp [set, hy, find_cons, hk]
    · by_cases hk : key y = k
      · have hx : key x ≠ k := fun h => hy (hk.trans h.symm)
        rw [set, if_neg hy, find_cons, if_pos hk, if_neg hx, find_cons, if_pos hk]
      · rw [set, if_neg hy, find_cons, if_neg hk, ih, find_cons, if_neg hk]

theorem set_of_fresh (h : ∀ z ∈ l, key z ≠ key x) : set key x l = l ++ [x] := by
  induction l with
  | nil => rfl
  | cons y ys ih =>
    rw [set, if_neg (h y List.mem_cons_self), ih fun z hz => h z (List.mem_cons_of_mem _ hz)]
    rfl

theorem map_key_set :
    (set key x l).map key = if key x ∈ l.map key then l.map key else l.map key ++ [key x] := by
  induction l with
  | nil => simp [set]
  | cons y ys ih =>
    by_cases hy : key y = key x
    · simp [set, hy]
    · have hy' : key x ≠ key y := Ne.symm hy
      rw [set, if_neg hy, List.map_cons, ih]
      by_cases hm : key x ∈ ys.map key
      · rw [if_pos hm, if_pos (by simp [hm]), List.map_cons]
      · rw [if_neg hm, if_neg (by simpa [hy'] using hm)]
        rfl

theorem nodup_set (h : Distinct key l) : Distinct key (set key x l) := by
  rw [Distinct, map_key_set]
  split_ifs with hm
  · exact h
  · exact List.nodup_append.2 ⟨h, List.nodup_singleton _, by
      intro a ha b hb
      rw [List.mem_singleton] at hb
      rintro rfl
      exact hm (hb ▸ ha)⟩

theorem mem_set_self : x ∈ set key x l := by
  induction l with
  | nil => simp
  | cons y ys ih =>
    rw [set]
    split_ifs
    · exact List.mem_cons_self
    · exact List.mem_cons_of_mem _ ih

theorem mem_of_mem_set (h : y ∈ set key x l) : y = x ∨ y ∈ l := by
  induction l with
  | nil => exact .inl (by simpa using h)
  | cons z zs ih =>
    rw [set] at h
    split_ifs at h with hz
    · rcases List.mem_cons.1 h with rfl | h
      · exact .inl rfl
      · exact .inr (List.mem_cons_of_mem _ h)
    · rcases List.mem_cons.1 h with rfl | h
      · exact .inr List.mem_cons_self
      · rcases ih h with rfl | h
        · exact .inl rfl
        · exact .inr (List.mem_cons_of_mem _ h)

theorem distinct_append_new (h : Distinct key l) (hx : ∀ z ∈ l, key z ≠ key x) :
    Distinct key (l ++ [x]) := by
  rw [← set_of_fresh hx]
  exact nodup_set h

/-! ## Erasing -/

theorem erase_cons :
    erase key k (y :: l) = if key y = k then erase key k l else y :: erase key k l := by
  by_cases h : key y = k <;> simp [erase, h]

theorem find_erase {k' : κ} :
    find key k (erase key k' l) = if k' = k then none else find key k l := by
  induction l with
  | nil => simp [erase]
  | cons y ys ih =>
    rw [erase_cons, find_cons]
    by_cases hy : key y = k'
    · rw [if_pos hy, ih]
      by_cases hk : k' = k
      · rw [if_pos hk, if_pos hk]
      · rw [if_neg hk, if_neg hk, if_neg fun h => hk (hy.symm.trans h)]
    · rw [if_neg hy, find_cons, ih]
      by_cases hyk : key y = k
      · rw [if_pos hyk, if_neg fun h => hy (hyk.trans h.symm), if_pos hyk]
      · rw [if_neg hyk, if_neg hyk]

theorem nodup_erase (h : Distinct key l) : Distinct key (erase key k l) :=
  (List.Sublist.map key List.filter_sublist).nodup h

theorem mem_erase : y ∈ erase key k l ↔ y ∈ l ∧ key y ≠ k := by
  simp [erase]

theorem erase_of_not_mem (h : ∀ z ∈ l, key z ≠ k) : erase key k l = l := by
  simpa [erase, List.filter_eq_self] using h

/-! ## Collecting without repetition -/

section Collect

variable {α β : Type*} [DecidableEq β]

/-- Appends a new element. -/
def insertNew (l : List β) (x : β) : List β := if x ∈ l then l else l ++ [x]

/-- What `f` delivers for the elements of a list, each value once. -/
def collect (f : α → Option β) (l : List α) : List β :=
  l.foldl (fun acc a => match f a with | none => acc | some b => insertNew acc b) []

theorem mem_insertNew {l : List β} {x y : β} : y ∈ insertNew l x ↔ y ∈ l ∨ y = x := by
  unfold insertNew
  split_ifs with h
  · constructor
    · exact .inl
    · rintro (hy | rfl)
      · exact hy
      · exact h
  · simp

theorem nodup_insertNew {l : List β} {x : β} (h : l.Nodup) : (insertNew l x).Nodup := by
  unfold insertNew
  split_ifs with hx
  · exact h
  · exact List.nodup_append.2 ⟨h, List.nodup_singleton _, by
      intro a ha b hb
      rw [List.mem_singleton] at hb
      rintro rfl
      exact hx (hb ▸ ha)⟩

private theorem collect_aux (f : α → Option β) (l : List α) (acc : List β) :
    (∀ b, b ∈ l.foldl (fun acc a => match f a with | none => acc | some b => insertNew acc b) acc ↔
      b ∈ acc ∨ ∃ a ∈ l, f a = some b) ∧
    (acc.Nodup →
      (l.foldl (fun acc a => match f a with | none => acc | some b => insertNew acc b)
        acc).Nodup) := by
  induction l generalizing acc with
  | nil => simp
  | cons a l ih =>
    rw [List.foldl_cons]
    cases ha : f a with
    | none =>
      obtain ⟨hmem, hnd⟩ := ih acc
      exact ⟨fun b => by simp [hmem b, ha], hnd⟩
    | some x =>
      obtain ⟨hmem, hnd⟩ := ih (insertNew acc x)
      refine ⟨fun b => ?_, fun h => hnd (nodup_insertNew h)⟩
      simp only [hmem b, mem_insertNew, List.mem_cons, exists_eq_or_imp, ha, Option.some.injEq,
        eq_comm (a := b), or_assoc]

theorem mem_collect {f : α → Option β} {l : List α} {b : β} :
    b ∈ collect f l ↔ ∃ a ∈ l, f a = some b := by
  rw [collect, (collect_aux f l []).1 b]
  simp

theorem nodup_collect (f : α → Option β) (l : List α) : (collect f l).Nodup :=
  (collect_aux f l []).2 List.nodup_nil

end Collect

end DslinkIec61850.Keyed
