import DslinkIec61850.Lib.Decimal

/-!
# Separators in C strings

`cut c s` is what `strchr` finds: the text before the first `c` and, when there
is one, the text after it. `prefixed c p` writes every name of a path after a
separator `c`.

* `cut_append`: a name without `c` is cut off again.
* `prefixed_injective`: a path of names without `c` is read back from its text.
* `splitOn_intercalate_iff`: texts are read back from their joined text.
-/

namespace DslinkIec61850.Strings

variable {c : Char} {s t : Str}

/-- The text before the first `c` and the text after it, if there is a `c`. -/
def cut (c : Char) : Str → Str × Option Str
  | [] => ([], none)
  | d :: s => if d = c then ([], some s) else (d :: (cut c s).1, (cut c s).2)

theorem cut_append (h : c ∉ s) (t : Str) : cut c (s ++ c :: t) = (s, some t) := by
  induction s with
  | nil => simp [cut]
  | cons d s ih =>
    rw [List.mem_cons, not_or] at h
    rw [List.cons_append, cut, if_neg (Ne.symm h.1), ih h.2]

theorem cut_of_not_mem (h : c ∉ s) : cut c s = (s, none) := by
  induction s with
  | nil => rfl
  | cons d s ih =>
    rw [List.mem_cons, not_or] at h
    rw [cut, if_neg (Ne.symm h.1), ih h.2]

/-- `strchr` finds a `c` exactly when there is one. -/
theorem cut_snd_eq_none : (cut c s).2 = none ↔ c ∉ s := by
  induction s with
  | nil => simp [cut]
  | cons d s ih =>
    by_cases hd : d = c
    · simp [cut, hd]
    · simp [cut, hd, ih, Ne.symm hd]

theorem cut_fst_not_mem : c ∉ (cut c s).1 := by
  induction s with
  | nil => simp [cut]
  | cons d s ih =>
    by_cases hd : d = c
    · simp [cut, hd]
    · simp [cut, hd, ih, Ne.symm hd]

/-- The pieces of a cut text. -/
theorem eq_of_cut_snd (h : (cut c s).2 = some t) : s = (cut c s).1 ++ c :: t := by
  induction s with
  | nil => simp [cut] at h
  | cons d s ih =>
    by_cases hd : d = c
    · simp only [cut, hd, if_true, Option.some.injEq] at h ⊢
      rw [h]; rfl
    · rw [cut, if_neg hd] at h ⊢
      rw [List.cons_append, ← ih h]

theorem cut_fst_of_none (h : (cut c s).2 = none) : (cut c s).1 = s := by
  rw [cut_of_not_mem (cut_snd_eq_none.1 h)]

/-- Two texts that begin with a name without `c` followed by a `c`. -/
theorem append_cons_inj {s' t' : Str} (h : c ∉ s) (h' : c ∉ s') :
    s ++ c :: t = s' ++ c :: t' ↔ s = s' ∧ t = t' := by
  constructor
  · intro heq
    have := congrArg (cut c) heq
    rw [cut_append h, cut_append h'] at this
    simpa using this
  · rintro ⟨rfl, rfl⟩; rfl

/-! ## Replacing a character -/

/-- `StringUtils_replace`: every `old` becomes `new`. -/
def replace (old new : Char) (s : Str) : Str := s.map fun d => if d = old then new else d

theorem replace_append (old new : Char) (s t : Str) :
    replace old new (s ++ t) = replace old new s ++ replace old new t := by
  simp [replace]

theorem not_mem_replaced {old new : Char} (hne : old ≠ new) (s : Str) :
    old ∉ replace old new s := by
  intro h
  obtain ⟨d, -, hd⟩ := List.mem_map.1 h
  split_ifs at hd with hold
  · exact hne hd.symm
  · exact hold hd

theorem replace_of_not_mem {old new : Char} (h : old ∉ s) : replace old new s = s := by
  rw [replace, List.map_congr_left (g := id), List.map_id]
  intro d hd
  rw [if_neg, id]
  rintro rfl
  exact h hd

/-- Replacing and replacing back, when the new character was not there. -/
theorem replace_replace {old new : Char} (h : new ∉ s) :
    replace new old (replace old new s) = s := by
  rw [replace, replace, List.map_map, List.map_congr_left (g := id), List.map_id]
  intro d hd
  have hne : d ≠ new := by rintro rfl; exact h hd
  by_cases hd : d = old <;> simp [hd, hne]

/-! ## Paths with separators -/

/-- Every name of the path after a separator. -/
def prefixed (c : Char) (p : List Str) : Str := p.flatMap (c :: ·)

@[simp] theorem prefixed_nil : prefixed c [] = [] := rfl

@[simp] theorem prefixed_cons (n : Str) (p : List Str) :
    prefixed c (n :: p) = c :: (n ++ prefixed c p) := rfl

theorem prefixed_append (p q : List Str) : prefixed c (p ++ q) = prefixed c p ++ prefixed c q := by
  simp [prefixed]

theorem not_mem_prefixed {d : Char} {p : List Str} (hd : d ≠ c) (hp : ∀ n ∈ p, d ∉ n) :
    d ∉ prefixed c p := by
  induction p with
  | nil => exact List.not_mem_nil
  | cons n p ih =>
    obtain ⟨hn, hp⟩ := List.forall_mem_cons.1 hp
    rw [prefixed_cons, List.mem_cons, List.mem_append, not_or, not_or]
    exact ⟨hd, hn, ih hp⟩

/-- A name without `c`, followed by a path. -/
theorem append_prefixed_inj {n m : Str} {p q : List Str} (hn : c ∉ n) (hm : c ∉ m) :
    n ++ prefixed c p = m ++ prefixed c q ↔ n = m ∧ prefixed c p = prefixed c q := by
  constructor
  · intro h
    have hcut := congrArg (cut c) h
    cases p with
    | nil =>
      cases q with
      | nil => simpa using h
      | cons y q =>
        rw [prefixed_nil, List.append_nil, prefixed_cons, cut_append hm, cut_of_not_mem hn] at hcut
        simp at hcut
    | cons x p =>
      cases q with
      | nil =>
        rw [prefixed_nil, List.append_nil, prefixed_cons, cut_append hn, cut_of_not_mem hm] at hcut
        simp at hcut
      | cons y q =>
        rw [prefixed_cons, prefixed_cons, cut_append hn, cut_append hm] at hcut
        simpa using hcut
  · rintro ⟨rfl, h⟩; rw [h]

/-- Paths of names without `c` are read back from their texts. -/
theorem prefixed_injective {p q : List Str} (hp : ∀ n ∈ p, c ∉ n) (hq : ∀ n ∈ q, c ∉ n)
    (h : prefixed c p = prefixed c q) : p = q := by
  induction p generalizing q with
  | nil => cases q with
    | nil => rfl
    | cons y q => simp at h
  | cons x p ih =>
    cases q with
    | nil => simp at h
    | cons y q =>
      rw [prefixed_cons, prefixed_cons, List.cons.injEq,
        append_prefixed_inj (hp x List.mem_cons_self) (hq y List.mem_cons_self)] at h
      obtain ⟨-, rfl, h⟩ := h
      rw [ih (fun n hn => hp n (List.mem_cons_of_mem _ hn))
        (fun n hn => hq n (List.mem_cons_of_mem _ hn)) h]

/-! ## Path texts cut into their names -/

/-- The names between separators: `"a.b.c"` cut at every `c`. -/
def split (c : Char) : Str → List Str
  | [] => [[]]
  | d :: s =>
    if d = c then [] :: split c s
    else match split c s with
      | [] => [[d]]
      | n :: ns => (d :: n) :: ns

theorem split_append_prefixed {n : Str} {p : List Str} (hn : c ∉ n) (hp : ∀ m ∈ p, c ∉ m) :
    split c (n ++ prefixed c p) = n :: p := by
  induction p generalizing n with
  | nil =>
    induction n with
    | nil => rfl
    | cons d n ih =>
      rw [List.mem_cons, not_or] at hn
      rw [List.cons_append, split, if_neg (Ne.symm hn.1), ih hn.2]
  | cons m p ihp =>
    induction n with
    | nil =>
      rw [List.nil_append, prefixed_cons, split, if_pos rfl,
        ihp (hp m List.mem_cons_self) fun k hk => hp k (List.mem_cons_of_mem _ hk)]
    | cons d n ih =>
      rw [List.mem_cons, not_or] at hn
      rw [List.cons_append, split, if_neg (Ne.symm hn.1), ih hn.2]

/-- Every text is a path of names without `c`. -/
theorem exists_eq_prefixed (c : Char) (s : Str) :
    ∃ n p, s = n ++ prefixed c p ∧ ∀ m ∈ n :: p, c ∉ m := by
  induction s with
  | nil => exact ⟨[], [], rfl, by simp⟩
  | cons d s ih =>
    obtain ⟨n, p, rfl, hfree⟩ := ih
    by_cases hd : d = c
    · refine ⟨[], n :: p, by rw [hd]; rfl, ?_⟩
      intro m hm
      rcases List.mem_cons.1 hm with rfl | hm
      · simp
      · exact hfree m hm
    · refine ⟨d :: n, p, rfl, ?_⟩
      intro m hm
      rcases List.mem_cons.1 hm with rfl | hm
      · rw [List.mem_cons, not_or]
        exact ⟨Ne.symm hd, hfree n List.mem_cons_self⟩
      · exact hfree m (List.mem_cons_of_mem _ hm)

/-! ## Texts joined by a separator -/

theorem not_mem_of_mem_splitOn {n : Str} (h : n ∈ s.splitOn c) : c ∉ n := by
  induction s generalizing n with
  | nil =>
    rw [List.splitOn_nil, List.mem_singleton] at h
    rw [h]
    exact List.not_mem_nil
  | cons d s ih =>
    rw [List.splitOn_cons_eq_if_modifyHead] at h
    split_ifs at h with hd
    · rcases List.mem_cons.1 h with rfl | h
      · exact List.not_mem_nil
      · exact ih h
    · -- the character goes to the first piece
      obtain ⟨m, ms, hsplit⟩ := List.exists_cons_of_ne_nil (List.splitOn_ne_nil c s)
      rw [hsplit] at h ih
      rcases List.mem_cons.1 h with rfl | h
      · rw [List.mem_cons, not_or]
        exact ⟨fun hcd => hd (by rw [hcd, beq_self_eq_true]), ih List.mem_cons_self⟩
      · exact ih (List.mem_cons_of_mem _ h)

/-- Texts are read back from their joined text exactly when none has the separator. -/
theorem splitOn_intercalate_iff {names : List Str} (hne : names ≠ []) :
    ([c].intercalate names).splitOn c = names ↔ ∀ n ∈ names, c ∉ n := by
  constructor
  · intro h n hn
    rw [← h] at hn
    exact not_mem_of_mem_splitOn hn
  · exact fun h => List.splitOn_intercalate c h hne

/-- Texts that are each followed by the separator. -/
theorem flatMap_separated {names : List Str} (hne : names ≠ []) :
    names.flatMap (fun n => n ++ [c]) = [c].intercalate names ++ [c] := by
  induction names with
  | nil => exact absurd rfl hne
  | cons n names ih =>
    cases names with
    | nil => simp
    | cons m names =>
      rw [List.flatMap_cons, ih (List.cons_ne_nil _ _), List.intercalate_cons_cons]
      simp

end DslinkIec61850.Strings
