import DslinkIec61850.Client.Directory

/-!
# The lengths of names

MMS limits the names of domains and of items to 64 characters. How long the
references are that the client library makes of such names.

* `length_entryRef_le`: a listed entry makes a reference of at most 128 characters.
* `memberText_of_spec`: the parts of the member of a data set and their lengths.
-/

namespace DslinkIec61850

open Strings

/-! ## Pieces of texts -/

theorem length_of_cut {c : Char} {s t : Str} (h : (cut c s).2 = some t) :
    s.length = (cut c s).1.length + 1 + t.length := by
  conv_lhs => rw [eq_of_cut_snd h]
  rw [List.length_append, List.length_cons]
  omega

theorem length_cut_fst_le (c : Char) (s : Str) : (cut c s).1.length ≤ s.length := by
  cases h : (cut c s).2 with
  | none => rw [cut_fst_of_none h]
  | some t =>
    rw [length_of_cut h]
    omega

/-- What is before the first bracket. -/
theorem length_cut_append_le (c : Char) (s t : Str) :
    (cut c (s ++ c :: t)).1.length ≤ s.length := by
  by_cases h : c ∈ s
  · obtain ⟨s', hs'⟩ : ∃ s', (cut c s).2 = some s' := by
      rw [← Option.ne_none_iff_exists']
      exact fun hnone => cut_snd_eq_none.1 hnone h
    have heq : s ++ c :: t = (cut c s).1 ++ c :: (s' ++ c :: t) := by
      conv_lhs => rw [eq_of_cut_snd hs']
      simp
    rw [heq, cut_append cut_fst_not_mem]
    exact length_cut_fst_le c s
  · rw [cut_append h]

theorem length_replace (old new : Char) (s : Str) : (replace old new s).length = s.length := by
  rw [replace, List.length_map]

theorem length_le_prefixed {c : Char} {n : Str} {p : List Str} (h : n ∈ p) :
    n.length ≤ (prefixed c p).length := by
  induction p with
  | nil => simp at h
  | cons k p ih =>
    rw [prefixed_cons, List.length_cons, List.length_append]
    rcases List.mem_cons.1 h with rfl | h
    · omega
    · have := ih h
      omega

/-- A piece of a text is no longer than the text. -/
theorem length_le_of_mem_split {c : Char} {s n : Str} (h : n ∈ split c s) :
    n.length ≤ s.length := by
  obtain ⟨m, p, rfl, hfree⟩ := exists_eq_prefixed c s
  rw [split_append_prefixed (hfree m List.mem_cons_self) fun k hk =>
    hfree k (List.mem_cons_of_mem _ hk)] at h
  rw [List.length_append]
  rcases List.mem_cons.1 h with rfl | h
  · omega
  · have := length_le_prefixed (c := c) h
    omega

/-! ## Listed names -/

/-- A name on the wire: letters, digits, `_` and `$`. -/
def MmsName (s : Str) : Prop := s.length ≤ 64 ∧ ∀ c ∈ s, c.isAlphanum = true ∨ c = '_' ∨ c = '$'

theorem MmsName.not_mem {s : Str} (h : MmsName s) {c : Char} (hc : c.isAlphanum = false)
    (hu : c ≠ '_') (hd : c ≠ '$') : c ∉ s := by
  intro hm
  rcases h.2 c hm with h | h | h
  · rw [h] at hc
    exact absurd hc (by decide)
  · exact hu h
  · exact hd h

/-- The names that the server lists are names of MMS: the domains and their
variables, and the named variable lists of a domain. -/
structure NameLimits (devices : LogicalDevices) (variableLists : Str → List Str) : Prop where
  domain : ∀ e ∈ devices, MmsName e.1
  item : ∀ e ∈ devices, ∀ v ∈ e.2, MmsName v
  variableList : ∀ ld, ∀ v ∈ variableLists ld, MmsName v

namespace LogicalDevices

variable {devices : LogicalDevices} {ld : Str} {vars : List Str}

theorem mem_of_variablesOf (h : variablesOf devices ld = some vars) : (ld, vars) ∈ devices := by
  obtain ⟨e, he, rfl⟩ := Option.map_eq_some_iff.1 h
  rw [← Keyed.key_of_find he]
  exact Keyed.mem_of_find he

/-- A name below a logical node. -/
theorem length_nameBelow {ln v name : Str} {fcOk : Str → Bool}
    (h : nameBelow ln fcOk v = some name) : name.length + 2 ≤ v.length := by
  unfold nameBelow at h
  split at h
  · rename_i ln' afterLn hv
    split_ifs at h
    split at h
    · rename_i name' hname
      split_ifs at h
      cases h
      have hlen := length_of_cut (c := '$') (s := v) (by rw [hv])
      have hlen' := length_of_cut hname
      omega
    · cases h
  · cases h

/-- A listed element and what it is listed for. -/
theorem length_elementOf {ln part v e : Str} {fc : Option Str}
    (h : elementOf ln part fc v = some e) :
    ln.length + part.length + (cut '[' e).1.length + 3 ≤ v.length := by
  unfold elementOf at h
  split at h
  · cases h
  · rename_i ln' afterLn hv
    by_cases hln : ln' = ln
    · rw [if_pos hln] at h
      split at h
      · cases h
      · rename_i remaining hremaining
        split_ifs at h with hfc hprefix
        cases h
        have hlen := length_of_cut (c := '$') (s := v) (by rw [hv])
        have hlen' := length_of_cut hremaining
        have hpart := hprefix.1.length_le
        have hname := length_cut_append_le '[' (remaining.drop (part.length + 1))
          (afterLn.take 2 ++ [']'])
        rw [List.length_append, List.length_singleton] at hpart
        rw [List.length_drop] at hname
        rw [hv, hln] at hlen
        dsimp only at hlen
        omega
    · rw [if_neg hln] at h
      cases h

/-- **Entries.** The reference made of a listed entry. -/
theorem length_entryRef_le (hdomain : ∀ e ∈ devices, e.1.length ≤ 64)
    (hvariable : ∀ e ∈ devices, ∀ v ∈ e.2, v.length ≤ 64) {ref e : Str} {fc : Option Str}
    {l : List Str} (h : getDataDirectory devices ref fc = some l) (he : e ∈ l) :
    (ref ++ '.' :: (cut '[' e).1).length ≤ 128 := by
  unfold getDataDirectory at h
  split_ifs at h
  split at h
  · cases h
  · rename_i ld rest hld
    split at h
    · cases h
    · cases h
    · rename_i ln part hln
      obtain ⟨vars, hvars, rfl⟩ := Option.map_eq_some_iff.1 h
      obtain ⟨v, hv, hevent⟩ := Keyed.mem_collect.1 he
      have hmem := mem_of_variablesOf hvars
      have hle := hvariable _ hmem v hv
      have hdom := hdomain _ hmem
      have helement := length_elementOf hevent
      have hrefLen := length_of_cut (c := '/') (s := ref) (by rw [hld])
      have hrestLen := length_of_cut (c := '.') (s := rest) (by rw [hln])
      rw [length_replace] at helement
      rw [hld] at hrefLen
      rw [hln] at hrestLen
      dsimp only at hdom hle hrefLen hrestLen
      rw [List.length_append, List.length_cons]
      omega

end LogicalDevices

/-! ## Members of data sets -/

/-- `MmsMapping_varAccessSpecToObjectReference` (mms_mapping.c:3273–3374) on a
specification as the client reads it, without an index and a component; a shorter
constraint ends the text. -/
def varAccessSpecToObjectReference (domainId itemId : Str) : Option Str :=
  match cut '$' itemId with
  | (_, none) => none
  | (ln, some rest) =>
    some (domainId ++ '/' :: (ln ++ '.' :: replace '$' '.' (rest.drop 3)) ++
      '[' :: (rest.take 2 ++ if 2 ≤ rest.length then [']'] else []))

/-- The parts of the text of a member. -/
structure MemberText (x domain ln names fcStr : Str) : Prop where
  eq : x = domain ++ '/' :: (ln ++ '.' :: names) ++ '[' :: fcStr
  domain_free : '/' ∉ domain ∧ '[' ∉ domain
  ln_free : '.' ∉ ln ∧ '[' ∉ ln
  names_free : '[' ∉ names
  domain_le : domain.length ≤ 64
  ln_le : ln.length + names.length ≤ 63
  fcStr_le : fcStr.length ≤ 3

/-- **Members.** The text of a member. -/
theorem memberText_of_spec {domainId itemId x : Str} (hdomain : MmsName domainId)
    (hitem : MmsName itemId) (h : varAccessSpecToObjectReference domainId itemId = some x) :
    ∃ ln names fcStr, MemberText x domainId ln names fcStr := by
  unfold varAccessSpecToObjectReference at h
  split at h
  · cases h
  · rename_i ln rest hcut
    cases h
    have hsplit : itemId = ln ++ '$' :: rest := by
      have := eq_of_cut_snd (c := '$') (s := itemId) (t := rest) (by rw [hcut])
      rwa [hcut] at this
    have hlen := hitem.1
    rw [hsplit, List.length_append, List.length_cons] at hlen
    have hfree (c : Char) (hc : c.isAlphanum = false) (hu : c ≠ '_') (hd : c ≠ '$') : c ∉ ln ∧
        c ∉ rest := by
      have := hitem.not_mem hc hu hd
      rw [hsplit, List.mem_append, List.mem_cons, not_or, not_or] at this
      exact ⟨this.1, this.2.2⟩
    refine ⟨ln, _, _, rfl, ?_, ?_, ?_, hdomain.1, ?_, ?_⟩
    · exact ⟨hdomain.not_mem (by decide) (by decide) (by decide),
        hdomain.not_mem (by decide) (by decide) (by decide)⟩
    · exact ⟨(hfree '.' (by decide) (by decide) (by decide)).1,
        (hfree '[' (by decide) (by decide) (by decide)).1⟩
    · intro hm
      obtain ⟨d, hd, heq⟩ := List.mem_map.1 hm
      split_ifs at heq with hdollar
      · exact absurd heq (by decide)
      · rw [heq] at hd
        exact (hfree '[' (by decide) (by decide) (by decide)).2 (List.mem_of_mem_drop hd)
    · rw [length_replace, List.length_drop]
      omega
    · rw [List.length_append, List.length_take]
      split_ifs with htwo
      · simp
      · simp

theorem MemberText.length_le {x domain ln names fcStr : Str}
    (h : MemberText x domain ln names fcStr) : x.length ≤ 133 := by
  have := h.domain_le
  have := h.ln_le
  have := h.fcStr_le
  rw [h.eq]
  simp only [List.length_append, List.length_cons]
  omega

end DslinkIec61850
