import DslinkIec61850.Lib.Decimal
import DslinkIec61850.Lib.Run

/-!
# Durations

The loop of `parseIso8601Generic` over what follows a `P` (time_iso8601.c:36–88):
numbers, each with one of the designators `D`, `H`, `M` and `S`. A word of flags
tells which have been seen. The branch of `H` sets the flag of the days, so a second
`H` finds none of the flags that it looks for; and a number may have no digits.

* `durationLoop_eq`: the loop ends well exactly when the designators are in order, `H`
  any number of times, and no number that is read exceeds `int`.
-/

namespace DslinkIec61850.Iso8601

open Decimal Run

/-! ## The loop -/

def DAYFLAG : ℕ := 0x001000
def DHMSFLAG : ℕ := 0x001111
def HMSFLAG : ℕ := 0x000111
def MINFLAG : ℕ := 0x000010
def MSFLAG : ℕ := 0x000011
def SECFLAG : ℕ := 0x000001

/-- Why there is no duration: `return 0`, or a value beyond `int`. -/
inductive DurationStop where
  | refused | overflow
  deriving DecidableEq, Repr

/-- The variables of the loop. -/
structure Duration where
  dateflags : ℕ
  days : ℕ
  hours : ℕ
  minutes : ℕ
  seconds : ℕ
  deriving DecidableEq, Repr

/-- `num = 10 * num + *c++ - '0'` (line 43); the sum before the difference must be
an `int`. -/
def accumulate (num : ℕ) (c : Char) : Except DurationStop ℕ :=
  if 10 * num + c.toNat < 2 ^ 31 then .ok (10 * num + c.toNat - 48) else .error .overflow

/-- The `switch` on the character behind a number (lines 46–87). -/
def designate (d : Duration) (num : ℕ) (c : Char) : Except DurationStop Duration :=
  if c = 'D' then
    if d.dateflags &&& DHMSFLAG ≠ 0 then .error .refused
    else .ok { d with dateflags := d.dateflags ||| DAYFLAG, days := num }
  else if c = 'H' then
    if d.dateflags &&& HMSFLAG ≠ 0 then .error .refused
    else .ok { d with dateflags := d.dateflags ||| DAYFLAG, hours := num }
  else if c = 'M' then
    if d.dateflags &&& MSFLAG ≠ 0 then .error .refused
    else .ok { d with dateflags := d.dateflags ||| MINFLAG, minutes := num }
  else if c = 'S' then
    if d.dateflags &&& SECFLAG ≠ 0 then .error .refused
    else .ok { d with dateflags := d.dateflags ||| SECFLAG, seconds := num }
  else .error .refused

/-- Both loops (lines 38–88); the number is `none` when the outer loop is tested. The
terminator behind a number is refused by the `switch`. -/
def durationLoop : Duration → Option ℕ → Str → Except DurationStop Duration
  | d, none, [] => .ok d
  | _, some _, [] => .error .refused
  | d, num, c :: s =>
    if c.isDigit then accumulate (num.getD 0) c >>= fun num => durationLoop d (some num) s
    else designate d (num.getD 0) c >>= fun d => durationLoop d none s

/-- The variables before the loop. -/
def Duration.start : Duration :=
  { dateflags := 0, days := 0, hours := 0, minutes := 0, seconds := 0 }

/-- The sum of line 89. -/
def Duration.total (d : Duration) : ℕ :=
  d.seconds + 60 * d.minutes + 3600 * d.hours + 86400 * d.days

/-! ## Components -/

/-- Digits and the character behind them. -/
abbrev Component := Str × Char

/-- The text cut behind every character that is not a digit, and the digits at the end. -/
def components : Str → List Component × Str
  | [] => ([], [])
  | c :: s =>
    if c.isDigit then
      match components s with
      | ([], tail) => ([], c :: tail)
      | ((n, d) :: cs, tail) => ((c :: n, d) :: cs, tail)
    else (([], c) :: (components s).1, (components s).2)

/-- Components in a row. -/
def written (cs : List Component) : Str := cs.flatMap fun p => p.1 ++ [p.2]

/-- Only digits. -/
def Digits (n : Str) : Prop := ∀ c ∈ n, c.isDigit = true

/-- What a text is cut into. -/
structure Components (cs : List Component) (tail : Str) : Prop where
  digits : ∀ p ∈ cs, Digits p.1
  designator : ∀ p ∈ cs, p.2.isDigit = false
  tail : Digits tail

theorem written_cons (p : Component) (cs : List Component) :
    written (p :: cs) = p.1 ++ p.2 :: written cs := by
  simp [written]

theorem components_spec (s : Str) :
    Components (components s).1 (components s).2 ∧
    written (components s).1 ++ (components s).2 = s := by
  induction s with
  | nil => exact ⟨⟨by simp [components], by simp [components], by simp [components, Digits]⟩, rfl⟩
  | cons c s ih =>
    obtain ⟨hcut, heq⟩ := ih
    by_cases hc : c.isDigit = true
    · cases hcs : (components s).1 with
      | nil =>
        have hnext : components (c :: s) = ([], c :: (components s).2) := by
          rw [components, if_pos hc, ← Prod.mk.eta (p := components s), hcs]
        rw [hcs] at heq
        rw [hnext]
        refine ⟨⟨by simp, by simp, ?_⟩, congrArg (List.cons c) heq⟩
        intro x hx
        rcases List.mem_cons.1 hx with rfl | hx
        · exact hc
        · exact hcut.tail x hx
      | cons p cs =>
        have hnext : components (c :: s) = ((c :: p.1, p.2) :: cs, (components s).2) := by
          rw [components, if_pos hc, ← Prod.mk.eta (p := components s), hcs]
        rw [hcs] at hcut heq
        rw [hnext]
        obtain ⟨hdigits, hdesignator, htail⟩ := hcut
        obtain ⟨hp, hcsDigits⟩ := List.forall_mem_cons.1 hdigits
        refine ⟨⟨List.forall_mem_cons.2 ⟨?_, hcsDigits⟩, ?_, htail⟩, ?_⟩
        · intro x hx
          rcases List.mem_cons.1 hx with rfl | hx
          · exact hc
          · exact hp x hx
        · exact List.forall_mem_cons.2 (List.forall_mem_cons.1 hdesignator)
        · rw [written_cons] at heq ⊢
          exact congrArg (List.cons c) heq
    · have hnext : components (c :: s) = (([], c) :: (components s).1, (components s).2) := by
        rw [components, if_neg hc]
      rw [hnext]
      refine ⟨⟨List.forall_mem_cons.2 ⟨by simp [Digits], hcut.digits⟩,
        List.forall_mem_cons.2 ⟨by simpa using hc, hcut.designator⟩, hcut.tail⟩, ?_⟩
      rw [written_cons]
      exact congrArg (List.cons c) heq

theorem components_digits {n : Str} (hn : Digits n) (c : Char) (hc : c.isDigit = false) (s : Str) :
    components (n ++ c :: s) = ((n, c) :: (components s).1, (components s).2) := by
  induction n with
  | nil => rw [List.nil_append, components, if_neg (by simp [hc])]
  | cons x n ih =>
    obtain ⟨hx, hn⟩ := List.forall_mem_cons.1 hn
    rw [List.cons_append, components, if_pos hx, ih hn]

/-- A row of components is cut into these components. -/
theorem components_written {cs : List Component} (h : Components cs []) :
    components (written cs) = (cs, []) := by
  obtain ⟨hdigits, hdesignator, -⟩ := h
  induction cs with
  | nil => rfl
  | cons p cs ih =>
    obtain ⟨hp, hdigits⟩ := List.forall_mem_cons.1 hdigits
    obtain ⟨hpd, hdesignator⟩ := List.forall_mem_cons.1 hdesignator
    rw [written_cons, components_digits hp _ hpd, ih hdigits hdesignator]

/-! ## The order of the designators -/

/-- The designators in their order. -/
def designators : Str := ['D', 'H', 'M', 'S']

/-- The place of a designator. -/
def place (c : Char) : ℕ := designators.idxOf c

/-- Each designator at most once, in order. -/
def InOrder (cs : Str) : Prop :=
  (∀ c ∈ cs, c ∈ designators) ∧ cs.Pairwise fun a b => place a < place b

instance (cs : Str) : Decidable (InOrder cs) := inferInstanceAs (Decidable (_ ∧ List.Pairwise _ _))

/-- What may come after what: an `H` also after an `H`. -/
def Follows (a b : Char) : Prop := place a < place b ∨ (a = 'H' ∧ b = 'H')

instance (a b : Char) : Decidable (Follows a b) := inferInstanceAs (Decidable (_ ∨ _))

/-- The designators that the loop takes. -/
def Taken (cs : Str) : Prop := (∀ c ∈ cs, c ∈ designators) ∧ cs.Pairwise Follows

instance (cs : Str) : Decidable (Taken cs) := inferInstanceAs (Decidable (_ ∧ List.Pairwise _ _))

theorem InOrder.taken {cs : Str} (h : InOrder cs) : Taken cs := ⟨h.1, h.2.imp fun hlt => .inl hlt⟩

theorem taken_snoc {cs : Str} {c : Char} :
    Taken (cs ++ [c]) ↔ Taken cs ∧ c ∈ designators ∧ ∀ a ∈ cs, Follows a c := by
  unfold Taken
  rw [List.pairwise_append, List.forall_mem_append, List.forall_mem_singleton]
  constructor
  · rintro ⟨⟨hcs, hc⟩, hpair, -, hfollows⟩
    exact ⟨⟨hcs, hpair⟩, hc, fun a ha => hfollows a ha c List.mem_cons_self⟩
  · rintro ⟨⟨hcs, hpair⟩, hc, hfollows⟩
    refine ⟨⟨hcs, hc⟩, hpair, List.pairwise_singleton _ _, fun a ha b hb => ?_⟩
    rw [List.mem_singleton.1 hb]
    exact hfollows a ha

theorem Taken.of_append {cs ds : Str} (h : Taken (cs ++ ds)) : Taken cs :=
  ⟨fun c hc => h.1 c (List.mem_append_left _ hc), (List.pairwise_append.1 h.2).1⟩

/-- The flag that a designator sets. -/
def flagOf (c : Char) : ℕ :=
  if c = 'M' then MINFLAG else if c = 'S' then SECFLAG else DAYFLAG

/-- The flags that a designator looks for. -/
def maskOf (c : Char) : ℕ :=
  if c = 'D' then DHMSFLAG else if c = 'H' then HMSFLAG else if c = 'M' then MSFLAG else SECFLAG

/-- The flags after some designators. -/
def flagsOf (cs : Str) : ℕ := cs.foldl (fun flags c => flags ||| flagOf c) 0

theorem flagsOf_snoc (cs : Str) (c : Char) : flagsOf (cs ++ [c]) = flagsOf cs ||| flagOf c := by
  rw [flagsOf, List.foldl_append]
  rfl

/-- A mask finds a flag exactly when one of the designators has set it. -/
theorem flagsOf_mask {mask : ℕ} (cs : Str) :
    flagsOf cs &&& mask = 0 ↔ ∀ a ∈ cs, flagOf a &&& mask = 0 := by
  induction cs using List.reverseRecOn with
  | nil => simp [flagsOf]
  | append_singleton cs c ih =>
    rw [flagsOf_snoc, Nat.and_or_distrib_right, Nat.or_eq_zero_iff, ih, List.forall_mem_append,
      List.forall_mem_singleton]

/-- The flags and the masks express what may come after what. -/
theorem flagOf_mask {a c : Char} (ha : a ∈ designators) (hc : c ∈ designators) :
    flagOf a &&& maskOf c = 0 ↔ Follows a c := by
  have hall : ∀ a ∈ designators, ∀ c ∈ designators, (flagOf a &&& maskOf c = 0 ↔ Follows a c) := by
    decide
  exact hall a ha c hc

theorem flagsOf_maskOf {cs : Str} (h : Taken cs) {c : Char} (hc : c ∈ designators) :
    flagsOf cs &&& maskOf c = 0 ↔ Taken (cs ++ [c]) := by
  rw [flagsOf_mask, taken_snoc]
  constructor
  · exact fun hflags => ⟨h, hc, fun a ha => (flagOf_mask (h.1 a ha) hc).1 (hflags a ha)⟩
  · exact fun htaken a ha => (flagOf_mask (h.1 a ha) hc).2 (htaken.2.2 a ha)

/-! ## What is computed -/

/-- The number of a designator: the last one, or 0. -/
def numberOf (c : Char) (cs : List Component) : ℕ :=
  cs.foldl (fun number p => if p.2 = c then value p.1 else number) 0

theorem numberOf_snoc (c : Char) (cs : List Component) (p : Component) :
    numberOf c (cs ++ [p]) = if p.2 = c then value p.1 else numberOf c cs := by
  rw [numberOf, List.foldl_append]
  rfl

/-- The variables after some components. -/
def stateOf (cs : List Component) : Duration where
  dateflags := flagsOf (cs.map Prod.snd)
  days := numberOf 'D' cs
  hours := numberOf 'H' cs
  minutes := numberOf 'M' cs
  seconds := numberOf 'S' cs

/-- The seconds of some components. -/
def total (cs : List Component) : ℕ :=
  86400 * numberOf 'D' cs + 3600 * numberOf 'H' cs + 60 * numberOf 'M' cs + numberOf 'S' cs

theorem total_stateOf (cs : List Component) : (stateOf cs).total = total cs := by
  unfold Duration.total total
  simp only [stateOf]
  omega

/-- The `switch` takes a designator when its flags are free. -/
theorem designate_stateOf {cs : List Component} (h : Taken (cs.map Prod.snd)) (p : Component) :
    designate (stateOf cs) (value p.1) p.2 =
      if Taken ((cs ++ [p]).map Prod.snd) then .ok (stateOf (cs ++ [p])) else .error .refused := by
  have hmap : (cs ++ [p]).map Prod.snd = cs.map Prod.snd ++ [p.2] := by simp
  have hflags : (stateOf (cs ++ [p])).dateflags = flagsOf (cs.map Prod.snd) ||| flagOf p.2 := by
    rw [stateOf, hmap, flagsOf_snoc]
  by_cases hp : p.2 ∈ designators
  · have hiff := flagsOf_maskOf h hp
    rw [hmap]
    obtain ⟨n, c⟩ := p
    dsimp only at hp hiff hflags ⊢
    simp only [designators, List.mem_cons, List.not_mem_nil, or_false] at hp
    unfold designate
    rcases hp with rfl | rfl | rfl | rfl
    all_goals
      simp only [← hiff, stateOf, numberOf_snoc, flagsOf_snoc, List.map_append, List.map_cons,
        List.map_nil, maskOf, flagOf, ne_eq, Char.reduceEq, if_true, if_false]
      exact ite_not _ _ _
  · have hrefused : ¬ Taken ((cs ++ [p]).map Prod.snd) := by
      rw [hmap, taken_snoc]
      exact fun ht => hp ht.2.1
    rw [if_neg hrefused]
    simp only [designators, List.mem_cons, List.not_mem_nil, or_false, not_or] at hp
    obtain ⟨hD, hH, hM, hS⟩ := hp
    rw [designate, if_neg hD, if_neg hH, if_neg hM, if_neg hS]

/-! ## The run over the text -/

/-- The number is computed within `int`; without digits nothing is computed. -/
def SmallNumber (n : Str) : Prop := n = [] ∨ value n + 48 < 2 ^ 31

instance (n : Str) : Decidable (SmallNumber n) := inferInstanceAs (Decidable (_ ∨ _))

theorem toNat_digit {c : Char} (hc : c.isDigit = true) : c.toNat = digitValue c + 48 := by
  simp only [Char.isDigit, Bool.and_eq_true, decide_eq_true_eq, ge_iff_le,
    UInt32.le_iff_toNat_le] at hc
  have h48 : 48 ≤ c.toNat := hc.1
  rw [digitValue]
  omega

theorem accumulate_digit {num : ℕ} {c : Char} (hc : c.isDigit = true) :
    accumulate num c =
      if 10 * num + digitValue c + 48 <
        2 ^ 31 then .ok (10 * num + digitValue c) else .error .overflow := by
  unfold accumulate
  rw [toNat_digit hc, ← Nat.add_assoc, Nat.add_sub_cancel]

theorem le_foldl_digits (n : Str) (num : ℕ) :
    num ≤ n.foldl (fun acc c => 10 * acc + digitValue c) num := by
  induction n generalizing num with
  | nil => exact le_rfl
  | cons c n ih =>
    have hstep : num ≤ 10 * num + digitValue c := by omega
    exact hstep.trans (ih _)

/-- The digits of a number: the partial sums grow, so that the last one decides. -/
theorem durationLoop_digits (d : Duration) {n : Str} (hn : Digits n) (hne : n ≠ []) (num : Option ℕ)
    (s : Str) : durationLoop d num (n ++ s) =
      if n.foldl (fun acc c => 10 * acc + digitValue c) (num.getD 0) + 48 < 2 ^ 31 then
        durationLoop d (some (n.foldl (fun acc c => 10 * acc + digitValue c) (num.getD 0))) s
      else .error .overflow := by
  induction n generalizing num with
  | nil => exact absurd rfl hne
  | cons c n ih =>
    obtain ⟨hc, hn⟩ := List.forall_mem_cons.1 hn
    rw [List.cons_append, durationLoop, if_pos hc, accumulate_digit hc, List.foldl_cons]
    by_cases hlast : n = []
    · rw [hlast]
      show _ = if 10 * num.getD 0 + digitValue c + 48 < 2 ^ 31 then _ else _
      split_ifs <;> rfl
    · by_cases hsum : 10 * num.getD 0 + digitValue c + 48 < 2 ^ 31
      · rw [if_pos hsum, ok_bind, ih hn hlast]
        rfl
      · have hgrows := le_foldl_digits n (10 * num.getD 0 + digitValue c)
        rw [if_neg hsum, if_neg (by omega)]
        rfl

/-- A component. -/
theorem durationLoop_component (d : Duration) {p : Component} (hp : Digits p.1)
    (hd : p.2.isDigit = false) (s : Str) : durationLoop d none (p.1 ++ p.2 :: s) =
      if SmallNumber p.1 then designate d (value p.1) p.2 >>= fun d => durationLoop d none s
      else .error .overflow := by
  have hswitch (num : Option ℕ) : durationLoop d num (p.2 :: s) =
      (designate d (num.getD 0) p.2 >>= fun d => durationLoop d none s) := by
    rw [durationLoop, if_neg (by simp [hd])]
  by_cases hne : p.1 = []
  · rw [if_pos (.inl hne), hne, List.nil_append, hswitch]
    rfl
  · have hsmall : SmallNumber p.1 ↔ value p.1 + 48 < 2 ^ 31 := or_iff_right hne
    rw [durationLoop_digits d hp hne]
    simp only [hsmall, hswitch]
    rfl

/-- The digits at the end. -/
theorem durationLoop_tail (d : Duration) {tail : Str} (htail : Digits tail) :
    durationLoop d none tail =
      if SmallNumber tail then
        (if tail = [] then .ok d else .error .refused) else .error .overflow := by
  by_cases hne : tail = []
  · rw [hne]
    rfl
  · have hsmall : SmallNumber tail ↔ value tail + 48 < 2 ^ 31 := or_iff_right hne
    have hloop := durationLoop_digits d htail hne none []
    rw [List.append_nil] at hloop
    rw [hloop, if_neg hne]
    simp only [hsmall]
    rfl

/-- Every number that is read is small: the loop goes on while the designators can be
taken after those, `seen`, that come before. -/
def ReadSmall : Str → List Component → Str → Prop
  | _, [], tail => SmallNumber tail
  | seen, p :: cs, tail =>
    SmallNumber p.1 ∧ (Taken (seen ++ [p.2]) → ReadSmall (seen ++ [p.2]) cs tail)

instance decidableReadSmall :
    (seen : Str) → (cs : List Component) → (tail : Str) → Decidable (ReadSmall seen cs tail)
  | _, [], tail => inferInstanceAs (Decidable (SmallNumber tail))
  | seen, p :: cs, tail =>
    have := decidableReadSmall (seen ++ [p.2]) cs tail
    inferInstanceAs (Decidable (_ ∧ (_ → _)))

theorem durationLoop_from {seen cs : List Component} {tail : Str}
    (hseen : Taken (seen.map Prod.snd)) (h : Components cs tail) :
    durationLoop (stateOf seen) none (written cs ++ tail) =
      if ReadSmall (seen.map Prod.snd) cs tail then
        if tail = [] ∧
          Taken ((seen ++ cs).map Prod.snd) then .ok (stateOf (seen ++ cs)) else .error .refused
      else .error .overflow := by
  obtain ⟨hdigits, hdesignator, htail⟩ := h
  induction cs generalizing seen with
  | nil =>
    rw [List.append_nil]
    simp only [hseen, and_true]
    exact durationLoop_tail (stateOf seen) htail
  | cons p cs ih =>
    obtain ⟨hp, hdigits⟩ := List.forall_mem_cons.1 hdigits
    obtain ⟨hpd, hdesignator⟩ := List.forall_mem_cons.1 hdesignator
    have hmap : (seen ++ [p]).map Prod.snd = seen.map Prod.snd ++ [p.2] := by simp
    have hassoc : seen ++ p :: cs = (seen ++ [p]) ++ cs := by simp
    rw [written_cons, List.append_assoc, List.cons_append, durationLoop_component _ hp hpd, hassoc]
    by_cases hsmall : SmallNumber p.1
    · rw [if_pos hsmall, designate_stateOf hseen]
      by_cases htaken : Taken ((seen ++ [p]).map Prod.snd)
      · have hread : ReadSmall (seen.map Prod.snd) (p :: cs) tail ↔
            ReadSmall ((seen ++ [p]).map Prod.snd) cs tail := by
          rw [ReadSmall, ← hmap]
          exact ⟨fun h => h.2 htaken, fun h => ⟨hsmall, fun _ => h⟩⟩
        rw [if_pos htaken, ok_bind, ih htaken hdigits hdesignator]
        simp only [hread]
      · -- the loop ends here, whatever follows
        have hread : ReadSmall (seen.map Prod.snd) (p :: cs) tail := by
          rw [ReadSmall, ← hmap]
          exact ⟨hsmall, fun h => absurd h htaken⟩
        have hall : ¬ (tail = [] ∧ Taken ((seen ++ [p] ++ cs).map Prod.snd)) := by
          rintro ⟨-, hall⟩
          rw [List.map_append] at hall
          exact htaken hall.of_append
        rw [if_neg htaken, if_pos hread, if_neg hall]
        rfl
    · have hread : ¬ ReadSmall (seen.map Prod.snd) (p :: cs) tail := fun h => hsmall h.1
      rw [if_neg hsmall, if_neg hread]

/-- **The loop.** It ends well exactly when no digits are left, the designators can be
taken one after the other, and no number that is read exceeds `int`. -/
theorem durationLoop_eq (s : Str) :
    durationLoop .start none s =
      if ReadSmall [] (components s).1 (components s).2 then
        if (components s).2 = [] ∧
          Taken ((components s).1.map Prod.snd) then .ok (stateOf (components s).1)
        else .error .refused
      else .error .overflow := by
  obtain ⟨hcut, heq⟩ := components_spec s
  have hnone : Taken (([] : List Component).map Prod.snd) := by decide
  have hloop := durationLoop_from hnone hcut
  rw [heq] at hloop
  exact hloop

end DslinkIec61850.Iso8601
