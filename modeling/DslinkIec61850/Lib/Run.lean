import DslinkIec61850.Lib.Decimal

/-!
# Loops and runs that may fail

A step of a program takes a state to the next state or fails. The loop over a
list is `List.foldlM`. A run is a list of requests; `Along step Q s run` says
that every request of the run meets `Q` in the state in which it is made.

* `foldlM_invariant`, `foldlM_progress`, `foldlM_reaches`: the rules for loops.
* `foldlM_refines`: a run under an abstraction of the state.
* `along_iff`, `along_iff_of_along`: two properties of steps that agree as long as
  an invariant holds agree along every run.
* `each_concat`: a trace whose entries are judged by what is before them.
-/

namespace DslinkIec61850.Run

universe u

variable {ε α : Type*} {β γ σ : Type u}

theorem bind_eq_ok {x : Except ε β} {f : β → Except ε γ} {b : γ} :
    x >>= f = .ok b ↔ ∃ a, x = .ok a ∧ f a = .ok b := by
  cases x with
  | error e => simp [bind, Except.bind]
  | ok a => simp [bind, Except.bind]

theorem map_eq_error {x : Except ε β} {f : β → γ} {e : ε} : x.map f = .error e ↔ x = .error e := by
  cases x with
  | error e' => simp [Except.map]
  | ok a => simp [Except.map]

@[simp] theorem ok_bind (a : β) (f : β → Except ε γ) : (Except.ok a >>= f) = f a := rfl

@[simp] theorem error_bind (e : ε) (f : β → Except ε γ) :
    ((Except.error e : Except ε β) >>= f) = .error e := rfl

/-! ## Loops -/

section Loop

variable {step : σ → α → Except ε σ} {l : List α} {s s' : σ}

theorem foldlM_cons_eq_ok {a : α} :
    (a :: l).foldlM step s = .ok s' ↔ ∃ s₁, step s a = .ok s₁ ∧ l.foldlM step s₁ = .ok s' := by
  rw [List.foldlM_cons, bind_eq_ok]

/-- A loop that ends keeps what each round keeps. -/
theorem foldlM_invariant {I : σ → Prop} (hstep : ∀ a ∈ l, ∀ s s', I s → step s a = .ok s' → I s')
    (hrun : l.foldlM step s = .ok s') (h : I s) : I s' := by
  induction l generalizing s with
  | nil =>
    cases hrun
    exact h
  | cons a l ih =>
    obtain ⟨s₁, ha, hl⟩ := foldlM_cons_eq_ok.1 hrun
    exact ih (fun b hb => hstep b (List.mem_cons_of_mem _ hb)) hl
      (hstep a List.mem_cons_self s s₁ h ha)

/-- What the round for `a` brings about and every later round keeps. -/
theorem foldlM_reaches {I P : σ → Prop} {a : α} (ha : a ∈ l)
    (hround : ∀ s s', I s → step s a = .ok s' → P s')
    (hkeep : ∀ b ∈ l, ∀ s s', P s → step s b = .ok s' → P s')
    (hstep : ∀ b ∈ l, ∀ s s', I s → step s b = .ok s' → I s') (hrun : l.foldlM step s = .ok s')
    (h : I s) : P s' := by
  induction l generalizing s with
  | nil => cases ha
  | cons b l ih =>
    obtain ⟨s₁, hb, hl⟩ := foldlM_cons_eq_ok.1 hrun
    have htail (c : α) (hc : c ∈ l) := List.mem_cons_of_mem b hc
    rcases List.mem_cons.1 ha with rfl | ha
    · exact foldlM_invariant (fun c hc => hkeep c (htail c hc)) hl (hround s s₁ h hb)
    · exact ih ha (fun c hc => hkeep c (htail c hc)) (fun c hc => hstep c (htail c hc)) hl
        (hstep b List.mem_cons_self s s₁ h hb)

/-- A loop that ends, where `I` refers to what was gone through. -/
theorem foldlM_progress {I : List α → σ → Prop} (h : I [] s)
    (hstep : ∀ done a rest, l = done ++ a :: rest → ∀ s s', I done s → step s a = .ok s' →
      I (done ++ [a]) s') (hrun : l.foldlM step s = .ok s') : I l s' := by
  suffices H : ∀ rest done s, l = done ++ rest → I done s →
    rest.foldlM step s = .ok s' → I l s' from
    H l [] s rfl h hrun
  intro rest
  induction rest with
  | nil =>
    intro done s hl hI hrun
    cases hrun
    rw [List.append_nil] at hl
    exact hl ▸ hI
  | cons a rest ih =>
    intro done s hl hI hrun
    obtain ⟨s₁, ha, hrest⟩ := foldlM_cons_eq_ok.1 hrun
    exact ih (done ++ [a]) s₁ (by rw [hl]; simp) (hstep done a rest hl s s₁ hI ha) hrest

end Loop

/-! ## Runs -/

/-- Every request of the run meets `Q` in the state in which it is made. -/
def Along (step : σ → α → Except ε σ) (Q : σ → α → Prop) : σ → List α → Prop
  | _, [] => True
  | s, a :: run => Q s a ∧ ∀ s', step s a = .ok s' → Along step Q s' run

/-- `J` is kept by the steps that meet `C`, and as long as it holds a step meets
`Q` exactly when it meets `C`. -/
theorem along_iff {step : σ → α → Except ε σ} {Q C : σ → α → Prop} {J : σ → Prop}
    (hkeep : ∀ s a s', J s → C s a → step s a = .ok s' → J s')
    (hagree : ∀ s a, J s → (Q s a ↔ C s a)) {s : σ} (h : J s) (run : List α) :
    Along step Q s run ↔ Along step C s run := by
  induction run generalizing s with
  | nil => rfl
  | cons a run ih =>
    unfold Along
    rw [hagree s a h]
    apply and_congr_right
    intro hC
    apply forall_congr'
    intro s'
    apply imp_congr_right
    intro hs
    exact ih (hkeep s a s' h hC hs)

/-- The same for the runs whose requests meet `P`. -/
theorem along_iff_of_along {step : σ → α → Except ε σ} {P Q C : σ → α → Prop} {J : σ → Prop}
    (hkeep : ∀ s a s', J s → P s a → C s a → step s a = .ok s' → J s')
    (hagree : ∀ s a, J s → P s a → (Q s a ↔ C s a)) {s : σ} (h : J s) {run : List α}
    (hrun : Along step P s run) : Along step Q s run ↔ Along step C s run := by
  induction run generalizing s with
  | nil => rfl
  | cons a run ih =>
    obtain ⟨hP, hrest⟩ := hrun
    unfold Along
    rw [hagree s a h hP]
    apply and_congr_right
    intro hC
    apply forall_congr'
    intro s'
    apply imp_congr_right
    intro hs
    exact ih (hkeep s a s' h hP hC hs) (hrest s' hs)

/-! ## What can go wrong -/

/-- The program ends, or fails with one of the errors `P`. -/
def FailsOnly (P : ε → Prop) (x : Except ε β) : Prop := ∀ e, x = .error e → P e

section FailsOnly

variable {P : ε → Prop}

@[simp] theorem failsOnly_ok (b : β) : FailsOnly P (Except.ok b) := fun _ h => by cases h

@[simp] theorem failsOnly_pure (b : β) : FailsOnly P (pure b : Except ε β) := failsOnly_ok b

@[simp] theorem failsOnly_error {e : ε} : FailsOnly P (Except.error e : Except ε β) ↔ P e := by
  constructor
  · exact fun h => h e rfl
  · intro h e' he
    cases he
    exact h

/-- A sequence goes wrong in its first part, or in its second part after the first
one has ended. -/
theorem failsOnly_bind {x : Except ε β} {f : β → Except ε γ} :
    FailsOnly P (x >>= f) ↔ FailsOnly P x ∧ ∀ b, x = .ok b → FailsOnly P (f b) := by
  cases x with
  | error e =>
    rw [error_bind, failsOnly_error, failsOnly_error]
    exact ⟨fun h => ⟨h, fun _ hb => by cases hb⟩, And.left⟩
  | ok b =>
    rw [ok_bind]
    exact ⟨fun h => ⟨failsOnly_ok b, fun _ hb => by cases hb; exact h⟩, fun h => h.2 b rfl⟩

/-- A loop goes wrong in one of its rounds. -/
theorem failsOnly_foldlM {step : σ → α → Except ε σ} {l : List α} {s : σ} :
    FailsOnly P (l.foldlM step s) ↔ Along step (fun s a => FailsOnly P (step s a)) s l := by
  induction l generalizing s with
  | nil => exact iff_true_intro (failsOnly_ok s)
  | cons a l ih =>
    rw [List.foldlM_cons, failsOnly_bind]
    unfold Along
    apply and_congr_right
    intro _
    apply forall_congr'
    intro s'
    rw [ih]

end FailsOnly

theorem along_of_forall {step : σ → α → Except ε σ} {Q : σ → α → Prop} {l : List α} {s : σ}
    (h : ∀ s, ∀ a ∈ l, Q s a) : Along step Q s l := by
  induction l generalizing s with
  | nil => trivial
  | cons a l ih =>
    exact ⟨h s a List.mem_cons_self, fun s' _ => ih fun s b hb => h s b (List.mem_cons_of_mem _ hb)⟩

/-- A loop whose rounds end when they meet `Q` ends, and every round meets `Q`. -/
theorem along_total {step : σ → α → Except ε σ} {Q : σ → α → Prop} {l : List α} {s : σ}
    (hnext : ∀ s, ∀ a ∈ l, Q s a → ∃ s', step s a = .ok s') (h : Along step Q s l) :
    (∀ a ∈ l, ∃ s, Q s a) ∧ ∃ s', l.foldlM step s = .ok s' := by
  induction l generalizing s with
  | nil => exact ⟨fun a ha => absurd ha List.not_mem_nil, s, rfl⟩
  | cons a l ih =>
    obtain ⟨ha, hrest⟩ := h
    obtain ⟨s₁, hs₁⟩ := hnext s a List.mem_cons_self ha
    obtain ⟨hall, s', hs'⟩ :=
      ih (fun s b hb => hnext s b (List.mem_cons_of_mem _ hb)) (hrest s₁ hs₁)
    exact ⟨List.forall_mem_cons.2 ⟨⟨s, ha⟩, hall⟩, s', foldlM_cons_eq_ok.2 ⟨s₁, hs₁, hs'⟩⟩

/-- `J` is kept by the steps that meet `C`, and as long as it holds a step that meets
`C` meets `Q`. -/
theorem along_invariant {step : σ → α → Except ε σ} {Q C : σ → α → Prop} {J : σ → Prop}
    (hkeep : ∀ s a s', J s → C s a → step s a = .ok s' → J s') (hmeet : ∀ s a, J s → C s a → Q s a)
    {s : σ} (h : J s) {run : List α} (hrun : Along step C s run) : Along step Q s run := by
  induction run generalizing s with
  | nil => trivial
  | cons a run ih =>
    obtain ⟨hC, hrest⟩ := hrun
    exact ⟨hmeet s a h hC, fun s' hs => ih (hkeep s a s' h hC hs) (hrest s' hs)⟩

/-- `J` is kept by the steps that meet `C`, and each of them takes a state to one that it is
related to by `R`. -/
theorem along_relates {step : σ → α → Except ε σ} {C : σ → α → Prop} {J : σ → Prop}
    {R : σ → σ → Prop} (hrefl : ∀ s, R s s) (htrans : ∀ s s' s'', R s s' → R s' s'' → R s s'')
    (hstep : ∀ s a s', J s → C s a → step s a = .ok s' → J s' ∧ R s s') {s s' : σ} (h : J s)
    {run : List α}
    (halong : Along step C s run) (hrun : run.foldlM step s = .ok s') : J s' ∧ R s s' := by
  induction run generalizing s with
  | nil =>
    cases hrun
    exact ⟨h, hrefl _⟩
  | cons a run ih =>
    obtain ⟨hC, hrest⟩ := halong
    obtain ⟨s₁, ha, hrun⟩ := foldlM_cons_eq_ok.1 hrun
    obtain ⟨hJ, hR⟩ := hstep s a s₁ h hC ha
    obtain ⟨hJ', hR'⟩ := ih hJ (hrest s₁ ha) hrun
    exact ⟨hJ', htrans s s₁ s' hR hR'⟩

/-- `J` is kept by the steps that meet `C`, and so by the runs whose steps do. -/
theorem along_keeps {step : σ → α → Except ε σ} {C : σ → α → Prop} {J : σ → Prop}
    (hkeep : ∀ s a s', J s → C s a → step s a = .ok s' → J s') {s s' : σ} (h : J s) {run : List α}
    (halong : Along step C s run) (hrun : run.foldlM step s = .ok s') : J s' :=
  (along_relates (R := fun _ _ => True) (fun _ => trivial) (fun _ _ _ _ _ => trivial)
    (fun s a s' hJ hC hs => ⟨hkeep s a s' hJ hC hs, trivial⟩) h halong hrun).1

theorem along_append {step : σ → α → Except ε σ} {Q : σ → α → Prop} {l l' : List α} {s : σ} :
    Along step Q s (l ++ l') ↔ Along step Q s l ∧ ∀ s', l.foldlM step s = .ok s' →
    Along step Q s' l' := by
  induction l generalizing s with
  | nil =>
    constructor
    · intro h
      refine ⟨trivial, fun s' hs => ?_⟩
      cases hs
      exact h
    · exact fun h => h.2 s rfl
  | cons a l ih =>
    constructor
    · rintro ⟨ha, hrest⟩
      refine ⟨⟨ha, fun s' hs => (ih.1 (hrest s' hs)).1⟩, fun s' hrun => ?_⟩
      obtain ⟨s₁, hs, hrun⟩ := foldlM_cons_eq_ok.1 hrun
      exact (ih.1 (hrest s₁ hs)).2 s' hrun
    · rintro ⟨⟨ha, hl⟩, hl'⟩
      exact ⟨ha, fun s₁ hs =>
        ih.2 ⟨hl s₁ hs, fun s' hrun => hl' s' (foldlM_cons_eq_ok.2 ⟨s₁, hs, hrun⟩)⟩⟩

theorem Along.and {step : σ → α → Except ε σ} {Q C : σ → α → Prop} {s : σ} {run : List α}
    (h : Along step Q s run)
    (h' : Along step C s run) : Along step (fun s a => Q s a ∧ C s a) s run := by
  induction run generalizing s with
  | nil => trivial
  | cons a run ih => exact ⟨⟨h.1, h'.1⟩, fun s' hs => ih (h.2 s' hs) (h'.2 s' hs)⟩

/-- `abs` takes every step that keeps `J` to a step of `astep`, and so every run. -/
theorem foldlM_refines {τ : Type*} {step : σ → α → Except ε σ} {J : σ → Prop} {abs : σ → τ}
    {astep : τ → α → τ}
    (hstep : ∀ s a s', J s → step s a = .ok s' → J s' ∧ abs s' = astep (abs s) a) {s s' : σ}
    (h : J s) {run : List α}
    (hrun : run.foldlM step s = .ok s') : J s' ∧ abs s' = run.foldl astep (abs s) := by
  induction run generalizing s with
  | nil =>
    cases hrun
    exact ⟨h, rfl⟩
  | cons a run ih =>
    obtain ⟨s₁, ha, hrun⟩ := foldlM_cons_eq_ok.1 hrun
    obtain ⟨hJ, habs⟩ := hstep s a s₁ h ha
    rw [List.foldl_cons, ← habs]
    exact ih hJ hrun

theorem along_congr {step : σ → α → Except ε σ} {Q C : σ → α → Prop} {l : List α} {s : σ}
    (h : ∀ s, ∀ a ∈ l, Q s a ↔ C s a) : Along step Q s l ↔ Along step C s l := by
  induction l generalizing s with
  | nil => rfl
  | cons a l ih =>
    unfold Along
    rw [h s a List.mem_cons_self]
    apply and_congr_right
    intro _
    apply forall_congr'
    intro s'
    rw [ih fun s b hb => h s b (List.mem_cons_of_mem _ hb)]

/-! ## Traces -/

section Trace

variable {P Q : List α → α → Prop} {l : List α} {a : α}

/-- Every entry of the trace meets `P` with what is before it. -/
def Each (P : List α → α → Prop) (l : List α) : Prop :=
  ∀ before a after, l = before ++ a :: after → P before a

theorem each_nil : Each P [] := fun _ _ _ h => absurd h.symm (by simp)

theorem each_concat : Each P (l ++ [a]) ↔ Each P l ∧ P l a := by
  constructor
  · intro h
    refine ⟨fun before b after hl => h before b (after ++ [a]) ?_, h l a [] rfl⟩
    rw [hl, List.append_assoc, List.cons_append]
  · rintro ⟨h, ha⟩ before b after hl
    rcases List.eq_nil_or_concat after with rfl | ⟨after, c, rfl⟩
    · obtain ⟨rfl, hab⟩ := List.append_inj' hl rfl
      cases hab
      exact ha
    · have happend : l ++ [a] = (before ++ b :: after) ++ [c] := by
        rw [hl]
        simp
      exact h before b after (List.append_inj' happend rfl).1

theorem Each.mono (h : Each P l) (himp : ∀ before a, P before a → Q before a) : Each Q l :=
  fun before a after hl => himp before a (h before a after hl)

end Trace

end DslinkIec61850.Run
