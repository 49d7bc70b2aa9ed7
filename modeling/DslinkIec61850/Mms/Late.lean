import DslinkIec61850.Mms.Exchange

/-!
# Late answers

When a call gives up at the moment at which its answer is handed over, the handling
thread stores the answer after the call has reset `responseInvokeId`. Nobody processes
it: the next call does not find its own id, and the answer to this call has to wait
until the call gives up and resets `responseInvokeId` — and then it is stored too late
in its turn.

* `Behind.step`: the connection stays one answer behind.
* `late_answer_run`: from then on no call of the connection is answered, although the
  IED answers every one of them in time.
-/

namespace DslinkIec61850

open Run MmsConnection

variable {β : Type} {s s' : MmsConnection β}

/-- The call that has not looked for an answer yet, or waits for it. -/
def Caller.awaits : Caller β → Option ℕ
  | .begun id => some id
  | .added id => some id
  | .waiting id => some id
  | _ => none

/-- No call is between its wait and the reset of `responseInvokeId`. -/
def Caller.quiet : Caller β → Prop
  | .idle => True
  | .begun _ => True
  | .added _ => True
  | .waiting _ => True
  | .reset _ _ _ => True
  | .released _ _ _ => True
  | _ => False

/-- The call `id` has given up and has not yet reset `responseInvokeId`. -/
def Caller.givesUp : Caller β → Option ℕ
  | .ended id _ => some id
  | .removed id _ => some id
  | .checked id _ _ => some id
  | .parsed id _ _ => some id
  | _ => none

/-- The call has no answer: it has given up or has lost the connection. -/
def Unanswered (s : MmsConnection β) : Prop :=
  match s.caller with
  | .ended _ answered =>
    answered = false ∧ (s.lastResponseError = .serviceTimeout ∨ s.associationState = .closed)
  | .removed _ answered =>
    answered = false ∧ (s.lastResponseError = .serviceTimeout ∨ s.associationState = .closed)
  | .checked _ answered e => answered = false ∧ (e = .serviceTimeout ∨ s.associationState = .closed)
  | .parsed _ e v => v = none ∧ (e = .serviceTimeout ∨ s.associationState = .closed)
  | .reset _ e v => v = none ∧ (e = .serviceTimeout ∨ s.associationState = .closed)
  | .released _ e v => v = none ∧ (e = .serviceTimeout ∨ s.associationState = .closed)
  | _ => True

/-- An answer that nobody waits for is stored, or is handed over; or a call gives up while
its own answer has to wait behind such an answer. -/
inductive Behind (s : MmsConnection β) : Prop
  | closed (h : s.associationState = .closed)
  | stored (hresponse : s.responseInvokeId ≠ 0) (hfree : ∀ id e, s.receiver ≠ .storing id e)
      (hcaller : s.caller.quiet) (hawaits : s.caller.awaits ≠ some s.responseInvokeId)
  | handed {id : ℕ} {e : Option MmsError} (hid : id ≠ 0) (hresponse : s.responseInvokeId = 0)
      (hpending : s.receiver.pending = some (id, e)) (hcaller : s.caller.quiet)
      (hawaits : s.caller.awaits ≠ some id)
  | givenUp {id : ℕ} {e : Option MmsError} (hid : id ≠ 0) (hresponse : s.responseInvokeId ≠ 0)
      (hreceiver : s.receiver = .blocked id e) (hcaller : s.caller.givesUp = some id)

/-- A call gives up only when its answer has come and is about to be handed over. -/
def Prompt (s : MmsConnection β) (e : MmsEvent β) : Prop :=
  e = .expire → ∀ id, s.caller = .waiting id → ∃ carried, s.receiver = .blocked id carried

namespace Behind

theorem call (hinv : Inv s) (h : Behind s) (hidle : s.caller = .idle)
    (hroom : s.lastInvokeId + 1 < 2 ^ 32) : Behind s.call := by
  cases hstate : s.associationState with
  | closed =>
    refine .closed ?_
    rw [MmsConnection.call, hstate]
  | connected =>
    have hnext : getNextInvokeId s.lastInvokeId = s.lastInvokeId + 1 := Nat.mod_eq_of_lt hroom
    have hcall : s.call = { s with
        lastInvokeId := s.lastInvokeId + 1, caller := .begun (s.lastInvokeId + 1),
        trace := s.trace ++ [.called (s.lastInvokeId + 1)] } := by
      rw [MmsConnection.call, hstate]
      dsimp only
      rw [hnext]
    rw [hcall]
    -- The answer that is late has an older invoke id.
    cases h with
    | closed h => cases hstate.symm.trans h
    | stored hresponse hfree hcaller hawaits =>
      refine .stored hresponse hfree trivial fun heq => ?_
      have hle := hinv.response.1
      have hid : s.lastInvokeId + 1 = s.responseInvokeId := Option.some.inj heq
      omega
    | handed hid hresponse hpending hcaller hawaits =>
      rename_i id e
      refine .handed hid hresponse hpending trivial fun heq => ?_
      have hle := (hinv.pending id e hpending).1
      have hid : s.lastInvokeId + 1 = id := Option.some.inj heq
      omega
    | givenUp hid hresponse hreceiver hcaller =>
      rw [hidle] at hcaller
      cases hcaller

/-- A quiet call that does not find its own id stays quiet and waits for no other answer. -/
theorem quiet_callerStep (hopen : s.associationState ≠ .closed) (hcaller : s.caller.quiet)
    (hfound : ∀ id, s.caller = .waiting id → s.responseInvokeId ≠ id) (hs : s.callerStep = .ok s') :
    ∃ calls mutex caller trace,
      s' = { s with outstandingCalls := calls, receiveBufferMutex := mutex, caller := caller,
                    trace := trace } ∧
        caller.quiet ∧ ∀ id, s.caller.awaits ≠ some id → caller.awaits ≠ some id := by
  unfold MmsConnection.callerStep at hs
  cases hc : s.caller with
  | waiting id =>
    rw [hc] at hs
    dsimp only at hs
    rw [if_neg hopen, if_neg (hfound id hc)] at hs
    cases hs
    exact ⟨_, _, _, _, rfl, hcaller, fun _ h => hc ▸ h⟩
  | begun id =>
    rw [hc] at hs
    cases hs
    exact ⟨_, _, .added id, _, rfl, trivial, fun _ h => h⟩
  | added id =>
    rw [hc] at hs
    cases hs
    exact ⟨_, _, .waiting id, _, rfl, trivial, fun _ h => h⟩
  | reset id e v =>
    rw [hc] at hs
    cases hs
    exact ⟨_, _, _, _, rfl, trivial, fun _ _ => by rintro ⟨⟩⟩
  | released id e v =>
    rw [hc] at hs
    cases hs
    exact ⟨_, _, _, _, rfl, trivial, fun _ _ => by rintro ⟨⟩⟩
  | idle =>
    rw [hc] at hs
    cases hs
  | _ =>
    rw [hc] at hcaller
    exact hcaller.elim

theorem callerStep (hinv : Inv s) (h : Behind s) (hs : s.callerStep = .ok s') : Behind s' := by
  by_cases hclosed : s.associationState = .closed
  · exact .closed (closed_step (show mmsStep s .caller = .ok s' from hs) hclosed)
  cases h with
  | closed h => exact absurd h hclosed
  | stored hresponse hfree hcaller hawaits =>
    have hfound (id : ℕ) (hc : s.caller = .waiting id) : s.responseInvokeId ≠ id := fun heq => by
      rw [hc] at hawaits
      exact hawaits (congrArg some heq.symm)
    obtain ⟨_, _, _, _, rfl, hquiet, hother⟩ := quiet_callerStep hclosed hcaller hfound hs
    exact .stored hresponse hfree hquiet (hother _ hawaits)
  | handed hid hresponse hpending hcaller hawaits =>
    have hfound (id : ℕ) (hc : s.caller = .waiting id) : s.responseInvokeId ≠ id := by
      have hpos : 0 < id := (hinv.current id (by rw [hc]; rfl)).2.1
      omega
    obtain ⟨_, _, _, _, rfl, hquiet, hother⟩ := quiet_callerStep hclosed hcaller hfound hs
    exact .handed hid hresponse hpending hquiet (hother _ hawaits)
  | givenUp hid hresponse hreceiver hcaller =>
    unfold MmsConnection.callerStep at hs
    cases hc : s.caller with
    | parsed id e v =>
      -- The reset lets the handling thread store the answer to the call that gives up.
      rw [hc] at hs
      cases hs
      exact .handed hid rfl (by rw [hreceiver]; rfl) trivial (by rintro ⟨⟩)
    | ended id answered =>
      rw [hc] at hs hcaller
      cases hs
      exact .givenUp hid hresponse hreceiver hcaller
    | removed id answered =>
      rw [hc] at hs hcaller
      cases hs
      exact .givenUp hid hresponse hreceiver hcaller
    | checked id answered e =>
      rw [hc] at hs hcaller
      cases hs
      exact .givenUp hid hresponse hreceiver hcaller
    | _ =>
      rw [hc] at hcaller
      cases hcaller

theorem expire (hinv : Inv s) (h : Behind s) (hprompt : Prompt s .expire) (hs : s.expire = .ok s') :
    Behind s' := by
  by_cases hclosed : s.associationState = .closed
  · exact .closed (closed_step (show mmsStep s .expire = .ok s' from hs) hclosed)
  unfold MmsConnection.expire at hs
  split at hs <;> rename_i hc <;> cases hs
  rename_i id
  obtain ⟨carried, hreceiver⟩ := hprompt rfl id hc
  have hpos : 0 < id := (hinv.current id (by rw [hc]; rfl)).2.1
  cases h with
  | closed h => exact absurd h hclosed
  | stored hresponse hfree hcaller hawaits => exact .givenUp hpos.ne' hresponse hreceiver rfl
  | handed hid hresponse hpending hcaller hawaits =>
    rw [hreceiver] at hpending
    cases hpending
    rw [hc] at hawaits
    exact absurd rfl hawaits
  | givenUp hid hresponse hreceiver hcaller =>
    rw [hc] at hcaller
    cases hcaller

theorem receiverStep (h : Behind s) (hs : s.receiverStep = .ok s') : Behind s' := by
  by_cases hclosed : s.associationState = .closed
  · exact .closed (closed_step (show mmsStep s .receiver = .ok s' from hs) hclosed)
  unfold MmsConnection.receiverStep at hs
  cases h with
  | closed h => exact absurd h hclosed
  | stored hresponse hfree hcaller hawaits =>
    cases hr : s.receiver with
    | waiting =>
      rw [hr] at hs
      dsimp only at hs
      split_ifs at hs
      cases hs
      exact .stored hresponse (by rintro id e ⟨⟩) hcaller hawaits
    | handling =>
      rw [hr] at hs
      cases hs
      obtain ⟨n, r, hlooked, heq⟩ := s.mmsIsoCallback_cases
      rw [heq]
      refine .stored hresponse ?_ hcaller hawaits
      rintro id e rfl
      cases hlooked
    | blocked id e =>
      rw [hr] at hs
      dsimp only at hs
      rw [if_neg hresponse] at hs
      cases hs
      exact .stored hresponse hfree hcaller hawaits
    | storing id e => exact absurd hr (hfree id e)
    | _ =>
      rw [hr] at hs
      cases hs
  | handed hid hresponse hpending hcaller hawaits =>
    cases hr : s.receiver with
    | blocked id e =>
      rw [hr] at hs hpending
      dsimp only at hs
      rw [if_pos hresponse] at hs
      cases hs
      exact .handed hid hresponse hpending hcaller hawaits
    | storing id e =>
      rw [hr] at hs hpending
      cases hs
      cases hpending
      exact .stored hid (by rintro id e ⟨⟩) hcaller hawaits
    | _ =>
      rw [hr] at hpending
      cases hpending
  | givenUp hid hresponse hreceiver hcaller =>
    rw [hreceiver] at hs
    dsimp only at hs
    rw [if_neg hresponse] at hs
    cases hs
    exact .givenUp hid hresponse hreceiver hcaller

theorem arrive (h : Behind s) {pdu : MmsPdu β} (hs : s.arrive pdu = .ok s') : Behind s' := by
  unfold MmsConnection.arrive at hs
  split at hs <;> rename_i hr <;> cases hs
  cases h with
  | closed h => exact .closed h
  | stored hresponse hfree hcaller hawaits =>
    exact .stored hresponse (by rintro id e ⟨⟩) hcaller hawaits
  | handed hid hresponse hpending hcaller hawaits =>
    rw [hr] at hpending
    cases hpending
  | givenUp hid hresponse hreceiver hcaller => cases hr.symm.trans hreceiver

theorem lose (hs : s.lose = .ok s') : Behind s' := by
  unfold MmsConnection.lose at hs
  split at hs <;> cases hs
  exact .closed rfl

/-- The connection stays behind as long as every call that gives up has been answered. -/
theorem step (hinv : Inv s) (h : Behind s) {e : MmsEvent β} (hroom : HasRoom s e)
    (hprompt : Prompt s e) (hs : mmsStep s e = .ok s') : Behind s' := by
  cases e with
  | call =>
    unfold mmsStep at hs
    dsimp only at hs
    split at hs <;> rename_i hidle <;> cases hs
    exact h.call hinv hidle (hroom rfl)
  | caller => exact h.callerStep hinv hs
  | expire => exact h.expire hinv hprompt hs
  | receiver => exact h.receiverStep hs
  | arrive pdu => exact h.arrive hs
  | lose => exact lose hs

/-- On an open connection that is behind, a call that waits does not find its invoke id. -/
theorem not_found (hinv : Inv s) (h : Behind s) {id : ℕ} (hc : s.caller = .waiting id)
    (hopen : s.associationState ≠ .closed) : s.responseInvokeId ≠ id := by
  have hpos : 0 < id := (hinv.current id (by rw [hc]; rfl)).2.1
  cases h with
  | closed h => exact absurd h hopen
  | stored hresponse hfree hcaller hawaits =>
    rw [hc] at hawaits
    exact fun heq => hawaits (congrArg some heq.symm)
  | handed hid hresponse hpending hcaller hawaits => omega
  | givenUp hid hresponse hreceiver hcaller =>
    rw [hc] at hcaller
    cases hcaller

end Behind

/-! ## No call is answered -/

namespace Unanswered

theorem congr (h : Unanswered s) (hcaller : s'.caller = s.caller)
    (herror : s'.lastResponseError = s.lastResponseError)
    (hclosed : s.associationState = .closed → s'.associationState = .closed) : Unanswered s' := by
  unfold Unanswered at h ⊢
  rw [hcaller, herror]
  cases hc : s.caller with
  | ended id answered =>
    rw [hc] at h
    exact ⟨h.1, h.2.imp_right hclosed⟩
  | removed id answered =>
    rw [hc] at h
    exact ⟨h.1, h.2.imp_right hclosed⟩
  | checked id answered e =>
    rw [hc] at h
    exact ⟨h.1, h.2.imp_right hclosed⟩
  | parsed id e v =>
    rw [hc] at h
    exact ⟨h.1, h.2.imp_right hclosed⟩
  | reset id e v =>
    rw [hc] at h
    exact ⟨h.1, h.2.imp_right hclosed⟩
  | released id e v =>
    rw [hc] at h
    exact ⟨h.1, h.2.imp_right hclosed⟩
  | _ => trivial

theorem callerStep (hinv : Inv s) (hbehind : Behind s) (h : Unanswered s)
    (hs : s.callerStep = .ok s') : Unanswered s' := by
  unfold MmsConnection.callerStep at hs
  unfold Unanswered at h ⊢
  cases hc : s.caller with
  | waiting id =>
    rw [hc] at hs
    dsimp only at hs
    split_ifs at hs with hclosed hfound
    · cases hs
      exact ⟨rfl, .inr hclosed⟩
    · exact absurd hfound (hbehind.not_found hinv hc hclosed)
    · cases hs
      rw [hc]
      trivial
  | checked id answered e =>
    rw [hc] at hs h
    cases hs
    obtain ⟨rfl, he⟩ := h
    exact ⟨if_neg fun hand => Bool.noConfusion hand.2, he⟩
  | idle =>
    rw [hc] at hs
    cases hs
  | begun id =>
    rw [hc] at hs
    cases hs
    trivial
  | added id =>
    rw [hc] at hs
    cases hs
    trivial
  | released id e v =>
    rw [hc] at hs
    cases hs
    trivial
  | _ =>
    rw [hc] at hs h
    cases hs
    exact h

theorem receiverStep (hbehind : Behind s) (h : Unanswered s) (hs : s.receiverStep = .ok s') :
    Unanswered s' := by
  unfold MmsConnection.receiverStep at hs
  cases hr : s.receiver with
  | waiting =>
    rw [hr] at hs
    dsimp only at hs
    split_ifs at hs
    cases hs
    exact h.congr rfl rfl fun h => h
  | handling =>
    rw [hr] at hs
    cases hs
    obtain ⟨n, r, -, heq⟩ := s.mmsIsoCallback_cases
    rw [heq]
    exact h.congr rfl rfl fun h => h
  | blocked id e =>
    rw [hr] at hs
    dsimp only at hs
    split_ifs at hs <;> cases hs
    · exact h.congr rfl rfl fun h => h
    · exact h
  | storing id e =>
    rw [hr] at hs
    cases hs
    -- The error is stored while no call is about to look at it.
    cases hbehind with
    | closed hclosed =>
      unfold Unanswered at h ⊢
      dsimp only
      cases hc : s.caller <;> rw [hc] at h <;> first | trivial | exact ⟨h.1, .inr hclosed⟩
    | stored hresponse hfree hcaller hawaits => exact absurd hr (hfree id e)
    | handed hid hresponse hpending hcaller hawaits =>
      unfold Unanswered at h ⊢
      dsimp only
      cases hc : s.caller <;> rw [hc] at h hcaller <;> first | exact hcaller.elim | exact h
    | givenUp hid hresponse hreceiver hcaller => cases hr.symm.trans hreceiver
  | _ =>
    rw [hr] at hs
    cases hs

theorem step (hinv : Inv s) (hbehind : Behind s) (h : Unanswered s) {e : MmsEvent β}
    (hs : mmsStep s e = .ok s') : Unanswered s' := by
  have hclosed := closed_step hs
  cases e with
  | call =>
    unfold mmsStep at hs
    dsimp only at hs
    split at hs <;> rename_i hidle <;> cases hs
    cases hstate : s.associationState with
    | closed =>
      refine h.congr ?_ ?_ hclosed
      · rw [MmsConnection.call, hstate]
      · rw [MmsConnection.call, hstate]
    | connected =>
      rw [MmsConnection.call, hstate]
      trivial
  | caller => exact callerStep hinv hbehind h hs
  | expire =>
    unfold mmsStep MmsConnection.expire at hs
    dsimp only at hs
    split at hs <;> cases hs
    exact ⟨rfl, .inl rfl⟩
  | receiver => exact receiverStep hbehind h hs
  | arrive pdu =>
    unfold mmsStep MmsConnection.arrive at hs
    dsimp only at hs
    split at hs <;> cases hs
    exact h.congr rfl rfl fun h => h
  | lose =>
    unfold mmsStep MmsConnection.lose at hs
    dsimp only at hs
    split at hs <;> cases hs
    exact h.congr rfl rfl fun _ => rfl

/-- What a call returns that is not answered. -/
theorem returned (h : Unanswered s) {id : ℕ} {e : MmsError} {v : Option β}
    (hc : s.caller = .released id e v) :
    v = none ∧ ((if s.associationState = .closed then .connectionLost else e) = .serviceTimeout ∨
      (if s.associationState = .closed then .connectionLost else e) = MmsError.connectionLost) := by
  unfold Unanswered at h
  rw [hc] at h
  refine ⟨h.1, ?_⟩
  split_ifs with hclosed
  · exact .inr rfl
  · exact .inl (h.2.resolve_right hclosed)

end Unanswered

/-- Between two calls, an answer is stored or handed over. -/
def Late (s : MmsConnection β) : Prop :=
  s.caller = .idle ∧ (s.responseInvokeId ≠ 0 ∨ ∃ id e, id ≠ 0 ∧ s.receiver.pending = some (id, e))

theorem Late.behind (h : Late s) (hinv : Inv s) : Behind s ∧ Unanswered s := by
  obtain ⟨hidle, hlate⟩ := h
  refine ⟨?_, by unfold Unanswered; rw [hidle]; trivial⟩
  by_cases hresponse : s.responseInvokeId = 0
  · obtain ⟨id, e, hid, hpending⟩ := hlate.resolve_left (absurd hresponse)
    exact .handed hid hresponse hpending (by rw [hidle]; trivial) (by rw [hidle]; rintro ⟨⟩)
  · exact .stored hresponse (fun id e hr => hresponse (hinv.storing id e hr))
      (by rw [hidle]; trivial) (by rw [hidle]; rintro ⟨⟩)

/-- **Late answers.** When an answer is left over between two calls of a run, then no later
call is answered, as long as each of them gives up only after its own answer has come:
every call ends with a timeout, or with the loss of the connection. -/
theorem late_answer_run {before run : List (MmsEvent β)}
    (hcalls : (before ++ run).countP MmsEvent.isCall < 2 ^ 32)
    (hbefore : before.foldlM mmsStep .connect = .ok s) (hlate : Late s)
    (hprompt : Along mmsStep Prompt s run) (h : run.foldlM mmsStep s = .ok s') :
    ∃ more, s'.trace = s.trace ++ more ∧ ∀ id e v, .returned id e v ∈ more →
      v = none ∧ (e = .serviceTimeout ∨ e = .connectionLost) := by
  have hroom : Along mmsStep HasRoom (.connect : MmsConnection β) (before ++ run) :=
    along_hasRoom (by
      show 0 + _ < _
      rwa [Nat.zero_add])
  obtain ⟨hroom₀, hroom⟩ := along_append.1 hroom
  have hinv : Inv s := along_keeps (fun s e s' hJ hC hs => hJ.step hC hs) inv_connect hroom₀ hbefore
  let Hopeless (s : MmsConnection β) : Prop := Inv s ∧ Behind s ∧ Unanswered s
  let Extends (s s' : MmsConnection β) : Prop := ∃ more, s'.trace = s.trace ++ more ∧
    ∀ id e v, TraceEntry.returned id e v ∈ more → v = none ∧
      (e = .serviceTimeout ∨ e = .connectionLost)
  have hrefl (s : MmsConnection β) : Extends s s := ⟨[], by simp, by simp⟩
  have htrans (s s' s'' : MmsConnection β) (h : Extends s s') (h' : Extends s' s'') :
      Extends s s'' := by
    obtain ⟨more, heq, hmore⟩ := h
    obtain ⟨more', heq', hmore'⟩ := h'
    refine ⟨more ++ more', by rw [heq', heq, List.append_assoc], fun id e v hmem => ?_⟩
    exact (List.mem_append.1 hmem).elim (hmore id e v) (hmore' id e v)
  have hstep (s : MmsConnection β) (e : MmsEvent β) (s' : MmsConnection β) (hJ : Hopeless s)
      (hC : HasRoom s e ∧ Prompt s e) (hs : mmsStep s e = .ok s') : Hopeless s' ∧ Extends s s' := by
    obtain ⟨hinv, hbehind, hunanswered⟩ := hJ
    refine ⟨⟨hinv.step hC.1 hs, hbehind.step hinv hC.1 hC.2 hs, hunanswered.step hinv hbehind hs⟩,
      ?_⟩
    rcases trace_step hs with heq | ⟨entry, heq, hentry⟩
    · exact ⟨[], by simp [heq], by simp⟩
    · refine ⟨[entry], heq, fun id err v hmem => ?_⟩
      obtain ⟨e₀, hc, rfl⟩ := hentry id err v (List.mem_singleton.1 hmem).symm
      exact hunanswered.returned hc
  obtain ⟨hbehind, hunanswered⟩ := hlate.behind hinv
  exact (along_relates hrefl htrans hstep ⟨hinv, hbehind, hunanswered⟩
    ((hroom s hbefore).and hprompt) h).2

/-- A call that gives up while its answer is handed over. -/
def lateRun : List (MmsEvent ℕ) :=
  [.receiver, .call, .caller, .caller, .arrive (.confirmedResponse 1 7), .receiver, .expire,
    .caller, .caller, .caller, .caller, .caller, .caller]

/-- The next call up to the arrival of its answer. -/
def nextCall : List (MmsEvent ℕ) :=
  [.receiver, .receiver, .call, .caller, .caller, .receiver, .arrive (.confirmedResponse 2 8),
    .receiver, .caller]

/-- The state after a run that does not fail. -/
def stateAfter (s : MmsConnection β) (run : List (MmsEvent β)) : MmsConnection β :=
  match run.foldlM mmsStep s with
  | .ok s' => s'
  | .error _ => s

theorem late_answer_run_next : ∃ more,
    ([.called 1, .received (.confirmedResponse 1 7), .returned 1 .serviceTimeout none, .called 2,
      .received (.confirmedResponse 2 8), .returned 2 .serviceTimeout none] : List (TraceEntry ℕ)) =
      [.called 1, .received (.confirmedResponse 1 7), .returned 1 .serviceTimeout none] ++ more ∧
    ∀ id e v, .returned id e v ∈ more → v = none ∧ (e = .serviceTimeout ∨ e = .connectionLost) := by
  let s : MmsConnection ℕ := stateAfter .connect lateRun
  let end₂ : List (MmsEvent ℕ) := .expire :: List.replicate 6 .caller
  have hquiet (l : List (MmsEvent ℕ)) (hl : .expire ∉ l) (s : MmsConnection ℕ) :
      Along mmsStep Prompt s l :=
    along_of_forall fun _ e he hne => absurd (hne ▸ he) hl
  have hbefore : lateRun.foldlM mmsStep .connect = .ok s := rfl
  have hlate : Late s := ⟨rfl, .inr ⟨1, none, by decide, rfl⟩⟩
  have hprompt : Along mmsStep Prompt s (nextCall ++ end₂) := by
    refine along_append.2
      ⟨hquiet _ (by simp [nextCall]) s, fun s₁ hs₁ => ⟨?_, fun s₂ _ => hquiet _ (by simp) s₂⟩⟩
    have hcall : nextCall.foldlM mmsStep s = .ok (stateAfter s nextCall) := rfl
    obtain rfl := Except.ok.inj (hcall.symm.trans hs₁)
    intro _ id hc
    obtain rfl : 2 = id := Caller.waiting.inj hc
    exact ⟨none, rfl⟩
  have hrun : (nextCall ++ end₂).foldlM mmsStep s = .ok (stateAfter s (nextCall ++ end₂)) := rfl
  exact late_answer_run (by decide) hbefore hlate hprompt hrun

end DslinkIec61850
