import DslinkIec61850.Mms.Connection

/-!
# Answers of an MMS connection

What a call returns is what the IED answered to this call. Whatever arrives and in
whatever order the two threads go on, a call that returns without an error has found a
reply that came for its own invoke id after it had begun. The text of the reply is
another matter: a call that gives up posts the semaphore of the receive buffer without
having had the buffer, and from then on the buffer can be overwritten while a later
call reads it. As long as no call has given up, the value and the error are those of the
reply.

* `Turn.step`: as long as no call gives up, either the handling thread has the receive
  buffer, or a call has it, or nobody will get it again.
* `answered_by_own_run`: what the calls of a run return.
-/

namespace DslinkIec61850

open Run

variable {β : Type} {s s' : MmsConnection β}

/-! ## Results -/

/-- What a call returns is its own: the connection is lost, or value and error are those
of a reply to it. -/
def Own (trace : List (TraceEntry β)) (id : ℕ) (e : MmsError) (v : Option β) : Prop :=
  e = .connectionLost ∨
    (e = .none ∧ ∃ body, v = some body ∧ Received trace id (.confirmedResponse id body)) ∨
    ∃ error, e = convertServiceErrorToMmsError error ∧ v = none ∧
      Received trace id (.confirmedError id error)

/-- The receive buffer holds a reply to the call, and the reply carries the error `e`. -/
def Holds (trace : List (TraceEntry β)) (id : ℕ) (payload : MmsPdu β) (e : MmsError) : Prop :=
  Received trace id payload ∧ ∃ carried, payload.reply = some (id, carried) ∧ carried.getD .none = e

theorem Holds.own {trace : List (TraceEntry β)} {id : ℕ} {payload : MmsPdu β} {e : MmsError}
    (h : Holds trace id payload e) :
    Own trace id e (if e = .none ∧ true then payload.body else none) := by
  obtain ⟨hreceived, carried, hreply, rfl⟩ := h
  cases payload with
  | confirmedResponse id' body =>
    cases hreply
    exact .inr (.inl ⟨rfl, body, rfl, hreceived⟩)
  | confirmedError id' error =>
    cases hreply
    have hne := (convertServiceErrorToMmsError_ne error).1
    exact .inr (.inr ⟨error, rfl, if_neg fun h => hne h.1, hreceived⟩)
  | _ => cases hreply

/-! ## Whose turn it is -/

/-- The call has no part in the receive buffer, or has given it back. -/
def Apart (s : MmsConnection β) : Prop :=
  match s.caller with
  | .idle => True
  | .begun _ => True
  | .added _ => True
  | .waiting _ => True
  | .released id e v => Own s.trace id e v
  | _ => False

/-- The handling thread has the receive buffer or can take it. A reply that is handed over
is in the buffer and for the call in the table, or has the invoke id 0. -/
def ReceiverTurn (s : MmsConnection β) : Prop :=
  match s.receiver with
  | .waiting => s.receiveBufferMutex = 1
  | .reading => s.receiveBufferMutex = 0
  | .handling => s.receiveBufferMutex = 0
  | .blocked id e => s.receiveBufferMutex = 0 ∧
      (id = 0 ∨ s.caller.outstanding = some id ∧ Received s.trace id s.payload ∧
        s.payload.reply = some (id, e))
  | .storing id e => s.receiveBufferMutex = 0 ∧
      (id = 0 ∨ s.caller.outstanding = some id ∧ Received s.trace id s.payload ∧
        s.payload.reply = some (id, e))
  | .closed => False

/-- The call has the receive buffer with the reply to it, or what it has read there. -/
def CallerTurn (s : MmsConnection β) : Prop :=
  match s.caller with
  | .added id => s.responseInvokeId = id ∧ Holds s.trace id s.payload s.lastResponseError
  | .waiting id => s.responseInvokeId = id ∧ Holds s.trace id s.payload s.lastResponseError
  | .ended id true => Holds s.trace id s.payload s.lastResponseError
  | .removed id true => Holds s.trace id s.payload s.lastResponseError
  | .checked id true e => Holds s.trace id s.payload e
  | .parsed id e v => Own s.trace id e v
  | .reset id e v => Own s.trace id e v ∧ s.responseInvokeId = 0 ∧ s.lastResponseError = .none
  | _ => False

/-- Who has the receive buffer as long as no call has given up. -/
inductive Turn (s : MmsConnection β) : Prop
  | closed (h : s.associationState = .closed)
  | receiver (hopen : s.associationState = .connected) (hresponse : s.responseInvokeId = 0)
      (herror : s.lastResponseError = .none) (hcaller : Apart s) (hreceiver : ReceiverTurn s)
  | caller (hopen : s.associationState = .connected) (hreceiver : s.receiver = .waiting)
      (hmutex : s.receiveBufferMutex = 0) (hcaller : CallerTurn s)
  | nobody (hopen : s.associationState = .connected) (hresponse : s.responseInvokeId = 0)
      (hreceiver : s.receiver = .waiting) (hmutex : s.receiveBufferMutex = 0) (hcaller : Apart s)

theorem turn_connect : Turn (MmsConnection.connect : MmsConnection β) :=
  .receiver rfl rfl rfl trivial rfl

/-- A closed connection stays closed. -/
theorem closed_step {e : MmsEvent β} (hs : mmsStep s e = .ok s')
    (h : s.associationState = .closed) : s'.associationState = .closed := by
  cases e with
  | call =>
    unfold mmsStep at hs
    dsimp only at hs
    split at hs <;> cases hs
    rw [MmsConnection.call, h]
  | caller =>
    unfold mmsStep MmsConnection.callerStep at hs
    dsimp only at hs
    split at hs <;> try split_ifs at hs
    all_goals
      cases hs
      try exact h
  | expire =>
    unfold mmsStep MmsConnection.expire at hs
    dsimp only at hs
    split at hs <;> cases hs
    exact h
  | receiver =>
    unfold mmsStep MmsConnection.receiverStep at hs
    dsimp only at hs
    split at hs <;> try split_ifs at hs
    all_goals
      cases hs
      try exact h
    obtain ⟨n, r, -, heq⟩ := s.mmsIsoCallback_cases
    rw [heq]
    exact h
  | arrive pdu =>
    unfold mmsStep MmsConnection.arrive at hs
    dsimp only at hs
    split at hs <;> cases hs
    exact h
  | lose =>
    unfold mmsStep MmsConnection.lose at hs
    dsimp only at hs
    split at hs <;> cases hs
    rfl

theorem Own.append {trace : List (TraceEntry β)} {id : ℕ} {e : MmsError} {v : Option β}
    (h : Own trace id e v) (more : List (TraceEntry β)) : Own (trace ++ more) id e v := by
  rcases h with h | ⟨he, body, hv, hreceived⟩ | ⟨error, he, hv, hreceived⟩
  · exact .inl h
  · exact .inr (.inl ⟨he, body, hv, hreceived.append more⟩)
  · exact .inr (.inr ⟨error, he, hv, hreceived.append more⟩)

namespace Turn

open MmsConnection

theorem call (h : Turn s) (hidle : s.caller = .idle) : Turn s.call := by
  cases hstate : s.associationState with
  | closed =>
    refine .closed ?_
    rw [MmsConnection.call, hstate]
  | connected =>
    have hcall : s.call = { s with
        lastInvokeId := getNextInvokeId s.lastInvokeId, caller :=
          .begun (getNextInvokeId s.lastInvokeId),
        trace := s.trace ++ [.called (getNextInvokeId s.lastInvokeId)] } := by
      rw [MmsConnection.call, hstate]
    rw [hcall]
    cases h with
    | closed h => cases hstate.symm.trans h
    | receiver hopen hresponse herror hcaller hreceiver =>
      refine .receiver hopen hresponse herror trivial ?_
      -- A reply that is handed over between two calls has the invoke id 0.
      unfold ReceiverTurn at hreceiver ⊢
      dsimp only
      cases hr : s.receiver with
      | blocked id e =>
        rw [hr, hidle] at hreceiver
        exact ⟨hreceiver.1, .inl (hreceiver.2.resolve_right fun h => by cases h.1)⟩
      | storing id e =>
        rw [hr, hidle] at hreceiver
        exact ⟨hreceiver.1, .inl (hreceiver.2.resolve_right fun h => by cases h.1)⟩
      | _ =>
        rw [hr] at hreceiver
        exact hreceiver
    | caller hopen hreceiver hmutex hcaller =>
      rw [CallerTurn, hidle] at hcaller
      exact hcaller.elim
    | nobody hopen hresponse hreceiver hmutex hcaller =>
      exact .nobody hopen hresponse hreceiver hmutex trivial

/-- The part of the handling thread does not depend on where the call is, as long as the
same call is in the table. -/
theorem receiverTurn_congr {s s' : MmsConnection β} (h : ReceiverTurn s)
    (hreceiver : s'.receiver = s.receiver)
    (hmutex : s'.receiveBufferMutex = s.receiveBufferMutex) (hpayload : s'.payload = s.payload)
    (htrace : ∀ id pdu, Received s.trace id pdu → Received s'.trace id pdu)
    (hout : ∀ id, s.caller.outstanding = some id → s'.caller.outstanding = some id) :
    ReceiverTurn s' := by
  unfold ReceiverTurn at h ⊢
  rw [hreceiver, hmutex, hpayload]
  cases hr : s.receiver with
  | blocked id e =>
    rw [hr] at h
    exact ⟨h.1, h.2.imp_right fun ⟨hid, hreceived, hreply⟩ =>
      ⟨hout id hid, htrace _ _ hreceived, hreply⟩⟩
  | storing id e =>
    rw [hr] at h
    exact ⟨h.1, h.2.imp_right fun ⟨hid, hreceived, hreply⟩ =>
      ⟨hout id hid, htrace _ _ hreceived, hreply⟩⟩
  | _ =>
    rw [hr] at h
    exact h

/-- A call that has no part in the receive buffer takes none: it finds no answer. -/
theorem apart_callerStep (hinv : Inv s) (hopen : s.associationState = .connected)
    (hresponse : s.responseInvokeId = 0)
    (h : Apart s) (hs : s.callerStep = .ok s') : ∃ calls caller trace,
      s' = { s with outstandingCalls := calls, caller := caller, trace := s.trace ++ trace } ∧
      Apart s' ∧
        ∀ id, s.caller.outstanding = some id → caller.outstanding = some id := by
  unfold MmsConnection.callerStep at hs
  cases hc : s.caller with
  | begun id =>
    rw [hc] at hs
    cases hs
    exact ⟨_, _, [], by rw [List.append_nil], trivial, by rintro id ⟨⟩⟩
  | added id =>
    rw [hc] at hs
    cases hs
    exact ⟨_, .waiting id, [], by rw [List.append_nil], trivial, fun _ h => h⟩
  | waiting id =>
    -- The invoke id of the call is not 0, so it finds nothing.
    rw [hc] at hs
    dsimp only at hs
    have hpos : 0 < id := (hinv.current id (by rw [hc]; rfl)).2.1
    rw [if_neg (by rw [hopen]; decide), if_neg (by omega)] at hs
    cases hs
    exact ⟨_, _, [], by rw [List.append_nil], h, fun _ hid => hc ▸ hid⟩
  | released id e v =>
    rw [hc] at hs
    cases hs
    exact ⟨_, _, _, rfl, trivial, by rintro id ⟨⟩⟩
  | idle =>
    rw [hc] at hs
    cases hs
  | _ =>
    rw [Apart, hc] at h
    exact h.elim

theorem callerStep (hinv : Inv s) (h : Turn s) (hs : s.callerStep = .ok s') : Turn s' := by
  cases h with
  | closed h => exact .closed (closed_step (show mmsStep s .caller = .ok s' from hs) h)
  | receiver hopen hresponse herror hcaller hreceiver =>
    obtain ⟨_, _, trace, rfl, hcaller', hout⟩ := apart_callerStep hinv hopen hresponse hcaller hs
    exact .receiver hopen hresponse herror hcaller'
      (receiverTurn_congr hreceiver rfl rfl rfl (fun _ _ h => h.append trace) hout)
  | caller hopen hreceiver hmutex hcaller =>
    unfold MmsConnection.callerStep at hs
    unfold CallerTurn at hcaller
    cases hc : s.caller with
    | added id =>
      rw [hc] at hs hcaller
      cases hs
      exact .caller hopen hreceiver hmutex hcaller
    | waiting id =>
      rw [hc] at hs hcaller
      dsimp only at hs
      rw [if_neg (by rw [hopen]; decide), if_pos hcaller.1] at hs
      cases hs
      exact .caller hopen hreceiver hmutex hcaller.2
    | ended id answered =>
      rw [hc] at hs hcaller
      cases hs
      cases answered with
      | false => exact hcaller.elim
      | true => exact .caller hopen hreceiver hmutex hcaller
    | removed id answered =>
      rw [hc] at hs hcaller
      cases hs
      cases answered with
      | false => exact hcaller.elim
      | true => exact .caller hopen hreceiver hmutex hcaller
    | checked id answered e =>
      rw [hc] at hs hcaller
      cases hs
      cases answered with
      | false => exact hcaller.elim
      | true => exact .caller hopen hreceiver hmutex (Holds.own hcaller)
    | parsed id e v =>
      rw [hc] at hs hcaller
      cases hs
      exact .caller hopen hreceiver hmutex ⟨hcaller, rfl, rfl⟩
    | reset id e v =>
      rw [hc] at hs hcaller
      cases hs
      refine .receiver hopen hcaller.2.1 hcaller.2.2 hcaller.1 ?_
      rw [ReceiverTurn, hreceiver]
      exact congrArg (· + 1) hmutex
    | _ =>
      rw [hc] at hcaller
      exact hcaller.elim
  | nobody hopen hresponse hreceiver hmutex hcaller =>
    obtain ⟨_, _, _, rfl, hcaller', -⟩ := apart_callerStep hinv hopen hresponse hcaller hs
    exact .nobody hopen hresponse hreceiver hmutex hcaller'

theorem receiverStep (hinv : Inv s) (h : Turn s) (hs : s.receiverStep = .ok s') : Turn s' := by
  cases h with
  | closed h => exact .closed (closed_step (show mmsStep s .receiver = .ok s' from hs) h)
  | receiver hopen hresponse herror hcaller hreceiver =>
    unfold MmsConnection.receiverStep at hs
    unfold ReceiverTurn at hreceiver
    cases hr : s.receiver with
    | waiting =>
      rw [hr] at hs hreceiver
      dsimp only at hs hreceiver
      rw [if_pos (by omega)] at hs
      cases hs
      exact .receiver hopen hresponse herror hcaller (show s.receiveBufferMutex - 1 = 0 by omega)
    | reading =>
      rw [hr] at hs
      cases hs
    | handling =>
      rw [hr] at hs hreceiver
      cases hs
      obtain ⟨n, r, hlooked, heq⟩ := s.mmsIsoCallback_cases
      rw [heq]
      have hcaller' : Apart { s with
          receiveBufferMutex := n, receiver := r, trace := s.trace ++ [.received s.payload] } := by
        unfold Apart at hcaller ⊢
        dsimp only
        cases hc : s.caller with
        | released id e v =>
          rw [hc] at hcaller
          exact hcaller.append _
        | _ =>
          rw [hc] at hcaller
          exact hcaller
      cases hlooked with
      | replies hreply hmem =>
        rename_i id e
        refine .receiver hopen hresponse herror hcaller' ⟨hreceiver, ?_⟩
        rw [hinv.table] at hmem
        refine (mem_callTable hmem).imp_right fun hout => ⟨hout, received_concat ?_ _, hreply⟩
        exact (hinv.current id (Caller.current_of_outstanding hout)).2.2
      | releases => exact .receiver hopen hresponse herror hcaller' (congrArg (· + 1) hreceiver)
      | keeps => exact .nobody hopen hresponse rfl hreceiver hcaller'
    | blocked id e =>
      rw [hr] at hs hreceiver
      dsimp only at hs
      rw [if_pos hresponse] at hs
      cases hs
      exact .receiver hopen hresponse herror hcaller hreceiver
    | storing id e =>
      rw [hr] at hs hreceiver
      cases hs
      obtain ⟨hmutex, rfl | ⟨hout, hreceived, hreply⟩⟩ := hreceiver
      · exact .nobody hopen rfl rfl hmutex hcaller
      · -- The reply is for the call in the table, which waits for it or is about to.
        have hholds : Holds s.trace id s.payload (e.getD s.lastResponseError) :=
          ⟨hreceived, e, hreply, by rw [herror]⟩
        refine .caller hopen rfl hmutex ?_
        unfold Apart at hcaller
        unfold CallerTurn
        dsimp only
        cases hc : s.caller with
        | added id' =>
          rw [hc] at hout
          cases hout
          exact ⟨rfl, hholds⟩
        | waiting id' =>
          rw [hc] at hout
          cases hout
          exact ⟨rfl, hholds⟩
        | ended id' answered =>
          rw [hc] at hcaller
          exact hcaller.elim
        | _ =>
          rw [hc] at hout
          cases hout
    | closed =>
      rw [hr] at hs
      cases hs
  | caller hopen hreceiver hmutex hcaller =>
    rw [MmsConnection.receiverStep, hreceiver] at hs
    dsimp only at hs
    rw [if_neg (by omega)] at hs
    cases hs
  | nobody hopen hresponse hreceiver hmutex hcaller =>
    rw [MmsConnection.receiverStep, hreceiver] at hs
    dsimp only at hs
    rw [if_neg (by omega)] at hs
    cases hs

/-- A PDU can only be read by the handling thread. -/
theorem arrive (h : Turn s) {pdu : MmsPdu β} (hs : s.arrive pdu = .ok s') : Turn s' := by
  cases h with
  | closed h => exact .closed (closed_step (show mmsStep s (.arrive pdu) = .ok s' from hs) h)
  | receiver hopen hresponse herror hcaller hreceiver =>
    unfold MmsConnection.arrive at hs
    unfold ReceiverTurn at hreceiver
    split at hs <;> rename_i hr <;> cases hs
    rw [hr] at hreceiver
    exact .receiver hopen hresponse herror hcaller hreceiver
  | caller hopen hreceiver hmutex hcaller =>
    rw [MmsConnection.arrive, hreceiver] at hs
    cases hs
  | nobody hopen hresponse hreceiver hmutex hcaller =>
    rw [MmsConnection.arrive, hreceiver] at hs
    cases hs

theorem lose (hs : s.lose = .ok s') : Turn s' := by
  unfold MmsConnection.lose at hs
  split at hs <;> cases hs
  exact .closed rfl

/-- As long as no call gives up, the receive buffer has one owner at most. -/
theorem step (hinv : Inv s) (h : Turn s) {e : MmsEvent β} (he : e ≠ .expire)
    (hs : mmsStep s e = .ok s') : Turn s' := by
  cases e with
  | call =>
    unfold mmsStep at hs
    dsimp only at hs
    split at hs <;> rename_i hidle <;> cases hs
    exact h.call hidle
  | caller => exact h.callerStep hinv hs
  | expire => exact absurd rfl he
  | receiver => exact h.receiverStep hinv hs
  | arrive pdu => exact h.arrive hs
  | lose => exact lose hs

end Turn

/-! ## Runs -/

def MmsEvent.isCall : MmsEvent β → Bool
  | .call => true
  | _ => false

/-- Only the beginning of a call uses up an invoke id. -/
theorem lastInvokeId_step {e : MmsEvent β} (hs : mmsStep s e = .ok s') :
    s'.lastInvokeId = s.lastInvokeId ∨ e = .call ∧
    s'.lastInvokeId = getNextInvokeId s.lastInvokeId := by
  cases e with
  | call =>
    unfold mmsStep at hs
    dsimp only at hs
    split at hs <;> cases hs
    unfold MmsConnection.call
    split
    · exact .inl rfl
    · exact .inr ⟨rfl, rfl⟩
  | caller =>
    unfold mmsStep MmsConnection.callerStep at hs
    dsimp only at hs
    split at hs <;> try split_ifs at hs
    all_goals
      cases hs
      try exact .inl rfl
  | expire =>
    unfold mmsStep MmsConnection.expire at hs
    dsimp only at hs
    split at hs <;> cases hs
    exact .inl rfl
  | receiver =>
    unfold mmsStep MmsConnection.receiverStep at hs
    dsimp only at hs
    split at hs <;> try split_ifs at hs
    all_goals
      cases hs
      try exact .inl rfl
    obtain ⟨n, r, -, heq⟩ := s.mmsIsoCallback_cases
    rw [heq]
    exact .inl rfl
  | arrive pdu =>
    unfold mmsStep MmsConnection.arrive at hs
    dsimp only at hs
    split at hs <;> cases hs
    exact .inl rfl
  | lose =>
    unfold mmsStep MmsConnection.lose at hs
    dsimp only at hs
    split at hs <;> cases hs
    exact .inl rfl

/-- A call gets an invoke id that was not used before. -/
def HasRoom (s : MmsConnection β) (e : MmsEvent β) : Prop := e = .call → s.lastInvokeId + 1 < 2 ^ 32

theorem along_hasRoom {run : List (MmsEvent β)}
    (h : s.lastInvokeId + run.countP MmsEvent.isCall < 2 ^ 32) : Along mmsStep HasRoom s run := by
  induction run generalizing s with
  | nil => trivial
  | cons e run ih =>
    rw [List.countP_cons] at h
    constructor
    · rintro rfl
      simp only [MmsEvent.isCall, if_true] at h
      omega
    · intro s' hs
      apply ih
      rcases lastInvokeId_step hs with heq | ⟨rfl, heq⟩
      · omega
      · have hmod : getNextInvokeId s.lastInvokeId ≤ s.lastInvokeId + 1 := Nat.mod_le _ _
        simp only [MmsEvent.isCall, if_true] at h
        omega

/-- Every result in the trace meets `P` with what is before it. -/
def Returns (P : List (TraceEntry β) → ℕ → MmsError → Option β → Prop)
    (trace : List (TraceEntry β)) : Prop :=
  Each (fun before entry => ∀ id e v, entry = .returned id e v → P before id e v) trace

/-- A result is noted when a call has given back the receive buffer. -/
theorem trace_step {e : MmsEvent β} (hs : mmsStep s e = .ok s') : s'.trace = s.trace ∨
    ∃ entry, s'.trace = s.trace ++ [entry] ∧ ∀ id err v, entry = .returned id err v →
      ∃ e₀, s.caller = .released id e₀ v ∧
        err = if s.associationState = .closed then .connectionLost else e₀ := by
  cases e with
  | call =>
    unfold mmsStep at hs
    dsimp only at hs
    split at hs <;> cases hs
    unfold MmsConnection.call
    split
    · exact .inr ⟨.refused, rfl, by rintro id err v ⟨⟩⟩
    · exact .inr ⟨.called _, rfl, by rintro id err v ⟨⟩⟩
  | caller =>
    unfold mmsStep MmsConnection.callerStep at hs
    cases hc : s.caller with
    | released id e v =>
      rw [hc] at hs
      cases hs
      exact .inr ⟨_, rfl, by rintro id err v ⟨⟩; exact ⟨e, rfl, rfl⟩⟩
    | waiting id =>
      rw [hc] at hs
      dsimp only at hs
      split_ifs at hs <;> cases hs <;> exact .inl rfl
    | _ =>
      rw [hc] at hs
      cases hs
      try exact .inl rfl
  | expire =>
    unfold mmsStep MmsConnection.expire at hs
    dsimp only at hs
    split at hs <;> cases hs
    exact .inl rfl
  | receiver =>
    unfold mmsStep MmsConnection.receiverStep at hs
    dsimp only at hs
    split at hs <;> try split_ifs at hs
    all_goals
      cases hs
      try exact .inl rfl
    obtain ⟨n, r, -, heq⟩ := s.mmsIsoCallback_cases
    rw [heq]
    exact .inr ⟨.received _, rfl, by rintro id err v ⟨⟩⟩
  | arrive pdu =>
    unfold mmsStep MmsConnection.arrive at hs
    dsimp only at hs
    split at hs <;> cases hs
    exact .inl rfl
  | lose =>
    unfold mmsStep MmsConnection.lose at hs
    dsimp only at hs
    split at hs <;> cases hs
    exact .inl rfl

theorem returns_connect (P : List (TraceEntry β) → ℕ → MmsError → Option β → Prop) :
    Returns P (MmsConnection.connect : MmsConnection β).trace := each_nil

theorem Returns.step {P : List (TraceEntry β) → ℕ → MmsError → Option β → Prop}
    (h : Returns P s.trace)
    {e : MmsEvent β} (hs : mmsStep s e = .ok s') (hresult : ∀ id e v, s.caller = .released id e v →
      P s.trace id (if s.associationState = .closed then .connectionLost else e) v) :
      Returns P s'.trace := by
  rcases trace_step hs with heq | ⟨entry, heq, hentry⟩
  · rw [heq]
    exact h
  · rw [heq]
    refine each_concat.2 ⟨h, fun id err v hreturned => ?_⟩
    obtain ⟨e₀, hc, rfl⟩ := hentry id err v hreturned
    exact hresult id e₀ v hc

/-- What a call without an error returns has been replied to. -/
theorem MmsConnection.Inv.replied (h : MmsConnection.Inv s) {id : ℕ} {e : MmsError} {v : Option β}
    (hc : s.caller = .released id e v)
    (he : (if s.associationState = .closed then .connectionLost else e) = .none) :
    Replied s.trace id := by
  split_ifs at he with hclosed
  rcases h.result id e v (by rw [hc]; rfl) with hne | hclosed' | hreplied
  · exact absurd he hne
  · exact absurd hclosed' hclosed
  · exact hreplied

theorem Turn.own (h : Turn s) {id : ℕ} {e : MmsError} {v : Option β}
    (hc : s.caller = .released id e v) :
    Own s.trace id (if s.associationState = .closed then .connectionLost else e) v := by
  split_ifs with hclosed
  · exact .inl rfl
  · cases h with
    | closed h => exact absurd h hclosed
    | receiver _ _ _ hcaller _ =>
      rw [Apart, hc] at hcaller
      exact hcaller
    | caller _ _ _ hcaller =>
      rw [CallerTurn, hc] at hcaller
      exact hcaller.elim
    | nobody _ _ _ _ hcaller =>
      rw [Apart, hc] at hcaller
      exact hcaller

/-- **Answers.** In every run of a connection with fewer than `2 ^ 32` calls, a call that
returns without an error was replied to under its own invoke id after it had begun; and if
no call of the run has given up, every call returns the value or the error of a reply to it. -/
theorem answered_by_own_run {run : List (MmsEvent β)} (hcalls : run.countP MmsEvent.isCall < 2 ^ 32)
    (h : run.foldlM mmsStep .connect = .ok s) : Returns (fun before id e v =>
      (e = .none → Replied before id) ∧ (.expire ∉ run → Own before id e v)) s.trace := by
  have hroom : Along mmsStep HasRoom (.connect : MmsConnection β) run := along_hasRoom (by
    show 0 + _ < _
    rwa [Nat.zero_add])
  have hreplied : s.Inv ∧ Returns (fun before id e _ => e = .none → Replied before id) s.trace :=
    along_keeps (J := fun s => s.Inv ∧
      Returns (fun before id e _ => e = .none → Replied before id) s.trace)
      (fun s e s' hJ hC hs => ⟨hJ.1.step hC hs, hJ.2.step hs fun id e v hc => hJ.1.replied hc⟩)
      ⟨MmsConnection.inv_connect, returns_connect _⟩ hroom h
  have hown (hexpire : .expire ∉ run) : s.Inv ∧ Turn s ∧ Returns Own s.trace := by
    have hnone : Along mmsStep (fun _ e => e ≠ .expire) (.connect : MmsConnection β) run :=
      along_of_forall fun _ e he hne => hexpire (hne ▸ he)
    refine along_keeps (J := fun s => s.Inv ∧ Turn s ∧ Returns Own s.trace)
      (fun s e s' hJ hC hs => ?_)
      ⟨MmsConnection.inv_connect, turn_connect, returns_connect _⟩ (hroom.and hnone) h
    exact ⟨hJ.1.step hC.1 hs, hJ.2.1.step hJ.1 hC.2 hs,
      hJ.2.2.step hs fun id e v hc => hJ.2.1.own hc⟩
  intro before entry after htrace id e v hentry
  exact ⟨hreplied.2 before entry after htrace id e v hentry,
    fun hexpire => (hown hexpire).2.2 before entry after htrace id e v hentry⟩

/-- A call whose answer comes after a report. -/
def answeredRun : List (MmsEvent ℕ) :=
  [.receiver, .call, .caller, .caller, .arrive .unconfirmed, .receiver, .receiver, .caller,
    .arrive (.confirmedResponse 1 7), .receiver, .receiver, .receiver, .caller, .caller, .caller,
    .caller, .caller, .caller, .caller]

theorem answered_by_own_run_report :
    Own [.called 1, .received .unconfirmed, .received (.confirmedResponse 1 7)] 1 .none
      (some 7) := by
  obtain ⟨s, hrun, htrace⟩ : ∃ s, answeredRun.foldlM mmsStep .connect = .ok s ∧
      s.trace = [.called 1, .received .unconfirmed, .received (.confirmedResponse 1 7),
        .returned 1 .none (some 7)] :=
    ⟨_, rfl, rfl⟩
  exact (answered_by_own_run (by decide) hrun _ _ [] htrace 1 .none (some 7) rfl).2
    (by simp [answeredRun])

/-- Once a call has given up, a later call can return the answer to it: the answer to the first
call comes into the receive buffer while the second call is about to read its own. -/
example : ∃ s, [.receiver, .call, .caller, .caller, .expire, .caller, .caller, .caller, .caller,
    .caller, .caller,
      .call, .caller, .caller, .arrive (.confirmedResponse 2 8), .receiver, .receiver, .receiver,
      .caller, .caller, .caller, .receiver, .arrive (.confirmedResponse 1 7), .caller, .caller,
      .caller, .caller].foldlM mmsStep
      (.connect : MmsConnection ℕ) = .ok s ∧
    s.trace = [.called 1, .returned 1 .serviceTimeout none, .called 2,
      .received (.confirmedResponse 2 8), .returned 2 .none (some 7)] :=
  ⟨_, rfl, rfl⟩

end DslinkIec61850
