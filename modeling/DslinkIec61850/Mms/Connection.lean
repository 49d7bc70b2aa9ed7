import DslinkIec61850.Lib.Run

/-!
# Calls of an MMS connection

Every request to an IED is a confirmed call of the MMS connection
(mms_client_connection.c). Two threads share the connection. The link's thread makes
the calls, one after the other: it takes an invoke id, enters it in the table of
outstanding calls, sends the request, and waits until `responseInvokeId` is its own or
the time is over. The connection handling thread (iso_client_connection.c:89–171)
reads one PDU after the other into the receive buffer, and hands a response to the
call that waits for it. `receiveBufferMutex` is a counting semaphore: whoever has
taken it owns the receive buffer.

An event is one access of a thread to what is shared, a PDU that arrives, the end of
the waiting time, or the loss of the connection. `self->lastResponse` always points
into the receive buffer, so the response of a call is what the buffer holds when the
call looks at it.

* `mmsStep`: one event.
* `MmsConnection.Inv`: the invariant of every run.
* `Inv.step`: every event keeps it.
-/

namespace DslinkIec61850

open Run

/-! ## Errors -/

/-- The values of `MmsError` that a call can end with. -/
inductive MmsError
  | none
  | connectionLost
  | serviceTimeout
  | other
  | vmdstateOther
  | applicationReferenceOther
  | definitionOther
  | definitionInvalidAddress
  | definitionTypeUnsupported
  | definitionTypeInconsistent
  | definitionObjectUndefined
  | definitionObjectExists
  | definitionObjectAttributeInconsistent
  | resourceOther
  | serviceOther
  | servicePreemptOther
  | timeResolutionOther
  | accessOther
  | accessObjectNonExistent
  | accessObjectAccessUnsupported
  | accessObjectAccessDenied
  | accessObjectInvalidated
  | fileOther
  | fileFileNonExistent
deriving DecidableEq

/-- `MmsServiceError`. -/
structure MmsServiceError where
  errorClass : ℤ
  errorCode : ℤ

/-- `convertServiceErrorToMmsError` (mms_client_connection.c:376–472). -/
def convertServiceErrorToMmsError (e : MmsServiceError) : MmsError :=
  match e.errorClass with
  | 0 => .vmdstateOther
  | 1 => .applicationReferenceOther
  | 2 =>
    match e.errorCode with
    | 1 => .definitionObjectUndefined
    | 2 => .definitionInvalidAddress
    | 3 => .definitionTypeUnsupported
    | 4 => .definitionTypeInconsistent
    | 5 => .definitionObjectExists
    | 6 => .definitionObjectAttributeInconsistent
    | _ => .definitionOther
  | 3 => .resourceOther
  | 4 => .serviceOther
  | 5 => .servicePreemptOther
  | 6 => .timeResolutionOther
  | 7 =>
    match e.errorCode with
    | 1 => .accessObjectAccessUnsupported
    | 2 => .accessObjectNonExistent
    | 3 => .accessObjectAccessDenied
    | 4 => .accessObjectInvalidated
    | _ => .accessOther
  | 11 =>
    match e.errorCode with
    | 7 => .fileFileNonExistent
    | _ => .fileOther
  | _ => .other

/-- An error of the server is none of the errors that the client sets itself. -/
theorem convertServiceErrorToMmsError_ne (e : MmsServiceError) :
    convertServiceErrorToMmsError e ≠ .none ∧ convertServiceErrorToMmsError e ≠ .connectionLost ∧
      convertServiceErrorToMmsError e ≠ .serviceTimeout := by
  unfold convertServiceErrorToMmsError
  split <;> try split
  all_goals simp

/-! ## PDUs -/

/-- A PDU as `mmsIsoCallback` tells them apart (mms_client_connection.c:572–744);
`invokeId` is what `BerDecoder_decodeUint32` gives. -/
inductive MmsPdu (β : Type)
  | confirmedResponse (invokeId : ℕ) (body : β)
  | malformedResponse
  | confirmedError (invokeId : ℕ) (error : MmsServiceError)
  | malformedError
  | unconfirmed
  | initiateResponse
  | conclude
  | other

namespace MmsPdu

variable {β : Type}

/-- The call that a PDU is for, with the error that it carries. -/
def reply : MmsPdu β → Option (ℕ × Option MmsError)
  | .confirmedResponse invokeId _ => some (invokeId, none)
  | .confirmedError invokeId e => some (invokeId, some (convertServiceErrorToMmsError e))
  | _ => none

theorem reply_ne_none {pdu : MmsPdu β} {id : ℕ} {e : Option MmsError}
    (h : pdu.reply = some (id, e)) : e ≠ some .none := by
  cases pdu with
  | confirmedResponse id' body =>
    cases h
    simp
  | confirmedError id' e' =>
    cases h
    exact fun hnone => (convertServiceErrorToMmsError_ne e').1 (Option.some.inj hnone)
  | _ => cases h

/-- What the functions `mmsClient_parse…Response` get out of the receive buffer; they
do not compare the invoke id. -/
def body : MmsPdu β → Option β
  | .confirmedResponse _ body => some body
  | _ => none

/-- The PDUs for no call whose receive buffer is released at once; the others keep it. -/
def released : MmsPdu β → Bool
  | .malformedError => false
  | .other => false
  | _ => true

end MmsPdu

/-! ## The connection -/

inductive AssociationState
  | closed
  | connected
deriving DecidableEq

/-- Where the link's thread is in a call, with what it holds in its local variables. -/
inductive Caller (β : Type)
  | idle
  | begun (invokeId : ℕ)
  | added (invokeId : ℕ)
  | waiting (invokeId : ℕ)
  | ended (invokeId : ℕ) (answered : Bool)
  | removed (invokeId : ℕ) (answered : Bool)
  | checked (invokeId : ℕ) (answered : Bool) (error : MmsError)
  | parsed (invokeId : ℕ) (error : MmsError) (value : Option β)
  | reset (invokeId : ℕ) (error : MmsError) (value : Option β)
  | released (invokeId : ℕ) (error : MmsError) (value : Option β)

/-- Where the connection handling thread is; `blocked` waits until the last response has
been processed. -/
inductive Receiver
  | waiting
  | reading
  | handling
  | blocked (invokeId : ℕ) (error : Option MmsError)
  | storing (invokeId : ℕ) (error : Option MmsError)
  | closed

/-- What happens at the interface of the connection: a call gets its invoke id, is
refused on a closed connection or returns, and a PDU is looked at. -/
inductive TraceEntry (β : Type)
  | called (invokeId : ℕ)
  | refused
  | received (pdu : MmsPdu β)
  | returned (invokeId : ℕ) (error : MmsError) (value : Option β)

/-- A `MmsConnection` with the receive buffer of its `IsoClientConnection` and its two
threads. -/
structure MmsConnection (β : Type) where
  lastInvokeId : ℕ
  outstandingCalls : List ℕ
  responseInvokeId : ℕ
  lastResponseError : MmsError
  associationState : AssociationState
  payload : MmsPdu β
  receiveBufferMutex : ℕ
  caller : Caller β
  receiver : Receiver
  trace : List (TraceEntry β)

/-- `OUTSTANDING_CALLS`. -/
def outstandingCallsMax : ℕ := 10

variable {β : Type}

/-- The connection after `MmsConnection_connect`: the response to the initiate request
has been parsed and released. -/
def MmsConnection.connect : MmsConnection β where
  lastInvokeId := 0
  outstandingCalls := List.replicate outstandingCallsMax 0
  responseInvokeId := 0
  lastResponseError := .none
  associationState := .connected
  payload := .initiateResponse
  receiveBufferMutex := 1
  caller := .idle
  receiver := .waiting
  trace := []

/-- The first entry `a` of a table becomes `b`: `addToOutstandingCalls` replaces a free
entry, which is 0, and `removeFromOutstandingCalls` frees the entry of a call
(mms_client_connection.c:246–281). -/
def replaceFirst (a b : ℕ) : List ℕ → List ℕ
  | [] => []
  | c :: calls => if c = a then b :: calls else c :: replaceFirst a b calls

def addToOutstandingCalls (calls : List ℕ) (invokeId : ℕ) : List ℕ := replaceFirst 0 invokeId calls

def removeFromOutstandingCalls (calls : List ℕ) (invokeId : ℕ) : List ℕ :=
  replaceFirst invokeId 0 calls

/-- `getNextInvokeId` (mms_client_connection.c:214–225). -/
def getNextInvokeId (lastInvokeId : ℕ) : ℕ := (lastInvokeId + 1) % 2 ^ 32

namespace MmsConnection

/-- The beginning of a call, as in `MmsConnection_readVariable`
(mms_client_connection.c:1146–1162). -/
def call (s : MmsConnection β) : MmsConnection β :=
  match s.associationState with
  | .closed => { s with trace := s.trace ++ [.refused] }
  | .connected =>
    let invokeId := getNextInvokeId s.lastInvokeId
    { s with lastInvokeId := invokeId, caller := .begun invokeId,
             trace := s.trace ++ [.called invokeId] }

/-- The next access of the link's thread: `sendRequestAndWaitForResponse`, the look at the
error and the response, `releaseResponse`, and the look at the state of the association
(mms_client_connection.c:284–343, 1162–1178). -/
def callerStep (s : MmsConnection β) : Except Unit (MmsConnection β) :=
  match s.caller with
  | .idle => .error ()
  | .begun id =>
    .ok { s with outstandingCalls := addToOutstandingCalls s.outstandingCalls id,
                 caller := .added id }
  | .added id => .ok { s with caller := .waiting id }
  | .waiting id =>
    if s.associationState = .closed then .ok { s with caller := .ended id false }
    else if s.responseInvokeId = id then .ok { s with caller := .ended id true }
    else .ok s
  | .ended id answered =>
    .ok { s with outstandingCalls := removeFromOutstandingCalls s.outstandingCalls id,
                 caller := .removed id answered }
  | .removed id answered => .ok { s with caller := .checked id answered s.lastResponseError }
  | .checked id answered e =>
    .ok { s with caller := .parsed id e (if e = .none ∧ answered then s.payload.body else none) }
  | .parsed id e v =>
    .ok { s with responseInvokeId := 0, lastResponseError := .none, caller := .reset id e v }
  | .reset id e v =>
    .ok { s with receiveBufferMutex := s.receiveBufferMutex + 1, caller := .released id e v }
  | .released id e v =>
    let e := if s.associationState = .closed then .connectionLost else e
    .ok { s with caller := .idle, trace := s.trace ++ [.returned id e v] }

/-- The time of a call is over (mms_client_connection.c:300–325). -/
def expire (s : MmsConnection β) : Except Unit (MmsConnection β) :=
  match s.caller with
  | .waiting id => .ok { s with lastResponseError := .serviceTimeout, caller := .ended id false }
  | _ => .error ()

/-- `mmsIsoCallback` up to the check for an outstanding call. -/
def mmsIsoCallback (s : MmsConnection β) : MmsConnection β :=
  let s : MmsConnection β := { s with trace := s.trace ++ [.received s.payload] }
  match s.payload.reply with
  | some (id, e) =>
    if id ∈ s.outstandingCalls then { s with receiver := .blocked id e }
    else { s with receiveBufferMutex := s.receiveBufferMutex + 1, receiver := .waiting }
  | none =>
    if s.payload.released then { s with receiveBufferMutex := s.receiveBufferMutex + 1,
                                        receiver := .waiting }
    else { s with receiver := .waiting }

/-- What the handling thread does after it has looked at a PDU: a reply to an outstanding call
is handed over; any other PDU is done with, and the receive buffer is released or not. -/
inductive Looked (s : MmsConnection β) : ℕ → Receiver → Prop
  | replies {id : ℕ} {e : Option MmsError} (hreply : s.payload.reply = some (id, e))
      (hmem : id ∈ s.outstandingCalls) : Looked s s.receiveBufferMutex (.blocked id e)
  | releases : Looked s (s.receiveBufferMutex + 1) .waiting
  | keeps : Looked s s.receiveBufferMutex .waiting

theorem mmsIsoCallback_cases (s : MmsConnection β) : ∃ n r, Looked s n r ∧ s.mmsIsoCallback =
    { s with receiveBufferMutex := n, receiver := r,
             trace := s.trace ++ [.received s.payload] } := by
  unfold mmsIsoCallback
  dsimp only
  split
  · rename_i id e hreply
    split_ifs with hmem
    · exact ⟨_, _, .replies hreply hmem, rfl⟩
    · exact ⟨_, _, .releases, rfl⟩
  · split_ifs
    · exact ⟨_, _, .releases, rfl⟩
    · exact ⟨_, _, .keeps, rfl⟩

/-- The next access of the connection handling thread. -/
def receiverStep (s : MmsConnection β) : Except Unit (MmsConnection β) :=
  match s.receiver with
  | .waiting =>
    if 0 < s.receiveBufferMutex then
      .ok { s with receiveBufferMutex := s.receiveBufferMutex - 1, receiver := .reading }
    else .error ()
  | .reading => .error ()
  | .handling => .ok s.mmsIsoCallback
  | .blocked id e =>
    if s.responseInvokeId = 0 then .ok { s with receiver := .storing id e } else .ok s
  | .storing id e =>
    .ok { s with responseInvokeId := id, lastResponseError := e.getD s.lastResponseError,
                 receiver := .waiting }
  | .closed => .error ()

/-- A PDU is read into the receive buffer. -/
def arrive (s : MmsConnection β) (pdu : MmsPdu β) : Except Unit (MmsConnection β) :=
  match s.receiver with
  | .reading => .ok { s with payload := pdu, receiver := .handling }
  | _ => .error ()

/-- The connection is lost or closed (iso_client_connection.c:158–170). -/
def lose (s : MmsConnection β) : Except Unit (MmsConnection β) :=
  match s.receiver with
  | .reading =>
    .ok { s with
      associationState := .closed, receiveBufferMutex :=
        s.receiveBufferMutex + 1, receiver := .closed }
  | _ => .error ()

end MmsConnection

/-! ## Events -/

inductive MmsEvent (β : Type)
  | call
  | caller
  | expire
  | receiver
  | arrive (pdu : MmsPdu β)
  | lose

/-- One event; an error when it cannot happen. -/
def mmsStep (s : MmsConnection β) : MmsEvent β → Except Unit (MmsConnection β)
  | .call =>
    match s.caller with
    | .idle => .ok s.call
    | _ => .error ()
  | .caller => s.callerStep
  | .expire => s.expire
  | .receiver => s.receiverStep
  | .arrive pdu => s.arrive pdu
  | .lose => s.lose

/-! ## What a call was answered with -/

/-- The PDU was looked at after the call with this invoke id had begun. -/
def Received (trace : List (TraceEntry β)) (id : ℕ) (pdu : MmsPdu β) : Prop :=
  ∃ before after, trace = before ++ .called id :: after ∧ .received pdu ∈ after

/-- A reply to the call arrived after the call had begun. -/
def Replied (trace : List (TraceEntry β)) (id : ℕ) : Prop :=
  ∃ pdu, Received trace id pdu ∧ ∃ e, pdu.reply = some (id, e)

theorem Received.append {trace : List (TraceEntry β)} {id : ℕ} {pdu : MmsPdu β}
    (h : Received trace id pdu) (more : List (TraceEntry β)) : Received (trace ++ more) id pdu := by
  obtain ⟨before, after, rfl, hmem⟩ := h
  exact ⟨before, after ++ more, by simp, List.mem_append_left _ hmem⟩

theorem Replied.append {trace : List (TraceEntry β)} {id : ℕ} (h : Replied trace id)
    (more : List (TraceEntry β)) : Replied (trace ++ more) id := by
  obtain ⟨pdu, hpdu, e, he⟩ := h
  exact ⟨pdu, hpdu.append more, e, he⟩

theorem received_concat {trace : List (TraceEntry β)} {id : ℕ} (h : TraceEntry.called id ∈ trace)
    (pdu : MmsPdu β) : Received (trace ++ [.received pdu]) id pdu := by
  obtain ⟨before, after, rfl⟩ := List.append_of_mem h
  exact ⟨before, after ++ [.received pdu], by simp, by simp⟩

/-! ## The invariant -/

namespace Caller

/-- The call that is made. -/
def current : Caller β → Option ℕ
  | .idle => none
  | .begun id => some id
  | .added id => some id
  | .waiting id => some id
  | .ended id _ => some id
  | .removed id _ => some id
  | .checked id _ _ => some id
  | .parsed id _ _ => some id
  | .reset id _ _ => some id
  | .released id _ _ => some id

/-- The call that is in the table. -/
def outstanding : Caller β → Option ℕ
  | .added id => some id
  | .waiting id => some id
  | .ended id _ => some id
  | _ => none

/-- The call that has found its own id. -/
def answered : Caller β → Option ℕ
  | .ended id true => some id
  | .removed id true => some id
  | .checked id true _ => some id
  | _ => none

/-- The call with the error and the value that it will return. -/
def result : Caller β → Option (ℕ × MmsError × Option β)
  | .parsed id e v => some (id, e, v)
  | .reset id e v => some (id, e, v)
  | .released id e v => some (id, e, v)
  | _ => none

/-- The error that a call without an answer has noted. -/
def noted (last : MmsError) : Caller β → Option MmsError
  | .ended _ false => some last
  | .removed _ false => some last
  | .checked _ false e => some e
  | _ => none

end Caller

theorem Caller.current_of_outstanding {c : Caller β} {id : ℕ} (h : c.outstanding = some id) :
    c.current = some id := by
  cases c <;> simp_all [outstanding, current]

/-- What a call without an answer has noted is the last error, or does not depend on it. -/
theorem Caller.noted_cases {c : Caller β} {last e : MmsError} (h : c.noted last = some e) :
    e = last ∨ ∀ last', c.noted last' = some e := by
  cases c with
  | ended id answered => cases answered <;> simp_all [noted]
  | removed id answered => cases answered <;> simp_all [noted]
  | checked id answered e' => cases answered <;> simp_all [noted]
  | _ => cases h

/-- The reply that is handed over. -/
def Receiver.pending : Receiver → Option (ℕ × Option MmsError)
  | .blocked id e => some (id, e)
  | .storing id e => some (id, e)
  | _ => none

/-- The table with at most one call in it. -/
def callTable : Option ℕ → List ℕ
  | none => List.replicate outstandingCallsMax 0
  | some id => id :: List.replicate (outstandingCallsMax - 1) 0

theorem addToOutstandingCalls_callTable (id : ℕ) :
    addToOutstandingCalls (callTable none) id = callTable (some id) := rfl

theorem removeFromOutstandingCalls_callTable (id : ℕ) :
    removeFromOutstandingCalls (callTable (some id)) id = callTable none := by
  simp [removeFromOutstandingCalls, callTable, replaceFirst, outstandingCallsMax, List.replicate]

theorem mem_callTable {k : ℕ} {id : Option ℕ} (h : k ∈ callTable id) : k = 0 ∨ id = some k := by
  cases id with
  | none => exact .inl (List.eq_of_mem_replicate h)
  | some id =>
    rcases List.mem_cons.1 h with rfl | h
    · exact .inr rfl
    · exact .inl (List.eq_of_mem_replicate h)

/-- The invariant of every run, whatever arrives and whenever the time of a call is over. -/
structure MmsConnection.Inv (s : MmsConnection β) : Prop where
  room : s.lastInvokeId < 2 ^ 32
  table : s.outstandingCalls = callTable s.caller.outstanding
  current : ∀ id, s.caller.current = some id → id = s.lastInvokeId ∧ 0 < id ∧ .called id ∈ s.trace
  pending : ∀ id e, s.receiver.pending = some (id, e) → id ≤ s.lastInvokeId ∧
    (s.caller.current = some id → Replied s.trace id)
  response : s.responseInvokeId ≤ s.lastInvokeId ∧
    (s.caller.current = some s.responseInvokeId → Replied s.trace s.responseInvokeId)
  storing : ∀ id e, s.receiver = .storing id e → s.responseInvokeId = 0
  carried : ∀ id e, s.receiver.pending = some (id, e) → e ≠ some .none
  answered : ∀ id, s.caller.answered = some id → Replied s.trace id
  noted : ∀ e, s.caller.noted s.lastResponseError = some e → e ≠ .none ∨
    s.associationState = .closed
  result : ∀ id e v, s.caller.result = some (id, e, v) →
    e ≠ .none ∨ s.associationState = .closed ∨ Replied s.trace id

namespace MmsConnection

theorem inv_connect : Inv (connect : MmsConnection β) where
  room := Nat.two_pow_pos 32
  table := rfl
  current id h := by cases h
  pending id e h := by cases h
  response := ⟨le_rfl, fun h => by cases h⟩
  storing id e h := by cases h
  carried id e h := by cases h
  answered id h := by cases h
  noted e h := by cases h
  result id e v h := by cases h

namespace Inv

variable {s s' : MmsConnection β}

theorem call (h : Inv s) (hidle : s.caller = .idle) (hroom : s.lastInvokeId + 1 < 2 ^ 32) :
    Inv s.call := by
  cases hstate : s.associationState with
  | closed =>
    have heq : s.call = { s with trace := s.trace ++ [.refused] } := by
      rw [MmsConnection.call, hstate]
    rw [heq]
    exact ⟨h.room, h.table,
      fun id hid =>
        ⟨(h.current id hid).1, (h.current id hid).2.1, by simp [(h.current id hid).2.2]⟩,
      fun id e hp => ⟨(h.pending id e hp).1, fun hid => ((h.pending id e hp).2 hid).append _⟩,
      ⟨h.response.1, fun hid => (h.response.2 hid).append _⟩, h.storing, h.carried,
      fun id ha => (h.answered id ha).append _, h.noted,
      fun id e v hr => (h.result id e v hr).imp_right (Or.imp_right fun hrep => hrep.append _)⟩
  | connected =>
    have hnext : getNextInvokeId s.lastInvokeId = s.lastInvokeId + 1 := Nat.mod_eq_of_lt hroom
    have heq : s.call = { s with
        lastInvokeId := s.lastInvokeId + 1, caller := .begun (s.lastInvokeId + 1),
        trace := s.trace ++ [.called (s.lastInvokeId + 1)] } := by
      rw [MmsConnection.call, hstate]
      dsimp only
      rw [hnext]
    -- No reply that is there is for the new call: its id is greater.
    rw [heq]
    refine ⟨hroom, ?_, ?_, ?_, ⟨?_, ?_⟩, h.storing, h.carried, ?_, ?_, ?_⟩
    · rw [show s.outstandingCalls = _ from h.table, hidle]
      rfl
    · rintro id ⟨⟩
      exact ⟨rfl, Nat.succ_pos _, by simp⟩
    · intro id e hp
      have hle := (h.pending id e hp).1
      refine ⟨Nat.le_succ_of_le hle, ?_⟩
      rintro ⟨⟩
      exact absurd hle (by omega)
    · exact Nat.le_succ_of_le h.response.1
    · intro hid
      have hle := h.response.1
      exact absurd (Option.some.inj hid) (by dsimp only; omega)
    · rintro id ⟨⟩
    · rintro e ⟨⟩
    · rintro id e v ⟨⟩

theorem callerStep (h : Inv s) (hs : s.callerStep = .ok s') : Inv s' := by
  obtain ⟨hroom, htable, hcurrent, hpending, hresponse, hstoring, hcarried, hanswered, hnoted,
      hresult⟩ := h
  unfold MmsConnection.callerStep at hs
  cases hc : s.caller with
  | idle =>
    rw [hc] at hs
    cases hs
  | begun id =>
    rw [hc] at hs hcurrent hpending hresponse htable
    cases hs
    refine ⟨hroom, ?_, hcurrent, hpending, hresponse, hstoring, hcarried, ?_, ?_, ?_⟩
    · exact (congrArg (addToOutstandingCalls · id) htable).trans
        (addToOutstandingCalls_callTable id)
    · rintro id ⟨⟩
    · rintro e ⟨⟩
    · rintro id e v ⟨⟩
  | added id =>
    rw [hc] at hs hcurrent hpending hresponse htable
    cases hs
    refine ⟨hroom, htable, hcurrent, hpending, hresponse, hstoring, hcarried, ?_, ?_, ?_⟩
    · rintro id ⟨⟩
    · rintro e ⟨⟩
    · rintro id e v ⟨⟩
  | waiting id =>
    rw [hc] at hs hcurrent hpending hresponse htable
    dsimp only at hs
    split_ifs at hs with hclosed hid
    · cases hs
      refine ⟨hroom, htable, hcurrent, hpending, hresponse, hstoring, hcarried, ?_,
        fun _ _ => .inr hclosed, ?_⟩
      · rintro id ⟨⟩
      · rintro id e v ⟨⟩
    · cases hs
      refine ⟨hroom, htable, hcurrent, hpending, hresponse, hstoring, hcarried, ?_, ?_, ?_⟩
      · rintro id' ⟨⟩
        exact hid ▸ hresponse.2 (congrArg some hid.symm)
      · rintro e ⟨⟩
      · rintro id e v ⟨⟩
    · cases hs
      rw [← hc] at hcurrent hpending hresponse htable
      exact ⟨hroom, htable, hcurrent, hpending, hresponse, hstoring, hcarried, hanswered,
        hnoted, hresult⟩
  | ended id answered =>
    rw [hc] at hs hcurrent hpending hresponse htable hanswered hnoted
    cases hs
    refine ⟨hroom, ?_, hcurrent, hpending, hresponse, hstoring, hcarried, ?_, ?_, ?_⟩
    · exact (congrArg (removeFromOutstandingCalls · id) htable).trans
        (removeFromOutstandingCalls_callTable id)
    · cases answered <;> exact hanswered
    · cases answered <;> exact hnoted
    · rintro id e v ⟨⟩
  | removed id answered =>
    rw [hc] at hs hcurrent hpending hresponse htable hanswered hnoted
    cases hs
    refine ⟨hroom, htable, hcurrent, hpending, hresponse, hstoring, hcarried, ?_, ?_, ?_⟩
    · cases answered <;> exact hanswered
    · cases answered <;> exact hnoted
    · rintro id e v ⟨⟩
  | checked id answered e =>
    rw [hc] at hs hcurrent hpending hresponse htable hanswered hnoted
    cases hs
    refine ⟨hroom, htable, hcurrent, hpending, hresponse, hstoring, hcarried, ?_, ?_, ?_⟩
    · rintro id ⟨⟩
    · rintro e ⟨⟩
    · rintro id' e' v ⟨⟩
      cases answered with
      | false => exact (hnoted e rfl).imp_right .inl
      | true => exact .inr (.inr (hanswered id rfl))
  | parsed id e v =>
    rw [hc] at hs hcurrent hpending hresponse htable hresult
    cases hs
    refine ⟨hroom, htable, hcurrent, hpending, ⟨Nat.zero_le _, ?_⟩, fun _ _ _ => rfl, hcarried, ?_,
      ?_, hresult⟩
    · intro hid
      exact absurd (hcurrent 0 hid).2.1 (lt_irrefl 0)
    · rintro id ⟨⟩
    · rintro e ⟨⟩
  | reset id e v =>
    rw [hc] at hs hcurrent hpending hresponse htable hresult
    cases hs
    refine ⟨hroom, htable, hcurrent, hpending, hresponse, hstoring, hcarried, ?_, ?_, hresult⟩
    · rintro id ⟨⟩
    · rintro e ⟨⟩
  | released id e v =>
    rw [hc] at hs htable
    cases hs
    refine ⟨hroom, htable, ?_, ?_, ⟨hresponse.1, ?_⟩, hstoring, hcarried, ?_, ?_, ?_⟩
    · rintro id ⟨⟩
    · exact fun id e hp => ⟨(hpending id e hp).1, fun hid => by cases hid⟩
    · rintro ⟨⟩
    · rintro id ⟨⟩
    · rintro e ⟨⟩
    · rintro id e v ⟨⟩

theorem expire (h : Inv s) (hs : s.expire = .ok s') : Inv s' := by
  obtain ⟨hroom, htable, hcurrent, hpending, hresponse, hstoring, hcarried, hanswered, hnoted,
      hresult⟩ := h
  unfold MmsConnection.expire at hs
  split at hs
  · rename_i id hc
    rw [hc] at hcurrent hpending hresponse htable
    cases hs
    refine ⟨hroom, htable, hcurrent, hpending, hresponse, hstoring, hcarried, ?_, ?_, ?_⟩
    · rintro id ⟨⟩
    · rintro e ⟨⟩
      exact .inl (show MmsError.serviceTimeout ≠ .none by decide)
    · rintro id e v ⟨⟩
  · cases hs

theorem mmsIsoCallback (h : Inv s) : Inv s.mmsIsoCallback := by
  obtain ⟨hroom, htable, hcurrent, hpending, hresponse, hstoring, hcarried, hanswered, hnoted,
      hresult⟩ := h
  obtain ⟨n, r, hlooked, heq⟩ := s.mmsIsoCallback_cases
  -- The PDU is noted in the trace; only a reply with an id in the table is handed over.
  have hnew (id : ℕ) (e : Option MmsError) (hp : r.pending = some (id, e)) : id ≤ s.lastInvokeId ∧
      e ≠ some .none ∧
      (s.caller.current = some id → Replied (s.trace ++ [.received s.payload]) id) := by
    cases hlooked with
    | replies hreply hmem =>
      cases hp
      rw [htable] at hmem
      refine ⟨?_, MmsPdu.reply_ne_none hreply,
        fun hid => ⟨s.payload, received_concat (hcurrent id hid).2.2 _, e, hreply⟩⟩
      rcases mem_callTable hmem with rfl | hout
      · exact Nat.zero_le _
      · exact (hcurrent id (Caller.current_of_outstanding hout)).1.le
    | releases => cases hp
    | keeps => cases hp
  have hnostore (id : ℕ) (e : Option MmsError) (hs : r = .storing id e) :
      s.responseInvokeId = 0 := by
    subst hs
    cases hlooked
  rw [heq]
  exact ⟨hroom, htable,
    fun id hid => ⟨(hcurrent id hid).1, (hcurrent id hid).2.1, by simp [(hcurrent id hid).2.2]⟩,
    fun id e hp => ⟨(hnew id e hp).1, (hnew id e hp).2.2⟩,
    ⟨hresponse.1, fun hid => (hresponse.2 hid).append _⟩, hnostore, fun id e hp =>
      (hnew id e hp).2.1,
    fun id ha => (hanswered id ha).append _, hnoted,
    fun id e v hres => (hresult id e v hres).imp_right (Or.imp_right fun hrep => hrep.append _)⟩

theorem receiverStep (h : Inv s) (hs : s.receiverStep = .ok s') : Inv s' := by
  cases hr : s.receiver with
  | handling =>
    rw [MmsConnection.receiverStep, hr] at hs
    cases hs
    exact h.mmsIsoCallback
  | waiting =>
    obtain ⟨hroom, htable, hcurrent, hpending, hresponse, hstoring, hcarried, hanswered, hnoted,
        hresult⟩ := h
    rw [MmsConnection.receiverStep, hr] at hs
    dsimp only at hs
    split_ifs at hs
    cases hs
    refine ⟨hroom, htable, hcurrent, ?_, hresponse, ?_, ?_, hanswered, hnoted, hresult⟩
    · rintro id e ⟨⟩
    · rintro id e ⟨⟩
    · rintro id e ⟨⟩
  | reading =>
    rw [MmsConnection.receiverStep, hr] at hs
    cases hs
  | blocked id e =>
    rw [MmsConnection.receiverStep, hr] at hs
    dsimp only at hs
    split_ifs at hs with hzero
    · obtain ⟨hroom, htable, hcurrent, hpending, hresponse, hstoring, hcarried, hanswered, hnoted,
          hresult⟩ := h
      rw [hr] at hpending hcarried
      cases hs
      exact ⟨hroom, htable, hcurrent, hpending, hresponse, fun _ _ _ => hzero, hcarried, hanswered,
        hnoted, hresult⟩
    · cases hs
      exact h
  | storing id e =>
    obtain ⟨hroom, htable, hcurrent, hpending, hresponse, hstoring, hcarried, hanswered, hnoted,
        hresult⟩ := h
    rw [MmsConnection.receiverStep, hr] at hs
    rw [hr] at hpending hcarried
    cases hs
    refine ⟨hroom, htable, hcurrent, ?_, hpending id e rfl, ?_, ?_, hanswered, ?_, hresult⟩
    · rintro id e ⟨⟩
    · rintro id e ⟨⟩
    · rintro id e ⟨⟩
    · -- A call without an answer notes the error that the reply carries.
      cases e with
      | none => exact hnoted
      | some e =>
        intro e' he'
        rcases Caller.noted_cases he' with hlast | hnone
        · exact .inl fun hnone => hcarried id (some e) rfl (congrArg some (hlast.symm.trans hnone))
        · exact hnoted e' (hnone _)
  | closed =>
    rw [MmsConnection.receiverStep, hr] at hs
    cases hs

theorem arrive (h : Inv s) {pdu : MmsPdu β} (hs : s.arrive pdu = .ok s') : Inv s' := by
  obtain ⟨hroom, htable, hcurrent, hpending, hresponse, hstoring, hcarried, hanswered, hnoted,
      hresult⟩ := h
  unfold MmsConnection.arrive at hs
  split at hs
  · cases hs
    refine ⟨hroom, htable, hcurrent, ?_, hresponse, ?_, ?_, hanswered, hnoted, hresult⟩
    · rintro id e ⟨⟩
    · rintro id e ⟨⟩
    · rintro id e ⟨⟩
  · cases hs

theorem lose (h : Inv s) (hs : s.lose = .ok s') : Inv s' := by
  obtain ⟨hroom, htable, hcurrent, hpending, hresponse, hstoring, hcarried, hanswered, hnoted,
      hresult⟩ := h
  unfold MmsConnection.lose at hs
  split at hs
  · cases hs
    refine ⟨hroom, htable, hcurrent, ?_, hresponse, ?_, ?_, hanswered, fun _ _ => .inr rfl,
      fun _ _ _ _ => .inr (.inl rfl)⟩
    · rintro id e ⟨⟩
    · rintro id e ⟨⟩
    · rintro id e ⟨⟩
  · cases hs

/-- Every event keeps the invariant; a call needs an invoke id that was not used. -/
theorem step (h : Inv s) {e : MmsEvent β} (hroom : e = .call → s.lastInvokeId + 1 < 2 ^ 32)
    (hs : mmsStep s e = .ok s') : Inv s' := by
  cases e with
  | call =>
    unfold mmsStep at hs
    dsimp only at hs
    split at hs
    · rename_i hidle
      cases hs
      exact h.call hidle (hroom rfl)
    · cases hs
  | caller => exact h.callerStep hs
  | expire => exact h.expire hs
  | receiver => exact h.receiverStep hs
  | arrive pdu => exact h.arrive hs
  | lose => exact h.lose hs

end Inv

end MmsConnection

end DslinkIec61850
