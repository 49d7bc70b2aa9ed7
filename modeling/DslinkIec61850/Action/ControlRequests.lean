import DslinkIec61850.Client.Directory

/-!
# The requests of a control object

What a `ControlObjectClient` sends (client_control.c): a select reads the variable `SBO` of
the object, every other operation writes a structure to `SBOw`, `Oper` or `Cancel`. The name
of the variable is put together in an array of 65 characters. The structure carries the
control number, an octet that every select counts up, and every operation too unless the
object has to be selected before.

* `controlVariable_eq`: the variable that a request is for.
* `control_requests_run`: the requests of any run of operations.
-/

namespace DslinkIec61850

open Strings Run LogicalDevices

/-! ## The control object -/

/-- A `ControlObjectClient` (client_control.c:41–75); `analogValue` is always `NULL`. -/
structure ControlObjectClient where
  ctlModel : ControlModel
  objectReference : Str
  test : Bool
  interlockCheck : Bool
  synchroCheck : Bool
  hasTimeActivatedMode : Bool
  edition : ℕ
  hasCtlNum : Bool
  useConstantT : Bool
  constantT : ℕ
  ctlVal : MmsValue
  opertime : ℕ
  ctlNum : ℕ
  orIdent : Option (List ℕ)
  orCat : ℤ

/-- What is asked of the MMS connection. -/
inductive ControlRequest
  | read (domainId itemId : Str)
  | write (domainId itemId : Str) (value : MmsValue)

/-- `MmsValue_setBinaryTime` on six octets (mms_value.c:1600–1640). -/
def binaryTimeOctets (timestamp : ℕ) : List ℕ :=
  let mmsTime := if 441763200000 < timestamp then timestamp - 441763200000 else 0
  toOctets 4 (mmsTime % 86400000) ++ toOctets 2 (mmsTime / 86400000 % 2 ^ 16)

namespace ControlObjectClient

/-- `createOriginValue` (client_control.c:432–471). -/
def createOriginValue (self : ControlObjectClient) : MmsValue :=
  let orIdent := self.orIdent.getD []
  .struct [.newInteger32 (self.orCat.bmod (2 ^ 16)), .octetString orIdent orIdent.length]

/-- The time stamp `T`: the UTC time of edition 2 or a binary time. -/
def ctlTime (self : ControlObjectClient) (timestamp : ℕ) : MmsValue :=
  if self.edition = 2 then .utcTime (MmsValue.newUtcTimeByMsTime timestamp)
  else .binaryTime (binaryTimeOctets timestamp)

/-- The components up to the origin. -/
def leading (self : ControlObjectClient) (ctlVal : MmsValue) (operTime : ℕ) : List MmsValue :=
  [ctlVal] ++ (if self.hasTimeActivatedMode then
    [.utcTime (MmsValue.newUtcTimeByMsTime operTime)] else []) ++ [self.createOriginValue]

/-- The components of `SBOw` and `Oper` (client_control.c:485–555, 631–694). -/
def commandParameters (self : ControlObjectClient) (ctlVal : MmsValue)
    (operTime ctlNum timestamp : ℕ) : List MmsValue :=
  self.leading ctlVal operTime ++
    (if self.hasCtlNum then [.newUnsignedFromUint32 ctlNum] else []) ++
    [self.ctlTime timestamp, .boolean self.test,
      .bitString [self.synchroCheck, self.interlockCheck]]

/-- The components of `Cancel`, which has a control number in any case and no check
(client_control.c:780–822). -/
def cancelParameters (self : ControlObjectClient) (timestamp : ℕ) : List MmsValue :=
  self.leading self.ctlVal self.opertime ++
    [.newUnsignedFromUint32 self.ctlNum, self.ctlTime timestamp, .boolean self.test]

end ControlObjectClient

/-! ## Variables -/

/-- `MmsMapping_getMmsDomainFromObjectReference` (mms_mapping.c:2840–2879). -/
def getMmsDomainFromObjectReference (objectReference : Str) : Option Str :=
  if 129 < objectReference.length then none
  else
    match cut '/' objectReference with
    | (domainId, some _) => if 64 < domainId.length then none else some domainId
    | (_, none) => none

/-- `convertToMmsAndInsertFC` (client_control.c:77–109) into an array of 65 characters; a
name without a dot is read beyond its end. -/
def convertToMmsAndInsertFC (originalObjectName fc : Str) : Except Fault Str :=
  match cut '.' originalObjectName with
  | (_, none) => .error .outOfBounds
  | (ln, some rest) => do
    let newItemId := ln ++ '$' :: (fc.take 2 ++ '$' :: replace '.' '$' rest)
    storeIn (some 65) newItemId
    return newItemId

/-- The name of the variable before the suffix. Without a domain the array `domainId` stays
as it was. -/
def controlItem (objectReference : Str) : Except Fault (Str × Str) :=
  match getMmsDomainFromObjectReference objectReference with
  | none => .error .uninitialised
  | some domainId => do
    let itemId ← convertToMmsAndInsertFC (objectReference.drop (domainId.length + 1)) "CO".toList
    return (domainId, itemId)

/-- The suffix is appended with a limit that does not count what is there. -/
def controlVariable (objectReference suffix : Str) : Except Fault (Str × Str) := do
  let (domainId, itemId) ← controlItem objectReference
  storeIn (some 65) (itemId ++ suffix)
  return (domainId, itemId ++ suffix)

/-- The suffix of `Oper` is cut off where the array ends. -/
def operVariable (objectReference : Str) : Except Fault (Str × Str) := do
  let (domainId, itemId) ← controlItem objectReference
  return (domainId, itemId ++ "$Oper".toList.take (64 - itemId.length))

/-! ## Operations -/

/-- The objects that have to be selected before they are operated. -/
def ControlModel.selects : ControlModel → Bool
  | .sboNormal => true
  | .sboEnhanced => true
  | _ => false

/-- `self->ctlNum++` on an octet. -/
def nextCtlNum (ctlNum : ℕ) : ℕ := (ctlNum + 1) % 256

/-- A control object with the requests that it has sent. -/
structure ControlState where
  control : ControlObjectClient
  sent : List ControlRequest

def ControlState.send (st : ControlState) (control : ControlObjectClient)
    (request : ControlRequest) : ControlState :=
  { control := control, sent := st.sent ++ [request] }

/-- The test of the reply to a select (client_control.c:741–764): an empty text refuses it, and
so does the name of the variable itself. -/
def selectedBy (domainId itemId : Str) : Option MmsValue → Except Fault Bool
  | some (.visibleString none) => .error .nullDereference
  | some (.visibleString (some text)) =>
    .ok (text ≠ [] ∧ text ≠ (domainId ++ '/' :: itemId).take 128)
  | _ => .ok false

/-- `ControlObjectClient_select` (client_control.c:715–770). -/
def controlObjectSelect (st : ControlState) (reply : Option MmsValue) :
    Except Fault (Bool × ControlState) := do
  let (domainId, itemId) ← controlVariable st.control.objectReference "$SBO".toList
  let selected ← selectedBy domainId itemId reply
  return (selected, st.send { st.control with ctlNum := nextCtlNum st.control.ctlNum }
    (.read domainId itemId))

/-- `ControlObjectClient_selectWithValue` (client_control.c:607–713). -/
def controlObjectSelectWithValue (st : ControlState) (ctlVal : MmsValue) (time : ℕ)
    (accepted : Bool) : Except Fault (Bool × ControlState) := do
  let self := st.control
  let (domainId, itemId) ← controlVariable self.objectReference "$SBOw".toList
  let self := { self with
    ctlNum := nextCtlNum self.ctlNum
    constantT := if self.useConstantT then time else self.constantT }
  let request := ControlRequest.write domainId itemId
    (.struct (self.commandParameters ctlVal 0 self.ctlNum time))
  return (accepted, st.send
    (if accepted then { self with ctlVal := self.ctlVal.update ctlVal } else self) request)

/-- `ControlObjectClient_operate` (client_control.c:473–605). -/
def controlObjectOperate (st : ControlState) (ctlVal : MmsValue) (operTime time : ℕ)
    (accepted : Bool) : Except Fault (Bool × ControlState) := do
  let self := st.control
  let self := if self.ctlModel.selects then self else { self with ctlNum := nextCtlNum self.ctlNum }
  let timestamp := if self.ctlModel = .sboEnhanced ∧ self.useConstantT then self.constantT else time
  let self := if self.useConstantT then { self with constantT := timestamp } else self
  let (domainId, itemId) ← operVariable self.objectReference
  let request := ControlRequest.write domainId itemId
    (.struct (self.commandParameters ctlVal operTime self.ctlNum timestamp))
  return (accepted, st.send
    (if accepted then { self with ctlVal := self.ctlVal.update ctlVal, opertime := operTime }
      else self) request)

/-- `ControlObjectClient_cancel` (client_control.c:772–847). -/
def controlObjectCancel (st : ControlState) (time : ℕ) (accepted : Bool) :
    Except Fault (Bool × ControlState) := do
  let self := st.control
  let timestamp := if self.useConstantT then self.constantT else time
  let (domainId, itemId) ← controlVariable self.objectReference "$Cancel".toList
  return (accepted, st.send self
    (.write domainId itemId (.struct (self.cancelParameters timestamp))))

/-- An operation with the time at which it is called and the reply of the IED. -/
inductive ControlOperation
  | select (reply : Option MmsValue)
  | selectWithValue (ctlVal : MmsValue) (time : ℕ) (accepted : Bool)
  | operate (ctlVal : MmsValue) (operTime time : ℕ) (accepted : Bool)
  | cancel (time : ℕ) (accepted : Bool)
  | setOrigin (orIdent : Option (List ℕ)) (orCat : ℤ)
  | setInterlockCheck (value : Bool)
  | setSynchroCheck (value : Bool)
  | useConstantT (value : Bool)

/-- One operation. -/
def controlStep (st : ControlState) : ControlOperation → Except Fault ControlState
  | .select reply => do return (← controlObjectSelect st reply).2
  | .selectWithValue ctlVal time accepted =>
    do return (← controlObjectSelectWithValue st ctlVal time accepted).2
  | .operate ctlVal operTime time accepted =>
    do return (← controlObjectOperate st ctlVal operTime time accepted).2
  | .cancel time accepted => do return (← controlObjectCancel st time accepted).2
  | .setOrigin orIdent orCat =>
    .ok { st with control := { st.control with orIdent := orIdent, orCat := orCat } }
  | .setInterlockCheck value =>
    .ok { st with control := { st.control with interlockCheck := value } }
  | .setSynchroCheck value => .ok { st with control := { st.control with synchroCheck := value } }
  | .useConstantT value => .ok { st with control := { st.control with useConstantT := value } }

/-! ## The variables of an object -/

/-- The parts of a reference can be told apart. -/
structure PlainObject (ld ln n : Str) (ns : List Str) : Prop where
  ld : '/' ∉ ld
  ln : '.' ∉ ln
  names : ∀ x ∈ n :: ns, '.' ∉ x

/-- The variable of an object that has the name `x` below the constraint CO. -/
def controlName (ln n : Str) (ns : List Str) (x : String) : Str :=
  mmsName ln ("CO".toList :: n :: ns ++ [x.toList])

variable {ld ln n : Str} {ns : List Str}

theorem controlName_eq (ln n : Str) (ns : List Str) (x : String) :
    controlName ln n ns x = mmsName ln ("CO".toList :: n :: ns) ++ '$' :: x.toList := by
  simp [controlName, mmsName, prefixed_append]

theorem controlItem_eq (hplain : PlainObject ld ln n ns) {d i : Str}
    (h : controlItem (objectRef ld ln (n :: ns)) = .ok (d, i)) :
    d = ld ∧ i = mmsName ln ("CO".toList :: n :: ns) ∧ i.length < 65 := by
  obtain ⟨hslash, hdot⟩ := objectRef_cut n ns hplain.ld hplain.ln
  unfold controlItem at h
  cases hdomain : getMmsDomainFromObjectReference (objectRef ld ln (n :: ns)) with
  | none =>
    rw [hdomain] at h
    cases h
  | some domainId =>
    rw [hdomain] at h
    obtain rfl : ld = domainId := by
      unfold getMmsDomainFromObjectReference at hdomain
      rw [hslash] at hdomain
      dsimp only at hdomain
      split_ifs at hdomain
      exact Option.some.inj hdomain
    have hrest : (objectRef ld ln (n :: ns)).drop (ld.length + 1) = ln ++
        prefixed '.' (n :: ns) := by
      rw [objectRef]
      simp
    obtain ⟨itemId, hitem, h⟩ := bind_eq_ok.1 h
    cases h
    rw [hrest, convertToMmsAndInsertFC, hdot] at hitem
    obtain ⟨_, hstore, hitem⟩ := bind_eq_ok.1 hitem
    cases hitem
    refine ⟨rfl, ?_, fitsIn_some.1 (storeIn_eq_ok.1 hstore)⟩
    have hn : '.' ∉ n := hplain.names n List.mem_cons_self
    have hns := replace_prefixed fun m hm => hplain.names m (List.mem_cons_of_mem _ hm)
    rw [replace_append, replace_of_not_mem hn, hns]
    rfl

/-- A variable that fits into the array is the one of the object. -/
theorem controlVariable_eq (hplain : PlainObject ld ln n ns) {x : String} {d i : Str}
    (h : controlVariable (objectRef ld ln (n :: ns)) ('$' :: x.toList) = .ok (d, i)) :
    d = ld ∧ i = controlName ln n ns x := by
  unfold controlVariable at h
  obtain ⟨⟨d', i'⟩, hitem, h⟩ := bind_eq_ok.1 h
  obtain ⟨rfl, rfl, -⟩ := controlItem_eq hplain hitem
  obtain ⟨_, -, h⟩ := bind_eq_ok.1 h
  cases h
  exact ⟨rfl, (controlName_eq ln n ns x).symm⟩

/-- The name of `Oper` is cut off after 64 characters. -/
theorem operVariable_eq (hplain : PlainObject ld ln n ns) {d i : Str}
    (h : operVariable (objectRef ld ln (n :: ns)) = .ok (d, i)) :
    d = ld ∧ i = (controlName ln n ns "Oper").take 64 := by
  unfold operVariable at h
  obtain ⟨⟨d', i'⟩, hitem, h⟩ := bind_eq_ok.1 h
  obtain ⟨rfl, rfl, hlength⟩ := controlItem_eq hplain hitem
  cases h
  refine ⟨rfl, ?_⟩
  have htake := List.take_of_length_le (Nat.le_of_lt_succ hlength)
  rw [controlName_eq, List.take_append, htake]
  rfl

/-! ## Runs -/

namespace ControlOperation

/-- The operations that send a request. -/
def sends : ControlOperation → Bool
  | .select _ => true
  | .selectWithValue _ _ _ => true
  | .operate _ _ _ _ => true
  | .cancel _ _ => true
  | _ => false

/-- The operations that begin a command: the selects, and an operate without a select. -/
def begins (ctlModel : ControlModel) : ControlOperation → Bool
  | .select _ => true
  | .selectWithValue _ _ _ => true
  | .operate _ _ _ _ => !ctlModel.selects
  | _ => false

end ControlOperation

/-- Where the control number stands in a structure. -/
def ControlObjectClient.ctlNumIndex (self : ControlObjectClient) : ℕ :=
  if self.hasTimeActivatedMode then 3 else 2

/-- The structure has the value first and the control number in its place, if it has one. -/
def Numbered (control : ControlObjectClient) (v : MmsValue) (ctlNum : ℕ)
    (params : List MmsValue) : Prop :=
  params[0]? = some v ∧
    (control.hasCtlNum = true → params[control.ctlNumIndex]? = some (.newUnsignedFromUint32 ctlNum))

/-- What an operation asks for: its own variable of the object, and the control number. -/
def AsksFor (control : ControlObjectClient) (ld ln n : Str) (ns : List Str) (ctlNum : ℕ) :
    ControlOperation → ControlRequest → Prop
  | .select _, r => r = .read ld (controlName ln n ns "SBO")
  | .selectWithValue v _ _, r =>
      ∃ params, r = .write ld (controlName ln n ns "SBOw") (.struct params) ∧
      Numbered control v ctlNum params
  | .operate v _ _ _, r =>
      ∃ params, r = .write ld ((controlName ln n ns "Oper").take 64) (.struct params) ∧
      Numbered control v ctlNum params
  | .cancel _ _, r => ∃ v params, r = .write ld (controlName ln n ns "Cancel") (.struct params) ∧
      Numbered control v ctlNum params
  | _, _ => False

theorem numbered_commandParameters (self : ControlObjectClient) (v : MmsValue)
    (operTime ctlNum timestamp : ℕ) :
    Numbered self v ctlNum (self.commandParameters v operTime ctlNum timestamp) := by
  refine ⟨rfl, fun hnum => ?_⟩
  unfold ControlObjectClient.commandParameters ControlObjectClient.leading
    ControlObjectClient.ctlNumIndex
  rw [if_pos hnum]
  cases self.hasTimeActivatedMode <;> rfl

theorem numbered_cancelParameters (self : ControlObjectClient) (timestamp : ℕ) :
    Numbered self self.ctlVal self.ctlNum (self.cancelParameters timestamp) := by
  refine ⟨rfl, fun _ => ?_⟩
  unfold ControlObjectClient.cancelParameters ControlObjectClient.leading
    ControlObjectClient.ctlNumIndex
  cases self.hasTimeActivatedMode <;> rfl

/-- What stays the same of a control object. -/
structure SameObject (c c' : ControlObjectClient) : Prop where
  ctlModel : c'.ctlModel = c.ctlModel
  objectReference : c'.objectReference = c.objectReference
  hasTimeActivatedMode : c'.hasTimeActivatedMode = c.hasTimeActivatedMode
  hasCtlNum : c'.hasCtlNum = c.hasCtlNum

theorem SameObject.trans {c c' c'' : ControlObjectClient} (h : SameObject c c')
    (h' : SameObject c' c'') : SameObject c c'' :=
  ⟨h'.1.trans h.1, h'.2.trans h.2, h'.3.trans h.3, h'.4.trans h.4⟩

theorem Numbered.same {c c' : ControlObjectClient} (hsame : SameObject c c') {v : MmsValue} {k : ℕ}
    {params : List MmsValue} (h : Numbered c' v k params) : Numbered c v k params := by
  unfold Numbered ControlObjectClient.ctlNumIndex at h ⊢
  rwa [hsame.hasCtlNum, hsame.hasTimeActivatedMode] at h

theorem AsksFor.same {c c' : ControlObjectClient} (hsame : SameObject c c') {k : ℕ}
    {e : ControlOperation}
    {r : ControlRequest} (h : AsksFor c' ld ln n ns k e r) : AsksFor c ld ln n ns k e r := by
  cases e with
  | select reply => exact h
  | selectWithValue v time accepted =>
    obtain ⟨params, hr, hnum⟩ := h
    exact ⟨params, hr, hnum.same hsame⟩
  | operate v operTime time accepted =>
    obtain ⟨params, hr, hnum⟩ := h
    exact ⟨params, hr, hnum.same hsame⟩
  | cancel time accepted =>
    obtain ⟨v, params, hr, hnum⟩ := h
    exact ⟨v, params, hr, hnum.same hsame⟩
  | _ => exact h

/-- What one operation does. -/
structure Operated (st st' : ControlState) (ld ln n : Str) (ns : List Str)
    (e : ControlOperation) : Prop where
  same : SameObject st.control st'.control
  ctlNum : st'.control.ctlNum =
    if e.begins st.control.ctlModel then nextCtlNum st.control.ctlNum else st.control.ctlNum
  silent : e.sends = false → st'.sent = st.sent
  sends : e.sends = true → ∃ r, st'.sent = st.sent ++ [r] ∧
    AsksFor st.control ld ln n ns st'.control.ctlNum e r

variable {st st' : ControlState}

theorem controlObjectSelect_operated (hplain : PlainObject ld ln n ns)
    (href : st.control.objectReference = objectRef ld ln (n :: ns))
    {reply : Option MmsValue} {b : Bool} (h : controlObjectSelect st reply = .ok (b, st')) :
    Operated st st' ld ln n ns (.select reply) := by
  unfold controlObjectSelect at h
  rw [href] at h
  obtain ⟨⟨d, i⟩, hvar, h⟩ := bind_eq_ok.1 h
  obtain ⟨rfl, rfl⟩ := controlVariable_eq (x := "SBO") hplain hvar
  obtain ⟨selected, -, h⟩ := bind_eq_ok.1 h
  cases h
  refine ⟨⟨rfl, rfl, rfl, rfl⟩, rfl, ?_, fun _ => ⟨_, rfl, rfl⟩⟩
  rintro ⟨⟩

theorem controlObjectSelectWithValue_operated (hplain : PlainObject ld ln n ns)
    (href : st.control.objectReference = objectRef ld ln (n :: ns)) {v : MmsValue} {time : ℕ}
    {accepted b : Bool} (h : controlObjectSelectWithValue st v time accepted = .ok (b, st')) :
    Operated st st' ld ln n ns (.selectWithValue v time accepted) := by
  unfold controlObjectSelectWithValue at h
  dsimp only at h
  obtain ⟨⟨d, i⟩, hvar, h⟩ := bind_eq_ok.1 h
  rw [href] at hvar
  obtain ⟨rfl, rfl⟩ := controlVariable_eq (x := "SBOw") hplain hvar
  cases h
  cases accepted
  all_goals
    refine ⟨⟨rfl, rfl, rfl, rfl⟩, rfl, (by rintro ⟨⟩), fun _ => ⟨_, rfl, _, rfl, ?_⟩⟩
    exact (numbered_commandParameters _ v 0 _ time).same ⟨rfl, rfl, rfl, rfl⟩

theorem controlObjectOperate_operated (hplain : PlainObject ld ln n ns)
    (href : st.control.objectReference = objectRef ld ln (n :: ns)) {v : MmsValue}
    {operTime time : ℕ} {accepted b : Bool}
    (h : controlObjectOperate st v operTime time accepted = .ok (b, st')) :
    Operated st st' ld ln n ns (.operate v operTime time accepted) := by
  unfold controlObjectOperate at h
  dsimp only at h
  -- The number is counted up first, and the time stamp is noted if it has to stay the same.
  generalize hcounted : (if st.control.ctlModel.selects = true then st.control
    else { st.control with ctlNum := nextCtlNum st.control.ctlNum }) = counted at h
  generalize htimed : (if counted.useConstantT = true then
    { counted with constantT :=
        if counted.ctlModel = ControlModel.sboEnhanced ∧
          counted.useConstantT = true then counted.constantT else time }
    else counted) = timed at h
  have hsame : SameObject st.control counted := by
    subst hcounted
    split_ifs <;> exact ⟨rfl, rfl, rfl, rfl⟩
  have hsame' : SameObject counted timed := by
    subst htimed
    split_ifs <;> exact ⟨rfl, rfl, rfl, rfl⟩
  have hnum : timed.ctlNum = if (!st.control.ctlModel.selects) =
      true then nextCtlNum st.control.ctlNum else st.control.ctlNum := by
    have heq : timed.ctlNum = counted.ctlNum := by
      subst htimed
      split_ifs <;> rfl
    rw [heq]
    subst hcounted
    cases st.control.ctlModel.selects <;> rfl
  have hall := hsame.trans hsame'
  obtain ⟨⟨d, i⟩, hvar, h⟩ := bind_eq_ok.1 h
  rw [hall.objectReference, href] at hvar
  obtain ⟨rfl, rfl⟩ := operVariable_eq hplain hvar
  cases h
  cases accepted
  all_goals
    refine ⟨hall.trans ⟨rfl, rfl, rfl, rfl⟩, hnum, (by rintro ⟨⟩), fun _ => ⟨_, rfl, _, rfl, ?_⟩⟩
    exact (numbered_commandParameters timed v operTime _ _).same hall

theorem controlObjectCancel_operated (hplain : PlainObject ld ln n ns)
    (href : st.control.objectReference = objectRef ld ln (n :: ns)) {time : ℕ} {accepted b : Bool}
    (h : controlObjectCancel st time accepted = .ok (b, st')) :
    Operated st st' ld ln n ns (.cancel time accepted) := by
  unfold controlObjectCancel at h
  dsimp only at h
  obtain ⟨⟨d, i⟩, hvar, h⟩ := bind_eq_ok.1 h
  rw [href] at hvar
  obtain ⟨rfl, rfl⟩ := controlVariable_eq (x := "Cancel") hplain hvar
  cases h
  refine ⟨⟨rfl, rfl, rfl, rfl⟩, rfl, (by rintro ⟨⟩), fun _ => ⟨_, rfl, ?_⟩⟩
  exact ⟨st.control.ctlVal, _, rfl, numbered_cancelParameters _ _⟩

/-- One operation on the object. -/
theorem controlStep_operated (hplain : PlainObject ld ln n ns)
    (href : st.control.objectReference = objectRef ld ln (n :: ns)) {e : ControlOperation}
    (h : controlStep st e = .ok st') : Operated st st' ld ln n ns e := by
  cases e with
  | select reply =>
    obtain ⟨⟨b, st₁⟩, hselect, h⟩ := bind_eq_ok.1 h
    cases h
    exact controlObjectSelect_operated hplain href hselect
  | selectWithValue v time accepted =>
    obtain ⟨⟨b, st₁⟩, hselect, h⟩ := bind_eq_ok.1 h
    cases h
    exact controlObjectSelectWithValue_operated hplain href hselect
  | operate v operTime time accepted =>
    obtain ⟨⟨b, st₁⟩, hoperate, h⟩ := bind_eq_ok.1 h
    cases h
    exact controlObjectOperate_operated hplain href hoperate
  | cancel time accepted =>
    obtain ⟨⟨b, st₁⟩, hcancel, h⟩ := bind_eq_ok.1 h
    cases h
    exact controlObjectCancel_operated hplain href hcancel
  | _ =>
    cases h
    exact ⟨⟨rfl, rfl, rfl, rfl⟩, rfl, fun _ => rfl, by rintro ⟨⟩⟩

/-- **Control requests.** In every run of operations on a control object, whatever the IED
replies, the requests go to the variables of this object, one for each operation that sends
one, and carry the number of the commands that have begun, modulo 256: an `Oper` of an object
that has to be selected carries the number of its select. -/
theorem control_requests_run (hplain : PlainObject ld ln n ns)
    {control : ControlObjectClient} (href : control.objectReference = objectRef ld ln (n :: ns))
    (hnum : control.ctlNum < 256)
    {run : List ControlOperation} (h : run.foldlM controlStep ⟨control, []⟩ = .ok st) :
    st.sent.length = run.countP ControlOperation.sends ∧ Each (fun done e => e.sends = true →
      ∃ r, st.sent[done.countP ControlOperation.sends]? = some r ∧ AsksFor control ld ln n ns
        ((control.ctlNum + (done ++ [e]).countP (ControlOperation.begins control.ctlModel)) % 256) e
          r) run := by
  have hall := foldlM_progress (I := fun done st => SameObject control st.control ∧
    st.control.ctlNum = (control.ctlNum + done.countP (ControlOperation.begins control.ctlModel)) %
      256 ∧
    st.sent.length = done.countP ControlOperation.sends ∧ Each (fun done e => e.sends = true →
      ∃ r, st.sent[done.countP ControlOperation.sends]? = some r ∧ AsksFor control ld ln n ns
        ((control.ctlNum + (done ++ [e]).countP (ControlOperation.begins control.ctlModel)) % 256) e
          r) done) ?_ ?_ h
  · exact hall.2.2
  · exact ⟨⟨rfl, rfl, rfl, rfl⟩, (Nat.mod_eq_of_lt hnum).symm, rfl, each_nil⟩
  · rintro done e rest - st st' ⟨hsame, hctlNum, hlength, heach⟩ hs
    have hoperated := controlStep_operated hplain (hsame.objectReference.trans href) hs
    have hnext : st'.control.ctlNum =
        (control.ctlNum + (done ++ [e]).countP (ControlOperation.begins control.ctlModel)) %
          256 := by
      rw [hoperated.ctlNum, hsame.ctlModel, List.countP_append, List.countP_singleton]
      split_ifs
      · rw [hctlNum, nextCtlNum]
        omega
      · rw [hctlNum, Nat.add_zero]
    have hcount : (done ++ [e]).countP ControlOperation.sends =
        done.countP ControlOperation.sends + if e.sends then 1 else 0 := by
      rw [List.countP_append, List.countP_singleton]
    obtain ⟨more, hsent⟩ : ∃ more, st'.sent = st.sent ++ more := by
      cases hsends : e.sends with
      | false => exact ⟨[], by rw [hoperated.silent hsends, List.append_nil]⟩
      | true =>
        obtain ⟨r, hr, -⟩ := hoperated.sends hsends
        exact ⟨[r], hr⟩
    refine ⟨hsame.trans hoperated.same, hnext, ?_, each_concat.2 ⟨?_, fun hsends => ?_⟩⟩
    · rw [hcount]
      cases hsends : e.sends with
      | false => rw [hoperated.silent hsends, hlength]; rfl
      | true =>
        obtain ⟨r, hr, -⟩ := hoperated.sends hsends
        rw [hr, List.length_append, hlength]
        rfl
    · refine heach.mono fun before e' he' hsends => ?_
      obtain ⟨r, hr, hasks⟩ := he' hsends
      refine ⟨r, ?_, hasks⟩
      rw [hsent, List.getElem?_append_left (List.getElem?_eq_some_iff.1 hr).1]
      exact hr
    · obtain ⟨r, hr, hasks⟩ := hoperated.sends hsends
      refine ⟨r, ?_, hnext ▸ hasks.same hsame⟩
      rw [hr, ← hlength, List.getElem?_concat_length]

/-- An object of edition 2 that has to be selected with the value. -/
def switchControl : ControlObjectClient where
  ctlModel := .sboEnhanced
  objectReference := "L/XCBR1.Pos".toList
  test := false
  interlockCheck := false
  synchroCheck := false
  hasTimeActivatedMode := false
  edition := 2
  hasCtlNum := true
  useConstantT := false
  constantT := 0
  ctlVal := .boolean false
  opertime := 0
  ctlNum := 255
  orIdent := none
  orCat := 0

/-- The number of the select goes round to 0, and the operate carries it too. -/
theorem control_requests_run_select :
    ∃ st params, [ControlOperation.selectWithValue (.boolean true) 1000 true,
      .operate (.boolean true) 0 2000 true].foldlM
        controlStep ⟨switchControl, []⟩ = .ok st ∧
      st.sent[1]? = some (.write "L".toList "XCBR1$CO$Pos$Oper".toList (.struct params)) ∧
      params[2]? = some (.newUnsignedFromUint32 0) := by
  have hplain : PlainObject "L".toList "XCBR1".toList "Pos".toList [] :=
    ⟨by decide, by decide, by decide⟩
  have hrun := control_requests_run hplain rfl (by decide)
    (show [ControlOperation.selectWithValue (.boolean true) 1000 true,
      .operate (.boolean true) 0 2000 true].foldlM controlStep ⟨switchControl, []⟩ = .ok _ from rfl)
  obtain ⟨r, hr, params, rfl, -, hnum⟩ :=
    hrun.2 [.selectWithValue (.boolean true) 1000 true] _ [] rfl rfl
  exact ⟨_, params, rfl, hr, hnum rfl⟩

end DslinkIec61850
