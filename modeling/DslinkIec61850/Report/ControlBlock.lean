import DslinkIec61850.Value.MmsValue
import DslinkIec61850.Lib.Strings

/-!
# The client's copy of a report control block

`ClientReportControlBlock` (client_report_control.c) keeps the values last read
or set for the attributes of an RCB. Only the attributes that the link reads or
sets are kept; an attribute never read is `none`.

What a read leaves in a block is in `Report.Contents` (`updateValues_content`).
-/

namespace DslinkIec61850

/-- `struct sClientReportControlBlock`. -/
structure ClientReportControlBlock where
  objectReference : Str
  isBuffered : Bool
  rptId : Option MmsValue
  rptEna : Option MmsValue
  datSet : Option MmsValue
  confRev : Option MmsValue
  optFlds : Option MmsValue
  bufTm : Option MmsValue
  trgOps : Option MmsValue
  intgPd : Option MmsValue

namespace ClientReportControlBlock

/-- `isBufferedRcb` (client_report_control.c:34–46). -/
def isBufferedRcb (objectReference : Str) : Bool :=
  match (Strings.cut '.' objectReference).2 with
  | some ('B' :: _) => true
  | _ => false

/-- `ClientReportControlBlock_create`. -/
def create (objectReference : Str) : ClientReportControlBlock :=
  { objectReference := objectReference, isBuffered := isBufferedRcb objectReference,
    rptId := none, rptEna := none, datSet := none, confRev := none, optFlds := none,
    bufTm := none, trgOps := none, intgPd := none }

/-! ## Getters and setters -/

/-- The text of a string attribute. -/
def textOf (v : Option MmsValue) : Option Str := v.bind MmsValue.toString

/-- A string attribute set to a text that may be `NULL`. -/
def setText (v : Option MmsValue) (text : Option Str) : Option MmsValue :=
  match v with
  | none => some (.visibleString text)
  | some v => some (v.setVisibleString text)

/-- A `uint32_t` attribute set to a number. -/
def setNumber (v : Option MmsValue) (n : ℕ) : Option MmsValue :=
  match v with
  | none => some (MmsValue.newUnsignedFromUint32 n)
  | some v => some (v.setUint32 n)

/-- `ClientReportControlBlock_getRptId`. -/
def getRptId (self : ClientReportControlBlock) : Option Str := textOf self.rptId

/-- `ClientReportControlBlock_setRptId`. -/
def setRptId (self : ClientReportControlBlock) (rptId : Option Str) : ClientReportControlBlock :=
  { self with rptId := setText self.rptId rptId }

/-- `ClientReportControlBlock_getRptEna`. -/
def getRptEna (self : ClientReportControlBlock) : Bool :=
  (self.rptEna.map MmsValue.getBoolean).getD false

/-- `ClientReportControlBlock_setRptEna`. -/
def setRptEna (self : ClientReportControlBlock) (rptEna : Bool) : ClientReportControlBlock :=
  { self with
    rptEna := match self.rptEna with
      | none => some (.boolean rptEna)
      | some v => some (v.setBoolean rptEna) }

/-- `ClientReportControlBlock_getDataSetReference`. -/
def getDataSetReference (self : ClientReportControlBlock) : Option Str := textOf self.datSet

/-- `ClientReportControlBlock_setDataSetReference`. -/
def setDataSetReference (self : ClientReportControlBlock) (dataSetReference : Option Str) :
    ClientReportControlBlock :=
  { self with datSet := setText self.datSet dataSetReference }

/-- `ClientReportControlBlock_getConfRev`. -/
def getConfRev (self : ClientReportControlBlock) : ℕ := (self.confRev.map MmsValue.toUint32).getD 0

/-- `ClientReportControlBlock_getBufTm`. -/
def getBufTm (self : ClientReportControlBlock) : ℕ := (self.bufTm.map MmsValue.toUint32).getD 0

/-- `ClientReportControlBlock_setBufTm`. -/
def setBufTm (self : ClientReportControlBlock) (bufTm : ℕ) : ClientReportControlBlock :=
  { self with bufTm := setNumber self.bufTm bufTm }

/-- `ClientReportControlBlock_getIntgPd`. -/
def getIntgPd (self : ClientReportControlBlock) : ℕ := (self.intgPd.map MmsValue.toUint32).getD 0

/-- `ClientReportControlBlock_setIntgPd`. -/
def setIntgPd (self : ClientReportControlBlock) (intgPd : ℕ) : ClientReportControlBlock :=
  { self with intgPd := setNumber self.intgPd intgPd }

/-- `ClientReportControlBlock_getOptFlds`; the bit string is read without a
test for `NULL`. -/
def getOptFlds (self : ClientReportControlBlock) : Except Fault ℕ :=
  match self.optFlds with
  | some (.bitString bits) => (MmsValue.getBitStringAsInteger bits).map (· / 2)
  | some _ => .error .outOfBounds
  | none => .error .nullDereference

/-- `ClientReportControlBlock_setOptFlds`. -/
def setOptFlds (self : ClientReportControlBlock) (optFlds : ℕ) : ClientReportControlBlock :=
  { self with
    optFlds := match self.optFlds with
      | none => some (.bitString (MmsValue.bitsOf 10 (optFlds * 2)))
      | some (.bitString bits) => some (.bitString (MmsValue.bitsOf bits.length (optFlds * 2)))
      | some v => some v }

/-- `ClientReportControlBlock_getTrgOps`: bits 1 to 5 are data change, quality
change, data update, integrity and GI. -/
def getTrgOps (self : ClientReportControlBlock) : ℕ :=
  match self.trgOps with
  | none => 0
  | some v =>
    (v.getBitStringBit 1).toNat * 1 + (v.getBitStringBit 2).toNat * 2 +
      (v.getBitStringBit 3).toNat * 4 + (v.getBitStringBit 4).toNat * 8 +
      (v.getBitStringBit 5).toNat * 16

/-- `ClientReportControlBlock_setTrgOps`. -/
def setTrgOps (self : ClientReportControlBlock) (trgOps : ℕ) : ClientReportControlBlock :=
  { self with
    trgOps := match self.trgOps with
      | none => some (.bitString (MmsValue.bitsOf 6 (trgOps * 2)))
      | some (.bitString bits) => some (.bitString (MmsValue.bitsOf bits.length (trgOps * 2)))
      | some v => some v }

/-! ## Reading back -/

/-- `updateOrClone` (client_report_control.c:361–368); a missing element is a
`NULL` that is cloned or updated from. -/
def updateOrClone (v : Option MmsValue) (values : List MmsValue) (index : ℕ) :
    Except Fault (Option MmsValue) :=
  match values[index]? with
  | none => .error .nullDereference
  | some new => .ok (some (match v with | some old => old.update new | none => new))

/-- `private_ClientReportControlBlock_updateValues`
(client_report_control.c:370–424). -/
def updateValues (self : ClientReportControlBlock) (values : List MmsValue) :
    Except Fault ClientReportControlBlock := do
  -- an unbuffered block has `Resv` between `RptEna` and `DatSet`
  let shift := if self.isBuffered then 0 else 1
  let rptId ← updateOrClone self.rptId values 0
  let rptEna ← updateOrClone self.rptEna values 1
  let datSet ← updateOrClone self.datSet values (2 + shift)
  let confRev ← updateOrClone self.confRev values (3 + shift)
  let optFlds ← updateOrClone self.optFlds values (4 + shift)
  let bufTm ← updateOrClone self.bufTm values (5 + shift)
  let trgOps ← updateOrClone self.trgOps values (7 + shift)
  let intgPd ← updateOrClone self.intgPd values (8 + shift)
  -- the last mandatory attribute is `TimeOfEntry` or `GI`
  if values.length ≤ (if self.isBuffered then 12 else 10) then throw .nullDereference
  return { self with rptId := rptId, rptEna := rptEna, datSet := datSet, confRev := confRev,
                     optFlds := optFlds, bufTm := bufTm, trgOps := trgOps, intgPd := intgPd }

/-! ## Flags as text -/

/-- The names of the flags that are set, each followed by a comma. -/
def flagNames (flags : List (ℕ × Str)) (v : ℕ) : Str :=
  (flags.filter fun f => v.testBit f.1).flatMap fun f => f.2 ++ [',']

/-- `"NONE"`, or the names without the last comma; the last byte is overwritten
even when no name was written. -/
def flagsText (flags : List (ℕ × Str)) (v : ℕ) : Except Fault Str :=
  if v = 0 then .ok "NONE".toList
  else if flagNames flags v = [] then .error .outOfBounds
  else .ok (flagNames flags v).dropLast

/-- `getRCBOptFldsString` (report_handler.c:98–122). -/
def getRCBOptFldsString : ℕ → Except Fault Str :=
  flagsText [(0, "SEQ_NUM".toList), (5, "BUFFER_OVERFLOW".toList), (7, "CONF_REV".toList),
    (4, "DATA_REFERENCE".toList), (3, "DATA_SET".toList), (6, "ENTRY_ID".toList),
    (2, "REASON_FOR_INCLUSION".toList), (1, "TIME_STAMP".toList)]

/-- `getRCBTrgOpsString` (report_handler.c:124–142). -/
def getRCBTrgOpsString : ℕ → Except Fault Str :=
  flagsText [(0, "DATA_CHANGED".toList), (2, "DATA_UPDATE".toList), (4, "GI".toList),
    (3, "INTEGRITY".toList), (1, "QUALITY_CHANGED".toList)]

end ClientReportControlBlock

end DslinkIec61850
