import DslinkIec61850.Link.State
import DslinkIec61850.Sdk.Reference
import DslinkIec61850.Value.Iso8601

/-!
# Reading and writing data attributes

The actions below a `Value` node (client_handler.c:342–646): a read publishes
the value that the server returns, a write converts the JSON parameter to an MMS
value by the type of the attribute and reads the attribute back.

* `published_utcTime_roundTrip`: writing back a published time stamp.
* `utcTime_write_iff`: which texts are written as the instant they spell.
-/

namespace DslinkIec61850

open DSLink Iso8601 Run

/-! ## Publishing -/

/-- The text of a bit string: the bits separated by commas (client_handler.c:371–399).
The last byte written is at index `2 * 0 - 1` for the empty bit string. -/
def bitStringText (bits : List Bool) : Except Fault Str :=
  if bits = [] then .error .outOfBounds
  else .ok (bits.flatMap fun b => [if b then '1' else '0', ',']).dropLast

/-- The JSON value that `setValueNodeFromMMS` shows: `none` for a type it does
not show, `some none` for a `NULL` string and a `float` that is not finite. -/
def shownValue : MmsValue → Except Fault (Option (Option Json))
  | .integer v => .ok (some (some (.integer v.toInt64)))
  | .unsigned v => .ok (some (some (.integer v.toInt64)))
  | .boolean b => .ok (some (some (.boolean b)))
  | .visibleString buf => .ok (some (buf.map .string))
  | .string buf => .ok (some (buf.map .string))
  | .utcTime v => .ok (some (some (.string (getUtcTimeString (MmsValue.getUtcTimeInMs v)))))
  | .bitString bits => (bitStringText bits).map fun s => some (some (.string s))
  | .float v => .ok (some (Json.ofFloat v.toFloat))
  | _ => .ok none

/-- A `float` is shown as a number of 32 bits, or as nothing. -/
theorem shownValue_float (v : MmsFloat) : ∃ x, Floating.single.Holds x ∧
    shownValue (.float v) = .ok (some (Json.ofFloat x)) :=
  ⟨v.toFloat, v.holds_toFloat, rfl⟩

/-- Of a 64-bit value the nearest number of 32 bits is shown. -/
theorem shownValue_float64 {x : ℚ} {holds : Floating.double.Holds (.finite x)} {json : Json}
    (h : shownValue (.float (.float64 (.finite x) holds)) = .ok (some (some json))) :
    ∃ r, json = .real r ∧ ∀ y, Floating.single.Grid y → |x - r| ≤ |x - y| := by
  have hshown : Json.ofFloat (MmsFloat.float64 (.finite x) holds).toFloat = some json :=
    Option.some.inj (Except.ok.inj h)
  cases hfloat : (MmsFloat.float64 (.finite x) holds).toFloat with
  | finite r =>
    rw [hfloat] at hshown
    cases hshown
    exact ⟨r, rfl, fun y hy => MmsFloat.toFloat_nearest hfloat hy⟩
  | infinite negative =>
    rw [hfloat] at hshown
    cases hshown
  | nan =>
    rw [hfloat] at hshown
    cases hshown

/-- A number of 32 bits is shown as it is, also where it was reported with 64 bits. -/
theorem shownValue_float_of_holds {x : ℚ} (h : Floating.single.Holds (.finite x))
    (holds : Floating.double.Holds (.finite x)) :
    shownValue (.float (.float64 (.finite x) holds)) = .ok (some (some (.real x))) ∧
      shownValue (.float (.newFloat (.finite x))) = .ok (some (some (.real x))) := by
  constructor
  · rw [shownValue, MmsFloat.toFloat_of_holds h]
    rfl
  · rw [shownValue, MmsFloat.toFloat_newFloat, Floating.single.convert_of_holds h]
    rfl

variable {σ W : Type} [DSLink σ]

/-- `setValueNodeFromMMS` (client_handler.c:342–408); the type of a `NULL` value
is read without a test. -/
def setValueNodeFromMMS (t : σ) (valNode : Path) (mmsVal : Option MmsValue) : Except Fault σ :=
  match mmsVal with
  | none => .error .nullDereference
  | some v => do
    match ← shownValue v with
    | none => return t
    | some json => return setValue t valNode json

/-- The texts of the `FC` and `Object` children of a data attribute. -/
def attributeOf (t : σ) (da : Path) : Option (Option Str × Option Str) :=
  match child t da "FC".toList, child t da "Object".toList with
  | some fcNode, some refNode =>
    some (Json.stringValue (valueOf t fcNode), Json.stringValue (valueOf t refNode))
  | _, _ => none

theorem attributeOf_shown {t : σ} {da : Path} {type type' fcStr ref : Str}
    (hfc : lookup t (da ++ ["FC".toList]) = some (.shown type (.string fcStr)))
    (href : lookup t (da ++ ["Object".toList]) = some (.shown type' (.string ref))) :
    attributeOf t da = some (some fcStr, some ref) := by
  unfold attributeOf child
  simp only [hfc, href, Option.isSome_some, if_true, valueOf]
  rfl

/-- A pointer that is used without a test for `NULL`. -/
def deref {α : Type} : Option α → Except Fault α
  | some a => .ok a
  | none => .error .nullDereference

@[simp] theorem deref_eq_ok {α : Type} {o : Option α} {a : α} : deref o = .ok a ↔ o = some a := by
  cases o <;> simp [deref]

theorem inBounds_deref {α : Type} (o : Option α) : InBounds (deref o) := by
  cases o with
  | none => exact failsOnly_error.2 (by decide)
  | some a => exact failsOnly_ok a

/-- `nodeValueRead` (client_handler.c:410–450) on a `Value` node. -/
def nodeValueRead (svc : IedService W) (s : LinkState σ W) (node : Path) :
    Except Fault (LinkState σ W) :=
  match attributeOf s.tree node.dropLast with
  | none => .ok s
  | some (fcStr, ref) => do
    let fc := FunctionalConstraint.fromString (← deref fcStr)
    match ← s.getServerIedConnection node with
    | none => return s
    | some con =>
      let ref ← deref ref
      let (value, s) := s.call fun w => svc.readObject w con ref fc
      match value with
      | none => return s
      | some v =>
        let tree ← setValueNodeFromMMS s.tree node (some v)
        return { s with tree := tree }

/-! ## Writing -/

/-- The loop of `parseBitString` (iec61850_server_defs.c:189–213) with `j` bits
stored so far. A `'1'` is refused, any other character is stored; the function
ends without a `return` when the text ends behind a comma. -/
def parseBitLoop (rawStrSize : ℕ) : ℕ → Str → Except Fault ℕ
  | _, [] => .error .noReturn
  | j, [c] => if c = '1' then .ok 0 else if rawStrSize = j + 2 then .ok rawStrSize else .ok 0
  | j, c :: d :: rest =>
    if c = '1' then .ok 0
    else if d = ',' then parseBitLoop rawStrSize (j + 1) rest
    else .ok 0

/-- `parseBitString` (iec61850_server_defs.c:184–216): the number of bits. The
buffer it allocates is assigned to its own parameter only. -/
def parseBitString (rawString : Str) : Except Fault ℕ :=
  if (rawString.length + 1) / 2 = 0 then .ok 0
  else parseBitLoop ((rawString.length + 1) / 2) 0 rawString

/-- The MMS value that `daValueWriteAction` makes of the parameter for an
attribute of a type, `none` when nothing is written (client_handler.c:511–641). -/
def valueToWrite (param : Option Json) : MmsType → Except Fault (Option MmsValue)
  | .integer => do
    let entValue ← Json.castDouble (-2 ^ 31) (2 ^ 31 - 1) (Json.numberValue param)
    return some (.newInteger32 entValue)
  | .unsigned => do
    let entValue ← Json.castDouble 0 (2 ^ 32 - 1) (Json.numberValue param)
    return some (.newUnsignedFromUint32 entValue.toNat)
  | .boolean => .ok (some (.boolean (Json.booleanValue param)))
  | .visibleString => .ok (some (.visibleString (Json.stringValue param)))
  | .string => .ok (some (.string (Json.stringValue param)))
  | .utcTime => do
    let strValue ← deref (Json.stringValue param)
    match parseIso8601 strValue with
    | none => throw .outOfBounds
    | some msTime =>
      if msTime ≠ 0 then return some (.utcTime (MmsValue.newUtcTimeByMsTime msTime))
      else return none
  | .bitString => do
    let strValue ← deref (Json.stringValue param)
    let bitStrSize ← parseBitString strValue
    -- the caller's `bitStrBuf` was never assigned
    if bitStrSize ≠ 0 then throw .uninitialised
    return none
  | .float => .ok (some (.float (MmsFloat.newFloat (.finite (Json.numberValue param)))))
  | _ => .ok none

/-- `daValueWriteAction` up to the read-back: the flag tells whether it is
reached. -/
def writeAttribute (svc : IedService W) (s : LinkState σ W) (node : Path) (params : Json) :
    Except Fault (LinkState σ W × Bool) :=
  match attributeOf s.tree node.dropLast.dropLast with
  | none => .ok (s, false)
  | some (fcStr, ref) => do
    let fc := FunctionalConstraint.fromString (← deref fcStr)
    match ← s.getServerIedConnection node with
    | none => return (s, false)
    | some con =>
      let ref ← deref ref
      let (mmsVarSpec, s) := s.call fun w => svc.getVariableSpecification w con ref fc
      match mmsVarSpec with
      | none => return (s, false)
      | some type =>
        match ← valueToWrite (params.objectGet "Value".toList) type with
        | none => return (s, true)
        | some value =>
          return ((s.send con (.writeObject ref fc value)
            fun w => svc.writeObject w con ref fc value).2, true)

/-- `daValueWriteAction` (client_handler.c:463–646) invoked on the node
`writevalue` of a `Value` node. -/
def daValueWriteAction (svc : IedService W) (s : LinkState σ W) (node : Path) (params : Json) :
    Except Fault (LinkState σ W) := do
  let (s, readBack) ← writeAttribute svc s node params
  if readBack then nodeValueRead svc s node.dropLast else return s

/-- The action writes to an attribute: its node has a constraint and a
reference, its server a connection, and the attribute has a type. -/
structure WritesTo (svc : IedService W) (s : LinkState σ W) (node : Path) (con : ConnId) (ref : Str)
    (fc : FunctionalConstraint) (type : MmsType) : Prop where
  daNode : ∃ fcStr, attributeOf s.tree node.dropLast.dropLast = some (some fcStr, some ref) ∧
    FunctionalConstraint.fromString fcStr = fc
  connection : s.getServerIedConnection node = .ok (some con)
  spec : (svc.getVariableSpecification s.world con ref fc).1 = some type

theorem writeAttribute_eq {svc : IedService W} {s : LinkState σ W} {node : Path} {con : ConnId}
    {ref : Str} {fc : FunctionalConstraint} {type : MmsType}
    (h : WritesTo svc s node con ref fc type) (params : Json) :
    (writeAttribute svc s node params).map (fun r => r.1.requests) =
      (valueToWrite (params.objectGet "Value".toList) type).map fun v =>
        s.requests ++ (v.map fun v => (con, Request.writeObject ref fc v)).toList := by
  obtain ⟨fcStr, hattr, hfc⟩ := h.daNode
  have hspec : (s.call fun w => svc.getVariableSpecification w con ref fc).1 = some type := h.spec
  simp only [writeAttribute, hattr, deref, bind, Except.bind, h.connection, hfc]
  rw [hspec]
  dsimp only
  cases valueToWrite (params.objectGet "Value".toList) type with
  | error e => rfl
  | ok v => cases v with
    | none => simp [Except.map, pure, Except.pure]
    | some v => simp [Except.map, pure, Except.pure]

/-! ## Time stamps -/

/-- The value written for a text on a time attribute. -/
theorem valueToWrite_utcTime (text : Str) :
    valueToWrite (some (.string text)) .utcTime =
      match parseIso8601 text with
      | none => .error .outOfBounds
      | some ms =>
        .ok (if ms ≠ 0 then some (.utcTime (MmsValue.newUtcTimeByMsTime ms)) else none) := by
  simp only [valueToWrite, Json.stringValue, deref, bind, Except.bind]
  cases parseIso8601 text with
  | none => rfl
  | some ms => by_cases h : ms = 0 <;> simp [h, pure, Except.pure]

/-- **Time stamps written back.** For every MMS time with `0 < ms < 2³² · 1000`
the text that is published is read as exactly `ms`, and the value written for it
decodes to `ms` and is published as the same text. -/
theorem published_utcTime_roundTrip (v : UtcTime) (h0 : 0 < MmsValue.getUtcTimeInMs v)
    (h1 : MmsValue.getUtcTimeInMs v < 2 ^ 32 * 1000) (t : σ) (valNode : Path) :
    ∃ text v', setValueNodeFromMMS t valNode (some (.utcTime v)) =
        .ok (setValue t valNode (some (.string text))) ∧
      parseIso8601 text = some (MmsValue.getUtcTimeInMs v) ∧
      valueToWrite (some (.string text)) .utcTime = .ok (some (.utcTime v')) ∧
      MmsValue.getUtcTimeInMs v' = MmsValue.getUtcTimeInMs v ∧
      shownValue (.utcTime v') = .ok (some (some (.string text))) := by
  have hparse := parseIso8601_getUtcTimeString h1.le
  have hdecode := MmsValue.getUtcTimeInMs_newUtcTimeByMsTime h1
  refine ⟨getUtcTimeString (MmsValue.getUtcTimeInMs v),
    MmsValue.newUtcTimeByMsTime (MmsValue.getUtcTimeInMs v), rfl, hparse, ?_, hdecode, ?_⟩
  · rw [valueToWrite_utcTime, hparse]
    simp [h0.ne']
  · rw [shownValue, hdecode]

/-- The time stamp of 29 February 2000, 00:00:00.123. -/
theorem published_utcTime_roundTrip_leapDay :
    ∃ text v', setValueNodeFromMMS NodeStore.empty ["srv_a".toList]
          (some (.utcTime (MmsValue.newUtcTimeByMsTime 951782400123))) =
        .ok (setValue NodeStore.empty ["srv_a".toList] (some (.string text))) ∧
      parseIso8601 text = some 951782400123 ∧
      valueToWrite (some (.string text)) .utcTime = .ok (some (.utcTime v')) ∧
      MmsValue.getUtcTimeInMs v' = 951782400123 ∧
      shownValue (.utcTime v') = .ok (some (some (.string text))) :=
  published_utcTime_roundTrip (MmsValue.newUtcTimeByMsTime 951782400123) (by decide) (by decide)
    NodeStore.empty ["srv_a".toList]

/-! ## Which texts are written as the instant they spell -/

/-- The instant lies in the range of an MMS time, `0 ≤ t < 2³²` seconds. -/
def InMmsRange (t : Civil) : Prop := 0 ≤ t.instant ∧ t.instant < 2 ^ 32 * 1000

/-- The write phase, given a text for a time attribute, runs to its end and
writes nothing, or writes a value that decodes to the instant that the text
spells. -/
def WritesSpelledInstant (svc : IedService W) (s : LinkState σ W) (node : Path)
    (text : Str) : Prop :=
  ∃ s' readBack,
    writeAttribute svc s node (.object [("Value".toList, .string text)]) = .ok (s', readBack) ∧
      (s'.requests = s.requests ∨
        ∃ t v con ref fc, Spells text t ∧ InMmsRange t ∧
          s'.requests = s.requests ++ [(con, .writeObject ref fc (.utcTime v))] ∧
          (MmsValue.getUtcTimeInMs v : ℤ) = t.instant)

/-- The scanner refuses the text, or reads the instant 0, which the handler
takes for a failure. -/
def NotWritten (text : Str) : Prop :=
  scanFields text = .error .refused ∨ ∃ f, scanFields text = .ok f ∧ f.instant % 2 ^ 64 = 0

theorem notWritten_iff (text : Str) : NotWritten text ↔ parseIso8601 text = some 0 := by
  unfold NotWritten parseIso8601
  cases hscan : scanFields text with
  | error e => cases e <;> simp
  | ok f =>
    have hnonneg : 0 ≤ f.instant % 2 ^ 64 := Int.emod_nonneg _ (by norm_num)
    simp
    omega

/-- **Texts written as time stamps.** The write keeps to the instant the text
spells exactly when nothing is written for the text, or the text spells, with
full-width fields, an existing date and time in the range of an MMS time. -/
theorem utcTime_write_iff {svc : IedService W} {s : LinkState σ W} {node : Path} {con : ConnId}
    {ref : Str} {fc : FunctionalConstraint} (h : WritesTo svc s node con ref fc .utcTime)
    (text : Str) :
    WritesSpelledInstant svc s node text ↔ NotWritten text ∨ ∃ t, Spells text t ∧ InMmsRange t := by
  have hreq := writeAttribute_eq h (.object [("Value".toList, .string text)])
  have hparam : Json.objectGet "Value".toList (.object [("Value".toList, .string text)]) =
      some (.string text) := by simp [Json.objectGet]
  rw [hparam, valueToWrite_utcTime] at hreq
  constructor
  · rintro ⟨s', readBack, hrun, hsame | ⟨t, v, con', ref', fc', hspell, hrange, -⟩⟩
    · left
      rw [notWritten_iff]
      rw [hrun] at hreq
      cases hp : parseIso8601 text with
      | none => rw [hp] at hreq; simp [Except.map] at hreq
      | some ms =>
        by_cases hms : ms = 0
        · rw [hms]
        · rw [hp] at hreq
          simp [Except.map, hms, hsame] at hreq
    · exact .inr ⟨t, hspell, hrange⟩
  · -- in both cases the text is scanned to its end, so that the write phase ends
    have hend (ms : ℕ) (hp : parseIso8601 text = some ms) :
        ∃ s' readBack, writeAttribute svc s node (.object [("Value".toList, .string text)]) =
            .ok (s', readBack) ∧
          s'.requests = s.requests ++
            ((if ms ≠ 0 then some (MmsValue.utcTime (MmsValue.newUtcTimeByMsTime ms)) else none).map
              fun v => (con, Request.writeObject ref fc v)).toList := by
      rw [hp] at hreq
      cases hrun : writeAttribute svc s node (.object [("Value".toList, .string text)]) with
      | error e => rw [hrun] at hreq; simp [Except.map] at hreq
      | ok r =>
        rw [hrun] at hreq
        exact ⟨r.1, r.2, rfl, by simpa [Except.map] using hreq⟩
    rintro (hnot | ⟨t, hspell, hrange⟩)
    · obtain ⟨s', readBack, hrun, hs'⟩ := hend 0 ((notWritten_iff text).1 hnot)
      exact ⟨s', readBack, hrun, .inl (by simpa using hs')⟩
    · have hp := parseIso8601_of_spells hspell
      obtain ⟨hlo, hhi⟩ := hrange
      have hms : ((t.instant % 2 ^ 64).toNat : ℤ) = t.instant := by omega
      obtain ⟨s', readBack, hrun, hs'⟩ := hend _ hp
      generalize (t.instant % 2 ^ 64).toNat = ms at hms hs'
      refine ⟨s', readBack, hrun, ?_⟩
      by_cases h0 : ms = 0
      · exact .inl (by simpa [h0] using hs')
      · refine .inr ⟨t, MmsValue.newUtcTimeByMsTime ms, con, ref, fc, hspell, ⟨hlo, hhi⟩,
          by simpa [h0] using hs', ?_⟩
        rw [MmsValue.getUtcTimeInMs_newUtcTimeByMsTime (by omega), hms]

/-! ## A time attribute before 1970 -/

/-- A server node with one writable time attribute. -/
def timeTree : NodeStore :=
  let attr : Path := ["srv_a".toList, "t[CF]".toList]
  let t := addChild NodeStore.empty [] "srv_a".toList .create
  let t := addChild t ["srv_a".toList] "t[CF]".toList .create
  let t := addChild t attr "FC".toList (.shown "string".toList (.string "CF".toList))
  let t := addChild t attr "Object".toList (.shown "string".toList (.string "D/L.O.t".toList))
  let t := addChild t attr "Value".toList (.shown "string".toList .null)
  addChild t (attr ++ ["Value".toList]) "writevalue".toList
    (.action "Write".toList .daValueWriteAction)

/-- The node of its write action. -/
def timeWriteNode : Path := ["srv_a".toList, "t[CF]".toList, "Value".toList, "writevalue".toList]

/-- The link with that server. -/
def timeState : LinkState NodeStore Unit :=
  { tree := timeTree,
    serverMap := [({ path := ["srv_a".toList], ident := 1 },
      { hostname := "h".toList, tcpPort := 102, iedConn := 0 })],
    connections := [], nextConn := 1, world := (), requests := [] }

/-- A server that tells the type of the attribute. -/
def timeService : IedService Unit :=
  { IedService.silent Unit with getVariableSpecification := fun w _ _ _ => (some .utcTime, w) }

theorem timeState_writesTo :
    WritesTo timeService timeState timeWriteNode 0 "D/L.O.t".toList .CF .utcTime where
  daNode := ⟨"CF".toList, rfl, rfl⟩
  connection := rfl
  spec := rfl

/-- A text whose scanned instant is outside the range of an MMS time spells no
instant inside it. -/
theorem not_spells_of_parse {text : Str} {ms : ℕ} (hp : parseIso8601 text = some ms)
    (h : 2 ^ 32 * 1000 ≤ ms) : ¬ ∃ t, Spells text t ∧ InMmsRange t := by
  rintro ⟨t, hspell, hlo, hhi⟩
  rw [parseIso8601_of_spells hspell, Option.some.injEq] at hp
  omega

/-- `2011-10-08` is written as the instant it spells. -/
theorem utcTime_write_iff_date :
    WritesSpelledInstant timeService timeState timeWriteNode "2011-10-08".toList ↔
      NotWritten "2011-10-08".toList ∨ ∃ t, Spells "2011-10-08".toList t ∧ InMmsRange t :=
  utcTime_write_iff timeState_writesTo _

/-- `1960-01-01` is scanned as a negative time and written as another instant. -/
theorem utcTime_write_1960 :
    ¬ WritesSpelledInstant timeService timeState timeWriteNode "1960-01-01".toList := by
  have hp : parseIso8601 "1960-01-01".toList = some 18446743758090351616 := by decide
  rintro ⟨s', readBack, hrun, hsame | ⟨t, v, con, ref, fc, hspell, hrange, -⟩⟩
  · have hreq := writeAttribute_eq timeState_writesTo
      (.object [("Value".toList, .string "1960-01-01".toList)])
    have hparam : Json.objectGet "Value".toList
        (.object [("Value".toList, .string "1960-01-01".toList)]) =
          some (.string "1960-01-01".toList) := rfl
    rw [hrun, hparam, valueToWrite_utcTime, hp] at hreq
    simp [Except.map, hsame] at hreq
  · exact not_spells_of_parse hp (by norm_num) ⟨t, hspell, hrange⟩

end DslinkIec61850
