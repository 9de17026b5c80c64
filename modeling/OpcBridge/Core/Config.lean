import OpcBridge.Core.Value
import Mathlib.Data.List.Nodup

/-!
# Connections and tags

The configuration records, the runtime record of a tag with its precomputed scaling, and the links
between tags: a generated array element is served by its root (`pollSource`), a derived bit or
alias by its source (`sourceTag`).
-/

namespace OpcBridge

variable [Floats]

/-! ## Configuration -/

structure ConnectionConfig where
  id : String
  /-- Display name; the id is the runtime key. -/
  name : String := ""
  driver : String
  gateway : String := ""
  path : String := ""
  plcType : String := ""
  enabled : Bool := true
  pollingMode : String := "standard"
  pollingPacing : String := "balanced"
  pollActiveOnly : Bool := true
  pollActiveOnlyConfigured : Bool := false
  pollBatchSize : Nat := 0
  pollTimeBudgetMs : Nat := 0
  pollMaxReadsPerSec : Nat := 0
  pollLanes : Nat := 1
  slot : Int := 0
  defaultTimeoutMs : Int := 1000
  defaultReadMs : Int := 1000
  defaultWriteMs : Int := 1000
  startupHandleWaitMs : Nat := 0
  debug : Int := 0
  mqttSubscriptionTopics : List String := []
  mqttPublicationTopics : List String := []
  opcuaEndpoint : String := ""
  opcuaUsername : String := ""
  opcuaPassword : String := ""
  opcuaSecure : Bool := false
  opcuaSecurityProfile : String := ""
  opcuaClientCertificate : String := ""
  opcuaClientPrivateKey : String := ""
  opcuaTrustedServerCertificate : String := ""
  opcuaApplicationUri : String := ""
deriving DecidableEq

/-- A tag as `load_tag_file` leaves it: tags without a name are skipped there. -/
structure TagConfig where
  logicalName : String
  logicalName_ne : logicalName ≠ "" := by decide
  plcTagName : String := ""
  /-- A path of its own; empty for that of the connection. -/
  path : String := ""
  /-- `"plc"`, `"memory"` or `"derived"`. -/
  sourceType : String := "plc"
  initialValue : String := ""
  datatype : String
  wordOrder : String := "hi_lo"
  elemCount : Nat := 1
  scanMs : Int := 1000
  enabled : Bool := true
  writable : Bool := false
  invert : Bool := false
  /-- Logical name of the source of a derived tag. -/
  sourceTag : String := ""
  /-- Bit of the source, `none` for an alias. -/
  bit : Option Nat := none
  scaling : String := "none"
  rawLow : F64 := Floats.ofInt 0
  rawHigh : F64 := Floats.ofInt 1
  scaledLow : F64 := Floats.ofInt 0
  scaledHigh : F64 := Floats.ofInt 1
  clampLow : Bool := false
  clampHigh : Bool := false
  scaledDatatype : String := ""
  logEventOnChange : Bool := false
  logPeriodic : Bool := false
  logPeriodicMode : String := ""
  logPeriodicIntervalSec : Int := 0
  logHourlyMinute : Int := 0
  logDailyHour : Int := 0
  logDailyMinute : Int := 0
deriving DecidableEq

def isMemoryTag (cfg : TagConfig) : Bool := toLowerCopy (trimCopy cfg.sourceType) == "memory"

def isMemoryConnectionId (connId : String) : Bool := trimCopy connId == "_memory"

def isModbusDriverName (driver : String) : Bool :=
  let d := toLowerCopy (trimCopy driver)
  d == "modbus_tcp" || d == "modbus-tcp"

def isModbusConnection (conn : ConnectionConfig) : Bool := isModbusDriverName conn.driver

/-! ## Runtime tags -/

structure TagRuntime where
  /-- Generated array elements are served by this root handle. -/
  pollSource : String := ""
  cfg : TagConfig
  scalingLinear : Bool := false
  scaleSlope : F64 := Floats.ofInt 1
  scaleOffset : F64 := Floats.ofInt 0
  invSlope : F64 := Floats.ofInt 1
  invOffset : F64 := Floats.ofInt 0
  /-- Published datatype. -/
  outDatatype : String := ""
  /-- The handle of the PLC library; a negative one is an error code. -/
  handle : Int := 0
  /-- The handle is opened by the poller. -/
  handleDeferred : Bool := false
  periodicEnabled : Bool := false
deriving DecidableEq

namespace TagRuntime

def name (tag : TagRuntime) : String := tag.cfg.logicalName

/-- The tag this one is computed from: `poll_source.empty() ? source_tag : poll_source`. -/
def parent (tag : TagRuntime) : Option String :=
  if tag.pollSource ≠ "" then some tag.pollSource
  else if tag.cfg.sourceTag ≠ "" then some tag.cfg.sourceTag
  else none

/-- A root that serves a whole array row. -/
def isArrayRow (tag : TagRuntime) : Bool := decide (1 < tag.cfg.elemCount) && tag.pollSource == ""

end TagRuntime

def initTagScaling (rt : TagRuntime) : TagRuntime :=
  let none := { rt with
    scalingLinear := false, scaleSlope := Floats.ofInt 1, scaleOffset := Floats.ofInt 0,
    invSlope := Floats.ofInt 1, invOffset := Floats.ofInt 0, outDatatype := rt.cfg.datatype }
  let mode := toLowerCopy rt.cfg.scaling
  if mode = "" ∨ mode = "none" then none
  else if mode ≠ "linear" then { none with cfg := { rt.cfg with scaling := "none" } }
  else if !isNumericDatatype rt.cfg.datatype then none
  else
    let rawSpan := Floats.sub rt.cfg.rawHigh rt.cfg.rawLow
    let scaledSpan := Floats.sub rt.cfg.scaledHigh rt.cfg.scaledLow
    if Floats.eq rawSpan (Floats.ofInt 0) || Floats.eq scaledSpan (Floats.ofInt 0) then none
    else
      let slope := Floats.div scaledSpan rawSpan
      let invSlope := Floats.div rawSpan scaledSpan
      let outDt := normalizeScaledDatatype rt.cfg.scaledDatatype
      { rt with
        scalingLinear := true
        scaleSlope := slope
        scaleOffset := Floats.sub rt.cfg.scaledLow (Floats.mul rt.cfg.rawLow slope)
        invSlope := invSlope
        invOffset := Floats.sub rt.cfg.rawLow (Floats.mul rt.cfg.scaledLow invSlope)
        outDatatype := if outDt = "" then "float64" else outDt }

@[simp] theorem initTagScaling_name (rt : TagRuntime) : (initTagScaling rt).name = rt.name := by
  unfold initTagScaling
  dsimp only
  split_ifs <;> rfl

@[simp] theorem initTagScaling_pollSource (rt : TagRuntime) :
    (initTagScaling rt).pollSource = rt.pollSource := by
  unfold initTagScaling
  dsimp only
  split_ifs <;> rfl

/-! ## Array elements -/

def splitModbusPlcTagName (name : String) : Option (String × Nat) :=
  match trimChars name.toList with
  | c :: d :: rest =>
    let prefixText := String.ofList [lowerChar c, lowerChar d]
    if prefixText ∉ ["hr", "ir", "co", "di"] ∨ rest = [] ∨ ¬ rest.all isDigit then none
    else if digitsVal rest ≤ 2147483647 then some (prefixText, digitsVal rest) else none
  | _ => none

def modbusRegisterSpanForDatatype (datatype : String) : Nat :=
  if datatype = "int32" ∨ datatype = "uint32" ∨ datatype = "float32" then 2
  else if datatype = "float64" then 4
  else 1

def buildArrayElementPlcTagName (conn : ConnectionConfig) (tag : TagConfig) (i : Nat) : String :=
  match if isModbusConnection conn then splitModbusPlcTagName tag.plcTagName else none with
  | some (prefixText, offset) =>
    prefixText ++ toString (offset + i * modbusRegisterSpanForDatatype tag.datatype)
  | none => tag.plcTagName ++ "[" ++ toString i ++ "]"

/-- The logical name of a generated element. -/
def elementName (root : String) (i : Nat) : String := root ++ "[" ++ toString i ++ "]"

omit [Floats] in
theorem elementName_inj {root : String} {i j : Nat} :
    elementName root i = elementName root j ↔ i = j := by
  refine ⟨fun h => ?_, fun h => h ▸ rfl⟩
  have hs : toString i = toString j := by simpa [elementName] using h
  rw [Nat.toString_eq_ofList_toDigits, Nat.toString_eq_ofList_toDigits] at hs
  have hd : Nat.toDigits 10 i = Nat.toDigits 10 j := by simpa using congrArg String.toList hs
  rw [← @Nat.ofDigitChars_ten_toDigits i, hd, Nat.ofDigitChars_ten_toDigits]

omit [Floats] in
theorem elementName_ne (root : String) (i : Nat) : elementName root i ≠ "" := by
  intro h
  have := congrArg String.toList h
  simp [elementName] at this

omit [Floats] in
theorem elementName_ne_root (root : String) (i : Nat) : elementName root i ≠ root := by
  intro h
  have hlength := congrArg (fun s => s.toList.length) h
  simp [elementName] at hlength

end OpcBridge
