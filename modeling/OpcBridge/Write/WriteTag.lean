import OpcBridge.Core.Snapshot
import OpcBridge.Ua.Node

/-!
# Writing a tag

`write_tag_by_name`: a derived alias passes the text on to its source, through the inverse of its
scaling where it has one; every other tag converts the text itself. What the PLC, a remote server
and the MQTT topics answer is `WriteIo`. A result says what the write has left in each tag on the
way. The call of an alias for its source is bounded by `fuel`: aliases in a circle never return.
-/

namespace OpcBridge

/-- `operator<<` of a C++ stream for the float types. -/
class FloatText [Floats] where
  print32 : F32 → String
  print64 : F64 → String

variable [Floats]

/-! ## Text -/

def tagValueToString [FloatText] : TagValue → String
  | .bool b => if b then "1" else "0"
  | .int16 n => toString n.toInt
  | .int32 n => toString n.toInt
  | .uint16 n => toString n.toNat
  | .uint32 n => toString n.toNat
  | .float32 x => FloatText.print32 x
  | .float64 x => FloatText.print64 x
  | .string s => s

/-- A converted text goes to the setter of the handle; `status` is its answer. -/
def setConverted (status : Option String) (what : String) (v : Option TagValue) :
    Except String TagValue :=
  match v with
  | none => .error ("Error parsing value: " ++ what)
  | some v =>
    match status with
    | some err => .error err
    | none => .ok v

/-- The value set in the handle. -/
def plcSetValueFromString (dt text : String) (status : Option String) : Except String TagValue :=
  if dt = "float32" then setConverted status "stof" ((Floats.stof text).map .float32)
  else if dt = "float64" then setConverted status "stod" ((Floats.stod text).map .float64)
  else if dt = "int32" then
    setConverted status "stol" ((stol text).map fun n => .int32 (Int32.ofInt n))
  else if dt = "uint32" then
    setConverted status "stoul" ((stoul text).map fun n => .uint32 (UInt32.ofNat n))
  else if dt = "int16" then
    setConverted status "stoi" ((stoi text).map fun n => .int16 (Int16.ofInt n))
  else if dt = "uint16" then
    setConverted status "stoul" ((stoul text).map fun n => .uint16 (UInt16.ofNat n))
  else if dt = "bool" then
    match parseBool text with
    | none => .error "Cannot parse value as bool"
    | some b => setConverted status "" (some (.bool b))
  else if dt = "string" then setConverted status "" (some (.string text))
  else .error ("Unsupported datatype '" ++ dt ++ "'")

theorem setConverted_ok {status : Option String} {what : String} {v : Option TagValue}
    {w : TagValue} (h : setConverted status what v = .ok w) : v = some w := by
  unfold setConverted at h
  split at h
  · cases h
  · split at h
    · cases h
    · cases h
      rfl

/-- The setter has the conversions of `parseStringToTagvalue`. -/
theorem plcSetValueFromString_ok {dt text : String} {status : Option String} {v : TagValue}
    (h : plcSetValueFromString dt text status = .ok v) :
    parseStringToTagvalue text dt = some v := by
  unfold plcSetValueFromString at h
  split_ifs at h with h1 h2 h3 h4 h5 h6 h7 h8
  iterate 6
    · subst dt
      exact setConverted_ok h
  · subst dt
    split at h
    · cases h
    · rename_i b hb
      obtain rfl := Option.some.inj (setConverted_ok h)
      show (parseBool text).map _ = _
      rw [hb]
      rfl
  · subst dt
    exact setConverted_ok h

/-! ## The inverse of the scaling -/

/-- `std::max` and `std::min` with the configured ends, and the inverse line. -/
def TagRuntime.rawNumber (tag : TagRuntime) (scaled : F64) : F64 :=
  let scaled := if tag.cfg.clampLow then fmax scaled tag.cfg.scaledLow else scaled
  let scaled := if tag.cfg.clampHigh then fmin scaled tag.cfg.scaledHigh else scaled
  Floats.add (Floats.mul scaled tag.invSlope) tag.invOffset

/-- The number of a text without the blanks around it; `none` is an empty text, otherwise the error
is what the exception says. -/
def scaledNumber (text : String) : Except (Option String) F64 :=
  if trimCopy text = "" then .error none
  else
    match Floats.stod (trimCopy text) with
    | none => .error (some "stod")
    | some x => .ok x

/-! ## The write -/

/-- What the world outside answers to the write of a tag; `none` is success. -/
structure WriteIo where
  /-- The MQTT topics of the connection take the name. -/
  publishes : String → Bool
  /-- The text of the handle, its creation and its first read. -/
  prepare : String → Option String
  setStatus : String → Option String
  plcWrite : String → Option String
  remoteWrite : String → Option String
  /-- The read, change, write and read of the word under a derived bit. -/
  writeBit : String → Bool → Except String Bool

/-- What a write leaves: the value of a tag, or that of an alias over what its source got. An alias
whose own datatype does not take the text gets no value. -/
inductive WriteTrace [Floats]
  | direct (name : String) (value : TagValue)
  | through (name : String) (value : Option TagValue) (source : WriteTrace)
deriving DecidableEq

def WriteTrace.value : WriteTrace → Option TagValue
  | direct _ v => some v
  | through _ v _ => v

/-- A tag as the write finds it: a configured one, or a bit of a name `source.bit`. -/
def findForWrite (driver : DriverContext) (name : String) : Option TagRuntime :=
  match driver.find name with
  | some tag => some tag
  | none =>
    match parseBitQualifiedSourceName name with
    | none => none
    | some (source, bit) =>
      if h : name = "" then none
      else some { cfg :=
        { logicalName := name, logicalName_ne := h, datatype := "bool", sourceType := "derived",
          enabled := true, writable := true, sourceTag := source, bit := some bit } }

/-- The array that serves an element with the datatype of the array. -/
def parentArray (driver : DriverContext) (tag : TagRuntime) : Option TagRuntime :=
  match parseArrayElementLogicalName tag.name with
  | none => none
  | some (parent, idx) => driver.tags.find? fun t =>
      t.name == parent && decide (idx < t.cfg.elemCount) && t.cfg.datatype == tag.cfg.datatype

/-- `source.empty()`, a bit, or a bit in the name of the source. -/
def TagRuntime.isDerivedAlias (tag : TagRuntime) : Bool :=
  tag.cfg.sourceTag != "" && tag.cfg.bit.isNone &&
    (parseBitQualifiedSourceName tag.cfg.sourceTag).isNone

/-- The messages of a write into a handle. -/
structure HandleTexts where
  nonNumeric : String
  empty : String
  parse : String → String
  cast : String → String
  set : String → String
  parseSet : String → String
  write : String → String

/-- `[connection].tag` -/
def writeLabel (driver : DriverContext) (name : String) : String :=
  "[" ++ driver.conn.id ++ "]." ++ name

def tagTexts (driver : DriverContext) (tag : TagRuntime) (text : String) : HandleTexts where
  nonNumeric := "Tag '" ++ tag.name ++ "' has scaling enabled but non-numeric datatype '" ++
    tag.cfg.datatype ++ "'."
  empty := "Write value is empty."
  parse what := "Write parse failed for scaled value '" ++ text ++ "': " ++ what
  cast err := "Write scaling cast failed for raw datatype '" ++ tag.cfg.datatype ++ "': " ++ err
  set err := "Write set failed for " ++ writeLabel driver tag.name ++ ": " ++ err
  parseSet err := "Write parse/set failed for " ++ writeLabel driver tag.name ++ ": " ++ err
  write err := "plc_tag_write failed for " ++ writeLabel driver tag.name ++ ": " ++ err

def elementTexts (driver : DriverContext) (tag parent : TagRuntime) (text : String) :
    HandleTexts where
  nonNumeric := "Array parent tag '" ++ parent.name ++
    "' has scaling enabled but non-numeric datatype '" ++ parent.cfg.datatype ++ "'."
  empty := "Array element write parse failed for scaled value '" ++ text ++ "': empty value"
  parse what := "Array element write parse failed for scaled value '" ++ text ++ "': " ++ what
  cast err := "Array element write scaling cast failed for " ++ writeLabel driver tag.name ++
    " to parent datatype '" ++ parent.cfg.datatype ++ "': " ++ err
  set err := "Array element write set failed for " ++ writeLabel driver tag.name ++ ": " ++ err
  parseSet err :=
    "Array element write parse/set failed for " ++ writeLabel driver tag.name ++ ": " ++ err
  write err :=
    "Array element plc_tag_write failed for " ++ writeLabel driver tag.name ++ ": " ++ err

/-- The value set in the handle of `served`, the tag itself or its array. -/
def setHandle (io : WriteIo) (texts : HandleTexts) (served : TagRuntime) (text : String) :
    Except String TagValue :=
  if served.scalingLinear then
    if !isNumericDatatype served.cfg.datatype then .error texts.nonNumeric
    else
      match scaledNumber text with
      | .error none => .error texts.empty
      | .error (some what) => .error (texts.parse what)
      | .ok scaled =>
        match castDoubleToTagvalue (served.rawNumber scaled) served.cfg.datatype with
        | .error err => .error (texts.cast err)
        | .ok raw =>
          match io.setStatus served.name with
          | some err => .error (texts.set err)
          | none => .ok raw
  else (plcSetValueFromString served.cfg.datatype text (io.setStatus served.name)).mapError
    texts.parseSet

def writeHandle (io : WriteIo) (texts : HandleTexts) (served : TagRuntime) (text : String) :
    Except String TagValue :=
  match io.prepare served.name with
  | some err => .error err
  | none =>
    match setHandle io texts served text with
    | .error err => .error err
    | .ok value =>
      match io.plcWrite served.name with
      | some err => .error (texts.write err)
      | none => .ok value

/-- The value a tag that is no alias takes from the text. -/
def writeDirect (io : WriteIo) (driver : DriverContext) (tag : TagRuntime) (text : String) :
    Except String TagValue :=
  if isMemoryTag tag.cfg || toLowerCopy (trimCopy driver.conn.driver) == "mqtt" then
    match parseStringToTagvalue text tag.cfg.datatype with
    | none => .error ""
    | some v => .ok v
  else if isOpcuaClientDriverName driver.conn.driver then
    match parseStringToTagvalue text tag.cfg.datatype with
    | none =>
      .error ("Remote OPC UA write value cannot be parsed as " ++ tag.cfg.datatype ++ ".")
    | some v =>
      match io.remoteWrite tag.name with
      | some err => .error err
      | none => .ok v
  else
    match parentArray driver tag with
    | some parent =>
      if !parent.cfg.writable then
        .error ("Parent array tag '" ++ parent.name ++ "' is not marked writable.")
      else writeHandle io (elementTexts driver tag parent text) parent text
    | none =>
      if tag.cfg.sourceTag ≠ "" then
        if tag.cfg.datatype ≠ "bool" then
          .error ("Derived tag '" ++ tag.name ++ "' must have datatype 'bool'.")
        else
          match parseBool text with
          | none => .error ("Write parse failed for derived bool value '" ++ text ++ "' for " ++
              writeLabel driver tag.name)
          | some b => (io.writeBit tag.name b).map .bool
      else writeHandle io (tagTexts driver tag text) tag text

/-- The text for the source of an alias. -/
def sourceText [FloatText] (driver : DriverContext) (tag source : TagRuntime) (text : String) :
    Except String String :=
  if tag.scalingLinear then
    match scaledNumber text with
    | .error what => .error ("Derived alias write parse failed for " ++
        writeLabel driver tag.name ++ ": " ++ what.getD "empty value")
    | .ok scaled =>
      match castDoubleToTagvalue (tag.rawNumber scaled) source.cfg.datatype with
      | .error err => .error ("Derived alias write scaling cast failed for " ++
          writeLabel driver tag.name ++ " to source datatype '" ++ source.cfg.datatype ++ "': " ++
          err)
      | .ok raw => .ok (tagValueToString raw)
  else .ok text

/-- The answer of the source, as the alias passes it on. -/
def throughAlias (driver : DriverContext) (tag : TagRuntime) (text : String) :
    Except String WriteTrace → Except String WriteTrace
  | .error err => .error ("Derived alias write-through failed for " ++
      writeLabel driver tag.name ++ " -> " ++ tag.cfg.sourceTag ++
      if err = "" then "" else ": " ++ err)
  | .ok source => .ok (.through tag.name (parseStringToTagvalue text tag.cfg.datatype) source)

/-- `none` where the fuel is not enough. -/
def writeTagByName [FloatText] (io : WriteIo) (driver : DriverContext) :
    Nat → String → String → Option (Except String WriteTrace)
  | 0, _, _ => none
  | fuel + 1, name, text =>
    match findForWrite driver name with
    | none =>
      if io.publishes name then some (.ok (.direct name (.string text)))
      else some (.error ("Connection/tag not found for write: " ++ writeLabel driver name))
    | some tag =>
      if !tag.cfg.writable then
        some (.error ("Tag '" ++ name ++ "' is not marked writable in config."))
      else if tag.isDerivedAlias then
        if tag.cfg.sourceTag = name then
          some (.error ("Derived alias '" ++ name ++ "' has invalid source tag '" ++ name ++ "'."))
        else
          match driver.find tag.cfg.sourceTag with
          | none => some (.error ("Derived alias '" ++ name ++ "' source tag '" ++
              tag.cfg.sourceTag ++ "' not found."))
          | some source =>
            if !source.cfg.writable then
              some (.error ("Derived alias '" ++ name ++ "' source tag '" ++
                tag.cfg.sourceTag ++ "' is not marked writable."))
            else
              match sourceText driver tag source text with
              | .error err => some (.error err)
              | .ok sourceValueText =>
                (writeTagByName io driver fuel tag.cfg.sourceTag sourceValueText).map
                  (throughAlias driver tag text)
      else some ((writeDirect io driver tag text).map (.direct name))

end OpcBridge
