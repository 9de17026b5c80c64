import OpcBridge.Alarms.Json
import OpcBridge.Csv.Table
import OpcBridge.Lib.Edits

/-!
# The edits of an imported row

A row of a CSV import rewrites a tag field by field: it keeps, sets or erases each one, by the kind of
the row and its cells alone. `rowEdits` is the list of what it does, in the order of the source; the
name of the tag is not among it (`keepName_rowEdits`).
-/

namespace OpcBridge.Csv

open Lib Alarms

section
variable [Floats]

/-! ## Cells -/

def parseBoolLoose (value : String) (default : Bool) : Bool :=
  let raw := toLowerCopy (trimCopy value)
  if raw = "" then default
  else if raw ∈ ["true", "1", "yes", "y", "on"] then true
  else if raw ∈ ["false", "0", "no", "n", "off"] then false
  else default

/-- `toInt` is the conversion of a double to `int`. -/
def parseIntLoose (toInt : F64 → Int) (value : String) (default : Int) : Int :=
  let raw := trimCopy value
  if raw = "" then default
  else
    match Floats.stod raw with
    | none => default
    | some d => if !Floats.isFinite d then default else toInt d

/-- `none` is `ok = false`. -/
def parseDoubleLoose (value : String) : Option F64 :=
  let raw := trimCopy value
  if raw = "" then none
  else (Floats.stod raw).filter Floats.isFinite

def csvIsDeleteAction (value : String) : Bool :=
  toLowerCopy (trimCopy value) ∈ ["delete", "deleted", "remove", "removed", "del"]

/-- The first cell that is not blank, the last one otherwise. -/
def firstCell (row : CsvRecord) : List String → String
  | [] => ""
  | [key] => csvGet row key
  | key :: keys => if trimCopy (csvGet row key) ≠ "" then csvGet row key else firstCell row keys

/-! ## The kind of a row -/

def sourceRaw (row : CsvRecord) : String := trimCopy (csvGet row "source")

def isMemoryRow (row : CsvRecord) : Bool := toLowerCopy (sourceRaw row) == "memory"

def plcTagNameCell (row : CsvRecord) : String :=
  trimCopy (firstCell row ["plc_tag_name", "plc_tag", "plc_tagname"])

section
variable (toInt : F64 → Int) (row : CsvRecord)

def elemCountCell : String := firstCell row ["elem_count", "elemcount"]

def addressCell : String := trimCopy (firstCell row ["address", "modbus_address"])

def offsetCell : String := trimCopy (firstCell row ["offset", "modbus_offset"])

def scanCell : String := firstCell row ["scan_ms", "scan", "scanms"]

def logIntervalCell : String := firstCell row ["log_periodic_interval_sec", "log_interval_sec"]

def bitOf : Int := parseIntLoose toInt (csvGet row "bit") (-1)

def sourceTagOf : String :=
  let sourceTag := trimCopy (
    if trimCopy (csvGet row "source_tag") ≠ "" then csvGet row "source_tag"
    else if isMemoryRow row then "" else sourceRaw row)
  if sourceTag = "" ∧ 0 ≤ bitOf toInt row ∧ plcTagNameCell row ≠ "" then plcTagNameCell row
  else sourceTag

inductive RowKind
  | memory
  | derivedBit
  | derivedAlias
  | plc
deriving DecidableEq

/-- The branch of the row. -/
def rowKind : RowKind :=
  if isMemoryRow row then .memory
  else if sourceTagOf toInt row ≠ "" ∧ 0 ≤ bitOf toInt row then .derivedBit
  else if sourceTagOf toInt row ≠ "" then .derivedAlias
  else .plc

end

/-! ## Edits -/

abbrev TagEdit := String × Option Json

def setText (key value : String) : TagEdit := (key, some (.string value))

def setInt (key : String) (n : Int) : TagEdit := (key, some (.int n))

def setBool (key : String) (b : Bool) : TagEdit := (key, some (.bool b))

def eraseField (key : String) : TagEdit := (key, none)

/-- The fields of a PLC tag and of a register. -/
def plcFields : List String :=
  ["plc_tag_name", "register_type", "modbus_type", "address", "modbus_address", "offset",
    "modbus_offset", "zero_based", "zero_based_address", "path"]

/-- A text that is set, or erased where it is empty. -/
def setOrErase (key value : String) : TagEdit :=
  if value ≠ "" then setText key value else eraseField key

def setNonempty (key value : String) : List TagEdit :=
  if value ≠ "" then [setText key value] else []

/-- A flag whose cell may be blank. -/
def flagEdit (row : CsvRecord) (key : String) : TagEdit :=
  if trimCopy (csvGet row key) = "" then eraseField key
  else setBool key (parseBoolLoose (csvGet row key) false)

def doubleEdit (row : CsvRecord) (key : String) : TagEdit :=
  match parseDoubleLoose (csvGet row key) with
  | some d => (key, some (.float d))
  | none => eraseField key

section
variable (toInt : F64 → Int) (row : CsvRecord)

def memoryEdits : List TagEdit :=
  plcFields.map eraseField ++ [eraseField "source_tag", eraseField "bit", eraseField "elem_count",
    setText "source" "memory"] ++ setNonempty "datatype" (trimCopy (csvGet row "datatype")) ++
    [setOrErase "initial_value" (trimCopy (csvGet row "initial_value"))]

/-- What both kinds of derived rows erase. -/
def derivedErased : List TagEdit :=
  [eraseField "source", eraseField "initial_value"] ++ plcFields.map eraseField ++
    [eraseField "elem_count"]

def derivedBitEdits : List TagEdit :=
  let datatype := trimCopy (csvGet row "datatype")
  derivedErased ++ [setText "source_tag" (sourceTagOf toInt row), setInt "bit" (bitOf toInt row),
    setText "datatype" (if toLowerCopy datatype = "bool" then datatype else "bool")]

def derivedAliasEdits : List TagEdit :=
  derivedErased ++ [setText "source_tag" (sourceTagOf toInt row), eraseField "bit"] ++
    setNonempty "datatype" (trimCopy (csvGet row "datatype")) ++ [setBool "writable" false]

def plcEdits : List TagEdit :=
  let registerType := trimCopy (firstCell row ["register_type", "modbus_type", "register"])
  let address := parseIntLoose toInt (addressCell row) (-1)
  let offset := parseIntLoose toInt (offsetCell row) (-1)
  [eraseField "source", eraseField "initial_value", eraseField "source_tag", eraseField "bit"] ++
    setNonempty "plc_tag_name" (plcTagNameCell row) ++
    (if registerType ≠ "" ∨ addressCell row ≠ "" ∨ offsetCell row ≠ "" then
      [eraseField "plc_tag_name"] else []) ++
    setNonempty "register_type" registerType ++
    (if addressCell row ≠ "" ∧ 0 ≤ address then [setInt "address" address] else []) ++
    (if offsetCell row ≠ "" ∧ 0 ≤ offset then [eraseField "address", setInt "offset" offset]
      else []) ++
    setNonempty "path" (trimCopy (firstCell row ["path", "cip_path", "plc_path"])) ++
    setNonempty "datatype" (trimCopy (csvGet row "datatype"))

def kindEdits : List TagEdit :=
  match rowKind toInt row with
  | .memory => memoryEdits row
  | .derivedBit => derivedBitEdits toInt row
  | .derivedAlias => derivedAliasEdits toInt row
  | .plc => plcEdits toInt row

def elemCountEdit : TagEdit :=
  let elemCount := parseIntLoose toInt (elemCountCell row) (-1)
  if elemCount ≤ 1 then eraseField "elem_count" else setInt "elem_count" (max 1 elemCount)

def scanEdit : TagEdit :=
  let scan := parseIntLoose toInt (scanCell row) (-1)
  if isMemoryRow row ∨ scan < 0 then eraseField "scan_ms" else setInt "scan_ms" (max 0 scan)

def scalingEdits : List TagEdit :=
  let scaling := toLowerCopy (trimCopy (csvGet row "scaling"))
  if isMemoryRow row then [eraseField "scaling"]
  else if scaling = "none" ∨ scaling = "linear" then [setText "scaling" scaling]
  else if scaling ≠ "" then [eraseField "scaling"]
  else []

/-- The fields that every row has. -/
def sharedEdits : List TagEdit :=
  [setBool "enabled" (parseBoolLoose (csvGet row "enabled") true),
    setBool "writable" (parseBoolLoose (csvGet row "writable") false)] ++ scalingEdits row ++
  [doubleEdit row "raw_low", doubleEdit row "raw_high", doubleEdit row "scaled_low",
    doubleEdit row "scaled_high", flagEdit row "clamp_low", flagEdit row "clamp_high",
    setOrErase "scaled_datatype" (trimCopy (csvGet row "scaled_datatype")),
    setBool "log_event_on_change"
      (parseBoolLoose (firstCell row ["log_event_on_change", "log_on_change"]) false),
    setOrErase "log_periodic_mode" (trimCopy (csvGet row "log_periodic_mode"))]

def logIntervalEdit : TagEdit :=
  let intervalSec := parseIntLoose toInt (logIntervalCell row) (-1)
  if intervalSec < 0 then eraseField "log_periodic_interval_sec"
  else setInt "log_periodic_interval_sec" (max 0 intervalSec)

/-- A product of `int`s, which wraps. -/
def mulInt (a b : Int) : Int := (Int32.ofInt (a * b)).toInt

def historianIntervalMs : Int :=
  let histSec := parseIntLoose toInt (csvGet row "historian_interval_sec") (-1)
  let histMs := parseIntLoose toInt (csvGet row "historian_interval_ms") (-1)
  if 0 < histSec then mulInt histSec 1000 else if 0 < histMs then histMs else 60000

def historianEnabled : Bool :=
  parseBoolLoose (firstCell row ["historian_enabled", "historize"]) false

/-- The mode is periodic whatever the cell says. -/
def historianObject : Json :=
  .object [("enabled", .bool true),
    ("interval_ms", .int (max 1000 (historianIntervalMs toInt row))), ("mode", .string "periodic")]

def historianEdits : List TagEdit :=
  [eraseField "historian_enabled", eraseField "historian_mode",
    eraseField "historian_interval_ms",
    if historianEnabled row then ("historian", some (historianObject toInt row))
    else eraseField "historian"]

def hasHistorianColumns (table : CsvTable) : Bool :=
  csvHasHeader table "historian_enabled" || csvHasHeader table "historize" ||
    csvHasHeader table "historian_mode" || csvHasHeader table "historian_interval_sec" ||
    csvHasHeader table "historian_interval_ms"

/-- What a row does to its tag. -/
def rowEdits (historian : Bool) : List TagEdit :=
  flagEdit row "invert" :: elemCountEdit toInt row :: kindEdits toInt row ++
    scanEdit toInt row :: sharedEdits row ++ logIntervalEdit toInt row ::
    if historian then historianEdits toInt row else []

/-! ## The name -/

/-- No edit is about the name. -/
def KeepName (es : List TagEdit) : Prop := ∀ e ∈ es, e.1 ≠ "name"

section
variable {e e' : TagEdit} {es es' : List TagEdit} {c : Prop} [Decidable c]

@[simp] theorem keepName_nil : KeepName [] := nofun

@[simp] theorem keepName_cons : KeepName (e :: es) ↔ e.1 ≠ "name" ∧ KeepName es :=
  List.forall_mem_cons

@[simp] theorem keepName_append : KeepName (es ++ es') ↔ KeepName es ∧ KeepName es' :=
  List.forall_mem_append

@[simp] theorem keepName_ite : KeepName (if c then es else es') ↔
    (c → KeepName es) ∧ (¬ c → KeepName es') := by
  by_cases h : c <;> simp [h]

@[simp] theorem fst_ite : (if c then e else e').1 = "name" ↔
    c ∧ e.1 = "name" ∨ ¬ c ∧ e'.1 = "name" := by
  by_cases h : c <;> simp [h]

end

attribute [local simp] setText setInt setBool eraseField setOrErase setNonempty flagEdit plcFields

theorem doubleEdit_fst (key : String) : (doubleEdit row key).1 = key := by
  unfold doubleEdit
  split <;> rfl

theorem keepName_kindEdits : KeepName (kindEdits toInt row) := by
  unfold kindEdits
  cases rowKind toInt row with
  | memory => simp [memoryEdits]
  | derivedBit => simp [derivedBitEdits, derivedErased]
  | derivedAlias => simp [derivedAliasEdits, derivedErased]
  | plc => simp [plcEdits]

theorem keepName_rowEdits (historian : Bool) : KeepName (rowEdits toInt row historian) := by
  simp [rowEdits, elemCountEdit, keepName_kindEdits toInt row, scanEdit, sharedEdits, scalingEdits,
    doubleEdit_fst, logIntervalEdit, historianEdits]

end

end

end OpcBridge.Csv
