import OpcBridge.Core.Snapshot

/-!
# Reading a tag

What a completed physical read leaves in a snapshot: `updateSnapshotFromPlcAtOffset` decodes the
bytes of the handle by the configured datatype, scales and clamps the value, and labels it. The
handle itself belongs to libplctag; `PlcData` is what its getters answer after the read.
-/

namespace OpcBridge

variable [Floats]

/-- The getters of a handle, by byte offset. -/
structure PlcData where
  getInt8 : Nat → Int8
  getBit : Nat → Int
  getInt16 : Nat → Int16
  getUint16 : Nat → UInt16
  getInt32 : Nat → Int32
  getUint32 : Nat → UInt32
  getFloat32 : Nat → F32
  getFloat64 : Nat → F64
  /-- `none` where the status is not OK. -/
  getString : Nat → Option String

/-- A snapshot as it is declared: every field at its default. -/
def TagSnapshot.empty : TagSnapshot :=
  { connectionId := "", logicalName := "", datatype := "", value := .bool false, timestamp := 0 }

/-- Two Modbus registers as one word. -/
def modbusWord32 (plc : PlcData) (wordOrder : String) (offset : Nat) : UInt32 :=
  let w0 := plc.getUint16 offset
  let w1 := plc.getUint16 (offset + 2)
  let swapWords := wordOrder == "lo_hi"
  let hi := if swapWords then w1 else w0
  let lo := if swapWords then w0 else w1
  hi.toUInt32 <<< 16 ||| lo.toUInt32

/-- Four Modbus registers as one word. -/
def modbusWord64 (plc : PlcData) (wordOrder : String) (offset : Nat) : UInt64 :=
  let w0 := plc.getUint16 offset
  let w1 := plc.getUint16 (offset + 2)
  let w2 := plc.getUint16 (offset + 4)
  let w3 := plc.getUint16 (offset + 6)
  let swapWords := wordOrder == "lo_hi"
  let a := if swapWords then w3 else w0
  let b := if swapWords then w2 else w1
  let c := if swapWords then w1 else w2
  let d := if swapWords then w0 else w3
  a.toUInt64 <<< 48 ||| b.toUInt64 <<< 32 ||| c.toUInt64 <<< 16 ||| d.toUInt64

/-- How the bytes of the handle decode. -/
inductive RawRead
  | value (raw : TagValue)
  /-- The string getter failed: the snapshot gets an empty string of bad quality. -/
  | noString
  | unsupported

def readRaw (conn : ConnectionConfig) (cfg : TagConfig) (plc : PlcData) (offset : Nat) : RawRead :=
  let dt := cfg.datatype
  let modbus := isModbusConnection conn
  if dt = "float32" then
    .value (.float32 (if modbus then Floats.ofBits32 (modbusWord32 plc cfg.wordOrder offset)
      else plc.getFloat32 offset))
  else if dt = "float64" then
    .value (.float64 (if modbus then Floats.ofBits64 (modbusWord64 plc cfg.wordOrder offset)
      else plc.getFloat64 offset))
  else if dt = "int32" then
    .value (.int32 (if modbus then (modbusWord32 plc cfg.wordOrder offset).toInt32
      else plc.getInt32 offset))
  else if dt = "uint32" then
    .value (.uint32 (if modbus then modbusWord32 plc cfg.wordOrder offset
      else plc.getUint32 offset))
  else if dt = "int16" then .value (.int16 (plc.getInt16 offset))
  else if dt = "uint16" then .value (.uint16 (plc.getUint16 offset))
  else if dt = "bool" then
    let b := if modbus then decide (plc.getBit offset % 256 ≠ 0) else plc.getInt8 offset != 0
    .value (.bool (if cfg.invert then !b else b))
  else if dt = "string" then
    match plc.getString offset with
    | some s => .value (.string s)
    | none => .noString
  else .unsupported

/-- `raw * slope + offset`, clamped as configured. -/
def scaleValue (tag : TagRuntime) (raw : F64) : F64 :=
  let scaled := Floats.add (Floats.mul raw tag.scaleSlope) tag.scaleOffset
  let scaled := if tag.cfg.clampLow then fmax scaled tag.cfg.scaledLow else scaled
  if tag.cfg.clampHigh then fmin scaled tag.cfg.scaledHigh else scaled

/-- `out_datatype.empty() ? fallback : out_datatype` -/
def TagRuntime.outDatatypeOr (tag : TagRuntime) (fallback : String) : String :=
  if tag.outDatatype = "" then fallback else tag.outDatatype

/-- The published value and datatype of a raw value. -/
def publishedValue (tag : TagRuntime) (raw : TagValue) : TagValue × String :=
  if !tag.scalingLinear then (raw, tag.cfg.datatype)
  else
    match tagvalueToDouble raw with
    | none => (raw, tag.cfg.datatype)
    | some rawNum =>
      let scaled := scaleValue tag rawNum
      match castDoubleToTagvalue scaled (tag.outDatatypeOr "float64") with
      | .error _ => (.float64 scaled, "float64")
      | .ok out => (out, tag.outDatatypeOr "float64")

def updateSnapshotFromPlcAtOffset (snap : TagSnapshot) (conn : ConnectionConfig)
    (tag : TagRuntime) (plc : PlcData) (offset : Nat) (now : Nat) : Bool × TagSnapshot :=
  let snap := { snap with
    connectionId := conn.id, logicalName := tag.name, datatype := tag.cfg.datatype,
    timestamp := now, quality := 1 }
  match readRaw conn tag.cfg plc offset with
  | .unsupported => (false, { snap with quality := 0 })
  | .noString => (false, { snap with quality := 0, value := .string "" })
  | .value raw =>
    let out := publishedValue tag raw
    (true, { snap with value := out.1, datatype := out.2 })

section
variable (snap : TagSnapshot) (conn : ConnectionConfig) (tag : TagRuntime) (plc : PlcData)
  (offset now : Nat)

@[simp] theorem updateSnapshotFromPlcAtOffset_logicalName :
    (updateSnapshotFromPlcAtOffset snap conn tag plc offset now).2.logicalName = tag.name := by
  unfold updateSnapshotFromPlcAtOffset
  dsimp only
  split <;> rfl

@[simp] theorem updateSnapshotFromPlcAtOffset_arrayValues :
    (updateSnapshotFromPlcAtOffset snap conn tag plc offset now).2.arrayValues =
      snap.arrayValues := by
  unfold updateSnapshotFromPlcAtOffset
  dsimp only
  split <;> rfl

end

/-! ## One read of a poll item -/

def datatypeSizeBytes (dt : String) : Nat :=
  if dt = "bool" then 1
  else if dt = "int16" ∨ dt = "uint16" then 2
  else if dt = "int32" ∨ dt = "uint32" ∨ dt = "float32" then 4
  else if dt = "float64" then 8
  else 88

/-- The result of reading an item: `plc` is `none` where the status is not OK. -/
structure LogixReadResult where
  ok : Bool
  started : Nat
  finished : Nat
  snapshot : TagSnapshot := .empty
  elements : List TagSnapshot := []

/-- Element `i` of an array item, with the name and the offset of the element. -/
def readElement (conn : ConnectionConfig) (item : TagRuntime) (plc : PlcData) (now i : Nat) :
    TagSnapshot :=
  let element := { item with cfg := { item.cfg with
    logicalName := elementName item.name i, logicalName_ne := elementName_ne _ _ } }
  (updateSnapshotFromPlcAtOffset .empty conn element plc
    (i * datatypeSizeBytes item.cfg.datatype) now).2

def readItem (conn : ConnectionConfig) (item : TagRuntime) (plc : Option PlcData)
    (started finished now : Nat) : LogixReadResult :=
  match plc with
  | none => { ok := false, started := started, finished := finished }
  | some plc =>
    if item.cfg.elemCount ≤ 1 then
      { ok := true, started := started, finished := finished
        snapshot := (updateSnapshotFromPlcAtOffset .empty conn item plc 0 now).2 }
    else
      { ok := true, started := started, finished := finished
        elements := (List.range item.cfg.elemCount).map (readElement conn item plc now) }

/-- The snapshots of a result carry the names of the item and of its elements. -/
structure LogixReadResult.Named (read : LogixReadResult) (item : TagRuntime) : Prop where
  snapshot : item.cfg.elemCount ≤ 1 → read.ok = true → read.snapshot.logicalName = item.name
  elements : ∀ i element, read.elements[i]? = some element →
    element.logicalName = elementName item.name i

@[simp] theorem readElement_logicalName (conn : ConnectionConfig) (item : TagRuntime)
    (plc : PlcData) (now i : Nat) :
    (readElement conn item plc now i).logicalName = elementName item.name i :=
  updateSnapshotFromPlcAtOffset_logicalName ..

theorem readItem_named (conn : ConnectionConfig) (item : TagRuntime) (plc : Option PlcData)
    (started finished now : Nat) : (readItem conn item plc started finished now).Named item := by
  unfold readItem
  cases plc with
  | none => exact ⟨fun _ h => by simp at h, fun i _ h => by simp at h⟩
  | some plc =>
    dsimp only
    split
    · exact ⟨fun _ _ => updateSnapshotFromPlcAtOffset_logicalName .., fun i _ h => by simp at h⟩
    · refine ⟨fun h => absurd h ‹_›, fun i element h => ?_⟩
      obtain ⟨j, hj, rfl⟩ := Option.map_eq_some_iff.1 (List.getElem?_map ▸ h)
      obtain ⟨-, rfl⟩ := List.getElem?_eq_some_iff.1 hj
      rw [List.getElem_range]
      exact readElement_logicalName ..

/-- No snapshot of a read carries a block. -/
theorem readItem_arrayValues (conn : ConnectionConfig) (item : TagRuntime) (plc : Option PlcData)
    (started finished now : Nat) :
    (readItem conn item plc started finished now).snapshot.arrayValues = [] ∧
      ∀ element ∈ (readItem conn item plc started finished now).elements,
        element.arrayValues = [] := by
  unfold readItem
  cases plc with
  | none => simp [TagSnapshot.empty]
  | some plc =>
    dsimp only
    split
    · simp [TagSnapshot.empty]
    · refine ⟨rfl, fun element h => ?_⟩
      obtain ⟨i, -, rfl⟩ := List.mem_map.1 h
      exact updateSnapshotFromPlcAtOffset_arrayValues ..

end OpcBridge
