import OpcBridge.Write.DerivedBit

/-!
# A write down to the PLC

`write_tag_by_name` for a tag of a PLC with the buffers of the handles it uses: the handle of the
tag, that of the array that serves an element, or that of the source of a derived bit. The value it
reports is that of `writeDirect` with a world that answers so. A bool that was written is compared
with what the read path makes of the buffer: the derived bit turns the value around where the tag
says so, the other two write it as it is and the reader turns it.
-/

namespace OpcBridge

open Lib

section
variable [Floats]

/-- The handles of a connection and what libplctag answers, by the tag that has the handle. -/
structure PlcWorld where
  plctag : String → Plctag
  /-- The handle is there and has been read, or why not. -/
  prepare : String → Option String
  buffer : String → PlcBuffer
  plcWrite : String → Option String
  /-- The read after a derived bit was written. -/
  reread : String → PlcBuffer → Except String PlcBuffer

/-- Where a write has left its value. -/
structure PlcWritten where
  value : TagValue
  served : TagRuntime
  offset : Nat
  /-- The bit of the word at the offset, for a derived bit. -/
  bit : Option Nat
  buffer : PlcBuffer

section
variable [FloatBits]

/-- The value set in the handle of `served` at an offset. -/
def setServed (w : PlcWorld) (conn : ConnectionConfig) (texts : HandleTexts) (served : TagRuntime)
    (offset : Nat) (text : String) : Except String (TagValue × PlcBuffer) :=
  let t := w.plctag served.name
  let buf := w.buffer served.name
  if served.scalingLinear then
    if !isNumericDatatype served.cfg.datatype then .error texts.nonNumeric
    else
      match scaledNumber text with
      | .error none => .error texts.empty
      | .error (some what) => .error (texts.parse what)
      | .ok scaled =>
        match castDoubleToTagvalue (served.rawNumber scaled) served.cfg.datatype with
        | .error err => .error (texts.cast err)
        | .ok raw =>
          match t.plcTagSetFromTagvalue served.cfg.datatype raw (isModbusConnection conn)
              served.cfg.wordOrder offset buf with
          | (some err, _) => .error (texts.set err)
          | (none, buf) => .ok (raw, buf)
  else
    match t.plcSetValueFromString served.cfg.datatype text (isModbusConnection conn)
        served.cfg.wordOrder offset buf with
    | (.error err, _) => .error (texts.parseSet err)
    | (.ok value, buf) => .ok (value, buf)

def writeServed (w : PlcWorld) (conn : ConnectionConfig) (texts : HandleTexts)
    (served : TagRuntime) (offset : Nat) (text : String) : Except String PlcWritten :=
  match w.prepare served.name with
  | some err => .error err
  | none =>
    match setServed w conn texts served offset text with
    | .error err => .error err
    | .ok (value, buf) =>
      match w.plcWrite served.name with
      | some err => .error (texts.write err)
      | none => .ok { value := value, served := served, offset := offset, bit := none, buffer := buf }

/-- The source of a derived bit: a tag, or the array of an element with the index. -/
def bitSource (driver : DriverContext) (name : String) : Option (TagRuntime × Option Nat) :=
  match driver.find name with
  | some tag => some (tag, none)
  | none =>
    match parseArrayElementLogicalName name with
    | none => none
    | some (parent, idx) =>
      (driver.tags.find? fun t => t.name == parent && decide (idx < t.cfg.elemCount)).map
        fun t => (t, some idx)

/-- The name of the source and the bit, a bit in the name of the source first. -/
def bitAddress (tag : TagRuntime) : Option (String × Nat) :=
  match parseBitQualifiedSourceName tag.cfg.sourceTag with
  | some (source, bit) => some (source, bit)
  | none => tag.cfg.bit.map fun bit => (tag.cfg.sourceTag, bit)

/-- The word of the source is read, changed, written and read again. -/
def writeSourceBit (w : PlcWorld) (driver : DriverContext) (tag : TagRuntime) (srcName : String)
    (source : TagRuntime) (offset bit : Nat) (desired : Bool) : Except String PlcBuffer :=
  let label := writeLabel driver tag.name
  let srcLabel := writeLabel driver srcName
  let dt := source.cfg.datatype
  let modbus := isModbusConnection driver.conn
  let t := w.plctag source.name
  match w.prepare source.name with
  | some err => .error err
  | none =>
    match t.changeSourceBit label srcLabel dt modbus source.cfg.wordOrder offset bit desired
        (w.buffer source.name) with
    | (some err, _) => .error err
    | (none, buf) =>
      match w.plcWrite source.name with
      | some err =>
        .error ("Derived write plc_tag_write failed for source " ++ srcLabel ++ ": " ++ err)
      | none =>
        match w.reread source.name buf with
        | .error err =>
          .error ("Derived write verify read failed for source " ++ srcLabel ++ ": " ++ err)
        | .ok verify =>
          match t.plcTagGetWordU64 dt modbus source.cfg.wordOrder offset verify with
          | .error err =>
            .error ("Derived write verify get failed for source " ++ srcLabel ++ ": " ++ err)
          | .ok (verifyWord, _) =>
            if verifyWord.toNat.testBit bit ≠ desired then
              .error ("Derived write verify mismatch for " ++ label ++ ": wrote bit=" ++
                (if desired then "1" else "0") ++ " but read back " ++
                (if verifyWord.toNat.testBit bit then "1" else "0"))
            else .ok verify

/-- A write of a derived bit. The tag's `invert` turns the value on the way to the word. -/
def writeDerivedBit (w : PlcWorld) (driver : DriverContext) (tag : TagRuntime) (text : String) :
    Except String PlcWritten :=
  let prefixText := "Derived tag '" ++ tag.name ++ "' "
  if tag.cfg.datatype ≠ "bool" then .error (prefixText ++ "must have datatype 'bool'.")
  else
    match bitAddress tag with
    | none => .error (prefixText ++ "has invalid bit index -1.")
    | some (srcName, bit) =>
      let sourceText := prefixText ++ "source tag '" ++ srcName ++ "' "
      if 63 < bit then .error (prefixText ++ "has invalid bit index " ++ toString bit ++ ".")
      else
        match parseBool text with
        | none => .error ("Write parse failed for derived bool value '" ++ text ++ "' for " ++
            writeLabel driver tag.name)
        | some published =>
          let desired := if tag.cfg.invert then !published else published
          match bitSource driver srcName with
          | none => .error (sourceText ++ "not found.")
          | some (source, idx) =>
            if !source.cfg.writable then .error (sourceText ++ "is not marked writable.")
            else if source.cfg.plcTagName = "" then .error (sourceText ++ "is missing plc_tag_name.")
            else if 1 < source.cfg.elemCount ∧ idx = none then
              .error (sourceText ++ "has elem_count > 1; derived-bit writes require a scalar " ++
                "source (e.g. " ++ srcName ++ "[0]).")
            else
              let offset := (idx.getD 0) * datatypeSizeBytes source.cfg.datatype
              match writeSourceBit w driver tag srcName source offset bit desired with
              | .error err => .error err
              | .ok verify => .ok
                { value := .bool published, served := source, offset := offset, bit := some bit
                  buffer := verify }

/-- The index of an element in the array that serves it. -/
def elementIndex (tag : TagRuntime) : Nat :=
  match parseArrayElementLogicalName tag.name with
  | some (_, idx) => idx
  | none => 0

/-- `write_tag_by_name` for a tag of a PLC connection that is no memory tag and no alias. -/
def writePlc (w : PlcWorld) (driver : DriverContext) (tag : TagRuntime) (text : String) :
    Except String PlcWritten :=
  match parentArray driver tag with
  | some parent =>
    if !parent.cfg.writable then
      .error ("Parent array tag '" ++ parent.name ++ "' is not marked writable.")
    else writeServed w driver.conn (elementTexts driver tag parent text) parent
      (elementIndex tag * datatypeSizeBytes parent.cfg.datatype) text
  | none =>
    if tag.cfg.sourceTag ≠ "" then writeDerivedBit w driver tag text
    else writeServed w driver.conn (tagTexts driver tag text) tag 0 text

end

/-- The bool that the read path computes from the buffer. -/
def PlcWritten.readBool (r : PlcWritten) (w : PlcWorld) (conn : ConnectionConfig)
    (tag : TagRuntime) : Option Bool :=
  let t := w.plctag r.served.name
  match r.bit with
  | none =>
    match (updateSnapshotFromPlcAtOffset .empty conn r.served (t.data r.buffer) r.offset 0).2.value with
    | .bool b => some b
    | _ => none
  | some bit =>
    match t.plcTagGetWordU64 r.served.cfg.datatype (isModbusConnection conn)
        r.served.cfg.wordOrder r.offset r.buffer with
    | .error _ => none
    | .ok (word, _) =>
      let b := word.toNat.testBit bit
      some (if tag.cfg.invert then !b else b)

/-! ## The value that is reported -/

section
variable [FloatBits] {w : PlcWorld} {conn : ConnectionConfig} {driver : DriverContext}
  {texts : HandleTexts} {served tag : TagRuntime} {offset : Nat} {text : String} {r : PlcWritten}

/-- A value that a handle took: the conversion, the setter, and nothing scaled that is no number. -/
theorem setServed_ok {v : TagValue} {buf : PlcBuffer}
    (h : setServed w conn texts served offset text = .ok (v, buf)) :
    setHandle quietIo texts served text = .ok v ∧
      (w.plctag served.name).setValue (isModbusConnection conn) served.cfg.wordOrder offset v
        (w.buffer served.name) = (none, buf) ∧
      (served.scalingLinear = true → isNumericDatatype served.cfg.datatype = true) := by
  unfold setServed at h
  unfold setHandle
  dsimp only at h
  split at h
  · rename_i hscaling
    rw [if_pos hscaling]
    split at h
    · cases h
    · rename_i hnumeric
      rw [if_neg hnumeric]
      cases hscaled : scaledNumber text with
      | error what =>
        rw [hscaled] at h
        cases what <;> cases h
      | ok scaled =>
        rw [hscaled] at h
        dsimp only at h ⊢
        cases hcast : castDoubleToTagvalue (served.rawNumber scaled) served.cfg.datatype with
        | error err =>
          rw [hcast] at h
          cases h
        | ok raw =>
          rw [hcast] at h
          dsimp only at h
          split at h
          · cases h
          · rename_i hset
            cases h
            exact ⟨rfl, (plcTagSetFromTagvalue_setValue hset).2, fun _ => by simpa using hnumeric⟩
  · rename_i hscaling
    rw [if_neg hscaling]
    split at h
    · cases h
    · rename_i hset
      cases h
      refine ⟨?_, (plcSetValueFromString_setValue hset).2, fun h => absurd h hscaling⟩
      unfold Plctag.plcSetValueFromString at hset
      split at hset
      · cases hset
      · rename_i v' hconvert
        split at hset
        · cases hset
        · cases hset
          show Except.mapError _ (plcSetValueFromString served.cfg.datatype text none) = _
          rw [hconvert]
          rfl

theorem writeServed_ok (h : writeServed w conn texts served offset text = .ok r) :
    r.served = served ∧ r.offset = offset ∧ r.bit = none ∧
      setServed w conn texts served offset text = .ok (r.value, r.buffer) := by
  unfold writeServed at h
  split at h
  · cases h
  · split at h
    · cases h
    · rename_i hset
      split at h
      · cases h
      · cases h
        exact ⟨rfl, rfl, rfl, hset⟩

omit [FloatBits] in
/-- A source bit that was written is in the buffer read afterwards. -/
theorem writeSourceBit_ok {srcName : String} {source : TagRuntime} {bit : Nat} {desired : Bool}
    {buf : PlcBuffer} (h : writeSourceBit w driver tag srcName source offset bit desired = .ok buf) :
    ∃ word width, (w.plctag source.name).plcTagGetWordU64 source.cfg.datatype
        (isModbusConnection driver.conn) source.cfg.wordOrder offset buf = .ok (word, width) ∧
      word.toNat.testBit bit = desired := by
  unfold writeSourceBit at h
  dsimp only at h
  split at h
  · cases h
  · split at h
    · cases h
    · split at h
      · cases h
      · split at h
        · cases h
        · split at h
          · cases h
          · rename_i word width hword
            split at h
            · cases h
            · rename_i hbit
              cases h
              exact ⟨word, width, hword, not_not.1 hbit⟩

omit [FloatBits] in
/-- What a derived bit has done where it reports success. -/
theorem writeDerivedBit_ok (h : writeDerivedBit w driver tag text = .ok r) :
    tag.cfg.datatype = "bool" ∧ ∃ published bit,
      parseBool text = some published ∧ r.value = .bool published ∧ r.bit = some bit ∧
      ∃ word width, (w.plctag r.served.name).plcTagGetWordU64 r.served.cfg.datatype
          (isModbusConnection driver.conn) r.served.cfg.wordOrder r.offset r.buffer =
            .ok (word, width) ∧
        word.toNat.testBit bit = if tag.cfg.invert then !published else published := by
  unfold writeDerivedBit at h
  dsimp only at h
  split at h
  · cases h
  · rename_i hdt
    split at h
    · cases h
    · split at h
      · cases h
      · split at h
        · cases h
        · rename_i published hpublished
          split at h
          · cases h
          · split at h
            · cases h
            · split at h
              · cases h
              · split at h
                · cases h
                · split at h
                  · cases h
                  · rename_i hsource
                    cases h
                    obtain ⟨word, width, hword, hbit⟩ := writeSourceBit_ok hsource
                    exact ⟨not_not.1 hdt, published, _, hpublished, rfl, rfl, word, width, hword,
                      hbit⟩

/-! ## The bool that is read -/

/-- A bool in a buffer is read turned around where the tag says so. -/
theorem readRaw_bool {t : Plctag} (ht : t.Lawful) {cfg : TagConfig} {buf buf' : PlcBuffer} {b : Bool}
    (hdt : cfg.datatype = "bool")
    (h : t.setValue (isModbusConnection conn) cfg.wordOrder offset (.bool b) buf = (none, buf')) :
    readRaw conn cfg (t.data buf') offset = .value (.bool (if cfg.invert then !b else b)) := by
  unfold readRaw
  rw [hdt]
  cases hmodbus : isModbusConnection conn with
  | false =>
    rw [hmodbus] at h
    have hget := setOne_get ht.int8 h
    cases b <;> simp [Plctag.data, hget]
  | true =>
    rw [hmodbus] at h
    have hget := getBit_setValue ht h
    cases b <;> simp [Plctag.data, hget]

/-- A handle that took a bool. -/
theorem readBool_served {tag : TagRuntime} (ht : ∀ name, (w.plctag name).Lawful) {b : Bool}
    (hdt : served.cfg.datatype = "bool") (hb : parseBool text = some b)
    (h : writeServed w conn texts served offset text = .ok r) :
    r.readBool w conn tag = some (if served.cfg.invert then !b else b) := by
  obtain ⟨hserved, hoffset, hbit, hset⟩ := writeServed_ok h
  obtain ⟨hhandle, hvalue, hnumeric⟩ := setServed_ok hset
  have hscaling : served.scalingLinear = false := by
    by_contra hscaling
    have hbool := hnumeric (by simpa using hscaling)
    rw [hdt] at hbool
    exact absurd hbool (by decide)
  have hbool : r.value = .bool b := by
    unfold setHandle at hhandle
    rw [hscaling, hdt] at hhandle
    have hconvert : (plcSetValueFromString "bool" text none).mapError texts.parseSet =
        .ok (.bool b) := by
      show Except.mapError _ (match parseBool text with | none => _ | some b => _) = _
      rw [hb]
      rfl
    exact Except.ok.inj (hhandle.symm.trans hconvert)
  rw [hbool] at hvalue
  have hraw := readRaw_bool (ht served.name) hdt hvalue
  unfold PlcWritten.readBool
  rw [hbit, hserved, hoffset]
  unfold updateSnapshotFromPlcAtOffset
  dsimp only
  rw [hraw]
  unfold publishedValue
  rw [hscaling]
  rfl

/-- The paths that mind `invert`: a derived bit does, the two others only if there is none. -/
def InvertMinded (driver : DriverContext) (tag : TagRuntime) : Prop :=
  match parentArray driver tag with
  | some parent => parent.cfg.invert = false
  | none => tag.cfg.sourceTag ≠ "" ∨ tag.cfg.invert = false

omit [FloatBits] in
theorem parentArray_datatype {parent : TagRuntime} (h : parentArray driver tag = some parent) :
    parent.cfg.datatype = tag.cfg.datatype := by
  unfold parentArray at h
  split at h
  · cases h
  · have hfound := List.find?_some h
    simp only [Bool.and_eq_true, beq_iff_eq] at hfound
    exact hfound.2

omit [Floats] [FloatBits] in
theorem not_eq_iff (b i : Bool) : some (if i then !b else b) = some b ↔ i = false := by
  cases b <;> cases i <;> decide

/-- After a write the read path gives the bool that was asked for exactly if the path of the write
minds `invert`. -/
theorem bool_write_read_iff (ht : ∀ name, (w.plctag name).Lawful) (hdt : tag.cfg.datatype = "bool")
    {b : Bool} (hb : parseBool text = some b) (h : writePlc w driver tag text = .ok r) :
    r.readBool w driver.conn tag = some b ↔ InvertMinded driver tag := by
  unfold writePlc at h
  unfold InvertMinded
  cases hparent : parentArray driver tag with
  | some parent =>
    rw [hparent] at h
    dsimp only at h ⊢
    split at h
    · cases h
    · rw [readBool_served ht ((parentArray_datatype hparent).trans hdt) hb h]
      exact not_eq_iff ..
  | none =>
    rw [hparent] at h
    dsimp only at h ⊢
    split at h
    · rename_i hsource
      obtain ⟨-, published, bit, hpublished, -, hbit, word, width, hword, hvalue⟩ :=
        writeDerivedBit_ok h
      obtain rfl := Option.some.inj (hpublished.symm.trans hb)
      have hread : r.readBool w driver.conn tag = some published := by
        unfold PlcWritten.readBool
        rw [hbit]
        dsimp only
        rw [hword]
        dsimp only
        rw [hvalue]
        cases tag.cfg.invert <;> simp
      exact ⟨fun _ => .inl hsource, fun _ => hread⟩
    · rename_i hsource
      rw [readBool_served ht hdt hb h, not_eq_iff]
      exact ⟨.inr, fun h => h.resolve_left hsource⟩

end

end

section
attribute [local instance] doubles doubleBits

def quietWorld : PlcWorld where
  plctag _ := registerHandle
  prepare _ := none
  buffer _ := [0]
  plcWrite _ := none
  reread _ buf := .ok buf

def pumpConfig : TagConfig where
  logicalName := "Pump"
  plcTagName := "Pump"
  datatype := "bool"
  writable := true
  invert := true

def pumpTag : TagRuntime where
  cfg := pumpConfig

def pumpDriver : DriverContext where
  freshnessEpoch := 1
  conn := { id := "PLC", driver := "ab_eip" }
  tags := [pumpTag]
  names_nodup := by
    show ["Pump"].Nodup
    decide

theorem pump_written : writePlc quietWorld pumpDriver pumpTag "on" =
    .ok { value := .bool true, served := pumpTag, offset := 0, bit := none, buffer := [1] } := rfl

theorem pump_read : (PlcWritten.mk (.bool true) pumpTag 0 none [1]).readBool quietWorld
    pumpDriver.conn pumpTag = some true ↔ InvertMinded pumpDriver pumpTag :=
  bool_write_read_iff (fun _ => registerHandle_lawful) rfl (by decide) pump_written

/-- An inverted scalar is written as it is and read turned around. -/
theorem inverted_scalar : ¬ ∀ (w : PlcWorld) (driver : DriverContext) (tag : TagRuntime)
    (text : String) (b : Bool) (r : PlcWritten), (∀ name, (w.plctag name).Lawful) →
    tag.cfg.datatype = "bool" → parseBool text = some b → writePlc w driver tag text = .ok r →
    r.readBool w driver.conn tag = some b := by
  intro h
  have hread := h quietWorld pumpDriver pumpTag "on" true _ (fun _ => registerHandle_lawful) rfl
    (by decide) pump_written
  revert hread
  decide +kernel

end

end OpcBridge
