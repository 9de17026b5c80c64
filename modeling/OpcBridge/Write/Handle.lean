import OpcBridge.Core.FloatBits
import OpcBridge.Lib.Accessors
import OpcBridge.Poll.Read
import OpcBridge.Write.WriteTag

/-!
# The buffer of a handle

A handle of libplctag has a buffer of bytes, a getter and a setter for each kind of value in it.
`Plctag` are these accessors, `Plctag.Lawful` what libplctag says of them. Over them stand the two
setters of the bridge: a value goes to the accessor of its type, on a Modbus connection a value of
32 bits goes to two registers in the configured order.
-/

namespace OpcBridge

open Lib

variable [Floats]

abbrev PlcBuffer := List UInt8

/-- The accessors of a handle. The error of a setter is the text of its status. -/
structure Plctag where
  int8 : Accessor UInt8 String Int8
  int16 : Accessor UInt8 String Int16
  uint16 : Accessor UInt8 String UInt16
  int32 : Accessor UInt8 String Int32
  uint32 : Accessor UInt8 String UInt32
  float32 : Accessor UInt8 String F32
  float64 : Accessor UInt8 String F64
  /-- The offset counts bits. -/
  getBit : PlcBuffer → Nat → Int
  setBit : PlcBuffer → Nat → Int → Except String PlcBuffer
  /-- The characters before the first zero; `none` where the status is not OK. -/
  getString : PlcBuffer → Nat → Option String
  setString : PlcBuffer → Nat → String → Except String PlcBuffer
  /-- The bytes that the string at an offset takes. -/
  stringSize : PlcBuffer → Nat → Nat

/-- Every getter gets what its setter has set, and each keeps to its own bytes. -/
structure Plctag.Lawful (t : Plctag) : Prop where
  int8 : t.int8.Lawful 1
  int16 : t.int16.Lawful 2
  uint16 : t.uint16.Lawful 2
  int32 : t.int32.Lawful 4
  uint32 : t.uint32.Lawful 4
  float32 : t.float32.Lawful 4
  float64 : t.float64.Lawful 8
  getBit_setBit {buf buf' : PlcBuffer} {offset : Nat} (b : Bool)
    (h : t.setBit buf offset (if b then 1 else 0) = .ok buf') :
    t.getBit buf' offset = if b then 1 else 0
  setBit_outside {buf buf' : PlcBuffer} {offset : Nat} {v : Int}
    (h : t.setBit buf offset v = .ok buf') : SameOutside (offset / 8) 1 buf buf'
  getString_setString {buf buf' : PlcBuffer} {offset : Nat} {s : String} (hs : '\x00' ∉ s.toList)
    (h : t.setString buf offset s = .ok buf') : t.getString buf' offset = some s
  setString_outside {buf buf' : PlcBuffer} {offset : Nat} {s : String}
    (h : t.setString buf offset s = .ok buf') :
    SameOutside offset (t.stringSize buf offset) buf buf'

/-- What the getters answer on a buffer. -/
def Plctag.data (t : Plctag) (buf : PlcBuffer) : PlcData where
  getInt8 := t.int8.get buf
  getBit := t.getBit buf
  getInt16 := t.int16.get buf
  getUint16 := t.uint16.get buf
  getInt32 := t.int32.get buf
  getUint32 := t.uint32.get buf
  getFloat32 := t.float32.get buf
  getFloat64 := t.float64.get buf
  getString := t.getString buf

/-! ## The setters -/

/-- The status of a setter, `none` for OK, and the buffer after it. -/
def withStatus (buf : PlcBuffer) : Except String PlcBuffer → Option String × PlcBuffer
  | .error err => (some err, buf)
  | .ok buf => (none, buf)

def setOne {α : Type} (a : Accessor UInt8 String α) (offset : Nat) (v : α) (buf : PlcBuffer) :
    Option String × PlcBuffer :=
  withStatus buf (a.set buf offset v)

/-- A word as two registers. The second is not set where the first was refused. -/
def Plctag.setRegisters (t : Plctag) (wordOrder : String) (offset : Nat) (bits : UInt32)
    (buf : PlcBuffer) : Option String × PlcBuffer :=
  let hi := (bits >>> 16 &&& 0xFFFF).toUInt16
  let lo := (bits &&& 0xFFFF).toUInt16
  let swapWords := wordOrder == "lo_hi"
  let w0 := if swapWords then lo else hi
  let w1 := if swapWords then hi else lo
  match t.uint16.set buf offset w0 with
  | .error err => (some err, buf)
  | .ok buf => setOne t.uint16 (offset + 2) w1 buf

/-- `c_str` ends at the first zero. -/
def cString (s : String) : String := String.ofList (s.toList.takeWhile (· != '\x00'))

variable [FloatBits]

/-- The setter of a value, the same in both functions below. -/
def Plctag.setValue (t : Plctag) (modbus : Bool) (wordOrder : String) (offset : Nat)
    (v : TagValue) (buf : PlcBuffer) : Option String × PlcBuffer :=
  match v with
  | .float32 x =>
    if modbus then t.setRegisters wordOrder offset (toBits32 x) buf else setOne t.float32 offset x buf
  | .float64 x => setOne t.float64 offset x buf
  | .int32 n =>
    if modbus then t.setRegisters wordOrder offset n.toUInt32 buf else setOne t.int32 offset n buf
  | .uint32 n =>
    if modbus then t.setRegisters wordOrder offset n buf else setOne t.uint32 offset n buf
  | .int16 n => setOne t.int16 offset n buf
  | .uint16 n => setOne t.uint16 offset n buf
  | .bool b =>
    if modbus then withStatus buf (t.setBit buf offset (if b then 1 else 0))
    else setOne t.int8 offset (if b then 1 else 0) buf
  | .string s => withStatus buf (t.setString buf offset (cString s))

/-- `plc_tag_set_from_tagvalue`: the error text, `none` for success. -/
def Plctag.plcTagSetFromTagvalue (t : Plctag) (dt : String) (v : TagValue) (modbus : Bool)
    (wordOrder : String) (offset : Nat) (buf : PlcBuffer) : Option String × PlcBuffer :=
  if isSupportedDatatype dt then
    if v.datatype = dt then t.setValue modbus wordOrder offset v buf
    else (some ("Type mismatch: expected " ++ dt), buf)
  else (some ("Unsupported datatype '" ++ dt ++ "'"), buf)

/-- `plc_set_value_from_string`: the text is converted before any setter is called. -/
def Plctag.plcSetValueFromString (t : Plctag) (dt text : String) (modbus : Bool)
    (wordOrder : String) (offset : Nat) (buf : PlcBuffer) : Except String TagValue × PlcBuffer :=
  match OpcBridge.plcSetValueFromString dt text none with
  | .error err => (.error err, buf)
  | .ok v =>
    match t.setValue modbus wordOrder offset v buf with
    | (some err, buf) => (.error err, buf)
    | (none, buf) => (.ok v, buf)

/-- The bytes of an element of the given datatype. -/
def Plctag.elementSpan (t : Plctag) (dt : String) (modbus : Bool) (offset : Nat)
    (buf : PlcBuffer) : Nat × Nat :=
  if dt = "bool" then (if modbus then offset / 8 else offset, 1)
  else if dt = "int16" ∨ dt = "uint16" then (offset, 2)
  else if dt = "int32" ∨ dt = "uint32" ∨ dt = "float32" then (offset, 4)
  else if dt = "float64" then (offset, 8)
  else (offset, t.stringSize buf offset)

/-! ## What a setter leaves -/

section
omit [FloatBits] [Floats]

theorem withStatus_ok {r : Except String PlcBuffer} {buf buf' : PlcBuffer}
    (h : withStatus buf r = (none, buf')) : r = .ok buf' := by
  cases r <;> cases h
  rfl

theorem withStatus_error {r : Except String PlcBuffer} {buf buf' : PlcBuffer} {err : String}
    (h : withStatus buf r = (some err, buf')) : buf' = buf := by
  cases r <;> cases h
  rfl

/-- A setter keeps to its bytes, also where it fails. -/
theorem setOne_outside {α : Type} {a : Accessor UInt8 String α} {size offset : Nat}
    (ha : a.Lawful size) {x : α} {buf buf' : PlcBuffer} {status : Option String}
    (h : setOne a offset x buf = (status, buf')) : SameOutside offset size buf buf' := by
  cases status with
  | none => exact ha.outside (withStatus_ok h)
  | some err =>
    rw [withStatus_error h]
    exact SameOutside.refl _ _ _

theorem toNat_highWord (bits : UInt32) :
    (bits >>> 16 &&& 0xFFFF).toUInt16.toNat = bits.toNat / 65536 := by
  have h := bits.toNat_lt
  have hmask : (0xFFFF : UInt32).toNat = 2 ^ 16 - 1 := rfl
  have hshift : (16 : UInt32).toNat % 32 = 16 := rfl
  rw [UInt32.toNat_toUInt16, UInt32.toNat_and, UInt32.toNat_shiftRight, hmask, hshift,
    Nat.and_two_pow_sub_one_eq_mod, Nat.shiftRight_eq_div_pow]
  omega

theorem toNat_lowWord (bits : UInt32) :
    (bits &&& 0xFFFF).toUInt16.toNat = bits.toNat % 65536 := by
  have hmask : (0xFFFF : UInt32).toNat = 2 ^ 16 - 1 := rfl
  rw [UInt32.toNat_toUInt16, UInt32.toNat_and, hmask, Nat.and_two_pow_sub_one_eq_mod]
  omega

theorem toNat_joinWords (hi lo : UInt16) :
    (hi.toUInt32 <<< 16 ||| lo.toUInt32).toNat = hi.toNat * 65536 + lo.toNat := by
  have hlo := lo.toNat_lt
  have hhi := hi.toNat_lt
  have hshift : (16 : UInt32).toNat % 32 = 16 := rfl
  have hfit : hi.toNat <<< 16 < 2 ^ 32 := by
    rw [Nat.shiftLeft_eq]
    omega
  rw [UInt32.toNat_or, UInt32.toNat_shiftLeft, UInt16.toNat_toUInt32, UInt16.toNat_toUInt32, hshift,
    Nat.mod_eq_of_lt hfit, ← Nat.shiftLeft_add_eq_or_of_lt hlo, Nat.shiftLeft_eq]

theorem joinWords_split (bits : UInt32) :
    (bits >>> 16 &&& 0xFFFF).toUInt16.toUInt32 <<< 16 ||| (bits &&& 0xFFFF).toUInt16.toUInt32 =
      bits := by
  apply UInt32.toNat_inj.1
  rw [toNat_joinWords, toNat_highWord, toNat_lowWord]
  omega

end

section
omit [FloatBits]

variable {t : Plctag} {wordOrder : String} {offset : Nat} {bits : UInt32} {buf buf' : PlcBuffer}

/-- The registers of a word in their order. -/
def registerPair (wordOrder : String) (bits : UInt32) : UInt16 × UInt16 :=
  let hi := (bits >>> 16 &&& 0xFFFF).toUInt16
  let lo := (bits &&& 0xFFFF).toUInt16
  if wordOrder == "lo_hi" then (lo, hi) else (hi, lo)

theorem setRegisters_eq (t : Plctag) (wordOrder : String) (offset : Nat) (bits : UInt32)
    (buf : PlcBuffer) : t.setRegisters wordOrder offset bits buf =
      match t.uint16.set buf offset (registerPair wordOrder bits).1 with
      | .error err => (some err, buf)
      | .ok mid => setOne t.uint16 (offset + 2) (registerPair wordOrder bits).2 mid := by
  unfold Plctag.setRegisters registerPair
  cases wordOrder == "lo_hi" <;> rfl

/-- Two registers that are set read as the word, and nothing else has changed. -/
theorem setRegisters_ok (ht : t.Lawful) (h : t.setRegisters wordOrder offset bits buf = (none, buf')) :
    modbusWord32 (t.data buf') wordOrder offset = bits ∧ SameOutside offset 4 buf buf' := by
  unfold Plctag.setRegisters at h
  dsimp only at h
  split at h
  · cases h
  · rename_i mid hfirst
    have hsecond := withStatus_ok h
    have hkept : SameInside offset 2 mid buf' := (ht.uint16.outside hsecond).inside (.inr le_rfl)
    refine ⟨?_, ((ht.uint16.outside hfirst).mono le_rfl (by omega)).trans
      ((ht.uint16.outside hsecond).mono (by omega) (by omega))⟩
    have h0 := (ht.uint16.inside hkept).trans (ht.uint16.get_set hfirst)
    have h1 := ht.uint16.get_set hsecond
    unfold modbusWord32
    dsimp only [Plctag.data]
    rw [h0, h1]
    cases hswap : wordOrder == "lo_hi" <;> exact joinWords_split bits

/-- A word that is refused has changed the first register at most. -/
theorem setRegisters_outside (ht : t.Lawful) {status : Option String}
    (h : t.setRegisters wordOrder offset bits buf = (status, buf')) :
    SameOutside offset 4 buf buf' := by
  cases status with
  | none => exact (setRegisters_ok ht h).2
  | some err =>
    unfold Plctag.setRegisters at h
    dsimp only at h
    split at h
    · cases h
      exact SameOutside.refl _ _ _
    · rename_i mid hfirst
      rw [withStatus_error h]
      exact (ht.uint16.outside hfirst).mono le_rfl (by omega)

/-- A word that is refused has both registers from before, or the first one is new. -/
theorem setRegisters_error (ht : t.Lawful) {err : String}
    (h : t.setRegisters wordOrder offset bits buf = (some err, buf')) :
    buf' = buf ∨ t.uint16.get buf' offset = (registerPair wordOrder bits).1 ∧
      t.uint16.get buf' (offset + 2) = t.uint16.get buf (offset + 2) := by
  rw [setRegisters_eq] at h
  split at h
  · cases h
    exact .inl rfl
  · rename_i mid hfirst
    have hkept : SameInside (offset + 2) 2 buf mid := (ht.uint16.outside hfirst).inside (.inl le_rfl)
    rw [withStatus_error h]
    exact .inr ⟨ht.uint16.get_set hfirst, ht.uint16.inside hkept⟩

end

end OpcBridge
