import OpcBridge.Write.Handle
import Mathlib.Data.List.TakeWhile

/-!
# What was set is read

A value goes through a setter into the buffer and is published from the buffer. The reader takes
the registers of a Modbus double in the configured order, the setter leaves them in the order of
libplctag: with `lo_hi` the four registers come back reversed. Everything else comes back as it
was, a string up to its first zero.
-/

namespace OpcBridge

open Lib

/-! ## Four registers -/

/-- Register `k` of a word, the highest first. -/
def register (w : UInt64) (k : Nat) : UInt16 := UInt16.ofNat (w.toNat / 2 ^ (48 - 16 * k))

def joinRegisters (a b c d : UInt16) : UInt64 :=
  a.toUInt64 <<< 48 ||| b.toUInt64 <<< 32 ||| c.toUInt64 <<< 16 ||| d.toUInt64

def reverseRegisters (w : UInt64) : UInt64 :=
  joinRegisters (register w 3) (register w 2) (register w 1) (register w 0)

theorem or_eq_add (k : Nat) {x y : Nat} (hx : x % 2 ^ k = 0) (hy : y < 2 ^ k) : x ||| y = x + y := by
  obtain ⟨z, rfl⟩ := Nat.dvd_of_mod_eq_zero hx
  rw [Nat.mul_comm, ← Nat.shiftLeft_eq, Nat.shiftLeft_add_eq_or_of_lt hy]

theorem toNat_joinRegisters (a b c d : UInt16) : (joinRegisters a b c d).toNat =
    a.toNat * 2 ^ 48 + b.toNat * 2 ^ 32 + c.toNat * 2 ^ 16 + d.toNat := by
  have ha := a.toNat_lt
  have hb := b.toNat_lt
  have hc := c.toNat_lt
  have hd := d.toNat_lt
  have hshift (x : UInt16) (k : UInt64) (hk : k.toNat ≤ 48) :
      (x.toUInt64 <<< k).toNat = x.toNat * 2 ^ k.toNat := by
    have hx := x.toNat_lt
    have hpow : x.toNat * 2 ^ k.toNat < 2 ^ 16 * 2 ^ 48 :=
      Nat.mul_lt_mul_of_lt_of_le hx (Nat.pow_le_pow_right (by omega) hk) (by positivity)
    rw [UInt64.toNat_shiftLeft, UInt16.toNat_toUInt64, Nat.shiftLeft_eq,
      Nat.mod_eq_of_lt (show k.toNat < 64 by omega), Nat.mod_eq_of_lt (by omega)]
  have h48 : (48 : UInt64).toNat = 48 := rfl
  have h32 : (32 : UInt64).toNat = 32 := rfl
  have h16 : (16 : UInt64).toNat = 16 := rfl
  have hab : a.toNat * 2 ^ 48 ||| b.toNat * 2 ^ 32 = a.toNat * 2 ^ 48 + b.toNat * 2 ^ 32 :=
    or_eq_add 48 (by omega) (by omega)
  have habc : a.toNat * 2 ^ 48 + b.toNat * 2 ^ 32 ||| c.toNat * 2 ^ 16 =
      a.toNat * 2 ^ 48 + b.toNat * 2 ^ 32 + c.toNat * 2 ^ 16 := or_eq_add 32 (by omega) (by omega)
  unfold joinRegisters
  rw [UInt64.toNat_or, UInt64.toNat_or, UInt64.toNat_or, hshift a 48 (by decide),
    hshift b 32 (by decide), hshift c 16 (by decide), UInt16.toNat_toUInt64, h48, h32, h16, hab,
    habc]
  exact or_eq_add 16 (by omega) (by omega)

theorem toNat_register (w : UInt64) (k : Nat) :
    (register w k).toNat = w.toNat / 2 ^ (48 - 16 * k) % 2 ^ 16 := UInt16.toNat_ofNat'

theorem joinRegisters_register (w : UInt64) :
    joinRegisters (register w 0) (register w 1) (register w 2) (register w 3) = w := by
  have hw := w.toNat_lt
  apply UInt64.toNat_inj.1
  rw [toNat_joinRegisters, toNat_register, toNat_register, toNat_register, toNat_register]
  omega

/-! ## Through the buffer -/

section
variable [Floats] [FloatBits]

/-- libplctag sets a double on Modbus as four registers, the highest first. -/
def Plctag.RegisterDoubles (t : Plctag) : Prop :=
  ∀ (buf buf' : PlcBuffer) (offset : Nat) (x : F64), t.float64.set buf offset x = .ok buf' →
    ∀ k < 4, t.uint16.get buf' (offset + 2 * k) = register (toBits64 x) k

omit [FloatBits] in
theorem modbusWord64_eq (plc : PlcData) (wordOrder : String) (offset : Nat) :
    modbusWord64 plc wordOrder offset =
      if wordOrder = "lo_hi" then
        joinRegisters (plc.getUint16 (offset + 6)) (plc.getUint16 (offset + 4))
          (plc.getUint16 (offset + 2)) (plc.getUint16 offset)
      else
        joinRegisters (plc.getUint16 offset) (plc.getUint16 (offset + 2))
          (plc.getUint16 (offset + 4)) (plc.getUint16 (offset + 6)) := by
  unfold modbusWord64
  by_cases hswap : wordOrder = "lo_hi"
  · rw [if_pos hswap, hswap]
    rfl
  · have hne : (wordOrder == "lo_hi") = false := beq_eq_false_iff_ne.2 hswap
    rw [if_neg hswap, hne]
    rfl

/-- What the reader makes of a value that was set. -/
def readBack (conn : ConnectionConfig) (cfg : TagConfig) : TagValue → TagValue
  | .float64 x =>
    if isModbusConnection conn ∧ cfg.wordOrder = "lo_hi" then
      .float64 (Floats.ofBits64 (reverseRegisters (toBits64 x)))
    else .float64 x
  | .string s => .string (cString s)
  | v => v

section
variable {t : Plctag} {conn : ConnectionConfig} {cfg : TagConfig} {offset : Nat} {v : TagValue}
  {buf buf' : PlcBuffer}

omit [Floats] [FloatBits] in
theorem not_mem_cString (s : String) : '\x00' ∉ (cString s).toList := by
  intro h
  rw [cString, String.toList_ofList] at h
  have hne := List.mem_takeWhile_imp h
  simp at hne

omit [Floats] [FloatBits] in
theorem cString_eq_iff {s : String} : cString s = s ↔ '\x00' ∉ s.toList := by
  constructor
  · intro h hmem
    rw [← h] at hmem
    exact not_mem_cString s hmem
  · intro h
    have hall : s.toList.takeWhile (· != '\x00') = s.toList := by
      apply List.takeWhile_eq_self_iff.2
      intro c hc
      apply bne_iff_ne.2
      rintro rfl
      exact h hc
    rw [cString, hall, String.ofList_toList]

omit [Floats] [FloatBits] in
theorem setOne_get {α : Type} {a : Accessor UInt8 String α} {size : Nat} (ha : a.Lawful size)
    {x : α} (h : setOne a offset x buf = (none, buf')) : a.get buf' offset = x :=
  ha.get_set (withStatus_ok h)

theorem getBit_setValue (ht : t.Lawful) {b : Bool}
    (h : t.setValue true cfg.wordOrder offset (.bool b) buf = (none, buf')) :
    t.getBit buf' offset = if b then 1 else 0 :=
  ht.getBit_setBit b (withStatus_ok h)

theorem getString_setValue (ht : t.Lawful) {modbus : Bool} {s : String}
    (h : t.setValue modbus cfg.wordOrder offset (.string s) buf = (none, buf')) :
    t.getString buf' offset = some (cString s) :=
  ht.getString_setString (not_mem_cString s) (withStatus_ok h)

/-- The registers of a double in the configured order. -/
theorem modbusWord64_setValue (hdoubles : t.RegisterDoubles) {x : F64} (wordOrder : String)
    (h : setOne t.float64 offset x buf = (none, buf')) :
    modbusWord64 (t.data buf') wordOrder offset =
      if wordOrder = "lo_hi" then reverseRegisters (toBits64 x) else toBits64 x := by
  have hregister := hdoubles buf buf' offset x (withStatus_ok h)
  have h0 := hregister 0 (by omega)
  have h1 := hregister 1 (by omega)
  have h2 := hregister 2 (by omega)
  have h3 := hregister 3 (by omega)
  rw [modbusWord64_eq]
  show (if wordOrder = "lo_hi" then joinRegisters (t.uint16.get buf' (offset + 2 * 3))
      (t.uint16.get buf' (offset + 2 * 2)) (t.uint16.get buf' (offset + 2 * 1))
      (t.uint16.get buf' (offset + 2 * 0))
    else joinRegisters (t.uint16.get buf' (offset + 2 * 0)) (t.uint16.get buf' (offset + 2 * 1))
      (t.uint16.get buf' (offset + 2 * 2)) (t.uint16.get buf' (offset + 2 * 3))) = _
  rw [h0, h1, h2, h3, joinRegisters_register]
  rfl

/-- The reader on a buffer that a setter has left. -/
theorem readRaw_setValue (ht : t.Lawful)
    (hdoubles : isModbusConnection conn → v.datatype = "float64" → t.RegisterDoubles)
    (hdt : v.datatype = cfg.datatype) (hinvert : v.datatype = "bool" → cfg.invert = false)
    (h : t.setValue (isModbusConnection conn) cfg.wordOrder offset v buf = (none, buf')) :
    readRaw conn cfg (t.data buf') offset = .value (readBack conn cfg v) := by
  unfold readRaw
  rw [← hdt]
  cases hmodbus : isModbusConnection conn with
  | false =>
    rw [hmodbus] at h
    cases v with
    | float32 x =>
      have hget := setOne_get ht.float32 h
      simp [Plctag.data, hget, readBack]
    | float64 x =>
      have hget := setOne_get ht.float64 h
      simp [Plctag.data, hget, readBack, hmodbus]
    | int32 n =>
      have hget := setOne_get ht.int32 h
      simp [Plctag.data, hget, readBack]
    | uint32 n =>
      have hget := setOne_get ht.uint32 h
      simp [Plctag.data, hget, readBack]
    | int16 n =>
      have hget := setOne_get ht.int16 h
      simp [Plctag.data, hget, readBack]
    | uint16 n =>
      have hget := setOne_get ht.uint16 h
      simp [Plctag.data, hget, readBack]
    | bool b =>
      have hget := setOne_get ht.int8 h
      cases b <;> simp [Plctag.data, hget, readBack, hinvert rfl]
    | string s =>
      have hget := getString_setValue ht h
      simp [Plctag.data, hget, readBack]
  | true =>
    rw [hmodbus] at h
    cases v with
    | float32 x =>
      have hword := (setRegisters_ok ht h).1
      simp [hword, readBack, FloatBits.ofBits32_toBits32]
    | float64 x =>
      have hword := modbusWord64_setValue (hdoubles hmodbus rfl) cfg.wordOrder h
      simp only [TagValue.datatype, hword, readBack, hmodbus, true_and]
      by_cases hswap : cfg.wordOrder = "lo_hi"
      · simp [hswap]
      · simp [hswap, FloatBits.ofBits64_toBits64]
    | int32 n =>
      have hword := (setRegisters_ok ht h).1
      simp [hword, readBack]
    | uint32 n =>
      have hword := (setRegisters_ok ht h).1
      simp [hword, readBack]
    | int16 n =>
      have hget := setOne_get ht.int16 h
      simp [Plctag.data, hget, readBack]
    | uint16 n =>
      have hget := setOne_get ht.uint16 h
      simp [Plctag.data, hget, readBack]
    | bool b =>
      have hget := getBit_setValue ht h
      cases b <;> simp [Plctag.data, hget, readBack, hinvert rfl]
    | string s =>
      have hget := getString_setValue ht h
      simp [Plctag.data, hget, readBack]

/-- A setter keeps to the bytes of the element, also where it fails. -/
theorem setValue_outside (ht : t.Lawful) {modbus : Bool} {wordOrder : String}
    {status : Option String} (h : t.setValue modbus wordOrder offset v buf = (status, buf')) :
    SameOutside (t.elementSpan v.datatype modbus offset buf).1
      (t.elementSpan v.datatype modbus offset buf).2 buf buf' := by
  cases v with
  | float32 x =>
    cases modbus with
    | false => exact setOne_outside ht.float32 h
    | true => exact setRegisters_outside ht h
  | float64 x => exact setOne_outside ht.float64 h
  | int32 n =>
    cases modbus with
    | false => exact setOne_outside ht.int32 h
    | true => exact setRegisters_outside ht h
  | uint32 n =>
    cases modbus with
    | false => exact setOne_outside ht.uint32 h
    | true => exact setRegisters_outside ht h
  | int16 n => exact setOne_outside ht.int16 h
  | uint16 n => exact setOne_outside ht.uint16 h
  | bool b =>
    cases modbus with
    | false => exact setOne_outside ht.int8 h
    | true =>
      cases status with
      | none => exact ht.setBit_outside (withStatus_ok h)
      | some err =>
        rw [withStatus_error h]
        exact SameOutside.refl _ _ _
  | string s =>
    cases status with
    | none => exact ht.setString_outside (withStatus_ok h)
    | some err =>
      rw [withStatus_error h]
      exact SameOutside.refl _ _ _

theorem plcSetValueFromString_setValue {dt text : String} {modbus : Bool} {wordOrder : String}
    (h : t.plcSetValueFromString dt text modbus wordOrder offset buf = (.ok v, buf')) :
    parseStringToTagvalue text dt = some v ∧
      t.setValue modbus wordOrder offset v buf = (none, buf') := by
  unfold Plctag.plcSetValueFromString at h
  split at h
  · cases h
  · rename_i w hconvert
    split at h
    · cases h
    · rename_i hset
      cases h
      exact ⟨plcSetValueFromString_ok hconvert, hset⟩

theorem plcTagSetFromTagvalue_setValue {dt : String} {modbus : Bool} {wordOrder : String}
    (h : t.plcTagSetFromTagvalue dt v modbus wordOrder offset buf = (none, buf')) :
    v.datatype = dt ∧ t.setValue modbus wordOrder offset v buf = (none, buf') := by
  unfold Plctag.plcTagSetFromTagvalue at h
  split at h
  · split at h
    · rename_i hdt
      exact ⟨hdt, h⟩
    · cases h
  · cases h

/-! ## The round trip -/

/-- One of the two setters has put the value into the buffer. -/
def SetIn (t : Plctag) (conn : ConnectionConfig) (cfg : TagConfig) (offset : Nat) (v : TagValue)
    (buf buf' : PlcBuffer) : Prop :=
  t.plcTagSetFromTagvalue cfg.datatype v (isModbusConnection conn) cfg.wordOrder offset buf =
      (none, buf') ∨
    ∃ text, t.plcSetValueFromString cfg.datatype text (isModbusConnection conn) cfg.wordOrder offset
      buf = (.ok v, buf')

theorem SetIn.setValue (h : SetIn t conn cfg offset v buf buf') : v.datatype = cfg.datatype ∧
    t.setValue (isModbusConnection conn) cfg.wordOrder offset v buf = (none, buf') := by
  rcases h with h | ⟨text, h⟩
  · exact plcTagSetFromTagvalue_setValue h
  · obtain ⟨hparse, hset⟩ := plcSetValueFromString_setValue h
    exact ⟨datatype_of_parse hparse, hset⟩

/-- The values that the buffer gives back: a double whose registers are taken in reverse must read
the same in both directions, and a C string has no zero in it. -/
def ReadsTheSame (conn : ConnectionConfig) (cfg : TagConfig) : TagValue → Prop
  | .float64 x => isModbusConnection conn = true → cfg.wordOrder = "lo_hi" →
      Floats.ofBits64 (reverseRegisters (toBits64 x)) = x
  | .string s => '\x00' ∉ s.toList
  | _ => True

theorem readBack_eq_iff : readBack conn cfg v = v ↔ ReadsTheSame conn cfg v := by
  cases v with
  | float64 x =>
    unfold readBack ReadsTheSame
    dsimp only
    split
    · rename_i hreversed
      rw [TagValue.float64.injEq]
      exact ⟨fun h _ _ => h, fun h => h hreversed.1 hreversed.2⟩
    · rename_i hplain
      exact ⟨fun _ hmodbus hswap => absurd ⟨hmodbus, hswap⟩ hplain, fun _ => rfl⟩
  | string s =>
    show TagValue.string (cString s) = .string s ↔ _
    rw [TagValue.string.injEq]
    exact cString_eq_iff
  | _ => exact ⟨fun _ => trivial, fun _ => rfl⟩

/-- The reader publishes the value, and no byte apart from those of the element has changed. -/
structure ComesBack (t : Plctag) (conn : ConnectionConfig) (tag : TagRuntime) (offset : Nat)
    (v : TagValue) (buf buf' : PlcBuffer) : Prop where
  read (snap : TagSnapshot) (now : Nat) :
    (updateSnapshotFromPlcAtOffset snap conn tag (t.data buf') offset now).1 = true
  quality (snap : TagSnapshot) (now : Nat) :
    (updateSnapshotFromPlcAtOffset snap conn tag (t.data buf') offset now).2.quality = 1
  value (snap : TagSnapshot) (now : Nat) :
    (updateSnapshotFromPlcAtOffset snap conn tag (t.data buf') offset now).2.value = v
  outside : SameOutside (t.elementSpan tag.cfg.datatype (isModbusConnection conn) offset buf).1
    (t.elementSpan tag.cfg.datatype (isModbusConnection conn) offset buf).2 buf buf'

/-- A value that was set comes back exactly if its registers read the same in the order of the
reader. -/
theorem register_round_trip_iff {tag : TagRuntime} (ht : t.Lawful)
    (hdoubles : isModbusConnection conn → t.RegisterDoubles) (hscaling : tag.scalingLinear = false)
    (hinvert : tag.cfg.invert = false) (h : SetIn t conn tag.cfg offset v buf buf') :
    ComesBack t conn tag offset v buf buf' ↔ ReadsTheSame conn tag.cfg v := by
  obtain ⟨hdt, hset⟩ := h.setValue
  have hraw := readRaw_setValue ht (fun hmodbus _ => hdoubles hmodbus) hdt (fun _ => hinvert) hset
  have hread (snap : TagSnapshot) (now : Nat) :
      updateSnapshotFromPlcAtOffset snap conn tag (t.data buf') offset now =
        (true, { snap with
          connectionId := conn.id, logicalName := tag.name, datatype := tag.cfg.datatype,
          timestamp := now, quality := 1, value := readBack conn tag.cfg v }) := by
    unfold updateSnapshotFromPlcAtOffset
    dsimp only
    rw [hraw]
    unfold publishedValue
    rw [hscaling]
    rfl
  have houtside := setValue_outside ht hset
  rw [hdt] at houtside
  rw [← readBack_eq_iff]
  constructor
  · intro hback
    have hvalue := hback.value .empty 0
    rw [hread] at hvalue
    exact hvalue
  · intro hsame
    refine ⟨fun snap now => ?_, fun snap now => ?_, fun snap now => ?_, houtside⟩
    · rw [hread]
    · rw [hread]
    · rw [hread]
      exact hsame

end

end

/-! ## A Modbus handle -/

section
attribute [local instance] doubles doubleBits

def outOfBounds : String := "PLCTAG_ERR_OUT_OF_BOUNDS"

def int8Word : Word Int8 1 where
  toNat n := n.toUInt8.toNat
  ofNat n := (UInt8.ofNat n).toInt8
  toNat_lt n := n.toUInt8.toNat_lt
  ofNat_toNat n := by rw [UInt8.ofNat_toNat, Int8.toInt8_toUInt8]

def int16Word : Word Int16 2 where
  toNat n := n.toUInt16.toNat
  ofNat n := (UInt16.ofNat n).toInt16
  toNat_lt n := n.toUInt16.toNat_lt
  ofNat_toNat n := by rw [UInt16.ofNat_toNat, Int16.toInt16_toUInt16]

def uint16Word : Word UInt16 2 where
  toNat n := n.toNat
  ofNat n := UInt16.ofNat n
  toNat_lt n := n.toNat_lt
  ofNat_toNat _ := UInt16.ofNat_toNat

def int32Word : Word Int32 4 where
  toNat n := n.toUInt32.toNat
  ofNat n := (UInt32.ofNat n).toInt32
  toNat_lt n := n.toUInt32.toNat_lt
  ofNat_toNat n := by rw [UInt32.ofNat_toNat, Int32.toInt32_toUInt32]

def uint32Word : Word UInt32 4 where
  toNat n := n.toNat
  ofNat n := UInt32.ofNat n
  toNat_lt n := n.toNat_lt
  ofNat_toNat _ := UInt32.ofNat_toNat

def float32Word : Word F32 4 where
  toNat x := (toBits32 x).toNat
  ofNat n := Floats.ofBits32 (UInt32.ofNat n)
  toNat_lt x := (toBits32 x).toNat_lt
  ofNat_toNat x := by rw [UInt32.ofNat_toNat, FloatBits.ofBits32_toBits32]

def float64Word : Word F64 8 where
  toNat x := (toBits64 x).toNat
  ofNat n := Floats.ofBits64 (UInt64.ofNat n)
  toNat_lt x := (toBits64 x).toNat_lt
  ofNat_toNat x := by rw [UInt64.ofNat_toNat, FloatBits.ofBits64_toBits64]

/-- The handle of holding registers: no bits, no strings, every number big-endian. -/
def registerHandle : Plctag where
  int8 := int8Word.accessor outOfBounds
  int16 := int16Word.accessor outOfBounds
  uint16 := uint16Word.accessor outOfBounds
  int32 := int32Word.accessor outOfBounds
  uint32 := uint32Word.accessor outOfBounds
  float32 := float32Word.accessor outOfBounds
  float64 := float64Word.accessor outOfBounds
  getBit _ _ := -2147483648
  setBit _ _ _ := .error "PLCTAG_ERR_UNSUPPORTED"
  getString _ _ := none
  setString _ _ _ := .error "PLCTAG_ERR_UNSUPPORTED"
  stringSize _ _ := 0

theorem registerHandle_lawful : registerHandle.Lawful where
  int8 := int8Word.accessor_lawful _
  int16 := int16Word.accessor_lawful _
  uint16 := uint16Word.accessor_lawful _
  int32 := int32Word.accessor_lawful _
  uint32 := uint32Word.accessor_lawful _
  float32 := float32Word.accessor_lawful _
  float64 := float64Word.accessor_lawful _
  getBit_setBit b h := by cases h
  setBit_outside h := by cases h
  getString_setString hs h := by cases h
  setString_outside h := by cases h

/-- Two bytes out of eight. -/
theorem readAt_bigEndian (n : Nat) {k : Nat} (hk : k < 4) :
    readAt (bigEndian 8 n) (2 * k) 2 = bigEndian 2 (n / 2 ^ (48 - 16 * k)) := by
  obtain rfl | rfl | rfl | rfl : k = 0 ∨ k = 1 ∨ k = 2 ∨ k = 3 := by omega
  all_goals simp [bigEndian, readAt, Nat.div_div_eq_div_mul]

theorem registerHandle_doubles : registerHandle.RegisterDoubles := by
  intro buf buf' offset x h k hk
  have hread : readAt buf' offset 8 = bigEndian 8 (toBits64 x).toNat := float64Word.readAt_set h
  show UInt16.ofNat (ofBigEndian (readAt buf' (offset + 2 * k) 2)) = register (toBits64 x) k
  rw [← readAt_readAt buf' (show 2 * k + 2 ≤ 8 by omega), hread, readAt_bigEndian _ hk,
    ofBigEndian_bigEndian]
  unfold register
  apply UInt16.toNat_inj.1
  rw [UInt16.toNat_ofNat', UInt16.toNat_ofNat']
  omega

def registerConnection : ConnectionConfig := { id := "PLC", driver := "modbus_tcp" }

theorem level_ne : "Level" ≠ "" := by decide

def registerTag (datatype wordOrder : String) : TagRuntime where
  cfg :=
    { logicalName := "Level", logicalName_ne := level_ne, plcTagName := "hr0", datatype := datatype
      wordOrder := wordOrder }

/-- Minus two as an `int32` in swapped registers. -/
theorem level_set : SetIn registerHandle registerConnection (registerTag "int32" "lo_hi").cfg 0
    (.int32 (-2)) [0, 0, 0, 0] [0xFF, 0xFE, 0xFF, 0xFF] :=
  .inl (by decide +kernel)

theorem level_back : ComesBack registerHandle registerConnection (registerTag "int32" "lo_hi") 0
      (.int32 (-2)) [0, 0, 0, 0] [0xFF, 0xFE, 0xFF, 0xFF] ↔
    ReadsTheSame registerConnection (registerTag "int32" "lo_hi").cfg (.int32 (-2)) :=
  register_round_trip_iff registerHandle_lawful (fun _ => registerHandle_doubles) rfl rfl level_set

/-- One as a double in swapped registers is read as a number near zero. -/
theorem double_swapped : ¬ ∀ (t : Plctag) (conn : ConnectionConfig) (tag : TagRuntime)
    (offset : Nat) (v : TagValue) (buf buf' : PlcBuffer), t.Lawful →
    (isModbusConnection conn → t.RegisterDoubles) → tag.scalingLinear = false →
    tag.cfg.invert = false → SetIn t conn tag.cfg offset v buf buf' →
    ComesBack t conn tag offset v buf buf' := by
  intro h
  have hset : SetIn registerHandle registerConnection (registerTag "float64" "lo_hi").cfg 0
      (.float64 (binary64.ofRat 1)) [0, 0, 0, 0, 0, 0, 0, 0] [0x3F, 0xF0, 0, 0, 0, 0, 0, 0] :=
    .inl (by decide +kernel)
  have hread := (h registerHandle registerConnection (registerTag "float64" "lo_hi") 0 _ _ _
    registerHandle_lawful (fun _ => registerHandle_doubles) rfl rfl hset).value .empty 0
  revert hread
  decide +kernel

end

end OpcBridge
