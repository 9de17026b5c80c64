import OpcBridge.Poll.Publish
import OpcBridge.Write.AliasText
import OpcBridge.Write.RegisterLayout
import Mathlib.Data.Nat.Bitwise

/-!
# Writing a bit of a word

A derived bit is written by reading the word of its source, changing the bit and setting the word.
`sourceWord` is the word as a number: the getter, the setter and the reader of the poll loop agree
on it, so on where its bits are.
-/

namespace OpcBridge

open Lib

section
variable [Floats]

/-! ## The word of a source -/

/-- `plc_tag_get_word_u64`: the word and its width. -/
def Plctag.plcTagGetWordU64 (t : Plctag) (dt : String) (modbus : Bool) (wordOrder : String)
    (offset : Nat) (buf : PlcBuffer) : Except String (UInt64 × Nat) :=
  if dt = "int16" then .ok ((t.int16.get buf offset).toUInt16.toUInt64, 16)
  else if dt = "uint16" then .ok ((t.uint16.get buf offset).toUInt64, 16)
  else if dt = "int32" then
    .ok (if modbus then (modbusWord32 (t.data buf) wordOrder offset).toUInt64
      else (t.int32.get buf offset).toUInt32.toUInt64, 32)
  else if dt = "uint32" then
    .ok (if modbus then (modbusWord32 (t.data buf) wordOrder offset).toUInt64
      else (t.uint32.get buf offset).toUInt64, 32)
  else .error ("Unsupported source datatype for derived-bit write: '" ++ dt ++ "'")

/-- `plc_tag_set_word_u64`: the error text, `none` for success, and the buffer. -/
def Plctag.plcTagSetWordU64 (t : Plctag) (dt : String) (word : UInt64) (modbus : Bool)
    (wordOrder : String) (offset : Nat) (buf : PlcBuffer) : Option String × PlcBuffer :=
  if dt = "int16" then setOne t.int16 offset word.toUInt16.toInt16 buf
  else if dt = "uint16" then setOne t.uint16 offset word.toUInt16 buf
  else if dt = "int32" then
    if modbus then t.setRegisters wordOrder offset word.toUInt32 buf
    else setOne t.int32 offset word.toUInt32.toInt32 buf
  else if dt = "uint32" then
    if modbus then t.setRegisters wordOrder offset word.toUInt32 buf
    else setOne t.uint32 offset word.toUInt32 buf
  else (some ("Unsupported source datatype for derived-bit write: '" ++ dt ++ "'"), buf)

/-- The word with one bit set or cleared. -/
def changeBit (word : UInt64) (bit : Nat) (desired : Bool) : UInt64 :=
  let mask : UInt64 := 1 <<< UInt64.ofNat bit
  if desired then word ||| mask else word &&& ~~~mask

/-- The read and the change of the word under a derived bit; `label` and `source` name the two tags
in the error texts. -/
def Plctag.changeSourceBit (t : Plctag) (label source : String) (dt : String) (modbus : Bool)
    (wordOrder : String) (offset bit : Nat) (desired : Bool) (buf : PlcBuffer) :
    Option String × PlcBuffer :=
  match t.plcTagGetWordU64 dt modbus wordOrder offset buf with
  | .error err => (some ("Derived write failed for " ++ label ++ ": " ++ err), buf)
  | .ok (curWord, wordBits) =>
    if wordBits ≤ bit then
      (some ("Derived write failed for " ++ label ++ ": bit " ++ toString bit ++
        " out of range for " ++ dt ++ " (" ++ toString wordBits ++ " bits)"), buf)
    else
      match t.plcTagSetWordU64 dt (changeBit curWord bit desired) modbus wordOrder offset buf with
      | (some err, buf) =>
        (some ("Derived write set failed for source " ++ source ++ ": " ++ err), buf)
      | (none, buf) => (none, buf)

/-- The word as a number. -/
def Plctag.sourceWord (t : Plctag) (dt : String) (modbus : Bool) (wordOrder : String)
    (offset : Nat) (buf : PlcBuffer) : Nat :=
  if dt = "int16" then (t.int16.get buf offset).toUInt16.toNat
  else if dt = "uint16" then (t.uint16.get buf offset).toNat
  else if modbus then (modbusWord32 (t.data buf) wordOrder offset).toNat
  else if dt = "int32" then (t.int32.get buf offset).toUInt32.toNat
  else (t.uint32.get buf offset).toNat

/-- Bits of an integer datatype. -/
def wordWidth (dt : String) : Nat := if dt = "int16" ∨ dt = "uint16" then 16 else 32

/-! ## One bit -/

section
omit [Floats]

theorem testBit_changeBit (word : UInt64) {bit : Nat} (hbit : bit < 64) (desired : Bool) (k : Nat) :
    (changeBit word bit desired).toNat.testBit k =
      if k = bit then desired else word.toNat.testBit k := by
  have hlt : 2 ^ bit < 2 ^ 64 := Nat.pow_lt_pow_right (by omega) hbit
  have hsize : bit < UInt64.size := hbit.trans (by decide)
  have hmask : ((1 : UInt64) <<< UInt64.ofNat bit).toNat = 2 ^ bit := by
    rw [UInt64.toNat_shiftLeft, UInt64.toNat_ofNat_of_lt' hsize, Nat.mod_eq_of_lt hbit,
      UInt64.toNat_one, Nat.shiftLeft_eq, Nat.one_mul, Nat.mod_eq_of_lt hlt]
  unfold changeBit
  cases desired with
  | true =>
    show (word ||| (1 : UInt64) <<< UInt64.ofNat bit).toNat.testBit k = _
    rw [UInt64.toNat_or, hmask, Nat.testBit_or, Nat.testBit_two_pow]
    by_cases hk : k = bit
    · simp [hk]
    · simp [hk, Ne.symm hk]
  | false =>
    have hword (h : 64 ≤ k) : word.toNat.testBit k = false :=
      Nat.testBit_lt_two_pow (word.toNat_lt.trans_le (Nat.pow_le_pow_right (by omega) h))
    have hnot : UInt64.size - 1 - 2 ^ bit = 2 ^ 64 - (2 ^ bit + 1) := by
      have hpow : UInt64.size = 2 ^ 64 := by decide
      omega
    show (word &&& ~~~((1 : UInt64) <<< UInt64.ofNat bit)).toNat.testBit k = _
    rw [UInt64.toNat_and, UInt64.toNat_not, hmask, hnot, Nat.testBit_and,
      Nat.testBit_two_pow_sub_succ hlt, Nat.testBit_two_pow]
    by_cases hk : k = bit
    · simp [hk]
    · by_cases hlarge : 64 ≤ k
      · simp [hk, hword hlarge]
      · simp [hk, Ne.symm hk, show k < 64 by omega]

/-- The halves of a word of two registers. -/
theorem testBit_joinWords (hi lo : UInt16) (k : Nat) :
    (hi.toUInt32 <<< 16 ||| lo.toUInt32).toNat.testBit k =
      if k < 16 then lo.toNat.testBit k else hi.toNat.testBit (k - 16) := by
  have hlo := lo.toNat_lt
  rw [toNat_joinWords, show (65536 : Nat) = 2 ^ 16 by rfl, Nat.mul_comm,
    Nat.testBit_two_pow_mul_add _ hlo]

end

/-! ## The word after a write -/

section
variable {t : Plctag} {modbus : Bool} {wordOrder dt : String} {offset : Nat}
  {buf buf' : PlcBuffer}

theorem plcTagGetWordU64_eq (hdt : dt ∈ integerDatatypes) : ∃ word : UInt64,
    t.plcTagGetWordU64 dt modbus wordOrder offset buf = .ok (word, wordWidth dt) ∧
      word.toNat = t.sourceWord dt modbus wordOrder offset buf := by
  have hcases : dt = "int16" ∨ dt = "uint16" ∨ dt = "int32" ∨ dt = "uint32" := by
    simpa [integerDatatypes] using hdt
  rcases hcases with rfl | rfl | rfl | rfl
  · exact ⟨_, rfl, UInt16.toNat_toUInt64 _⟩
  · exact ⟨_, rfl, UInt16.toNat_toUInt64 _⟩
  · cases modbus with
    | false => exact ⟨_, rfl, UInt32.toNat_toUInt64 _⟩
    | true => exact ⟨_, rfl, UInt32.toNat_toUInt64 _⟩
  · cases modbus with
    | false => exact ⟨_, rfl, UInt32.toNat_toUInt64 _⟩
    | true => exact ⟨_, rfl, UInt32.toNat_toUInt64 _⟩

theorem sourceWord_lt (hdt : dt ∈ integerDatatypes) :
    t.sourceWord dt modbus wordOrder offset buf < 2 ^ wordWidth dt := by
  have hcases : dt = "int16" ∨ dt = "uint16" ∨ dt = "int32" ∨ dt = "uint32" := by
    simpa [integerDatatypes] using hdt
  rcases hcases with rfl | rfl | rfl | rfl
  · exact UInt16.toNat_lt _
  · exact UInt16.toNat_lt _
  · cases modbus with
    | false => exact UInt32.toNat_lt _
    | true => exact UInt32.toNat_lt _
  · cases modbus with
    | false => exact UInt32.toNat_lt _
    | true => exact UInt32.toNat_lt _

/-- A word that was set is read, cut to the width of the datatype. -/
theorem sourceWord_set (ht : t.Lawful) (hdt : dt ∈ integerDatatypes) {word : UInt64}
    (h : t.plcTagSetWordU64 dt word modbus wordOrder offset buf = (none, buf')) :
    t.sourceWord dt modbus wordOrder offset buf' = word.toNat % 2 ^ wordWidth dt := by
  have hcases : dt = "int16" ∨ dt = "uint16" ∨ dt = "int32" ∨ dt = "uint32" := by
    simpa [integerDatatypes] using hdt
  rcases hcases with rfl | rfl | rfl | rfl
  · have hget := setOne_get ht.int16 h
    show (t.int16.get buf' offset).toUInt16.toNat = _
    rw [hget]
    exact UInt64.toNat_toUInt16 word
  · have hget := setOne_get ht.uint16 h
    show (t.uint16.get buf' offset).toNat = _
    rw [hget]
    exact UInt64.toNat_toUInt16 word
  · cases modbus with
    | false =>
      have hget := setOne_get ht.int32 h
      show (t.int32.get buf' offset).toUInt32.toNat = _
      rw [hget]
      exact UInt64.toNat_toUInt32 word
    | true =>
      have hget := (setRegisters_ok ht h).1
      show (modbusWord32 (t.data buf') wordOrder offset).toNat = _
      rw [hget]
      exact UInt64.toNat_toUInt32 word
  · cases modbus with
    | false =>
      have hget := setOne_get ht.uint32 h
      show (t.uint32.get buf' offset).toNat = _
      rw [hget]
      exact UInt64.toNat_toUInt32 word
    | true =>
      have hget := (setRegisters_ok ht h).1
      show (modbusWord32 (t.data buf') wordOrder offset).toNat = _
      rw [hget]
      exact UInt64.toNat_toUInt32 word

/-- Two registers of which one is new: each bit is from before or from the new word. -/
theorem modbusWord32_torn (ht : t.Lawful) {bits : UInt32} {err : String}
    (h : t.setRegisters wordOrder offset bits buf = (some err, buf')) (k : Nat) :
    (modbusWord32 (t.data buf') wordOrder offset).toNat.testBit k =
        (modbusWord32 (t.data buf) wordOrder offset).toNat.testBit k ∨
      (modbusWord32 (t.data buf') wordOrder offset).toNat.testBit k = bits.toNat.testBit k := by
  rcases setRegisters_error ht h with rfl | ⟨hfirst, hsecond⟩
  · exact .inl rfl
  · have hnew := testBit_joinWords (bits >>> 16 &&& 0xFFFF).toUInt16 (bits &&& 0xFFFF).toUInt16 k
    rw [joinWords_split] at hnew
    unfold modbusWord32
    dsimp only [Plctag.data]
    rw [hfirst, hsecond, hnew]
    unfold registerPair
    dsimp only
    cases wordOrder == "lo_hi" with
    | false =>
      show (UInt16.toUInt32 _ <<< 16 ||| UInt16.toUInt32 _).toNat.testBit k =
        (UInt16.toUInt32 _ <<< 16 ||| UInt16.toUInt32 _).toNat.testBit k ∨
        (UInt16.toUInt32 _ <<< 16 ||| UInt16.toUInt32 _).toNat.testBit k = _
      rw [testBit_joinWords, testBit_joinWords]
      by_cases hk : k < 16
      · rw [if_pos hk, if_pos hk]
        exact .inl rfl
      · rw [if_neg hk, if_neg hk]
        exact .inr (if_neg hk).symm
    | true =>
      show (UInt16.toUInt32 _ <<< 16 ||| UInt16.toUInt32 _).toNat.testBit k =
        (UInt16.toUInt32 _ <<< 16 ||| UInt16.toUInt32 _).toNat.testBit k ∨
        (UInt16.toUInt32 _ <<< 16 ||| UInt16.toUInt32 _).toNat.testBit k = _
      rw [testBit_joinWords, testBit_joinWords]
      by_cases hk : k < 16
      · rw [if_pos hk, if_pos hk]
        exact .inr (if_pos hk).symm
      · rw [if_neg hk, if_neg hk]
        exact .inl rfl

/-- A word that is refused has each of its bits from before or from the new word. -/
theorem sourceWord_error (ht : t.Lawful) (hdt : dt ∈ integerDatatypes) {word : UInt64} {err : String}
    (h : t.plcTagSetWordU64 dt word modbus wordOrder offset buf = (some err, buf')) (k : Nat) :
    (t.sourceWord dt modbus wordOrder offset buf').testBit k =
        (t.sourceWord dt modbus wordOrder offset buf).testBit k ∨
      (t.sourceWord dt modbus wordOrder offset buf').testBit k =
        (word.toNat % 2 ^ wordWidth dt).testBit k := by
  have hcases : dt = "int16" ∨ dt = "uint16" ∨ dt = "int32" ∨ dt = "uint32" := by
    simpa [integerDatatypes] using hdt
  rcases hcases with rfl | rfl | rfl | rfl
  · rw [withStatus_error h]
    exact .inl rfl
  · rw [withStatus_error h]
    exact .inl rfl
  · cases modbus with
    | false =>
      rw [withStatus_error h]
      exact .inl rfl
    | true =>
      have hword : word.toUInt32.toNat = word.toNat % 2 ^ 32 := UInt64.toNat_toUInt32 word
      have hbits := modbusWord32_torn ht h k
      rw [hword] at hbits
      exact hbits
  · cases modbus with
    | false =>
      rw [withStatus_error h]
      exact .inl rfl
    | true =>
      have hword : word.toUInt32.toNat = word.toNat % 2 ^ 32 := UInt64.toNat_toUInt32 word
      have hbits := modbusWord32_torn ht h k
      rw [hword] at hbits
      exact hbits

/-- The setter of a word keeps to its bytes. -/
theorem plcTagSetWordU64_outside (ht : t.Lawful) (hdt : dt ∈ integerDatatypes) {word : UInt64}
    {status : Option String}
    (h : t.plcTagSetWordU64 dt word modbus wordOrder offset buf = (status, buf')) :
    SameOutside offset (wordWidth dt / 8) buf buf' := by
  have hcases : dt = "int16" ∨ dt = "uint16" ∨ dt = "int32" ∨ dt = "uint32" := by
    simpa [integerDatatypes] using hdt
  rcases hcases with rfl | rfl | rfl | rfl
  · exact setOne_outside ht.int16 h
  · exact setOne_outside ht.uint16 h
  · cases modbus with
    | false => exact setOne_outside ht.int32 h
    | true => exact setRegisters_outside ht h
  · cases modbus with
    | false => exact setOne_outside ht.uint32 h
    | true => exact setRegisters_outside ht h

/-! ## The bit of the published source -/

/-- The bits of a value, as the reader of derived bits takes them. -/
def valueWord : TagValue → Option Nat
  | .int16 n => some n.toUInt16.toNat
  | .uint16 n => some n.toNat
  | .int32 n => some n.toUInt32.toNat
  | .uint32 n => some n.toNat
  | _ => none

theorem extractBit_of_word {src : TagSnapshot} (hblock : src.arrayValues = []) {word : Nat}
    (hword : valueWord src.value = some word) {bit : Nat} (hbit : bit < 64) :
    extractBitFromSnapshot src bit = some (word.testBit bit) := by
  have hlarge : ¬ 64 ≤ bit := by omega
  unfold extractBitFromSnapshot
  rw [if_neg (not_not.2 hblock)]
  cases hvalue : src.value <;> rw [hvalue] at hword <;> cases hword <;> exact if_neg hlarge

/-- The raw value of an integer tag has the bits of the source word. -/
theorem readRaw_word {conn : ConnectionConfig} {cfg : TagConfig}
    (hdt : cfg.datatype ∈ integerDatatypes) : ∃ raw,
    readRaw conn cfg (t.data buf) offset = .value raw ∧ valueWord raw =
      some (t.sourceWord cfg.datatype (isModbusConnection conn) cfg.wordOrder offset buf) := by
  have hcases : cfg.datatype = "int16" ∨ cfg.datatype = "uint16" ∨
      cfg.datatype = "int32" ∨ cfg.datatype = "uint32" := by
    simpa [integerDatatypes] using hdt
  unfold readRaw
  rcases hcases with heq | heq | heq | heq
  · rw [heq]
    exact ⟨.int16 (t.int16.get buf offset), rfl, rfl⟩
  · rw [heq]
    exact ⟨.uint16 (t.uint16.get buf offset), rfl, rfl⟩
  · rw [heq]
    cases isModbusConnection conn with
    | false => exact ⟨.int32 (t.int32.get buf offset), rfl, rfl⟩
    | true => exact ⟨.int32 (modbusWord32 (t.data buf) cfg.wordOrder offset).toInt32, rfl, rfl⟩
  · rw [heq]
    cases isModbusConnection conn with
    | false => exact ⟨.uint32 (t.uint32.get buf offset), rfl, rfl⟩
    | true => exact ⟨.uint32 (modbusWord32 (t.data buf) cfg.wordOrder offset), rfl, rfl⟩

/-- The bit of an unscaled source that has just been read. -/
theorem extractBit_updated {conn : ConnectionConfig} {source : TagRuntime}
    (hdt : source.cfg.datatype ∈ integerDatatypes) (hscaling : source.scalingLinear = false)
    {snap : TagSnapshot} (hsnap : snap.arrayValues = []) {bit : Nat} (hbit : bit < 64) (now : Nat) :
    extractBitFromSnapshot
        (updateSnapshotFromPlcAtOffset snap conn source (t.data buf) offset now).2 bit =
      some ((t.sourceWord source.cfg.datatype (isModbusConnection conn) source.cfg.wordOrder offset
        buf).testBit bit) := by
  obtain ⟨raw, hraw, hword⟩ : ∃ raw, readRaw conn source.cfg (t.data buf) offset = .value raw ∧
      valueWord raw = some (t.sourceWord source.cfg.datatype (isModbusConnection conn)
        source.cfg.wordOrder offset buf) := readRaw_word hdt
  have hvalue : (updateSnapshotFromPlcAtOffset snap conn source (t.data buf) offset now).2.value =
      raw := by
    unfold updateSnapshotFromPlcAtOffset
    dsimp only
    rw [hraw]
    unfold publishedValue
    rw [hscaling]
    rfl
  refine extractBit_of_word ((updateSnapshotFromPlcAtOffset_arrayValues ..).trans hsnap) ?_ hbit
  rw [hvalue]
  exact hword

end

/-! ## The write -/

/-- What a write of a bit leaves: `out` is its error text and the buffer. -/
structure BitWritten (t : Plctag) (conn : ConnectionConfig) (source : TagRuntime) (offset bit : Nat)
    (desired : Bool) (buf : PlcBuffer) (out : Option String × PlcBuffer) : Prop where
  rejected (h : wordWidth source.cfg.datatype ≤ bit) : out.1.isSome = true ∧ out.2 = buf
  others {k : Nat} (hk : k ≠ bit) :
    (t.sourceWord source.cfg.datatype (isModbusConnection conn) source.cfg.wordOrder offset
        out.2).testBit k =
      (t.sourceWord source.cfg.datatype (isModbusConnection conn) source.cfg.wordOrder offset
        buf).testBit k
  outside : SameOutside offset (wordWidth source.cfg.datatype / 8) buf out.2
  changed (h : out.1 = none) : bit < wordWidth source.cfg.datatype ∧
    (t.sourceWord source.cfg.datatype (isModbusConnection conn) source.cfg.wordOrder offset
      out.2).testBit bit = desired
  extracted (h : out.1 = none) (hscaling : source.scalingLinear = false) (snap : TagSnapshot)
    (hsnap : snap.arrayValues = []) (now : Nat) :
    extractBitFromSnapshot
      (updateSnapshotFromPlcAtOffset snap conn source (t.data out.2) offset now).2 bit = some desired

section
variable {t : Plctag} {conn : ConnectionConfig} {source : TagRuntime} {offset bit : Nat}
  {desired : Bool} {buf : PlcBuffer}

theorem derived_bit_write (ht : t.Lawful) (hdt : source.cfg.datatype ∈ integerDatatypes)
    (label name : String) :
    BitWritten t conn source offset bit desired buf
      (t.changeSourceBit label name source.cfg.datatype (isModbusConnection conn)
        source.cfg.wordOrder offset bit desired buf) := by
  obtain ⟨word, hget, hword⟩ : ∃ word : UInt64, t.plcTagGetWordU64 source.cfg.datatype
      (isModbusConnection conn) source.cfg.wordOrder offset buf =
        .ok (word, wordWidth source.cfg.datatype) ∧ word.toNat = t.sourceWord source.cfg.datatype
      (isModbusConnection conn) source.cfg.wordOrder offset buf := plcTagGetWordU64_eq hdt
  have hwidth : wordWidth source.cfg.datatype ≤ 32 := by
    unfold wordWidth
    split <;> omega
  have hlt : word.toNat < 2 ^ wordWidth source.cfg.datatype := hword ▸ sourceWord_lt hdt
  unfold Plctag.changeSourceBit
  rw [hget]
  dsimp only
  by_cases hbit : wordWidth source.cfg.datatype ≤ bit
  · rw [if_pos hbit]
    exact ⟨fun _ => ⟨rfl, rfl⟩, fun _ => rfl, SameOutside.refl _ _ _, nofun, nofun⟩
  · rw [if_neg hbit]
    have hin := not_le.1 hbit
    have hnew (k : Nat) : ((changeBit word bit desired).toNat %
        2 ^ wordWidth source.cfg.datatype).testBit k =
          if k = bit then desired else word.toNat.testBit k := by
      rw [Nat.testBit_mod_two_pow, testBit_changeBit word (by omega)]
      by_cases hk : k < wordWidth source.cfg.datatype
      · simp [hk]
      · have hzero : word.toNat.testBit k = false := Nat.testBit_lt_two_pow
          (hlt.trans_le (Nat.pow_le_pow_right (by omega) (not_lt.1 hk)))
        simp [hk, hzero, show k ≠ bit by omega]
    cases hset : t.plcTagSetWordU64 source.cfg.datatype (changeBit word bit desired)
        (isModbusConnection conn) source.cfg.wordOrder offset buf with
    | mk status buf' =>
      have houtside := plcTagSetWordU64_outside ht hdt hset
      cases status with
      | none =>
        have hset' := sourceWord_set ht hdt hset
        have hdesired : (t.sourceWord source.cfg.datatype (isModbusConnection conn)
            source.cfg.wordOrder offset buf').testBit bit = desired := by
          rw [hset', hnew, if_pos rfl]
        refine ⟨fun h => absurd h hbit, fun hk => ?_, houtside, fun _ => ⟨hin, hdesired⟩,
          fun _ hscaling snap hsnap now => ?_⟩
        · show (t.sourceWord _ _ _ offset buf').testBit _ = _
          rw [hset', hnew, if_neg hk, hword]
        · rw [extractBit_updated hdt hscaling hsnap (by omega) now]
          exact congrArg some hdesired
      | some err =>
        refine ⟨fun h => absurd h hbit, fun hk => ?_, houtside, nofun, nofun⟩
        rcases sourceWord_error ht hdt hset _ with hold | hnew'
        · exact hold
        · refine hnew'.trans ?_
          rw [hnew, if_neg hk, hword]

end

end

section
attribute [local instance] doubles doubleBits

def levelSource (scaling : Bool) : TagRuntime where
  cfg :=
    { logicalName := "Level", logicalName_ne := level_ne, plcTagName := "hr0", datatype := "uint32"
      wordOrder := "lo_hi" }
  scalingLinear := scaling

/-- Bit 17 of a word in swapped registers. -/
theorem bit_written : BitWritten registerHandle registerConnection (levelSource false) 0 17 true
    [0, 1, 0, 0, 9] (none, [0, 1, 0, 2, 9]) :=
  derived_bit_write registerHandle_lawful (by decide) "[PLC].Bit" "[PLC].Level"

/-- A scaled source publishes a double, which has no bits. -/
theorem scaled_source : ¬ ∀ (t : Plctag) (conn : ConnectionConfig) (source : TagRuntime)
    (offset bit : Nat) (desired : Bool) (buf buf' : PlcBuffer) (label name : String), t.Lawful →
    source.cfg.datatype ∈ integerDatatypes →
    t.changeSourceBit label name source.cfg.datatype (isModbusConnection conn)
      source.cfg.wordOrder offset bit desired buf = (none, buf') →
    extractBitFromSnapshot
      (updateSnapshotFromPlcAtOffset .empty conn source (t.data buf') offset 0).2 bit =
        some desired := by
  intro h
  have hbit := h registerHandle registerConnection (levelSource true) 0 17 true [0, 1, 0, 0, 9]
    [0, 1, 0, 2, 9] "" "" registerHandle_lawful (by decide) (by decide +kernel)
  revert hbit
  decide +kernel

end

end OpcBridge
