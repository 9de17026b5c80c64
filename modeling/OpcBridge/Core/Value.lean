import OpcBridge.Core.Text
import Mathlib.Data.Int.Basic

/-!
# Tag values

The value variant of a tag, its datatype strings, and the conversions between text, numbers and
values. Floating point is the machine's: `Floats` bundles the two float types with the operations
the code uses and the few IEEE facts about converting machine integers that results rest on.
-/

namespace OpcBridge

/-! ## Floating point -/

/-- `float` and `double` with the operations of the code. -/
class Floats where
  F32 : Type
  F64 : Type
  decEq32 : DecidableEq F32
  decEq64 : DecidableEq F64
  /-- `static_cast<double>` of an integer. -/
  ofInt : Int → F64
  /-- `static_cast<double>` of a float. -/
  widen : F32 → F64
  /-- `static_cast<float>` of a double. -/
  narrow : F64 → F32
  add : F64 → F64 → F64
  sub : F64 → F64 → F64
  mul : F64 → F64 → F64
  div : F64 → F64 → F64
  lt : F64 → F64 → Bool
  /-- `==` -/
  eq : F64 → F64 → Bool
  /-- `std::isfinite` -/
  isFinite : F64 → Bool
  /-- `std::llround` -/
  llround : F64 → Int
  /-- `std::stof`; `none` is either exception. -/
  stof : String → Option F32
  /-- `std::stod`; `none` is either exception. -/
  stod : String → Option F64
  /-- The float with the given bits. -/
  ofBits32 : UInt32 → F32
  /-- The double with the given bits. -/
  ofBits64 : UInt64 → F64
  narrow_widen (x : F32) : narrow (widen x) = x
  lt_ofInt {a b : Int} (ha : a.natAbs ≤ 4294967296) (hb : b.natAbs ≤ 4294967296) :
    lt (ofInt a) (ofInt b) = decide (a < b)
  eq_ofInt {a b : Int} (ha : a.natAbs ≤ 4294967296) (hb : b.natAbs ≤ 4294967296) :
    eq (ofInt a) (ofInt b) = decide (a = b)
  isFinite_ofInt {a : Int} (ha : a.natAbs ≤ 4294967296) : isFinite (ofInt a) = true
  llround_ofInt {a : Int} (ha : a.natAbs ≤ 4294967296) : llround (ofInt a) = a

export Floats (F32 F64)

instance [Floats] : DecidableEq F32 := Floats.decEq32
instance [Floats] : DecidableEq F64 := Floats.decEq64

/-- Floats that are whole numbers: a double that holds an integer behaves like this as long as no
operation rounds. -/
@[reducible] def intFloats : Floats where
  F32 := Int
  F64 := Int
  decEq32 := inferInstance
  decEq64 := inferInstance
  ofInt n := n
  widen x := x
  narrow x := x
  add := (· + ·)
  sub := (· - ·)
  mul := (· * ·)
  div := (· / ·)
  lt a b := decide (a < b)
  eq a b := decide (a = b)
  isFinite _ := true
  llround x := x
  stof s := readInteger s.toList
  stod s := readInteger s.toList
  ofBits32 w := w.toNat
  ofBits64 w := w.toNat
  narrow_widen _ := rfl
  lt_ofInt _ _ := rfl
  eq_ofInt _ _ := rfl
  isFinite_ofInt _ := rfl
  llround_ofInt _ := rfl

variable [Floats]

/-! ## Values and datatypes -/

/-- The alternatives of the variant. -/
inductive TagValue [Floats]
  | bool (b : Bool)
  | int16 (n : Int16)
  | int32 (n : Int32)
  | uint16 (n : UInt16)
  | uint32 (n : UInt32)
  | float32 (x : F32)
  | float64 (x : F64)
  | string (s : String)
deriving DecidableEq

namespace TagValue

/-- The datatype string that names the alternative. -/
@[simp] def datatype : TagValue → String
  | bool _ => "bool"
  | int16 _ => "int16"
  | int32 _ => "int32"
  | uint16 _ => "uint16"
  | uint32 _ => "uint32"
  | float32 _ => "float32"
  | float64 _ => "float64"
  | string _ => "string"

end TagValue

/-- The datatype strings in the order of `is_supported_datatype`. -/
def supportedDatatypes : List String :=
  ["bool", "int16", "uint16", "int32", "uint32", "float32", "float64", "string"]

def isSupportedDatatype (dt : String) : Bool := dt ∈ supportedDatatypes

def isNumericDatatype (dt : String) : Bool :=
  dt ∈ ["int16", "uint16", "int32", "uint32", "float32", "float64"]

def normalizeScaledDatatype (dt : String) : String := if isNumericDatatype dt then dt else ""

def defaultTagValueForDatatype (dt : String) : TagValue :=
  if dt = "bool" then .bool false
  else if dt = "int16" then .int16 0
  else if dt = "uint16" then .uint16 0
  else if dt = "int32" then .int32 0
  else if dt = "uint32" then .uint32 0
  else if dt = "float32" then .float32 (Floats.narrow (Floats.ofInt 0))
  else if dt = "float64" then .float64 (Floats.ofInt 0)
  else .string ""

/-! ## Numbers -/

/-- `none` for a bool or a string. -/
def tagvalueToDouble : TagValue → Option F64
  | .bool _ => none
  | .string _ => none
  | .int16 n => some (Floats.ofInt n.toInt)
  | .int32 n => some (Floats.ofInt n.toInt)
  | .uint16 n => some (Floats.ofInt n.toNat)
  | .uint32 n => some (Floats.ofInt n.toNat)
  | .float32 x => some (Floats.widen x)
  | .float64 x => some x

/-- `v < lo || v > hi` -/
def outOfRange (v : F64) (lo hi : Int) : Bool :=
  Floats.lt v (Floats.ofInt lo) || Floats.lt (Floats.ofInt hi) v

def castDoubleToTagvalue (v : F64) (dt : String) : Except String TagValue :=
  if dt = "float64" then .ok (.float64 v)
  else if dt = "float32" then .ok (.float32 (Floats.narrow v))
  else if dt = "int32" then
    if outOfRange v (-2147483648) 2147483647 then .error "Scaled value out of range for int32"
    else .ok (.int32 (Int32.ofInt (Floats.llround v)))
  else if dt = "uint32" then
    if outOfRange v 0 4294967295 then .error "Scaled value out of range for uint32"
    else .ok (.uint32 (UInt32.ofInt (Floats.llround v)))
  else if dt = "int16" then
    if outOfRange v (-32768) 32767 then .error "Scaled value out of range for int16"
    else .ok (.int16 (Int16.ofInt (Floats.llround v)))
  else if dt = "uint16" then
    if outOfRange v 0 65535 then .error "Scaled value out of range for uint16"
    else .ok (.uint16 (UInt16.ofInt (Floats.llround v)))
  else .error ("Unsupported scaled datatype '" ++ dt ++ "'")

/-- A cast that succeeds gives the alternative it was asked for. -/
theorem datatype_of_cast {v : F64} {dt : String} {out : TagValue}
    (h : castDoubleToTagvalue v dt = .ok out) : out.datatype = dt := by
  unfold castDoubleToTagvalue at h
  split_ifs at h <;> cases h <;> simp_all

theorem outOfRange_ofInt {n lo hi : Int} (h1 : lo ≤ n) (h2 : n ≤ hi) (hlo : -4294967296 ≤ lo)
    (hhi : hi ≤ 4294967296) : outOfRange (Floats.ofInt n) lo hi = false := by
  unfold outOfRange
  rw [Floats.lt_ofInt (by omega) (by omega), Floats.lt_ofInt (by omega) (by omega)]
  simp only [Bool.or_eq_false_iff, decide_eq_false_iff_not]
  omega

omit [Floats] in
theorem uint32_ofInt_toNat (n : UInt32) : UInt32.ofInt (n.toNat : Int) = n := by
  have h := n.toNat_lt
  have hn : ((n.toNat : Int) % 2 ^ 32).toNat = n.toNat := by omega
  rw [UInt32.ofInt, hn, UInt32.ofNat_toNat]

omit [Floats] in
theorem uint16_ofInt_toNat (n : UInt16) : UInt16.ofInt (n.toNat : Int) = n := by
  have h := n.toNat_lt
  have hn : ((n.toNat : Int) % 2 ^ 16).toNat = n.toNat := by omega
  rw [UInt16.ofInt, hn, UInt16.ofNat_toNat]

/-- A number survives the way over `double` and back to its own datatype. -/
theorem cast_tagvalueToDouble {v : TagValue} {x : F64} (h : tagvalueToDouble v = some x) :
    castDoubleToTagvalue x v.datatype = .ok v := by
  cases v with
  | bool b => cases h
  | string s => cases h
  | float64 y =>
    cases h
    rfl
  | float32 y =>
    cases h
    simp [castDoubleToTagvalue, Floats.narrow_widen]
  | int16 n =>
    cases h
    have h1 := n.le_toInt
    have h2 := n.toInt_lt
    have hr : outOfRange (Floats.ofInt n.toInt) (-32768) 32767 = false :=
      outOfRange_ofInt (by omega) (by omega) (by omega) (by omega)
    simp [castDoubleToTagvalue, hr, Floats.llround_ofInt (show n.toInt.natAbs ≤ 4294967296 by omega)]
  | int32 n =>
    cases h
    have h1 := n.le_toInt
    have h2 := n.toInt_lt
    have hr : outOfRange (Floats.ofInt n.toInt) (-2147483648) 2147483647 = false :=
      outOfRange_ofInt (by omega) (by omega) (by omega) (by omega)
    simp [castDoubleToTagvalue, hr, Floats.llround_ofInt (show n.toInt.natAbs ≤ 4294967296 by omega)]
  | uint16 n =>
    cases h
    have h1 := n.toNat_lt
    have hr : outOfRange (Floats.ofInt n.toNat) 0 65535 = false :=
      outOfRange_ofInt (by omega) (by omega) (by omega) (by omega)
    simp [castDoubleToTagvalue, hr, uint16_ofInt_toNat,
      Floats.llround_ofInt (show ((n.toNat : Int)).natAbs ≤ 4294967296 by omega)]
  | uint32 n =>
    cases h
    have h1 := n.toNat_lt
    have hr : outOfRange (Floats.ofInt n.toNat) 0 4294967295 = false :=
      outOfRange_ofInt (by omega) (by omega) (by omega) (by omega)
    simp [castDoubleToTagvalue, hr, uint32_ofInt_toNat,
      Floats.llround_ofInt (show ((n.toNat : Int)).natAbs ≤ 4294967296 by omega)]

/-- `std::max` -/
def fmax (a b : F64) : F64 := if Floats.lt a b then b else a

/-- `std::min` -/
def fmin (a b : F64) : F64 := if Floats.lt b a then b else a

/-! ## Text -/

def parseBool (s : String) : Option Bool :=
  let v := toLowerCopy s
  if v ∈ ["1", "true", "on", "yes"] then some true
  else if v ∈ ["0", "false", "off", "no"] then some false
  else none

def parseStringToTagvalue (s dt : String) : Option TagValue :=
  if dt = "bool" then (parseBool s).map .bool
  else if dt = "int16" then (stoi s).map fun n => .int16 (Int16.ofInt n)
  else if dt = "uint16" then (stoul s).map fun n => .uint16 (UInt16.ofNat n)
  else if dt = "int32" then (stol s).map fun n => .int32 (Int32.ofInt n)
  else if dt = "uint32" then (stoul s).map fun n => .uint32 (UInt32.ofNat n)
  else if dt = "float32" then (Floats.stof s).map .float32
  else if dt = "float64" then (Floats.stod s).map .float64
  else if dt = "string" then some (.string s)
  else none

/-- Text that parses gives the alternative it was parsed as. -/
theorem datatype_of_parse {s dt : String} {v : TagValue} (h : parseStringToTagvalue s dt = some v) :
    v.datatype = dt := by
  unfold parseStringToTagvalue at h
  split_ifs at h with h1 h2 h3 h4 h5 h6 h7 h8
  iterate 7
    · obtain ⟨_, _, rfl⟩ := Option.map_eq_some_iff.1 h
      subst dt
      rfl
  · cases h
    exact h8.symm

end OpcBridge
