import OpcBridge.Core.Value

/-!
# JSON values of the alarm server

The value type of nlohmann's `json` and the conversions of `opcbridge-alarms/src/main.cpp` on it.
What the library itself decides (equality inside one type, the text of a value) and the conversion
of a double to `int` are the operations of `JsonLib`.
-/

namespace OpcBridge.Alarms

open OpcBridge

variable [Floats]

inductive Json [Floats]
  | null
  | bool (b : Bool)
  | int (n : Int)
  /-- `number_unsigned`, a non-negative literal. -/
  | uint (n : Nat)
  | float (x : F64)
  | string (s : String)
  | array (items : List Json)
  | object (fields : List (String × Json))

/-- `json::value_t` -/
inductive JsonType
  | null
  | boolean
  | numberInteger
  | numberUnsigned
  | numberFloat
  | string
  | array
  | object
deriving DecidableEq

namespace Json

def type : Json → JsonType
  | null => .null
  | bool _ => .boolean
  | int _ => .numberInteger
  | uint _ => .numberUnsigned
  | float _ => .numberFloat
  | string _ => .string
  | array _ => .array
  | object _ => .object

def isNull : Json → Bool
  | null => true
  | _ => false

/-- `get<double>()` of a number, `none` for another type. -/
def number : Json → Option F64
  | int n => some (Floats.ofInt n)
  | uint n => some (Floats.ofInt n)
  | float x => some x
  | _ => none

/-- A member of an object. -/
def find : Json → String → Option Json
  | object fields, key => fields.lookup key
  | _, _ => none

end Json

/-- The operations of the library and of the machine on values. -/
class JsonLib [Floats] where
  /-- `a == b` -/
  eq : Json → Json → Bool
  dump : Json → String
  /-- `static_cast<int>` of a double. -/
  truncate : F64 → Int
  /-- `static_cast<int64_t>` of a double. -/
  truncate64 : F64 → Int

/-- The library on values without arrays, objects and fractions. -/
@[reducible] def intJson : @JsonLib intFloats :=
  letI := intFloats
  { eq := fun a b => match a, b with
      | .null, .null => true
      | .bool x, .bool y => x == y
      | .int x, .int y => decide (x = y)
      | .uint x, .uint y => decide (x = y)
      | .float x, .float y => Floats.eq x y
      | .string x, .string y => x == y
      | _, _ => false
    dump := fun a => match a with
      | .null => "null"
      | .bool x => if x then "true" else "false"
      | .int x => toString x
      | .uint x => toString x
      | .string x => "\"" ++ x ++ "\""
      | _ => ""
    truncate := fun x => x
    truncate64 := fun x => x }

variable [JsonLib]

def jsonEqualish (a b : Json) : Bool :=
  if a.type = b.type then JsonLib.eq a b
  else match a, b with
    | .bool x, b =>
      match b.number with
      | some y => Floats.eq (Floats.ofInt (if x then 1 else 0)) y
      | none => JsonLib.dump a == JsonLib.dump b
    | a, .bool y =>
      match a.number with
      | some x => Floats.eq x (Floats.ofInt (if y then 1 else 0))
      | none => JsonLib.dump a == JsonLib.dump b
    | a, b =>
      match a.number, b.number with
      | some x, some y => Floats.eq x y
      | _, _ => JsonLib.dump a == JsonLib.dump b

omit [JsonLib] in
/-- Every integer goes through `int64_t`. -/
def coerceNumber : Json → Option F64
  | .float x => some x
  | .int n => some (Floats.ofInt n)
  | .uint n => some (Floats.ofInt (Int64.ofNat n).toInt)
  | .bool b => some (Floats.ofInt (if b then 1 else 0))
  | .string s => Floats.stod s
  | _ => none

def jsonTextValue : Json → String
  | .string s => s
  | .null => ""
  | v => JsonLib.dump v

/-- 0 is bad, `none` says nothing. -/
def normalizeQuality : Json → Option Int
  | .null => none
  | .bool b => some (if b then 1 else 0)
  | .int n => some (Int32.ofInt n).toInt
  | .uint n => some (Int32.ofNat n).toInt
  | .float x => some (JsonLib.truncate x)
  | .string s =>
    let text := toLowerCopy s
    if text = "" then none
    else if text ∈ ["good", "ok", "true"] then some 1
    else if text ∈ ["bad", "bad_handle", "stale", "false"] then some 0
    else stoi text
  | .array _ => none
  | .object _ => none

/-! ## Typed access -/

namespace Json

section
omit [JsonLib]

def isObject : Json → Bool
  | object _ => true
  | _ => false

def isArray : Json → Bool
  | array _ => true
  | _ => false

def isString : Json → Bool
  | string _ => true
  | _ => false

def isBoolean : Json → Bool
  | bool _ => true
  | _ => false

def isNumberInteger : Json → Bool
  | int _ => true
  | uint _ => true
  | _ => false

def isNumber : Json → Bool
  | int _ => true
  | uint _ => true
  | float _ => true
  | _ => false

def typeName : Json → String
  | null => "null"
  | bool _ => "boolean"
  | int _ => "number"
  | uint _ => "number"
  | float _ => "number"
  | string _ => "string"
  | array _ => "array"
  | object _ => "object"

/-- The text of `type_error` 302. -/
def typeError (expected : String) (j : Json) : String :=
  "[json.exception.type_error.302] type must be " ++ expected ++ ", but is " ++ j.typeName

/-- `get<std::string>()` -/
def getString : Json → Except String String
  | string s => .ok s
  | j => .error (typeError "string" j)

/-- `get<bool>()` -/
def getBool : Json → Except String Bool
  | bool b => .ok b
  | j => .error (typeError "boolean" j)

/-- `get<double>()` -/
def getDouble (j : Json) : Except String F64 :=
  match j.number with
  | some x => .ok x
  | none => .error (typeError "number" j)

end

/-- `get<int>()`, of a boolean too. -/
def getInt : Json → Except String Int
  | bool b => .ok (if b then 1 else 0)
  | int n => .ok (Int32.ofInt n).toInt
  | uint n => .ok (Int32.ofNat n).toInt
  | float x => .ok (JsonLib.truncate x)
  | j => .error (typeError "number" j)

/-- `get<long long>()`, of a boolean too. -/
def getLong : Json → Except String Int
  | bool b => .ok (if b then 1 else 0)
  | int n => .ok n
  | uint n => .ok (Int64.ofNat n).toInt
  | float x => .ok (JsonLib.truncate64 x)
  | j => .error (typeError "number" j)

section
omit [JsonLib]

/-- `j.value(key, default)` -/
def value {α : Type} (get : Json → Except String α) (j : Json) (key : String) (default : α) :
    Except String α :=
  match j with
  | object _ =>
    match j.find key with
    | some v => get v
    | none => .ok default
  | j => .error ("[json.exception.type_error.306] cannot use value() with " ++ j.typeName)

def valueString : Json → String → String → Except String String := value getString

def valueBool : Json → String → Bool → Except String Bool := value getBool

def valueDouble : Json → String → F64 → Except String F64 := value getDouble

end

def valueInt : Json → String → Int → Except String Int := value getInt

def valueLong : Json → String → Int → Except String Int := value getLong

omit [JsonLib]

/-- The member `key` if `j.contains(key)` and it passes the test. -/
def member (j : Json) (key : String) (test : Json → Bool) : Option Json := (j.find key).filter test

/-- `j.contains(key)` -/
def contains (j : Json) (key : String) : Bool := (j.find key).isSome

/-- The items of the member `key`, if it is an array. -/
def memberItems (j : Json) (key : String) : Option (List Json) :=
  match j.find key with
  | some (array items) => some items
  | _ => none

/-- The strings in an array. -/
def stringItems (items : List Json) : List String :=
  items.filterMap fun
    | string s => some s
    | _ => none

end Json

omit [JsonLib]

def jsonStringOrEmpty (obj : Json) (key : String) : String :=
  match obj.find key with
  | some (.string s) => s
  | _ => ""

end OpcBridge.Alarms
