import OpcBridge.Core.Doubles
import OpcBridge.Core.Numerals
import OpcBridge.Flow.Node

/-!
# The text of a number

What `scalar_text` writes for `opc_tag_write`, for a scalar `mqtt_publish` and for the conversion to
a string, read as a decimal numeral. An integer of the `int64_t` range keeps its value. A larger
unsigned value goes through `long long` and is written negative, and a float is written with the six
significant digits of a C++ stream, so it keeps its value only if it has no more digits
(`scalarText_exact_iff`).
-/

namespace OpcBridge.Flow

open Lib
open Alarms (Json JsonLib)

/-! ## The library -/

def digitValue (c : Char) : Nat :=
  if c.isDigit then c.toNat - '0'.toNat
  else if c.isLower then c.toNat - 'a'.toNat + 10
  else c.toNat - 'A'.toNat + 10

def inBase (base : Nat) (c : Char) : Bool := c.isAlphanum && digitValue c < base

/-- `strtoull` takes a prefix `0x` in base 16. -/
def skipPrefix (base : Nat) : List Char → List Char
  | '0' :: x :: d :: ds =>
    if base = 16 ∧ (x = 'x' ∨ x = 'X') ∧ inBase 16 d then d :: ds else '0' :: x :: d :: ds
  | ds => ds

/-- `std::stoull` where it uses the whole text; a minus sign negates the unsigned value. -/
def stoull (base : Nat) (s : String) : Option UInt64 :=
  let body := s.toList.dropWhile isSpace
  let neg := body.head? == some '-'
  let ds := skipPrefix base (if neg || body.head? == some '+' then body.tail else body)
  let n := ds.foldl (fun n d => base * n + digitValue d) 0
  if ds = [] ∨ ¬ ds.all (inBase base) ∨ 2 ^ 64 ≤ n then none
  else some (UInt64.ofInt (if neg then -(n : Int) else n))

attribute [local instance] doubles

/-- The library with the machine's numbers; JSON text and expressions are parameters. -/
@[reducible] def decimalFlow (parse : String → Option Json)
    (evaluate : String → List (String × F64) → Except String F64) : FlowLib where
  stodAll s := (readDecimal (s.toList.dropWhile isSpace)).bind (stodValue binary64)
  stoullAll := stoull
  isWhole x := match x with
    | .finite q _ => decide (q.den = 1)
    | _ => false
  printDouble x := String.ofList (match x with
    | .finite q _ => printDecimal 6 q
    | .infinite s => if s then "-inf".toList else "inf".toList
    | .nan => "nan".toList)
  parseJson := parse
  evaluate := evaluate

/-- The library on values without arrays, objects and texts of fractions. -/
@[reducible] def decimalJson : JsonLib where
  eq a b := match a, b with
    | .null, .null => true
    | .bool x, .bool y => x == y
    | .string x, .string y => x == y
    | .int x, .int y => x == y
    | .uint x, .uint y => x == y
    | .int x, .uint y => x == (Int64.ofNat y).toInt
    | .uint x, .int y => (Int64.ofNat x).toInt == y
    | a, b =>
      match a.number, b.number with
      | some x, some y => Floats.eq x y
      | _, _ => false
  dump a := match a with
    | .null => "null"
    | .bool x => if x then "true" else "false"
    | .int x => toString x
    | .uint x => toString x
    | .string x => "\"" ++ x ++ "\""
    | _ => ""
  truncate x := match x with
    | .finite q _ => q.num.tdiv q.den
    | _ => 0
  truncate64 x := match x with
    | .finite q _ => q.num.tdiv q.den
    | _ => 0

/-! ## The statement -/

/-- The number of a numeric value. -/
def Denotes : Json → ℚ → Prop
  | .int n, q => -2 ^ 63 ≤ n ∧ n < 2 ^ 63 ∧ q = n
  | .uint n, q => n < 2 ^ 64 ∧ q = n
  | .float x, q => ∃ h, x = .finite q h
  | _, _ => False

/-- The values that `scalarText` writes exactly. -/
def WritesExactly (q : ℚ) : Json → Prop
  | .uint n => n < 2 ^ 63
  | .float _ => ∃ m k : Int, |m| < 10 ^ 6 ∧ q = m * 10 ^ k
  | _ => True

/-! ## Integers -/

theorem inBase_of_isDigit {c : Char} (h : c.isDigit = true) : inBase 10 c = true := by
  have hrange := Char.isDigit_iff_toNat.1 h
  have hvalue : digitValue c < 10 := by
    rw [digitValue, if_pos h]
    have hzero : '0'.toNat = 48 := rfl
    have hnine : '9'.toNat = 57 := rfl
    omega
  simp [inBase, Char.isAlphanum, h, hvalue]

theorem foldl_digitValue {ds : List Char} (h : ∀ c ∈ ds, c.isDigit = true) (init : Nat) :
    ds.foldl (fun n d => 10 * n + digitValue d) init = Nat.ofDigitChars 10 ds init := by
  unfold Nat.ofDigitChars
  refine List.foldl_ext _ _ _ fun n d hd => ?_
  rw [digitValue, if_pos (h d hd)]

theorem skipPrefix_ten (ds : List Char) : skipPrefix 10 ds = ds := by
  unfold skipPrefix
  split
  · exact if_neg (by omega)
  · rfl

theorem stoull_toString {n : Int} (hn : n.natAbs < 2 ^ 64) :
    stoull 10 (toString n) = some (UInt64.ofInt n) := by
  have htext := toList_toString n
  have hsigned : (toString n).toList.dropWhile isSpace = (toString n).toList :=
    dropWhile_isSpace fun c hc => isSpace_numeralChar (numeralChar_toString n c hc)
  have hsign : (if n < 0 then -(n.natAbs : Int) else n.natAbs) = n := by
    split <;> omega
  rw [stoull, hsigned, htext]
  generalize n.natAbs = m at *
  have hdigits := toDigits_isDigit m
  have hall : (Nat.toDigits 10 m).all (inBase 10) = true :=
    List.all_eq_true.2 fun c hc => inBase_of_isDigit (hdigits c hc)
  have hfold : (Nat.toDigits 10 m).foldl (fun n d => 10 * n + digitValue d) 0 = m := by
    rw [foldl_digitValue hdigits]
    exact digitsNat_toDigits m
  have hne : Nat.toDigits 10 m ≠ [] := Nat.toDigits_ne_nil
  have hdigit : ∀ c, (Nat.toDigits 10 m).head? = some c → c.isDigit = true := fun c hc =>
    hdigits c (List.mem_of_head? hc)
  have hminus : (Nat.toDigits 10 m).head? ≠ some '-' := fun h => by cases hdigit _ h
  have hplus : (Nat.toDigits 10 m).head? ≠ some '+' := fun h => by cases hdigit _ h
  by_cases hneg : n < 0
  · rw [if_pos hneg] at hsign
    simp [hneg, signText, skipPrefix_ten, hne, hall, hfold, hsign]
    omega
  · rw [if_neg hneg] at hsign
    simp [hneg, signText, skipPrefix_ten, hne, hall, hfold, hminus, hplus, hsign]
    omega

/-! ## Reading a text -/

section

variable [JsonLib] (parse : String → Option Json)
  (evaluate : String → List (String × F64) → Except String F64)

omit [JsonLib] in
theorem asNumber_string {s : String} {q : ℚ} (hs : ∀ c ∈ s.toList, NumeralChar c)
    (hread : readDecimal s.toList = some q) :
    letI := decimalFlow parse evaluate
    asNumber (.string s) = stodValue binary64 q := by
  have hspace : ∀ c ∈ s.toList, isSpace c = false := fun c hc => isSpace_numeralChar (hs c hc)
  show (readDecimal ((trimCopy s).toList.dropWhile isSpace)).bind (stodValue binary64) = _
  rw [trimCopy_eq_self hspace, dropWhile_isSpace hspace, hread]
  rfl

theorem parseBitInteger_string {s : String} (hs : ∀ c ∈ s.toList, NumeralChar c)
    (hne : s.toList ≠ []) :
    letI := decimalFlow parse evaluate
    parseBitInteger (.string s) = stoull 10 s := by
  have hspace : ∀ c ∈ s.toList, isSpace c = false := fun c hc => isSpace_numeralChar (hs c hc)
  have hother : ∀ {a x : Char} {cs : List Char}, s.toList = a :: x :: cs →
      x ∉ ['x', 'X', 'b', 'B'] := by
    intro a x cs heq hx
    have hnumeral : NumeralChar x := hs x (by simp [heq])
    exact (by decide : ∀ c ∈ ['x', 'X', 'b', 'B'], ¬ NumeralChar c) x hx hnumeral
  let _ := decimalFlow parse evaluate
  unfold parseBitInteger
  dsimp only
  rw [trimCopy_eq_self hspace]
  split
  · rename_i heq
    exact absurd heq hne
  · rename_i heq
    exact absurd (by decide) (hother heq)
  · rename_i heq
    exact absurd (by decide) (hother heq)
  · rename_i heq
    exact absurd (by decide) (hother heq)
  · rename_i heq
    exact absurd (by decide) (hother heq)
  · rw [String.ofList_toList]
    rfl

/-- The text of an integer. -/
theorem toString_reads {n : Int} (hn : n.natAbs < 2 ^ 64) :
    letI := decimalFlow parse evaluate
    asNumber (.string (toString n)) = some (Floats.ofInt n) ∧
      parseBitInteger (.string (toString n)) = some (UInt64.ofInt n) := by
  have hne : (toString n).toList ≠ [] := by
    rw [toList_toString]
    exact List.append_ne_nil_of_right_ne_nil _ Nat.toDigits_ne_nil
  constructor
  · rw [asNumber_string parse evaluate (numeralChar_toString n) (readDecimal_toString n)]
    exact stodValue_intCast (by omega)
  · rw [parseBitInteger_string parse evaluate (numeralChar_toString n) hne, stoull_toString hn]

/-! ## Which numbers keep their value -/

omit [JsonLib] in
/-- The text of an unsigned value. -/
theorem uint_text_eq {n : Nat} : ((Int64.ofNat n).toInt : Int) = n ↔ n < 2 ^ 63 := by
  constructor
  · intro h
    have hlt := (Int64.ofNat n).toInt_lt
    omega
  · exact Int64.toInt_ofNat_of_lt

/-- The text of an event's number, for every number. -/
theorem scalarText_exact_iff {v : Json} {q : ℚ} (h : Denotes v q) :
    letI := decimalFlow parse evaluate
    (readDecimal (scalarText v).toList = some q ∧
        asNumber (.string (scalarText v)) = asNumber v ∧
        (v.isNumberInteger = true →
          parseBitInteger (.string (scalarText v)) = parseBitInteger v)) ↔
      WritesExactly q v := by
  let _ := decimalFlow parse evaluate
  cases v with
  | int n =>
    obtain ⟨hlow, hhigh, rfl⟩ := h
    obtain ⟨hnumber, hbits⟩ := toString_reads parse evaluate (n := n) (by omega)
    exact iff_of_true ⟨readDecimal_toString n, hnumber, fun _ => hbits⟩ trivial
  | uint n =>
    obtain ⟨hhigh, rfl⟩ := h
    constructor
    · rintro ⟨hread, -⟩
      have hvalue := Option.some.inj ((readDecimal_toString _).symm.trans hread)
      exact uint_text_eq.1 (by exact_mod_cast hvalue)
    · intro hlt
      obtain ⟨hnumber, hbits⟩ := toString_reads parse evaluate (n := (n : Int)) (by omega)
      have htext : scalarText (.uint n) = toString (n : Int) :=
        congrArg toString (uint_text_eq.2 hlt)
      rw [htext]
      refine ⟨readDecimal_toString n, hnumber, fun _ => hbits.trans ?_⟩
      have hmod : ((n : Int) % 2 ^ 64).toNat = n := by omega
      show some (UInt64.ofInt n) = some (UInt64.ofNat n)
      rw [UInt64.ofInt, hmod]
  | float x =>
    obtain ⟨hfits, rfl⟩ := h
    have htext : (scalarText (.float (.finite q hfits))).toList = printDecimal 6 q :=
      String.toList_ofList
    have hread : readDecimal (printDecimal 6 q) = some q ↔
        ∃ m k : Int, |m| < 10 ^ 6 ∧ q = m * 10 ^ k := by
      rw [readDecimal_print (by omega), Option.some_inj]
      exact roundDigits_eq_iff (by omega) (by omega)
    rw [htext]
    refine ⟨fun h => hread.1 h.1, fun h => ⟨hread.2 h, ?_, fun hinteger => by cases hinteger⟩⟩
    rw [asNumber_string parse evaluate (q := q) (by rw [htext]; exact mem_printDecimal)
      (by rw [htext]; exact hread.2 h), stodValue_of_fits hfits]
    rfl
  | null => cases h
  | bool b => cases h
  | string s => cases h
  | array items => cases h
  | object fields => cases h

end

theorem scalarText_half :
    letI := decimalJson
    letI := decimalFlow (fun _ => none) fun _ _ => .error ""
    let half : Json := .float (binary64.ofRat (1 / 2))
    (readDecimal (scalarText half).toList = some (1 / 2) ∧
        asNumber (.string (scalarText half)) = asNumber half ∧
        (half.isNumberInteger = true →
          parseBitInteger (.string (scalarText half)) = parseBitInteger half)) ↔
      WritesExactly (1 / 2) half :=
  letI := decimalJson
  scalarText_exact_iff (fun _ => none) (fun _ _ => .error "")
    (v := .float (binary64.ofRat (1 / 2))) (q := 1 / 2)
    ⟨by decide +kernel, by decide +kernel⟩

/-- `2 ^ 63` is written with a minus sign, and 617283.5 without its fraction. -/
theorem scalarText_wrong :
    letI := decimalJson
    letI := decimalFlow (fun _ => none) fun _ _ => .error ""
    (Denotes (.uint (2 ^ 63)) (2 ^ 63) ∧
        scalarText (.uint (2 ^ 63)) = "-9223372036854775808" ∧
        readDecimal (scalarText (.uint (2 ^ 63))).toList ≠ some (2 ^ 63)) ∧
      (Denotes (.float (binary64.ofRat (1234567 / 2))) (1234567 / 2) ∧
        scalarText (.float (binary64.ofRat (1234567 / 2))) = "617284" ∧
        readDecimal (scalarText (.float (binary64.ofRat (1234567 / 2)))).toList ≠
          some (1234567 / 2)) := by
  refine ⟨⟨⟨by decide, by norm_num⟩, by decide +kernel, by decide +kernel⟩,
    ⟨⟨by decide +kernel, by decide +kernel⟩, by decide +kernel, by decide +kernel⟩⟩

end OpcBridge.Flow
