import OpcBridge.Lib.Literals
import OpcBridge.Write.AliasText
import OpcBridge.Write.RegisterLayout

/-!
# Integers from text

An integer is converted by `stoi`, `stol` or `stoul` and then cast to its datatype. The three read
the digits at the front and ignore the rest, their widths are larger than those of the datatypes,
and `stoul` takes a minus sign. So a text is converted without loss exactly if no such reader
takes a number from it that the datatype has not, or that is not the whole text.
-/

namespace OpcBridge

open Lib

/-! ## Whole texts -/

/-- Blanks, a sign, digits and blanks, and the number they denote. -/
def IntegerText (cs : List Char) (n : Int) : Prop :=
  ∃ before sign ds after, cs = before ++ (sign ++ (ds ++ after)) ∧
    (∀ c ∈ before, isSpace c = true) ∧ (∀ c ∈ after, isSpace c = true) ∧
    ds ≠ [] ∧ (∀ c ∈ ds, isDigit c = true) ∧
    (sign = [] ∧ n = digitsVal ds ∨ sign = ['+'] ∧ n = digitsVal ds ∨
      sign = ['-'] ∧ n = -digitsVal ds)

/-- The text after a sign, if there is one. -/
def afterSign (body : List Char) : List Char :=
  if body.head? == some '-' || body.head? == some '+' then body.tail else body

/-- What `strtol` leaves behind the digits. -/
def afterInteger (cs : List Char) : List Char :=
  (afterSign (cs.dropWhile isSpace)).dropWhile isDigit

theorem readInteger_eq (cs : List Char) :
    readInteger cs =
      if ((afterSign (cs.dropWhile isSpace)).takeWhile isDigit).isEmpty then none
      else some (if (cs.dropWhile isSpace).head? == some '-' then
          -(digitsVal ((afterSign (cs.dropWhile isSpace)).takeWhile isDigit) : Int)
        else digitsVal ((afterSign (cs.dropWhile isSpace)).takeWhile isDigit)) := rfl

theorem isSpace_of_isDigit {c : Char} (h : isDigit c = true) : isSpace c = false :=
  isSpace_numeralChar (.inl h)

theorem isDigit_of_isSpace {c : Char} (h : isSpace c = true) : isDigit c = false := by
  by_contra hdigit
  rw [Bool.not_eq_false] at hdigit
  rw [isSpace_of_isDigit hdigit] at h
  cases h

theorem ne_sign_of_isDigit {c : Char} (h : isDigit c = true) : c ≠ '-' ∧ c ≠ '+' := by
  constructor
  · rintro rfl
    exact absurd h (by decide)
  · rintro rfl
    exact absurd h (by decide)

/-- A sign and a digit behind the blanks: what the reader gets. -/
theorem readInteger_signed {before sign ds after : List Char} {neg : Bool}
    (hbefore : ∀ c ∈ before, isSpace c = true) (hne : ds ≠ [])
    (hds : ∀ c ∈ ds, isDigit c = true) (hafter : ∀ c ∈ after.head?, isDigit c = false)
    (hsign : neg = false ∧ (sign = [] ∨ sign = ['+']) ∨ neg = true ∧ sign = ['-']) :
    readInteger (before ++ (sign ++ (ds ++ after))) =
        some (if neg then -(digitsVal ds : Int) else digitsVal ds) ∧
      afterInteger (before ++ (sign ++ (ds ++ after))) = after := by
  obtain ⟨d, ds', rfl⟩ := List.exists_cons_of_ne_nil hne
  have hd := hds d (List.mem_cons_self)
  obtain ⟨hminus, hplus⟩ := ne_sign_of_isDigit hd
  obtain ⟨htake, hdrop⟩ := Notation.takeWhile_stop hds hafter
  have hbody : (before ++ (sign ++ (d :: ds' ++ after))).dropWhile isSpace =
      sign ++ (d :: ds' ++ after) := by
    refine (Notation.takeWhile_stop hbefore ?_).2
    intro c hc
    rcases hsign with ⟨-, rfl | rfl⟩ | ⟨-, rfl⟩
    · cases hc
      exact isSpace_of_isDigit hd
    · cases hc
      decide
    · cases hc
      decide
  have hafterSign : afterSign (sign ++ (d :: ds' ++ after)) = d :: ds' ++ after := by
    rcases hsign with ⟨-, rfl | rfl⟩ | ⟨-, rfl⟩
    · simp [afterSign, hminus, hplus]
    · rfl
    · rfl
  have hneg : ((sign ++ (d :: ds' ++ after)).head? == some '-') = neg := by
    rcases hsign with ⟨rfl, rfl | rfl⟩ | ⟨rfl, rfl⟩
    · simpa using hminus
    · rfl
    · rfl
  constructor
  · rw [readInteger_eq, hbody, hafterSign, htake, hneg]
    rfl
  · rw [afterInteger, hbody, hafterSign, hdrop]

/-- A text denotes the number that is read from it if only blanks follow. -/
theorem integerText_iff {cs : List Char} {n : Int} : IntegerText cs n ↔
    readInteger cs = some n ∧ ∀ c ∈ afterInteger cs, isSpace c = true := by
  constructor
  · rintro ⟨before, sign, ds, after, rfl, hbefore, hafter, hne, hds, hsign⟩
    have hstop : ∀ c ∈ after.head?, isDigit c = false := fun c hc =>
      isDigit_of_isSpace (hafter c (List.mem_of_head? hc))
    rcases hsign with ⟨rfl, rfl⟩ | ⟨rfl, rfl⟩ | ⟨rfl, rfl⟩
    · obtain ⟨hread, hrest⟩ := readInteger_signed hbefore hne hds hstop (.inl ⟨rfl, .inl rfl⟩)
      exact ⟨hread, fun c hc => hafter c (by rwa [hrest] at hc)⟩
    · obtain ⟨hread, hrest⟩ := readInteger_signed hbefore hne hds hstop (.inl ⟨rfl, .inr rfl⟩)
      exact ⟨hread, fun c hc => hafter c (by rwa [hrest] at hc)⟩
    · obtain ⟨hread, hrest⟩ := readInteger_signed hbefore hne hds hstop (.inr ⟨rfl, rfl⟩)
      exact ⟨hread, fun c hc => hafter c (by rwa [hrest] at hc)⟩
  · rintro ⟨hread, hafter⟩
    rw [readInteger_eq] at hread
    split at hread
    · cases hread
    · rename_i hne
      have hne : (afterSign (cs.dropWhile isSpace)).takeWhile isDigit ≠ [] := by
        simpa using hne
      have hcs : cs = cs.takeWhile isSpace ++ cs.dropWhile isSpace :=
        List.takeWhile_append_dropWhile.symm
      have hrest : afterSign (cs.dropWhile isSpace) =
          (afterSign (cs.dropWhile isSpace)).takeWhile isDigit ++ afterInteger cs :=
        List.takeWhile_append_dropWhile.symm
      have hbody : ∃ sign, cs.dropWhile isSpace = sign ++ afterSign (cs.dropWhile isSpace) ∧
          (sign = ['-'] ∧ (cs.dropWhile isSpace).head? = some '-' ∨
            (sign = [] ∨ sign = ['+']) ∧ (cs.dropWhile isSpace).head? ≠ some '-') := by
        unfold afterSign
        cases hhead : cs.dropWhile isSpace with
        | nil => exact ⟨[], rfl, .inr ⟨.inl rfl, by simp⟩⟩
        | cons c body =>
          by_cases hminus : c = '-'
          · exact ⟨['-'], by simp [hminus], .inl ⟨rfl, by simp [hminus]⟩⟩
          · by_cases hplus : c = '+'
            · exact ⟨['+'], by simp [hplus], .inr ⟨.inr rfl, by simp [hplus]⟩⟩
            · exact ⟨[], by simp [hminus, hplus], .inr ⟨.inl rfl, by simp [hminus]⟩⟩
      obtain ⟨sign, hsplit, hsign⟩ := hbody
      refine ⟨cs.takeWhile isSpace, sign, (afterSign (cs.dropWhile isSpace)).takeWhile isDigit,
        afterInteger cs, ?_, fun c hc => List.mem_takeWhile_imp hc, hafter, hne,
        fun c hc => List.mem_takeWhile_imp hc, ?_⟩
      · rw [← hrest, ← hsplit, ← hcs]
      · rcases hsign with ⟨rfl, hhead⟩ | ⟨hsign, hhead⟩
        · rw [hhead] at hread
          exact .inr (.inr ⟨rfl, (Option.some.inj hread).symm⟩)
        · have hplain : ((cs.dropWhile isSpace).head? == some '-') = false :=
            beq_eq_false_iff_ne.2 hhead
          rw [hplain] at hread
          have hn := (Option.some.inj hread).symm
          rcases hsign with rfl | rfl
          · exact .inl ⟨rfl, hn⟩
          · exact .inr (.inl ⟨rfl, hn⟩)

/-! ## Conversion -/

section
variable [Floats]

/-- The numbers of an integer datatype. -/
def integerRange (dt : String) : Int × Int :=
  if dt = "int16" then (-32768, 32767)
  else if dt = "uint16" then (0, 65535)
  else if dt = "int32" then (-2147483648, 2147483647)
  else (0, 4294967295)

/-- The numbers that the reader of a datatype lets through: `stoi`, `stol` or `stoul`. -/
def readerRange (dt : String) : Int × Int :=
  if dt = "int16" then (-2147483648, 2147483647)
  else if dt = "int32" then (-9223372036854775808, 9223372036854775807)
  else (-18446744073709551615, 18446744073709551615)

def InRange (range : Int × Int) (n : Int) : Prop := range.1 ≤ n ∧ n ≤ range.2

instance (range : Int × Int) (n : Int) : Decidable (InRange range n) :=
  inferInstanceAs (Decidable (_ ∧ _))

/-- The cast to an integer datatype. -/
def castInteger (dt : String) (n : Int) : TagValue :=
  if dt = "int16" then .int16 (Int16.ofInt n)
  else if dt = "uint16" then .uint16 (UInt16.ofInt n)
  else if dt = "int32" then .int32 (Int32.ofInt n)
  else .uint32 (UInt32.ofInt n)

def integerOf : TagValue → Option Int
  | .int16 n => some n.toInt
  | .uint16 n => some n.toNat
  | .int32 n => some n.toInt
  | .uint32 n => some n.toNat
  | _ => none

omit [Floats] in
theorem toNat_uint16_ofInt (n : Int) : ((UInt16.ofInt n).toNat : Int) = n % 65536 := by
  rw [UInt16.ofInt, UInt16.toNat_ofNat']
  omega

omit [Floats] in
theorem toNat_uint32_ofInt (n : Int) : ((UInt32.ofInt n).toNat : Int) = n % 4294967296 := by
  rw [UInt32.ofInt, UInt32.toNat_ofNat']
  omega

/-- A number of the datatype is kept by the cast. -/
theorem integerOf_castInteger {dt : String} {n : Int} (h : InRange (integerRange dt) n) :
    integerOf (castInteger dt n) = some n := by
  unfold castInteger
  unfold InRange integerRange at h
  split_ifs at h ⊢ with h1 h2 h3
  · exact congrArg some (Int16.toInt_ofInt_of_le h.1 (by omega))
  · have hn := toNat_uint16_ofInt n
    exact congrArg some (by omega)
  · exact congrArg some (Int32.toInt_ofInt_of_le h.1 (by omega))
  · have hn := toNat_uint32_ofInt n
    exact congrArg some (by omega)

omit [Floats] in
theorem stoul_eq (s : String) : stoul s = ((readInteger s.toList).filter fun n =>
    decide (InRange (-18446744073709551615, 18446744073709551615) n)).map fun n =>
      (n % 18446744073709551616).toNat := by
  unfold stoul
  congr 2
  funext n
  apply decide_eq_decide.2
  unfold InRange
  omega

omit [Floats] in
theorem filter_inRange (o : Option Int) (low high : Int) :
    o.filter (fun n => decide (low ≤ n) && decide (n ≤ high)) =
      o.filter fun n => decide (InRange (low, high) n) := by
  congr 1
  funext n
  rw [← Bool.decide_and]
  rfl

/-- What the readers have in common. -/
theorem parse_integerText {dt text : String} (hdt : dt ∈ integerDatatypes) :
    parseStringToTagvalue text dt = ((readInteger text.toList).filter fun n =>
      decide (InRange (readerRange dt) n)).map (castInteger dt) := by
  have hcases : dt = "int16" ∨ dt = "uint16" ∨ dt = "int32" ∨ dt = "uint32" := by
    simpa [integerDatatypes] using hdt
  rcases hcases with rfl | rfl | rfl | rfl
  · show (stoi text).map _ = _
    rw [stoi, filter_inRange]
    rfl
  · show (stoul text).map _ = _
    rw [stoul_eq, Option.map_map]
    congr 1
    funext n
    have hn := toNat_uint16_ofInt n
    have heq : UInt16.ofNat (n % 18446744073709551616).toNat = UInt16.ofInt n := by
      apply UInt16.toNat_inj.1
      rw [UInt16.toNat_ofNat']
      omega
    exact congrArg TagValue.uint16 heq
  · show (stol text).map _ = _
    rw [stol, filter_inRange]
    rfl
  · show (stoul text).map _ = _
    rw [stoul_eq, Option.map_map]
    congr 1
    funext n
    have hn := toNat_uint32_ofInt n
    have heq : UInt32.ofNat (n % 18446744073709551616).toNat = UInt32.ofInt n := by
      apply UInt32.toNat_inj.1
      rw [UInt32.toNat_ofNat']
      omega
    exact congrArg TagValue.uint32 heq

theorem setConverted_some {what : String} {v : Option TagValue} {w : TagValue} (h : v = some w) :
    setConverted none what v = .ok w := by
  rw [h]
  rfl

/-- The conversion of the setter, where the other parser has a value. -/
theorem plcSetValueFromString_of_parse {dt text : String} {v : TagValue}
    (h : parseStringToTagvalue text dt = some v) :
    plcSetValueFromString dt text none = .ok v := by
  unfold parseStringToTagvalue at h
  unfold plcSetValueFromString
  split_ifs at h with hbool h16 hu16 h32 hu32 hf32 hf64 hstring
  · subst dt
    obtain ⟨b, hb, rfl⟩ := Option.map_eq_some_iff.1 h
    simp only [hb]
    rfl
  iterate 6
    · subst dt
      exact setConverted_some h
  · subst dt
    cases h
    rfl

/-! ## No silent wrap -/

/-- The whole text is an integer of the datatype, and the value is that integer. -/
def Denotes (dt text : String) (v : TagValue) : Prop :=
  ∃ n, IntegerText text.toList n ∧ InRange (integerRange dt) n ∧ integerOf v = some n

section
variable [FloatBits]

/-- Both conversions of a text, and the buffer where the setter fails. -/
structure NoSilentWrap (t : Plctag) (conn : ConnectionConfig) (cfg : TagConfig) (offset : Nat)
    (text : String) (buf : PlcBuffer) : Prop where
  parsed (v : TagValue) (h : parseStringToTagvalue text cfg.datatype = some v) :
    Denotes cfg.datatype text v
  set (v : TagValue) (buf' : PlcBuffer)
    (h : t.plcSetValueFromString cfg.datatype text (isModbusConnection conn) cfg.wordOrder offset
      buf = (.ok v, buf')) :
    Denotes cfg.datatype text v ∧ readRaw conn cfg (t.data buf') offset = .value v
  refused (err : String) (buf' : PlcBuffer)
    (h : t.plcSetValueFromString cfg.datatype text (isModbusConnection conn) cfg.wordOrder offset
      buf = (.error err, buf')) :
    buf' = buf

/-- The buffer takes a new first register of a word and refuses the second. -/
def TornWord (t : Plctag) (wordOrder : String) (offset : Nat) (bits : UInt32) (buf : PlcBuffer) :
    Prop :=
  ∃ mid err, t.uint16.set buf offset (registerPair wordOrder bits).1 = .ok mid ∧ mid ≠ buf ∧
    t.uint16.set mid (offset + 2) (registerPair wordOrder bits).2 = .error err

/-- The datatypes of two registers. -/
def wideDatatypes : List String := ["int32", "uint32"]

section
variable {t : Plctag} {conn : ConnectionConfig} {cfg : TagConfig} {offset : Nat} {text : String}
  {buf : PlcBuffer}

omit [FloatBits]

/-- A word that is not torn leaves the buffer as it is where it fails. -/
theorem tornWord_iff {wordOrder : String} {bits : UInt32} : TornWord t wordOrder offset bits buf ↔
    ∃ err buf', t.setRegisters wordOrder offset bits buf = (some err, buf') ∧ buf' ≠ buf := by
  rw [setRegisters_eq]
  unfold TornWord
  constructor
  · rintro ⟨mid, err, hfirst, hne, hsecond⟩
    refine ⟨err, mid, ?_, hne⟩
    rw [hfirst]
    show withStatus mid (t.uint16.set mid (offset + 2) _) = _
    rw [hsecond]
    rfl
  · rintro ⟨err, buf', h, hne⟩
    split at h
    · cases h
      exact absurd rfl hne
    · rename_i mid hfirst
      have hmid := withStatus_error h
      refine ⟨mid, err, hfirst, hmid ▸ hne, ?_⟩
      cases hsecond : t.uint16.set mid (offset + 2) (registerPair wordOrder bits).2 with
      | error err' =>
        unfold setOne at h
        rw [hsecond] at h
        cases h
        rfl
      | ok last =>
        unfold setOne at h
        rw [hsecond] at h
        cases h

omit [Floats] in
theorem toUInt32_ofInt (n : Int) : (Int32.ofInt n).toUInt32 = UInt32.ofInt n := by
  apply UInt32.toNat_inj.1
  have hn := toNat_uint32_ofInt n
  have hint : ((Int32.ofInt n).toUInt32.toNat : Int) = n % 4294967296 := by
    show ((BitVec.ofInt 32 n).toNat : Int) = _
    rw [BitVec.toNat_ofInt]
    omega
  omega

end

section
variable {t : Plctag} {conn : ConnectionConfig} {cfg : TagConfig} {offset : Nat} {text : String}
  {buf : PlcBuffer}

/-- A setter of an integer that fails has torn a word on Modbus or left the buffer as it is. -/
theorem setValue_castInteger_error {dt : String} (hdt : dt ∈ integerDatatypes) {n : Int} :
    (∃ err buf', t.setValue (isModbusConnection conn) cfg.wordOrder offset (castInteger dt n) buf =
        (some err, buf') ∧ buf' ≠ buf) ↔
      isModbusConnection conn = true ∧ dt ∈ wideDatatypes ∧
        TornWord t cfg.wordOrder offset (UInt32.ofInt n) buf := by
  have hcases : dt = "int16" ∨ dt = "uint16" ∨ dt = "int32" ∨ dt = "uint32" := by
    simpa [integerDatatypes] using hdt
  have hone {r : Except String PlcBuffer} : ¬ ∃ err buf', withStatus buf r = (some err, buf') ∧
      buf' ≠ buf := by
    rintro ⟨err, buf', h, hne⟩
    exact hne (withStatus_error h)
  rw [tornWord_iff]
  rcases hcases with rfl | rfl | rfl | rfl
  · exact ⟨fun h => absurd h hone, fun h => absurd h.2.1 (by decide)⟩
  · exact ⟨fun h => absurd h hone, fun h => absurd h.2.1 (by decide)⟩
  · cases hmodbus : isModbusConnection conn with
    | false => exact ⟨fun h => absurd h hone, fun h => absurd h.1 (by decide)⟩
    | true =>
      rw [← toUInt32_ofInt]
      exact ⟨fun h => ⟨rfl, by decide, h⟩, fun h => h.2.2⟩
  · cases hmodbus : isModbusConnection conn with
    | false => exact ⟨fun h => absurd h hone, fun h => absurd h.1 (by decide)⟩
    | true => exact ⟨fun h => ⟨rfl, by decide, h⟩, fun h => h.2.2⟩

omit [FloatBits] in
theorem castInteger_datatype {dt : String} (hdt : dt ∈ integerDatatypes) (n : Int) :
    (castInteger dt n).datatype = dt := by
  have hcases : dt = "int16" ∨ dt = "uint16" ∨ dt = "int32" ∨ dt = "uint32" := by
    simpa [integerDatatypes] using hdt
  rcases hcases with rfl | rfl | rfl | rfl <;> rfl

omit [FloatBits] in
/-- The numbers that a conversion gets from the text. -/
theorem parse_eq_some {dt : String} (hdt : dt ∈ integerDatatypes) {v : TagValue} :
    parseStringToTagvalue text dt = some v ↔
      ∃ n, readInteger text.toList = some n ∧ InRange (readerRange dt) n ∧ castInteger dt n = v := by
  rw [parse_integerText hdt, Option.map_eq_some_iff]
  constructor
  · rintro ⟨n, hn, hv⟩
    obtain ⟨hread, hrange⟩ := Option.filter_eq_some_iff.1 hn
    exact ⟨n, hread, of_decide_eq_true hrange, hv⟩
  · rintro ⟨n, hread, hrange, hv⟩
    exact ⟨n, Option.filter_eq_some_iff.2 ⟨hread, decide_eq_true hrange⟩, hv⟩

theorem readBack_castInteger {dt : String} (hdt : dt ∈ integerDatatypes) (n : Int) :
    readBack conn cfg (castInteger dt n) = castInteger dt n := by
  have hcases : dt = "int16" ∨ dt = "uint16" ∨ dt = "int32" ∨ dt = "uint32" := by
    simpa [integerDatatypes] using hdt
  rcases hcases with rfl | rfl | rfl | rfl <;> rfl

/-- The code keeps its word exactly for texts from which the reader takes a number of the datatype
that is the whole text, and where the buffer does not end between two registers. -/
theorem no_silent_wrap_iff (ht : t.Lawful) (hdt : cfg.datatype ∈ integerDatatypes) :
    NoSilentWrap t conn cfg offset text buf ↔
      ∀ n, readInteger text.toList = some n → InRange (readerRange cfg.datatype) n →
        InRange (integerRange cfg.datatype) n ∧
        (∀ c ∈ afterInteger text.toList, isSpace c = true) ∧
        (isModbusConnection conn = true → cfg.datatype ∈ wideDatatypes →
          ¬ TornWord t cfg.wordOrder offset (UInt32.ofInt n) buf) := by
  constructor
  · intro h n hread hrange
    have hparse := (parse_eq_some hdt).2 ⟨n, hread, hrange, rfl⟩
    obtain ⟨m, htext, hm, -⟩ := h.parsed _ hparse
    obtain ⟨hread', hafter⟩ := integerText_iff.1 htext
    obtain rfl := Option.some.inj (hread.symm.trans hread')
    refine ⟨hm, hafter, fun hmodbus hwide htorn => ?_⟩
    obtain ⟨err, buf', hset, hne⟩ :=
      (setValue_castInteger_error hdt).2 ⟨hmodbus, hwide, htorn⟩
    refine hne (h.refused err buf' ?_)
    unfold Plctag.plcSetValueFromString
    rw [plcSetValueFromString_of_parse hparse]
    dsimp only
    rw [hset]
  · intro h
    have hdenotes (v : TagValue) (hparse : parseStringToTagvalue text cfg.datatype = some v) :
        Denotes cfg.datatype text v := by
      obtain ⟨n, hread, hrange, rfl⟩ := (parse_eq_some hdt).1 hparse
      obtain ⟨hin, hafter, -⟩ := h n hread hrange
      exact ⟨n, integerText_iff.2 ⟨hread, hafter⟩, hin, integerOf_castInteger hin⟩
    refine ⟨hdenotes, fun v buf' hset => ?_, fun err buf' hset => ?_⟩
    · obtain ⟨hparse, hvalue⟩ := plcSetValueFromString_setValue hset
      obtain ⟨n, -, -, rfl⟩ := (parse_eq_some hdt).1 hparse
      have hname := castInteger_datatype hdt n
      have hraw := readRaw_setValue ht
        (fun _ hfloat => absurd (hfloat ▸ hname ▸ hdt) (by decide)) hname
        (fun hbool => absurd (hbool ▸ hname ▸ hdt) (by decide)) hvalue
      rw [readBack_castInteger hdt] at hraw
      exact ⟨hdenotes _ hparse, hraw⟩
    · by_contra hne
      unfold Plctag.plcSetValueFromString at hset
      split at hset
      · cases hset
        exact hne rfl
      · rename_i v hconvert
        obtain ⟨n, hread, hrange, rfl⟩ := (parse_eq_some hdt).1 (plcSetValueFromString_ok hconvert)
        obtain ⟨-, -, hwhole⟩ := h n hread hrange
        split at hset
        · rename_i hvalue
          cases hset
          obtain ⟨hmodbus, hwide, htorn⟩ :=
            (setValue_castInteger_error hdt).1 ⟨_, _, hvalue, hne⟩
          exact hwhole hmodbus hwide htorn
        · cases hset

end

end

end

section
attribute [local instance] doubles doubleBits

theorem minus_five : NoSilentWrap registerHandle registerConnection (registerTag "int16" "").cfg 0
      " -5\n" [0, 0] ↔
    ∀ n, readInteger " -5\n".toList = some n → InRange (readerRange "int16") n →
      InRange (integerRange "int16") n ∧ (∀ c ∈ afterInteger " -5\n".toList, isSpace c = true) ∧
      (isModbusConnection registerConnection = true → "int16" ∈ wideDatatypes →
        ¬ TornWord registerHandle "" 0 (UInt32.ofInt n) [0, 0]) :=
  no_silent_wrap_iff registerHandle_lawful (by decide)

/-- 65537 is written as 1. -/
theorem wraps : ¬ ∀ (t : Plctag) (conn : ConnectionConfig) (cfg : TagConfig) (offset : Nat)
    (text : String) (buf : PlcBuffer), t.Lawful → cfg.datatype ∈ integerDatatypes →
    NoSilentWrap t conn cfg offset text buf := by
  intro h
  have hwrap := h registerHandle registerConnection (registerTag "int16" "").cfg 0 "65537" [0, 0]
    registerHandle_lawful (by decide)
  obtain ⟨n, htext, hrange, -⟩ := hwrap.parsed (.int16 1) (by decide)
  have hread : readInteger "65537".toList = some 65537 := by decide
  obtain rfl := Option.some.inj ((integerText_iff.1 htext).1.symm.trans hread)
  exact absurd hrange (by decide)

end

end OpcBridge
