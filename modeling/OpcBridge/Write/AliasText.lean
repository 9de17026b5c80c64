import OpcBridge.Core.Doubles
import OpcBridge.Core.Numerals
import OpcBridge.Write.WriteTag

/-!
# The text between an alias and its source

A scaled alias computes the raw number of its source and hands it on as text, which the source
converts again. Integers survive this. A double is written with six significant digits, so it
survives if and only if it is the double that such a short numeral is read as
(`alias_write_exact_iff`).
-/

namespace OpcBridge

open Lib

/-! ## Printing and reading -/

/-- The default format of a stream. -/
def printNumber {f : Format} : f.Number → String
  | .finite q _ => String.ofList (printDecimal 6 q)
  | .infinite neg => if neg then "-inf" else "inf"
  | .nan => "nan"

attribute [local instance] doubles

@[reducible] def decimalText : FloatText where
  print32 := printNumber
  print64 := printNumber

attribute [local instance] decimalText

/-- The double that a numeral of at most six significant digits is read as. -/
def ShortNumber (x : F64) : Prop :=
  ∃ m k : ℤ, |m| < 10 ^ 6 ∧ stodValue binary64 (m * (10 : ℚ) ^ k) = some x

theorem exists_inits (cs : List Char) : ∃ shorter, cs.inits = shorter ++ [cs] := by
  induction cs with
  | nil => exact ⟨[], rfl⟩
  | cons c cs ih =>
    obtain ⟨shorter, hshorter⟩ := ih
    exact ⟨[] :: shorter.map (c :: ·), by simp [hshorter]⟩

/-- A text that is a numeral is read whole. -/
theorem readPrefix_of_read {cs : List Char} {q : ℚ} (h : readDecimal cs = some q) :
    readPrefix cs = some q := by
  obtain ⟨shorter, hshorter⟩ := exists_inits cs
  simp [readPrefix, hshorter, h]

theorem stod_printDecimal (q : ℚ) :
    Floats.stod (String.ofList (printDecimal 6 q)) = stodValue binary64 (roundDigits 10 6 q) := by
  have hspace : ∀ c ∈ printDecimal 6 q, isSpace c = false := fun c hc =>
    isSpace_numeralChar (mem_printDecimal c hc)
  show (readPrefix ((String.ofList (printDecimal 6 q)).toList.dropWhile isSpace)).bind _ = _
  rw [String.toList_ofList, dropWhile_isSpace hspace,
    readPrefix_of_read (readDecimal_print (by omega) q)]
  rfl

/-- What is read is the rounded number, exact where it is small. -/
theorem stodValue_eq_some {f : Format} {c : ℚ} {x : f.Number} (h : stodValue f c = some x) :
    ∃ hfits, x = .finite (f.round c) hfits ∧
      (f.round c = c ∨ (2 : ℚ) ^ (f.minExponent + f.precision - 1) ≤ |c|) := by
  unfold stodValue at h
  split at h
  · rename_i r hfits hround
    have hr : r = f.round c := by
      unfold Format.ofRat at hround
      split at hround
      · cases hround
        rfl
      · cases hround
    subst hr
    split at h
    · cases h
    · rename_i hnot
      obtain rfl := Option.some.inj h
      refine ⟨hfits, rfl, ?_⟩
      by_cases heq : f.round c = c
      · exact .inl heq
      · exact .inr (not_lt.1 fun hlt => hnot ⟨hlt, heq⟩)
  · cases h

/-- Six digits tell a number from the others near it, so printing finds the numeral that a normal
double was read from. -/
theorem roundDigits_round {c : ℚ} (hc : roundDigits 10 6 c = c)
    (hnormal : (2 : ℚ) ^ (binary64.minExponent + binary64.precision - 1) ≤ |c|) :
    roundDigits 10 6 (binary64.round c) = c := by
  have hpos : 0 < |c| := (zpow_pos (by norm_num) _).trans_le hnormal
  have hlog : binary64.minExponent + binary64.precision - 1 ≤ Int.log 2 |c| :=
    (Int.zpow_le_iff_le_log (by omega) hpos).1 (by exact_mod_cast hnormal)
  have herror := binary64.abs_round_sub_le (q := c) (by omega)
  refine roundDigits_of_near (by omega) (by omega) hc ?_
  have hsmall : (2 : ℚ) ^ (-binary64.precision : ℤ) * (4 * ((10 : ℕ) : ℚ) ^ 6) < 1 := by
    norm_num [binary64]
  calc |binary64.round c - c| * (4 * ((10 : ℕ) : ℚ) ^ 6)
      ≤ 2 ^ (-binary64.precision : ℤ) * |c| * (4 * ((10 : ℕ) : ℚ) ^ 6) :=
        mul_le_mul_of_nonneg_right herror (by positivity)
    _ = 2 ^ (-binary64.precision : ℤ) * (4 * ((10 : ℕ) : ℚ) ^ 6) * |c| := by ring
    _ < 1 * |c| := mul_lt_mul_of_pos_right hsmall hpos
    _ = |c| := one_mul _

/-- The printed text of a double is read as the double if and only if a short numeral is. -/
theorem stod_print_iff (x : F64) : Floats.stod (printNumber x) = some x ↔ ShortNumber x := by
  constructor
  · intro hread
    obtain ⟨c, -, hvalue⟩ := Option.bind_eq_some_iff.1 hread
    obtain ⟨hfits, rfl, -⟩ := stodValue_eq_some hvalue
    rw [printNumber, stod_printDecimal] at hread
    obtain ⟨m, k, hm, hdigits⟩ := exists_digits_roundDigits (b := 10) (p := 6) (by omega) (by omega)
      (binary64.round c)
    rw [hdigits] at hread
    exact ⟨m, k, hm, hread⟩
  · rintro ⟨m, k, hm, hvalue⟩
    obtain ⟨hfits, rfl, hcases⟩ := stodValue_eq_some hvalue
    have hshort : roundDigits 10 6 ((m : ℚ) * (10 : ℚ) ^ k) = m * (10 : ℚ) ^ k :=
      roundDigits_eq_self (b := 10) (by omega) hm
    generalize (m : ℚ) * (10 : ℚ) ^ k = c at *
    have hdigits : roundDigits 10 6 (binary64.round c) = c := by
      rcases hcases with hexact | hnormal
      · rw [hexact, hshort]
      · exact roundDigits_round hshort hnormal
    rw [printNumber, stod_printDecimal, hdigits, hvalue]

/-! ## Integers -/

def integerDatatypes : List String := ["int16", "uint16", "int32", "uint32"]

theorem exists_float64 {v : TagValue} (h : "float64" = v.datatype) : ∃ x, v = .float64 x := by
  cases v with
  | float64 x => exact ⟨x, rfl⟩
  | _ => exact absurd h (by simp)

theorem filter_readInteger {n : Int} {p : Int → Bool} (h : p n = true) :
    (readInteger (toString n).toList).filter p = some n := by
  rw [readInteger_toString, Option.filter_some, if_pos h]

theorem toString_natCast (n : Nat) : toString n = toString (n : Int) := rfl

theorem stoul_toString {n : Nat} (h : n < 4294967296) : stoul (toString n) = some n := by
  have hread : (readInteger (toString (n : Int)).toList).filter
      (fun n => n.natAbs ≤ 18446744073709551615) = some (n : Int) :=
    filter_readInteger (decide_eq_true (by omega))
  have hmod : (n : Int) % 18446744073709551616 = n := by omega
  rw [stoul, toString_natCast, hread, Option.map_some, hmod, Int.toNat_natCast]

/-- The text of an integer is converted back. -/
theorem parse_integer {v : TagValue} (h : v.datatype ∈ integerDatatypes) :
    parseStringToTagvalue (tagValueToString v) v.datatype = some v := by
  cases v with
  | bool b => exact absurd h (by simp [integerDatatypes])
  | float32 x => exact absurd h (by simp [integerDatatypes])
  | float64 x => exact absurd h (by simp [integerDatatypes])
  | string s => exact absurd h (by simp [integerDatatypes])
  | int16 n =>
    have hlow := n.le_toInt
    have hhigh := n.toInt_lt
    have hread : stoi (toString n.toInt) = some n.toInt :=
      filter_readInteger (by simp only [Bool.and_eq_true, decide_eq_true_eq]; omega)
    show (stoi (toString n.toInt)).map _ = _
    rw [hread, Option.map_some, Int16.ofInt_toInt]
  | int32 n =>
    have hlow := n.le_toInt
    have hhigh := n.toInt_lt
    have hread : stol (toString n.toInt) = some n.toInt :=
      filter_readInteger (by simp only [Bool.and_eq_true, decide_eq_true_eq]; omega)
    show (stol (toString n.toInt)).map _ = _
    rw [hread, Option.map_some, Int32.ofInt_toInt]
  | uint16 n =>
    have hlt := n.toNat_lt
    show (stoul (toString n.toNat)).map _ = _
    rw [stoul_toString (by omega), Option.map_some, UInt16.ofNat_toNat]
  | uint32 n =>
    have hlt := n.toNat_lt
    show (stoul (toString n.toNat)).map _ = _
    rw [stoul_toString (by omega), Option.map_some, UInt32.ofNat_toNat]

/-- An integer or a double without scaling of its own or of the array it belongs to. -/
structure PlainNumber (driver : DriverContext) (source : TagRuntime) : Prop where
  datatype : source.cfg.datatype ∈ integerDatatypes ∨ source.cfg.datatype = "float64"
  unscaled : source.scalingLinear = false
  array : ∀ parent, parentArray driver source = some parent → parent.scalingLinear = false

theorem PlainNumber.not_bool {driver : DriverContext} {source : TagRuntime}
    (h : PlainNumber driver source) : source.cfg.datatype ≠ "bool" := by
  rcases h.datatype with hinteger | hdouble
  · intro hbool
    rw [hbool] at hinteger
    exact absurd hinteger (by decide)
  · rw [hdouble]
    decide

theorem writeHandle_ok {io : WriteIo} {texts : HandleTexts} {served : TagRuntime} {text : String}
    {v : TagValue} (hunscaled : served.scalingLinear = false)
    (h : writeHandle io texts served text = .ok v) :
    parseStringToTagvalue text served.cfg.datatype = some v := by
  unfold writeHandle setHandle at h
  rw [hunscaled] at h
  split at h
  · cases h
  split at h
  · cases h
  rename_i value hset
  split at h
  · cases h
  cases h
  cases hplc : plcSetValueFromString served.cfg.datatype text (io.setStatus served.name) with
  | error err =>
    rw [hplc] at hset
    cases hset
  | ok w =>
    rw [hplc] at hset
    cases hset
    exact plcSetValueFromString_ok hplc

theorem writeDirect_ok {io : WriteIo} {driver : DriverContext} {source : TagRuntime}
    {text : String} {v : TagValue} (hplain : PlainNumber driver source)
    (h : writeDirect io driver source text = .ok v) :
    parseStringToTagvalue text source.cfg.datatype = some v := by
  unfold writeDirect at h
  split at h
  · split at h
    · cases h
    · rename_i w hw
      cases h
      exact hw
  split at h
  · split at h
    · cases h
    · rename_i w hw
      split at h
      · cases h
      · cases h
        exact hw
  split at h
  · rename_i parent hparent
    split at h
    · cases h
    · have hdatatype : parent.cfg.datatype = source.cfg.datatype := by
        unfold parentArray at hparent
        split at hparent
        · cases hparent
        · have hfound := List.find?_some hparent
          simp only [Bool.and_eq_true, beq_iff_eq] at hfound
          exact hfound.2
      rw [← hdatatype]
      exact writeHandle_ok (hplain.array parent hparent) h
  · split at h
    · rw [if_pos hplain.not_bool] at h
      cases h
    · exact writeHandle_ok hplain.unscaled h

/-- A plain source takes the conversion of its text. -/
theorem write_value {io : WriteIo} {driver : DriverContext} {source : TagRuntime} {fuel : Nat}
    {text : String} {t : WriteTrace} (hfind : driver.find source.name = some source)
    (hplain : PlainNumber driver source)
    (h : writeTagByName io driver fuel source.name text = some (.ok t)) :
    t.value = parseStringToTagvalue text source.cfg.datatype := by
  cases fuel with
  | zero => cases h
  | succ fuel =>
    have htag : findForWrite driver source.name = some source := by rw [findForWrite, hfind]
    unfold writeTagByName at h
    rw [htag] at h
    dsimp only at h
    split at h
    · cases h
    split at h
    · -- an alias keeps what its own datatype makes of the text
      split at h
      · cases h
      split at h
      · cases h
      split at h
      · cases h
      split at h
      · cases h
      obtain ⟨r, -, hthrough⟩ := Option.map_eq_some_iff.1 h
      cases r with
      | error err => cases hthrough
      | ok inner =>
        cases hthrough
        rfl
    · cases hdirect : writeDirect io driver source text with
      | error err =>
        rw [hdirect] at h
        cases h
      | ok v =>
        rw [hdirect] at h
        cases h
        exact (writeDirect_ok hplain hdirect).symm

/-! ## The write through an alias -/

/-- The number of the text, clamped and scaled back, in the datatype of the source. -/
def convertedOnce (tag source : TagRuntime) (text : String) : Option TagValue :=
  match scaledNumber text with
  | .error _ => none
  | .ok scaled => (castDoubleToTagvalue (tag.rawNumber scaled) source.cfg.datatype).toOption

/-- What an accepted write has done. -/
theorem alias_write_spec {io : WriteIo} {driver : DriverContext} {tag source : TagRuntime}
    {fuel : Nat} {text : String} {t : WriteTrace} (htag : driver.find tag.name = some tag)
    (halias : tag.isDerivedAlias = true) (hscaled : tag.scalingLinear = true)
    (hsource : driver.find tag.cfg.sourceTag = some source)
    (h : writeTagByName io driver fuel tag.name text = some (.ok t)) :
    ∃ raw v inner, convertedOnce tag source text = some raw ∧ raw.datatype = source.cfg.datatype ∧
      t = .through tag.name v inner ∧
      ∃ n, writeTagByName io driver n tag.cfg.sourceTag (tagValueToString raw) =
        some (.ok inner) := by
  cases fuel with
  | zero => cases h
  | succ fuel =>
    have hfind : findForWrite driver tag.name = some tag := by rw [findForWrite, htag]
    unfold writeTagByName at h
    rw [hfind] at h
    dsimp only at h
    rw [halias, hsource] at h
    split at h
    · cases h
    rw [if_pos rfl] at h
    split at h
    · cases h
    dsimp only at h
    split at h
    · cases h
    unfold sourceText at h
    rw [hscaled, if_pos rfl] at h
    unfold convertedOnce
    cases hnumber : scaledNumber text with
    | error what =>
      rw [hnumber] at h
      cases h
    | ok scaled =>
      rw [hnumber] at h
      dsimp only at h ⊢
      cases hcast : castDoubleToTagvalue (tag.rawNumber scaled) source.cfg.datatype with
      | error err =>
        rw [hcast] at h
        cases h
      | ok raw =>
        rw [hcast] at h
        dsimp only at h
        obtain ⟨r, hinner, hthrough⟩ := Option.map_eq_some_iff.1 h
        cases r with
        | error err => cases hthrough
        | ok inner =>
          cases hthrough
          exact ⟨raw, _, inner, rfl, datatype_of_cast hcast, rfl, fuel, hinner⟩

/-- The source of a scaled alias gets the value converted once, if and only if that is an integer or
a short number. -/
theorem alias_write_exact_iff {io : WriteIo} {driver : DriverContext} {tag source : TagRuntime}
    {fuel : Nat} {text : String} {t : WriteTrace} (htag : driver.find tag.name = some tag)
    (halias : tag.isDerivedAlias = true) (hscaled : tag.scalingLinear = true)
    (hsource : driver.find tag.cfg.sourceTag = some source) (hplain : PlainNumber driver source)
    (h : writeTagByName io driver fuel tag.name text = some (.ok t)) :
    (∃ v inner, t = .through tag.name v inner ∧ inner.value = convertedOnce tag source text) ↔
      ∀ x, convertedOnce tag source text = some (.float64 x) → ShortNumber x := by
  obtain ⟨raw, v, inner, hraw, hdatatype, rfl, n, hinner⟩ :=
    alias_write_spec htag halias hscaled hsource h
  have hname := (DriverContext.find_eq_some.1 hsource).2
  have hvalue : inner.value = parseStringToTagvalue (tagValueToString raw) source.cfg.datatype := by
    rw [← hname] at hsource hinner
    exact write_value hsource hplain hinner
  have hstored : (∃ w i, WriteTrace.through tag.name v inner = .through tag.name w i ∧
      i.value = convertedOnce tag source text) ↔
      parseStringToTagvalue (tagValueToString raw) source.cfg.datatype = some raw := by
    rw [← hvalue, ← hraw]
    constructor
    · rintro ⟨w, i, heq, hi⟩
      cases heq
      exact hi
    · exact fun hi => ⟨v, inner, rfl, hi⟩
  rw [hstored, hraw, ← hdatatype]
  rcases hplain.datatype with hinteger | hdouble
  · rw [← hdatatype] at hinteger
    refine iff_of_true (parse_integer hinteger) fun x hx => ?_
    obtain rfl := Option.some.inj hx
    exact absurd hinteger (by simp [integerDatatypes])
  · rw [hdouble] at hdatatype
    obtain ⟨x, rfl⟩ := exists_float64 hdatatype.symm
    have hparse : parseStringToTagvalue (tagValueToString (.float64 x)) "float64" =
        some (.float64 x) ↔ Floats.stod (printNumber x) = some x := by
      show (Floats.stod (printNumber x)).map TagValue.float64 = _ ↔ _
      rw [Option.map_eq_some_iff]
      constructor
      · rintro ⟨y, hy, heq⟩
        cases heq
        exact hy
      · exact fun hx => ⟨x, hx, rfl⟩
    refine hparse.trans ((stod_print_iff x).trans ⟨fun hshort y hy => ?_, fun hall => hall x rfl⟩)
    cases hy
    exact hshort

/-! ## Two writes -/

def quietIo : WriteIo where
  publishes _ := false
  prepare _ := none
  setStatus _ := none
  plcWrite _ := none
  remoteWrite _ := none
  writeBit _ b := .ok b

def flowConfig (datatype : String) : TagConfig where
  logicalName := "Flow"
  plcTagName := "Flow"
  datatype := datatype
  writable := true

def shownConfig : TagConfig where
  logicalName := "Shown"
  sourceType := "derived"
  sourceTag := "Flow"
  datatype := "float64"
  writable := true

def flowTag (datatype : String) : TagRuntime where
  cfg := flowConfig datatype

/-- Ten raw units are one shown unit. -/
def shownTag : TagRuntime where
  cfg := shownConfig
  scalingLinear := true
  invSlope := Floats.ofInt 10
  invOffset := Floats.ofInt 0

def flowDriver (datatype : String) : DriverContext where
  freshnessEpoch := 1
  conn := { id := "PLC", driver := "ab_eip" }
  tags := [flowTag datatype, shownTag]
  names_nodup := by
    show ["Flow", "Shown"].Nodup
    decide

theorem flow_plain {datatype : String}
    (h : datatype ∈ integerDatatypes ∨ datatype = "float64") :
    PlainNumber (flowDriver datatype) (flowTag datatype) where
  datatype := h
  unscaled := rfl
  array parent hparent := by
    have hname : parseArrayElementLogicalName (flowTag datatype).name = none := by
      show parseArrayElementLogicalName "Flow" = none
      decide
    rw [parentArray, hname] at hparent
    cases hparent

theorem shown_written : writeTagByName quietIo (flowDriver "int32") 2 "Shown" "1234567.8" =
    some (.ok (.through "Shown" (parseStringToTagvalue "1234567.8" "float64")
      (.direct "Flow" (.int32 12345678)))) := by
  decide +kernel

/-- Eight digits reach an integer. -/
theorem shown_exact : (∃ v inner, WriteTrace.through "Shown"
      (parseStringToTagvalue "1234567.8" "float64") (.direct "Flow" (.int32 12345678)) =
        .through shownTag.name v inner ∧
      inner.value = convertedOnce shownTag (flowTag "int32") "1234567.8") ↔
    ∀ x, convertedOnce shownTag (flowTag "int32") "1234567.8" = some (.float64 x) →
      ShortNumber x :=
  have htag : (flowDriver "int32").find shownTag.name = some shownTag := rfl
  have hsource : (flowDriver "int32").find shownTag.cfg.sourceTag = some (flowTag "int32") := rfl
  alias_write_exact_iff htag rfl rfl hsource (flow_plain (.inl (by decide))) shown_written

theorem shown_rounded : writeTagByName quietIo (flowDriver "float64") 2 "Shown" "123456.75" =
    some (.ok (.through "Shown" (parseStringToTagvalue "123456.75" "float64")
      (.direct "Flow" (.float64 (binary64.ofRat 1234570))))) := by
  decide +kernel

/-- A double source gets 1234570 for 1234567.5. -/
theorem alias_write_loses : ¬ ∀ (io : WriteIo) (driver : DriverContext) (tag source : TagRuntime)
    (fuel : Nat) (text : String) (t : WriteTrace), driver.find tag.name = some tag →
    tag.isDerivedAlias = true → tag.scalingLinear = true →
    driver.find tag.cfg.sourceTag = some source → PlainNumber driver source →
    writeTagByName io driver fuel tag.name text = some (.ok t) →
    ∃ v inner, t = .through tag.name v inner ∧ inner.value = convertedOnce tag source text := by
  intro h
  obtain ⟨v, inner, heq, hvalue⟩ := h quietIo (flowDriver "float64") shownTag (flowTag "float64") 2
    "123456.75" _ rfl rfl rfl rfl (flow_plain (.inr rfl)) shown_rounded
  cases heq
  revert hvalue
  decide +kernel

end OpcBridge
