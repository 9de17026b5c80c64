import OpcBridge.Flow.NumberText
import OpcBridge.Historian.InsertBatch
import OpcBridge.Lib.FixedPoint
import OpcBridge.Logger.LogTags

/-!
# Numbers in the database

The literals that the historian writes for `value_double` and the logger for `value_numeric`. Both
are `std::to_string` of the double of the value, six places after the point whatever its size, so
they denote the nearest multiple of `10 ^ -6` (`read_toString`). An integer keeps its value to the
precision of a double, and a fraction does if it has no more places (`stored_unrounded_iff`).
-/

namespace OpcBridge.Logger

open Lib
open Alarms (Json JsonLib)
open Historian (PgLib WholeText valueToFields doubleText)

attribute [local instance] doubles

/-! ## The machine -/

/-- `std::to_string` of a double. -/
def toStringDouble (x : F64) : String :=
  String.ofList (match x with
    | .finite q _ => printFixed 6 q
    | .infinite s => if s then "-inf".toList else "inf".toList
    | .nan => "nan".toList)

/-- `std::stod` of a text that it uses to the end. -/
def stodAllDouble (s : String) : Option F64 :=
  (readDecimal (s.toList.dropWhile isSpace)).bind (stodValue binary64)

/-- The machine's numbers; the quoting and the times are parameters. -/
@[reducible] def machineLog (literal : String → String) (datetime : Int → String) : LogLib where
  literal := literal
  datetime := datetime
  stodAll := stodAllDouble
  printFixed := toStringDouble

@[reducible] def machinePg (escape : String → Option String) : PgLib where
  escapeLiteral := escape
  printFixed := toStringDouble

@[reducible] def machineText : WholeText where
  stodAll := stodAllDouble

/-! ## The statement -/

/-- The number of a numeric value: a boolean is 0 or 1, and a text counts if `std::stod` takes it. -/
def Denotes : Json → ℚ → Prop
  | .bool b, q => q = if b then 1 else 0
  | .int n, q => -2 ^ 63 ≤ n ∧ n < 2 ^ 63 ∧ q = n
  | .uint n, q => n < 2 ^ 64 ∧ q = n
  | .float x, q => ∃ h, x = .finite q h
  | .string s, q => readDecimal (s.toList.dropWhile isSpace) = some q ∧
    ∃ x, stodValue binary64 q = some x
  | _, _ => False

/-- A literal for a number, to the precision of a double. -/
structure Unrounded (text : String) (q : ℚ) : Prop where
  precise : ∃ r, readDecimal text.toList = some r ∧ |r - q| ≤ 2 ^ (-52 : Int) * |q|
  nonzero : q ≠ 0 → readDecimal text.toList ≠ some 0

/-- To the precision of a double, the value has no more than six places after the point. -/
def SixPlaces : Json → ℚ → Prop
  | .float _, q => ∃ m : Int, |(m : ℚ) / 10 ^ 6 - q| ≤ 2 ^ (-52 : Int) * |q|
  -- the double of a text may be another number
  | .string _, q => ∃ m : Int, |(m : ℚ) / 10 ^ 6 - q| ≤ 2 ^ (-52 : Int) * |q| ∧
    Nearest m (binary64.round q * 10 ^ 6)
  | _, _ => True

/-- The doubles of the numbers have different nearest multiples of `10 ^ -6`. -/
def Apart (q q' : ℚ) : Prop :=
  ¬ ∃ m : Int, Nearest m (binary64.round q * 10 ^ 6) ∧ Nearest m (binary64.round q' * 10 ^ 6)

section
variable [JsonLib]

/-- What the historian writes for `value_double`. -/
def historianLiteral (escape : String → Option String) (v : Json) : String :=
  letI := machineText
  letI := machinePg escape
  doubleText (valueToFields v).1

/-- What the logger writes for `value_numeric`. -/
def loggerLiteral (literal : String → String) (datetime : Int → String) (v : Json) : String :=
  letI := machineLog literal datetime
  numericText (valueFields v)

end

/-! ## The literals -/

/-- What the literal of a finite double denotes. -/
theorem read_toString {q : ℚ} (h : binary64.Fits q) :
    readDecimal (toStringDouble (.finite q h)).toList =
      some ((roundHalfEven (q * 10 ^ 6) : ℚ) / 10 ^ 6) := by
  unfold toStringDouble
  rw [String.toList_ofList]
  exact readDecimal_printFixed (by omega) q

/-- The double of an integer. -/
theorem ofInt_finite {n : Int} (hn : n.natAbs < 2 ^ 64) :
    ∃ h, Floats.ofInt n = Format.Number.finite (binary64.round n) h := by
  have hrange : |(n : ℚ)| ≤ 2 ^ (64 : Int) := by
    rw [← Int.cast_abs, Int.abs_eq_natAbs]
    exact_mod_cast hn.le
  have hlt : |binary64.round n| < 2 ^ binary64.maxExponent :=
    lt_of_le_of_lt (binary64.abs_round_le (by decide) hrange)
      (zpow_lt_zpow_right₀ (by norm_num) (by decide))
  exact ⟨⟨binary64.round_round n, hlt⟩, dif_pos hlt⟩

theorem stodValue_finite {q : ℚ} {x : F64} (h : stodValue binary64 q = some x) :
    ∃ hfits, x = Format.Number.finite (binary64.round q) hfits := by
  unfold stodValue Format.ofRat at h
  split at h
  · rename_i r hr heq
    split at heq
    · cases heq
      split at h
      · cases h
      · exact ⟨_, (Option.some.inj h).symm⟩
    · cases heq
  · cases h

/-- The double of a numeric value, on both ways. -/
theorem double_of_value [JsonLib] (literal : String → String) (datetime : Int → String) {v : Json}
    {q : ℚ} (h : Denotes v q) : ∃ hfits,
      (@valueToFields _ _ machineText v).1 =
        some (Format.Number.finite (binary64.round q) hfits) ∧
      (@valueFields _ _ (machineLog literal datetime) v).1 =
        some (Format.Number.finite (binary64.round q) hfits) := by
  cases v with
  | bool b =>
    obtain ⟨hfits, heq⟩ := ofInt_finite (n := if b then 1 else 0) (by cases b <;> decide)
    obtain rfl : q = ((if b then 1 else 0 : Int) : ℚ) := by
      rw [h]
      cases b <;> norm_num
    exact ⟨hfits, congrArg some heq, congrArg some heq⟩
  | int n =>
    obtain ⟨hlow, hhigh, rfl⟩ := h
    obtain ⟨hfits, heq⟩ := ofInt_finite (n := n) (by omega)
    exact ⟨hfits, congrArg some heq, congrArg some heq⟩
  | uint n =>
    obtain ⟨hhigh, rfl⟩ := h
    obtain ⟨hfits, heq⟩ := ofInt_finite (n := (n : Int)) (by omega)
    exact ⟨hfits, congrArg some heq, congrArg some heq⟩
  | float x =>
    obtain ⟨hfits, rfl⟩ := h
    have hround : Format.Number.finite (binary64.round q)
        (by rw [hfits.1]; exact hfits) = .finite q hfits := by
      congr 1
      exact hfits.1
    exact ⟨_, congrArg some hround.symm, congrArg some hround.symm⟩
  | string t =>
    obtain ⟨hread, x, hx⟩ := h
    obtain ⟨hfits, rfl⟩ := stodValue_finite hx
    have hstod : stodAllDouble t = some (.finite (binary64.round q) hfits) := by
      unfold stodAllDouble
      rw [hread]
      exact hx
    refine ⟨hfits, hstod, ?_⟩
    exact congrArg Prod.fst (@valueFields_string _ _ (machineLog literal datetime) t _ hstod)
  | null => cases h
  | array items => cases h
  | object fields => cases h

section
variable [JsonLib] (escape : String → Option String) (literal : String → String)
  (datetime : Int → String)

/-- Both literals are the text of the double. -/
theorem literals_read {v : Json} {q : ℚ} (h : Denotes v q) :
    readDecimal (historianLiteral escape v).toList =
        some ((roundHalfEven (binary64.round q * 10 ^ 6) : ℚ) / 10 ^ 6) ∧
      readDecimal (loggerLiteral literal datetime v).toList =
        some ((roundHalfEven (binary64.round q * 10 ^ 6) : ℚ) / 10 ^ 6) := by
  obtain ⟨hfits, hfields, hvalue⟩ := double_of_value literal datetime h
  constructor
  · unfold historianLiteral
    rw [hfields]
    exact read_toString hfits
  · unfold loggerLiteral numericText
    rw [hvalue]
    exact read_toString hfits

end

/-! ## Precision -/

/-- The double of an integer is an integer near it. -/
theorem round_integer {n : Int} : ∃ m : Int, binary64.round n = m ∧
    |(m : ℚ) - n| ≤ 2 ^ (-52 : Int) * |(n : ℚ)| := by
  obtain ⟨m, hm⟩ := binary64.exists_round_intCast n
  refine ⟨m, hm, ?_⟩
  have hlog : 0 ≤ Int.log 2 |(n : ℚ)| := by
    rw [← Int.cast_abs, Int.abs_eq_natAbs, Int.cast_natCast, Int.log_natCast]
    omega
  have herror := binary64.abs_round_sub_le (q := n) (by
    have hmin : binary64.minExponent = -1074 := by decide
    have hprecision : binary64.precision = 53 := rfl
    rw [hmin, hprecision]
    omega)
  rw [hm] at herror
  refine herror.trans (mul_le_mul_of_nonneg_right ?_ (abs_nonneg _))
  exact zpow_le_zpow_right₀ (by norm_num) (by decide)

/-- What makes the stored number precise, kind by kind. -/
theorem precise_iff {v : Json} {q : ℚ} (h : Denotes v q) :
    |(roundHalfEven (binary64.round q * 10 ^ 6) : ℚ) / 10 ^ 6 - q| ≤ 2 ^ (-52 : Int) * |q| ↔
      SixPlaces v q := by
  have hinteger : ∀ n : Int, q = n →
      |(roundHalfEven (binary64.round q * 10 ^ 6) : ℚ) / 10 ^ 6 - q| ≤ 2 ^ (-52 : Int) * |q| := by
    rintro n rfl
    obtain ⟨m, hm, hnear⟩ := @round_integer n
    have hscaled : (m : ℚ) * 10 ^ 6 = ((m * 10 ^ 6 : Int) : ℚ) := by
      push_cast
      rfl
    rw [hm, hscaled, roundHalfEven_intCast, ← hscaled, mul_div_cancel_right₀ _ (by norm_num)]
    exact hnear
  cases v with
  | bool b =>
    refine iff_of_true (hinteger (if b then 1 else 0) ?_) trivial
    rw [h]
    cases b <;> norm_num
  | int n => exact iff_of_true (hinteger n h.2.2) trivial
  | uint n => exact iff_of_true (hinteger n h.2) trivial
  | float x =>
    obtain ⟨hfits, rfl⟩ := h
    rw [hfits.1]
    constructor
    · intro hnear
      exact ⟨_, hnear⟩
    · rintro ⟨m, hm⟩
      -- the nearest multiple is at least as near
      have hle := (nearest_roundHalfEven (q * 10 ^ 6)).le m
      have hscale : ∀ k : ℚ, |k / 10 ^ 6 - q| = |k - q * 10 ^ 6| / 10 ^ 6 := by
        intro k
        rw [← abs_of_pos (by norm_num : (0 : ℚ) < 10 ^ 6), ← abs_div, sub_div,
          abs_of_pos (by norm_num : (0 : ℚ) < 10 ^ 6), mul_div_cancel_right₀ _ (by norm_num)]
      rw [hscale] at hm ⊢
      exact (div_le_div_of_nonneg_right hle (by norm_num)).trans hm
  | string s =>
    constructor
    · intro hnear
      exact ⟨_, hnear, nearest_roundHalfEven _⟩
    · rintro ⟨m, hm, hnearest⟩
      rwa [roundHalfEven_eq_iff.2 hnearest]
  | null => cases h
  | array items => cases h
  | object fields => cases h

/-- A precise number that is not zero is not stored as zero. -/
theorem unrounded_iff {text : String} {q r : ℚ} (hread : readDecimal text.toList = some r) :
    Unrounded text q ↔ |r - q| ≤ 2 ^ (-52 : Int) * |q| := by
  constructor
  · intro h
    obtain ⟨r', hr', hnear⟩ := h.precise
    rwa [Option.some.inj (hread.symm.trans hr')]
  · intro hnear
    refine ⟨⟨r, hread, hnear⟩, fun hne hzero => ?_⟩
    obtain rfl := Option.some.inj (hread.symm.trans hzero)
    have hpos := abs_pos.2 hne
    rw [zero_sub, abs_neg] at hnear
    have hsmall : (2 : ℚ) ^ (-52 : Int) < 1 := by norm_num
    have hlt := mul_lt_mul_of_pos_right hsmall hpos
    linarith

theorem apart_iff {q q' : ℚ} :
    (roundHalfEven (binary64.round q * 10 ^ 6) : ℚ) / 10 ^ 6 ≠
      (roundHalfEven (binary64.round q' * 10 ^ 6) : ℚ) / 10 ^ 6 ↔ Apart q q' := by
  unfold Apart
  rw [not_iff_not, div_left_inj' (by norm_num), Int.cast_inj]
  constructor
  · intro heq
    exact ⟨_, nearest_roundHalfEven _, heq ▸ nearest_roundHalfEven _⟩
  · rintro ⟨m, hm, hm'⟩
    rw [roundHalfEven_eq_iff.2 hm, roundHalfEven_eq_iff.2 hm']

/-- **Which numbers reach the database unrounded**: the literals of two numeric values are precise,
and differ if the values do, exactly if both have no more than six places to the precision of a
double, and no multiple of `10 ^ -6` is the nearest one to both doubles. -/
theorem stored_unrounded_iff [JsonLib] (escape : String → Option String) (literal : String → String)
    (datetime : Int → String) {v w : Json} {q q' : ℚ} (hv : Denotes v q) (hw : Denotes w q') :
    (Unrounded (historianLiteral escape v) q ∧ Unrounded (loggerLiteral literal datetime v) q ∧
      Unrounded (historianLiteral escape w) q' ∧ Unrounded (loggerLiteral literal datetime w) q' ∧
      (q ≠ q' → readDecimal (historianLiteral escape v).toList ≠
          readDecimal (historianLiteral escape w).toList ∧
        readDecimal (loggerLiteral literal datetime v).toList ≠
          readDecimal (loggerLiteral literal datetime w).toList)) ↔
      SixPlaces v q ∧ SixPlaces w q' ∧ (q ≠ q' → Apart q q') := by
  obtain ⟨hvh, hvl⟩ := literals_read escape literal datetime hv
  obtain ⟨hwh, hwl⟩ := literals_read escape literal datetime hw
  rw [unrounded_iff hvh, unrounded_iff hvl, unrounded_iff hwh, unrounded_iff hwl,
    precise_iff hv, precise_iff hw, hvh, hvl, hwh, hwl, ← apart_iff]
  simp only [ne_eq, Option.some.injEq]
  tauto

section Examples

attribute [local instance] Flow.decimalJson

def quoted (s : String) : String := "'" ++ s ++ "'"

/-- The double that is nearest to a decimal. -/
def doubleOf (q : ℚ) : Json := .float (binary64.ofRat q)

theorem denotes_doubleOf {q : ℚ} (h : |binary64.round q| < 2 ^ binary64.maxExponent) :
    Denotes (doubleOf q) (binary64.round q) :=
  ⟨⟨binary64.round_round q, h⟩, dif_pos h⟩

/-- 0.1 and 3 keep their values. -/
theorem tenth_unrounded :
    (Unrounded (historianLiteral some (doubleOf (1 / 10))) (binary64.round (1 / 10)) ∧
      Unrounded (loggerLiteral quoted toString (doubleOf (1 / 10))) (binary64.round (1 / 10)) ∧
      Unrounded (historianLiteral some (.uint 3)) 3 ∧
      Unrounded (loggerLiteral quoted toString (.uint 3)) 3 ∧
      (binary64.round (1 / 10) ≠ 3 →
        readDecimal (historianLiteral some (doubleOf (1 / 10))).toList ≠
          readDecimal (historianLiteral some (.uint 3)).toList ∧
        readDecimal (loggerLiteral quoted toString (doubleOf (1 / 10))).toList ≠
          readDecimal (loggerLiteral quoted toString (.uint 3)).toList)) ↔
      SixPlaces (doubleOf (1 / 10)) (binary64.round (1 / 10)) ∧ SixPlaces (.uint 3) 3 ∧
        (binary64.round (1 / 10) ≠ 3 → Apart (binary64.round (1 / 10)) 3) :=
  stored_unrounded_iff some quoted toString (denotes_doubleOf (by decide +kernel))
    ⟨by decide, by norm_num⟩

/-- A small number is stored as zero, and so is another one. -/
theorem small_stored_as_zero :
    Denotes (doubleOf (1 / 10 ^ 7)) (binary64.round (1 / 10 ^ 7)) ∧
      Denotes (doubleOf (2 / 10 ^ 7)) (binary64.round (2 / 10 ^ 7)) ∧
      binary64.round (1 / 10 ^ 7) ≠ binary64.round (2 / 10 ^ 7) ∧
      historianLiteral some (doubleOf (1 / 10 ^ 7)) = "0.000000" ∧
      historianLiteral some (doubleOf (2 / 10 ^ 7)) = "0.000000" ∧
      loggerLiteral quoted toString (doubleOf (1 / 10 ^ 7)) = "0.000000" ∧
      ¬ Unrounded (historianLiteral some (doubleOf (1 / 10 ^ 7))) (binary64.round (1 / 10 ^ 7)) ∧
      ¬ Unrounded (loggerLiteral quoted toString (doubleOf (1 / 10 ^ 7)))
        (binary64.round (1 / 10 ^ 7)) := by
  have hhistorian : historianLiteral some (doubleOf (1 / 10 ^ 7)) = "0.000000" := by
    decide +kernel
  have hlogger : loggerLiteral quoted toString (doubleOf (1 / 10 ^ 7)) = "0.000000" := by
    decide +kernel
  have hne : binary64.round (1 / 10 ^ 7) ≠ 0 := by decide +kernel
  have hzero : readDecimal "0.000000".toList = some 0 := by decide +kernel
  refine ⟨denotes_doubleOf (by decide +kernel), denotes_doubleOf (by decide +kernel),
    by decide +kernel, hhistorian, by decide +kernel, hlogger, ?_, ?_⟩
  · rw [hhistorian]
    intro h
    exact h.nonzero hne hzero
  · rw [hlogger]
    intro h
    exact h.nonzero hne hzero

end Examples

end OpcBridge.Logger
