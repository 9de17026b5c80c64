import OpcBridge.Core.Value
import OpcBridge.Lib.Decimal
import OpcBridge.Lib.Formats
import Mathlib.Data.List.Infix

/-!
# The machine's floats

The two IEEE formats as an instance of `Floats`: a finite value is the rational number it stands
for. The readers take decimal numerals; hexadecimal ones, `inf` and `nan` are left out.
-/

namespace OpcBridge

open Lib

def binary32 : Format := ⟨24, 8, by decide⟩

def binary64 : Format := ⟨53, 11, by decide⟩

/-- What `strtod` makes of the number it has read; `none` is `ERANGE`. -/
def stodValue (f : Format) (q : ℚ) : Option f.Number :=
  match f.ofRat q with
  | .finite r h => if |q| < 2 ^ (f.minExponent + f.precision - 1) ∧ r ≠ q then none
    else some (.finite r h)
  | _ => none

/-- The number that the longest numeral at the front denotes. -/
def readPrefix (cs : List Char) : Option ℚ := cs.inits.reverse.findSome? readDecimal

theorem fits_intCast {a : Int} (ha : |a| < 2 ^ 53) : binary64.Fits a := by
  have hmin : binary64.minExponent ≤ 0 := by decide
  have hmax : ((53 : Nat) : Int) ≤ binary64.maxExponent := by decide
  have hpow := zpow_le_zpow_right₀ (a := (2 : ℚ)) (by norm_num) hmax
  rw [zpow_natCast] at hpow
  constructor
  · have hround := binary64.round_eq_self ha hmin
    rw [zpow_zero, mul_one] at hround
    exact hround
  · refine lt_of_lt_of_le ?_ hpow
    exact_mod_cast ha

theorem ofRat_intCast {a : Int} (ha : a.natAbs ≤ 4294967296) :
    ∃ h, binary64.ofRat a = .finite a h :=
  ⟨_, binary64.ofRat_of_fits (fits_intCast (by rw [Int.abs_eq_natAbs]; omega))⟩

@[reducible] def doubles : Floats where
  F32 := binary32.Number
  F64 := binary64.Number
  decEq32 := inferInstance
  decEq64 := inferInstance
  ofInt n := binary64.ofRat n
  widen x := x.convert binary64
  narrow x := x.convert binary32
  add a b := a.add b
  sub a b := a.sub b
  mul a b := a.mul b
  div a b := a.div b
  lt a b := a.lt b
  eq a b := a.eq b
  isFinite x := x.isFinite
  llround x := x.llround
  stof s := (readPrefix (s.toList.dropWhile isSpace)).bind (stodValue binary32)
  stod s := (readPrefix (s.toList.dropWhile isSpace)).bind (stodValue binary64)
  ofBits32 w := binary32.ofBits w.toNat
  ofBits64 w := binary64.ofBits w.toNat
  narrow_widen x := x.convert_convert (by decide) (by decide) (by decide)
  lt_ofInt ha hb := by
    obtain ⟨h1, heq1⟩ := ofRat_intCast ha
    obtain ⟨h2, heq2⟩ := ofRat_intCast hb
    rw [heq1, heq2]
    exact decide_eq_decide.2 Int.cast_lt
  eq_ofInt ha hb := by
    obtain ⟨h1, heq1⟩ := ofRat_intCast ha
    obtain ⟨h2, heq2⟩ := ofRat_intCast hb
    rw [heq1, heq2]
    exact decide_eq_decide.2 Int.cast_inj
  isFinite_ofInt ha := by
    obtain ⟨h, heq⟩ := ofRat_intCast ha
    rw [heq]
    rfl
  llround_ofInt ha := by
    obtain ⟨h, heq⟩ := ofRat_intCast ha
    rw [heq]
    exact Format.Number.llround_intCast h

/-! ## Reading back -/

/-- An exact number is read as it is. -/
theorem stodValue_of_fits {q : ℚ} (h : binary64.Fits q) :
    stodValue binary64 q = some (.finite q h) := by
  unfold stodValue
  rw [binary64.ofRat_of_fits h]
  simp

/-- An integer below `2 ^ 64` is rounded like any other number. -/
theorem stodValue_intCast {n : Int} (hn : n.natAbs ≤ 18446744073709551616) :
    stodValue binary64 n = some (binary64.ofRat n) := by
  have hrange : |(n : ℚ)| ≤ 2 ^ (64 : Int) := by
    rw [← Int.cast_abs, Int.abs_eq_natAbs]
    exact_mod_cast hn
  have hlt : |binary64.round n| < 2 ^ binary64.maxExponent :=
    lt_of_le_of_lt (binary64.abs_round_le (by decide) hrange)
      (zpow_lt_zpow_right₀ (by norm_num) (by decide))
  have hnormal : ¬ (|(n : ℚ)| < 2 ^ (binary64.minExponent + binary64.precision - 1) ∧
      binary64.round n ≠ n) := by
    rintro ⟨hsmall, hne⟩
    -- only zero is below one
    have hone : |(n : ℚ)| < 1 :=
      hsmall.trans_le (zpow_le_one_of_nonpos₀ (by norm_num) (by decide))
    rw [← Int.cast_abs] at hone
    have hzero : n = 0 := Int.abs_lt_one_iff.1 (by exact_mod_cast hone)
    rw [hzero] at hne
    exact hne (fits_intCast (by decide)).1
  unfold stodValue Format.ofRat
  simp only [hlt, dite_true, if_neg hnormal]

end OpcBridge
