import OpcBridge.Lib.Digits
import Mathlib.Tactic.Ring

/-!
# Binary floating-point formats

A format has a number of significant bits and a number of exponent bits. `Format.round` is the
nearest number of the format when the exponent has no upper bound, ties to the even one; `ofRat` is
the IEEE value, infinite where the rounded number is too large. The sign of zero is left out. A
number `m * 2 ^ k` with few enough bits, and `k` not below the smallest exponent, is a number of the
format (`round_eq_self`), and every number of the format has this shape (`exists_round`).
-/

namespace Lib

structure Format where
  precision : Nat
  exponentBits : Nat
  pos : 0 < precision

namespace Format

variable (f : Format)

/-- What the last bit of the smallest number is worth. -/
def minExponent : Int := 3 - 2 ^ (f.exponentBits - 1) - f.precision

/-- The numbers are below this power of two. -/
def maxExponent : Int := 2 ^ (f.exponentBits - 1)

def exponent (q : ℚ) : Int := max (Int.log 2 |q| - (f.precision - 1)) f.minExponent

def round (q : ℚ) : ℚ := roundHalfEven (q / 2 ^ f.exponent q) * 2 ^ f.exponent q

def Fits (q : ℚ) : Prop := f.round q = q ∧ |q| < 2 ^ f.maxExponent

instance (q : ℚ) : Decidable (f.Fits q) := inferInstanceAs (Decidable (_ ∧ _))

/-- The values of a format. -/
inductive Number (f : Format)
  | finite (q : ℚ) (h : f.Fits q)
  | infinite (neg : Bool)
  | nan
deriving DecidableEq

/-! ## Rounding -/

theorem round_eq_self {m k : Int} (hm : |m| < 2 ^ f.precision) (hk : f.minExponent ≤ k) :
    f.round (m * 2 ^ k) = m * 2 ^ k := by
  have hexponent : f.exponent (m * 2 ^ k) ≤ k ∨ (m : ℚ) * 2 ^ k = 0 := by
    by_cases hne : (m : ℚ) * 2 ^ k = 0
    · exact .inr hne
    · have hlog : Int.log 2 |(m : ℚ) * 2 ^ k| < f.precision + k := by
        have hpow : (0 : ℚ) < 2 ^ k := zpow_pos (by norm_num) k
        have hle := Int.zpow_log_le_self (R := ℚ) (b := 2) (by omega) (abs_pos.2 hne)
        rw [← zpow_lt_zpow_iff_right₀ (a := (2 : ℚ)) (by norm_num)]
        refine lt_of_le_of_lt (by exact_mod_cast hle) ?_
        rw [abs_mul, abs_of_pos hpow, zpow_add₀ (by norm_num), zpow_natCast]
        refine mul_lt_mul_of_pos_right ?_ hpow
        exact_mod_cast hm
      refine .inl (max_le ?_ hk)
      omega
  rcases hexponent with hle | hzero
  · obtain ⟨j, hj⟩ : ∃ j : Nat, k - f.exponent (m * 2 ^ k) = j :=
      ⟨_, (Int.toNat_of_nonneg (by omega)).symm⟩
    have hquot : (m : ℚ) * 2 ^ k / 2 ^ f.exponent (m * 2 ^ k) = ((m * 2 ^ j : Int) : ℚ) := by
      rw [mul_div_assoc, ← zpow_sub₀ (by norm_num), hj, zpow_natCast]
      push_cast
      rfl
    unfold round
    rw [hquot, roundHalfEven_intCast, ← hquot, div_mul_cancel₀ _ (zpow_ne_zero _ (by norm_num))]
  · have hround : roundHalfEven 0 = 0 := roundHalfEven_intCast 0
    rw [hzero, round, zero_div, hround, Int.cast_zero, zero_mul]

/-- The shape of a rounded number. -/
theorem exists_round (q : ℚ) :
    ∃ m k : Int, |m| ≤ 2 ^ f.precision ∧ f.minExponent ≤ k ∧ f.round q = m * 2 ^ k := by
  have hunit : (0 : ℚ) < 2 ^ f.exponent q := zpow_pos (by norm_num) _
  have hbound : |q / 2 ^ f.exponent q| ≤ 2 ^ f.precision := by
    have hlt := Int.lt_zpow_succ_log_self (R := ℚ) (b := 2) (by omega) |q|
    have hexponent : Int.log 2 |q| + 1 ≤ f.precision + f.exponent q := by
      have hle : Int.log 2 |q| - (f.precision - 1) ≤ f.exponent q := le_max_left _ _
      omega
    have hpow := zpow_le_zpow_right₀ (a := (2 : ℚ)) (by norm_num) hexponent
    rw [abs_div, abs_of_pos hunit, div_le_iff₀ hunit, ← zpow_natCast, ← zpow_add₀ (by norm_num)]
    exact (by exact_mod_cast hlt.le : |q| ≤ 2 ^ (Int.log 2 |q| + 1)).trans hpow
  refine ⟨roundHalfEven (q / 2 ^ f.exponent q), f.exponent q, ?_, le_max_right _ _, rfl⟩
  obtain ⟨hlow, hhigh⟩ := abs_le.1 hbound
  rw [abs_le]
  constructor
  · exact le_roundHalfEven (by push_cast; exact hlow)
  · exact roundHalfEven_le (by push_cast; exact hhigh)

/-- Rounding up to a power of two leaves one bit. -/
theorem exists_bits {m k : Int} (hm : |m| ≤ 2 ^ f.precision)
    (hk : f.minExponent ≤ k) :
    ∃ n j : Int, |n| < 2 ^ f.precision ∧ f.minExponent ≤ j ∧ (m : ℚ) * 2 ^ k = n * 2 ^ j := by
  rcases lt_or_eq_of_le hm with hlt | heq
  · exact ⟨m, k, hlt, hk, rfl⟩
  · obtain ⟨p, hprecision⟩ : ∃ p, f.precision = p + 1 := Nat.exists_eq_add_one.2 f.pos
    have hhalf : ∃ n : Int, m = 2 * n ∧ |n| < 2 ^ f.precision := by
      rw [hprecision, pow_succ] at heq ⊢
      have hpos : (0 : Int) < 2 ^ p := by positivity
      rcases abs_eq (by omega) |>.1 heq with rfl | rfl
      · exact ⟨2 ^ p, by ring, by rw [abs_of_pos hpos]; omega⟩
      · exact ⟨-2 ^ p, by ring, by rw [abs_neg, abs_of_pos hpos]; omega⟩
    obtain ⟨n, rfl, hn⟩ := hhalf
    refine ⟨n, k + 1, hn, by omega, ?_⟩
    rw [zpow_add_one₀ (by norm_num)]
    push_cast
    ring

theorem round_round (q : ℚ) : f.round (f.round q) = f.round q := by
  obtain ⟨m, k, hm, hk, hround⟩ := f.exists_round q
  obtain ⟨n, j, hn, hj, hbits⟩ := f.exists_bits hm hk
  rw [hround, hbits]
  exact f.round_eq_self hn hj

/-- Rounding does not pass a power of two. -/
theorem abs_round_le {q : ℚ} {j : Int} (hj : f.minExponent ≤ j) (hq : |q| ≤ 2 ^ j) :
    |f.round q| ≤ 2 ^ j := by
  have hunit : (0 : ℚ) < 2 ^ f.exponent q := zpow_pos (by norm_num) _
  by_cases hexponent : f.exponent q ≤ j
  · obtain ⟨n, hn⟩ : ∃ n : Nat, j - f.exponent q = n := ⟨_, (Int.toNat_of_nonneg (by omega)).symm⟩
    have hpow : (2 : ℚ) ^ j = 2 ^ n * 2 ^ f.exponent q := by
      rw [← zpow_natCast, ← zpow_add₀ (by norm_num)]
      congr 1
      omega
    have hbound : |q / 2 ^ f.exponent q| ≤ 2 ^ n := by
      rw [abs_div, abs_of_pos hunit, div_le_iff₀ hunit, ← hpow]
      exact hq
    obtain ⟨hlow, hhigh⟩ := abs_le.1 hbound
    have hmin := le_roundHalfEven (a := -2 ^ n) (by push_cast; exact hlow)
    have hmax := roundHalfEven_le (a := 2 ^ n) (by push_cast; exact hhigh)
    rw [round, abs_mul, abs_of_pos hunit, hpow]
    refine mul_le_mul_of_nonneg_right ?_ hunit.le
    exact_mod_cast abs_le.2 ⟨hmin, hmax⟩
  · -- only zero has its exponent above
    have hzero : q = 0 := by
      by_contra hne
      have hlog : Int.log 2 |q| ≤ j := by
        refine (Int.log_mono_right (b := 2) (abs_pos.2 hne) hq).trans (le_of_eq ?_)
        exact_mod_cast Int.log_zpow (R := ℚ) (b := 2) (by omega) j
      have hpos := f.pos
      exact hexponent (max_le (by omega) hj)
    have hround : roundHalfEven 0 = 0 := roundHalfEven_intCast 0
    rw [hzero, round, zero_div, hround, Int.cast_zero, zero_mul, abs_zero]
    exact (zpow_pos (by norm_num) _).le

/-- Above the smallest exponent, rounding changes a number by at most half of its last bit. -/
theorem abs_round_sub_le {q : ℚ} (h : f.minExponent ≤ Int.log 2 |q| - (f.precision - 1)) :
    |f.round q - q| ≤ 2 ^ (-f.precision : Int) * |q| := by
  by_cases hzero : q = 0
  · have hround : roundHalfEven 0 = 0 := roundHalfEven_intCast 0
    rw [hzero, round, zero_div, hround, Int.cast_zero, zero_mul, sub_zero, abs_zero, mul_zero]
  · have hunit : (0 : ℚ) < 2 ^ f.exponent q := zpow_pos (by norm_num) _
    have hhalf := (nearest_roundHalfEven (q / 2 ^ f.exponent q)).half
    have herror : f.round q - q =
        (roundHalfEven (q / 2 ^ f.exponent q) - q / 2 ^ f.exponent q) * 2 ^ f.exponent q := by
      rw [sub_mul, div_mul_cancel₀ _ hunit.ne']
      rfl
    have hlog : (2 : ℚ) ^ Int.log 2 |q| ≤ |q| := by
      exact_mod_cast Int.zpow_log_le_self (R := ℚ) (b := 2) (by omega) (abs_pos.2 hzero)
    have hexponent : (2 : ℚ) ^ f.exponent q =
        2 * (2 ^ (-f.precision : Int) * 2 ^ Int.log 2 |q|) := by
      rw [exponent, max_eq_left h, ← zpow_add₀ (by norm_num), ← zpow_one_add₀ (by norm_num)]
      congr 1
      omega
    have hpos : (0 : ℚ) < 2 ^ (-f.precision : Int) := zpow_pos (by norm_num) _
    rw [herror, abs_mul, abs_of_pos hunit]
    calc _ ≤ 1 / 2 * 2 ^ f.exponent q := mul_le_mul_of_nonneg_right hhalf hunit.le
      _ = 2 ^ (-f.precision : Int) * 2 ^ Int.log 2 |q| := by
        rw [hexponent]
        ring
      _ ≤ 2 ^ (-f.precision : Int) * |q| := mul_le_mul_of_nonneg_left hlog hpos.le

/-- Rounding leaves an integer an integer. -/
theorem exists_round_intCast (n : Int) : ∃ m : Int, f.round n = m := by
  unfold round
  generalize f.exponent n = e
  rcases le_total 0 e with he | he
  · obtain ⟨j, rfl⟩ := Int.eq_ofNat_of_zero_le he
    refine ⟨roundHalfEven (n / 2 ^ (j : Int)) * 2 ^ j, ?_⟩
    push_cast
    rw [zpow_natCast]
  · obtain ⟨j, hj⟩ := Int.eq_ofNat_of_zero_le (neg_nonneg.2 he)
    have hscaled : (n : ℚ) / 2 ^ e = ((n * 2 ^ j : Int) : ℚ) := by
      rw [div_eq_mul_inv, ← zpow_neg, hj]
      push_cast
      rw [zpow_natCast]
    refine ⟨n, ?_⟩
    rw [hscaled, roundHalfEven_intCast, ← hscaled, div_mul_cancel₀ _ (zpow_ne_zero _ (by norm_num))]

/-- A number of a format is a number of a larger one. -/
theorem Fits.mono {f g : Format} {q : ℚ} (h : f.Fits q)
    (hprecision : f.precision ≤ g.precision) (hmin : g.minExponent ≤ f.minExponent)
    (hmax : f.maxExponent ≤ g.maxExponent) : g.Fits q := by
  obtain ⟨m, k, hm, hk, hround⟩ := f.exists_round q
  obtain ⟨n, j, hn, hj, hbits⟩ := f.exists_bits hm hk
  have hq : q = n * 2 ^ j := by
    rw [← hbits, ← hround, h.1]
  constructor
  · rw [hq]
    refine g.round_eq_self (lt_of_lt_of_le hn ?_) (hmin.trans hj)
    exact_mod_cast Nat.pow_le_pow_right (by omega) hprecision
  · exact lt_of_lt_of_le h.2 (zpow_le_zpow_right₀ (by norm_num) hmax)

/-! ## Values -/

def ofRat (q : ℚ) : Number f :=
  if h : |f.round q| < 2 ^ f.maxExponent then .finite (f.round q) ⟨f.round_round q, h⟩
  else .infinite (decide (q < 0))

theorem ofRat_of_fits {q : ℚ} (h : f.Fits q) : f.ofRat q = .finite q h := by
  unfold ofRat
  simp only [h.1, h.2, dite_true]

/-- The value with the given sign, exponent and fraction bits. -/
def ofBits (n : Nat) : Number f :=
  let fraction := n % 2 ^ (f.precision - 1)
  let exponent := n / 2 ^ (f.precision - 1) % 2 ^ f.exponentBits
  let neg := n.testBit (f.precision - 1 + f.exponentBits)
  if exponent = 2 ^ f.exponentBits - 1 then if fraction = 0 then .infinite neg else .nan
  else
    let m := if exponent = 0 then fraction else fraction + 2 ^ (f.precision - 1)
    f.ofRat ((if neg then -(m : ℚ) else m) * 2 ^ ((max exponent 1 : Nat) - 1 + f.minExponent))

namespace Number

variable {f}

def neg : Number f → Number f
  | finite q _ => f.ofRat (-q)
  | infinite s => infinite !s
  | nan => nan

def add : Number f → Number f → Number f
  | finite a _, finite b _ => f.ofRat (a + b)
  | infinite s, infinite t => if s = t then infinite s else nan
  | infinite s, finite .. => infinite s
  | finite .., infinite s => infinite s
  | _, _ => nan

def sub (a b : Number f) : Number f := add a b.neg

def mul : Number f → Number f → Number f
  | finite a _, finite b _ => f.ofRat (a * b)
  | infinite s, infinite t => infinite (s ^^ t)
  | infinite s, finite b _ => if b = 0 then nan else infinite (s ^^ decide (b < 0))
  | finite a _, infinite t => if a = 0 then nan else infinite (decide (a < 0) ^^ t)
  | _, _ => nan

def div : Number f → Number f → Number f
  | finite a _, finite b _ =>
    if b = 0 then if a = 0 then nan else infinite (decide (a < 0)) else f.ofRat (a / b)
  | infinite s, finite b _ => infinite (s ^^ decide (b < 0))
  | finite .., infinite _ => f.ofRat 0
  | _, _ => nan

def lt : Number f → Number f → Bool
  | finite a _, finite b _ => decide (a < b)
  | infinite s, infinite t => s && !t
  | infinite s, finite .. => s
  | finite .., infinite t => !t
  | _, _ => false

def eq : Number f → Number f → Bool
  | finite a _, finite b _ => decide (a = b)
  | infinite s, infinite t => s == t
  | _, _ => false

def isFinite : Number f → Bool
  | finite .. => true
  | _ => false

/-- The nearest integer, the one farther from zero of two; anything for a value that has none. -/
def llround : Number f → Int
  | finite q _ => if q < 0 then -⌊1 / 2 - q⌋ else ⌊q + 1 / 2⌋
  | _ => 0

/-- The value in another format. -/
def convert (g : Format) : Number f → Number g
  | finite q _ => g.ofRat q
  | infinite s => infinite s
  | nan => nan

/-- A value comes back from a larger format. -/
theorem convert_convert {g : Format} (hprecision : f.precision ≤ g.precision)
    (hmin : g.minExponent ≤ f.minExponent) (hmax : f.maxExponent ≤ g.maxExponent) (x : Number f) :
    (x.convert g).convert f = x := by
  cases x with
  | finite q h =>
    show (g.ofRat q).convert f = _
    rw [g.ofRat_of_fits (h.mono hprecision hmin hmax)]
    exact f.ofRat_of_fits h
  | infinite s => rfl
  | nan => rfl

theorem llround_intCast {n : Int} (h : f.Fits n) : (finite (n : ℚ) h).llround = n := by
  have hhalf : ⌊(1 / 2 : ℚ)⌋ = 0 := by norm_num
  show (if (n : ℚ) < 0 then -⌊1 / 2 - (n : ℚ)⌋ else ⌊(n : ℚ) + 1 / 2⌋) = n
  rw [Int.floor_sub_intCast, Int.floor_intCast_add, hhalf]
  split <;> omega

end Number

end Format

end Lib
