import Mathlib.Algebra.Order.Floor.Ring
import Mathlib.Data.Int.Log
import Mathlib.Data.Rat.Floor
import Mathlib.Tactic.Linarith

/-!
# Rounding to a number of digits

`roundDigits b p` rounds a rational number to `p` significant digits of base `b`, ties to the even
digit: a double is a rational number rounded to 53 binary digits, and the default format of a C++
stream prints one rounded to 6 decimal digits. A number that has no more digits stays as it is
(`roundDigits_eq_self`), and a number near to such a one rounds to it (`roundDigits_of_near`).
-/

namespace Lib

/-- The nearest integer, the even one of two. -/
def roundHalfEven (x : ℚ) : ℤ :=
  if x - ⌊x⌋ < 1 / 2 then ⌊x⌋
  else if 1 / 2 < x - ⌊x⌋ then ⌊x⌋ + 1
  else if ⌊x⌋ % 2 = 0 then ⌊x⌋
  else ⌊x⌋ + 1

@[simp] theorem roundHalfEven_intCast (n : ℤ) : roundHalfEven n = n := by
  unfold roundHalfEven
  rw [Int.floor_intCast, sub_self, if_pos (by norm_num)]

theorem le_roundHalfEven {a : ℤ} {x : ℚ} (h : (a : ℚ) ≤ x) : a ≤ roundHalfEven x := by
  have hfloor : a ≤ ⌊x⌋ := Int.le_floor.2 h
  unfold roundHalfEven
  split_ifs <;> omega

theorem roundHalfEven_le {a : ℤ} {x : ℚ} (h : x ≤ a) : roundHalfEven x ≤ a := by
  rcases eq_or_lt_of_le h with rfl | hlt
  · rw [roundHalfEven_intCast]
  · have hfloor : ⌊x⌋ < a := Int.floor_lt.2 hlt
    unfold roundHalfEven
    split_ifs <;> omega

/-- The integer is the nearest one, or the even one of two. -/
def Nearest (m : ℤ) (x : ℚ) : Prop := |m - x| < 1 / 2 ∨ |m - x| = 1 / 2 ∧ m % 2 = 0

theorem Nearest.half {m : ℤ} {x : ℚ} (h : Nearest m x) : |m - x| ≤ 1 / 2 := by
  rcases h with h | ⟨h, -⟩
  · exact h.le
  · exact h.le

/-- Two integers are not both near. -/
theorem abs_sub_add_abs_sub (m n : ℤ) (x : ℚ) : ((|m - n| : ℤ) : ℚ) ≤ |m - x| + |n - x| := by
  push_cast
  rw [abs_sub_comm (n : ℚ) x]
  exact abs_sub_le _ _ _

theorem nearest_roundHalfEven (x : ℚ) : Nearest (roundHalfEven x) x := by
  have hlow := Int.floor_le x
  have hhigh := Int.lt_floor_add_one x
  unfold roundHalfEven Nearest
  split_ifs with hbelow habove heven
  · left
    rw [abs_lt]
    constructor <;> linarith
  · left
    push_cast
    rw [abs_lt]
    constructor <;> linarith
  · right
    refine ⟨?_, heven⟩
    rw [abs_of_nonpos (by linarith)]
    linarith
  · right
    push_cast
    refine ⟨?_, by omega⟩
    rw [abs_of_nonneg (by linarith)]
    linarith

theorem Nearest.unique {m n : ℤ} {x : ℚ} (hm : Nearest m x) (hn : Nearest n x) : m = n := by
  have hdist := abs_sub_add_abs_sub m n x
  have hmhalf := hm.half
  have hnhalf := hn.half
  have hone : |m - n| ≤ 1 := by
    have hsum : ((|m - n| : ℤ) : ℚ) ≤ 1 := hdist.trans (by linarith)
    exact_mod_cast hsum
  by_contra hne
  have hpos : (1 : ℚ) ≤ ((|m - n| : ℤ) : ℚ) := by
    exact_mod_cast Int.one_le_abs (sub_ne_zero.2 hne)
  -- both are half a unit away, so both are even
  rcases hm with hm | ⟨-, hm⟩
  · linarith
  rcases hn with hn | ⟨-, hn⟩
  · linarith
  obtain ⟨hlow, hhigh⟩ := abs_le.1 hone
  omega

theorem roundHalfEven_eq_iff {x : ℚ} {m : ℤ} : roundHalfEven x = m ↔ Nearest m x := by
  constructor
  · intro h
    rw [← h]
    exact nearest_roundHalfEven x
  · exact (nearest_roundHalfEven x).unique

/-- No integer is nearer. -/
theorem Nearest.le {m : ℤ} {x : ℚ} (h : Nearest m x) (n : ℤ) : |m - x| ≤ |n - x| := by
  by_cases heq : m = n
  · rw [heq]
  · have hdist := abs_sub_add_abs_sub m n x
    have hpos : (1 : ℚ) ≤ ((|m - n| : ℤ) : ℚ) := by
      exact_mod_cast Int.one_le_abs (sub_ne_zero.2 heq)
    have hhalf := h.half
    linarith

/-- What the last of `p` digits of `q` is worth. -/
def lastDigit (b p : ℕ) (q : ℚ) : ℚ := (b : ℚ) ^ (Int.log b |q| - (p - 1))

def roundDigits (b p : ℕ) (q : ℚ) : ℚ :=
  if q = 0 then 0 else roundHalfEven (q / lastDigit b p q) * lastDigit b p q

/-- The size of a number in units of the last of its `p` digits. -/
theorem abs_div_lastDigit {b p : ℕ} (hb : 1 < b) (hp : 0 < p) {q : ℚ} (hq : q ≠ 0) :
    ((b ^ (p - 1) : ℕ) : ℚ) ≤ |q| / lastDigit b p q ∧
      |q| / lastDigit b p q < ((b ^ p : ℕ) : ℚ) := by
  have hb0 : (0 : ℚ) < b := by exact_mod_cast zero_lt_one.trans hb
  have hunit : 0 < lastDigit b p q := zpow_pos hb0 _
  have hlow := Int.zpow_log_le_self hb (abs_pos.2 hq)
  have hhigh := Int.lt_zpow_succ_log_self hb |q|
  have hpower : ∀ n : ℕ, ((b ^ n : ℕ) : ℚ) * lastDigit b p q =
      (b : ℚ) ^ (n + (Int.log b |q| - (p - 1))) := by
    intro n
    rw [lastDigit, zpow_add₀ hb0.ne', zpow_natCast]
    push_cast
    rfl
  rw [le_div_iff₀ hunit, div_lt_iff₀ hunit, hpower, hpower]
  constructor
  · refine le_trans (le_of_eq ?_) hlow
    congr 1
    omega
  · refine lt_of_lt_of_eq hhigh ?_
    congr 1
    omega

/-- A number of at most `p` digits is the product of its digits and a power of the base. -/
theorem roundDigits_eq_self {b p : ℕ} (hb : 1 < b) {m k : ℤ} (hm : |m| < (b : ℤ) ^ p) :
    roundDigits b p (m * (b : ℚ) ^ k) = m * (b : ℚ) ^ k := by
  unfold roundDigits
  split
  · rename_i hzero
    exact hzero.symm
  rename_i hne
  have hb1 : (1 : ℚ) < b := by exact_mod_cast hb
  have hb0 : (0 : ℚ) < b := zero_lt_one.trans hb1
  have hpow : (0 : ℚ) < (b : ℚ) ^ k := zpow_pos hb0 k
  have hlog : Int.log b |(m : ℚ) * (b : ℚ) ^ k| < p + k := by
    rw [← zpow_lt_zpow_iff_right₀ hb1]
    refine (Int.zpow_log_le_self hb (abs_pos.2 hne)).trans_lt ?_
    rw [abs_mul, abs_of_pos hpow, zpow_add₀ hb0.ne', zpow_natCast]
    refine mul_lt_mul_of_pos_right ?_ hpow
    exact_mod_cast hm
  obtain ⟨j, hj⟩ : ∃ j : ℕ, k - (Int.log b |(m : ℚ) * (b : ℚ) ^ k| - (p - 1)) = j :=
    ⟨_, (Int.toNat_of_nonneg (by omega)).symm⟩
  have hquot : (m : ℚ) * (b : ℚ) ^ k / lastDigit b p (m * (b : ℚ) ^ k) =
      ((m * (b : ℤ) ^ j : ℤ) : ℚ) := by
    rw [lastDigit, mul_div_assoc, ← zpow_sub₀ hb0.ne', hj, zpow_natCast]
    push_cast
    rfl
  have hunit : lastDigit b p (m * (b : ℚ) ^ k) ≠ 0 := (zpow_pos hb0 _).ne'
  rw [hquot, roundHalfEven_intCast, ← hquot, div_mul_cancel₀ _ hunit]

/-- Rounding keeps the numbers of at most `p` digits and no other. -/
theorem roundDigits_eq_iff {b p : ℕ} (hb : 1 < b) (hp : 0 < p) {q : ℚ} :
    roundDigits b p q = q ↔ ∃ m k : ℤ, |m| < (b : ℤ) ^ p ∧ q = m * (b : ℚ) ^ k := by
  constructor
  · intro hround
    by_cases hq : q = 0
    · exact ⟨0, 0, by rw [abs_zero]; positivity, by rw [hq, Int.cast_zero, zero_mul]⟩
    · have hbound := (abs_div_lastDigit hb hp hq).2
      have hunit : 0 < lastDigit b p q := zpow_pos (by exact_mod_cast zero_lt_one.trans hb) _
      rw [roundDigits, if_neg hq] at hround
      refine ⟨_, _, ?_, hround.symm⟩
      rw [← abs_of_pos hunit, ← abs_div, (eq_div_iff hunit.ne').2 hround |>.symm] at hbound
      exact_mod_cast hbound
  · rintro ⟨m, k, hm, rfl⟩
    exact roundDigits_eq_self hb hm

/-- Only whole units of the last digit are left. -/
theorem exists_roundDigits (b p : ℕ) (q : ℚ) : ∃ n : ℤ, roundDigits b p q = n * lastDigit b p q := by
  unfold roundDigits
  split
  · exact ⟨0, by rw [Int.cast_zero, zero_mul]⟩
  · exact ⟨_, rfl⟩

/-- A number rounds to one of at most `p` digits that is near enough. -/
theorem roundDigits_of_near {b p : ℕ} (hb : 1 < b) (hp : 0 < p) {c q : ℚ}
    (hc : roundDigits b p c = c) (hnear : |q - c| * (4 * (b : ℚ) ^ p) < |c|) :
    roundDigits b p q = c := by
  have hb0 : (0 : ℚ) < b := by exact_mod_cast zero_lt_one.trans hb
  have hpow : (1 : ℚ) ≤ (b : ℚ) ^ p := one_le_pow₀ (by exact_mod_cast hb.le)
  have hpos : 0 < |c| := (mul_nonneg (abs_nonneg _) (by positivity)).trans_lt hnear
  have hquarter : |q - c| * 4 < |c| := by
    refine lt_of_le_of_lt (mul_le_mul_of_nonneg_left ?_ (abs_nonneg _)) hnear
    linarith
  have hupper : |q| ≤ |c| + |q - c| := by
    have := abs_add_le c (q - c)
    rwa [add_sub_cancel] at this
  have hlower : |c| ≤ |q| + |q - c| := by
    have := abs_sub_abs_le_abs_sub c q
    rw [abs_sub_comm c q] at this
    linarith
  have hq : q ≠ 0 := by
    rintro rfl
    rw [abs_zero] at hlower
    linarith
  obtain ⟨n, hn⟩ := exists_roundDigits b p c
  rw [hc] at hn
  have hunit : ∀ x, 0 < lastDigit b p x := fun x => zpow_pos hb0 _
  have habs := congrArg abs hn
  rw [abs_mul, abs_of_pos (hunit c), ← Int.cast_abs] at habs
  -- the digits of `c` leave room for one more unit
  have hdigits : |n| + 1 ≤ (b : ℤ) ^ p := by
    have hlt := (abs_div_lastDigit hb hp (abs_pos.1 hpos)).2
    rw [div_lt_iff₀ (hunit c), habs] at hlt
    have hcast := lt_of_mul_lt_mul_right hlt (hunit c).le
    exact Int.add_one_le_of_lt (by exact_mod_cast hcast)
  have hpower : ∀ x, (b : ℚ) ^ p * lastDigit b p x = (b : ℚ) ^ (Int.log b |x| + 1) := by
    intro x
    rw [lastDigit, ← zpow_natCast, ← zpow_add₀ hb0.ne']
    congr 1
    omega
  have hlog : Int.log b |q| ≤ Int.log b |c| := by
    refine Int.lt_add_one_iff.1 ((Int.lt_zpow_iff_log_lt hb (abs_pos.2 hq)).1 ?_)
    have hroom : ((|n| : ℤ) : ℚ) + 1 ≤ (b : ℚ) ^ p := by exact_mod_cast hdigits
    have hclose : |q - c| < lastDigit b p c := by
      have hlt : |q - c| * (b : ℚ) ^ p < (b : ℚ) ^ p * lastDigit b p c := by
        have := mul_le_mul_of_nonneg_right hroom (hunit c).le
        nlinarith [abs_nonneg (q - c), hunit c]
      rw [mul_comm] at hlt
      exact lt_of_mul_lt_mul_left hlt (by positivity)
    rw [← hpower]
    have := mul_le_mul_of_nonneg_right hroom (hunit c).le
    linarith
  obtain ⟨j, hj⟩ : ∃ j : ℕ, Int.log b |c| - Int.log b |q| = j :=
    ⟨_, (Int.toNat_of_nonneg (by omega)).symm⟩
  have hwhole : c = ((n * (b : ℤ) ^ j : ℤ) : ℚ) * lastDigit b p q := by
    have hscale : lastDigit b p c = (b : ℚ) ^ j * lastDigit b p q := by
      rw [lastDigit, lastDigit, ← zpow_natCast, ← zpow_add₀ hb0.ne']
      congr 1
      omega
    rw [hn, hscale]
    push_cast
    ring
  have hhalf : |q - c| < 1 / 2 * lastDigit b p q := by
    have hq' : |q| < (b : ℚ) ^ p * lastDigit b p q := by
      rw [hpower]
      exact Int.lt_zpow_succ_log_self hb |q|
    have hlt : (b : ℚ) ^ p * |q - c| < (b : ℚ) ^ p * (1 / 2 * lastDigit b p q) := by
      linarith
    exact lt_of_mul_lt_mul_left hlt (by positivity)
  have hnearest : Nearest (n * (b : ℤ) ^ j) (q / lastDigit b p q) := by
    left
    have hquot : ((n * (b : ℤ) ^ j : ℤ) : ℚ) = c / lastDigit b p q :=
      (eq_div_iff (hunit q).ne').2 hwhole.symm
    rw [hquot, ← sub_div, abs_div, abs_of_pos (hunit q), div_lt_iff₀ (hunit q), abs_sub_comm]
    exact hhalf
  rw [roundDigits, if_neg hq, roundHalfEven_eq_iff.2 hnearest]
  exact hwhole.symm

/-- What rounding leaves has at most `p` digits, also where they round up to a power of the base. -/
theorem exists_digits_roundDigits {b p : ℕ} (hb : 1 < b) (hp : 0 < p) (q : ℚ) :
    ∃ m k : ℤ, |m| < (b : ℤ) ^ p ∧ roundDigits b p q = m * (b : ℚ) ^ k := by
  have hpow : (1 : ℤ) < (b : ℤ) ^ p := one_lt_pow₀ (by exact_mod_cast hb) hp.ne'
  by_cases hq : q = 0
  · exact ⟨0, 0, by rw [abs_zero]; omega, by rw [roundDigits, if_pos hq, Int.cast_zero, zero_mul]⟩
  have hunit : 0 < lastDigit b p q := zpow_pos (by exact_mod_cast zero_lt_one.trans hb) _
  have hbound : |q / lastDigit b p q| ≤ (b : ℚ) ^ p := by
    rw [abs_div, abs_of_pos hunit]
    exact_mod_cast (abs_div_lastDigit hb hp hq).2.le
  obtain ⟨hlow, hhigh⟩ := abs_le.1 hbound
  have hdigits : |roundHalfEven (q / lastDigit b p q)| ≤ (b : ℤ) ^ p := by
    rw [abs_le]
    constructor
    · exact le_roundHalfEven (by push_cast; exact hlow)
    · exact roundHalfEven_le (by push_cast; exact hhigh)
  rw [roundDigits, if_neg hq, lastDigit] at *
  generalize roundHalfEven _ = d at hdigits ⊢
  generalize Int.log b |q| - (p - 1) = k
  rcases lt_or_eq_of_le hdigits with hlt | heq
  · exact ⟨d, k, hlt, rfl⟩
  · -- one digit is left
    have hcarry : (b : ℚ) ^ p * (b : ℚ) ^ k = (b : ℚ) ^ (p + k) := by
      rw [zpow_add₀ (by positivity), zpow_natCast]
    rcases abs_eq (by omega) |>.1 heq with rfl | rfl
    · exact ⟨1, p + k, by rwa [abs_one], by push_cast; rw [hcarry, one_mul]⟩
    · exact ⟨-1, p + k, by rwa [abs_neg, abs_one], by push_cast; rw [neg_mul, hcarry, neg_one_mul]⟩

end Lib
