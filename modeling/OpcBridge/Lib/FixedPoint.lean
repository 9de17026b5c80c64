import OpcBridge.Lib.Decimal

/-!
# Decimals with a fixed number of places

`printFixed p q` is the text that C prints for `q` with `%f` and a precision of `p`: the number is
rounded to `p` places after the point, ties to even, whatever its size. Reading it back gives the
multiple of `10 ^ -p` that is nearest to `q` (`readDecimal_printFixed`).
-/

namespace Lib

/-- At least `p` digits. -/
def padDigits (p n : Nat) : List Char :=
  List.replicate (p - (Nat.toDigits 10 n).length) '0' ++ Nat.toDigits 10 n

def printFixed (p : Nat) (q : ℚ) : List Char :=
  let d := (roundHalfEven (q * 10 ^ p)).natAbs
  signText (decide (q < 0)) ++ Nat.toDigits 10 (d / 10 ^ p) ++ pointText (padDigits p (d % 10 ^ p))

example : printFixed 6 (-12345678915 / 10000000) = "-1234.567892".toList := by decide +kernel

variable {p : Nat}

theorem padDigits_isDigit (p n : Nat) : ∀ c ∈ padDigits p n, c.isDigit = true := by
  intro c hc
  rcases List.mem_append.1 hc with hc | hc
  · rw [List.eq_of_mem_replicate hc]
    rfl
  · exact toDigits_isDigit n c hc

theorem digitsNat_padDigits (p n : Nat) : digitsNat (padDigits p n) = n := by
  rw [padDigits, digitsNat_append, digitsNat_zeros, Nat.mul_zero, Nat.zero_add, digitsNat_toDigits]

theorem length_padDigits (hp : 0 < p) {n : Nat} (hn : n < 10 ^ p) :
    (padDigits p n).length = p := by
  have hle : (Nat.toDigits 10 n).length ≤ p := (Nat.length_toDigits_le_iff (by omega) hp).2 hn
  rw [padDigits, List.length_append, List.length_replicate]
  omega

theorem roundHalfEven_nonpos {x : ℚ} (h : x ≤ 0) : roundHalfEven x ≤ 0 :=
  roundHalfEven_le (by exact_mod_cast h)

theorem roundHalfEven_nonneg {x : ℚ} (h : 0 ≤ x) : 0 ≤ roundHalfEven x :=
  le_roundHalfEven (by exact_mod_cast h)

/-- The text denotes the rounded number. -/
theorem readDecimal_printFixed (hp : 0 < p) (q : ℚ) :
    readDecimal (printFixed p q) = some ((roundHalfEven (q * 10 ^ p) : ℚ) / 10 ^ p) := by
  have hsign : ((if decide (q < 0) = true then -1 else 1 : ℚ)) *
      ((roundHalfEven (q * 10 ^ p)).natAbs : ℚ) = roundHalfEven (q * 10 ^ p) := by
    have hpow : (0 : ℚ) < 10 ^ p := by positivity
    by_cases hneg : q < 0
    · have hle := roundHalfEven_nonpos (mul_nonpos_of_nonpos_of_nonneg hneg.le hpow.le)
      rw [if_pos (by simpa using hneg), Nat.cast_natAbs, abs_of_nonpos hle]
      push_cast
      ring
    · have hle := roundHalfEven_nonneg (mul_nonneg (not_lt.1 hneg) hpow.le)
      rw [if_neg (by simpa using hneg), Nat.cast_natAbs, abs_of_nonneg hle, one_mul]
  unfold printFixed
  dsimp only
  rw [← hsign]
  generalize (roundHalfEven (q * 10 ^ p)).natAbs = d
  have hread := readDecimal_text (decide (q < 0)) (e := 0) Nat.toDigits_ne_nil
    (toDigits_isDigit (d / 10 ^ p)) (padDigits_isDigit p (d % 10 ^ p)) noRest rfl
  rw [List.append_nil] at hread
  rw [hread, decimalValue, digitsNat_append, digitsNat_toDigits, digitsNat_padDigits,
    length_padDigits hp (Nat.mod_lt _ (by positivity)), Nat.div_add_mod, zero_sub, zpow_neg,
    zpow_natCast, div_eq_mul_inv]

end Lib
