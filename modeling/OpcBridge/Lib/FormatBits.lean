import OpcBridge.Lib.Formats

/-!
# The bits of a number

`Format.toBits` are a sign, an exponent and a fraction for every value of a format, and
`ofBits_toBits` says that they are read back as the value. Zero gets the positive sign, and one of
the patterns that are no number stands for all of them.
-/

namespace Lib

namespace Format

variable {f : Format}

/-- The sign bit, the exponent field and the fraction side by side. -/
def pack (f : Format) (neg : Bool) (exponent fraction : Nat) : Nat :=
  (neg.toNat * 2 ^ f.exponentBits + exponent) * 2 ^ (f.precision - 1) + fraction

/-- `|q|` in units of its last bit. -/
def significand (f : Format) (q : ℚ) : Nat := (roundHalfEven (q / 2 ^ f.exponent q)).natAbs

def toBits : Number f → Nat
  | .finite q _ =>
    let m := f.significand q
    if m < 2 ^ (f.precision - 1) then f.pack (decide (q < 0)) 0 m
    else f.pack (decide (q < 0)) (f.exponent q - f.minExponent + 1).toNat
      (m - 2 ^ (f.precision - 1))
  | .infinite neg => f.pack neg (2 ^ f.exponentBits - 1) 0
  | .nan => f.pack false (2 ^ f.exponentBits - 1) 1

section
variable {neg : Bool} {exponent fraction : Nat}

theorem pack_fraction (hfraction : fraction < 2 ^ (f.precision - 1)) :
    f.pack neg exponent fraction % 2 ^ (f.precision - 1) = fraction := by
  rw [pack, Nat.add_comm, Nat.add_mul_mod_self_right, Nat.mod_eq_of_lt hfraction]

theorem pack_high (hfraction : fraction < 2 ^ (f.precision - 1)) :
    f.pack neg exponent fraction / 2 ^ (f.precision - 1) =
      neg.toNat * 2 ^ f.exponentBits + exponent := by
  rw [pack, Nat.add_comm, Nat.add_mul_div_right _ _ (by positivity), Nat.div_eq_of_lt hfraction,
    Nat.zero_add]

theorem pack_exponent (hfraction : fraction < 2 ^ (f.precision - 1))
    (hexponent : exponent < 2 ^ f.exponentBits) :
    f.pack neg exponent fraction / 2 ^ (f.precision - 1) % 2 ^ f.exponentBits = exponent := by
  rw [pack_high hfraction, Nat.add_comm, Nat.add_mul_mod_self_right, Nat.mod_eq_of_lt hexponent]

theorem pack_sign (hfraction : fraction < 2 ^ (f.precision - 1))
    (hexponent : exponent < 2 ^ f.exponentBits) :
    (f.pack neg exponent fraction).testBit (f.precision - 1 + f.exponentBits) = neg := by
  rw [Nat.testBit_eq_decide_div_mod_eq, pow_add, ← Nat.div_div_eq_div_mul, pack_high hfraction,
    Nat.add_comm, Nat.add_mul_div_right _ _ (by positivity), Nat.div_eq_of_lt hexponent]
  cases neg <;> rfl

theorem pack_lt (hfraction : fraction < 2 ^ (f.precision - 1))
    (hexponent : exponent < 2 ^ f.exponentBits) :
    f.pack neg exponent fraction < 2 ^ (f.precision + f.exponentBits) := by
  have hneg : neg.toNat ≤ 1 := Bool.toNat_le neg
  have hhigh : neg.toNat * 2 ^ f.exponentBits + exponent + 1 ≤ 2 * 2 ^ f.exponentBits := by
    have hmul := Nat.mul_le_mul_right (2 ^ f.exponentBits) hneg
    omega
  have hpos := f.pos
  calc f.pack neg exponent fraction
      < (neg.toNat * 2 ^ f.exponentBits + exponent + 1) * 2 ^ (f.precision - 1) := by
        rw [pack, Nat.add_mul _ 1, Nat.one_mul]
        omega
    _ ≤ 2 * 2 ^ f.exponentBits * 2 ^ (f.precision - 1) := Nat.mul_le_mul_right _ hhigh
    _ = 2 ^ (f.precision + f.exponentBits) := by
        rw [← pow_succ', ← pow_add]
        congr 1
        omega

/-- How packed fields are read. -/
theorem ofBits_pack (hfraction : fraction < 2 ^ (f.precision - 1))
    (hexponent : exponent < 2 ^ f.exponentBits) :
    f.ofBits (f.pack neg exponent fraction) =
      if exponent = 2 ^ f.exponentBits - 1 then if fraction = 0 then .infinite neg else .nan
      else f.ofRat ((if neg then -1 else 1) *
        ((if exponent = 0 then fraction else fraction + 2 ^ (f.precision - 1) : Nat) : ℚ) *
          2 ^ ((max exponent 1 : Nat) - 1 + f.minExponent)) := by
  unfold ofBits
  dsimp only
  rw [pack_fraction hfraction, pack_exponent hfraction hexponent, pack_sign hfraction hexponent]
  cases neg with
  | false => simp
  | true => simp only [if_true, neg_mul, one_mul]

end

/-! ## Finite values -/

section
variable {q : ℚ}

/-- A number of the format is a whole number of its units. -/
theorem abs_eq_significand (h : f.Fits q) : |q| = f.significand q * 2 ^ f.exponent q := by
  have hunit : (0 : ℚ) < 2 ^ f.exponent q := zpow_pos (by norm_num) _
  have hround : (roundHalfEven (q / 2 ^ f.exponent q) : ℚ) * 2 ^ f.exponent q = q := h.1
  have habs : |(roundHalfEven (q / 2 ^ f.exponent q) : ℚ)| = f.significand q := by
    rw [significand, ← Int.cast_abs, Int.abs_eq_natAbs]
    rfl
  rw [← habs, ← abs_of_pos hunit, ← abs_mul, abs_of_pos hunit, hround]

theorem significand_lt (h : f.Fits q) : f.significand q < 2 ^ f.precision := by
  have hunit : (0 : ℚ) < 2 ^ f.exponent q := zpow_pos (by norm_num) _
  have hlt := Int.lt_zpow_succ_log_self (R := ℚ) (b := 2) (by omega) |q|
  have hexponent : Int.log 2 |q| + 1 ≤ f.precision + f.exponent q := by
    have hle : Int.log 2 |q| - (f.precision - 1) ≤ f.exponent q := le_max_left _ _
    omega
  have hpow := zpow_le_zpow_right₀ (a := (2 : ℚ)) (by norm_num) hexponent
  have hbound : (f.significand q : ℚ) * 2 ^ f.exponent q < 2 ^ f.precision * 2 ^ f.exponent q := by
    rw [← abs_eq_significand h, ← zpow_natCast, ← zpow_add₀ (by norm_num)]
    exact lt_of_lt_of_le (by exact_mod_cast hlt) hpow
  exact_mod_cast lt_of_mul_lt_mul_right hbound hunit.le

/-- Few units: the exponent is the smallest one, or the number is zero. -/
theorem abs_of_small (h : f.Fits q) (hsmall : f.significand q < 2 ^ (f.precision - 1)) :
    |q| = f.significand q * 2 ^ f.minExponent := by
  have hq := abs_eq_significand h
  by_cases hexponent : f.exponent q = f.minExponent
  · rw [hexponent] at hq
    exact hq
  · have hunit : (0 : ℚ) < 2 ^ f.exponent q := zpow_pos (by norm_num) _
    have hlog : f.exponent q = Int.log 2 |q| - (f.precision - 1) := by
      unfold exponent at hexponent ⊢
      omega
    have hzero : f.significand q = 0 := by
      by_contra hne
      have habs : 0 < |q| := by
        rw [hq]
        exact mul_pos (by exact_mod_cast Nat.pos_of_ne_zero hne) hunit
      have hle := Int.zpow_log_le_self (R := ℚ) (b := 2) (by omega) habs
      have hcount : (2 : ℚ) ^ (f.precision - 1) * 2 ^ f.exponent q ≤
          f.significand q * 2 ^ f.exponent q := by
        have hpos := f.pos
        have heq : ((f.precision - 1 : Nat) : Int) + f.exponent q = Int.log 2 |q| := by omega
        rw [← hq, ← zpow_natCast, ← zpow_add₀ (by norm_num), heq]
        exact_mod_cast hle
      have hge : 2 ^ (f.precision - 1) ≤ f.significand q := by
        exact_mod_cast le_of_mul_le_mul_right hcount hunit
      omega
    rw [hq, hzero]
    simp

/-- Many units: the exponent is above the smallest one by less than the fields hold. -/
theorem exponent_field (h : f.Fits q) (hlarge : 2 ^ (f.precision - 1) ≤ f.significand q) :
    f.minExponent ≤ f.exponent q ∧ f.exponent q - f.minExponent + 2 ≤ 2 ^ f.exponentBits - 1 := by
  have hmin : f.minExponent ≤ f.exponent q := le_max_right _ _
  have hunit : (0 : ℚ) < 2 ^ f.exponent q := zpow_pos (by norm_num) _
  have hlt : (2 : ℚ) ^ ((f.precision - 1 : Nat) + f.exponent q) < 2 ^ f.maxExponent := by
    refine lt_of_le_of_lt ?_ h.2
    rw [zpow_add₀ (by norm_num), zpow_natCast, abs_eq_significand h]
    exact mul_le_mul_of_nonneg_right (by exact_mod_cast hlarge) hunit.le
  have hexponent := (zpow_lt_zpow_iff_right₀ (a := (2 : ℚ)) (by norm_num)).1 hlt
  have hpos := f.pos
  refine ⟨hmin, ?_⟩
  unfold maxExponent at hexponent
  unfold minExponent at hmin ⊢
  rcases Nat.eq_zero_or_pos f.exponentBits with hzero | hbits
  · rw [hzero] at hexponent hmin ⊢
    simp only [Nat.zero_sub, pow_zero] at hexponent hmin ⊢
    omega
  · obtain ⟨w, hw⟩ : ∃ w, f.exponentBits = w + 1 := Nat.exists_eq_add_one.2 hbits
    rw [hw, Nat.add_sub_cancel] at hexponent ⊢
    rw [pow_succ]
    omega

theorem signed_abs (q : ℚ) : (if q < 0 then -1 else 1) * |q| = q := by
  split
  · rw [abs_of_neg ‹_›, neg_mul_neg, one_mul]
  · rw [abs_of_nonneg (not_lt.1 ‹_›), one_mul]

end

/-- The bits of a value are three fields that stand for it. -/
theorem toBits_spec (hprecision : 1 < f.precision) (hbits : 0 < f.exponentBits) (x : Number f) :
    ∃ neg exponent fraction, exponent < 2 ^ f.exponentBits ∧ fraction < 2 ^ (f.precision - 1) ∧
      toBits x = f.pack neg exponent fraction ∧
      f.ofBits (f.pack neg exponent fraction) = x := by
  have hones : 2 ^ f.exponentBits - 1 < 2 ^ f.exponentBits := Nat.sub_one_lt (by positivity)
  have hone : 1 < 2 ^ (f.precision - 1) := Nat.one_lt_two_pow (by omega)
  have hfield : 0 < 2 ^ f.exponentBits - 1 := by
    have h := Nat.one_lt_two_pow hbits.ne'
    omega
  cases x with
  | nan =>
    refine ⟨false, _, 1, hones, hone, rfl, ?_⟩
    rw [ofBits_pack hone hones]
    simp
  | infinite neg =>
    refine ⟨neg, _, 0, hones, by omega, rfl, ?_⟩
    rw [ofBits_pack (by omega) hones]
    simp
  | finite q h =>
    rw [toBits]
    split
    · rename_i hsmall
      refine ⟨_, 0, _, by omega, hsmall, rfl, ?_⟩
      have hq : (if decide (q < 0) = true then (-1 : ℚ) else 1) * (f.significand q : ℚ) *
          2 ^ (((max 0 1 : Nat) : Int) - 1 + f.minExponent) = q := by
        have hzero : ((max 0 1 : Nat) : Int) - 1 + f.minExponent = f.minExponent := by simp
        rw [hzero, mul_assoc, ← abs_of_small h hsmall]
        simpa using signed_abs q
      rw [ofBits_pack hsmall (by omega), if_neg (by omega), if_pos rfl, hq]
      exact f.ofRat_of_fits h
    · rename_i hlarge
      have hlarge := not_lt.1 hlarge
      obtain ⟨hmin, hmax⟩ := exponent_field h hlarge
      have hlt := significand_lt h
      have hdouble : 2 ^ f.precision = 2 ^ (f.precision - 1) * 2 := by
        rw [← pow_succ]
        congr 1
        omega
      have hexponent : (f.exponent q - f.minExponent + 1).toNat < 2 ^ f.exponentBits - 1 := by
        have hcast : f.exponent q - f.minExponent + 2 ≤ ((2 ^ f.exponentBits : Nat) : Int) - 1 := by
          push_cast
          exact hmax
        omega
      have hpositive : (f.exponent q - f.minExponent + 1).toNat ≠ 0 := by omega
      refine ⟨_, _, _, hexponent.trans hones, by omega, rfl, ?_⟩
      have hq : (if decide (q < 0) = true then (-1 : ℚ) else 1) *
          ((f.significand q - 2 ^ (f.precision - 1) + 2 ^ (f.precision - 1) : Nat) : ℚ) *
          2 ^ (((max (f.exponent q - f.minExponent + 1).toNat 1 : Nat) : Int) - 1 +
            f.minExponent) = q := by
        have hunits : f.significand q - 2 ^ (f.precision - 1) + 2 ^ (f.precision - 1) =
            f.significand q := Nat.sub_add_cancel hlarge
        have hunit : ((max (f.exponent q - f.minExponent + 1).toNat 1 : Nat) : Int) - 1 +
            f.minExponent = f.exponent q := by omega
        rw [hunits, hunit, mul_assoc, ← abs_eq_significand h]
        simpa using signed_abs q
      rw [ofBits_pack (by omega) (hexponent.trans hones), if_neg hexponent.ne, if_neg hpositive, hq]
      exact f.ofRat_of_fits h

/-- The bits of a value are read back as the value. -/
theorem ofBits_toBits (hprecision : 1 < f.precision) (hbits : 0 < f.exponentBits)
    (x : Number f) : f.ofBits (toBits x) = x := by
  obtain ⟨neg, exponent, fraction, -, -, hpack, hread⟩ := toBits_spec hprecision hbits x
  rw [hpack, hread]

theorem toBits_lt (hprecision : 1 < f.precision) (hbits : 0 < f.exponentBits) (x : Number f) :
    toBits x < 2 ^ (f.precision + f.exponentBits) := by
  obtain ⟨neg, exponent, fraction, hexponent, hfraction, hpack, -⟩ := toBits_spec hprecision hbits x
  rw [hpack]
  exact pack_lt hfraction hexponent

end Format

end Lib
