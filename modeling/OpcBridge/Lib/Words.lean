import Mathlib.Algebra.Order.Ring.Int

/-!
# Words inside a 64-bit register

A program keeps a word of `w ≤ 64` bits in a `UInt64` and cuts it with a mask. `IsMask mask w` says
which bits the mask has; the lemmas read a masked register, two joined halves and a sign-extended
register as bit vectors of the word's own width.
-/

namespace Lib

/-! ## Integers -/

theorem setWidth_ofInt {k w : Nat} (h : k ≤ w) (x : Int) :
    (BitVec.ofInt w x).setWidth k = BitVec.ofInt k x := by
  apply BitVec.eq_of_toNat_eq
  rw [BitVec.toNat_setWidth, BitVec.toNat_ofInt, BitVec.toNat_ofInt]
  have hdvd : (2 ^ k : Int) ∣ 2 ^ w := pow_dvd_pow 2 h
  have hmod := Int.emod_emod_of_dvd x hdvd
  have hw : (0 : Int) ≤ x % 2 ^ w := Int.emod_nonneg _ (pow_ne_zero _ two_ne_zero)
  have hk : (0 : Int) ≤ x % 2 ^ k := Int.emod_nonneg _ (pow_ne_zero _ two_ne_zero)
  rw [Nat.cast_pow, Nat.cast_pow, Nat.cast_ofNat, ← Int.ofNat_inj, Int.natCast_mod, Nat.cast_pow,
    Nat.cast_ofNat, Int.toNat_of_nonneg hw, Int.toNat_of_nonneg hk, hmod]

theorem toBitVec_ofInt (x : Int) : (UInt64.ofInt x).toBitVec = BitVec.ofInt 64 x := by
  apply BitVec.eq_of_toNat_eq
  rw [BitVec.toNat_ofInt]
  show (UInt64.ofNat _).toNat = _
  rw [UInt64.toNat_ofNat']
  apply Nat.mod_eq_of_lt
  omega

/-! ## Masks -/

/-- The mask has the low `w` bits. -/
def IsMask (mask : UInt64) (w : Nat) : Prop :=
  ∀ i < 64, mask.toBitVec.getLsbD i = decide (i < w)

variable {mask n : UInt64} {k w : Nat}

theorem isMask_ofNat (w : Nat) : IsMask (UInt64.ofNat (2 ^ w - 1)) w := by
  intro i hi
  show (BitVec.ofNat 64 (2 ^ w - 1)).getLsbD i = _
  rw [BitVec.getLsbD_ofNat, Nat.testBit_two_pow_sub_one]
  simp [hi]

theorem IsMask.mono (h : IsMask mask 64) (hw : 64 ≤ w) : IsMask mask w := by
  intro i hi
  rw [h i hi]
  have hiw : i < w := by omega
  simp [hi, hiw]

theorem IsMask.and (h : IsMask mask w) (n : UInt64) :
    (n &&& mask).toBitVec = (n.toBitVec.setWidth w).setWidth 64 := by
  refine BitVec.eq_of_getLsbD_eq fun i hi => ?_
  simp [h i hi, hi, Bool.and_comm, -BitVec.getLsbD_eq_getElem]

theorem IsMask.toNat_and (h : IsMask mask w) (hw : w ≤ 64) (n : UInt64) :
    (n &&& mask).toNat = n.toNat % 2 ^ w := by
  rw [← UInt64.toNat_toBitVec, h.and, BitVec.toNat_setWidth_of_le hw, BitVec.toNat_setWidth,
    UInt64.toNat_toBitVec]

/-! ## Two halves -/

/-- The two halves of the low bits of a word make these bits again. -/
theorem join_halves {hi lo : UInt64} (h : IsMask mask k) (hpos : 0 < k) (hk : k + k ≤ w)
    (hw : k + k ≤ 64) (x : BitVec w) (hhi : hi.toBitVec = ((x.extractLsb' k k).setWidth w).setWidth 64)
    (hlo : lo.toBitVec = ((x.setWidth k).setWidth w).setWidth 64) :
    (((hi &&& mask) <<< UInt64.ofNat k) ||| (lo &&& mask)).toBitVec =
      (x.setWidth (k + k)).setWidth 64 := by
  refine BitVec.eq_of_getLsbD_eq fun i hi => ?_
  have hshift : k % 64 = k := by omega
  have hlow := h i hi
  have hhigh := h (i - k) (by omega)
  simp only [UInt64.toBitVec_or, UInt64.toBitVec_shiftLeft, UInt64.toBitVec_and, hhi, hlo,
    BitVec.getLsbD_or, BitVec.getLsbD_and, BitVec.getLsbD_setWidth, hi,
    decide_true, Bool.true_and, hlow]
  by_cases hik : i < k
  · have hiw : i < w := by omega
    have hikk : i < k + k := by omega
    simp [hik, hiw, hikk, hshift, -BitVec.getLsbD_eq_getElem]
  · by_cases hikk : i < k + k
    · have hadd : k + (i - k) = i := by omega
      have hlt : i - k < k := by omega
      have hltw : i - k < w := by omega
      have hlt64 : i - k < 64 := by omega
      simp [hi, hik, hikk, hadd, hlt, hltw, hlt64, hshift, hhigh, -BitVec.getLsbD_eq_getElem]
    · have hlt : ¬ i - k < k := by omega
      simp [hi, hik, hikk, hlt, hshift, hhigh, -BitVec.getLsbD_eq_getElem]

/-! ## Signed words -/

theorem sign_bit (hpos : 0 < k) (hk : k ≤ 64) (r : BitVec k) (h : n.toBitVec = r.setWidth 64) :
    n &&& (1 <<< UInt64.ofNat (k - 1)) ≠ 0 ↔ r.msb = true := by
  have hlt : k - 1 < 64 := by omega
  have hone : ((1 : UInt64) <<< UInt64.ofNat (k - 1)).toBitVec = BitVec.twoPow 64 (k - 1) := by
    have hshift : (k - 1) % 64 = k - 1 := by omega
    simp [BitVec.twoPow, hshift]
  have hbit : (n &&& (1 <<< UInt64.ofNat (k - 1))).toBitVec =
      if r.msb then BitVec.twoPow 64 (k - 1) else 0#64 := by
    rw [UInt64.toBitVec_and, hone, h, BitVec.and_twoPow, BitVec.getLsbD_setWidth,
      BitVec.msb_eq_getLsbD_last]
    simp [hlt]
  rw [Ne, ← UInt64.toBitVec_inj, hbit]
  cases r.msb with
  | false => simp
  | true =>
    have hne : BitVec.twoPow 64 (k - 1) ≠ 0#64 := by
      intro hzero
      have hget := congrArg (fun x => BitVec.getLsbD x (k - 1)) hzero
      simp [-BitVec.getLsbD_eq_getElem] at hget
      omega
    simpa using hne

/-- A negative word with all higher bits set is its value as a signed 64-bit integer. -/
theorem IsMask.signed (hmask : IsMask mask k) (hk : k ≤ 64) (r : BitVec k)
    (h : n.toBitVec = r.setWidth 64) (hmsb : r.msb = true) :
    (Int64.ofNat (n ||| ~~~mask).toNat).toInt = r.toInt := by
  have hext : (n ||| ~~~mask).toBitVec = r.signExtend 64 := by
    refine BitVec.eq_of_getLsbD_eq fun i hi => ?_
    rw [BitVec.getLsbD_signExtend]
    by_cases hik : i < k
    · simp [h, hi, hmask i hi, hik, -BitVec.getLsbD_eq_getElem]
    · simp [h, hi, hmask i hi, hik, hmsb, -BitVec.getLsbD_eq_getElem]
  have hnat : BitVec.ofNat 64 (n ||| ~~~mask).toNat = r.signExtend 64 := by
    rw [← hext]
    simp only [← UInt64.toNat_toBitVec, BitVec.ofNat_toNat, BitVec.setWidth_eq]
  show (BitVec.ofNat 64 _).toInt = _
  rw [hnat, BitVec.toInt_signExtend_of_le hk]

end Lib
