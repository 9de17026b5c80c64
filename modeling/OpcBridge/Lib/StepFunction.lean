import Mathlib.MeasureTheory.Integral.IntervalIntegral.Basic

/-!
# Step functions

A list of points `(time, value)` in ascending order of time describes a step function: each value
holds from its time until the time of the next point. The integral of such a function is computed
piece by piece.
-/

namespace Lib

/-- The value of the last point at or before `t`. -/
noncomputable def stepAt (ps : List (ℝ × ℝ)) (t : ℝ) : Option ℝ :=
  (ps.filter fun p => p.1 ≤ t).getLast?.map Prod.snd

/-- The step function of the points; 0 before the first of them. -/
noncomputable def stepFunction (ps : List (ℝ × ℝ)) (t : ℝ) : ℝ := (stepAt ps t).getD 0

section
variable {ps qs : List (ℝ × ℝ)} {p q : ℝ × ℝ} {a b c t : ℝ}

theorem stepAt_cons_cons (hpq : p.1 ≤ q.1) (ht : q.1 ≤ t) :
    stepAt (p :: q :: ps) t = stepAt (q :: ps) t := by
  unfold stepAt
  rw [List.filter_cons_of_pos (by simpa using hpq.trans ht),
    List.filter_cons_of_pos (by simpa using ht), List.getLast?_cons_cons]

theorem stepAt_cons (hp : p.1 ≤ t) (hps : ∀ q ∈ ps, t < q.1) : stepAt (p :: ps) t = some p.2 := by
  have hnone : ps.filter (fun q => q.1 ≤ t) = [] := by
    rw [List.filter_eq_nil_iff]
    intro q hq
    simpa using hps q hq
  unfold stepAt
  rw [List.filter_cons_of_pos (by simpa using hp), hnone]
  rfl

/-- Points after `t` change nothing at `t`. -/
theorem stepAt_filter {keep : ℝ × ℝ → Bool} (hkeep : ∀ q ∈ ps, q.1 ≤ t → keep q = true) :
    stepAt (ps.filter keep) t = stepAt ps t := by
  have hsame : (ps.filter keep).filter (fun q => q.1 ≤ t) = ps.filter fun q => q.1 ≤ t := by
    rw [List.filter_filter]
    apply List.filter_congr
    intro q hq
    by_cases hqt : q.1 ≤ t
    · simp [hqt, hkeep q hq hqt]
    · simp [hqt]
  unfold stepAt
  rw [hsame]

/-- From the time of a later point on, the points before the last one do not matter. -/
theorem stepAt_of_last {rs : List (ℝ × ℝ)} (hps : ∀ q ∈ ps, q.1 ≤ t) :
    stepAt (ps.getLast?.toList ++ rs) t = stepAt (ps ++ rs) t := by
  have hall : ps.filter (fun q => q.1 ≤ t) = ps := by
    rw [List.filter_eq_self]
    intro q hq
    simpa using hps q hq
  have hlast : ps.getLast?.toList.filter (fun q => q.1 ≤ t) = ps.getLast?.toList := by
    rw [List.filter_eq_self]
    intro q hq
    simpa using hps q (List.mem_of_getLast? (by simpa using hq))
  unfold stepAt
  rw [List.filter_append, List.filter_append, hall, hlast, List.getLast?_append,
    List.getLast?_append]
  cases ps.getLast? <;> rfl

/-! ## Integrals -/

/-- A function that has one value between `a` and `b`. -/
theorem integral_piece {f : ℝ → ℝ} (hab : a ≤ b) (hf : ∀ t ∈ Set.Ioo a b, f t = c) :
    IntervalIntegrable f MeasureTheory.volume a b ∧ ∫ t in a..b, f t = c * (b - a) := by
  have heq : Set.EqOn (fun _ => c) f (Set.uIoo a b) := by
    intro t ht
    rw [Set.uIoo_of_le hab] at ht
    exact (hf t ht).symm
  refine ⟨IntervalIntegrable.congr_uIoo intervalIntegrable_const heq, ?_⟩
  rw [← intervalIntegral.integral_congr_Ioo_of_le hab (Set.uIoo_of_le hab ▸ heq), intervalIntegral.integral_const, smul_eq_mul,
    mul_comm]

/-- A mean is not below every value. -/
theorem exists_le_mean {f : ℝ → ℝ} (hab : a < b)
    (hf : IntervalIntegrable f MeasureTheory.volume a b) :
    ∃ t ∈ Set.Ioo a b, f t ≤ (∫ t in a..b, f t) / (b - a) := by
  by_contra! hall
  have hpos : 0 < ∫ t in a..b, (f t - (∫ t in a..b, f t) / (b - a)) :=
    intervalIntegral.intervalIntegral_pos_of_pos_on (hf.sub intervalIntegrable_const)
      (fun t ht => sub_pos.2 (hall t ht)) hab
  have hlen : b - a ≠ 0 := (sub_pos.2 hab).ne'
  rw [intervalIntegral.integral_sub hf intervalIntegrable_const, intervalIntegral.integral_const,
    smul_eq_mul, mul_div_cancel₀ _ hlen, sub_self] at hpos
  exact lt_irrefl 0 hpos

/-- A mean is not above every value. -/
theorem exists_ge_mean {f : ℝ → ℝ} (hab : a < b)
    (hf : IntervalIntegrable f MeasureTheory.volume a b) :
    ∃ t ∈ Set.Ioo a b, (∫ t in a..b, f t) / (b - a) ≤ f t := by
  obtain ⟨t, ht, hle⟩ := exists_le_mean hab hf.neg
  refine ⟨t, ht, ?_⟩
  have hneg : (∫ t in a..b, (-f) t) = -∫ t in a..b, f t := intervalIntegral.integral_neg
  rw [hneg, neg_div, Pi.neg_apply] at hle
  exact neg_le_neg_iff.1 hle

end

end Lib
