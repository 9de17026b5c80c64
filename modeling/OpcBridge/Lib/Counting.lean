import Mathlib.Algebra.BigOperators.Group.Finset.Piecewise
import Mathlib.Data.Fintype.BigOperators

/-!
# Counting the members of a family

How many members of a finite family of processes are in a state of a kind, and what changing the
state of one of them does to the number.
-/

namespace Lib

variable {ι σ : Type*} [Fintype ι]

/-- The number of members in a state of `p`. -/
def countIn (p : σ → Bool) (f : ι → σ) : Nat := (Finset.univ.filter fun i => p (f i) = true).card

theorem countIn_eq_zero {p : σ → Bool} {f : ι → σ} : countIn p f = 0 ↔ ∀ i, p (f i) = false := by
  unfold countIn
  rw [Finset.card_eq_zero, Finset.filter_eq_empty_iff]
  simp

theorem countIn_ne_zero {p : σ → Bool} {f : ι → σ} : countIn p f ≠ 0 ↔ ∃ i, p (f i) = true := by
  rw [Ne, countIn_eq_zero]
  simp

theorem countIn_le_one {p : σ → Bool} {f : ι → σ} :
    countIn p f ≤ 1 ↔ ∀ i j, p (f i) = true → p (f j) = true → i = j := by
  unfold countIn
  rw [Finset.card_le_one]
  simp only [Finset.mem_filter, Finset.mem_univ, true_and]
  exact ⟨fun h i j hi hj => h i hi j hj, fun h i hi j hj => h i j hi hj⟩

theorem countIn_congr {p : σ → Bool} {f g : ι → σ} (h : ∀ i, p (f i) = p (g i)) :
    countIn p f = countIn p g := by
  unfold countIn
  simp only [h]

variable [DecidableEq ι]

/-- One member changes its state. -/
theorem countIn_update (p : σ → Bool) (f : ι → σ) (i : ι) (x : σ) :
    countIn p (Function.update f i x) + (p (f i)).toNat = countIn p f + (p x).toNat := by
  have hrest : ∀ g : ι → σ, countIn p g =
      ((Finset.univ.erase i).filter fun j => p (g j) = true).card + (p (g i)).toNat := by
    intro g
    unfold countIn
    conv_lhs => rw [← Finset.insert_erase (Finset.mem_univ i), Finset.filter_insert]
    cases hp : p (g i)
    · simp
    · rw [if_pos rfl, Finset.card_insert_of_notMem (by simp)]
      rfl
  have hsame : ((Finset.univ.erase i).filter fun j => p (Function.update f i x j) = true) =
      (Finset.univ.erase i).filter fun j => p (f j) = true := by
    apply Finset.filter_congr
    intro j hj
    rw [Function.update_of_ne (Finset.ne_of_mem_erase hj)]
  rw [hrest (Function.update f i x), hrest f, hsame, Function.update_self]
  omega

end Lib
