import Mathlib.Order.Interval.Finset.Defs
import Mathlib.Order.Iterate

/-!
# Going from one element of a set to the next

A function that gives the least element of a set above its argument, iterated from any start, visits
the elements of the set above the start, each once and in order. The function need not be right
below the bound `b`.
-/

namespace Lib

variable {α : Type*} [LinearOrder α] {S : Set α} {next : α → α} {b a : α}

/-- The least element of the set above each start from `b` on. -/
def IsNext (S : Set α) (b : α) (next : α → α) : Prop :=
  ∀ a, b ≤ a → IsLeast {x | x ∈ S ∧ a < x} (next a)

theorem IsNext.lt (h : IsNext S b next) (ha : b ≤ a) : a < next a := (h a ha).1.2

theorem IsNext.le_iterate (h : IsNext S b next) (ha : b ≤ a) (n : ℕ) : b ≤ next^[n] a := by
  induction n with
  | zero => exact ha
  | succ n ih =>
    rw [Function.iterate_succ_apply']
    exact ih.trans (h.lt ih).le

/-- In order, and none twice. -/
theorem IsNext.strictMono (h : IsNext S b next) (ha : b ≤ a) : StrictMono fun n => next^[n] a := by
  refine strictMono_nat_of_lt_succ fun n => ?_
  rw [Function.iterate_succ_apply']
  exact h.lt (h.le_iterate ha n)

theorem IsNext.mem_iterate (h : IsNext S b next) (ha : b ≤ a) (n : ℕ) : next^[n + 1] a ∈ S := by
  rw [Function.iterate_succ_apply']
  exact (h _ (h.le_iterate ha n)).1.1

/-- Every element above the start, and nothing else. -/
theorem IsNext.visits [LocallyFiniteOrder α] (h : IsNext S b next) (ha : b ≤ a) {x : α} :
    x ∈ S ∧ a < x ↔ ∃ n : ℕ, next^[n + 1] a = x := by
  constructor
  · intro hx
    induction hcard : (Finset.Ioc a x).card using Nat.strong_induction_on generalizing a with
    | h card ih =>
      rcases ((h a ha).2 hx).eq_or_lt with heq | hlt
      · exact ⟨0, heq⟩
      · have hfewer : (Finset.Ioc (next a) x).card < card := by
          rw [← hcard]
          refine Finset.card_lt_card ((Finset.ssubset_iff_of_subset ?_).2 ⟨next a, ?_, ?_⟩)
          · intro y hy
            rw [Finset.mem_Ioc] at hy ⊢
            exact ⟨(h.lt ha).trans hy.1, hy.2⟩
          · exact Finset.mem_Ioc.2 ⟨h.lt ha, hlt.le⟩
          · simp
        obtain ⟨n, hn⟩ := ih _ hfewer (ha.trans (h.lt ha).le) ⟨hx.1, hlt⟩ rfl
        exact ⟨n + 1, by rw [Function.iterate_succ_apply, hn]⟩
  · intro ⟨n, hn⟩
    rw [← hn]
    exact ⟨h.mem_iterate ha n, (h.strictMono ha) n.succ_pos⟩

end Lib
