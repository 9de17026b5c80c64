import Mathlib.Data.List.TakeWhile

/-!
# Splitting a list at a separator

`splitFirst sep l` cuts `l` at the first `sep`. What stands before it has no separator, and a list
has one cut of this kind (`splitFirst_eq_some`, `cut_inj`).
-/

namespace Lib

section
variable {α : Type*} [DecidableEq α] {sep : α} {l a b a' b' : List α}

def splitFirst (sep : α) : List α → Option (List α × List α)
  | [] => none
  | x :: l => if x = sep then some ([], l) else (splitFirst sep l).map fun cut => (x :: cut.1, cut.2)

theorem splitFirst_append (h : sep ∉ a) : splitFirst sep (a ++ sep :: b) = some (a, b) := by
  induction a with
  | nil => simp [splitFirst]
  | cons x a ih =>
    simp only [List.mem_cons, not_or] at h
    rw [List.cons_append, splitFirst, if_neg (Ne.symm h.1), ih h.2]
    rfl

theorem splitFirst_eq_none : splitFirst sep l = none ↔ sep ∉ l := by
  induction l with
  | nil => simp [splitFirst]
  | cons x l ih =>
    rw [splitFirst]
    by_cases hx : x = sep
    · simp [hx]
    · simp [hx, ih, Ne.symm hx]

theorem splitFirst_eq_some : splitFirst sep l = some (a, b) ↔ sep ∉ a ∧ l = a ++ sep :: b := by
  constructor
  · intro h
    induction l generalizing a with
    | nil => cases h
    | cons x l ih =>
      rw [splitFirst] at h
      by_cases hx : x = sep
      · simp only [hx, if_true, Option.some.injEq, Prod.mk.injEq] at h
        obtain ⟨rfl, rfl⟩ := h
        simp [hx]
      · rw [if_neg hx] at h
        obtain ⟨cut, hcut, heq⟩ := Option.map_eq_some_iff.1 h
        simp only [Prod.mk.injEq] at heq
        obtain ⟨rfl, rfl⟩ := heq
        obtain ⟨hno, rfl⟩ := ih hcut
        simp [hno, Ne.symm hx]
  · rintro ⟨hno, rfl⟩
    exact splitFirst_append hno

theorem takeWhile_append_sep (h : sep ∉ a) : (a ++ sep :: b).takeWhile (· ≠ sep) = a := by
  rw [List.takeWhile_append_of_pos, List.takeWhile_cons_of_neg (by simp), List.append_nil]
  intro x hx
  simpa using fun heq : x = sep => h (heq ▸ hx)

theorem takeWhile_of_notMem (h : sep ∉ l) : l.takeWhile (· ≠ sep) = l := by
  rw [List.takeWhile_eq_self_iff]
  intro x hx
  simpa using fun heq : x = sep => h (heq ▸ hx)

omit [DecidableEq α] in
/-- Two cuts of one list without a separator before it are the same. -/
theorem cut_inj (h : sep ∉ a) (h' : sep ∉ a') (heq : a ++ sep :: b = a' ++ sep :: b') :
    a = a' ∧ b = b' := by
  classical
  have hcut := splitFirst_append (b := b) h
  rw [heq, splitFirst_append h', Option.some.injEq, Prod.mk.injEq] at hcut
  exact ⟨hcut.1.symm, hcut.2.symm⟩

theorem exists_splitFirst (h : sep ∈ l) : ∃ a b, splitFirst sep l = some (a, b) := by
  cases hs : splitFirst sep l with
  | none => exact absurd h (splitFirst_eq_none.1 hs)
  | some cut => exact ⟨cut.1, cut.2, rfl⟩

end

end Lib
