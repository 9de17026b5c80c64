import Mathlib.Data.Finset.Card
import Mathlib.Logic.Relation

/-!
# Trails

Following a partial successor function. A chain (`Ends`) comes to an element without a successor; a
trail (`Trail`) carries the elements that were passed and also stops at one of these. Where finitely
many elements have a successor every trail stops (`exists_trail`), and the trail of a chain is the
chain (`Ends.trail`). A chain ends if and only if it comes to no circle (`exists_ends_iff`).
-/

namespace Lib

variable {α : Type*} (next : α → Option α)

/-- `n` steps lead from the element to one without a successor. -/
inductive Ends : α → Nat → α → Prop
  | here {a : α} (h : next a = none) : Ends a 0 a
  | step {a b c : α} {n : Nat} (h : next a = some b) (hb : Ends b n c) : Ends a (n + 1) c

/-- `n` steps lead to an element without a successor, or, with the result `none`, to one that was
passed before. -/
inductive Trail : List α → α → Nat → Option α → Prop
  | ends {seen : List α} {a : α} (h : next a = none) : Trail seen a 0 (some a)
  | again {seen : List α} {a b : α} (h : next a = some b) (ha : a ∈ seen) : Trail seen a 0 none
  | step {seen : List α} {a b : α} {n : Nat} {e : Option α} (h : next a = some b) (ha : a ∉ seen)
      (hb : Trail (a :: seen) b n e) : Trail seen a (n + 1) e

variable {next : α → Option α} {a b c d : α} {n m : Nat} {seen : List α} {e e' : Option α}

theorem Ends.unique (h : Ends next a n c) (h' : Ends next a m d) : n = m ∧ c = d := by
  induction h generalizing m with
  | here hnone =>
    cases h' with
    | here => exact ⟨rfl, rfl⟩
    | step hsome =>
      rw [hnone] at hsome
      cases hsome
  | step hsome hb ih =>
    cases h' with
    | here hnone =>
      rw [hnone] at hsome
      cases hsome
    | step hsome' hb' =>
      obtain rfl : _ = _ := Option.some.inj (hsome.symm.trans hsome')
      obtain ⟨rfl, rfl⟩ := ih hb'
      exact ⟨rfl, rfl⟩

theorem Ends.tail (h : Ends next a n c) (hab : next a = some b) :
    ∃ k, n = k + 1 ∧ Ends next b k c := by
  cases h with
  | here hnone =>
    rw [hnone] at hab
    cases hab
  | step hsome hb =>
    obtain rfl : _ = _ := Option.some.inj (hsome.symm.trans hab)
    exact ⟨_, rfl, hb⟩

theorem Trail.unique (h : Trail next seen a n e) (h' : Trail next seen a m e') :
    n = m ∧ e = e' := by
  induction h generalizing m with
  | ends hnone =>
    cases h' with
    | ends => exact ⟨rfl, rfl⟩
    | again hsome | step hsome =>
      rw [hnone] at hsome
      cases hsome
  | again hsome ha =>
    cases h' with
    | ends hnone =>
      rw [hnone] at hsome
      cases hsome
    | again => exact ⟨rfl, rfl⟩
    | step _ ha' => exact absurd ha ha'
  | step hsome ha hb ih =>
    cases h' with
    | ends hnone =>
      rw [hnone] at hsome
      cases hsome
    | again _ ha' => exact absurd ha' ha
    | step hsome' _ hb' =>
      obtain rfl : _ = _ := Option.some.inj (hsome.symm.trans hsome')
      obtain ⟨rfl, rfl⟩ := ih hb'
      exact ⟨rfl, rfl⟩

/-- What was passed lies further from the end, so a chain does not come to it again. -/
theorem Ends.trail (h : Ends next a n c)
    (hseen : ∀ x ∈ seen, ∃ k d, n < k ∧ Ends next x k d) : Trail next seen a n (some c) := by
  induction h generalizing seen with
  | here hnone => exact .ends hnone
  | @step a b c n hsome hb ih =>
    have ha : Ends next a (n + 1) c := .step hsome hb
    refine .step hsome (fun hmem => ?_) (ih fun x hx => ?_)
    · obtain ⟨k, d, hlt, hk⟩ := hseen a hmem
      have heq := (ha.unique hk).1
      omega
    · rcases List.mem_cons.1 hx with rfl | hx
      · exact ⟨n + 1, c, by omega, ha⟩
      · obtain ⟨k, d, hlt, hk⟩ := hseen x hx
        exact ⟨k, d, by omega, hk⟩

/-- **Termination.** Every step of a trail passes one more of finitely many elements. -/
theorem exists_trail [DecidableEq α] {S : Finset α} (hS : ∀ a, next a ≠ none → a ∈ S)
    (seen : List α) (a : α) :
    ∃ n e, Trail next seen a n e ∧ n ≤ (S \ seen.toFinset).card := by
  induction hk : (S \ seen.toFinset).card generalizing seen a with
  | zero =>
    cases hnext : next a with
    | none => exact ⟨0, some a, .ends hnext, Nat.zero_le _⟩
    | some b =>
      have hmem : a ∈ S := hS a (by rw [hnext]; exact Option.some_ne_none b)
      have hsub := Finset.sdiff_eq_empty_iff_subset.1 (Finset.card_eq_zero.1 hk)
      exact ⟨0, none, .again hnext (List.mem_toFinset.1 (hsub hmem)), Nat.zero_le _⟩
  | succ k ih =>
    cases hnext : next a with
    | none => exact ⟨0, some a, .ends hnext, Nat.zero_le _⟩
    | some b =>
      by_cases ha : a ∈ seen
      · exact ⟨0, none, .again hnext ha, Nat.zero_le _⟩
      · have hmem : a ∈ S := hS a (by rw [hnext]; exact Option.some_ne_none b)
        have hcard : (S \ (a :: seen).toFinset).card = k := by
          rw [List.toFinset_cons, Finset.sdiff_insert, Finset.card_erase_of_mem, hk,
            Nat.add_sub_cancel]
          exact Finset.mem_sdiff.2 ⟨hmem, fun h => ha (List.mem_toFinset.1 h)⟩
        obtain ⟨n, e, htrail, hle⟩ := ih (a :: seen) b hcard
        exact ⟨n + 1, e, .step hnext ha htrail, Nat.succ_le_succ hle⟩

/-! ## Circles -/

/-- The chain comes to an element from which it returns there. -/
def Circles (next : α → Option α) (a : α) : Prop :=
  ∃ x, Relation.ReflTransGen (fun a b => next a = some b) a x ∧
    Relation.TransGen (fun a b => next a = some b) x x

theorem Ends.of_reach (h : Ends next a n c)
    (hreach : Relation.ReflTransGen (fun a b => next a = some b) a b) :
    ∃ k ≤ n, Ends next b k c := by
  induction hreach with
  | refl => exact ⟨n, Nat.le_refl n, h⟩
  | tail _ hnext ih =>
    obtain ⟨k, hk, hends⟩ := ih
    obtain ⟨m, rfl, htail⟩ := hends.tail hnext
    exact ⟨m, by omega, htail⟩

theorem Ends.not_circles (h : Ends next a n c) : ¬ Circles next a := by
  rintro ⟨x, hreach, hcircle⟩
  obtain ⟨k, -, hx⟩ := h.of_reach hreach
  obtain ⟨y, hxy, hyx⟩ := (Relation.TransGen.head'_iff).1 hcircle
  obtain ⟨m, rfl, hy⟩ := hx.tail hxy
  obtain ⟨l, hl, hx'⟩ := hy.of_reach hyx
  have heq := (hx.unique hx').1
  omega

/-- What was passed leads to the element at which the trail stops. -/
theorem Trail.circles (h : Trail next seen a n none)
    (hseen : ∀ x ∈ seen, Relation.TransGen (fun a b => next a = some b) x a) :
    Circles next a := by
  generalize he : (none : Option α) = e at h
  induction h with
  | ends _ => cases he
  | again hsome ha => exact ⟨_, .refl, hseen _ ha⟩
  | step hsome ha hb ih =>
    obtain ⟨x, hreach, hcircle⟩ := ih (fun x hx => by
      rcases List.mem_cons.1 hx with rfl | hx
      · exact .single hsome
      · exact (hseen x hx).tail hsome) he
    exact ⟨x, hreach.head hsome, hcircle⟩

theorem Trail.ends_of_some (h : Trail next seen a n (some c)) : Ends next a n c := by
  generalize he : some c = e at h
  induction h with
  | ends hnone =>
    cases he
    exact .here hnone
  | again _ _ => cases he
  | step hsome _ _ ih => exact .step hsome (ih he)

/-- Without a circle the chain ends within as many steps as elements have a successor. -/
theorem exists_ends [DecidableEq α] {S : Finset α} (hS : ∀ a, next a ≠ none → a ∈ S)
    (h : ¬ Circles next a) : ∃ n c, Ends next a n c ∧ n ≤ S.card := by
  obtain ⟨n, e, htrail, hle⟩ := exists_trail hS [] a
  cases e with
  | none => exact absurd (htrail.circles nofun) h
  | some c => exact ⟨n, c, htrail.ends_of_some, by simpa using hle⟩

theorem exists_ends_iff [DecidableEq α] {S : Finset α} (hS : ∀ a, next a ≠ none → a ∈ S) :
    (∃ n c, Ends next a n c) ↔ ¬ Circles next a :=
  ⟨fun ⟨_, _, h⟩ => h.not_circles, fun h =>
    have ⟨n, c, hends, _⟩ := exists_ends hS h
    ⟨n, c, hends⟩⟩

end Lib
