import Mathlib.Data.List.Basic

/-!
# Traversals that may fail

`l.mapM f` in `Except` fails with the first element that fails. It succeeds exactly if every element
does (`exists_mapM`), and then collects what `f` makes of them (`mem_mapM`).
-/

namespace Lib

variable {ε α β : Type} {f : α → Except ε β} {l : List α}

theorem bind_ok {x : Except ε α} {b : β} : (x >>= f) = .ok b ↔ ∃ a, x = .ok a ∧ f a = .ok b := by
  cases x with
  | error e => exact iff_of_false (fun h => by cases h) (by simp)
  | ok a => exact ⟨fun h => ⟨a, rfl, h⟩, fun ⟨a', ha, h⟩ => by rwa [Except.ok.inj ha]⟩

/-- What a traversal that does not fail collects. -/
theorem mem_mapM {ys : List β} (h : l.mapM f = .ok ys) (y : β) :
    y ∈ ys ↔ ∃ x ∈ l, f x = .ok y := by
  induction l generalizing ys with
  | nil =>
    obtain rfl := Except.ok.inj h
    simp
  | cons x l ih =>
    rw [List.mapM_cons] at h
    obtain ⟨y', hy', h⟩ := bind_ok.1 h
    obtain ⟨ys', hys, h⟩ := bind_ok.1 h
    obtain rfl := Except.ok.inj h
    rw [List.mem_cons, ih hys]
    simp only [List.mem_cons, exists_eq_or_imp, hy', Except.ok.injEq]
    exact or_congr_left eq_comm

/-- A traversal fails only if one of the elements does. -/
theorem exists_mapM : (∃ ys, l.mapM f = .ok ys) ↔ ∀ x ∈ l, ∃ y, f x = .ok y := by
  induction l with
  | nil => exact iff_of_true ⟨[], rfl⟩ (by simp)
  | cons x l ih =>
    rw [List.forall_mem_cons, ← ih, List.mapM_cons]
    constructor
    · intro ⟨ys, h⟩
      obtain ⟨y, hy, h⟩ := bind_ok.1 h
      obtain ⟨ys', hys, h⟩ := bind_ok.1 h
      exact ⟨⟨y, hy⟩, ys', hys⟩
    · intro ⟨⟨y, hy⟩, ys, hys⟩
      rw [hy, hys]
      exact ⟨y :: ys, rfl⟩

/-- A traversal of a list that was made from another one, where each element succeeds. -/
theorem mapM_map_ok {γ : Type} {g : γ → α} {h : γ → β} {l : List γ}
    (hf : ∀ x ∈ l, f (g x) = .ok (h x)) : (l.map g).mapM f = .ok (l.map h) := by
  induction l with
  | nil => rfl
  | cons x l ih =>
    rw [List.forall_mem_cons] at hf
    rw [List.map_cons, List.mapM_cons, hf.1, ih hf.2]
    rfl

end Lib
