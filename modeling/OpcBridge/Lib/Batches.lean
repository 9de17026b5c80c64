import Mathlib.Data.List.Basic

/-!
# Batches

A list that is worked off in batches of at most `size` items: `batches size l` are the batches in
order. Together they are the list (`batches_flatten`), and each has between one and `size` items
(`batches_length`).
-/

namespace Lib

variable {α β : Type*}

/-- The next `size` items, and what is left after them. -/
def batches (size : Nat) : List α → List (List α)
  | [] => []
  | x :: xs => (x :: xs.take (size - 1)) :: batches size (xs.drop (size - 1))
termination_by l => l.length

theorem batches_nil (size : Nat) : batches size ([] : List α) = [] := by rw [batches]

theorem batches_cons (size : Nat) (x : α) (xs : List α) : batches size (x :: xs) =
    (x :: xs.take (size - 1)) :: batches size (xs.drop (size - 1)) := by rw [batches]

theorem batches_flatten (size : Nat) (l : List α) : (batches size l).flatten = l := by
  induction l using batches.induct size with
  | case1 => rw [batches_nil, List.flatten_nil]
  | case2 x xs ih =>
    rw [batches_cons, List.flatten_cons, ih, List.cons_append, List.take_append_drop]

theorem batches_length {size : Nat} (hsize : 0 < size) (l : List α) :
    ∀ b ∈ batches size l, 1 ≤ b.length ∧ b.length ≤ size := by
  induction l using batches.induct size with
  | case1 =>
    intro b hb
    rw [batches_nil] at hb
    cases hb
  | case2 x xs ih =>
    intro b hb
    rw [batches_cons] at hb
    rcases List.mem_cons.1 hb with rfl | hb
    · rw [List.length_cons, List.length_take]
      omega
    · exact ih b hb

theorem batches_map (size : Nat) (f : α → β) (l : List α) :
    batches size (l.map f) = (batches size l).map (List.map f) := by
  induction l using batches.induct size with
  | case1 => rw [batches_nil, List.map_nil, batches_nil, List.map_nil]
  | case2 x xs ih =>
    rw [batches_cons, List.map_cons, batches_cons, List.map_cons, List.map_cons, List.map_take,
      ← ih, List.map_drop]

end Lib
