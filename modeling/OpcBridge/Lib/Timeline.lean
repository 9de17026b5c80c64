import Mathlib.Data.List.TakeWhile
import Mathlib.Order.Lattice

/-!
# Lists in the order of a key

A multimap as a list: `insertBy` puts an entry behind all entries with the same key, and what is due
is a prefix. In an ordered list the due entries are those with a small key, so a part of the list
picked out by a predicate is inserted into and drained on its own (`filter_insertBy`,
`filter_takeWhile`, `filter_dropWhile`).
-/

namespace Lib

section
variable {α β κ : Type*} [LinearOrder κ] (key : α → κ)

def AscendingBy (l : List α) : Prop := l.Pairwise fun a b => key a ≤ key b

/-- `emplace` of a multimap. -/
def insertBy (a : α) (l : List α) : List α :=
  (l.takeWhile fun x => decide (key x ≤ key a)) ++ a :: l.dropWhile fun x => decide (key x ≤ key a)

variable {key} {l : List α}

/-- What is due of an ordered list. -/
theorem AscendingBy.takeWhile_eq (h : AscendingBy key l) (t : κ) :
    (l.takeWhile fun x => decide (key x ≤ t)) = l.filter fun x => decide (key x ≤ t) := by
  induction l with
  | nil => rfl
  | cons a l ih =>
    obtain ⟨hfirst, hrest⟩ := List.pairwise_cons.1 h
    by_cases ha : key a ≤ t
    · rw [List.takeWhile_cons_of_pos (by simpa using ha), List.filter_cons_of_pos (by simpa using ha),
        ih hrest]
    · have hnone : (l.filter fun x => decide (key x ≤ t)) = [] := by
        refine List.filter_eq_nil_iff.2 fun x hx => ?_
        simpa using lt_of_lt_of_le (not_le.1 ha) (hfirst x hx)
      rw [List.takeWhile_cons_of_neg (by simpa using ha), List.filter_cons_of_neg (by simpa using ha),
        hnone]

theorem AscendingBy.dropWhile_eq (h : AscendingBy key l) (t : κ) :
    (l.dropWhile fun x => decide (key x ≤ t)) = l.filter fun x => !decide (key x ≤ t) := by
  induction l with
  | nil => rfl
  | cons a l ih =>
    obtain ⟨hfirst, hrest⟩ := List.pairwise_cons.1 h
    by_cases ha : key a ≤ t
    · rw [List.dropWhile_cons_of_pos (by simpa using ha), List.filter_cons_of_neg (by simpa using ha),
        ih hrest]
    · have hall : (l.filter fun x => !decide (key x ≤ t)) = l := by
        refine List.filter_eq_self.2 fun x hx => ?_
        simpa using lt_of_lt_of_le (not_le.1 ha) (hfirst x hx)
      rw [List.dropWhile_cons_of_neg (by simpa using ha), List.filter_cons_of_pos (by simpa using ha),
        hall]

theorem AscendingBy.filter (h : AscendingBy key l) (q : α → Bool) : AscendingBy key (l.filter q) :=
  List.Pairwise.filter q h

theorem AscendingBy.dropWhile (h : AscendingBy key l) (q : α → Bool) :
    AscendingBy key (l.dropWhile q) :=
  List.Pairwise.sublist (List.dropWhile_sublist q) h

theorem AscendingBy.filter_takeWhile (h : AscendingBy key l) (q : α → Bool) (t : κ) :
    (l.takeWhile fun x => decide (key x ≤ t)).filter q =
      (l.filter q).takeWhile fun x => decide (key x ≤ t) := by
  rw [h.takeWhile_eq, (h.filter q).takeWhile_eq, List.filter_filter, List.filter_filter]
  exact List.filter_congr fun x _ => Bool.and_comm _ _

theorem AscendingBy.filter_dropWhile (h : AscendingBy key l) (q : α → Bool) (t : κ) :
    (l.dropWhile fun x => decide (key x ≤ t)).filter q =
      (l.filter q).dropWhile fun x => decide (key x ≤ t) := by
  rw [h.dropWhile_eq, (h.filter q).dropWhile_eq, List.filter_filter, List.filter_filter]
  exact List.filter_congr fun x _ => Bool.and_comm _ _

theorem insertBy_perm (a : α) : (insertBy key a l).Perm (a :: l) := by
  unfold insertBy
  refine List.perm_middle.trans (List.Perm.cons a ?_)
  rw [List.takeWhile_append_dropWhile]

theorem mem_insertBy {a x : α} : x ∈ insertBy key a l ↔ x = a ∨ x ∈ l := by
  rw [(insertBy_perm a).mem_iff, List.mem_cons]

theorem AscendingBy.insertBy (h : AscendingBy key l) (a : α) :
    AscendingBy key (insertBy key a l) := by
  have hbefore : ∀ x ∈ l.takeWhile fun x => decide (key x ≤ key a), key x ≤ key a := fun x hx => by
    simpa using List.all_eq_true.1 List.all_takeWhile x hx
  have hafter : ∀ x ∈ l.dropWhile fun x => decide (key x ≤ key a), key a ≤ key x := fun x hx => by
    rw [h.dropWhile_eq] at hx
    have hlarge := (List.mem_filter.1 hx).2
    simp only [Bool.not_eq_true', decide_eq_false_iff_not, not_le] at hlarge
    exact hlarge.le
  unfold Lib.insertBy AscendingBy
  refine List.pairwise_append.2 ⟨List.Pairwise.sublist (List.takeWhile_sublist _) h, ?_, ?_⟩
  · exact List.pairwise_cons.2 ⟨hafter, h.dropWhile _⟩
  · intro x hx y hy
    rcases List.mem_cons.1 hy with rfl | hlate
    · exact hbefore x hx
    · exact (hbefore x hx).trans (hafter y hlate)

/-- A part of the list takes a new entry as the whole list does. -/
theorem AscendingBy.filter_insertBy (h : AscendingBy key l) (q : α → Bool) (a : α) :
    (Lib.insertBy key a l).filter q =
      if q a then Lib.insertBy key a (l.filter q) else l.filter q := by
  unfold Lib.insertBy
  rw [List.filter_append, h.filter_takeWhile, List.filter_cons, h.filter_dropWhile]
  split
  · rfl
  · exact List.takeWhile_append_dropWhile

end

end Lib
