import Mathlib.Data.List.Basic

/-!
# Lines of a text

`lines` cuts a text after every line feed. A part of the text without a line feed that is followed
by one is a line of its own (`lines_append`), and no line has a line feed (`not_mem_lines`).
-/

namespace Lib

def lines : List Char → List (List Char)
  | [] => []
  | c :: cs =>
    if c = '\n' then [] :: lines cs
    else match lines cs with
      | [] => [[c]]
      | l :: ls => (c :: l) :: ls

theorem lines_append {a : List Char} (h : '\n' ∉ a) (rest : List Char) :
    lines (a ++ '\n' :: rest) = a :: lines rest := by
  induction a with
  | nil => rfl
  | cons c a ih =>
    rw [List.mem_cons, not_or] at h
    rw [List.cons_append, lines, if_neg (Ne.symm h.1), ih h.2]

theorem lines_of_not_mem {a : List Char} (h : '\n' ∉ a) (hne : a ≠ []) : lines a = [a] := by
  induction a with
  | nil => exact absurd rfl hne
  | cons c a ih =>
    rw [List.mem_cons, not_or] at h
    rw [lines, if_neg (Ne.symm h.1)]
    cases a with
    | nil => rfl
    | cons b a => rw [ih h.2 (List.cons_ne_nil b a)]

theorem not_mem_lines {t l : List Char} (h : l ∈ lines t) : '\n' ∉ l := by
  induction t generalizing l with
  | nil => cases h
  | cons c cs ih =>
    rw [lines] at h
    split at h
    · rcases List.mem_cons.1 h with rfl | hrest
      · exact List.not_mem_nil
      · exact ih hrest
    · rename_i hc
      split at h
      · obtain rfl := List.mem_singleton.1 h
        simpa using Ne.symm hc
      · rename_i first others hlines
        rcases List.mem_cons.1 h with rfl | hrest
        · have hfirst := ih (hlines ▸ List.mem_cons_self)
          simp [hfirst, Ne.symm hc]
        · exact ih (hlines ▸ List.mem_cons_of_mem _ hrest)

end Lib
