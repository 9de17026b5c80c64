import OpcBridge.Lib.Assign
import Mathlib.Data.List.Induction

/-!
# Records that are edited

An edit of an ordered map sets a key or erases it. Edits override each other key by key
(`find_edited`), so making a list of them twice is making it once. `revise` is one order for a record
that may be missing: delete it, or edit it, made from a blank where it is missing. A list of orders
made twice leaves what it leaves once (`foldl_revise_twice`).
-/

namespace Lib

variable {κ ν : Type*} [LinearOrder κ]

namespace SortedMap

def erase (m : SortedMap κ ν) (k : κ) : SortedMap κ ν := m.filter fun k' _ => k' ≠ k

theorem find_erase (m : SortedMap κ ν) (k j : κ) :
    (m.erase k).find j = if k = j then none else m.find j := by
  rw [erase, find_filter]
  by_cases h : k = j
  · rw [if_pos h]
    cases m.find j <;> simp [h]
  · rw [if_neg h]
    cases m.find j <;> simp [Ne.symm h]

/-- `some v` sets a key, `none` erases it. -/
def edit (m : SortedMap κ ν) (e : κ × Option ν) : SortedMap κ ν :=
  match e.2 with
  | some v => m.insert e.1 v
  | none => m.erase e.1

def edited (m : SortedMap κ ν) (es : List (κ × Option ν)) : SortedMap κ ν := es.foldl edit m

theorem find_edit (m : SortedMap κ ν) (e : κ × Option ν) (j : κ) :
    (m.edit e).find j = if e.1 = j then e.2 else m.find j := by
  obtain ⟨k, v⟩ := e
  cases v with
  | some v => exact find_insert m k j v
  | none => exact find_erase m k j

/-- The last edit of a key decides. -/
theorem find_edited (m : SortedMap κ ν) (es : List (κ × Option ν)) (j : κ) :
    (m.edited es).find j = (lastValue j es).getD (m.find j) := by
  induction es generalizing m with
  | nil => rfl
  | cons e es ih =>
    rw [edited, List.foldl_cons]
    refine (ih (m.edit e)).trans ?_
    rw [lastValue_cons, find_edit]
    cases lastValue j es with
    | some o => rfl
    | none =>
      rw [Option.none_or, Option.getD_none]
      split <;> rfl

theorem edited_append (m : SortedMap κ ν) (es fs : List (κ × Option ν)) :
    m.edited (es ++ fs) = (m.edited es).edited fs := List.foldl_append

theorem edited_twice (m : SortedMap κ ν) (es : List (κ × Option ν)) :
    (m.edited es).edited es = m.edited es := by
  refine ext_find fun k => ?_
  rw [find_edited, find_edited]
  cases lastValue k es <;> rfl

end SortedMap

/-! ## Orders -/

/-- An order is to delete the record (`none`) or to edit it. -/
def revise (blank : SortedMap κ ν) (record : Option (SortedMap κ ν)) :
    Option (List (κ × Option ν)) → Option (SortedMap κ ν)
  | none => none
  | some es => some ((record.getD blank).edited es)

/-- What a list of orders amounts to: nothing, one result, or one list of edits. -/
theorem foldl_revise (blank : SortedMap κ ν) (orders : List (Option (List (κ × Option ν)))) :
    (∀ record, orders.foldl (revise blank) record = record) ∨
      (∃ result, ∀ record, orders.foldl (revise blank) record = result) ∨
      ∃ es, ∀ record, orders.foldl (revise blank) record = some ((record.getD blank).edited es) := by
  induction orders using List.reverseRecOn with
  | nil => exact .inl fun _ => rfl
  | append_singleton orders order ih =>
    simp only [List.foldl_append, List.foldl_cons, List.foldl_nil]
    cases order with
    | none => exact .inr (.inl ⟨none, fun _ => rfl⟩)
    | some es =>
      rcases ih with h | ⟨result, h⟩ | ⟨fs, h⟩
      · refine .inr (.inr ⟨es, fun record => ?_⟩)
        rw [h]
        rfl
      · refine .inr (.inl ⟨some ((result.getD blank).edited es), fun record => ?_⟩)
        rw [h]
        rfl
      · refine .inr (.inr ⟨fs ++ es, fun record => ?_⟩)
        rw [h, SortedMap.edited_append]
        rfl

/-- **Once is enough.** -/
theorem foldl_revise_twice (blank : SortedMap κ ν) (orders : List (Option (List (κ × Option ν))))
    (record : Option (SortedMap κ ν)) :
    orders.foldl (revise blank) (orders.foldl (revise blank) record) =
      orders.foldl (revise blank) record := by
  rcases foldl_revise blank orders with h | ⟨result, h⟩ | ⟨es, h⟩
  · rw [h]
  · rw [h, h]
  · rw [h, h, Option.getD_some, SortedMap.edited_twice]

end Lib
