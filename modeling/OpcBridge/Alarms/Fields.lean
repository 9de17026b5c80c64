import OpcBridge.Alarms.LoadersAgree

/-!
# Fields of accepted documents

A field that `value` could read is the value of a function of the document (`valueOr`), and the
fields of an object that is put together from copied fields are found in its parts.
-/

namespace OpcBridge.Alarms

open OpcBridge Json

variable [Floats]

/-! ## Reading -/

/-- What `value` returns if it does not throw. -/
def valueOr {α : Type} (get : Json → Except String α) (j : Json) (key : String) (default : α) : α :=
  match j.find key with
  | none => default
  | some v =>
    match get v with
    | .ok a => a
    | .error _ => default

theorem value_ok {α : Type} {get : Json → Except String α} {j : Json} {key : String} {default a : α}
    (h : value get j key default = .ok a) : a = valueOr get j key default := by
  have hj : j.isObject = true := by
    cases j <;> first | rfl | cases h
  rw [value_of_isObject get hj] at h
  unfold valueOr
  cases hv : j.find key with
  | none =>
    rw [hv] at h
    exact (Except.ok.inj h).symm
  | some v =>
    rw [hv] at h
    replace h : get v = .ok a := h
    simp only [h]

/-- A field that could be read has a value, if it is there. -/
theorem get_of_value_ok {α : Type} {get : Json → Except String α} {j v : Json} {key : String}
    {default a : α} (h : value get j key default = .ok a) (hv : j.find key = some v) :
    get v = .ok a := by
  have hj : j.isObject = true := by
    cases j <;> first | rfl | cases h
  rw [value_of_isObject get hj, hv] at h
  exact h

theorem valueOr_congr {α : Type} (get : Json → Except String α) {j j' : Json} {key : String}
    (h : j'.find key = j.find key) (default : α) :
    valueOr get j' key default = valueOr get j key default := by
  unfold valueOr
  rw [h]

theorem isObject_of_find {j v : Json} {key : String} (h : j.find key = some v) : j.isObject = true := by
  cases j <;> first | rfl | cases h

theorem find_of_text {j : Json} {key : String} (h : jsonStringOrEmpty j key ≠ "") :
    j.find key = some (.string (jsonStringOrEmpty j key)) := by
  unfold jsonStringOrEmpty at h ⊢
  split
  · rename_i s hs
    exact hs
  · rename_i hnot
    exfalso
    apply h
    split
    · rename_i s hs
      exact absurd hs (hnot s)
    · rfl

/-! ## Objects put together -/

theorem find_object (fields : List (String × Json)) (key : String) :
    (object fields).find key = fields.lookup key := rfl

theorem lookup_copied_self (j : Json) (key k : String) (test : Json → Bool) :
    (copied j key test).lookup k = if k = key then j.member key test else none := by
  unfold copied
  cases j.member key test with
  | none => split <;> rfl
  | some v =>
    rw [Option.toList_some, List.map_singleton, List.lookup_cons]
    by_cases hk : k = key
    · simp [hk]
    · have hne : (k == key) = false := beq_eq_false_iff_ne.2 hk
      rw [hne, if_neg hk]
      rfl

/-- A field copied from `j` if it passes the test. -/
theorem lookup_flatMap_copied (j : Json) (keys : List String) (k : String) (test : Json → Bool) :
    (keys.flatMap (copied j · test)).lookup k = if k ∈ keys then j.member k test else none := by
  induction keys with
  | nil => rfl
  | cons key keys ih =>
    rw [List.flatMap_cons, List.lookup_append, ih, lookup_copied_self]
    by_cases hk : k = key
    · subst hk
      simp only [if_true, List.mem_cons, true_or]
      cases j.member k test with
      | some v => rfl
      | none => split <;> rfl
    · simp only [hk, if_false, Option.none_or, List.mem_cons, false_or]

theorem member_eq_some {j v : Json} {key : String} {test : Json → Bool} :
    j.member key test = some v ↔ j.find key = some v ∧ test v = true :=
  Option.filter_eq_some_iff

end OpcBridge.Alarms
