import Mathlib.Data.List.Nodup
import Mathlib.Data.List.Basic

/-!
# Lists with keys

A list whose elements may have a key, each key once (`Keyed`). `lookup` finds the element of a key;
`put` replaces it where it stands or appends a new one, `drop` takes it out. Both change one key
(`lookup_put`, `lookup_drop`), and leave the elements of the other keys in their order
(`filter_put`, `filter_drop`). Two such lists with the same elements without a key have the same
elements if their lookups agree (`mem_congr`).
-/

namespace Lib

variable {α κ : Type*} [DecidableEq κ] (key : α → Option κ)

/-- Every key once. -/
def Keyed (l : List α) : Prop := (l.filterMap key).Nodup

namespace Keyed

def lookup (l : List α) (k : κ) : Option α := l.find? fun a => key a = some k

def put (l : List α) (k : κ) (a : α) : List α :=
  match l with
  | [] => [a]
  | b :: l => if key b = some k then a :: l else b :: put l k a

def drop (l : List α) (k : κ) : List α :=
  match l with
  | [] => []
  | b :: l => if key b = some k then l else b :: drop l k

variable {key} {l l' : List α} {k j : κ} {a b : α}

theorem cons_iff : Keyed key (a :: l) ↔ (∀ k, key a = some k → lookup key l k = none) ∧
    Keyed key l := by
  unfold Keyed lookup
  cases hkey : key a with
  | none => simp [hkey]
  | some k =>
    rw [List.filterMap_cons_some hkey, List.nodup_cons]
    simp [List.mem_filterMap]

theorem mem_of_lookup (h : lookup key l k = some a) : a ∈ l ∧ key a = some k :=
  ⟨List.mem_of_find?_eq_some h, by simpa using List.find?_some h⟩

theorem lookup_cons : lookup key (a :: l) k = if key a = some k then some a else lookup key l k := by
  unfold lookup
  rw [List.find?_cons]
  by_cases h : key a = some k <;> simp [h]

theorem mem_iff (h : Keyed key l) (ha : key a = some k) : a ∈ l ↔ lookup key l k = some a := by
  induction l with
  | nil => simp [lookup]
  | cons b l ih =>
    obtain ⟨hfirst, hrest⟩ := cons_iff.1 h
    rw [lookup_cons, List.mem_cons, ih hrest]
    by_cases hb : key b = some k
    · rw [if_pos hb, hfirst k hb]
      simp [eq_comm]
    · rw [if_neg hb]
      refine ⟨?_, .inr⟩
      rintro (rfl | h)
      · exact absurd ha hb
      · exact h

theorem lookup_put (ha : key a = some k) :
    lookup key (put key l k a) j = if k = j then some a else lookup key l j := by
  induction l with
  | nil =>
    rw [put, lookup_cons, ha]
    simp [Option.some.injEq]
  | cons b l ih =>
    rw [put]
    split
    · rename_i hb
      rw [lookup_cons, lookup_cons, ha, hb]
      by_cases hkj : k = j
      · simp [hkj]
      · simp [hkj]
    · rename_i hb
      rw [lookup_cons, ih, lookup_cons]
      by_cases hkj : k = j
      · subst hkj
        simp [hb]
      · simp [hkj]

section
variable {β : Type*} {key' : β → Option κ} {f : α → β} (hf : ∀ a, key' (f a) = key a)
include hf

theorem lookup_map (l : List α) (k : κ) :
    lookup key' (l.map f) k = (lookup key l k).map f := by
  induction l with
  | nil => rfl
  | cons a l ih =>
    rw [List.map_cons, lookup_cons, lookup_cons, ih, hf]
    by_cases h : key a = some k <;> simp [h]

theorem put_map (l : List α) (k : κ) (a : α) :
    put key' (l.map f) k (f a) = (put key l k a).map f := by
  induction l with
  | nil => rfl
  | cons b l ih =>
    rw [List.map_cons, put, put, ih, hf]
    by_cases h : key b = some k <;> simp [h]

end

/-- What is filtered out by its key alone is filtered out of the lookup. -/
theorem lookup_filter {p : α → Bool} {q : κ → Bool} (h : ∀ a k, key a = some k → p a = q k)
    (l : List α) (k : κ) :
    lookup key (l.filter p) k = if q k then lookup key l k else none := by
  induction l with
  | nil => simp [lookup]
  | cons a l ih =>
    rw [List.filter_cons, lookup_cons]
    by_cases ha : key a = some k
    · rw [h a k ha]
      by_cases hq : q k <;> simp [hq, ha, lookup_cons, ih]
    · by_cases hp : p a <;> simp [hp, ha, lookup_cons, ih]

theorem lookup_drop (h : Keyed key l) :
    lookup key (drop key l k) j = if k = j then none else lookup key l j := by
  induction l with
  | nil => simp [drop, lookup]
  | cons b l ih =>
    obtain ⟨hfirst, hrest⟩ := cons_iff.1 h
    rw [drop]
    split
    · rename_i hb
      rw [lookup_cons, hb]
      by_cases hkj : k = j
      · subst hkj
        simp [hfirst k hb]
      · simp [hkj]
    · rename_i hb
      rw [lookup_cons, ih hrest, lookup_cons]
      by_cases hkj : k = j
      · subst hkj
        simp [hb]
      · simp [hkj]

theorem put_keyed (h : Keyed key l) (ha : key a = some k) : Keyed key (put key l k a) := by
  induction l with
  | nil => exact cons_iff.2 ⟨fun _ _ => rfl, h⟩
  | cons b l ih =>
    obtain ⟨hfirst, hrest⟩ := cons_iff.1 h
    rw [put]
    split
    · rename_i hb
      refine cons_iff.2 ⟨fun j hj => ?_, hrest⟩
      rw [ha] at hj
      exact hfirst j (hb.trans hj)
    · rename_i hb
      refine cons_iff.2 ⟨fun j hj => ?_, ih hrest⟩
      have hkj : k ≠ j := fun heq => hb (heq ▸ hj)
      rw [lookup_put ha, if_neg hkj]
      exact hfirst j hj

theorem drop_keyed (h : Keyed key l) : Keyed key (drop key l k) := by
  induction l with
  | nil => exact h
  | cons b l ih =>
    obtain ⟨hfirst, hrest⟩ := cons_iff.1 h
    rw [drop]
    split
    · exact hrest
    · rename_i hb
      refine cons_iff.2 ⟨fun j hj => ?_, ih hrest⟩
      have hkj : k ≠ j := fun heq => hb (heq ▸ hj)
      rw [lookup_drop hrest, if_neg hkj]
      exact hfirst j hj

/-- What has another key, or none, keeps its place. -/
theorem filter_put {p : α → Bool} (hp : ∀ b, key b = some k → p b = false) (ha : key a = some k) :
    (put key l k a).filter p = l.filter p := by
  induction l with
  | nil => simp [put, hp a ha]
  | cons b l ih =>
    rw [put]
    split
    · rename_i hb
      simp [hp a ha, hp b hb]
    · rw [List.filter_cons, List.filter_cons, ih]

theorem filter_drop {p : α → Bool} (hp : ∀ b, key b = some k → p b = false) :
    (drop key l k).filter p = l.filter p := by
  induction l with
  | nil => rfl
  | cons b l ih =>
    rw [drop]
    split
    · rename_i hb
      simp [hp b hb]
    · rw [List.filter_cons, List.filter_cons, ih]

/-- The elements of two lists that agree on every key and on what has none. -/
theorem mem_congr (h : Keyed key l) (h' : Keyed key l')
    (hlookup : ∀ k, lookup key l k = lookup key l' k)
    (hother : ∀ a, key a = none → (a ∈ l ↔ a ∈ l')) (a : α) : a ∈ l ↔ a ∈ l' := by
  cases ha : key a with
  | none => exact hother a ha
  | some k => rw [mem_iff h ha, mem_iff h' ha, hlookup]

end Keyed

end Lib
