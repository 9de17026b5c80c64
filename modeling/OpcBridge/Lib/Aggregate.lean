import Mathlib.Algebra.BigOperators.Group.List.Basic
import Mathlib.Algebra.Field.Basic
import Mathlib.Algebra.Order.Ring.Defs
import Mathlib.Data.List.Dedup
import Mathlib.Data.Nat.Cast.Order.Ring
import Mathlib.Order.MinMax

/-!
# Aggregates of groups

`groupBy` cuts a list into groups by a key. What is aggregated group by group and then over the
groups is what is aggregated over the whole list: the length, the sum, the least and the greatest
element, and the mean, which is put together again from the means of the groups and their lengths.
-/

namespace Lib

section
variable {α β : Type*} [DecidableEq β]

/-- The groups of a list, by key. -/
def groupBy (key : α → β) (l : List α) : List (β × List α) :=
  (l.map key).dedup.map fun k => (k, l.filter fun a => key a = k)

/-- The groups of some keys hold the elements with these keys. -/
theorem flatten_filter_perm (key : α → β) (l : List α) {ks : List β} (hks : ks.Nodup) :
    (ks.map fun k => l.filter fun a => key a = k).flatten.Perm (l.filter fun a => key a ∈ ks) := by
  induction ks with
  | nil => simp
  | cons k ks ih =>
    obtain ⟨hk, hks⟩ := List.nodup_cons.1 hks
    rw [List.map_cons, List.flatten_cons]
    refine (List.Perm.append_left _ (ih hks)).trans ?_
    refine List.Perm.trans (List.Perm.of_eq ?_) (List.filter_append_perm (fun a => key a = k) _)
    rw [List.filter_filter, List.filter_filter]
    congr 1
    · refine List.filter_congr fun a _ => ?_
      by_cases h : key a = k <;> simp [h]
    · refine List.filter_congr fun a _ => ?_
      by_cases h : key a = k
      · simp [h, hk]
      · simp [h]

/-- The groups whose key passes a test hold the elements whose key does. -/
theorem groupBy_filter_perm (key : α → β) (p : β → Bool) (l : List α) :
    (((groupBy key l).filter fun g => p g.1).map Prod.snd).flatten.Perm
      (l.filter fun a => p (key a)) := by
  have heq : ((groupBy key l).filter fun g => p g.1).map Prod.snd =
      ((l.map key).dedup.filter p).map fun k => l.filter fun a => key a = k := by
    rw [groupBy, List.filter_map, List.map_map]
    rfl
  rw [heq]
  refine (flatten_filter_perm key l ((List.nodup_dedup _).filter p)).trans (.of_eq ?_)
  refine List.filter_congr fun a ha => ?_
  simp [List.mem_filter, List.mem_dedup, List.mem_map_of_mem ha]

theorem groupBy_ne_nil {key : α → β} {l : List α} {g : β × List α} (h : g ∈ groupBy key l) :
    g.2 ≠ [] ∧ ∀ a ∈ g.2, a ∈ l ∧ key a = g.1 := by
  obtain ⟨k, hk, rfl⟩ := List.mem_map.1 h
  obtain ⟨a, ha, rfl⟩ := List.mem_map.1 (List.mem_dedup.1 hk)
  refine ⟨List.ne_nil_of_mem (List.mem_filter.2 ⟨ha, by simp⟩), fun b hb => ?_⟩
  simpa using List.mem_filter.1 hb

end

/-! ## Least and greatest elements -/

section
variable {K : Type*} [LinearOrder K]

theorem min?_congr {l l' : List K} (h : ∀ a, a ∈ l ↔ a ∈ l') : l.min? = l'.min? := by
  refine Option.ext fun a => ?_
  rw [List.min?_eq_some_iff, List.min?_eq_some_iff, h]
  simp only [h]

theorem max?_congr {l l' : List K} (h : ∀ a, a ∈ l ↔ a ∈ l') : l.max? = l'.max? :=
  min?_congr (K := Kᵒᵈ) h

theorem min?_groups (ls : List (List K)) : (ls.filterMap List.min?).min? = ls.flatten.min? := by
  refine Option.ext fun a => ?_
  rw [List.min?_eq_some_iff, List.min?_eq_some_iff]
  constructor
  · rintro ⟨hmem, hle⟩
    obtain ⟨l, hl, ha⟩ := List.mem_filterMap.1 hmem
    refine ⟨List.mem_flatten.2 ⟨l, hl, (List.min?_eq_some_iff.1 ha).1⟩, fun b hb => ?_⟩
    obtain ⟨l', hl', hb⟩ := List.mem_flatten.1 hb
    cases hmin : l'.min? with
    | none =>
      rw [List.min?_eq_none_iff.1 hmin] at hb
      cases hb
    | some c =>
      have hac := hle c (List.mem_filterMap.2 ⟨l', hl', hmin⟩)
      exact hac.trans ((List.min?_eq_some_iff.1 hmin).2 b hb)
  · rintro ⟨hmem, hle⟩
    obtain ⟨l, hl, ha⟩ := List.mem_flatten.1 hmem
    have hmin : l.min? = some a :=
      List.min?_eq_some_iff.2 ⟨ha, fun b hb => hle b (List.mem_flatten.2 ⟨l, hl, hb⟩)⟩
    refine ⟨List.mem_filterMap.2 ⟨l, hl, hmin⟩, fun b hb => ?_⟩
    obtain ⟨l', hl', hb⟩ := List.mem_filterMap.1 hb
    exact hle b (List.mem_flatten.2 ⟨l', hl', (List.min?_eq_some_iff.1 hb).1⟩)

theorem max?_groups (ls : List (List K)) : (ls.filterMap List.max?).max? = ls.flatten.max? :=
  min?_groups (K := Kᵒᵈ) ls

end

/-! ## Means -/

section
variable {K : Type*} [Field K] [LinearOrder K] [IsStrictOrderedRing K]

/-- The mean, none of the empty list. -/
def mean? (l : List K) : Option K := if l.length = 0 then none else some (l.sum / l.length)

/-- The sum, from the mean. -/
theorem mean_mul_length {l : List K} {a : K} (h : mean? l = some a) : a * l.length = l.sum := by
  unfold mean? at h
  split at h
  · cases h
  · rename_i hlen
    obtain rfl := Option.some.inj h
    exact div_mul_cancel₀ _ (Nat.cast_ne_zero.2 hlen)

/-- The sum of the groups, from their means and lengths. -/
theorem sum_means (ls : List (List K)) :
    (ls.filterMap fun l => (mean? l).map (· * (l.length : K))).sum = ls.flatten.sum := by
  induction ls with
  | nil => rfl
  | cons l ls ih =>
    rw [List.flatten_cons, List.sum_append, ← ih]
    cases hmean : mean? l with
    | none =>
      have hlen : l.length = 0 := by
        unfold mean? at hmean
        split at hmean
        · assumption
        · cases hmean
      rw [List.length_eq_zero_iff.1 hlen, List.filterMap_cons_none (by rfl), List.sum_nil, zero_add]
    | some a =>
      rw [List.filterMap_cons_some (b := a * l.length) (by rw [hmean]; rfl), List.sum_cons,
        mean_mul_length hmean]

end

end Lib
