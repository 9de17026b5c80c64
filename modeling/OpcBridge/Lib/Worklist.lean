import Mathlib.Data.Multiset.DershowitzManna
import Mathlib.Data.Multiset.UnionInter
import Mathlib.Data.Nat.Find
import Mathlib.Tactic.Push

/-!
# Work lists

A work list holds items; processing an item takes it away and adds items of a lower rank.
`Grows p M M'`: the items of `M'` are items of `M` or satisfy `p`. `Grows.lt` says that the ranks go
down in the multiset order, and `eventually_idle` that a sequence that goes down whenever it is busy
is idle from some moment on.
-/

namespace Lib

variable {α : Type*}

/-- Some items of the first list are left, and the others satisfy `p`. -/
def Grows (p : α → Prop) (M M' : Multiset α) : Prop :=
  ∃ kept new, kept ≤ M ∧ M' = kept + new ∧ ∀ x ∈ new, p x

variable {p : α → Prop} {M M' M'' : Multiset α}

theorem Grows.of_le (h : M' ≤ M) : Grows p M M' :=
  ⟨M', 0, h, (add_zero M').symm, fun _ hx => absurd hx (Multiset.notMem_zero _)⟩

theorem Grows.refl (p : α → Prop) (M : Multiset α) : Grows p M M := .of_le le_rfl

theorem Grows.trans (h : Grows p M M') (h' : Grows p M' M'') : Grows p M M'' := by
  classical
  obtain ⟨kept, new, hkept, rfl, hnew⟩ := h
  obtain ⟨kept', new', hkept', rfl, hnew'⟩ := h'
  -- what is left of the new items and of the old ones
  refine ⟨kept' ∩ kept, (kept' - kept) + new', Multiset.inter_le_right.trans hkept, ?_, ?_⟩
  · rw [← add_assoc, add_comm (kept' ∩ kept), Multiset.sub_add_inter]
  · intro x hx
    obtain hx | hx := Multiset.mem_add.1 hx
    · have hle : kept' - kept ≤ new := by
        rw [tsub_le_iff_left]
        exact hkept'
      exact hnew x (Multiset.mem_of_le hle hx)
    · exact hnew' x hx

theorem Grows.cons {x : α} (hx : p x) (h : M' ≤ M) : Grows p M (x ::ₘ M') := by
  refine ⟨M', {x}, h, ?_, fun y hy => ?_⟩
  · rw [add_comm, Multiset.singleton_add]
  · rwa [Multiset.mem_singleton.1 hy]

theorem Grows.mem (h : Grows p M M') {x : α} (hx : x ∈ M') : x ∈ M ∨ p x := by
  obtain ⟨kept, new, hkept, rfl, hnew⟩ := h
  obtain hx | hx := Multiset.mem_add.1 hx
  · exact .inl (Multiset.mem_of_le hkept hx)
  · exact .inr (hnew x hx)

/-- An item is replaced by items of a lower rank. -/
theorem Grows.lt {rank : α → Nat} {e : α} (hp : ∀ x, p x → rank x < rank e) (h : Grows p M M') :
    Multiset.IsDershowitzMannaLT (M'.map rank) ((e ::ₘ M).map rank) := by
  obtain ⟨kept, new, hkept, rfl, hnew⟩ := h
  obtain ⟨rest, rfl⟩ := Multiset.le_iff_exists_add.1 hkept
  refine ⟨kept.map rank, new.map rank, (e ::ₘ rest).map rank, ?_, ?_, ?_, fun y hy => ?_⟩
  · simp
  · rw [Multiset.map_add]
  · rw [← Multiset.map_add, Multiset.add_cons]
  · obtain ⟨x, hx, rfl⟩ := Multiset.mem_map.1 hy
    exact ⟨rank e, by simp, hp x (hnew x hx)⟩

/-- **Termination.** A sequence whose measure goes down whenever it is busy, and stays when it is
idle, is idle from some moment on. -/
theorem eventually_idle {σ β : Type*} {lt : β → β → Prop} (hwf : WellFounded lt) {measure : σ → β}
    {busy : σ → Prop} {states : Nat → σ}
    (hbusy : ∀ n, busy (states n) → lt (measure (states (n + 1))) (measure (states n)))
    (hidle : ∀ n, ¬ busy (states n) → measure (states (n + 1)) = measure (states n)) :
    ∃ n, ∀ m, n ≤ m → ¬ busy (states m) := by
  have hfrom : ∀ b k, measure (states k) = b → ∃ n, ∀ m, n ≤ m → ¬ busy (states m) := by
    intro b
    induction b using hwf.induction with
    | _ b ih =>
      intro k hk
      by_cases hall : ∀ m, k ≤ m → ¬ busy (states m)
      · exact ⟨k, hall⟩
      · classical
        have hex : ∃ d, busy (states (k + d)) := by
          push Not at hall
          obtain ⟨m, hm, hb⟩ := hall
          exact ⟨m - k, by rwa [Nat.add_sub_cancel' hm]⟩
        -- the first busy moment, with the measure that was there before
        have hsame : ∀ d, d ≤ Nat.find hex → measure (states (k + d)) = b := by
          intro d
          induction d with
          | zero => exact fun _ => hk
          | succ d ihd =>
            intro hd
            rw [← ihd (by omega)]
            exact hidle (k + d) (Nat.find_min hex (by omega))
        refine ih _ ?_ (k + Nat.find hex + 1) rfl
        have hlt := hbusy _ (Nat.find_spec hex)
        rwa [hsame _ le_rfl] at hlt
  exact hfrom _ 0 rfl

end Lib
