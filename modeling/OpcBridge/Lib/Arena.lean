import Mathlib.Data.List.Basic
import Mathlib.Logic.Function.Basic
import Mathlib.Order.Nat

/-!
# An append-only store with a key index

Slots are only ever appended, so that a position stays valid for whoever holds it; an index maps a
key to the position of its current slot. A slot that the index no longer leads to stays where it is
and must be `Dead`. `Wf` is the invariant of the pair, `Evolves` says which slots a sequence of
operations may have changed.
-/

namespace Lib

structure Arena (κ β : Type*) where
  slots : List β := []
  index : κ → Option Nat := fun _ => none

namespace Arena

variable {κ β : Type*}

/-! ## Operations -/

def get? (a : Arena κ β) (k : κ) : Option β := (a.index k).bind fun i => a.slots[i]?

def modify (a : Arena κ β) (k : κ) (f : β → β) : Arena κ β :=
  match a.index k with
  | none => a
  | some i => { a with slots := a.slots.modify i f }

def insert [DecidableEq κ] (a : Arena κ β) (k : κ) (b : β) : Arena κ β where
  slots := a.slots ++ [b]
  index := Function.update a.index k (some a.slots.length)

def erase [DecidableEq κ] (a : Arena κ β) (k : κ) : Arena κ β :=
  { a with index := Function.update a.index k none }

variable {a a' : Arena κ β} {k k' : κ} {b : β} {f : β → β} {i : Nat}

@[simp] theorem modify_index : (a.modify k f).index = a.index := by
  unfold modify
  split <;> rfl

@[simp] theorem modify_length : (a.modify k f).slots.length = a.slots.length := by
  unfold modify
  split <;> simp

theorem modify_slots_of_ne (h : a.index k ≠ some i) : (a.modify k f).slots[i]? = a.slots[i]? := by
  unfold modify
  split
  · rfl
  · rename_i j hj
    have hne : j ≠ i := fun he => h (he ▸ hj)
    simp [hne]

theorem modify_slots_self (h : a.index k = some i) :
    (a.modify k f).slots[i]? = a.slots[i]?.map f := by
  unfold modify
  rw [h]
  simp

section
variable [DecidableEq κ]

theorem insert_slots_of_some (h : a.slots[i]? = some b) {b' : β} :
    (a.insert k b').slots[i]? = some b := by
  obtain ⟨hi, -⟩ := List.getElem?_eq_some_iff.1 h
  unfold insert
  dsimp only
  rw [List.getElem?_append_left hi]
  exact h

theorem insert_index_self : (a.insert k b).index k = some a.slots.length := Function.update_self ..

theorem insert_index_of_ne (h : k' ≠ k) : (a.insert k b).index k' = a.index k' :=
  Function.update_of_ne h _ _

theorem erase_index_self : (a.erase k).index k = none := Function.update_self ..

theorem erase_index_of_ne (h : k' ≠ k) : (a.erase k).index k' = a.index k' :=
  Function.update_of_ne h _ _

end

/-! ## The invariant -/

/-- Every index entry leads to a slot of its key, and a slot that the index does not lead to is
dead. -/
structure Wf (key : β → κ) (Dead : β → Prop) (a : Arena κ β) : Prop where
  own : ∀ k i, a.index k = some i → ∃ b, a.slots[i]? = some b ∧ key b = k
  dead : ∀ i b, a.slots[i]? = some b → a.index (key b) = some i ∨ Dead b

variable {key : β → κ} {Dead : β → Prop}

namespace Wf

theorem get?_own (h : Wf key Dead a) (hg : a.get? k = some b) : key b = k := by
  obtain ⟨i, hi, hb⟩ := Option.bind_eq_some_iff.1 hg
  obtain ⟨b', hb', hk⟩ := h.own k i hi
  rw [hb, Option.some.injEq] at hb'
  rwa [hb']

theorem get?_eq_none (h : Wf key Dead a) : a.get? k = none ↔ a.index k = none := by
  constructor
  · intro hg
    cases hi : a.index k with
    | none => rfl
    | some i =>
      obtain ⟨b, hb, -⟩ := h.own k i hi
      rw [get?, hi, Option.bind_some, hb] at hg
      cases hg
  · intro hi
    rw [get?, hi]
    rfl

/-- Two keys never lead to one slot. -/
theorem index_inj (h : Wf key Dead a) (h1 : a.index k = some i) (h2 : a.index k' = some i) :
    k = k' := by
  obtain ⟨b, hb, rfl⟩ := h.own k i h1
  obtain ⟨b', hb', rfl⟩ := h.own k' i h2
  rw [hb, Option.some.injEq] at hb'
  rw [hb']

theorem get?_modify [DecidableEq κ] (h : Wf key Dead a) :
    (a.modify k f).get? k' = if k' = k then (a.get? k).map f else a.get? k' := by
  unfold get?
  rw [modify_index]
  split
  · rename_i he
    subst he
    cases hi : a.index k' with
    | none => rfl
    | some i => exact modify_slots_self hi
  · rename_i hne
    cases hi : a.index k' with
    | none => rfl
    | some i => exact modify_slots_of_ne fun he => hne (h.index_inj hi he)

theorem get?_insert [DecidableEq κ] (h : Wf key Dead a) :
    (a.insert k b).get? k' = if k' = k then some b else a.get? k' := by
  unfold get?
  split
  · rename_i he
    subst he
    simp [insert]
  · rename_i hne
    rw [insert_index_of_ne hne]
    cases hi : a.index k' with
    | none => rfl
    | some i =>
      obtain ⟨b', hb', -⟩ := h.own k' i hi
      rw [Option.bind_some, Option.bind_some, hb']
      exact insert_slots_of_some hb'

end Wf

theorem get?_erase [DecidableEq κ] : (a.erase k).get? k' = if k' = k then none else a.get? k' := by
  unfold get?
  split
  · rename_i he
    rw [he, erase_index_self]
    rfl
  · rename_i hne
    rw [erase_index_of_ne hne]
    rfl

namespace Wf

/-- The slot of a key may change as long as it keeps its key. -/
theorem modify (h : Wf key Dead a) (hf : ∀ b, a.get? k = some b → key (f b) = key b) :
    Wf key Dead (a.modify k f) := by
  have hslot : ∀ i b, a.slots[i]? = some b →
      (a.modify k f).slots[i]? = some (if a.index k = some i then f b else b) := by
    intro i b hb
    split
    · rw [modify_slots_self ‹_›, hb]
      rfl
    · rw [modify_slots_of_ne ‹_›, hb]
  have hkey : ∀ i b, a.slots[i]? = some b → key (if a.index k = some i then f b else b) = key b := by
    intro i b hb
    split
    · rename_i hi
      exact hf b (by rw [get?, hi]; exact hb)
    · rfl
  refine ⟨fun k' i hi => ?_, fun i b' hb' => ?_⟩
  · rw [modify_index] at hi
    obtain ⟨b, hb, rfl⟩ := h.own k' i hi
    exact ⟨_, hslot i b hb, hkey i b hb⟩
  · obtain ⟨b, hb⟩ : ∃ b, a.slots[i]? = some b := by
      obtain ⟨hi, -⟩ := List.getElem?_eq_some_iff.1 hb'
      exact ⟨_, List.getElem?_eq_getElem (by simpa using hi)⟩
    have he := hslot i b hb
    rw [hb', Option.some.injEq] at he
    rw [modify_index, he, hkey i b hb]
    split
    · rename_i hi
      obtain ⟨b₀, hb₀, hk⟩ := h.own k i hi
      rw [hb, Option.some.injEq] at hb₀
      left
      rw [hb₀, hk]
      exact hi
    · exact h.dead i b hb

/-- A new slot for a key that has none. -/
theorem insert [DecidableEq κ] (h : Wf key Dead a) (hb : key b = k) (hk : a.get? k = none) :
    Wf key Dead (a.insert k b) := by
  have hidx := h.get?_eq_none.1 hk
  refine ⟨fun k' i hi => ?_, fun i b' hb' => ?_⟩
  · by_cases he : k' = k
    · subst he
      have hi' : a.slots.length = i := by simpa [Arena.insert] using hi
      refine ⟨b, ?_, hb⟩
      rw [← hi']
      simp [Arena.insert]
    · have hi' : a.index k' = some i := by rwa [insert_index_of_ne he] at hi
      obtain ⟨c, hc, hkc⟩ := h.own k' i hi'
      exact ⟨c, insert_slots_of_some hc, hkc⟩
  · rcases Nat.lt_trichotomy i a.slots.length with hlt | heq | hgt
    · have hold : a.slots[i]? = some b' := by
        rw [← hb']
        exact (List.getElem?_append_left hlt).symm
      rcases h.dead i b' hold with hi | hd
      · left
        have hne : key b' ≠ k := by
          intro he
          rw [he, hidx] at hi
          cases hi
        rw [insert_index_of_ne hne]
        exact hi
      · exact .inr hd
    · left
      subst heq
      have hbb : b = b' := by simpa [Arena.insert] using hb'
      rw [← hbb, hb]
      exact insert_index_self
    · have : (a.insert k b).slots[i]? = none := by
        rw [List.getElem?_eq_none_iff]
        simp only [Arena.insert, List.length_append, List.length_cons, List.length_nil]
        omega
      rw [this] at hb'
      cases hb'

/-- A key may be dropped once its slot is dead. -/
theorem erase [DecidableEq κ] (h : Wf key Dead a) (hd : ∀ b, a.get? k = some b → Dead b) :
    Wf key Dead (a.erase k) := by
  refine ⟨fun k' i hi => ?_, fun i b hb => ?_⟩
  · by_cases he : k' = k
    · rw [he, erase_index_self] at hi
      cases hi
    · rw [erase_index_of_ne he] at hi
      exact h.own k' i hi
  · rcases h.dead i b hb with hi | hdb
    · by_cases he : key b = k
      · right
        subst he
        exact hd b (by rw [get?, hi]; exact hb)
      · left
        rw [erase_index_of_ne he]
        exact hi
    · exact .inr hdb

end Wf

/-! ## What a sequence of operations changes -/

/-- From `a` to `a'` only current slots in `K` were changed; no slot went away, and an index entry
is an old one or leads to a new slot. -/
structure Evolves (key : β → κ) (K : β → Prop) (a a' : Arena κ β) : Prop where
  length : a.slots.length ≤ a'.slots.length
  index : ∀ k i, a'.index k = some i → a.index k = some i ∨ a.slots.length ≤ i
  slots : ∀ i b, a.slots[i]? = some b → ¬ (a.index (key b) = some i ∧ K b) →
    a'.slots[i]? = some b

variable {K : β → Prop}

namespace Evolves

theorem refl (a : Arena κ β) : Evolves key K a a :=
  ⟨le_rfl, fun _ _ h => .inl h, fun _ _ h _ => h⟩

theorem trans {a'' : Arena κ β} (h : Evolves key K a a') (h' : Evolves key K a' a'') :
    Evolves key K a a'' := by
  refine ⟨h.length.trans h'.length, fun k i hi => ?_, fun i b hb hn => ?_⟩
  · rcases h'.index k i hi with hi | hi
    · exact h.index k i hi
    · exact .inr (h.length.trans hi)
  · refine h'.slots i b (h.slots i b hb hn) ?_
    rintro ⟨hi, hK⟩
    have hlt := (List.getElem?_eq_some_iff.1 hb).1
    rcases h.index _ _ hi with hi | hi
    · exact hn ⟨hi, hK⟩
    · omega

theorem modify (h : Wf key Dead a) (hK : ∀ b, a.get? k = some b → K b) :
    Evolves key K a (a.modify k f) := by
  refine ⟨by simp, fun k' i hi => .inl (by simpa using hi), fun i b hb hn => ?_⟩
  rw [modify_slots_of_ne, hb]
  intro hi
  have hg : a.get? k = some b := by rw [get?, hi]; exact hb
  refine hn ⟨?_, hK b hg⟩
  rw [h.get?_own hg]
  exact hi

theorem insert [DecidableEq κ] : Evolves key K a (a.insert k b) := by
  refine ⟨by simp [Arena.insert], fun k' i hi => ?_, fun i b' hb _ => insert_slots_of_some hb⟩
  by_cases he : k' = k
  · right
    rw [he, insert_index_self, Option.some.injEq] at hi
    exact hi.le
  · left
    rwa [insert_index_of_ne he] at hi

theorem erase [DecidableEq κ] : Evolves key K a (a.erase k) := by
  refine ⟨le_rfl, fun k' i hi => ?_, fun i b' hb _ => hb⟩
  by_cases he : k' = k
  · rw [he, erase_index_self] at hi
    cases hi
  · left
    rwa [erase_index_of_ne he] at hi

end Evolves

/-! ## Building the index -/

variable [DecidableEq κ]

/-- The index of the first `n` slots, each key leading to its last one. -/
def indexOf (key : β → κ) (bs : List β) (n : Nat) : κ → Option Nat :=
  (List.range n).foldl (fun (index : κ → Option Nat) i =>
    match bs[i]? with
    | some b => Function.update index (key b) (some i)
    | none => index) fun _ => none

def ofList (key : β → κ) (bs : List β) : Arena κ β where
  slots := bs
  index := indexOf key bs bs.length

theorem indexOf_eq_some {bs : List β} (hnd : (bs.map key).Nodup) {n : Nat} (hn : n ≤ bs.length)
    (k : κ) (i : Nat) :
    indexOf key bs n k = some i ↔ i < n ∧ ∃ b, bs[i]? = some b ∧ key b = k := by
  induction n with
  | zero => simp [indexOf]
  | succ n ih =>
    have hlt : n < bs.length := by omega
    have hget : bs[n]? = some bs[n] := List.getElem?_eq_getElem hlt
    have hstep : indexOf key bs (n + 1) =
        Function.update (indexOf key bs n) (key bs[n]) (some n) := by
      unfold indexOf
      rw [List.range_succ, List.foldl_append, List.foldl_cons, List.foldl_nil, hget]
    rw [hstep]
    by_cases he : k = key bs[n]
    · subst he
      rw [Function.update_self, Option.some.injEq]
      constructor
      · rintro rfl
        exact ⟨by omega, _, hget, rfl⟩
      · rintro ⟨hi, b, hb, hk⟩
        -- the keys are distinct, so the slot of this key is slot `n`
        have hil : i < bs.length := by omega
        have hbi : bs[i] = b := by
          rw [List.getElem?_eq_getElem hil, Option.some.injEq] at hb
          exact hb
        have hil' : i < (bs.map key).length := by simpa using hil
        have hlt' : n < (bs.map key).length := by simpa using hlt
        have hsame : (bs.map key)[n] = (bs.map key)[i] := by simp [hbi, hk]
        exact (List.getElem_inj hnd).1 hsame
    · rw [Function.update_of_ne he, ih (by omega)]
      constructor
      · rintro ⟨hi, h⟩
        exact ⟨by omega, h⟩
      · rintro ⟨hi, b, hb, hk⟩
        have hne : i ≠ n := by
          rintro rfl
          rw [hget, Option.some.injEq] at hb
          exact he (hb ▸ hk.symm)
        exact ⟨by omega, b, hb, hk⟩

theorem wf_ofList {bs : List β} (hnd : (bs.map key).Nodup) : Wf key Dead (ofList key bs) := by
  have hidx := indexOf_eq_some hnd (le_refl bs.length)
  refine ⟨fun k i hi => ((hidx k i).1 hi).2, fun i b hb => .inl ?_⟩
  exact (hidx (key b) i).2 ⟨(List.getElem?_eq_some_iff.1 hb).1, b, hb, rfl⟩

theorem get?_ofList {bs : List β} (hnd : (bs.map key).Nodup) :
    (ofList key bs).get? k = some b ↔ b ∈ bs ∧ key b = k := by
  have hwf : Wf key (fun _ => False) (ofList key bs) := wf_ofList hnd
  constructor
  · intro hg
    refine ⟨?_, hwf.get?_own hg⟩
    obtain ⟨i, -, hi⟩ := Option.bind_eq_some_iff.1 hg
    exact List.mem_of_getElem? hi
  · rintro ⟨hm, rfl⟩
    obtain ⟨i, hi⟩ := List.mem_iff_getElem?.1 hm
    rcases hwf.dead i b hi with h | h
    · rw [get?, h]
      exact hi
    · cases h

end Arena

end Lib
