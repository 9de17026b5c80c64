import Mathlib.Data.List.Nodup
import Mathlib.Logic.Function.Basic
import Mathlib.Order.Lattice

/-!
# Sequences of assignments

A list of pairs read as assignments `m[k] = v`, one after the other: the last assignment of a key
decides its value. `lastValue` is that value; `assignAll` makes the assignments in a partial
function and `SortedMap.ofList` in an ordered map, and both agree with it. A list that assigns each
key once is the map itself (`lastValue_of_nodup`).
-/

namespace Lib

section
variable {κ ν : Type*} [DecidableEq κ]

/-- The value of the last assignment of a key. -/
def lastValue (k : κ) : List (κ × ν) → Option ν
  | [] => none
  | x :: l => (lastValue k l).or (if x.1 = k then some x.2 else none)

@[simp] theorem lastValue_nil (k : κ) : lastValue k ([] : List (κ × ν)) = none := rfl

theorem lastValue_cons (k : κ) (x : κ × ν) (l : List (κ × ν)) :
    lastValue k (x :: l) = (lastValue k l).or (if x.1 = k then some x.2 else none) := rfl

theorem lastValue_append (k : κ) (l l' : List (κ × ν)) :
    lastValue k (l ++ l') = (lastValue k l').or (lastValue k l) := by
  induction l with
  | nil => simp
  | cons x l ih => rw [List.cons_append, lastValue_cons, ih, lastValue_cons, Option.or_assoc]

theorem lastValue_eq_none {k : κ} {l : List (κ × ν)} :
    lastValue k l = none ↔ k ∉ l.map Prod.fst := by
  induction l with
  | nil => simp
  | cons x l ih =>
    rw [lastValue_cons, Option.or_eq_none_iff, ih]
    by_cases h : x.1 = k
    · simp [h]
    · simp [h, Ne.symm h]

/-- The last assignment of a key: none of the later ones is to the same key. -/
theorem lastValue_eq_some {k : κ} {v : ν} {l : List (κ × ν)} :
    lastValue k l = some v ↔
      ∃ before after, l = before ++ (k, v) :: after ∧ k ∉ after.map Prod.fst := by
  induction l with
  | nil => simp
  | cons x l ih =>
    rw [lastValue_cons, Option.or_eq_some_iff]
    constructor
    · rintro (h | ⟨hnone, h⟩)
      · obtain ⟨before, after, rfl, hk⟩ := ih.1 h
        exact ⟨x :: before, after, rfl, hk⟩
      · split at h
        · rename_i hx
          obtain rfl := Option.some.inj h
          subst hx
          exact ⟨[], l, rfl, lastValue_eq_none.1 hnone⟩
        · cases h
    · rintro ⟨before, after, heq, hk⟩
      cases before with
      | nil =>
        obtain ⟨rfl, rfl⟩ := List.cons.inj heq
        exact .inr ⟨lastValue_eq_none.2 hk, if_pos rfl⟩
      | cons y before =>
        obtain ⟨rfl, rfl⟩ := List.cons.inj heq
        exact .inl (ih.2 ⟨before, after, rfl, hk⟩)

theorem mem_of_lastValue {k : κ} {v : ν} {l : List (κ × ν)} (h : lastValue k l = some v) :
    (k, v) ∈ l := by
  obtain ⟨before, after, rfl, -⟩ := lastValue_eq_some.1 h
  simp

theorem lastValue_of_nodup {k : κ} {v : ν} {l : List (κ × ν)} (h : (l.map Prod.fst).Nodup) :
    lastValue k l = some v ↔ (k, v) ∈ l := by
  refine ⟨mem_of_lastValue, fun hmem => ?_⟩
  obtain ⟨before, after, rfl⟩ := List.append_of_mem hmem
  refine lastValue_eq_some.2 ⟨before, after, rfl, ?_⟩
  rw [List.map_append, List.map_cons, List.nodup_append, List.nodup_cons] at h
  exact h.2.1.1

/-- Where each key is assigned once, the order does not matter. -/
theorem lastValue_perm {l l' : List (κ × ν)} (h : l.Perm l') (hnd : (l.map Prod.fst).Nodup) (k : κ) :
    lastValue k l = lastValue k l' := by
  have hnd' : (l'.map Prod.fst).Nodup := (h.map Prod.fst).nodup_iff.1 hnd
  apply Option.ext
  intro v
  rw [lastValue_of_nodup hnd, lastValue_of_nodup hnd', h.mem_iff]

/-- The last value over lists of assignments, one for each element: that of the last element that
assigns the key. -/
theorem lastValue_flatMap {α : Type*} {f : α → List (κ × ν)} {l : List α} {k : κ} {v : ν} :
    lastValue k (l.flatMap f) = some v ↔ ∃ before a after, l = before ++ a :: after ∧
      lastValue k (f a) = some v ∧ ∀ b ∈ after, k ∉ (f b).map Prod.fst := by
  induction l with
  | nil => simp
  | cons a l ih =>
    rw [List.flatMap_cons, lastValue_append, Option.or_eq_some_iff, ih]
    have hnone : lastValue k (l.flatMap f) = none ↔ ∀ b ∈ l, k ∉ (f b).map Prod.fst := by
      rw [lastValue_eq_none, List.map_flatMap]
      simp only [List.mem_flatMap, not_exists, not_and]
    rw [hnone]
    constructor
    · rintro (⟨before, b, after, rfl, hb, hafter⟩ | ⟨hl, ha⟩)
      · exact ⟨a :: before, b, after, rfl, hb, hafter⟩
      · exact ⟨[], a, l, rfl, ha, hl⟩
    · rintro ⟨before, b, after, heq, hb, hafter⟩
      cases before with
      | nil =>
        obtain ⟨rfl, rfl⟩ := List.cons.inj heq
        exact .inr ⟨hafter, hb⟩
      | cons a' before =>
        obtain ⟨rfl, rfl⟩ := List.cons.inj heq
        exact .inl ⟨before, b, after, rfl, hb, hafter⟩

/-- A list whose last values are all its entries assigns each key once, if no entry is there
twice. -/
theorem nodup_of_lastValue {l : List (κ × ν)} (hl : l.Nodup)
    (h : ∀ k v, (k, v) ∈ l → lastValue k l = some v) : (l.map Prod.fst).Nodup := by
  refine (List.nodup_map_iff_inj_on hl).2 fun x hx y hy hxy => ?_
  have hx' := h x.1 x.2 hx
  rw [hxy, h y.1 y.2 hy, Option.some.injEq] at hx'
  exact Prod.ext hxy hx'.symm

/-! ## Partial functions -/

/-- The assignments of a list, made one after the other. -/
def assignAll (m : κ → Option ν) (l : List (κ × ν)) : κ → Option ν :=
  l.foldl (fun m x => Function.update m x.1 (some x.2)) m

theorem assignAll_append (m : κ → Option ν) (l l' : List (κ × ν)) :
    assignAll m (l ++ l') = assignAll (assignAll m l) l' := List.foldl_append

theorem assignAll_apply (m : κ → Option ν) (l : List (κ × ν)) (k : κ) :
    assignAll m l k = (lastValue k l).or (m k) := by
  induction l generalizing m with
  | nil => rfl
  | cons x l ih =>
    show assignAll (Function.update m x.1 (some x.2)) l k = _
    rw [ih, lastValue_cons, Option.or_assoc]
    congr 1
    by_cases h : x.1 = k
    · rw [← h, Function.update_self, if_pos rfl, Option.some_or]
    · rw [Function.update_of_ne (Ne.symm h), if_neg h, Option.none_or]

theorem assignAll_perm {l l' : List (κ × ν)} (h : l.Perm l') (hnd : (l.map Prod.fst).Nodup)
    (m : κ → Option ν) : assignAll m l = assignAll m l' := by
  funext k
  rw [assignAll_apply, assignAll_apply, lastValue_perm h hnd]

end

/-! ## Ordered maps -/

variable {κ ν : Type*} [LinearOrder κ]

/-- A map that is walked in the order of its keys. -/
structure SortedMap (κ ν : Type*) [LinearOrder κ] where
  entries : List (κ × ν) := []
  sorted : entries.Pairwise fun a b => a.1 < b.1 := by exact List.Pairwise.nil

namespace SortedMap

def find (m : SortedMap κ ν) (k : κ) : Option ν := lastValue k m.entries

def contains (m : SortedMap κ ν) (k : κ) : Bool := (m.find k).isSome

theorem keys_nodup (m : SortedMap κ ν) : (m.entries.map Prod.fst).Nodup := by
  rw [List.Nodup, List.pairwise_map]
  exact m.sorted.imp fun h => ne_of_lt h

theorem find_eq_some {m : SortedMap κ ν} {k : κ} {v : ν} :
    m.find k = some v ↔ (k, v) ∈ m.entries := lastValue_of_nodup m.keys_nodup

/-- Insert or assign. -/
def insertEntry (k : κ) (v : ν) : List (κ × ν) → List (κ × ν)
  | [] => [(k, v)]
  | x :: l =>
    if k < x.1 then (k, v) :: x :: l
    else if k = x.1 then (k, v) :: l
    else x :: insertEntry k v l

theorem mem_insertEntry {k : κ} {v : ν} {l : List (κ × ν)} {y : κ × ν}
    (h : y ∈ insertEntry k v l) : y = (k, v) ∨ y ∈ l := by
  induction l with
  | nil => simpa [insertEntry] using h
  | cons x l ih =>
    unfold insertEntry at h
    split_ifs at h
    · simpa using h
    · rcases List.mem_cons.1 h with rfl | h
      · exact .inl rfl
      · exact .inr (List.mem_cons_of_mem _ h)
    · rcases List.mem_cons.1 h with rfl | h
      · exact .inr List.mem_cons_self
      · exact (ih h).imp id (List.mem_cons_of_mem _)

theorem insertEntry_sorted {k : κ} {v : ν} {l : List (κ × ν)}
    (h : l.Pairwise fun a b => a.1 < b.1) :
    (insertEntry k v l).Pairwise fun a b => a.1 < b.1 := by
  induction l with
  | nil => exact List.pairwise_singleton _ _
  | cons x l ih =>
    obtain ⟨hx, hl⟩ := List.pairwise_cons.1 h
    unfold insertEntry
    split_ifs with hlt heq
    · refine List.pairwise_cons.2 ⟨fun y hy => ?_, h⟩
      rcases List.mem_cons.1 hy with rfl | hy
      · exact hlt
      · exact hlt.trans (hx y hy)
    · exact List.pairwise_cons.2 ⟨fun y hy => heq ▸ hx y hy, hl⟩
    · refine List.pairwise_cons.2 ⟨fun y hy => ?_, ih hl⟩
      rcases mem_insertEntry hy with rfl | hy
      · exact lt_of_le_of_ne (not_lt.1 hlt) (Ne.symm heq)
      · exact hx y hy

theorem lastValue_insertEntry {k j : κ} {v : ν} {l : List (κ × ν)}
    (h : l.Pairwise fun a b => a.1 < b.1) :
    lastValue j (insertEntry k v l) = if k = j then some v else lastValue j l := by
  induction l with
  | nil => rfl
  | cons x l ih =>
    obtain ⟨hx, hl⟩ := List.pairwise_cons.1 h
    -- a key in front of all others is not assigned later
    have hfree : ∀ i, (∀ y ∈ l, i < y.1) → lastValue i l = none := by
      intro i hi
      refine lastValue_eq_none.2 fun hmem => ?_
      obtain ⟨y, hy, rfl⟩ := List.mem_map.1 hmem
      exact lt_irrefl _ (hi y hy)
    by_cases hlt : k < x.1
    · rw [insertEntry, if_pos hlt]
      by_cases hkj : k = j
      · subst hkj
        rw [lastValue_cons, lastValue_cons, hfree k fun y hy => hlt.trans (hx y hy),
          if_neg (ne_of_gt hlt), if_pos rfl, if_pos rfl]
        rfl
      · rw [lastValue_cons, if_neg hkj, if_neg hkj, Option.or_none]
    · by_cases heq : k = x.1
      · rw [insertEntry, if_neg hlt, if_pos heq]
        by_cases hkj : k = j
        · subst hkj
          rw [lastValue_cons, hfree k fun y hy => heq ▸ hx y hy, if_pos rfl, if_pos rfl]
          rfl
        · rw [lastValue_cons, lastValue_cons, if_neg hkj, if_neg hkj,
            if_neg fun h => hkj (heq.trans h)]
      · rw [insertEntry, if_neg hlt, if_neg heq, lastValue_cons, ih hl, lastValue_cons]
        split
        · rfl
        · rfl

def insert (m : SortedMap κ ν) (k : κ) (v : ν) : SortedMap κ ν where
  entries := insertEntry k v m.entries
  sorted := insertEntry_sorted m.sorted

theorem find_insert (m : SortedMap κ ν) (k j : κ) (v : ν) :
    (m.insert k v).find j = if k = j then some v else m.find j := lastValue_insertEntry m.sorted

/-- The assignments of a list, made one after the other. -/
def ofList (l : List (κ × ν)) : SortedMap κ ν := l.foldl (fun m x => m.insert x.1 x.2) {}

theorem find_ofList (l : List (κ × ν)) (k : κ) : (ofList l).find k = lastValue k l := by
  have hgen : ∀ m : SortedMap κ ν, (l.foldl (fun m x => m.insert x.1 x.2) m).find k =
      (lastValue k l).or (m.find k) := by
    induction l with
    | nil => exact fun _ => rfl
    | cons x l ih =>
      intro m
      rw [List.foldl_cons, ih, find_insert, lastValue_cons, Option.or_assoc]
      congr 1
      split <;> rfl
  refine (hgen {}).trans ?_
  rw [show (({} : SortedMap κ ν).find k) = none from rfl, Option.or_none]

/-- The values of an ordered map, key by key. -/
theorem mem_ofList {l : List (κ × ν)} {k : κ} {v : ν} :
    (k, v) ∈ (ofList l).entries ↔ lastValue k l = some v := by
  rw [← find_eq_some, find_ofList]

theorem ext_find {m m' : SortedMap κ ν} (h : ∀ k, m.find k = m'.find k) : m = m' := by
  have hmem : ∀ x, x ∈ m.entries ↔ x ∈ m'.entries := by
    rintro ⟨k, v⟩
    rw [← find_eq_some, ← find_eq_some, h]
  have hperm : m.entries.Perm m'.entries := by
    refine (List.perm_ext_iff_of_nodup ?_ ?_).2 hmem
    · exact List.Nodup.of_map _ m.keys_nodup
    · exact List.Nodup.of_map _ m'.keys_nodup
  have heq : m.entries = m'.entries :=
    hperm.eq_of_pairwise (fun a b _ _ hab hba => absurd hba (lt_asymm hab)) m.sorted m'.sorted
  cases m
  cases m'
  cases heq
  rfl

/-- The entries that pass a test. -/
def filter (m : SortedMap κ ν) (p : κ → ν → Bool) : SortedMap κ ν where
  entries := m.entries.filter fun x => p x.1 x.2
  sorted := m.sorted.filter _

theorem find_filter (m : SortedMap κ ν) (p : κ → ν → Bool) (k : κ) :
    (m.filter p).find k = (m.find k).filter (p k) := by
  refine Option.ext fun v => ?_
  rw [find_eq_some, Option.filter_eq_some_iff, find_eq_some]
  exact List.mem_filter

/-- What is left under a key of entries that are translated one by one, key by key. -/
theorem lastValue_filterMap {ω : Type*} (m : SortedMap κ ν) {f : κ × ν → Option (κ × ω)}
    (hf : ∀ x y, f x = some y → y.1 = x.1) (k : κ) :
    lastValue k (m.entries.filterMap f) = (m.find k).bind fun v => (f (k, v)).map Prod.snd := by
  have hmem : ∀ w, (k, w) ∈ m.entries.filterMap f ↔ ∃ v, m.find k = some v ∧ f (k, v) = some (k, w) := by
    intro w
    rw [List.mem_filterMap]
    constructor
    · rintro ⟨⟨j, v⟩, hx, hy⟩
      obtain rfl : k = j := hf _ _ hy
      exact ⟨v, find_eq_some.2 hx, hy⟩
    · rintro ⟨v, hx, hy⟩
      exact ⟨(k, v), find_eq_some.1 hx, hy⟩
  have hnodup : ((m.entries.filterMap f).map Prod.fst).Nodup := by
    have hsub : ((m.entries.filterMap f).map Prod.fst).Sublist (m.entries.map Prod.fst) := by
      induction m.entries with
      | nil => exact List.Sublist.slnil
      | cons x l ih =>
        cases hx : f x with
        | none =>
          rw [List.filterMap_cons_none hx]
          exact ih.cons _
        | some y =>
          rw [List.filterMap_cons_some hx, List.map_cons, List.map_cons, hf x y hx]
          exact ih.cons_cons _
    exact hsub.nodup m.keys_nodup
  refine Option.ext fun w => ?_
  rw [lastValue_of_nodup hnodup, hmem, Option.bind_eq_some_iff]
  refine exists_congr fun v => and_congr_right fun _ => ?_
  rw [Option.map_eq_some_iff]
  constructor
  · exact fun h => ⟨(k, w), h, rfl⟩
  · rintro ⟨⟨j, w'⟩, h, rfl⟩
    obtain rfl : j = k := hf _ _ h
    exact h

/-- `std::map::insert` keeps the value of a key that is there. -/
def insertNew (m : SortedMap κ ν) (k : κ) (v : ν) : SortedMap κ ν :=
  if m.contains k then m else m.insert k v

theorem find_insertNew (m : SortedMap κ ν) (k j : κ) (v : ν) :
    (m.insertNew k v).find j = (m.find j).or (if k = j then some v else none) := by
  unfold insertNew contains
  split
  · rename_i h
    by_cases hkj : k = j
    · subst hkj
      obtain ⟨w, hw⟩ := Option.isSome_iff_exists.1 h
      rw [hw, Option.some_or]
    · rw [if_neg hkj, Option.or_none]
  · rename_i h
    rw [find_insert]
    by_cases hkj : k = j
    · subst hkj
      rw [if_pos rfl, if_pos rfl, Option.not_isSome_iff_eq_none.1 h, Option.none_or]
    · rw [if_neg hkj, if_neg hkj, Option.or_none]

/-- Inserting new entries: a key gets its first value. -/
theorem find_foldl_insertNew (l : List (κ × ν)) (m : SortedMap κ ν) (j : κ)
    (hl : (l.map Prod.fst).Nodup) :
    (l.foldl (fun m x => m.insertNew x.1 x.2) m).find j = (m.find j).or (lastValue j l) := by
  induction l generalizing m with
  | nil => rw [List.foldl_nil, lastValue_nil, Option.or_none]
  | cons x l ih =>
    rw [List.map_cons, List.nodup_cons] at hl
    rw [List.foldl_cons, ih _ hl.2, find_insertNew, lastValue_cons, Option.or_assoc]
    congr 1
    by_cases hx : x.1 = j
    · subst hx
      rw [if_pos rfl, lastValue_eq_none.2 hl.1, Option.none_or, Option.or_none]
    · rw [if_neg hx, Option.none_or, Option.or_none]

/-- Equality of two maps with values compared by `r`. -/
def eqBy (r : ν → ν → Bool) (m m' : SortedMap κ ν) : Bool :=
  m.entries.isEqv m'.entries fun x y => x.1 == y.1 && r x.2 y.2

omit [LinearOrder κ] in
theorem isEqv_mem {r : κ × ν → κ × ν → Bool} {l l' : List (κ × ν)} (h : l.isEqv l' r = true) :
    (∀ x ∈ l, ∃ y ∈ l', r x y = true) ∧ ∀ y ∈ l', ∃ x ∈ l, r x y = true := by
  induction l generalizing l' with
  | nil =>
    cases l' with
    | nil => simp
    | cons y l' => cases h
  | cons x l ih =>
    cases l' with
    | nil => cases h
    | cons y l' =>
      rw [List.isEqv_cons_cons, Bool.and_eq_true] at h
      obtain ⟨h1, h2⟩ := ih h.2
      constructor
      · intro a ha
        rcases List.mem_cons.1 ha with rfl | ha
        · exact ⟨y, List.mem_cons_self, h.1⟩
        · obtain ⟨b, hb, hr⟩ := h1 a ha
          exact ⟨b, List.mem_cons_of_mem _ hb, hr⟩
      · intro b hb
        rcases List.mem_cons.1 hb with rfl | hb
        · exact ⟨x, List.mem_cons_self, h.1⟩
        · obtain ⟨a, ha, hr⟩ := h2 b hb
          exact ⟨a, List.mem_cons_of_mem _ ha, hr⟩

/-- Equal maps have the same keys, and values that compare equal. -/
theorem find_of_eqBy {r : ν → ν → Bool} {m m' : SortedMap κ ν} (h : m.eqBy r m' = true) (k : κ) :
    (∀ v, m.find k = some v → ∃ w, m'.find k = some w ∧ r v w = true) ∧
      (m.find k = none → m'.find k = none) := by
  obtain ⟨h1, h2⟩ := isEqv_mem h
  constructor
  · intro v hv
    obtain ⟨⟨j, w⟩, hm, hr⟩ := h1 _ (find_eq_some.1 hv)
    simp only [Bool.and_eq_true, beq_iff_eq] at hr
    obtain ⟨rfl, hr⟩ := hr
    exact ⟨w, find_eq_some.2 hm, hr⟩
  · intro hn
    refine Option.eq_none_iff_forall_not_mem.2 fun w hw => ?_
    obtain ⟨⟨j, v⟩, hm, hr⟩ := h2 _ (find_eq_some.1 hw)
    simp only [Bool.and_eq_true, beq_iff_eq] at hr
    obtain ⟨rfl, -⟩ := hr
    rw [find_eq_some.2 hm] at hn
    cases hn

theorem eqBy_self {r : ν → ν → Bool} {m : SortedMap κ ν}
    (h : ∀ k v, m.find k = some v → r v v = true) : m.eqBy r m = true := by
  have hall : ∀ x ∈ m.entries, r x.2 x.2 = true := fun x hx => h x.1 x.2 (find_eq_some.2 hx)
  unfold eqBy
  generalize m.entries = l at hall
  induction l with
  | nil => rfl
  | cons x l ih =>
    rw [List.isEqv_cons_cons, Bool.and_eq_true]
    exact ⟨by simp [hall x], ih fun y hy => hall y (List.mem_cons_of_mem _ hy)⟩

end SortedMap

end Lib
