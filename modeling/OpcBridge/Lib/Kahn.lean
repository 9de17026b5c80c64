import Mathlib.Data.Fintype.Card
import Mathlib.Data.Fintype.EquivFin
import Mathlib.Data.Fintype.Sets
import Mathlib.Data.List.Count
import Mathlib.Data.List.Nodup
import Mathlib.Logic.Relation
import Mathlib.Order.WellFounded

/-!
# Kahn's algorithm

A directed multigraph is a list of edges. `kahn` visits the nodes that no edge enters, takes the
edges out of a visited node away and goes on with the nodes that no edge enters any more.
`kahn_complete`: it visits all nodes if and only if the graph has no cycle (`Acyclic`), whatever the
order of the nodes. `exists_rank`: an acyclic graph has a rank that falls along every edge.
-/

namespace Lib

variable {α : Type*}

def Edge (edges : List (α × α)) (u v : α) : Prop := (u, v) ∈ edges

/-- No path of edges returns to its start. -/
def Acyclic (edges : List (α × α)) : Prop := ∀ v, ¬ Relation.TransGen (Edge edges) v v

variable [DecidableEq α]

/-- The ends of the edges out of `u`, one for each edge. -/
def targets (edges : List (α × α)) (u : α) : List α := (edges.filter fun e => e.1 = u).map Prod.snd

/-- The number of edges into `v` from nodes that were not visited. -/
def entering (edges : List (α × α)) (visited : List α) (v : α) : Nat :=
  edges.countP fun e => e.2 = v ∧ e.1 ∉ visited

/-- One edge into `v` is taken away. -/
def release (s : (α → Nat) × List α) (v : α) : (α → Nat) × List α :=
  (Function.update s.1 v (s.1 v - 1), if s.1 v - 1 = 0 then s.2 ++ [v] else s.2)

/-- The loop, with the ready nodes, the numbers of entering edges and the visited nodes. -/
def kahnLoop (edges : List (α × α)) : Nat → List α → (α → Nat) → List α → List α
  | 0, _, _, visited => visited
  | _ + 1, [], _, visited => visited
  | n + 1, u :: ready, degree, visited =>
    let s := (targets edges u).foldl release (degree, ready)
    kahnLoop edges n s.2 s.1 (visited ++ [u])

/-- The visited nodes. -/
def kahn (ids : List α) (edges : List (α × α)) : List α :=
  kahnLoop edges ids.length (ids.filter fun v => entering edges [] v = 0) (entering edges []) []

/-! ## Taking edges away -/

theorem release_fold (ts : List α) : ∀ (degree : α → Nat) (ready : List α),
    (∀ v, ts.count v ≤ degree v) →
    (∀ v, (ts.foldl release (degree, ready)).1 v = degree v - ts.count v) ∧
    ∃ new, (ts.foldl release (degree, ready)).2 = ready ++ new ∧ new.Nodup ∧
      ∀ v, v ∈ new ↔ v ∈ ts ∧ degree v = ts.count v := by
  induction ts with
  | nil => exact fun _ ready _ => ⟨fun v => by simp, [], by simp, List.nodup_nil, by simp⟩
  | cons t ts ih =>
    intro degree ready hle
    have hnext : ∀ v, ts.count v ≤ Function.update degree t (degree t - 1) v := by
      intro v
      have h := hle v
      by_cases hv : v = t
      · subst hv
        rw [List.count_cons_self] at h
        rw [Function.update_self]
        omega
      · rw [List.count_cons_of_ne (Ne.symm hv)] at h
        rwa [Function.update_of_ne hv]
    have hpos : ts.count t + 1 ≤ degree t := by
      have h := hle t
      rwa [List.count_cons_self] at h
    obtain ⟨h1, new, h2, h3, h4⟩ :=
      ih _ (if degree t - 1 = 0 then ready ++ [t] else ready) hnext
    refine ⟨fun v => ?_, (if degree t - 1 = 0 then [t] else []) ++ new, ?_, ?_, fun v => ?_⟩
    · rw [List.foldl_cons, release, h1]
      by_cases hv : v = t
      · subst hv
        rw [Function.update_self, List.count_cons_self]
        omega
      · rw [Function.update_of_ne hv, List.count_cons_of_ne (Ne.symm hv)]
    · rw [List.foldl_cons, release, h2]
      split <;> simp
    · split
      · rename_i hzero
        refine List.nodup_cons.2 ⟨fun hmem => ?_, h3⟩
        -- the last edge into `t` was the first of the list
        have hts := List.count_pos_iff.2 ((h4 t).1 hmem).1
        omega
      · exact h3
    · rw [List.mem_append, h4]
      by_cases hv : v = t
      · subst hv
        rw [Function.update_self, List.count_cons_self]
        by_cases hzero : degree v - 1 = 0
        · have hcount : ts.count v = 0 := by omega
          simp [hzero]
          omega
        · have hmem : v ∈ ts ↔ 0 < ts.count v := List.count_pos_iff.symm
          simp only [hzero, if_false, List.not_mem_nil, false_or, hmem, List.mem_cons, true_or,
            true_and]
          omega
      · rw [Function.update_of_ne hv, List.count_cons_of_ne (Ne.symm hv), List.mem_cons]
        have hnone : v ∉ (if degree t - 1 = 0 then [t] else []) := by
          split <;> simp [hv]
        simp [hnone, hv]

theorem count_targets (edges : List (α × α)) (u v : α) :
    (targets edges u).count v = edges.countP fun e => e.2 = v ∧ e.1 = u := by
  unfold targets
  rw [List.count_eq_countP, List.countP_map, List.countP_filter]
  refine List.countP_congr fun e _ => ?_
  simp

/-- The edges out of a node that is visited next. -/
theorem entering_visit (edges : List (α × α)) {visited : List α} {u : α} (hu : u ∉ visited) (v : α) :
    entering edges visited v = (targets edges u).count v + entering edges (visited ++ [u]) v := by
  rw [count_targets]
  unfold entering
  induction edges with
  | nil => rfl
  | cons e edges ih =>
    simp only [List.countP_cons, ih]
    by_cases hv : e.2 = v
    · by_cases he : e.1 = u
      · simp [hv, he, hu]
        omega
      · simp [hv, he]
        omega
    · simp [hv]

theorem entering_eq_zero {edges : List (α × α)} {visited : List α} {v : α} :
    entering edges visited v = 0 ↔ ∀ u, Edge edges u v → u ∈ visited := by
  unfold entering Edge
  rw [List.countP_eq_zero]
  constructor
  · intro h u hu
    by_contra hn
    exact h (u, v) hu (by simp [hn])
  · intro h e he hc
    simp only [decide_eq_true_eq] at hc
    obtain ⟨rfl, hn⟩ := hc
    exact hn (h e.1 he)

/-! ## The loop -/

structure KahnInv (ids : List α) (edges : List (α × α)) (ready : List α) (degree : α → Nat)
    (visited : List α) : Prop where
  nodup : (visited ++ ready).Nodup
  sub : ∀ v ∈ visited ++ ready, v ∈ ids
  count : ∀ v, degree v = entering edges visited v
  zero : ∀ v ∈ ids, v ∈ visited ++ ready ↔ degree v = 0
  acc : ∀ v ∈ visited ++ ready, Acc (Edge edges) v

variable {ids : List α} {edges : List (α × α)}

theorem kahnInv_start (hids : ids.Nodup) :
    KahnInv ids edges (ids.filter fun v => entering edges [] v = 0) (entering edges []) [] where
  nodup := hids.filter _
  sub := fun v hv => (List.mem_filter.1 hv).1
  count := fun _ => rfl
  zero := fun v hv => by simp [hv]
  acc := fun v hv => by
    have hzero := (List.mem_filter.1 hv).2
    rw [decide_eq_true_eq, entering_eq_zero] at hzero
    exact ⟨v, fun u hu => absurd (hzero u hu) List.not_mem_nil⟩

theorem kahnInv_step (hedges : ∀ e ∈ edges, e.2 ∈ ids) {u : α} {ready visited : List α}
    {degree : α → Nat} (h : KahnInv ids edges (u :: ready) degree visited) :
    KahnInv ids edges ((targets edges u).foldl release (degree, ready)).2
      ((targets edges u).foldl release (degree, ready)).1 (visited ++ [u]) := by
  have hu : u ∉ visited := by
    intro hmem
    exact (List.nodup_append.1 h.nodup).2.2 u hmem u (List.mem_cons_self ..) rfl
  have hsplit : ∀ v, degree v = (targets edges u).count v + entering edges (visited ++ [u]) v :=
    fun v => (h.count v).trans (entering_visit edges hu v)
  obtain ⟨hdegree, new, hready, hnew, hmem⟩ :=
    release_fold (targets edges u) degree ready fun v => by rw [hsplit v]; omega
  have hdegree' : ∀ v, ((targets edges u).foldl release (degree, ready)).1 v =
      entering edges (visited ++ [u]) v := by
    intro v
    rw [hdegree, hsplit v]
    omega
  have htargets : ∀ v ∈ targets edges u, v ∈ ids := by
    intro v hv
    obtain ⟨e, he, rfl⟩ := List.mem_map.1 hv
    exact hedges e (List.mem_filter.1 he).1
  -- a new node had an edge left, so it was not there before
  have hfresh : ∀ v ∈ new, v ∉ visited ++ u :: ready := by
    intro v hv hold
    obtain ⟨hvt, hcount⟩ := (hmem v).1 hv
    have hzero := (h.zero v (htargets v hvt)).1 hold
    have hpos := List.count_pos_iff.2 hvt
    omega
  have hlist : visited ++ [u] ++ ((targets edges u).foldl release (degree, ready)).2 =
      (visited ++ u :: ready) ++ new := by
    rw [hready]
    simp
  refine ⟨?_, fun v hv => ?_, hdegree', fun v hv => ?_, fun v hv => ?_⟩
  · rw [hlist, List.nodup_append]
    exact ⟨h.nodup, hnew, fun a ha b hb hab => hfresh b hb (hab ▸ ha)⟩
  · rw [hlist] at hv
    obtain hv | hv := List.mem_append.1 hv
    · exact h.sub v hv
    · exact htargets v ((hmem v).1 hv).1
  · rw [hlist, List.mem_append, h.zero v hv, hmem, hdegree]
    have hle := hsplit v
    have hpos : v ∈ targets edges u ↔ 0 < (targets edges u).count v := List.count_pos_iff.symm
    rw [hpos]
    omega
  · rw [hlist] at hv
    obtain hv | hv := List.mem_append.1 hv
    · exact h.acc v hv
    · have hcount := ((hmem v).1 hv).2
      have hzero : entering edges (visited ++ [u]) v = 0 := by
        have hle := hsplit v
        omega
      refine ⟨v, fun w hw => h.acc w ?_⟩
      have hw := entering_eq_zero.1 hzero w hw
      simp only [List.mem_append, List.mem_cons, List.not_mem_nil, or_false] at hw ⊢
      exact hw.imp id .inl

theorem kahnLoop_inv (hedges : ∀ e ∈ edges, e.2 ∈ ids) :
    ∀ (n : Nat) (ready : List α) (degree : α → Nat) (visited : List α),
      KahnInv ids edges ready degree visited → n + visited.length = ids.length →
      ∃ degree', KahnInv ids edges [] degree' (kahnLoop edges n ready degree visited) := by
  intro n
  induction n with
  | zero =>
    intro ready degree visited h hn
    -- all nodes are visited
    have hlen : (visited ++ ready).length ≤ ids.length :=
      (h.nodup.subperm h.sub).length_le
    have hready : ready = [] := by
      rw [List.length_append] at hlen
      exact List.length_eq_zero_iff.1 (by omega)
    subst hready
    exact ⟨degree, h⟩
  | succ n ih =>
    intro ready degree visited h hn
    cases ready with
    | nil => exact ⟨degree, h⟩
    | cons u ready =>
      refine ih _ _ _ (kahnInv_step hedges h) ?_
      rw [List.length_append, List.length_singleton]
      omega

/-! ## What is visited -/

omit [DecidableEq α] in
theorem not_acc_of_cycle {r : α → α → Prop} {v : α} (h : Acc r v) : ¬ r v v := by
  induction h with
  | intro v _ ih => exact fun hv => ih v hv hv

/-- **Kahn's algorithm** visits every node if and only if the graph has no cycle. -/
theorem kahn_complete (hids : ids.Nodup) (hedges : ∀ e ∈ edges, e.1 ∈ ids ∧ e.2 ∈ ids) :
    (kahn ids edges).length = ids.length ↔ Acyclic edges := by
  obtain ⟨degree, h⟩ := @kahnLoop_inv _ _ ids edges (fun e he => (hedges e he).2) ids.length
    _ _ [] (kahnInv_start hids) rfl
  change KahnInv ids edges [] degree (kahn ids edges) at h
  obtain ⟨hnodup, hsub, hdegree, hzero, hacc⟩ := h
  rw [List.append_nil] at hnodup
  simp only [List.append_nil] at hsub hzero hacc
  constructor
  · intro hlen v hv
    have hperm : (kahn ids edges).Perm ids :=
      (hnodup.subperm hsub).perm_of_length_le (Nat.le_of_eq hlen.symm)
    have hmem : v ∈ ids := by
      obtain ⟨w, hw, -⟩ := Relation.TransGen.head'_iff.1 hv
      exact (hedges (v, w) hw).1
    exact not_acc_of_cycle (hacc v (hperm.mem_iff.2 hmem)).transGen hv
  · intro hacyclic
    by_contra hlen
    have hle := (hnodup.subperm hsub).length_le
    have hmissing : ∃ v ∈ ids, v ∉ kahn ids edges := by
      by_contra hall
      push Not at hall
      exact hlen (Nat.le_antisymm hle (hids.subperm hall).length_le)
    -- a first missing node has no edge into it from a missing node
    let before (a b : { x // x ∈ ids }) : Prop := Relation.TransGen (Edge edges) a b
    have htrans : IsTrans { x // x ∈ ids } before := ⟨fun _ _ _ h1 h2 => h1.trans h2⟩
    have hirrefl : Std.Irrefl before := ⟨fun a ha => hacyclic a ha⟩
    have hwf := Finite.wellFounded_of_trans_of_irrefl before
    obtain ⟨v, hv, hnv⟩ := hmissing
    obtain ⟨m, hm, hmin⟩ := hwf.has_min { a | a.1 ∉ kahn ids edges } ⟨⟨v, hv⟩, hnv⟩
    refine hm ((hzero m m.2).2 ?_)
    rw [hdegree, entering_eq_zero]
    intro u hu
    by_contra hnu
    exact hmin ⟨u, (hedges (u, m) hu).1⟩ hnu (.single hu)

/-! ## Ranks -/

omit [DecidableEq α] in
/-- A rank that falls along every edge. -/
theorem exists_rank (h : Acyclic edges) :
    ∃ rank : α → Nat, ∀ u v, Edge edges u v → rank v < rank u := by
  classical
  let reach (u : α) : Finset α :=
    (edges.map Prod.snd).toFinset.filter fun w => Relation.TransGen (Edge edges) u w
  refine ⟨fun u => (reach u).card, fun u v huv => Finset.card_lt_card ?_⟩
  have hv : v ∈ (edges.map Prod.snd).toFinset :=
    List.mem_toFinset.2 (List.mem_map.2 ⟨(u, v), huv, rfl⟩)
  refine Finset.ssubset_iff_of_subset (fun w hw => ?_) |>.2 ⟨v, ?_, ?_⟩
  · obtain ⟨h1, h2⟩ := Finset.mem_filter.1 hw
    exact Finset.mem_filter.2 ⟨h1, .head huv h2⟩
  · exact Finset.mem_filter.2 ⟨hv, .single huv⟩
  · exact fun hmem => h v (Finset.mem_filter.1 hmem).2

end Lib
