import Mathlib.Data.Finset.Card
import Mathlib.Data.List.Basic

/-!
# Loops over a parent graph

Three loops that programs run over nodes with at most one parent each, with what they compute:

* `saturate`: repeat a pass over the edges, adding every node whose parent is in the set, until a
  pass changes nothing. `mem_saturate`: the result is the set of nodes from which a chain of
  parents enters the start set (`Below`); `saturate_done`: the last pass changed nothing.
* `climb`: go to the parent until there is none, an unknown node is met or a node repeats.
  `climb_fuel`: with a finite closed set of nodes the loop ends; `walks_of_climb` and
  `climb_of_walks`: where it ends, as a relation without fuel.
* `follow`: a worklist with a visited set that follows one edge out of each node and queues the
  target if it may be expanded. `queuedAfter_eq_nil`: the worklist runs empty; `mem_follow`: the
  followed edges are those out of live nodes.
-/

namespace Lib

variable {κ : Type*} [DecidableEq κ]

/-! ## Saturation -/

/-- `x` has a chain of parents into `s`. -/
inductive Below (edges : List (κ × Option κ)) (s : Finset κ) : κ → Prop
  | base {x : κ} : x ∈ s → Below edges s x
  | up {x p : κ} : (x, some p) ∈ edges → Below edges s p → Below edges s x

/-- One edge of a pass: add the node if its parent is in, and note whether it was new. -/
def passStep (acc : Finset κ × Bool) (e : κ × Option κ) : Finset κ × Bool :=
  match e.2 with
  | none => acc
  | some p => if p ∈ acc.1 then (insert e.1 acc.1, decide (e.1 ∉ acc.1) || acc.2) else acc

/-- A pass over all edges. -/
def pass (edges : List (κ × Option κ)) (s : Finset κ) : Finset κ × Bool :=
  edges.foldl passStep (s, false)

/-- Passes until one changes nothing. -/
def saturate (edges : List (κ × Option κ)) : Nat → Finset κ → Finset κ
  | 0, s => s
  | n + 1, s => if (pass edges s).2 then saturate edges n (pass edges s).1 else (pass edges s).1

theorem passStep_subset (acc : Finset κ × Bool) (e : κ × Option κ) : acc.1 ⊆ (passStep acc e).1 := by
  obtain ⟨x, p⟩ := e
  unfold passStep
  cases p with
  | none => exact Finset.Subset.refl _
  | some p => dsimp only; split <;> simp [Finset.subset_insert]

theorem passStep_false {acc : Finset κ × Bool} {e : κ × Option κ} (h : (passStep acc e).2 = false) :
    passStep acc e = acc ∧ ∀ p, e.2 = some p → p ∈ acc.1 → e.1 ∈ acc.1 := by
  obtain ⟨x, p⟩ := e
  unfold passStep at h ⊢
  cases p with
  | none => exact ⟨rfl, by simp⟩
  | some p =>
    dsimp only at h ⊢
    by_cases hp : p ∈ acc.1
    · simp only [hp, if_true, Bool.or_eq_false_iff, decide_eq_false_iff_not, not_not] at h ⊢
      refine ⟨?_, fun _ _ _ => h.1⟩
      obtain ⟨s, b⟩ := acc
      simp_all [Finset.insert_eq_of_mem]
    · simp only [hp, if_false, true_and]
      rintro q hq
      cases hq
      exact fun h => absurd h hp

theorem foldl_passStep_subset (edges : List (κ × Option κ)) (acc : Finset κ × Bool) :
    acc.1 ⊆ (edges.foldl passStep acc).1 := by
  induction edges generalizing acc with
  | nil => exact Finset.Subset.refl _
  | cons e edges ih => exact (passStep_subset acc e).trans (ih _)

/-- A pass that reports no change left the set alone and found it closed under the edges. -/
theorem foldl_passStep_false {edges : List (κ × Option κ)} {acc : Finset κ × Bool}
    (h : (edges.foldl passStep acc).2 = false) :
    edges.foldl passStep acc = acc ∧ ∀ x p, (x, some p) ∈ edges → p ∈ acc.1 → x ∈ acc.1 := by
  induction edges generalizing acc with
  | nil => exact ⟨rfl, by simp⟩
  | cons e edges ih =>
    obtain ⟨h1, h2⟩ := ih h
    have hf : (passStep acc e).2 = false := by rw [← h1]; exact h
    obtain ⟨h3, h4⟩ := passStep_false hf
    rw [h3] at h1 h2
    refine ⟨by rw [List.foldl_cons, h3, h1], fun x p hm hp => ?_⟩
    rcases List.mem_cons.1 hm with rfl | hm
    · exact h4 p rfl hp
    · exact h2 x p hm hp

theorem foldl_passStep_true {edges : List (κ × Option κ)} {acc : Finset κ × Bool}
    (h0 : acc.2 = false) (h : (edges.foldl passStep acc).2 = true) :
    ∃ x, x ∈ (edges.foldl passStep acc).1 ∧ x ∉ acc.1 ∧ x ∈ edges.map (·.1) := by
  induction edges generalizing acc with
  | nil => simp_all
  | cons e edges ih =>
    cases hb : (passStep acc e).2 with
    | false =>
      rw [List.foldl_cons, (passStep_false hb).1] at h ⊢
      obtain ⟨x, h1, h2, h3⟩ := ih h0 h
      exact ⟨x, h1, h2, List.mem_cons_of_mem _ h3⟩
    | true =>
      obtain ⟨x, p⟩ := e
      refine ⟨x, ?_, ?_, by simp⟩ <;> unfold passStep at hb <;> cases p with
      | none => simp [h0] at hb
      | some p =>
        dsimp only at hb
        by_cases hp : p ∈ acc.1
        · simp only [hp, if_true, h0, Bool.or_false, decide_eq_true_eq] at hb
          first
          | exact hb
          | exact foldl_passStep_subset edges _ (by simp [passStep, hp])
        · simp [hp, h0] at hb

theorem foldl_passStep_below {edges edges' : List (κ × Option κ)} {s : Finset κ}
    {acc : Finset κ × Bool} (hsub : edges' ⊆ edges) (h : ∀ x ∈ acc.1, Below edges s x) :
    ∀ x ∈ (edges'.foldl passStep acc).1, Below edges s x := by
  induction edges' generalizing acc with
  | nil => exact h
  | cons e edges' ih =>
    refine ih (fun a ha => hsub (List.mem_cons_of_mem _ ha)) ?_
    obtain ⟨y, p⟩ := e
    intro x hx
    unfold passStep at hx
    cases p with
    | none => exact h x hx
    | some p =>
      dsimp only at hx
      split at hx
      · rename_i hp
        rcases Finset.mem_insert.1 hx with rfl | hx
        · exact .up (hsub (by simp)) (h p hp)
        · exact h x hx
      · exact h x hx

/-- With more fuel than names outside the set, saturation ends with a pass that changes nothing. -/
theorem saturate_closed {edges : List (κ × Option κ)} {n : Nat} {s : Finset κ}
    (hn : ((edges.map (·.1)).toFinset \ s).card < n) :
    pass edges (saturate edges n s) = (saturate edges n s, false) := by
  induction n generalizing s with
  | zero => omega
  | succ n ih =>
    unfold saturate
    cases hc : (pass edges s).2 with
    | false =>
      have h := (foldl_passStep_false hc).1
      have hp : pass edges s = (s, false) := h
      simp [hp]
    | true =>
      simp only [if_true]
      apply ih
      obtain ⟨x, hx1, hx2, hx3⟩ := foldl_passStep_true (rfl : (s, false).2 = false) hc
      have hsub : s ⊆ (pass edges s).1 := foldl_passStep_subset edges (s, false)
      refine Nat.lt_of_lt_of_le (Finset.card_lt_card ?_) (Nat.lt_succ_iff.1 hn)
      refine ⟨Finset.sdiff_subset_sdiff (Finset.Subset.refl _) hsub, fun hle => ?_⟩
      have hmem := hle (Finset.mem_sdiff.2 ⟨List.mem_toFinset.2 hx3, hx2⟩)
      exact (Finset.mem_sdiff.1 hmem).2 hx1

/-- The loop over `edges` stops within `edges.length + 1` passes. -/
theorem saturate_done (edges : List (κ × Option κ)) (s : Finset κ) :
    pass edges (saturate edges (edges.length + 1) s) =
      (saturate edges (edges.length + 1) s, false) := by
  apply saturate_closed
  calc ((edges.map (·.1)).toFinset \ s).card
      ≤ (edges.map (·.1)).toFinset.card := Finset.card_le_card Finset.sdiff_subset
    _ ≤ (edges.map (·.1)).length := List.toFinset_card_le _
    _ < edges.length + 1 := by simp

theorem saturate_subset (edges : List (κ × Option κ)) (n : Nat) (s : Finset κ) :
    s ⊆ saturate edges n s := by
  induction n generalizing s with
  | zero => exact Finset.Subset.refl _
  | succ n ih =>
    have hsub : s ⊆ (pass edges s).1 := foldl_passStep_subset edges (s, false)
    unfold saturate
    split
    · exact hsub.trans (ih _)
    · exact hsub

theorem saturate_below {edges : List (κ × Option κ)} {s : Finset κ} {n : Nat} {t : Finset κ}
    (h : ∀ x ∈ t, Below edges s x) : ∀ x ∈ saturate edges n t, Below edges s x := by
  induction n generalizing t with
  | zero => exact h
  | succ n ih =>
    have hp : ∀ x ∈ (pass edges t).1, Below edges s x :=
      foldl_passStep_below (List.Subset.refl edges) h
    unfold saturate
    split
    · exact ih hp
    · exact hp

/-- **What saturation computes.** -/
theorem mem_saturate {edges : List (κ × Option κ)} {s : Finset κ} {x : κ} :
    x ∈ saturate edges (edges.length + 1) s ↔ Below edges s x := by
  refine ⟨saturate_below (fun y hy => .base hy) x, fun h => ?_⟩
  have hdone := saturate_done edges s
  induction h with
  | base hx => exact saturate_subset _ _ _ hx
  | up he _ ih =>
    exact (foldl_passStep_false (congrArg Prod.snd hdone)).2 _ _ he ih

omit [DecidableEq κ] in
/-- Where a node has one parent, it is below one parentless node only. -/
theorem Below.root_unique {edges : List (κ × Option κ)}
    (hf : ∀ x p q, (x, some p) ∈ edges → (x, some q) ∈ edges → p = q) {r r' x : κ}
    (hr : ∀ p, (r, some p) ∉ edges) (hr' : ∀ p, (r', some p) ∉ edges)
    (h : Below edges {r} x) (h' : Below edges {r'} x) : r = r' := by
  induction h with
  | base hx =>
    obtain rfl := Finset.mem_singleton.1 hx
    cases h' with
    | base hx' => exact Finset.mem_singleton.1 hx'
    | up he _ => exact absurd he (hr _)
  | up he _ ih =>
    cases h' with
    | base hx' =>
      obtain rfl := Finset.mem_singleton.1 hx'
      exact absurd he (hr' _)
    | up he' hp' =>
      rw [hf _ _ _ he' he] at hp'
      exact ih hp'

/-! ## Climbing -/

/-- What a node says about the next one. -/
inductive Next (κ : Type*)
  | stop
  | abort
  | goto (k : κ)

/-- How a climb ends. -/
inductive Climb (κ : Type*)
  | root (k : κ)
  | aborted
  | outOfFuel
deriving DecidableEq

/-- Follow `goto` until `stop`, `abort` or a node that was seen. -/
def climb (next : κ → Next κ) : Nat → Finset κ → κ → Climb κ
  | 0, _, _ => .outOfFuel
  | n + 1, seen, k =>
    if k ∈ seen then .root k
    else match next k with
      | .stop => .root k
      | .abort => .aborted
      | .goto p => climb next n (insert k seen) p

/-- A climb as a relation: it ends at the first node that is known or says `stop`. -/
inductive Walks (next : κ → Next κ) : Finset κ → κ → κ → Prop
  | known {seen : Finset κ} {k : κ} : k ∈ seen → Walks next seen k k
  | stop {seen : Finset κ} {k : κ} : k ∉ seen → next k = .stop → Walks next seen k k
  | goto {seen : Finset κ} {k p root : κ} : k ∉ seen → next k = .goto p →
      Walks next (insert k seen) p root → Walks next seen k root

theorem walks_of_climb {next : κ → Next κ} {n : Nat} {seen : Finset κ} {k root : κ}
    (h : climb next n seen k = .root root) : Walks next seen k root := by
  induction n generalizing seen k with
  | zero => cases h
  | succ n ih =>
    unfold climb at h
    split at h
    · rename_i hk
      cases h
      exact .known hk
    · rename_i hk
      cases hx : next k with
      | stop =>
        rw [hx] at h
        cases h
        exact .stop hk hx
      | abort => rw [hx] at h; cases h
      | goto p =>
        rw [hx] at h
        exact .goto hk hx (ih h)

theorem climb_of_walks {next : κ → Next κ} {seen : Finset κ} {k root : κ}
    (h : Walks next seen k root) (n : Nat) :
    climb next n seen k = .root root ∨ climb next n seen k = .outOfFuel := by
  induction h generalizing n with
  | known hk => cases n <;> simp [climb, hk]
  | stop hk hx => cases n <;> simp [climb, hk, hx]
  | goto hk hx _ ih =>
    cases n with
    | zero => exact .inr rfl
    | succ n => simpa [climb, hk, hx] using ih n

/-- In a finite set of nodes closed under `goto` a climb ends. -/
theorem climb_fuel {next : κ → Next κ} {U : Finset κ} (hU : ∀ k ∈ U, ∀ p, next k = .goto p → p ∈ U)
    {n : Nat} {seen : Finset κ} {k : κ} (hk : k ∈ U) (hn : (U \ seen).card < n) :
    climb next n seen k ≠ .outOfFuel := by
  induction n generalizing seen k with
  | zero => omega
  | succ n ih =>
    unfold climb
    split
    · simp
    · rename_i hs
      cases hx : next k with
      | stop => simp
      | abort => simp
      | goto p =>
        apply ih (hU k hk p hx)
        refine Nat.lt_of_lt_of_le (Finset.card_lt_card ?_) (Nat.lt_succ_iff.1 hn)
        refine ⟨Finset.sdiff_subset_sdiff (Finset.Subset.refl _) (Finset.subset_insert _ _),
          fun hle => ?_⟩
        have hmem := hle (Finset.mem_sdiff.2 ⟨hk, hs⟩)
        exact (Finset.mem_sdiff.1 hmem).2 (Finset.mem_insert_self _ _)

/-! ## The worklist -/

section
variable (next : κ → Option κ) (expand : κ → Bool)

/-- The edges a worklist follows, in order: take the last queued node; if it was not visited and
has an edge, follow it and queue the target if it may be expanded. -/
def follow : Nat → List κ → Finset κ → List (κ × κ)
  | 0, _, _ => []
  | _ + 1, [], _ => []
  | n + 1, i :: pending, visited =>
    if i ∈ visited then follow n pending visited
    else match next i with
      | none => follow n pending (insert i visited)
      | some j =>
        (i, j) :: follow n (if expand j then j :: pending else pending) (insert i visited)

/-- What is queued after a number of iterations. -/
def queuedAfter : Nat → List κ → Finset κ → List κ
  | 0, pending, _ => pending
  | _ + 1, [], _ => []
  | n + 1, i :: pending, visited =>
    if i ∈ visited then queuedAfter n pending visited
    else match next i with
      | none => queuedAfter n pending (insert i visited)
      | some j => queuedAfter n (if expand j then j :: pending else pending) (insert i visited)

/-- The worklist runs empty: each iteration takes a queued node, and a node is expanded once. -/
theorem queuedAfter_eq_nil {U : Finset κ} (hU : ∀ i ∈ U, ∀ j, next i = some j → j ∈ U) {n : Nat}
    {pending : List κ} {visited : Finset κ} (hp : ∀ i ∈ pending, i ∈ U)
    (hn : pending.length + (U \ visited).card < n) :
    queuedAfter next expand n pending visited = [] := by
  induction n generalizing pending visited with
  | zero => omega
  | succ n ih =>
    cases pending with
    | nil => rfl
    | cons i pending =>
      have hi : i ∈ U := hp i (by simp)
      have hrest : ∀ k ∈ pending, k ∈ U := fun k hk => hp k (by simp [hk])
      rw [List.length_cons] at hn
      unfold queuedAfter
      by_cases hv : i ∈ visited
      · rw [if_pos hv]
        exact ih hrest (by omega)
      · have hcard : (U \ insert i visited).card < (U \ visited).card := by
          refine Finset.card_lt_card ⟨Finset.sdiff_subset_sdiff (Finset.Subset.refl _)
            (Finset.subset_insert _ _), fun hle => ?_⟩
          have hmem := hle (Finset.mem_sdiff.2 ⟨hi, hv⟩)
          exact (Finset.mem_sdiff.1 hmem).2 (Finset.mem_insert_self _ _)
        rw [if_neg hv]
        cases hx : next i with
        | none => exact ih hrest (by omega)
        | some j =>
          dsimp only
          split
          · refine ih (fun k hk => ?_) (by rw [List.length_cons]; omega)
            rcases List.mem_cons.1 hk with rfl | hk
            · exact hU i hi _ hx
            · exact hrest k hk
          · exact ih hrest (by omega)

/-- Nodes that get expanded: the queued ones and the expandable targets of live nodes. -/
inductive Live (init : List κ) : κ → Prop
  | queued {i : κ} : i ∈ init → Live init i
  | step {i j : κ} : Live init i → next i = some j → expand j = true → Live init j

theorem follow_sound {n : Nat} {init pending : List κ} {visited : Finset κ}
    (h : ∀ i ∈ pending, Live next expand init i) :
    ∀ e ∈ follow next expand n pending visited,
      Live next expand init e.1 ∧ next e.1 = some e.2 := by
  induction n generalizing pending visited with
  | zero => simp [follow]
  | succ n ih =>
    cases pending with
    | nil => simp [follow]
    | cons i pending =>
      have hi := h i (by simp)
      have hrest : ∀ k ∈ pending, Live next expand init k := fun k hk => h k (by simp [hk])
      unfold follow
      split
      · exact ih hrest
      · cases hx : next i with
        | none => exact ih hrest
        | some j =>
          intro e he
          rcases List.mem_cons.1 he with rfl | he
          · exact ⟨hi, hx⟩
          · refine ih ?_ e he
            split
            · rename_i hj
              intro k hk
              rcases List.mem_cons.1 hk with rfl | hk
              · exact .step hi hx hj
              · exact hrest k hk
            · exact hrest

/-- With fuel for every queued node and every node of a finite closed set, the edge out of each
live node that was not visited before is followed. The invariant of the induction: a visited
node's expandable target is queued or visited. -/
theorem follow_complete {U : Finset κ} (hU : ∀ i ∈ U, ∀ j, next i = some j → j ∈ U)
    (done : κ → κ → Prop) {n : Nat} {pending : List κ} {visited : Finset κ}
    (hp : ∀ i ∈ pending, i ∈ U) (hv : visited ⊆ U)
    (hn : pending.length + (U \ visited).card < n)
    (hinv : ∀ i ∈ visited, ∀ j, next i = some j →
      done i j ∧ (expand j = true → j ∈ visited ∨ j ∈ pending)) :
    ∀ i j, Live next expand (pending ++ visited.toList) i → next i = some j →
      done i j ∨ (i, j) ∈ follow next expand n pending visited := by
  induction n generalizing pending visited done with
  | zero => omega
  | succ n ih =>
    cases pending with
    | nil =>
      -- nothing queued: the visited nodes are closed under live steps
      have hall : ∀ i, Live next expand ([] ++ visited.toList) i → i ∈ visited := by
        intro i hi
        induction hi with
        | queued h => simpa using h
        | step _ hx hj ih => simpa using (hinv _ ih _ hx).2 hj
      intro i j hi hx
      exact .inl (hinv i (hall i hi) j hx).1
    | cons k pending =>
      have hkU : k ∈ U := hp k (by simp)
      have hp' : ∀ i ∈ pending, i ∈ U := fun i hi => hp i (by simp [hi])
      simp only [List.length_cons] at hn
      by_cases hk : k ∈ visited
      · have hinv' : ∀ i ∈ visited, ∀ j, next i = some j →
            done i j ∧ (expand j = true → j ∈ visited ∨ j ∈ pending) := by
          intro i hi j hx
          obtain ⟨h1, h2⟩ := hinv i hi j hx
          refine ⟨h1, fun hj => ?_⟩
          rcases h2 hj with h | h
          · exact .inl h
          · rcases List.mem_cons.1 h with rfl | h
            · exact .inl hk
            · exact .inr h
        have hlive : ∀ i, Live next expand (k :: pending ++ visited.toList) i →
            Live next expand (pending ++ visited.toList) i := by
          intro i hi
          induction hi with
          | queued h =>
            refine .queued ?_
            simp only [List.cons_append, List.mem_cons, List.mem_append, Finset.mem_toList] at h ⊢
            rcases h with rfl | h
            · exact .inr hk
            · exact h
          | step _ hx hj ih => exact .step ih hx hj
        intro i j hi hx
        have hf : follow next expand (n + 1) (k :: pending) visited =
            follow next expand n pending visited := by simp [follow, hk]
        rw [hf]
        exact ih done hp' hv (by omega) hinv' i j (hlive i hi) hx
      · have hv' : insert k visited ⊆ U := Finset.insert_subset hkU hv
        have hcard : (U \ insert k visited).card < (U \ visited).card := by
          refine Finset.card_lt_card ⟨Finset.sdiff_subset_sdiff (Finset.Subset.refl _)
            (Finset.subset_insert _ _), fun hle => ?_⟩
          have hmem := hle (Finset.mem_sdiff.2 ⟨hkU, hk⟩)
          exact (Finset.mem_sdiff.1 hmem).2 (Finset.mem_insert_self _ _)
        have hlive : ∀ l, (∀ i ∈ pending, i ∈ l) → ∀ i,
            Live next expand (k :: pending ++ visited.toList) i →
            Live next expand (l ++ (insert k visited).toList) i := by
          intro l hl i hi
          induction hi with
          | queued h =>
            refine .queued ?_
            simp only [List.cons_append, List.mem_cons, List.mem_append, Finset.mem_toList,
              Finset.mem_insert] at h ⊢
            rcases h with h | h | h
            · exact .inr (.inl h)
            · exact .inl (hl _ h)
            · exact .inr (.inr h)
          | step _ hx hj ih => exact .step ih hx hj
        cases hx : next k with
        | none =>
          have hf : follow next expand (n + 1) (k :: pending) visited =
              follow next expand n pending (insert k visited) := by simp [follow, hk, hx]
          intro i j hi hxi
          rw [hf]
          refine ih done hp' hv' (by omega) ?_ i j (hlive pending (fun _ h => h) i hi) hxi
          intro a ha b hab
          rcases Finset.mem_insert.1 ha with rfl | ha
          · rw [hx] at hab; cases hab
          · obtain ⟨h1, h2⟩ := hinv a ha b hab
            refine ⟨h1, fun hb => ?_⟩
            rcases h2 hb with h | h
            · exact .inl (Finset.mem_insert_of_mem h)
            · rcases List.mem_cons.1 h with rfl | h
              · exact .inl (Finset.mem_insert_self _ _)
              · exact .inr h
        | some m =>
          have hmU : m ∈ U := hU k hkU m hx
          have hf : follow next expand (n + 1) (k :: pending) visited =
              (k, m) :: follow next expand n (if expand m then m :: pending else pending)
                (insert k visited) := by simp [follow, hk, hx]
          intro i j hi hxi
          rw [hf]
          have hp'' : ∀ i ∈ (if expand m then m :: pending else pending), i ∈ U := by
            intro i hi
            split at hi
            · rcases List.mem_cons.1 hi with rfl | hi
              · exact hmU
              · exact hp' i hi
            · exact hp' i hi
          have hlen : (if expand m then m :: pending else pending).length ≤ pending.length + 1 := by
            split
            · rw [List.length_cons]
            · omega
          have hinv' : ∀ a ∈ insert k visited, ∀ b, next a = some b →
              (done a b ∨ (a, b) = (k, m)) ∧ (expand b = true → b ∈ insert k visited ∨
                b ∈ (if expand m then m :: pending else pending)) := by
            intro a ha b hab
            rcases Finset.mem_insert.1 ha with rfl | ha
            · rw [hx] at hab
              cases hab
              exact ⟨.inr rfl, fun hb => .inr (by simp [hb])⟩
            · obtain ⟨h1, h2⟩ := hinv a ha b hab
              refine ⟨.inl h1, fun hb => ?_⟩
              rcases h2 hb with h | h
              · exact .inl (Finset.mem_insert_of_mem h)
              · rcases List.mem_cons.1 h with rfl | h
                · exact .inl (Finset.mem_insert_self _ _)
                · refine .inr ?_
                  split
                  · exact List.mem_cons_of_mem _ h
                  · exact h
          have hsub : ∀ i ∈ pending, i ∈ (if expand m then m :: pending else pending) := by
            intro i hi
            split
            · exact List.mem_cons_of_mem _ hi
            · exact hi
          have key := ih (fun a b => done a b ∨ (a, b) = (k, m)) hp'' hv' (by omega) hinv' i j
            (hlive _ hsub i hi) hxi
          rcases key with (h | h) | h
          · exact .inl h
          · exact .inr (by simp [h])
          · exact .inr (List.mem_cons_of_mem _ h)

/-- **What the worklist follows**: exactly the edges out of live nodes. -/
theorem mem_follow {U : Finset κ} (hU : ∀ i ∈ U, ∀ j, next i = some j → j ∈ U) {init : List κ}
    (hp : ∀ i ∈ init, i ∈ U) {n : Nat} (hn : init.length + U.card < n) {i j : κ} :
    (i, j) ∈ follow next expand n init ∅ ↔ Live next expand init i ∧ next i = some j := by
  constructor
  · intro h
    exact follow_sound next expand (fun k hk => .queued hk) _ h
  · rintro ⟨hi, hx⟩
    have h := follow_complete next expand hU (fun _ _ => False) hp
      (Finset.empty_subset _) (by simpa using hn) (by simp) i j (by simpa using hi) hx
    exact h.resolve_left id

end

end Lib
