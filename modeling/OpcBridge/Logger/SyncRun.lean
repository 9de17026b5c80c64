import Mathlib.Data.Finset.Max
import Mathlib.Data.List.Sort
import OpcBridge.Logger.Sync

/-!
# Runs of a sync

What the selection, the loop and the run of `run_sync_job_v2` do: the loop is described by what it
keeps over one key (`Synced`), and the run by its loop when it reports success (`Succeeded`).
-/

namespace OpcBridge.Logger

open OpcBridge

/-! ## Periods -/

theorem tdiv_of_nonpos {x : Int} (h : x ≤ 0) (n : Int) : x.tdiv n = -(-x / n) := by
  have hx : 0 ≤ -x := by omega
  rw [← Int.tdiv_eq_ediv_of_nonneg hx, Int.neg_tdiv, Int.neg_neg]

/-- The two databases differ in one direction only. -/
theorem period_mysql_le (minutes : Nat) (time : Int) :
    period .mysql minutes time ≤ period .odbc minutes time := by
  unfold period
  split
  · exact le_rfl
  · rename_i hm
    dsimp only
    have hn : (60 : Int) ≤ minutes * 60 := by omega
    generalize (minutes : Int) * 60 = n at hn
    refine Int.mul_le_mul_of_nonneg_right ?_ (by omega)
    unfold second
    by_cases ht : 0 ≤ time
    · have ho : 0 ≤ time / 1000000 := by omega
      rw [Int.tdiv_eq_ediv_of_nonneg ht, Int.tdiv_eq_ediv_of_nonneg ho]
    · have hm : time.tdiv 1000000 ≤ time / 1000000 + 1 := by
        rw [tdiv_of_nonpos (by omega)]
        omega
      have ho : (time / 1000000).tdiv n = -(-(time / 1000000) / n) :=
        tdiv_of_nonpos (by omega) n
      rw [ho]
      have hq := Int.ediv_mul_le (-(time / 1000000)) (b := n) (by omega)
      generalize -(time / 1000000) / n = q at hq
      have hlt : time.tdiv 1000000 < (-q + 1) * n := by
        rw [Int.add_mul, Int.neg_mul]
        omega
      have hdiv := Int.ediv_lt_of_lt_mul (by omega) hlt
      omega

theorem period_le_or_ge (type type' : DbType) (minutes : Nat) :
    (∀ time, period type minutes time ≤ period type' minutes time) ∨
      ∀ time, period type' minutes time ≤ period type minutes time := by
  have hother : ∀ time, period .unsupported minutes time = period .odbc minutes time :=
    fun _ => rfl
  cases type with
  | mysql =>
    refine .inl fun time => ?_
    cases type' with
    | mysql => exact le_rfl
    | odbc => exact period_mysql_le minutes time
    | unsupported => exact period_mysql_le minutes time
  | _ =>
    refine .inr fun time => ?_
    cases type' with
    | mysql => exact period_mysql_le minutes time
    | _ => exact le_rfl

/-- In one of the two orders no time has an earlier period on the second side. -/
theorem period_monotone (type type' : DbType) (minutes : Nat) :
    ∃ f : Int → Int, Function.Injective f ∧
      ∀ time, f (period type minutes time) ≤ f (period type' minutes time) := by
  obtain h | h := period_le_or_ge type type' minutes
  · exact ⟨id, Function.injective_id, h⟩
  · exact ⟨fun x => -x, fun _ _ hx => Int.neg_inj.1 hx, fun time => Int.neg_le_neg (h time)⟩

/-! ## Selected keys -/

namespace SyncCall
variable (c : SyncCall) (side : Side)

/-- The keys that a side selects. -/
def keysOf (table : List SyncRow) : List SyncKey := (c.latest side table).map (c.key side)

variable {c side} {table table' : List SyncRow} {k : SyncKey} {r : SyncRow}

theorem mem_latest : r ∈ c.latest side table ↔ r ∈ table ∧ c.selects side r = true ∧
    ∀ r' ∈ table, c.selects side r' = true → c.key side r' = c.key side r → r'.time ≤ r.time := by
  unfold latest
  simp only [List.mem_filter, List.all_eq_true, decide_eq_true_eq]
  constructor
  · rintro ⟨⟨h1, h2⟩, h3⟩
    exact ⟨h1, h2, fun r' hr' hs hk => (h3 r' ⟨hr', hs⟩).resolve_left fun hne => hne hk⟩
  · rintro ⟨h1, h2, h3⟩
    refine ⟨⟨h1, h2⟩, fun r' hr' => ?_⟩
    by_cases hk : c.key side r' = c.key side r
    · exact .inr (h3 r' hr'.1 hr'.2 hk)
    · exact .inl hk

/-- Every selected row has a latest one of its key. -/
theorem mem_keysOf : k ∈ c.keysOf side table ↔
    ∃ r ∈ table, c.selects side r = true ∧ c.key side r = k := by
  unfold keysOf
  simp only [List.mem_map, mem_latest]
  constructor
  · rintro ⟨r, ⟨h1, h2, -⟩, hk⟩
    exact ⟨r, h1, h2, hk⟩
  · rintro ⟨r, h1, h2, hk⟩
    let group := (table.filter fun r => c.selects side r ∧ c.key side r = k).toFinset
    have hmem : ∀ x, x ∈ group ↔ x ∈ table ∧ c.selects side x = true ∧ c.key side x = k := by
      intro x
      simp [group]
    obtain ⟨m, hm, hmax⟩ := group.exists_max_image (fun x => x.time) ⟨r, (hmem r).2 ⟨h1, h2, hk⟩⟩
    obtain ⟨hm1, hm2, hm3⟩ := (hmem m).1 hm
    refine ⟨m, ⟨hm1, hm2, fun r' hr' hs hk' => hmax r' ((hmem r').2 ⟨hr', hs, ?_⟩)⟩, hm3⟩
    rw [hk', hm3]

theorem candidate_spec (h : c.candidate side table k = some r) :
    r ∈ table ∧ c.selects side r = true ∧ c.key side r = k := by
  have hmem := List.mem_of_getLast? h
  obtain ⟨hl, hk⟩ := List.mem_filter.1 hmem
  obtain ⟨h1, h2, -⟩ := mem_latest.1 hl
  exact ⟨h1, h2, by simpa using hk⟩

theorem candidate_none : c.candidate side table k = none ↔ k ∉ c.keysOf side table := by
  unfold candidate keysOf
  rw [List.getLast?_eq_none_iff, List.filter_eq_nil_iff]
  simp

theorem candidate_some (h : k ∈ c.keysOf side table) :
    ∃ r, c.candidate side table k = some r := by
  cases hc : c.candidate side table k with
  | none => exact absurd h (candidate_none.1 hc)
  | some r => exact ⟨r, rfl⟩

theorem mem_keys [PeriodText] {tableA tableB : List SyncRow} :
    k ∈ c.keys tableA tableB ↔ k ∈ c.keysOf .a tableA ∨ k ∈ c.keysOf .b tableB := by
  unfold keys keysOf
  rw [List.mem_insertionSort, List.mem_dedup, List.mem_append]

theorem keys_nodup [PeriodText] {tableA tableB : List SyncRow} :
    (c.keys tableA tableB).Nodup := by
  unfold keys
  exact (List.perm_insertionSort _ _).nodup_iff.2 (List.nodup_dedup _)

end SyncCall

/-! ## One key -/

def Side.other : Side → Side
  | .a => .b
  | .b => .a

/-- Rows may be inserted on this side. -/
def SyncCall.writes (c : SyncCall) (side : Side) : Bool := side = .b || c.job.bidirectional

def KeyOutcome.isFailed : KeyOutcome → Bool
  | .failed .. => true
  | _ => false

/-- The table has a row with the same time and item. -/
def HasLike (table : List SyncRow) (row : SyncRow) : Prop :=
  ∃ r ∈ table, r.time = row.time ∧ r.item = row.item

section
variable {c : SyncCall} {replies : SyncReplies} {dryRun : Bool} {s : SyncState}

theorem attempt_spec (replies : SyncReplies) (side : Side) (table : List SyncRow)
    (row : SyncRow) :
    replies.attempt side table row = .inserted side row ∨
      (replies.attempt side table row = .matching ∨ replies.attempt side table row = .conflict) ∧
        HasLike table row ∨
      (replies.attempt side table row).isFailed = true := by
  unfold SyncReplies.attempt
  split
  · exact .inl rfl
  · split
    · rename_i hmem
      exact .inr (.inl ⟨.inl rfl, row, hmem, rfl, rfl⟩)
    · split
      · rename_i hany
        obtain ⟨r, hr, hsame⟩ := List.any_eq_true.1 hany
        exact .inr (.inl ⟨.inr rfl, r, hr, by simpa using hsame⟩)
      · exact .inr (.inr rfl)

/-- A key with a row on one side only, where the other side is written. -/
theorem keyOutcome_oneSided {side : Side} (hw : c.writes side = true) {row : SyncRow}
    {a b : Option SyncRow} (h : (side = .b ∧ a = some row ∧ b = none) ∨
      (side = .a ∧ a = none ∧ b = some row)) :
    keyOutcome c replies dryRun s a b =
      if dryRun then .inserted side row else replies.attempt side (s.table side) row := by
  obtain ⟨rfl, rfl, rfl⟩ | ⟨rfl, rfl, rfl⟩ := h
  · rfl
  · have hb : c.job.bidirectional = true := by simpa [SyncCall.writes] using hw
    unfold keyOutcome
    simp [hb, SyncState.table]

/-- The outcomes of all other keys. -/
theorem keyOutcome_still (replies : SyncReplies) (dryRun : Bool) (s : SyncState)
    {a b : Option SyncRow} (ha : a ≠ none → b = none → False)
    (hb : c.job.bidirectional = true → b ≠ none → a = none → False) :
    keyOutcome c replies dryRun s a b = .bOnly ∨ keyOutcome c replies dryRun s a b = .matching ∨
      keyOutcome c replies dryRun s a b = .conflict := by
  cases a with
  | none =>
    cases b with
    | none => exact .inr (.inr rfl)
    | some b =>
      have hone : c.job.bidirectional = false := by
        cases hc : c.job.bidirectional with
        | false => rfl
        | true => exact (hb hc (by simp) rfl).elim
      unfold keyOutcome
      simp [hone]
  | some a =>
    cases b with
    | none => exact (ha (by simp) rfl).elim
    | some b =>
      unfold keyOutcome
      dsimp only
      split
      · exact .inr (.inl rfl)
      · exact .inr (.inr rfl)

theorem attempt_inserted {side side' : Side} {table : List SyncRow} {row row' : SyncRow}
    (h : replies.attempt side table row = .inserted side' row') : side' = side ∧ row' = row := by
  unfold SyncReplies.attempt at h
  split at h
  · cases h
    exact ⟨rfl, rfl⟩
  · split at h
    · cases h
    · split at h <;> cases h

/-- A row is only inserted where it was missing. -/
theorem keyOutcome_inserted {a b : Option SyncRow} {side : Side} {row : SyncRow}
    (h : keyOutcome c replies dryRun s a b = .inserted side row) : c.writes side = true ∧
      ((side = .b ∧ a = some row ∧ b = none) ∨ (side = .a ∧ a = none ∧ b = some row)) := by
  have heither : ∀ {side' : Side} {table : List SyncRow} {row' : SyncRow},
      (if dryRun then KeyOutcome.inserted side' row' else replies.attempt side' table row') =
        .inserted side row → side = side' ∧ row = row' := by
    intro side' table row' h
    split at h
    · cases h
      exact ⟨rfl, rfl⟩
    · exact attempt_inserted h
  cases a with
  | none =>
    cases b with
    | none => cases h
    | some b =>
      unfold keyOutcome at h
      dsimp only at h
      split at h
      · cases h
      · rename_i hbidirectional
        obtain ⟨rfl, rfl⟩ := heither h
        exact ⟨by simpa [SyncCall.writes] using hbidirectional, .inr ⟨rfl, rfl, rfl⟩⟩
  | some a =>
    cases b with
    | none =>
      obtain ⟨rfl, rfl⟩ := heither h
      exact ⟨rfl, .inl ⟨rfl, rfl, rfl⟩⟩
    | some b =>
      unfold keyOutcome at h
      dsimp only at h
      split at h <;> cases h

/-- What one key adds to a table. -/
theorem add_table (k : SyncKey) (o : KeyOutcome) (side : Side) :
    (s.add dryRun k o).table side = s.table side ++
      match o with
      | .inserted side' row => if dryRun = false ∧ side' = side then [row] else []
      | _ => [] := by
  cases o with
  | inserted side' row =>
    cases side' <;> cases side <;> cases dryRun <;>
      simp [SyncState.add, SyncState.table]
  | _ => cases side <;> simp [SyncState.add, SyncState.table]

theorem add_outcomes (k : SyncKey) (o : KeyOutcome) :
    (s.add dryRun k o).outcomes = s.outcomes ++ [(k, o)] := by
  cases o with
  | inserted side row =>
    cases side <;> cases dryRun <;> rfl
  | _ => rfl

theorem add_counts (k : SyncKey) (o : KeyOutcome) :
    (s.add dryRun k o).counts = s.counts.add dryRun o := by
  cases o with
  | inserted side row =>
    cases side <;> cases dryRun <;> rfl
  | _ => rfl

end

/-! ## The loop -/

/-- A run of the loop without a failed insert. -/
inductive Synced (c : SyncCall) (replies : SyncReplies) (dryRun : Bool)
    (candidate : Side → SyncKey → Option SyncRow) : List SyncKey → SyncState → SyncState → Prop
  | nil (s : SyncState) : Synced c replies dryRun candidate [] s s
  | cons {k : SyncKey} {ks : List SyncKey} {s s' : SyncState} {o : KeyOutcome}
      (ho : o = keyOutcome c replies dryRun s (candidate .a k) (candidate .b k))
      (hok : o.isFailed = false)
      (rest : Synced c replies dryRun candidate ks (s.add dryRun k o) s') :
      Synced c replies dryRun candidate (k :: ks) s s'

section
variable {c : SyncCall} {replies : SyncReplies} {dryRun : Bool}
  {candidate : Side → SyncKey → Option SyncRow}

theorem failureOf_none [PeriodText] {outcomes : List (SyncKey × KeyOutcome)} :
    failureOf outcomes = none ↔ ∀ x ∈ outcomes, x.2.isFailed = false := by
  unfold failureOf
  rw [List.findSome?_eq_none_iff]
  refine forall₂_congr fun x _ => ?_
  obtain ⟨k, o⟩ := x
  cases o <;> simp [KeyOutcome.isFailed]

theorem syncLoop_cons (k : SyncKey) (ks : List SyncKey) (s : SyncState) :
    syncLoop c replies dryRun candidate (k :: ks) s =
      let o := keyOutcome c replies dryRun s (candidate .a k) (candidate .b k)
      if o.isFailed = true then s.add dryRun k o
      else syncLoop c replies dryRun candidate ks (s.add dryRun k o) := by
  rw [syncLoop]
  dsimp only
  split
  · rename_i hfailed
    rw [hfailed]
    rfl
  · rename_i hok
    have hnot : (keyOutcome c replies dryRun s (candidate .a k) (candidate .b k)).isFailed =
        false := by
      cases ho : keyOutcome c replies dryRun s (candidate .a k) (candidate .b k) with
      | failed side row error => exact (hok side row error ho).elim
      | _ => rfl
    rw [hnot]
    simp

theorem loop_synced {ks : List SyncKey} : ∀ {s : SyncState},
    (∀ x ∈ (syncLoop c replies dryRun candidate ks s).outcomes, x.2.isFailed = false) →
    Synced c replies dryRun candidate ks s (syncLoop c replies dryRun candidate ks s) := by
  induction ks with
  | nil => exact fun _ => .nil _
  | cons k ks ih =>
    intro s h
    rw [syncLoop_cons] at h ⊢
    dsimp only at h ⊢
    split
    · rename_i hfailed
      rw [if_pos hfailed] at h
      rw [add_outcomes] at h
      have hnot := h _ (List.mem_append_right _ (List.mem_singleton_self _))
      rw [hfailed] at hnot
      cases hnot
    · rename_i hok
      rw [if_neg hok] at h
      exact .cons rfl (by simpa using hok) (ih h)

theorem attempt_accepted (hreject : ∀ side table row, replies.rejects side table row = none)
    (side : Side) (table : List SyncRow) (row : SyncRow) :
    replies.attempt side table row = .inserted side row := by
  unfold SyncReplies.attempt
  rw [hreject]

/-- Without rejected inserts no key fails. -/
theorem keyOutcome_accepted (dryRun : Bool)
    (hreject : ∀ side table row, replies.rejects side table row = none) (s : SyncState) (a b : Option SyncRow) :
    (keyOutcome c replies dryRun s a b).isFailed = false := by
  unfold keyOutcome
  simp only [attempt_accepted hreject]
  split
  · split <;> rfl
  · split
    · rfl
    · split <;> rfl
  · split <;> rfl
  · rfl

theorem loop_accepted
    (haccept : ∀ s a b, (keyOutcome c replies dryRun s a b).isFailed = false)
    {ks : List SyncKey} : ∀ {s : SyncState}, (∀ x ∈ s.outcomes, x.2.isFailed = false) →
    ∀ x ∈ (syncLoop c replies dryRun candidate ks s).outcomes, x.2.isFailed = false := by
  induction ks with
  | nil => exact fun h => h
  | cons k ks ih =>
    intro s h
    have hok := haccept s (candidate .a k) (candidate .b k)
    rw [syncLoop_cons]
    dsimp only
    rw [hok, if_neg (by simp)]
    refine ih fun x hx => ?_
    rw [add_outcomes, List.mem_append] at hx
    obtain hx | hx := hx
    · exact h x hx
    · obtain rfl := List.mem_singleton.1 hx
      exact hok

variable {ks : List SyncKey} {s s' : SyncState}

/-- The tables only grow, by rows of the other side that were missing. -/
theorem Synced.grows (h : Synced c replies dryRun candidate ks s s') (side : Side) :
    ∃ new, s'.table side = s.table side ++ new ∧ ∀ r ∈ new, c.writes side = true ∧
      ∃ k ∈ ks, candidate side.other k = some r ∧ candidate side k = none := by
  induction h with
  | nil s => exact ⟨[], by simp, by simp⟩
  | @cons k ks s s' o ho hok rest ih =>
    obtain ⟨new, hnew, hrows⟩ := ih
    rw [add_table, List.append_assoc] at hnew
    refine ⟨_, hnew, fun r hr => ?_⟩
    obtain hr | hr := List.mem_append.1 hr
    · -- the row that this key has inserted
      split at hr
      · rename_i side' row
        split at hr
        · rename_i hins
          obtain ⟨-, rfl⟩ := hins
          obtain rfl := List.mem_singleton.1 hr
          obtain ⟨hw, hcases⟩ := keyOutcome_inserted ho.symm
          refine ⟨hw, k, List.mem_cons_self .., ?_⟩
          obtain ⟨rfl, h1, h2⟩ | ⟨rfl, h1, h2⟩ := hcases
          · exact ⟨h1, h2⟩
          · exact ⟨h2, h1⟩
        · cases hr
      · cases hr
    · obtain ⟨hw, k', hk', hc⟩ := hrows r hr
      exact ⟨hw, k', List.mem_cons_of_mem _ hk', hc⟩

/-- The other side has a row like each missing one afterwards. -/
theorem Synced.reaches (h : Synced c replies false candidate ks s s') {side : Side}
    (hw : c.writes side = true) {k : SyncKey} (hk : k ∈ ks) {row : SyncRow}
    (hrow : candidate side.other k = some row) (hnone : candidate side k = none) :
    HasLike (s'.table side) row := by
  have hkeep : ∀ {ks : List SyncKey} {s s' : SyncState}, Synced c replies false candidate ks s s' →
      HasLike (s.table side) row → HasLike (s'.table side) row := by
    intro ks s s' h ⟨r, hr, hlike⟩
    obtain ⟨new, hnew, -⟩ := h.grows side
    exact ⟨r, by rw [hnew]; exact List.mem_append_left _ hr, hlike⟩
  induction h with
  | nil s => cases hk
  | @cons k' ks s s' o ho hok rest ih =>
    obtain rfl | hk := List.mem_cons.1 hk
    · refine hkeep rest ?_
      have hcases : o = replies.attempt side (s.table side) row := by
        rw [ho]
        cases side with
        | a => exact keyOutcome_oneSided hw (.inr ⟨rfl, hnone, hrow⟩)
        | b => exact keyOutcome_oneSided hw (.inl ⟨rfl, hrow, hnone⟩)
      rw [add_table]
      obtain hins | ⟨-, hlike⟩ | hfailed := attempt_spec replies side (s.table side) row
      · rw [hcases, hins]
        exact ⟨row, by simp, rfl, rfl⟩
      · obtain ⟨r, hr, hlike⟩ := hlike
        exact ⟨r, List.mem_append_left _ hr, hlike⟩
      · rw [hcases, hfailed] at hok
        cases hok
    · exact ih hk

/-- What became of a key. -/
theorem Synced.outcome (h : Synced c replies dryRun candidate ks s s') :
    ∀ x ∈ s'.outcomes, x ∈ s.outcomes ∨ x.1 ∈ ks ∧ ∃ t, x.2 = keyOutcome c replies dryRun t
      (candidate .a x.1) (candidate .b x.1) := by
  induction h with
  | nil s => exact fun x hx => .inl hx
  | @cons k ks s s' o ho hok rest ih =>
    intro x hx
    obtain hx | ⟨hk, ht⟩ := ih x hx
    · rw [add_outcomes, List.mem_append] at hx
      obtain hx | hx := hx
      · exact .inl hx
      · obtain rfl := List.mem_singleton.1 hx
        exact .inr ⟨List.mem_cons_self .., s, ho⟩
    · exact .inr ⟨List.mem_cons_of_mem _ hk, ht⟩

/-- The keys that are only counted as skipped. -/
def onlyOnB (c : SyncCall) (candidate : Side → SyncKey → Option SyncRow) (k : SyncKey) : Bool :=
  !c.job.bidirectional && (candidate .a k).isNone && (candidate .b k).isSome

def SyncCounts.total (n : SyncCounts) : Nat := n.aToB + n.bToA + n.matching + n.conflicts

theorem keyOutcome_bOnly (replies : SyncReplies) (dryRun : Bool)
    (candidate : Side → SyncKey → Option SyncRow) (k : SyncKey) (s : SyncState) :
    keyOutcome c replies dryRun s (candidate .a k) (candidate .b k) = .bOnly ↔
      onlyOnB c candidate k = true := by
  have hattempt : ∀ side table row, replies.attempt side table row ≠ .bOnly := by
    intro side table row h
    unfold SyncReplies.attempt at h
    split at h
    · cases h
    · split at h
      · cases h
      · split at h <;> cases h
  unfold onlyOnB keyOutcome
  cases candidate .a k with
  | none =>
    cases candidate .b k with
    | none => simp
    | some b =>
      cases c.job.bidirectional with
      | false => simp
      | true =>
        cases dryRun with
        | false => simpa using hattempt .a s.a b
        | true => simp
  | some a =>
    cases candidate .b k with
    | none =>
      cases dryRun with
      | false => simpa using hattempt .b s.b a
      | true => simp
    | some b =>
      dsimp only
      split <;> simp

theorem total_add {n : SyncCounts} {o : KeyOutcome} (hok : o.isFailed = false) :
    (n.add dryRun o).total + (if o = .bOnly then 1 else 0) = n.total + 1 := by
  unfold SyncCounts.total
  cases o with
  | inserted side row =>
    cases side <;> simp [SyncCounts.add] <;> omega
  | failed side row error => cases hok
  | bOnly => simp [SyncCounts.add]
  | matching =>
    simp [SyncCounts.add]
    omega
  | conflict =>
    simp [SyncCounts.add]
    omega

/-- Every key is counted once. -/
theorem Synced.total (h : Synced c replies dryRun candidate ks s s') :
    s'.counts.total + ks.countP (onlyOnB c candidate) = s.counts.total + ks.length ∧
      s'.counts.selected = s.counts.selected ∧ s'.counts.examined = s.counts.examined := by
  induction h with
  | nil s => simp
  | @cons k ks s s' o ho hok rest ih =>
    obtain ⟨h1, h2, h3⟩ := ih
    have hadd := @total_add dryRun s.counts o hok
    have hiff := keyOutcome_bOnly (c := c) replies dryRun candidate k s
    rw [add_counts] at h1 h2 h3
    have hkeep : (s.counts.add dryRun o).selected = s.counts.selected ∧
        (s.counts.add dryRun o).examined = s.counts.examined := by
      cases o with
      | inserted side row => cases side <;> exact ⟨rfl, rfl⟩
      | failed side row error => cases side <;> exact ⟨rfl, rfl⟩
      | _ => exact ⟨rfl, rfl⟩
    refine ⟨?_, h2.trans hkeep.1, h3.trans hkeep.2⟩
    rw [List.countP_cons, List.length_cons]
    rw [← ho] at hiff
    by_cases hb : onlyOnB c candidate k = true
    · rw [if_pos (hiff.2 hb)] at hadd
      rw [if_pos hb]
      omega
    · rw [if_neg fun ho' => hb (hiff.1 ho')] at hadd
      rw [if_neg hb]
      omega

/-- Nothing is missing on a side that is written, so nothing is inserted. -/
theorem loop_still {ks : List SyncKey} : ∀ {s : SyncState},
    (∀ k ∈ ks, ∀ side, c.writes side = true → candidate side k = none →
      candidate side.other k = none) →
    (syncLoop c replies dryRun candidate ks s).a = s.a ∧
    (syncLoop c replies dryRun candidate ks s).b = s.b ∧
    (syncLoop c replies dryRun candidate ks s).counts.inserted = s.counts.inserted := by
  induction ks with
  | nil => exact fun _ => ⟨rfl, rfl, rfl⟩
  | cons k ks ih =>
    intro s h
    have hstill := keyOutcome_still (c := c) replies dryRun s
      (a := candidate .a k) (b := candidate .b k)
      (fun ha hb => ha (h k (List.mem_cons_self ..) .b rfl hb))
      (fun hw hb ha => hb (h k (List.mem_cons_self ..) .a (by simp [SyncCall.writes, hw]) ha))
    have hrest : ∀ {o : KeyOutcome}, o = .bOnly ∨ o = .matching ∨ o = .conflict →
        o.isFailed = false ∧ (s.add dryRun k o).a = s.a ∧ (s.add dryRun k o).b = s.b ∧
        (s.add dryRun k o).counts.inserted = s.counts.inserted := by
      intro o ho
      obtain rfl | rfl | rfl := ho <;> exact ⟨rfl, rfl, rfl, rfl⟩
    obtain ⟨hok, h1, h2, h3⟩ := hrest hstill
    rw [syncLoop_cons]
    dsimp only
    rw [hok, if_neg (by simp)]
    obtain ⟨h1', h2', h3'⟩ :=
      @ih (s.add dryRun k (keyOutcome c replies dryRun s (candidate .a k) (candidate .b k)))
        fun k hk => h k (List.mem_cons_of_mem _ hk)
    exact ⟨h1'.trans h1, h2'.trans h2, h3'.trans h3⟩

/-- The figures that a dry run predicts. -/
structure SyncCounts.Predicts (n n' : SyncCounts) : Prop where
  aToB : n'.aToB = n.aToB
  bToA : n'.bToA = n.bToA
  matching : n'.matching = n.matching
  conflicts : n'.conflicts = n.conflicts
  skipped : n'.skipped = n.skipped
  inserted : n'.inserted = n.aToB + n.bToA

/-- Without rejected inserts a run and a dry run go the same way. -/
theorem loop_predicted {replies' : SyncReplies}
    (hreject : ∀ side table row, replies.rejects side table row = none) {ks : List SyncKey} :
    ∀ {s t : SyncState}, t.counts.Predicts s.counts →
    (syncLoop c replies' true candidate ks t).counts.Predicts
      (syncLoop c replies false candidate ks s).counts := by
  induction ks with
  | nil => exact fun h => h
  | cons k ks ih =>
    intro s t h
    have hok := keyOutcome_accepted (c := c) false hreject s (candidate .a k) (candidate .b k)
    have hsame : keyOutcome c replies false s (candidate .a k) (candidate .b k) =
        keyOutcome c replies' true t (candidate .a k) (candidate .b k) := by
      unfold keyOutcome
      simp only [attempt_accepted hreject, Bool.false_eq_true, if_false, if_true]
    rw [hsame] at hok
    rw [syncLoop_cons, syncLoop_cons]
    dsimp only
    rw [hsame, hok, if_neg (by simp), if_neg (by simp)]
    generalize keyOutcome c replies' true t (candidate .a k) (candidate .b k) = o at hok
    refine ih ?_
    rw [add_counts, add_counts]
    obtain ⟨h1, h2, h3, h4, h5, h6⟩ := h
    cases o with
    | inserted side row =>
      cases side with
      | a => exact ⟨h1, by simp [SyncCounts.add, h2], h3, h4, h5, by simp [SyncCounts.add, h6]; omega⟩
      | b => exact ⟨by simp [SyncCounts.add, h1], h2, h3, h4, h5, by simp [SyncCounts.add, h6]; omega⟩
    | bOnly => exact ⟨h1, h2, h3, h4, by simp [SyncCounts.add, h5], h6⟩
    | matching =>
      exact ⟨h1, h2, by simp [SyncCounts.add, h3], h4, by simp [SyncCounts.add, h5], h6⟩
    | conflict =>
      exact ⟨h1, h2, h3, by simp [SyncCounts.add, h4], by simp [SyncCounts.add, h5], h6⟩
    | failed side row error => cases hok

end

/-! ## Runs -/

section
variable [PeriodText] {c : SyncCall} {tableA tableB : List SyncRow}

/-- A run that reports success. -/
structure Succeeded (c : SyncCall) (replies : SyncReplies) (tableA tableB : List SyncRow)
    (s : SyncState) : Prop where
  loop : s = c.loop replies false tableA tableB s.counts.examined
  synced : Synced c replies false (c.candidates tableA tableB) (c.keys tableA tableB)
    { a := tableA, b := tableB
      counts := { examined := s.counts.examined, selected := (c.keys tableA tableB).length } } s
  result : c.run replies false tableA tableB =
    { ok := true, counts := s.counts, outcomes := s.outcomes, committing := true, a := s.a
      b := s.b }

theorem loop_counts (c : SyncCall) (replies : SyncReplies) (tableA tableB : List SyncRow)
    (examined : Nat)
    (h : failureOf (c.loop replies false tableA tableB examined).outcomes = none) :
    Synced c replies false (c.candidates tableA tableB) (c.keys tableA tableB)
      { a := tableA, b := tableB
        counts := { examined, selected := (c.keys tableA tableB).length } }
      (c.loop replies false tableA tableB examined) :=
  loop_synced (failureOf_none.1 h)

theorem run_cases (c : SyncCall) (replies : SyncReplies) (tableA tableB : List SyncRow) :
    (∃ s, Succeeded c replies tableA tableB s) ∨
      (c.run replies false tableA tableB).ok = false ∧
      ((c.run replies false tableA tableB).committing = false →
        (c.run replies false tableA tableB).a = tableA ∧
        (c.run replies false tableA tableB).b = tableB) := by
  unfold SyncCall.run
  split
  · exact .inr ⟨rfl, fun _ => ⟨rfl, rfl⟩⟩
  · rename_i examined hload
    unfold SyncCall.compare
    dsimp only
    rw [if_neg (by simp)]
    split
    · exact .inr ⟨rfl, fun _ => ⟨rfl, rfl⟩⟩
    · rename_i hbegin
      split
      · exact .inr ⟨rfl, fun _ => ⟨rfl, rfl⟩⟩
      · rename_i hfailure
        have hsynced := loop_counts c replies tableA tableB examined hfailure
        split
        · exact .inr ⟨rfl, fun h => by cases h⟩
        · rename_i hcommitA
          split
          · exact .inr ⟨rfl, fun h => by cases h⟩
          · rename_i hcommitB
            have hexamined := hsynced.total.2.2
            refine .inl ⟨c.loop replies false tableA tableB examined, ?_, ?_, ?_⟩
            · rw [hexamined]
            · rw [hexamined]
              exact hsynced
            · unfold SyncCall.run SyncCall.compare
              simp only [hload, hbegin, hfailure, hcommitA, hcommitB, Bool.false_eq_true, if_false]

end

end OpcBridge.Logger
