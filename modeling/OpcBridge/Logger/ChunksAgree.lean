import Mathlib.Data.List.Perm.Subperm
import OpcBridge.Logger.Inserts

/-!
# Backfills and runs over the whole range

`backfill_agrees_iff` says when a completed backfill does what one run over the whole range does:
when no chunk begins at the date that `mktime` refuses, and no period that is cut by chunks is
missing in one of them only (`Seamless`). The worker is described by the chunks that it has done
(`Worked`); the rows that a chunk inserts do not depend on the chunks before it, because the rows of
those have other times.
-/

namespace OpcBridge.Logger

open OpcBridge

/-! ## What is asked -/

/-- The ranges follow each other from `lo` to `hi`. -/
inductive Tiles : Int → List (Int × Int) → Int → Prop
  | nil (lo : Int) : Tiles lo [] lo
  | cons {lo mid hi : Int} {ranges : List (Int × Int)} (h : lo < mid)
      (rest : Tiles mid ranges hi) : Tiles lo ((lo, mid) :: ranges) hi

/-- The backfill did what the run over the whole range does. -/
structure BackfillAgrees (w : BackfillRun) (whole : SyncResult) : Prop where
  tiles : Tiles w.task.startTime w.ranges w.task.endTime
  tables : ∀ side, (w.table side).Perm (whole.table side)
  inserted : w.task.inserted = whole.counts.inserted
  aToB : w.task.aToB = whole.counts.aToB
  bToA : w.task.bToA = whole.counts.bToA

/-- The range of a chunk. -/
def chunkRange (start stop chunk : Int) (i : Nat) : Int × Int :=
  (start + i * chunk, min stop (start + (i + 1) * chunk))

/-- No chunk begins at the date that `mktime` refuses, and what one side lacks in a chunk it lacks
in the whole range, with the same latest row. -/
structure Seamless (c : SyncCall) (unique : Side → Bool) (zone : Int)
    (tableA tableB : List SyncRow) (start stop : Int) : Prop where
  begins : ∀ i : Nat, start + i * c.job.chunkSeconds < stop →
    start + i * c.job.chunkSeconds - zone ≠ -1
  lone : ∀ side, c.writes side = true → ∀ i : Nat, start + i * c.job.chunkSeconds < stop →
    ∀ r, Lone (c.over (chunkRange start stop c.job.chunkSeconds i)) unique tableA tableB side r →
      ¬ (c.over (start, stop)).Refused tableA tableB ∧
        Lone (c.over (start, stop)) unique tableA tableB side r

/-! ## Ranges -/

theorem Tiles.append {lo mid hi : Int} {ranges : List (Int × Int)} (h : Tiles lo ranges mid)
    (hlt : mid < hi) : Tiles lo (ranges ++ [(mid, hi)]) hi := by
  induction h with
  | nil lo => exact .cons hlt (.nil hi)
  | cons h _ ih => exact .cons h (ih hlt)

theorem Tiles.unique {lo hi hi' : Int} {ranges : List (Int × Int)} (h : Tiles lo ranges hi)
    (h' : Tiles lo ranges hi') : hi = hi' := by
  induction h with
  | nil lo =>
    cases h'
    rfl
  | cons _ _ ih =>
    cases h' with
    | cons _ rest => exact ih rest

/-- Every date of the range is in a chunk. -/
theorem exists_chunk {start stop chunk date : Int} (hchunk : 0 < chunk) (hlo : start ≤ date)
    (hhi : date < stop) : ∃ i : Nat, start + i * chunk < stop ∧
      (chunkRange start stop chunk i).1 ≤ date ∧ date < (chunkRange start stop chunk i).2 := by
  have hnonneg : 0 ≤ (date - start) / chunk := Int.ediv_nonneg (by omega) (by omega)
  obtain ⟨i, hi⟩ := Int.eq_ofNat_of_zero_le hnonneg
  have hle := Int.ediv_mul_le (date - start) (b := chunk) (by omega)
  have hlt := Int.lt_ediv_add_one_mul_self (date - start) hchunk
  rw [hi] at hle hlt
  have hsucc : ((i : Int) + 1) * chunk = i * chunk + chunk := by
    rw [Int.add_mul, Int.one_mul]
  rw [hsucc] at hlt
  refine ⟨i, by omega, ?_, ?_⟩
  · unfold chunkRange
    dsimp only
    omega
  · unfold chunkRange
    dsimp only
    rw [hsucc]
    omega

section
variable {c : SyncCall} {unique : Side → Bool} {tableA tableB : List SyncRow} {side : Side}

theorem selects_over {range : Int × Int} {r : SyncRow} :
    (c.over range).selects side r = true ↔ (range.1 * second ≤ r.time ∧
      r.time < range.2 * second) ∧ (c.job.allTags || decide (r.item ∈ c.job.tags)) = true := by
  unfold SyncCall.selects SyncCall.over
  dsimp only
  rw [Bool.and_eq_true, decide_eq_true_eq]

/-- A row that is lone in a range is lone in each part with the row. -/
theorem Lone.narrow {range part : Int × Int} {r : SyncRow}
    (h : Lone (c.over range) unique tableA tableB side r) (hlo : range.1 ≤ part.1)
    (hhi : part.2 ≤ range.2) (hin : part.1 * second ≤ r.time ∧ r.time < part.2 * second) :
    Lone (c.over part) unique tableA tableB side r := by
  have hwide : ∀ {side : Side} {x : SyncRow}, (c.over part).selects side x = true →
      (c.over range).selects side x = true := by
    intro side x hx
    obtain ⟨htime, htag⟩ := selects_over.1 hx
    refine selects_over.2 ⟨?_, htag⟩
    unfold second at htime ⊢
    omega
  obtain ⟨h1, h2, h3⟩ := SyncCall.mem_latest.1 h.latest
  refine ⟨SyncCall.mem_latest.2 ⟨h1, selects_over.2 ⟨hin, (selects_over.1 h2).2⟩, ?_⟩, ?_,
    h.accepted⟩
  · exact fun x hx hs hk => h3 x hx (hwide hs) hk
  · exact fun x hx hs hk => h.missing x hx (hwide hs) hk

end

/-! ## The worker -/

section
variable [PeriodText] {c : SyncCall} {unique : Side → Bool} {zone : Int}
  {tableA tableB : List SyncRow} {start stop : Int}

/-- The rows that the chunks of some ranges insert. -/
def chunkInserts (c : SyncCall) (unique : Side → Bool) (tableA tableB : List SyncRow)
    (ranges : List (Int × Int)) (side : Side) : List SyncRow :=
  ranges.flatMap fun range => (c.over range).inserts unique tableA tableB side

/-- The worker has done `m` chunks. -/
structure Worked (c : SyncCall) (unique : Side → Bool) (zone : Int) (tableA tableB : List SyncRow)
    (start stop : Int) (w : BackfillRun) (m : Nat) : Prop where
  startTime : w.task.startTime = start
  endTime : w.task.endTime = stop
  cancel : w.task.cancelRequested = false
  cursor : w.task.cursorTime = min stop (start + m * c.job.chunkSeconds)
  ranges : w.ranges = (List.range m).map (chunkRange start stop c.job.chunkSeconds)
  tiles : Tiles start w.ranges w.task.cursorTime
  begins : ∀ i < m, start + i * c.job.chunkSeconds < stop ∧
    start + i * c.job.chunkSeconds - zone ≠ -1
  problem : 0 < m → c.problem = none
  table : ∀ side : Side, w.table side =
    side.pick tableA tableB ++ chunkInserts c unique tableA tableB w.ranges side
  aToB : w.task.aToB = (chunkInserts c unique tableA tableB w.ranges .b).length
  bToA : w.task.bToA = (chunkInserts c unique tableA tableB w.ranges .a).length
  inserted : w.task.inserted = (chunkInserts c unique tableA tableB w.ranges .b).length +
    (chunkInserts c unique tableA tableB w.ranges .a).length

omit [PeriodText] in
theorem chunkRange_le {chunk : Int} (start stop : Int) (hchunk : 0 < chunk) {i j : Nat}
    (h : i < j) : (chunkRange start stop chunk i).2 ≤ start + j * chunk := by
  have hle : ((i : Int) + 1) * chunk ≤ j * chunk :=
    Int.mul_le_mul_of_nonneg_right (by omega) (by omega)
  unfold chunkRange
  dsimp only
  omega

/-- The rows of the chunks before `m` are not selected in chunk `m`. -/
theorem chunkInserts_before {m : Nat} {next : Int} {side side' : Side} {r : SyncRow}
    (hr : r ∈ chunkInserts c unique tableA tableB
      ((List.range m).map (chunkRange start stop c.job.chunkSeconds)) side) :
    (c.over (start + m * c.job.chunkSeconds, next)).selects side' r = false := by
  unfold chunkInserts at hr
  obtain ⟨range, hrange, hr⟩ := List.mem_flatMap.1 hr
  obtain ⟨i, hi, rfl⟩ := List.mem_map.1 hrange
  obtain ⟨-, hlone, -⟩ := mem_inserts.1 hr
  have hsel := selects_over.1 (SyncCall.mem_latest.1 hlone.latest).2.1
  have hle := chunkRange_le start stop c.job.chunkSeconds_pos (List.mem_range.1 hi)
  rw [Bool.eq_false_iff]
  intro hlate
  have hlate := selects_over.1 hlate
  dsimp only at hlate
  unfold second at hsel hlate
  omega

theorem worked_start {task : BackfillTask} (hstart : task.startTime = start)
    (hstop : task.endTime = stop) (hcursor : task.cursorTime = start) (hlt : start < stop)
    (hcancel : task.cancelRequested = false)
    (hcounts : task.aToB = 0 ∧ task.bToA = 0 ∧ task.inserted = 0) :
    Worked c unique zone tableA tableB start stop { task, a := tableA, b := tableB } 0 := by
  obtain ⟨h1, h2, h3⟩ := hcounts
  refine ⟨hstart, hstop, hcancel, ?_, rfl, ?_, fun i hi => ?_, fun h => ?_, fun side => ?_, ?_, ?_,
    ?_⟩
  · dsimp only
    rw [hcursor]
    simp
    omega
  · dsimp only
    rw [hcursor]
    exact .nil start
  · omega
  · omega
  · cases side <;> simp [BackfillRun.table, Side.pick, chunkInserts]
  · simp [chunkInserts, h1]
  · simp [chunkInserts, h2]
  · simp [chunkInserts, h3]

/-- A chunk that reports success. -/
theorem worked_chunk {w : BackfillRun} {m : Nat} {replies : SyncReplies} {next : Int}
    (h : Worked c unique zone tableA tableB start stop w m)
    (hnext : nextDate zone c.job.chunkSeconds w.task.cursorTime w.task.endTime = some next)
    (hok : ((c.over (w.task.cursorTime, next)).run (replies.keyed unique) false w.a w.b).ok =
      true) :
    Worked c unique zone tableA tableB start stop (w.step c zone (replies.keyed unique)) (m + 1) := by
  obtain ⟨hlt, hmin, hepoch⟩ := next_some hnext
  have hcursor : w.task.cursorTime = start + m * c.job.chunkSeconds := by
    have h1 := h.cursor
    rw [h.endTime] at hlt
    omega
  have hsucc : ((m : Int) + 1) * c.job.chunkSeconds =
      m * c.job.chunkSeconds + c.job.chunkSeconds := by
    rw [Int.add_mul, Int.one_mul]
  have hrange : chunkRange start stop c.job.chunkSeconds m = (w.task.cursorTime, next) := by
    unfold chunkRange
    rw [hcursor, hmin, h.endTime, hcursor, hsucc, Int.add_assoc]
  have hranges : w.ranges ++ [(w.task.cursorTime, next)] =
      (List.range (m + 1)).map (chunkRange start stop c.job.chunkSeconds) := by
    rw [List.range_succ, List.map_append, ← h.ranges, List.map_singleton, hrange]
  have hsplit : ∀ side, chunkInserts c unique tableA tableB
      (w.ranges ++ [(w.task.cursorTime, next)]) side =
      chunkInserts c unique tableA tableB w.ranges side ++
        (c.over (w.task.cursorTime, next)).inserts unique tableA tableB side := by
    intro side
    unfold chunkInserts
    rw [List.flatMap_append, List.flatMap_singleton]
  -- the chunk inserts what it would insert into the tables of the beginning
  have hsame : (c.over (w.task.cursorTime, next)).inserts unique w.a w.b =
      (c.over (w.task.cursorTime, next)).inserts unique tableA tableB := by
    have ha := h.table .a
    have hb := h.table .b
    dsimp only [BackfillRun.table, Side.pick] at ha hb
    rw [ha, hb]
    refine inserts_append fun side r hr side' => ?_
    rw [hcursor]
    rw [h.ranges] at hr
    cases side with
    | a => exact chunkInserts_before hr
    | b => exact chunkInserts_before hr
  have hproblem : c.problem = none := by
    by_contra hsome
    have hrefused : (c.over (w.task.cursorTime, next)).Refused w.a w.b :=
      .inl (Option.isSome_iff_ne_none.2 hsome)
    exact refused_not_ok hrefused _ hok
  have hins := inserted_of_ok hok
  have hstep : w.step c zone (replies.keyed unique) =
      { task := w.task.add next
          ((c.over (w.task.cursorTime, next)).run (replies.keyed unique) false w.a w.b)
        a := ((c.over (w.task.cursorTime, next)).run (replies.keyed unique) false w.a w.b).a
        b := ((c.over (w.task.cursorTime, next)).run (replies.keyed unique) false w.a w.b).b
        ranges := w.ranges ++ [(w.task.cursorTime, next)] } := by
    unfold BackfillRun.step
    rw [h.cancel, hnext]
    rfl
  rw [hstep]
  generalize ((c.over (w.task.cursorTime, next)).run (replies.keyed unique) false w.a w.b) = result
    at hok hins
  rw [add_ok hok]
  refine ⟨h.startTime, h.endTime, h.cancel, ?_, hranges, ?_, ?_, fun _ => ?_, fun side => ?_, ?_,
    ?_, ?_⟩
  · dsimp only
    push_cast
    rw [hmin, h.endTime, hcursor, hsucc, Int.add_assoc]
  · refine h.tiles.append ?_
    have hpos := c.job.chunkSeconds_pos
    omega
  · intro i hi
    obtain hi | rfl := Nat.lt_succ_iff_lt_or_eq.1 hi
    · exact h.begins i hi
    · rw [← hcursor, ← h.endTime]
      exact ⟨hlt, hepoch⟩
  · exact hproblem
  · have hold := h.table side
    have hnew := hins.table side
    rw [hsame] at hnew
    rw [hsplit, ← List.append_assoc, ← hold]
    cases side <;> exact hnew
  · rw [hsplit, List.length_append, ← h.aToB, hins.aToB, hsame]
  · rw [hsplit, List.length_append, ← h.bToA, hins.bToA, hsame]
  · rw [hsplit, hsplit, List.length_append, List.length_append]
    have hold := h.inserted
    have hnew := hins.inserted
    rw [hsame] at hnew
    dsimp only
    omega

/-- What is known while the worker runs, and when it has completed the task. -/
structure Held (c : SyncCall) (unique : Side → Bool) (zone : Int) (tableA tableB : List SyncRow)
    (start stop : Int) (w : BackfillRun) : Prop where
  running : w.task.status = .running → ∃ m, Worked c unique zone tableA tableB start stop w m
  complete : w.task.status = .complete → ∃ m, Worked c unique zone tableA tableB start stop w m ∧
    (w.task.cursorTime - zone = -1 ∨ stop ≤ w.task.cursorTime)

theorem step_held {w : BackfillRun} {replies : SyncReplies} (hrunning : w.task.status = .running)
    (hstop : stop - zone ≠ -1) (h : Held c unique zone tableA tableB start stop w) :
    Held c unique zone tableA tableB start stop (w.step c zone (replies.keyed unique)) := by
  obtain ⟨m, hm⟩ := h.running hrunning
  cases hnext : nextDate zone c.job.chunkSeconds w.task.cursorTime w.task.endTime with
  | none =>
    have hstep : w.step c zone (replies.keyed unique) = { w with task := w.task.completed } := by
      unfold BackfillRun.step
      rw [hm.cancel, hnext]
      rfl
    have hend := next_none (by rw [hm.endTime]; exact hstop) hnext
    rw [hm.endTime] at hend
    rw [hstep]
    refine ⟨fun hrun => (by cases hrun), fun _ => ⟨m, ?_, hend⟩⟩
    exact ⟨hm.startTime, hm.endTime, hm.cancel, hm.cursor, hm.ranges, hm.tiles, hm.begins,
      hm.problem, hm.table, hm.aToB, hm.bToA, hm.inserted⟩
  | some next =>
    have hstatus : (w.step c zone (replies.keyed unique)).task.status =
        if ((c.over (w.task.cursorTime, next)).run (replies.keyed unique) false w.a w.b).ok = true
        then .running else .failed := by
      unfold BackfillRun.step
      rw [hm.cancel, hnext]
      dsimp only
      rw [if_neg (by simp), add_status, hrunning]
    refine ⟨fun hrun => ⟨m + 1, worked_chunk hm hnext ?_⟩, fun hcomplete => ?_⟩
    · rw [hstatus] at hrun
      by_contra hfailed
      rw [if_neg hfailed] at hrun
      cases hrun
    · rw [hstatus] at hcomplete
      split at hcomplete <;> cases hcomplete

/-- By induction on the rounds. -/
theorem work_held {replies : Nat → SyncReplies} (hstop : stop - zone ≠ -1) {n : Nat} :
    ∀ {w : BackfillRun}, Held c unique zone tableA tableB start stop w →
    Held c unique zone tableA tableB start stop
      (w.work c zone (fun i => (replies i).keyed unique) n) := by
  induction n with
  | zero => exact fun h => h
  | succ n ih =>
    intro w h
    unfold BackfillRun.work
    split
    · rename_i hrunning
      exact ih (step_held hrunning hstop h)
    · exact h

/-- The cursor gets closer to the end in each round after which the worker goes on. -/
theorem step_advances {w : BackfillRun} {replies : SyncReplies}
    (h : (w.step c zone replies).task.status = .running) :
    (w.step c zone replies).task.endTime = w.task.endTime ∧
    w.task.cursorTime < (w.step c zone replies).task.cursorTime ∧
    (w.step c zone replies).task.cursorTime ≤ w.task.endTime := by
  unfold BackfillRun.step at h ⊢
  by_cases hcancel : w.task.cancelRequested = true
  · rw [if_pos hcancel] at h
    cases h
  · rw [if_neg hcancel] at h ⊢
    cases hnext : nextDate zone c.job.chunkSeconds w.task.cursorTime w.task.endTime with
    | none =>
      rw [hnext] at h
      cases h
    | some next =>
      rw [hnext] at h
      dsimp only at h ⊢
      rw [add_status] at h
      split at h
      · rename_i hok
        rw [add_ok hok]
        obtain ⟨hlt, hmin, -⟩ := next_some hnext
        have hpos := c.job.chunkSeconds_pos
        dsimp only
        omega
      · cases h

theorem work_ends {replies : Nat → SyncReplies} {k : Nat} : ∀ {w : BackfillRun},
    (w.task.endTime - w.task.cursorTime).toNat < k →
    ∃ n, (w.work c zone replies n).task.status ≠ .running := by
  induction k with
  | zero =>
    intro w h
    omega
  | succ k ih =>
    intro w h
    by_cases hrunning : w.task.status = .running
    · by_cases hstep : (w.step c zone (replies w.ranges.length)).task.status = .running
      · obtain ⟨h1, h2, h3⟩ := step_advances hstep
        obtain ⟨n, hn⟩ := @ih (w.step c zone (replies w.ranges.length)) (by omega)
        refine ⟨n + 1, ?_⟩
        unfold BackfillRun.work
        rw [if_pos hrunning]
        exact hn
      · refine ⟨1, ?_⟩
        unfold BackfillRun.work
        rw [if_pos hrunning]
        exact hstep
    · exact ⟨0, hrunning⟩

/-! ## The rows of all chunks -/

/-- The rows of the run over the whole range; a refused run inserts none. -/
structure WholeInserts (c : SyncCall) (unique : Side → Bool) (tableA tableB : List SyncRow)
    (start stop : Int) (rows : Side → List SyncRow) : Prop where
  nodup : ∀ side, (rows side).Nodup
  mem : ∀ side r, r ∈ rows side ↔ ¬ (c.over (start, stop)).Refused tableA tableB ∧
    c.writes side = true ∧ Lone (c.over (start, stop)) unique tableA tableB side r ∧
    IsLast (side.other.pick tableA tableB) r

theorem nodup_chunkInserts {w : BackfillRun} {m : Nat}
    (h : Worked c unique zone tableA tableB start stop w m) (side : Side) :
    (chunkInserts c unique tableA tableB w.ranges side).Nodup := by
  unfold chunkInserts
  rw [List.nodup_flatMap]
  refine ⟨fun range _ => nodup_inserts side, ?_⟩
  rw [h.ranges, List.pairwise_map]
  refine List.pairwise_lt_range.imp fun {i j} hij r hi hj => ?_
  have hsi := selects_over.1 (SyncCall.mem_latest.1 (mem_inserts.1 hi).2.1.latest).2.1
  have hsj := selects_over.1 (SyncCall.mem_latest.1 (mem_inserts.1 hj).2.1.latest).2.1
  have hle := chunkRange_le start stop c.job.chunkSeconds_pos hij
  have hj : (chunkRange start stop c.job.chunkSeconds j).1 = start + j * c.job.chunkSeconds := rfl
  unfold second at hsi hsj
  omega

/-- After all chunks each range is that of a chunk. -/
theorem mem_ranges {w : BackfillRun} {m : Nat}
    (h : Worked c unique zone tableA tableB start stop w m) (hend : w.task.cursorTime = stop)
    {range : Int × Int} : range ∈ w.ranges ↔ ∃ i : Nat, start + i * c.job.chunkSeconds < stop ∧
      range = chunkRange start stop c.job.chunkSeconds i := by
  rw [h.ranges, List.mem_map]
  constructor
  · intro ⟨i, hi, hrange⟩
    exact ⟨i, (h.begins i (List.mem_range.1 hi)).1, hrange.symm⟩
  · intro ⟨i, hlt, hrange⟩
    refine ⟨i, List.mem_range.2 ?_, hrange.symm⟩
    have hcursor := h.cursor
    have hmul : (i : Int) * c.job.chunkSeconds < m * c.job.chunkSeconds := by omega
    have hcast := Int.lt_of_mul_lt_mul_right hmul c.job.chunkSeconds_pos.le
    omega

theorem chunks_perm_iff {w : BackfillRun} {m : Nat} {rows : Side → List SyncRow}
    (h : Worked c unique zone tableA tableB start stop w m) (hend : w.task.cursorTime = stop)
    (hrows : WholeInserts c unique tableA tableB start stop rows) :
    (∀ side, (chunkInserts c unique tableA tableB w.ranges side).Perm (rows side)) ↔
      ∀ side, chunkInserts c unique tableA tableB w.ranges side ⊆ rows side := by
  refine ⟨fun hperm side => (hperm side).subset, fun hsub side => ?_⟩
  rw [List.perm_ext_iff_of_nodup (nodup_chunkInserts h side) (hrows.nodup side)]
  refine fun r => ⟨fun hr => hsub side hr, fun hr => ?_⟩
  -- a row that is lone in the whole range is lone in its chunk
  obtain ⟨-, hw, hlone, hlast⟩ := (hrows.mem side r).1 hr
  have hsel := (selects_over.1 (SyncCall.mem_latest.1 hlone.latest).2.1).1
  dsimp only at hsel
  unfold second at hsel
  obtain ⟨i, hlt, h1, h2⟩ := @exists_chunk start stop _ (r.time / 1000000) c.job.chunkSeconds_pos
    (by omega) (by omega)
  have hnonneg : 0 ≤ (i : Int) * c.job.chunkSeconds :=
    Int.mul_nonneg (by omega) c.job.chunkSeconds_pos.le
  have hlo : start ≤ (chunkRange start stop c.job.chunkSeconds i).1 := by
    unfold chunkRange
    dsimp only
    omega
  have hhi : (chunkRange start stop c.job.chunkSeconds i).2 ≤ stop := by
    unfold chunkRange
    dsimp only
    omega
  refine List.mem_flatMap.2 ⟨_, (mem_ranges h hend).2 ⟨i, hlt, rfl⟩, mem_inserts.2 ⟨hw, ?_, hlast⟩⟩
  refine hlone.narrow hlo hhi ?_
  unfold second
  omega

theorem chunks_subset_iff {w : BackfillRun} {m : Nat} {rows : Side → List SyncRow}
    (h : Worked c unique zone tableA tableB start stop w m) (hend : w.task.cursorTime = stop)
    (hrows : WholeInserts c unique tableA tableB start stop rows) :
    (∀ side, chunkInserts c unique tableA tableB w.ranges side ⊆ rows side) ↔
      Seamless c unique zone tableA tableB start stop := by
  constructor
  · intro hsub
    refine ⟨fun i hlt => ?_, fun side hw i hlt r hlone => ?_⟩
    · obtain ⟨j, hj, heq⟩ := List.mem_map.1 (h.ranges ▸ (mem_ranges h hend).2 ⟨i, hlt, rfl⟩)
      have hbegin := (h.begins j (List.mem_range.1 hj)).2
      have hfirst := congrArg Prod.fst heq
      unfold chunkRange at hfirst
      dsimp only at hfirst
      rw [← hfirst]
      exact hbegin
    · obtain ⟨r', hlone', hlast, htime, hitem⟩ := hlone.last
      have hmem : r' ∈ chunkInserts c unique tableA tableB w.ranges side :=
        List.mem_flatMap.2 ⟨_, (mem_ranges h hend).2 ⟨i, hlt, rfl⟩,
          mem_inserts.2 ⟨hw, hlone', hlast⟩⟩
      obtain ⟨hnot, -, hwhole, -⟩ := (hrows.mem side r').1 (hsub side hmem)
      exact ⟨hnot, hwhole.alike (SyncCall.mem_latest.1 hlone.latest).1 htime.symm hitem.symm⟩
  · intro hseamless side r hr
    obtain ⟨range, hrange, hr⟩ := List.mem_flatMap.1 hr
    obtain ⟨i, hlt, rfl⟩ := (mem_ranges h hend).1 hrange
    obtain ⟨hw, hlone, hlast⟩ := mem_inserts.1 hr
    obtain ⟨hnot, hwhole⟩ := hseamless.lone side hw i hlt r hlone
    exact (hrows.mem side r).2 ⟨hnot, hw, hwhole, hlast⟩

/-! ## Agreement -/

/-- The run over the whole range, where only unique keys reject a row. -/
def wholeRun (c : SyncCall) (unique : Side → Bool) (tableA tableB : List SyncRow)
    (start stop : Int) : SyncResult :=
  (c.over (start, stop)).run (SyncReplies.keyed {} unique) false tableA tableB

/-- What the run over the whole range inserts. -/
theorem wholeRun_inserts (c : SyncCall) (unique : Side → Bool) (tableA tableB : List SyncRow)
    (start stop : Int) : ∃ rows : Side → List SyncRow,
      WholeInserts c unique tableA tableB start stop rows ∧
      (∀ side : Side, (wholeRun c unique tableA tableB start stop).table side =
        side.pick tableA tableB ++ rows side) ∧
      (wholeRun c unique tableA tableB start stop).counts.aToB = (rows .b).length ∧
      (wholeRun c unique tableA tableB start stop).counts.bToA = (rows .a).length ∧
      (wholeRun c unique tableA tableB start stop).counts.inserted =
        (rows .b).length + (rows .a).length := by
  by_cases hrefused : (c.over (start, stop)).Refused tableA tableB
  · have hload := refused_load hrefused (SyncReplies.keyed {} unique)
    obtain ⟨⟨error, examined⟩, hload⟩ := hload
    refine ⟨fun _ => [], ⟨fun _ => List.nodup_nil, fun side r => ?_⟩, fun side => ?_, ?_⟩
    · simp [hrefused]
    · unfold wholeRun SyncCall.run
      rw [hload]
      cases side <;> simp [SyncResult.table, Side.pick]
    · unfold wholeRun SyncCall.run
      rw [hload]
      exact ⟨rfl, rfl, rfl⟩
  · have hok : (wholeRun c unique tableA tableB start stop).ok = true :=
      run_accepted (fun s a b => (keyOutcome_keyed {} s a b).1) hrefused
    have hins := inserted_of_ok hok
    refine ⟨(c.over (start, stop)).inserts unique tableA tableB,
      ⟨fun side => nodup_inserts side, fun side r => ?_⟩, hins.table, hins.aToB, hins.bToA,
      hins.inserted⟩
    rw [mem_inserts]
    exact ⟨fun h => ⟨hrefused, h⟩, fun h => h.2⟩

/-- A worker that has completed its task agrees with the run over the whole range if no chunk is
missed and no row is lone in its chunk only. -/
theorem completed_agrees_iff {w : BackfillRun} {m : Nat}
    (h : Worked c unique zone tableA tableB start stop w m)
    (hend : w.task.cursorTime - zone = -1 ∨ stop ≤ w.task.cursorTime) :
    BackfillAgrees w (wholeRun c unique tableA tableB start stop) ↔
      Seamless c unique zone tableA tableB start stop := by
  obtain ⟨rows, hrows, htable, haToB, hbToA, hinserted⟩ :=
    wholeRun_inserts c unique tableA tableB start stop
  by_cases hcursor : w.task.cursorTime = stop
  · have hiff := (chunks_perm_iff h hcursor hrows).trans (chunks_subset_iff h hcursor hrows)
    rw [← hiff]
    constructor
    · intro hagrees side
      have hperm := hagrees.tables side
      rw [htable, h.table] at hperm
      exact (List.perm_append_left_iff _).1 hperm
    · intro hperm
      have ha := (hperm .a).length_eq
      have hb := (hperm .b).length_eq
      refine ⟨?_, fun side => ?_, ?_, ?_, ?_⟩
      · rw [h.startTime, h.endTime, ← hcursor]
        exact h.tiles
      · rw [htable, h.table]
        exact (hperm side).append_left _
      · rw [h.inserted, hinserted, ha, hb]
      · rw [h.aToB, haToB, hb]
      · rw [h.bToA, hbToA, ha]
  · -- the worker stopped at the refused date
    have hmin := h.cursor
    have hlt : start + m * c.job.chunkSeconds < stop := by omega
    constructor
    · intro hagrees
      have htiles := hagrees.tiles
      rw [h.startTime, h.endTime] at htiles
      exact absurd (h.tiles.unique htiles) hcursor
    · intro hseamless
      have hbegin := hseamless.begins m hlt
      omega

/-- Every backfill ends. A completed one has compared the whole range in chunks without gaps, and
did what one run over the range does, exactly if no row is lone in its chunk only. -/
theorem backfill_agrees_iff (c : SyncCall) (unique : Side → Bool) (zone : Int)
    (tableA tableB : List SyncRow) {id syncJobId : String} {start stop : Int} {task : BackfillTask}
    (hcreate : BackfillTask.create zone id syncJobId start stop = some task)
    (replies : Nat → SyncReplies) :
    let work := BackfillRun.work c zone (fun i => (replies i).keyed unique)
    let first : BackfillRun :=
      { task := { task with workerRunning := true }, a := tableA, b := tableB }
    (∃ n, (work n first).task.status ≠ .running) ∧
    ∀ n, (work n first).task.status = .complete →
      (BackfillAgrees (work n first) (wholeRun c unique tableA tableB start stop) ↔
        Seamless c unique zone tableA tableB start stop) := by
  intro work first
  obtain ⟨rfl, hlt, hstart, hstop⟩ := create_some hcreate
  refine ⟨work_ends (Nat.lt_succ_self _), fun n hcomplete => ?_⟩
  have hfirst : Held c unique zone tableA tableB start stop first :=
    ⟨fun _ => ⟨0, worked_start rfl rfl rfl hlt rfl ⟨rfl, rfl, rfl⟩⟩, fun h => by cases h⟩
  obtain ⟨m, hm, hend⟩ := (work_held hstop hfirst).complete hcomplete
  exact completed_agrees_iff hm hend

end

/-! ## A minute that is cut -/

section

@[reducible] def sixText : PeriodText := ⟨fun _ => "2024-01-01 06:00:00"⟩

attribute [local instance] sixText

/-- A job in both directions, in periods of a minute. -/
def minuteCall : SyncCall :=
  { hourlyCall with
    job := { hourlyJob with matchIntervalMinutes := 1, bidirectional := true }
    type := fun _ => .mysql }

/-- Rows of one minute: 2024-01-01 06:00:10 and 06:00:50. -/
def minuteRow (seconds : Int) : SyncRow :=
  { time := (1704088800 + seconds) * second, item := "level", values := [some "7"] }

def minuteTask (start : Int) : BackfillTask :=
  { id := "backfill_1", syncJobId := "sync", startTime := start, endTime := start + 43200
    cursorTime := start }

/-- The worker after three rounds. -/
def minuteBackfill (start : Int) : BackfillRun :=
  BackfillRun.work minuteCall 0 (fun _ => SyncReplies.keyed {} fun _ => false) 3
    { task := { minuteTask start with workerRunning := true }
      a := [minuteRow 10], b := [minuteRow 50] }

/-- Chunks that begin at a full minute. -/
theorem minuteBackfill_agrees_iff :
    (minuteBackfill 1704067200).task.status = .complete ∧
    (BackfillAgrees (minuteBackfill 1704067200) (wholeRun minuteCall (fun _ => false)
        [minuteRow 10] [minuteRow 50] 1704067200 1704110400) ↔
      Seamless minuteCall (fun _ => false) 0 [minuteRow 10] [minuteRow 50] 1704067200
        1704110400) := by
  have hcomplete : (minuteBackfill 1704067200).task.status = .complete := by decide +kernel
  have hcreate : BackfillTask.create 0 "backfill_1" "sync" 1704067200 1704110400 =
      some (minuteTask 1704067200) := by decide +kernel
  exact ⟨hcomplete, (backfill_agrees_iff minuteCall (fun _ => false) 0 [minuteRow 10]
    [minuteRow 50] hcreate fun _ => {}).2 3 hcomplete⟩

/-- A backfill from half a minute on: the first chunk ends between the two rows, and each side gets
the row of the other one. -/
theorem minute_cut :
    BackfillTask.create 0 "backfill_1" "sync" 1704067230 1704110430 =
      some (minuteTask 1704067230) ∧
    (minuteBackfill 1704067230).task.status = .complete ∧
    ¬ BackfillAgrees (minuteBackfill 1704067230) (wholeRun minuteCall (fun _ => false)
      [minuteRow 10] [minuteRow 50] 1704067230 1704110430) := by
  refine ⟨by decide +kernel, by decide +kernel, fun h => ?_⟩
  exact absurd h.inserted (by decide +kernel)

end

end OpcBridge.Logger
