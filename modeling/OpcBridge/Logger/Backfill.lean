import OpcBridge.Logger.Sync

/-!
# Backfills

A backfill compares the range of a task in chunks, one run of `run_sync_job_v2` after the other. A
date is given by its seconds of the wall clock, without daylight saving: `zone` are the seconds by
which the wall clock is ahead. What a task only displays is left out. `ranges` is not in the
program: the ranges of the runs.
-/

namespace OpcBridge.Logger

open OpcBridge

/-! ## Tasks -/

inductive BackfillStatus
  | running
  | complete
  | failed
  | cancelled
  deriving DecidableEq

structure BackfillTask where
  id : String
  syncJobId : String
  startTime : Int
  endTime : Int
  cursorTime : Int
  status : BackfillStatus := .running
  workerRunning : Bool := false
  cancelRequested : Bool := false
  chunksCompleted : Nat := 0
  recordsExamined : Nat := 0
  recordsSelected : Nat := 0
  inserted : Nat := 0
  skipped : Nat := 0
  failed : Nat := 0
  aToB : Nat := 0
  bToA : Nat := 0
  lastError : String := ""
  deriving DecidableEq

/-- `datetime_to_epoch`: -1 is the error of `mktime`. -/
def datetimeToEpoch (zone date : Int) : Option Int :=
  if date - zone = -1 then none else some (date - zone)

def epochToDatetime (zone epoch : Int) : Int := epoch + zone

/-- The task of `start_backfill`, unless the dates are refused. -/
def BackfillTask.create (zone : Int) (id syncJobId : String) (start stop : Int) :
    Option BackfillTask :=
  match datetimeToEpoch zone start, datetimeToEpoch zone stop with
  | some startEpoch, some endEpoch =>
    if endEpoch ≤ startEpoch then none
    else some {
      id, syncJobId
      startTime := epochToDatetime zone startEpoch
      endTime := epochToDatetime zone endEpoch
      cursorTime := epochToDatetime zone startEpoch }
  | _, _ => none

def SyncJob.chunkSeconds (job : SyncJob) : Int :=
  if job.matchIntervalMinutes ≤ 1 then 6 * 3600
  else if job.matchIntervalMinutes = 60 then 7 * 86400 else 31 * 86400

/-! ## The worker -/

/-- The end of the chunk at a cursor, or none where the worker completes the task. -/
def nextDate (zone chunk cursor stop : Int) : Option Int :=
  match datetimeToEpoch zone cursor, datetimeToEpoch zone stop with
  | some cursorEpoch, some endEpoch =>
    if endEpoch ≤ cursorEpoch then none
    else some (epochToDatetime zone (min endEpoch (cursorEpoch + chunk)))
  | _, _ => none

namespace BackfillTask

def cancelled (t : BackfillTask) : BackfillTask :=
  { t with status := .cancelled, workerRunning := false }

def completed (t : BackfillTask) : BackfillTask :=
  { t with status := .complete, workerRunning := false }

/-- The section after a run. -/
def add (t : BackfillTask) (next : Int) (result : SyncResult) : BackfillTask :=
  let t := { t with
    recordsExamined := t.recordsExamined + result.counts.examined
    recordsSelected := t.recordsSelected + result.counts.selected
    inserted := t.inserted + result.counts.inserted
    skipped := t.skipped + result.counts.skipped
    failed := t.failed + result.counts.failed
    aToB := t.aToB + result.counts.aToB
    bToA := t.bToA + result.counts.bToA }
  if result.ok then { t with cursorTime := next, chunksCompleted := t.chunksCompleted + 1 }
  else { t with status := .failed, workerRunning := false, lastError := result.error }

end BackfillTask

section
variable {t : BackfillTask} {zone chunk cursor stop : Int}

theorem SyncJob.chunkSeconds_pos (job : SyncJob) : 0 < job.chunkSeconds := by
  unfold SyncJob.chunkSeconds
  split
  · decide
  · split <;> decide

theorem next_some {next : Int} (h : nextDate zone chunk cursor stop = some next) :
    cursor < stop ∧ next = min stop (cursor + chunk) ∧ cursor - zone ≠ -1 := by
  unfold nextDate datetimeToEpoch epochToDatetime at h
  by_cases hcursor : cursor - zone = -1
  · simp [hcursor] at h
  · by_cases hend : stop - zone = -1
    · simp [hcursor, hend] at h
    · simp only [hcursor, hend, if_false] at h
      split at h
      · cases h
      · cases h
        exact ⟨by omega, by omega, hcursor⟩

theorem next_none (hend : stop - zone ≠ -1) (h : nextDate zone chunk cursor stop = none) :
    cursor - zone = -1 ∨ stop ≤ cursor := by
  unfold nextDate datetimeToEpoch epochToDatetime at h
  by_cases hcursor : cursor - zone = -1
  · exact .inl hcursor
  · simp only [hcursor, hend, if_false] at h
    split at h
    · exact .inr (by omega)
    · cases h

theorem add_ok {next : Int} {result : SyncResult} (hok : result.ok = true) :
    t.add next result = { t with
      recordsExamined := t.recordsExamined + result.counts.examined
      recordsSelected := t.recordsSelected + result.counts.selected
      inserted := t.inserted + result.counts.inserted
      skipped := t.skipped + result.counts.skipped
      failed := t.failed + result.counts.failed
      aToB := t.aToB + result.counts.aToB
      bToA := t.bToA + result.counts.bToA
      cursorTime := next
      chunksCompleted := t.chunksCompleted + 1 } := by
  unfold BackfillTask.add
  dsimp only
  rw [hok, if_pos rfl]

theorem add_failed {next : Int} {result : SyncResult} (hok : result.ok ≠ true) :
    t.add next result = { t with
      recordsExamined := t.recordsExamined + result.counts.examined
      recordsSelected := t.recordsSelected + result.counts.selected
      inserted := t.inserted + result.counts.inserted
      skipped := t.skipped + result.counts.skipped
      failed := t.failed + result.counts.failed
      aToB := t.aToB + result.counts.aToB
      bToA := t.bToA + result.counts.bToA
      status := .failed
      workerRunning := false
      lastError := result.error } := by
  unfold BackfillTask.add
  dsimp only
  rw [if_neg hok]

theorem add_status (t : BackfillTask) (next : Int) (result : SyncResult) :
    (t.add next result).status = if result.ok = true then t.status else .failed := by
  unfold BackfillTask.add
  dsimp only
  split <;> rfl

theorem create_some {id syncJobId : String} {start : Int}
    (h : BackfillTask.create zone id syncJobId start stop = some t) :
    t = { id, syncJobId, startTime := start, endTime := stop, cursorTime := start } ∧
      start < stop ∧ start - zone ≠ -1 ∧ stop - zone ≠ -1 := by
  unfold BackfillTask.create datetimeToEpoch epochToDatetime at h
  by_cases hstart : start - zone = -1
  · simp [hstart] at h
  · by_cases hstop : stop - zone = -1
    · simp [hstart, hstop] at h
    · simp only [hstart, hstop, if_false] at h
      split at h
      · cases h
      · cases h
        refine ⟨?_, by omega, hstart, hstop⟩
        simp

end

/-- The call for a range of dates. -/
def SyncCall.over (c : SyncCall) (range : Int × Int) : SyncCall :=
  { c with range := some (range.1 * second, range.2 * second) }

/-- A task whose worker runs, and the two tables. -/
structure BackfillRun where
  task : BackfillTask
  a : List SyncRow
  b : List SyncRow
  ranges : List (Int × Int) := []

def BackfillRun.table (w : BackfillRun) : Side → List SyncRow
  | .a => w.a
  | .b => w.b

section
variable [PeriodText]

/-- One round of the worker. -/
def BackfillRun.step (c : SyncCall) (zone : Int) (replies : SyncReplies) (w : BackfillRun) :
    BackfillRun :=
  if w.task.cancelRequested then { w with task := w.task.cancelled }
  else
    match nextDate zone c.job.chunkSeconds w.task.cursorTime w.task.endTime with
    | none => { w with task := w.task.completed }
    | some next =>
      let result := (c.over (w.task.cursorTime, next)).run replies false w.a w.b
      { task := w.task.add next result, a := result.a, b := result.b
        ranges := w.ranges ++ [(w.task.cursorTime, next)] }

/-- The worker of `start_backfill_async`, with the answers to each run. -/
def BackfillRun.work (c : SyncCall) (zone : Int) (replies : Nat → SyncReplies) :
    Nat → BackfillRun → BackfillRun
  | 0, w => w
  | n + 1, w =>
    if w.task.status = .running then
      work c zone replies n (w.step c zone (replies w.ranges.length))
    else w

end

/-! ## Databases with keys -/

def alike (row r : SyncRow) : Bool := r.time = row.time ∧ r.item = row.item

/-- The row is there already, on a side with a unique key of the time and the item. -/
def duplicate (unique : Side → Bool) (side : Side) (table : List SyncRow) (row : SyncRow) : Bool :=
  unique side && table.any (alike row)

/-- Answers that reject a row only where a unique key does. -/
def SyncReplies.keyed (replies : SyncReplies) (unique : Side → Bool) : SyncReplies :=
  { replies with
    rejects := fun side table row =>
      if duplicate unique side table row then some "Duplicate entry" else none }

end OpcBridge.Logger
