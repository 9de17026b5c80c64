import OpcBridge.Logger.Backfill
import OpcBridge.Logger.Runs

/-!
# The life cycle of backfills

The sections of `start_backfill`, `start_backfill_async`, of its worker and of `cancel_backfill`,
beside the runs of the service. A save copies the state under the lock and writes the file later; a
restart keeps the file only. A task is in the map under its id.

What is asked of a run are `LifeSound` for its states and `Faithful` for its steps; `Admits` is the
condition on a step under which both hold (`backfill_life`).

`reported`, `requested` and `late` are not in the program: the chunks of a task that have reported
success, the tasks whose cancellation was accepted, and those of them for which a chunk was begun
afterwards.
-/

namespace OpcBridge.Logger

open Lib OpcBridge

/-! ## State -/

/-- `std::map<std::string, BackfillTask>` -/
structure TaskMap where
  get : String → Option BackfillTask := fun _ => none
  ids : List String := []
  listed : ∀ id, (get id).isSome = true → id ∈ ids := by simp

/-- A thread of `start_backfill_async`, with the cursor and the end that it has read. -/
structure BackfillWorker where
  task : String
  job : String
  chunk : Int
  chunkPos : 0 < chunk
  read : Option (Int × Int) := none

/-- What the state file keeps. -/
structure SavedState where
  tasks : TaskMap := {}
  statuses : Table RunStatus := fun _ _ => none

structure BackfillState where
  runs : RunState := {}
  tasks : TaskMap := {}
  workers : List BackfillWorker := []
  /-- The saves that are not written yet. -/
  saves : List SavedState := []
  file : SavedState := {}
  reported : String → List (Int × Int) := fun _ => []
  requested : List String := []
  late : List String := []

inductive BackfillStep
  /-- A step of the runs; whether a backfill is running is read from the tasks. -/
  | runs (step : RunStep)
  | startBackfill (syncJobId : String) (start stop now : Int)
  /-- The section of `start_backfill_async`, for a request or for the scheduler, with the
  configuration of the job. -/
  | startAsync (id : String) (job : SyncJob)
  /-- The first section of a round of a worker. -/
  | look (i : Nat)
  /-- The section after the run of the chunk, or that completes the task. -/
  | finish (i : Nat) (result : SyncResult)
  | cancel (id : String)
  | save
  | write (i : Nat)
  /-- `load_runtime_state` of a new process, and its first reload. -/
  | restart (databases : List String) (entries : List (RunKind × String × RunConfig))

/-! ## Tasks -/

namespace TaskMap

def put (m : TaskMap) (id : String) (t : BackfillTask) : TaskMap where
  get := Function.update m.get id (some t)
  ids := id :: m.ids
  listed := by
    intro id' h
    by_cases he : id' = id
    · exact he ▸ List.mem_cons_self ..
    · rw [Function.update_of_ne he] at h
      exact List.mem_cons_of_mem _ (m.listed id' h)

/-- `has_running_backfill_locked` -/
def hasRunning (m : TaskMap) (syncJobId : String) : Bool :=
  m.ids.any fun id => (m.get id).any fun t => t.syncJobId = syncJobId ∧ t.status = .running

/-- The tasks of the file; no worker runs. -/
def load (m : TaskMap) : TaskMap where
  get id := (m.get id).bind fun t =>
    if t.id = "" ∨ t.syncJobId = "" then none else some { t with workerRunning := false }
  ids := m.ids
  listed := by
    intro id h
    apply m.listed id
    cases hget : m.get id with
    | none =>
      rw [hget] at h
      cases h
    | some t => rfl

end TaskMap

/-! ## Steps -/

/-- `"backfill_" + std::to_string(now_ms())` -/
def backfillId (now : Int) : String := "backfill_" ++ toString now

/-- What is saved of a status; the statuses of the data checks are not saved. -/
def savedStatuses (statuses : Table RunStatus) : Table RunStatus := fun k id =>
  if k = .dataCheck then none
  else (statuses k id).map fun st => { st with running := false, nextRunMs := 0 }

section
variable [Calendar]

namespace BackfillState

/-- `start_backfill`; the route has no empty job id. -/
def startBackfill (s : BackfillState) (zone : Int) (syncJobId : String) (start stop now : Int) :
    BackfillState :=
  match BackfillTask.create zone (backfillId now) syncJobId start stop with
  | none => s
  | some t =>
    if syncJobId = "" ∨ (s.runs.config .sync syncJobId).isNone then s
    else if s.tasks.hasRunning syncJobId then s
    else
      { s with
        tasks := s.tasks.put (backfillId now) t
        reported := Function.update s.reported (backfillId now) []
        requested := s.requested.filter (· ≠ backfillId now) }

def startAsync (s : BackfillState) (id : String) (job : SyncJob) : BackfillState :=
  match s.tasks.get id with
  | none => s
  | some t =>
    if t.status ≠ .running ∨ t.workerRunning then s
    else
      let failed (error : String) : BackfillState :=
        { s with tasks := s.tasks.put id { t with status := .failed, lastError := error } }
      match s.runs.config .sync t.syncJobId with
      | none => failed "Sync job no longer exists"
      | some cfg =>
        if cfg.databases.any fun d => d ∉ s.runs.databases then
          failed "Database connection no longer exists"
        else
          { s with
            tasks := s.tasks.put id { t with workerRunning := true }
            workers := s.workers ++
              [{ task := id, job := t.syncJobId, chunk := job.chunkSeconds
                 chunkPos := job.chunkSeconds_pos }] }

def look (s : BackfillState) (zone : Int) (i : Nat) (w : BackfillWorker) : BackfillState :=
  match s.tasks.get w.task with
  | none => { s with workers := s.workers.eraseIdx i }
  | some t =>
    if t.cancelRequested then
      { s with tasks := s.tasks.put w.task t.cancelled, workers := s.workers.eraseIdx i }
    else
      { s with
        workers := s.workers.set i { w with read := some (t.cursorTime, t.endTime) }
        late :=
          if w.task ∈ s.requested ∧ (nextDate zone w.chunk t.cursorTime t.endTime).isSome then
            s.late ++ [w.task]
          else s.late }

/-- The worker goes on if the run of the chunk has reported success. -/
def finish (s : BackfillState) (zone : Int) (i : Nat) (w : BackfillWorker) (cursor stop : Int)
    (result : SyncResult) : BackfillState :=
  match s.tasks.get w.task with
  -- a task is never erased
  | none => { s with workers := s.workers.eraseIdx i }
  | some t =>
    match nextDate zone w.chunk cursor stop with
    | none => { s with tasks := s.tasks.put w.task t.completed, workers := s.workers.eraseIdx i }
    | some next =>
      if result.ok then
        { s with
          tasks := s.tasks.put w.task (t.add next result)
          workers := s.workers.set i { w with read := none }
          reported := Function.update s.reported w.task (s.reported w.task ++ [(cursor, next)]) }
      else
        { s with
          tasks := s.tasks.put w.task (t.add next result), workers := s.workers.eraseIdx i }

def cancel (s : BackfillState) (id : String) : BackfillState :=
  match s.tasks.get id with
  | none => s
  | some t =>
    if t.status = .running then
      { s with
        tasks := s.tasks.put id { t with cancelRequested := true }
        requested := s.requested ++ [id] }
    else s

/-- Whether a backfill is running is read from the tasks. -/
def readTasks (s : BackfillState) : RunStep → RunStep
  | .start k id _ => .start k id (s.tasks.hasRunning id)
  | .tick now _ => .tick now s.tasks.hasRunning
  | step => step

def step (zone : Int) (s : BackfillState) : BackfillStep → BackfillState
  | .runs step => { s with runs := s.runs.step (s.readTasks step) }
  | .startBackfill syncJobId start stop now => s.startBackfill zone syncJobId start stop now
  | .startAsync id job => s.startAsync id job
  | .look i =>
    match s.workers[i]? with
    | some w => if w.read = none then s.look zone i w else s
    | none => s
  | .finish i result =>
    match s.workers[i]? with
    | some w =>
      match w.read with
      | some (cursor, stop) => s.finish zone i w cursor stop result
      | none => s
    | none => s
  | .cancel id => s.cancel id
  | .save =>
    { s with saves := s.saves ++ [{ tasks := s.tasks, statuses := savedStatuses s.runs.statuses }] }
  | .write i =>
    match s.saves[i]? with
    | some saved => { s with file := saved, saves := s.saves.eraseIdx i }
    | none => s
  | .restart databases entries =>
    { s with
      runs := .boot s.file.statuses { databases, todo := entries }
      tasks := s.file.tasks.load
      workers := []
      saves := [] }

end BackfillState

end

/-! ## What is asked of a run -/

/-- The dates that chunks lead to from the first one. -/
inductive ReachedBy (chunks : List (Int × Int)) (start : Int) : Int → Prop
  | start : ReachedBy chunks start start
  | chunk {cursor next : Int} (h : ReachedBy chunks start cursor) (hc : (cursor, next) ∈ chunks) :
      ReachedBy chunks start next

/-- The sync jobs of the runs. -/
def syncIds (workers : List (RunKind × String)) : List String :=
  workers.filterMap fun w => if w.1 = .sync then some w.2 else none

/-- The sync jobs that the workers of this process work on. -/
def BackfillState.working (s : BackfillState) : List String :=
  syncIds s.runs.workers ++ s.workers.map (·.job)

/-- The same task, not behind where it was; an ended one stays as it is. -/
structure BackfillTask.Continues (t t' : BackfillTask) : Prop where
  syncJobId : t'.syncJobId = t.syncJobId
  id : t'.id = t.id
  startTime : t'.startTime = t.startTime
  endTime : t'.endTime = t.endTime
  cursorTime : t.cursorTime ≤ t'.cursorTime
  cancelRequested : t.cancelRequested = true → t'.cancelRequested = true
  ended : t.status ≠ .running → t' = t

structure BackfillState.LifeSound (s : BackfillState) : Prop where
  alone : s.working.Nodup
  reached : ∀ id t, s.tasks.get id = some t →
    ReachedBy (s.reported id) t.startTime t.cursorTime
  complete : ∀ id t, s.tasks.get id = some t → t.status = .complete →
    ReachedBy (s.reported id) t.startTime t.endTime
  attended : ∀ id t, s.tasks.get id = some t → t.status = .running → t.workerRunning = true →
    ∃ w ∈ s.workers, w.task = id
  quiet : s.late = []

section
variable [Calendar]

/-- The scheduler gives a waiting task a worker, which begins at the cursor of the task. -/
def BackfillState.Resumes (s : BackfillState) (zone : Int) : Prop :=
  ∀ id t cfg job, s.tasks.get id = some t → t.status = .running → t.workerRunning = false →
    s.runs.config .sync t.syncJobId = some cfg → (∀ d ∈ cfg.databases, d ∈ s.runs.databases) →
    ∃ w, (s.step zone (.startAsync id job)).workers = s.workers ++ [w] ∧ w.task = id ∧
      (t.cancelRequested = false →
        ((s.step zone (.startAsync id job)).step zone (.look s.workers.length)).workers =
          s.workers ++ [{ w with read := some (t.cursorTime, t.endTime) }])

/-- No step overwrites a task or puts it back; a restart goes on with the tasks of the file. -/
def BackfillState.Faithful (zone : Int) (s : BackfillState) (step : BackfillStep) : Prop :=
  match step with
  | .restart .. =>
    (∀ id t, s.file.tasks.get id = some t →
      (s.step zone step).tasks.get id = some { t with workerRunning := false }) ∧
    (s.step zone step).Resumes zone
  | _ => ∀ id t, s.tasks.get id = some t →
    ∃ t', (s.step zone step).tasks.get id = some t' ∧ t.Continues t'

/-- `start_backfill` adds a task. -/
def BackfillState.Accepts (s : BackfillState) (zone : Int) (syncJobId : String)
    (start stop now : Int) : Prop :=
  (BackfillTask.create zone (backfillId now) syncJobId start stop).isSome ∧ syncJobId ≠ "" ∧
    (s.runs.config .sync syncJobId).isSome ∧ s.tasks.hasRunning syncJobId = false

/-- An added task has a new id and its job is not running, a worker does not read the date that
`mktime` refuses, an installed reload knows the sync jobs that are running, and the cancelled tasks
are cancelled in the file of a restart. -/
def BackfillState.Admits (zone : Int) (s : BackfillState) : BackfillStep → Prop
  | .startBackfill syncJobId start stop now => s.Accepts zone syncJobId start stop now →
      (.sync, syncJobId) ∉ s.runs.workers ∧ s.tasks.get (backfillId now) = none
  | .look i => ∀ w t, s.workers[i]? = some w → s.tasks.get w.task = some t →
      t.cursorTime < t.endTime → t.cursorTime - zone ≠ -1
  | .runs (.install i) => ∀ r, s.runs.reloads[i]? = some r → ∀ id, (.sync, id) ∈ s.runs.workers →
      (r.config .sync id).isSome → ((r.statuses .sync id).getD {}).running = true
  | .restart .. => ∀ id ∈ s.requested, ∀ t, s.file.tasks.get id = some t → t.status = .running →
      t.cancelRequested = true
  | _ => True

end

end OpcBridge.Logger
