import Mathlib.Data.List.Count
import Mathlib.Data.List.Nodup
import Mathlib.Logic.Function.Basic
import OpcBridge.Lib.Run

/-!
# Runs and reloads of the logger

The log jobs, data checks and sync jobs of `LoggerService` run in threads of their own. A section
under the lock marks a run as running and starts its thread, another one counts it when it has
ended, and the scheduler goes over all statuses. `reload` copies the old status of each entry of the
configuration in a section of its own, and installs all copies in one section at the end.
`run_state_kept` says in which runs the statuses tell the truth.

The three kinds do the same under different names; each has its own maps. What a status only
displays of the last result is left out, and `next_from_calendar` is a parameter. A due run of the
scheduler is a start like one of a request. Whether a backfill of a sync job is running is given
with the step. `workers` are the threads that execute. `done` and `loaded` are not in the program:
the completed and the failed runs of an entry since it was configured, with those of the state file,
and that a configuration was installed.
-/

namespace OpcBridge.Logger

open Lib

/-! ## State -/

inductive RunKind
  | job
  | dataCheck
  | sync
  deriving DecidableEq

/-- `next_from_calendar`: whether the schedule is supported, and the next time. -/
class Calendar where
  next : String → Int → Bool × Int

/-- What a run needs of a `Job`, `DataCheck` or `SyncJob`. -/
structure RunConfig where
  enabled : Bool
  onCalendar : String
  /-- One database, or the source and the destination. -/
  databases : List String

structure RunStatus where
  enabled : Bool := false
  running : Bool := false
  supportedSchedule : Bool := false
  lastRunMs : Int := 0
  nextRunMs : Int := 0
  runsTotal : Nat := 0
  failuresTotal : Nat := 0
  lastError : String := ""

/-- The entries of one configuration, or their statuses. -/
abbrev Table (α : Type) := RunKind → String → Option α

def Table.put {α : Type} (t : Table α) (k : RunKind) (id : String) (a : α) : Table α :=
  Function.update t k (Function.update (t k) id (some a))

/-- A reload that is not installed yet, with the entries that it has not copied. -/
structure Reload where
  databases : List String
  todo : List (RunKind × String × RunConfig)
  config : Table RunConfig := fun _ _ => none
  statuses : Table RunStatus := fun _ _ => none

structure RunState where
  databases : List String := []
  config : Table RunConfig := fun _ _ => none
  statuses : Table RunStatus := fun _ _ => none
  workers : List (RunKind × String) := []
  reloads : List Reload := []
  done : RunKind → String → Nat × Nat := fun _ _ => (0, 0)
  loaded : Bool := false

/-- The loaded statuses of the state file before the first reload. -/
def RunState.boot (statuses : Table RunStatus) (first : Reload) : RunState :=
  { statuses := fun k id => (statuses k id).map fun st => { st with running := false }
    reloads := [first] }

inductive RunStep
  /-- `run_job_async`, `run_data_check_async` and `run_sync_async`. -/
  | start (k : RunKind) (id : String) (backfill : Bool)
  /-- `finish_job`, `finish_data_check` and `finish_sync`; `none` is no failure. -/
  | finish (k : RunKind) (id : String) (failure : Option String) (now : Int)
  /-- The section of `scheduler_loop`. -/
  | tick (now : Int) (backfill : String → Bool)
  | reload (databases : List String) (entries : List (RunKind × String × RunConfig))
  /-- The section for the old status of the next entry. -/
  | copy (i : Nat) (now : Int)
  /-- An entry with a parse error ends the reload. -/
  | abandon (i : Nat)
  | install (i : Nat)

/-! ## Steps -/

section
variable [Calendar]

def RunState.status (s : RunState) (k : RunKind) (id : String) : RunStatus :=
  (s.statuses k id).getD {}

/-- A status with the next run after `now`. -/
def RunStatus.schedule (st : RunStatus) (cfg : RunConfig) (now : Int) : RunStatus :=
  { st with
    supportedSchedule := (Calendar.next cfg.onCalendar now).1
    nextRunMs := if cfg.enabled && (Calendar.next cfg.onCalendar now).1 then
      (Calendar.next cfg.onCalendar now).2 else 0 }

def RunState.start (s : RunState) (k : RunKind) (id : String) (backfill : Bool) : RunState :=
  match s.config k id with
  | none => s
  | some cfg =>
    if cfg.databases.any fun d => d ∉ s.databases then s
    else if k = .sync ∧ backfill = true then s
    else
      let st := s.status k id
      if st.running then { s with statuses := s.statuses.put k id st }
      else
        { s with
          statuses := s.statuses.put k id { st with running := true, lastError := "" }
          workers := s.workers ++ [(k, id)] }

def RunStatus.finish (st : RunStatus) (k : RunKind) (cfg : Option RunConfig)
    (failure : Option String) (now : Int) : RunStatus :=
  let st := { st with
    running := false, lastRunMs := now, runsTotal := st.runsTotal + 1
    failuresTotal := st.failuresTotal + (if failure.isSome then 1 else 0)
    lastError := failure.getD "" }
  match cfg with
  | none => st
  | some cfg =>
    let st := st.schedule cfg now
    -- `finish_job` does not write `enabled`
    { st with enabled := if k = .job then st.enabled else cfg.enabled }

def RunStatus.tick (st : RunStatus) (cfg : RunConfig) (now : Int) (backfill : Bool) : RunStatus :=
  let st := { st with enabled := cfg.enabled }
  if !cfg.enabled || st.running then st
  else
    let st :=
      if st.nextRunMs ≤ 0 then
        { st with
          supportedSchedule := (Calendar.next cfg.onCalendar now).1
          nextRunMs := (Calendar.next cfg.onCalendar now).2 }
      else st
    -- an occurrence that a backfill covers is skipped
    if backfill && st.supportedSchedule && decide (0 < st.nextRunMs ∧ st.nextRunMs ≤ now) then
      st.schedule cfg now
    else st

/-- The new status of an entry. -/
def RunStatus.reload (st : RunStatus) (cfg : RunConfig) (now : Int) : RunStatus :=
  let st := { st with enabled := cfg.enabled }.schedule cfg now
  { st with
    lastError := if cfg.enabled && !st.supportedSchedule then
      "Unsupported schedule: " ++ cfg.onCalendar else st.lastError }

def RunState.copy (s : RunState) (r : Reload) (now : Int) : Reload :=
  match r.todo with
  | [] => r
  | (k, id, cfg) :: todo =>
    { r with
      todo
      config := r.config.put k id cfg
      statuses := r.statuses.put k id ((s.status k id).reload cfg now) }

def RunState.install (s : RunState) (r : Reload) : RunState :=
  { s with
    databases := r.databases, config := r.config, statuses := r.statuses, loaded := true
    -- a new entry counts from its status
    done := fun k id =>
      match s.config k id, r.statuses k id with
      | none, some st => (st.runsTotal, st.failuresTotal)
      | _, _ => s.done k id }

def RunState.step (s : RunState) : RunStep → RunState
  | .start k id backfill => s.start k id backfill
  | .finish k id failure now =>
    if (k, id) ∈ s.workers then
      { s with
        statuses := s.statuses.put k id ((s.status k id).finish k (s.config k id) failure now)
        workers := s.workers.erase (k, id)
        done := Function.update s.done k (Function.update (s.done k) id
          ((s.done k id).1 + 1, (s.done k id).2 + (if failure.isSome then 1 else 0))) }
    else s
  | .tick now backfill =>
    { s with
      statuses := fun k id =>
        match s.config k id with
        | none => s.statuses k id
        | some cfg =>
          some ((s.status k id).tick cfg now (decide (k = .sync) && backfill id)) }
  | .reload databases entries =>
    { s with reloads := s.reloads ++ [{ databases, todo := entries }] }
  | .copy i now =>
    match s.reloads[i]? with
    | none => s
    | some r => { s with reloads := s.reloads.set i (s.copy r now) }
  | .abandon i => { s with reloads := s.reloads.eraseIdx i }
  | .install i =>
    match s.reloads[i]? with
    | none => s
    | some r =>
      match r.todo with
      | [] => { s.install r with reloads := s.reloads.eraseIdx i }
      | _ => s

end

/-! ## What is asked of a run -/

/-- The statuses tell the truth about the configured entries, and there are no others. -/
structure RunState.Sound (s : RunState) : Prop where
  running : ∀ k id, (s.config k id).isSome →
    ((s.status k id).running = true ↔ (k, id) ∈ s.workers)
  once : s.workers.Nodup
  counted : ∀ k id, (s.config k id).isSome →
    ((s.status k id).runsTotal, (s.status k id).failuresTotal) = s.done k id
  configured : ∀ k id, (s.statuses k id).isSome → (s.config k id).isSome

/-- The copy of a status is up to date, and a new entry has no thread from before. -/
def RunState.UpToDate (s : RunState) (k : RunKind) (id : String) (st : RunStatus) : Prop :=
  if (s.config k id).isSome then
    st.running = (s.status k id).running ∧ st.runsTotal = (s.status k id).runsTotal ∧
      st.failuresTotal = (s.status k id).failuresTotal
  else st.running = false ∧ (k, id) ∉ s.workers

/-- A run ends while its entry is configured, the first reload is installed, and a reload installs
copies that are up to date. -/
def RunState.Admits (s : RunState) : RunStep → Prop
  | .finish k id _ _ => (k, id) ∈ s.workers → (s.config k id).isSome
  | .abandon _ => s.loaded = true
  | .install i => ∀ r, s.reloads[i]? = some r → r.todo = [] →
      ∀ k id st, r.statuses k id = some st → s.UpToDate k id st
  | _ => True

/-! ## Tables and statuses -/

section
variable {α : Type} (t : Table α) (k : RunKind) (id : String) (a : α)

@[simp] theorem Table.put_self : t.put k id a k id = some a := by
  simp [Table.put]

theorem Table.put_ne {k' : RunKind} {id' : String} (h : (k', id') ≠ (k, id)) :
    t.put k id a k' id' = t k' id' := by
  unfold Table.put
  by_cases hk : k' = k
  · subst hk
    have hid : id' ≠ id := fun hid => h (by rw [hid])
    rw [Function.update_self, Function.update_of_ne hid]
  · rw [Function.update_of_ne hk]

theorem Table.put_isSome {k' : RunKind} {id' : String} (h : (t.put k id a k' id').isSome) :
    (k', id') = (k, id) ∨ (t k' id').isSome := by
  by_cases he : (k', id') = (k, id)
  · exact .inl he
  · rw [Table.put_ne t k id a he] at h
    exact .inr h

end

section
variable [Calendar]

/-- What a section of the scheduler leaves alone. -/
structure RunStatus.SameRuns (st st' : RunStatus) : Prop where
  running : st'.running = st.running
  runsTotal : st'.runsTotal = st.runsTotal
  failuresTotal : st'.failuresTotal = st.failuresTotal

theorem tick_sameRuns (st : RunStatus) (cfg : RunConfig) (now : Int) (backfill : Bool) :
    st.SameRuns (st.tick cfg now backfill) := by
  unfold RunStatus.tick
  dsimp only
  split
  · exact ⟨rfl, rfl, rfl⟩
  · split <;> split <;> exact ⟨rfl, rfl, rfl⟩

theorem finish_spec (st : RunStatus) (k : RunKind) (cfg : Option RunConfig)
    (failure : Option String) (now : Int) : (st.finish k cfg failure now).running = false ∧
      (st.finish k cfg failure now).runsTotal = st.runsTotal + 1 ∧
      (st.finish k cfg failure now).failuresTotal =
        st.failuresTotal + (if failure.isSome then 1 else 0) := by
  cases cfg <;> exact ⟨rfl, rfl, rfl⟩

/-! ## Steps keep the statuses sound -/

variable {s : RunState}

omit [Calendar] in
/-- The status of one configured entry is written. -/
theorem Sound.put (h : s.Sound) {k : RunKind} {id : String} (hcfg : (s.config k id).isSome)
    (st : RunStatus) {workers : List (RunKind × String)} {done : RunKind → String → Nat × Nat}
    (honce : workers.Nodup) (hrunning : st.running = true ↔ (k, id) ∈ workers)
    (hcounted : (st.runsTotal, st.failuresTotal) = done k id)
    (hother : ∀ k' id', (k', id') ≠ (k, id) →
      ((k', id') ∈ workers ↔ (k', id') ∈ s.workers) ∧ done k' id' = s.done k' id') :
    RunState.Sound { s with statuses := s.statuses.put k id st, workers, done } := by
  have hstatus : ∀ k' id', (k', id') ≠ (k, id) →
      RunState.status { s with statuses := s.statuses.put k id st, workers, done } k' id' =
        s.status k' id' := by
    intro k' id' hne
    unfold RunState.status
    dsimp only
    rw [Table.put_ne _ _ _ _ hne]
  have hself : RunState.status { s with statuses := s.statuses.put k id st, workers, done } k id =
      st := by
    unfold RunState.status
    dsimp only
    rw [Table.put_self]
    rfl
  refine ⟨fun k' id' hc => ?_, honce, fun k' id' hc => ?_, fun k' id' hs => ?_⟩
  · by_cases he : (k', id') = (k, id)
    · cases he
      rw [hself]
      exact hrunning
    · rw [hstatus k' id' he, (hother k' id' he).1]
      exact h.running k' id' hc
  · by_cases he : (k', id') = (k, id)
    · cases he
      rw [hself]
      exact hcounted
    · rw [hstatus k' id' he, h.counted k' id' hc]
      exact (hother k' id' he).2.symm
  · obtain he | hs := Table.put_isSome _ _ _ _ hs
    · cases he
      exact hcfg
    · exact h.configured k' id' hs

omit [Calendar] in
theorem start_sound (h : s.Sound) (k : RunKind) (id : String) (backfill : Bool) :
    (s.start k id backfill).Sound := by
  unfold RunState.start
  split
  · exact h
  · rename_i cfg hcfg
    have hsome : (s.config k id).isSome := by rw [hcfg]; rfl
    split
    · exact h
    · split
      · exact h
      · dsimp only
        split
        · exact Sound.put h hsome _ h.once (h.running k id hsome) (h.counted k id hsome)
            fun _ _ _ => ⟨.rfl, rfl⟩
        · rename_i hrunning
          have hnew : (k, id) ∉ s.workers := fun hw => hrunning ((h.running k id hsome).2 hw)
          refine Sound.put h hsome _ ?_ ?_ (h.counted k id hsome) fun k' id' hne => ⟨?_, rfl⟩
          · rw [List.nodup_append]
            refine ⟨h.once, List.nodup_singleton _, fun a ha b hb hab => ?_⟩
            rw [List.mem_singleton.1 hb] at hab
            exact hnew (hab ▸ ha)
          · simp
          · rw [List.mem_append, List.mem_singleton]
            exact or_iff_left hne

theorem finish_sound (h : s.Sound) {k : RunKind} {id : String} (failure : Option String)
    (now : Int) (hsome : (k, id) ∈ s.workers → (s.config k id).isSome) :
    (s.step (.finish k id failure now)).Sound := by
  unfold RunState.step
  dsimp only
  split
  · rename_i hw
    obtain ⟨h1, h2, h3⟩ := finish_spec (s.status k id) k (s.config k id) failure now
    have hcounted := h.counted k id (hsome hw)
    refine Sound.put h (hsome hw) _ (h.once.erase _) ?_ ?_ fun k' id' hne => ⟨?_, ?_⟩
    · rw [h1]
      simp [h.once.not_mem_erase]
    · rw [h2, h3, Function.update_self, Function.update_self, ← hcounted]
    · exact List.mem_erase_of_ne hne
    · by_cases hk : k' = k
      · subst hk
        have hid : id' ≠ id := fun hid => hne (by rw [hid])
        rw [Function.update_self, Function.update_of_ne hid]
      · rw [Function.update_of_ne hk]
  · exact h

theorem tick_sound (h : s.Sound) (now : Int) (backfill : String → Bool) :
    (s.step (.tick now backfill)).Sound := by
  have hsame : ∀ k id, (s.status k id).SameRuns
      ((s.step (.tick now backfill)).status k id) := by
    intro k id
    cases hcfg : s.config k id with
    | none =>
      have heq : (s.step (.tick now backfill)).status k id = s.status k id := by
        unfold RunState.step RunState.status
        simp only [hcfg]
      rw [heq]
      exact ⟨rfl, rfl, rfl⟩
    | some cfg =>
      have heq : (s.step (.tick now backfill)).status k id =
          (s.status k id).tick cfg now (decide (k = .sync) && backfill id) := by
        unfold RunState.step
        rw [RunState.status]
        simp only [hcfg, Option.getD_some]
      rw [heq]
      exact tick_sameRuns _ _ _ _
  refine ⟨fun k id hc => ?_, h.once, fun k id hc => ?_, fun k id hs => ?_⟩
  · rw [(hsame k id).running]
    exact h.running k id hc
  · rw [(hsame k id).runsTotal, (hsame k id).failuresTotal]
    exact h.counted k id hc
  · cases hcfg : s.config k id with
    | none =>
      have hs : (s.statuses k id).isSome := by
        unfold RunState.step at hs
        simpa only [hcfg] using hs
      have hc := h.configured k id hs
      rw [hcfg] at hc
      cases hc
    | some cfg =>
      show (s.config k id).isSome
      rw [hcfg]
      rfl

/-! ## Reloads -/

/-- A reload has a status for each of its entries. -/
def Reload.Paired (r : Reload) : Prop :=
  ∀ k id, (r.statuses k id).isSome ↔ (r.config k id).isSome

theorem copy_paired {r : Reload} (h : r.Paired) (now : Int) : (s.copy r now).Paired := by
  unfold RunState.copy
  split
  · exact h
  · rename_i k id cfg todo hr
    intro k' id'
    by_cases he : (k', id') = (k, id)
    · cases he
      simp
    · dsimp only
      rw [Table.put_ne _ _ _ _ he, Table.put_ne _ _ _ _ he]
      exact h k' id'

/-- Before the first installation nothing is configured and nothing runs. -/
structure RunState.Booting (s : RunState) : Prop where
  config : ∀ k id, s.config k id = none
  workers : s.workers = []
  reloads : s.reloads ≠ []

structure RunInv (s : RunState) : Prop where
  sound : s.loaded = true → s.Sound
  booting : s.loaded = false → s.Booting
  paired : ∀ r ∈ s.reloads, r.Paired

omit [Calendar] in
theorem install_sound (h : RunInv s) {r : Reload} (hr : r.Paired)
    (hok : ∀ k id st, r.statuses k id = some st → s.UpToDate k id st) {reloads : List Reload} :
    RunState.Sound { s.install r with reloads } := by
  have honce : s.workers.Nodup := by
    cases hl : s.loaded with
    | true => exact (h.sound hl).once
    | false =>
      rw [(h.booting hl).workers]
      exact List.nodup_nil
  have hsound : ∀ {k id}, (s.config k id).isSome → s.Sound := by
    intro k id hc
    cases hl : s.loaded with
    | true => exact h.sound hl
    | false =>
      rw [(h.booting hl).config k id] at hc
      cases hc
  have hstatus : ∀ {k id}, (r.config k id).isSome → ∃ st, r.statuses k id = some st ∧
      RunState.status { s.install r with reloads } k id = st ∧ s.UpToDate k id st := by
    intro k id hc
    obtain ⟨st, hst⟩ := Option.isSome_iff_exists.1 ((hr k id).2 hc)
    refine ⟨st, hst, ?_, hok k id st hst⟩
    show (r.statuses k id).getD {} = st
    rw [hst]
    rfl
  refine ⟨fun k id hc => ?_, honce, fun k id hc => ?_, fun k id hs => (hr k id).1 hs⟩
  · obtain ⟨st, -, hst, hup⟩ := hstatus hc
    rw [hst]
    show st.running = true ↔ (k, id) ∈ s.workers
    unfold RunState.UpToDate at hup
    split at hup
    · rename_i hc
      rw [hup.1]
      exact (hsound hc).running k id hc
    · rw [hup.1]
      simp [hup.2]
  · obtain ⟨st, hr', hst, hup⟩ := hstatus hc
    rw [hst]
    unfold RunState.UpToDate at hup
    unfold RunState.install
    dsimp only
    split at hup
    · rename_i hc
      obtain ⟨cfg, hcfg⟩ := Option.isSome_iff_exists.1 hc
      rw [hcfg, hup.2.1, hup.2.2]
      exact (hsound hc).counted k id hc
    · rename_i hc
      rw [Option.not_isSome_iff_eq_none.1 hc, hr']

/-- **Every admitted step** keeps the invariant. -/
theorem run_step_inv (step : RunStep) (h : RunInv s) (hok : s.Admits step) :
    RunInv (s.step step) := by
  have hboot : ∀ k id backfill, s.loaded = false → s.start k id backfill = s := by
    intro k id backfill hl
    unfold RunState.start
    rw [(h.booting hl).config k id]
  cases step with
  | start k id backfill =>
    show RunInv (s.start k id backfill)
    cases hl : s.loaded with
    | false =>
      rw [hboot k id backfill hl]
      exact h
    | true =>
      have hkeep : (s.start k id backfill).loaded = s.loaded ∧
          (s.start k id backfill).reloads = s.reloads := by
        unfold RunState.start
        split
        · exact ⟨rfl, rfl⟩
        · split
          · exact ⟨rfl, rfl⟩
          · split
            · exact ⟨rfl, rfl⟩
            · dsimp only
              split <;> exact ⟨rfl, rfl⟩
      refine ⟨fun _ => start_sound (h.sound hl) k id backfill, fun hf => ?_, ?_⟩
      · rw [hkeep.1, hl] at hf
        cases hf
      · rw [hkeep.2]
        exact h.paired
  | finish k id failure now =>
    cases hl : s.loaded with
    | false =>
      have hsame : s.step (.finish k id failure now) = s := by
        unfold RunState.step
        simp [(h.booting hl).workers]
      rw [hsame]
      exact h
    | true =>
      have hkeep : (s.step (.finish k id failure now)).loaded = s.loaded ∧
          (s.step (.finish k id failure now)).reloads = s.reloads := by
        unfold RunState.step
        dsimp only
        split <;> exact ⟨rfl, rfl⟩
      refine ⟨fun _ => finish_sound (h.sound hl) failure now hok, fun hf => ?_, ?_⟩
      · rw [hkeep.1, hl] at hf
        cases hf
      · rw [hkeep.2]
        exact h.paired
  | tick now backfill =>
    exact ⟨fun hl => tick_sound (h.sound hl) now backfill,
      fun hf => ⟨(h.booting hf).config, (h.booting hf).workers, (h.booting hf).reloads⟩, h.paired⟩
  | reload databases entries =>
    refine ⟨fun hl => ⟨(h.sound hl).running, (h.sound hl).once, (h.sound hl).counted,
      (h.sound hl).configured⟩, fun hf => ⟨(h.booting hf).config, (h.booting hf).workers, ?_⟩,
      fun r hr => ?_⟩
    · simp [RunState.step]
    · obtain hr | hr := List.mem_append.1 hr
      · exact h.paired r hr
      · rw [List.mem_singleton.1 hr]
        exact fun _ _ => .rfl
  | copy i now =>
    unfold RunState.step
    dsimp only
    split
    · exact h
    · rename_i r hr
      refine ⟨fun hl => ⟨(h.sound hl).running, (h.sound hl).once, (h.sound hl).counted,
        (h.sound hl).configured⟩, fun hf => ⟨(h.booting hf).config, (h.booting hf).workers, ?_⟩,
        fun r' hr' => ?_⟩
      · have hne := (h.booting hf).reloads
        intro hnil
        exact hne (by simpa using hnil)
      · obtain hr' | rfl := List.mem_or_eq_of_mem_set hr'
        · exact h.paired r' hr'
        · exact copy_paired (h.paired r (List.mem_of_getElem? hr)) now
  | abandon i =>
    have hl : s.loaded = true := hok
    refine ⟨fun _ => ⟨(h.sound hl).running, (h.sound hl).once, (h.sound hl).counted,
      (h.sound hl).configured⟩, fun hf => ?_, fun r hr => h.paired r (List.mem_of_mem_eraseIdx hr)⟩
    have hf : s.loaded = false := hf
    rw [hl] at hf
    cases hf
  | install i =>
    unfold RunState.step
    dsimp only
    split
    · exact h
    · rename_i r hr
      split
      · rename_i htodo
        refine ⟨fun _ => install_sound h (h.paired r (List.mem_of_getElem? hr)) (hok r hr htodo),
          fun hf => ?_, fun r' hr' => h.paired r' (List.mem_of_mem_eraseIdx hr')⟩
        cases hf
      · exact h

/-- **The run state is kept.** From the start of the service, in every run whose steps are admitted,
the statuses are sound whenever no reload is in progress. -/
theorem run_state_kept (statuses : Table RunStatus) (databases : List String)
    (entries : List (RunKind × String × RunConfig)) (steps : List RunStep)
    (hok : Along RunState.step RunState.Admits (.boot statuses { databases, todo := entries }) steps)
    (hreloads : (run RunState.step (.boot statuses { databases, todo := entries }) steps).reloads =
      []) :
    (run RunState.step (.boot statuses { databases, todo := entries }) steps).Sound := by
  have hstart : RunInv (.boot statuses { databases, todo := entries }) := by
    refine ⟨fun hl => (by cases hl), fun _ => ⟨fun _ _ => rfl, rfl, fun h => by cases h⟩,
      fun r hr => ?_⟩
    rw [List.mem_singleton.1 hr]
    exact fun _ _ => .rfl
  have h := run_invariant (fun _ step h hok => run_step_inv step h hok) hstart hok
  cases hl : (run RunState.step (.boot statuses { databases, todo := entries }) steps).loaded with
  | true => exact h.sound hl
  | false => exact absurd hreloads (h.booting hl).reloads

end

/-! ## Examples -/

/-- No schedule is supported. -/
@[reducible] def noCalendar : Calendar := ⟨fun _ _ => (false, 0)⟩

section
attribute [local instance] noCalendar

def oneReport : List (RunKind × String × RunConfig) :=
  [(.job, "r", { enabled := true, onCalendar := "", databases := ["d"] })]

/-- The state of the service before the first reload of a configuration with one log job. -/
def oneReportBoot : RunState := .boot (fun _ _ => none) { databases := ["d"], todo := oneReport }

theorem run_then_reload_sound : (run RunState.step oneReportBoot [.copy 0 0, .install 0,
    .start .job "r" false, .finish .job "r" none 5, .reload ["d"] oneReport, .copy 0 6,
    .install 0]).Sound := by
  refine run_state_kept (fun _ _ => none) ["d"] oneReport _
    ⟨trivial, ?_, trivial, fun _ => rfl, trivial, trivial, ?_, trivial⟩ rfl
  · intro r hr htodo k id st hst
    cases hr
    obtain he | hs := Table.put_isSome _ _ _ _ (Option.isSome_iff_exists.2 ⟨st, hst⟩)
    · cases he
      cases hst
      exact ⟨rfl, List.not_mem_nil⟩
    · cases hs
  · intro r hr htodo k id st hst
    cases hr
    obtain he | hs := Table.put_isSome _ _ _ _ (Option.isSome_iff_exists.2 ⟨st, hst⟩)
    · cases he
      cases hst
      exact ⟨rfl, rfl, rfl⟩
    · cases hs

/-- The run ends after the reload has copied its status. -/
def endsDuringReload : List RunStep := [.copy 0 0, .install 0, .start .job "r" false,
  .reload ["d"] oneReport, .copy 0 1, .finish .job "r" none 2, .install 0]

theorem ends_during_reload_unsound : (run RunState.step oneReportBoot endsDuringReload).reloads =
    [] ∧ ¬ (run RunState.step oneReportBoot endsDuringReload).Sound := by
  refine ⟨rfl, fun h => ?_⟩
  -- the copy says that the job is running
  have hworker := (h.running .job "r" rfl).1 rfl
  exact absurd hworker (by decide +kernel)

end

end OpcBridge.Logger
