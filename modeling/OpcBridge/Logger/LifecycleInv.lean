import OpcBridge.Logger.Converge
import OpcBridge.Logger.Lifecycle

/-!
# Runs of backfills

`backfill_life`: in every run whose steps are admitted the states are sound and the steps faithful.
`LifeInv` is the invariant. `update_inv` carries it over every section that writes one task, and
`runs_known` says what a step of the runs does to the sync jobs.
-/

namespace OpcBridge.Logger

open Lib OpcBridge

/-! ## Lists -/

theorem mem_syncIds {workers : List (RunKind × String)} {id : String} :
    id ∈ syncIds workers ↔ (.sync, id) ∈ workers := by
  unfold syncIds
  rw [List.mem_filterMap]
  constructor
  · intro ⟨w, hw, h⟩
    split at h
    · rename_i hk
      cases h
      rw [← hk]
      exact hw
    · cases h
  · exact fun h => ⟨_, h, by simp⟩

theorem count_syncIds (workers : List (RunKind × String)) (id : String) :
    (syncIds workers).count id = workers.count (.sync, id) := by
  induction workers with
  | nil => rfl
  | cons w workers ih =>
    obtain ⟨k, id'⟩ := w
    unfold syncIds at ih ⊢
    by_cases hk : k = .sync
    · subst hk
      by_cases hid : id' = id
      · subst hid
        simp [ih]
      · simp [ih, hid]
    · simp [ih, hk]

/-- A list around one of its positions. -/
theorem split_at {α : Type*} {l : List α} {i : Nat} {x : α} (h : l[i]? = some x) :
    ∃ l₁ l₂, l = l₁ ++ x :: l₂ ∧ l.eraseIdx i = l₁ ++ l₂ ∧ ∀ y, l.set i y = l₁ ++ y :: l₂ := by
  induction l generalizing i with
  | nil => simp at h
  | cons z l ih =>
    cases i with
    | zero =>
      obtain rfl : z = x := by simpa using h
      exact ⟨[], l, rfl, rfl, fun _ => rfl⟩
    | succ i =>
      obtain ⟨l₁, l₂, h1, h2, h3⟩ := ih (by simpa using h)
      exact ⟨z :: l₁, l₂, by simp [h1], by simp [h2], fun y => by simp [h3]⟩

theorem hasRunning_iff {m : TaskMap} {job : String} : m.hasRunning job = true ↔
    ∃ id t, m.get id = some t ∧ t.status = .running ∧ t.syncJobId = job := by
  unfold TaskMap.hasRunning
  simp only [List.any_eq_true, Option.any_eq_true, decide_eq_true_eq]
  constructor
  · rintro ⟨id, -, t, ht, hjob, hstatus⟩
    exact ⟨id, t, ht, hstatus, hjob⟩
  · intro ⟨id, t, ht, hstatus, hjob⟩
    exact ⟨id, m.listed id (by rw [ht]; rfl), t, ht, hjob, hstatus⟩

theorem get_put (m : TaskMap) (id : String) (t : BackfillTask) (id' : String) :
    (m.put id t).get id' = if id' = id then some t else m.get id' := by
  unfold TaskMap.put
  dsimp only
  rw [Function.update_apply]

/-! ## The invariant -/

/-- A task whose cursor is where its chunks have led. -/
structure TaskOk (chunks : List (Int × Int)) (zone : Int) (t : BackfillTask) : Prop where
  id : t.id ≠ ""
  job : t.syncJobId ≠ ""
  reached : ReachedBy chunks t.startTime t.cursorTime
  cursor : t.cursorTime ≤ t.endTime
  complete : t.status = .complete → t.cursorTime = t.endTime
  stop : t.endTime - zone ≠ -1

/-- The tasks of the service or of a saved state. -/
structure TasksOk (reported : String → List (Int × Int)) (zone : Int) (m : TaskMap) : Prop where
  each : ∀ id t, m.get id = some t → TaskOk (reported id) zone t
  one : ∀ id id' t t', m.get id = some t → m.get id' = some t' → t.status = .running →
    t'.status = .running → t.syncJobId = t'.syncJobId → id = id'

/-- The task of a worker, with the dates that the worker has read. -/
structure Attends (zone : Int) (w : BackfillWorker) (t : BackfillTask) : Prop where
  status : t.status = .running
  workerRunning : t.workerRunning = true
  job : t.syncJobId = w.job
  read : ∀ cursor stop, w.read = some (cursor, stop) → cursor = t.cursorTime ∧ stop = t.endTime ∧
    (cursor < stop → cursor - zone ≠ -1)

structure LifeInv (zone : Int) (s : BackfillState) : Prop where
  syncRunning : ∀ id, (.sync, id) ∈ s.runs.workers → (s.runs.config .sync id).isSome →
    (s.runs.status .sync id).running = true
  syncOnce : ∀ id, s.runs.workers.count (.sync, id) ≤ 1
  worker : ∀ w ∈ s.workers, ∃ t, s.tasks.get w.task = some t ∧ Attends zone w t
  once : (s.workers.map (·.task)).Nodup
  attended : ∀ id t, s.tasks.get id = some t → t.status = .running → t.workerRunning = true →
    ∃ w ∈ s.workers, w.task = id
  apart : ∀ id t, s.tasks.get id = some t → t.status = .running →
    (.sync, t.syncJobId) ∉ s.runs.workers
  tasks : TasksOk s.reported zone s.tasks
  saved : ∀ x, x = s.file ∨ x ∈ s.saves → TasksOk s.reported zone x.tasks ∧
    ∀ id, (x.tasks.get id).isSome → (s.tasks.get id).isSome
  requested : ∀ id ∈ s.requested, ∀ t, s.tasks.get id = some t → t.status = .running →
    t.cancelRequested = true
  quiet : s.late = []

theorem ReachedBy.mono {chunks chunks' : List (Int × Int)} {start date : Int}
    (h : ReachedBy chunks start date) (hsub : chunks ⊆ chunks') : ReachedBy chunks' start date := by
  induction h with
  | start => exact .start
  | chunk _ hc ih => exact .chunk ih (hsub hc)

theorem TasksOk.mono {reported reported' : String → List (Int × Int)} {zone : Int} {m : TaskMap}
    (h : TasksOk reported zone m) (hsub : ∀ id, (m.get id).isSome → reported id ⊆ reported' id) :
    TasksOk reported' zone m := by
  refine ⟨fun id t ht => ?_, h.one⟩
  obtain ⟨h1, h2, h3, h4, h5, h6⟩ := h.each id t ht
  exact ⟨h1, h2, h3.mono (hsub id (by rw [ht]; rfl)), h4, h5, h6⟩

theorem BackfillTask.Continues.running {t t' : BackfillTask} (h : t.Continues t')
    (hrun : t'.status = .running) : t.status = .running := by
  by_contra hne
  rw [h.ended hne] at hrun
  exact hne hrun

theorem BackfillTask.Continues.refl (t : BackfillTask) : t.Continues t :=
  ⟨rfl, rfl, rfl, rfl, le_rfl, fun h => h, fun _ => rfl⟩

/-- Every section that writes one task. -/
theorem update_inv {zone : Int} {s s' : BackfillState} (h : LifeInv zone s) {id : String}
    {t t' : BackfillTask} (ht : s.tasks.get id = some t)
    (hget : ∀ id', s'.tasks.get id' = if id' = id then some t' else s.tasks.get id')
    (hruns : s'.runs = s.runs) (hsaves : s'.saves = s.saves) (hfile : s'.file = s.file)
    (hlate : s'.late = []) (hreported : ∀ id', s.reported id' ⊆ s'.reported id')
    (hok : TaskOk (s'.reported id) zone t') (hcont : t.Continues t')
    (hrequested : ∀ id' ∈ s'.requested, id' ∈ s.requested ∨ id' = id ∧ t'.cancelRequested = true)
    (hother : ∀ w, w.task ≠ id → (w ∈ s'.workers ↔ w ∈ s.workers))
    (hown : ∀ w ∈ s'.workers, w.task = id → Attends zone w t')
    (hattended : t'.status = .running → t'.workerRunning = true → ∃ w ∈ s'.workers, w.task = id)
    (honce : (s'.workers.map (·.task)).Nodup) : LifeInv zone s' := by
  have hself : s'.tasks.get id = some t' := by rw [hget, if_pos rfl]
  have hne : ∀ {id'}, id' ≠ id → s'.tasks.get id' = s.tasks.get id' := by
    intro id' hid
    rw [hget, if_neg hid]
  -- a running task was a running one of the same job
  have hback : ∀ {id' x}, s'.tasks.get id' = some x → x.status = .running →
      ∃ y, s.tasks.get id' = some y ∧ y.status = .running ∧ y.syncJobId = x.syncJobId := by
    intro id' x hx hrun
    by_cases hid : id' = id
    · subst hid
      rw [hself] at hx
      cases hx
      exact ⟨t, ht, hcont.running hrun, hcont.syncJobId.symm⟩
    · exact ⟨x, by rw [← hne hid]; exact hx, hrun, rfl⟩
  refine ⟨?_, ?_, fun w hw => ?_, honce, fun id' x hx hrun hworker => ?_, fun id' x hx hrun => ?_,
    ⟨fun id' x hx => ?_, fun id₁ id₂ x y hx hy hrx hry hjob => ?_⟩, fun x hx => ?_,
    fun id' hid x hx hrun => ?_, hlate⟩
  · rw [hruns]
    exact h.syncRunning
  · rw [hruns]
    exact h.syncOnce
  · by_cases hid : w.task = id
    · exact ⟨t', by rw [hid]; exact hself, hown w hw hid⟩
    · obtain ⟨x, hx, hatt⟩ := h.worker w ((hother w hid).1 hw)
      exact ⟨x, by rw [hne hid]; exact hx, hatt⟩
  · by_cases hid : id' = id
    · subst hid
      rw [hself] at hx
      cases hx
      exact hattended hrun hworker
    · obtain ⟨w, hw, htask⟩ := h.attended id' x (by rw [← hne hid]; exact hx) hrun hworker
      exact ⟨w, (hother w (by rw [htask]; exact hid)).2 hw, htask⟩
  · obtain ⟨y, hy, hry, hjob⟩ := hback hx hrun
    rw [hruns, ← hjob]
    exact h.apart id' y hy hry
  · by_cases hid : id' = id
    · subst hid
      rw [hself] at hx
      cases hx
      exact hok
    · obtain ⟨h1, h2, h3, h4, h5, h6⟩ := h.tasks.each id' x (by rw [← hne hid]; exact hx)
      exact ⟨h1, h2, h3.mono (hreported id'), h4, h5, h6⟩
  · obtain ⟨x', hx', hrx', hjx⟩ := hback hx hrx
    obtain ⟨y', hy', hry', hjy⟩ := hback hy hry
    exact h.tasks.one id₁ id₂ x' y' hx' hy' hrx' hry' (hjx.trans (hjob.trans hjy.symm))
  · rw [hfile, hsaves] at hx
    obtain ⟨h1, h2⟩ := h.saved x hx
    refine ⟨h1.mono fun id' _ => hreported id', fun id' hid => ?_⟩
    rw [hget]
    split
    · rfl
    · exact h2 id' hid
  · by_cases he : id' = id
    · subst he
      rw [hself] at hx
      cases hx
      obtain hold | ⟨-, hnew⟩ := hrequested id' hid
      · exact hcont.cancelRequested (h.requested id' hold t ht (hcont.running hrun))
      · exact hnew
    · obtain hold | ⟨hsame, -⟩ := hrequested id' hid
      · exact h.requested id' hold x (by rw [← hne he]; exact hx) hrun
      · exact absurd hsame he

/-! ## Workers -/

section
variable {zone : Int} {s : BackfillState}

/-- The workers beside one of them. -/
structure Beside (s : BackfillState) (i : Nat) (w : BackfillWorker) (l₁ l₂ : List BackfillWorker) :
    Prop where
  workers : s.workers = l₁ ++ w :: l₂
  erase : s.workers.eraseIdx i = l₁ ++ l₂
  set : ∀ w', s.workers.set i w' = l₁ ++ w' :: l₂
  other : ∀ x ∈ l₁ ++ l₂, x.task ≠ w.task
  once : ((l₁ ++ l₂).map (·.task)).Nodup

theorem beside (h : LifeInv zone s) {i : Nat} {w : BackfillWorker} (hw : s.workers[i]? = some w) :
    ∃ l₁ l₂, Beside s i w l₁ l₂ := by
  obtain ⟨l₁, l₂, h1, h2, h3⟩ := split_at hw
  have honce := h.once
  rw [h1, List.map_append, List.map_cons, List.nodup_middle, List.nodup_cons,
    ← List.map_append] at honce
  refine ⟨l₁, l₂, h1, h2, h3, fun x hx heq => ?_, honce.2⟩
  rw [← heq] at honce
  exact honce.1 (List.mem_map_of_mem hx)

/-- The worker ends with a task that is not running any more. -/
theorem erase_inv (h : LifeInv zone s) {i : Nat} {w : BackfillWorker}
    (hw : s.workers[i]? = some w) {t t' : BackfillTask} (ht : s.tasks.get w.task = some t)
    (hok : TaskOk (s.reported w.task) zone t') (hcont : t.Continues t')
    (hended : t'.status ≠ .running) :
    LifeInv zone { s with tasks := s.tasks.put w.task t', workers := s.workers.eraseIdx i } := by
  obtain ⟨l₁, l₂, hb⟩ := beside h hw
  rw [hb.erase]
  refine update_inv h ht (fun id' => get_put ..) rfl rfl rfl h.quiet (fun _ => List.Subset.refl _)
    hok hcont (fun _ hid => .inl hid) (fun x hx => ?_) (fun x hx htask => ?_)
    (fun hrun => absurd hrun hended) hb.once
  · rw [hb.workers]
    simp only [List.mem_append, List.mem_cons]
    constructor
    · rintro (h1 | h2)
      · exact .inl h1
      · exact .inr (.inr h2)
    · rintro (h1 | rfl | h2)
      · exact .inl h1
      · exact absurd rfl hx
      · exact .inr h2
  · exact absurd htask (hb.other x hx)

/-- The worker goes on. -/
theorem set_inv (h : LifeInv zone s) {i : Nat} {w : BackfillWorker}
    (hw : s.workers[i]? = some w) (w' : BackfillWorker) (htask : w'.task = w.task) {t t' : BackfillTask}
    (ht : s.tasks.get w.task = some t) {tasks : TaskMap}
    (hget : ∀ id', tasks.get id' = if id' = w.task then some t' else s.tasks.get id')
    {reported : String → List (Int × Int)} (hreported : ∀ id', s.reported id' ⊆ reported id')
    (hok : TaskOk (reported w.task) zone t') (hcont : t.Continues t') (hatt : Attends zone w' t')
    {late : List String} (hlate : late = []) :
    LifeInv zone { s with tasks, workers := s.workers.set i w', reported, late } := by
  obtain ⟨l₁, l₂, hb⟩ := beside h hw
  rw [hb.set]
  refine update_inv h ht hget rfl rfl rfl hlate hreported hok hcont (fun _ hid => .inl hid)
    (fun x hx => ?_) (fun x hx hself => ?_) (fun _ _ => ⟨w', by simp, htask⟩) ?_
  · have hx' : x ≠ w' := fun he => hx (by rw [he, htask])
    have hx'' : x ≠ w := fun he => hx (by rw [he])
    rw [hb.workers]
    simp [hx', hx'']
  · rw [List.mem_append, List.mem_cons] at hx
    obtain hx | rfl | hx := hx
    · exact absurd hself (hb.other x (List.mem_append_left _ hx))
    · exact hatt
    · exact absurd hself (hb.other x (List.mem_append_right _ hx))
  · rw [List.map_append, List.map_cons, List.nodup_middle, List.nodup_cons, ← List.map_append]
    refine ⟨fun hmem => ?_, hb.once⟩
    obtain ⟨x, hx, heq⟩ := List.mem_map.1 hmem
    exact hb.other x hx (heq.trans htask)

theorem worker_task (h : LifeInv zone s) {i : Nat} {w : BackfillWorker}
    (hw : s.workers[i]? = some w) :
    ∃ t, s.tasks.get w.task = some t ∧ Attends zone w t ∧ TaskOk (s.reported w.task) zone t := by
  obtain ⟨t, ht, hatt⟩ := h.worker w (List.mem_of_getElem? hw)
  exact ⟨t, ht, hatt, h.tasks.each _ t ht⟩

theorem put_continues {id : String} {t t' : BackfillTask} (ht : s.tasks.get id = some t)
    (hcont : t.Continues t') : ∀ id' x, s.tasks.get id' = some x →
      ∃ x', (s.tasks.put id t').get id' = some x' ∧ x.Continues x' := by
  intro id' x hx
  rw [get_put]
  by_cases hid : id' = id
  · subst hid
    rw [ht] at hx
    cases hx
    exact ⟨t', if_pos rfl, hcont⟩
  · exact ⟨x, by rw [if_neg hid]; exact hx, .refl x⟩

/-- What a section keeps: the invariant, and every task. -/
structure Kept (zone : Int) (s s' : BackfillState) : Prop where
  inv : LifeInv zone s'
  tasks : ∀ id t, s.tasks.get id = some t → ∃ t', s'.tasks.get id = some t' ∧ t.Continues t'

theorem kept_of_tasks {s' : BackfillState} (h : LifeInv zone s')
    (htasks : s'.tasks.get = s.tasks.get) : Kept zone s s' :=
  ⟨h, fun id t ht => ⟨t, by rw [htasks]; exact ht, .refl t⟩⟩

theorem look_kept (h : LifeInv zone s) {i : Nat} {w : BackfillWorker}
    (hw : s.workers[i]? = some w)
    (hdate : ∀ t, s.tasks.get w.task = some t → t.cursorTime < t.endTime →
      t.cursorTime - zone ≠ -1) :
    Kept zone s (s.look zone i w) := by
  obtain ⟨t, ht, hatt, hok⟩ := worker_task h hw
  unfold BackfillState.look
  rw [ht]
  dsimp only
  split
  · have hcont : t.Continues t.cancelled :=
      ⟨rfl, rfl, rfl, rfl, le_rfl, fun hc => hc, fun hne => absurd hatt.status hne⟩
    have hok' : TaskOk (s.reported w.task) zone t.cancelled :=
      ⟨hok.id, hok.job, hok.reached, hok.cursor, fun hc => (by cases hc), hok.stop⟩
    exact ⟨erase_inv h hw ht hok' hcont (by simp [BackfillTask.cancelled]),
      put_continues ht hcont⟩
  · rename_i hcancel
    have hnew : ¬ (w.task ∈ s.requested ∧
        (nextDate zone w.chunk t.cursorTime t.endTime).isSome = true) :=
      fun hreq => hcancel (h.requested _ hreq.1 t ht hatt.status)
    rw [if_neg hnew]
    have hatt' : Attends zone { w with read := some (t.cursorTime, t.endTime) } t := by
      refine ⟨hatt.status, hatt.workerRunning, hatt.job, fun cursor stop hread => ?_⟩
      cases hread
      exact ⟨rfl, rfl, hdate t ht⟩
    refine kept_of_tasks (set_inv h hw { w with read := some _ } rfl ht (fun id' => ?_) (fun _ => List.Subset.refl _) hok
      (.refl t) hatt' h.quiet) rfl
    by_cases hid : id' = w.task
    · rw [if_pos hid, hid, ht]
    · rw [if_neg hid]

theorem finish_kept (h : LifeInv zone s) {i : Nat} {w : BackfillWorker}
    (hw : s.workers[i]? = some w) {cursor stop : Int} (hread : w.read = some (cursor, stop))
    (result : SyncResult) : Kept zone s (s.finish zone i w cursor stop result) := by
  obtain ⟨t, ht, hatt, hok⟩ := worker_task h hw
  obtain ⟨rfl, rfl, hepoch⟩ := hatt.read cursor stop hread
  unfold BackfillState.finish
  rw [ht]
  dsimp only
  split
  · -- the cursor is at the end
    rename_i hnone
    have hcursor : t.cursorTime = t.endTime := by
      have hle := hok.cursor
      obtain hrefused | hge := next_none hok.stop hnone
      · by_contra hne
        exact hepoch (by omega) hrefused
      · omega
    have hcont : t.Continues t.completed :=
      ⟨rfl, rfl, rfl, rfl, le_rfl, fun hc => hc, fun hne => absurd hatt.status hne⟩
    have hok' : TaskOk (s.reported w.task) zone t.completed :=
      ⟨hok.id, hok.job, hok.reached, hok.cursor, fun _ => hcursor, hok.stop⟩
    exact ⟨erase_inv h hw ht hok' hcont (by simp [BackfillTask.completed]),
      put_continues ht hcont⟩
  · rename_i next hnext
    obtain ⟨hlt, hmin, -⟩ := next_some hnext
    split
    · rename_i hresult
      have hstatus : (t.add next result).status = .running := by
        rw [add_status, if_pos hresult]
        exact hatt.status
      have hpos := w.chunkPos
      have hcont : t.Continues (t.add next result) := by
        rw [add_ok hresult]
        refine ⟨rfl, rfl, rfl, rfl, ?_, fun hc => hc, fun hne => absurd hatt.status hne⟩
        show t.cursorTime ≤ next
        omega
      refine ⟨set_inv h hw { w with read := none } rfl ht (fun id' => get_put ..) (fun id' => ?_) ?_
        hcont ?_ h.quiet, put_continues ht hcont⟩
      · by_cases hid : id' = w.task
        · rw [hid, Function.update_self]
          exact List.subset_append_left _ _
        · rw [Function.update_of_ne hid]
          exact List.Subset.refl _
      · rw [Function.update_self]
        have hchunk : (t.cursorTime, next) ∈ s.reported w.task ++ [(t.cursorTime, next)] := by simp
        have hreached : ReachedBy (s.reported w.task ++ [(t.cursorTime, next)]) t.startTime next :=
          .chunk (hok.reached.mono (List.subset_append_left _ _)) hchunk
        have hle : next ≤ t.endTime := by omega
        have hrun : (t.add next result).status ≠ .complete := by simp [hstatus]
        rw [add_ok hresult] at hrun ⊢
        exact ⟨hok.id, hok.job, hreached, hle, fun hc => absurd hc hrun, hok.stop⟩
      · refine ⟨hstatus, ?_, ?_, fun _ _ hr => (by cases hr)⟩
        · rw [add_ok hresult]
          exact hatt.workerRunning
        · rw [add_ok hresult]
          exact hatt.job
    · rename_i hresult
      have hcont : t.Continues (t.add next result) := by
        rw [add_failed hresult]
        exact ⟨rfl, rfl, rfl, rfl, le_rfl, fun hc => hc, fun hne => absurd hatt.status hne⟩
      refine ⟨erase_inv h hw ht ?_ hcont ?_, put_continues ht hcont⟩
      · rw [add_failed hresult]
        exact ⟨hok.id, hok.job, hok.reached, hok.cursor, fun hc => (by cases hc), hok.stop⟩
      · rw [add_failed hresult]
        simp

/-! ## Requests -/

/-- A section that writes a task that keeps its workers. -/
theorem write_inv (h : LifeInv zone s) {id : String} {t t' : BackfillTask}
    (ht : s.tasks.get id = some t) (hcont : t.Continues t') (hok : TaskOk (s.reported id) zone t')
    {requested : List String}
    (hrequested : ∀ id' ∈ requested, id' ∈ s.requested ∨ id' = id ∧ t'.cancelRequested = true)
    (hown : ∀ w ∈ s.workers, w.task = id → Attends zone w t → Attends zone w t')
    (hworker : t'.status = .running → t'.workerRunning = true → t.workerRunning = true) :
    LifeInv zone { s with tasks := s.tasks.put id t', requested } := by
  refine update_inv h ht (fun id' => get_put ..) rfl rfl rfl h.quiet (fun _ => List.Subset.refl _)
    hok hcont hrequested (fun _ _ => .rfl) (fun w hw hid => ?_) (fun hrun hwr => ?_) h.once
  · obtain ⟨x, hx, hatt⟩ := h.worker w hw
    rw [hid, ht] at hx
    cases hx
    exact hown w hw hid hatt
  · exact h.attended id t ht (hcont.running hrun) (hworker hrun hwr)

theorem cancel_kept (h : LifeInv zone s) (id : String) : Kept zone s (s.cancel id) := by
  unfold BackfillState.cancel
  split
  · exact kept_of_tasks h rfl
  · rename_i t ht
    have hok := h.tasks.each id t ht
    split
    · rename_i hrun
      have hcont : t.Continues { t with cancelRequested := true } :=
        ⟨rfl, rfl, rfl, rfl, le_rfl, fun _ => rfl, fun hne => absurd hrun hne⟩
      have hok' : TaskOk (s.reported id) zone { t with cancelRequested := true } :=
        ⟨hok.id, hok.job, hok.reached, hok.cursor, hok.complete, hok.stop⟩
      refine ⟨write_inv h ht hcont hok' (fun id' hid => ?_)
        (fun w _ _ hatt => ⟨hatt.status, hatt.workerRunning, hatt.job, hatt.read⟩)
        (fun _ hw => hw), put_continues ht hcont⟩
      obtain hid | hid := List.mem_append.1 hid
      · exact .inl hid
      · exact .inr ⟨List.mem_singleton.1 hid, rfl⟩
    · exact kept_of_tasks h rfl

theorem startAsync_kept [Calendar] (h : LifeInv zone s) (id : String) (job : SyncJob) :
    Kept zone s (s.startAsync id job) := by
  unfold BackfillState.startAsync
  split
  · exact kept_of_tasks h rfl
  · rename_i t ht
    have hok := h.tasks.each id t ht
    split
    · exact kept_of_tasks h rfl
    · rename_i hwaits
      obtain ⟨hrun, hidle⟩ := not_or.1 hwaits
      have hrun : t.status = .running := not_not.1 hrun
      -- a waiting task has no worker
      have hnone : ∀ w ∈ s.workers, w.task ≠ id := by
        intro w hw hid
        obtain ⟨x, hx, hatt⟩ := h.worker w hw
        rw [hid, ht] at hx
        cases hx
        exact hidle hatt.workerRunning
      have hfailed : ∀ error, Kept zone s { s with
          tasks := s.tasks.put id { t with status := .failed, lastError := error } } := by
        intro error
        have hcont : t.Continues { t with status := .failed, lastError := error } :=
          ⟨rfl, rfl, rfl, rfl, le_rfl, fun hc => hc, fun hne => absurd hrun hne⟩
        have hok' : TaskOk (s.reported id) zone { t with status := .failed, lastError := error } :=
          ⟨hok.id, hok.job, hok.reached, hok.cursor, fun hc => (by cases hc), hok.stop⟩
        exact ⟨write_inv h ht hcont hok' (fun _ hid => .inl hid)
          (fun w hw hid => absurd hid (hnone w hw)) (fun hr => (by cases hr)),
          put_continues ht hcont⟩
      dsimp only
      split
      · exact hfailed _
      · split
        · exact hfailed _
        · have hcont : t.Continues { t with workerRunning := true } :=
            ⟨rfl, rfl, rfl, rfl, le_rfl, fun hc => hc, fun hne => absurd hrun hne⟩
          have hok' : TaskOk (s.reported id) zone { t with workerRunning := true } :=
            ⟨hok.id, hok.job, hok.reached, hok.cursor, hok.complete, hok.stop⟩
          refine ⟨update_inv h ht (fun id' => get_put ..) rfl rfl rfl h.quiet
            (fun _ => List.Subset.refl _) hok' hcont (fun _ hid => .inl hid) (fun w hw => ?_)
            (fun w hw hid => ?_) (fun _ _ => ?_) ?_, put_continues ht hcont⟩
          · rw [List.mem_append, List.mem_singleton]
            refine or_iff_left fun he => hw ?_
            rw [he]
          · obtain hw | hw := List.mem_append.1 hw
            · exact absurd hid (hnone w hw)
            · rw [List.mem_singleton.1 hw]
              exact ⟨hrun, rfl, rfl, fun _ _ hr => (by cases hr)⟩
          · exact ⟨_, List.mem_append_right _ (List.mem_singleton_self _), rfl⟩
          · rw [List.map_append, List.nodup_append]
            refine ⟨h.once, List.nodup_singleton _, fun a ha b hb hab => ?_⟩
            obtain ⟨w, hw, rfl⟩ := List.mem_map.1 ha
            rw [List.mem_singleton.1 hb] at hab
            exact hnone w hw hab

theorem backfillId_ne_empty (now : Int) : backfillId now ≠ "" := by
  unfold backfillId
  intro h
  have hlen := congrArg String.length h
  rw [String.length_append] at hlen
  simp at hlen

/-- A task under a new id. -/
theorem added_inv (h : LifeInv zone s) {id : String} {t : BackfillTask}
    (hnew : s.tasks.get id = none) (hok : TaskOk [] zone t) (hrun : t.status = .running)
    (hidle : t.workerRunning = false) {job : String} (hjob : t.syncJobId = job)
    (hsync : (.sync, job) ∉ s.runs.workers) (hfree : s.tasks.hasRunning job = false) :
    LifeInv zone { s with
      tasks := s.tasks.put id t
      reported := Function.update s.reported id []
      requested := s.requested.filter (· ≠ id) } := by
  have hne : ∀ {id' x}, s.tasks.get id' = some x → id' ≠ id := by
    intro id' x hx he
    rw [he, hnew] at hx
    cases hx
  have hfree : ∀ {id' x}, s.tasks.get id' = some x → x.status = .running →
      x.syncJobId ≠ t.syncJobId := by
    intro id' x hx hr hj
    rw [hasRunning_iff.2 ⟨id', x, hx, hr, hj.trans hjob⟩] at hfree
    cases hfree
  -- a task is the added one or an old one
  have hcases : ∀ {id' x}, (s.tasks.put id t).get id' = some x →
      id' = id ∧ x = t ∨ id' ≠ id ∧ s.tasks.get id' = some x := by
    intro id' x hx
    rw [get_put] at hx
    split at hx
    · rename_i he
      cases hx
      exact .inl ⟨he, rfl⟩
    · rename_i he
      exact .inr ⟨he, hx⟩
  refine ⟨h.syncRunning, h.syncOnce, fun w hw => ?_, h.once, fun id' x hx _ hworker => ?_,
    fun id' x hx hr => ?_, ⟨fun id' x hx => ?_, fun id₁ id₂ x y hx hy hrx hry hj => ?_⟩,
    fun x hx => ?_, fun id' hid x hx hr => ?_, h.quiet⟩
  · obtain ⟨x, hx, hatt⟩ := h.worker w hw
    exact ⟨x, by rw [get_put, if_neg (hne hx)]; exact hx, hatt⟩
  · obtain ⟨-, rfl⟩ | ⟨-, hx⟩ := hcases hx
    · rw [hidle] at hworker
      cases hworker
    · exact h.attended id' x hx (by assumption) hworker
  · obtain ⟨-, rfl⟩ | ⟨-, hx⟩ := hcases hx
    · rw [hjob]
      exact hsync
    · exact h.apart id' x hx hr
  · dsimp only
    obtain ⟨rfl, rfl⟩ | ⟨hid, hold⟩ := hcases hx
    · rw [Function.update_self]
      exact hok
    · rw [Function.update_of_ne hid]
      exact h.tasks.each id' x hold
  · obtain ⟨hid₁, hx⟩ | ⟨-, hx⟩ := hcases hx
    · obtain ⟨hid₂, -⟩ | ⟨-, hy⟩ := hcases hy
      · exact hid₁.trans hid₂.symm
      · exact absurd (hj.symm.trans (congrArg _ hx)) (hfree hy hry)
    · obtain ⟨-, hy⟩ | ⟨-, hy⟩ := hcases hy
      · exact absurd (hj.trans (congrArg _ hy)) (hfree hx hrx)
      · exact h.tasks.one id₁ id₂ x y hx hy hrx hry hj
  · obtain ⟨h1, h2⟩ := h.saved x hx
    refine ⟨h1.mono fun id' hid => ?_, fun id' hid => ?_⟩
    · have he : id' ≠ id := by
        obtain ⟨y, hy⟩ := Option.isSome_iff_exists.1 (h2 id' hid)
        exact hne hy
      dsimp only
      rw [Function.update_of_ne he]
      exact List.Subset.refl _
    · rw [get_put]
      split
      · rfl
      · exact h2 id' hid
  · obtain ⟨hid, he⟩ := List.mem_filter.1 hid
    have he : id' ≠ id := by simpa using he
    obtain ⟨hsame, -⟩ | ⟨-, hx⟩ := hcases hx
    · exact absurd hsame he
    · exact h.requested id' hid x hx hr

theorem startBackfill_kept [Calendar] (h : LifeInv zone s) {syncJobId : String}
    {start stop now : Int} (hok : s.Accepts zone syncJobId start stop now →
      (.sync, syncJobId) ∉ s.runs.workers ∧ s.tasks.get (backfillId now) = none) :
    Kept zone s (s.startBackfill zone syncJobId start stop now) := by
  unfold BackfillState.startBackfill
  split
  · exact kept_of_tasks h rfl
  · rename_i t hcreate
    split
    · exact kept_of_tasks h rfl
    · rename_i hjob
      obtain ⟨hname, hconfig⟩ := not_or.1 hjob
      split
      · exact kept_of_tasks h rfl
      · rename_i hidle
        have hsome : (s.runs.config .sync syncJobId).isSome :=
          Option.isSome_iff_ne_none.2 (by simpa using hconfig)
        have hfree : s.tasks.hasRunning syncJobId = false := by simpa using hidle
        obtain ⟨hsync, hnew⟩ := hok ⟨by rw [hcreate]; rfl, hname, hsome, hfree⟩
        obtain ⟨rfl, hlt, -, hstop⟩ := create_some hcreate
        refine ⟨added_inv h hnew ?_ rfl rfl rfl hsync hfree, fun id t ht => ?_⟩
        · exact ⟨backfillId_ne_empty now, hname, .start, hlt.le, fun hc => (by cases hc), hstop⟩
        · have hne : id ≠ backfillId now := by
            rintro rfl
            rw [hnew] at ht
            cases ht
          exact ⟨t, by rw [get_put, if_neg hne]; exact ht, .refl t⟩

/-! ## Runs -/

/-- The runs of sync jobs that the statuses know. -/
structure SyncKnown (r : RunState) : Prop where
  running : ∀ id, (.sync, id) ∈ r.workers → (r.config .sync id).isSome →
    (r.status .sync id).running = true
  once : ∀ id, r.workers.count (.sync, id) ≤ 1

theorem status_put (r : RunState) (k : RunKind) (id : String) (st : RunStatus) (k' : RunKind)
    (id' : String) {workers : List (RunKind × String)} {done : RunKind → String → Nat × Nat} :
    RunState.status { r with statuses := r.statuses.put k id st, workers, done } k' id' =
      if (k', id') = (k, id) then st else r.status k' id' := by
  unfold RunState.status
  dsimp only
  split
  · rename_i he
    cases he
    rw [Table.put_self]
    rfl
  · rename_i he
    rw [Table.put_ne _ _ _ _ he]

/-- A step of the runs starts a sync job or none. -/
theorem start_known {r : RunState} (h : SyncKnown r) (k : RunKind) (id : String)
    (backfill : Bool) : SyncKnown (r.start k id backfill) ∧
      ∀ id', (.sync, id') ∈ (r.start k id backfill).workers →
        (.sync, id') ∈ r.workers ∨ id' = id ∧ k = .sync ∧ backfill = false := by
  unfold RunState.start
  split
  · exact ⟨h, fun _ hw => .inl hw⟩
  · rename_i cfg hcfg
    split
    · exact ⟨h, fun _ hw => .inl hw⟩
    · split
      · exact ⟨h, fun _ hw => .inl hw⟩
      · rename_i hbackfill
        dsimp only
        split
        · rename_i hrun
          refine ⟨⟨fun id' hw hc => ?_, h.once⟩, fun _ hw => .inl hw⟩
          rw [status_put]
          split
          · rename_i he
            exact hrun
          · exact h.running id' hw hc
        · rename_i hrun
          have hnew : ∀ {id'}, (RunKind.sync, id') ∈ r.workers → (.sync, id') ≠ (k, id) := by
            intro id' hw he
            cases he
            exact hrun (h.running _ hw (by rw [hcfg]; rfl))
          refine ⟨⟨fun id' hw hc => ?_, fun id' => ?_⟩, fun id' hw => ?_⟩
          · rw [status_put]
            split
            · rfl
            · rename_i hne
              obtain hw | hw := List.mem_append.1 hw
              · exact h.running id' hw hc
              · exact absurd (List.mem_singleton.1 hw) hne
          · rw [List.count_append]
            by_cases hw : (RunKind.sync, id') ∈ r.workers
            · have hzero : [(k, id)].count (RunKind.sync, id') = 0 :=
                List.count_eq_zero.2 fun hm => hnew hw (List.mem_singleton.1 hm)
              have honce := h.once id'
              omega
            · have hzero := List.count_eq_zero.2 hw
              have hle : [(k, id)].count (RunKind.sync, id') ≤ 1 := List.count_le_length
              omega
          · obtain hw | hw := List.mem_append.1 hw
            · exact .inl hw
            · have he := List.mem_singleton.1 hw
              cases he
              exact .inr ⟨rfl, rfl, by simpa using hbackfill⟩

theorem finish_known [Calendar] {r : RunState} (h : SyncKnown r) (k : RunKind) (id : String)
    (failure : Option String) (now : Int) : SyncKnown (r.step (.finish k id failure now)) ∧
      ∀ id', (.sync, id') ∈ (r.step (.finish k id failure now)).workers →
        (.sync, id') ∈ r.workers := by
  unfold RunState.step
  dsimp only
  split
  · refine ⟨⟨fun id' hw hc => ?_, fun id' => ?_⟩, fun id' hw => List.mem_of_mem_erase hw⟩
    · rw [status_put]
      have hne : (RunKind.sync, id') ≠ (k, id) := by
        intro he
        have honce := h.once id'
        have hpos := List.count_pos_iff.2 hw
        dsimp only at hpos
        rw [← he, List.count_erase_self] at hpos
        omega
      rw [if_neg hne]
      exact h.running id' (List.mem_of_mem_erase hw) hc
    · exact (List.erase_sublist.count_le _).trans (h.once id')
  · exact ⟨h, fun _ hw => hw⟩

theorem tick_known [Calendar] {r : RunState} (h : SyncKnown r) (now : Int)
    (backfill : String → Bool) : SyncKnown (r.step (.tick now backfill)) := by
  refine ⟨fun id hw hc => ?_, h.once⟩
  obtain ⟨cfg, hcfg⟩ := Option.isSome_iff_exists.1 hc
  have hcfg : r.config .sync id = some cfg := hcfg
  have hstatus : (r.step (.tick now backfill)).status .sync id =
      (r.status .sync id).tick cfg now (decide (RunKind.sync = .sync) && backfill id) := by
    unfold RunState.step
    rw [RunState.status]
    simp only [hcfg, Option.getD_some]
  rw [hstatus, (tick_sameRuns _ _ _ _).running]
  exact h.running id hw (by rw [hcfg]; rfl)

/-- A step of the runs keeps the statuses of the sync jobs, and starts one whose backfill does not
run. -/
theorem runs_known [Calendar] {r : RunState} (h : SyncKnown r) (step : RunStep)
    (hok : ∀ i, step = .install i → ∀ x, r.reloads[i]? = some x → ∀ id,
      (.sync, id) ∈ r.workers → (x.config .sync id).isSome →
      ((x.statuses .sync id).getD {}).running = true) :
    SyncKnown (r.step step) ∧ ∀ id, (.sync, id) ∈ (r.step step).workers →
      (.sync, id) ∈ r.workers ∨ ∃ k backfill, step = .start k id backfill ∧ backfill = false := by
  cases step with
  | start k id backfill =>
    obtain ⟨h1, h2⟩ := start_known h k id backfill
    refine ⟨h1, fun id' hw => ?_⟩
    obtain hw | ⟨hid, -, hb⟩ := h2 id' hw
    · exact .inl hw
    · exact .inr ⟨k, backfill, by rw [hid], hb⟩
  | finish k id failure now =>
    obtain ⟨h1, h2⟩ := finish_known h k id failure now
    exact ⟨h1, fun id' hw => .inl (h2 id' hw)⟩
  | tick now backfill => exact ⟨tick_known h now backfill, fun _ hw => .inl hw⟩
  | reload databases entries => exact ⟨⟨h.running, h.once⟩, fun _ hw => .inl hw⟩
  | copy i now =>
    unfold RunState.step
    dsimp only
    split
    · exact ⟨h, fun _ hw => .inl hw⟩
    · exact ⟨⟨h.running, h.once⟩, fun _ hw => .inl hw⟩
  | abandon i => exact ⟨⟨h.running, h.once⟩, fun _ hw => .inl hw⟩
  | install i =>
    unfold RunState.step
    dsimp only
    split
    · exact ⟨h, fun _ hw => .inl hw⟩
    · rename_i x hx
      split
      · exact ⟨⟨hok i rfl x hx, h.once⟩, fun _ hw => .inl hw⟩
      · exact ⟨h, fun _ hw => .inl hw⟩

theorem runs_kept [Calendar] (h : LifeInv zone s) (step : RunStep)
    (hok : s.Admits zone (.runs step)) : Kept zone s (s.step zone (.runs step)) := by
  have hinstall : ∀ i, s.readTasks step = .install i → ∀ x, s.runs.reloads[i]? = some x → ∀ id,
      (.sync, id) ∈ s.runs.workers → (x.config .sync id).isSome →
      ((x.statuses .sync id).getD {}).running = true := by
    intro i hi
    cases step with
    | install j =>
      cases hi
      exact hok
    | _ => cases hi
  obtain ⟨hknown, hworkers⟩ := runs_known ⟨h.syncRunning, h.syncOnce⟩ (s.readTasks step) hinstall
  refine kept_of_tasks ⟨hknown.running, hknown.once, h.worker, h.once, h.attended,
    fun id t ht hrun hw => ?_, h.tasks, h.saved, h.requested, h.quiet⟩ rfl
  obtain hw | ⟨k, backfill, hstart, hfree⟩ := hworkers _ hw
  · exact h.apart id t ht hrun hw
  · -- the code has looked for a running backfill of the job
    have hnone : s.tasks.hasRunning t.syncJobId = false := by
      cases step with
      | start k' id' backfill' =>
        cases hstart
        exact hfree
      | _ => cases hstart
    have hsome : s.tasks.hasRunning t.syncJobId = true :=
      hasRunning_iff.2 ⟨id, t, ht, hrun, rfl⟩
    rw [hnone] at hsome
    cases hsome

/-! ## The state file -/

theorem save_inv [Calendar] (h : LifeInv zone s) : LifeInv zone (s.step zone .save) := by
  refine ⟨h.syncRunning, h.syncOnce, h.worker, h.once, h.attended, h.apart, h.tasks,
    fun x hx => ?_, h.requested, h.quiet⟩
  obtain hx | hx := hx
  · exact h.saved x (.inl hx)
  · obtain hx | hx := List.mem_append.1 hx
    · exact h.saved x (.inr hx)
    · rw [List.mem_singleton.1 hx]
      exact ⟨h.tasks, fun _ hid => hid⟩

theorem write_file_inv [Calendar] (h : LifeInv zone s) (i : Nat) :
    LifeInv zone (s.step zone (.write i)) := by
  unfold BackfillState.step
  dsimp only
  split
  · rename_i saved hsaved
    refine ⟨h.syncRunning, h.syncOnce, h.worker, h.once, h.attended, h.apart, h.tasks,
      fun x hx => h.saved x (.inr ?_), h.requested, h.quiet⟩
    obtain rfl | hx := hx
    · exact List.mem_of_getElem? hsaved
    · exact List.mem_of_mem_eraseIdx hx
  · exact h

/-- The tasks of the file are all loaded. -/
theorem load_some {reported : String → List (Int × Int)} {m : TaskMap}
    (h : TasksOk reported zone m) {id : String} {t : BackfillTask} :
    m.load.get id = some t ↔ ∃ x, m.get id = some x ∧ t = { x with workerRunning := false } := by
  unfold TaskMap.load
  dsimp only
  cases hx : m.get id with
  | none => simp
  | some x =>
    obtain ⟨hid, hjob, -⟩ := h.each id x hx
    show (if x.id = "" ∨ x.syncJobId = "" then none else
      some { x with workerRunning := false }) = some t ↔ _
    rw [if_neg (not_or.2 ⟨hid, hjob⟩)]
    constructor
    · intro he
      exact ⟨x, rfl, (Option.some.inj he).symm⟩
    · intro ⟨y, hy, ht⟩
      rw [ht, Option.some.inj hy]

theorem restart_inv [Calendar] (h : LifeInv zone s) (databases : List String)
    (entries : List (RunKind × String × RunConfig))
    (hok : s.Admits zone (.restart databases entries)) :
    LifeInv zone (s.step zone (.restart databases entries)) := by
  obtain ⟨hfile, -⟩ := h.saved s.file (.inl rfl)
  have hsome : ∀ {id t}, s.file.tasks.load.get id = some t → ∃ x, s.file.tasks.get id = some x ∧
      t = { x with workerRunning := false } := fun hx => (load_some hfile).1 hx
  have hloaded : TasksOk s.reported zone s.file.tasks.load := by
    refine ⟨fun id t ht => ?_, fun id₁ id₂ x y hx hy hrx hry hj => ?_⟩
    · obtain ⟨x, hx, rfl⟩ := hsome ht
      obtain ⟨h1, h2, h3, h4, h5, h6⟩ := hfile.each id x hx
      exact ⟨h1, h2, h3, h4, h5, h6⟩
    · obtain ⟨x', hx', rfl⟩ := hsome hx
      obtain ⟨y', hy', rfl⟩ := hsome hy
      exact hfile.one id₁ id₂ x' y' hx' hy' hrx hry hj
  refine ⟨fun id hw => (by cases hw), fun _ => by simp [BackfillState.step, RunState.boot],
    fun w hw => (by cases hw), List.nodup_nil, fun id t ht _ hw => ?_, fun id t _ _ hw => (by cases hw),
    hloaded, fun x hx => ?_, fun id hid t ht hrun => ?_, h.quiet⟩
  · obtain ⟨x, -, rfl⟩ := hsome ht
    cases hw
  · obtain rfl | hx := hx
    · refine ⟨hfile, fun id hid => ?_⟩
      obtain ⟨y, hy⟩ := Option.isSome_iff_exists.1 hid
      exact Option.isSome_iff_exists.2 ⟨_, (load_some hfile).2 ⟨y, hy, rfl⟩⟩
    · cases hx
  · obtain ⟨x, hx, rfl⟩ := hsome ht
    exact hok id hid x hx hrun

/-! ## Runs of the service -/

/-- A waiting task gets a worker that begins at its cursor. -/
theorem resumes [Calendar] (s : BackfillState) (zone : Int) : s.Resumes zone := by
  intro id t cfg job ht hrun hidle hcfg hdatabases
  have hstart : s.step zone (.startAsync id job) = { s with
      tasks := s.tasks.put id { t with workerRunning := true }
      workers := s.workers ++
        [{ task := id, job := t.syncJobId, chunk := job.chunkSeconds
           chunkPos := job.chunkSeconds_pos }] } := by
    show s.startAsync id job = _
    unfold BackfillState.startAsync
    simp [ht, hrun, hidle, hcfg]
    exact hdatabases
  rw [hstart]
  refine ⟨_, rfl, rfl, fun hcancel => ?_⟩
  unfold BackfillState.step
  dsimp only
  rw [List.getElem?_concat_length]
  dsimp only
  rw [if_pos rfl]
  unfold BackfillState.look
  dsimp only
  rw [get_put, if_pos rfl]
  simp [hcancel]

/-- **Every admitted step** keeps the invariant and does what is asked. -/
theorem life_step [Calendar] (h : LifeInv zone s) (step : BackfillStep)
    (hok : s.Admits zone step) :
    LifeInv zone (s.step zone step) ∧ s.Faithful zone step := by
  have hkept : ∀ {s'}, Kept zone s s' → LifeInv zone s' ∧ ∀ id t, s.tasks.get id = some t →
      ∃ t', s'.tasks.get id = some t' ∧ t.Continues t' := fun hk => ⟨hk.inv, hk.tasks⟩
  cases step with
  | runs step => exact hkept (runs_kept h step hok)
  | startBackfill syncJobId start stop now => exact hkept (startBackfill_kept h hok)
  | startAsync id job => exact hkept (startAsync_kept h id job)
  | look i =>
    refine hkept ?_
    unfold BackfillState.step
    dsimp only
    split
    · rename_i w hw
      split
      · exact look_kept h hw fun t ht => hok w t hw ht
      · exact kept_of_tasks h rfl
    · exact kept_of_tasks h rfl
  | finish i result =>
    refine hkept ?_
    unfold BackfillState.step
    dsimp only
    split
    · rename_i w hw
      split
      · rename_i cursor stop hread
        exact finish_kept h hw hread result
      · exact kept_of_tasks h rfl
    · exact kept_of_tasks h rfl
  | cancel id => exact hkept (cancel_kept h id)
  | save => exact hkept (kept_of_tasks (save_inv h) rfl)
  | write i =>
    refine hkept (kept_of_tasks (write_file_inv h i) ?_)
    unfold BackfillState.step
    dsimp only
    split <;> rfl
  | restart databases entries =>
    refine ⟨restart_inv h databases entries hok, fun id t ht => ?_, resumes _ zone⟩
    exact (load_some (h.saved s.file (.inl rfl)).1).2 ⟨t, ht, rfl⟩

theorem LifeInv.sound (h : LifeInv zone s) : s.LifeSound := by
  refine ⟨?_, fun id t ht => (h.tasks.each id t ht).reached, fun id t ht hc => ?_, h.attended,
    h.quiet⟩
  · unfold BackfillState.working
    rw [List.nodup_append]
    refine ⟨?_, ?_, fun a ha b hb hab => ?_⟩
    · rw [List.nodup_iff_count_le_one]
      intro id
      rw [count_syncIds]
      exact h.syncOnce id
    · -- two workers of one job have one task
      have honce := h.once
      rw [List.Nodup, List.pairwise_map] at honce ⊢
      refine honce.imp_of_mem fun {w w'} hw hw' hne hjob => hne ?_
      obtain ⟨x, hx, hatt⟩ := h.worker w hw
      obtain ⟨y, hy, hatt'⟩ := h.worker w' hw'
      exact h.tasks.one _ _ x y hx hy hatt.status hatt'.status
        (hatt.job.trans (hjob.trans hatt'.job.symm))
    · obtain ⟨w, hw, rfl⟩ := List.mem_map.1 hb
      obtain ⟨x, hx, hatt⟩ := h.worker w hw
      rw [mem_syncIds, hab, ← hatt.job] at ha
      exact h.apart _ x hx hatt.status ha
  · obtain hok := h.tasks.each id t ht
    rw [← hok.complete hc]
    exact hok.reached

/-- The service at its first start, without a state file. -/
def BackfillState.boot (databases : List String) (entries : List (RunKind × String × RunConfig)) :
    BackfillState :=
  { runs := .boot (fun _ _ => none) { databases, todo := entries } }

end

/-! ## Examples -/

section
attribute [local instance] noCalendar

def oneSync : List (RunKind × String × RunConfig) :=
  [(.sync, "j", { enabled := true, onCalendar := "", databases := ["d"] })]

/-- A backfill of one hour is saved before its chunk, and goes on after a restart. -/
def restartedBackfill : List BackfillStep :=
  [.runs (.copy 0 0), .runs (.install 0), .startBackfill "j" 0 3600 5, .save, .write 0,
    .startAsync "backfill_5" hourlyJob, .restart ["d"] oneSync, .runs (.copy 0 6),
    .runs (.install 0), .startAsync "backfill_5" hourlyJob, .look 0,
    .finish 0 { ok := true, a := [], b := [] }]

/-- The sync job is running when its backfill is started. -/
def backfillDuringSync : List BackfillStep :=
  [.runs (.copy 0 0), .runs (.install 0), .runs (.start .sync "j" false),
    .startBackfill "j" 0 3600 5, .startAsync "backfill_5" hourlyJob]

end

end OpcBridge.Logger
