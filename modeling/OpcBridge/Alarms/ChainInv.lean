import OpcBridge.Alarms.Chains
import OpcBridge.Lib.Run

/-!
# The chains of a run

`ChainInv` joins what holds of the chains with two facts about the alarms: a worker that was told to
continue is about to notify an active alarm, and so did every attempt. Every step of a worker keeps
it (`worker_chainInv`), and so does a change of an alarm that is calm (`change_chainInv`): no alarm
becomes active while a chain of it is left or while two of its groups select one policy under active
schedules, and no alarm returns between a worker's question and the attempt.
-/

namespace OpcBridge.Alarms

open OpcBridge Lib

section
variable [Floats]

/-! ## The chains of a state -/

/-- The chains among the jobs of a queue. -/
def chainsIn (jobs : List Job) : List (Job × Int) := (jobs.map Job.queued).filter fun x => x.1.isActive

def Worker.chains (w : Worker) : List (Job × Int) := w.live.filter fun x => x.1.isActive

def Notifier.chainsOn (s : Notifier) (q : JobQueue) : List (Job × Int) :=
  (s.worker q).chains ++ chainsIn (s.queue q)

def Notifier.chains (s : Notifier) : List (Job × Int) := s.chainsOn .audio ++ s.chainsOn .modem

omit [Floats] in
theorem chainsIn_append (jobs jobs' : List Job) :
    chainsIn (jobs ++ jobs') = chainsIn jobs ++ chainsIn jobs' := by
  unfold chainsIn
  rw [List.map_append, List.filter_append]

omit [Floats] in
theorem chainsIn_cons (job : Job) (jobs : List Job) :
    chainsIn (job :: jobs) = (Worker.popped job).chains ++ chainsIn jobs :=
  chainsIn_append [job] jobs

omit [Floats] in
theorem chainsIn_perm {jobs jobs' : List Job} (h : jobs.Perm jobs') :
    (chainsIn jobs).Perm (chainsIn jobs') := (h.map _).filter _

omit [Floats] in
theorem other_ne (q : JobQueue) : q.other ≠ q := by cases q <;> exact JobQueue.noConfusion

theorem chains_perm (s : Notifier) (q : JobQueue) :
    s.chains.Perm (s.chainsOn q ++ s.chainsOn q.other) := by
  cases q with
  | audio => exact List.Perm.refl _
  | modem => exact List.perm_append_comm

omit [Floats] in
theorem chains_of_active {w : Worker} {job : Job} {n : Int} (hw : w.live = [(job, n)])
    (h : job.isActive = true) : w.chains = [(job, n)] := by
  unfold Worker.chains
  rw [hw]
  exact List.filter_cons_of_pos h

omit [Floats] in
theorem repeating_chains {job : Job} (h : job.isActive = true) :
    (Worker.repeating job).chains = [job.queued] := chains_of_active rfl h

omit [Floats] in
theorem chains_of_inactive {w : Worker} {job : Job} {n : Int} (hw : w.live = [(job, n)])
    (h : job.isActive = false) : w.chains = [] := by
  unfold Worker.chains
  rw [hw]
  exact List.filter_cons_of_neg (by rw [h]; exact Bool.false_ne_true)

/-! ## The earliest job -/

omit [Floats] in
theorem takeBest_perm {jobs rest : List Job} {best : Job} (h : takeBest jobs = some (best, rest)) :
    jobs.Perm (best :: rest) := by
  induction jobs generalizing best rest with
  | nil => cases h
  | cons job jobs ih =>
    unfold takeBest at h
    split at h
    · rename_i hnone
      obtain ⟨rfl, rfl⟩ := Prod.mk.inj (Option.some.inj h)
      cases jobs with
      | nil => exact List.Perm.refl _
      | cons job' jobs =>
        unfold takeBest at hnone
        split at hnone
        · cases hnone
        · split at hnone <;> cases hnone
    · rename_i best' rest' hsome
      split at h
      · obtain ⟨rfl, rfl⟩ := Prod.mk.inj (Option.some.inj h)
        exact ((ih hsome).cons job).trans (List.Perm.swap _ _ _)
      · obtain ⟨rfl, rfl⟩ := Prod.mk.inj (Option.some.inj h)
        exact List.Perm.refl _

/-! ## The invariant -/

structure ChainInv (cfg : NotificationConfig) (s : Notifier) : Prop where
  chains : Chains cfg s.chains s.activations s.attempts
  checked : ∀ q job, s.worker q = .checked job → job.isActive = true →
    s.alarmActive job.alarmId = true
  attempts : ∀ a ∈ s.attempts, a.job.isActive = true →
    a.current = a.job.activation ∧ a.alarmActive = true

variable {cfg : NotificationConfig} {s s' : Notifier} {q : JobQueue}

/-- A worker's step changes its own queue and round only. -/
theorem ChainInv.round (h : ChainInv cfg s)
    (hsame : s'.states = s.states ∧ s'.activations = s.activations)
    (hother : ∀ q', q' ≠ q → s'.queue q' = s.queue q' ∧ s'.worker q' = s.worker q')
    (hchains : ∀ rest, Chains cfg (s.chainsOn q ++ rest) s.activations s.attempts →
      Chains cfg (s'.chainsOn q ++ rest) s.activations s'.attempts)
    (hchecked : ∀ job, s'.worker q = .checked job → job.isActive = true →
      s.alarmActive job.alarmId = true)
    (hattempts : ∀ a ∈ s'.attempts, a.job.isActive = true →
      a.current = a.job.activation ∧ a.alarmActive = true) : ChainInv cfg s' where
  chains := by
    have hrest : s'.chainsOn q.other = s.chainsOn q.other := by
      obtain ⟨hqueue, hworker⟩ := hother q.other (other_ne q)
      unfold Notifier.chainsOn
      rw [hqueue, hworker]
    have hc := hchains _ (h.chains.perm (chains_perm s q))
    rw [← hrest, ← hsame.2] at hc
    exact hc.perm (chains_perm s' q).symm
  checked q' job hjob hactive := by
    unfold Notifier.alarmActive
    rw [hsame.1]
    by_cases hq : q' = q
    · rw [hq] at hjob
      exact hchecked job hjob hactive
    · rw [(hother q' hq).2] at hjob
      exact h.checked q' job hjob hactive
  attempts := hattempts

/-- A step that leaves the queues and the attempts. -/
theorem ChainInv.setWorker (h : ChainInv cfg s) (w : Worker)
    (hchains : ∀ rest, Chains cfg ((s.worker q).chains ++ rest) s.activations s.attempts →
      Chains cfg (w.chains ++ rest) s.activations s.attempts)
    (hchecked : ∀ job, w = .checked job → job.isActive = true →
      s.alarmActive job.alarmId = true) : ChainInv cfg (s.setWorker q w) := by
  have hself : (s.setWorker q w).worker q = w := Function.update_self ..
  refine h.round (q := q) ⟨rfl, rfl⟩ (fun q' hq => ⟨rfl, Function.update_of_ne hq _ _⟩)
    (fun rest hc => ?_) (fun job hjob => hchecked job (hself.symm.trans hjob)) h.attempts
  unfold Notifier.chainsOn at hc ⊢
  rw [hself, List.append_assoc]
  rw [List.append_assoc] at hc
  exact hchains _ hc

theorem ChainInv.toIdle (h : ChainInv cfg s) : ChainInv cfg (s.setWorker q .idle) :=
  h.setWorker .idle (fun rest hc => hc.drop (List.sublist_append_right _ _))
    (fun job hjob => by cases hjob)

theorem shouldContinueNotification_active {states : String → Option AlarmState} {id until_ : String}
    {t : Int} (h : shouldContinueNotification states id until_ t = true) :
    (states id).any (·.active) = true := by
  unfold shouldContinueNotification at h
  split at h
  · cases h
  · rename_i a ha
    rw [ha]
    show a.active = true
    split at h
    · cases h
    · split at h
      · exact h
      · split at h
        · exact (Bool.and_eq_true _ _ ▸ h).1
        · split at h
          · exact h
          · exact (Bool.and_eq_true _ _ ▸ h).1

/-! ## The steps of a worker -/

theorem pop_chainInv (h : ChainInv cfg s) (now : Int) : ChainInv cfg (s.pop q now) := by
  unfold Notifier.pop
  split
  · rename_i best rest hidle hbest
    split
    · exact h
    · refine h.round (q := q) ⟨rfl, rfl⟩
        (fun q' hq => ⟨Function.update_of_ne hq _ _, Function.update_of_ne hq _ _⟩)
        (fun others hc => ?_) (fun job hjob => ?_) h.attempts
      · refine hc.perm (List.Perm.append_right _ ?_)
        unfold Notifier.chainsOn Notifier.setWorker
        dsimp only
        rw [hidle, Function.update_self, Function.update_self, ← chainsIn_cons]
        exact chainsIn_perm (takeBest_perm hbest)
      · dsimp only [Notifier.setWorker] at hjob
        rw [Function.update_self] at hjob
        cases hjob
  · exact h

theorem check_chainInv (h : ChainInv cfg s) (t : Int) : ChainInv cfg (s.check q t) := by
  unfold Notifier.check
  split
  · rename_i job hpopped
    split
    · exact h.toIdle
    · rename_i hcontinue
      refine h.setWorker (.checked job) (fun rest hc => ?_) (fun job' hjob' hactive => ?_)
      · rw [hpopped] at hc
        exact hc
      · obtain rfl := Worker.checked.inj hjob'
        unfold Job.isActive at hactive
        rw [hactive, Bool.true_and, Bool.not_eq_true', Bool.not_eq_false] at hcontinue
        exact shouldContinueNotification_active hcontinue
  · exact h

theorem start_chainInv (h : ChainInv cfg s) : ChainInv cfg (s.start q) := by
  unfold Notifier.start
  split
  · rename_i job hchecked
    have hself : (s.setWorker q (.running job)).worker q = .running job := Function.update_self ..
    refine h.round (q := q) ⟨rfl, rfl⟩ (fun q' hq => ⟨rfl, Function.update_of_ne hq _ _⟩)
      (fun rest hc => ?_) (fun job' hjob' => ?_) (fun a ha hactive => ?_)
    · unfold Notifier.chainsOn at hc ⊢
      dsimp only
      rw [hself]
      rw [hchecked] at hc
      change Chains cfg ((Worker.running job).chains ++ chainsIn (s.queue q) ++ rest) _ _
      cases hactive : job.isActive with
      | false =>
        rw [chains_of_inactive rfl hactive] at hc ⊢
        exact hc.silent _ hactive
      | true =>
        rw [chains_of_active rfl hactive] at hc ⊢
        exact hc.attempt _ rfl
    · cases hself.symm.trans hjob'
    · rcases List.mem_append.1 ha with ha | ha
      · exact h.attempts a ha hactive
      · -- the chain of the worker is current
        rw [List.mem_singleton.1 ha] at hactive ⊢
        have hc := h.chains.perm (chains_perm s q)
        unfold Notifier.chainsOn at hc
        rw [hchecked, chains_of_active rfl hactive] at hc
        exact ⟨(hc.current _ List.mem_cons_self).symm, h.checked q job hchecked hactive⟩
  · exact h

theorem finish_chainInv (h : ChainInv cfg s) : ChainInv cfg (s.finish q) := by
  unfold Notifier.finish
  split
  · rename_i job hrunning
    refine h.setWorker (.finished job) (fun rest hc => ?_) (fun job' hjob' => by cases hjob')
    rw [hrunning] at hc
    exact hc
  · exact h

theorem decideRepeat_chainInv (h : ChainInv cfg s) (t now : Int) :
    ChainInv cfg (s.decideRepeat q t now) := by
  unfold Notifier.decideRepeat
  split
  · rename_i job hfinished
    split
    · rename_i hrepeat
      split
      · exact h.toIdle
      · rename_i hleft
        rw [Bool.and_eq_true, Bool.and_eq_true] at hrepeat
        have hactive : job.isActive = true := hrepeat.1.1
        refine h.setWorker _ (fun rest hc => ?_) (fun job' hjob' => by cases hjob')
        rw [hfinished, chains_of_active rfl hactive] at hc
        rw [repeating_chains]
        · refine hc.again rfl rfl fun h0 => ?_
          dsimp only
          rw [if_pos (by omega)]
          omega
        · exact hactive
    · exact h.toIdle
  · exact h

theorem push_chainInv (h : ChainInv cfg s) : ChainInv cfg (s.push q) := by
  unfold Notifier.push
  split
  · rename_i job hrepeating
    refine h.round (q := q) ⟨rfl, rfl⟩
      (fun q' hq => ⟨Function.update_of_ne hq _ _, Function.update_of_ne hq _ _⟩)
      (fun others hc => ?_) (fun job' hjob' => ?_) h.attempts
    · refine hc.perm (List.Perm.append_right _ ?_)
      unfold Notifier.chainsOn Notifier.setWorker
      dsimp only
      rw [hrepeating, Function.update_self, Function.update_self]
      show (chainsIn [job] ++ chainsIn (s.queue q)).Perm (chainsIn (s.queue q ++ [job]))
      rw [← chainsIn_append]
      exact chainsIn_perm List.perm_append_comm
    · dsimp only [Notifier.setWorker] at hjob'
      rw [Function.update_self] at hjob'
      cases hjob'
  · exact h

/-! ## Activations -/

theorem activateAlarm_eventTypes (r : AlarmRule) (record : Bool) (t ts : Int) (a : AlarmState) :
    (activateAlarm r record t ts a).2.filterMap Mark.eventType = [] ∨
      (activateAlarm r record t ts a).2.filterMap Mark.eventType = ["active"] ∧
        (activateAlarm r record t ts a).1.active = true := by
  unfold activateAlarm
  split
  · exact .inl rfl
  · split
    · exact .inl rfl
    · dsimp only
      split
      · exact .inr ⟨rfl, rfl⟩
      · exact .inl rfl

theorem returnAlarm_eventTypes (r : AlarmRule) (record : Bool) (t ts : Int) (a : AlarmState) :
    (returnAlarm r record t ts a).2.filterMap Mark.eventType = [] ∨
      (returnAlarm r record t ts a).2.filterMap Mark.eventType = ["return"] := by
  unfold returnAlarm
  dsimp only
  split
  · exact .inr rfl
  · split <;> exact .inl rfl

theorem processAlarm_eventTypes (rule : Option AlarmRule) (t ts : Int) (a : AlarmState) :
    (processAlarm rule t ts a).2.filterMap Mark.eventType = [] ∨
      (processAlarm rule t ts a).2.filterMap Mark.eventType = ["active"] ∧
        a.active = false ∧ (processAlarm rule t ts a).1.active = true := by
  unfold processAlarm
  split
  · exact .inl rfl
  · rename_i hpending
    have hinactive : a.active = false := by
      simp only [Bool.or_eq_true, not_or, Bool.not_eq_true] at hpending
      exact hpending.1.2
    split
    · exact .inl rfl
    · split
      · exact .inl rfl
      · split
        · exact .inl rfl
        · dsimp only
          split
          · exact .inr ⟨rfl, hinactive, rfl⟩
          · exact .inl rfl

section
variable [JsonLib]

theorem updateAlarm_eventTypes (r : AlarmRule) (value : Json) (record : Bool) (t ts : Int)
    (a : AlarmState) :
    let next := updateAlarm r value record t ts a
    next.2.filterMap Mark.eventType = [] ∨ next.2.filterMap Mark.eventType = ["return"] ∨
      next.2.filterMap Mark.eventType = ["active"] ∧ a.active = false ∧ next.1.active = true := by
  dsimp only
  obtain ⟨-, hx⟩ | ⟨-, -, ha, hx⟩ | ⟨-, -, ha, hx⟩ | ⟨-, -, ⟨-, hx⟩ | ⟨-, hx⟩ | ⟨-, hx⟩⟩ :=
    updateAlarm_cases r value record t ts a
  · left
    rw [hx]
    unfold suppressAlarm
    dsimp only
    split
    · split <;> rfl
    · rfl
  · rw [hx]
    rcases activateAlarm_eventTypes r record t ts (evalState r value t a) with h | ⟨h, hnext⟩
    · exact .inl h
    · exact .inr (.inr ⟨h, ha, hnext⟩)
  · rw [hx]
    exact (returnAlarm_eventTypes r record t ts (evalState r value t a)).imp_right .inl
  all_goals
    rw [hx]
    exact .inl rfl

/-- An effect has at most one event, and an `active` event when the alarm becomes active. -/
theorem run_eventTypes (f : Effect) (a : AlarmState) :
    (f.run a).2.filterMap Mark.eventType = ["active"] ∧ a.active = false ∧ (f.run a).1.active = true ∨
      ∀ type ∈ (f.run a).2.filterMap Mark.eventType, type ≠ "active" := by
  have hnone : ∀ {types : List String}, types = [] → ∀ type ∈ types, type ≠ "active" := by
    intro types h type htype
    rw [h] at htype
    cases htype
  have hone : ∀ {types : List String} (other : String), types = [other] → other ≠ "active" →
      ∀ type ∈ types, type ≠ "active" := by
    intro types other h hother type htype
    rw [h] at htype
    rw [List.mem_singleton.1 htype]
    exact hother
  cases f with
  | skip => exact .inr (hnone rfl)
  | bad => exact .inr (hnone rfl)
  | update r value record t ts =>
    rcases updateAlarm_eventTypes r value record t ts a with h | h | h
    · exact .inr (hnone h)
    · exact .inr (hone _ h (by decide))
    · exact .inl h
  | process rule t ts =>
    rcases processAlarm_eventTypes rule t ts a with h | h
    · exact .inr (hnone h)
    · exact .inl h
  | ack t ts actor note => exact .inr (hone "ack" rfl (by decide))
  | shelve until_ t ts actor note => exact .inr (hone "shelve" rfl (by decide))
  | unshelve t ts actor note => exact .inr (hone "unshelve" rfl (by decide))

/-! ## Calm changes -/

/-- A change of the alarm `a` that leaves its chains single and current. -/
structure Calm (setup : NotifySetup) (s : Notifier) (id : String) (f : Effect) (env : NotifyEnv)
    (a : AlarmState) : Prop where
  /-- An alarm becomes active when it has no chain left. -/
  free : a.active = false → (f.run a).1.active = true → ∀ x ∈ s.chains, x.1.alarmId ≠ id
  /-- Its groups select a policy once. -/
  single : "active" ∈ (f.run a).2.filterMap Mark.eventType →
    SinglePolicies setup.cfg env id (setup.info id)
  /-- It returns when no worker was just told to continue. -/
  asked : a.active = true → (f.run a).1.active = false → ∀ q job, s.worker q = .checked job →
    job.isActive = true → job.alarmId ≠ id

def CalmOp (setup : NotifySetup) (s : Notifier) : NotifyOp → Prop
  | .change id f env => ∀ a, s.states id = some a → Calm setup s id f env a
  | _ => True

omit [JsonLib] in
theorem enqueue_chains (s : Notifier) (jobs : List (JobQueue × Job)) :
    ({ s with queue := fun q =>
        s.queue q ++ (jobs.filter fun x => decide (x.1 = q)).map Prod.snd } : Notifier).chains.Perm
      (s.chains ++ chainsIn (jobs.map Prod.snd)) := by
  have hsplit : (chainsIn ((jobs.filter fun x => decide (x.1 = .audio)).map Prod.snd) ++
      chainsIn ((jobs.filter fun x => decide (x.1 = .modem)).map Prod.snd)).Perm
      (chainsIn (jobs.map Prod.snd)) := by
    rw [← chainsIn_append, ← List.map_append]
    have hmodem : (fun x : JobQueue × Job => decide (x.1 = .modem)) = fun x => !decide (x.1 = .audio) := by
      funext x
      cases x.1 <;> rfl
    rw [hmodem]
    exact chainsIn_perm ((List.filter_append_perm _ jobs).map _)
  unfold Notifier.chains Notifier.chainsOn
  dsimp only
  rw [chainsIn_append, chainsIn_append]
  refine List.Perm.trans ?_ (hsplit.append_left _)
  have hswap : ∀ l₁ l₂ l₃ l₄ : List (Job × Int),
      (l₁ ++ (l₂ ++ (l₃ ++ l₄))).Perm (l₂ ++ (l₃ ++ (l₁ ++ l₄))) := by
    intro l₁ l₂ l₃ l₄
    have h : (l₁ ++ (l₂ ++ l₃)).Perm ((l₂ ++ l₃) ++ l₁) := List.perm_append_comm
    simpa only [List.append_assoc] using h.append_right l₄
  simp only [List.append_assoc]
  exact List.Perm.append_left _ (List.Perm.append_left _ (hswap _ _ _ _))

/-- The activation of a change. -/
theorem change_chains {setup : NotifySetup} (h : ChainInv setup.cfg s) {id : String} {f : Effect}
    {env : NotifyEnv} {a : AlarmState} (hcalm : Calm setup s id f env a) :
    let activation := s.nextActivation id a (f.run a).1
    let jobs := ((f.run a).2.filterMap Mark.eventType).flatMap fun type =>
      setup.cfg.enqueuePolicyJobs env id (setup.info id) type activation
    Chains setup.cfg (s.chains ++ chainsIn (jobs.map Prod.snd))
      (Function.update s.activations id activation) s.attempts := by
  intro activation jobs
  rcases run_eventTypes f a with ⟨htypes, hbefore, hafter⟩ | htypes
  · have hactivation : activation = s.activations id + 1 := by
      show s.nextActivation id a (f.run a).1 = _
      unfold Notifier.nextActivation
      rw [hbefore, hafter]
      rfl
    have hfree := hcalm.free hbefore hafter
    have hsingle := hcalm.single (by rw [htypes]; exact List.mem_singleton_self _)
    have hjobs : jobs = setup.cfg.enqueuePolicyJobs env id (setup.info id) "active" activation := by
      show ((f.run a).2.filterMap Mark.eventType).flatMap _ = _
      rw [htypes, List.flatMap_cons, List.flatMap_nil, List.append_nil]
    have hof : ∀ job ∈ jobs.map Prod.snd, job.alarmId = id ∧ job.eventType = "active" ∧
        job.activation = activation ∧ ∃ p, setup.cfg.policies job.policyId = some p ∧
          job.repeatsLeft = NotificationConfig.repeatsAfterFirst p := by
      intro job hjob
      obtain ⟨x, hx, rfl⟩ := List.mem_map.1 hjob
      rw [hjobs] at hx
      exact enqueuePolicyJobs_of env id (setup.info id) "active" activation hx
    have hall : chainsIn (jobs.map Prod.snd) = (jobs.map Prod.snd).map Job.queued := by
      refine List.filter_eq_self.2 fun x hx => ?_
      obtain ⟨job, hjob, rfl⟩ := List.mem_map.1 hx
      show (job.eventType == "active") = true
      rw [(hof job hjob).2.1]
      rfl
    have hself : Function.update s.activations id activation id = activation :=
      Function.update_self ..
    have hraise := h.chains.raise hfree
    rw [← hactivation] at hraise
    rw [hall]
    refine hraise.enqueue hfree (fun b hb hactive hid => ?_) (fun job hjob => ?_)
      (fun job hjob => (hof job hjob).2.2.2) ?_
    · have hpast := h.chains.past b hb hactive
      rw [hid] at hpast
      rw [hself]
      omega
    · rw [hself]
      exact ⟨(hof job hjob).1, (hof job hjob).2.2.1⟩
    · rw [List.map_map, hjobs]
      exact enqueuePolicyJobs_keys env id (setup.info id) activation hsingle
  · -- no job of the change is a chain
    have hnone : chainsIn (jobs.map Prod.snd) = [] := by
      refine List.filter_eq_nil_iff.2 fun x hx => ?_
      obtain ⟨job, hjob, rfl⟩ := List.mem_map.1 hx
      obtain ⟨y, hy, rfl⟩ := List.mem_map.1 hjob
      obtain ⟨type, htype, hy⟩ := List.mem_flatMap.1 hy
      show ¬ (y.2.eventType == "active") = true
      rw [beq_iff_eq, (enqueuePolicyJobs_of env id (setup.info id) type activation hy).2.1]
      exact htypes type htype
    rw [hnone, List.append_nil]
    cases hraised : (!a.active && (f.run a).1.active) with
    | true =>
      have hactivation : activation = s.activations id + 1 := by
        show s.nextActivation id a (f.run a).1 = _
        unfold Notifier.nextActivation
        rw [hraised]
        rfl
      rw [Bool.and_eq_true, Bool.not_eq_true'] at hraised
      rw [hactivation]
      exact h.chains.raise (hcalm.free hraised.1 hraised.2)
    | false =>
      have hactivation : activation = s.activations id := by
        show s.nextActivation id a (f.run a).1 = _
        unfold Notifier.nextActivation
        rw [hraised]
        rfl
      rw [hactivation, Function.update_eq_self]
      exact h.chains

theorem change_chainInv {setup : NotifySetup} (h : ChainInv setup.cfg s) (id : String) (f : Effect)
    (env : NotifyEnv) (hcalm : CalmOp setup s (.change id f env)) :
    ChainInv setup.cfg (s.change setup id f env) := by
  unfold Notifier.change
  split
  · exact h
  rename_i a ha
  refine ⟨(change_chains h (hcalm a ha)).perm (enqueue_chains s _).symm,
    fun q job hjob hactive => ?_, h.attempts⟩
  have hbefore := h.checked q job hjob hactive
  unfold Notifier.alarmActive at hbefore ⊢
  dsimp only
  by_cases hid : job.alarmId = id
  · rw [hid, Function.update_self]
    rw [hid, ha] at hbefore
    by_contra hafter
    exact (hcalm a ha).asked hbefore (Bool.not_eq_true _ ▸ hafter) q job hjob hactive hid
  · rw [Function.update_of_ne hid]
    exact hbefore

/-! ## Runs -/

theorem step_chainInv {setup : NotifySetup} (h : ChainInv setup.cfg s) (op : NotifyOp)
    (hcalm : CalmOp setup s op) : ChainInv setup.cfg (s.step setup op) := by
  cases op with
  | change id f env => exact change_chainInv h id f env hcalm
  | pop q now => exact pop_chainInv h now
  | check q t => exact check_chainInv h t
  | start q => exact start_chainInv h
  | finish q => exact finish_chainInv h
  | decideRepeat q t now => exact decideRepeat_chainInv h t now
  | push q => exact push_chainInv h

/-- The chains are single, an activation has no more attempts than its policy allows, and every
attempt is made for the activation that its alarm is in. -/
structure NoDuplicates (cfg : NotificationConfig) (s : Notifier) : Prop where
  single : (s.chains.map fun x => x.1.key).Nodup
  bounded : ∀ (key : String × String × String) activation p, cfg.policies key.2.1 = some p →
    0 < p.maxRepeats → (made s.attempts key activation : Int) ≤ p.maxRepeats
  current : ∀ a ∈ s.attempts, a.job.isActive = true →
    a.current = a.job.activation ∧ a.alarmActive = true

/-- **Notification chains.** From any alarms with empty queues, a run of calm changes and any
interleaving of the workers duplicates no chain. -/
theorem no_duplicate_chains (setup : NotifySetup) (states : String → Option AlarmState)
    (ops : List NotifyOp)
    (h : Along (Notifier.step setup) (CalmOp setup) { states := states } ops) :
    NoDuplicates setup.cfg (run (Notifier.step setup) { states := states } ops) := by
  have hnone : ∀ p : Policy, 0 < p.maxRepeats → ((0 : Nat) : Int) ≤ p.maxRepeats :=
    fun p hm => by omega
  have hstart : ChainInv setup.cfg { states := states } :=
    ⟨⟨List.nodup_nil, fun x hx => (by cases hx), fun x hx => (by cases hx),
      fun key activation p hp hm => hnone p hm, fun a ha => (by cases ha)⟩,
      fun q job hjob => (by cases hjob), fun a ha => (by cases ha)⟩
  have hinv := run_invariant (I := ChainInv setup.cfg) (fun s op hs hop => step_chainInv hs op hop)
    hstart h
  exact ⟨hinv.chains.keys, hinv.chains.bound, hinv.attempts⟩

end

end

/-! ## A run -/

section
attribute [local instance] intFloats intJson

def highTemperature : AlarmRule where
  id := "HIGH_TEMPERATURE"
  connectionId := "PLC1"
  tag := "Temperature"
  conditionType := "high"
  threshold := Floats.ofInt 5

def pagePolicy : Policy where
  id := "page"
  outputType := "email"
  targets := [{ type := "contact", id := "operator" }]
  repeatMs := 60000
  maxRepeats := 3

def pageSetup : NotifySetup where
  cfg :=
    { contacts := fun id =>
        if id = "operator" then some { id := "operator", email := "operator@plant" } else none
      policies := fun id => if id = "page" then some pagePolicy else none
      policies_id := by
        intro id p h
        split at h
        · rename_i hid
          rw [← Option.some.inj h, hid]
          rfl
        · cases h
      smtp := { enabled := true, host := "mail" } }
  info := fun _ => { notificationPolicy := "page" }

def pageStates (id : String) : Option AlarmState :=
  if id = "HIGH_TEMPERATURE" then
    some { alarmId := "HIGH_TEMPERATURE", connectionId := "PLC1", tag := "Temperature",
           initialized := true }
  else none

/-- The temperature is read. -/
def temperature (value t : Int) : NotifyOp :=
  .change "HIGH_TEMPERATURE" (.update highTemperature (.int value) true t t)
    { clock := fun _ _ => t, schedules := fun _ => false, hasAudio := false }

/-- The alarm is raised, and the operator is paged for the first time. -/
def pageOps : List NotifyOp := [temperature 9 1, .pop .modem 1, .check .modem 1, .start .modem,
  .finish .modem, .decideRepeat .modem 2 2, .push .modem]

/-- The alarm returns and is raised again before the next page is due. -/
def pageAgainOps : List NotifyOp := pageOps ++ [temperature 0 3, temperature 9 4]

/-- The operator is paged for the second activation, and then again for the first. -/
def pageBothOps : List NotifyOp := pageAgainOps ++ [.pop .modem 4, .check .modem 4, .start .modem,
  .finish .modem, .decideRepeat .modem 5 5, .push .modem, .pop .modem 60002, .check .modem 60002,
  .start .modem]

def pageRun (ops : List NotifyOp) : Notifier :=
  run (Notifier.step pageSetup) { states := pageStates } ops

/-- An alarm that is raised again pages the operator in two chains, one of them for the activation
that is over. -/
theorem duplicate_chains :
    ¬ NoDuplicates pageSetup.cfg (pageRun pageAgainOps) ∧
      (pageRun pageAgainOps).chains.map (fun x => (x.1.key, x.1.activation)) =
        [(("HIGH_TEMPERATURE", "page", "operator@plant"), 1),
         (("HIGH_TEMPERATURE", "page", "operator@plant"), 2)] ∧
      (pageRun pageBothOps).attempts.map (fun a => (a.current, a.job.activation)) =
        [(1, 1), (2, 2), (2, 1)] := by
  refine ⟨fun h => ?_, by decide +kernel, by decide +kernel⟩
  exact absurd h.single (by decide +kernel)

theorem page_not_duplicated :
    NoDuplicates pageSetup.cfg (run (Notifier.step pageSetup) { states := pageStates } pageOps) := by
  refine no_duplicate_chains pageSetup pageStates pageOps ⟨fun a ha => ?_, ?_⟩
  · obtain rfl := Option.some.inj ha
    refine ⟨fun _ _ x hx => (by cases hx), fun _ => ?_, fun hactive => (by cases hactive)⟩
    exact List.pairwise_singleton _ (pagePolicy, "always")
  · exact ⟨trivial, trivial, trivial, trivial, trivial, trivial, trivial⟩

end

end OpcBridge.Alarms
