import OpcBridge.Alarms.Notify
import Mathlib.Data.List.Nodup
import Mathlib.Data.List.Perm.Basic

/-!
# Notification chains

A job of an `active` event that repeats is a chain: it goes from its queue to a worker and back.
Nothing ends a chain when its alarm returns; it is only found to be over when a worker asks about
the alarm, and then the alarm may be active again. `Chains` says what holds of the chains while they
are single and current, and how they go on; the second half of the module is about the jobs that an
event adds.
-/

namespace OpcBridge.Alarms

open OpcBridge Lib

/-! ## Live jobs -/

def Job.isActive (job : Job) : Bool := job.eventType == "active"

/-- The address of an email, or the kind of the only other job of a policy. -/
def Job.recipient (job : Job) : String := if job.route.type = "email" then job.email else job.route.type

/-- Alarm, policy and recipient. -/
def Job.key (job : Job) : String × String × String := (job.alarmId, job.policyId, job.recipient)

/-- A queued job with the attempts that it may still start. -/
def Job.queued (job : Job) : Job × Int := (job, job.repeatsLeft + 1)

/-- The job of a worker with the attempts that it may still start. -/
def Worker.live : Worker → List (Job × Int)
  | .idle => []
  | .popped job => [job.queued]
  | .checked job => [job.queued]
  | .running job => [(job, job.repeatsLeft)]
  | .finished job => [(job, job.repeatsLeft)]
  | .repeating job => [job.queued]

def JobQueue.other : JobQueue → JobQueue
  | .audio => .modem
  | .modem => .audio

/-- The attempts for one activation of an alarm under a policy and recipient. -/
def made (attempts : List Attempt) (key : String × String × String) (activation : Nat) : Nat :=
  attempts.countP fun a =>
    a.job.isActive && decide (a.job.key = key) && decide (a.job.activation = activation)

theorem made_snoc (attempts : List Attempt) (a : Attempt) (key : String × String × String)
    (activation : Nat) : made (attempts ++ [a]) key activation = made attempts key activation +
      if a.job.isActive && decide (a.job.key = key) && decide (a.job.activation = activation) then 1
      else 0 := by
  unfold made
  rw [List.countP_append, List.countP_singleton]

/-! ## Chains -/

/-- The chains are single and of the current activation; the attempts made and those left are within
the policy; no attempt is of an activation to come. -/
structure Chains (cfg : NotificationConfig) (live : List (Job × Int)) (activations : String → Nat)
    (attempts : List Attempt) : Prop where
  keys : (live.map fun x => x.1.key).Nodup
  current : ∀ x ∈ live, x.1.activation = activations x.1.alarmId
  left : ∀ x ∈ live, ∀ p, cfg.policies x.1.policyId = some p → 0 < p.maxRepeats →
    0 ≤ x.1.repeatsLeft ∧ (made attempts x.1.key x.1.activation : Int) + x.2 ≤ p.maxRepeats
  bound : ∀ (key : String × String × String) activation p, cfg.policies key.2.1 = some p →
    0 < p.maxRepeats → (made attempts key activation : Int) ≤ p.maxRepeats
  past : ∀ a ∈ attempts, a.job.isActive = true → a.job.activation ≤ activations a.job.alarmId

variable {cfg : NotificationConfig} {live live' : List (Job × Int)} {activations : String → Nat}
  {attempts : List Attempt}

theorem Chains.perm (h : Chains cfg live activations attempts) (hp : live.Perm live') :
    Chains cfg live' activations attempts where
  keys := (hp.map _).nodup_iff.1 h.keys
  current x hx := h.current x (hp.mem_iff.2 hx)
  left x hx := h.left x (hp.mem_iff.2 hx)
  bound := h.bound
  past := h.past

/-- Chains end. -/
theorem Chains.drop (h : Chains cfg live activations attempts) (hs : live'.Sublist live) :
    Chains cfg live' activations attempts where
  keys := h.keys.sublist (hs.map _)
  current x hx := h.current x (hs.subset hx)
  left x hx := h.left x (hs.subset hx)
  bound := h.bound
  past := h.past

/-- An attempt of another event. -/
theorem Chains.silent (h : Chains cfg live activations attempts) (a : Attempt)
    (ha : a.job.isActive = false) : Chains cfg live activations (attempts ++ [a]) := by
  have hmade : ∀ key activation, made (attempts ++ [a]) key activation = made attempts key activation := by
    intro key activation
    rw [made_snoc, ha]
    rfl
  refine ⟨h.keys, h.current, fun x hx p hp hm => ?_, fun key activation p hp hm => ?_,
    fun b hb hactive => ?_⟩
  · rw [hmade]
    exact h.left x hx p hp hm
  · rw [hmade]
    exact h.bound key activation p hp hm
  · rcases List.mem_append.1 hb with hb | hb
    · exact h.past b hb hactive
    · rw [List.mem_singleton.1 hb, ha] at hactive
      cases hactive

/-- The first chain starts an attempt. -/
theorem Chains.attempt {job : Job} (h : Chains cfg ((job, job.repeatsLeft + 1) :: live)
    activations attempts) (a : Attempt) (ha : a.job = job) :
    Chains cfg ((job, job.repeatsLeft) :: live) activations (attempts ++ [a]) := by
  have hself := h.current (job, job.repeatsLeft + 1) List.mem_cons_self
  have hkeys := h.keys
  rw [List.map_cons, List.nodup_cons] at hkeys
  -- what one more attempt does to a count
  have hmade : ∀ key activation, made (attempts ++ [a]) key activation = made attempts key activation ∨
      key = job.key ∧ activation = job.activation ∧
        made (attempts ++ [a]) key activation = made attempts key activation + 1 := by
    intro key activation
    rw [made_snoc, ha]
    split
    · rename_i hc
      rw [Bool.and_eq_true, Bool.and_eq_true, decide_eq_true_eq, decide_eq_true_eq] at hc
      exact .inr ⟨hc.1.2.symm, hc.2.symm, rfl⟩
    · exact .inl (Nat.add_zero _)
  refine ⟨h.keys, fun x hx => ?_, fun x hx p hp hm => ?_, fun key activation p hp hm => ?_,
    fun b hb hactive => ?_⟩
  · rcases List.mem_cons.1 hx with rfl | hx
    · exact hself
    · exact h.current x (List.mem_cons_of_mem _ hx)
  · rcases List.mem_cons.1 hx with rfl | hx
    · obtain ⟨h0, hle⟩ := h.left (job, job.repeatsLeft + 1) List.mem_cons_self p hp hm
      refine ⟨h0, ?_⟩
      dsimp only at hle ⊢
      rcases hmade job.key job.activation with hsame | ⟨-, -, hsucc⟩
      · omega
      · omega
    · obtain ⟨h0, hle⟩ := h.left x (List.mem_cons_of_mem _ hx) p hp hm
      refine ⟨h0, ?_⟩
      rcases hmade x.1.key x.1.activation with hsame | ⟨hkey, -, -⟩
      · rw [hsame]
        exact hle
      · exact absurd (List.mem_map.2 ⟨x, hx, hkey⟩) hkeys.1
  · rcases hmade key activation with hsame | ⟨rfl, rfl, hsucc⟩
    · rw [hsame]
      exact h.bound key activation p hp hm
    · obtain ⟨h0, hle⟩ := h.left (job, job.repeatsLeft + 1) List.mem_cons_self p hp hm
      dsimp only at h0 hle
      omega
  · rcases List.mem_append.1 hb with hb | hb
    · exact h.past b hb hactive
    · rw [List.mem_singleton.1 hb, ha]
      exact le_of_eq hself

/-- The first chain is put back with one repeat less. -/
theorem Chains.again {job job' : Job} {n n' : Int} (h : Chains cfg ((job, n) :: live) activations attempts)
    (hkey : job'.key = job.key) (hact : job'.activation = job.activation)
    (hleft : 0 ≤ job.repeatsLeft → 0 ≤ job'.repeatsLeft ∧ n' ≤ n) :
    Chains cfg ((job', n') :: live) activations attempts := by
  have halarm : job'.alarmId = job.alarmId := congrArg Prod.fst hkey
  have hpolicy : job'.policyId = job.policyId := congrArg (fun k => k.2.1) hkey
  have hkeys := h.keys
  refine ⟨?_, fun x hx => ?_, fun x hx p hp hm => ?_, h.bound, h.past⟩
  · rw [List.map_cons] at hkeys ⊢
    rw [hkey]
    exact hkeys
  · rcases List.mem_cons.1 hx with rfl | hx
    · dsimp only
      rw [hact, halarm]
      exact h.current (job, n) List.mem_cons_self
    · exact h.current x (List.mem_cons_of_mem _ hx)
  · rcases List.mem_cons.1 hx with rfl | hx
    · dsimp only at hp ⊢
      rw [hpolicy] at hp
      obtain ⟨h0, hle⟩ := h.left (job, n) List.mem_cons_self p hp hm
      dsimp only at h0 hle
      obtain ⟨h0', hn⟩ := hleft h0
      refine ⟨h0', ?_⟩
      rw [hkey, hact]
      omega
    · exact h.left x (List.mem_cons_of_mem _ hx) p hp hm

/-- An alarm without chains enters a new activation. -/
theorem Chains.raise (h : Chains cfg live activations attempts) {id : String}
    (hfree : ∀ x ∈ live, x.1.alarmId ≠ id) :
    Chains cfg live (Function.update activations id (activations id + 1)) attempts where
  keys := h.keys
  current x hx := by
    rw [Function.update_of_ne (hfree x hx)]
    exact h.current x hx
  left := h.left
  bound := h.bound
  past a ha hactive := by
    have hpast := h.past a ha hactive
    by_cases hid : a.job.alarmId = id
    · rw [hid, Function.update_self]
      rw [hid] at hpast
      omega
    · rw [Function.update_of_ne hid]
      exact hpast

/-- The first jobs of an activation without attempts are queued. -/
theorem Chains.enqueue (h : Chains cfg live activations attempts) {id : String} {jobs : List Job}
    (hfree : ∀ x ∈ live, x.1.alarmId ≠ id) (hpast : ∀ a ∈ attempts,
      a.job.isActive = true → a.job.alarmId = id → a.job.activation < activations id)
    (halarm : ∀ job ∈ jobs, job.alarmId = id ∧ job.activation = activations id)
    (hpolicy : ∀ job ∈ jobs, ∃ p, cfg.policies job.policyId = some p ∧
      job.repeatsLeft = NotificationConfig.repeatsAfterFirst p)
    (hkeys : (jobs.map Job.key).Nodup) :
    Chains cfg (live ++ jobs.map Job.queued) activations attempts where
  keys := by
    rw [List.map_append, List.map_map, List.nodup_append]
    refine ⟨h.keys, hkeys, fun k hk k' hk' heq => ?_⟩
    obtain ⟨x, hx, rfl⟩ := List.mem_map.1 hk
    obtain ⟨job, hjob, rfl⟩ := List.mem_map.1 hk'
    have hid : x.1.alarmId = job.alarmId := congrArg Prod.fst heq
    exact hfree x hx (hid.trans (halarm job hjob).1)
  current x hx := by
    rcases List.mem_append.1 hx with hx | hx
    · exact h.current x hx
    · obtain ⟨job, hjob, rfl⟩ := List.mem_map.1 hx
      obtain ⟨h1, h2⟩ := halarm job hjob
      show job.activation = activations job.alarmId
      rw [h2, h1]
  left x hx p hp hm := by
    rcases List.mem_append.1 hx with hx | hx
    · exact h.left x hx p hp hm
    · obtain ⟨job, hjob, rfl⟩ := List.mem_map.1 hx
      obtain ⟨p', hp', hrepeats⟩ := hpolicy job hjob
      obtain rfl := Option.some.inj (hp'.symm.trans hp)
      have hnone : made attempts job.key job.activation = 0 := by
        unfold made
        refine List.countP_eq_zero.2 fun a ha hc => ?_
        rw [Bool.and_eq_true, Bool.and_eq_true, decide_eq_true_eq, decide_eq_true_eq] at hc
        have hid : a.job.alarmId = job.alarmId := congrArg Prod.fst hc.1.2
        have hlt := hpast a ha hc.1.1 (hid.trans (halarm job hjob).1)
        rw [hc.2, (halarm job hjob).2] at hlt
        exact absurd hlt (lt_irrefl _)
      unfold NotificationConfig.repeatsAfterFirst at hrepeats
      rw [if_neg (by omega)] at hrepeats
      show 0 ≤ job.repeatsLeft ∧ (made attempts job.key job.activation : Int) +
        (job.repeatsLeft + 1) ≤ p'.maxRepeats
      rw [hnone, hrepeats]
      omega
  bound := h.bound
  past := h.past

/-! ## The jobs of an event -/

theorem firstOfKey_spec {α : Type} (key : α → String) (seen : List String) (xs : List α) :
    ((firstOfKey key seen xs).map key).Nodup ∧
      ∀ x ∈ firstOfKey key seen xs, x ∈ xs ∧ key x ∉ seen := by
  induction xs generalizing seen with
  | nil => exact ⟨List.nodup_nil, fun x hx => by cases hx⟩
  | cons x xs ih =>
    unfold firstOfKey
    split
    · rename_i hseen
      obtain ⟨hnodup, hmem⟩ := ih seen
      exact ⟨hnodup, fun y hy => ⟨List.mem_cons_of_mem _ (hmem y hy).1, (hmem y hy).2⟩⟩
    · rename_i hseen
      obtain ⟨hnodup, hmem⟩ := ih (key x :: seen)
      refine ⟨?_, fun y hy => ?_⟩
      · rw [List.map_cons, List.nodup_cons]
        refine ⟨fun hx => ?_, hnodup⟩
        obtain ⟨y, hy, heq⟩ := List.mem_map.1 hx
        apply (hmem y hy).2
        rw [heq]
        exact List.mem_cons_self
      · rcases List.mem_cons.1 hy with rfl | hy
        · exact ⟨List.mem_cons_self, hseen⟩
        · obtain ⟨h1, h2⟩ := hmem y hy
          exact ⟨List.mem_cons_of_mem _ h1, fun h => h2 (List.mem_cons_of_mem _ h)⟩

theorem findPolicy_stored {name : String} {policy : Policy} (h : cfg.findPolicy name = some policy) :
    cfg.policies policy.id = some policy := by
  have hstored : ∃ id, cfg.policies id = some policy := by
    unfold NotificationConfig.findPolicy at h
    rcases Option.or_eq_some_iff.1 h with h | ⟨-, h⟩
    · exact ⟨_, h⟩
    · obtain ⟨id, -, h⟩ := Option.bind_eq_some_iff.1 h
      exact ⟨id, h⟩
  obtain ⟨id, h⟩ := hstored
  rw [cfg.policies_id id policy h]
  exact h

theorem selections_stored {alarmId : String} {info : AlarmInfo} {x : Policy × String}
    (h : x ∈ cfg.selections alarmId info) : cfg.policies x.1.id = some x.1 := by
  unfold NotificationConfig.selections at h
  split at h
  · obtain ⟨route, -, h⟩ := List.mem_flatMap.1 ((firstOfKey_spec _ _ _).2 x h).1
    obtain ⟨name, -, h⟩ := List.mem_filterMap.1 h
    obtain ⟨policy, hfind, rfl⟩ := Option.map_eq_some_iff.1 h
    exact findPolicy_stored hfind
  · dsimp only at h
    generalize (if cfg.resolvePolicy alarmId info = "" then info.notificationPolicy
      else cfg.resolvePolicy alarmId info) = selected at h
    split at h
    · cases h
    · split at h
      · cases h
      · rename_i policy hfind
        rw [List.mem_singleton.1 h]
        exact findPolicy_stored hfind

/-- The fields of a job that its chain is about. -/
structure JobOf (policy : Policy) (alarmId eventType : String) (activation : Nat) (job : Job) : Prop where
  alarm : job.alarmId = alarmId
  event : job.eventType = eventType
  policyId : job.policyId = policy.id
  repeats : job.repeatsLeft = NotificationConfig.repeatsAfterFirst policy
  activation : job.activation = activation

/-- The policy sends for the event, and its schedule is active. -/
def sends (env : NotifyEnv) (info : AlarmInfo) (eventType : String) (x : Policy × String) : Bool :=
  x.1.enabled && decide (x.1.minSeverity ≤ info.severity) && decide (eventType ∈ x.1.on) &&
    scheduleIsActive env (NotificationConfig.effectiveScheduleId x.1 x.2)

variable (env : NotifyEnv) (policy : Policy) (scheduleId alarmId : String) (info : AlarmInfo)
  (eventType : String) (activation : Nat)

theorem audioPolicyJob_of {job : Job}
    (h : cfg.audioPolicyJob env policy scheduleId alarmId eventType activation = some job) :
    JobOf policy alarmId eventType activation job := by
  unfold NotificationConfig.audioPolicyJob at h
  split at h
  · cases h
  · split at h
    · cases h
    · obtain rfl := Option.some.inj h
      exact ⟨rfl, rfl, rfl, rfl, rfl⟩

theorem phonePolicyJob_of {job : Job}
    (h : cfg.phonePolicyJob env policy scheduleId alarmId eventType activation = some job) :
    JobOf policy alarmId eventType activation job := by
  unfold NotificationConfig.phonePolicyJob at h
  split at h
  · cases h
  · split at h
    · cases h
    · obtain rfl := Option.some.inj h
      exact ⟨rfl, rfl, rfl, rfl, rfl⟩

theorem emailPolicyJobs_of :
    (∀ job ∈ cfg.emailPolicyJobs env policy scheduleId alarmId eventType activation,
      JobOf policy alarmId eventType activation job) ∧
    ((cfg.emailPolicyJobs env policy scheduleId alarmId eventType activation).map Job.key).Nodup := by
  unfold NotificationConfig.emailPolicyJobs
  split
  · exact ⟨fun job hjob => (by cases hjob), List.nodup_nil⟩
  · dsimp only
    refine ⟨fun job hjob => ?_, ?_⟩
    · obtain ⟨x, -, rfl⟩ := List.mem_map.1 hjob
      exact ⟨rfl, rfl, rfl, rfl, rfl⟩
    · -- the keys differ in the address
      refine List.Nodup.of_map (fun k : String × String × String => k.2.2) ?_
      rw [List.map_map, List.map_map]
      exact (firstOfKey_spec _ _ _).1

theorem enqueuePolicyOutput_of :
    (∀ x ∈ cfg.enqueuePolicyOutput env policy scheduleId alarmId info eventType activation,
      sends env info eventType (policy, scheduleId) = true ∧
        JobOf policy alarmId eventType activation x.2) ∧
    ((cfg.enqueuePolicyOutput env policy scheduleId alarmId info eventType activation).map
      fun x => x.2.key).Nodup := by
  have hnone : ∀ P : JobQueue × Job → Prop, (∀ x ∈ ([] : List (JobQueue × Job)), P x) ∧
      (([] : List (JobQueue × Job)).map fun x => x.2.key).Nodup :=
    fun P => ⟨fun x hx => (by cases hx), List.nodup_nil⟩
  unfold NotificationConfig.enqueuePolicyOutput
  split
  · exact hnone _
  rename_i henabled
  split
  · exact hnone _
  rename_i hseverity
  split
  · exact hnone _
  rename_i hon
  dsimp only
  split
  · exact hnone _
  rename_i hschedule
  have hsends : sends env info eventType (policy, scheduleId) = true := by
    unfold sends
    simp only [Bool.not_eq_true', Bool.not_eq_false] at henabled hschedule
    simp only [not_not] at hon
    simp [henabled, hschedule, hon]
    omega
  have hone : ∀ (q : JobQueue) (found : Option Job),
      (∀ job, found = some job → JobOf policy alarmId eventType activation job) →
      (∀ x ∈ found.toList.map (q, ·), sends env info eventType (policy, scheduleId) = true ∧
        JobOf policy alarmId eventType activation x.2) ∧
      ((found.toList.map (q, ·)).map fun x : JobQueue × Job => x.2.key).Nodup := by
    intro q found hof
    cases found with
    | none => exact hnone _
    | some job =>
      refine ⟨fun x hx => ?_, List.nodup_singleton _⟩
      rw [List.mem_singleton.1 hx]
      exact ⟨hsends, hof job rfl⟩
  split
  · exact hone _ _ fun job h => audioPolicyJob_of env policy _ alarmId eventType activation h
  · split
    · obtain ⟨hof, hnodup⟩ := @emailPolicyJobs_of cfg env policy
        (NotificationConfig.effectiveScheduleId policy scheduleId) alarmId eventType activation
      refine ⟨fun x hx => ?_, ?_⟩
      · obtain ⟨job, hjob, rfl⟩ := List.mem_map.1 hx
        exact ⟨hsends, hof job hjob⟩
      · rw [List.map_map]
        exact hnodup
    · split
      · exact hnone _
      · exact hone _ _ fun job h => phonePolicyJob_of env policy _ alarmId eventType activation h

/-- No policy is selected twice under active schedules. -/
def SinglePolicies (cfg : NotificationConfig) (env : NotifyEnv) (alarmId : String) (info : AlarmInfo) :
    Prop :=
  (cfg.selections alarmId info).Pairwise fun x y =>
    sends env info "active" x = true → sends env info "active" y = true → x.1.id ≠ y.1.id

theorem enqueuePolicyJobs_of {x : JobQueue × Job}
    (h : x ∈ cfg.enqueuePolicyJobs env alarmId info eventType activation) :
    x.2.alarmId = alarmId ∧ x.2.eventType = eventType ∧ x.2.activation = activation ∧
      ∃ p, cfg.policies x.2.policyId = some p ∧
        x.2.repeatsLeft = NotificationConfig.repeatsAfterFirst p := by
  obtain ⟨sel, hsel, hx⟩ := List.mem_flatMap.1 h
  have hof := ((enqueuePolicyOutput_of env sel.1 sel.2 alarmId info eventType activation).1 x hx).2
  refine ⟨hof.alarm, hof.event, hof.activation, sel.1, ?_, hof.repeats⟩
  rw [hof.policyId]
  exact selections_stored hsel

theorem enqueuePolicyJobs_keys (h : SinglePolicies cfg env alarmId info) :
    ((cfg.enqueuePolicyJobs env alarmId info "active" activation).map fun x => x.2.key).Nodup := by
  unfold NotificationConfig.enqueuePolicyJobs
  rw [List.map_flatMap, List.nodup_flatMap]
  refine ⟨fun x _ => (enqueuePolicyOutput_of env x.1 x.2 alarmId info "active" activation).2,
    List.Pairwise.imp (fun {x y} hxy => ?_) h⟩
  intro k hx hy
  obtain ⟨job, hjob, rfl⟩ := List.mem_map.1 hx
  obtain ⟨job', hjob', heq⟩ := List.mem_map.1 hy
  obtain ⟨hsx, hof⟩ :=
    (enqueuePolicyOutput_of env x.1 x.2 alarmId info "active" activation).1 job hjob
  obtain ⟨hsy, hof'⟩ :=
    (enqueuePolicyOutput_of env y.1 y.2 alarmId info "active" activation).1 job' hjob'
  have hpolicy : job'.2.policyId = job.2.policyId := congrArg (fun k => k.2.1) heq
  apply hxy hsx hsy
  rw [← hof.policyId, ← hof'.policyId, hpolicy]

end OpcBridge.Alarms
