import OpcBridge.Alarms.Events

/-!
# Delay and state of an alarm

`trace` lists the effects that a run applies to one alarm, each with the state that it meets.
`delayed_activation` says of every run that a delayed alarm is activated by the pending thread only,
after its pending activation was started by an update at least the delay before, and that every
update of the alarm since then satisfied the condition.

The flags themselves agree (`Sound`) as long as no update meets an active alarm of a disabled site,
which would keep its `active_since_ms`, and no update activates a pending alarm directly, which
would keep it pending; a reload that takes the delay away makes the second possible
(`delay_state_ok`).
-/

namespace OpcBridge.Alarms

open OpcBridge Lib

section
variable [Floats] [JsonLib]

/-! ## The trace of an alarm -/

/-- The effects with the states that they meet. -/
def runTrace : List Effect → AlarmState → List (AlarmState × Effect)
  | [], _ => []
  | f :: effects, s => (s, f) :: runTrace effects (f.run s).1

/-- The effects of a step on one alarm. -/
def stepTrace (e : AlarmEngine) (op : AlarmOp) (id : String) : List (AlarmState × Effect) :=
  ((e.states id).map (runTrace (e.effects id op))).getD []

def trace (id : String) : AlarmEngine → List AlarmOp → List (AlarmState × Effect)
  | _, [] => []
  | e, op :: ops => stepTrace e op id ++ trace id (e.step op) ops

theorem trace_snoc (id : String) (e : AlarmEngine) (ops : List AlarmOp) (op : AlarmOp) :
    trace id e (ops ++ [op]) = trace id e ops ++ stepTrace (run AlarmEngine.step e ops) op id := by
  induction ops generalizing e with
  | nil => simp [trace]
  | cons op' ops ih => simp [trace, ih]

/-- The invariant rule for one alarm and its trace. -/
theorem runTrace_induct {P : AlarmState → List (AlarmState × Effect) → Prop} {effects : List Effect}
    (hstep : ∀ f ∈ effects, ∀ s tr, P s tr → P (Effect.run f s).1 (tr ++ [(s, f)]))
    {s : AlarmState} {tr : List (AlarmState × Effect)} (h : P s tr) :
    P (runAll effects s).1 (tr ++ runTrace effects s) := by
  induction effects generalizing s tr with
  | nil => simpa [runTrace, runAll_nil] using h
  | cons f effects ih =>
    rw [runAll_cons]
    have hnext := ih (fun g hg => hstep g (List.mem_cons_of_mem _ hg)) (hstep f (by simp) s tr h)
    simpa [runTrace] using hnext

/-! ## The flags -/

/-- The flags of an alarm agree. -/
structure Sound (s : AlarmState) : Prop where
  pending : s.pending = true → s.active = false
  armed : s.returnNotificationArmed = true → s.active = true
  since : s.activeSinceMs ≠ 0 ↔ s.active = true

/-- The effect neither disables an active alarm's site nor activates a pending alarm directly. -/
def Effect.Safe (s : AlarmState) : Effect → Prop
  | .update r value _ t _ =>
    if r.siteEnabled then
      ¬ (fires r value t s = true ∧ s.pending = true ∧ s.active = false ∧ s.effectiveDelayMs ≤ 0)
    else s.active = false
  | _ => True

/-- The clock shows a time after its epoch. -/
def AlarmOp.AfterEpoch : AlarmOp → Prop
  | .update _ _ _ _ _ now => ∀ j, 0 < now j
  | .process t _ => 0 < t
  | _ => True

/-- The condition of a step. -/
def AlarmOp.Safe (e : AlarmEngine) (op : AlarmOp) : Prop :=
  op.AfterEpoch ∧ ∀ id, ∀ x ∈ stepTrace e op id, x.2.Safe x.1

theorem safe_of_delayed {s : AlarmState} (ha : s.active = false) (hd : 0 < s.effectiveDelayMs)
    (f : Effect) : f.Safe s := by
  cases f with
  | update r value record t ts =>
    show if r.siteEnabled then _ else _
    split
    · exact fun h => absurd h.2.2.2 (by omega)
    · exact ha
  | _ => trivial

theorem stepTrace_absent {e : AlarmEngine} (h : Keyed e) {id : String} (hid : id ∉ e.ids)
    (op : AlarmOp) : stepTrace e op id = [] := by
  rw [h.ids] at hid
  unfold stepTrace
  cases hs : e.states id with
  | none => rfl
  | some s => simp [hs] at hid

/-- The effect of an operation after the epoch. -/
def Effect.AfterEpoch : Effect → Prop
  | .update _ _ _ t _ => t ≠ 0
  | .process _ t _ => t ≠ 0
  | _ => True

theorem effects_afterEpoch {e : AlarmEngine} {op : AlarmOp} {id : String} (hop : op.AfterEpoch)
    {f : Effect} (hf : f ∈ e.effects id op) : f.AfterEpoch := by
  obtain ⟨c, tag, value, quality, record, now, j, rfl, rfl⟩ | ⟨t, now, j, rfl, rfl⟩ |
    ⟨actor, note, t, ts, rfl, rfl⟩ | ⟨until_, actor, note, t, ts, rfl, rfl⟩ |
    ⟨actor, note, t, ts, rfl, rfl⟩ := mem_effects hf
  · unfold updateEffect
    split
    · trivial
    · split
      · trivial
      · exact Int.ne_of_gt (hop (2 * j))
  · exact Int.ne_of_gt (show 0 < t from hop)
  all_goals trivial

omit [JsonLib] in
theorem suppressAlarm_sound {s : AlarmState} (h : Sound s) (ha : s.active = false) (t : Int) :
    Sound (suppressAlarm s t).1 := by
  have hx : (suppressAlarm s t).1 =
      { s with initialized := false, siteEnabled := false, pending := false, pendingSinceMs := 0 } := by
    unfold suppressAlarm
    simp [ha]
  rw [hx]
  exact ⟨fun hp => (by cases hp), h.armed, h.since⟩

omit [JsonLib] in
theorem raise_sound {s : AlarmState} (hp : s.pending = false) {t : Int} (ht : t ≠ 0) (armed : Bool)
    (message : String) : Sound (s.raise armed t message) := by
  refine ⟨fun h => ?_, fun _ => rfl, iff_of_true ht rfl⟩
  exact absurd (hp.symm.trans h) (by decide)

omit [JsonLib] in
theorem activateAlarm_sound (r : AlarmRule) (record : Bool) {t : Int} (ts : Int) {s : AlarmState}
    (h : Sound s) (ha : s.active = false) (ht : t ≠ 0)
    (hs : s.effectiveDelayMs ≤ 0 → s.pending = false) :
    Sound (activateAlarm r record t ts s).1 := by
  unfold activateAlarm
  split
  · dsimp only
    split
    · exact ⟨h.pending, h.armed, h.since⟩
    · exact ⟨fun _ => ha, h.armed, h.since⟩
  · have hp := hs (by omega)
    split
    · exact raise_sound (s := { s with initialized := true }) hp ht _ _
    · exact raise_sound (s := { s with initialized := true }) hp ht _ _

omit [JsonLib] in
theorem returnAlarm_sound (r : AlarmRule) (record : Bool) (t ts : Int) (s : AlarmState) :
    Sound (returnAlarm r record t ts s).1 :=
  ⟨fun h => (by cases h), fun h => (by cases h),
    iff_of_false (fun h => h rfl) (fun h => by cases h)⟩

omit [JsonLib] in
theorem evalState_sound {r : AlarmRule} {value : Json} {t : Int} {s : AlarmState} (h : Sound s) :
    Sound (evalState r value t s) := by
  rw [evalState_eq]
  refine ⟨fun hp => h.pending ?_, h.armed, h.since⟩
  simp only [Bool.and_eq_true] at hp
  exact hp.2

theorem updateAlarm_sound {r : AlarmRule} {value : Json} {record : Bool} {t ts : Int}
    {s : AlarmState} (h : Sound s) (ht : t ≠ 0)
    (hs : (Effect.update r value record t ts).Safe s) :
    Sound (updateAlarm r value record t ts s).1 := by
  have h' : Sound (evalState r value t s) := evalState_sound h
  obtain ⟨hsite, hx⟩ | ⟨hsite, hf, ha, hx⟩ | ⟨-, -, -, hx⟩ | ⟨-, -, ⟨-, hx⟩ | ⟨-, hx⟩ | ⟨-, hx⟩⟩ :=
    updateAlarm_cases r value record t ts s
  · rw [hx]
    simp only [Effect.Safe, hsite, Bool.false_eq_true, if_false] at hs
    exact suppressAlarm_sound (s := { s with lastValue := value })
      ⟨h.pending, h.armed, h.since⟩ hs t
  · rw [hx]
    simp only [Effect.Safe, hsite, if_true] at hs
    refine activateAlarm_sound r record ts h' ?_ ht fun hd => ?_
    · rw [evalState_eq]
      exact ha
    · rw [evalState_eq] at hd ⊢
      cases hp : s.pending with
      | false => simp
      | true => exact absurd ⟨hf, hp, ha, hd⟩ hs
  · rw [hx]
    exact returnAlarm_sound r record t ts _
  · rw [hx]
    exact ⟨h'.pending, h'.armed, h'.since⟩
  · rw [hx]
    exact ⟨fun hp => (by cases hp), h'.armed, h'.since⟩
  · rw [hx]
    exact h'

omit [JsonLib] in
theorem processAlarm_sound (rule : Option AlarmRule) {t : Int} (ts : Int) {s : AlarmState}
    (h : Sound s) (ht : t ≠ 0) : Sound (processAlarm rule t ts s).1 := by
  have hdrop : Sound (dropPending s) := ⟨fun hp => (by cases hp), h.armed, h.since⟩
  unfold processAlarm
  split
  · exact h
  · split
    · exact hdrop
    · split
      · exact hdrop
      · split
        · exact h
        · exact raise_sound (s := dropPending s) rfl ht _ _

theorem Effect.run_sound {f : Effect} {s : AlarmState} (h : Sound s) (ht : f.AfterEpoch)
    (hs : f.Safe s) : Sound (f.run s).1 := by
  cases f with
  | skip => exact h
  | bad => exact ⟨fun hp => (by cases hp), h.armed, h.since⟩
  | update r value record t ts => exact updateAlarm_sound h ht hs
  | process rule t ts => exact processAlarm_sound rule ts h ht
  | ack t ts actor note => exact ⟨h.pending, h.armed, h.since⟩
  | shelve until_ t ts actor note => exact ⟨h.pending, h.armed, h.since⟩
  | unshelve t ts actor note => exact ⟨h.pending, h.armed, h.since⟩

theorem runAll_sound {effects : List Effect} {s : AlarmState} (h : Sound s)
    (ht : ∀ f ∈ effects, f.AfterEpoch) (hs : ∀ x ∈ runTrace effects s, x.2.Safe x.1) :
    Sound (runAll effects s).1 := by
  induction effects generalizing s with
  | nil => exact h
  | cons f effects ih =>
    rw [runAll_cons]
    simp only [runTrace, List.mem_cons, forall_eq_or_imp] at hs
    exact ih (f.run_sound h (ht f (by simp)) hs.1) (fun g hg => ht g (List.mem_cons_of_mem _ hg)) hs.2

omit [JsonLib] in
theorem fresh_sound {s : AlarmState} (h : s.Fresh) : Sound s := by
  obtain ⟨hactive, -, -, harmed, hpending, -, hsince⟩ := h
  refine ⟨fun hp => ?_, fun ha => ?_, ?_⟩
  · exact hactive
  · rw [harmed] at ha
    cases ha
  · simp [hactive, hsince]

/-- The tables and the flags. -/
structure SoundEngine (e : AlarmEngine) : Prop where
  keyed : Keyed e
  sound : ∀ id s, e.states id = some s → Sound s

theorem step_sound {e : AlarmEngine} (h : SoundEngine e) {op : AlarmOp} (hop : op.Safe e) :
    SoundEngine (e.step op) := by
  refine ⟨step_keyed h.keyed op, fun id s hs => ?_⟩
  cases hl : op.loads with
  | false =>
    rw [step_state h.keyed hl id] at hs
    obtain ⟨s₀, hs₀, rfl⟩ := Option.map_eq_some_iff.1 hs
    refine runAll_sound (h.sound id s₀ hs₀) (fun f hf => effects_afterEpoch hop.1 hf) fun x hx => ?_
    refine hop.2 id x ?_
    unfold stepTrace
    rw [hs₀]
    exact hx
  | true =>
    cases op with
    | reload rules globalDelayMs t =>
      change (e.reload rules globalDelayMs).states id = some s at hs
      rw [reload_state] at hs
      obtain ⟨s₀, hs₀, rfl⟩ := Option.map_eq_some_iff.1 hs
      split
      · exact fresh_sound (loadTables_fresh rules globalDelayMs hs₀).1
      · rename_i prev hprev
        have hp := h.sound id prev hprev
        exact ⟨hp.pending, hp.armed, hp.since⟩
    | load rules globalDelayMs t =>
      change (e.loadRulesFromFile rules globalDelayMs).states id = some s at hs
      rw [load_state] at hs
      exact fresh_sound (loadTables_fresh rules globalDelayMs hs).1
    | _ => cases hl

omit [JsonLib] in
theorem empty_sound : SoundEngine {} := ⟨empty_announced.keyed, fun _ _ h => by cases h⟩

theorem run_sound {ops : List AlarmOp} (hops : Along AlarmEngine.step (fun e op => op.Safe e) {} ops) :
    SoundEngine (run AlarmEngine.step {} ops) :=
  run_invariant (I := SoundEngine) (fun _ _ h hop => step_sound h hop) empty_sound hops

/-! ## The delay -/

/-- An update applied to the alarm satisfied the condition: of good quality, of an enabled rule and
site, not shelved, and true. Another effect says nothing. -/
def Effect.Satisfied (s : AlarmState) : Effect → Prop
  | .update r value _ t _ => r.siteEnabled = true ∧ r.enabled = true ∧ s.shelvedAt t = false ∧
      r.shouldBeActive s.active value = true
  | .bad => False
  | _ => True

/-- The pending activation was started by an update at time `since`, and every update from that one
on satisfied the condition. -/
def Started (since : Int) (tr : List (AlarmState × Effect)) : Prop :=
  ∃ before s r value record ts after, tr = before ++ (s, .update r value record since ts) :: after ∧
    ∀ x ∈ (s, Effect.update r value record since ts) :: after, x.2.Satisfied x.1

/-- The effect activates an alarm whose activation is delayed. -/
def DelayedActivation (s : AlarmState) (f : Effect) : Prop :=
  s.active = false ∧ 0 < s.effectiveDelayMs ∧ (f.run s).1.active = true

/-- What the trace says of a pending alarm. -/
structure Tracked (s : AlarmState) (tr : List (AlarmState × Effect)) : Prop where
  initialized : s.pending = true → s.initialized = true
  started : s.pending = true → s.active = false → Started s.pendingSinceMs tr

theorem started_snoc {since : Int} {tr : List (AlarmState × Effect)} (h : Started since tr)
    {s : AlarmState} {f : Effect} (hf : f.Satisfied s) : Started since (tr ++ [(s, f)]) := by
  obtain ⟨before, s₀, r, value, record, ts, after, rfl, hall⟩ := h
  refine ⟨before, s₀, r, value, record, ts, after ++ [(s, f)], by simp, fun x hx => ?_⟩
  rw [← List.cons_append, List.mem_append, List.mem_singleton] at hx
  obtain hx | rfl := hx
  · exact hall x hx
  · exact hf

theorem tracked_none {s : AlarmState} (h : s.pending = false) (tr : List (AlarmState × Effect)) :
    Tracked s tr :=
  ⟨fun hp => absurd (h.symm.trans hp) (by decide), fun hp => absurd (h.symm.trans hp) (by decide)⟩

theorem tracked_active {s : AlarmState} (ha : s.active = true)
    (hi : s.pending = true → s.initialized = true) (tr : List (AlarmState × Effect)) :
    Tracked s tr := ⟨hi, fun _ h => absurd (ha.symm.trans h) (by decide)⟩

theorem satisfied_of_fires {r : AlarmRule} {value : Json} {record : Bool} {t ts : Int}
    {s : AlarmState} (hsite : r.siteEnabled = true) (hf : fires r value t s = true) :
    (Effect.update r value record t ts).Satisfied s := by
  simp only [fires, canEval, Bool.and_eq_true, Bool.not_eq_true'] at hf
  exact ⟨hsite, hf.1.1, hf.1.2, hf.2⟩

/-- An update that fires on an inactive alarm starts its activation or lets it wait. -/
theorem activateAlarm_tracked {r : AlarmRule} {value : Json} {record : Bool} {t ts : Int}
    {s : AlarmState} {tr : List (AlarmState × Effect)} (h : Tracked s tr)
    (hsite : r.siteEnabled = true) (hf : fires r value t s = true) (ha : s.active = false) :
    Tracked (activateAlarm r record t ts (evalState r value t s)).1
      (tr ++ [(s, .update r value record t ts)]) := by
  have hsat : (Effect.update r value record t ts).Satisfied s := satisfied_of_fires hsite hf
  have hcan : canEval r s t = true := by
    simp only [fires, Bool.and_eq_true] at hf
    exact hf.1
  have heval : evalState r value t s = { s with lastValue := value, siteEnabled := true } := by
    rw [evalState_eq, hcan]
    simp
  rw [heval]
  unfold activateAlarm
  split
  · dsimp only
    split
    · rename_i hp
      exact ⟨fun _ => rfl, fun _ _ => started_snoc (h.started hp ha) hsat⟩
    · refine ⟨fun _ => rfl, fun _ _ => ⟨tr, s, r, value, record, ts, [], rfl, fun x hx => ?_⟩⟩
      rw [List.mem_singleton.1 hx]
      exact hsat
  · split
    · exact tracked_active rfl (fun _ => rfl) _
    · exact tracked_active rfl (fun _ => rfl) _

theorem updateAlarm_tracked (r : AlarmRule) (value : Json) (record : Bool) (t ts : Int)
    {s : AlarmState} {tr : List (AlarmState × Effect)} (h : Tracked s tr) :
    Tracked (updateAlarm r value record t ts s).1 (tr ++ [(s, .update r value record t ts)]) := by
  have hact : (evalState r value t s).active = s.active := by
    rw [evalState_eq]
  have hpend : (evalState r value t s).pending = true → s.pending = true := by
    rw [evalState_eq]
    simp only [Bool.and_eq_true]
    exact And.right
  have hinit : (evalState r value t s).initialized = s.initialized := by
    rw [evalState_eq]
  obtain ⟨-, hx⟩ | ⟨hsite, hf, ha, hx⟩ | ⟨-, -, -, hx⟩ | ⟨-, hq, hx⟩ :=
    updateAlarm_cases r value record t ts s
  · rw [hx]
    refine tracked_none ?_ _
    unfold suppressAlarm
    dsimp only
    split <;> rfl
  · rw [hx]
    exact activateAlarm_tracked h hsite hf ha
  · rw [hx]
    exact tracked_none rfl _
  · cases ha : s.active with
    | true =>
      obtain ⟨-, hx⟩ | ⟨-, hx⟩ | ⟨-, hx⟩ := hx
      · rw [hx]
        exact tracked_active (s := { evalState r value t s with initialized := true })
          (hact.trans ha) (fun _ => rfl) _
      · rw [hx]
        exact tracked_none rfl _
      · rw [hx]
        exact tracked_active (hact.trans ha)
          (fun hp => hinit.trans (h.initialized (hpend hp))) _
    | false =>
      -- the condition is false, and only an initialized alarm is pending
      obtain ⟨hi, hx⟩ | ⟨-, hx⟩ | ⟨hq', hx⟩ := hx
      · rw [hx]
        refine tracked_none ?_ _
        cases hp : (evalState r value t s).pending with
        | false => rfl
        | true =>
          have hi' := hinit.trans (h.initialized (hpend hp))
          exact absurd (hi.symm.trans hi') (by decide)
      · rw [hx]
        exact tracked_none rfl _
      · rw [hx]
        obtain hfire | hp := hq'
        · exact absurd (hfire.symm.trans (hq.trans ha)) (by decide)
        · exact tracked_none hp _

theorem processAlarm_tracked (rule : Option AlarmRule) (t ts : Int) {s : AlarmState}
    {tr : List (AlarmState × Effect)} (h : Tracked s tr) :
    Tracked (processAlarm rule t ts s).1 (tr ++ [(s, .process rule t ts)]) := by
  have hsame : Tracked s (tr ++ [(s, .process rule t ts)]) :=
    ⟨h.initialized, fun hp ha => started_snoc (h.started hp ha) trivial⟩
  unfold processAlarm
  split
  · exact hsame
  · split
    · exact tracked_none rfl _
    · split
      · exact tracked_none rfl _
      · split
        · exact hsame
        · exact tracked_none rfl _

theorem Effect.run_tracked (f : Effect) {s : AlarmState} {tr : List (AlarmState × Effect)}
    (h : Tracked s tr) : Tracked (f.run s).1 (tr ++ [(s, f)]) := by
  have hsame : f.Satisfied s → Tracked s (tr ++ [(s, f)]) := fun hf =>
    ⟨h.initialized, fun hp ha => started_snoc (h.started hp ha) hf⟩
  cases f with
  | skip => exact hsame trivial
  | bad => exact tracked_none rfl _
  | update r value record t ts => exact updateAlarm_tracked r value record t ts h
  | process rule t ts => exact processAlarm_tracked rule t ts h
  | ack t ts actor note => exact ⟨(hsame trivial).initialized, (hsame trivial).started⟩
  | shelve until_ t ts actor note => exact ⟨(hsame trivial).initialized, (hsame trivial).started⟩
  | unshelve t ts actor note => exact ⟨(hsame trivial).initialized, (hsame trivial).started⟩

/-- A delayed alarm is activated by the pending thread only, when its delay is over. -/
theorem delayedActivation_process {s : AlarmState} {f : Effect} (h : DelayedActivation s f) :
    ∃ rule t ts, f = .process rule t ts ∧ s.pending = true ∧
      s.pendingSinceMs ≤ t - s.effectiveDelayMs := by
  obtain ⟨ha, hd, hact⟩ := h
  have hno : ∀ b : Bool, s.active = b → b = true → False := fun b hb ht =>
    absurd (ha.symm.trans (hb.trans ht)) (by decide)
  cases f with
  | skip => exact (hno _ rfl hact).elim
  | bad => exact (hno _ rfl hact).elim
  | ack t ts actor note => exact (hno _ rfl hact).elim
  | shelve until_ t ts actor note => exact (hno _ rfl hact).elim
  | unshelve t ts actor note => exact (hno _ rfl hact).elim
  | update r value record t ts =>
    have heval : (evalState r value t s).active = s.active := by
      rw [evalState_eq]
    change (updateAlarm r value record t ts s).1.active = true at hact
    obtain ⟨-, hx⟩ | ⟨-, -, -, hx⟩ | ⟨-, -, hs, -⟩ | ⟨-, -, ⟨-, hx⟩ | ⟨-, hx⟩ | ⟨-, hx⟩⟩ :=
      updateAlarm_cases r value record t ts s
    · rw [hx] at hact
      have hsup : (suppressAlarm { s with lastValue := value } t).1.active = false := by
        unfold suppressAlarm
        simp [ha]
      exact absurd (hsup.symm.trans hact) (by decide)
    · rw [hx] at hact
      have hdelay : 0 < (evalState r value t s).effectiveDelayMs := by
        rw [evalState_eq]
        exact hd
      have hwait : (activateAlarm r record t ts (evalState r value t s)).1.active =
          (evalState r value t s).active := by
        unfold activateAlarm
        rw [if_pos hdelay]
        dsimp only
        split <;> rfl
      exact (hno _ (heval.symm.trans hwait.symm) hact).elim
    · exact (hno _ hs rfl).elim
    all_goals
      rw [hx] at hact
      exact (hno _ heval.symm hact).elim
  | process rule t ts =>
    refine ⟨rule, t, ts, rfl, ?_⟩
    change (processAlarm rule t ts s).1.active = true at hact
    unfold processAlarm at hact
    split at hact
    · exact (hno _ rfl hact).elim
    · rename_i hp
      simp only [Bool.or_eq_true, Bool.not_eq_true', not_or] at hp
      split at hact
      · exact (hno _ rfl hact).elim
      · split at hact
        · exact (hno _ rfl hact).elim
        · split at hact
          · exact (hno _ rfl hact).elim
          · rename_i hlate
            refine ⟨by simpa using hp.1.1, ?_⟩
            omega

/-- What the trace up to an activation shows: the pending activation was started at least the delay
before, by an update, and every update from that one on satisfied the condition. -/
def Justified (before : List (AlarmState × Effect)) (s : AlarmState) (f : Effect) : Prop :=
  ∃ rule t ts since, f = .process rule t ts ∧ since ≤ t - s.effectiveDelayMs ∧ Started since before

/-- The trace of an alarm, seen from the state that it reaches. -/
structure Delayed (s : AlarmState) (tr : List (AlarmState × Effect)) : Prop where
  tracked : Tracked s tr
  justified : ∀ before s₀ f after, tr = before ++ (s₀, f) :: after → DelayedActivation s₀ f →
    Justified before s₀ f

theorem justified_snoc {s : AlarmState} {tr : List (AlarmState × Effect)} (h : Delayed s tr)
    (f : Effect) : ∀ before s₀ f₀ after, tr ++ [(s, f)] = before ++ (s₀, f₀) :: after →
      DelayedActivation s₀ f₀ → Justified before s₀ f₀ := by
  intro before s₀ f₀ after hsplit hact
  obtain rfl | ⟨after', last, rfl⟩ := List.eq_nil_or_concat' after
  · obtain ⟨rfl, hlast⟩ := List.append_inj' hsplit rfl
    obtain ⟨rfl, rfl⟩ := Prod.mk.inj (List.singleton_inj.1 hlast)
    obtain ⟨rule, t, ts, rfl, hp, hlate⟩ := delayedActivation_process hact
    exact ⟨rule, t, ts, _, rfl, hlate, h.tracked.started hp hact.1⟩
  · rw [← List.cons_append, ← List.append_assoc] at hsplit
    obtain ⟨rfl, -⟩ := List.append_inj' hsplit rfl
    exact h.justified before s₀ f₀ after' rfl hact

theorem runAll_delayed (effects : List Effect) {s : AlarmState}
    {tr : List (AlarmState × Effect)} (h : Delayed s tr) :
    Delayed (runAll effects s).1 (tr ++ runTrace effects s) :=
  runTrace_induct (P := Delayed)
    (fun f _ _ _ hs => ⟨f.run_tracked hs.tracked, justified_snoc hs f⟩) h

/-- The trace of an alarm along a run. -/
structure RunDelayed (id : String) (ops : List AlarmOp) (e : AlarmEngine) : Prop where
  keyed : Keyed e
  tracked : ∀ s, e.states id = some s → Tracked s (trace id {} ops)
  justified : ∀ before s f after, trace id {} ops = before ++ (s, f) :: after →
    DelayedActivation s f → Justified before s f

/-- A load applies no effect, and carries a pending activation over or drops it. -/
theorem load_tracked {e : AlarmEngine} {id : String} {tr : List (AlarmState × Effect)}
    (h : ∀ s, e.states id = some s → Tracked s tr) {op : AlarmOp} (hop : op.loads = true)
    {s : AlarmState} (hs : (e.step op).states id = some s) : Tracked s tr := by
  cases op with
  | reload rules globalDelayMs t =>
    change (e.reload rules globalDelayMs).states id = some s at hs
    rw [reload_state] at hs
    obtain ⟨s₀, hs₀, rfl⟩ := Option.map_eq_some_iff.1 hs
    split
    · exact tracked_none (loadTables_fresh rules globalDelayMs hs₀).1.2.2.2.2.1 _
    · rename_i prev hprev
      exact ⟨(h prev hprev).initialized, (h prev hprev).started⟩
  | load rules globalDelayMs t =>
    change (e.loadRulesFromFile rules globalDelayMs).states id = some s at hs
    rw [load_state] at hs
    exact tracked_none (loadTables_fresh rules globalDelayMs hs).1.2.2.2.2.1 _
  | _ => cases hop

theorem stepTrace_loads {e : AlarmEngine} {op : AlarmOp} (hop : op.loads = true) (id : String) :
    stepTrace e op id = [] := by
  have heffects : e.effects id op = [] := by
    cases op with
    | reload rules globalDelayMs t => rfl
    | load rules globalDelayMs t => rfl
    | _ => cases hop
  unfold stepTrace
  rw [heffects]
  cases e.states id <;> rfl

theorem run_delayed (ops : List AlarmOp) (id : String) :
    RunDelayed id ops (run AlarmEngine.step {} ops) := by
  refine run_history (P := RunDelayed id) ?_ (fun ops op h => ?_) ops
  · exact ⟨empty_announced.keyed, fun _ h => (by cases h), fun before s f after h => by
      simp [trace] at h⟩
  · generalize he : run AlarmEngine.step {} ops = e at h
    have htrace : trace id {} (ops ++ [op]) = trace id {} ops ++ stepTrace e op id := by
      rw [trace_snoc, he]
    cases hop : op.loads with
    | true =>
      rw [stepTrace_loads hop, List.append_nil] at htrace
      refine ⟨step_keyed h.keyed op, fun s hs => ?_, ?_⟩
      · rw [htrace]
        exact load_tracked h.tracked hop hs
      · rw [htrace]
        exact h.justified
    | false =>
      have hstate := step_state h.keyed hop id
      cases hs : e.states id with
      | none =>
        have hnil : stepTrace e op id = [] := by
          unfold stepTrace
          rw [hs]
          rfl
        rw [hnil, List.append_nil] at htrace
        rw [hs] at hstate
        refine ⟨step_keyed h.keyed op, fun s hs' => ?_, ?_⟩
        · rw [hstate] at hs'
          cases hs'
        · rw [htrace]
          exact h.justified
      | some s =>
        have hcons : stepTrace e op id = runTrace (e.effects id op) s := by
          unfold stepTrace
          rw [hs]
          rfl
        rw [hcons] at htrace
        rw [hs] at hstate
        have hall := runAll_delayed (e.effects id op) ⟨h.tracked s hs, h.justified⟩
        refine ⟨step_keyed h.keyed op, fun s' hs' => ?_, ?_⟩
        · rw [hstate] at hs'
          cases hs'
          rw [htrace]
          exact hall.tracked
        · rw [htrace]
          exact hall.justified

/-- **Delay and state.** The flags of every alarm agree in every state of a run whose steps are
safe, and an alarm with a delay becomes active at a time `t` only where the updates applied to it
satisfied its condition from a time of at most `t` less the delay on. -/
theorem delay_state_ok (ops : List AlarmOp)
    (hops : Along AlarmEngine.step (fun e op => op.Safe e) {} ops) (id : String) :
    (∀ s, (run AlarmEngine.step {} ops).states id = some s → Sound s) ∧
    ∀ before s f after, trace id {} ops = before ++ (s, f) :: after → DelayedActivation s f →
      Justified before s f :=
  ⟨(run_sound hops).sound id, (run_delayed ops id).justified⟩

end

/-! ## Runs -/

section
attribute [local instance] intFloats intJson

def overflow : AlarmRule where
  id := "OVERFLOW"
  connectionId := "PLC2"
  tag := "Tank"
  conditionType := "high"
  threshold := Floats.ofInt 5

/-- The site is disabled while the alarm is active. -/
def disabledSiteOps : List AlarmOp := [
  .load [overflow] 0 0,
  .update "PLC2" "Tank" (.int 9) .null true fun _ => 1,
  .reload [{ overflow with siteEnabled := false }] 0 2,
  .update "PLC2" "Tank" (.int 9) .null true fun _ => 3]

/-- The delay is taken away while the alarm is pending. -/
def droppedDelayOps : List AlarmOp := [
  .load [{ overflow with delayMs := 1000 }] 0 0,
  .update "PLC2" "Tank" (.int 9) .null true fun _ => 1,
  .reload [overflow] 0 2,
  .update "PLC2" "Tank" (.int 9) .null true fun _ => 3]

/-- An inactive alarm keeps its time of activation, and an active alarm is pending. -/
theorem delay_state_broken :
    ((run AlarmEngine.step {} disabledSiteOps).states "OVERFLOW").map
        (fun s => (s.active, s.activeSinceMs)) = some (false, 1) ∧
      ((run AlarmEngine.step {} droppedDelayOps).states "OVERFLOW").map
        (fun s => (s.active, s.pending)) = some (true, true) := by
  exact ⟨by decide +kernel, by decide +kernel⟩

/-- The alarm waits for its delay and is activated. -/
def delayedOps : List AlarmOp := [
  .load [{ overflow with delayMs := 1000 }] 0 0,
  .update "PLC2" "Tank" (.int 9) .null true fun _ => 1,
  .process 1200 fun _ => 1200]

/-- A step of a run with one alarm is safe where the alarm waits for a delay. -/
theorem overflow_safe (ops : List AlarmOp) {op : AlarmOp} (hop : op.AfterEpoch)
    (hids : ∀ id ∈ (run AlarmEngine.step {} ops).ids, id = "OVERFLOW")
    (hwait : ((stepTrace (run AlarmEngine.step {} ops) op "OVERFLOW").all fun x =>
      !x.1.active && decide (0 < x.1.effectiveDelayMs)) = true) :
    op.Safe (run AlarmEngine.step {} ops) := by
  refine ⟨hop, fun id x hx => ?_⟩
  by_cases hid : id ∈ (run AlarmEngine.step {} ops).ids
  · rw [hids id hid] at hx
    have hx' := List.all_eq_true.1 hwait x hx
    simp only [Bool.and_eq_true, Bool.not_eq_true', decide_eq_true_eq] at hx'
    exact safe_of_delayed hx'.1 hx'.2 x.2
  · rw [stepTrace_absent (run_announced ops).keyed hid op] at hx
    cases hx

theorem delayed_state_ok :
    ((run AlarmEngine.step {} delayedOps).states "OVERFLOW").map (·.active) = some true ∧
    (∀ s, (run AlarmEngine.step {} delayedOps).states "OVERFLOW" = some s → Sound s) ∧
    ∀ before s f after, trace "OVERFLOW" {} delayedOps = before ++ (s, f) :: after →
      DelayedActivation s f → Justified before s f := by
  refine ⟨by decide +kernel, delay_state_ok delayedOps ⟨?_, ?_, ?_, trivial⟩ "OVERFLOW"⟩
  · exact overflow_safe [] trivial (by decide +kernel) (by decide +kernel)
  · exact overflow_safe (delayedOps.take 1) (fun _ => Int.one_pos) (by decide +kernel)
      (by decide +kernel)
  · exact overflow_safe (delayedOps.take 2) (show (0 : Int) < 1200 by decide)
      (by decide +kernel) (by decide +kernel)

end

end OpcBridge.Alarms
