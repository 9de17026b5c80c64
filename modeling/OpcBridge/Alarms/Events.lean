import OpcBridge.Alarms.Effects
import Mathlib.Data.List.Basic

/-!
# The events of an alarm

`Mark.next` reads the marks of one alarm and knows whether the alarm is announced: it gets stuck on
an activation of an announced alarm and on the end of one that is not. `alarm_events_ok` says that
it never gets stuck on the history of a run, where its state is the alarm's armed return, and under
which conditions of the rule and the alarm each kind of mark is written (`Mark.Allowed`).
-/

namespace OpcBridge.Alarms

open OpcBridge Lib

section
variable [Floats] [JsonLib]

/-! ## Reading a history -/

/-- Whether the alarm is announced after the mark; `none` where the mark does not fit. -/
def Mark.next (announced : Bool) : Mark → Option Bool
  | .event e =>
    if e.type = "active" then if announced then none else some true
    else if e.type = "return" then if announced then some false else none
    else some announced
  | .dropped _ => if announced then some false else none

def announcedAfter (marks : List Mark) (announced : Bool) : Option Bool :=
  marks.foldlM Mark.next announced

/-- The readings of the clock inside one operation do not go back. -/
def AlarmOp.Timely : AlarmOp → Prop
  | .update _ _ _ _ _ now => ∀ j, now (2 * j) ≤ now (2 * j + 1)
  | .process t now => ∀ j, t ≤ now j
  | _ => True

/-- A baseline update, which records no events. -/
def AlarmOp.baseline : AlarmOp → Bool
  | .update _ _ _ _ record _ => !record
  | _ => false

def AlarmEngine.siteDisabled (e : AlarmEngine) (id : String) : Prop :=
  ∃ r, e.rules id = some r ∧ r.siteEnabled = false

/-- The mark may be written for the alarm when `op` happens in `e`. -/
def Mark.Allowed (e : AlarmEngine) (op : AlarmOp) (id : String) : Mark → Prop
  | .dropped _ => op.loads = true ∨ op.baseline = true ∨ e.siteDisabled id
  | .event ev =>
    (ev.type = "active" → ∃ r s, e.rules id = some r ∧ e.states id = some s ∧ r.enabled = true ∧
      r.siteEnabled = true ∧ s.shelvedAt ev.tsMs = false) ∧
    (ev.type = "return" → ∃ r, e.rules id = some r ∧ r.siteEnabled = true)

omit [JsonLib] in
theorem announcedAfter_append (ms ms' : List Mark) (a : Bool) :
    announcedAfter (ms ++ ms') a = (announcedAfter ms a).bind (announcedAfter ms') := by
  unfold announcedAfter
  rw [List.foldlM_append]
  rfl

/-! ## One effect -/

/-- A return is armed while the alarm is active only. -/
def AlarmState.Armed (s : AlarmState) : Prop :=
  s.returnNotificationArmed = true → s.active = true

/-- The marks fit to the change of the alarm. -/
def Follows (s : AlarmState) (x : AlarmState × List Mark) : Prop :=
  announcedAfter x.2 s.returnNotificationArmed = some x.1.returnNotificationArmed ∧ x.1.Armed

omit [JsonLib] in
theorem follows_quiet {s s' : AlarmState} (h : s.Armed)
    (harmed : s'.returnNotificationArmed = s.returnNotificationArmed)
    (hactive : s'.active = s.active) : Follows s (s', []) := by
  refine ⟨?_, fun ha => ?_⟩
  · rw [harmed]
    rfl
  · rw [hactive]
    exact h (harmed ▸ ha)

omit [JsonLib] in
theorem suppressAlarm_follows {s : AlarmState} (h : s.Armed) (t : Int) :
    Follows s (suppressAlarm s t) := by
  unfold suppressAlarm
  dsimp only
  split
  · refine ⟨?_, fun ha => by cases ha⟩
    cases hs : s.returnNotificationArmed <;> rfl
  · exact follows_quiet h rfl rfl

omit [JsonLib] in
theorem not_armed {s : AlarmState} (h : s.Armed) (ha : s.active = false) :
    s.returnNotificationArmed = false := by
  cases hr : s.returnNotificationArmed with
  | false => rfl
  | true => exact absurd (h hr) (by simp [ha])

omit [JsonLib] in
/-- An alarm that was not announced becomes active, with an event if and only if its return is
armed. -/
theorem raise_follows {s : AlarmState} (hs : s.returnNotificationArmed = false) (record : Bool)
    (t ts : Int) (message : String) (s₀ : AlarmState) (value : Json) :
    Follows s (s₀.raise record t message,
      if record then [logEvent (s₀.raise record t message) "active" value ts] else []) := by
  refine ⟨?_, fun _ => rfl⟩
  rw [hs]
  cases record <;> rfl

omit [JsonLib] in
theorem activateAlarm_follows (r : AlarmRule) (record : Bool) (t ts : Int) {s : AlarmState}
    (h : s.Armed) (ha : s.active = false) : Follows s (activateAlarm r record t ts s) := by
  have hs := not_armed h ha
  unfold activateAlarm
  split
  · refine follows_quiet h ?_ ?_
    · dsimp only
      split <;> rfl
    · dsimp only
      split <;> rfl
  · split
    · refine ⟨?_, fun hr => by cases hr⟩
      rw [hs]
      rfl
    · exact raise_follows hs record t ts _ _ _

omit [JsonLib] in
theorem returnAlarm_follows (r : AlarmRule) (record : Bool) (t ts : Int) (s : AlarmState) :
    Follows s (returnAlarm r record t ts s) := by
  refine ⟨?_, fun hr => by cases hr⟩
  unfold returnAlarm
  cases record <;> cases s.returnNotificationArmed <;> rfl

theorem updateAlarm_follows (r : AlarmRule) (value : Json) (record : Bool) (t ts : Int)
    {s : AlarmState} (h : s.Armed) : Follows s (updateAlarm r value record t ts s) := by
  have hact : (evalState r value t s).active = s.active := by
    rw [evalState_eq]
  have harm : (evalState r value t s).returnNotificationArmed = s.returnNotificationArmed := by
    rw [evalState_eq]
  have h' : (evalState r value t s).Armed := by
    intro ha
    rw [hact]
    exact h (harm ▸ ha)
  obtain ⟨-, hx⟩ | ⟨-, -, ha, hx⟩ | ⟨-, -, -, hx⟩ | ⟨-, -, ⟨-, hx⟩ | ⟨-, hx⟩ | ⟨-, hx⟩⟩ :=
    updateAlarm_cases r value record t ts s
  · rw [hx]
    exact suppressAlarm_follows (s := { s with lastValue := value }) h t
  · rw [hx]
    have hf := activateAlarm_follows r record t ts h' (hact.trans ha)
    unfold Follows at hf ⊢
    rw [harm] at hf
    exact hf
  · rw [hx]
    have hf := returnAlarm_follows r record t ts (evalState r value t s)
    unfold Follows at hf ⊢
    rw [harm] at hf
    exact hf
  · rw [hx]
    exact follows_quiet h harm hact
  · rw [hx]
    exact follows_quiet h harm hact
  · rw [hx]
    exact follows_quiet h harm hact

omit [JsonLib] in
theorem processAlarm_follows (rule : Option AlarmRule) (t ts : Int) {s : AlarmState}
    (h : s.Armed) : Follows s (processAlarm rule t ts s) := by
  unfold processAlarm
  split
  · exact follows_quiet h rfl rfl
  · rename_i hs
    have ha : s.active = false := by
      cases ha : s.active with
      | false => rfl
      | true => simp [ha] at hs
    split
    · exact follows_quiet h rfl rfl
    · split
      · exact follows_quiet h rfl rfl
      · split
        · exact follows_quiet h rfl rfl
        · exact raise_follows (not_armed h ha) s.pendingRecordEvent t ts _ _ _

/-- **One effect.** The marks that it writes fit to what it does to the alarm. -/
theorem Effect.run_follows (f : Effect) {s : AlarmState} (h : s.Armed) : Follows s (f.run s) := by
  cases f with
  | skip => exact follows_quiet h rfl rfl
  | bad => exact follows_quiet h rfl rfl
  | update r value record t ts => exact updateAlarm_follows r value record t ts h
  | process rule t ts => exact processAlarm_follows rule t ts h
  | ack t ts actor note => exact ⟨rfl, h⟩
  | shelve until_ t ts actor note => exact ⟨rfl, h⟩
  | unshelve t ts actor note => exact ⟨rfl, h⟩

theorem runAll_follows (effects : List Effect) {s : AlarmState} (h : s.Armed) :
    Follows s (runAll effects s) := by
  have hstep : ∀ f ∈ effects, ∀ s' ms, Follows s (s', ms) →
      Follows s ((Effect.run f s').1, ms ++ (f.run s').2) := by
    intro f _ s' ms hs'
    obtain ⟨h1, h2⟩ := f.run_follows hs'.2
    refine ⟨?_, h2⟩
    show announcedAfter (ms ++ (f.run s').2) s.returnNotificationArmed = _
    rw [announcedAfter_append, hs'.1]
    exact h1
  have hall := runAll_induct (P := fun s' ms => Follows s (s', ms)) effects hstep s [] ⟨rfl, h⟩
  rwa [List.nil_append] at hall

/-! ## When a mark is written -/

/-- The operation sets or clears the shelving of an alarm. -/
def AlarmOp.shelves : AlarmOp → Bool
  | .shelve .. => true
  | .unshelve .. => true
  | _ => false

omit [JsonLib] in
theorem shelvedAt_later {s : AlarmState} {t ts : Int} (h : s.shelvedAt t = false) (hts : t ≤ ts) :
    s.shelvedAt ts = false := by
  unfold AlarmState.shelvedAt at h ⊢
  cases hu : s.shelvedUntilMs with
  | none => rfl
  | some until_ =>
    rw [hu] at h
    simp only [Option.any_some, decide_eq_false_iff_not] at h ⊢
    omega

omit [JsonLib] in
theorem logEvent_allowed {e : AlarmEngine} {op : AlarmOp} {id type : String} {ts : Int}
    (hactive : type = "active" → ∃ r s, e.rules id = some r ∧ e.states id = some s ∧
      r.enabled = true ∧ r.siteEnabled = true ∧ s.shelvedAt ts = false)
    (hreturn : type = "return" → ∃ r, e.rules id = some r ∧ r.siteEnabled = true)
    (s : AlarmState) (value : Json) (actor note : String) :
    (logEvent s type value ts actor note).Allowed e op id := ⟨hactive, hreturn⟩

theorem updateAlarm_shelved (r : AlarmRule) (value : Json) (record : Bool) (t ts : Int)
    (s : AlarmState) : (updateAlarm r value record t ts s).1.shelvedUntilMs = s.shelvedUntilMs := by
  have hs : (evalState r value t s).shelvedUntilMs = s.shelvedUntilMs := by
    rw [evalState_eq]
  obtain ⟨-, hx⟩ | ⟨-, -, -, hx⟩ | ⟨-, -, -, hx⟩ | ⟨-, -, ⟨-, hx⟩ | ⟨-, hx⟩ | ⟨-, hx⟩⟩ :=
    updateAlarm_cases r value record t ts s
  · rw [hx]
    unfold suppressAlarm
    dsimp only
    split <;> rfl
  · rw [hx]
    unfold activateAlarm
    split
    · dsimp only
      split <;> exact hs
    · split <;> exact hs
  all_goals
    rw [hx]
    exact hs

theorem updateAlarm_allowed {e : AlarmEngine} {op : AlarmOp} {id : String} {r : AlarmRule}
    {record : Bool} {s s' : AlarmState} {t ts : Int} (hr : e.rules id = some r)
    (hop : op.baseline = !record) (hs : e.states id = some s)
    (hs' : s'.shelvedUntilMs = s.shelvedUntilMs) (hts : t ≤ ts) (value : Json) :
    ∀ m ∈ (updateAlarm r value record t ts s').2, m.Allowed e op id := by
  obtain ⟨hsite, hx⟩ | ⟨hsite, hf, -, hx⟩ | ⟨hsite, -, -, hx⟩ | ⟨-, -, ⟨-, hx⟩ | ⟨-, hx⟩ | ⟨-, hx⟩⟩ :=
    updateAlarm_cases r value record t ts s'
  · intro m hm
    rw [hx] at hm
    unfold suppressAlarm at hm
    dsimp only at hm
    split at hm
    · split at hm
      · rw [List.mem_singleton.1 hm]
        exact .inr (.inr ⟨r, hr, hsite⟩)
      · cases hm
    · cases hm
  · intro m hm
    rw [hx] at hm
    unfold activateAlarm at hm
    split at hm
    · cases hm
    · split at hm
      · cases hm
      · dsimp only at hm
        split at hm
        · rw [List.mem_singleton.1 hm]
          simp only [fires, canEval, Bool.and_eq_true, Bool.not_eq_true'] at hf
          obtain ⟨⟨hen, hsh⟩, -⟩ := hf
          have hlater : s.shelvedAt t = false := by
            unfold AlarmState.shelvedAt at hsh ⊢
            rwa [← hs']
          exact logEvent_allowed
            (fun _ => ⟨r, s, hr, hs, hen, hsite, shelvedAt_later hlater hts⟩)
            (fun h => absurd h (by decide)) _ _ _ _
        · cases hm
  · intro m hm
    rw [hx] at hm
    unfold returnAlarm at hm
    dsimp only at hm
    split at hm
    · rw [List.mem_singleton.1 hm]
      exact logEvent_allowed (fun h => absurd h (by decide)) (fun _ => ⟨r, hr, hsite⟩) _ _ _ _
    · rename_i hn
      split at hm
      · rename_i ha
        rw [List.mem_singleton.1 hm]
        refine .inr (.inl ?_)
        rw [hop]
        rw [ha, Bool.and_true] at hn
        simpa using hn
      · cases hm
  all_goals
    rw [hx]
    exact fun m hm => by cases hm

omit [JsonLib] in
theorem processAlarm_allowed {e : AlarmEngine} {op : AlarmOp} {id : String} {s s' : AlarmState}
    {t ts : Int} (hs : e.states id = some s) (hs' : s'.shelvedUntilMs = s.shelvedUntilMs)
    (hts : t ≤ ts) : ∀ m ∈ (processAlarm (e.rules id) t ts s').2, m.Allowed e op id := by
  intro m hm
  unfold processAlarm at hm
  split at hm
  · cases hm
  · split at hm
    · cases hm
    · rename_i r hr
      split at hm
      · cases hm
      · rename_i hc
        split at hm
        · cases hm
        · dsimp only at hm
          split at hm
          · rw [List.mem_singleton.1 hm]
            simp only [Bool.or_eq_true, Bool.not_eq_true', not_or, Bool.not_eq_false,
              Bool.not_eq_true] at hc
            obtain ⟨⟨hen, hsite⟩, hsh⟩ := hc
            have hlater : s.shelvedAt t = false := by
              unfold AlarmState.shelvedAt at hsh ⊢
              rwa [← hs']
            exact logEvent_allowed
              (fun _ => ⟨r, s, hr, hs, hen, hsite, shelvedAt_later hlater hts⟩)
              (fun h => absurd h (by decide)) _ _ _ _
          · cases hm

omit [JsonLib] in
theorem processAlarm_shelved (rule : Option AlarmRule) (t ts : Int) (s : AlarmState) :
    (processAlarm rule t ts s).1.shelvedUntilMs = s.shelvedUntilMs := by
  unfold processAlarm
  split
  · rfl
  · split
    · rfl
    · split
      · rfl
      · split <;> rfl

/-- The marks that one effect of an operation writes, and the shelving that it leaves. -/
theorem Effect.run_allowed {e : AlarmEngine} {op : AlarmOp} {id : String} (hop : op.Timely)
    {f : Effect} (hf : f ∈ e.effects id op) {s s' : AlarmState} (hs : e.states id = some s)
    (hs' : op.shelves = false → s'.shelvedUntilMs = s.shelvedUntilMs) :
    (op.shelves = false → (f.run s').1.shelvedUntilMs = s.shelvedUntilMs) ∧
      ∀ m ∈ (f.run s').2, m.Allowed e op id := by
  have hnone : ∀ m ∈ ([] : List Mark), m.Allowed e op id := fun m hm => by cases hm
  obtain ⟨c, tag, value, quality, record, now, j, rfl, rfl⟩ | ⟨t, now, j, rfl, rfl⟩ |
    ⟨actor, note, t, ts, rfl, rfl⟩ | ⟨until_, actor, note, t, ts, rfl, rfl⟩ |
    ⟨actor, note, t, ts, rfl, rfl⟩ := mem_effects hf
  · unfold updateEffect
    split
    · exact ⟨fun _ => hs' rfl, hnone⟩
    · split
      · exact ⟨fun _ => hs' rfl, hnone⟩
      · rename_i r hr
        exact ⟨fun _ => (updateAlarm_shelved r value record _ _ s').trans (hs' rfl),
          updateAlarm_allowed hr rfl hs (hs' rfl) (hop j) value⟩
  · exact ⟨fun _ => (processAlarm_shelved _ t _ s').trans (hs' rfl),
      processAlarm_allowed hs (hs' rfl) (hop j)⟩
  · refine ⟨fun _ => hs' rfl, fun m hm => ?_⟩
    rw [List.mem_singleton.1 hm]
    exact logEvent_allowed (fun h => absurd h (by decide)) (fun h => absurd h (by decide)) _ _ _ _
  · refine ⟨fun h => (by cases h), fun m hm => ?_⟩
    rw [List.mem_singleton.1 hm]
    exact logEvent_allowed (fun h => absurd h (by decide)) (fun h => absurd h (by decide)) _ _ _ _
  · refine ⟨fun h => (by cases h), fun m hm => ?_⟩
    rw [List.mem_singleton.1 hm]
    exact logEvent_allowed (fun h => absurd h (by decide)) (fun h => absurd h (by decide)) _ _ _ _

theorem runAll_allowed {e : AlarmEngine} {op : AlarmOp} {id : String} (hop : op.Timely)
    {s : AlarmState} (hs : e.states id = some s) :
    ∀ m ∈ (runAll (e.effects id op) s).2, m.Allowed e op id := by
  have hall := runAll_induct
    (P := fun s' ms => (op.shelves = false → s'.shelvedUntilMs = s.shelvedUntilMs) ∧
      ∀ m ∈ ms, m.Allowed e op id) (e.effects id op)
    (fun f hf s' ms ⟨h1, h2⟩ => by
      obtain ⟨h3, h4⟩ := Effect.run_allowed hop hf hs h1
      refine ⟨h3, fun m hm => ?_⟩
      rcases List.mem_append.1 hm with hm | hm
      · exact h2 m hm
      · exact h4 m hm) s [] ⟨fun _ => rfl, fun m hm => by cases hm⟩
  simpa using hall.2

/-! ## A step and a run -/

/-- What a run keeps: the tables agree, and the history of each alarm fits to its state. -/
structure Announced (e : AlarmEngine) : Prop where
  keyed : Keyed e
  armed : ∀ id s, e.states id = some s → s.Armed
  history : ∀ id, announcedAfter (marksOf id e.history) false = some (e.announced id)

/-- The marks of one alarm that a step adds. -/
def stepMarks (e : AlarmEngine) (op : AlarmOp) (id : String) : List Mark :=
  marksOf id ((e.step op).history.drop e.history.length)

theorem stepMarks_eq {e : AlarmEngine} {op : AlarmOp} {id : String} {ms : List Mark}
    (h : marksOf id (e.step op).history = marksOf id e.history ++ ms) : stepMarks e op id = ms := by
  obtain ⟨new, hnew⟩ := step_history (e := e) op
  rw [hnew, marksOf_append] at h
  unfold stepMarks
  rw [hnew, List.drop_left]
  exact List.append_cancel_left h

/-- The effects of an operation keep the alarms and their history together. -/
theorem step_announced_effects {e : AlarmEngine} (h : Announced e) {op : AlarmOp}
    (hop : op.loads = false) : Announced (e.step op) := by
  refine ⟨(step_rules h.keyed hop).1, fun id s hs => ?_, fun id => ?_⟩
  · rw [step_state h.keyed hop id] at hs
    obtain ⟨s₀, hs₀, rfl⟩ := Option.map_eq_some_iff.1 hs
    exact (runAll_follows _ (h.armed id s₀ hs₀)).2
  · rw [step_marks h.keyed hop id, announcedAfter_append, h.history id]
    unfold AlarmEngine.announced
    rw [step_state h.keyed hop id]
    cases hs : e.states id with
    | none => rfl
    | some s => exact (runAll_follows (e.effects id op) (h.armed id s hs)).1

omit [JsonLib] in
/-- A load keeps an alarm announced or drops it. -/
theorem announced_dropped {e next : AlarmEngine} (h : Announced e) (id : String)
    (hkeep : next.announced id = true → e.announced id = true) :
    announcedAfter (marksOf id (e.history ++ e.droppedBy next)) false =
      some (next.announced id) := by
  rw [marksOf_append, announcedAfter_append, h.history id, droppedBy_marks h.keyed]
  cases he : e.announced id with
  | false =>
    cases hn : next.announced id with
    | false => rfl
    | true => exact absurd (hkeep hn) (by simp [he])
  | true => cases next.announced id <;> rfl

omit [JsonLib] in
theorem reload_announced {e : AlarmEngine} (h : Announced e) (rules : List AlarmRule)
    (globalDelayMs : Int) : Announced (e.reload rules globalDelayMs) := by
  refine ⟨reload_keyed rules globalDelayMs, fun id s hs => ?_, fun id => ?_⟩
  · rw [reload_state] at hs
    obtain ⟨s₀, hs₀, rfl⟩ := Option.map_eq_some_iff.1 hs
    split
    · intro ha
      obtain ⟨⟨-, -, -, harm, -⟩, -⟩ := loadTables_fresh rules globalDelayMs hs₀
      rw [harm] at ha
      cases ha
    · rename_i prev hprev
      exact h.armed id prev hprev
  · refine announced_dropped h id fun ha => ?_
    unfold AlarmEngine.announced at ha ⊢
    change Option.any _ ((e.reload rules globalDelayMs).states id) = true at ha
    rw [reload_state] at ha
    cases hs₀ : (loadTables rules globalDelayMs).states id with
    | none => simp [hs₀] at ha
    | some s₀ =>
      rw [hs₀] at ha
      cases hprev : e.states id with
      | none =>
        obtain ⟨⟨-, -, -, harm, -⟩, -⟩ := loadTables_fresh rules globalDelayMs hs₀
        simp [hprev, harm] at ha
      | some prev => simpa [hprev, carryOver] using ha

omit [JsonLib] in
theorem load_announced {e : AlarmEngine} (h : Announced e) (rules : List AlarmRule)
    (globalDelayMs : Int) : Announced (e.loadRulesFromFile rules globalDelayMs) := by
  have hfresh : ∀ id s, (loadTables rules globalDelayMs).states id = some s →
      s.returnNotificationArmed = false := fun id s hs =>
    (loadTables_fresh rules globalDelayMs hs).1.2.2.2.1
  refine ⟨load_keyed rules globalDelayMs, fun id s hs ha => ?_, fun id => ?_⟩
  · rw [load_state] at hs
    rw [hfresh id s hs] at ha
    cases ha
  · refine announced_dropped h id fun ha => ?_
    unfold AlarmEngine.announced at ha
    cases hs : (loadTables rules globalDelayMs).states id with
    | none => simp [hs] at ha
    | some s => simp [hs, hfresh id s hs] at ha

theorem step_announced {e : AlarmEngine} (h : Announced e) (op : AlarmOp) :
    Announced (e.step op) := by
  cases hop : op.loads with
  | false => exact step_announced_effects h hop
  | true =>
    cases op with
    | reload rules globalDelayMs t => exact reload_announced h rules globalDelayMs
    | load rules globalDelayMs t => exact load_announced h rules globalDelayMs
    | _ => cases hop

/-- The marks of a step are allowed. -/
theorem stepMarks_allowed {e : AlarmEngine} (h : Keyed e) {op : AlarmOp} (hop : op.Timely)
    (id : String) : ∀ m ∈ stepMarks e op id, m.Allowed e op id := by
  cases hl : op.loads with
  | false =>
    rw [stepMarks_eq (step_marks h hl id)]
    cases hs : e.states id with
    | none => exact fun m hm => by cases hm
    | some s => exact runAll_allowed hop hs
  | true =>
    have hdrop : ∀ next m, m ∈ marksOf id (e.droppedBy next) → m.Allowed e op id := by
      intro next m hm
      rw [droppedBy_marks h] at hm
      split at hm
      · rw [List.mem_singleton.1 hm]
        exact .inl hl
      · cases hm
    cases op with
    | reload rules globalDelayMs t =>
      intro m hm
      rw [stepMarks_eq (marksOf_append id _ _)] at hm
      exact hdrop _ m hm
    | load rules globalDelayMs t =>
      intro m hm
      rw [stepMarks_eq (marksOf_append id _ _)] at hm
      exact hdrop _ m hm
    | _ => cases hl

omit [JsonLib] in
theorem empty_announced : Announced {} :=
  ⟨⟨fun _ _ h => (by cases h), by simp, by simp, List.nodup_nil⟩, fun _ _ h => (by cases h),
    fun _ => rfl⟩

theorem run_announced (ops : List AlarmOp) : Announced (run AlarmEngine.step {} ops) :=
  run_induct (I := Announced) (fun _ op h => step_announced h op) empty_announced ops

end

/-! ## A run -/

section
attribute [local instance] intFloats intJson

/-- The types of the events of an alarm. -/
def eventTypes (id : String) (history : List Mark) : List String :=
  (marksOf id history).filterMap fun
    | .event e => some e.type
    | .dropped _ => none

def highLevel : AlarmRule where
  id := "HIGH_LEVEL"
  connectionId := "PLC1"
  tag := "Level"
  conditionType := "high"
  threshold := Floats.ofInt 5

/-- The alarm is raised by a live value, reset by a baseline and raised again. -/
def baselineOps : List AlarmOp := [
  .load [highLevel] 0 0,
  .update "PLC1" "Level" (.int 9) .null true fun _ => 1,
  .update "PLC1" "Level" (.int 0) .null false fun _ => 2,
  .update "PLC1" "Level" (.int 9) .null true fun _ => 3]

/-- The alarm is raised, shelved and updated while it is shelved. -/
def shelvedOps : List AlarmOp := [
  .load [highLevel] 0 0,
  .update "PLC1" "Level" (.int 9) .null true fun _ => 1,
  .shelve "HIGH_LEVEL" 100 "" "" 2 2,
  .update "PLC1" "Level" (.int 9) .null true fun _ => 3]

end

end OpcBridge.Alarms
