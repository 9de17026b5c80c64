import OpcBridge.Alarms.Delay
import OpcBridge.Alarms.Restore

/-!
# Live transitions and their replay

Along a run of recorded operations on fixed rules the stored events of an alarm, played back over
its fresh state, give its live state (`Replayable`): each transition is followed by the event that
writes the same fields. Two things can spoil a restart. An event carries a clock reading of its own,
which becomes the time of activation; and the query that feeds the replay returns the oldest 50000
rows of the window, so that the transitions of a longer history's end are not played back.
-/

namespace OpcBridge.Alarms

open OpcBridge Lib

section
variable [Floats] [JsonLib]

/-! ## Recorded operations -/

/-- A recorded update, a delayed activation, an acknowledgement, or a shelving with a time that the
callers let through. -/
def AlarmOp.Recorded : AlarmOp → Prop
  | .update _ _ _ _ record _ => record = true
  | .shelve _ until_ _ _ _ _ => 0 < until_
  | .reload .. => False
  | .load .. => False
  | _ => True

/-- The effect activates the alarm. -/
def Effect.activates (s : AlarmState) : Effect → Bool
  | .update r value _ t _ =>
    r.siteEnabled && fires r value t s && !s.active && decide (s.effectiveDelayMs ≤ 0)
  | .process rule t _ =>
    s.pending && !s.active && decide (0 < s.effectiveDelayMs) &&
      rule.any (fun r => r.enabled && r.siteEnabled) && !s.shelvedAt t &&
      decide (s.effectiveDelayMs ≤ t - s.pendingSinceMs)
  | _ => false

/-- An activation and its event read the same time. -/
def Effect.Punctual (s : AlarmState) (f : Effect) : Prop :=
  f.activates s = true →
    match f with
    | .update _ _ _ t ts => t = ts
    | .process _ t ts => t = ts
    | _ => True

def AlarmOp.Punctual (e : AlarmEngine) (op : AlarmOp) : Prop :=
  ∀ id, ∀ x ∈ stepTrace e op id, x.2.Punctual x.1

/-- An effect of a recorded operation on an alarm with rule `r`. -/
def Effect.Recorded (r : AlarmRule) : Effect → Prop
  | .update r' _ record _ _ => r' = r ∧ record = true
  | .process rule _ _ => rule = some r
  | .shelve until_ _ _ _ _ => 0 < until_
  | _ => True

theorem effects_recorded {e : AlarmEngine} {op : AlarmOp} {id : String} {r : AlarmRule}
    (hop : op.Recorded) (hr : e.rules id = some r) {f : Effect} (hf : f ∈ e.effects id op) :
    f.Recorded r := by
  obtain ⟨c, tag, value, quality, record, now, j, rfl, rfl⟩ | ⟨t, now, j, rfl, rfl⟩ |
    ⟨actor, note, t, ts, rfl, rfl⟩ | ⟨until_, actor, note, t, ts, rfl, rfl⟩ |
    ⟨actor, note, t, ts, rfl, rfl⟩ := mem_effects hf
  · unfold updateEffect
    split
    · trivial
    · rw [hr]
      exact ⟨rfl, hop⟩
  · exact hr
  · trivial
  · exact hop
  · trivial

/-! ## One effect -/

/-- The flags of an alarm whose transitions are all recorded. -/
structure Live (r : AlarmRule) (s : AlarmState) : Prop where
  armed : s.returnNotificationArmed = s.active
  record : s.pending = true → s.pendingRecordEvent = true
  site : s.active = true → r.siteEnabled = true

/-- The event can be stored and read back. -/
def AlarmEvent.Good (ev : AlarmEvent) : Prop :=
  ev.type ≠ "" ∧ (ev.type = "shelve" → (untilMs ev.value).isSome)

/-- The marks are events, and their replay makes the same change to the kept fields. -/
def Replays (s : AlarmState) (x : AlarmState × List Mark) : Prop :=
  ∃ events : List AlarmEvent, x.2 = events.map .event ∧ (∀ ev ∈ events, ev.Good) ∧
    ∀ s₀, Kept s₀ s → ∃ s₁, replayAll events s₀ = some s₁ ∧ Kept s₁ x.1

theorem replays_quiet {s s' : AlarmState} (h : Kept s s') : Replays s (s', []) := by
  refine ⟨[], rfl, fun ev hev => (by cases hev), fun s₀ h₀ => ⟨s₀, rfl, ?_⟩⟩
  exact ⟨h₀.active.trans h.active, h₀.armed.trans h.armed, h₀.since.trans h.since,
    h₀.acked.trans h.acked, h₀.shelved.trans h.shelved⟩

/-- A transition with one event. -/
theorem replays_event {s s' : AlarmState} {ev : AlarmEvent} (hgood : ev.Good)
    (h : ∀ s₀, Kept s₀ s → ∃ s₁, replayEvent ev s₀ = some s₁ ∧ Kept s₁ s') :
    Replays s (s', [.event ev]) := by
  refine ⟨[ev], rfl, fun ev' hev => ?_, fun s₀ h₀ => ?_⟩
  · rw [List.mem_singleton.1 hev]
    exact hgood
  · obtain ⟨s₁, h1, h2⟩ := h s₀ h₀
    exact ⟨s₁, by simp [replayAll, h1], h2⟩

theorem good_log {type : String} {value : Json} (htype : type ≠ "")
    (hread : type = "shelve" → (untilMs value).isSome) (ts : Int) (id : String)
    (message actor note : Option String) :
    AlarmEvent.Good ⟨ts, id, type, value, message, actor, note⟩ := ⟨htype, hread⟩

omit [JsonLib] in
theorem kept_eval {r : AlarmRule} {value : Json} {t : Int} (s : AlarmState) :
    Kept s (evalState r value t s) := by
  rw [evalState_eq]
  exact ⟨rfl, rfl, rfl, rfl, rfl⟩

omit [JsonLib] in
theorem live_eval {r r' : AlarmRule} {value : Json} {t : Int} {s : AlarmState} (h : Live r' s) :
    Live r' (evalState r value t s) := by
  rw [evalState_eq]
  refine ⟨h.armed, fun hp => h.record ?_, h.site⟩
  simp only [Bool.and_eq_true] at hp
  exact hp.2

/-- An activation and its event. -/
theorem replays_raise {s : AlarmState} (s₀ : AlarmState) {t ts : Int} (hts : t = ts) (message : String)
    (hshelved : s₀.shelvedUntilMs = s.shelvedUntilMs) (value : Json) :
    Replays s (s₀.raise true t message,
      [logEvent (s₀.raise true t message) "active" value ts]) := by
  refine replays_event (good_log (by decide) (fun h => absurd h (by decide)) ..) fun s₁ h₁ => ?_
  exact ⟨_, rfl, ⟨rfl, rfl, hts.symm, rfl, h₁.shelved.trans hshelved.symm⟩⟩

theorem activateAlarm_replays {r : AlarmRule} {t ts : Int} {s : AlarmState} (h : Live r s)
    (hsite : r.siteEnabled = true) (hts : s.effectiveDelayMs ≤ 0 → t = ts) :
    Replays s (activateAlarm r true t ts s) ∧ Live r (activateAlarm r true t ts s).1 := by
  unfold activateAlarm
  split
  · dsimp only
    split
    · rename_i hp
      exact ⟨replays_quiet ⟨rfl, rfl, rfl, rfl, rfl⟩, ⟨h.armed, h.record, h.site⟩⟩
    · exact ⟨replays_quiet ⟨rfl, rfl, rfl, rfl, rfl⟩, ⟨h.armed, fun _ => rfl, h.site⟩⟩
  · split
    · rename_i hb
      simp at hb
    · rename_i hd _
      exact ⟨replays_raise (s := s) { s with initialized := true } (hts (by omega)) _ rfl _,
        ⟨rfl, h.record, fun _ => hsite⟩⟩

theorem returnAlarm_replays {r r' : AlarmRule} (t ts : Int) {s : AlarmState} (h : Live r' s)
    (ha : s.active = true) :
    Replays s (returnAlarm r true t ts s) ∧ Live r' (returnAlarm r true t ts s).1 := by
  have harm : s.returnNotificationArmed = true := h.armed.trans ha
  unfold returnAlarm
  dsimp only
  rw [harm]
  refine ⟨replays_event (good_log (by decide) (fun h => absurd h (by decide)) ..) fun s₀ h₀ => ?_,
    ⟨rfl, fun hp => (by cases hp), fun hp => by cases hp⟩⟩
  exact ⟨_, rfl, ⟨rfl, rfl, rfl, h₀.acked, h₀.shelved⟩⟩

omit [JsonLib] in
theorem kept_trans {s₁ s₂ s₃ : AlarmState} (h : Kept s₁ s₂) (h' : Kept s₂ s₃) : Kept s₁ s₃ :=
  ⟨h.active.trans h'.active, h.armed.trans h'.armed, h.since.trans h'.since,
    h.acked.trans h'.acked, h.shelved.trans h'.shelved⟩

theorem replays_of_kept {s s' : AlarmState} {x : AlarmState × List Mark} (h : Kept s s')
    (hx : Replays s' x) : Replays s x := by
  obtain ⟨events, h1, h2, h3⟩ := hx
  exact ⟨events, h1, h2, fun s₀ h₀ => h3 s₀ (kept_trans h₀ h)⟩

theorem updateAlarm_replays {r : AlarmRule} {value : Json} {t ts : Int} {s : AlarmState}
    (h : Live r s) (hp : (Effect.update r value true t ts).Punctual s) :
    Replays s (updateAlarm r value true t ts s) ∧ Live r (updateAlarm r value true t ts s).1 := by
  have hk : Kept s (evalState r value t s) := kept_eval s
  have hl : Live r (evalState r value t s) := live_eval h
  obtain ⟨hsite, hx⟩ | ⟨hsite, hf, ha, hx⟩ | ⟨-, -, ha, hx⟩ | ⟨-, -, ⟨-, hx⟩ | ⟨-, hx⟩ | ⟨-, hx⟩⟩ :=
    updateAlarm_cases r value true t ts s
  · -- a rule of a disabled site has no active alarm
    have ha : s.active = false := by
      cases ha : s.active with
      | false => rfl
      | true => exact absurd (hsite.symm.trans (h.site ha)) (by decide)
    rw [hx]
    unfold suppressAlarm
    dsimp only
    rw [if_neg (by simp [ha])]
    exact ⟨replays_quiet ⟨rfl, rfl, rfl, rfl, rfl⟩, ⟨h.armed, fun hp => (by cases hp), h.site⟩⟩
  · rw [hx]
    have hdelay : (evalState r value t s).effectiveDelayMs = s.effectiveDelayMs := by
      rw [evalState_eq]
    obtain ⟨h1, h2⟩ := activateAlarm_replays hl hsite fun hd => hp (by
      rw [hdelay] at hd
      simp [Effect.activates, hsite, hf, ha, hd])
    exact ⟨replays_of_kept hk h1, h2⟩
  · rw [hx]
    obtain ⟨h1, h2⟩ := returnAlarm_replays (r := r) t ts hl (hk.active.symm.trans ha)
    exact ⟨replays_of_kept hk h1, h2⟩
  · rw [hx]
    exact ⟨replays_quiet ⟨hk.active, hk.armed, hk.since, hk.acked, hk.shelved⟩,
      ⟨hl.armed, hl.record, hl.site⟩⟩
  · rw [hx]
    exact ⟨replays_quiet ⟨hk.active, hk.armed, hk.since, hk.acked, hk.shelved⟩,
      ⟨hl.armed, fun hp => (by cases hp), hl.site⟩⟩
  · rw [hx]
    exact ⟨replays_quiet hk, hl⟩

theorem processAlarm_replays {r : AlarmRule} {t ts : Int} {s : AlarmState} (h : Live r s)
    (hp : (Effect.process (some r) t ts).Punctual s) :
    Replays s (processAlarm (some r) t ts s) ∧ Live r (processAlarm (some r) t ts s).1 := by
  have hsame : Replays s (s, []) ∧ Live r s := ⟨replays_quiet ⟨rfl, rfl, rfl, rfl, rfl⟩, h⟩
  have hdrop : Replays s (dropPending s, []) ∧ Live r (dropPending s) :=
    ⟨replays_quiet ⟨rfl, rfl, rfl, rfl, rfl⟩, ⟨h.armed, fun hp => (by cases hp), h.site⟩⟩
  unfold processAlarm
  split
  · exact hsame
  · rename_i hpend
    simp only [Bool.or_eq_true, Bool.not_eq_true', decide_eq_true_eq, not_or, Bool.not_eq_false,
      Bool.not_eq_true] at hpend
    obtain ⟨⟨hpending, hactive⟩, hdelay⟩ := hpend
    dsimp only
    split
    · exact hdrop
    · rename_i hrule
      simp only [Bool.or_eq_true, Bool.not_eq_true', not_or, Bool.not_eq_false,
        Bool.not_eq_true] at hrule
      obtain ⟨⟨hen, hsite⟩, hsh⟩ := hrule
      split
      · exact hsame
      · rename_i hlate
        rw [h.record hpending]
        have hts : t = ts := hp (by
          have hd : s.effectiveDelayMs ≤ t - s.pendingSinceMs := by omega
          have hpos : 0 < s.effectiveDelayMs := by omega
          simp [Effect.activates, hpending, hactive, hpos, hen, hsite, hsh, hd])
        exact ⟨replays_raise (s := s) (dropPending s) hts _ rfl _,
          ⟨rfl, fun hp => (by cases hp), fun _ => hsite⟩⟩

/-- **One effect.** The event that it stores, if any, writes the change that it makes. -/
theorem Effect.run_replays {r : AlarmRule} {f : Effect} {s : AlarmState} (h : Live r s)
    (hr : f.Recorded r) (hp : f.Punctual s) : Replays s (f.run s) ∧ Live r (f.run s).1 := by
  cases f with
  | skip => exact ⟨replays_quiet ⟨rfl, rfl, rfl, rfl, rfl⟩, h⟩
  | bad =>
    exact ⟨replays_quiet ⟨rfl, rfl, rfl, rfl, rfl⟩, ⟨h.armed, fun hp => (by cases hp), h.site⟩⟩
  | update r' value record t ts =>
    obtain ⟨rfl, rfl⟩ := hr
    exact updateAlarm_replays h hp
  | process rule t ts =>
    obtain rfl : rule = some r := hr
    exact processAlarm_replays h hp
  | ack t ts actor note =>
    refine ⟨replays_event (good_log (by decide) (fun h => absurd h (by decide)) ..) fun s₀ h₀ => ?_,
      ⟨h.armed, h.record, h.site⟩⟩
    exact ⟨_, rfl, ⟨h₀.active, h₀.armed, h₀.since, rfl, h₀.shelved⟩⟩
  | shelve until_ t ts actor note =>
    refine ⟨replays_event (good_log (by decide) (fun _ => rfl) ..) fun s₀ h₀ => ?_, ⟨h.armed, h.record, h.site⟩⟩
    refine ⟨_, rfl, ?_⟩
    beta_reduce
    rw [if_pos (show 0 < until_ from hr)]
    exact ⟨h₀.active, h₀.armed, h₀.since, h₀.acked, rfl⟩
  | unshelve t ts actor note =>
    refine ⟨replays_event (good_log (by decide) (fun h => absurd h (by decide)) ..) fun s₀ h₀ => ?_,
      ⟨h.armed, h.record, h.site⟩⟩
    exact ⟨_, rfl, ⟨h₀.active, h₀.armed, h₀.since, h₀.acked, rfl⟩⟩

theorem mem_runTrace {effects : List Effect} {s : AlarmState} {x : AlarmState × Effect}
    (hx : x ∈ runTrace effects s) : x.2 ∈ effects := by
  induction effects generalizing s with
  | nil => cases hx
  | cons f effects ih =>
    simp only [runTrace, List.mem_cons] at hx
    obtain rfl | hx := hx
    · exact List.mem_cons_self
    · exact List.mem_cons_of_mem _ (ih hx)

/-- An operation whose readings of the clock agree is punctual. -/
theorem punctual_of_eq {e : AlarmEngine} {op : AlarmOp}
    (h : match op with
      | .update _ _ _ _ _ now => ∀ j, now (2 * j) = now (2 * j + 1)
      | .process t now => ∀ j, t = now j
      | _ => True) : op.Punctual e := by
  intro id x hx
  have hmem : x.2 ∈ e.effects id op := by
    unfold stepTrace at hx
    cases hs : e.states id with
    | none => simp [hs] at hx
    | some s =>
      rw [hs] at hx
      exact mem_runTrace hx
  obtain ⟨c, tag, value, quality, record, now, j, rfl, hf⟩ | ⟨t, now, j, rfl, hf⟩ |
    ⟨actor, note, t, ts, rfl, hf⟩ | ⟨until_, actor, note, t, ts, rfl, hf⟩ |
    ⟨actor, note, t, ts, rfl, hf⟩ := mem_effects hmem
  · rw [hf]
    unfold updateEffect
    split
    · exact fun _ => trivial
    · split
      · exact fun _ => trivial
      · exact fun _ => h j
  · rw [hf]
    exact fun _ => h j
  all_goals
    rw [hf]
    exact fun _ => trivial

/-! ## A run -/

theorem replays_refl (s : AlarmState) : Replays s (s, []) :=
  replays_quiet ⟨rfl, rfl, rfl, rfl, rfl⟩

theorem replays_trans {s : AlarmState} {x : AlarmState × List Mark} {ms : List Mark}
    {s' : AlarmState} (h : Replays s (s', ms)) (hx : Replays s' x) : Replays s (x.1, ms ++ x.2) := by
  obtain ⟨evs, rfl, hgood, hall⟩ := h
  obtain ⟨evs', hx2, hgood', hall'⟩ := hx
  refine ⟨evs ++ evs', by simp [hx2], fun ev hev => ?_, fun s₀ h₀ => ?_⟩
  · rcases List.mem_append.1 hev with hev | hev
    · exact hgood ev hev
    · exact hgood' ev hev
  · obtain ⟨s₁, h1, hk1⟩ := hall s₀ h₀
    obtain ⟨s₂, h2, hk2⟩ := hall' s₁ hk1
    refine ⟨s₂, ?_, hk2⟩
    unfold replayAll at h1 h2 ⊢
    rw [List.foldlM_append, h1]
    exact h2

theorem runAll_replays {r : AlarmRule} (effects : List Effect) {s : AlarmState} (h : Live r s)
    (hr : ∀ f ∈ effects, f.Recorded r) (hp : ∀ x ∈ runTrace effects s, x.2.Punctual x.1) :
    Replays s (runAll effects s) ∧ Live r (runAll effects s).1 := by
  induction effects generalizing s with
  | nil => exact ⟨replays_refl s, h⟩
  | cons f effects ih =>
    simp only [runTrace, List.mem_cons, forall_eq_or_imp] at hp
    obtain ⟨h1, h2⟩ := f.run_replays h (hr f (by simp)) hp.1
    obtain ⟨h3, h4⟩ := ih h2 (fun g hg => hr g (List.mem_cons_of_mem _ hg)) hp.2
    rw [runAll_cons]
    exact ⟨replays_trans h1 h3, h4⟩

/-- What the history of an alarm says of its state, from the fresh state `s₀` on. -/
structure Replayable (e₀ e : AlarmEngine) : Prop where
  keyed : Keyed e
  rules : e.rules = e₀.rules
  alarm : ∀ id s, e.states id = some s → ∃ r s₀, e.rules id = some r ∧ e₀.states id = some s₀ ∧
    Live r s ∧ Replays s₀ (s, marksOf id e.history)
  none : ∀ id, e.states id = none → e₀.states id = none ∧ marksOf id e.history = []

theorem step_replayable {e₀ e : AlarmEngine} (h : Replayable e₀ e) {op : AlarmOp}
    (hop : op.Recorded) (hp : op.Punctual e) : Replayable e₀ (e.step op) := by
  have hl : op.loads = false := by
    cases op with
    | reload rules globalDelayMs t => exact hop.elim
    | load rules globalDelayMs t => exact hop.elim
    | _ => rfl
  obtain ⟨hkeyed, hrules, -⟩ := step_rules h.keyed hl
  refine ⟨hkeyed, hrules.trans h.rules, fun id s hs => ?_, fun id hs => ?_⟩
  · rw [step_state h.keyed hl id] at hs
    obtain ⟨s', hs', rfl⟩ := Option.map_eq_some_iff.1 hs
    obtain ⟨r, s₀, hr, hs₀, hlive, hreplay⟩ := h.alarm id s' hs'
    obtain ⟨h1, h2⟩ := runAll_replays (e.effects id op) hlive
      (fun f hf => effects_recorded hop hr hf) fun x hx => hp id x (by
        unfold stepTrace
        rw [hs']
        exact hx)
    refine ⟨r, s₀, by rw [hrules, hr], hs₀, h2, ?_⟩
    rw [step_marks h.keyed hl id, hs']
    exact replays_trans hreplay h1
  · rw [step_state h.keyed hl id] at hs
    obtain ⟨h1, h2⟩ := h.none id (Option.map_eq_none_iff.1 hs)
    refine ⟨h1, ?_⟩
    rw [step_marks h.keyed hl id, h2, Option.map_eq_none_iff.1 hs]
    rfl

/-- The engine after a first load of the rules. -/
def freshEngine (rules : List AlarmRule) (globalDelayMs : Int) : AlarmEngine :=
  AlarmEngine.step {} (.load rules globalDelayMs 0)

theorem fresh_replayable (rules : List AlarmRule) (globalDelayMs : Int) :
    Replayable (freshEngine rules globalDelayMs) (freshEngine rules globalDelayMs) := by
  have hk : Keyed (freshEngine rules globalDelayMs) := load_keyed (e := {}) rules globalDelayMs
  refine ⟨hk, rfl, fun id s hs => ?_, fun id hs => ⟨hs, rfl⟩⟩
  obtain ⟨⟨hactive, -, -, harmed, hpending, -⟩, -⟩ :=
    loadTables_fresh rules globalDelayMs (show (loadTables _ _).states id = some s from hs)
  obtain ⟨r, hr⟩ := Option.isSome_iff_exists.1 ((hk.rules id).2 (by rw [hs]; rfl))
  refine ⟨r, s, hr, hs, ⟨harmed.trans hactive.symm, fun hp => ?_, fun ha => ?_⟩, replays_refl s⟩
  · exact absurd (hpending.symm.trans hp) (by decide)
  · exact absurd (hactive.symm.trans ha) (by decide)

theorem run_replayable {rules : List AlarmRule} {globalDelayMs : Int} {ops : List AlarmOp}
    (hops : ∀ op ∈ ops, op.Recorded)
    (hp : Along AlarmEngine.step (fun e op => op.Punctual e) (freshEngine rules globalDelayMs) ops) :
    Replayable (freshEngine rules globalDelayMs)
      (run AlarmEngine.step (freshEngine rules globalDelayMs) ops) := by
  have hgen : ∀ (ops : List AlarmOp) (e : AlarmEngine), (∀ op ∈ ops, op.Recorded) →
      Along AlarmEngine.step (fun e op => op.Punctual e) e ops →
      Replayable (freshEngine rules globalDelayMs) e →
      Replayable (freshEngine rules globalDelayMs) (run AlarmEngine.step e ops) := by
    intro ops
    induction ops with
    | nil => exact fun _ _ _ h => h
    | cons op ops ih =>
      intro e hops hp h
      exact ih _ (fun op' hop' => hops op' (List.mem_cons_of_mem _ hop')) hp.2
        (step_replayable h (hops op (by simp)) hp.1)
  exact hgen ops _ hops hp (fresh_replayable rules globalDelayMs)

/-! ## The restart -/

omit [JsonLib] in
/-- Of rows in the order of their times, all inside the window, the oldest come back. -/
theorem fetchEventsSince_take {since : Int} {rows : List AlarmEvent}
    (hsorted : rows.Pairwise fun a b => a.tsMs < b.tsMs)
    (hsince : ∀ ev ∈ rows, since ≤ ev.tsMs) :
    fetchEventsSince since 50000 rows = rows.take 50000 := by
  have hfilter : (rows.filter fun ev => decide (since ≤ ev.tsMs)) = rows :=
    List.filter_eq_self.2 fun ev hev => by simpa using hsince ev hev
  have hsort : (rows.mergeSort fun a b => decide (a.tsMs ≤ b.tsMs)) = rows :=
    List.mergeSort_of_pairwise (hsorted.imp fun h => by simpa using Int.le_of_lt h)
  unfold fetchEventsSince
  simp only [hfilter, hsort]
  rfl

omit [JsonLib] in
theorem storedEvents_map (events : List AlarmEvent) : storedEvents (events.map .event) = events := by
  unfold storedEvents
  rw [List.filterMap_map]
  exact List.filterMap_some

omit [JsonLib] in
theorem storedEvents_marksOf (id : String) (history : List Mark) :
    storedEvents (marksOf id history) =
      (storedEvents history).filter fun ev => ev.alarmId == id := by
  unfold marksOf storedEvents
  rw [List.filterMap_filter, List.filter_filterMap]
  refine List.filterMap_congr fun m _ => ?_
  cases m with
  | event ev => cases h : ev.alarmId == id <;> simp [Mark.alarmId, Option.filter, h]
  | dropped id' => simp

/-- **Restart.** Where the history of a recorded run fits into one query and activations read the
same time as their events, the replay over fresh states gives the live state of every alarm. -/
theorem replay_state_ok (rules : List AlarmRule) (globalDelayMs since : Int) (ops : List AlarmOp)
    (hops : ∀ op ∈ ops, op.Recorded)
    (hpunctual : Along AlarmEngine.step (fun e op => op.Punctual e)
      (freshEngine rules globalDelayMs) ops)
    (hsorted : (storedEvents (run AlarmEngine.step (freshEngine rules globalDelayMs)
      ops).history).Pairwise fun a b => a.tsMs < b.tsMs)
    (hwindow : 0 < since ∧ ∀ ev ∈ storedEvents (run AlarmEngine.step
      (freshEngine rules globalDelayMs) ops).history, since ≤ ev.tsMs)
    (hlimit : (storedEvents (run AlarmEngine.step (freshEngine rules globalDelayMs)
      ops).history).length ≤ 50000) :
    let live := run AlarmEngine.step (freshEngine rules globalDelayMs) ops
    ∃ restored, (freshEngine rules globalDelayMs).restoreStateFromDb since
        (storedEvents live.history) = some restored ∧
      ∀ id s, live.states id = some s →
        ∃ s', restored.states id = some s' ∧ Kept s' s := by
  intro live
  have h := run_replayable hops hpunctual
  have hfetch : fetchEventsSince since 50000 (storedEvents live.history) =
      storedEvents live.history :=
    (fetchEventsSince_take hsorted hwindow.2).trans (List.take_of_length_le hlimit)
  -- the rows of an alarm are the events that its history holds
  have hrows : ∀ id s, live.states id = some s → ∃ s₀ events,
      (freshEngine rules globalDelayMs).states id = some s₀ ∧
      (storedEvents live.history).filter (fun ev => ev.alarmId == id) = events ∧
      (∀ ev ∈ events, ev.Good) ∧ ∃ s₁, replayAll events s₀ = some s₁ ∧ Kept s₁ s := by
    intro id s hs
    obtain ⟨r, s₀, -, hs₀, -, events, hevents, hgood, hall⟩ := h.alarm id s hs
    refine ⟨s₀, events, hs₀, ?_, hgood, hall s₀ ⟨rfl, rfl, rfl, rfl, rfl⟩⟩
    rw [← storedEvents_marksOf, show marksOf id live.history = events.map .event from hevents,
      storedEvents_map]
  have hgood : ∀ ev ∈ storedEvents live.history, ev.Good := by
    intro ev hev
    have hmem : ev ∈ (storedEvents live.history).filter fun ev' => ev'.alarmId == ev.alarmId :=
      List.mem_filter.2 ⟨hev, by simp⟩
    cases hs : live.states ev.alarmId with
    | none =>
      rw [← storedEvents_marksOf, (h.none ev.alarmId hs).2] at hmem
      cases hmem
    | some s =>
      obtain ⟨-, events, -, hevents, hgood, -⟩ := hrows ev.alarmId s hs
      exact hgood ev (hevents ▸ hmem)
  obtain ⟨restored, hrestored⟩ := replay_total
    (fun ev hev => (hgood ev hev).2) (freshEngine rules globalDelayMs)
  refine ⟨restored, ?_, fun id s hs => ?_⟩
  · unfold AlarmEngine.restoreStateFromDb
    rw [hfetch]
    exact hrestored
  · obtain ⟨s₀, events, hs₀, hevents, hgood', s₁, h1, hkept⟩ := hrows id s hs
    refine ⟨s₁, ?_, hkept⟩
    have hid : id ≠ "" := loadTables_id rules globalDelayMs hs₀
    have hmine : eventsOf id (storedEvents live.history) = events := by
      rw [← hevents]
      refine List.filter_congr fun ev hev => ?_
      cases hev' : ev.alarmId == id with
      | false => simp
      | true =>
        have hts : 0 < ev.tsMs := Int.lt_of_lt_of_le hwindow.1 (hwindow.2 ev hev)
        have htype := (hgood ev hev).1
        have hids : ev.alarmId ≠ "" := by
          rw [beq_iff_eq.1 hev']
          exact hid
        simp [AlarmEvent.usable, hids, htype]
        omega
    obtain ⟨s', h2, h3⟩ := replay_states hrestored hs₀
    rw [hmine, h1] at h2
    rw [h3, Option.some.inj h2]

end

/-! ## Runs -/

section
attribute [local instance] intFloats intJson

def vatFull : AlarmRule where
  id := "VAT_FULL"
  connectionId := "PLC3"
  tag := "Vat"
  conditionType := "high"
  threshold := Floats.ofInt 5

/-- The alarm is raised, acknowledged and shelved. -/
def vatOps : List AlarmOp := [
  .update "PLC3" "Vat" (.int 9) .null true fun _ => 1,
  .ack "VAT_FULL" "operator" "" 2 2,
  .shelve "VAT_FULL" 100 "" "" 3 3]

theorem vat_replay_ok :
    ∃ restored, (freshEngine [vatFull] 0).restoreStateFromDb 1
        (storedEvents (run AlarmEngine.step (freshEngine [vatFull] 0) vatOps).history) =
          some restored ∧
      ∀ id s, (run AlarmEngine.step (freshEngine [vatFull] 0) vatOps).states id = some s →
        ∃ s', restored.states id = some s' ∧ Kept s' s := by
  refine replay_state_ok [vatFull] 0 1 vatOps ?_ ⟨?_, ?_, ?_, trivial⟩ (by decide +kernel)
    ⟨by decide, by decide +kernel⟩ (by decide +kernel)
  · simp [vatOps, AlarmOp.Recorded]
  · exact punctual_of_eq fun _ => rfl
  · exact punctual_of_eq trivial
  · exact punctual_of_eq trivial

/-- The alarm is acknowledged `n` times. -/
def ackOps (n : Nat) : List AlarmOp :=
  (List.range n).map fun i => .ack "VAT_FULL" "" "" (i + 1) (i + 1)

/-- And then raised. -/
def longOps (n : Nat) : List AlarmOp :=
  ackOps n ++ [.update "PLC3" "Vat" (.int 9) .null true fun _ => n + 1]

/-- The engine after the acknowledgements. -/
structure Acknowledged (n : Nat) (e : AlarmEngine) : Prop where
  rule : e.rules "VAT_FULL" = some vatFull
  key : e.rulesByTagKey "PLC3:Vat" = ["VAT_FULL"]
  state : ∃ s, e.states "VAT_FULL" = some s ∧ s.active = false ∧ s.effectiveDelayMs = 0 ∧
    s.shelvedUntilMs = none
  rows : (storedEvents e.history).map (fun ev => (ev.type, ev.tsMs)) =
    (List.range n).map fun i : Nat => ("ack", (i : Int) + 1)

theorem ackOps_acknowledged (n : Nat) :
    Acknowledged n (run AlarmEngine.step (freshEngine [vatFull] 0) (ackOps n)) := by
  induction n with
  | zero => exact ⟨by rfl, by decide +kernel, ⟨freshState 0 vatFull, rfl, rfl, rfl, rfl⟩, rfl⟩
  | succ n ih =>
    have hops : ackOps (n + 1) = ackOps n ++ [.ack "VAT_FULL" "" "" (n + 1) (n + 1)] := by
      simp [ackOps, List.range_succ]
    rw [hops, run_append]
    generalize run AlarmEngine.step (freshEngine [vatFull] 0) (ackOps n) = e at ih
    obtain ⟨s, hs, ha, hd, hsh⟩ := ih.state
    have hstep : run AlarmEngine.step e [.ack "VAT_FULL" "" "" (n + 1) (n + 1)] =
        e.touch "VAT_FULL" (ackAlarm (n + 1) (n + 1) "" "") := rfl
    rw [hstep]
    unfold AlarmEngine.touch
    rw [hs]
    refine ⟨ih.rule, ih.key, ⟨(ackAlarm (n + 1) (n + 1) "" "" s).1, ?_, ha, hd, hsh⟩, ?_⟩
    · simp
    simp only [storedEvents, List.filterMap_append, List.map_append, List.range_succ]
    congr 1
    exact ih.rows

/-- The update raises the alarm and stores one more row. -/
theorem longOps_raised (n : Nat) :
    let live := run AlarmEngine.step (freshEngine [vatFull] 0) (longOps n)
    (live.states "VAT_FULL").map (·.active) = some true ∧
      (storedEvents live.history).map (fun ev => (ev.type, ev.tsMs)) =
        ((List.range n).map fun i : Nat => ("ack", (i : Int) + 1)) ++ [("active", (n : Int) + 1)] := by
  intro live
  have h := ackOps_acknowledged n
  have hlive : live = AlarmEngine.step (run AlarmEngine.step (freshEngine [vatFull] 0) (ackOps n))
      (.update "PLC3" "Vat" (.int 9) .null true fun _ => n + 1) := by
    show run _ _ (ackOps n ++ _) = _
    rw [run_append]
    rfl
  generalize run AlarmEngine.step (freshEngine [vatFull] 0) (ackOps n) = e at h hlive
  obtain ⟨s, hs, ha, hd, hsh⟩ := h.state
  have hfires : fires vatFull (.int 9) (n + 1) s = true := by
    unfold fires canEval AlarmState.shelvedAt
    rw [hsh, ha, Option.any_none]
    decide +kernel
  have hcan : canEval vatFull s (n + 1) = true := by
    simp only [fires, Bool.and_eq_true] at hfires
    exact hfires.1
  have hupdate : ∃ s', updateAlarm vatFull (.int 9) true (n + 1) (n + 1) s =
      (s', [logEvent s' "active" s'.lastValue (n + 1)]) ∧ s'.active = true := by
    obtain ⟨hsite, -⟩ | ⟨-, -, -, hx⟩ | ⟨-, hf, -⟩ | ⟨-, hf, -⟩ :=
      updateAlarm_cases vatFull (.int 9) true (n + 1) (n + 1) s
    · cases hsite
    · rw [hx]
      unfold activateAlarm
      rw [if_neg (by rw [evalState_eq]; simp [hd]), if_neg (by simp)]
      exact ⟨_, rfl, rfl⟩
    · exact absurd (hf.symm.trans hfires) (by decide)
    · exact absurd (ha.symm.trans (hf.symm.trans hfires)) (by decide)
  obtain ⟨s', hs', hactive⟩ := hupdate
  have hstep : live = e.touch "VAT_FULL"
      (updateAlarm vatFull (.int 9) true (n + 1) (n + 1)) := by
    rw [hlive]
    show e.applyTagUpdate "PLC3" "Vat" (.int 9) .null true (fun _ => (n : Int) + 1) = _
    unfold AlarmEngine.applyTagUpdate AlarmEngine.touchAll
    rw [if_neg (by decide), show makeTagKey "PLC3" "Vat" = "PLC3:Vat" from by decide, h.key]
    simp [h.rule]
  rw [hstep]
  unfold AlarmEngine.touch
  simp only [hs, hs']
  refine ⟨?_, ?_⟩
  · simp [hactive]
  · simp only [storedEvents, List.filterMap_append, List.map_append]
    congr 1
    exact h.rows

theorem longRows_sorted (n : Nat) :
    (((List.range n).map fun i : Nat => ("ack", (i : Int) + 1)) ++
      [("active", (n : Int) + 1)]).Pairwise fun a b => a.2 < b.2 := by
  rw [List.pairwise_append]
  refine ⟨?_, List.pairwise_singleton .., fun a ha b hb => ?_⟩
  · rw [List.pairwise_map]
    refine List.pairwise_lt_range.imp fun h => ?_
    show _ + _ < _ + _
    omega
  · obtain ⟨i, hi, rfl⟩ := List.mem_map.1 ha
    rw [List.mem_singleton.1 hb]
    have := List.mem_range.1 hi
    show _ + _ < _ + _
    omega

/-- Events that only acknowledge leave the alarm as it is. -/
theorem replay_acks {events : List AlarmEvent} (h : ∀ ev ∈ events, ev.type = "ack")
    {e : AlarmEngine} {s : AlarmState} (hs : e.states "VAT_FULL" = some s) :
    ∃ restored, events.foldlM AlarmEngine.replay e = some restored ∧
      (restored.states "VAT_FULL").map (·.active) = some s.active := by
  obtain ⟨restored, hrestored⟩ := replay_total
    (fun ev hev ht => absurd ((h ev hev).symm.trans ht) (by decide)) e
  obtain ⟨s', hs', hstate⟩ := replay_states hrestored hs
  have hmine : ∀ ev ∈ eventsOf "VAT_FULL" events, ev.type = "ack" := fun ev hev =>
    h ev (List.mem_of_mem_filter hev)
  refine ⟨restored, hrestored, ?_⟩
  rw [hstate, Option.map_some, (replayAll_fields hs').active]
  have hnone : lastWrite AlarmEvent.writesActive (eventsOf "VAT_FULL" events) = none := by
    refine List.findSome?_eq_none_iff.2 fun ev hev => ?_
    simp [AlarmEvent.writesActive, hmine ev (List.mem_reverse.1 hev)]
  rw [hnone]
  rfl

/-- An activation after `n` acknowledgements is not played back where the query stops at `n`. -/
theorem longOps_lost {n : Nat} (hn : n = 50000) :
    let live := run AlarmEngine.step (freshEngine [vatFull] 0) (longOps n)
    (∀ op ∈ longOps n, op.Recorded) ∧
      (storedEvents live.history).Pairwise (fun a b => a.tsMs < b.tsMs) ∧
      (∀ ev ∈ storedEvents live.history, 1 ≤ ev.tsMs) ∧
      (live.states "VAT_FULL").map (·.active) = some true ∧
      ∃ restored, (freshEngine [vatFull] 0).restoreStateFromDb 1 (storedEvents live.history) =
          some restored ∧
        (restored.states "VAT_FULL").map (·.active) = some false := by
  intro live
  obtain ⟨hactive, hrows⟩ := longOps_raised n
  change (live.states "VAT_FULL").map (·.active) = some true at hactive
  change (storedEvents live.history).map (fun ev => (ev.type, ev.tsMs)) = _ at hrows
  have hsorted : (storedEvents live.history).Pairwise fun a b => a.tsMs < b.tsMs := by
    have h := longRows_sorted n
    rw [← hrows, List.pairwise_map] at h
    exact h
  have hwindow : ∀ ev ∈ storedEvents live.history, 1 ≤ ev.tsMs := by
    intro ev hev
    have hmem := List.mem_map_of_mem (f := fun ev => (ev.type, ev.tsMs)) hev
    rw [hrows, List.mem_append, List.mem_map, List.mem_singleton] at hmem
    obtain ⟨i, -, hi⟩ | hi := hmem
    · have := congrArg Prod.snd hi
      dsimp only at this
      omega
    · have := congrArg Prod.snd hi
      dsimp only at this
      omega
  have hacks : ∀ ev ∈ (storedEvents live.history).take n, ev.type = "ack" := by
    intro ev hev
    have hmem := List.mem_map_of_mem (f := fun ev => (ev.type, ev.tsMs)) hev
    rw [List.map_take, hrows, List.take_left' (by simp), List.mem_map] at hmem
    obtain ⟨i, -, hi⟩ := hmem
    exact (congrArg Prod.fst hi).symm
  refine ⟨?_, hsorted, hwindow, hactive, ?_⟩
  · intro op hop
    rcases List.mem_append.1 hop with hop | hop
    · obtain ⟨i, -, rfl⟩ := List.mem_map.1 hop
      trivial
    · rw [List.mem_singleton.1 hop]
      rfl
  · obtain ⟨restored, h1, h2⟩ := replay_acks hacks (e := freshEngine [vatFull] 0)
      (s := freshState 0 vatFull) rfl
    refine ⟨restored, ?_, h2⟩
    unfold AlarmEngine.restoreStateFromDb
    rw [fetchEventsSince_take hsorted hwindow, ← hn]
    exact h1

/-- With 50000 acknowledgements in the window the activation after them is not played back: the
live alarm is active, and the restored one is not. -/
theorem replay_state_lost :
    let live := run AlarmEngine.step (freshEngine [vatFull] 0) (longOps 50000)
    (∀ op ∈ longOps 50000, op.Recorded) ∧
      (storedEvents live.history).Pairwise (fun a b => a.tsMs < b.tsMs) ∧
      (∀ ev ∈ storedEvents live.history, 1 ≤ ev.tsMs) ∧
      (live.states "VAT_FULL").map (·.active) = some true ∧
      ∃ restored, (freshEngine [vatFull] 0).restoreStateFromDb 1 (storedEvents live.history) =
          some restored ∧
        (restored.states "VAT_FULL").map (·.active) = some false :=
  longOps_lost rfl

end

end OpcBridge.Alarms
