import OpcBridge.Alarms.Engine

/-!
# One alarm at a time

An operation acts on an alarm through a list of effects (`AlarmEngine.effects`): usually one or
none, and several where the id stands more than once under the tag. `step_state` and `step_marks`
give the state and the marks of one alarm after an operation from these effects alone, so that an
invariant of an alarm only has to be checked against each effect, and against the two ways to load
rules (`reload_state`, `load_state`).
-/

namespace OpcBridge.Alarms

open OpcBridge

variable [Floats] [JsonLib]

/-! ## Effects -/

inductive Effect
  /-- The alarm has no rule. -/
  | skip
  | bad
  | update (r : AlarmRule) (value : Json) (record : Bool) (t ts : Int)
  | process (rule : Option AlarmRule) (t ts : Int)
  | ack (t ts : Int) (actor note : String)
  | shelve (until_ t ts : Int) (actor note : String)
  | unshelve (t ts : Int) (actor note : String)

def Effect.run : Effect → AlarmState → AlarmState × List Mark
  | .skip, s => (s, [])
  | .bad, s => (dropPending s, [])
  | .update r value record t ts, s => updateAlarm r value record t ts s
  | .process rule t ts, s => processAlarm rule t ts s
  | .ack t ts actor note, s => ackAlarm t ts actor note s
  | .shelve until_ t ts actor note, s => shelveAlarm until_ t ts actor note s
  | .unshelve t ts actor note, s => unshelveAlarm t ts actor note s

def runAll (effects : List Effect) (s : AlarmState) : AlarmState × List Mark :=
  effects.foldl (fun x f => ((f.run x.1).1, x.2 ++ (f.run x.1).2)) (s, [])

/-- The effect of an update on the `j`-th alarm of its tag. -/
def updateEffect (e : AlarmEngine) (value quality : Json) (record : Bool) (now : Nat → Int)
    (id : String) (j : Nat) : Effect :=
  if normalizeQuality quality = some 0 then .bad
  else match e.rules id with
    | none => .skip
    | some r => .update r value record (now (2 * j)) (now (2 * j + 1))

/-- The positions of an id in a list. -/
def positions (ids : List String) (id : String) : List Nat :=
  (ids.zipIdx.filter fun x => x.1 == id).map fun x => x.2

/-- What an operation does to one alarm. Loading rules has no effects of this kind. -/
def AlarmEngine.effects (e : AlarmEngine) (id : String) : AlarmOp → List Effect
  | .update connectionId tag value quality record now =>
    (positions (e.rulesByTagKey (makeTagKey connectionId tag)) id).map
      (updateEffect e value quality record now id)
  | .process t now => (positions e.ids id).map fun j => .process (e.rules id) t (now j)
  | .ack id' actor note t ts => if id' = id then [.ack t ts actor note] else []
  | .shelve id' until_ actor note t ts => if id' = id then [.shelve until_ t ts actor note] else []
  | .unshelve id' actor note t ts => if id' = id then [.unshelve t ts actor note] else []
  | .reload .. => []
  | .load .. => []

/-- The operation loads rules. -/
def AlarmOp.loads : AlarmOp → Bool
  | .reload .. => true
  | .load .. => true
  | _ => false

/-! ## The effects of an alarm stay with it -/

omit [JsonLib] in
theorem suppressAlarm_alarmId (t : Int) (s : AlarmState) :
    (suppressAlarm s t).1.alarmId = s.alarmId ∧
      ∀ m ∈ (suppressAlarm s t).2, m.alarmId = s.alarmId := by
  unfold suppressAlarm
  dsimp only
  split
  · refine ⟨rfl, fun m hm => ?_⟩
    split at hm
    · rw [List.mem_singleton.1 hm]
      rfl
    · cases hm
  · exact ⟨rfl, fun m hm => by cases hm⟩

omit [JsonLib] in
theorem activateAlarm_alarmId (r : AlarmRule) (record : Bool) (t ts : Int) (s : AlarmState) :
    (activateAlarm r record t ts s).1.alarmId = s.alarmId ∧
      ∀ m ∈ (activateAlarm r record t ts s).2, m.alarmId = s.alarmId := by
  unfold activateAlarm
  split
  · refine ⟨?_, fun m hm => by cases hm⟩
    dsimp only
    split <;> rfl
  · split
    · exact ⟨rfl, fun m hm => by cases hm⟩
    · refine ⟨rfl, fun m hm => ?_⟩
      dsimp only at hm
      split at hm
      · rw [List.mem_singleton.1 hm]
        rfl
      · cases hm

omit [JsonLib] in
theorem returnAlarm_alarmId (r : AlarmRule) (record : Bool) (t ts : Int) (s : AlarmState) :
    (returnAlarm r record t ts s).1.alarmId = s.alarmId ∧
      ∀ m ∈ (returnAlarm r record t ts s).2, m.alarmId = s.alarmId := by
  refine ⟨rfl, fun m hm => ?_⟩
  unfold returnAlarm at hm
  dsimp only at hm
  split at hm
  · rw [List.mem_singleton.1 hm]
    rfl
  · split at hm
    · rw [List.mem_singleton.1 hm]
      rfl
    · cases hm

omit [JsonLib] in
/-- The evaluated state differs in the value, and in the pending activation that it may drop. -/
theorem evalState_eq (r : AlarmRule) (value : Json) (t : Int) (s : AlarmState) :
    evalState r value t s = { s with
      lastValue := value, siteEnabled := true
      pending := canEval r s t && s.pending
      pendingSinceMs := if canEval r s t then s.pendingSinceMs else 0 } := by
  have hc : canEval r { s with lastValue := value, siteEnabled := true } t = canEval r s t := rfl
  unfold evalState
  dsimp only
  rw [hc]
  cases canEval r s t <;> rfl

/-- What an update can do to an alarm. -/
theorem updateAlarm_cases (r : AlarmRule) (value : Json) (record : Bool) (t ts : Int)
    (s : AlarmState) :
    let s' := evalState r value t s
    let x := updateAlarm r value record t ts s
    (r.siteEnabled = false ∧ x = suppressAlarm { s with lastValue := value } t) ∨
    (r.siteEnabled = true ∧ fires r value t s = true ∧ s.active = false ∧
      x = activateAlarm r record t ts s') ∨
    (r.siteEnabled = true ∧ fires r value t s = false ∧ s.active = true ∧
      x = returnAlarm r record t ts s') ∨
    (r.siteEnabled = true ∧ fires r value t s = s.active ∧
      (s'.initialized = false ∧ x = ({ s' with initialized := true }, []) ∨
        fires r value t s = false ∧ x = (dropPending s', []) ∨
        (fires r value t s = true ∨ s'.pending = false) ∧ x = (s', []))) := by
  intro s' x
  have hactive : s'.active = s.active := by
    rw [show s' = _ from evalState_eq r value t s]
  have hfires : fires r value t s' = fires r value t s := by
    rw [show s' = _ from evalState_eq r value t s]
    rfl
  have hx : x = updateAlarm r value record t ts s := rfl
  unfold updateAlarm at hx
  dsimp only at hx
  rw [show evalState r value t s = s' from rfl, hfires, hactive] at hx
  cases hsite : r.siteEnabled with
  | false =>
    left
    exact ⟨rfl, by simpa [hsite] using hx⟩
  | true =>
    right
    simp only [hsite, Bool.not_true, Bool.false_eq_true, if_false] at hx
    cases hf : fires r value t s <;> cases ha : s.active <;> simp only [hf, ha] at hx
    · right; right
      refine ⟨rfl, rfl, ?_⟩
      cases hi : s'.initialized with
      | false => left; exact ⟨rfl, by simpa [hi, hactive, ha] using hx⟩
      | true =>
        right
        cases hp : s'.pending with
        | true => left; exact ⟨rfl, by simpa [hi, hp] using hx⟩
        | false => right; exact ⟨Or.inr rfl, by simpa [hi, hp] using hx⟩
    · right; left
      exact ⟨rfl, rfl, rfl, by simpa using hx⟩
    · left
      exact ⟨rfl, rfl, rfl, by simpa using hx⟩
    · right; right
      refine ⟨rfl, rfl, ?_⟩
      cases hi : s'.initialized with
      | false => left; exact ⟨rfl, by simpa [hi, hactive, ha] using hx⟩
      | true => right; right; exact ⟨Or.inl rfl, by simpa [hi] using hx⟩

theorem updateAlarm_alarmId (r : AlarmRule) (value : Json) (record : Bool) (t ts : Int)
    (s : AlarmState) :
    (updateAlarm r value record t ts s).1.alarmId = s.alarmId ∧
      ∀ m ∈ (updateAlarm r value record t ts s).2, m.alarmId = s.alarmId := by
  have hs : (evalState r value t s).alarmId = s.alarmId := by
    rw [evalState_eq]
  have hquiet : ∀ m ∈ ([] : List Mark), m.alarmId = s.alarmId := fun m hm => by cases hm
  obtain ⟨-, hx⟩ | ⟨-, -, -, hx⟩ | ⟨-, -, -, hx⟩ | ⟨-, -, ⟨-, hx⟩ | ⟨-, hx⟩ | ⟨-, hx⟩⟩ :=
    updateAlarm_cases r value record t ts s
  · rw [hx]
    exact suppressAlarm_alarmId t _
  · rw [hx, ← hs]
    exact activateAlarm_alarmId r record t ts _
  · rw [hx, ← hs]
    exact returnAlarm_alarmId r record t ts _
  · rw [hx]
    exact ⟨hs, hquiet⟩
  · rw [hx]
    exact ⟨hs, hquiet⟩
  · rw [hx]
    exact ⟨hs, hquiet⟩

omit [JsonLib] in
theorem processAlarm_alarmId (rule : Option AlarmRule) (t ts : Int) (s : AlarmState) :
    (processAlarm rule t ts s).1.alarmId = s.alarmId ∧
      ∀ m ∈ (processAlarm rule t ts s).2, m.alarmId = s.alarmId := by
  have hnone : ∀ s' : AlarmState, s'.alarmId = s.alarmId →
      (s'.alarmId = s.alarmId ∧ ∀ m ∈ ([] : List Mark), m.alarmId = s.alarmId) :=
    fun s' h => ⟨h, fun m hm => by cases hm⟩
  unfold processAlarm
  split
  · exact hnone s rfl
  · split
    · exact hnone _ rfl
    · split
      · exact hnone _ rfl
      · split
        · exact hnone s rfl
        · refine ⟨rfl, fun m hm => ?_⟩
          dsimp only at hm
          split at hm
          · rw [List.mem_singleton.1 hm]
            rfl
          · cases hm

theorem Effect.run_alarmId (f : Effect) (s : AlarmState) :
    (f.run s).1.alarmId = s.alarmId ∧ ∀ m ∈ (f.run s).2, m.alarmId = s.alarmId := by
  have hone : ∀ m m' : Mark, m.alarmId = s.alarmId → m' ∈ [m] → m'.alarmId = s.alarmId :=
    fun m m' h hm => by rw [List.mem_singleton.1 hm, h]
  cases f with
  | skip => exact ⟨rfl, fun m hm => by cases hm⟩
  | bad => exact ⟨rfl, fun m hm => by cases hm⟩
  | update r value record t ts => exact updateAlarm_alarmId r value record t ts s
  | process rule t ts => exact processAlarm_alarmId rule t ts s
  | ack t ts actor note => exact ⟨rfl, fun m hm => hone _ m rfl hm⟩
  | shelve until_ t ts actor note => exact ⟨rfl, fun m hm => hone _ m rfl hm⟩
  | unshelve t ts actor note => exact ⟨rfl, fun m hm => hone _ m rfl hm⟩

theorem runAll_nil (s : AlarmState) : runAll [] s = (s, []) := rfl

theorem foldl_run (effects : List Effect) (s : AlarmState) (ms : List Mark) :
    effects.foldl (fun x f => ((f.run x.1).1, x.2 ++ (f.run x.1).2)) (s, ms) =
      ((runAll effects s).1, ms ++ (runAll effects s).2) := by
  induction effects generalizing s ms with
  | nil => simp [runAll]
  | cons f effects ih =>
    simp only [runAll, List.foldl_cons, List.nil_append]
    rw [ih, ih ((f.run s).1) ((f.run s).2)]
    simp

theorem runAll_cons (f : Effect) (effects : List Effect) (s : AlarmState) :
    runAll (f :: effects) s =
      ((runAll effects (f.run s).1).1, (f.run s).2 ++ (runAll effects (f.run s).1).2) := by
  rw [runAll, List.foldl_cons, foldl_run]
  simp

/-- The invariant rule for one alarm: what each effect keeps, a list of effects keeps. -/
theorem runAll_induct {P : AlarmState → List Mark → Prop} (effects : List Effect)
    (hstep : ∀ f ∈ effects, ∀ s ms, P s ms → P (f.run s).1 (ms ++ (f.run s).2)) (s : AlarmState)
    (ms : List Mark) (h : P s ms) : P (runAll effects s).1 (ms ++ (runAll effects s).2) := by
  induction effects generalizing s ms with
  | nil => simpa [runAll] using h
  | cons f effects ih =>
    rw [runAll_cons, ← List.append_assoc]
    exact ih (fun g hg => hstep g (List.mem_cons_of_mem _ hg)) _ _ (hstep f (by simp) s ms h)

/-! ## The tables of the engine -/

/-- The marks of one alarm. -/
def marksOf (id : String) (history : List Mark) : List Mark :=
  history.filter fun m => m.alarmId == id

omit [JsonLib] in
@[simp] theorem marksOf_append (id : String) (ms ms' : List Mark) :
    marksOf id (ms ++ ms') = marksOf id ms ++ marksOf id ms' := List.filter_append ..

/-- The tables agree on the ids. -/
structure Keyed (e : AlarmEngine) : Prop where
  own : ∀ id s, e.states id = some s → s.alarmId = id
  ids : ∀ id, id ∈ e.ids ↔ (e.states id).isSome
  rules : ∀ id, (e.rules id).isSome ↔ (e.states id).isSome
  nodup : e.ids.Nodup

variable {e : AlarmEngine} {id : String}

omit [JsonLib] in
theorem touch_rules (id : String) (f : AlarmState → AlarmState × List Mark) :
    (e.touch id f).rules = e.rules ∧ (e.touch id f).ids = e.ids ∧
      (e.touch id f).rulesByTagKey = e.rulesByTagKey := by
  unfold AlarmEngine.touch
  split <;> exact ⟨rfl, rfl, rfl⟩

theorem touch_keyed (h : Keyed e) (id : String) (f : Effect) : Keyed (e.touch id f.run) := by
  unfold AlarmEngine.touch
  split
  · exact h
  · rename_i s hs
    refine ⟨fun id' s' hs' => ?_, fun id' => ?_, fun id' => ?_, h.nodup⟩
    · by_cases hid : id' = id
      · subst hid
        simp only [Function.update_self, Option.some.injEq] at hs'
        rw [← hs', (f.run_alarmId s).1]
        exact h.own id' s hs
      · simp only [Function.update_of_ne hid] at hs'
        exact h.own id' s' hs'
    · by_cases hid : id' = id
      · subst hid
        simp [h.ids, hs]
      · simp only [Function.update_of_ne hid]
        exact h.ids id'
    · by_cases hid : id' = id
      · subst hid
        simp [h.rules, hs]
      · simp only [Function.update_of_ne hid]
        exact h.rules id'

theorem touch_self (h : Keyed e) (f : Effect) :
    (e.touch id f.run).states id = (e.states id).map (fun s => (f.run s).1) ∧
      marksOf id (e.touch id f.run).history =
        marksOf id e.history ++ ((e.states id).map fun s => (f.run s).2).getD [] := by
  unfold AlarmEngine.touch
  cases hs : e.states id with
  | none => simp [hs]
  | some s =>
    refine ⟨by simp, ?_⟩
    have hown : marksOf id (f.run s).2 = (f.run s).2 := by
      refine List.filter_eq_self.2 fun m hm => ?_
      rw [(f.run_alarmId s).2 m hm, h.own id s hs]
      exact beq_self_eq_true id
    simp [hown]

theorem touch_other (h : Keyed e) {id' : String} (hne : id' ≠ id) (f : Effect) :
    (e.touch id' f.run).states id = e.states id ∧
      marksOf id (e.touch id' f.run).history = marksOf id e.history := by
  unfold AlarmEngine.touch
  cases hs : e.states id' with
  | none => exact ⟨rfl, rfl⟩
  | some s =>
    refine ⟨Function.update_of_ne (Ne.symm hne) _ _, ?_⟩
    have hnone : marksOf id (f.run s).2 = [] := by
      refine List.filter_eq_nil_iff.2 fun m hm => ?_
      rw [(f.run_alarmId s).2 m hm, h.own id' s hs]
      simpa using hne
    simp [hnone]

/-! ## Many alarms -/

/-- The effects that a list of touched alarms has on one of them. -/
theorem touchAll_spec (h : Keyed e) (id : String) (ids : List (String × Nat)) (f : String → Nat → Effect) :
    let e' := ids.foldl (fun e x => e.touch x.1 (f x.1 x.2).run) e
    let mine := (ids.filter fun x => x.1 == id).map fun x => f id x.2
    Keyed e' ∧ e'.rules = e.rules ∧ e'.ids = e.ids ∧ e'.rulesByTagKey = e.rulesByTagKey ∧
      e'.states id = (e.states id).map (fun s => (runAll mine s).1) ∧
      marksOf id e'.history =
        marksOf id e.history ++ ((e.states id).map fun s => (runAll mine s).2).getD [] := by
  induction ids generalizing e with
  | nil =>
    refine ⟨h, rfl, rfl, rfl, ?_, ?_⟩
    · simp [runAll_nil]
    · cases hs : e.states id <;> simp [runAll_nil]
  | cons x ids ih =>
    obtain ⟨hr1, hr2, hr3⟩ := touch_rules (e := e) x.1 (f x.1 x.2).run
    obtain ⟨i1, i2, i3, i4, i5, i6⟩ := ih (touch_keyed h x.1 (f x.1 x.2))
    refine ⟨i1, i2.trans hr1, i3.trans hr2, i4.trans hr3, ?_, ?_⟩
    · rw [List.foldl_cons, i5]
      by_cases hx : x.1 = id
      · subst hx
        rw [(touch_self h _).1]
        simp [runAll_cons, Function.comp_def]
      · have hb : (x.1 == id) = false := by simpa using hx
        rw [(touch_other h hx _).1, List.filter_cons, hb]
        rfl
    · rw [List.foldl_cons, i6]
      by_cases hx : x.1 = id
      · subst hx
        rw [(touch_self h _).1, (touch_self h _).2]
        cases hs : e.states x.1 <;> simp [runAll_cons]
      · have hb : (x.1 == id) = false := by simpa using hx
        rw [(touch_other h hx _).1, (touch_other h hx _).2, List.filter_cons, hb]
        rfl

/-- The operation as touches. -/
theorem step_touches {op : AlarmOp} (hop : op.loads = false) :
    ∃ (ids : List (String × Nat)) (f : String → Nat → Effect),
      e.step op = ids.foldl (fun e x => e.touch x.1 (f x.1 x.2).run) e ∧
        ∀ id, e.effects id op = (ids.filter fun x => x.1 == id).map fun x => f id x.2 := by
  cases op with
  | update connectionId tag value quality record now =>
    refine ⟨(e.rulesByTagKey (makeTagKey connectionId tag)).zipIdx,
      updateEffect e value quality record now, ?_, fun id => ?_⟩
    · simp only [AlarmEngine.step, AlarmEngine.applyTagUpdate, AlarmEngine.touchAll]
      split
      · rename_i hq
        simp only [updateEffect, hq, if_true]
        rfl
      · rename_i hq
        congr 1
        funext e' x
        congr 1
        funext s
        simp only [updateEffect, hq, if_false]
        cases e.rules x.1 <;> rfl
    · simp [AlarmEngine.effects, positions]
  | process t now =>
    exact ⟨e.ids.zipIdx, fun id j => .process (e.rules id) t (now j), rfl, fun id => by
      simp [AlarmEngine.effects, positions]⟩
  | ack id' actor note t ts =>
    refine ⟨[(id', 0)], fun _ _ => .ack t ts actor note, rfl, fun id => ?_⟩
    by_cases hid : id' = id <;> simp [AlarmEngine.effects, hid]
  | shelve id' until_ actor note t ts =>
    refine ⟨[(id', 0)], fun _ _ => .shelve until_ t ts actor note, rfl, fun id => ?_⟩
    by_cases hid : id' = id <;> simp [AlarmEngine.effects, hid]
  | unshelve id' actor note t ts =>
    refine ⟨[(id', 0)], fun _ _ => .unshelve t ts actor note, rfl, fun id => ?_⟩
    by_cases hid : id' = id <;> simp [AlarmEngine.effects, hid]
  | reload rules globalDelayMs t => cases hop
  | load rules globalDelayMs t => cases hop

/-- **One alarm after an operation** that loads no rules. -/
theorem step_state (h : Keyed e) {op : AlarmOp} (hop : op.loads = false) (id : String) :
    (e.step op).states id = (e.states id).map fun s => (runAll (e.effects id op) s).1 := by
  obtain ⟨ids, f, h1, h2⟩ := step_touches (e := e) hop
  rw [h1, h2]
  exact (touchAll_spec h id ids f).2.2.2.2.1

theorem step_marks (h : Keyed e) {op : AlarmOp} (hop : op.loads = false) (id : String) :
    marksOf id (e.step op).history = marksOf id e.history ++
      ((e.states id).map fun s => (runAll (e.effects id op) s).2).getD [] := by
  obtain ⟨ids, f, h1, h2⟩ := step_touches (e := e) hop
  rw [h1, h2]
  exact (touchAll_spec h id ids f).2.2.2.2.2

theorem step_rules (h : Keyed e) {op : AlarmOp} (hop : op.loads = false) :
    Keyed (e.step op) ∧ (e.step op).rules = e.rules ∧
      (e.step op).rulesByTagKey = e.rulesByTagKey := by
  obtain ⟨ids, f, h1, -⟩ := step_touches (e := e) hop
  obtain ⟨k1, k2, -, k4, -⟩ := touchAll_spec h "" ids f
  rw [h1]
  exact ⟨k1, k2, k4⟩

/-- The effects of an operation, by kind. -/
theorem mem_effects {op : AlarmOp} {f : Effect} (hf : f ∈ e.effects id op) :
    (∃ c tag value quality record now j, op = .update c tag value quality record now ∧
      f = updateEffect e value quality record now id j) ∨
    (∃ t now j, op = .process t now ∧ f = .process (e.rules id) t (now j)) ∨
    (∃ actor note t ts, op = .ack id actor note t ts ∧ f = .ack t ts actor note) ∨
    (∃ until_ actor note t ts, op = .shelve id until_ actor note t ts ∧
      f = .shelve until_ t ts actor note) ∨
    (∃ actor note t ts, op = .unshelve id actor note t ts ∧ f = .unshelve t ts actor note) := by
  cases op with
  | update c tag value quality record now =>
    obtain ⟨j, -, rfl⟩ := List.mem_map.1 hf
    exact .inl ⟨c, tag, value, quality, record, now, j, rfl, rfl⟩
  | process t now =>
    obtain ⟨j, -, rfl⟩ := List.mem_map.1 hf
    exact .inr (.inl ⟨t, now, j, rfl, rfl⟩)
  | ack id' actor note t ts =>
    dsimp only [AlarmEngine.effects] at hf
    split at hf
    · rename_i hid
      subst hid
      exact .inr (.inr (.inl ⟨actor, note, t, ts, rfl, List.mem_singleton.1 hf⟩))
    · cases hf
  | shelve id' until_ actor note t ts =>
    dsimp only [AlarmEngine.effects] at hf
    split at hf
    · rename_i hid
      subst hid
      exact .inr (.inr (.inr (.inl ⟨until_, actor, note, t, ts, rfl, List.mem_singleton.1 hf⟩)))
    · cases hf
  | unshelve id' actor note t ts =>
    dsimp only [AlarmEngine.effects] at hf
    split at hf
    · rename_i hid
      subst hid
      exact .inr (.inr (.inr (.inr ⟨actor, note, t, ts, rfl, List.mem_singleton.1 hf⟩)))
    · cases hf
  | reload rules globalDelayMs t => cases hf
  | load rules globalDelayMs t => cases hf

/-- An operation only adds to the history. -/
theorem step_history (op : AlarmOp) : ∃ new, (e.step op).history = e.history ++ new := by
  cases hop : op.loads with
  | true =>
    cases op with
    | reload rules globalDelayMs t => exact ⟨_, rfl⟩
    | load rules globalDelayMs t => exact ⟨_, rfl⟩
    | _ => cases hop
  | false =>
    obtain ⟨ids, f, h, -⟩ := step_touches (e := e) hop
    rw [h]
    clear h hop
    induction ids generalizing e with
    | nil => exact ⟨[], (List.append_nil _).symm⟩
    | cons x ids ih =>
      obtain ⟨new, hnew⟩ := ih (e := e.touch x.1 (f x.1 x.2).run)
      have htouch : ∃ ms, (e.touch x.1 (f x.1 x.2).run).history = e.history ++ ms := by
        unfold AlarmEngine.touch
        split
        · exact ⟨[], (List.append_nil _).symm⟩
        · exact ⟨_, rfl⟩
      obtain ⟨ms, hms⟩ := htouch
      refine ⟨ms ++ new, ?_⟩
      rw [List.foldl_cons, hnew, hms, List.append_assoc]

/-! ## Loading -/

omit [JsonLib] in
theorem loadRule_keyed (h : Keyed e) (r : AlarmRule) : Keyed (e.loadRule r) := by
  unfold AlarmEngine.loadRule
  split
  · exact h
  · refine ⟨fun id s hs => ?_, fun id => ?_, fun id => ?_, ?_⟩
    · by_cases hid : id = r.id
      · subst hid
        simp only [Function.update_self, Option.some.injEq] at hs
        rw [← hs]
        rfl
      · simp only [Function.update_of_ne hid] at hs
        exact h.own id s hs
    · by_cases hid : id = r.id
      · subst hid
        simp only [Function.update_self, Option.isSome_some, iff_true]
        split
        · assumption
        · simp
      · simp only [Function.update_of_ne hid]
        rw [← h.ids]
        split
        · rfl
        · simp [hid]
    · by_cases hid : id = r.id
      · subst hid
        simp
      · simp only [Function.update_of_ne hid]
        exact h.rules id
    · dsimp only
      split
      · exact h.nodup
      · rename_i hn
        rw [List.nodup_append]
        refine ⟨h.nodup, by simp, fun a ha b hb hab => ?_⟩
        rw [List.mem_singleton] at hb
        exact hn (hb ▸ hab ▸ ha)

omit [JsonLib] in
theorem loadTables_keyed (rules : List AlarmRule) (globalDelayMs : Int) :
    Keyed (loadTables rules globalDelayMs) := by
  have hgen : ∀ (rules : List AlarmRule) (e : AlarmEngine), Keyed e →
      Keyed (rules.foldl AlarmEngine.loadRule e) := by
    intro rules
    induction rules with
    | nil => exact fun _ h => h
    | cons r rules ih => exact fun e h => ih _ (loadRule_keyed h r)
  exact hgen rules _ ⟨fun _ _ h => (by cases h), by simp, by simp, List.nodup_nil⟩

/-- A state that was just loaded. -/
def AlarmState.Fresh (s : AlarmState) : Prop :=
  s.active = false ∧ s.acked = false ∧ s.initialized = false ∧ s.returnNotificationArmed = false ∧
    s.pending = false ∧ s.shelvedUntilMs = none ∧ s.activeSinceMs = 0

omit [JsonLib] in
theorem loadTables_fresh (rules : List AlarmRule) (globalDelayMs : Int) {s : AlarmState}
    (hs : (loadTables rules globalDelayMs).states id = some s) :
    s.Fresh ∧ 0 ≤ s.effectiveDelayMs := by
  have hgen : ∀ (rules : List AlarmRule) (e : AlarmEngine), 0 ≤ e.globalDelayMs →
      (∀ s, e.states id = some s → s.Fresh ∧ 0 ≤ s.effectiveDelayMs) →
      ∀ s, (rules.foldl AlarmEngine.loadRule e).states id = some s →
        s.Fresh ∧ 0 ≤ s.effectiveDelayMs := by
    intro rules
    induction rules with
    | nil => exact fun _ _ h => h
    | cons r rules ih =>
      intro e hd h
      refine ih _ ?_ fun s hs => ?_
      · unfold AlarmEngine.loadRule
        split <;> exact hd
      · unfold AlarmEngine.loadRule at hs
        split at hs
        · exact h s hs
        · by_cases hid : id = r.id
          · subst hid
            simp only [Function.update_self, Option.some.injEq] at hs
            subst hs
            refine ⟨⟨rfl, rfl, rfl, rfl, rfl, rfl, rfl⟩, ?_⟩
            show 0 ≤ max e.globalDelayMs r.delayMs
            omega
          · simp only [Function.update_of_ne hid] at hs
            exact h s hs
  refine hgen rules _ ?_ (fun _ h => by cases h) s hs
  show 0 ≤ max 0 globalDelayMs
  omega

omit [JsonLib] in
theorem loadTables_id (rules : List AlarmRule) (globalDelayMs : Int) {s : AlarmState}
    (hs : (loadTables rules globalDelayMs).states id = some s) : id ≠ "" := by
  have hgen : ∀ (rules : List AlarmRule) (e : AlarmEngine),
      ((e.states id).isSome → id ≠ "") →
      ((rules.foldl AlarmEngine.loadRule e).states id).isSome → id ≠ "" := by
    intro rules
    induction rules with
    | nil => exact fun _ h => h
    | cons r rules ih =>
      intro e h
      refine ih _ fun hsome => ?_
      unfold AlarmEngine.loadRule at hsome
      split at hsome
      · exact h hsome
      · rename_i hr
        by_cases hid : id = r.id
        · rw [hid]
          exact fun h => hr (Or.inl h)
        · simp only [Function.update_of_ne hid] at hsome
          exact h hsome
  refine hgen rules { globalDelayMs := max 0 globalDelayMs } (fun h => by cases h) ?_
  change ((loadTables rules globalDelayMs).states id).isSome = true
  rw [hs]
  rfl

omit [JsonLib] in
theorem reload_state (e : AlarmEngine) (rules : List AlarmRule) (globalDelayMs : Int) (id : String) :
    (e.reload rules globalDelayMs).states id =
      ((loadTables rules globalDelayMs).states id).map fun s =>
        match e.states id with
        | none => s
        | some prev => carryOver s prev := rfl

omit [JsonLib] in
theorem load_state (e : AlarmEngine) (rules : List AlarmRule) (globalDelayMs : Int) (id : String) :
    (e.loadRulesFromFile rules globalDelayMs).states id =
      (loadTables rules globalDelayMs).states id := rfl

omit [JsonLib] in
theorem reload_keyed (rules : List AlarmRule) (globalDelayMs : Int) :
    Keyed (e.reload rules globalDelayMs) := by
  have hk := loadTables_keyed rules globalDelayMs
  refine ⟨fun id s hs => ?_, fun id => ?_, fun id => ?_, hk.nodup⟩
  · rw [reload_state] at hs
    obtain ⟨s₀, hs₀, rfl⟩ := Option.map_eq_some_iff.1 hs
    have hid := hk.own id s₀ hs₀
    split
    · exact hid
    · exact hid
  · rw [reload_state, Option.isSome_map]
    exact hk.ids id
  · rw [reload_state, Option.isSome_map]
    exact hk.rules id

omit [JsonLib] in
theorem load_keyed (rules : List AlarmRule) (globalDelayMs : Int) :
    Keyed (e.loadRulesFromFile rules globalDelayMs) := by
  have hk := loadTables_keyed rules globalDelayMs
  exact ⟨hk.own, hk.ids, hk.rules, hk.nodup⟩

omit [JsonLib] in
/-- The marks of a swap: one for an announced alarm that is not kept. -/
theorem droppedBy_marks (h : Keyed e) (next : AlarmEngine) (id : String) :
    marksOf id (e.droppedBy next) =
      if e.announced id && !next.announced id then [.dropped id] else [] := by
  have hfilter : marksOf id (e.droppedBy next) =
      ((e.ids.filter fun i => e.announced i && !next.announced i).filter
        fun i => i == id).map .dropped := by
    unfold marksOf AlarmEngine.droppedBy
    rw [List.filter_map]
    rfl
  rw [hfilter, List.filter_filter]
  have hone : (e.ids.filter fun i => (i == id) && (e.announced i && !next.announced i)) =
      if e.announced id && !next.announced id then [id] else [] := by
    split
    · rename_i hc
      have hmem : id ∈ e.ids := by
        rw [h.ids]
        cases hs : e.states id with
        | none => simp [AlarmEngine.announced, hs] at hc
        | some s => rfl
      have hsplit : (e.ids.filter fun i => (i == id) && (e.announced i && !next.announced i)) =
          e.ids.filter fun i => i == id := by
        refine List.filter_congr fun i _ => ?_
        by_cases hi : i = id
        · subst hi
          simp [hc]
        · have hb : (i == id) = false := by simpa using hi
          simp [hb]
      rw [hsplit, List.filter_beq, h.nodup.count]
      simp [hmem]
    · rename_i hc
      refine List.filter_eq_nil_iff.2 fun i _ hi => hc ?_
      simp only [Bool.and_eq_true, beq_iff_eq] at hi
      rw [← hi.1]
      simpa using hi.2
  rw [hone]
  split <;> rfl

theorem step_keyed (h : Keyed e) (op : AlarmOp) : Keyed (e.step op) := by
  cases hop : op.loads with
  | false => exact (step_rules h hop).1
  | true =>
    cases op with
    | reload rules globalDelayMs t => exact reload_keyed rules globalDelayMs
    | load rules globalDelayMs t => exact load_keyed rules globalDelayMs
    | _ => cases hop

end OpcBridge.Alarms
