import OpcBridge.Alarms.Restore

/-!
# The OPC UA mirror of the alarms

`AlarmUa` of `opcbridge-alarms/src/main.cpp` and the calls of the engine that feed it. An operation
changes alarms under the engine's lock and copies those that changed; the copies are posted later,
one `upsert_alarm` at a time, outside that lock. Loading rules and the restore swap the tables
under the lock, take a copy of every alarm under the lock again, and post it by one `sync_alarms`.
The UA thread takes the pending list, keeps the last copy of each alarm (last writer wins) and
writes the nodes.

A copy is an old value as soon as the lock is released, so two threads may post the copies of one
alarm in the opposite order, and `upsert_alarm` drops the older half of a list that grew too long.
`Admits` is the condition that rules both out.
-/

namespace OpcBridge.Alarms

open OpcBridge Lib

variable [Floats] [JsonLib]

/-! ## What an operation posts -/

/-- The branches of an operation on one alarm that copy it to `changed` or `snapshot`. -/
def Effect.posts : Effect → AlarmState → Bool
  | .skip, _ => false
  | .bad, _ => false
  | .update r value _ t _, s =>
    if !r.siteEnabled then s.active
    else
      let should := fires r value t s
      -- a delayed activation only becomes pending
      if should && !s.active then !decide (0 < s.effectiveDelayMs)
      else !should && s.active
  | .process rule t _, s =>
    s.pending && !s.active && decide (0 < s.effectiveDelayMs) &&
      rule.any fun r => r.enabled && r.siteEnabled && !s.shelvedAt t &&
        !decide (t - s.pendingSinceMs < s.effectiveDelayMs)
  | .ack .., _ => true
  | .shelve .., _ => true
  | .unshelve .., _ => true

/-- The alarms that an operation goes through, with what it does to each. -/
def AlarmEngine.touches (e : AlarmEngine) : AlarmOp → List (String × Effect)
  | .update connectionId tag value quality record now =>
    (e.rulesByTagKey (makeTagKey connectionId tag)).zipIdx.map fun x =>
      (x.1, updateEffect e value quality record now x.1 x.2)
  | .process t now => e.ids.zipIdx.map fun x => (x.1, .process (e.rules x.1) t (now x.2))
  | .ack id actor note t ts => [(id, .ack t ts actor note)]
  | .shelve id until_ actor note t ts => [(id, .shelve until_ t ts actor note)]
  | .unshelve id actor note t ts => [(id, .unshelve t ts actor note)]
  | .reload .. => []
  | .load .. => []

def AlarmEngine.touchThrough (e : AlarmEngine) (touches : List (String × Effect)) : AlarmEngine :=
  touches.foldl (fun e x => e.touch x.1 x.2.run) e

/-- The copies that are made on the way, in order. -/
def AlarmEngine.changedBy (e : AlarmEngine) : List (String × Effect) → List AlarmState
  | [] => []
  | x :: touches =>
    (match e.states x.1 with
      | some s => if x.2.posts s then [(x.2.run s).1] else []
      | none => []) ++ (e.touch x.1 x.2.run).changedBy touches

theorem step_touchThrough (e : AlarmEngine) {op : AlarmOp} (hop : op.loads = false) :
    e.step op = e.touchThrough (e.touches op) := by
  cases op with
  | update connectionId tag value quality record now =>
    simp only [AlarmEngine.step, AlarmEngine.applyTagUpdate, AlarmEngine.touchAll,
      AlarmEngine.touchThrough, AlarmEngine.touches, List.foldl_map]
    split
    · rename_i hq
      simp only [updateEffect, hq, if_true]
      rfl
    · rename_i hq
      congr 1
      funext e' x
      congr 1
      funext s
      simp only [updateEffect, hq, if_false]
      cases e.rules x.1 <;> rfl
  | process t now =>
    simp only [AlarmEngine.step, AlarmEngine.processPendingActivations, AlarmEngine.touchAll,
      AlarmEngine.touchThrough, AlarmEngine.touches, List.foldl_map]
    rfl
  | ack id actor note t ts => rfl
  | shelve id until_ actor note t ts => rfl
  | unshelve id actor note t ts => rfl
  | reload rules globalDelayMs t => cases hop
  | load rules globalDelayMs t => cases hop

/-! ## The shown values -/

/-- The values of an alarm that a client watches. -/
structure Shown where
  active : Bool
  acked : Bool
  shelvedUntilMs : Int
  message : String
  deriving DecidableEq

/-- An alarm that is not shelved shows 0. -/
def AlarmState.shown (s : AlarmState) : Shown :=
  { active := s.active, acked := s.acked, shelvedUntilMs := s.shelvedUntilMs.getD 0,
    message := s.message }

omit [JsonLib] in
theorem activateAlarm_shown (r : AlarmRule) (record : Bool) (t ts : Int) {s : AlarmState}
    (h : 0 < s.effectiveDelayMs) : (activateAlarm r record t ts s).1.shown = s.shown := by
  unfold activateAlarm
  rw [if_pos h]
  dsimp only
  split <;> rfl

omit [JsonLib] in
theorem suppressAlarm_shown (t : Int) {s : AlarmState} (h : s.active = false) :
    (suppressAlarm s t).1.shown = s.shown := by
  unfold suppressAlarm
  simp only [h]
  simp [AlarmState.shown, h]

theorem processAlarm_shown (rule : Option AlarmRule) (t ts : Int) {s : AlarmState}
    (h : Effect.posts (.process rule t ts) s = false) :
    (processAlarm rule t ts s).1.shown = s.shown := by
  unfold processAlarm
  split
  · rfl
  · rename_i hwait
    cases rule with
    | none => rfl
    | some r =>
      dsimp only
      split
      · rfl
      · rename_i hrule
        split
        · rfl
        · rename_i htime
          -- every test of the raise is passed, so the copy was made
          simp only [Bool.or_eq_true, Bool.not_eq_true', decide_eq_true_eq, not_or,
            Bool.not_eq_false, Int.not_le, Bool.not_eq_true] at hwait hrule
          obtain ⟨⟨hp, ha⟩, hd⟩ := hwait
          obtain ⟨⟨he, hsite⟩, hsh⟩ := hrule
          simp [Effect.posts, hp, ha, hd, he, hsite, hsh, htime] at h

/-- **An alarm that is not copied shows what it showed.** -/
theorem run_shown (f : Effect) {s : AlarmState} (h : f.posts s = false) :
    (f.run s).1.shown = s.shown := by
  cases f with
  | skip => rfl
  | bad => rfl
  | process rule t ts => exact processAlarm_shown rule t ts h
  | ack t ts actor note => cases h
  | shelve until_ t ts actor note => cases h
  | unshelve t ts actor note => cases h
  | update r value record t ts =>
    have heval : (evalState r value t s).shown = s.shown := by
      rw [evalState_eq]
      rfl
    have hdelay : (evalState r value t s).effectiveDelayMs = s.effectiveDelayMs := by
      rw [evalState_eq]
    simp only [Effect.run]
    obtain ⟨hsite, hx⟩ | ⟨hsite, hf, ha, hx⟩ | ⟨hsite, hf, ha, hx⟩ | ⟨-, -, hx⟩ :=
      updateAlarm_cases r value record t ts s
    · simp only [Effect.posts, hsite, Bool.not_false, if_true] at h
      rw [hx]
      exact suppressAlarm_shown t h
    · simp only [Effect.posts, hsite, hf, ha, Bool.not_true, Bool.false_eq_true, if_false,
        Bool.not_false, Bool.and_self, if_true, Bool.not_eq_false', decide_eq_true_eq] at h
      rw [hx, activateAlarm_shown r record t ts (hdelay ▸ h), heval]
    · simp [Effect.posts, hsite, hf, ha] at h
    · obtain ⟨-, hx⟩ | ⟨-, hx⟩ | ⟨-, hx⟩ := hx
      · rw [hx]
        exact heval
      · rw [hx]
        exact heval
      · rw [hx]
        exact heval

/-! ## The last copy of an alarm -/

/-- The last copy of an alarm in a list of copies. -/
def lastOf (id : String) (states : List AlarmState) : Option AlarmState :=
  (states.filter fun s => s.alarmId == id).getLast?

omit [JsonLib] in
theorem lastOf_append (id : String) (l l' : List AlarmState) :
    lastOf id (l ++ l') = (lastOf id l').or (lastOf id l) := by
  simp [lastOf, List.getLast?_append]

omit [JsonLib] in
theorem lastOf_cons (id : String) (s : AlarmState) (l : List AlarmState) :
    lastOf id (s :: l) = (lastOf id l).or (lastOf id [s]) := lastOf_append id [s] l

omit [JsonLib] in
theorem lastOf_self (s : AlarmState) : lastOf s.alarmId [s] = some s := by
  simp [lastOf]

omit [JsonLib] in
theorem lastOf_other {id : String} {s : AlarmState} (h : s.alarmId ≠ id) :
    lastOf id [s] = none := by
  simp [lastOf, h]

omit [JsonLib] in
theorem lastOf_eq_none {id : String} {l : List AlarmState} :
    lastOf id l = none ↔ id ∉ l.map AlarmState.alarmId := by
  simp [lastOf]

omit [JsonLib] in
theorem alarmId_of_lastOf {id : String} {l : List AlarmState} {s : AlarmState}
    (h : lastOf id l = some s) : s ∈ l ∧ s.alarmId = id := by
  have hm := List.mem_of_getLast? h
  simpa using List.mem_filter.1 hm

/-- **The last copy that an operation makes of an alarm shows the alarm after it**; an alarm
without a copy shows what it showed before. -/
theorem changedBy_last {e : AlarmEngine} (h : Keyed e) (touches : List (String × Effect))
    (id : String) :
    ((lastOf id (e.changedBy touches)).map AlarmState.shown).or
        ((e.states id).map AlarmState.shown) =
      ((e.touchThrough touches).states id).map AlarmState.shown := by
  induction touches generalizing e with
  | nil => rfl
  | cons x touches ih =>
    have hrest := ih (touch_keyed h x.1 x.2)
    change _ = (((e.touch x.1 x.2.run).touchThrough touches).states id).map AlarmState.shown
    rw [← hrest, AlarmEngine.changedBy, lastOf_append]
    cases hlast : lastOf id ((e.touch x.1 x.2.run).changedBy touches) with
    | some s => simp
    | none =>
      simp only [Option.none_or, Option.map_none]
      by_cases hx : x.1 = id
      · subst hx
        rw [(touch_self h x.2).1]
        cases hs : e.states x.1 with
        | none => rfl
        | some s =>
          dsimp only
          have hid : (x.2.run s).1.alarmId = x.1 := by rw [(x.2.run_alarmId s).1, h.own x.1 s hs]
          split
          · rw [← hid, lastOf_self]
            rfl
          · rename_i hposts
            have hshown := run_shown x.2 (Bool.eq_false_iff.2 hposts)
            simp [lastOf, hshown]
      · rw [(touch_other h hx x.2).1]
        cases hs : e.states x.1 with
        | none => rfl
        | some s =>
          dsimp only
          have hid : (x.2.run s).1.alarmId ≠ id := by
            rw [(x.2.run_alarmId s).1, h.own x.1 s hs]
            exact hx
          split
          · rw [lastOf_other hid]
            rfl
          · rfl

/-- Copies carry the ids of alarms of the engine. -/
theorem changedBy_alarmId {e : AlarmEngine} (h : Keyed e) {touches : List (String × Effect)}
    {s : AlarmState} (hs : s ∈ e.changedBy touches) : (e.states s.alarmId).isSome := by
  induction touches generalizing e with
  | nil => cases hs
  | cons x touches ih =>
    obtain hs | hs := List.mem_append.1 hs
    · cases hx : e.states x.1 with
      | none =>
        rw [hx] at hs
        cases hs
      | some s₀ =>
        simp only [hx] at hs
        split at hs
        · obtain rfl := List.mem_singleton.1 hs
          rw [(x.2.run_alarmId s₀).1, h.own x.1 s₀ hx, hx]
          rfl
        · cases hs
    · have hsome := ih (touch_keyed h x.1 x.2) hs
      by_cases hx : x.1 = s.alarmId
      · rw [← hx] at hsome ⊢
        rw [(touch_self h x.2).1] at hsome
        simpa using hsome
      · rwa [(touch_other h hx x.2).1] at hsome

/-! ## The system -/

/-- Copies that are not handed to the UA thread yet. -/
inductive Posting
  /-- The rest of the loop over `upsert_alarm`. -/
  | upserts (states : List AlarmState)
  /-- The call of `sync_alarms`. -/
  | sync (states : List AlarmState)

def Posting.states : Posting → List AlarmState
  | .upserts states => states
  | .sync states => states

/-- The variables of an alarm's object. -/
structure AlarmNode where
  alarmId : String
  name : String
  message : String
  enabled : Bool
  active : Bool
  acked : Bool
  shelvedUntilMs : Int
  activeSinceMs : Int
  lastChangeMs : Int
  connectionId : String
  tag : String
  /-- Empty for a null value. -/
  lastValue : Option Json

structure MirrorState where
  engine : AlarmEngine := {}
  /-- The UA server runs. -/
  enabled : Bool := false
  /-- Swaps of the tables whose copy of all alarms is not taken yet. -/
  loading : Nat := 0
  /-- In the order in which the copies were made. -/
  posts : List Posting := []
  pending : List AlarmState := []
  /-- What the UA thread has taken and not written yet. -/
  batch : List AlarmState := []
  nodes : String → Option AlarmNode := fun _ => none

/-- `AlarmUa::upsert_alarm` -/
def upsertAlarm (pending : List AlarmState) (s : AlarmState) : List AlarmState :=
  let pending := pending ++ [s]
  if 10000 < pending.length then pending.drop 5000 else pending

/-- `latest[s.alarm_id] = s` -/
def setLatest (latest : List AlarmState) (s : AlarmState) : List AlarmState :=
  (latest.filter fun s' => s'.alarmId != s.alarmId) ++ [s]

/-- The last copy of each alarm. -/
def coalesce (batch : List AlarmState) : List AlarmState := batch.foldl setLatest []

def AlarmNode.of (s : AlarmState) : AlarmNode :=
  { alarmId := s.alarmId, name := if s.name = "" then s.alarmId else s.name, message := s.message,
    enabled := s.enabled, active := s.active, acked := s.acked,
    shelvedUntilMs := s.shelvedUntilMs.getD 0, activeSinceMs := s.activeSinceMs,
    lastChangeMs := s.lastChangeMs, connectionId := s.connectionId, tag := s.tag,
    lastValue := if s.lastValue.isNull then none else some s.lastValue }

/-- `ensure_alarm_nodes_locked` and `write_alarm_locked` -/
def writeAlarm (nodes : String → Option AlarmNode) (s : AlarmState) : String → Option AlarmNode :=
  if s.alarmId = "" then nodes else Function.update nodes s.alarmId (some (AlarmNode.of s))

inductive MirrorEvent
  | op (op : AlarmOp)
  | restore (sinceMs : Int) (rows : List AlarmEvent)
  /-- The main thread starts the server; its copy of all alarms is taken after that. -/
  | start
  /-- A thread that swapped the tables copies all alarms. -/
  | collect
  /-- The thread of the `i`-th posting gets the lock of `AlarmUa`. -/
  | post (i : Nat)
  /-- The UA thread takes the pending list. -/
  | take
  /-- The UA thread writes one alarm of its batch, which has no order. -/
  | write (i : Nat)

def AlarmEngine.allStates (e : AlarmEngine) : List AlarmState := e.ids.filterMap e.states

def Posting.ofChanged (changed : List AlarmState) : List Posting :=
  if changed.isEmpty then [] else [.upserts changed]

def MirrorState.step (s : MirrorState) : MirrorEvent → MirrorState
  | .op op =>
    if op.loads then { s with engine := s.engine.step op, loading := s.loading + 1 }
    else { s with
      engine := s.engine.step op
      posts := s.posts ++ Posting.ofChanged (s.engine.changedBy (s.engine.touches op)) }
  | .restore sinceMs rows =>
    if (fetchEventsSince sinceMs 50000 rows).isEmpty then s
    else
      match s.engine.restoreStateFromDb sinceMs rows with
      | none => s
      | some engine => { s with engine, loading := s.loading + 1 }
  | .start => if s.enabled then s else { s with enabled := true, loading := s.loading + 1 }
  | .collect =>
    match s.loading with
    | 0 => s
    | n + 1 => { s with loading := n, posts := s.posts ++ [.sync s.engine.allStates] }
  | .post i =>
    match s.posts[i]? with
    | none => s
    | some (.upserts []) => { s with posts := s.posts.eraseIdx i }
    | some (.upserts (a :: rest)) =>
      { s with
        pending := if s.enabled then upsertAlarm s.pending a else s.pending
        posts := if rest.isEmpty then s.posts.eraseIdx i else s.posts.set i (.upserts rest) }
    | some (.sync states) =>
      { s with
        pending := if s.enabled then s.pending ++ states else s.pending
        posts := s.posts.eraseIdx i }
  | .take =>
    if s.enabled ∧ s.batch.isEmpty then { s with pending := [], batch := coalesce s.pending } else s
  | .write i =>
    match s.batch[i]? with
    | none => s
    | some a => { s with batch := s.batch.eraseIdx i, nodes := writeAlarm s.nodes a }

/-- Nothing is on its way to the nodes. -/
def MirrorState.Quiet (s : MirrorState) : Prop :=
  s.loading = 0 ∧ s.posts = [] ∧ s.pending = [] ∧ s.batch = []

def AlarmNode.shown (n : AlarmNode) : Shown :=
  { active := n.active, acked := n.acked, shelvedUntilMs := n.shelvedUntilMs, message := n.message }

/-- The node of every alarm shows the alarm. -/
def MirrorState.Mirrored (s : MirrorState) : Prop :=
  ∀ id a, s.engine.states id = some a → (s.nodes id).map AlarmNode.shown = some a.shown

/-! ## The condition -/

/-- No earlier copy of an alarm among `states` is still to be posted. -/
def MirrorState.InOrder (s : MirrorState) (i : Nat) (states : List AlarmState) : Prop :=
  ∀ p ∈ s.posts.take i, ∀ a ∈ p.states, a.alarmId ∉ states.map AlarmState.alarmId

/-- Every copy that the trim drops is followed by one of the same alarm that it keeps. -/
def TrimSafe (pending : List AlarmState) (a : AlarmState) : Prop :=
  9999 < pending.length → ∀ b ∈ pending.take 5000,
    b.alarmId ∈ ((pending ++ [a]).drop 5000).map AlarmState.alarmId

/-- The copies of an alarm are posted in the order in which they were made, and the trim drops
none that is the last of its alarm. -/
def MirrorState.Admits (s : MirrorState) : MirrorEvent → Prop
  | .post i =>
    match s.posts[i]? with
    | some (.upserts (a :: _)) => s.InOrder i [a] ∧ TrimSafe s.pending a
    | some (.sync states) => s.InOrder i states
    | _ => True
  | _ => True

/-! ## The engine's side -/

/-- The alarms are keyed by their ids, and none has the empty id. -/
structure Named (e : AlarmEngine) : Prop where
  keyed : Keyed e
  named : e.states "" = none

omit [JsonLib] in
theorem empty_named : Named {} := by
  refine ⟨⟨fun id s hs => ?_, fun id => ?_, fun id => ?_, List.nodup_nil⟩, rfl⟩
  · cases hs
  · simp
  · simp

theorem step_named {e : AlarmEngine} (h : Named e) (op : AlarmOp) : Named (e.step op) := by
  have hloaded : ∀ (rules : List AlarmRule) (globalDelayMs : Int),
      (loadTables rules globalDelayMs).states "" = none := by
    intro rules globalDelayMs
    cases hs : (loadTables rules globalDelayMs).states "" with
    | none => rfl
    | some s => exact absurd rfl (loadTables_id rules globalDelayMs hs)
  refine ⟨step_keyed h.keyed op, ?_⟩
  cases hop : op.loads with
  | false => rw [step_state h.keyed hop, h.named, Option.map_none]
  | true =>
    cases op with
    | reload rules globalDelayMs t =>
      change (e.reload rules globalDelayMs).states "" = none
      rw [reload_state, hloaded, Option.map_none]
    | load rules globalDelayMs t => exact hloaded rules globalDelayMs
    | _ => cases hop

omit [JsonLib] in
/-- Another state under the same id keeps the tables. -/
theorem Named.update {e : AlarmEngine} (h : Named e) {id : String} {s s' : AlarmState}
    (hs : e.states id = some s) (hid : s'.alarmId = s.alarmId) :
    Named { e with states := Function.update e.states id (some s') } := by
  have hsome : ∀ id', (Function.update e.states id (some s') id').isSome = (e.states id').isSome := by
    intro id'
    by_cases hid' : id' = id
    · subst hid'
      rw [Function.update_self, hs]
      rfl
    · rw [Function.update_of_ne hid']
  refine ⟨⟨fun id' s₁ hs₁ => ?_, fun id' => ?_, fun id' => ?_, h.keyed.nodup⟩, ?_⟩
  · by_cases hid' : id' = id
    · subst hid'
      simp only [Function.update_self, Option.some.injEq] at hs₁
      rw [← hs₁, hid]
      exact h.keyed.own id' s hs
    · simp only [Function.update_of_ne hid'] at hs₁
      exact h.keyed.own id' s₁ hs₁
  · change id' ∈ e.ids ↔ _
    rw [h.keyed.ids, ← hsome id']
  · change (e.rules id').isSome ↔ _
    rw [h.keyed.rules, ← hsome id']
  · have hnone := hsome ""
    rw [h.named] at hnone
    exact Option.isSome_eq_false_iff.1 hnone |> Option.isNone_iff_eq_none.1

theorem replayEvent_alarmId {ev : AlarmEvent} {s s' : AlarmState} (h : replayEvent ev s = some s') :
    s'.alarmId = s.alarmId := by
  unfold replayEvent at h
  dsimp only at h
  split at h
  · rw [← Option.some.inj h]
  · split at h
    · rw [← Option.some.inj h]
    · split at h
      · rw [← Option.some.inj h]
      · split at h
        · rw [← Option.some.inj h]
        · split at h
          · obtain ⟨until_, -, rfl⟩ := Option.map_eq_some_iff.1 h
            split <;> rfl
          · split at h
            · rw [← Option.some.inj h]
            · rw [← Option.some.inj h]

theorem replay_named {e e' : AlarmEngine} (h : Named e) {ev : AlarmEvent}
    (hr : e.replay ev = some e') : Named e' := by
  unfold AlarmEngine.replay at hr
  split at hr
  · rw [← Option.some.inj hr]
    exact h
  · split at hr
    · rw [← Option.some.inj hr]
      exact h
    · rename_i s hs
      obtain ⟨s', hs', rfl⟩ := Option.map_eq_some_iff.1 hr
      exact h.update hs (replayEvent_alarmId hs')

theorem restore_named {events : List AlarmEvent} {e e' : AlarmEngine} (h : Named e)
    (hr : events.foldlM AlarmEngine.replay e = some e') : Named e' := by
  induction events generalizing e with
  | nil =>
    obtain rfl : e = e' := by simpa using hr
    exact h
  | cons ev events ih =>
    rw [List.foldlM_cons] at hr
    obtain ⟨e₁, h1, h2⟩ := Option.bind_eq_some_iff.1 hr
    exact ih (replay_named h h1) h2

omit [JsonLib] in
theorem mem_allStates {e : AlarmEngine} (h : Keyed e) {a : AlarmState} :
    a ∈ e.allStates ↔ e.states a.alarmId = some a := by
  unfold AlarmEngine.allStates
  rw [List.mem_filterMap]
  constructor
  · rintro ⟨id, -, hs⟩
    rwa [h.own id a hs]
  · intro hs
    exact ⟨a.alarmId, (h.ids _).2 (by rw [hs]; rfl), hs⟩

omit [JsonLib] in
theorem allStates_last {e : AlarmEngine} (h : Keyed e) (id : String) :
    lastOf id e.allStates = e.states id := by
  cases hlast : lastOf id e.allStates with
  | some b =>
    obtain ⟨hb, hid⟩ := alarmId_of_lastOf hlast
    rw [← (mem_allStates h).1 hb, hid]
  | none =>
    cases hs : e.states id with
    | none => rfl
    | some a =>
      have hid := h.own id a hs
      refine absurd ?_ (lastOf_eq_none.1 hlast)
      exact List.mem_map.2 ⟨a, (mem_allStates h).2 (hid ▸ hs), hid⟩

end OpcBridge.Alarms
