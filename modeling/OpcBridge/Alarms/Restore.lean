import OpcBridge.Alarms.Effects

/-!
# Restoring alarms from the history database

`restore_state_from_db` of `opcbridge-alarms/src/main.cpp`: the stored events are read in the order
of their times and played back over the states of the engine. `none` is an exception of the JSON
library, which nothing catches.

An event writes some of an alarm's fields. `replayAll_fields` gives each field after a replay from
the last event that writes it.
-/

namespace OpcBridge.Alarms

open OpcBridge Lib

variable [Floats] [JsonLib]

/-! ## The database -/

/-- `fetch_events_since`, for the rows of the table. -/
def fetchEventsSince (sinceMs : Int) (limit : Nat) (rows : List AlarmEvent) : List AlarmEvent :=
  let limit := min (max limit 1) 50000
  ((rows.filter fun ev => decide (sinceMs ≤ ev.tsMs)).mergeSort
    fun a b => decide (a.tsMs ≤ b.tsMs)).take limit

/-- The events that were handed to the database. -/
def storedEvents (history : List Mark) : List AlarmEvent :=
  history.filterMap fun
    | .event ev => some ev
    | .dropped _ => none

/-! ## One event -/

/-- `value.value("until_ms", 0)` of a shelve event. -/
def untilMs (value : Json) : Option Int :=
  match value with
  | .object fields =>
    match fields.lookup "until_ms" with
    | none => some 0
    | some (.int n) => some n
    | some (.uint n) => some (Int64.ofNat n).toInt
    | some (.float x) => some (JsonLib.truncate64 x)
    | some (.bool b) => some (if b then 1 else 0)
    | some _ => none
  | _ => some 0

def replayEvent (ev : AlarmEvent) (s : AlarmState) : Option AlarmState :=
  let s := { s with
    initialized := true, lastChangeMs := ev.tsMs, lastValue := ev.value
    message := ev.message.getD s.message }
  if ev.type = "active" then
    some { s with
      active := true, acked := false, returnNotificationArmed := true, activeSinceMs := ev.tsMs }
  else if ev.type = "return" ∨ ev.type = "reset" ∨ ev.type = "clear" then
    some { s with active := false, returnNotificationArmed := false, activeSinceMs := 0 }
  else if ev.type = "ack" then some { s with acked := true }
  else if ev.type = "unack" then some { s with acked := false }
  else if ev.type = "shelve" then
    (untilMs ev.value).map fun until_ =>
      if 0 < until_ then { s with shelvedUntilMs := some until_ } else s
  else if ev.type = "unshelve" then some { s with shelvedUntilMs := none }
  else some s

/-- The event is played back at all. -/
def AlarmEvent.usable (ev : AlarmEvent) : Bool :=
  !(ev.alarmId == "" || ev.type == "" || decide (ev.tsMs ≤ 0))

def AlarmEngine.replay (e : AlarmEngine) (ev : AlarmEvent) : Option AlarmEngine :=
  if !ev.usable then some e
  else
    match e.states ev.alarmId with
    | none => some e
    | some s =>
      (replayEvent ev s).map fun s' =>
        { e with states := Function.update e.states ev.alarmId (some s') }

def AlarmEngine.restoreStateFromDb (e : AlarmEngine) (sinceMs : Int) (rows : List AlarmEvent) :
    Option AlarmEngine :=
  (fetchEventsSince sinceMs 50000 rows).foldlM AlarmEngine.replay e

/-! ## Replay of one alarm -/

/-- The events that are played back over an alarm. -/
def eventsOf (id : String) (events : List AlarmEvent) : List AlarmEvent :=
  events.filter fun ev => ev.usable && ev.alarmId == id

def replayAll (events : List AlarmEvent) (s : AlarmState) : Option AlarmState :=
  events.foldlM (fun s ev => replayEvent ev s) s

/-- A replay of all alarms replays each alarm. -/
theorem replay_states {events : List AlarmEvent} {e e' : AlarmEngine}
    (h : events.foldlM AlarmEngine.replay e = some e') {id : String} {s : AlarmState}
    (hs : e.states id = some s) :
    ∃ s', replayAll (eventsOf id events) s = some s' ∧ e'.states id = some s' := by
  induction events generalizing e s with
  | nil =>
    obtain rfl : e = e' := by simpa using h
    exact ⟨s, rfl, hs⟩
  | cons ev events ih =>
    rw [List.foldlM_cons] at h
    obtain ⟨e₁, h1, h2⟩ := Option.bind_eq_some_iff.1 h
    unfold AlarmEngine.replay at h1
    cases hu : ev.usable with
    | false =>
      simp only [hu, Bool.not_false, if_true, Option.some.injEq] at h1
      have hskip : eventsOf id (ev :: events) = eventsOf id events := by
        simp [eventsOf, hu]
      rw [hskip]
      exact ih h2 (h1 ▸ hs)
    | true =>
      simp only [hu, Bool.not_true, Bool.false_eq_true, if_false] at h1
      by_cases hid : ev.alarmId = id
      · have hcons : eventsOf id (ev :: events) = ev :: eventsOf id events := by
          simp [eventsOf, hu, hid]
        simp only [hid, hs] at h1
        obtain ⟨s₁, hs₁, rfl⟩ := Option.map_eq_some_iff.1 h1
        obtain ⟨s', h3, h4⟩ := ih h2 (Function.update_self ..)
        refine ⟨s', ?_, h4⟩
        rw [hcons, replayAll, List.foldlM_cons, hs₁]
        exact h3
      · have hskip : eventsOf id (ev :: events) = eventsOf id events := by
          simp [eventsOf, hid]
        have hsame : e₁.states id = e.states id := by
          split at h1
          · rw [← Option.some.inj h1]
          · obtain ⟨s', -, rfl⟩ := Option.map_eq_some_iff.1 h1
            exact Function.update_of_ne (Ne.symm hid) _ _
        rw [hskip]
        exact ih h2 (hsame.trans hs)

/-- The replay goes through where every shelve event is readable. -/
theorem replay_total {events : List AlarmEvent}
    (h : ∀ ev ∈ events, ev.type = "shelve" → (untilMs ev.value).isSome) (e : AlarmEngine) :
    ∃ e', events.foldlM AlarmEngine.replay e = some e' := by
  induction events generalizing e with
  | nil => exact ⟨e, rfl⟩
  | cons ev events ih =>
    have hone : ∃ e₁, e.replay ev = some e₁ := by
      unfold AlarmEngine.replay
      split
      · exact ⟨e, rfl⟩
      · split
        · exact ⟨e, rfl⟩
        · rename_i s _
          have hev : ∃ s', replayEvent ev s = some s' := by
            unfold replayEvent
            dsimp only
            split
            · exact ⟨_, rfl⟩
            · split
              · exact ⟨_, rfl⟩
              · split
                · exact ⟨_, rfl⟩
                · split
                  · exact ⟨_, rfl⟩
                  · split
                    · rename_i hshelve
                      obtain ⟨n, hn⟩ := Option.isSome_iff_exists.1 (h ev (by simp) hshelve)
                      exact ⟨_, by rw [hn]; rfl⟩
                    · split <;> exact ⟨_, rfl⟩
          obtain ⟨s', hs'⟩ := hev
          exact ⟨_, by rw [hs']; rfl⟩
    obtain ⟨e₁, h1⟩ := hone
    obtain ⟨e', h2⟩ := ih (fun ev' hev' => h ev' (List.mem_cons_of_mem _ hev')) e₁
    exact ⟨e', by rw [List.foldlM_cons, h1]; exact h2⟩

/-! ## What an event writes -/

/-- The active state and the armed return. -/
def AlarmEvent.writesActive (ev : AlarmEvent) : Option Bool :=
  if ev.type = "active" then some true
  else if ev.type = "return" ∨ ev.type = "reset" ∨ ev.type = "clear" then some false
  else none

def AlarmEvent.writesSince (ev : AlarmEvent) : Option Int :=
  if ev.type = "active" then some ev.tsMs
  else if ev.type = "return" ∨ ev.type = "reset" ∨ ev.type = "clear" then some 0
  else none

def AlarmEvent.writesAcked (ev : AlarmEvent) : Option Bool :=
  if ev.type = "active" then some false
  else if ev.type = "ack" then some true
  else if ev.type = "unack" then some false
  else none

def AlarmEvent.writesShelved (ev : AlarmEvent) : Option (Option Int) :=
  if ev.type = "shelve" then
    match untilMs ev.value with
    | some until_ => if 0 < until_ then some (some until_) else none
    | none => none
  else if ev.type = "unshelve" then some none
  else none

/-- What the last event that writes a field writes. -/
def lastWrite {α : Type} (writes : AlarmEvent → Option α) (events : List AlarmEvent) : Option α :=
  events.reverse.findSome? writes

/-- The fields of an alarm that a restart should keep. -/
structure Kept (s' s : AlarmState) : Prop where
  active : s'.active = s.active
  armed : s'.returnNotificationArmed = s.returnNotificationArmed
  since : s'.activeSinceMs = s.activeSinceMs
  acked : s'.acked = s.acked
  shelved : s'.shelvedUntilMs = s.shelvedUntilMs

/-- The fields of `s'` are those of `s` with the writes of the events. -/
structure Written (events : List AlarmEvent) (s s' : AlarmState) : Prop where
  active : s'.active = (lastWrite AlarmEvent.writesActive events).getD s.active
  armed : s'.returnNotificationArmed =
    (lastWrite AlarmEvent.writesActive events).getD s.returnNotificationArmed
  since : s'.activeSinceMs = (lastWrite AlarmEvent.writesSince events).getD s.activeSinceMs
  acked : s'.acked = (lastWrite AlarmEvent.writesAcked events).getD s.acked
  shelved : s'.shelvedUntilMs = (lastWrite AlarmEvent.writesShelved events).getD s.shelvedUntilMs
  pending : s'.pending = s.pending

theorem replayEvent_writes {ev : AlarmEvent} {s s' : AlarmState} (h : replayEvent ev s = some s') :
    s'.active = ev.writesActive.getD s.active ∧
      s'.returnNotificationArmed = ev.writesActive.getD s.returnNotificationArmed ∧
      s'.activeSinceMs = ev.writesSince.getD s.activeSinceMs ∧
      s'.acked = ev.writesAcked.getD s.acked ∧
      s'.shelvedUntilMs = ev.writesShelved.getD s.shelvedUntilMs ∧ s'.pending = s.pending := by
  unfold replayEvent at h
  unfold AlarmEvent.writesActive AlarmEvent.writesSince AlarmEvent.writesAcked
    AlarmEvent.writesShelved
  dsimp only at h
  split at h
  · rename_i ht
    cases h
    simp [ht]
  · rename_i hactive
    split at h
    · rename_i ht
      cases h
      rcases ht with ht | ht | ht <;> simp [ht]
    · rename_i hreturn
      split at h
      · rename_i ht
        cases h
        simp [ht]
      · rename_i hack
        split at h
        · rename_i ht
          cases h
          simp [ht]
        · rename_i hunack
          split at h
          · rename_i ht
            obtain ⟨n, hn, rfl⟩ := Option.map_eq_some_iff.1 h
            split
            · rename_i hpos
              simp [hn, hpos]
            · rename_i hpos
              simp [hn, hpos]
          · rename_i hshelve
            split at h
            · rename_i ht
              cases h
              simp [ht]
            · rename_i hunshelve
              cases h
              simp [hactive, hreturn, hack, hunack, hshelve, hunshelve]

omit [JsonLib] in
theorem lastWrite_cons {α : Type} (writes : AlarmEvent → Option α) (ev : AlarmEvent)
    (events : List AlarmEvent) (x : α) :
    (lastWrite writes (ev :: events)).getD x =
      (lastWrite writes events).getD ((writes ev).getD x) := by
  unfold lastWrite
  rw [List.reverse_cons, List.findSome?_append]
  cases events.reverse.findSome? writes with
  | none => cases hw : writes ev <;> simp [hw]
  | some y => rfl

/-- **A replay, field by field.** -/
theorem replayAll_fields {events : List AlarmEvent} {s s' : AlarmState}
    (h : replayAll events s = some s') : Written events s s' := by
  induction events generalizing s with
  | nil =>
    obtain rfl : s = s' := by simpa [replayAll] using h
    exact ⟨rfl, rfl, rfl, rfl, rfl, rfl⟩
  | cons ev events ih =>
    unfold replayAll at h
    rw [List.foldlM_cons] at h
    obtain ⟨s₁, h1, h2⟩ := Option.bind_eq_some_iff.1 h
    obtain ⟨w1, w2, w3, w4, w5, w6⟩ := replayEvent_writes h1
    have hrest := ih h2
    refine ⟨?_, ?_, ?_, ?_, ?_, hrest.pending.trans w6⟩
    · rw [lastWrite_cons, ← w1]
      exact hrest.active
    · rw [lastWrite_cons, ← w2]
      exact hrest.armed
    · rw [lastWrite_cons, ← w3]
      exact hrest.since
    · rw [lastWrite_cons, ← w4]
      exact hrest.acked
    · rw [lastWrite_cons, ← w5]
      exact hrest.shelved

end OpcBridge.Alarms
