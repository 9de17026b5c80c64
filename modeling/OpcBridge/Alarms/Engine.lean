import OpcBridge.Alarms.Json
import OpcBridge.Lib.Run
import Mathlib.Data.List.Infix

/-!
# The alarm engine

`AlarmEngine` of `opcbridge-alarms/src/main.cpp`: the rules, the state of each alarm and the
operations that change it. Every operation runs under the engine's lock and is one step; it acts on
the alarms one after the other through `touch`, with a function for one alarm (`updateAlarm`,
`processAlarm` and so on). `now_ms()` is read several times inside an operation, so an operation
carries its readings.

`history` holds what `log_event` was called with, in order. The database, the web socket and the
notification manager are handed the same events. Where an alarm with a recorded activation leaves
the active state and no event says so, the history holds a `dropped` mark, which the program does
not have.
-/

namespace OpcBridge.Alarms

open OpcBridge

variable [Floats]

/-! ## Records -/

structure AlarmRule where
  id : String
  name : String := ""
  enabled : Bool := true
  siteEnabled : Bool := true
  connectionId : String
  tag : String
  conditionType : String := ""
  conditionValue : Json := .null
  threshold : F64 := Floats.ofInt 0
  hysteresis : F64 := Floats.ofInt 0
  /-- Activation persistence delay. -/
  delayMs : Int := 0
  messageOnActive : String := ""
  messageOnReturn : String := ""

structure AlarmState where
  alarmId : String
  name : String := ""
  enabled : Bool := true
  siteEnabled : Bool := true
  active : Bool := false
  acked : Bool := false
  initialized : Bool := false
  returnNotificationArmed : Bool := false
  pending : Bool := false
  pendingRecordEvent : Bool := false
  pendingSinceMs : Int := 0
  effectiveDelayMs : Int := 0
  shelvedUntilMs : Option Int := none
  activeSinceMs : Int := 0
  lastChangeMs : Int := 0
  connectionId : String
  tag : String
  lastValue : Json := .null
  message : String := ""

/-- What `log_event` writes. -/
structure AlarmEvent where
  tsMs : Int
  alarmId : String
  type : String
  value : Json
  message : Option String
  actor : Option String := none
  note : Option String := none

inductive Mark
  | event (event : AlarmEvent)
  /-- An announced alarm left the active state without an event. -/
  | dropped (alarmId : String)

def Mark.alarmId : Mark → String
  | event e => e.alarmId
  | dropped id => id

structure AlarmEngine where
  rules : String → Option AlarmRule := fun _ => none
  states : String → Option AlarmState := fun _ => none
  /-- The keys of `states` in the order of iteration. -/
  ids : List String := []
  rulesByTagKey : String → List String := fun _ => []
  globalDelayMs : Int := 0
  history : List Mark := []

def nonEmpty (s : String) : Option String := if s = "" then none else some s

def logEvent (s : AlarmState) (type : String) (value : Json) (ts : Int) (actor note : String := "") :
    Mark :=
  .event { tsMs := ts, alarmId := s.alarmId, type, value, message := nonEmpty s.message,
           actor := nonEmpty actor, note := nonEmpty note }

def AlarmState.shelvedAt (s : AlarmState) (t : Int) : Bool :=
  s.shelvedUntilMs.any fun until_ => decide (t < until_)

/-! ## The condition -/

/-- `a >= b` -/
def fge (a b : F64) : Bool := Floats.lt b a || Floats.eq a b

/-- `a <= b` -/
def fle (a b : F64) : Bool := Floats.lt a b || Floats.eq a b

section
variable [JsonLib]

def AlarmRule.shouldBeActive (r : AlarmRule) (active : Bool) (value : Json) : Bool :=
  if r.conditionType = "equals" ∨ r.conditionType = "not_equals" then
    if r.conditionValue.isNull then false
    else
      let same := jsonEqualish value r.conditionValue
      if r.conditionType = "equals" then same else !same
  else if r.conditionType = "contains" ∨ r.conditionType = "not_contains" then
    if r.conditionValue.isNull then false
    else
      let cur := jsonTextValue value
      let target := jsonTextValue r.conditionValue
      let found := decide (target.toList <:+: cur.toList)
      if r.conditionType = "contains" then found else !found
  else if r.conditionType = "empty" ∨ r.conditionType = "not_empty" then
    let none := jsonTextValue value == ""
    if r.conditionType = "empty" then none else !none
  else if r.conditionType = "high" then
    match coerceNumber value with
    | none => false
    | some x =>
      if !active then fge x r.threshold else !fle x (Floats.sub r.threshold r.hysteresis)
  else if r.conditionType = "low" then
    match coerceNumber value with
    | none => false
    | some x =>
      if !active then fle x r.threshold else !fge x (Floats.add r.threshold r.hysteresis)
  else false

/-! ## One alarm -/

/-- A reading of bad quality. -/
def dropPending (s : AlarmState) : AlarmState :=
  { s with pending := false, pendingRecordEvent := false, pendingSinceMs := 0 }

def AlarmRule.activeMessage (r : AlarmRule) (s : AlarmState) : String :=
  if r.messageOnActive = "" then s.name else r.messageOnActive

/-- The fields of a state that becomes active. -/
def AlarmState.raise (s : AlarmState) (armed : Bool) (t : Int) (message : String) : AlarmState :=
  { s with
    active := true, acked := false, returnNotificationArmed := armed, activeSinceMs := t,
    lastChangeMs := t, message := message }

/-- An update while the site is disabled. -/
def suppressAlarm (s : AlarmState) (t : Int) : AlarmState × List Mark :=
  -- the next update after the site is enabled again is a baseline
  let s := { s with
    initialized := false, siteEnabled := false, pending := false, pendingSinceMs := 0 }
  if s.active then
    ({ s with active := false, returnNotificationArmed := false, lastChangeMs := t, message := "" },
      if s.returnNotificationArmed then [.dropped s.alarmId] else [])
  else (s, [])

/-- The rule may be evaluated. -/
def canEval (r : AlarmRule) (s : AlarmState) (t : Int) : Bool := r.enabled && !s.shelvedAt t

/-- The condition holds and may be evaluated. -/
def fires (r : AlarmRule) (value : Json) (t : Int) (s : AlarmState) : Bool :=
  canEval r s t && r.shouldBeActive s.active value

/-- The condition became true. -/
def activateAlarm (r : AlarmRule) (record : Bool) (t ts : Int) (s : AlarmState) :
    AlarmState × List Mark :=
  if 0 < s.effectiveDelayMs then
    let s :=
      if s.pending then s
      else { s with pending := true, pendingSinceMs := t, pendingRecordEvent := record }
    ({ s with initialized := true }, [])
  else if !s.initialized && !record then
    -- a baseline establishes the state without an event
    ({ s with initialized := true }.raise false t (r.activeMessage s), [])
  else
    let s := { s with initialized := true }.raise record t (r.activeMessage s)
    (s, if record then [logEvent s "active" s.lastValue ts] else [])

/-- The condition became false. -/
def returnAlarm (r : AlarmRule) (record : Bool) (t ts : Int) (s : AlarmState) :
    AlarmState × List Mark :=
  let armed := s.returnNotificationArmed
  let s := { s with
    pending := false, pendingSinceMs := 0, active := false, returnNotificationArmed := false,
    activeSinceMs := 0, lastChangeMs := t, message := r.messageOnReturn }
  (s,
    if record && armed then [logEvent s "return" s.lastValue ts]
    else if armed then [.dropped s.alarmId] else [])

/-- The state that an update of an enabled site evaluates. -/
def evalState (r : AlarmRule) (value : Json) (t : Int) (s : AlarmState) : AlarmState :=
  let s := { s with lastValue := value, siteEnabled := true }
  if canEval r s t then s else { s with pending := false, pendingSinceMs := 0 }

/-- An update of good quality, with the reading `t` of the clock and the reading `ts` of
`log_event`. -/
def updateAlarm (r : AlarmRule) (value : Json) (record : Bool) (t ts : Int) (s : AlarmState) :
    AlarmState × List Mark :=
  if !r.siteEnabled then suppressAlarm { s with lastValue := value } t
  else
    let s := evalState r value t s
    let should := fires r value t s
    if should && !s.active then activateAlarm r record t ts s
    else if !should && s.active then returnAlarm r record t ts s
    else if !s.initialized then ({ s with initialized := true }, [])
    else if !should && s.pending then (dropPending s, [])
    else (s, [])

/-- What the pending thread does with one alarm; `t` was read before the lock was taken. -/
def processAlarm (rule : Option AlarmRule) (t ts : Int) (s : AlarmState) :
    AlarmState × List Mark :=
  if !s.pending || s.active || s.effectiveDelayMs ≤ 0 then (s, [])
  else
    match rule with
    | none => (dropPending s, [])
    | some r =>
      if !r.enabled || !r.siteEnabled || s.shelvedAt t then (dropPending s, [])
      else if t - s.pendingSinceMs < s.effectiveDelayMs then (s, [])
      else
        let record := s.pendingRecordEvent
        let s := (dropPending s).raise record t (r.activeMessage s)
        (s, if record then [logEvent s "active" s.lastValue ts] else [])

def ackAlarm (t ts : Int) (actor note : String) (s : AlarmState) : AlarmState × List Mark :=
  let s := { s with acked := true, lastChangeMs := t }
  (s, [logEvent s "ack" s.lastValue ts actor note])

def shelveAlarm (until_ : Int) (t ts : Int) (actor note : String) (s : AlarmState) :
    AlarmState × List Mark :=
  let s := { s with shelvedUntilMs := some until_, lastChangeMs := t }
  (s, [logEvent s "shelve" (.object [("until_ms", .int until_)]) ts actor note])

def unshelveAlarm (t ts : Int) (actor note : String) (s : AlarmState) : AlarmState × List Mark :=
  let s := { s with shelvedUntilMs := none, lastChangeMs := t }
  (s, [logEvent s "unshelve" s.lastValue ts actor note])

end

/-! ## The engine's operations -/

/-- Changes one alarm, if it exists. -/
def AlarmEngine.touch (e : AlarmEngine) (id : String) (f : AlarmState → AlarmState × List Mark) :
    AlarmEngine :=
  match e.states id with
  | none => e
  | some s =>
    { e with
      states := Function.update e.states id (some (f s).1)
      history := e.history ++ (f s).2 }

/-- Changes the alarms of a list, one after the other. -/
def AlarmEngine.touchAll (e : AlarmEngine) (ids : List String)
    (f : String → Nat → AlarmState → AlarmState × List Mark) : AlarmEngine :=
  ids.zipIdx.foldl (fun e x => e.touch x.1 (f x.1 x.2)) e

section
variable [JsonLib]

/-- The `j`-th alarm of the tag reads the clock as `now (2 * j)`, its event as `now (2 * j + 1)`. -/
def AlarmEngine.applyTagUpdate (e : AlarmEngine) (connectionId tag : String) (value quality : Json)
    (record : Bool) (now : Nat → Int) : AlarmEngine :=
  let ids := e.rulesByTagKey (makeTagKey connectionId tag)
  if normalizeQuality quality = some 0 then e.touchAll ids fun _ _ s => (dropPending s, [])
  else
    e.touchAll ids fun id j s =>
      match e.rules id with
      | none => (s, [])
      | some r => updateAlarm r value record (now (2 * j)) (now (2 * j + 1)) s

end

def AlarmEngine.processPendingActivations (e : AlarmEngine) (t : Int) (now : Nat → Int) :
    AlarmEngine :=
  e.touchAll e.ids fun id j s => processAlarm (e.rules id) t (now j) s

/-! ## Loading rules -/

/-- The state of a rule that was just loaded. -/
def freshState (globalDelayMs : Int) (r : AlarmRule) : AlarmState :=
  { alarmId := r.id, name := r.name, enabled := r.enabled, siteEnabled := r.siteEnabled,
    effectiveDelayMs := max globalDelayMs r.delayMs, connectionId := r.connectionId, tag := r.tag }

/-- One rule object of the file: a later one of the same id replaces the rule and the state, and
the id stands under both keys. -/
def AlarmEngine.loadRule (next : AlarmEngine) (r : AlarmRule) : AlarmEngine :=
  if r.id = "" ∨ r.connectionId = "" ∨ r.tag = "" then next
  else
    let key := makeTagKey r.connectionId r.tag
    { next with
      rules := Function.update next.rules r.id (some r)
      states := Function.update next.states r.id (some (freshState next.globalDelayMs r))
      ids := if r.id ∈ next.ids then next.ids else next.ids ++ [r.id]
      rulesByTagKey := Function.update next.rulesByTagKey key (next.rulesByTagKey key ++ [r.id]) }

/-- The tables of a parsed configuration. -/
def loadTables (rules : List AlarmRule) (globalDelayMs : Int) : AlarmEngine :=
  rules.foldl AlarmEngine.loadRule { globalDelayMs := max 0 globalDelayMs }

/-- Live state that a reload carries over. -/
def carryOver (s prev : AlarmState) : AlarmState :=
  { s with
    active := prev.active
    acked := prev.acked
    initialized := prev.initialized
    returnNotificationArmed := prev.returnNotificationArmed
    activeSinceMs := prev.activeSinceMs
    lastChangeMs := prev.lastChangeMs
    lastValue := prev.lastValue
    message := prev.message
    shelvedUntilMs := prev.shelvedUntilMs
    pending := prev.pending
    pendingRecordEvent := prev.pendingRecordEvent
    pendingSinceMs := prev.pendingSinceMs }

/-- The alarm's activation was recorded, and no event or mark has ended it. -/
def AlarmEngine.announced (e : AlarmEngine) (id : String) : Bool :=
  (e.states id).any (·.returnNotificationArmed)

/-- Announced alarms of `e` that `next` does not keep. -/
def AlarmEngine.droppedBy (e next : AlarmEngine) : List Mark :=
  (e.ids.filter fun id => e.announced id && !next.announced id).map .dropped

/-- The swap of `fetch_rules_from_opcbridge`. -/
def AlarmEngine.reload (e : AlarmEngine) (rules : List AlarmRule) (globalDelayMs : Int) :
    AlarmEngine :=
  let next := loadTables rules globalDelayMs
  let next := { next with
    states := fun id => (next.states id).map fun s =>
      match e.states id with
      | none => s
      | some prev => carryOver s prev }
  { next with history := e.history ++ e.droppedBy next }

/-- The swap of `load_rules_from_file`: every state is fresh. -/
def AlarmEngine.loadRulesFromFile (e : AlarmEngine) (rules : List AlarmRule) (globalDelayMs : Int) :
    AlarmEngine :=
  let next := loadTables rules globalDelayMs
  { next with history := e.history ++ e.droppedBy next }

/-! ## Runs -/

inductive AlarmOp
  | update (connectionId tag : String) (value quality : Json) (record : Bool) (now : Nat → Int)
  | process (t : Int) (now : Nat → Int)
  | ack (id actor note : String) (t ts : Int)
  | shelve (id : String) (until_ : Int) (actor note : String) (t ts : Int)
  | unshelve (id actor note : String) (t ts : Int)
  | reload (rules : List AlarmRule) (globalDelayMs : Int) (t : Int)
  | load (rules : List AlarmRule) (globalDelayMs : Int) (t : Int)

variable [JsonLib]

def AlarmEngine.step (e : AlarmEngine) : AlarmOp → AlarmEngine
  | .update connectionId tag value quality record now =>
    e.applyTagUpdate connectionId tag value quality record now
  | .process t now => e.processPendingActivations t now
  | .ack id actor note t ts => e.touch id (ackAlarm t ts actor note)
  | .shelve id until_ actor note t ts => e.touch id (shelveAlarm until_ t ts actor note)
  | .unshelve id actor note t ts => e.touch id (unshelveAlarm t ts actor note)
  | .reload rules globalDelayMs _ => e.reload rules globalDelayMs
  | .load rules globalDelayMs _ => e.loadRulesFromFile rules globalDelayMs

end OpcBridge.Alarms
