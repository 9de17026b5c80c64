import OpcBridge.Flow.NodeSpec
import OpcBridge.Lib.Timeline

/-!
# The flow service

The threads of `FlowService`: the worker, one lock-protected section or one call of `enqueue` at a
time; the MQTT callbacks and the injections, which choose their targets under the lock and enqueue
later; and `deploy` and `disable`, which install a copy of all deployed flows, clear the state of
one flow under the same lock, and clear the two queues under another lock afterwards. The steps of
the threads may come in any order.

`next_poll_ms_` and the HTTP requests only decide which inputs are read and with what result; both
are given with the step. `clearing` and `replaced` are not in the program: a deployment or a
removal of the flow has not cleared the queues yet, and the flow was last removed, not deployed.
-/

namespace OpcBridge.Flow

open OpcBridge OpcBridge.Alarms

variable [Floats] [JsonLib] [FlowLib]

/-! ## State -/

/-- An input that `poll_inputs` found to be due. -/
structure PollTask where
  flowId : String
  nodeId : String
  onlyOnChange : Bool
  epoch : Nat

/-- Where the worker stands. -/
inductive Worker
  | idle
  | polling (tasks : List PollTask)
  /-- Before the `enqueue` of `poll_tag`. -/
  | polled (tasks : List PollTask) (e : QueuedEvent)
  /-- After the first section of `process_event`, with its copy of the flow. -/
  | entered (e : QueuedEvent) (f : FlowDef) (n : FlowNode)
  /-- Inside `process_event`, with the calls that are left. -/
  | acting (e : QueuedEvent) (rest : List Action)

structure FlowState where
  maxEventHops : Nat := 64
  deployed : List (String × FlowDef) := []
  /-- `input_epoch_` -/
  epoch : String → Nat := fun _ => 0
  nodes : String → String → NodeState := fun _ _ => {}
  queue : List QueuedEvent := []
  /-- In the order of the times. -/
  delayed : List (Int × QueuedEvent) := []
  /-- The worker's own list. -/
  events : List QueuedEvent := []
  worker : Worker := .idle
  /-- Events of other threads before their `enqueue`. -/
  inFlight : List QueuedEvent := []
  /-- Flows with "Maximum event hops exceeded". -/
  hopErrors : List String := []
  clearing : String → Bool := fun _ => false
  replaced : String → Bool := fun _ => true

/-! ## The queues -/

def delayedLimit : Nat := 10000

/-- `emplace` of a `multimap` -/
def insertDelayed (due : Int) (e : QueuedEvent) (l : List (Int × QueuedEvent)) :
    List (Int × QueuedEvent) :=
  (l.takeWhile fun x => x.1 ≤ due) ++ (due, e) :: l.dropWhile fun x => x.1 ≤ due

omit [JsonLib] [FlowLib] in
theorem insertDelayed_perm (due : Int) (e : QueuedEvent) (l : List (Int × QueuedEvent)) :
    (insertDelayed due e l).Perm ((due, e) :: l) :=
  @Lib.insertBy_perm _ _ _ Prod.fst l (due, e)

/-- The timer of the event's trigger. -/
def sameTimer (e e' : QueuedEvent) : Bool :=
  e'.flowId == e.flowId && e'.nodeId == e.nodeId && isTriggerRelease e'.inputPort

/-- The queues after a call, and whether the calls after it are made. -/
def FlowState.perform (s : FlowState) (flowId : String) : Action → FlowState × Bool
  | .enqueue e => ({ s with queue := s.queue ++ [e] }, true)
  | .enqueueDelayed e due =>
    if delayedLimit ≤ s.delayed.length then (s, false)
    else ({ s with delayed := insertDelayed due e s.delayed }, true)
  | .replaceTriggerTimer e due =>
    let kept := s.delayed.filter fun x => !sameTimer e x.2
    if delayedLimit ≤ kept.length then ({ s with delayed := kept }, false)
    else ({ s with delayed := insertDelayed due e kept }, true)
  | .emailValue nodeId value born =>
    let st := s.nodes flowId nodeId
    let email := { st.email with value := value, born := born }
    ({ s with
      nodes := Function.update s.nodes flowId
        (Function.update (s.nodes flowId) nodeId { st with email }) }, true)
  | _ => (s, true)

/-! ## Steps -/

inductive FlowStep
  /-- `poll_inputs`: the inputs that are due. -/
  | pollInputs (due : String → String → Bool)
  /-- The section of `poll_tag` after a request; `none` is a failed one. -/
  | pollRow (row : Option (Json × Int))
  | pollEnqueue
  /-- The worker takes the queue and what is due of the delayed events. -/
  | takeQueue (now : Int)
  /-- `process_event` up to its first section. -/
  | enter
  | work (now : Int)
  | act
  /-- The worker appends the queue to its list after an event. -/
  | append
  /-- `on_mqtt_message`: which filters match the topic, and the value that a target extracts. -/
  | mqttMessage (connectionId : String) (matched : String → Bool) (extract : NodeType → Option Json)
      (now : Int)
  | inject (flowId nodeId : String) (value : Json) (now : Int)
  /-- A thread makes its `enqueue`. -/
  | handOver (i : Nat)
  /-- The installation of `deploy`, from a copy of the deployed flows. -/
  | deploy (flowId : String) (f : FlowDef) (next : List (String × FlowDef))
  /-- The installation of `disable`. -/
  | disable (flowId : String) (next : List (String × FlowDef))
  /-- `clear_queued_events` -/
  | clearQueued (flowId : String)

/-- `next[id] = f` in the order of the ids. -/
def putFlow (id : String) (f : FlowDef) (next : List (String × FlowDef)) :
    List (String × FlowDef) :=
  (next.filter fun x => x.1 < id) ++ (id, f) :: next.filter fun x => id < x.1

def Worker.afterPoll : List PollTask → Worker
  | [] => .idle
  | tasks => .polling tasks

def FlowState.pollTasks (s : FlowState) (due : String → String → Bool) : List PollTask :=
  (s.deployed.filter fun x => x.2.enabled).flatMap fun x =>
    x.2.nodes.filterMap fun n =>
      match n.type with
      | .opcTagInput onlyOnChange =>
        if due x.1 n.id then
          some { flowId := x.1, nodeId := n.id, onlyOnChange, epoch := s.epoch x.1 }
        else none
      | _ => none

/-- A good row under the lock. -/
def FlowState.pollRow (s : FlowState) (t : PollTask) (tasks : List PollTask) (value : Json)
    (now : Int) : FlowState :=
  if s.epoch t.flowId ≠ t.epoch ∨ (s.deployed.lookup t.flowId).isNone then
    { s with worker := .afterPoll tasks }
  else
    let st := s.nodes t.flowId t.nodeId
    let hadBaseline := !st.lastInput.isNull
    let changed := hadBaseline && !JsonLib.eq st.lastInput value
    let event : FlowEvent :=
      { present := true, value := value, quality := "good", timestampMs := now, born := t.epoch }
    { s with
      nodes := Function.update s.nodes t.flowId (Function.update (s.nodes t.flowId) t.nodeId
        { st with lastInput := value, lastBorn := t.epoch })
      worker :=
        if !hadBaseline || changed || !t.onlyOnChange then
          .polled tasks { flowId := t.flowId, nodeId := t.nodeId, event, inputEpoch := t.epoch }
        else .afterPoll tasks }

def FlowState.enter (s : FlowState) (e : QueuedEvent) (rest : List QueuedEvent) : FlowState :=
  let s := { s with events := rest, worker := .acting e [] }
  if s.maxEventHops < e.hops then { s with hopErrors := s.hopErrors ++ [e.flowId] }
  else if e.inputEpoch ≠ 0 ∧ s.epoch e.flowId ≠ e.inputEpoch then s
  else
    match s.deployed.lookup e.flowId with
    | none => s
    | some f =>
      if !f.enabled then s
      else
        match f.node e.nodeId with
        | none => s
        | some n => { s with worker := .entered e f n }

/-- The events of an MQTT message, one for each subscription that it reaches. -/
def FlowState.mqttEvents (s : FlowState) (connectionId : String) (matched : String → Bool)
    (extract : NodeType → Option Json) (now : Int) : List QueuedEvent :=
  (s.deployed.filter fun x => x.2.enabled).flatMap fun x =>
    x.2.nodes.filterMap fun n =>
      match n.type with
      | .mqttSubscribe c topic =>
        if c = connectionId ∧ matched topic then
          (extract n.type).map fun value =>
            { flowId := x.1, nodeId := n.id
              event := { present := true, value := value, quality := "good", timestampMs := now,
                         source := "mqtt", born := s.epoch x.1 } }
        else none
      | _ => none

def FlowState.injected (s : FlowState) (flowId nodeId : String) (value : Json) (now : Int) :
    List QueuedEvent :=
  match s.deployed.lookup flowId with
  | none => []
  | some f =>
    if (f.node nodeId).isNone then []
    else [{
      flowId, nodeId
      event := { present := !value.isNull, value := value,
                 quality := if value.isNull then "bad_null" else "good", timestampMs := now,
                 source := "manual_test", born := s.epoch flowId } }]

def FlowState.step (s : FlowState) : FlowStep → FlowState
  | .pollInputs due =>
    match s.worker, s.events with
    | .idle, [] => { s with worker := .afterPoll (s.pollTasks due) }
    | _, _ => s
  | .pollRow row =>
    match s.worker with
    | .polling (t :: tasks) =>
      match row with
      | none => { s with worker := .afterPoll tasks }
      | some (value, now) =>
        if value.isNull then { s with worker := .afterPoll tasks } else s.pollRow t tasks value now
    | _ => s
  | .pollEnqueue =>
    match s.worker with
    | .polled tasks e => { s with queue := s.queue ++ [e], worker := .afterPoll tasks }
    | _ => s
  | .takeQueue now =>
    match s.worker, s.events with
    | .idle, [] =>
      let due := s.delayed.takeWhile fun x => x.1 ≤ now
      { s with
        events := s.queue ++ due.map Prod.snd, queue := []
        delayed := s.delayed.dropWhile fun x => x.1 ≤ now }
    | _, _ => s
  | .enter =>
    match s.worker, s.events with
    | .idle, e :: rest => s.enter e rest
    | _, _ => s
  | .work now =>
    match s.worker with
    | .entered e f n =>
      let (st, calls) := nodeStep f n.type now e (s.nodes e.flowId e.nodeId)
      { s with
        nodes := Function.update s.nodes e.flowId (Function.update (s.nodes e.flowId) e.nodeId st)
        worker := .acting e calls }
    | _ => s
  | .act =>
    match s.worker with
    | .acting e (a :: rest) =>
      let (s, goOn) := s.perform e.flowId a
      { s with worker := .acting e (if goOn then rest else []) }
    | _ => s
  | .append =>
    match s.worker with
    | .acting _ [] => { s with events := s.events ++ s.queue, queue := [], worker := .idle }
    | _ => s
  | .mqttMessage connectionId matched extract now =>
    { s with inFlight := s.inFlight ++ s.mqttEvents connectionId matched extract now }
  | .inject flowId nodeId value now =>
    { s with inFlight := s.inFlight ++ s.injected flowId nodeId value now }
  | .handOver i =>
    match s.inFlight[i]? with
    | none => s
    | some e => { s with queue := s.queue ++ [e], inFlight := s.inFlight.eraseIdx i }
  | .deploy id f next =>
    { s with
      deployed := putFlow id f next
      epoch := Function.update s.epoch id (s.epoch id + 1)
      nodes := Function.update s.nodes id fun _ => {}
      clearing := Function.update s.clearing id true
      replaced := Function.update s.replaced id false }
  | .disable id next =>
    { s with
      deployed := next.filter fun x => x.1 != id
      epoch := Function.update s.epoch id (s.epoch id + 1)
      nodes := Function.update s.nodes id fun n => (s.nodes id n).disabled
      clearing := Function.update s.clearing id true
      replaced := Function.update s.replaced id true }
  | .clearQueued id =>
    { s with
      queue := s.queue.filter fun e => e.flowId != id
      delayed := s.delayed.filter fun x => x.2.flowId != id
      clearing := Function.update s.clearing id false }

omit [JsonLib] [FlowLib] in
/-- How `process_event` begins: it drops the event, or finds its node. -/
theorem enter_spec (s : FlowState) (e : QueuedEvent) (rest : List QueuedEvent) :
    ∃ worker errors, s.enter e rest = { s with events := rest, worker, hopErrors := errors } ∧
      (e.hops ≤ s.maxEventHops → errors = s.hopErrors) ∧
      (worker = .acting e [] ∨ ∃ f n, worker = .entered e f n ∧
        s.deployed.lookup e.flowId = some f ∧ f.node e.nodeId = some n ∧
        (e.inputEpoch = 0 ∨ e.inputEpoch = s.epoch e.flowId)) := by
  unfold FlowState.enter
  dsimp only
  split
  · exact ⟨_, _, rfl, fun h => by omega, .inl rfl⟩
  · split
    · exact ⟨_, _, rfl, fun _ => rfl, .inl rfl⟩
    · rename_i hepoch
      split
      · exact ⟨_, _, rfl, fun _ => rfl, .inl rfl⟩
      · rename_i f hf
        split
        · exact ⟨_, _, rfl, fun _ => rfl, .inl rfl⟩
        · split
          · exact ⟨_, _, rfl, fun _ => rfl, .inl rfl⟩
          · rename_i n hn
            refine ⟨_, _, rfl, fun _ => rfl, .inr ⟨f, n, rfl, hf, hn, ?_⟩⟩
            by_contra hne
            rw [not_or] at hne
            exact hepoch ⟨hne.1, fun heq => hne.2 heq.symm⟩

/-- `load_all` -/
def FlowState.load (maxEventHops : Nat) (deployed : List (String × FlowDef)) : FlowState :=
  { maxEventHops, deployed
    epoch := fun id => if (deployed.lookup id).isSome then 1 else 0
    replaced := fun id => (deployed.lookup id).isNone }

end OpcBridge.Flow
