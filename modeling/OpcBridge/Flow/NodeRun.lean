import OpcBridge.Flow.Worker
import OpcBridge.Lib.Run
import Mathlib.Algebra.Order.Group.Int

/-!
# One node that holds messages back

A rate limit or a trigger sends a message to itself, through the delayed queue. `View` is the part of
the service's state that concerns one such node of a deployed flow: its own state, its messages in
the delayed queue and in the worker's list, and whether the worker is inside the node. Everything
else that the service does, for other nodes and other flows, leaves the view alone or only drains it;
`step_moved` says once what a step of the service can do to it.
-/

namespace OpcBridge.Flow

open OpcBridge OpcBridge.Alarms Lib

variable [Floats] [JsonLib] [FlowLib]

/-! ## The node -/

section
omit [JsonLib] [FlowLib]

/-- A node of a deployed flow. The ports of its messages to itself are its own: no edge into the node
and no input without a port uses one. -/
structure Site where
  flowId : String
  nodeId : String
  flow : FlowDef
  node : FlowNode
  found : flow.node nodeId = some node
  enabled : flow.enabled = true
  ports : ∀ edge ∈ flow.edges, edge.to_ = nodeId → node.type.releases edge.toPort = true
  plain : node.type.releases "" = true

namespace Site

variable (p : Site)

/-- An event for the node. -/
def here (e : QueuedEvent) : Bool := e.flowId == p.flowId && e.nodeId == p.nodeId

/-- A message of the node to itself. -/
def own (e : QueuedEvent) : Bool := p.here e && !p.node.type.releases e.inputPort

theorem here_iff {e : QueuedEvent} : p.here e = true ↔ e.flowId = p.flowId ∧ e.nodeId = p.nodeId := by
  simp [here]

variable {p}

theorem here_of_own {e : QueuedEvent} (h : p.own e = true) : p.here e = true := by
  simp only [own, Bool.and_eq_true] at h
  exact h.1

theorem own_of_plain {e : QueuedEvent} (h : e.inputPort = "") : p.own e = false := by
  simp [own, h, p.plain]

theorem own_of_flow {e : QueuedEvent} (h : e.flowId ≠ p.flowId) : p.own e = false := by
  simp [own, here, h]

theorem own_of_node {e : QueuedEvent} (h : e.nodeId ≠ p.nodeId) : p.own e = false := by
  simp [own, here, h]

/-- An event along an edge of the flow. -/
theorem own_along {q : QueuedEvent} {output : FlowEvent} {edge : FlowEdge}
    (hedge : edge ∈ p.flow.edges) : p.own (q.along output edge) = false := by
  by_cases hnode : edge.to_ = p.nodeId
  · simp [own, QueuedEvent.along, p.ports edge hedge hnode]
  · exact own_of_node hnode

end Site

/-! ## The view -/

/-- Where the worker is, as far as the node is concerned. -/
inductive Phase
  | away
  | entered (e : QueuedEvent)
  | acting (e : QueuedEvent) (rest : List Action)

instance : ∀ phase : Phase, Decidable (phase = .away)
  | .away => .isTrue rfl
  | .entered _ => .isFalse fun h => by cases h
  | .acting .. => .isFalse fun h => by cases h

structure View where
  rate : RateLimitState
  trigger : TriggerState
  /-- The node's messages in the delayed queue. -/
  delayed : List (Int × QueuedEvent)
  /-- The node's messages in the worker's list. -/
  waiting : List QueuedEvent
  phase : Phase

namespace Site

variable (p : Site)

def phase : Worker → Phase
  | .entered e _ _ => if p.here e then .entered e else .away
  | .acting e rest => if p.here e then .acting e rest else .away
  | _ => .away

def view (s : FlowState) : View where
  rate := (s.nodes p.flowId p.nodeId).rate
  trigger := (s.nodes p.flowId p.nodeId).trigger
  delayed := s.delayed.filter fun x => p.own x.2
  waiting := s.events.filter p.own
  phase := p.phase s.worker

/-- An event that `process_event` does not drop. -/
def Accepted (s : FlowState) (e : QueuedEvent) : Prop :=
  e.hops ≤ s.maxEventHops ∧ (e.inputEpoch = 0 ∨ e.inputEpoch = s.epoch p.flowId)

/-- What a call that is left does to the node's messages. -/
def CallOk (s : FlowState) (e : QueuedEvent) : Action → Prop
  | .enqueue e' => p.own e' = false
  | .enqueueDelayed e' _ => p.own e' = true → p.here e = true ∧ p.Accepted s e'
  | .replaceTriggerTimer e' _ => e'.flowId = e.flowId ∧ e'.nodeId = e.nodeId ∧
      (p.here e = true → p.own e' = true ∧ p.Accepted s e')
  | _ => True

def WorkerOk (s : FlowState) : Worker → Prop
  | .polled _ e => p.own e = false
  | .entered e g m => e.flowId = p.flowId → g = p.flow ∧ g.node e.nodeId = some m ∧
      (e.inputEpoch = 0 ∨ e.inputEpoch = s.epoch p.flowId)
  | .acting e rest => ∀ a ∈ rest, p.CallOk s e a
  | _ => True

/-- What holds of the service while the flow stays deployed. -/
structure In (s : FlowState) : Prop where
  deployed : s.deployed.lookup p.flowId = some p.flow
  ordered : AscendingBy Prod.fst s.delayed
  queue : ∀ e ∈ s.queue, p.own e = false
  inFlight : ∀ e ∈ s.inFlight, p.own e = false
  delayed : ∀ x ∈ s.delayed, p.own x.2 = true → p.Accepted s x.2
  events : ∀ e ∈ s.events, p.own e = true → p.Accepted s e
  worker : p.WorkerOk s s.worker

/-- No message of the node waits, and the worker is not inside it. -/
structure AtRest (s : FlowState) : Prop where
  away : p.phase s.worker = .away
  delayed : ∀ x ∈ s.delayed, p.own x.2 = false
  events : ∀ e ∈ s.events, p.own e = false

/-- The call sends a message of the node to itself. -/
def back : Action → Bool
  | .enqueueDelayed e _ => p.own e
  | .replaceTriggerTimer e _ => p.own e
  | _ => false

end Site

/-- All events that wait in a queue. -/
def FlowState.messages (s : FlowState) : List QueuedEvent :=
  s.delayed.map Prod.snd ++ s.queue ++ s.events

/-- A full queue refuses the call. -/
def Action.bounded : Action → Bool
  | .enqueueDelayed .. => true
  | .replaceTriggerTimer .. => true
  | _ => false

end

/-! ## Steps -/

/-- What the worker reads from the clock. -/
def FlowStep.clock : FlowStep → Option Int
  | .takeQueue now => some now
  | .work now => some now
  | _ => none

/-- A section of `process_event` at the node. -/
structure Visit where
  now : Int
  event : QueuedEvent
  state : NodeState

namespace Site

variable (p : Site)

def visit (s : FlowState) : FlowStep → Option Visit
  | .work now =>
    match s.worker with
    | .entered e _ _ => if p.here e then some ⟨now, e, s.nodes p.flowId p.nodeId⟩ else none
    | _ => none
  | _ => none

/-- What the visit does. -/
def result (v : Visit) : NodeState × List Action :=
  nodeStep p.flow p.node.type v.now v.event v.state

/-- The flow stays deployed as it is. -/
def Stays : FlowStep → Prop
  | .deploy id g next => id ≠ p.flowId ∧ (putFlow id g next).lookup p.flowId = some p.flow
  | .disable id next => id ≠ p.flowId ∧
      (next.filter fun x => x.1 != id).lookup p.flowId = some p.flow
  | .clearQueued id => id ≠ p.flowId
  | _ => True

/-- An event after which the node sends itself a message may go one hop further. -/
def HopsLeft (s : FlowState) (e : FlowStep) : Prop :=
  ∀ v, p.visit s e = some v → (∃ a ∈ (p.result v).2, p.back a = true) →
    v.event.hops < s.maxEventHops

/-- Nothing is installed, and neither the hops nor the queue are at their limits. -/
def calm (s : FlowState) (e : FlowStep) : Bool :=
  (match e with
    | .deploy .. => false
    | .disable .. => false
    | .clearQueued _ => false
    | _ => true) &&
  (p.visit s e).all (fun v => v.event.hops < s.maxEventHops) &&
  decide (s.delayed.length < delayedLimit)

/-- What a step does to the view of the node. -/
inductive Moved (s : FlowState) : FlowStep → View → Prop
  | stay {e : FlowStep} (h : p.visit s e = none) : Moved s e (p.view s)
  | take {now : Int} (haway : (p.view s).phase = .away) (hnone : (p.view s).waiting = []) :
      Moved s (.takeQueue now) { p.view s with
        delayed := (p.view s).delayed.dropWhile fun x => x.1 ≤ now
        waiting := ((p.view s).delayed.takeWhile fun x => x.1 ≤ now).map Prod.snd }
  /-- An event that is not the node's own; `process_event` may drop it. -/
  | input {e : QueuedEvent} {phase : Phase} (haway : (p.view s).phase = .away)
      (hown : p.own e = false) (hphase : phase = .entered e ∨ phase = .acting e []) :
      Moved s .enter { p.view s with phase }
  | own {e : QueuedEvent} {rest : List QueuedEvent} (haway : (p.view s).phase = .away)
      (hwait : (p.view s).waiting = e :: rest) (hown : p.own e = true) :
      Moved s .enter { p.view s with waiting := rest, phase := .entered e }
  | work {now : Int} {v : Visit} (hvisit : p.visit s (.work now) = some v)
      (hphase : (p.view s).phase = .entered v.event) :
      Moved s (.work now) { p.view s with
        rate := (p.result v).1.rate
        trigger := (p.result v).1.trigger
        phase := .acting v.event (p.result v).2 }
  /-- A call that concerns other nodes; a refused one is the last. -/
  | call {e : QueuedEvent} {a : Action} {rest rest' : List Action}
      (hphase : (p.view s).phase = .acting e (a :: rest)) (hback : p.back a = false)
      (hrest : rest' = rest ∨ a.bounded = true ∧ rest' = []) :
      Moved s .act { p.view s with phase := .acting e rest' }
  | delayed {e e' : QueuedEvent} {due : Int} {rest : List Action}
      (hphase : (p.view s).phase = .acting e (.enqueueDelayed e' due :: rest))
      (hown : p.own e' = true) (hroom : s.delayed.length < delayedLimit) :
      Moved s .act { p.view s with
        delayed := insertDelayed due e' (p.view s).delayed, phase := .acting e rest }
  | delayedFull {e e' : QueuedEvent} {due : Int} {rest : List Action}
      (hphase : (p.view s).phase = .acting e (.enqueueDelayed e' due :: rest))
      (hown : p.own e' = true) (hfull : delayedLimit ≤ s.delayed.length) :
      Moved s .act { p.view s with phase := .acting e [] }
  | timer {e e' : QueuedEvent} {due : Int} {rest : List Action}
      (hphase : (p.view s).phase = .acting e (.replaceTriggerTimer e' due :: rest))
      (hown : p.own e' = true)
      (hroom : (s.delayed.filter fun x => !sameTimer e' x.2).length < delayedLimit) :
      Moved s .act { p.view s with
        delayed := insertDelayed due e'
          ((p.view s).delayed.filter fun x => !sameTimer e' x.2)
        phase := .acting e rest }
  | timerFull {e e' : QueuedEvent} {due : Int} {rest : List Action}
      (hphase : (p.view s).phase = .acting e (.replaceTriggerTimer e' due :: rest))
      (hown : p.own e' = true)
      (hfull : delayedLimit ≤ (s.delayed.filter fun x => !sameTimer e' x.2).length) :
      Moved s .act { p.view s with
        delayed := (p.view s).delayed.filter fun x => !sameTimer e' x.2, phase := .acting e [] }
  | done {e : QueuedEvent} (hphase : (p.view s).phase = .acting e []) :
      Moved s .append { p.view s with phase := .away }

/-- Only a visit changes the node's own state. -/
theorem Moved.state {p : Site} {s : FlowState} {e : FlowStep} {w : View} (h : p.Moved s e w) :
    (p.visit s e = none ∧ w.rate = (p.view s).rate ∧ w.trigger = (p.view s).trigger) ∨
    ∃ v, p.visit s e = some v ∧ (p.view s).phase = .entered v.event ∧
      w.rate = (p.result v).1.rate ∧ w.trigger = (p.result v).1.trigger := by
  cases h with
  | stay hnone => exact .inl ⟨hnone, rfl, rfl⟩
  | work hvisit hphase => exact .inr ⟨_, hvisit, hphase, rfl, rfl⟩
  | _ => exact .inl ⟨rfl, rfl, rfl⟩

/-! ## Frames -/

variable {p : Site} {s s' : FlowState}

theorem Moved.of_eq {e : FlowStep} {v : View} (hview : v = p.view s) (h : p.visit s e = none) :
    p.Moved s e v := by
  rw [hview]
  exact .stay h

section
omit [JsonLib] [FlowLib]

/-- The parts of the service that the facts about the node depend on. -/
structure Framed (p : Site) (s s' : FlowState) : Prop where
  deployed : s'.deployed.lookup p.flowId = s.deployed.lookup p.flowId
  epoch : s'.epoch p.flowId = s.epoch p.flowId
  hops : s'.maxEventHops = s.maxEventHops

theorem Framed.accepted (h : Framed p s s') {e : QueuedEvent} (he : p.Accepted s e) :
    p.Accepted s' e := by
  unfold Accepted at he ⊢
  rw [h.hops, h.epoch]
  exact he

theorem Framed.callOk (h : Framed p s s') {e : QueuedEvent} {a : Action} (ha : p.CallOk s e a) :
    p.CallOk s' e a := by
  cases a with
  | enqueueDelayed e' due => exact fun hown => ⟨(ha hown).1, h.accepted (ha hown).2⟩
  | replaceTriggerTimer e' due =>
    exact ⟨ha.1, ha.2.1, fun hhere => ⟨(ha.2.2 hhere).1, h.accepted (ha.2.2 hhere).2⟩⟩
  | _ => exact ha

theorem Framed.workerOk (h : Framed p s s') {w : Worker} (hw : p.WorkerOk s w) :
    p.WorkerOk s' w := by
  cases w with
  | entered e g m =>
    intro hflow
    rw [h.epoch]
    exact hw hflow
  | acting e rest => exact fun a ha => h.callOk (hw a ha)
  | _ => exact hw

/-- A step that adds no message of the node. -/
theorem In.frame (h : p.In s) (hf : Framed p s s')
    (hordered : AscendingBy Prod.fst s'.delayed) (hqueue : ∀ e ∈ s'.queue, p.own e = false)
    (hflight : ∀ e ∈ s'.inFlight, p.own e = false)
    (hdelayed : ∀ x ∈ s'.delayed, p.own x.2 = true → p.Accepted s x.2)
    (hevents : ∀ e ∈ s'.events, p.own e = true → p.Accepted s e)
    (hworker : p.WorkerOk s s'.worker) : p.In s' where
  deployed := hf.deployed.trans h.deployed
  ordered := hordered
  queue := hqueue
  inFlight := hflight
  delayed := fun x hx hown => hf.accepted (hdelayed x hx hown)
  events := fun e he hown => hf.accepted (hevents e he hown)
  worker := hf.workerOk hworker

theorem In.withWorker (h : p.In s) {w : Worker} (hw : p.WorkerOk s w) :
    p.In { s with worker := w } :=
  h.frame ⟨rfl, rfl, rfl⟩ h.ordered h.queue h.inFlight h.delayed h.events hw

theorem view_withWorker {w : Worker} (hw : p.phase w = p.phase s.worker) :
    p.view { s with worker := w } = p.view s := by
  unfold view
  rw [← hw]

theorem phase_afterPoll (tasks : List PollTask) : p.phase (.afterPoll tasks) = .away := by
  cases tasks <;> rfl

theorem workerOk_afterPoll (tasks : List PollTask) : p.WorkerOk s (.afterPoll tasks) := by
  cases tasks <;> trivial

theorem filter_own_nil {es : List QueuedEvent} (h : ∀ e ∈ es, p.own e = false) :
    es.filter p.own = [] :=
  List.filter_eq_nil_iff.2 fun e he => by simp [h e he]

theorem own_append {as bs : List QueuedEvent} (ha : ∀ e ∈ as, p.own e = false)
    (hb : ∀ e ∈ bs, p.own e = false) : ∀ e ∈ as ++ bs, p.own e = false := fun e he =>
  (List.mem_append.1 he).elim (ha e) (hb e)

/-- A node's state may change in the parts that the view does not show. -/
theorem updated_node {flowId nodeId : String} {st : NodeState}
    (hrate : st.rate = (s.nodes flowId nodeId).rate)
    (htrigger : st.trigger = (s.nodes flowId nodeId).trigger) {next : String → String → NodeState}
    (hnext : next =
      Function.update s.nodes flowId (Function.update (s.nodes flowId) nodeId st)) :
    (next p.flowId p.nodeId).rate = (s.nodes p.flowId p.nodeId).rate ∧
      (next p.flowId p.nodeId).trigger = (s.nodes p.flowId p.nodeId).trigger := by
  subst hnext
  by_cases hflow : p.flowId = flowId
  · subst hflow
    rw [Function.update_self]
    by_cases hnode : p.nodeId = nodeId
    · subst hnode
      rw [Function.update_self]
      exact ⟨hrate, htrigger⟩
    · rw [Function.update_of_ne hnode]
      exact ⟨rfl, rfl⟩
  · rw [Function.update_of_ne hflow]
    exact ⟨rfl, rfl⟩

theorem view_withNode {flowId nodeId : String} (st : NodeState)
    (hrate : st.rate = (s.nodes flowId nodeId).rate)
    (htrigger : st.trigger = (s.nodes flowId nodeId).trigger) {w : Worker} {phase : Phase}
    (hw : p.phase w = phase) :
    p.view { s with
      nodes := Function.update s.nodes flowId (Function.update (s.nodes flowId) nodeId st)
      worker := w } = { p.view s with phase } := by
  obtain ⟨hr, ht⟩ := updated_node (p := p) hrate htrigger rfl
  unfold view
  dsimp only
  rw [hr, ht, hw]

end

/-! ## Polling -/

theorem pollRow_moved (h : p.In s) (row : Option (Json × Int)) :
    p.Moved s (.pollRow row) (p.view (s.step (.pollRow row))) ∧ p.In (s.step (.pollRow row)) := by
  simp only [FlowState.step]
  split
  · rename_i t tasks hworker
    have haway : p.phase (.afterPoll tasks) = p.phase s.worker := by
      rw [hworker, phase_afterPoll]
      rfl
    have hskip : p.Moved s (.pollRow row) (p.view { s with worker := .afterPoll tasks }) ∧
        p.In { s with worker := .afterPoll tasks } :=
      ⟨.of_eq (view_withWorker haway) rfl, h.withWorker (workerOk_afterPoll tasks)⟩
    split
    · exact hskip
    · rename_i value now
      split
      · exact hskip
      · unfold FlowState.pollRow
        split
        · exact hskip
        · dsimp only
          constructor
          · refine .of_eq ?_ rfl
            let st := s.nodes t.flowId t.nodeId
            refine view_withNode { st with lastInput := value, lastBorn := t.epoch } rfl rfl ?_
            · split
              · rw [hworker]
                rfl
              · exact haway
          · refine h.frame ⟨rfl, rfl, rfl⟩ h.ordered h.queue h.inFlight h.delayed h.events ?_
            dsimp only
            split
            · exact own_of_plain rfl
            · exact workerOk_afterPoll tasks
  · exact ⟨.stay rfl, h⟩

theorem pollInputs_moved (h : p.In s) (due : String → String → Bool) :
    p.Moved s (.pollInputs due) (p.view (s.step (.pollInputs due))) ∧
      p.In (s.step (.pollInputs due)) := by
  simp only [FlowState.step]
  split
  · rename_i hworker _
    refine ⟨.of_eq (view_withWorker ?_) rfl, h.withWorker (workerOk_afterPoll _)⟩
    rw [hworker, phase_afterPoll]
    rfl
  · exact ⟨.stay rfl, h⟩

theorem pollEnqueue_moved (h : p.In s) :
    p.Moved s .pollEnqueue (p.view (s.step .pollEnqueue)) ∧ p.In (s.step .pollEnqueue) := by
  simp only [FlowState.step]
  split
  · rename_i tasks e hworker
    have hown : p.own e = false := by
      have hok := h.worker
      rw [hworker] at hok
      exact hok
    constructor
    · refine .of_eq ?_ rfl
      unfold view
      dsimp only
      rw [hworker, phase_afterPoll]
      rfl
    · refine h.frame ⟨rfl, rfl, rfl⟩ h.ordered (own_append h.queue ?_) h.inFlight h.delayed h.events
        (workerOk_afterPoll tasks)
      intro e' he'
      rw [List.mem_singleton.1 he']
      exact hown
  · exact ⟨.stay rfl, h⟩

/-! ## The queues -/

theorem takeQueue_moved (h : p.In s) (now : Int) :
    p.Moved s (.takeQueue now) (p.view (s.step (.takeQueue now))) ∧
      p.In (s.step (.takeQueue now)) := by
  simp only [FlowState.step]
  split
  · rename_i hworker hevents
    have hview : p.view { s with
        events := s.queue ++ (s.delayed.takeWhile fun x => x.1 ≤ now).map Prod.snd
        queue := [], delayed := s.delayed.dropWhile fun x => x.1 ≤ now } =
        { p.view s with
          delayed := (p.view s).delayed.dropWhile fun x => x.1 ≤ now
          waiting := ((p.view s).delayed.takeWhile fun x => x.1 ≤ now).map Prod.snd } := by
      unfold view
      dsimp only
      rw [List.filter_append, filter_own_nil h.queue, List.nil_append, List.filter_map,
        ← h.ordered.filter_dropWhile, ← h.ordered.filter_takeWhile]
      rfl
    constructor
    · rw [hview]
      refine .take ?_ ?_
      · show p.phase s.worker = _
        rw [hworker]
        rfl
      · show s.events.filter p.own = []
        rw [hevents]
        rfl
    · refine h.frame ⟨rfl, rfl, rfl⟩ (h.ordered.dropWhile _) (fun e he => by cases he) h.inFlight
        (fun x hx => h.delayed x ((List.dropWhile_sublist _).subset hx)) (fun e he hown => ?_)
        (by rw [hworker]; trivial)
      rcases List.mem_append.1 he with hqueue | hdue
      · rw [h.queue e hqueue] at hown
        cases hown
      · obtain ⟨x, hx, rfl⟩ := List.mem_map.1 hdue
        exact h.delayed x ((List.takeWhile_sublist _).subset hx) hown
  · exact ⟨.stay rfl, h⟩

theorem append_moved (h : p.In s) :
    p.Moved s .append (p.view (s.step .append)) ∧ p.In (s.step .append) := by
  simp only [FlowState.step]
  split
  · rename_i e hworker
    have hevents : (s.events ++ s.queue).filter p.own = s.events.filter p.own := by
      rw [List.filter_append, filter_own_nil h.queue, List.append_nil]
    have hphase : (p.view s).phase = if p.here e then .acting e [] else .away := by
      show p.phase s.worker = _
      rw [hworker]
      rfl
    have hview : p.view { s with events := s.events ++ s.queue, queue := [], worker := .idle } =
        { p.view s with phase := .away } := by
      unfold view
      dsimp only
      rw [hevents]
      rfl
    constructor
    · rw [hview]
      split at hphase
      · exact .done hphase
      · refine .of_eq ?_ rfl
        rw [← hphase]
    · refine h.frame ⟨rfl, rfl, rfl⟩ h.ordered (fun e he => by cases he) h.inFlight h.delayed
        (fun e he hown => ?_) trivial
      rcases List.mem_append.1 he with hold | hnew
      · exact h.events e hold hown
      · rw [h.queue e hnew] at hown
        cases hown
  · exact ⟨.stay rfl, h⟩

/-! ## The worker -/

omit [JsonLib] [FlowLib] in
/-- A message of the node is not dropped. -/
theorem enter_own (h : p.In s) {e : QueuedEvent} {rest : List QueuedEvent}
    (he : p.Accepted s e) (hown : p.own e = true) :
    s.enter e rest = { s with events := rest, worker := .entered e p.flow p.node } := by
  obtain ⟨hflow, hnode⟩ := p.here_iff.1 (here_of_own hown)
  have hepoch : ¬ (e.inputEpoch ≠ 0 ∧ s.epoch e.flowId ≠ e.inputEpoch) := by
    rintro ⟨hzero, hne⟩
    rcases he.2 with h0 | hsame
    · exact hzero h0
    · exact hne (by rw [hflow, hsame])
  unfold FlowState.enter
  rw [if_neg (Nat.not_lt.2 he.1), if_neg hepoch, hflow, h.deployed]
  simp [p.enabled, hnode, p.found]

theorem enter_moved (h : p.In s) :
    p.Moved s .enter (p.view (s.step .enter)) ∧ p.In (s.step .enter) := by
  simp only [FlowState.step]
  split
  · rename_i e rest hworker hevents
    have haway : (p.view s).phase = .away := by
      show p.phase s.worker = _
      rw [hworker]
      rfl
    have hrest : ∀ e' ∈ rest, p.own e' = true → p.Accepted s e' := fun e' he' =>
      h.events e' (hevents ▸ List.mem_cons_of_mem _ he')
    by_cases hown : p.own e = true
    · have haccepted := h.events e (hevents ▸ List.mem_cons_self) hown
      rw [enter_own h haccepted hown]
      have hhere := here_of_own hown
      have hview : p.view { s with events := rest, worker := .entered e p.flow p.node } =
          { p.view s with waiting := rest.filter p.own, phase := .entered e } := by
        unfold view phase
        dsimp only
        rw [if_pos hhere]
      constructor
      · rw [hview]
        refine .own haway ?_ hown
        show s.events.filter p.own = _
        rw [hevents, List.filter_cons_of_pos hown]
      · refine h.frame ⟨rfl, rfl, rfl⟩ h.ordered h.queue h.inFlight h.delayed hrest fun _ => ?_
        exact ⟨rfl, (p.here_iff.1 hhere).2 ▸ p.found, haccepted.2⟩
    · obtain ⟨w, errors, heq, -, hw⟩ := enter_spec s e rest
      have hview : p.view { s with events := rest, worker := w, hopErrors := errors } =
          { p.view s with phase := p.phase w } := by
        unfold view
        dsimp only
        rw [hevents, List.filter_cons_of_neg hown]
      rw [heq]
      constructor
      · rw [hview]
        by_cases hhere : p.here e = true
        · refine .input haway (Bool.eq_false_iff.2 hown) ?_
          rcases hw with rfl | ⟨g, m, rfl, -⟩
          · exact .inr (if_pos hhere)
          · exact .inl (if_pos hhere)
        · have hphase : p.phase w = .away := by
            rcases hw with rfl | ⟨g, m, rfl, -⟩
            · exact if_neg hhere
            · exact if_neg hhere
          refine .of_eq ?_ rfl
          rw [hphase, ← haway]
      · refine h.frame ⟨rfl, rfl, rfl⟩ h.ordered h.queue h.inFlight h.delayed hrest ?_
        rcases hw with rfl | ⟨g, m, rfl, hlookup, hnode, hepoch⟩
        · exact fun a ha => by cases ha
        · intro hflow
          rw [hflow, h.deployed] at hlookup
          rw [hflow] at hepoch
          exact ⟨(Option.some.inj hlookup).symm, hnode, hepoch⟩
  · exact ⟨.stay rfl, h⟩

omit [JsonLib] [FlowLib] in
/-- The calls of an event leave the node's messages alone, or send one of the node's own. -/
theorem callOk_of_allowed {e : QueuedEvent} {g : FlowDef} {m : FlowNode} {st : NodeState}
    (hw : p.WorkerOk s (.entered e g m)) {a : Action} (ha : a.Allowed g m.type e st)
    (hhops : p.here e = true → p.back a = true → e.hops < s.maxEventHops) : p.CallOk s e a := by
  have halong : ∀ {output : FlowEvent} {edge : FlowEdge}, edge ∈ g.edgesOf e.nodeId →
      p.own (e.along output edge) = false := by
    intro output edge hedge
    by_cases hflow : e.flowId = p.flowId
    · obtain ⟨rfl, -⟩ := hw hflow
      exact own_along (List.mem_filter.1 hedge).1
    · exact own_of_flow hflow
  have hagain : ∀ {output : FlowEvent} {port : String}, p.here e = true →
      e.hops < s.maxEventHops → p.Accepted s (e.again output port) := by
    intro output port hhere hlt
    exact ⟨hlt, (hw (p.here_iff.1 hhere).1).2.2⟩
  cases a with
  | enqueue e' =>
    obtain ⟨output, edge, hedge, rfl, -⟩ := ha
    exact halong hedge
  | enqueueDelayed e' due =>
    intro hown
    rcases ha with ⟨output, edge, hedge, rfl, -⟩ | ⟨output, port, rfl, -⟩
    · rw [halong hedge] at hown
      cases hown
    · have hsame : p.here (e.again output port) = true := here_of_own hown
      have hhere : p.here e = true := hsame
      exact ⟨hhere, hagain hhere (hhops hhere hown)⟩
  | replaceTriggerTimer e' due =>
    obtain ⟨output, port, rfl, -, -, hport⟩ := ha
    refine ⟨rfl, rfl, fun hhere => ?_⟩
    obtain ⟨hflow, hnode⟩ := p.here_iff.1 hhere
    obtain ⟨rfl, hfound, -⟩ := hw hflow
    rw [hnode, p.found] at hfound
    obtain rfl := Option.some.inj hfound
    have hown : p.own (e.again output port) = true := by
      have hsame : p.here (e.again output port) = true := hhere
      have hrelease : p.node.type.releases (e.again output port).inputPort = false := hport
      rw [own, hsame, hrelease]
      rfl
    exact ⟨hown, hagain hhere (hhops hhere hown)⟩
  | _ => trivial

theorem work_moved (h : p.In s) {now : Int} (hhops : p.HopsLeft s (.work now)) :
    p.Moved s (.work now) (p.view (s.step (.work now))) ∧ p.In (s.step (.work now)) := by
  simp only [FlowState.step]
  split
  · rename_i e g m hworker
    have hok := h.worker
    rw [hworker] at hok
    have hallowed := (nodeStep_spec g m.type now e (s.nodes e.flowId e.nodeId)).1
    by_cases hhere : p.here e = true
    · obtain ⟨hflow, hnode⟩ := p.here_iff.1 hhere
      obtain ⟨rfl, hfound, -⟩ := hok hflow
      rw [hnode, p.found] at hfound
      obtain rfl := Option.some.inj hfound
      have hvisit : p.visit s (.work now) = some ⟨now, e, s.nodes p.flowId p.nodeId⟩ := by
        simp [visit, hworker, hhere]
      have hphase : (p.view s).phase = .entered e := by
        show p.phase s.worker = _
        rw [hworker]
        exact if_pos hhere
      rw [hflow, hnode] at hallowed ⊢
      constructor
      · have hview := Moved.work hvisit hphase
        refine Eq.mp (congrArg (p.Moved s (.work now)) ?_) hview
        unfold view phase
        dsimp only
        rw [Function.update_self, Function.update_self, if_pos hhere]
        rfl
      · refine h.frame ⟨rfl, rfl, rfl⟩ h.ordered h.queue h.inFlight h.delayed h.events ?_
        exact fun a ha => callOk_of_allowed hok (hallowed a ha) fun _ hback =>
          hhops _ hvisit ⟨a, ha, hback⟩
    · have hother : ∀ st, Function.update s.nodes e.flowId
          (Function.update (s.nodes e.flowId) e.nodeId st) p.flowId p.nodeId =
            s.nodes p.flowId p.nodeId := by
        intro st
        by_cases hflow : p.flowId = e.flowId
        · rw [← hflow, Function.update_self, Function.update_of_ne]
          exact fun hnode => hhere (p.here_iff.2 ⟨hflow.symm, hnode.symm⟩)
        · rw [Function.update_of_ne hflow]
      constructor
      · refine .of_eq ?_ (by simp [visit, hworker, hhere])
        unfold view
        dsimp only
        rw [hother, hworker]
        simp only [phase, if_neg hhere]
      · refine h.frame ⟨rfl, rfl, rfl⟩ h.ordered h.queue h.inFlight h.delayed h.events ?_
        exact fun a ha => callOk_of_allowed hok (hallowed a ha) fun hhere' =>
          absurd hhere' hhere
  · rename_i hworker
    refine ⟨.stay ?_, h⟩
    unfold visit
    dsimp only
    split
    · rename_i e g m heq
      exact (hworker e g m heq).elim
    · rfl

section
omit [JsonLib] [FlowLib]

theorem filter_insertDelayed {l : List (Int × QueuedEvent)} (h : AscendingBy Prod.fst l) (due : Int)
    (e : QueuedEvent) :
    (insertDelayed due e l).filter (fun x => p.own x.2) =
      if p.own e then insertDelayed due e (l.filter fun x => p.own x.2)
      else l.filter fun x => p.own x.2 :=
  h.filter_insertBy (fun x => p.own x.2) (due, e)

theorem ordered_insertDelayed {l : List (Int × QueuedEvent)} (h : AscendingBy Prod.fst l) (due : Int)
    (e : QueuedEvent) : AscendingBy Prod.fst (insertDelayed due e l) :=
  h.insertBy (due, e)

/-- The timer of another node is none of the node's messages. -/
theorem own_other_timer {e e' : QueuedEvent} (hflow : e'.flowId = e.flowId)
    (hnode : e'.nodeId = e.nodeId) (hhere : ¬ p.here e = true) {x : QueuedEvent}
    (hx : p.own x = true) : sameTimer e' x = false := by
  obtain ⟨hxflow, hxnode⟩ := p.here_iff.1 (here_of_own hx)
  have hne : ¬ (p.flowId = e.flowId ∧ p.nodeId = e.nodeId) := fun ⟨h1, h2⟩ =>
    hhere (p.here_iff.2 ⟨h1.symm, h2.symm⟩)
  rw [sameTimer, hxflow, hxnode, hflow, hnode]
  by_cases h1 : p.flowId = e.flowId
  · have h2 : p.nodeId ≠ e.nodeId := fun h2 => hne ⟨h1, h2⟩
    simp [h2]
  · simp [h1]

theorem filter_other_timer {e e' : QueuedEvent} (hflow : e'.flowId = e.flowId)
    (hnode : e'.nodeId = e.nodeId) (hhere : ¬ p.here e = true) (l : List (Int × QueuedEvent)) :
    (l.filter fun x => !sameTimer e' x.2).filter (fun x => p.own x.2) =
      l.filter fun x => p.own x.2 := by
  rw [List.filter_filter]
  refine List.filter_congr fun x _ => ?_
  by_cases hx : p.own x.2 = true
  · rw [hx, own_other_timer hflow hnode hhere hx]
    rfl
  · rw [Bool.not_eq_true] at hx
    rw [hx]
    rfl

end

/-- A step that shows in the view only when the worker is inside the node. -/
theorem Moved.call_or_stay {e : QueuedEvent} {a : Action} {rest rest' : List Action} {v : View}
    (hworker : s.worker = .acting e (a :: rest)) (hback : p.here e = true → p.back a = false)
    (hrest : rest' = rest ∨ a.bounded = true ∧ rest' = [])
    (hview : v = { p.view s with phase := p.phase (.acting e rest') }) : p.Moved s .act v := by
  by_cases hhere : p.here e = true
  · have hphase : (p.view s).phase = .acting e (a :: rest) := by
      show p.phase s.worker = _
      rw [hworker]
      exact if_pos hhere
    have hnext : p.phase (.acting e rest') = .acting e rest' := if_pos hhere
    rw [hview, hnext]
    exact .call hphase (hback hhere) hrest
  · have hphase : p.phase s.worker = .away := by
      rw [hworker]
      exact if_neg hhere
    have hnext : p.phase (.acting e rest') = .away := if_neg hhere
    refine .of_eq ?_ rfl
    rw [hview, hnext, ← hphase]
    rfl

theorem act_moved (h : p.In s) : p.Moved s .act (p.view (s.step .act)) ∧ p.In (s.step .act) := by
  simp only [FlowState.step]
  split
  · rename_i e a rest hworker
    have hok : ∀ b ∈ a :: rest, p.CallOk s e b := by
      have hall := h.worker
      rw [hworker] at hall
      exact hall
    have ha := hok a List.mem_cons_self
    have hleft : p.WorkerOk s (.acting e rest) := fun b hb => hok b (List.mem_cons_of_mem _ hb)
    have hnone : p.WorkerOk s (.acting e []) := fun b hb => by cases hb
    have hphase : p.here e = true → (p.view s).phase = .acting e (a :: rest) := by
      intro hhere
      show p.phase s.worker = _
      rw [hworker]
      exact if_pos hhere
    have hnext : p.here e = true → ∀ r, p.phase (.acting e r) = .acting e r := fun hhere _ =>
      if_pos hhere
    cases a with
    | enqueue e' =>
      refine ⟨.call_or_stay hworker (fun _ => rfl) (.inl rfl) rfl, ?_⟩
      refine h.frame ⟨rfl, rfl, rfl⟩ h.ordered (own_append h.queue fun e'' he => ?_) h.inFlight
        h.delayed h.events hleft
      rw [List.mem_singleton.1 he]
      exact ha
    | enqueueDelayed e' due =>
      simp only [FlowState.perform]
      split
      · rename_i hfull
        refine ⟨?_, h.withWorker hnone⟩
        by_cases hown : p.own e' = true
        · have hmoved := Moved.delayedFull (hphase (ha hown).1) hown hfull
          rw [← hnext (ha hown).1] at hmoved
          exact hmoved
        · exact .call_or_stay hworker (fun _ => Bool.eq_false_iff.2 hown) (.inr ⟨rfl, rfl⟩) rfl
      · rename_i hroom
        have hfilter := filter_insertDelayed (p := p) h.ordered due e'
        constructor
        · by_cases hown : p.own e' = true
          · have hmoved := Moved.delayed (hphase (ha hown).1) hown (not_le.1 hroom)
            rw [if_pos hown] at hfilter
            refine Eq.mp (congrArg (p.Moved s .act) ?_) hmoved
            unfold view
            dsimp only
            rw [hfilter, if_pos rfl, hnext (ha hown).1]
          · refine .call_or_stay hworker (fun _ => Bool.eq_false_iff.2 hown) (.inl rfl) ?_
            rw [if_neg hown] at hfilter
            unfold view
            dsimp only
            rw [hfilter, if_pos rfl]
        · refine h.frame ⟨rfl, rfl, rfl⟩ (ordered_insertDelayed h.ordered due e') h.queue h.inFlight
            (fun x hx hown => ?_) h.events hleft
          rcases List.mem_cons.1 ((insertDelayed_perm ..).mem_iff.1 hx) with rfl | hold
          · exact (ha hown).2
          · exact h.delayed x hold hown
    | replaceTriggerTimer e' due =>
      obtain ⟨hflow, hnode, hsend⟩ := ha
      have hkept := fun x (hx : x ∈ s.delayed.filter fun x => !sameTimer e' x.2) =>
        h.delayed x (List.mem_filter.1 hx).1
      have hordered := h.ordered.filter fun x => !sameTimer e' x.2
      have hcomm : (s.delayed.filter fun x => !sameTimer e' x.2).filter (fun x => p.own x.2) =
          (p.view s).delayed.filter fun x => !sameTimer e' x.2 := by
        show _ = (s.delayed.filter fun x => p.own x.2).filter _
        rw [List.filter_filter, List.filter_filter]
        exact List.filter_congr fun x _ => Bool.and_comm _ _
      have hback : p.here e = true → p.own e' = true := fun hhere => (hsend hhere).1
      have hnotown : ¬ p.here e = true → ¬ p.own e' = true := fun hhere hown => by
        have hhere' := here_of_own hown
        rw [here_iff, hflow, hnode, ← here_iff] at hhere'
        exact hhere hhere'
      simp only [FlowState.perform]
      split
      · rename_i hfull
        constructor
        · by_cases hhere : p.here e = true
          · have hmoved := Moved.timerFull (hphase hhere) (hback hhere) hfull
            refine Eq.mp (congrArg (p.Moved s .act) ?_) hmoved
            unfold view
            dsimp only
            rw [hcomm, if_neg Bool.false_ne_true, hnext hhere]
            rfl
          · refine .call_or_stay hworker (fun h' => absurd h' hhere) (.inr ⟨rfl, rfl⟩) ?_
            unfold view
            dsimp only
            rw [filter_other_timer hflow hnode hhere, if_neg Bool.false_ne_true]
        · exact h.frame ⟨rfl, rfl, rfl⟩ hordered h.queue h.inFlight hkept h.events hnone
      · rename_i hroom
        have hfilter := filter_insertDelayed (p := p) hordered due e'
        constructor
        · by_cases hhere : p.here e = true
          · have hmoved := Moved.timer (hphase hhere) (hback hhere) (not_le.1 hroom)
            rw [if_pos (hback hhere), hcomm] at hfilter
            refine Eq.mp (congrArg (p.Moved s .act) ?_) hmoved
            unfold view
            dsimp only
            rw [hfilter, if_pos rfl, hnext hhere]
            rfl
          · refine .call_or_stay hworker (fun h' => absurd h' hhere) (.inl rfl) ?_
            rw [if_neg (hnotown hhere), filter_other_timer hflow hnode hhere] at hfilter
            unfold view
            dsimp only
            rw [hfilter, if_pos rfl]
        · refine h.frame ⟨rfl, rfl, rfl⟩ (ordered_insertDelayed hordered due e') h.queue h.inFlight
            (fun x hx hown => ?_) h.events hleft
          rcases List.mem_cons.1 ((insertDelayed_perm ..).mem_iff.1 hx) with rfl | hold
          · by_cases hhere : p.here e = true
            · exact (hsend hhere).2
            · exact absurd hown (hnotown hhere)
          · exact hkept x hold hown
    | emailValue nodeId value born =>
      refine ⟨.call_or_stay hworker (fun _ => rfl) (.inl rfl) ?_, ?_⟩
      · let st := s.nodes e.flowId nodeId
        exact view_withNode { st with email := { st.email with value, born } } rfl rfl rfl
      · exact h.frame ⟨rfl, rfl, rfl⟩ h.ordered h.queue h.inFlight h.delayed h.events hleft
    | writeTag connectionId tagName value =>
      exact ⟨.call_or_stay hworker (fun _ => rfl) (.inl rfl) rfl, h.withWorker hleft⟩
    | publish connectionId topic payload =>
      exact ⟨.call_or_stay hworker (fun _ => rfl) (.inl rfl) rfl, h.withWorker hleft⟩
    | sendEmail to_ transition =>
      exact ⟨.call_or_stay hworker (fun _ => rfl) (.inl rfl) rfl, h.withWorker hleft⟩
    | mark status =>
      exact ⟨.call_or_stay hworker (fun _ => rfl) (.inl rfl) rfl, h.withWorker hleft⟩
    | status text =>
      exact ⟨.call_or_stay hworker (fun _ => rfl) (.inl rfl) rfl, h.withWorker hleft⟩
    | reject error =>
      exact ⟨.call_or_stay hworker (fun _ => rfl) (.inl rfl) rfl, h.withWorker hleft⟩
  · exact ⟨.stay rfl, h⟩

/-! ## The other threads -/

theorem addInFlight_moved (h : p.In s) {e : FlowStep} {new : List QueuedEvent}
    (hnew : ∀ e ∈ new, e.inputPort = "") (hvisit : p.visit s e = none) :
    p.Moved s e (p.view { s with inFlight := s.inFlight ++ new }) ∧
      p.In { s with inFlight := s.inFlight ++ new } := by
  refine ⟨.stay hvisit, ?_⟩
  exact h.frame ⟨rfl, rfl, rfl⟩ h.ordered h.queue
    (own_append h.inFlight fun e he => own_of_plain (hnew e he)) h.delayed h.events h.worker

omit [JsonLib] [FlowLib] in
theorem mqttEvents_plain {connectionId : String} {matched : String → Bool}
    {extract : NodeType → Option Json} {now : Int} :
    ∀ e ∈ s.mqttEvents connectionId matched extract now, e.inputPort = "" := by
  intro e he
  obtain ⟨x, -, hx⟩ := List.mem_flatMap.1 he
  obtain ⟨n, -, hn⟩ := List.mem_filterMap.1 hx
  split at hn
  · split at hn
    · obtain ⟨value, -, rfl⟩ := Option.map_eq_some_iff.1 hn
      rfl
    · cases hn
  · cases hn

omit [JsonLib] [FlowLib] in
theorem injected_plain {flowId nodeId : String} {value : Json} {now : Int} :
    ∀ e ∈ s.injected flowId nodeId value now, e.inputPort = "" := by
  intro e he
  unfold FlowState.injected at he
  split at he
  · cases he
  · split at he
    · cases he
    · rw [List.mem_singleton.1 he]

theorem handOver_moved (h : p.In s) (i : Nat) :
    p.Moved s (.handOver i) (p.view (s.step (.handOver i))) ∧ p.In (s.step (.handOver i)) := by
  simp only [FlowState.step]
  split
  · exact ⟨.stay rfl, h⟩
  · rename_i e he
    refine ⟨.stay rfl, ?_⟩
    refine h.frame ⟨rfl, rfl, rfl⟩ h.ordered (own_append h.queue fun e' he' => ?_)
      (fun e' he' => h.inFlight e' (List.mem_of_mem_eraseIdx he')) h.delayed h.events h.worker
    rw [List.mem_singleton.1 he']
    exact h.inFlight e (List.mem_of_getElem? he)

/-- An installation for another flow. -/
theorem install_moved (h : p.In s) {e : FlowStep} {id : String} (hid : id ≠ p.flowId)
    {next : List (String × FlowDef)} (hnext : next.lookup p.flowId = some p.flow)
    {nodes : String → NodeState} {clearing replaced : String → Bool}
    (hvisit : p.visit s e = none) :
    p.Moved s e (p.view { s with
      deployed := next
      epoch := Function.update s.epoch id (s.epoch id + 1)
      nodes := Function.update s.nodes id nodes
      clearing, replaced }) ∧
    p.In { s with
      deployed := next
      epoch := Function.update s.epoch id (s.epoch id + 1)
      nodes := Function.update s.nodes id nodes
      clearing, replaced } := by
  constructor
  · refine .of_eq ?_ hvisit
    unfold view
    dsimp only
    rw [Function.update_of_ne hid.symm]
  · refine h.frame ⟨hnext.trans h.deployed.symm, ?_, rfl⟩ h.ordered h.queue h.inFlight h.delayed
      h.events h.worker
    exact Function.update_of_ne hid.symm _ _

theorem clearQueued_moved (h : p.In s) {id : String} (hid : id ≠ p.flowId) :
    p.Moved s (.clearQueued id) (p.view (s.step (.clearQueued id))) ∧
      p.In (s.step (.clearQueued id)) := by
  simp only [FlowState.step]
  have hkept : (s.delayed.filter fun x => x.2.flowId != id).filter (fun x => p.own x.2) =
      s.delayed.filter fun x => p.own x.2 := by
    rw [List.filter_filter]
    refine List.filter_congr fun x _ => ?_
    by_cases hown : p.own x.2 = true
    · rw [hown, (p.here_iff.1 (here_of_own hown)).1]
      simpa using hid.symm
    · rw [Bool.not_eq_true] at hown
      rw [hown]
      rfl
  constructor
  · refine .of_eq ?_ rfl
    unfold view
    dsimp only
    rw [hkept]
  · exact h.frame ⟨rfl, rfl, rfl⟩ (h.ordered.filter _)
      (fun e he => h.queue e (List.mem_filter.1 he).1) h.inFlight
      (fun x hx => h.delayed x (List.mem_filter.1 hx).1) h.events h.worker

/-! ## Every step -/

/-- **The step lemma.** -/
theorem step_moved (h : p.In s) {e : FlowStep} (hstays : p.Stays e) (hhops : p.HopsLeft s e) :
    p.Moved s e (p.view (s.step e)) ∧ p.In (s.step e) := by
  cases e with
  | pollInputs due => exact pollInputs_moved h due
  | pollRow row => exact pollRow_moved h row
  | pollEnqueue => exact pollEnqueue_moved h
  | takeQueue now => exact takeQueue_moved h now
  | enter => exact enter_moved h
  | work now => exact work_moved h hhops
  | act => exact act_moved h
  | append => exact append_moved h
  | mqttMessage connectionId matched extract now => exact addInFlight_moved h mqttEvents_plain rfl
  | inject flowId nodeId value now => exact addInFlight_moved h injected_plain rfl
  | handOver i => exact handOver_moved h i
  | deploy id f next => exact install_moved h hstays.1 hstays.2 rfl
  | disable id next => exact install_moved h hstays.1 hstays.2 rfl
  | clearQueued id => exact clearQueued_moved h hstays

omit [JsonLib] [FlowLib] in
theorem visit_state {e : FlowStep} {v : Visit} (h : p.visit s e = some v) :
    v.state = s.nodes p.flowId p.nodeId ∧ ∃ now, e = .work now ∧ v.now = now := by
  unfold visit at h
  split at h
  · split at h
    · split at h
      · obtain rfl := Option.some.inj h
        exact ⟨rfl, _, rfl, rfl⟩
      · cases h
    · cases h
  · cases h

section
omit [JsonLib] [FlowLib]

theorem visit_here {e : FlowStep} {v : Visit} (h : p.visit s e = some v) : p.here v.event = true := by
  unfold visit at h
  split at h
  · split at h
    · split at h
      · obtain rfl := Option.some.inj h
        assumption
      · cases h
    · cases h
  · cases h

theorem visit_phase {e : FlowStep} {v : Visit} (h : p.visit s e = some v) :
    (p.view s).phase = .entered v.event := by
  show p.phase s.worker = _
  unfold visit at h
  split at h
  · split at h
    · rename_i q g m hworker
      split at h
      · rename_i hhere
        obtain rfl := Option.some.inj h
        rw [hworker]
        exact if_pos hhere
      · cases h
    · cases h
  · cases h

theorem worker_of_phase {w : Worker} {q : QueuedEvent} {rest : List Action}
    (h : p.phase w = .acting q rest) : w = .acting q rest := by
  unfold phase at h
  split at h
  · split at h
    · cases h
    · cases h
  · split at h
    · cases h
      rfl
    · cases h
  · cases h

theorem back_bounded {a : Action} (h : p.back a = true) : a.bounded = true := by
  cases a with
  | enqueueDelayed e' due => rfl
  | replaceTriggerTimer e' due => rfl
  | _ => cases h

end

omit [JsonLib] [FlowLib] in
/-- The node's messages in all queues are those of the view. -/
theorem filter_messages (hs : p.In s) :
    s.messages.filter p.own = (p.view s).delayed.map Prod.snd ++ (p.view s).waiting := by
  have hdelayed : (s.delayed.map Prod.snd).filter p.own = (p.view s).delayed.map Prod.snd := by
    rw [List.filter_map]
    rfl
  rw [FlowState.messages, List.filter_append, List.filter_append, hdelayed, filter_own_nil hs.queue,
    List.append_nil]
  rfl

omit [JsonLib] [FlowLib] in
theorem mem_messages (hs : p.In s) {e : QueuedEvent} :
    (e ∈ s.messages ∧ p.own e = true) ↔
      e ∈ (p.view s).delayed.map Prod.snd ++ (p.view s).waiting := by
  rw [← filter_messages hs, List.mem_filter]

omit [JsonLib] [FlowLib] in
theorem calm_spec {e : FlowStep} (h : p.calm s e = true) : p.Stays e ∧
    (∀ v, p.visit s e = some v → v.event.hops < s.maxEventHops) ∧
    s.delayed.length < delayedLimit := by
  simp only [calm, Bool.and_eq_true, decide_eq_true_eq] at h
  obtain ⟨⟨hstep, hhops⟩, hroom⟩ := h
  refine ⟨?_, fun v hv => ?_, hroom⟩
  · cases e with
    | deploy _ _ _ => cases hstep
    | disable _ _ => cases hstep
    | clearQueued _ => cases hstep
    | _ => trivial
  · rw [hv] at hhops
    simpa using hhops

omit [JsonLib] [FlowLib] in
/-- A service that has loaded its flows. -/
theorem load_in (p : Site) (maxEventHops : Nat) {deployed : List (String × FlowDef)}
    (h : deployed.lookup p.flowId = some p.flow) : p.In (.load maxEventHops deployed) where
  deployed := h
  ordered := List.Pairwise.nil
  queue := fun _ he => by cases he
  inFlight := fun _ he => by cases he
  delayed := fun _ hx => by cases hx
  events := fun _ he => by cases he
  worker := trivial

omit [JsonLib] [FlowLib] in
theorem load_atRest (p : Site) (maxEventHops : Nat) (deployed : List (String × FlowDef)) :
    p.AtRest (.load maxEventHops deployed) where
  away := rfl
  delayed := fun _ hx => by cases hx
  events := fun _ he => by cases he

end Site

/-! ## The delayed queue -/

/-- Ordered by time, and not too many. -/
structure DelayedOk (l : List (Int × QueuedEvent)) : Prop where
  ordered : AscendingBy Prod.fst l
  bounded : l.length ≤ delayedLimit

section
omit [JsonLib] [FlowLib]
variable {l : List (Int × QueuedEvent)} (h : DelayedOk l)
include h

theorem DelayedOk.filter (q : Int × QueuedEvent → Bool) : DelayedOk (l.filter q) :=
  ⟨h.ordered.filter q, (List.length_filter_le ..).trans h.bounded⟩

theorem DelayedOk.insert (hroom : ¬ delayedLimit ≤ l.length) (due : Int) (e : QueuedEvent) :
    DelayedOk (insertDelayed due e l) :=
  ⟨Site.ordered_insertDelayed h.ordered due e,
    (insertDelayed_perm ..).length_eq.trans_le (Nat.lt_of_not_le hroom)⟩

end

omit [JsonLib] [FlowLib] in
theorem perform_delayed {s : FlowState} (h : DelayedOk s.delayed) (id : String) (a : Action) :
    DelayedOk (s.perform id a).1.delayed := by
  cases a with
  | enqueueDelayed e due =>
    simp only [FlowState.perform]
    split
    · exact h
    · exact h.insert ‹_› due e
  | replaceTriggerTimer e due =>
    simp only [FlowState.perform]
    split
    · exact h.filter _
    · exact (h.filter _).insert ‹_› due e
  | _ => exact h

theorem step_delayed (s : FlowState) (e : FlowStep) (h : DelayedOk s.delayed) :
    DelayedOk (s.step e).delayed := by
  cases e with
  | takeQueue now =>
    simp only [FlowState.step]
    split
    · exact ⟨h.ordered.dropWhile _, (List.dropWhile_sublist _).length_le.trans h.bounded⟩
    · exact h
  | act =>
    simp only [FlowState.step]
    split
    · exact perform_delayed h _ _
    · exact h
  | clearQueued id => exact h.filter _
  | _ =>
    simp only [FlowState.step, FlowState.pollRow, FlowState.enter]
    repeat' split
    all_goals exact h

end OpcBridge.Flow
