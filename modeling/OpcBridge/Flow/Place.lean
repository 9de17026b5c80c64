import OpcBridge.Flow.NodeRun
import OpcBridge.Lib.History

/-!
# One node of a deployed flow over a run

`Runs` says what the worker may be doing while the flow stays deployed: it enters the node with the
flow as it is deployed, and the calls that it has left are the last ones of some event. `runs_step`
keeps it, whatever the other flows and the other threads do.
-/

namespace OpcBridge.Flow

open OpcBridge OpcBridge.Alarms Lib

variable [Floats] [JsonLib] [FlowLib]

/-- A node of a flow. -/
structure Place where
  flowId : String
  nodeId : String
  flow : FlowDef
  node : FlowNode
  found : flow.node nodeId = some node

namespace Place

variable (p : Place)

section
omit [JsonLib] [FlowLib]

/-- An event for the node. -/
def here (e : QueuedEvent) : Bool := e.flowId == p.flowId && e.nodeId == p.nodeId

theorem here_iff {e : QueuedEvent} :
    p.here e = true ↔ e.flowId = p.flowId ∧ e.nodeId = p.nodeId := by
  simp [here]

/-- What the service keeps for the node. -/
def state (s : FlowState) : NodeState := s.nodes p.flowId p.nodeId

/-- The calls that the worker has left inside the node. -/
def pending : Worker → List Action
  | .acting e rest => if p.here e then rest else []
  | _ => []

/-- The flow stays deployed as it is. -/
def Stays : FlowStep → Prop
  | .deploy id g next => id ≠ p.flowId ∧ (putFlow id g next).lookup p.flowId = some p.flow
  | .disable id next => id ≠ p.flowId ∧
      (next.filter fun x => x.1 != id).lookup p.flowId = some p.flow
  | _ => True

/-- The section of `process_event` at the node. -/
def visit (s : FlowState) : FlowStep → Option Visit
  | .work now =>
    match s.worker with
    | .entered e _ _ => if p.here e then some ⟨now, e, p.state s⟩ else none
    | _ => none
  | _ => none

end

/-- What the visit does. -/
def result (v : Visit) : NodeState × List Action :=
  nodeStep p.flow p.node.type v.now v.event v.state

/-- The calls that are left of an event. -/
def Left (e : QueuedEvent) (rest : List Action) : Prop :=
  ∃ g m now st, rest <:+ (nodeStep g m now e st).2 ∧
    (p.here e = true → g = p.flow ∧ m = p.node.type)

/-- What the worker may be doing. -/
def WorkerOk : Worker → Prop
  | .entered e g m => e.flowId = p.flowId → g = p.flow ∧ g.node e.nodeId = some m
  | .acting e rest => p.Left e rest
  | _ => True

/-- What holds of the service while the flow stays deployed. -/
structure Runs (s : FlowState) : Prop where
  deployed : s.deployed.lookup p.flowId = some p.flow
  worker : p.WorkerOk s.worker

variable {p : Place} {s s' : FlowState}

theorem left_nil (e : QueuedEvent) : p.Left e [] :=
  ⟨p.flow, p.node.type, 0, {}, List.nil_suffix, fun _ => ⟨rfl, rfl⟩⟩

theorem Left.tail {e : QueuedEvent} {a : Action} {rest : List Action} (h : p.Left e (a :: rest)) :
    p.Left e rest := by
  obtain ⟨g, m, now, st, hsuffix, hhere⟩ := h
  exact ⟨g, m, now, st, (List.suffix_cons a rest).trans hsuffix, hhere⟩

/-- A call that is left is one that the node may make. -/
theorem Left.allowed {e : QueuedEvent} {rest : List Action} (h : p.Left e rest) {a : Action}
    (ha : a ∈ rest) : ∃ g m st, a.Allowed g m e st := by
  obtain ⟨g, m, now, st, hsuffix, -⟩ := h
  exact ⟨g, m, st, (nodeStep_spec g m now e st).1 a (hsuffix.subset ha)⟩

theorem workerOk_afterPoll (tasks : List PollTask) : p.WorkerOk (.afterPoll tasks) := by
  cases tasks <;> trivial

omit [JsonLib] [FlowLib] in
theorem pending_afterPoll (tasks : List PollTask) : p.pending (.afterPoll tasks) = [] := by
  cases tasks <;> rfl

theorem Runs.withWorker (h : p.Runs s) (hdeployed : s'.deployed = s.deployed)
    (hworker : p.WorkerOk s'.worker) : p.Runs s' where
  deployed := by rw [hdeployed, h.deployed]
  worker := hworker

omit [JsonLib] [FlowLib] in
theorem perform_same (s : FlowState) (flowId : String) (a : Action) :
    (s.perform flowId a).1.deployed = s.deployed := by
  cases a with
  | enqueueDelayed e due =>
    simp only [FlowState.perform]
    split <;> rfl
  | replaceTriggerTimer e due =>
    simp only [FlowState.perform]
    split <;> rfl
  | _ => rfl

/-! ## Steps of the worker -/

theorem Runs.poll (h : p.Runs s) (row : Option (Json × Int)) :
    p.Runs (s.step (.pollRow row)) := by
  simp only [FlowState.step]
  split
  · rename_i t tasks hworker
    have hskip : p.Runs { s with worker := .afterPoll tasks } :=
      h.withWorker rfl (workerOk_afterPoll tasks)
    split
    · exact hskip
    · split
      · exact hskip
      · unfold FlowState.pollRow
        split
        · exact hskip
        · refine h.withWorker rfl ?_
          dsimp only
          split
          · trivial
          · exact workerOk_afterPoll tasks
  · exact h

theorem Runs.enter (h : p.Runs s) : p.Runs (s.step .enter) := by
  simp only [FlowState.step]
  split
  · rename_i e rest hworker hevents
    obtain ⟨w, errors, heq, -, hw⟩ := enter_spec s e rest
    rw [heq]
    refine h.withWorker rfl ?_
    rcases hw with rfl | ⟨g, m, rfl, hlookup, hnode, -⟩
    · exact left_nil e
    · intro hflow
      rw [hflow, h.deployed] at hlookup
      exact ⟨(Option.some.inj hlookup).symm, hnode⟩
  · exact h

/-- The worker is inside the node with the flow as it is deployed. -/
theorem Runs.entered (h : p.Runs s) {e : QueuedEvent} {g : FlowDef} {m : FlowNode}
    (hworker : s.worker = .entered e g m) (hhere : p.here e = true) : g = p.flow ∧ m = p.node := by
  obtain ⟨hflow, hnode⟩ := p.here_iff.1 hhere
  have hok := h.worker
  rw [hworker] at hok
  obtain ⟨rfl, hfound⟩ := hok hflow
  rw [hnode, p.found] at hfound
  exact ⟨rfl, (Option.some.inj hfound).symm⟩

theorem Runs.work (h : p.Runs s) (now : Int) : p.Runs (s.step (.work now)) := by
  simp only [FlowState.step]
  split
  · rename_i e g m hworker
    refine h.withWorker rfl ?_
    refine ⟨g, m.type, now, s.nodes e.flowId e.nodeId, List.suffix_refl _, fun hhere => ?_⟩
    obtain ⟨rfl, rfl⟩ := h.entered hworker hhere
    exact ⟨rfl, rfl⟩
  · exact h

theorem Runs.act (h : p.Runs s) : p.Runs (s.step .act) := by
  simp only [FlowState.step]
  split
  · rename_i e a rest hworker
    have hok := h.worker
    rw [hworker] at hok
    refine h.withWorker (perform_same s e.flowId a) ?_
    dsimp only
    split
    · exact hok.tail
    · exact left_nil e
  · exact h

/-- **The step lemma.** -/
theorem Runs.step (h : p.Runs s) {e : FlowStep} (hstays : p.Stays e) : p.Runs (s.step e) := by
  cases e with
  | pollInputs due =>
    simp only [FlowState.step]
    split
    · exact h.withWorker rfl (workerOk_afterPoll _)
    · exact h
  | pollRow row => exact h.poll row
  | pollEnqueue =>
    simp only [FlowState.step]
    split
    · exact h.withWorker rfl (workerOk_afterPoll _)
    · exact h
  | takeQueue now =>
    simp only [FlowState.step]
    split
    · exact h.withWorker rfl h.worker
    · exact h
  | enter => exact h.enter
  | work now => exact h.work now
  | act => exact h.act
  | append =>
    simp only [FlowState.step]
    split
    · exact h.withWorker rfl trivial
    · exact h
  | mqttMessage connectionId matched extract now => exact h.withWorker rfl h.worker
  | inject flowId nodeId value now => exact h.withWorker rfl h.worker
  | handOver i =>
    simp only [FlowState.step]
    split
    · exact h
    · exact h.withWorker rfl h.worker
  | deploy id f next => exact ⟨hstays.2, h.worker⟩
  | disable id next => exact ⟨hstays.2, h.worker⟩
  | clearQueued id => exact h.withWorker rfl h.worker

theorem run_runs (h : p.Runs s) {es : List FlowStep}
    (hok : Along FlowState.step (fun _ e => p.Stays e) s es) : p.Runs (run FlowState.step s es) :=
  run_invariant (I := p.Runs) (fun _ _ hs hstays => hs.step hstays) h hok

omit [JsonLib] [FlowLib] in
theorem visit_spec {e : FlowStep} {v : Visit} (h : p.visit s e = some v) :
    ∃ now g m, e = .work now ∧ s.worker = .entered v.event g m ∧ p.here v.event = true ∧
      v = ⟨now, v.event, p.state s⟩ := by
  unfold visit at h
  split at h
  · split at h
    · rename_i e g m hworker
      split at h
      · rename_i hhere
        obtain rfl := Option.some.inj h
        exact ⟨_, g, m, rfl, hworker, hhere, rfl⟩
      · cases h
    · cases h
  · cases h

/-- The events that reach the node, in order. -/
def inputs (p : Place) (s : FlowState) (es : List FlowStep) : List FlowEvent :=
  outputs FlowState.step (fun s e => (p.visit s e).toList.map fun v => v.event.event) s es

end Place

end OpcBridge.Flow
