import OpcBridge.Flow.Worker
import OpcBridge.Lib.Run

/-!
# Deployments are separated

An event without an input epoch is processed by whatever deployment it meets, and the worker goes
on with its copy of the old flow when the new one is installed. `Admits` is what keeps the values
of a replaced deployment out of the new one nevertheless, and `Isolated` the invariant that
`flow_isolation` follows from: whatever is on its way to a node of a deployed flow was received
since the flow was installed, is rejected by its epoch, or waits in a queue that is about to be
cleared.
-/

namespace OpcBridge.Flow

open OpcBridge OpcBridge.Alarms Lib

section
variable [Floats]

/-! ## The property -/

/-- The flow was last deployed, not removed. -/
def FlowState.Live (s : FlowState) (id : String) : Prop := s.replaced id = false

/-- The value was received since the flow was installed. -/
def FlowState.Current (s : FlowState) (e : QueuedEvent) : Prop :=
  s.Live e.flowId → e.event.born = s.epoch e.flowId

/-- When the deployment of a flow has returned, its nodes process no older event and hold no older
value. -/
def FlowState.Separated (s : FlowState) : Prop :=
  ∀ id, s.Live id → s.clearing id = false →
    (∀ e f n, s.worker = .entered e f n → e.flowId = id → e.event.born = s.epoch id) ∧
    ∀ node, (s.nodes id node).From (s.epoch id)

/-! ## The condition -/

/-- The worker is inside `process_event` for the flow. -/
def Worker.BusyWith (id : String) : Worker → Prop
  | .entered e _ _ => e.flowId = id
  | .acting e rest => e.flowId = id ∧ rest ≠ []
  | _ => False

/-- The event that the worker is about to enqueue. -/
def Worker.held : Worker → List QueuedEvent
  | .polled _ e => [e]
  | _ => []

/-- The event has an epoch, or is not older than a deployment that is still to clear the queues. -/
def FlowState.Settled (s : FlowState) (e : QueuedEvent) : Prop :=
  s.clearing e.flowId = true → e.inputEpoch = 0 → e.event.born = s.epoch e.flowId

/-- A flow is installed while the worker is not inside `process_event` for it, and no event of it
without an epoch is in the worker's list or on its way to the queue; and until the deployment has
cleared the queues, the worker takes no older event without an epoch from them. -/
def FlowState.Admits (s : FlowState) : FlowStep → Prop
  | .deploy id _ _ => ¬ s.worker.BusyWith id ∧
      ∀ e ∈ s.events ++ s.inFlight ++ s.worker.held, e.flowId = id → e.inputEpoch ≠ 0
  | .takeQueue now =>
    ∀ e ∈ s.queue ++ (s.delayed.takeWhile fun x => x.1 ≤ now).map Prod.snd, s.Settled e
  | .append => ∀ e ∈ s.queue, s.Settled e
  | _ => True

/-! ## The invariant -/

/-- The epoch of an event is not ahead, and where it is up to date, so is the value. -/
def FlowState.Known (s : FlowState) (e : QueuedEvent) : Prop :=
  e.inputEpoch ≤ s.epoch e.flowId ∧
    (e.inputEpoch = s.epoch e.flowId → s.Current e)

def FlowState.Fresh (s : FlowState) (e : QueuedEvent) : Prop := e.inputEpoch = 0 → s.Current e

def Action.Ok (s : FlowState) (id : String) : Action → Prop
  | .enqueue e => e.flowId = id ∧ s.Known e ∧ s.Current e
  | .enqueueDelayed e _ => e.flowId = id ∧ s.Known e ∧ s.Current e
  | .replaceTriggerTimer e _ => e.flowId = id ∧ s.Known e ∧ s.Current e
  | .emailValue _ _ born => s.Live id → born = s.epoch id
  | _ => True

def Worker.Ok (s : FlowState) : Worker → Prop
  | .idle => True
  | .polling tasks => ∀ t ∈ tasks, t.epoch ≤ s.epoch t.flowId
  | .polled tasks e => (∀ t ∈ tasks, t.epoch ≤ s.epoch t.flowId) ∧ s.Known e ∧ s.Fresh e
  | .entered e _ _ => s.Known e ∧ s.Current e
  | .acting e rest => ∀ a ∈ rest, a.Ok s e.flowId

structure Isolated (s : FlowState) : Prop where
  events : ∀ e ∈ s.events, s.Known e ∧ s.Fresh e
  inFlight : ∀ e ∈ s.inFlight, s.Known e ∧ s.Fresh e
  queue : ∀ e ∈ s.queue, s.Known e ∧ (s.clearing e.flowId = true ∨ s.Fresh e)
  delayed : ∀ x ∈ s.delayed, s.Known x.2 ∧ (s.clearing x.2.flowId = true ∨ s.Fresh x.2)
  worker : s.worker.Ok s
  stored : ∀ id node, s.Live id → (s.nodes id node).From (s.epoch id)

theorem isolated_load (maxEventHops : Nat) (deployed : List (String × FlowDef)) :
    Isolated (FlowState.load maxEventHops deployed) where
  events := fun _ h => (by cases h)
  inFlight := fun _ h => (by cases h)
  queue := fun _ h => (by cases h)
  delayed := fun _ h => (by cases h)
  worker := trivial
  stored := fun _ _ _ => NodeState.from_empty _

theorem isolated_separated {s : FlowState} (h : Isolated s) : s.Separated := by
  intro id hlive _
  refine ⟨fun e f n hw hid => ?_, fun node => h.stored id node hlive⟩
  have hcurrent := h.worker
  rw [hw] at hcurrent
  subst hid
  exact hcurrent.2 hlive

/-- Only the epochs and the flows that were removed matter. -/
theorem Action.ok_congr {s s' : FlowState} (he : s'.epoch = s.epoch)
    (hr : s'.replaced = s.replaced) {id : String} {a : Action} (h : a.Ok s id) : a.Ok s' id := by
  have hsent : ∀ e : QueuedEvent, e.flowId = id ∧ s.Known e ∧ s.Current e →
      e.flowId = id ∧ s'.Known e ∧ s'.Current e := by
    intro e h
    simpa only [FlowState.Known, FlowState.Current, FlowState.Live, he, hr] using h
  cases a with
  | enqueue e => exact hsent e h
  | enqueueDelayed e due => exact hsent e h
  | replaceTriggerTimer e due => exact hsent e h
  | emailValue nodeId value born => simpa only [Action.Ok, FlowState.Live, he, hr] using h
  | _ => trivial

/-! ## Another epoch for one flow -/

section
variable {s s' : FlowState} {id : String} {b : Bool}

/-- The flow `id` was installed or removed. -/
structure Switched (s s' : FlowState) (id : String) (b : Bool) : Prop where
  epoch : s'.epoch = Function.update s.epoch id (s.epoch id + 1)
  replaced : s'.replaced = Function.update s.replaced id b

theorem Switched.epoch_le (h : Switched s s' id b) (id' : String) : s.epoch id' ≤ s'.epoch id' := by
  rw [h.epoch]
  by_cases hid : id' = id
  · subst hid
    simp
  · simp [hid]

/-- Other flows are as they were. -/
theorem Switched.current (h : Switched s s' id b) {e : QueuedEvent} (hid : e.flowId ≠ id)
    (he : s.Current e) : s'.Current e := by
  unfold FlowState.Current FlowState.Live at he ⊢
  rw [h.epoch, h.replaced, Function.update_of_ne hid, Function.update_of_ne hid]
  exact he

theorem Switched.current_removed (h : Switched s s' id true) {e : QueuedEvent}
    (he : s.Current e) : s'.Current e := by
  by_cases hid : e.flowId = id
  · intro hlive
    unfold FlowState.Live at hlive
    rw [h.replaced, hid, Function.update_self] at hlive
    cases hlive
  · exact h.current hid he

theorem Switched.known (h : Switched s s' id b) {e : QueuedEvent} (he : s.Known e) : s'.Known e := by
  refine ⟨Nat.le_trans he.1 (h.epoch_le _), fun heq => ?_⟩
  by_cases hid : e.flowId = id
  · -- the epoch of the event is behind now
    rw [h.epoch, hid, Function.update_self] at heq
    have hle := he.1
    rw [hid] at hle
    omega
  · rw [h.epoch, Function.update_of_ne hid] at heq
    exact h.current hid (he.2 heq)

theorem Switched.fresh (h : Switched s s' id b) {e : QueuedEvent} (hid : e.flowId ≠ id)
    (he : s.Fresh e) : s'.Fresh e := fun h0 => h.current hid (he h0)

theorem Switched.action (h : Switched s s' id b) {id' : String} (hid : id' ≠ id) {a : Action}
    (ha : a.Ok s id') : a.Ok s' id' := by
  have hsent : ∀ e : QueuedEvent, e.flowId = id' ∧ s.Known e ∧ s.Current e →
      e.flowId = id' ∧ s'.Known e ∧ s'.Current e := by
    intro e ⟨h1, h2, h3⟩
    exact ⟨h1, h.known h2, h.current (h1 ▸ hid) h3⟩
  cases a with
  | enqueue e => exact hsent e ha
  | enqueueDelayed e due => exact hsent e ha
  | replaceTriggerTimer e due => exact hsent e ha
  | emailValue nodeId value born =>
    simp only [Action.Ok, FlowState.Live] at ha ⊢
    rw [h.epoch, h.replaced, Function.update_of_ne hid, Function.update_of_ne hid]
    exact ha
  | _ => trivial

theorem Switched.action_removed (h : Switched s s' id true) {id' : String} {a : Action}
    (ha : a.Ok s id') : a.Ok s' id' := by
  by_cases hid : id' = id
  · have hsent : ∀ e : QueuedEvent, e.flowId = id' ∧ s.Known e ∧ s.Current e →
        e.flowId = id' ∧ s'.Known e ∧ s'.Current e := by
      intro e ⟨h1, h2, h3⟩
      exact ⟨h1, h.known h2, h.current_removed h3⟩
    cases a with
    | enqueue e => exact hsent e ha
    | enqueueDelayed e due => exact hsent e ha
    | replaceTriggerTimer e due => exact hsent e ha
    | emailValue nodeId value born =>
      intro hlive
      unfold FlowState.Live at hlive
      rw [h.replaced, hid, Function.update_self] at hlive
      cases hlive
    | _ => trivial
  · exact h.action hid ha

end

/-! ## What a step keeps -/

variable [JsonLib] [FlowLib] {s : FlowState}

omit [JsonLib] [FlowLib] in
theorem putNode_stored (h : Isolated s) {id node : String} {st : NodeState}
    (hst : s.Live id → st.From (s.epoch id)) :
    ∀ id' node', s.Live id' →
      (Function.update s.nodes id (Function.update (s.nodes id) node st) id' node').From
        (s.epoch id') := by
  intro id' node' hlive
  by_cases hid : id' = id
  · subst hid
    rw [Function.update_self]
    by_cases hnode : node' = node
    · subst hnode
      rw [Function.update_self]
      exact hst hlive
    · rw [Function.update_of_ne hnode]
      exact h.stored id' node' hlive
  · rw [Function.update_of_ne hid]
    exact h.stored id' node' hlive

theorem Isolated.deploy (h : Isolated s) {id : String} {f : FlowDef} {next : List (String × FlowDef)}
    (hok : s.Admits (.deploy id f next)) : Isolated (s.step (.deploy id f next)) := by
  obtain ⟨hbusy, hnone⟩ := hok
  have hsw : Switched s (s.step (.deploy id f next)) id false := ⟨rfl, rfl⟩
  have hfresh : ∀ e ∈ s.events ++ s.inFlight ++ s.worker.held, s.Fresh e →
      (s.step (.deploy id f next)).Fresh e := by
    intro e he hf
    by_cases hid : e.flowId = id
    · exact fun h0 => absurd h0 (hnone e he hid)
    · exact hsw.fresh hid hf
  have hwait : ∀ e, s.Known e ∧ (s.clearing e.flowId = true ∨ s.Fresh e) →
      (s.step (.deploy id f next)).Known e ∧
        ((s.step (.deploy id f next)).clearing e.flowId = true ∨
          (s.step (.deploy id f next)).Fresh e) := by
    intro e ⟨hk, hc⟩
    refine ⟨hsw.known hk, ?_⟩
    by_cases hid : e.flowId = id
    · left
      change Function.update s.clearing id true e.flowId = true
      rw [hid, Function.update_self]
    · refine hc.imp (fun hc => ?_) (hsw.fresh hid)
      change Function.update s.clearing id true e.flowId = true
      rw [Function.update_of_ne hid]
      exact hc
  refine ⟨fun e he => ?_, fun e he => ?_, fun e he => hwait e (h.queue e he),
    fun x hx => hwait x.2 (h.delayed x hx), ?_, fun id' node hlive => ?_⟩
  · obtain ⟨h1, h2⟩ := h.events e he
    exact ⟨hsw.known h1, hfresh e (List.mem_append_left _ (List.mem_append_left _ he)) h2⟩
  · obtain ⟨h1, h2⟩ := h.inFlight e he
    exact ⟨hsw.known h1, hfresh e (List.mem_append_left _ (List.mem_append_right _ he)) h2⟩
  · have hw := h.worker
    change s.worker.Ok (s.step (.deploy id f next))
    cases hworker : s.worker with
    | idle => trivial
    | polling tasks =>
      rw [hworker] at hw
      exact fun t ht => Nat.le_trans (hw t ht) (hsw.epoch_le _)
    | polled tasks e =>
      rw [hworker] at hw hfresh
      obtain ⟨h1, h2, h3⟩ := hw
      exact ⟨fun t ht => Nat.le_trans (h1 t ht) (hsw.epoch_le _), hsw.known h2,
        hfresh e (by simp [Worker.held]) h3⟩
    | entered e f' n =>
      rw [hworker] at hw hbusy
      exact ⟨hsw.known hw.1, hsw.current hbusy hw.2⟩
    | acting e rest =>
      rw [hworker] at hw hbusy
      intro a ha
      have hid : e.flowId ≠ id := fun hid => hbusy ⟨hid, List.ne_nil_of_mem ha⟩
      exact hsw.action hid (hw a ha)
  · change (Function.update s.nodes id (fun _ => ({} : NodeState)) id' node).From _
    by_cases hid : id' = id
    · subst hid
      rw [Function.update_self]
      exact NodeState.from_empty _
    · unfold FlowState.Live at hlive
      rw [hsw.replaced, Function.update_of_ne hid] at hlive
      rw [hsw.epoch, Function.update_of_ne hid, Function.update_of_ne hid]
      exact h.stored id' node hlive

theorem Isolated.disable (h : Isolated s) (id : String) (next : List (String × FlowDef)) :
    Isolated (s.step (.disable id next)) := by
  have hsw : Switched s (s.step (.disable id next)) id true := ⟨rfl, rfl⟩
  have hfresh : ∀ e, s.Known e ∧ s.Fresh e →
      (s.step (.disable id next)).Known e ∧ (s.step (.disable id next)).Fresh e :=
    fun e ⟨h1, h2⟩ => ⟨hsw.known h1, fun h0 => hsw.current_removed (h2 h0)⟩
  have hwait : ∀ e, s.Known e ∧ (s.clearing e.flowId = true ∨ s.Fresh e) →
      (s.step (.disable id next)).Known e ∧
        ((s.step (.disable id next)).clearing e.flowId = true ∨
          (s.step (.disable id next)).Fresh e) := by
    intro e ⟨hk, hc⟩
    refine ⟨hsw.known hk, ?_⟩
    obtain hc | hf := hc
    · left
      change Function.update s.clearing id true e.flowId = true
      by_cases hid : e.flowId = id
      · rw [hid, Function.update_self]
      · rw [Function.update_of_ne hid]
        exact hc
    · exact .inr fun h0 => hsw.current_removed (hf h0)
  refine ⟨fun e he => hfresh e (h.events e he), fun e he => hfresh e (h.inFlight e he),
    fun e he => hwait e (h.queue e he), fun x hx => hwait x.2 (h.delayed x hx), ?_,
    fun id' node hlive => ?_⟩
  · have hw := h.worker
    change s.worker.Ok (s.step (.disable id next))
    cases hworker : s.worker with
    | idle => trivial
    | polling tasks =>
      rw [hworker] at hw
      exact fun t ht => Nat.le_trans (hw t ht) (hsw.epoch_le _)
    | polled tasks e =>
      rw [hworker] at hw
      exact ⟨fun t ht => Nat.le_trans (hw.1 t ht) (hsw.epoch_le _), hfresh e hw.2⟩
    | entered e f n =>
      rw [hworker] at hw
      exact ⟨hsw.known hw.1, hsw.current_removed hw.2⟩
    | acting e rest =>
      rw [hworker] at hw
      exact fun a ha => hsw.action_removed (hw a ha)
  · have hid : id' ≠ id := by
      rintro rfl
      unfold FlowState.Live at hlive
      rw [hsw.replaced, Function.update_self] at hlive
      cases hlive
    unfold FlowState.Live at hlive
    rw [hsw.replaced, Function.update_of_ne hid] at hlive
    change (Function.update s.nodes id _ id' node).From _
    rw [hsw.epoch, Function.update_of_ne hid, Function.update_of_ne hid]
    exact h.stored id' node hlive

/-! ### Polling -/

omit [JsonLib] [FlowLib] in
theorem Isolated.withWorker (h : Isolated s) {w : Worker} (hw : w.Ok s) :
    Isolated { s with worker := w } :=
  ⟨h.events, h.inFlight, h.queue, h.delayed, hw, h.stored⟩

omit [JsonLib] [FlowLib] in
theorem afterPoll_ok {tasks : List PollTask} (h : ∀ t ∈ tasks, t.epoch ≤ s.epoch t.flowId) :
    (Worker.afterPoll tasks).Ok s := by
  cases tasks with
  | nil => trivial
  | cons t tasks => exact h

omit [JsonLib] [FlowLib] in
theorem pollTasks_epoch (due : String → String → Bool) :
    ∀ t ∈ s.pollTasks due, t.epoch ≤ s.epoch t.flowId := by
  intro t ht
  obtain ⟨x, -, ht⟩ := List.mem_flatMap.1 ht
  obtain ⟨n, -, hn⟩ := List.mem_filterMap.1 ht
  split at hn
  · split at hn
    · rw [← Option.some.inj hn]
    · cases hn
  · cases hn

omit [FlowLib] in
theorem Isolated.pollRow (h : Isolated s) {t : PollTask} {tasks : List PollTask}
    (hw : s.worker = .polling (t :: tasks)) (value : Json) (now : Int) :
    Isolated (s.pollRow t tasks value now) := by
  have htasks := h.worker
  rw [hw] at htasks
  have hrest : ∀ t ∈ tasks, t.epoch ≤ s.epoch t.flowId :=
    fun t' ht' => htasks t' (List.mem_cons_of_mem _ ht')
  unfold FlowState.pollRow
  split
  · exact h.withWorker (afterPoll_ok hrest)
  · rename_i hepoch
    have hepoch : s.epoch t.flowId = t.epoch := by
      by_contra hne
      exact hepoch (.inl hne)
    refine ⟨h.events, h.inFlight, h.queue, h.delayed, ?_,
      putNode_stored h fun hlive => { h.stored t.flowId t.nodeId hlive with
        lastInput := .inr hepoch.symm }⟩
    dsimp only
    split
    · exact ⟨hrest, ⟨Nat.le_of_eq hepoch.symm, fun _ _ => hepoch.symm⟩, fun _ _ => hepoch.symm⟩
    · exact afterPoll_ok hrest

/-! ### The queues -/

omit [JsonLib] [FlowLib] in
theorem fresh_of_settled {e : QueuedEvent} (h : s.clearing e.flowId = true ∨ s.Fresh e)
    (hs : s.Settled e) : s.Fresh e := by
  obtain hc | hf := h
  · exact fun h0 _ => hs hc h0
  · exact hf

omit [JsonLib] [FlowLib] in
theorem Isolated.perform (h : Isolated s) {id : String} {a : Action} (ha : a.Ok s id) :
    Isolated { (s.perform id a).1 with worker := .idle } ∧
      (s.perform id a).1.epoch = s.epoch ∧ (s.perform id a).1.replaced = s.replaced := by
  have hidle : Isolated { s with worker := .idle } := h.withWorker trivial
  have hdelayed : ∀ (e : QueuedEvent) (due : Int) (l : List (Int × QueuedEvent)),
      s.Known e ∧ s.Current e → (∀ x ∈ l, x ∈ s.delayed) →
      ∀ x ∈ insertDelayed due e l, s.Known x.2 ∧ (s.clearing x.2.flowId = true ∨ s.Fresh x.2) := by
    intro e due l he hl x hx
    obtain rfl | hx := List.mem_cons.1 ((insertDelayed_perm ..).mem_iff.1 hx)
    · exact ⟨he.1, .inr fun _ => he.2⟩
    · exact h.delayed x (hl x hx)
  cases a with
  | enqueue e =>
    refine ⟨⟨h.events, h.inFlight, fun e' he' => ?_, h.delayed, trivial, h.stored⟩, rfl, rfl⟩
    obtain he' | he' := List.mem_append.1 he'
    · exact h.queue e' he'
    · obtain rfl := List.mem_singleton.1 he'
      exact ⟨ha.2.1, .inr fun _ => ha.2.2⟩
  | enqueueDelayed e due =>
    simp only [FlowState.perform]
    split
    · exact ⟨hidle, rfl, rfl⟩
    · exact ⟨⟨h.events, h.inFlight, h.queue, hdelayed e due _ ha.2 fun _ hx => hx, trivial,
        h.stored⟩, rfl, rfl⟩
  | replaceTriggerTimer e due =>
    simp only [FlowState.perform]
    split
    · exact ⟨⟨h.events, h.inFlight, h.queue, fun x hx => h.delayed x (List.mem_filter.1 hx).1,
        trivial, h.stored⟩, rfl, rfl⟩
    · exact ⟨⟨h.events, h.inFlight, h.queue,
        hdelayed e due _ ha.2 fun _ hx => (List.mem_filter.1 hx).1, trivial, h.stored⟩, rfl, rfl⟩
  | emailValue nodeId value born =>
    exact ⟨⟨h.events, h.inFlight, h.queue, h.delayed, trivial, putNode_stored h fun hlive =>
      { h.stored id nodeId hlive with email := .inr (ha hlive) }⟩, rfl, rfl⟩
  | _ => exact ⟨hidle, rfl, rfl⟩

omit [JsonLib] [FlowLib] in
theorem Isolated.enter (h : Isolated s) {e : QueuedEvent} {rest : List QueuedEvent}
    (he : s.events = e :: rest) : Isolated (s.enter e rest) := by
  obtain ⟨hknown, hfresh⟩ := h.events e (he ▸ List.mem_cons_self ..)
  have hrest : ∀ e' ∈ rest, s.Known e' ∧ s.Fresh e' :=
    fun e' he' => h.events e' (he ▸ List.mem_cons_of_mem _ he')
  have hdone : Isolated { s with events := rest, worker := .acting e [] } :=
    ⟨hrest, h.inFlight, h.queue, h.delayed, fun a ha => (by cases ha), h.stored⟩
  unfold FlowState.enter
  dsimp only
  split
  · exact ⟨hdone.events, hdone.inFlight, hdone.queue, hdone.delayed, hdone.worker, hdone.stored⟩
  · split
    · exact hdone
    · rename_i hepoch
      -- the event has the flow's epoch, or none and is fresh
      have hcurrent : s.Current e := by
        by_cases h0 : e.inputEpoch = 0
        · exact hfresh h0
        · refine hknown.2 ?_
          by_contra hne
          exact hepoch ⟨h0, Ne.symm hne⟩
      split
      · exact hdone
      · split
        · exact hdone
        · split
          · exact hdone
          · exact ⟨hrest, h.inFlight, h.queue, h.delayed, ⟨hknown, hcurrent⟩, h.stored⟩

theorem Isolated.work (h : Isolated s) {e : QueuedEvent} {f : FlowDef} {n : FlowNode}
    (hw : s.worker = .entered e f n) (now : Int) : Isolated (s.step (.work now)) := by
  have hok := h.worker
  rw [hw] at hok
  obtain ⟨hknown, hcurrent⟩ := hok
  obtain ⟨hcalls, hfrom⟩ := nodeStep_spec f n.type now e (s.nodes e.flowId e.nodeId)
  have hstep : s.step (.work now) = { s with
      nodes := Function.update s.nodes e.flowId (Function.update (s.nodes e.flowId) e.nodeId
        (nodeStep f n.type now e (s.nodes e.flowId e.nodeId)).1)
      worker := .acting e (nodeStep f n.type now e (s.nodes e.flowId e.nodeId)).2 } := by
    simp only [FlowState.step, hw]
  rw [hstep]
  refine ⟨h.events, h.inFlight, h.queue, h.delayed, fun a ha => ?_, putNode_stored h fun hlive =>
    hfrom _ (h.stored _ _ hlive) (hcurrent hlive)⟩
  have hcarried : ∀ output, Carried e (s.nodes e.flowId e.nodeId) output →
      s.Live e.flowId → output.born = s.epoch e.flowId := by
    intro output ho hlive
    obtain ho | ho := ho
    · exact ho.trans (hcurrent hlive)
    · obtain ⟨latest, hl, hb⟩ := Option.map_eq_some_iff.1 ho
      rw [← hb]
      exact (h.stored _ _ hlive).rate latest hl
  -- a sent event has the flow and the epoch of the event, and a value of the flow
  have hsent : ∀ (e' : QueuedEvent) (output : FlowEvent), e'.flowId = e.flowId →
      e'.inputEpoch = e.inputEpoch → e'.event = output →
      Carried e (s.nodes e.flowId e.nodeId) output →
      e'.flowId = e.flowId ∧ s.Known e' ∧ s.Current e' := by
    intro e' output h1 h2 h3 ho
    have hc : s.Current e' := by
      intro hlive
      rw [h3, h1]
      exact hcarried output ho (h1 ▸ hlive)
    refine ⟨h1, ⟨?_, fun _ => hc⟩, hc⟩
    rw [h1, h2]
    exact hknown.1
  have hallowed := hcalls a ha
  cases a with
  | enqueue e' =>
    obtain ⟨output, edge, -, rfl, ho⟩ := hallowed
    exact hsent _ output rfl rfl rfl ho
  | enqueueDelayed e' due =>
    obtain ⟨output, edge, -, rfl, ho⟩ | ⟨output, port, rfl, ho, -⟩ := hallowed
    · exact hsent _ output rfl rfl rfl ho
    · exact hsent _ output rfl rfl rfl ho
  | replaceTriggerTimer e' due =>
    obtain ⟨output, port, rfl, ho, -⟩ := hallowed
    exact hsent _ output rfl rfl rfl ho
  | emailValue nodeId value born =>
    obtain ⟨-, rfl⟩ := hallowed
    exact hcurrent
  | _ => trivial

/-! ### The other threads -/

omit [JsonLib] [FlowLib] in
theorem Isolated.arrive (h : Isolated s) {es : List QueuedEvent}
    (hes : ∀ e ∈ es, e.inputEpoch = 0 ∧ e.event.born = s.epoch e.flowId) :
    Isolated { s with inFlight := s.inFlight ++ es } := by
  refine ⟨h.events, fun e he => ?_, h.queue, h.delayed, h.worker, h.stored⟩
  obtain he | he := List.mem_append.1 he
  · exact h.inFlight e he
  · obtain ⟨h0, hb⟩ := hes e he
    refine ⟨⟨?_, fun _ _ => hb⟩, fun _ _ => hb⟩
    rw [h0]
    exact Nat.zero_le _

omit [JsonLib] [FlowLib] in
theorem mqttEvents_born (connectionId : String) (matched : String → Bool)
    (extract : NodeType → Option Json) (now : Int) :
    ∀ e ∈ s.mqttEvents connectionId matched extract now,
      e.inputEpoch = 0 ∧ e.event.born = s.epoch e.flowId := by
  intro e he
  obtain ⟨x, -, he⟩ := List.mem_flatMap.1 he
  obtain ⟨n, -, hn⟩ := List.mem_filterMap.1 he
  split at hn
  · split at hn
    · obtain ⟨value, -, rfl⟩ := Option.map_eq_some_iff.1 hn
      exact ⟨rfl, rfl⟩
    · cases hn
  · cases hn

omit [JsonLib] [FlowLib] in
theorem injected_born (flowId nodeId : String) (value : Json) (now : Int) :
    ∀ e ∈ s.injected flowId nodeId value now,
      e.inputEpoch = 0 ∧ e.event.born = s.epoch e.flowId := by
  intro e he
  unfold FlowState.injected at he
  split at he
  · cases he
  · split at he
    · cases he
    · obtain rfl := List.mem_singleton.1 he
      exact ⟨rfl, rfl⟩

omit [JsonLib] [FlowLib] in
/-- Clearing the queues settles the flow. -/
theorem Isolated.clearQueued (h : Isolated s) (id : String) :
    Isolated { s with
      queue := s.queue.filter fun e => e.flowId != id
      delayed := s.delayed.filter fun x => x.2.flowId != id
      clearing := Function.update s.clearing id false } := by
  have hother : ∀ e : QueuedEvent, (e.flowId != id) = true →
      s.Known e ∧ (s.clearing e.flowId = true ∨ s.Fresh e) →
      s.Known e ∧ (Function.update s.clearing id false e.flowId = true ∨ s.Fresh e) := by
    intro e hne he
    rw [Function.update_of_ne (bne_iff_ne.1 hne)]
    exact he
  refine ⟨h.events, h.inFlight, fun e he => ?_, fun x hx => ?_, h.worker, h.stored⟩
  · obtain ⟨h1, h2⟩ := List.mem_filter.1 he
    exact hother e h2 (h.queue e h1)
  · obtain ⟨h1, h2⟩ := List.mem_filter.1 hx
    exact hother x.2 h2 (h.delayed x h1)

/-! ## Runs -/

/-- **One step of any thread.** -/
theorem step_isolated (s : FlowState) (e : FlowStep) (h : Isolated s) (hok : s.Admits e) :
    Isolated (s.step e) := by
  cases e with
  | deploy id f next => exact h.deploy hok
  | disable id next => exact h.disable id next
  | clearQueued id => exact h.clearQueued id
  | mqttMessage connectionId matched extract now =>
    exact h.arrive (mqttEvents_born connectionId matched extract now)
  | inject flowId nodeId value now => exact h.arrive (injected_born flowId nodeId value now)
  | pollInputs due =>
    simp only [FlowState.step]
    split
    · exact h.withWorker (afterPoll_ok (pollTasks_epoch due))
    · exact h
  | pollRow row =>
    simp only [FlowState.step]
    split
    · rename_i t tasks hw
      have htasks := h.worker
      rw [hw] at htasks
      have hrest := afterPoll_ok (s := s) fun t' ht' => htasks t' (List.mem_cons_of_mem _ ht')
      split
      · exact h.withWorker hrest
      · split
        · exact h.withWorker hrest
        · exact h.pollRow hw _ _
    · exact h
  | pollEnqueue =>
    simp only [FlowState.step]
    split
    · rename_i tasks e hw
      have hpolled := h.worker
      rw [hw] at hpolled
      obtain ⟨htasks, hknown, hfresh⟩ := hpolled
      refine ⟨h.events, h.inFlight, fun e' he' => ?_, h.delayed, afterPoll_ok htasks, h.stored⟩
      obtain he' | he' := List.mem_append.1 he'
      · exact h.queue e' he'
      · obtain rfl := List.mem_singleton.1 he'
        exact ⟨hknown, .inr hfresh⟩
    · exact h
  | takeQueue now =>
    simp only [FlowState.step]
    split
    · refine ⟨fun e he => ?_, h.inFlight, fun e he => (by cases he), fun x hx =>
        h.delayed x (List.dropWhile_subset _ hx), h.worker, h.stored⟩
      have hsettled := hok e he
      obtain he | he := List.mem_append.1 he
      · obtain ⟨h1, h2⟩ := h.queue e he
        exact ⟨h1, fresh_of_settled h2 hsettled⟩
      · obtain ⟨x, hx, rfl⟩ := List.mem_map.1 he
        obtain ⟨h1, h2⟩ := h.delayed x (List.takeWhile_subset _ hx)
        exact ⟨h1, fresh_of_settled h2 hsettled⟩
    · exact h
  | enter =>
    simp only [FlowState.step]
    split
    · rename_i e rest _ he
      exact h.enter he
    · exact h
  | work now =>
    cases hw : s.worker with
    | entered e f n => exact h.work hw now
    | _ =>
      simp only [FlowState.step, hw]
      exact h
  | act =>
    simp only [FlowState.step]
    split
    · rename_i e a rest hw
      have hacts := h.worker
      rw [hw] at hacts
      obtain ⟨h1, h2, h3⟩ := h.perform (hacts a (List.mem_cons_self ..))
      refine ⟨h1.events, h1.inFlight, h1.queue, h1.delayed, fun b hb => ?_, h1.stored⟩
      have hrest : b ∈ rest := by
        split at hb
        · exact hb
        · cases hb
      exact Action.ok_congr h2 h3 (hacts b (List.mem_cons_of_mem _ hrest))
    · exact h
  | append =>
    simp only [FlowState.step]
    split
    · refine ⟨fun e he => ?_, h.inFlight, fun e he => (by cases he), h.delayed, trivial, h.stored⟩
      obtain he | he := List.mem_append.1 he
      · exact h.events e he
      · obtain ⟨h1, h2⟩ := h.queue e he
        exact ⟨h1, fresh_of_settled h2 (hok e he)⟩
    · exact h
  | handOver i =>
    simp only [FlowState.step]
    split
    · exact h
    · rename_i e he
      refine ⟨h.events, fun e' he' => h.inFlight e' (List.mem_of_mem_eraseIdx he'),
        fun e' he' => ?_, h.delayed, h.worker, h.stored⟩
      obtain he' | he' := List.mem_append.1 he'
      · exact h.queue e' he'
      · obtain rfl := List.mem_singleton.1 he'
        obtain ⟨h1, h2⟩ := h.inFlight e' (List.mem_of_getElem? he)
        exact ⟨h1, .inr h2⟩

/-- **A replaced flow leaves nothing behind** in a run whose steps are admitted. -/
theorem flow_isolation (maxEventHops : Nat) (deployed : List (String × FlowDef))
    (steps : List FlowStep)
    (hok : Along FlowState.step FlowState.Admits (FlowState.load maxEventHops deployed) steps) :
    (run FlowState.step (FlowState.load maxEventHops deployed) steps).Separated :=
  isolated_separated (run_invariant step_isolated (isolated_load maxEventHops deployed) hok)

end

section
attribute [local instance] intFloats intJson intFlowLib

/-- A subscription that feeds the high byte of a word. -/
def wordFlow : FlowDef where
  nodes := [⟨"in", .mqttSubscribe "MQ" "level"⟩, ⟨"word", .combine "two_bytes" false⟩]
  edges := [{ source := "in", to_ := "word", toPort := "high_byte" }]

/-- One message travels to the node that combines the bytes. -/
def messageSteps : List FlowStep := [
  .mqttMessage "MQ" (fun topic => topic == "level") (fun _ => some (.uint 5)) 1, .handOver 0,
  .takeQueue 1, .enter, .work 1, .act, .act, .append, .enter]

def wordState : FlowState := .load 64 [("F", wordFlow)]

/-- The flow is deployed again while the worker is inside `process_event`. -/
def overtakenSteps : List FlowStep :=
  messageSteps ++ [.deploy "F" wordFlow [("F", wordFlow)], .clearQueued "F", .work 2]

/-- The flow is deployed again after the event. -/
def separateSteps : List FlowStep := messageSteps ++
  [.work 2, .act, .append, .deploy "F" wordFlow [("F", wordFlow)], .clearQueued "F"]

/-- The byte of the old deployment is half of the word of the new one. -/
theorem flow_not_separated :
    ¬ ∀ (maxEventHops : Nat) (deployed : List (String × FlowDef)) (steps : List FlowStep),
      (run FlowState.step (.load maxEventHops deployed) steps).Separated := by
  intro h
  have hlive : (run FlowState.step wordState overtakenSteps).replaced "F" = false := by
    decide +kernel
  obtain ⟨-, hstored⟩ := h 64 [("F", wordFlow)] overtakenSteps "F" hlive (by decide +kernel)
  have hold : (((run FlowState.step wordState overtakenSteps).nodes "F" "word").combine
      "high_byte").map FlowEvent.born = some 1 := by decide +kernel
  obtain ⟨e, he, hborn⟩ := Option.map_eq_some_iff.1 hold
  have hnew := (hstored "word").combine "high_byte" e he
  rw [hborn] at hnew
  exact absurd hnew (by decide +kernel)

theorem flow_separated_example :
    (run FlowState.step wordState separateSteps).Separated ∧
      (run FlowState.step wordState separateSteps).epoch "F" = 2 := by
  refine ⟨flow_isolation 64 [("F", wordFlow)] separateSteps ?_, by decide +kernel⟩
  have hnone : ((run FlowState.step wordState (separateSteps.take 12)).events ++
      (run FlowState.step wordState (separateSteps.take 12)).inFlight ++
      (run FlowState.step wordState (separateSteps.take 12)).worker.held).isEmpty = true := by
    decide +kernel
  exact ⟨trivial, trivial, fun e _ hc => (by cases hc), trivial, trivial, trivial, trivial,
    fun e _ hc => (by cases hc), trivial, trivial, trivial, fun e _ hc => (by cases hc),
    ⟨fun h => h, fun e he => absurd (List.isEmpty_iff.1 hnone) (List.ne_nil_of_mem he)⟩,
    trivial, trivial⟩

end

end OpcBridge.Flow
