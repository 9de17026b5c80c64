import OpcBridge.Flow.Deployed
import OpcBridge.Flow.Worker
import OpcBridge.Lib.Worklist

/-!
# The worker comes to rest

The worker alone, with no new events from outside: `FlowState.turn` takes the queue and what is due
of the delayed events when the worker's list is empty, and processes the first event of the list
when it is not. `Sends` is what one event may send. Along the edges of an accepted flow a rank goes
down, and a rate limit or a trigger that holds an event back sends it to itself once, to a port
that does not hold it back again. So the worker comes to rest (`turns_idle`), and the hops of an
event are bounded by the way that it came (`sends_hops`).
-/

namespace OpcBridge.Flow

open OpcBridge OpcBridge.Alarms Lib

section
variable [Floats]

/-! ## What an event may send -/

/-- What a waiting event may send when it is processed. -/
inductive Sends (deployed : List (String × FlowDef)) (e : QueuedEvent) : QueuedEvent → Prop
  | along {f : FlowDef} (hf : deployed.lookup e.flowId = some f) {edge : FlowEdge}
      (hedge : edge ∈ f.edgesOf e.nodeId) (output : FlowEvent) :
      Sends deployed e (e.along output edge)
  | again {f : FlowDef} (hf : deployed.lookup e.flowId = some f) {n : FlowNode}
      (hn : f.node e.nodeId = some n) (hr : n.type.releases e.inputPort = true) {port : String}
      (hport : ReleasePort n.type port) (output : FlowEvent) :
      Sends deployed e (e.again output port)

/-- The event will send itself to its node once more. -/
def FlowDef.held (f : FlowDef) (e : QueuedEvent) : Nat :=
  match f.node e.nodeId with
  | some n => if n.type.releases e.inputPort then 1 else 0
  | none => 0

def NodeType.holdsBack : NodeType → Bool
  | .delay .. => true
  | .trigger _ => true
  | _ => false

/-- 1 for a delay or a trigger. -/
def FlowDef.holds (f : FlowDef) (id : String) : Nat :=
  match f.node id with
  | some n => if n.type.holdsBack then 1 else 0
  | none => 0

theorem holdsBack_of_releases {type : NodeType} {port : String} (h : type.releases port = true) :
    type.holdsBack = true := by
  cases type with
  | delay action delayMs => rfl
  | trigger settings => rfl
  | _ => cases h

theorem FlowDef.held_le (f : FlowDef) (e : QueuedEvent) : f.held e ≤ f.holds e.nodeId := by
  unfold FlowDef.held FlowDef.holds
  split
  · rename_i n hn
    split
    · rename_i hr
      rw [holdsBack_of_releases hr]
      simp
    · omega
  · omega

theorem held_again {f : FlowDef} {e : QueuedEvent} {n : FlowNode} (hn : f.node e.nodeId = some n)
    (hr : n.type.releases e.inputPort = true) {port : String} (hport : ReleasePort n.type port)
    (output : FlowEvent) : f.held e = 1 ∧ f.held (e.again output port) = 0 := by
  unfold FlowDef.held QueuedEvent.again
  dsimp only
  rw [hn]
  dsimp only
  rw [hr, hport]
  exact ⟨rfl, rfl⟩

theorem edge_of_mem {f : FlowDef} {edge : FlowEdge} {id : String} (h : edge ∈ f.edgesOf id) :
    Edge f.graph id edge.to_ := by
  obtain ⟨hmem, hid⟩ := List.mem_filter.1 h
  have hid : edge.source = id := by simpa using hid
  exact List.mem_map.2 ⟨edge, hmem, by rw [hid]⟩

theorem mem_of_lookup {deployed : List (String × FlowDef)} {id : String} {f : FlowDef}
    (h : deployed.lookup id = some f) : (id, f) ∈ deployed := by
  obtain ⟨before, after, rfl, -⟩ := List.lookup_eq_some_iff.1 h
  simp

/-- An event has a higher rank than what it sends. -/
theorem exists_event_rank {deployed : List (String × FlowDef)}
    (h : ∀ x ∈ deployed, Acyclic x.2.graph) :
    ∃ rank : QueuedEvent → Nat, ∀ e e', Sends deployed e e' → rank e' < rank e := by
  have hranks : ∀ f : FlowDef, ∃ rank : String → Nat, Acyclic f.graph →
      ∀ u v, Edge f.graph u v → rank v < rank u := by
    intro f
    by_cases hf : Acyclic f.graph
    · obtain ⟨rank, hrank⟩ := exists_rank hf
      exact ⟨rank, fun _ => hrank⟩
    · exact ⟨fun _ => 0, fun hf' => absurd hf' hf⟩
  choose rank hrank using hranks
  refine ⟨fun e => match deployed.lookup e.flowId with
    | some f => 2 * rank f e.nodeId + f.held e
    | none => 0, fun e e' hs => ?_⟩
  cases hs with
  | along hf hedge output =>
    rename_i f edge
    have hlt := hrank f (h _ (mem_of_lookup hf)) _ _ (edge_of_mem hedge)
    have hheld : f.held (e.along output edge) ≤ 1 := by
      unfold FlowDef.held
      split
      · split <;> omega
      · omega
    have hflow : (e.along output edge).flowId = e.flowId := rfl
    have hnode : (e.along output edge).nodeId = edge.to_ := rfl
    simp only [hflow, hf, hnode]
    omega
  | again hf hn hr hport output =>
    rename_i f n port
    obtain ⟨h1, h0⟩ := held_again hn hr hport output
    have hflow : (e.again output port).flowId = e.flowId := rfl
    have hnode : (e.again output port).nodeId = e.nodeId := rfl
    simp only [hflow, hf, hnode, h1, h0]
    omega

/-! ## Hops -/

/-- A way along the edges, with the number of its edges and of the delays and triggers on it. -/
inductive Travel (f : FlowDef) (u : String) : String → Nat → Prop
  | here : Travel f u u (f.holds u)
  | edge {v : String} {w : Nat} (h : Travel f u v w) {edge : FlowEdge}
      (hedge : edge ∈ f.edgesOf v) : Travel f u edge.to_ (w + 1 + f.holds edge.to_)

/-- The hops of an event that came from `e`. -/
theorem sends_hops {deployed : List (String × FlowDef)} {e e' : QueuedEvent}
    (h : Relation.ReflTransGen (Sends deployed) e e') {f : FlowDef}
    (hf : deployed.lookup e.flowId = some f) :
    e'.flowId = e.flowId ∧ ∃ w, Travel f e.nodeId e'.nodeId w ∧
      e'.hops + f.held e' ≤ e.hops + w := by
  induction h with
  | refl => exact ⟨rfl, _, .here, Nat.add_le_add_left (f.held_le e) _⟩
  | tail _ hs ih =>
    obtain ⟨hflow, w, hw, hle⟩ := ih
    cases hs with
    | along hf' hedge output =>
      rw [hflow, hf] at hf'
      obtain rfl := Option.some.inj hf'
      rename_i b _ edge
      refine ⟨hflow, _, .edge hw hedge, ?_⟩
      have hheld := f.held_le (b.along output edge)
      have hhops : (b.along output edge).hops = b.hops + 1 := rfl
      have hnode : (b.along output edge).nodeId = edge.to_ := rfl
      rw [hnode] at hheld
      omega
    | again hf' hn hr hport output =>
      rw [hflow, hf] at hf'
      obtain rfl := Option.some.inj hf'
      obtain ⟨h1, h0⟩ := held_again hn hr hport output
      refine ⟨hflow, w, hw, ?_⟩
      rename_i b _ _ port
      have hhops : (b.again output port).hops = b.hops + 1 := rfl
      omega

/-- A flow that is not deployed sends nothing. -/
theorem sends_none {deployed : List (String × FlowDef)} {e e' : QueuedEvent}
    (h : Relation.ReflTransGen (Sends deployed) e e') (hf : deployed.lookup e.flowId = none) :
    e' = e := by
  induction h with
  | refl => rfl
  | tail _ hs ih =>
    subst ih
    cases hs with
    | along hf' => rw [hf] at hf'; cases hf'
    | again hf' => rw [hf] at hf'; cases hf'

/-! ## The worker alone -/

/-- A step that stays inside the worker's event. -/
structure Kept (s s' : FlowState) : Prop where
  deployed : s'.deployed = s.deployed
  maxEventHops : s'.maxEventHops = s.maxEventHops
  events : s'.events = s.events
  hopErrors : s'.hopErrors = s.hopErrors

theorem Kept.refl (s : FlowState) : Kept s s := ⟨rfl, rfl, rfl, rfl⟩

theorem Kept.trans {s s' s'' : FlowState} (h : Kept s s') (h' : Kept s' s'') : Kept s s'' where
  deployed := h'.deployed.trans h.deployed
  maxEventHops := h'.maxEventHops.trans h.maxEventHops
  events := h'.events.trans h.events
  hopErrors := h'.hopErrors.trans h.hopErrors

/-- All events that wait. -/
def FlowState.pending (s : FlowState) : Multiset QueuedEvent :=
  ↑s.events + ↑s.queue + ↑(s.delayed.map Prod.snd)

theorem insertDelayed_pending (due : Int) (e : QueuedEvent) (l : List (Int × QueuedEvent)) :
    (↑((insertDelayed due e l).map Prod.snd) : Multiset QueuedEvent) =
      e ::ₘ ↑(l.map Prod.snd) :=
  Multiset.coe_eq_coe.2 ((insertDelayed_perm due e l).map Prod.snd)

/-- What a call of a node adds to the waiting events. -/
theorem perform_spec {s : FlowState} {e : QueuedEvent} {f : FlowDef} {n : FlowNode}
    (hf : s.deployed.lookup e.flowId = some f) (hn : f.node e.nodeId = some n) {st : NodeState}
    {a : Action} (ha : a.Allowed f n.type e st) :
    Kept s (s.perform e.flowId a).1 ∧
      Grows (Sends s.deployed e) s.pending (s.perform e.flowId a).1.pending := by
  have hagain : ∀ {x : QueuedEvent}, (∃ output port, x = e.again output port ∧
      Carried e st output ∧ n.type.releases e.inputPort = true ∧ ReleasePort n.type port) →
      Sends s.deployed e x := by
    intro x hx
    obtain ⟨output, port, rfl, -, hr, hport⟩ := hx
    exact .again hf hn hr hport output
  have halong : ∀ {x : QueuedEvent}, (∃ output edge, edge ∈ f.edgesOf e.nodeId ∧
      x = e.along output edge ∧ Carried e st output) → Sends s.deployed e x := by
    intro x hx
    obtain ⟨output, edge, hedge, rfl, -⟩ := hx
    exact .along hf hedge output
  cases a with
  | enqueue x =>
    obtain ⟨output, edge, hedge, hx, hcarried⟩ := ha
    refine ⟨⟨rfl, rfl, rfl, rfl⟩, ?_⟩
    have hpending : (s.perform e.flowId (.enqueue x)).1.pending = x ::ₘ s.pending := by
      unfold FlowState.pending FlowState.perform
      simp only [← Multiset.coe_add, ← Multiset.singleton_add, Multiset.coe_singleton]
      ac_rfl
    rw [hpending]
    exact .cons (halong ⟨output, edge, hedge, hx, hcarried⟩) le_rfl
  | enqueueDelayed x due =>
    unfold FlowState.perform
    dsimp only
    split
    · exact ⟨.refl s, .refl _ _⟩
    · refine ⟨⟨rfl, rfl, rfl, rfl⟩, ?_⟩
      unfold FlowState.pending
      rw [insertDelayed_pending, Multiset.add_cons]
      exact .cons (ha.elim halong hagain) le_rfl
  | replaceTriggerTimer x due =>
    have hkept : (↑((s.delayed.filter fun y => !sameTimer x y.2).map Prod.snd) :
        Multiset QueuedEvent) ≤ ↑(s.delayed.map Prod.snd) :=
      Multiset.coe_le.2 (List.filter_sublist.map Prod.snd).subperm
    unfold FlowState.perform
    dsimp only
    split
    · exact ⟨⟨rfl, rfl, rfl, rfl⟩, .of_le (add_le_add le_rfl hkept)⟩
    · refine ⟨⟨rfl, rfl, rfl, rfl⟩, ?_⟩
      unfold FlowState.pending
      rw [insertDelayed_pending, Multiset.add_cons]
      exact .cons (hagain ha) (add_le_add le_rfl hkept)
  | _ => exact ⟨⟨rfl, rfl, rfl, rfl⟩, .refl _ _⟩

variable [JsonLib] [FlowLib]

/-- The calls that are left. -/
def FlowState.calls (s : FlowState) : Nat :=
  match s.worker with
  | .acting _ calls => calls.length
  | _ => 0

/-- The first event of the worker's list. -/
def FlowState.process (s : FlowState) (now : Int) : FlowState :=
  let s := (s.step .enter).step (.work now)
  ((fun s => s.step .act)^[s.calls] s).step .append

/-- What the worker does next. -/
def FlowState.turn (s : FlowState) (now : Int) : FlowState :=
  match s.events with
  | [] => s.step (.takeQueue now)
  | _ => s.process now

/-- The worker at the times of a clock. -/
def FlowState.turns (s : FlowState) (now : Nat → Int) : Nat → FlowState
  | 0 => s
  | n + 1 => (s.turns now n).turn (now n)

/-! ## One event -/

theorem acts_done {s : FlowState} {e : QueuedEvent} (h : s.worker = .acting e []) (n : Nat) :
    (fun s => FlowState.step s .act)^[n] s = s := by
  have hstep : s.step .act = s := by
    unfold FlowState.step
    simp only [h]
  exact Function.iterate_fixed hstep n

/-- All calls of an event. -/
theorem acts_spec {e : QueuedEvent} {f : FlowDef} {n : FlowNode} (hn : f.node e.nodeId = some n)
    {st : NodeState} {calls : List Action} : ∀ {s : FlowState}, s.worker = .acting e calls →
    s.deployed.lookup e.flowId = some f → (∀ a ∈ calls, a.Allowed f n.type e st) →
    ∃ s', (fun s => FlowState.step s .act)^[calls.length] s = s' ∧ s'.worker = .acting e [] ∧
      Kept s s' ∧ Grows (Sends s.deployed e) s.pending s'.pending := by
  induction calls with
  | nil => exact fun hw _ _ => ⟨_, rfl, hw, .refl _, .refl _ _⟩
  | cons a calls ih =>
    intro s hw hf hallowed
    obtain ⟨hkept, hgrows⟩ := perform_spec hf hn (hallowed a (List.mem_cons_self ..))
    rw [List.length_cons, Function.iterate_succ_apply]
    have hstep : s.step .act = { (s.perform e.flowId a).1 with
        worker := .acting e (if (s.perform e.flowId a).2 then calls else []) } := by
      unfold FlowState.step
      simp only [hw]
    cases hgo : (s.perform e.flowId a).2 with
    | false =>
      rw [hstep, hgo, acts_done rfl]
      exact ⟨_, rfl, rfl, ⟨hkept.deployed, hkept.maxEventHops, hkept.events, hkept.hopErrors⟩,
        hgrows⟩
    | true =>
      rw [hstep, hgo]
      have hkept' : Kept s { (s.perform e.flowId a).1 with worker := .acting e calls } :=
        ⟨hkept.deployed, hkept.maxEventHops, hkept.events, hkept.hopErrors⟩
      obtain ⟨s', hs', hw', hk', hg'⟩ := ih (s := { (s.perform e.flowId a).1 with
        worker := .acting e calls }) rfl (by rw [hkept'.deployed]; exact hf)
        (fun b hb => hallowed b (List.mem_cons_of_mem _ hb))
      rw [hkept'.deployed] at hg'
      exact ⟨s', hs', hw', hkept'.trans hk', hgrows.trans hg'⟩

theorem append_pending {s : FlowState} {e : QueuedEvent}
    (h : s.worker = .acting e []) : (s.step .append).worker = .idle ∧ Kept s { s.step .append with
      events := s.events } ∧ (s.step .append).pending = s.pending := by
  unfold FlowState.step FlowState.pending
  simp only [h, ← Multiset.coe_add, Multiset.coe_nil, add_zero]
  exact ⟨trivial, ⟨rfl, rfl, rfl, rfl⟩, trivial⟩

/-- The second section of an event. -/
theorem work_spec {s : FlowState} {e : QueuedEvent} {f : FlowDef} {n : FlowNode}
    (h : s.worker = .entered e f n) (now : Int) : ∃ nodes st calls,
      s.step (.work now) = { s with nodes, worker := .acting e calls } ∧
      ∀ a ∈ calls, a.Allowed f n.type e st := by
  let st := s.nodes e.flowId e.nodeId
  refine ⟨Function.update s.nodes e.flowId (Function.update (s.nodes e.flowId) e.nodeId
    (nodeStep f n.type now e st).1), st, (nodeStep f n.type now e st).2, ?_,
    (nodeStep_spec f n.type now e st).1⟩
  unfold FlowState.step
  simp only [h, st]

/-- What the worker has after an event. -/
structure Processed (e : QueuedEvent) (rest : List QueuedEvent) (s s' : FlowState) : Prop where
  idle : s'.worker = .idle
  deployed : s'.deployed = s.deployed
  maxEventHops : s'.maxEventHops = s.maxEventHops
  hopErrors : e.hops ≤ s.maxEventHops → s'.hopErrors = s.hopErrors
  grows : Grows (Sends s.deployed e) (↑rest + ↑s.queue + ↑(s.delayed.map Prod.snd)) s'.pending

theorem process_spec {s : FlowState} {e : QueuedEvent} {rest : List QueuedEvent}
    (hw : s.worker = .idle) (he : s.events = e :: rest) (now : Int) :
    Processed e rest s (s.process now) := by
  have henter : s.step .enter = s.enter e rest := by
    unfold FlowState.step
    simp only [hw, he]
  obtain ⟨worker, errors, hs, herrors, hworker⟩ := enter_spec s e rest
  unfold FlowState.process
  rw [henter, hs]
  obtain rfl | ⟨f, n, rfl, hf, hn, _⟩ := hworker
  · exact ⟨rfl, rfl, rfl, herrors, .of_le (append_pending rfl).2.2.le⟩
  · obtain ⟨nodes, st, calls, hwork, hallowed⟩ := work_spec (s := { s with
      events := rest, worker := .entered e f n, hopErrors := errors }) rfl now
    obtain ⟨s', hs', hw', hkept, hgrows⟩ := acts_spec (s := { s with
      events := rest, nodes, worker := .acting e calls, hopErrors := errors }) hn rfl hf hallowed
    obtain ⟨hidle, happend, hpending⟩ := append_pending hw'
    rw [hwork]
    dsimp only [FlowState.calls]
    rw [hs']
    have hkept := hkept.trans happend
    exact ⟨hidle, hkept.deployed, hkept.maxEventHops, fun h => hkept.hopErrors.trans (herrors h),
      by rw [hpending]; exact hgrows⟩

/-! ## Runs -/

/-- The worker is between two events, and the flows that are deployed were accepted. -/
structure Ready (s : FlowState) : Prop where
  idle : s.worker = .idle
  accepted : ∀ x ∈ s.deployed, Accepted x.2

theorem take_pending {s : FlowState} (hw : s.worker = .idle)
    (he : s.events = []) (now : Int) :
    s.step (.takeQueue now) = { s with
      events := s.queue ++ (s.delayed.takeWhile fun x => x.1 ≤ now).map Prod.snd, queue := []
      delayed := s.delayed.dropWhile fun x => x.1 ≤ now } ∧
    (s.step (.takeQueue now)).pending = s.pending := by
  have hstep : s.step (.takeQueue now) = { s with
      events := s.queue ++ (s.delayed.takeWhile fun x => x.1 ≤ now).map Prod.snd, queue := []
      delayed := s.delayed.dropWhile fun x => x.1 ≤ now } := by
    unfold FlowState.step
    simp only [hw, he]
  refine ⟨hstep, ?_⟩
  rw [hstep]
  unfold FlowState.pending
  dsimp only
  conv_rhs => rw [he, ← List.takeWhile_append_dropWhile (p := fun x => decide (x.1 ≤ now))
    (l := s.delayed), List.map_append, ← Multiset.coe_add]
  rw [← Multiset.coe_add, Multiset.coe_nil, zero_add, add_zero, add_assoc]

/-- One turn of the worker. -/
structure Turned (s s' : FlowState) : Prop where
  ready : Ready s'
  deployed : s'.deployed = s.deployed
  maxEventHops : s'.maxEventHops = s.maxEventHops
  hopErrors : (∀ e ∈ s.pending, e.hops ≤ s.maxEventHops) → s'.hopErrors = s.hopErrors
  rest : s.events = [] → s'.pending = s.pending
  grows : s.events ≠ [] → ∃ e M, s.pending = e ::ₘ M ∧ Grows (Sends s.deployed e) M s'.pending

theorem turn_spec {s : FlowState} (h : Ready s) (now : Int) : Turned s (s.turn now) := by
  unfold FlowState.turn
  split
  · rename_i he
    obtain ⟨hstep, hpending⟩ := take_pending h.idle he now
    refine ⟨?_, ?_, ?_, fun _ => ?_, fun _ => hpending, fun hn => absurd he hn⟩
    · rw [hstep]
      exact ⟨h.idle, h.accepted⟩
    all_goals rw [hstep]
  · rename_i hne
    obtain ⟨e, rest, he⟩ : ∃ e rest, s.events = e :: rest := by
      cases he : s.events with
      | nil => exact absurd he hne
      | cons e rest => exact ⟨e, rest, rfl⟩
    have hp := process_spec h.idle he now
    have hpending : s.pending = e ::ₘ (↑rest + ↑s.queue + ↑(s.delayed.map Prod.snd)) := by
      unfold FlowState.pending
      rw [he, ← Multiset.cons_coe, Multiset.cons_add, Multiset.cons_add]
    refine ⟨⟨hp.idle, ?_⟩, hp.deployed, hp.maxEventHops, fun hhops => ?_, fun hn => ?_,
      fun _ => ⟨e, _, hpending, hp.grows⟩⟩
    · rw [hp.deployed]
      exact h.accepted
    · refine hp.hopErrors (hhops e ?_)
      rw [hpending]
      exact Multiset.mem_cons_self ..
    · exact absurd hn hne

theorem turns_ready {s : FlowState} (h : Ready s) (now : Nat → Int) (n : Nat) :
    Ready (s.turns now n) ∧ (s.turns now n).deployed = s.deployed ∧
      (s.turns now n).maxEventHops = s.maxEventHops := by
  induction n with
  | zero => exact ⟨h, rfl, rfl⟩
  | succ n ih =>
    obtain ⟨hready, hdeployed, hmax⟩ := ih
    have ht := turn_spec hready (now n)
    exact ⟨ht.ready, ht.deployed.trans hdeployed, ht.maxEventHops.trans hmax⟩

/-- **Quiescence.** The worker has nothing to do from some moment on. -/
theorem turns_idle {s : FlowState} (h : Ready s) (now : Nat → Int) :
    ∃ n, ∀ m, n ≤ m → (s.turns now m).events = [] := by
  obtain ⟨rank, hrank⟩ := exists_event_rank fun x hx => accepted_acyclic (h.accepted x hx)
  obtain ⟨n, hn⟩ := @eventually_idle FlowState (Multiset Nat) _
    Multiset.wellFounded_isDershowitzMannaLT (fun s => s.pending.map rank)
    (fun s => s.events ≠ []) (s.turns now)
    (fun n hbusy => by
      obtain ⟨hready, hdeployed, -⟩ := turns_ready h now n
      obtain ⟨e, M, hpending, hgrows⟩ := (turn_spec hready (now n)).grows hbusy
      rw [hdeployed] at hgrows
      show Multiset.IsDershowitzMannaLT (((s.turns now n).turn (now n)).pending.map rank) _
      rw [hpending]
      exact hgrows.lt fun x hx => hrank e x hx)
    (fun n hidle => by
      obtain ⟨hready, -, -⟩ := turns_ready h now n
      have hrest := (turn_spec hready (now n)).rest (not_not.1 hidle)
      show ((s.turns now n).turn (now n)).pending.map rank = _
      rw [hrest])
  exact ⟨n, fun m hm => not_not.1 (hn m hm)⟩

/-- Every waiting event came from one that waited at the start. -/
theorem turns_origin {s : FlowState} (h : Ready s) (now : Nat → Int) (n : Nat) :
    ∀ x ∈ (s.turns now n).pending,
      ∃ e ∈ s.pending, Relation.ReflTransGen (Sends s.deployed) e x := by
  induction n with
  | zero => exact fun x hx => ⟨x, hx, .refl⟩
  | succ n ih =>
    intro x hx
    obtain ⟨hready, hdeployed, -⟩ := turns_ready h now n
    have ht := turn_spec hready (now n)
    by_cases he : (s.turns now n).events = []
    · exact ih x (ht.rest he ▸ hx)
    · obtain ⟨e, M, hpending, hgrows⟩ := ht.grows he
      rw [hpending] at ih
      obtain hold | hnew := hgrows.mem hx
      · exact ih x (Multiset.mem_cons_of_mem hold)
      · obtain ⟨e₀, he₀, hpath⟩ := ih e (Multiset.mem_cons_self ..)
        rw [hdeployed] at hnew
        exact ⟨e₀, he₀, hpath.tail hnew⟩

/-- Every way of a waiting event stays within the limit. -/
def WithinLimit (s : FlowState) : Prop :=
  ∀ e ∈ s.pending, e.hops ≤ s.maxEventHops ∧ ∀ f, s.deployed.lookup e.flowId = some f →
    ∀ v w, Travel f e.nodeId v w → e.hops + w ≤ s.maxEventHops

theorem turns_hops {s : FlowState} (h : Ready s) (hlimit : WithinLimit s) (now : Nat → Int)
    (n : Nat) : ∀ x ∈ (s.turns now n).pending, x.hops ≤ s.maxEventHops := by
  intro x hx
  obtain ⟨e, he, hpath⟩ := turns_origin h now n x hx
  obtain ⟨hhops, hways⟩ := hlimit e he
  cases hf : s.deployed.lookup e.flowId with
  | none => rwa [sends_none hpath hf]
  | some f =>
    obtain ⟨-, w, hw, hle⟩ := sends_hops hpath hf
    have hway := hways f hf _ w hw
    omega

theorem turns_hopErrors {s : FlowState} (h : Ready s) (hlimit : WithinLimit s)
    (now : Nat → Int) (n : Nat) : (s.turns now n).hopErrors = s.hopErrors := by
  induction n with
  | zero => rfl
  | succ n ih =>
    obtain ⟨hready, -, hmax⟩ := turns_ready h now n
    rw [← ih]
    refine (turn_spec hready (now n)).hopErrors fun x hx => ?_
    rw [hmax]
    exact turns_hops h hlimit now n x hx

end

/-! ## Examples -/

section
attribute [local instance] intFloats intJson intFlowLib

/-- A rate limit before a display. -/
def limitedFlow : Json := .object [("id", .string "f"), ("name", .string "Limited"),
  ("nodes", .array [
    .object [("id", .string "limit"), ("type", .string "delay"),
      ("config", .object [("action", .string "rate_limit")])],
    .object [("id", .string "show"), ("type", .string "debug")]]),
  ("edges", .array [.object [("from", .string "limit"), ("to", .string "show")]])]

/-- Two events before the rate limit. -/
def limitedState (f : FlowDef) : FlowState :=
  { deployed := [("f", f)]
    events := [{ flowId := "f", nodeId := "limit", event := { present := true, value := .int 1 } },
      { flowId := "f", nodeId := "limit", event := { present := true, value := .int 2 } }] }

/-- A flow without a name. -/
def namelessFlow : Json :=
  .object [("id", .string "f"), ("nodes", .array []), ("edges", .array [])]

end

end OpcBridge.Flow
