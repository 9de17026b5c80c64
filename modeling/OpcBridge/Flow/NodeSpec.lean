import OpcBridge.Flow.Node

/-!
# What a node may do

`nodeStep_spec` says once what any node does with an event: the events it sends go along an edge of
the node or back to the node itself, one hop further, with the epoch of the event, and they carry
the event's value or the pending one of a rate limit. `nodeStep_from` says that the node's state
then holds the event's value besides what it held.
-/

namespace OpcBridge.Flow

open OpcBridge OpcBridge.Alarms

variable [Floats] [JsonLib] [FlowLib]

/-! ## Provenance -/

section
omit [JsonLib] [FlowLib]

/-- Every value in the state was received in the epoch `k`. -/
structure NodeState.From (k : Nat) (s : NodeState) : Prop where
  combine : ∀ port e, s.combine port = some e → e.born = k
  boolean : ∀ port e, s.boolean port = some e → e.born = k
  json : ∀ port e, s.json port = some e → e.born = k
  compute : ∀ port e, s.compute port = some e → e.born = k
  rate : ∀ e, s.rate.latest = some e → e.born = k
  trigger : s.trigger.generation = 0 ∨ s.trigger.born = k
  email : s.email.initialized = false ∨ s.email.born = k
  lastInput : s.lastInput.isNull = true ∨ s.lastBorn = k

theorem NodeState.from_empty (k : Nat) : ({} : NodeState).From k where
  combine := fun _ _ h => (by cases h)
  boolean := fun _ _ h => (by cases h)
  json := fun _ _ h => (by cases h)
  compute := fun _ _ h => (by cases h)
  rate := fun _ h => (by cases h)
  trigger := .inl rfl
  email := .inl rfl
  lastInput := .inl rfl

/-- The output carries the event's value, or the pending one. -/
def Carried (q : QueuedEvent) (s : NodeState) (output : FlowEvent) : Prop :=
  output.born = q.event.born ∨ (s.rate.latest.map FlowEvent.born) = some output.born

theorem carried_self (q : QueuedEvent) (s : NodeState) : Carried q s q.event := .inl rfl

/-- The node holds events back and sends itself a message to release one. -/
def NodeType.releases : NodeType → String → Bool
  | .delay action _, port => action == "rate_limit" && port != rateReleasePort
  | .trigger _, port => !isTriggerRelease port
  | _, _ => false

/-- The ports of the messages that a node sends to itself. -/
def ReleasePort (type : NodeType) (port : String) : Prop := type.releases port = false

/-- What a call of a node may be. -/
def Action.Allowed (f : FlowDef) (type : NodeType) (q : QueuedEvent) (s : NodeState) :
    Action → Prop
  | .enqueue e => ∃ output edge, edge ∈ f.edgesOf q.nodeId ∧ e = q.along output edge ∧
      Carried q s output
  | .enqueueDelayed e _ =>
    (∃ output edge, edge ∈ f.edgesOf q.nodeId ∧ e = q.along output edge ∧ Carried q s output) ∨
    (∃ output port, e = q.again output port ∧ Carried q s output ∧
      type.releases q.inputPort = true ∧ ReleasePort type port)
  | .replaceTriggerTimer e _ => ∃ output port, e = q.again output port ∧ Carried q s output ∧
      type.releases q.inputPort = true ∧ ReleasePort type port
  | .emailValue nodeId _ born => nodeId = q.nodeId ∧ born = q.event.born
  | _ => True

variable {f : FlowDef} {type : NodeType} {q : QueuedEvent} {s : NodeState}

theorem enqueueAll_allowed {output : FlowEvent} (ho : Carried q s output) {edges : List FlowEdge}
    (he : ∀ edge ∈ edges, edge ∈ f.edgesOf q.nodeId) :
    ∀ a ∈ enqueueAll q output edges, a.Allowed f type q s := by
  intro a ha
  obtain ⟨edge, hedge, rfl⟩ := List.mem_map.1 ha
  exact ⟨output, edge, he edge hedge, rfl, ho⟩

theorem emitAll_allowed {output : FlowEvent} (ho : Carried q s output) :
    ∀ a ∈ emitAll f q output, a.Allowed f type q s := by
  intro a ha
  obtain rfl | ha := List.mem_cons.1 ha
  · trivial
  · exact enqueueAll_allowed ho (fun _ h => h) a ha

/-- A list of calls that ends with a call that sends nothing. -/
theorem allowed_append {as : List Action} {a : Action} (h : ∀ b ∈ as, b.Allowed f type q s)
    (ha : a.Allowed f type q s) : ∀ b ∈ as ++ [a], b.Allowed f type q s := by
  intro b hb
  obtain hb | hb := List.mem_append.1 hb
  · exact h b hb
  · rwa [List.mem_singleton.1 hb]

theorem allowed_singleton {a : Action} (ha : a.Allowed f type q s) :
    ∀ b ∈ [a], b.Allowed f type q s := by
  intro b hb
  rwa [List.mem_singleton.1 hb]

theorem allowed_ite {c : Prop} [Decidable c] {as bs : List Action}
    (ha : ∀ a ∈ as, a.Allowed f type q s) (hb : ∀ b ∈ bs, b.Allowed f type q s) :
    ∀ a ∈ (if c then as else bs), a.Allowed f type q s := by
  split
  · exact ha
  · exact hb

theorem writable_bind {α : Type} {e : FlowEvent} {next : Except String α} {x : α}
    (h : (e.writable >>= fun _ => next) = .ok x) : next = .ok x := by
  cases hw : e.writable with
  | error m =>
    rw [hw] at h
    cases h
  | ok u =>
    rw [hw] at h
    exact h

end

/-! ## Split and switch -/

section
omit [JsonLib] [FlowLib]
variable {f : FlowDef} {type : NodeType} {q : QueuedEvent} {s : NodeState}

theorem splitStep_allowed : ∀ a ∈ splitStep f q, a.Allowed f type q s := by
  unfold splitStep
  split
  · exact allowed_singleton trivial
  · split
    · exact allowed_singleton trivial
    · refine allowed_append (fun a ha => ?_) trivial
      obtain ⟨x, -, ha⟩ := List.mem_flatMap.1 ha
      refine enqueueAll_allowed ?_ (fun _ h => h) a ha
      exact .inl rfl

theorem switchStep_allowed (rules : List String) (checkAll otherwise : Bool) :
    ∀ a ∈ switchStep f q rules checkAll otherwise, a.Allowed f type q s := by
  unfold switchStep
  dsimp only
  split
  · refine allowed_append (fun a ha => ?_) trivial
    split at ha
    · exact enqueueAll_allowed (carried_self q s) (fun _ h => (List.mem_filter.1 h).1) a ha
    · cases ha
  · refine allowed_append (fun a ha => ?_) trivial
    obtain ⟨i, -, ha⟩ := List.mem_flatMap.1 ha
    exact enqueueAll_allowed (carried_self q s) (fun _ h => (List.mem_filter.1 h).1) a ha

end

/-! ## Values -/

variable {f : FlowDef} {type : NodeType} {q : QueuedEvent} {s : NodeState}

theorem transform_born {e output : FlowEvent} (h : transform e type = .ok output) :
    output.born = e.born := by
  cases type with
  | linearMap inMin inMax outMin outMax clamp =>
    have h := writable_bind h
    dsimp only at h
    split at h
    · cases h
    · rw [← Except.ok.inj h]
  | bitOperations operation outputMode booleanTest width operand comparison invertBoolean =>
    have h := writable_bind h
    dsimp only at h
    split at h
    · cases h
    · split at h
      · cases h
      · split at h <;> rw [← Except.ok.inj h]
  | booleanInvert =>
    have h := writable_bind h
    split at h
    · cases h
    · rw [← Except.ok.inj h]
  | datatypeConvert target =>
    have h := writable_bind h
    split at h
    · split at h
      · rw [← Except.ok.inj h]
      · cases h
    · split at h
      · split at h
        · rw [← Except.ok.inj h]
        · cases h
      · split at h
        · split at h
          · rw [← Except.ok.inj h]
          · cases h
        · rw [← Except.ok.inj h]
  | _ => rw [← Except.ok.inj h]

/-! ## Retained inputs -/

/-- What an accepted input adds, and where the output comes from. -/
theorem retention_spec {r : Retention} (h : retention q s type = .ok r) :
    (∃ inputs, r.retained = retain inputs q ∧ (inputs = s.combine ∧ (∃ m b, type = .combine m b) ∨
      inputs = s.boolean ∧ (∃ o, type = .booleanLogic o) ∨
      inputs = s.json ∧ (∃ l, type = .buildJson l) ∨
      inputs = s.compute ∧ ∃ l x, type = .compute l x)) ∧
    ∀ output, r.output = some (.ok output) → output.born = q.event.born := by
  cases type with
  | combine mode signedResult =>
    have h := writable_bind h
    dsimp only at h
    split at h
    · cases h
    · split at h
      · cases h
      · obtain rfl := Except.ok.inj h
        refine ⟨⟨_, rfl, .inl ⟨rfl, _, _, rfl⟩⟩, fun output ho => ?_⟩
        dsimp only at ho
        split at ho
        · rw [← Except.ok.inj (Option.some.inj ho)]
        · cases ho
  | booleanLogic operation =>
    have h := writable_bind h
    dsimp only at h
    split at h
    · cases h
    · split at h
      · cases h
      · obtain rfl := Except.ok.inj h
        refine ⟨⟨_, rfl, .inr (.inl ⟨rfl, _, rfl⟩)⟩, fun output ho => ?_⟩
        dsimp only at ho
        split at ho
        · rw [← Except.ok.inj (Option.some.inj ho)]
        · cases ho
  | buildJson fields =>
    have h := writable_bind h
    dsimp only at h
    split at h
    · cases h
    · obtain rfl := Except.ok.inj h
      refine ⟨⟨_, rfl, .inr (.inr (.inl ⟨rfl, _, rfl⟩))⟩, fun output ho => ?_⟩
      dsimp only at ho
      split at ho
      · rw [← Except.ok.inj (Option.some.inj ho)]
      · cases ho
  | compute inputs expression =>
    have h := writable_bind h
    dsimp only at h
    split at h
    · cases h
    · split at h
      · cases h
      · obtain rfl := Except.ok.inj h
        refine ⟨⟨_, rfl, .inr (.inr (.inr ⟨rfl, _, _, rfl⟩))⟩, fun output ho => ?_⟩
        dsimp only at ho
        split at ho
        · have ho := Option.some.inj ho
          cases hx : FlowLib.evaluate expression _ with
          | error m =>
            rw [hx] at ho
            cases ho
          | ok x =>
            rw [hx] at ho
            rw [← Except.ok.inj ho]
        · cases ho
  | _ => cases h

omit [JsonLib] [FlowLib] in
theorem retain_from {k : Nat} {inputs : String → Option FlowEvent}
    (h : ∀ port e, inputs port = some e → e.born = k) (hq : q.event.born = k) :
    ∀ port e, retain inputs q port = some e → e.born = k := by
  intro port e he
  by_cases hp : port = q.inputPort
  · subst hp
    simp only [retain, Function.update_self, Option.some.injEq] at he
    rw [← he, hq]
  · simp only [retain, Function.update_of_ne hp] at he
    exact h port e he

theorem retainStep_spec (f : FlowDef) (type : NodeType) (q : QueuedEvent) (s : NodeState) :
    (∀ a ∈ (retainStep f type q s).2, a.Allowed f type q s) ∧
      ∀ k, s.From k → q.event.born = k → (retainStep f type q s).1.From k := by
  unfold retainStep
  cases hr : retention q s type with
  | error e => exact ⟨allowed_singleton trivial, fun k h _ => h⟩
  | ok r =>
    obtain ⟨⟨inputs, hretained, hinputs⟩, hout⟩ := retention_spec hr
    dsimp only
    refine ⟨?_, fun k h hq => ?_⟩
    · split
      · exact allowed_singleton trivial
      · exact allowed_singleton trivial
      · rename_i output ho
        exact emitAll_allowed (.inl (hout output ho))
    · rw [hretained]
      rcases hinputs with ⟨rfl, m, b, rfl⟩ | ⟨rfl, o, rfl⟩ | ⟨rfl, l, rfl⟩ | ⟨rfl, l, x, rfl⟩
      · exact { h with combine := retain_from h.combine hq }
      · exact { h with boolean := retain_from h.boolean hq }
      · exact { h with json := retain_from h.json hq }
      · exact { h with compute := retain_from h.compute hq }

/-! ## Delay and trigger -/

omit [JsonLib] [FlowLib] in
theorem delayStep_spec (f : FlowDef) (action : String) (delayMs now : Int) (q : QueuedEvent)
    (s : NodeState) :
    (∀ a ∈ (delayStep f action delayMs now q s).2, a.Allowed f (.delay action delayMs) q s) ∧
      ∀ k, s.From k → q.event.born = k → (delayStep f action delayMs now q s).1.From k := by
  unfold delayStep
  dsimp only
  split
  · refine ⟨allowed_append (enqueueAll_allowed ?_ fun _ h => h) trivial, fun k h hq => ?_⟩
    · cases hl : s.rate.latest with
      | none => exact .inl rfl
      | some e =>
        right
        rw [hl]
        rfl
    · exact { h with rate := h.rate }
  · rename_i hrelease
    cases hw : q.event.writable with
    | error e => exact ⟨allowed_singleton trivial, fun k h _ => h⟩
    | ok u =>
      have hpending : ∀ k, q.event.born = k → ∀ e, some q.event = some e → e.born = k := by
        intro k hq e he
        rw [← Option.some.inj he, hq]
      dsimp only
      split
      · rename_i haction
        subst haction
        have hport : q.inputPort ≠ rateReleasePort := fun hp => hrelease ⟨rfl, hp⟩
        split
        · exact ⟨allowed_singleton trivial, fun k h hq => { h with rate := hpending k hq }⟩
        · split
          · refine ⟨allowed_append (enqueueAll_allowed (carried_self q s) fun _ h => h) trivial,
              fun k h hq => { h with rate := hpending k hq }⟩
          · refine ⟨fun a ha => ?_, fun k h hq => { h with rate := hpending k hq }⟩
            simp only [List.mem_cons, List.not_mem_nil, or_false] at ha
            rcases ha with rfl | rfl
            · refine .inr ⟨q.event, rateReleasePort, rfl, carried_self q s, ?_, ?_⟩
              · simp [NodeType.releases, hport]
              · simp [ReleasePort, NodeType.releases]
            · trivial
      · refine ⟨allowed_append (fun a ha => ?_) trivial, fun k h _ => h⟩
        obtain ⟨edge, hedge, rfl⟩ := List.mem_map.1 ha
        exact .inl ⟨q.event, edge, hedge, rfl, carried_self q s⟩

omit [JsonLib] [FlowLib] in
theorem sendValue_allowed (now : Int) (value : Json) (status : String) :
    ∀ a ∈ sendValue f q now value status, a.Allowed f type q s := by
  unfold sendValue
  refine allowed_append (enqueueAll_allowed ?_ fun _ h => h) trivial
  exact .inl rfl

omit [Floats] [JsonLib] [FlowLib] in
theorem isTriggerRelease_append (text : String) :
    isTriggerRelease (triggerReleasePort ++ text) = true := by
  simp [isTriggerRelease]

theorem triggerStep_spec (f : FlowDef) (c : TriggerSettings) (now : Int) (q : QueuedEvent)
    (s : NodeState) :
    (∀ a ∈ (triggerStep f c now q s).2, a.Allowed f (.trigger c) q s) ∧
      ∀ k, s.From k → q.event.born = k → (triggerStep f c now q s).1.From k := by
  unfold triggerStep
  dsimp only
  split
  · split
    · refine ⟨?_, fun k h hq => { h with trigger := .inl rfl }⟩
      dsimp only
      split
      · exact sendValue_allowed now _ _
      · exact allowed_singleton trivial
    · exact ⟨fun a ha => (by cases ha), fun k h _ => h⟩
  · rename_i hrelease
    cases hw : q.event.writable with
    | error e => exact ⟨allowed_singleton trivial, fun k h _ => h⟩
    | ok u =>
      dsimp only
      split
      · exact ⟨allowed_singleton trivial, fun k h hq => { h with trigger := .inr hq }⟩
      · split
        · refine ⟨allowed_append (fun a ha => ?_) ?_, fun k h hq => { h with trigger := .inr hq }⟩
          · split at ha
            · exact sendValue_allowed now _ _ a ha
            · cases ha
          · refine ⟨q.event, _, rfl, carried_self q s, ?_, ?_⟩
            · simp [NodeType.releases, hrelease]
            · simp only [ReleasePort, NodeType.releases, isTriggerRelease_append, Bool.not_true]
        · exact ⟨fun a ha => (by cases ha), fun k h _ => h⟩

/-! ## Outputs -/

theorem outputStep_spec (f : FlowDef) (type : NodeType) (now : Int) (q : QueuedEvent)
    (s : NodeState) :
    (∀ a ∈ (outputStep f type now q s).2, a.Allowed f type q s) ∧
      ∀ k, s.From k → q.event.born = k → (outputStep f type now q s).1.From k := by
  unfold outputStep
  cases type with
  | opcTagWrite connectionId tagName staleAfterMs =>
    dsimp only
    split
    · exact ⟨allowed_singleton trivial, fun k h _ => h⟩
    · split
      · exact ⟨allowed_singleton trivial, fun k h _ => h⟩
      · refine ⟨?_, fun k h _ => h⟩
        dsimp only
        split
        · exact allowed_singleton trivial
        · exact allowed_singleton trivial
  | mqttPublish connectionId topic payloadFormat =>
    dsimp only
    split
    · exact ⟨allowed_singleton trivial, fun k h _ => h⟩
    · split
      · exact ⟨allowed_singleton trivial, fun k h _ => h⟩
      · exact ⟨allowed_singleton trivial, fun k h _ => h⟩
  | emailOutput mode to_ sendTrue sendFalse =>
    dsimp only
    split
    · exact ⟨allowed_singleton trivial, fun k h _ => h⟩
    · split
      · exact ⟨allowed_singleton trivial, fun k h _ => h⟩
      · refine ⟨?_, fun k h hq => { h with email := .inr hq }⟩
        dsimp only
        split
        · split
          · exact allowed_singleton trivial
          · intro a ha
            obtain rfl | ha := List.mem_cons.1 ha
            · exact ⟨rfl, rfl⟩
            · refine allowed_ite (allowed_singleton ?_) (allowed_singleton ?_) a ha
              · trivial
              · trivial
        · split
          · exact allowed_singleton trivial
          · exact allowed_singleton trivial
  | _ => exact ⟨fun a ha => (by cases ha), fun k h _ => h⟩

/-! ## All nodes -/

theorem transform_allowed (f : FlowDef) (type : NodeType) (q : QueuedEvent) (s : NodeState) :
    ∀ a : Action, a ∈ (match transform q.event type with
      | .error e => [Action.reject e]
      | .ok output => emitAll f q output) → a.Allowed f type q s := by
  cases ht : transform q.event type with
  | error e => exact allowed_singleton trivial
  | ok output => exact emitAll_allowed (.inl (transform_born ht))

/-- **What any node does with an event.** -/
theorem nodeStep_spec (f : FlowDef) (type : NodeType) (now : Int) (q : QueuedEvent)
    (s : NodeState) :
    (∀ a ∈ (nodeStep f type now q s).2, a.Allowed f type q s) ∧
      ∀ k, s.From k → q.event.born = k → (nodeStep f type now q s).1.From k := by
  have htransform := transform_allowed f type q s
  cases type with
  | split => exact ⟨splitStep_allowed, fun k h _ => h⟩
  | switch rules checkAll otherwise =>
    exact ⟨switchStep_allowed rules checkAll otherwise, fun k h _ => h⟩
  | combine mode signedResult => exact retainStep_spec f _ q s
  | booleanLogic operation => exact retainStep_spec f _ q s
  | buildJson fields => exact retainStep_spec f _ q s
  | compute inputs expression => exact retainStep_spec f _ q s
  | delay action delayMs => exact delayStep_spec f action delayMs now q s
  | trigger settings => exact triggerStep_spec f settings now q s
  | opcTagWrite connectionId tagName staleAfterMs => exact outputStep_spec f _ now q s
  | mqttPublish connectionId topic payloadFormat => exact outputStep_spec f _ now q s
  | emailOutput mode to_ sendTrue sendFalse => exact outputStep_spec f _ now q s
  | _ => exact ⟨htransform, fun k h _ => h⟩

end OpcBridge.Flow
