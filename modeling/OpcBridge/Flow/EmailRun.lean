import OpcBridge.Flow.Place

/-!
# An e-mail node over a whole run

An e-mail node remembers the last value in two sections: the first one stores the value as it
arrived, and in Boolean mode the second one stores its Boolean value. `remembered` is the value once
the worker has made the calls that are left, so that only the events themselves change it
(`remembered_step`), and a run leaves what the last writable event says (`remembered_run`).
-/

namespace OpcBridge.Flow

open OpcBridge OpcBridge.Alarms Lib

section
variable [Floats] [JsonLib] [FlowLib]

/-! ## What an event says -/

section
omit [JsonLib] [FlowLib]

/-- The value of a writable event. -/
def writtenValue (e : FlowEvent) : Option Json :=
  match e.writable with
  | .ok _ => some e.value
  | .error _ => none

end

/-- The Boolean value of a writable event. -/
def booleanReading (e : FlowEvent) : Option Bool := (writtenValue e).bind asBool

/-- What a node in a mode keeps of a writable value. -/
def keptValue (mode : String) (value : Json) : Json :=
  if mode = "boolean_transition" then
    match asBool value with
    | some b => .bool b
    | none => value
  else value

/-- The latest Boolean value before the event was the opposite one, and its change is reported. -/
def Transition (sendTrue sendFalse : Bool) (before : List FlowEvent) (e : FlowEvent) : Prop :=
  ∃ b, booleanReading e = some b ∧ (before.filterMap booleanReading).getLast? = some (!b) ∧
    (if b then sendTrue else sendFalse) = true

/-- The latest writable value before the event was another one. -/
def Changed (before : List FlowEvent) (e : FlowEvent) : Prop :=
  ∃ value previous, writtenValue e = some value ∧
    (before.filterMap writtenValue).getLast? = some previous ∧
    ¬ JsonLib.eq previous value = true

/-- The latest writable value before the event is not a Boolean one. -/
def Interrupted (before : List FlowEvent) : Prop :=
  ∃ value, (before.filterMap writtenValue).getLast? = some value ∧ asBool value = none

/-! ## The remembered value -/

section
omit [JsonLib] [FlowLib]

/-- The value after the calls that are left. -/
def settle (value : Json) : List Action → Json
  | [] => value
  | .emailValue _ value _ :: rest => settle value rest
  | _ :: rest => settle value rest

def Action.isEmail : Action → Bool
  | .sendEmail .. => true
  | _ => false

end

namespace Place

section
omit [JsonLib] [FlowLib]

def remembered (p : Place) (s : FlowState) : Bool × Json :=
  ((p.state s).email.initialized, settle (p.state s).email.value (p.pending s.worker))

end

/-- The visit attempts to send an e-mail. -/
def Emails (p : Place) (v : Visit) : Prop := (p.result v).2.any Action.isEmail = true

variable {p : Place} {s : FlowState} {mode to_ : String} {sendTrue sendFalse : Bool}

section
omit [JsonLib] [FlowLib]

/-- Updates that leave the node's e-mail state alone. -/
theorem email_update {nodes : String → String → NodeState} {flowId nodeId : String} {st : NodeState}
    (h : flowId = p.flowId → nodeId = p.nodeId → st.email = (nodes flowId nodeId).email) :
    (Function.update nodes flowId (Function.update (nodes flowId) nodeId st)
      p.flowId p.nodeId).email = (nodes p.flowId p.nodeId).email := by
  by_cases hflow : p.flowId = flowId
  · subst hflow
    rw [Function.update_self]
    by_cases hnode : p.nodeId = nodeId
    · subst hnode
      rw [Function.update_self]
      exact h rfl rfl
    · rw [Function.update_of_ne hnode]
  · rw [Function.update_of_ne hflow]

theorem remembered_eq {s' : FlowState} (hemail : (p.state s').email = (p.state s).email)
    (hpending : p.pending s'.worker = p.pending s.worker) : p.remembered s' = p.remembered s := by
  unfold remembered
  rw [hemail, hpending]

end

/-! ## The node -/

section
omit [JsonLib] [FlowLib]

theorem emails_ite {c : Prop} [Decidable c] {text : String} {transition : Option Bool} :
    (if c then [Action.sendEmail to_ transition] else [.status text]).any Action.isEmail = true ↔
      c := by
  split <;> simp [Action.isEmail, *]

theorem settle_ite {c : Prop} [Decidable c] {text : String} {transition : Option Bool}
    {value : Json} :
    settle value (if c then [.sendEmail to_ transition] else [.status text]) = value := by
  split <;> rfl

theorem emails_cons {nodeId : String} {value : Json} {born : Nat} {rest : List Action} :
    (Action.emailValue nodeId value born :: rest).any Action.isEmail = rest.any Action.isEmail :=
  rfl

theorem changed_iff {previous : Json} {b : Bool} :
    (match previous with
      | .bool p => p != b
      | _ => false) = true ↔ previous = .bool (!b) := by
  cases previous with
  | bool p => cases p <;> cases b <;> simp
  | _ => simp

end

/-- Only a writable event counts. -/
theorem result_unwritable (htype : p.node.type = .emailOutput mode to_ sendTrue sendFalse)
    (hactive : p.flow.mode ≠ "monitor") {v : Visit} (h : writtenValue v.event.event = none) :
    (p.result v).1 = v.state ∧ ∃ error, (p.result v).2 = [.reject error] := by
  simp only [result, htype, nodeStep, outputStep]
  rw [if_neg hactive]
  unfold writtenValue at h
  split at h
  · cases h
  · rename_i error herror
    rw [herror]
    exact ⟨rfl, error, rfl⟩

theorem result_written (htype : p.node.type = .emailOutput mode to_ sendTrue sendFalse)
    (hactive : p.flow.mode ≠ "monitor") {v : Visit} {value : Json}
    (h : writtenValue v.event.event = some value) :
    (p.result v).1.email.initialized = true ∧
      settle (p.result v).1.email.value (p.result v).2 = keptValue mode value ∧
      (mode = "boolean_transition" → (p.Emails v ↔ ∃ b, asBool value = some b ∧
        v.state.email.initialized = true ∧ v.state.email.value = .bool (!b) ∧
        (if b then sendTrue else sendFalse) = true)) ∧
      (mode = "change" → (p.Emails v ↔ v.state.email.initialized = true ∧
        ¬ JsonLib.eq v.state.email.value value = true)) := by
  have hwritable : v.event.event.writable = .ok () := by
    unfold writtenValue at h
    split at h
    · assumption
    · cases h
  obtain rfl : v.event.event.value = value := by
    unfold writtenValue at h
    rw [hwritable] at h
    exact Option.some.inj h
  simp only [Emails, result, htype, nodeStep, outputStep]
  rw [if_neg hactive, hwritable]
  dsimp only
  refine ⟨rfl, ?_, fun hmode => ?_, fun hmode => ?_⟩
  · unfold keptValue
    by_cases hmode : mode = "boolean_transition"
    · rw [if_pos hmode, if_pos hmode]
      cases hb : asBool v.event.event.value with
      | none => rfl
      | some b => exact settle_ite
    · rw [if_neg hmode, if_neg hmode]
      exact settle_ite
  · rw [if_pos hmode]
    cases hb : asBool v.event.event.value with
    | none => simp [Action.isEmail]
    | some b =>
      dsimp only
      rw [emails_cons, emails_ite, Bool.and_eq_true, Bool.and_eq_true]
      refine (and_congr_left' (and_congr_right' changed_iff)).trans ?_
      simp [and_assoc]
  · rw [if_neg (by rw [hmode]; decide), emails_ite]
    subst hmode
    simp

/-- No call of the node is refused. -/
theorem result_unbounded (htype : p.node.type = .emailOutput mode to_ sendTrue sendFalse)
    {now : Int} {e : QueuedEvent} {st : NodeState} :
    ∀ a ∈ (nodeStep p.flow p.node.type now e st).2, a.bounded = false := by
  have hend : ∀ {c : Prop} [Decidable c] {text : String} {transition : Option Bool},
      ∀ a ∈ (if c then [Action.sendEmail to_ transition] else [.status text]),
        a.bounded = false := by
    intro c _ text transition
    split <;> simp [Action.bounded]
  simp only [htype, nodeStep, outputStep]
  split
  · simp [Action.bounded]
  · split
    · simp [Action.bounded]
    · dsimp only
      split
      · split
        · simp [Action.bounded]
        · exact List.forall_mem_cons.2 ⟨rfl, hend⟩
      · exact hend

/-! ## One step -/

theorem Left.unbounded (htype : p.node.type = .emailOutput mode to_ sendTrue sendFalse)
    {e : QueuedEvent} {rest : List Action} (h : p.Left e rest) (hhere : p.here e = true) :
    ∀ a ∈ rest, a.bounded = false := by
  obtain ⟨g, m, now, st, hsuffix, hnode⟩ := h
  obtain ⟨rfl, rfl⟩ := hnode hhere
  exact fun a ha => result_unbounded htype a (hsuffix.subset ha)

omit [JsonLib] [FlowLib] in
/-- A call that is made settles. -/
theorem perform_settle {a : Action} (rest : List Action) {flowId : String}
    (hflow : flowId = p.flowId) (hbounded : a.bounded = false)
    (hnode : ∀ nodeId value born, a = .emailValue nodeId value born → nodeId = p.nodeId) :
    (s.perform flowId a).2 = true ∧
      (p.state (s.perform flowId a).1).email.initialized = (p.state s).email.initialized ∧
      settle (p.state (s.perform flowId a).1).email.value rest =
        settle (p.state s).email.value (a :: rest) := by
  cases a with
  | enqueueDelayed e due => cases hbounded
  | replaceTriggerTimer e due => cases hbounded
  | emailValue nodeId value born =>
    obtain rfl := hnode nodeId value born rfl
    subst hflow
    simp [FlowState.perform, state, settle]
  | _ => exact ⟨rfl, rfl, rfl⟩

omit [JsonLib] [FlowLib] in
/-- A call of another node. -/
theorem perform_other {a : Action} {flowId nodeId : String}
    (hother : ¬ (flowId = p.flowId ∧ nodeId = p.nodeId))
    (hnode : ∀ nodeId' value born, a = .emailValue nodeId' value born → nodeId' = nodeId) :
    (p.state (s.perform flowId a).1).email = (p.state s).email := by
  cases a with
  | enqueueDelayed e due =>
    simp only [FlowState.perform]
    split <;> rfl
  | replaceTriggerTimer e due =>
    simp only [FlowState.perform]
    split <;> rfl
  | emailValue nodeId' value born =>
    obtain rfl := hnode nodeId' value born rfl
    exact email_update fun hflow hnode => absurd ⟨hflow, hnode⟩ hother
  | _ => rfl

theorem act_remembered (htype : p.node.type = .emailOutput mode to_ sendTrue sendFalse)
    (h : p.Runs s) : p.remembered (s.step .act) = p.remembered s := by
  simp only [FlowState.step]
  split
  · rename_i e a rest hworker
    have hleft : p.Left e (a :: rest) := by
      have hok := h.worker
      rw [hworker] at hok
      exact hok
    have hnode : ∀ nodeId value born, a = .emailValue nodeId value born → nodeId = e.nodeId := by
      intro nodeId value born heq
      obtain ⟨g, m, st, hallowed⟩ := hleft.allowed List.mem_cons_self
      rw [heq] at hallowed
      exact hallowed.1
    unfold remembered
    rw [hworker]
    by_cases hhere : p.here e = true
    · obtain ⟨hflow, hid⟩ := p.here_iff.1 hhere
      have hbounded := hleft.unbounded htype hhere a List.mem_cons_self
      rw [hid] at hnode
      obtain ⟨hgo, hinit, hvalue⟩ := perform_settle (s := s) rest hflow hbounded hnode
      simp only [pending, hhere, if_true, hgo]
      exact Prod.ext hinit hvalue
    · have hother : ¬ (e.flowId = p.flowId ∧ e.nodeId = p.nodeId) := fun heq =>
        hhere (p.here_iff.2 heq)
      simp only [pending, if_neg hhere]
      exact congrArg (fun email : EmailState => (email.initialized, email.value))
        (perform_other hother hnode)
  · rfl

theorem work_remembered (h : p.Runs s) (now : Int) :
    (p.visit s (.work now) = none → p.remembered (s.step (.work now)) = p.remembered s) ∧
      ∀ v, p.visit s (.work now) = some v → p.remembered (s.step (.work now)) =
        ((p.result v).1.email.initialized, settle (p.result v).1.email.value (p.result v).2) := by
  cases hw : s.worker with
  | entered e g m =>
    simp only [FlowState.step, hw]
    by_cases hhere : p.here e = true
    · obtain ⟨hflow, hnode⟩ := p.here_iff.1 hhere
      obtain ⟨rfl, rfl⟩ := h.entered hw hhere
      have hvisit : p.visit s (.work now) = some ⟨now, e, p.state s⟩ := by simp [visit, hw, hhere]
      rw [hvisit]
      refine ⟨fun hnone => (by cases hnone), fun v hv => ?_⟩
      obtain rfl := Option.some.inj hv
      simp only [remembered, pending, hhere, if_true, state, hflow, hnode, Function.update_self]
      rfl
    · have hother : ¬ (e.flowId = p.flowId ∧ e.nodeId = p.nodeId) := fun heq =>
        hhere (p.here_iff.2 heq)
      have hvisit : p.visit s (.work now) = none := by simp [visit, hw, hhere]
      rw [hvisit]
      refine ⟨fun _ => ?_, fun v hv => (by cases hv)⟩
      refine remembered_eq (email_update fun hflow hnode => absurd ⟨hflow, hnode⟩ hother) ?_
      simp only [pending, hw, if_neg hhere]
  | _ =>
    simp only [FlowState.step, visit, hw]
    exact ⟨fun _ => trivial, fun v hv => (by cases hv)⟩

omit [JsonLib] [FlowLib] in
theorem visit_remembered {e : FlowStep} {v : Visit} (h : p.visit s e = some v) :
    p.remembered s = (v.state.email.initialized, v.state.email.value) := by
  obtain ⟨now, g, m, rfl, hworker, hhere, hv⟩ := visit_spec h
  rw [hv, remembered, hworker]
  rfl

theorem pollRow_remembered (row : Option (Json × Int)) :
    p.remembered (s.step (.pollRow row)) = p.remembered s := by
  simp only [FlowState.step]
  split
  · rename_i t tasks hworker
    have hskip : p.remembered { s with worker := .afterPoll tasks } = p.remembered s :=
      remembered_eq rfl (by rw [hworker, pending_afterPoll]; rfl)
    split
    · exact hskip
    · split
      · exact hskip
      · unfold FlowState.pollRow
        split
        · exact hskip
        · refine remembered_eq (email_update fun _ _ => rfl) ?_
          dsimp only
          split
          · rw [hworker]
            rfl
          · rw [hworker, pending_afterPoll]
            rfl
  · rfl

/-- Only a visit changes what the node will remember. -/
theorem other_remembered (htype : p.node.type = .emailOutput mode to_ sendTrue sendFalse)
    (h : p.Runs s) {e : FlowStep} (hstays : p.Stays e) (hvisit : p.visit s e = none) :
    p.remembered (s.step e) = p.remembered s := by
  cases e with
  | pollInputs due =>
    simp only [FlowState.step]
    split
    · rename_i hworker _
      exact remembered_eq rfl (by rw [hworker, pending_afterPoll]; rfl)
    · rfl
  | pollRow row => exact pollRow_remembered row
  | pollEnqueue =>
    simp only [FlowState.step]
    split
    · rename_i hworker
      exact remembered_eq rfl (by rw [hworker, pending_afterPoll]; rfl)
    · rfl
  | takeQueue now =>
    simp only [FlowState.step]
    split <;> rfl
  | enter =>
    simp only [FlowState.step]
    split
    · rename_i e rest hworker _
      obtain ⟨w, errors, heq, -, hw⟩ := enter_spec s e rest
      rw [heq]
      refine remembered_eq rfl ?_
      rw [hworker]
      rcases hw with rfl | ⟨g, m, rfl, -⟩
      · exact ite_self _
      · rfl
    · rfl
  | work now => exact (work_remembered h now).1 hvisit
  | act => exact act_remembered htype h
  | append =>
    simp only [FlowState.step]
    split
    · rename_i hworker
      refine remembered_eq rfl ?_
      rw [hworker]
      exact (ite_self _).symm
    · rfl
  | handOver i =>
    simp only [FlowState.step]
    split <;> rfl
  | deploy id f next =>
    refine remembered_eq ?_ rfl
    simp only [state, FlowState.step, Function.update_of_ne hstays.1.symm]
  | disable id next =>
    refine remembered_eq ?_ rfl
    simp only [state, FlowState.step, Function.update_of_ne hstays.1.symm]
  | _ => rfl

/-! ## The whole run -/

/-- What the node remembers after the events of a run. -/
def memory (mode : String) (before : List FlowEvent) : Bool × Json :=
  match (before.filterMap writtenValue).getLast? with
  | some value => (true, keptValue mode value)
  | none => (false, .null)

omit [JsonLib] [FlowLib] in
theorem memory_snoc {before : List FlowEvent} {e : FlowEvent} :
    memory mode (before ++ [e]) =
      match writtenValue e with
      | some value => (true, keptValue mode value)
      | none => memory mode before := by
  unfold memory
  cases h : writtenValue e with
  | none =>
    rw [List.filterMap_append, List.filterMap_cons_none h, List.filterMap_nil, List.append_nil]
  | some value =>
    rw [List.filterMap_append, List.filterMap_cons_some h, List.filterMap_nil, List.getLast?_concat]

theorem remembered_run (htype : p.node.type = .emailOutput mode to_ sendTrue sendFalse)
    (hactive : p.flow.mode ≠ "monitor") (h : p.Runs s) (hfresh : p.remembered s = (false, .null))
    {es : List FlowStep} (hok : Along FlowState.step (fun _ e => p.Stays e) s es) :
    p.remembered (run FlowState.step s es) = memory mode (p.inputs s es) := by
  induction es using List.reverseRecOn with
  | nil => exact hfresh
  | append_singleton es e ih =>
    obtain ⟨hbefore, hlast, -⟩ := along_append.1 hok
    have hruns := run_runs h hbefore
    rw [inputs, outputs_snoc, run_append]
    cases hvisit : p.visit (run FlowState.step s es) e with
    | none =>
      rw [Option.toList_none, List.map_nil, List.append_nil]
      exact (other_remembered htype hruns hlast hvisit).trans (ih hbefore)
    | some v =>
      obtain ⟨now, g, m, rfl, hworker, hhere, -⟩ := visit_spec hvisit
      have hstep := (work_remembered hruns now).2 v hvisit
      rw [Option.toList_some, List.map_cons, List.map_nil, memory_snoc]
      refine hstep.trans ?_
      cases hwritten : writtenValue v.event.event with
      | none =>
        obtain ⟨hstate, error, hcalls⟩ := result_unwritable htype hactive hwritten
        rw [hstate, hcalls]
        exact (visit_remembered hvisit).symm.trans (ih hbefore)
      | some value =>
        obtain ⟨hinit, hvalue, -⟩ := result_written htype hactive hwritten
        rw [hinit, hvalue]

/-- The flow has just been deployed, and the worker is not inside the node. -/
structure Fresh (p : Place) (s : FlowState) : Prop where
  runs : p.Runs s
  email : (p.state s).email = {}
  away : p.pending s.worker = []

omit [JsonLib] [FlowLib] in
theorem putFlow_lookup (id : String) (f : FlowDef) (next : List (String × FlowDef)) :
    (putFlow id f next).lookup id = some f := by
  have hsmaller : (next.filter fun x => x.1 < id).lookup id = none := by
    rw [List.lookup_eq_none_iff]
    intro x hx
    have hlt := (List.mem_filter.1 hx).2
    simp only [decide_eq_true_eq] at hlt
    simp only [bne_iff_ne]
    exact fun heq => String.lt_irrefl id (heq ▸ hlt)
  rw [putFlow, List.lookup_append, hsmaller, List.lookup_cons_self]
  rfl

theorem deploy_fresh (p : Place) (s : FlowState) (next : List (String × FlowDef))
    (hworker : s.worker = .idle) : p.Fresh (s.step (.deploy p.flowId p.flow next)) where
  runs := by
    refine ⟨putFlow_lookup p.flowId p.flow next, ?_⟩
    simp only [FlowState.step, hworker]
    trivial
  email := by simp only [state, FlowState.step, Function.update_self]
  away := by simp only [FlowState.step, hworker, pending]

omit [JsonLib] [FlowLib] in
theorem readings_eq (before : List FlowEvent) :
    before.filterMap booleanReading = (before.filterMap writtenValue).filterMap asBool := by
  rw [List.filterMap_filterMap]
  rfl

omit [JsonLib] [FlowLib] in
theorem readings_last {before : List FlowEvent} {value : Json} {b : Bool}
    (h : (before.filterMap writtenValue).getLast? = some value) (hb : asBool value = some b) :
    (before.filterMap booleanReading).getLast? = some b := by
  obtain ⟨others, hothers⟩ := List.getLast?_eq_some_iff.1 h
  rw [readings_eq, hothers, List.filterMap_append, List.filterMap_cons_some hb, List.filterMap_nil,
    List.getLast?_concat]

theorem not_emails_unwritable (htype : p.node.type = .emailOutput mode to_ sendTrue sendFalse)
    (hactive : p.flow.mode ≠ "monitor") {v : Visit} (h : writtenValue v.event.event = none) :
    ¬ p.Emails v := by
  obtain ⟨-, error, hcalls⟩ := result_unwritable htype hactive h
  intro hemails
  rw [Emails, hcalls] at hemails
  cases hemails

/-- An e-mail is sent for the Boolean events of a transition, as long as no other value came
between. -/
theorem emails_iff_transition
    (htype : p.node.type = .emailOutput "boolean_transition" to_ sendTrue sendFalse)
    (hactive : p.flow.mode ≠ "monitor") {v : Visit} {before : List FlowEvent}
    (hmemory : (v.state.email.initialized, v.state.email.value) =
      memory "boolean_transition" before) :
    p.Emails v ↔ Transition sendTrue sendFalse before v.event.event ∧ ¬ Interrupted before := by
  cases hwritten : writtenValue v.event.event with
  | none =>
    refine iff_of_false (not_emails_unwritable htype hactive hwritten) fun ⟨⟨b, hb, _⟩, _⟩ => ?_
    rw [booleanReading, hwritten] at hb
    cases hb
  | some value =>
    refine ((result_written htype hactive hwritten).2.2.1 rfl).trans ?_
    have hreading : booleanReading v.event.event = asBool value := by
      rw [booleanReading, hwritten]
      rfl
    unfold memory at hmemory
    cases hlast : (before.filterMap writtenValue).getLast? with
    | none =>
      rw [hlast] at hmemory
      obtain ⟨hinit, -⟩ := Prod.mk.inj hmemory
      rw [List.getLast?_eq_none_iff] at hlast
      refine iff_of_false (fun ⟨b, _, hon, _⟩ => ?_) fun ⟨⟨b, _, hb, _⟩, _⟩ => ?_
      · rw [hinit] at hon
        cases hon
      · rw [readings_eq, hlast] at hb
        cases hb
    | some previous =>
      rw [hlast] at hmemory
      obtain ⟨hinit, hvalue⟩ := Prod.mk.inj hmemory
      rw [hinit, hvalue, keptValue, if_pos rfl]
      cases hprevious : asBool previous with
      | none =>
        -- an incompatible value is no Boolean one, so no transition is seen
        refine iff_of_false (fun ⟨b, _, _, hb, _⟩ => ?_) fun ⟨_, hnone⟩ => ?_
        · rw [show previous = .bool (!b) from hb] at hprevious
          cases hprevious
        · exact hnone ⟨previous, hlast, hprevious⟩
      | some c =>
        have hnot : ¬ Interrupted before := by
          intro ⟨value', hvalue', hnone⟩
          obtain rfl := Option.some.inj (hlast.symm.trans hvalue')
          rw [hprevious] at hnone
          cases hnone
        rw [Transition, hreading, readings_last hlast hprevious]
        simp [hnot]

theorem emails_iff_changed (htype : p.node.type = .emailOutput "change" to_ sendTrue sendFalse)
    (hactive : p.flow.mode ≠ "monitor") {v : Visit} {before : List FlowEvent}
    (hmemory : (v.state.email.initialized, v.state.email.value) = memory "change" before) :
    p.Emails v ↔ Changed before v.event.event := by
  cases hwritten : writtenValue v.event.event with
  | none =>
    refine iff_of_false (not_emails_unwritable htype hactive hwritten) ?_
    intro ⟨value, _, hvalue, _⟩
    rw [hwritten] at hvalue
    cases hvalue
  | some value =>
    refine ((result_written htype hactive hwritten).2.2.2 rfl).trans ?_
    unfold memory at hmemory
    unfold Changed
    cases hlast : (before.filterMap writtenValue).getLast? with
    | none =>
      rw [hlast] at hmemory
      simp [(Prod.mk.inj hmemory).1]
    | some previous =>
      rw [hlast] at hmemory
      obtain ⟨hinit, hvalue⟩ := Prod.mk.inj hmemory
      rw [hinit, hvalue, keptValue, if_neg (by decide), hwritten]
      simp

/-- An e-mail is attempted at a visit of the run exactly for a transition. -/
def MissesNone (p : Place) (sendTrue sendFalse : Bool) (s : FlowState) (es : List FlowStep) :
    Prop :=
  ∀ pre e v, Happens es pre e → p.visit (run FlowState.step s pre) e = some v →
    (p.Emails v ↔ Transition sendTrue sendFalse (p.inputs s pre) v.event.event)

/-- No transition of the run follows a value that is no Boolean one. -/
def Uninterrupted (p : Place) (sendTrue sendFalse : Bool) (s : FlowState) (es : List FlowStep) :
    Prop :=
  ∀ pre e v, Happens es pre e → p.visit (run FlowState.step s pre) e = some v →
    Transition sendTrue sendFalse (p.inputs s pre) v.event.event → ¬ Interrupted (p.inputs s pre)

/-- An e-mail is attempted at a visit of the run exactly for a change. -/
def TracksChanges (p : Place) (s : FlowState) (es : List FlowStep) : Prop :=
  ∀ pre e v, Happens es pre e → p.visit (run FlowState.step s pre) e = some v →
    (p.Emails v ↔ Changed (p.inputs s pre) v.event.event)

/-- **What an e-mail node sends.** -/
theorem email_on_transition (p : Place) (mode to_ : String) (sendTrue sendFalse : Bool)
    (htype : p.node.type = .emailOutput mode to_ sendTrue sendFalse)
    (hactive : p.flow.mode ≠ "monitor") (s : FlowState) (hfresh : p.Fresh s) (es : List FlowStep)
    (hok : Along FlowState.step (fun _ e => p.Stays e) s es) :
    (mode = "boolean_transition" →
      (p.MissesNone sendTrue sendFalse s es ↔ p.Uninterrupted sendTrue sendFalse s es)) ∧
    (mode = "change" → p.TracksChanges s es) := by
  have hmemory : ∀ pre e v, Happens es pre e → p.visit (run FlowState.step s pre) e = some v →
      (v.state.email.initialized, v.state.email.value) = memory mode (p.inputs s pre) := by
    intro pre e v hhappens hvisit
    have hstart : p.remembered s = (false, .null) := by
      rw [remembered, hfresh.email, hfresh.away]
      rfl
    have hpre : Along FlowState.step (fun _ e => p.Stays e) s pre := by
      obtain ⟨rest, rfl⟩ := hhappens
      exact (along_append.1 (along_append.1 hok).1).1
    rw [← visit_remembered hvisit]
    exact remembered_run htype hactive hfresh.runs hstart hpre
  refine ⟨fun hmode => ?_, fun hmode => ?_⟩
  · subst hmode
    refine forall_congr' fun pre => forall_congr' fun e => forall_congr' fun v =>
      forall_congr' fun hhappens => forall_congr' fun hvisit => ?_
    rw [emails_iff_transition htype hactive (hmemory pre e v hhappens hvisit)]
    tauto
  · subst hmode
    intro pre e v hhappens hvisit
    exact emails_iff_changed htype hactive (hmemory pre e v hhappens hvisit)

end Place

end

/-! ## Examples -/

section
attribute [local instance] intFloats intJson intFlowLib

/-- A lamp whose switching is reported. -/
def lamp : Place where
  flowId := "F"
  nodeId := "lamp"
  flow := { nodes := [⟨"lamp", .emailOutput "boolean_transition" "home" true true⟩], edges := [] }
  node := ⟨"lamp", .emailOutput "boolean_transition" "home" true true⟩
  found := rfl

def lampStart : FlowState := ({} : FlowState).step (.deploy "F" lamp.flow [])

def lampInput (value : Json) : List FlowStep :=
  [.inject "F" "lamp" value 0, .handOver 0, .takeQueue 0, .enter, .work 0, .act, .act, .append]

theorem lampInput_stays (value : Json) : ∀ e ∈ lampInput value, lamp.Stays e := by
  simp [lampInput, Place.Stays]

theorem lamp_switched :
    lamp.MissesNone true true lampStart (lampInput (.bool true) ++ lampInput (.bool false)) ↔
      lamp.Uninterrupted true true lampStart
        (lampInput (.bool true) ++ lampInput (.bool false)) := by
  refine (Place.email_on_transition lamp "boolean_transition" "home" true true rfl (by decide)
    lampStart (Place.deploy_fresh lamp {} [] rfl) _ (along_of_forall fun e he => ?_)).1 rfl
  rcases List.mem_append.1 he with hon | hoff
  · exact lampInput_stays _ e hon
  · exact lampInput_stays _ e hoff

/-- The lamp is switched off, but a text came between. -/
theorem lamp_missed : ¬ ∀ (p : Place) (to_ : String) (sendTrue sendFalse : Bool) (s : FlowState)
    (es : List FlowStep), p.node.type = .emailOutput "boolean_transition" to_ sendTrue sendFalse →
    p.flow.mode ≠ "monitor" → p.Fresh s →
    Along FlowState.step (fun _ e => p.Stays e) s es → p.MissesNone sendTrue sendFalse s es := by
  intro h
  let pre := lampInput (.bool true) ++ lampInput (.string "foo") ++ (lampInput (.bool false)).take 4
  have hall := h lamp "home" true true lampStart (pre ++ [.work 0]) rfl (by decide)
    (Place.deploy_fresh lamp {} [] rfl) (along_of_forall fun e he => ?_)
  · have hno : ((lamp.visit (run FlowState.step lampStart pre) (.work 0)).map fun v =>
        ((lamp.result v).2.any Action.isEmail, booleanReading v.event.event)) =
          some (false, some false) := by decide +kernel
    obtain ⟨v, hvisit, hv⟩ := Option.map_eq_some_iff.1 hno
    obtain ⟨hsilent, hreading⟩ := Prod.mk.inj hv
    have hemails := (hall pre (.work 0) v (happens_self _ _) hvisit).2
      ⟨false, hreading, by decide +kernel, rfl⟩
    rw [Place.Emails, hsilent] at hemails
    cases hemails
  · revert e
    simp [pre, lampInput, Place.Stays]

end

end OpcBridge.Flow
