import OpcBridge.Core.Numerals
import OpcBridge.Flow.NodeRun
import OpcBridge.Lib.History

/-!
# A trigger over a whole run

A trigger counts its generations; the generation is zero while no timer runs, and a timer is a
message of the trigger to itself that carries the generation in its port. `TimerInv` says which
messages wait for which generation, also while the worker is inside the node. A run keeps it as long
as no step counts without starting a timer, and no timer is refused or dropped.
-/

namespace OpcBridge.Flow

open OpcBridge OpcBridge.Alarms Lib

/-! ## The timers of a run -/

inductive TimerEvent
  | started (generation : UInt64)
  | fired (generation : UInt64)
  deriving DecidableEq

/-- Each timer that was started is fired next, or extended by the next one, or still runs; and only
the timer that was started last is fired. -/
structure Served (extends_ : Bool) (log : List TimerEvent) (running : UInt64) : Prop where
  started : ∀ pre g post, log = pre ++ .started g :: post → g ≠ 0 ∧
    (post = [] ∧ running = g ∨ (∃ rest, post = .fired g :: rest) ∨
      extends_ = true ∧ ∃ g' rest, post = .started g' :: rest)
  fired : ∀ pre g post, log = pre ++ .fired g :: post → ∃ before, pre = before ++ [.started g]
  last : running ≠ 0 → ∃ before, log = before ++ [.started running]

theorem served_nil (extends_ : Bool) : Served extends_ [] 0 where
  started := fun pre g post h => by simp at h
  fired := fun pre g post h => by simp at h
  last := fun h => absurd rfl h

/-- An entry of a list that goes on is the new one or an old one. -/
theorem snoc_split {α : Type} {l pre post : List α} {x t : α} (h : l ++ [t] = pre ++ x :: post) :
    (post = [] ∧ pre = l ∧ x = t) ∨ ∃ rest, post = rest ++ [t] ∧ l = pre ++ x :: rest := by
  rcases List.eq_nil_or_concat post with rfl | ⟨rest, y, hpost⟩
  · left
    obtain ⟨rfl, hlast⟩ := List.append_inj' h rfl
    exact ⟨rfl, rfl, (List.cons.inj hlast).1.symm⟩
  · right
    rw [List.concat_eq_append] at hpost
    have h' : l ++ [t] = (pre ++ x :: rest) ++ [y] := by
      rw [h, hpost, List.append_assoc, List.cons_append]
    obtain ⟨rfl, hlast⟩ := List.append_inj' h' rfl
    exact ⟨rest, by rw [hpost, (List.cons.inj hlast).1], rfl⟩

theorem Served.start {extends_ : Bool} {log : List TimerEvent} {g g' : UInt64}
    (h : Served extends_ log g) (hg' : g' ≠ 0) (hfree : extends_ = true ∨ g = 0) :
    Served extends_ (log ++ [.started g']) g' where
  started pre x post heq := by
    rcases snoc_split heq with ⟨rfl, -, hx⟩ | ⟨rest, rfl, hold⟩
    · obtain rfl := TimerEvent.started.inj hx
      exact ⟨hg', .inl ⟨rfl, rfl⟩⟩
    · obtain ⟨hx, ⟨rfl, rfl⟩ | ⟨rest', rfl⟩ | ⟨hext, y, rest', rfl⟩⟩ := h.started pre x rest hold
      · exact ⟨hx, .inr (.inr ⟨hfree.resolve_right hx, g', [], rfl⟩)⟩
      · exact ⟨hx, .inr (.inl ⟨_, rfl⟩)⟩
      · exact ⟨hx, .inr (.inr ⟨hext, y, _, rfl⟩)⟩
  fired pre x post heq := by
    rcases snoc_split heq with ⟨-, -, hx⟩ | ⟨rest, -, hold⟩
    · cases hx
    · exact h.fired pre x rest hold
  last _ := ⟨log, rfl⟩

theorem Served.fire {extends_ : Bool} {log : List TimerEvent} {g : UInt64}
    (h : Served extends_ log g) (hg : g ≠ 0) : Served extends_ (log ++ [.fired g]) 0 where
  started pre x post heq := by
    rcases snoc_split heq with ⟨-, -, hx⟩ | ⟨rest, rfl, hold⟩
    · cases hx
    · obtain ⟨hx, ⟨rfl, rfl⟩ | ⟨rest', rfl⟩ | ⟨hext, y, rest', rfl⟩⟩ := h.started pre x rest hold
      · exact ⟨hx, .inr (.inl ⟨[], rfl⟩)⟩
      · exact ⟨hx, .inr (.inl ⟨_, rfl⟩)⟩
      · exact ⟨hx, .inr (.inr ⟨hext, y, _, rfl⟩)⟩
  fired pre x post heq := by
    rcases snoc_split heq with ⟨-, rfl, hx⟩ | ⟨rest, -, hold⟩
    · obtain rfl := TimerEvent.fired.inj hx
      exact h.last hg
    · exact h.fired pre x rest hold
  last h0 := absurd rfl h0

/-! ## Counting -/

theorem lt_succ_of_lt {x g : UInt64} (h : x < g) (hg : g + 1 ≠ 0) : x < g + 1 := by
  have hne : (g + 1).toNat ≠ 0 := fun h0 => hg (UInt64.toNat_inj.1 h0)
  rw [UInt64.lt_iff_toNat_lt] at h ⊢
  rw [UInt64.toNat_add] at hne ⊢
  have hlt := g.toNat_lt
  have hone : (1 : UInt64).toNat = 1 := rfl
  omega

theorem lt_succ_self {g : UInt64} (hg : g + 1 ≠ 0) : g < g + 1 := by
  have hne : (g + 1).toNat ≠ 0 := fun h0 => hg (UInt64.toNat_inj.1 h0)
  rw [UInt64.lt_iff_toNat_lt]
  rw [UInt64.toNat_add] at hne ⊢
  have hlt := g.toNat_lt
  have hone : (1 : UInt64).toNat = 1 := rfl
  omega

section
variable [Floats] [JsonLib] [FlowLib]

/-! ## Generations -/

section
omit [JsonLib] [FlowLib]

/-- The generation in the port of a trigger's message. -/
def QueuedEvent.generation (e : QueuedEvent) : UInt64 :=
  UInt64.ofNat ((stoul (String.ofList (e.inputPort.toList.drop 18))).getD 0)

/-- The port of a timer. -/
def releasePort (generation : UInt64) : String :=
  triggerReleasePort ++ toString generation.toNat

omit [Floats] in
theorem toList_releasePort (g : UInt64) :
    (releasePort g).toList = triggerReleasePort.toList ++ Nat.toDigits 10 g.toNat := by
  have hdigits : (toString g.toNat).toList = Nat.toDigits 10 g.toNat := by
    show (Nat.repr g.toNat).toList = _
    rw [Nat.repr, String.toList_ofList]
  rw [releasePort, String.toList_append, hdigits]

omit [Floats] in
theorem isTriggerRelease_releasePort (g : UInt64) : isTriggerRelease (releasePort g) = true := by
  rw [isTriggerRelease, toList_releasePort, List.isPrefixOf_iff_prefix]
  exact List.prefix_append _ _

/-- `stoull` reads the generation back. -/
theorem generation_again (q : QueuedEvent) (output : FlowEvent) (g : UInt64) :
    (q.again output (releasePort g)).generation = g := by
  have hdrop : (releasePort g).toList.drop 18 = Nat.toDigits 10 g.toNat := by
    rw [toList_releasePort]
    rfl
  show UInt64.ofNat ((stoul (String.ofList ((releasePort g).toList.drop 18))).getD 0) = g
  rw [hdrop, stoul_toDigits g.toNat_lt, Option.getD_some, UInt64.ofNat_toNat]

end

/-! ## Visits -/

namespace Visit

variable (c : TriggerSettings) (v : Visit)

def Input : Prop :=
  isTriggerRelease v.event.inputPort = false ∧ v.event.event.writable = .ok ()

def Resets : Prop :=
  v.Input ∧ c.resetEnabled = true ∧
    JsonLib.eq v.event.event.value (configuredFlowValue c.resetValue) = true

def Starts : Prop :=
  v.Input ∧ ¬ v.Resets c ∧ (c.extendDelay = true ∨ v.state.trigger.generation = 0)

def Fires : Prop :=
  isTriggerRelease v.event.inputPort = true ∧ v.state.trigger.generation = v.event.generation

end Visit

namespace Site

variable {p : Site} {c : TriggerSettings} {v : Visit}

/-- The message that a started timer sends. -/
def timerOf (v : Visit) : QueuedEvent :=
  v.event.again v.event.event (releasePort (v.state.trigger.generation + 1))

theorem result_starts (hc : p.node.type = .trigger c) (h : v.Starts c) :
    p.result v = ({ v.state with
      trigger := { generation := v.state.trigger.generation + 1, born := v.event.event.born } },
      (if c.sendInitial then
        sendValue p.flow v.event v.now (configuredFlowValue c.initialValue) "trigger started"
      else []) ++ [.replaceTriggerTimer (timerOf v) (v.now + max 1 c.durationMs)]) := by
  obtain ⟨hinput, hreset, hfree⟩ := h
  have hnoreset : ¬ (c.resetEnabled = true ∧
      JsonLib.eq v.event.event.value (configuredFlowValue c.resetValue) = true) :=
    fun hr => hreset ⟨hinput, hr⟩
  simp only [result, hc, nodeStep, triggerStep]
  rw [if_neg (by rw [hinput.1]; exact Bool.false_ne_true), hinput.2]
  dsimp only
  rw [if_neg hnoreset, if_pos hfree]
  rfl

theorem result_fires (hc : p.node.type = .trigger c) (h : v.Fires) :
    p.result v = ({ v.state with trigger := { generation := 0, born := v.event.event.born } },
      if c.sendDelayed then
        sendValue p.flow v.event v.now (configuredFlowValue c.delayedValue) "trigger timeout"
      else [.status "trigger completed"]) := by
  simp only [result, hc, nodeStep, triggerStep]
  rw [if_pos h.1]
  exact if_pos h.2

/-- Any other event leaves the timer alone. -/
theorem result_other (hc : p.node.type = .trigger c) (hstart : ¬ v.Starts c) (hfire : ¬ v.Fires)
    (hreset : ¬ v.Resets c) : (p.result v).1 = v.state ∧ ∀ a ∈ (p.result v).2, ∃ e, a = .reject e := by
  simp only [result, hc, nodeStep, triggerStep]
  split
  · rename_i hrelease
    have hother : ¬ v.state.trigger.generation = v.event.generation := fun hg =>
      hfire ⟨hrelease, hg⟩
    unfold QueuedEvent.generation at hother
    rw [if_neg hother]
    exact ⟨rfl, fun a ha => by cases ha⟩
  · rename_i hport
    split
    · rename_i e _
      exact ⟨rfl, fun a ha => ⟨e, List.mem_singleton.1 ha⟩⟩
    · rename_i hwritable
      have hinput : v.Input := ⟨Bool.eq_false_iff.2 hport, hwritable⟩
      rw [if_neg fun hr => hreset ⟨hinput, hr⟩, if_neg fun hfree => hstart ⟨hinput, hreset, hfree⟩]
      exact ⟨rfl, fun a ha => by cases ha⟩

omit [JsonLib] [FlowLib] in
theorem sendValue_unbounded (f : FlowDef) (q : QueuedEvent) (now : Int) (value : Json)
    (status : String) : ∀ a ∈ sendValue f q now value status, a.bounded = false := by
  intro a ha
  rcases List.mem_append.1 ha with hsend | hmark
  · obtain ⟨edge, -, rfl⟩ := List.mem_map.1 hsend
    rfl
  · rw [List.mem_singleton.1 hmark]
    rfl

/-! ## Which messages wait -/

section
omit [JsonLib] [FlowLib]

/-- The timers in the delayed queue and in the worker's list, for a generation. -/
inductive Waits : UInt64 → List (Int × QueuedEvent) → List QueuedEvent → Prop
  | idle : Waits 0 [] []
  | running {g : UInt64} {due : Int} {e : QueuedEvent} (hg : g ≠ 0) (he : e.generation = g) :
      Waits g [(due, e)] []
  /-- The worker has taken the timer of an earlier generation. -/
  | overtaken {g : UInt64} {due : Int} {e x : QueuedEvent} (hg : g ≠ 0) (he : e.generation = g)
      (hx : x.generation < g) : Waits g [(due, e)] [x]
  | due {g : UInt64} {e : QueuedEvent} (hg : g ≠ 0) (he : e.generation = g) : Waits g [] [e]

/-- What waits in the worker's list while the timer of the generation is not yet queued. -/
def Earlier (g : UInt64) (waiting : List QueuedEvent) : Prop :=
  waiting = [] ∨ ∃ x, waiting = [x] ∧ x.generation < g

variable {g : UInt64} {delayed : List (Int × QueuedEvent)} {waiting : List QueuedEvent}
  {e : QueuedEvent}

theorem Waits.count (h : Waits g delayed waiting) (hg : g + 1 ≠ 0) : Earlier (g + 1) waiting := by
  cases h with
  | idle => exact .inl rfl
  | running => exact .inl rfl
  | overtaken _ _ hx => exact .inr ⟨_, rfl, lt_succ_of_lt hx hg⟩
  | due _ he =>
    refine .inr ⟨_, rfl, ?_⟩
    rw [he]
    exact lt_succ_self hg

theorem Earlier.queue (h : Earlier g waiting) (hg : g ≠ 0) (due : Int) (he : e.generation = g) :
    Waits g [(due, e)] waiting := by
  rcases h with rfl | ⟨x, rfl, hx⟩
  · exact .running hg he
  · exact .overtaken hg he hx

theorem Waits.fire (h : Waits g delayed (e :: waiting)) (he : g = e.generation) :
    g ≠ 0 ∧ Waits 0 delayed waiting := by
  cases h with
  | overtaken _ _ hx =>
    rw [he] at hx
    exact absurd hx (UInt64.lt_irrefl _)
  | due hg _ => exact ⟨hg, .idle⟩

theorem Waits.stale (h : Waits g delayed (e :: waiting)) (he : g ≠ e.generation) :
    Waits g delayed waiting := by
  cases h with
  | overtaken hg he' _ => exact .running hg he'
  | due _ he' => exact absurd he'.symm he

theorem Waits.take (h : Waits g delayed []) (now : Int) :
    Waits g (delayed.dropWhile fun x => x.1 ≤ now)
      ((delayed.takeWhile fun x => x.1 ≤ now).map Prod.snd) := by
  cases h with
  | idle => exact .idle
  | @running _ due e hg he =>
    by_cases hdue : due ≤ now
    · simp only [List.dropWhile, List.takeWhile, hdue]
      exact .due hg he
    · simp only [List.dropWhile, List.takeWhile, hdue]
      exact .running hg he

/-- A timer of the generation waits exactly if the generation counts. -/
theorem Waits.iff (h : Waits g delayed waiting) :
    g ≠ 0 ↔ ∃ e ∈ delayed.map Prod.snd ++ waiting, e.generation = g := by
  cases h with
  | idle => simp
  | running hg he => simp [hg, he]
  | overtaken hg he hx => simp [hg, he]
  | due hg he => simp [hg, he]

/-- What the view says, wherever the worker is. -/
def TimerInv (p : Site) (w : View) : Prop :=
  match w.phase with
  | .away => Waits w.trigger.generation w.delayed w.waiting
  | .entered e => Waits w.trigger.generation w.delayed (if p.own e then e :: w.waiting else w.waiting)
  | .acting _ rest =>
    (∀ a ∈ rest, a.bounded = false) ∧ Waits w.trigger.generation w.delayed w.waiting ∨
    ∃ calls e due, rest = calls ++ [.replaceTriggerTimer e due] ∧ (∀ a ∈ calls, a.bounded = false) ∧
      p.own e = true ∧ e.generation = w.trigger.generation ∧ w.trigger.generation ≠ 0 ∧
      Earlier w.trigger.generation w.waiting

end

/-! ## One step -/

/-- No reset arrives, the count does not overflow, and a started timer is neither too many hops away
nor refused by a full queue. -/
structure TriggerOk (p : Site) (c : TriggerSettings) (s : FlowState)
    (e : FlowStep) : Prop where
  stays : p.Stays e
  noReset : ∀ v, p.visit s e = some v → ¬ v.Resets c
  count : ∀ v, p.visit s e = some v → v.Starts c → v.state.trigger.generation + 1 ≠ 0
  hops : ∀ v, p.visit s e = some v → v.Starts c → v.event.hops < s.maxEventHops
  room : ∀ q e' due rest, e = .act → s.worker = .acting q (.replaceTriggerTimer e' due :: rest) →
    p.own e' = true → (s.delayed.filter fun x => !sameTimer e' x.2).length < delayedLimit

def startedTimer : Action → Option TimerEvent
  | .replaceTriggerTimer e _ => some (.started e.generation)
  | _ => none

/-- What a visit does with the timer. -/
def timers (p : Site) (v : Visit) : List TimerEvent :=
  if isTriggerRelease v.event.inputPort then
    if v.state.trigger.generation = v.event.generation then [.fired v.event.generation] else []
  else (p.result v).2.filterMap startedTimer

variable {s : FlowState} {e : FlowStep}

section
omit [JsonLib] [FlowLib]

theorem releases_trigger (hc : p.node.type = .trigger c) (port : String) :
    p.node.type.releases port = !isTriggerRelease port := by
  rw [hc]
  rfl

theorem own_iff (hc : p.node.type = .trigger c) {q : QueuedEvent} :
    p.own q = true ↔ p.here q = true ∧ isTriggerRelease q.inputPort = true := by
  rw [own, releases_trigger hc, Bool.not_not, Bool.and_eq_true]

/-- A new timer of the node replaces every old one. -/
theorem sameTimer_own (hc : p.node.type = .trigger c) {e' q : QueuedEvent} (he : p.own e' = true)
    (hq : p.own q = true) : sameTimer e' q = true := by
  obtain ⟨hflow, hnode⟩ := p.here_iff.1 (here_of_own he)
  obtain ⟨hhere, hport⟩ := (own_iff hc).1 hq
  obtain ⟨hflow', hnode'⟩ := p.here_iff.1 hhere
  simp [sameTimer, hflow, hnode, hflow', hnode', hport]

theorem reject_unbounded {as : List Action} (h : ∀ a ∈ as, ∃ e, a = .reject e) :
    ∀ a ∈ as, a.bounded = false := by
  intro a ha
  obtain ⟨e, rfl⟩ := h a ha
  rfl

theorem startedTimer_unbounded {as : List Action} (h : ∀ a ∈ as, a.bounded = false) :
    as.filterMap startedTimer = [] := by
  refine List.filterMap_eq_nil_iff.2 fun a ha => ?_
  cases a with
  | replaceTriggerTimer e due => cases h _ ha
  | _ => rfl

end

theorem fires_unbounded (hc : p.node.type = .trigger c) (h : v.Fires) :
    ∀ a ∈ (p.result v).2, a.bounded = false := by
  rw [result_fires hc h]
  dsimp only
  split
  · exact sendValue_unbounded _ _ _ _ _
  · intro a ha
    rw [List.mem_singleton.1 ha]
    rfl

omit [JsonLib] in
theorem starts_unbounded : ∀ a ∈ (if c.sendInitial then
    sendValue p.flow v.event v.now (configuredFlowValue c.initialValue) "trigger started" else []),
    a.bounded = false := by
  split
  · exact sendValue_unbounded _ _ _ _ _
  · exact fun a ha => by cases ha

theorem TriggerOk.hopsLeft (hc : p.node.type = .trigger c) (hok : TriggerOk p c s e) :
    p.HopsLeft s e := by
  intro v hv ⟨a, ha, hback⟩
  by_cases hstart : v.Starts c
  · exact hok.hops v hv hstart
  · have hbounded := back_bounded hback
    by_cases hfire : v.Fires
    · rw [fires_unbounded hc hfire a ha] at hbounded
      cases hbounded
    · have hother := (result_other hc hstart hfire (hok.noReset v hv)).2
      rw [reject_unbounded hother a ha] at hbounded
      cases hbounded

theorem work_timerInv (hc : p.node.type = .trigger c) (hok : TriggerOk p c s e)
    (h : TimerInv p (p.view s)) (hv : p.visit s e = some v)
    (hphase : (p.view s).phase = .entered v.event) :
    TimerInv p { p.view s with
      rate := (p.result v).1.rate
      trigger := (p.result v).1.trigger
      phase := .acting v.event (p.result v).2 } := by
  have hstate : v.state.trigger = (p.view s).trigger := by
    rw [(visit_state hv).1]
    rfl
  unfold TimerInv at h ⊢
  rw [hphase] at h
  dsimp only at h ⊢
  rw [← hstate] at h
  by_cases hstart : v.Starts c
  · have hnotown : p.own v.event = false := by
      rw [own, releases_trigger hc, hstart.1.1]
      exact Bool.and_false _
    have hcount := hok.count v hv hstart
    rw [hnotown, if_neg Bool.false_ne_true] at h
    right
    rw [result_starts hc hstart]
    refine ⟨_, timerOf v, _, rfl, starts_unbounded, ?_, generation_again .., hcount, h.count hcount⟩
    exact (own_iff hc).2 ⟨visit_here hv, isTriggerRelease_releasePort _⟩
  · left
    by_cases hfire : v.Fires
    · have hown : p.own v.event = true := (own_iff hc).2 ⟨visit_here hv, hfire.1⟩
      rw [hown, if_pos rfl] at h
      refine ⟨fires_unbounded hc hfire, ?_⟩
      rw [result_fires hc hfire]
      exact (h.fire hfire.2).2
    · obtain ⟨hsame, hcalls⟩ := result_other hc hstart hfire (hok.noReset v hv)
      refine ⟨reject_unbounded hcalls, ?_⟩
      rw [hsame]
      by_cases hown : p.own v.event = true
      · rw [if_pos hown] at h
        exact h.stale fun heq => hfire ⟨((own_iff hc).1 hown).2, heq⟩
      · rw [if_neg hown] at h
        exact h

omit [JsonLib] [FlowLib] in
/-- The next call inside the node: one that no full queue refuses, or the timer, which is the last. -/
theorem TimerInv.next {w : View} {q : QueuedEvent} {a : Action} {rest : List Action}
    (h : TimerInv p w) (hphase : w.phase = .acting q (a :: rest)) :
    (a.bounded = false ∧ TimerInv p { w with phase := .acting q rest }) ∨
    ∃ e due, a = .replaceTriggerTimer e due ∧ rest = [] ∧ p.own e = true ∧
      e.generation = w.trigger.generation ∧ w.trigger.generation ≠ 0 ∧
      Earlier w.trigger.generation w.waiting := by
  unfold TimerInv at h ⊢
  rw [hphase] at h
  rcases h with ⟨hcalls, hwaits⟩ | ⟨calls, e, due, heq, hcalls, htimer⟩
  · refine .inl ⟨hcalls a List.mem_cons_self, .inl ⟨fun b hb => ?_, hwaits⟩⟩
    exact hcalls b (List.mem_cons_of_mem _ hb)
  · cases calls with
    | nil =>
      obtain ⟨rfl, rfl⟩ := List.cons.inj heq
      exact .inr ⟨e, due, rfl, rfl, htimer⟩
    | cons b calls =>
      obtain ⟨rfl, rfl⟩ := List.cons.inj heq
      refine .inl ⟨hcalls a List.mem_cons_self, .inr ⟨calls, e, due, rfl, fun b hb => ?_, htimer⟩⟩
      exact hcalls b (List.mem_cons_of_mem _ hb)

theorem moved_timerInv (hc : p.node.type = .trigger c) (hok : TriggerOk p c s e)
    (h : TimerInv p (p.view s)) {w : View} (hmoved : p.Moved s e w) : TimerInv p w := by
  cases hmoved with
  | stay _ => exact h
  | take haway hnone =>
    unfold TimerInv at h ⊢
    rw [haway] at h ⊢
    dsimp only at h ⊢
    rw [hnone] at h
    exact h.take _
  | input haway hown hphase =>
    unfold TimerInv at h ⊢
    rw [haway] at h
    rcases hphase with rfl | rfl
    · simpa [hown] using h
    · exact .inl ⟨fun a ha => (by cases ha), h⟩
  | own haway hwait hown =>
    unfold TimerInv at h ⊢
    rw [haway, hwait] at h
    simpa [hown] using h
  | work hvisit hphase => exact work_timerInv hc hok h hvisit hphase
  | call hphase hback hrest =>
    rcases h.next hphase with ⟨hbounded, hnext⟩ | ⟨e', due, rfl, rfl, hown, -⟩
    · rcases hrest with rfl | ⟨hbounded', -⟩
      · exact hnext
      · rw [hbounded] at hbounded'
        cases hbounded'
    · have hback' : p.own e' = false := hback
      rw [hown] at hback'
      cases hback'
  | delayed hphase hown hroom =>
    rcases h.next hphase with ⟨hbounded, -⟩ | ⟨e', due, heq, -⟩
    · cases hbounded
    · cases heq
  | delayedFull hphase hown hfull =>
    rcases h.next hphase with ⟨hbounded, -⟩ | ⟨e', due, heq, -⟩
    · cases hbounded
    · cases heq
  | @timer q e' due rest hphase hown hroom =>
    rcases h.next hphase with ⟨hbounded, -⟩ | ⟨e'', due', heq, rfl, -, hgen, hne, hearlier⟩
    · cases hbounded
    · obtain ⟨rfl, -⟩ := Action.replaceTriggerTimer.inj heq
      have hnone : ((p.view s).delayed.filter fun x => !sameTimer e' x.2) = [] := by
        refine List.filter_eq_nil_iff.2 fun x hx => ?_
        rw [sameTimer_own hc hown (List.mem_filter.1 hx).2]
        exact Bool.false_ne_true
      refine .inl ⟨fun a ha => (by cases ha), ?_⟩
      dsimp only
      rw [hnone]
      exact hearlier.queue hne due hgen
  | timerFull hphase hown hfull =>
    have hroom := hok.room _ _ _ _ rfl (worker_of_phase hphase) hown
    omega
  | done hphase =>
    unfold TimerInv at h ⊢
    rw [hphase] at h
    rcases h with ⟨-, hwaits⟩ | ⟨calls, e', due, heq, -⟩
    · exact hwaits
    · cases calls <;> cases heq

/-! ## The whole run -/

/-- What the visits of a run do with the timer. -/
def timerLog (p : Site) : FlowState → List FlowStep → List TimerEvent :=
  outputs FlowState.step fun s e => (p.visit s e).toList.flatMap p.timers

theorem timers_starts (hc : p.node.type = .trigger c) (hstart : v.Starts c) :
    p.timers v = [.started (v.state.trigger.generation + 1)] := by
  rw [timers, hstart.1.1, if_neg Bool.false_ne_true, result_starts hc hstart,
    List.filterMap_append, startedTimer_unbounded starts_unbounded]
  show [TimerEvent.started (timerOf v).generation] = _
  rw [timerOf, generation_again]

theorem moved_served (hc : p.node.type = .trigger c) (hok : TriggerOk p c s e)
    (h : TimerInv p (p.view s)) {w : View} (hmoved : p.Moved s e w) {log : List TimerEvent}
    (hlog : Served c.extendDelay log (p.view s).trigger.generation) :
    Served c.extendDelay (log ++ (p.visit s e).toList.flatMap p.timers) w.trigger.generation := by
  rcases hmoved.state with ⟨hnone, -, htrigger⟩ | ⟨v, hv, hphase, -, htrigger⟩
  · rw [hnone, htrigger]
    simpa using hlog
  · have hstate : v.state.trigger = (p.view s).trigger := by
      rw [(visit_state hv).1]
      rfl
    have htimers : (p.visit s e).toList.flatMap p.timers = p.timers v := by
      rw [hv]
      exact List.append_nil _
    rw [htimers, htrigger]
    rw [← hstate] at hlog
    by_cases hstart : v.Starts c
    · rw [timers_starts hc hstart, result_starts hc hstart]
      exact hlog.start (hok.count v hv hstart) hstart.2.2
    · by_cases hfire : v.Fires
      · have hfired : p.timers v = [.fired v.state.trigger.generation] := by
          rw [timers, if_pos hfire.1, if_pos hfire.2, hfire.2]
        have hne : v.state.trigger.generation ≠ 0 := by
          have hown : p.own v.event = true := (own_iff hc).2 ⟨visit_here hv, hfire.1⟩
          unfold TimerInv at h
          rw [hphase] at h
          dsimp only at h
          rw [hown, if_pos rfl, ← hstate] at h
          exact (h.fire hfire.2).1
        rw [hfired, result_fires hc hfire]
        exact hlog.fire hne
      · obtain ⟨hsame, hcalls⟩ := result_other hc hstart hfire (hok.noReset v hv)
        have hnone : p.timers v = [] := by
          unfold timers
          split
          · rename_i hport
            exact if_neg fun hg => hfire ⟨hport, hg⟩
          · exact startedTimer_unbounded (reject_unbounded hcalls)
        rw [hnone, hsame, List.append_nil]
        exact hlog

omit [JsonLib] [FlowLib] in
theorem AtRest.timerInv (h : p.AtRest s)
    (hg : (s.nodes p.flowId p.nodeId).trigger.generation = 0) : TimerInv p (p.view s) := by
  have hdelayed : (p.view s).delayed = [] :=
    List.filter_eq_nil_iff.2 fun x hx => by simp [h.delayed x hx]
  have hwaiting : (p.view s).waiting = [] := filter_own_nil h.events
  have hgeneration : (p.view s).trigger.generation = 0 := hg
  unfold TimerInv
  rw [show (p.view s).phase = .away from h.away]
  dsimp only
  rw [hdelayed, hwaiting, hgeneration]
  exact .idle

theorem run_timers (hc : p.node.type = .trigger c) (hs : p.In s) (hrest : p.AtRest s)
    (hg : (s.nodes p.flowId p.nodeId).trigger.generation = 0) {es : List FlowStep}
    (hok : Along FlowState.step (TriggerOk p c) s es) :
    p.In (run FlowState.step s es) ∧ TimerInv p (p.view (run FlowState.step s es)) ∧
      Served c.extendDelay (p.timerLog s es)
        (p.view (run FlowState.step s es)).trigger.generation := by
  induction es using List.reverseRecOn with
  | nil =>
    refine ⟨hs, hrest.timerInv hg, ?_⟩
    rw [run_nil, show (p.view s).trigger.generation = 0 from hg]
    exact served_nil _
  | append_singleton es e ih =>
    obtain ⟨hbefore, hlast, -⟩ := along_append.1 hok
    obtain ⟨hin, hinv, hserved⟩ := ih hbefore
    obtain ⟨hmoved, hin'⟩ := step_moved hin hlast.stays (hlast.hopsLeft hc)
    rw [run_append, timerLog, outputs_snoc]
    exact ⟨hin', moved_timerInv hc hlast hinv hmoved, moved_served hc hlast hinv hmoved hserved⟩

omit [JsonLib] [FlowLib] in
/-- No timer runs where no message of the trigger waits. -/
theorem no_timer (hc : p.node.type = .trigger c) (hs : p.In s) (h : TimerInv p (p.view s))
    (hv : p.visit s e = some v) (hinput : v.Input) (hnone : ∀ e ∈ s.messages, p.own e = false) :
    (s.nodes p.flowId p.nodeId).trigger.generation = 0 := by
  have hnotown : p.own v.event = false := by
    rw [own, releases_trigger hc, hinput.1]
    exact Bool.and_false _
  have hwaits : Waits (p.view s).trigger.generation (p.view s).delayed (p.view s).waiting := by
    unfold TimerInv at h
    rw [visit_phase hv] at h
    dsimp only at h
    rw [hnotown, if_neg Bool.false_ne_true] at h
    exact h
  by_contra hne
  obtain ⟨e, he, -⟩ := hwaits.iff.1 hne
  obtain ⟨hmem, hown⟩ := (mem_messages hs).2 he
  rw [hnone e hmem] at hown
  cases hown

/-- What a trigger promises in a state that a run reaches. -/
structure TimerKept (p : Site) (c : TriggerSettings) (s : FlowState) (log : List TimerEvent) :
    Prop where
  /-- Outside the node, the generation counts exactly while its timer waits. -/
  waits : p.phase s.worker = .away → ((s.nodes p.flowId p.nodeId).trigger.generation ≠ 0 ↔
    ∃ e ∈ s.messages, p.own e = true ∧
      e.generation = (s.nodes p.flowId p.nodeId).trigger.generation)
  /-- An input that meets no timer starts one. -/
  starts : ∀ now v, p.visit s (.work now) = some v → v.Input → ¬ v.Resets c →
    (∀ e ∈ s.messages, p.own e = false) → p.timers v = [.started 1] ∧
      (p.result v).1.trigger.generation = 1 ∧ (p.result v).2 = (if c.sendInitial then
        sendValue p.flow v.event now (configuredFlowValue c.initialValue) "trigger started"
      else []) ++ [.replaceTriggerTimer (timerOf v) (now + max 1 c.durationMs)]
  fires : ∀ now v, p.visit s (.work now) = some v → v.Fires →
    (p.result v).2 = if c.sendDelayed then
      sendValue p.flow v.event now (configuredFlowValue c.delayedValue) "trigger timeout"
    else [.status "trigger completed"]
  served : Served c.extendDelay log (s.nodes p.flowId p.nodeId).trigger.generation

/-- **A trigger never gets stuck.** -/
theorem trigger_never_stuck (p : Site) (c : TriggerSettings) (hc : p.node.type = .trigger c)
    (s : FlowState) (hs : p.In s) (hrest : p.AtRest s)
    (hg : (s.nodes p.flowId p.nodeId).trigger.generation = 0) (es : List FlowStep)
    (hok : Along FlowState.step (TriggerOk p c) s es) :
    TimerKept p c (run FlowState.step s es) (p.timerLog s es) := by
  obtain ⟨hin, hinv, hserved⟩ := run_timers hc hs hrest hg hok
  generalize run FlowState.step s es = s' at hin hinv hserved ⊢
  refine ⟨fun haway => ?_, fun now v hv hinput hreset hnone => ?_, fun now v hv hfire => ?_, hserved⟩
  · have hwaits : Waits (p.view s').trigger.generation (p.view s').delayed (p.view s').waiting := by
      unfold TimerInv at hinv
      rw [show (p.view s').phase = .away from haway] at hinv
      exact hinv
    refine hwaits.iff.trans (exists_congr fun e => ?_)
    rw [← mem_messages hin, and_assoc]
    rfl
  · obtain ⟨hstate, now', hnow, hvnow⟩ := visit_state hv
    obtain rfl := FlowStep.work.inj hnow
    have hzero : v.state.trigger.generation = 0 := by
      rw [hstate]
      exact no_timer hc hin hinv hv hinput hnone
    have hstart : v.Starts c := ⟨hinput, hreset, .inr hzero⟩
    have hone : v.state.trigger.generation + 1 = 1 := by rw [hzero]; rfl
    rw [timers_starts hc hstart, result_starts hc hstart, hvnow]
    dsimp only
    rw [hone]
    exact ⟨rfl, rfl, rfl⟩
  · obtain ⟨-, now', hnow, hvnow⟩ := visit_state hv
    obtain rfl := FlowStep.work.inj hnow
    rw [result_fires hc hfire, hvnow]

theorem triggerOk_of_calm (hreset : c.resetEnabled = false) (hextend : c.extendDelay = false)
    (h : p.calm s e = true) : TriggerOk p c s e := by
  obtain ⟨hstays, hhops, hroom⟩ := calm_spec h
  refine ⟨hstays, fun v _ hv => ?_, fun v _ hstart => ?_, fun v hv _ => hhops v hv,
    fun _ e' _ _ _ _ _ => ?_⟩
  · have hon := hv.2.1
    rw [hreset] at hon
    cases hon
  · have hzero := hstart.2.2
    rw [hextend] at hzero
    rw [hzero.resolve_left Bool.false_ne_true]
    decide
  · exact (List.length_filter_le _ _).trans_lt hroom

end Site

end

/-! ## Examples -/

section
attribute [local instance] intFloats intJson intFlowLib

/-- A trigger before a display. -/
def timedSettings (resetEnabled : Bool) : TriggerSettings where
  durationMs := 1000
  resetEnabled := resetEnabled
  resetValue := .int 0
  initialValue := .bool true
  delayedValue := .bool false
  extendDelay := false
  sendInitial := true
  sendDelayed := true

def timedSite (resetEnabled : Bool) : Site where
  flowId := "F"
  nodeId := "t"
  flow :=
    { nodes := [⟨"t", .trigger (timedSettings resetEnabled)⟩, ⟨"show", .debug⟩]
      edges := [{ source := "t", to_ := "show" }] }
  node := ⟨"t", .trigger (timedSettings resetEnabled)⟩
  found := rfl
  enabled := rfl
  ports := by
    intro edge hedge hto
    rw [List.mem_singleton.1 hedge] at hto
    exact absurd hto (by decide)
  plain := rfl

def timedStart (resetEnabled : Bool) : FlowState :=
  .load 64 [("F", (timedSite resetEnabled).flow)]

/-- An input arrives and the worker handles it. -/
def timedInput (value : Int) (now : Int) : List FlowStep :=
  [.inject "F" "t" (.int value) now, .handOver 0, .takeQueue now, .enter, .work now, .act, .act, .act,
    .append]

/-- The display gets a value. -/
def timedShow (now : Int) : List FlowStep := [.enter, .work now, .act, .append]

/-- The timer runs out. -/
def timedRelease (now : Int) : List FlowStep :=
  [.takeQueue now, .enter, .work now, .act, .act, .append]

def timedSteps : List FlowStep :=
  timedInput 1 0 ++ timedShow 1 ++ timedRelease 1000 ++ timedShow 1001 ++ timedInput 1 2000

theorem timed_never_stuck :
    Site.TimerKept (timedSite false) (timedSettings false)
      (run FlowState.step (timedStart false) timedSteps)
      ((timedSite false).timerLog (timedStart false) timedSteps) ∧
    (timedSite false).timerLog (timedStart false) timedSteps =
      [.started 1, .fired 1, .started 1] := by
  refine ⟨Site.trigger_never_stuck (timedSite false) (timedSettings false) rfl _
    (Site.load_in _ _ rfl) (Site.load_atRest _ _ _) rfl _ ?_, by decide +kernel⟩
  have hcalm : Along FlowState.step (fun s e => (timedSite false).calm s e = true)
      (timedStart false) timedSteps := by decide +kernel
  exact hcalm.mono fun _ _ => Site.triggerOk_of_calm rfl rfl

/-- After a reset the generation counts, and no timer waits: no later input starts one. -/
theorem trigger_stuck : ¬ ∀ (p : Site) (c : TriggerSettings) (maxEventHops : Nat)
    (deployed : List (String × FlowDef)) (es : List FlowStep), p.node.type = .trigger c →
    deployed.lookup p.flowId = some p.flow →
    Along FlowState.step (fun _ e => p.Stays e) (.load maxEventHops deployed) es →
    p.phase (run FlowState.step (.load maxEventHops deployed) es).worker = .away →
    (((run FlowState.step (.load maxEventHops deployed) es).nodes
        p.flowId p.nodeId).trigger.generation ≠ 0 ↔
      ∃ e ∈ (run FlowState.step (.load maxEventHops deployed) es).messages, p.own e = true ∧
        e.generation = ((run FlowState.step (.load maxEventHops deployed) es).nodes
          p.flowId p.nodeId).trigger.generation) := by
  intro h
  have hiff := h (timedSite true) (timedSettings true) 64 [("F", (timedSite true).flow)]
    (timedInput 0 0) rfl rfl (along_of_forall fun e he => by
      simp only [timedInput, List.mem_cons, List.not_mem_nil, or_false] at he
      rcases he with rfl | rfl | rfl | rfl | rfl | rfl | rfl | rfl | rfl <;> trivial) rfl
  obtain ⟨e, he, -⟩ := hiff.1 (by decide +kernel)
  have hnone : (run FlowState.step (.load 64 [("F", (timedSite true).flow)])
      (timedInput 0 0)).messages.isEmpty = true := by decide +kernel
  exact absurd (List.isEmpty_iff.1 hnone) (List.ne_nil_of_mem he)

end

end OpcBridge.Flow
