import OpcBridge.Core.Snapshot
import OpcBridge.Lib.Run
import OpcBridge.Write.AliasText
import Mathlib.Algebra.Order.Ring.Int

/-!
# Publishing on change

`mqtt_publish_snapshot`: a snapshot is published at its first call, on a change, and in one mode when
the interval is over, but not sooner than the rate limit allows. A change of the value is told from
the value last published, a change of the quality from the snapshot before.

A run is a list of calls for one tag (`publishStep`). The limit always holds; every change is
published if and only if no change of the quality alone was swallowed by the limit and the elements
of an array do not change without the first one (`publish_on_change_iff`).
-/

namespace OpcBridge

open Lib

section
variable [Floats]

/-! ## Values -/

/-- `!=` of the variant. -/
def TagValue.ne : TagValue → TagValue → Bool
  | .float32 x, .float32 y => !Floats.eq (Floats.widen x) (Floats.widen y)
  | .float64 x, .float64 y => !Floats.eq x y
  | v, w => v != w

/-- `!=` of two vectors. -/
def valuesNe (vs ws : List TagValue) : Bool :=
  vs.length != ws.length || (vs.zip ws).any fun vw => vw.1.ne vw.2

/-! ## Configuration and state -/

structure MqttConfig where
  enabled : Bool := false
  baseTopic : String := "opcbridge/tags"
  publishMode : String := "change"
  publishIntervalMs : Int := 30000
  publishMinUpdateMs : Int := 0
  publishPerField : Bool := false
  publishTagJson : Bool := false
  publishMemoryTags : Bool := false

/-- The client and its configuration. -/
structure Mqtt where
  /-- `g_mqtt` is set. -/
  client : Bool := true
  cfg : MqttConfig

structure MqttTagState [Floats] where
  hasValue : Bool := false
  lastValue : TagValue := .bool false
  /-- Nanoseconds of `system_clock`. -/
  lastPublish : Nat := 0

abbrev MqttTagStates := String → MqttTagState

/-- The `value` of the message of a tag: all elements of a block. -/
inductive MqttValue [Floats]
  | scalar (value : TagValue)
  | array (values : List TagValue)

/-- A payload: a text, or the object of a tag. -/
inductive MqttPayload [Floats]
  | text (s : String)
  | tag (connectionId name datatype : String) (quality timestampMs : Nat) (value : MqttValue)

/-! ## The function -/

def mqttSanitize (s : String) : String :=
  let out := s.toList.flatMap fun c =>
    if c.isAlphanum || c == '_' || c == '-' || c == '.' then [c] else List.replicate c.utf8Size '_'
  if out.isEmpty then "_" else String.ofList out

def snapshotJsonValue (snap : TagSnapshot) : MqttValue :=
  if snap.arrayValues = [] then .scalar snap.value else .array snap.arrayValues

/-- The messages of a snapshot with their topics. -/
def snapshotMessages [FloatText] (cfg : MqttConfig) (snap : TagSnapshot) (now : Nat) :
    List (String × MqttPayload) :=
  let base := if cfg.baseTopic = "" then "opcbridge" else cfg.baseTopic
  let topic := base ++ "/" ++ mqttSanitize snap.connectionId ++ "/" ++ mqttSanitize snap.logicalName
  let ms := now / 1000000
  (if cfg.publishPerField then
    [(topic ++ "/value", .text (tagValueToString snap.value)),
     (topic ++ "/quality", .text (toString snap.quality)),
     (topic ++ "/timestamp", .text (toString ms))]
  else []) ++
  if cfg.publishTagJson then
    [(topic, .tag snap.connectionId snap.logicalName snap.datatype snap.quality ms
      (snapshotJsonValue snap))]
  else []

/-- `duration_cast` to milliseconds. -/
def elapsedMs (now last : Nat) : Int := ((now : Int) - last).tdiv 1000000

/-- Too soon after a publication. -/
def MqttConfig.limits (cfg : MqttConfig) (elapsed : Int) : Bool :=
  decide (0 < cfg.publishMinUpdateMs) && decide (elapsed < cfg.publishMinUpdateMs)

def MqttConfig.shouldPublish (cfg : MqttConfig) (changed hasValue : Bool) (elapsed : Int) : Bool :=
  if cfg.publishMode = "interval" then !hasValue || decide (cfg.publishIntervalMs ≤ elapsed)
  else if cfg.publishMode = "change_or_interval" then
    changed || !hasValue || decide (cfg.publishIntervalMs ≤ elapsed)
  else changed

/-- The time of a snapshot, or that of the call where the snapshot has none. -/
def publishTime (snap : TagSnapshot) (clock : Nat) : Nat :=
  if snap.timestamp = 0 then clock else snap.timestamp

/-- What is published, `none` for nothing, and the states of the tags. -/
def mqttPublishSnapshot [FloatText] (mqtt : Mqtt) (clock : Nat) (snap : TagSnapshot)
    (prev : Option TagSnapshot) (states : MqttTagStates) :
    Option (List (String × MqttPayload)) × MqttTagStates :=
  if !mqtt.client || !mqtt.cfg.enabled then (none, states)
  else if isMemoryConnectionId snap.connectionId && !mqtt.cfg.publishMemoryTags then (none, states)
  else
    let key := makeTagKey snap.connectionId snap.logicalName
    let now := publishTime snap clock
    let state := states key
    let changed :=
      if !state.hasValue then true
      else snap.value.ne state.lastValue || prev.any fun p => p.quality != snap.quality
    if !mqtt.cfg.publishPerField && !mqtt.cfg.publishTagJson then (none, states)
    else
      let elapsed := if state.hasValue then elapsedMs now state.lastPublish else 2 ^ 63 - 1
      if state.hasValue && mqtt.cfg.limits elapsed then (none, states)
      else if !mqtt.cfg.shouldPublish changed state.hasValue elapsed then (none, states)
      else
        (some (snapshotMessages mqtt.cfg snap now),
          Function.update states key { hasValue := true, lastValue := snap.value, lastPublish := now })

/-- Snapshots of a connection are published at all. -/
def Mqtt.publishes (mqtt : Mqtt) (connId : String) : Bool :=
  mqtt.client && mqtt.cfg.enabled &&
    (!isMemoryConnectionId connId || mqtt.cfg.publishMemoryTags) &&
    (mqtt.cfg.publishPerField || mqtt.cfg.publishTagJson)

variable {mqtt : Mqtt} {clock : Nat} {snap : TagSnapshot} {prev : Option TagSnapshot}
  {states : MqttTagStates}

/-- What is left alone without a publication, and what a publication leaves. -/
theorem mqttPublishSnapshot_cases [FloatText] :
    ((mqttPublishSnapshot mqtt clock snap prev states).1 = none ∧
      (mqttPublishSnapshot mqtt clock snap prev states).2 = states) ∨
    ((mqttPublishSnapshot mqtt clock snap prev states).1 =
        some (snapshotMessages mqtt.cfg snap (publishTime snap clock)) ∧
      (mqttPublishSnapshot mqtt clock snap prev states).2 =
        Function.update states (makeTagKey snap.connectionId snap.logicalName)
          { hasValue := true, lastValue := snap.value, lastPublish := publishTime snap clock }) := by
  unfold mqttPublishSnapshot
  dsimp only
  repeat' split
  all_goals first
    | exact .inl ⟨rfl, rfl⟩
    | exact .inr ⟨rfl, rfl⟩

/-- The conditions of the function, in one term. -/
theorem mqttPublishSnapshot_isSome [FloatText] {state : MqttTagState}
    (h : states (makeTagKey snap.connectionId snap.logicalName) = state) (changed : Bool)
    (elapsed : Int)
    (hchanged : changed = if !state.hasValue then true
      else snap.value.ne state.lastValue || prev.any fun p => p.quality != snap.quality)
    (helapsed : elapsed = if state.hasValue then elapsedMs (publishTime snap clock) state.lastPublish
      else 2 ^ 63 - 1) :
    (mqttPublishSnapshot mqtt clock snap prev states).1.isSome =
      (mqtt.publishes snap.connectionId && !(state.hasValue && mqtt.cfg.limits elapsed) &&
        mqtt.cfg.shouldPublish changed state.hasValue elapsed) := by
  unfold mqttPublishSnapshot Mqtt.publishes
  simp only [h, ← hchanged, ← helapsed]
  clear hchanged helapsed
  split
  · rename_i hclient
    simp only [Bool.or_eq_true, Bool.not_eq_true'] at hclient
    rcases hclient with hclient | hclient <;> simp [hclient]
  · rename_i hclient
    simp only [Bool.or_eq_true, Bool.not_eq_true', not_or, Bool.not_eq_false] at hclient
    split
    · rename_i hmemory
      simp only [Bool.and_eq_true, Bool.not_eq_true'] at hmemory
      simp [hmemory.1, hmemory.2]
    · rename_i hmemory
      have hmemory' : (!isMemoryConnectionId snap.connectionId || mqtt.cfg.publishMemoryTags) =
          true := by
        simpa [imp_iff_not_or] using hmemory
      split
      · rename_i hformat
        simp only [Bool.and_eq_true, Bool.not_eq_true'] at hformat
        simp [hformat.1, hformat.2]
      · rename_i hformat
        have hformat' : (mqtt.cfg.publishPerField || mqtt.cfg.publishTagJson) = true := by
          simpa [imp_iff_not_or] using hformat
        rw [hclient.1, hclient.2, hmemory', hformat']
        cases state.hasValue && mqtt.cfg.limits elapsed <;>
          cases mqtt.cfg.shouldPublish changed state.hasValue elapsed <;> rfl

/-- The interval counts only in this mode. -/
def MqttConfig.intervalOver (cfg : MqttConfig) (elapsed : Int) : Bool :=
  cfg.publishMode == "change_or_interval" && decide (cfg.publishIntervalMs ≤ elapsed)

omit [Floats] in
theorem shouldPublish_eq {cfg : MqttConfig} (hmode : cfg.publishMode ≠ "interval") (changed : Bool)
    (elapsed : Int) : cfg.shouldPublish changed true elapsed =
      (changed || cfg.intervalOver elapsed) := by
  unfold MqttConfig.shouldPublish MqttConfig.intervalOver
  rw [if_neg hmode]
  split
  · rename_i hmode'
    simp [hmode']
  · rename_i hmode'
    simp [hmode']

/-- A later call publishes what changed, unless it comes too soon. -/
theorem publishes_next [FloatText] (hmode : mqtt.cfg.publishMode ≠ "interval")
    {value : TagValue} {last : Nat}
    (h : states (makeTagKey snap.connectionId snap.logicalName) = ⟨true, value, last⟩) :
    (mqttPublishSnapshot mqtt clock snap prev states).1.isSome =
      (mqtt.publishes snap.connectionId &&
        !mqtt.cfg.limits (elapsedMs (publishTime snap clock) last) &&
        (snap.value.ne value || (prev.any fun p => p.quality != snap.quality) ||
          mqtt.cfg.intervalOver (elapsedMs (publishTime snap clock) last))) := by
  rw [mqttPublishSnapshot_isSome h _ _ rfl rfl, shouldPublish_eq hmode]
  rfl

/-! ## Runs -/

structure MqttCall [Floats] where
  snap : TagSnapshot
  /-- `system_clock` at the call. -/
  clock : Nat

def MqttCall.now (call : MqttCall) : Nat := publishTime call.snap call.clock

/-- The states of the tags, the call before and the calls that published, the last one first. -/
structure PublishRun [Floats] where
  states : MqttTagStates := fun _ => {}
  prev : Option MqttCall := none
  published : List MqttCall := []

def publishCall [FloatText] (mqtt : Mqtt) (s : PublishRun) (call : MqttCall) :
    Option (List (String × MqttPayload)) × MqttTagStates :=
  mqttPublishSnapshot mqtt call.clock call.snap (s.prev.map MqttCall.snap) s.states

/-- A call with the snapshot of the call before. -/
def publishStep [FloatText] (mqtt : Mqtt) (s : PublishRun) (call : MqttCall) : PublishRun where
  states := (publishCall mqtt s call).2
  prev := some call
  published := if (publishCall mqtt s call).1.isSome then call :: s.published else s.published

/-- The calls are at least the rate limit apart. -/
def Spaced (cfg : MqttConfig) (published : List MqttCall) : Prop :=
  published.Pairwise fun later earlier =>
    (earlier.now : Int) + cfg.publishMinUpdateMs * 1000000 ≤ later.now

/-- The snapshot is another than the published one. -/
def Differs (snap last : TagSnapshot) : Prop :=
  snap.value.ne last.value = true ∨ valuesNe snap.arrayValues last.arrayValues = true ∨
    snap.quality ≠ last.quality

/-- A snapshot that differs from the last published one is published when the rate limit is over. -/
def PublishesChange [FloatText] (mqtt : Mqtt) (s : PublishRun) (call : MqttCall) : Prop :=
  ∀ last ∈ s.published.head?,
    (last.now : Int) + mqtt.cfg.publishMinUpdateMs * 1000000 ≤ call.now →
    Differs call.snap last.snap → (publishCall mqtt s call).1.isSome

/-- When the rate limit is over, a snapshot with the published value and the quality of the snapshot
before it also has the published elements, and, where the limit held back the snapshot before it,
the published quality. -/
def NothingHeldBack (mqtt : Mqtt) (s : PublishRun) (call : MqttCall) : Prop :=
  ∀ last ∈ s.published.head?, ∀ prev ∈ s.prev,
    mqtt.cfg.limits (elapsedMs call.now last.now) = false →
    mqtt.cfg.intervalOver (elapsedMs call.now last.now) = false →
    call.snap.value.ne last.snap.value = false → call.snap.quality = prev.snap.quality →
    valuesNe call.snap.arrayValues last.snap.arrayValues = false ∧
      (mqtt.cfg.limits (elapsedMs prev.now last.now) = true →
        call.snap.quality = last.snap.quality)

/-- What holds along a run of calls for one tag. -/
structure PublishRun.Inv (mqtt : Mqtt) (connId name : String) (s : PublishRun) : Prop where
  state : s.states (makeTagKey connId name) =
    match s.published.head? with
    | none => {}
    | some last => ⟨true, last.snap.value, last.now⟩
  publishes : s.published ≠ [] → mqtt.publishes connId = true
  before : ∀ last ∈ s.published.head?, ∃ prev ∈ s.prev, last.now ≤ prev.now
  sorted : s.published.Pairwise fun later earlier => earlier.now ≤ later.now
  spaced : Spaced mqtt.cfg s.published

/-- The published quality is that of the snapshot before, unless the limit held that one back. -/
def PublishRun.QualityTold (mqtt : Mqtt) (s : PublishRun) : Prop :=
  ∀ last ∈ s.published.head?, ∀ prev ∈ s.prev,
    mqtt.cfg.limits (elapsedMs prev.now last.now) = false → prev.snap.quality = last.snap.quality

/-- A call for the tag, not before the call before. -/
structure MqttCall.Next (connId name : String) (s : PublishRun) (call : MqttCall) : Prop where
  connectionId : call.snap.connectionId = connId
  logicalName : call.snap.logicalName = name
  later : ∀ prev ∈ s.prev, prev.now ≤ call.now

omit [Floats] in
/-- The rate limit in nanoseconds. -/
theorem limits_eq_false {cfg : MqttConfig} {now last : Nat} (h : last ≤ now) :
    cfg.limits (elapsedMs now last) = false ↔
      (last : Int) + cfg.publishMinUpdateMs * 1000000 ≤ now := by
  unfold MqttConfig.limits elapsedMs
  rw [Int.tdiv_eq_ediv_of_nonneg (by omega), Bool.and_eq_false_iff, decide_eq_false_iff_not,
    decide_eq_false_iff_not]
  omega

section
variable [FloatText] {connId name : String} {s : PublishRun} {call last pred : MqttCall}

/-- Whether a call publishes, once there is a publication. -/
theorem PublishRun.Inv.publishes_next (hi : s.Inv mqtt connId name)
    (hmode : mqtt.cfg.publishMode ≠ "interval") (hnext : call.Next connId name s)
    (hlast : s.published.head? = some last) (hpred : s.prev = some pred) :
    (publishCall mqtt s call).1.isSome = (!mqtt.cfg.limits (elapsedMs call.now last.now) &&
      (call.snap.value.ne last.snap.value || pred.snap.quality != call.snap.quality ||
        mqtt.cfg.intervalOver (elapsedMs call.now last.now))) := by
  have hstate := hi.state
  rw [hlast, ← hnext.connectionId, ← hnext.logicalName] at hstate
  have hpublishes : mqtt.publishes call.snap.connectionId = true := by
    rw [hnext.connectionId]
    apply hi.publishes
    intro hnil
    rw [hnil] at hlast
    cases hlast
  unfold publishCall
  rw [OpcBridge.publishes_next hmode hstate, hpublishes, hpred, Bool.true_and]
  rfl

omit [FloatText] in
theorem PublishRun.Inv.last_le (hi : s.Inv mqtt connId name) (hnext : call.Next connId name s)
    (hlast : s.published.head? = some last) : last.now ≤ call.now := by
  obtain ⟨prev, hprev, hle⟩ := hi.before last hlast
  exact hle.trans (hnext.later prev hprev)

/-- A call that publishes keeps the rate limit. -/
theorem PublishRun.Inv.not_limited (hi : s.Inv mqtt connId name)
    (hmode : mqtt.cfg.publishMode ≠ "interval") (hnext : call.Next connId name s)
    (hlast : s.published.head? = some last) (h : (publishCall mqtt s call).1.isSome) :
    mqtt.cfg.limits (elapsedMs call.now last.now) = false := by
  obtain ⟨pred, hpred, -⟩ := hi.before last hlast
  rw [hi.publishes_next hmode hnext hlast hpred] at h
  simp only [Bool.and_eq_true, Bool.not_eq_true'] at h
  exact h.1

/-- A call that publishes nothing leaves the states alone. -/
theorem PublishRun.Inv.quiet (hi : s.Inv mqtt connId name) (hnext : call.Next connId name s)
    (hquiet : ¬ (publishCall mqtt s call).1.isSome) :
    (publishStep mqtt s call).Inv mqtt connId name := by
  have hpublished : (publishStep mqtt s call).published = s.published := if_neg hquiet
  have hstates : (publishStep mqtt s call).states = s.states := by
    rcases mqttPublishSnapshot_cases with ⟨-, hstates⟩ | ⟨hsome, -⟩
    · exact hstates
    · refine absurd ?_ hquiet
      rw [publishCall, hsome]
      rfl
  exact
    { state := by
        rw [hstates, hpublished]
        exact hi.state
      publishes := by
        rw [hpublished]
        exact hi.publishes
      before := by
        rw [hpublished]
        exact fun last hlast => ⟨call, rfl, hi.last_le hnext hlast⟩
      sorted := by
        rw [hpublished]
        exact hi.sorted
      spaced := by
        rw [hpublished]
        exact hi.spaced }

/-- A call that publishes is the last publication. -/
theorem PublishRun.Inv.publish (hi : s.Inv mqtt connId name)
    (hmode : mqtt.cfg.publishMode ≠ "interval") (hnext : call.Next connId name s)
    (h : (publishCall mqtt s call).1.isSome) :
    (publishStep mqtt s call).Inv mqtt connId name := by
  have hpublished : (publishStep mqtt s call).published = call :: s.published := if_pos h
  have hstates : (publishStep mqtt s call).states = Function.update s.states
      (makeTagKey connId name) ⟨true, call.snap.value, call.now⟩ := by
    rcases mqttPublishSnapshot_cases with ⟨hnone, -⟩ | ⟨-, hstates⟩
    · rw [publishCall, hnone] at h
      cases h
    · rw [hnext.connectionId, hnext.logicalName] at hstates
      exact hstates
  have hafter : ∀ earlier ∈ s.published, earlier.now ≤ call.now ∧
      (earlier.now : Int) + mqtt.cfg.publishMinUpdateMs * 1000000 ≤ call.now := by
    intro earlier hearlier
    have hsorted := hi.sorted
    cases hlist : s.published with
    | nil =>
      rw [hlist] at hearlier
      cases hearlier
    | cons last rest =>
      have hlast : s.published.head? = some last := by rw [hlist]; rfl
      have hle := hi.last_le hnext hlast
      have hspace := (limits_eq_false hle).1 (hi.not_limited hmode hnext hlast h)
      rw [hlist] at hearlier hsorted
      rcases List.mem_cons.1 hearlier with rfl | hrest
      · exact ⟨hle, hspace⟩
      · have hold := (List.pairwise_cons.1 hsorted).1 earlier hrest
        exact ⟨hold.trans hle, by omega⟩
  exact
    { state := by
        rw [hstates, hpublished, Function.update_self]
        rfl
      publishes := by
        intro _
        cases hlast : s.published.head? with
        | none =>
          have hstate := hi.state
          rw [hlast, ← hnext.connectionId, ← hnext.logicalName] at hstate
          rw [publishCall, mqttPublishSnapshot_isSome hstate _ _ rfl rfl] at h
          simp only [Bool.and_eq_true] at h
          rw [← hnext.connectionId]
          exact h.1.1
        | some last =>
          apply hi.publishes
          intro hnil
          rw [hnil] at hlast
          cases hlast
      before := by
        rw [hpublished]
        intro last hlast
        obtain rfl : call = last := Option.some.inj hlast
        exact ⟨call, rfl, Nat.le_refl _⟩
      sorted := by
        rw [hpublished]
        exact List.pairwise_cons.2 ⟨fun earlier hearlier => (hafter earlier hearlier).1, hi.sorted⟩
      spaced := by
        rw [hpublished]
        exact List.pairwise_cons.2 ⟨fun earlier hearlier => (hafter earlier hearlier).2, hi.spaced⟩ }

theorem PublishRun.Inv.step (hi : s.Inv mqtt connId name)
    (hmode : mqtt.cfg.publishMode ≠ "interval") (hnext : call.Next connId name s) :
    (publishStep mqtt s call).Inv mqtt connId name := by
  by_cases h : (publishCall mqtt s call).1.isSome
  · exact hi.publish hmode hnext h
  · exact hi.quiet hnext h

/-- A call that meets its specification leaves no quality untold, unless it comes too soon. -/
theorem PublishRun.QualityTold.step (hi : s.Inv mqtt connId name) (hnext : call.Next connId name s)
    (hdid : PublishesChange mqtt s call) : (publishStep mqtt s call).QualityTold mqtt := by
  intro last hlast prev hprev hlimits
  obtain rfl : call = prev := Option.some.inj hprev
  by_cases h : (publishCall mqtt s call).1.isSome
  · rw [publishStep, if_pos h] at hlast
    obtain rfl : call = last := Option.some.inj hlast
    rfl
  · rw [publishStep, if_neg h] at hlast
    by_contra hne
    exact h (hdid last hlast ((limits_eq_false (hi.last_le hnext hlast)).1 hlimits)
      (.inr (.inr hne)))

omit [FloatText] in
theorem PublishRun.Inv.start (mqtt : Mqtt) (connId name : String) :
    ({} : PublishRun).Inv mqtt connId name where
  state := rfl
  publishes h := absurd rfl h
  before := nofun
  sorted := List.Pairwise.nil
  spaced := List.Pairwise.nil

/-- **The step.** A change is published if and only if nothing was held back. -/
theorem PublishRun.Inv.publishesChange_iff (hi : s.Inv mqtt connId name)
    (htold : s.QualityTold mqtt) (hmode : mqtt.cfg.publishMode ≠ "interval")
    (hnext : call.Next connId name s) :
    PublishesChange mqtt s call ↔ NothingHeldBack mqtt s call := by
  cases hlast : s.published.head? with
  | none => simp [PublishesChange, NothingHeldBack, hlast]
  | some last =>
    obtain ⟨pred, hpred, -⟩ := hi.before last hlast
    have hpublishes := hi.publishes_next hmode hnext hlast hpred
    have hlimits : mqtt.cfg.limits (elapsedMs call.now last.now) = false ↔ _ :=
      limits_eq_false (hi.last_le hnext hlast)
    constructor
    · intro h last' hlast' pred' hpred' hopen hinterval hvalue hquality
      obtain rfl : last = last' := Option.some.inj (hlast.symm.trans hlast')
      obtain rfl : pred = pred' := Option.some.inj (hpred.symm.trans hpred')
      have hsilent : (publishCall mqtt s call).1.isSome = false := by
        rw [hpublishes, hinterval, hvalue, hquality]
        simp
      have hsame : ¬ Differs call.snap last.snap := fun hdiffers =>
        Bool.false_ne_true (hsilent.symm.trans (h last hlast (hlimits.1 hopen) hdiffers))
      unfold Differs at hsame
      push Not at hsame
      exact ⟨by simpa using hsame.2.1, fun _ => hsame.2.2⟩
    · intro h last' hlast' hopen hdiffers
      obtain rfl : last = last' := Option.some.inj (hlast.symm.trans hlast')
      rw [← hlimits] at hopen
      rw [hpublishes, hopen, Bool.not_false, Bool.true_and]
      by_contra hsilent
      simp only [Bool.or_eq_true, bne_iff_ne, not_or, Bool.not_eq_true, not_not] at hsilent
      obtain ⟨⟨hvalue, hquality⟩, hinterval⟩ := hsilent
      obtain ⟨harray, hheld⟩ := h last hlast pred hpred hopen hinterval hvalue hquality.symm
      have hquality' : call.snap.quality = last.snap.quality := by
        cases hpredLimits : mqtt.cfg.limits (elapsedMs pred.now last.now) with
        | true => exact hheld hpredLimits
        | false => exact hquality.symm.trans (htold last hlast pred hpred hpredLimits)
      rcases hdiffers with hne | hne | hne
      · exact absurd (hvalue.symm.trans hne) Bool.false_ne_true
      · exact absurd (harray.symm.trans hne) Bool.false_ne_true
      · exact hne hquality'

/-- The calls of a list in the order of time come one after the other. -/
theorem along_next {calls : List MqttCall}
    (htag : ∀ call ∈ calls, call.snap.connectionId = connId ∧ call.snap.logicalName = name)
    (htime : calls.Pairwise fun a b => a.now ≤ b.now)
    (hprev : ∀ prev ∈ s.prev, ∀ call ∈ calls, prev.now ≤ call.now) :
    Along (publishStep mqtt) (MqttCall.Next connId name) s calls := by
  induction calls generalizing s with
  | nil => trivial
  | cons call calls ih =>
    obtain ⟨hfirst, hrest⟩ := List.pairwise_cons.1 htime
    obtain ⟨hconn, hname⟩ := htag call List.mem_cons_self
    refine ⟨⟨hconn, hname, fun prev hp => hprev prev hp call List.mem_cons_self⟩,
      ih (fun c hc => htag c (List.mem_cons_of_mem _ hc)) hrest fun prev hp c hc => ?_⟩
    obtain rfl : call = prev := Option.some.inj hp
    exact hfirst c hc

/-- **Publishing on change.** Publications keep the rate limit, and every change is published when
the limit is over if and only if no call has lost what was held back. -/
theorem publish_on_change_iff (mqtt : Mqtt)
    (hmode : mqtt.cfg.publishMode = "change" ∨ mqtt.cfg.publishMode = "change_or_interval")
    (connId name : String) (calls : List MqttCall)
    (htag : ∀ call ∈ calls, call.snap.connectionId = connId ∧ call.snap.logicalName = name)
    (htime : calls.Pairwise fun a b => a.now ≤ b.now) :
    (Spaced mqtt.cfg (run (publishStep mqtt) {} calls).published ∧
      Along (publishStep mqtt) (PublishesChange mqtt) {} calls) ↔
    Along (publishStep mqtt) (NothingHeldBack mqtt) {} calls := by
  have hmode' : mqtt.cfg.publishMode ≠ "interval" := by
    rcases hmode with h | h <;> simp [h]
  have hstart := PublishRun.Inv.start mqtt connId name
  have hnext : Along (publishStep mqtt) (MqttCall.Next connId name) {} calls :=
    along_next htag htime nofun
  have hinv : (run (publishStep mqtt) {} calls).Inv mqtt connId name :=
    run_invariant (fun _ _ hi hcall => hi.step hmode' hcall) hstart hnext
  rw [and_iff_right hinv.spaced]
  exact along_iff (I := fun s => s.Inv mqtt connId name ∧ s.QualityTold mqtt)
    (fun _ _ hi hcall hdid => ⟨hi.1.step hmode' hcall, .step hi.1 hcall hdid⟩)
    (fun _ _ hi hcall => hi.1.publishesChange_iff hi.2 hmode' hcall) ⟨hstart, nofun⟩ hnext

end

end

section
attribute [local instance] doubles decimalText

/-- One message a second at most. -/
def slowMqtt : Mqtt where
  cfg := { enabled := true, publishTagJson := true, publishMinUpdateMs := 1000 }

/-- The value 5 at a time in milliseconds. -/
def levelCall (ms quality : Nat) : MqttCall where
  snap :=
    { connectionId := "PLC", logicalName := "Level", datatype := "int16", value := .int16 5,
      timestamp := ms * 1000000, quality := quality }
  clock := ms * 1000000

/-- A change of the quality after the limit is published. -/
theorem bad_published : Spaced slowMqtt.cfg
      (run (publishStep slowMqtt) {} [levelCall 1000 1, levelCall 3000 0]).published ∧
    Along (publishStep slowMqtt) (PublishesChange slowMqtt) {}
      [levelCall 1000 1, levelCall 3000 0] :=
  (publish_on_change_iff slowMqtt (.inl rfl) "PLC" "Level" [levelCall 1000 1, levelCall 3000 0]
    (by decide +kernel) (by decide +kernel)).2 (by
      refine ⟨nofun, fun last hlast prev hprev _ _ _ hquality => ?_, trivial⟩
      obtain rfl : levelCall 1000 1 = prev := Option.some.inj hprev
      exact absurd hquality (by decide))

/-- The same change within the limit is not published after it either. -/
theorem bad_held_back : ¬ ∀ (mqtt : Mqtt), mqtt.cfg.publishMode = "change" ∨
      mqtt.cfg.publishMode = "change_or_interval" →
    ∀ (connId name : String) (calls : List MqttCall),
      (∀ call ∈ calls, call.snap.connectionId = connId ∧ call.snap.logicalName = name) →
      calls.Pairwise (fun a b => a.now ≤ b.now) →
      Spaced mqtt.cfg (run (publishStep mqtt) {} calls).published ∧
        Along (publishStep mqtt) (PublishesChange mqtt) {} calls := by
  intro h
  obtain ⟨-, -, -, hthird, -⟩ := h slowMqtt (.inl rfl) "PLC" "Level"
    [levelCall 1000 1, levelCall 1500 0, levelCall 3000 0] (by decide +kernel) (by decide +kernel)
  have hsilent := hthird (levelCall 1000 1) rfl (by decide +kernel)
    (.inr (.inr (by decide +kernel)))
  revert hsilent
  decide +kernel

end

end OpcBridge
