import OpcBridge.Core.Config
import Mathlib.Logic.Function.Basic

/-!
# Snapshots and their gates

The poll stamp of a read, the gate that decides whether a read may count as good, the snapshot
cache, and the two operations on it that go through a gate: `applyPollCacheGate` before a poll
publication is stored and `transitionPollCache` at a start, resume or suspension.
-/

namespace OpcBridge

/-- The two clocks of the process. -/
structure Instant where
  /-- `steady_clock`; 0 is the default time point. -/
  steady : Nat
  /-- `system_clock` -/
  system : Nat
deriving DecidableEq

/-! ## Stamps and gates -/

/-- When a physical read started and ended, and under which driver. -/
structure PollReadStamp where
  started : Nat := 0
  completed : Nat := 0
  sourceEpoch : Nat := 0
deriving DecidableEq

section
variable [Floats]

/-- `satisfies_age`, with the age in milliseconds and the clock in nanoseconds. -/
def PollReadStamp.satisfiesAge (stamp : PollReadStamp) (requested : Nat) (maxAgeMs : F64)
    (good : Bool) (now expectedEpoch : Nat) : Bool :=
  if !Floats.isFinite maxAgeMs || Floats.lt maxAgeMs (Floats.ofInt 0) ||
      stamp.sourceEpoch != expectedEpoch || !good || stamp.started == 0 ||
      decide (stamp.completed < stamp.started) || decide (now < stamp.completed) then false
  else if Floats.eq maxAgeMs (Floats.ofInt 0) then decide (requested ≤ stamp.started)
  else
    let age := Floats.div (Floats.ofInt ((now : Int) - stamp.completed)) (Floats.ofInt 1000000)
    Floats.lt age maxAgeMs || Floats.eq age maxAgeMs

/-- A read that satisfies any age is good, of the expected epoch, and over. -/
theorem PollReadStamp.of_satisfiesAge {stamp : PollReadStamp} {requested now epoch : Nat}
    {maxAge : F64} {good : Bool} (h : stamp.satisfiesAge requested maxAge good now epoch = true) :
    good = true ∧ stamp.sourceEpoch = epoch ∧ stamp.started ≤ stamp.completed ∧
      stamp.completed ≤ now := by
  unfold satisfiesAge at h
  split at h
  · cases h
  · rename_i hc
    simp only [Bool.or_eq_true, bne_iff_ne, not_or, Bool.not_eq_true', Bool.not_eq_false,
      decide_eq_true_eq, not_lt, ne_eq, not_not] at hc
    exact ⟨hc.1.1.1.2, hc.1.1.1.1.2, hc.1.2, hc.2⟩

/-- Age 0 asks for a read that started after the request. -/
theorem PollReadStamp.satisfiesAge_zero {stamp : PollReadStamp} {requested now epoch : Nat}
    {good : Bool} (h : stamp.satisfiesAge requested (Floats.ofInt 0) good now epoch = true) :
    requested ≤ stamp.started := by
  unfold satisfiesAge at h
  rw [Floats.eq_ofInt (by decide) (by decide)] at h
  split at h
  · cases h
  · simpa using h

/-- `PollReadGate::Quality` -/
inductive GateQuality
  | waiting
  | inactive
  | bad
  | good
deriving DecidableEq

structure PollReadGate where
  epoch : Nat := 0
  after : Nat := 0
  active : Bool := true
deriving DecidableEq

namespace PollReadGate

def restart (epoch now : Nat) : PollReadGate := { epoch := epoch, after := now, active := true }

def suspend (gate : PollReadGate) : PollReadGate := { gate with active := false }

def resume (gate : PollReadGate) (now : Nat) : PollReadGate :=
  if gate.active then gate else { gate with active := true, after := now }

def quality (gate : PollReadGate) (stamp : PollReadStamp) (good : Bool) (now : Nat) :
    GateQuality :=
  if !gate.active then .inactive
  else if !good then .bad
  else if stamp.satisfiesAge gate.after (Floats.ofInt 0) true now gate.epoch then .good
  else .waiting

/-- What a gate lets through: an active gate, and a read of its epoch that started after its
boundary and is over. -/
theorem of_quality_good {gate : PollReadGate} {stamp : PollReadStamp} {good : Bool} {now : Nat}
    (h : gate.quality stamp good now = .good) :
    gate.active = true ∧ good = true ∧ stamp.sourceEpoch = gate.epoch ∧
      gate.after ≤ stamp.started ∧ stamp.completed ≤ now := by
  unfold quality at h
  split_ifs at h with h1 h2 h3
  have h4 := PollReadStamp.of_satisfiesAge h3
  exact ⟨by simpa using h1, by simpa using h2, h4.2.1, PollReadStamp.satisfiesAge_zero h3,
    h4.2.2.2⟩

end PollReadGate

/-! ## Snapshots -/

inductive PollCacheState
  | active
  | waiting
  | inactive
deriving DecidableEq

structure TagSnapshot where
  connectionId : String
  logicalName : String
  datatype : String
  value : TagValue
  timestamp : Nat
  /-- 0 is bad, 1 is good. -/
  quality : Nat := 0
  /-- Evidence of the physical poll, independent of the timestamp. -/
  pollRead : PollReadStamp := {}
  pollingState : PollCacheState := .active
  /-- The block of a whole-array read. -/
  arrayValues : List TagValue := []
deriving DecidableEq

abbrev TagTable := String → Option TagSnapshot

def makeInitialSnapshotForTag (conn : ConnectionConfig) (tag : TagRuntime) (quality : Nat)
    (now : Instant) : TagSnapshot :=
  let dt :=
    if tag.scalingLinear then
      let outDt := normalizeScaledDatatype tag.outDatatype
      if outDt = "" then "float64" else outDt
    else tag.cfg.datatype
  let seed : TagSnapshot :=
    { connectionId := conn.id, logicalName := tag.name, datatype := dt,
      value := defaultTagValueForDatatype dt, timestamp := now.system, quality := quality }
  if isMemoryTag tag.cfg ∧ tag.cfg.initialValue ≠ "" then
    match parseStringToTagvalue tag.cfg.initialValue tag.cfg.datatype with
    | some initial => { seed with value := initial, datatype := tag.cfg.datatype }
    | none => seed
  else seed

def makeInitialSnapshotForOpcua (conn : ConnectionConfig) (tag : TagRuntime) (now : Instant) :
    TagSnapshot :=
  let seed := makeInitialSnapshotForTag conn tag (if isMemoryTag tag.cfg then 1 else 0) now
  if 1 < tag.cfg.elemCount then
    { seed with arrayValues := List.replicate tag.cfg.elemCount seed.value }
  else seed

/-! ## Drivers -/

/-- A driver as it is built: tag names are distinct. -/
structure DriverContext where
  freshnessEpoch : Nat
  pollGates : String → Option PollReadGate := fun _ => none
  conn : ConnectionConfig
  tags : List TagRuntime
  names_nodup : (tags.map TagRuntime.name).Nodup := by decide

namespace DriverContext

/-- `find_if` by logical name. -/
def find (driver : DriverContext) (name : String) : Option TagRuntime :=
  driver.tags.find? fun tag => tag.name == name

theorem find_eq_some {driver : DriverContext} {name : String} {tag : TagRuntime} :
    driver.find name = some tag ↔ tag ∈ driver.tags ∧ tag.name = name := by
  constructor
  · intro h
    exact ⟨List.mem_of_find?_eq_some h, by simpa using List.find?_some h⟩
  · rintro ⟨hm, rfl⟩
    obtain ⟨t, ht⟩ : ∃ t, driver.find tag.name = some t := by
      rw [← Option.isSome_iff_exists, find, List.find?_isSome]
      exact ⟨tag, hm, by simp⟩
    rw [ht, Option.some.injEq]
    exact List.inj_on_of_nodup_map driver.names_nodup (List.mem_of_find?_eq_some ht) hm
      (by simpa using List.find?_some ht)

/-- The cache key of a tag of the driver. -/
def key (driver : DriverContext) (name : String) : String := makeTagKey driver.conn.id name

end DriverContext

/-- Only the current driver's gate may restore good quality. -/
def applyPollCacheGate (driver : DriverContext) (snapshot : TagSnapshot) (now : Nat) :
    TagSnapshot :=
  match driver.pollGates snapshot.logicalName with
  | none => snapshot
  | some gate =>
    if snapshot.quality = 0 ∧ snapshot.pollingState = .waiting ∧ gate.active then snapshot
    else match gate.quality snapshot.pollRead (snapshot.quality == 1) now with
      | .good => { snapshot with pollingState := .active }
      | .bad => { snapshot with pollingState := .active }
      | .inactive => { snapshot with pollingState := .inactive, quality := 0 }
      | .waiting => { snapshot with pollingState := .waiting, quality := 0 }

/-- A gated snapshot of good quality passed its gate. -/
theorem applyPollCacheGate_good {driver : DriverContext} {snapshot : TagSnapshot} {now : Nat}
    {gate : PollReadGate} (hg : driver.pollGates snapshot.logicalName = some gate)
    (h : (applyPollCacheGate driver snapshot now).quality = 1) :
    gate.active = true ∧ snapshot.pollRead.sourceEpoch = gate.epoch ∧
      gate.after ≤ snapshot.pollRead.started ∧ snapshot.pollRead.completed ≤ now := by
  unfold applyPollCacheGate at h
  rw [hg] at h
  dsimp only at h
  split at h
  · rename_i hc
    rw [hc.1] at h
    cases h
  · split at h <;> rename_i hq
    · obtain ⟨h1, -, h2, h3, h4⟩ := PollReadGate.of_quality_good hq
      exact ⟨h1, h2, h3, h4⟩
    · -- a bad reading has another quality than 1
      simp only [PollReadGate.quality] at hq
      simp at hq
      split_ifs at hq
    · cases h
    · cases h

/-- A gate never makes a snapshot good. -/
theorem quality_of_applyPollCacheGate {driver : DriverContext} {snapshot : TagSnapshot}
    {now : Nat} (h : (applyPollCacheGate driver snapshot now).quality = 1) :
    snapshot.quality = 1 := by
  unfold applyPollCacheGate at h
  split at h
  · exact h
  · split at h
    · exact h
    · split at h
      · exact h
      · exact h
      · cases h
      · cases h

@[simp] theorem applyPollCacheGate_pollRead (driver : DriverContext) (snapshot : TagSnapshot)
    (now : Nat) : (applyPollCacheGate driver snapshot now).pollRead = snapshot.pollRead := by
  unfold applyPollCacheGate
  split
  · rfl
  · split
    · rfl
    · split <;> rfl

/-! ## Transitions -/

/-- The gate after a transition. -/
def PollReadGate.transition (gate : PollReadGate) (active restart : Bool) (epoch now : Nat) :
    PollReadGate :=
  let gate := if restart then .restart epoch now else gate
  if active then gate.resume now else gate.suspend

/-- Startup, resume and suspension: quality is invalidated, the measurement is kept. -/
def transitionPollCache (driver : DriverContext) (tag : TagRuntime) (table : TagTable)
    (active restart : Bool) (now : Instant) : DriverContext × TagTable :=
  let gate := (driver.pollGates tag.name).getD {}
  let key := driver.key tag.name
  let put (gate : PollReadGate) : DriverContext :=
    { driver with pollGates := Function.update driver.pollGates tag.name (some gate) }
  if !restart && gate.active == active && (table key).isSome then (put gate, table)
  else
    let snapshot := (table key).getD (makeInitialSnapshotForOpcua driver.conn tag now)
    (put (gate.transition active restart driver.freshnessEpoch now.steady),
      Function.update table key (some { snapshot with
        quality := 0, pollingState := if active then .waiting else .inactive }))

section
variable (driver : DriverContext) (tag : TagRuntime) (table : TagTable) (active restart : Bool)
  (now : Instant)

omit [Floats] in
theorem PollReadGate.transition_same {gate : PollReadGate} (h : gate.active = active)
    (epoch t : Nat) : gate.transition active false epoch t = gate := by
  obtain ⟨e, a, b⟩ := gate
  cases h
  cases b <;> rfl

/-- Only the tag's gate changes, and it changes as the transition says even where the cached
snapshot stays as it is. -/
theorem transitionPollCache_driver :
    (transitionPollCache driver tag table active restart now).1 =
      { driver with
        pollGates := Function.update driver.pollGates tag.name
          (some (((driver.pollGates tag.name).getD {}).transition active restart
            driver.freshnessEpoch now.steady)) } := by
  unfold transitionPollCache
  dsimp only
  split
  · rename_i h
    simp only [Bool.and_eq_true, Bool.not_eq_true', beq_iff_eq] at h
    rw [h.1.1, PollReadGate.transition_same active h.1.2]
  · rfl

theorem transitionPollCache_table_ne {key : String} (h : key ≠ driver.key tag.name) :
    (transitionPollCache driver tag table active restart now).2 key = table key := by
  unfold transitionPollCache
  dsimp only
  split
  · rfl
  · exact Function.update_of_ne h _ _

/-- The tag's own cached snapshot after the transition. -/
theorem transitionPollCache_table_key :
    (transitionPollCache driver tag table active restart now).2 (driver.key tag.name) =
      if !restart && ((driver.pollGates tag.name).getD {}).active == active &&
          (table (driver.key tag.name)).isSome then table (driver.key tag.name)
      else
        some { (table (driver.key tag.name)).getD
            (makeInitialSnapshotForOpcua driver.conn tag now) with
          quality := 0
          pollingState := if active then .waiting else .inactive } := by
  unfold transitionPollCache
  dsimp only
  split
  · rfl
  · exact Function.update_self ..

end

end

end OpcBridge
