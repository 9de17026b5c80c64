import OpcBridge.Demand.Collect

/-!
# The demand scheduler

`DemandSchedulerPreview` keeps an entry for every enabled row with poll work and decides from it
whether a root is polled. It fails open: no plan, an old plan, a root that the plan does not know or
an entry of another driver context all mean to poll. `refresh_entries` says what an entry of a
refreshed plan goes back to, and `demand_closed` carries demand from a tag to the polling of its
root.
-/

namespace OpcBridge

open Lib

section
variable [Floats]

/-! ## The plan -/

/-- `DemandSchedulerPreview::Entry` -/
structure SchedulerEntry where
  epoch : Nat
  started : Nat
  lastDemand : Nat
  wouldPoll : Bool

structure PlanRow where
  connectionId : String
  name : String
  wouldPoll : Bool
  reason : String
  driverEpoch : Nat

structure DemandSchedulerPreview where
  startup : Nat := 30000000000
  idle : Nat := 10000000000
  stale : Nat := 2500000000
  entries : String → Option SchedulerEntry := fun _ => none
  rows : List PlanRow := []
  updated : Nat := 0
  initialized : Bool := false

def schedulerKey (cid name : String) : String := cid ++ "\x1f" ++ name

/-- The loop state of `refresh`. -/
structure RefreshState where
  entries : String → Option SchedulerEntry
  rows : List PlanRow := []
  seen : Finset String := ∅

namespace DemandSchedulerPreview

def refreshTag (s : DemandSchedulerPreview) (now : Nat) (acc : RefreshState) (tag : DemandRow) :
    RefreshState :=
  if !tag.pollWork || !tag.enabled then acc
  else
    let key := schedulerKey tag.connectionId tag.name
    let epoch := tag.driverEpoch
    let entry := match (acc.entries key).filter (·.epoch == epoch) with
      | some entry => entry
      | none => { epoch := epoch, started := now, lastDemand := now, wouldPoll := true }
    let observed := tag.observedDemand
    let entry := if observed then { entry with lastDemand := now } else entry
    let plan : Bool × String :=
      if tag.driver ≠ "ab_eip" then (true, "unsupported_driver")
      else if observed then
        (true, if entry.wouldPoll then "observed_demand" else "wake_requested")
      else if (now : Int) - entry.started < s.startup then (true, "startup_grace")
      else if (now : Int) - entry.lastDemand < s.idle then (true, "idle_grace")
      else (false, "no_observed_demand")
    { entries := Function.update acc.entries key (some { entry with wouldPoll := plan.1 })
      rows := acc.rows ++ [{
        connectionId := tag.connectionId, name := tag.name, wouldPoll := plan.1, reason := plan.2,
        driverEpoch := epoch }]
      seen := insert key acc.seen }

def refresh (s : DemandSchedulerPreview) (demand : DemandTable) (now : Nat) :
    DemandSchedulerPreview :=
  let acc := demand.tags.foldl (s.refreshTag now) { entries := s.entries }
  { s with
    entries := fun key => if key ∈ acc.seen then acc.entries key else none
    rows := acc.rows
    updated := now
    initialized := true }

/-- Fails open for incomplete or stale plans and replacement drivers. -/
def shouldPoll (s : DemandSchedulerPreview) (cid name : String) (epoch now : Nat) : Bool :=
  if !s.initialized || decide (now < s.updated) || decide (s.stale < now - s.updated) then true
  else match s.entries (schedulerKey cid name) with
    | none => true
    | some entry => entry.epoch != epoch || entry.wouldPoll

end DemandSchedulerPreview

/-- `demandAllows` of a poll lane. -/
def demandAllows (activePollTest : Bool) (s : DemandSchedulerPreview) (driver : DriverContext)
    (name : String) (now : Nat) : Bool :=
  !activePollTest || s.shouldPoll driver.conn.id name driver.freshnessEpoch now

/-! ## Where an entry comes from -/

/-- The row that an entry was written for. -/
def WrittenFor (rows : List DemandRow) (key : String) (entry : SchedulerEntry) : Prop :=
  ∃ row ∈ rows, key = schedulerKey row.connectionId row.name ∧ entry.epoch = row.driverEpoch ∧
    (row.observedDemand = true → entry.wouldPoll = true)

/-- One row of a refresh. -/
theorem refreshTag_entries {s : DemandSchedulerPreview} {now : Nat} {rows : List DemandRow}
    {acc : RefreshState} {tag : DemandRow}
    (h : ∀ key ∈ acc.seen, ∀ entry, acc.entries key = some entry → WrittenFor rows key entry) :
    ∀ key ∈ (s.refreshTag now acc tag).seen, ∀ entry,
      (s.refreshTag now acc tag).entries key = some entry →
        WrittenFor (rows ++ [tag]) key entry := by
  have hmono : ∀ key entry, WrittenFor rows key entry → WrittenFor (rows ++ [tag]) key entry := by
    rintro key entry ⟨row, hr, hrest⟩
    exact ⟨row, List.mem_append_left _ hr, hrest⟩
  unfold DemandSchedulerPreview.refreshTag
  split
  · exact fun key hk entry he => hmono key entry (h key hk entry he)
  · dsimp only
    intro key hk entry he
    by_cases hkey : key = schedulerKey tag.connectionId tag.name
    · subst hkey
      rw [Function.update_self, Option.some.injEq] at he
      refine ⟨tag, by simp, rfl, ?_, fun hobs => ?_⟩
      · subst he
        -- the entry found has this epoch, or a new one was made
        cases hf : (acc.entries (schedulerKey tag.connectionId tag.name)).filter
            (·.epoch == tag.driverEpoch) with
        | none => simp only; split <;> rfl
        | some found =>
          have hepoch : found.epoch = tag.driverEpoch := by
            simpa using (Option.filter_eq_some_iff.1 hf).2
          simp only
          split <;> exact hepoch
      · subst he
        simp only [hobs]
        split <;> rfl
    · rw [Function.update_of_ne hkey] at he
      rw [Finset.mem_insert] at hk
      exact hmono key entry (h key (hk.resolve_left hkey) entry he)

/-- **The entries of a refreshed plan** go back to rows of its table. -/
theorem refresh_entries {s : DemandSchedulerPreview} {demand : DemandTable} {now : Nat}
    {key : String} {entry : SchedulerEntry}
    (h : (s.refresh demand now).entries key = some entry) : WrittenFor demand.tags key entry := by
  have hall : ∀ (tags rows : List DemandRow) (acc : RefreshState),
      (∀ key ∈ acc.seen, ∀ entry, acc.entries key = some entry → WrittenFor rows key entry) →
      ∀ key ∈ (tags.foldl (s.refreshTag now) acc).seen, ∀ entry,
        (tags.foldl (s.refreshTag now) acc).entries key = some entry →
          WrittenFor (rows ++ tags) key entry := by
    intro tags
    induction tags with
    | nil =>
      intro rows acc h
      simpa using h
    | cons tag tags ih =>
      intro rows acc h
      have := ih (rows ++ [tag]) (s.refreshTag now acc tag) (refreshTag_entries h)
      simpa using this
  unfold DemandSchedulerPreview.refresh at h
  dsimp only at h
  split at h
  · exact hall demand.tags [] _ (by simp) key ‹_› entry h
  · cases h

omit [Floats] in
theorem schedulerKey_inj {cid a b : String} : schedulerKey cid a = schedulerKey cid b ↔ a = b := by
  simp [schedulerKey]

/-! ## From demand to polling -/

/-- The drivers of a process: every driver context takes the next number of one counter. -/
structure DriverSet where
  drivers : List DriverContext
  epochs_nodup : (drivers.map DriverContext.freshnessEpoch).Nodup

theorem mem_driverTags {drivers : List DriverContext} {x : DriverTag} :
    x ∈ driverTags drivers ↔ x.1 ∈ drivers ∧ x.2 ∈ x.1.tags := by
  simp only [driverTags, List.mem_flatMap, List.mem_map]
  constructor
  · rintro ⟨driver, hd, tag, ht, rfl⟩
    exact ⟨hd, ht⟩
  · rintro ⟨hd, ht⟩
    exact ⟨x.1, hd, x.2, ht, rfl⟩

theorem Supplies.mem {drivers : List DriverContext} {x y : DriverTag}
    (hx : x ∈ driverTags drivers) (h : Supplies drivers x y) : y ∈ driverTags drivers := by
  cases h with
  | self => exact hx
  | link _ _ _ hz => exact hz

section
variable {src : DemandSources} {now : Nat} {filter : String}

/-- Every tag that passes the filter has a row. -/
theorem exists_row {drivers : List DriverContext} (hk : KeysDistinct drivers) {x : DriverTag}
    (hx : x ∈ driverTags drivers) (hf : filter = "" ∨ x.1.conn.id = filter) :
    ∃ row ∈ (collectPollingDemand src drivers now filter true).tags, row.IsOf x := by
  obtain ⟨i, hi⟩ := List.mem_iff_getElem?.1 hx
  exact ⟨_, (mem_collect_tags hk).2 ⟨i, x, hi, hf, rfl⟩, rfl, rfl⟩

/-- After a refresh with the full table, a tag that supplies a demanded tag is polled. -/
theorem shouldPoll_of_supplies {drivers : DriverSet} (hk : KeysDistinct drivers.drivers)
    {x y : DriverTag} (hx : x ∈ driverTags drivers.drivers) (hd : Demanded src now x)
    (hs : Supplies drivers.drivers x y) (s : DemandSchedulerPreview) (t t' : Nat) :
    (s.refresh (collectPollingDemand src drivers.drivers now "" true) t).shouldPoll y.1.conn.id
      y.2.name y.1.freshnessEpoch t' = true := by
  have hy := hs.mem hx
  unfold DemandSchedulerPreview.shouldPoll
  split
  · rfl
  · cases he : (s.refresh (collectPollingDemand src drivers.drivers now "" true) t).entries
        (schedulerKey y.1.conn.id y.2.name) with
    | none => rfl
    | some entry =>
      obtain ⟨row, hrow, hkey, hepoch, hpoll⟩ := refresh_entries he
      simp only [Bool.or_eq_true, bne_iff_ne]
      by_cases hne : entry.epoch = y.1.freshnessEpoch
      · -- an entry of this epoch is of this driver, and so of this tag
        obtain ⟨i, z, hz, -, hzrow⟩ := (mem_collect_tags hk).1 hrow
        have hzy : z.1 = y.1 := by
          refine List.inj_on_of_nodup_map drivers.epochs_nodup
            (mem_driverTags.1 (List.mem_of_getElem? hz)).1 (mem_driverTags.1 hy).1 ?_
          rw [← hne, hepoch, hzrow]
          rfl
        have hcid : row.connectionId = y.1.conn.id := by rw [hzrow, ← hzy]; rfl
        rw [hcid, schedulerKey_inj] at hkey
        exact .inr (hpoll ((observedDemand_iff hk hrow hy ⟨hcid, hkey.symm⟩).2
          (.inr ⟨x, hx, hd, hs⟩)))
      · exact .inl hne

/-- **Demand is closed under sources**: the worklist ends, every tag that supplies a demanded tag is
reported and polled, and a tag that supplies none and has no reason of its own is reported without
demand. -/
theorem demand_closed (src : DemandSources) (drivers : DriverSet) (now : Nat)
    (hk : KeysDistinct drivers.drivers) :
    let rows := reasonedRows src drivers.drivers now
    queuedAfter (sourceRow rows) (rowEnabled rows) (closureFuel rows) (demandedRows rows) ∅ = [] ∧
    (∀ x ∈ driverTags drivers.drivers, Demanded src now x → ∀ y, Supplies drivers.drivers x y →
      (∀ filter, filter = "" ∨ y.1.conn.id = filter →
        (collectPollingDemand src drivers.drivers now filter true).Reports y true) ∧
      ∀ (s : DemandSchedulerPreview) (t t' : Nat) (activePollTest : Bool),
        demandAllows activePollTest
          (s.refresh (collectPollingDemand src drivers.drivers now "" true) t) y.1 y.2.name t' =
            true) ∧
    ∀ y ∈ driverTags drivers.drivers, ownReasons src now y = ∅ →
      (∀ x ∈ driverTags drivers.drivers, Demanded src now x → ¬ Supplies drivers.drivers x y) →
      ∀ filter, filter = "" ∨ y.1.conn.id = filter →
        (collectPollingDemand src drivers.drivers now filter true).Reports y false := by
  refine ⟨?_, fun x hx hd y hs => ⟨fun filter hf => ?_, fun s t t' active => ?_⟩,
    fun y hy hown hnone filter hf => ?_⟩
  · exact queuedAfter_eq_nil _ _ (sourceRow_closed hk) (demandedRows_mem hk)
      (by simpa using closure_fuel)
  · exact ⟨exists_row hk (hs.mem hx) hf, fun row hrow hof =>
      (observedDemand_iff hk hrow (hs.mem hx) hof).2 (.inr ⟨x, hx, hd, hs⟩)⟩
  · unfold demandAllows
    rw [shouldPoll_of_supplies hk hx hd hs, Bool.or_true]
  · refine ⟨exists_row hk hy hf, fun row hrow hof => ?_⟩
    rw [← Bool.not_eq_true, observedDemand_iff hk hrow hy hof]
    rintro (h | ⟨x, hx, hd, hs⟩)
    · exact h hown
    · exact hnone x hx hd hs

end

end

/-! ## A logged bit -/

section
attribute [local instance] intFloats

/-- A word. -/
def demandWord : TagRuntime := { cfg := { logicalName := "Word", datatype := "int16" } }

/-- A logged bit of it. -/
def demandBit : TagRuntime :=
  { cfg := { logicalName := "Bit", datatype := "bool", sourceTag := "Word", bit := some 0,
             logEventOnChange := true } }

def demandDriver : DriverContext where
  freshnessEpoch := 1
  conn := { id := "C", driver := "ab_eip" }
  tags := [demandWord, demandBit]
  names_nodup := by simp [TagRuntime.name, demandWord, demandBit]

def demandDrivers : DriverSet where
  drivers := [demandDriver]
  epochs_nodup := by simp

/-- No registry but the logging flags. -/
def quietSources : DemandSources := { observations := { entries := fun _ => none, items := [] } }

/-- The bit is logged, so its word is polled. -/
theorem logged_word_polled :
    demandAllows true
      (DemandSchedulerPreview.refresh {}
        (collectPollingDemand quietSources demandDrivers.drivers 0 "" true) 1)
      demandDriver "Word" 2 = true := by
  have hbit : (demandDriver, demandBit) ∈ driverTags demandDrivers.drivers := by
    simp [driverTags, demandDrivers, demandDriver]
  have hword : (demandDriver, demandWord) ∈ driverTags demandDrivers.drivers := by
    simp [driverTags, demandDrivers, demandDriver]
  have hd : Demanded quietSources 0 (demandDriver, demandBit) := ⟨rfl, by decide +kernel⟩
  have hs : Supplies demandDrivers.drivers (demandDriver, demandBit) (demandDriver, demandWord) :=
    .link .self rfl (by decide : demandBit.parent = some "Word") hword rfl
  have hk : KeysDistinct demandDrivers.drivers := by
    unfold KeysDistinct
    decide
  exact ((demand_closed quietSources demandDrivers 0 hk).2.1 _ hbit hd _ hs).2 {} 1 2 true

end

end OpcBridge
