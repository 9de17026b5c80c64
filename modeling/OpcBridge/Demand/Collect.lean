import OpcBridge.Core.Snapshot
import OpcBridge.Demand.Sources
import OpcBridge.Lib.Closure

/-!
# Collecting demand

`collectPollingDemand` gives every configured tag the reasons of the demand registries, lets the
enabled alarms add theirs by key, and follows the demanded tags to their sources with a worklist
over row numbers. A link is resolved by the key of the source name on the same connection.

`Supplies` is the closure without row numbers: the tags reached from a tag through links out of
enabled tags. `row_observed` says that a row reports demand exactly if it has a reason of its own
or supplies a demanded tag.
-/

namespace OpcBridge

open Lib

section
variable [Floats]

/-! ## Rows -/

/-- Every registry that demand is read from. -/
structure DemandSources where
  observations : TagDemandObservations
  clients : List WsClient := []
  leases : List ConsumerLease := []
  scripts : List LogicScriptConfig := []
  executions : List LogicScriptConfig := []
  alarms : List AlarmConfig := []

namespace DemandSources

def automation (src : DemandSources) : AutomationDemand :=
  automationDemandSnapshot src.scripts src.executions

/-- The WebSocket snapshot with the leases and the automations merged into its owners. -/
def ws (src : DemandSources) (now : Nat) : WsDemand :=
  let ws := wsDemandSnapshot src.clients
  let owners := appendLeases src.leases now ws.owners
  let automation := src.automation
  { ws with
    owners :=
      if automation.allTagsRequired ∨ automation.tags ≠ ∅ then
        mergeConsumerScope owners "opcbridge-automation"
          { allTags := automation.allTagsRequired, tags := automation.tags }
      else owners }

end DemandSources

/-- A tag with its driver. -/
abbrev DriverTag := DriverContext × TagRuntime

def DriverTag.key (x : DriverTag) : String := makeTagKey x.1.conn.id x.2.name

/-- The tags in the order of the loop. -/
def driverTags (drivers : List DriverContext) : List DriverTag :=
  drivers.flatMap fun driver => driver.tags.map fun tag => (driver, tag)

structure ObservedTag where
  cid : String
  name : String
  source : String
  enabled : Bool
  ua : Nat := 0
  ws : Nat
  uaActive : Nat := 0
  uaInherited : Nat := 0
  uaInterval : F64 := Floats.ofInt (-1)
  reasons : Finset String
  arrayElement : Bool
  pollWork : Bool
  writable : Bool
  driver : String
  epoch : Nat

def reasonIf (b : Bool) (reason : String) : Finset String := if b then {reason} else ∅

/-- The reasons of an observation. -/
def ObservationEntry.reasons (entry : ObservationEntry) (now : Nat) : Finset String :=
  reasonIf (entry.activeMonitoredItems != 0) "opcua_active_monitored_item" ∪
    reasonIf (decide (now < entry.uaReadUntil)) "opcua_recent_read" ∪
    reasonIf (decide (now < entry.uaFreshUntil)) "opcua_fresh_read_requested" ∪
    reasonIf (decide (now < entry.httpUntil)) "http_recent_read"

/-- The reasons of the WebSocket clients and of the registered consumers. -/
def WsDemand.reasons (ws : WsDemand) (cid name : String) : Finset String :=
  reasonIf (ws.allTagsClients != 0) "websocket_all_tags" ∪
    reasonIf (ws.tags (makeTagKey cid name) != 0) "websocket_explicit_subscription" ∪
    ((ws.owners.filter fun owner => consumerDemandMatches owner.2 cid name).map fun owner =>
      "consumer:" ++ owner.1).toFinset

/-- The reasons of the logging flags. -/
def TagRuntime.loggingReasons (tag : TagRuntime) : Finset String :=
  reasonIf tag.cfg.logEventOnChange "event_logging" ∪
    reasonIf (tag.periodicEnabled || tag.cfg.logPeriodic) "periodic_logging"

/-- The row of a tag before alarms. -/
def observedTag (observations : String → Option ObservationEntry) (ws : WsDemand) (now : Nat)
    (x : DriverTag) : ObservedTag :=
  let cid := x.1.conn.id
  let tag := x.2
  let found := observations (uaTagNodeidString cid tag.name)
  let entry := found.getD {}
  { cid := cid
    name := tag.name
    source := if tag.pollSource = "" then tag.cfg.sourceTag else tag.pollSource
    enabled := tag.cfg.enabled
    ua := entry.monitoredItems
    ws := ws.allTagsClients + ws.tags (makeTagKey cid tag.name)
    uaActive := entry.activeMonitoredItems
    uaInherited := entry.inheritedSamplingItems
    uaInterval := entry.minSamplingInterval
    reasons := (found.elim ∅ fun entry => entry.reasons now) ∪ ws.reasons cid tag.name ∪
      tag.loggingReasons
    arrayElement := tag.pollSource != ""
    pollWork := tag.cfg.sourceTag == "" && tag.pollSource == "" && !isMemoryTag tag.cfg &&
      (decide (0 ≤ tag.handle) || tag.handleDeferred)
    writable := tag.cfg.writable
    driver := x.1.conn.driver
    epoch := x.1.freshnessEpoch }

def ObservedTag.key (row : ObservedTag) : String := makeTagKey row.cid row.name

def ObservedTag.addReason (reason : String) (row : ObservedTag) : ObservedTag :=
  { row with reasons := insert reason row.reasons }

/-- `byKey[key] = tags.size()` -/
def indexRow (byKey : String → Option Nat) (row : ObservedTag × Nat) : String → Option Nat :=
  Function.update byKey row.1.key (some row.2)

/-- `byKey`: the number of the last row with a key. -/
def indexByKey (rows : List ObservedTag) : String → Option Nat :=
  rows.zipIdx.foldl indexRow fun _ => none

/-- Reasons given to rows one after the other. -/
def addReasons (rows : List ObservedTag) (marks : List (Nat × String)) : List ObservedTag :=
  marks.foldl (fun rows mark => rows.modify mark.1 (ObservedTag.addReason mark.2)) rows

/-- The rows that the enabled alarms give their reason. -/
def alarmMarks (rows : List ObservedTag) (alarms : List AlarmConfig) : List (Nat × String) :=
  (alarms.filter (·.enabled)).filterMap fun alarm =>
    (indexByKey rows (makeTagKey alarm.connectionId alarm.tagName)).map (·, "internal_alarm")

/-! ## The closure -/

/-- The row of the source of row `i`. -/
def sourceRow (rows : List ObservedTag) (i : Nat) : Option Nat :=
  match rows[i]? with
  | none => none
  | some row =>
    if row.source = "" then none else indexByKey rows (makeTagKey row.cid row.source)

def rowEnabled (rows : List ObservedTag) (i : Nat) : Bool := (rows[i]?).any (·.enabled)

/-- The demanded rows, the last one first: the loop takes from the back. -/
def demandedRows (rows : List ObservedTag) : List Nat :=
  ((List.range rows.length).filter fun i =>
    (rows[i]?).any fun row => row.enabled && decide (row.reasons ≠ ∅)).reverse

/-- Every iteration takes one of the queued rows, and each row is expanded once. -/
def closureFuel (rows : List ObservedTag) : Nat := 2 * rows.length + 1

def closureEdges (rows : List ObservedTag) : List (Nat × Nat) :=
  follow (sourceRow rows) (rowEnabled rows) (closureFuel rows) (demandedRows rows) ∅

/-- The reason that a source gets from the row `i`. -/
def sourceReason (rows : List ObservedTag) (i : Nat) : String :=
  match rows[i]? with
  | none => ""
  | some row => (if row.arrayElement then "array_source:" else "derived_source:") ++ row.name

/-- The reasons that the sources get in the loop. -/
def sourceMarks (rows : List ObservedTag) : List (Nat × String) :=
  (closureEdges rows).map fun e => (e.2, sourceReason rows e.1)

/-! ## The table -/

structure DemandRow where
  connectionId : String
  name : String
  enabled : Bool
  observedDemand : Bool
  reasons : Finset String
  registeredMonitoredItems : Nat
  activeMonitoredItems : Nat
  inheritedSamplingItems : Nat
  minExplicitSamplingInterval : Option F64
  websocketSubscribers : Nat
  pollSource : Option String
  pollWork : Bool
  writable : Bool
  driver : String
  driverEpoch : Nat

def ObservedTag.toDemandRow (row : ObservedTag) : DemandRow where
  connectionId := row.cid
  name := row.name
  enabled := row.enabled
  observedDemand := decide (row.reasons ≠ ∅)
  reasons := row.reasons
  registeredMonitoredItems := row.ua
  activeMonitoredItems := row.uaActive
  inheritedSamplingItems := row.uaInherited
  minExplicitSamplingInterval :=
    if Floats.lt row.uaInterval (Floats.ofInt 0) then none else some row.uaInterval
  websocketSubscribers := row.ws
  pollSource := if row.arrayElement then some row.source else none
  pollWork := row.pollWork
  writable := row.writable
  driver := row.driver
  driverEpoch := row.epoch

structure ConnectionSummary where
  configuredTags : Nat
  enabledTags : Nat
  enabledWithObservedDemand : Nat
  enabledWithoutObservedDemand : Nat

def connectionSummary (rows : List ObservedTag) (cid : String) : ConnectionSummary :=
  let rows := rows.filter (·.cid == cid)
  { configuredTags := rows.length
    enabledTags := rows.countP (·.enabled)
    enabledWithObservedDemand := rows.countP fun row => row.enabled && decide (row.reasons ≠ ∅)
    enabledWithoutObservedDemand := rows.countP fun row => row.enabled && decide (row.reasons = ∅) }

structure DemandTable where
  allTagsClients : Nat
  consumerRegistrations : List (String × ConsumerOwner)
  automation : AutomationDemand
  connections : String → Option ConnectionSummary
  tags : List DemandRow

/-- The rows with the reasons of the registries and the alarms. -/
def reasonedRows (src : DemandSources) (drivers : List DriverContext) (now : Nat) :
    List ObservedTag :=
  let rows := (driverTags drivers).map
    (observedTag (src.observations.snapshot now) (src.ws now) now)
  addReasons rows (alarmMarks rows src.alarms)

def collectPollingDemand (src : DemandSources) (drivers : List DriverContext) (now : Nat)
    (filter : String) (includeTags : Bool) : DemandTable :=
  let rows := reasonedRows src drivers now
  let rows := (addReasons rows (sourceMarks rows)).filter fun row =>
    filter == "" || row.cid == filter
  { allTagsClients := (src.ws now).allTagsClients
    consumerRegistrations := (src.ws now).owners
    automation := src.automation
    connections := fun cid =>
      if rows.any (·.cid == cid) then some (connectionSummary rows cid) else none
    tags := if includeTags then rows.map ObservedTag.toDemandRow else [] }

/-! ## Rows by key -/

theorem foldl_indexRow {rows : List (ObservedTag × Nat)} (hn : (rows.map (·.1.key)).Nodup)
    {byKey : String → Option Nat} {key : String} {i : Nat} :
    rows.foldl indexRow byKey key = some i ↔
      (∃ row, (row, i) ∈ rows ∧ row.key = key) ∨
        (byKey key = some i ∧ ∀ row ∈ rows, row.1.key ≠ key) := by
  induction rows generalizing byKey with
  | nil => simp
  | cons r rows ih =>
    rw [List.map_cons, List.nodup_cons] at hn
    rw [List.foldl_cons, ih hn.2, indexRow]
    by_cases hk : r.1.key = key
    · -- no later row has the key
      have hlater : ∀ row ∈ rows, row.1.key ≠ key :=
        fun row hr he => hn.1 (List.mem_map.2 ⟨row, hr, by rw [he, hk]⟩)
      subst hk
      rw [Function.update_self]
      constructor
      · rintro (⟨row, hr, he⟩ | ⟨he, -⟩)
        · exact absurd he (hlater _ hr)
        · cases he
          exact .inl ⟨r.1, by simp, rfl⟩
      · rintro (⟨row, hr, he⟩ | ⟨-, he⟩)
        · rcases List.mem_cons.1 hr with rfl | hr
          · exact .inr ⟨rfl, hlater⟩
          · exact absurd he (hlater _ hr)
        · exact absurd rfl (he r (by simp))
    · rw [Function.update_of_ne (Ne.symm hk)]
      constructor
      · rintro (⟨row, hr, he⟩ | ⟨he, hall⟩)
        · exact .inl ⟨row, List.mem_cons_of_mem _ hr, he⟩
        · refine .inr ⟨he, fun row hr => ?_⟩
          rcases List.mem_cons.1 hr with rfl | hr
          · exact hk
          · exact hall row hr
      · rintro (⟨row, hr, he⟩ | ⟨he, hall⟩)
        · rcases List.mem_cons.1 hr with rfl | hr
          · exact absurd he hk
          · exact .inl ⟨row, hr, he⟩
        · exact .inr ⟨he, fun row hr => hall row (List.mem_cons_of_mem _ hr)⟩

/-- Where keys are distinct, a key finds its row. -/
theorem indexByKey_eq_some {rows : List ObservedTag} (hn : (rows.map ObservedTag.key).Nodup)
    {key : String} {i : Nat} :
    indexByKey rows key = some i ↔ ∃ row, rows[i]? = some row ∧ row.key = key := by
  have hz : (rows.zipIdx.map (·.1.key)).Nodup := by
    have he : rows.zipIdx.map (ObservedTag.key ∘ Prod.fst) = rows.map ObservedTag.key := by
      rw [← List.map_map, List.zipIdx_map_fst]
    exact he ▸ hn
  rw [indexByKey, foldl_indexRow hz]
  simp [List.mem_zipIdx_iff_getElem?]

/-- What reasons given one after the other leave in a row. -/
theorem getElem?_addReasons {rows : List ObservedTag} {marks : List (Nat × String)} {i : Nat} :
    (addReasons rows marks)[i]? = (rows[i]?).map fun row => { row with
      reasons := row.reasons ∪ ((marks.filter (·.1 == i)).map (·.2)).toFinset } := by
  induction marks generalizing rows with
  | nil => simp [addReasons]
  | cons mark marks ih =>
    have h : addReasons rows (mark :: marks) =
        addReasons (rows.modify mark.1 (ObservedTag.addReason mark.2)) marks := rfl
    rw [h, ih, List.getElem?_modify]
    by_cases hm : mark.1 = i
    · cases rows[i]? with
      | none => simp
      | some row =>
        simp only [hm, if_true, Option.map_some, List.filter_cons_of_pos, beq_self_eq_true,
          List.map_cons, List.toFinset_cons, ObservedTag.addReason]
        simp
    · simp [hm]

/-! ## Own reasons -/

/-- The reasons of a tag before the closure. -/
def ownReasons (src : DemandSources) (now : Nat) (x : DriverTag) : Finset String :=
  (observedTag (src.observations.snapshot now) (src.ws now) now x).reasons ∪
    reasonIf (src.alarms.any fun alarm =>
      alarm.enabled && makeTagKey alarm.connectionId alarm.tagName == x.key) "internal_alarm"

/-- An enabled tag with a reason of its own. -/
def Demanded (src : DemandSources) (now : Nat) (x : DriverTag) : Prop :=
  x.2.cfg.enabled = true ∧ ownReasons src now x ≠ ∅

/-- The tags that a tag is computed from: along links out of enabled tags, each resolved by the key
of the source name. -/
inductive Supplies (drivers : List DriverContext) (x : DriverTag) : DriverTag → Prop
  | self : Supplies drivers x x
  | link {y z : DriverTag} {p : String} : Supplies drivers x y → y.2.cfg.enabled = true →
      y.2.parent = some p → z ∈ driverTags drivers → makeTagKey y.1.conn.id p = z.key →
      Supplies drivers x z

/-- The tags of the drivers have different keys. -/
def KeysDistinct (drivers : List DriverContext) : Prop :=
  ((driverTags drivers).map DriverTag.key).Nodup

section
variable {src : DemandSources} {drivers : List DriverContext} {now : Nat}

/-- The rows before the closure, tag by tag. -/
theorem getElem?_reasonedRows (hk : KeysDistinct drivers) {i : Nat} :
    (reasonedRows src drivers now)[i]? = ((driverTags drivers)[i]?).map fun x =>
      { observedTag (src.observations.snapshot now) (src.ws now) now x with
        reasons := ownReasons src now x } := by
  unfold reasonedRows
  dsimp only
  have hn : (((driverTags drivers).map (observedTag (src.observations.snapshot now) (src.ws now)
      now)).map ObservedTag.key).Nodup := by
    rw [List.map_map]
    exact hk
  rw [getElem?_addReasons, List.getElem?_map]
  cases hx : (driverTags drivers)[i]? with
  | none => rfl
  | some x =>
    simp only [Option.map_some, Option.some.injEq]
    congr 1
    unfold ownReasons
    congr 1
    ext reason
    simp only [alarmMarks, List.mem_toFinset, List.mem_map, List.mem_filter, List.mem_filterMap,
      Option.map_eq_some_iff, indexByKey_eq_some hn, List.getElem?_map, beq_iff_eq]
    unfold reasonIf
    constructor
    · rintro ⟨mark, ⟨⟨alarm, ⟨ha, he⟩, k, ⟨row, ⟨y, hy, rfl⟩, hkey⟩, rfl⟩, rfl⟩, rfl⟩
      rw [hx, Option.some.injEq] at hy
      subst hy
      have hany : src.alarms.any (fun alarm =>
          alarm.enabled && makeTagKey alarm.connectionId alarm.tagName == x.key) = true := by
        refine List.any_eq_true.2 ⟨alarm, ha, ?_⟩
        simp only [he, Bool.true_and, beq_iff_eq]
        exact hkey.symm
      rw [if_pos hany]
      simp
    · split
      · rename_i hany
        obtain ⟨alarm, ha, he⟩ := List.any_eq_true.1 hany
        simp only [Bool.and_eq_true, beq_iff_eq] at he
        intro hr
        rw [Finset.mem_singleton.1 hr]
        exact ⟨(i, "internal_alarm"),
          ⟨⟨alarm, ⟨ha, he.1⟩, i, ⟨_, ⟨x, hx, rfl⟩, he.2.symm⟩, rfl⟩, rfl⟩, rfl⟩
      · simp

theorem length_addReasons (rows : List ObservedTag) (marks : List (Nat × String)) :
    (addReasons rows marks).length = rows.length := by
  induction marks generalizing rows with
  | nil => rfl
  | cons mark marks ih => exact (ih _).trans (List.length_modify ..)

@[simp] theorem length_reasonedRows :
    (reasonedRows src drivers now).length = (driverTags drivers).length := by
  unfold reasonedRows
  rw [length_addReasons, List.length_map]

/-! ## The closure without row numbers -/

theorem source_eq_parent (tag : TagRuntime) :
    (if tag.pollSource = "" then tag.cfg.sourceTag else tag.pollSource) = tag.parent.getD "" ∧
      tag.parent ≠ some "" := by
  unfold TagRuntime.parent
  by_cases hp : tag.pollSource = "" <;> by_cases hs : tag.cfg.sourceTag = "" <;> simp [hp, hs]

/-- The link of a row. -/
theorem sourceRow_eq_some (hk : KeysDistinct drivers) {i j : Nat} :
    sourceRow (reasonedRows src drivers now) i = some j ↔
      ∃ x y p, (driverTags drivers)[i]? = some x ∧ (driverTags drivers)[j]? = some y ∧
        x.2.parent = some p ∧ makeTagKey x.1.conn.id p = y.key := by
  have hn : ((reasonedRows src drivers now).map ObservedTag.key).Nodup := by
    have he : (reasonedRows src drivers now).map ObservedTag.key =
        (driverTags drivers).map DriverTag.key := by
      refine List.ext_getElem? fun k => ?_
      rw [List.getElem?_map, List.getElem?_map, getElem?_reasonedRows hk]
      cases (driverTags drivers)[k]? <;> rfl
    rw [he]
    exact hk
  unfold sourceRow
  rw [getElem?_reasonedRows hk]
  cases hx : (driverTags drivers)[i]? with
  | none => simp
  | some x =>
    obtain ⟨hsrc, hne⟩ := source_eq_parent x.2
    simp only [Option.map_some, Option.some.injEq, observedTag, hsrc]
    cases hp : x.2.parent with
    | none => simp [hp]
    | some p =>
      have hp' : p ≠ "" := fun h => hne (by rw [hp, h])
      rw [Option.getD_some, if_neg hp', indexByKey_eq_some hn]
      simp only [getElem?_reasonedRows hk]
      constructor
      · rintro ⟨row, hrow, hkey⟩
        obtain ⟨y, hy, rfl⟩ := Option.map_eq_some_iff.1 hrow
        exact ⟨x, y, p, rfl, hy, hp, hkey.symm⟩
      · rintro ⟨x', y, q, rfl, hy, hq, hkey⟩
        rw [hp, Option.some.injEq] at hq
        subst hq
        exact ⟨_, Option.map_eq_some_iff.2 ⟨y, hy, rfl⟩, hkey.symm⟩

theorem sourceRow_closed (hk : KeysDistinct drivers) :
    ∀ i ∈ Finset.range (driverTags drivers).length, ∀ j,
      sourceRow (reasonedRows src drivers now) i = some j →
        j ∈ Finset.range (driverTags drivers).length := by
  intro i _ j h
  obtain ⟨-, y, -, -, hy, -⟩ := (sourceRow_eq_some hk).1 h
  exact Finset.mem_range.2 (List.getElem?_eq_some_iff.1 hy).1

theorem mem_demandedRows (hk : KeysDistinct drivers) {i : Nat} :
    i ∈ demandedRows (reasonedRows src drivers now) ↔
      ∃ x, (driverTags drivers)[i]? = some x ∧ Demanded src now x := by
  unfold demandedRows Demanded
  rw [List.mem_reverse, List.mem_filter, List.mem_range, getElem?_reasonedRows hk,
    length_reasonedRows]
  constructor
  · rintro ⟨hi, h⟩
    obtain ⟨x, hx⟩ : ∃ x, (driverTags drivers)[i]? = some x := ⟨_, List.getElem?_eq_getElem hi⟩
    rw [hx] at h
    exact ⟨x, hx, by simpa [observedTag] using h⟩
  · rintro ⟨x, hx, h⟩
    refine ⟨(List.getElem?_eq_some_iff.1 hx).1, ?_⟩
    rw [hx]
    simpa [observedTag] using h

/-- Enough fuel: the worklist runs empty. -/
theorem closure_fuel :
    (demandedRows (reasonedRows src drivers now)).length +
      (Finset.range (driverTags drivers).length).card <
        closureFuel (reasonedRows src drivers now) := by
  have h : (demandedRows (reasonedRows src drivers now)).length ≤ (driverTags drivers).length := by
    unfold demandedRows
    rw [List.length_reverse]
    refine (List.length_filter_le ..).trans ?_
    simp
  rw [Finset.card_range, closureFuel, length_reasonedRows]
  omega

theorem demandedRows_mem (hk : KeysDistinct drivers) :
    ∀ i ∈ demandedRows (reasonedRows src drivers now),
      i ∈ Finset.range (driverTags drivers).length := by
  intro i hi
  obtain ⟨x, hx, -⟩ := (mem_demandedRows hk).1 hi
  exact Finset.mem_range.2 (List.getElem?_eq_some_iff.1 hx).1

theorem rowEnabled_reasonedRows (hk : KeysDistinct drivers) {i : Nat} {x : DriverTag}
    (hx : (driverTags drivers)[i]? = some x) :
    rowEnabled (reasonedRows src drivers now) i = x.2.cfg.enabled := by
  rw [rowEnabled, getElem?_reasonedRows hk, hx]
  rfl

/-- A live row supplies a demanded tag, and is enabled. -/
theorem supplies_of_live (hk : KeysDistinct drivers) {i : Nat}
    (h : Live (sourceRow (reasonedRows src drivers now))
      (rowEnabled (reasonedRows src drivers now)) (demandedRows (reasonedRows src drivers now)) i) :
    ∃ x y, (driverTags drivers)[i]? = some y ∧ x ∈ driverTags drivers ∧ Demanded src now x ∧
      Supplies drivers x y ∧ y.2.cfg.enabled = true := by
  induction h with
  | queued hi =>
    obtain ⟨x, hx, hd⟩ := (mem_demandedRows hk).1 hi
    exact ⟨x, x, hx, List.mem_of_getElem? hx, hd, .self, hd.1⟩
  | step _ hij hj ih =>
    obtain ⟨x, y, hy, hx, hd, hs, he⟩ := ih
    obtain ⟨y', z, p, hy', hz, hp, hkey⟩ := (sourceRow_eq_some hk).1 hij
    rw [hy, Option.some.injEq] at hy'
    subst hy'
    rw [rowEnabled_reasonedRows hk hz] at hj
    exact ⟨x, z, hz, hx, hd, .link hs he hp (List.mem_of_getElem? hz) hkey, hj⟩

/-- What supplies a demanded tag is that tag or the target of a followed edge, and is live if it
is enabled. -/
theorem live_of_supplies (hk : KeysDistinct drivers) {x y : DriverTag}
    (hx : x ∈ driverTags drivers) (hd : Demanded src now x) (h : Supplies drivers x y) :
    ∃ j, (driverTags drivers)[j]? = some y ∧
      (y.2.cfg.enabled = true → Live (sourceRow (reasonedRows src drivers now))
        (rowEnabled (reasonedRows src drivers now))
        (demandedRows (reasonedRows src drivers now)) j) ∧
      (ownReasons src now y ≠ ∅ ∨ ∃ i, (i, j) ∈ closureEdges (reasonedRows src drivers now)) := by
  induction h with
  | self =>
    obtain ⟨i, hi⟩ := List.mem_iff_getElem?.1 hx
    exact ⟨i, hi, fun _ => .queued ((mem_demandedRows hk).2 ⟨x, hi, hd⟩), .inl hd.2⟩
  | link _ he hp hz hkey ih =>
    obtain ⟨i, hi, hlive, -⟩ := ih
    obtain ⟨j, hj⟩ := List.mem_iff_getElem?.1 hz
    have hnext : sourceRow (reasonedRows src drivers now) i = some j :=
      (sourceRow_eq_some hk).2 ⟨_, _, _, hi, hj, hp, hkey⟩
    refine ⟨j, hj, fun hen => .step (hlive he) hnext ?_, .inr ⟨i, ?_⟩⟩
    · rwa [rowEnabled_reasonedRows hk hj]
    · exact (mem_follow _ _ (sourceRow_closed hk) (demandedRows_mem hk) closure_fuel).2
        ⟨hlive he, hnext⟩

/-! ## The reported rows -/

/-- The row of a tag. -/
def DemandRow.IsOf (row : DemandRow) (x : DriverTag) : Prop :=
  row.connectionId = x.1.conn.id ∧ row.name = x.2.name

/-- The table has a row for the tag, and every row for it reports this. -/
def DemandTable.Reports (table : DemandTable) (x : DriverTag) (observed : Bool) : Prop :=
  (∃ row ∈ table.tags, row.IsOf x) ∧
    ∀ row ∈ table.tags, row.IsOf x → row.observedDemand = observed

/-- The rows of the table, tag by tag. -/
theorem mem_collect_tags (hk : KeysDistinct drivers) {filter : String} {row : DemandRow} :
    row ∈ (collectPollingDemand src drivers now filter true).tags ↔
      ∃ i x, (driverTags drivers)[i]? = some x ∧ (filter = "" ∨ x.1.conn.id = filter) ∧
        row = ObservedTag.toDemandRow
          { observedTag (src.observations.snapshot now) (src.ws now) now x with
            reasons := ownReasons src now x ∪ (((sourceMarks (reasonedRows src drivers now)).filter
              (·.1 == i)).map (·.2)).toFinset } := by
  unfold collectPollingDemand
  simp only [if_true, List.mem_map, List.mem_filter]
  constructor
  · rintro ⟨r, ⟨hr, hf⟩, rfl⟩
    obtain ⟨i, hi⟩ := List.mem_iff_getElem?.1 hr
    rw [getElem?_addReasons, getElem?_reasonedRows hk, Option.map_map] at hi
    obtain ⟨x, hx, rfl⟩ := Option.map_eq_some_iff.1 hi
    exact ⟨i, x, hx, by simpa [observedTag] using hf, rfl⟩
  · rintro ⟨i, x, hx, hf, rfl⟩
    refine ⟨_, ⟨List.mem_iff_getElem?.2 ⟨i, ?_⟩, ?_⟩, rfl⟩
    · rw [getElem?_addReasons, getElem?_reasonedRows hk, hx]
      rfl
    · simpa [observedTag] using hf

/-- **A row reports demand** exactly if its tag has a reason of its own or supplies a demanded
tag. -/
theorem observedDemand_iff (hk : KeysDistinct drivers) {filter : String} {row : DemandRow}
    (hrow : row ∈ (collectPollingDemand src drivers now filter true).tags) {y : DriverTag}
    (hy : y ∈ driverTags drivers) (hof : row.IsOf y) :
    row.observedDemand = true ↔ ownReasons src now y ≠ ∅ ∨
      ∃ x ∈ driverTags drivers, Demanded src now x ∧ Supplies drivers x y := by
  obtain ⟨i, z, hz, -, rfl⟩ := (mem_collect_tags hk).1 hrow
  -- the row of the tag is the only one with its key
  have hkey : z.key = y.key := by
    rw [DriverTag.key, DriverTag.key, ← hof.1, ← hof.2]
    rfl
  obtain rfl : z = y := List.inj_on_of_nodup_map hk (List.mem_of_getElem? hz) hy hkey
  have hmarks : (∃ reason, reason ∈ (((sourceMarks (reasonedRows src drivers now)).filter
      (·.1 == i)).map (·.2)).toFinset) ↔
      ∃ k, (k, i) ∈ closureEdges (reasonedRows src drivers now) := by
    simp only [sourceMarks, List.mem_toFinset, List.mem_map, List.mem_filter, beq_iff_eq]
    constructor
    · rintro ⟨_, _, ⟨⟨e, he, rfl⟩, rfl⟩, rfl⟩
      exact ⟨e.1, he⟩
    · rintro ⟨k, he⟩
      exact ⟨_, _, ⟨⟨(k, i), he, rfl⟩, rfl⟩, rfl⟩
  have hobs : (ownReasons src now z ∪ (((sourceMarks (reasonedRows src drivers now)).filter
      (·.1 == i)).map (·.2)).toFinset ≠ ∅) ↔ ownReasons src now z ≠ ∅ ∨
        ∃ k, (k, i) ∈ closureEdges (reasonedRows src drivers now) := by
    rw [← hmarks, ← Finset.nonempty_iff_ne_empty, ← Finset.nonempty_iff_ne_empty,
      Finset.union_nonempty]
    rfl
  simp only [ObservedTag.toDemandRow, decide_eq_true_eq, hobs]
  constructor
  · rintro (hown | ⟨k, hki⟩)
    · exact .inl hown
    obtain ⟨hlive, hnext⟩ := (mem_follow _ _ (sourceRow_closed hk) (demandedRows_mem hk)
      closure_fuel).1 hki
    obtain ⟨x, y, hy', hx, hd, hs, he⟩ := supplies_of_live hk hlive
    obtain ⟨y', w, p, hyk, hw, hp, hkey⟩ := (sourceRow_eq_some hk).1 hnext
    rw [hy', Option.some.injEq] at hyk
    rw [hz, Option.some.injEq] at hw
    subst hyk hw
    exact .inr ⟨x, hx, hd, .link hs he hp hy hkey⟩
  · rintro (hown | ⟨x, hx, hd, hs⟩)
    · exact .inl hown
    obtain ⟨j, hj, -, h⟩ := live_of_supplies hk hx hd hs
    have hn : (driverTags drivers).Nodup := hk.of_map _
    have hlt := (List.getElem?_eq_some_iff.1 hz).1
    rwa [(List.getElem?_inj hlt hn).1 (hz.trans hj.symm)]

end

end

end OpcBridge
