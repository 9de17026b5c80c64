import OpcBridge.Poll.Dependents
import OpcBridge.Poll.Publish
import OpcBridge.Lib.Run

/-!
# Suspension of a root

A poll lane suspends and resumes a physical root by demand (`transitionDemand`), collects completed
reads ahead of time and publishes them. The events of the lane may come in any order. `Watch` is
the history that the results speak of: from a suspension of the root to the first publication whose
read started at or after the next resume.

The invariant of a run is `ViewInv`, one for each view of the root that has a gate: an inactive gate
goes with a sample that is not good, and while the root is watched the gate is inactive or its
boundary is not before the resume. The whole-array row of an array root has no gate, and
`row_survives_suspension` shows what follows.
-/

namespace OpcBridge

open Lib

section
variable [Floats]

/-! ## Lifecycle transitions -/

/-- Array roots: `transitionDemand` and the start of the pollers take them for rows without a
cache entry. -/
def TagRuntime.isTransportRow (tag : TagRuntime) : Bool :=
  decide (1 < tag.cfg.elemCount) && tag.cfg.sourceTag == "" && tag.pollSource == ""

/-- The tags that the start of the pollers gives a gate. -/
def TagRuntime.startsGate (tag : TagRuntime) : Bool := !isMemoryTag tag.cfg && !tag.isTransportRow

/-- The drivers whose tags have a lifecycle. -/
def DriverContext.hasLifecycle (driver : DriverContext) : Bool :=
  driver.conn.driver == "ab_eip" && !isMemoryConnectionId driver.conn.id

/-- The start of the pollers: every gate restarts, disabled tags are inactive. -/
def startLifecycle (driver : DriverContext) (table : TagTable) (now : Instant) :
    DriverContext × TagTable :=
  if driver.hasLifecycle then
    transitionAll TagRuntime.startsGate (fun tag => tag.cfg.enabled) true now driver.tags
      (driver, table)
  else (driver, table)

def transitionDemand (driver : DriverContext) (table : TagTable) (root : String) (active : Bool)
    (now : Instant) : DriverContext × TagTable :=
  transitionAll (selects (driver.affected root) TagRuntime.isTransportRow) (fun _ => active) false
    now driver.tags (driver, table)

/-! ## The lane -/

structure LaneState where
  driver : DriverContext
  table : TagTable
  /-- `logixPrefetch`, by the name of the item. -/
  prefetch : String → Option LogixReadResult := fun _ => none

/-- The item a lane polls under a name: a tag with a handle of its own. -/
def DriverContext.polled (driver : DriverContext) (name : String) : Option TagRuntime :=
  (driver.find name).filter fun tag => tag.parent.isNone && !isMemoryTag tag.cfg

inductive LaneEvent
  | demand (root : String) (active : Bool) (now : Instant)
  | prefetched (root : String) (plc : Option PlcData) (started finished now : Nat)
  /-- A publication, of the prefetched read if there is one, else of the read given here. -/
  | publish (root : String) (plc : Option PlcData) (started finished : Nat) (now : Instant)

/-- The read that a publication of the item uses. -/
def LaneState.readFor (s : LaneState) (item : TagRuntime) (plc : Option PlcData)
    (started finished : Nat) (now : Instant) : LogixReadResult :=
  (s.prefetch item.name).getD (readItem s.driver.conn item plc started finished now.system)

def laneStep (s : LaneState) : LaneEvent → LaneState
  | .demand root active now =>
    match s.driver.polled root with
    | none => s
    | some _ =>
      let r := transitionDemand s.driver s.table root active now
      { driver := r.1, table := r.2, prefetch := Function.update s.prefetch root none }
  | .prefetched root plc started finished now =>
    match s.driver.polled root with
    | none => s
    | some item =>
      let read := readItem s.driver.conn item plc started finished now
      if (s.prefetch item.name).isSome then s
      else { s with prefetch := Function.update s.prefetch item.name (some read) }
  | .publish root plc started finished now =>
    match s.driver.polled root with
    | none => s
    | some item =>
      { s with
        table := publishItem s.driver item (s.readFor item plc started finished now) s.table now
        prefetch := Function.update s.prefetch item.name none }

def startLane (driver : DriverContext) (table : TagTable) (now : Instant) : LaneState :=
  { driver := (startLifecycle driver table now).1, table := (startLifecycle driver table now).2 }

/-! ## What is watched -/

/-- The history of a root: not watched, suspended, or resumed at a time since when no read that
started then or later was published under a name that depends on the root. -/
inductive Watch
  | off
  | suspended
  | resumed (t : Nat)
deriving DecidableEq

/-- The first resume after a suspension counts. -/
def Watch.resume : Watch → Nat → Watch
  | .suspended, t => .resumed t
  | w, _ => w

def nextWatch (root : String) (s : LaneState) (w : Watch) : LaneEvent → Watch
  | .demand r active now =>
    if r = root ∧ (s.driver.polled root).isSome then
      if active then w.resume now.steady else .suspended
    else w
  | .prefetched .. => w
  | .publish r plc started finished now =>
    match w, s.driver.polled r with
    | .resumed t, some item =>
      if t ≤ (s.readFor item plc started finished now).started ∧
          (s.driver.publishedNames item).any (· ∈ s.driver.affected root) then .off
      else .resumed t
    | w, _ => w

def watchStep (root : String) (sw : LaneState × Watch) (e : LaneEvent) : LaneState × Watch :=
  (laneStep sw.1 e, nextWatch root sw.1 sw.2 e)

/-- No good sample of the name is cached. -/
def NotGood (s : LaneState) (name : String) : Prop :=
  ∀ snap, s.table (s.driver.key name) = some snap → snap.quality ≠ 1

/-- What is computed from a root that the lane owns: the root, its generated elements, and the
enabled tags that links lead from. -/
structure IsView (driver : DriverContext) (root : String) (tag : TagRuntime) : Prop where
  polled : (driver.polled root).isSome
  mem : tag ∈ driver.tags
  depends : driver.DependsOn root tag.name
  physical : isMemoryTag tag.cfg = false
  enabled : tag.cfg.enabled = true ∨ tag.pollSource ≠ ""

namespace DriverContext

theorem parent_of_link {driver : DriverContext} {tag : TagRuntime} (hm : tag ∈ driver.tags)
    {p : Option String} (h : (tag.name, p) ∈ driver.links) : tag.parent = p := by
  obtain ⟨t, ht, he⟩ := List.mem_map.1 h
  rw [Prod.mk.injEq] at he
  rw [← List.inj_on_of_nodup_map driver.names_nodup ht hm he.1]
  exact he.2

theorem links_functional (driver : DriverContext) (x p q : String)
    (hp : (x, some p) ∈ driver.links) (hq : (x, some q) ∈ driver.links) : p = q := by
  obtain ⟨t, ht, he⟩ := List.mem_map.1 hp
  rw [Prod.mk.injEq] at he
  rw [← he.1] at hq
  rw [parent_of_link ht hq, Option.some.injEq] at he
  exact he.2.symm

theorem polled_eq_some {driver : DriverContext} {name : String} {item : TagRuntime}
    (h : driver.polled name = some item) :
    item ∈ driver.tags ∧ item.name = name ∧ item.parent = none := by
  obtain ⟨hf, hc⟩ := Option.filter_eq_some_iff.1 h
  simp only [Bool.and_eq_true, Option.isNone_iff_eq_none] at hc
  obtain ⟨h1, h2⟩ := find_eq_some.1 hf
  exact ⟨h1, h2, hc.1⟩

/-- A polled root is computed from nothing. -/
theorem polled_no_link {driver : DriverContext} {name : String} (h : (driver.polled name).isSome)
    (p : String) : (name, some p) ∉ driver.links := by
  obtain ⟨item, hi⟩ := Option.isSome_iff_exists.1 h
  obtain ⟨hm, rfl, hp⟩ := polled_eq_some hi
  intro hl
  rw [parent_of_link hm hl] at hp
  cases hp

/-- A name depends on one polled root only. -/
theorem polled_unique {driver : DriverContext} {r r' name : String}
    (hr : (driver.polled r).isSome) (hr' : (driver.polled r').isSome)
    (h : driver.DependsOn r name) (h' : driver.DependsOn r' name) : r = r' :=
  Below.root_unique driver.links_functional (polled_no_link hr) (polled_no_link hr') h h'

end DriverContext

/-! ## The invariant -/

/-- What the watch asks of the gate of a view. -/
def WatchedGate (s : LaneState) (v : TagRuntime) (gate : PollReadGate) : Watch → Prop
  | .off => True
  | .suspended => gate.active = false
  | .resumed t =>
    NotGood s v.name ∧ (v.cfg.enabled = true → gate.active = true ∧ t ≤ gate.after)

/-- The invariant for one gated view `v` of `root`. -/
structure ViewInv (root : String) (v : TagRuntime) (s : LaneState) (w : Watch) : Prop where
  view : IsView s.driver root v
  gated : v.isTransportRow = false
  named : ∀ name read item, s.prefetch name = some read → s.driver.polled name = some item →
    read.Named item
  gate : ∃ gate, s.driver.pollGates v.name = some gate ∧
    (v.cfg.enabled = false → gate.active = false) ∧
    (gate.active = false → NotGood s v.name) ∧ WatchedGate s v gate w

omit [Floats] in
theorem transition_active (gate : PollReadGate) (active restart : Bool) (epoch now : Nat) :
    (gate.transition active restart epoch now).active = active := by
  obtain ⟨e, a, b⟩ := gate
  cases active <;> cases restart <;> cases b <;> rfl

/-- The gate of a name after a transition of everything it selects. -/
theorem transitionDemand_driver (driver : DriverContext) (table : TagTable) (root : String)
    (active : Bool) (now : Instant) :
    ∃ gates, (transitionDemand driver table root active now).1 = { driver with pollGates := gates } :=
  transitionAll_driver _ _

/-- A transition leaves what does not depend on the root. -/
theorem transitionDemand_frame {driver : DriverContext} {table : TagTable} {root : String}
    {active : Bool} {now : Instant} {key : String}
    (h : ∀ name, driver.DependsOn root name → driver.key name ≠ key) :
    (transitionDemand driver table root active now).2 key = table key := by
  refine transitionAll_table_ne fun tag _ hs => h _ (DriverContext.mem_affected.1 ?_)
  simp only [selects, Bool.and_eq_true, decide_eq_true_eq] at hs
  exact hs.1.1.1

/-- A view that a transition of its root does not select is disabled. -/
theorem selects_view {driver : DriverContext} {root : String} {v : TagRuntime}
    (hv : IsView driver root v) (hrow : v.isTransportRow = false) :
    selects (driver.affected root) TagRuntime.isTransportRow v = v.cfg.enabled := by
  simp [selects, DriverContext.mem_affected.2 hv.depends, hv.physical, hrow]

/-- What a transition of its root does to an enabled view. -/
theorem transitionDemand_view {driver : DriverContext} {root : String} {v : TagRuntime}
    (table : TagTable) (active : Bool) (now : Instant) (hv : IsView driver root v)
    (hrow : v.isTransportRow = false) (hen : v.cfg.enabled = true) :
    (transitionDemand driver table root active now).1.pollGates v.name =
      some (((driver.pollGates v.name).getD {}).transition active false driver.freshnessEpoch
        now.steady) ∧
    ((((driver.pollGates v.name).getD {}).active = active ∧
        (transitionDemand driver table root active now).2 (driver.key v.name) =
          table (driver.key v.name)) ∨
      ∃ snap, (transitionDemand driver table root active now).2 (driver.key v.name) = some snap ∧
        snap.quality = 0) := by
  have hs : selects (driver.affected root) TagRuntime.isTransportRow v := by
    rw [selects_view hv hrow, hen]
  obtain ⟨hg, ht⟩ := transitionAll_selected (fun _ => active) false now (driver, table)
    driver.names_nodup hv.mem hs
  refine ⟨hg, ?_⟩
  rw [transitionPollCache_table_key] at ht
  split at ht
  · rename_i hc
    simp only [Bool.not_false, Bool.true_and, Bool.and_eq_true, beq_iff_eq] at hc
    exact .inl ⟨hc.1, ht⟩
  · exact .inr ⟨_, ht, rfl⟩

/-- A transition leaves a view that it does not select. -/
theorem transitionDemand_other {driver : DriverContext} {root : String} {v : TagRuntime}
    (table : TagTable) (active : Bool) (now : Instant) (hm : v ∈ driver.tags)
    (h : selects (driver.affected root) TagRuntime.isTransportRow v = false) :
    (transitionDemand driver table root active now).1.pollGates v.name = driver.pollGates v.name ∧
    (transitionDemand driver table root active now).2 (driver.key v.name) =
      table (driver.key v.name) := by
  have hne : ∀ tag ∈ driver.tags, selects (driver.affected root) TagRuntime.isTransportRow tag →
      tag.name ≠ v.name := by
    intro tag ht hs hn
    rw [List.inj_on_of_nodup_map driver.names_nodup ht hm hn, h] at hs
    cases hs
  exact ⟨transitionAll_gate_ne hne, transitionAll_table_ne fun tag ht hs hk =>
    hne tag ht hs (makeTagKey_inj.1 hk)⟩

/-! ## One event -/

theorem IsView.of_gates {driver : DriverContext} {root : String} {v : TagRuntime}
    (h : IsView driver root v) (gates : String → Option PollReadGate) :
    IsView { driver with pollGates := gates } root v :=
  ⟨h.polled, h.mem, h.depends, h.physical, h.enabled⟩

theorem laneStep_demand {s : LaneState} {r : String} {item : TagRuntime}
    (hp : s.driver.polled r = some item) (active : Bool) (now : Instant) :
    ∃ gates, (transitionDemand s.driver s.table r active now).1 =
        { s.driver with pollGates := gates } ∧
      laneStep s (.demand r active now) =
        { driver := { s.driver with pollGates := gates }
          table := (transitionDemand s.driver s.table r active now).2
          prefetch := Function.update s.prefetch r none } := by
  obtain ⟨gates, hd⟩ := transitionDemand_driver s.driver s.table r active now
  refine ⟨gates, hd, ?_⟩
  simp only [laneStep, hp]
  rw [hd]

/-- A demand event drops the prefetched read of its item. -/
theorem named_update_none {s : LaneState} {r : String}
    (h : ∀ name read item, s.prefetch name = some read → s.driver.polled name = some item →
      read.Named item) :
    ∀ name read item, Function.update s.prefetch r none name = some read →
      s.driver.polled name = some item → read.Named item := by
  intro name read item hr hi
  by_cases hn : name = r
  · rw [hn, Function.update_self] at hr
    cases hr
  · rw [Function.update_of_ne hn] at hr
    exact h name read item hr hi

/-- A transition of the watched root. -/
theorem viewInv_demand_root {root : String} {v : TagRuntime} {s : LaneState} {w : Watch}
    (h : ViewInv root v s w) (active : Bool) (now : Instant) :
    ViewInv root v (laneStep s (.demand root active now))
      (nextWatch root s w (.demand root active now)) := by
  obtain ⟨hv, hrow, hnamed, g, hg, hdis, hquiet, hw⟩ := h
  obtain ⟨item, hp⟩ := Option.isSome_iff_exists.1 hv.polled
  obtain ⟨gates, hd, hstep⟩ := laneStep_demand hp active now
  have hwatch : nextWatch root s w (.demand root active now) =
      if active then w.resume now.steady else .suspended := if_pos ⟨rfl, hv.polled⟩
  rw [hstep, hwatch]
  refine ⟨hv.of_gates gates, hrow, named_update_none hnamed, ?_⟩
  by_cases hen : v.cfg.enabled = true
  · obtain ⟨hg', ht'⟩ := transitionDemand_view s.table active now hv hrow hen
    rw [hd, hg, Option.getD_some] at hg'
    rw [hg, Option.getD_some] at ht'
    generalize (transitionDemand s.driver s.table root active now).2 = table' at ht' ⊢
    have hact := transition_active g active false s.driver.freshnessEpoch now.steady
    have hng : (active = false ∨ w ≠ .off) →
        ∀ snap, table' (s.driver.key v.name) = some snap → snap.quality ≠ 1 := by
      intro hc snap hs
      rcases ht' with ⟨ha, ht'⟩ | ⟨snap', ht', hq⟩
      · -- the gate was in this state already, and the sample is the old one
        rw [ht'] at hs
        rcases hc with rfl | hc
        · exact hquiet ha snap hs
        · cases w with
          | off => exact absurd rfl hc
          | suspended => exact hquiet hw snap hs
          | resumed t => exact hw.1 snap hs
      · rw [ht', Option.some.injEq] at hs
        rw [← hs]
        omega
    refine ⟨_, hg', fun h => absurd hen (by simp [h]), fun hi => hng (.inl (hact.symm.trans hi)), ?_⟩
    cases active with
    | false => exact hact
    | true =>
      cases w with
      | off => trivial
      | suspended =>
        refine ⟨hng (.inr (by simp)), fun _ => ⟨hact, ?_⟩⟩
        have hin : g.active = false := hw
        simp [PollReadGate.transition, PollReadGate.resume, hin]
      | resumed t =>
        obtain ⟨ha, hle⟩ := hw.2 hen
        refine ⟨hng (.inr (by simp)), fun _ => ⟨hact, ?_⟩⟩
        rwa [PollReadGate.transition_same true ha]
  · -- a disabled element is not selected: its gate stays inactive
    have hen : v.cfg.enabled = false := by simpa using hen
    obtain ⟨hg', ht'⟩ := transitionDemand_other s.table active now hv.mem
      ((selects_view hv hrow).trans hen)
    rw [hd] at hg'
    generalize (transitionDemand s.driver s.table root active now).2 = table' at ht' ⊢
    have hin := hdis hen
    have hng : ∀ snap, table' (s.driver.key v.name) = some snap → snap.quality ≠ 1 :=
      fun snap hs => hquiet hin snap (ht' ▸ hs)
    refine ⟨g, hg'.trans hg, fun _ => hin, fun _ => hng, ?_⟩
    cases active with
    | false => exact hin
    | true =>
      cases w with
      | off => trivial
      | suspended => exact ⟨hng, fun h => absurd h (by simp [hen])⟩
      | resumed t => exact ⟨hng, fun h => absurd h (by simp [hen])⟩

/-- A transition of another root. -/
theorem viewInv_demand_other {root r : String} {v : TagRuntime} {s : LaneState} {w : Watch}
    (h : ViewInv root v s w) (hne : r ≠ root) (active : Bool) (now : Instant) :
    ViewInv root v (laneStep s (.demand r active now))
      (nextWatch root s w (.demand r active now)) := by
  have hwatch : nextWatch root s w (.demand r active now) = w := if_neg fun hc => hne hc.1
  rw [hwatch]
  cases hp : s.driver.polled r with
  | none =>
    simp only [laneStep, hp]
    exact h
  | some item =>
    obtain ⟨hv, hrow, hnamed, g, hg, hdis, hquiet, hw⟩ := h
    obtain ⟨gates, hd, hstep⟩ := laneStep_demand hp active now
    have hsel : selects (s.driver.affected r) TagRuntime.isTransportRow v = false := by
      by_contra hs
      simp only [selects, Bool.and_eq_true, decide_eq_true_eq, Bool.not_eq_false] at hs
      exact hne (DriverContext.polled_unique (Option.isSome_iff_exists.2 ⟨item, hp⟩) hv.polled
        (DriverContext.mem_affected.1 hs.1.1.1) hv.depends)
    obtain ⟨hg', ht'⟩ := transitionDemand_other s.table active now hv.mem hsel
    rw [hd] at hg'
    rw [hstep]
    generalize (transitionDemand s.driver s.table r active now).2 = table' at ht' ⊢
    have hng : NotGood s v.name →
        ∀ snap, table' (s.driver.key v.name) = some snap → snap.quality ≠ 1 :=
      fun hn snap hs => hn snap (ht' ▸ hs)
    refine ⟨hv.of_gates gates, hrow, named_update_none hnamed, g, hg'.trans hg, hdis,
      fun hi => hng (hquiet hi), ?_⟩
    cases w with
    | off => trivial
    | suspended => exact hw
    | resumed t => exact ⟨hng hw.1, hw.2⟩

theorem viewInv_prefetched {root r : String} {v : TagRuntime} {s : LaneState} {w : Watch}
    (h : ViewInv root v s w) (plc : Option PlcData) (started finished now : Nat) :
    ViewInv root v (laneStep s (.prefetched r plc started finished now)) w := by
  cases hp : s.driver.polled r with
  | none =>
    simp only [laneStep, hp]
    exact h
  | some item =>
    simp only [laneStep, hp]
    split
    · exact h
    · refine ⟨h.view, h.gated, fun name read item' hr hi => ?_, h.gate⟩
      dsimp only at hr hi
      by_cases hn : name = item.name
      · subst hn
        rw [Function.update_self, Option.some.injEq] at hr
        have hname := (DriverContext.polled_eq_some hp).2.1
        have : item' = item := by
          rw [hname, hp, Option.some.injEq] at hi
          exact hi.symm
        rw [this, ← hr]
        exact readItem_named ..
      · rw [Function.update_of_ne hn] at hr
        exact h.named name read item' hr hi

/-- The read of a publication carries the names of its item. -/
theorem readFor_named {s : LaneState} {r : String} {item : TagRuntime}
    (h : ∀ name read item, s.prefetch name = some read → s.driver.polled name = some item →
      read.Named item)
    (hp : s.driver.polled r = some item) (plc : Option PlcData) (started finished : Nat)
    (now : Instant) : (s.readFor item plc started finished now).Named item := by
  have hname := (DriverContext.polled_eq_some hp).2.1
  unfold LaneState.readFor
  cases hf : s.prefetch item.name with
  | none => exact readItem_named ..
  | some read => exact h item.name read item hf (hname ▸ hp)

/-- A publication. What it stores under the name of the view goes through the view's gate. -/
theorem viewInv_publish {root r : String} {v : TagRuntime} {s : LaneState} {w : Watch}
    (h : ViewInv root v s w) (plc : Option PlcData) (started finished : Nat) (now : Instant) :
    ViewInv root v (laneStep s (.publish r plc started finished now))
      (nextWatch root s w (.publish r plc started finished now)) := by
  cases hp : s.driver.polled r with
  | none =>
    have hwatch : nextWatch root s w (.publish r plc started finished now) = w := by
      cases w <;> simp [nextWatch, hp]
    rw [hwatch]
    simp only [laneStep, hp]
    exact h
  | some item =>
    obtain ⟨hv, hrow, hnamed, g, hg, hdis, hquiet, hw⟩ := h
    have hread := readFor_named hnamed hp plc started finished now
    simp only [laneStep, hp]
    generalize hr : s.readFor item plc started finished now = read at hread ⊢
    -- a good sample can only come from a read after the boundary of the active gate
    have hkeep : (g.active = true → v.name ∈ s.driver.publishedNames item → read.started < g.after) →
        NotGood s v.name → ∀ snap,
          publishItem s.driver item read s.table now (s.driver.key v.name) = some snap →
          snap.quality ≠ 1 := by
      intro hold hn
      refine publishItem_induct (P := fun table => ∀ snap, table (s.driver.key v.name) = some snap →
        snap.quality ≠ 1) hread hn fun table snap hname hstamp ih => ?_
      by_cases he : v.name = snap.logicalName
      · intro snap' hs hq
        rw [he, storeSnapshot_self, Option.some.injEq] at hs
        rw [← hs] at hq
        obtain ⟨h1, -, h2, -⟩ := applyPollCacheGate_good (he ▸ hg) hq
        rw [hstamp (quality_of_applyPollCacheGate hq)] at h2
        have := hold h1 (he ▸ hname)
        simp only [readStamp] at h2
        omega
      · intro snap' hs
        rw [storeSnapshot_ne he] at hs
        exact ih snap' hs
    have hin : g.active = false → ∀ snap,
        publishItem s.driver item read s.table now (s.driver.key v.name) = some snap →
        snap.quality ≠ 1 :=
      fun hi => hkeep (fun ha => absurd ha (by simp [hi])) (hquiet hi)
    refine ⟨hv, hrow, named_update_none hnamed, g, hg, hdis, hin, ?_⟩
    cases w with
    | off => simp [nextWatch, WatchedGate]
    | suspended => simpa [nextWatch, WatchedGate] using hw
    | resumed t =>
      simp only [nextWatch, hp, hr]
      split
      · trivial
      · rename_i hc
        refine ⟨hkeep (fun ha hmem => ?_) hw.1, hw.2⟩
        rw [not_and_or, not_le] at hc
        rcases hc with hc | hc
        · by_cases hen : v.cfg.enabled = true
          · exact hc.trans_le (hw.2 hen).2
          · rw [hdis (by simpa using hen)] at ha
            cases ha
        · refine absurd (List.any_eq_true.2 ⟨v.name, hmem, ?_⟩) hc
          exact decide_eq_true (DriverContext.mem_affected.2 hv.depends)

/-- Every event keeps the invariant of a gated view. -/
theorem viewInv_step {root : String} {v : TagRuntime} (sw : LaneState × Watch) (e : LaneEvent)
    (h : ViewInv root v sw.1 sw.2) :
    ViewInv root v (watchStep root sw e).1 (watchStep root sw e).2 := by
  unfold watchStep
  cases e with
  | demand r active now =>
    by_cases hr : r = root
    · subst hr
      exact viewInv_demand_root h active now
    · exact viewInv_demand_other h hr active now
  | prefetched r plc started finished now => exact viewInv_prefetched h plc started finished now
  | publish r plc started finished now => exact viewInv_publish h plc started finished now

/-! ## Runs -/

/-- The start of the pollers gives every gated view a gate. -/
theorem viewInv_start {driver : DriverContext} (hd : driver.hasLifecycle = true) {root : String}
    {v : TagRuntime} (hv : IsView driver root v) (hrow : v.isTransportRow = false)
    (table : TagTable) (now : Instant) : ViewInv root v (startLane driver table now) .off := by
  have hs : v.startsGate = true := by
    simp [TagRuntime.startsGate, hv.physical, hrow]
  have heq : startLifecycle driver table now =
      transitionAll TagRuntime.startsGate (fun tag => tag.cfg.enabled) true now driver.tags
        (driver, table) := if_pos hd
  have hdriver : ∃ gates, (startLifecycle driver table now).1 =
      { driver with pollGates := gates } := by
    rw [heq]
    exact transitionAll_driver _ _
  obtain ⟨gates, hdriver⟩ := hdriver
  obtain ⟨hg, ht⟩ := transitionAll_selected (fun tag => tag.cfg.enabled) true now (driver, table)
    driver.names_nodup hv.mem hs
  rw [← heq, hdriver] at hg
  rw [← heq, transitionPollCache_table_key] at ht
  unfold startLane
  rw [hdriver]
  generalize (startLifecycle driver table now).2 = table' at ht ⊢
  refine ⟨hv.of_gates gates, hrow, fun _ _ _ h => (by cases h), _, hg,
    fun hen => (transition_active ..).trans hen, fun _ snap hsnap => ?_, trivial⟩
  have h := ht.symm.trans hsnap
  simp only [Bool.not_true, Bool.false_and, Bool.false_eq_true, if_false, Option.some.injEq] at h
  rw [← h]
  simp

theorem viewInv_run {root : String} {v : TagRuntime} (es : List LaneEvent) (sw : LaneState × Watch)
    (h : ViewInv root v sw.1 sw.2) :
    ViewInv root v (run (watchStep root) sw es).1 (run (watchStep root) sw es).2 :=
  run_induct (I := fun sw : LaneState × Watch => ViewInv root v sw.1 sw.2) viewInv_step h es

/-- While a root is watched no gated view of it is good. -/
theorem notGood_of_viewInv {root : String} {v : TagRuntime} {s : LaneState} {w : Watch}
    (h : ViewInv root v s w) (hw : w ≠ .off) : NotGood s v.name := by
  obtain ⟨-, -, -, g, -, -, hquiet, hwatched⟩ := h
  cases w with
  | off => exact absurd rfl hw
  | suspended => exact hquiet hwatched
  | resumed t => exact hwatched.1

/-- The lane and its watch after the pollers started and the events happened. -/
def watchedRun (driver : DriverContext) (root : String) (table : TagTable) (now : Instant)
    (es : List LaneEvent) : LaneState × Watch :=
  run (watchStep root) (startLane driver table now, .off) es

/-- A run changes the gates of the driver and nothing else of it. -/
theorem watchedRun_driver (driver : DriverContext) (root : String) (table : TagTable)
    (now : Instant) (es : List LaneEvent) :
    ∃ gates, (watchedRun driver root table now es).1.driver = { driver with pollGates := gates } := by
  refine run_induct (I := fun sw : LaneState × Watch =>
    ∃ gates, sw.1.driver = { driver with pollGates := gates }) (fun sw e => ?_) ?_ es
  · rintro ⟨gates, h⟩
    unfold watchStep laneStep
    cases e with
    | demand r active now =>
      dsimp only
      split
      · exact ⟨gates, h⟩
      · obtain ⟨gates', h'⟩ := transitionDemand_driver sw.1.driver sw.1.table r active now
        exact ⟨gates', by rw [h', h]⟩
    | prefetched r plc started finished now =>
      dsimp only
      split
      · exact ⟨gates, h⟩
      · split <;> exact ⟨gates, h⟩
    | publish r plc started finished now =>
      dsimp only
      split <;> exact ⟨gates, h⟩
  · unfold startLane startLifecycle
    dsimp only
    split
    · exact transitionAll_driver _ _
    · exact ⟨driver.pollGates, rfl⟩

/-- The whole-array row has no gate: a sample that was good before the pollers started is good
after the suspension. -/
theorem row_survives_suspension {driver : DriverContext} {root : String} {v : TagRuntime}
    (hv : IsView driver root v) (hrow : v.isTransportRow = true) (table : TagTable)
    (now t : Instant) :
    (watchedRun driver root table now [.demand root false t]).2 = .suspended ∧
    (watchedRun driver root table now [.demand root false t]).1.table (driver.key v.name) =
      table (driver.key v.name) := by
  have hstart : (startLifecycle driver table now).2 (driver.key v.name) =
      table (driver.key v.name) := by
    unfold startLifecycle
    split
    · refine transitionAll_table_ne fun tag ht hs hk => ?_
      rw [List.inj_on_of_nodup_map driver.names_nodup ht hv.mem (makeTagKey_inj.1 hk)] at hs
      simp [TagRuntime.startsGate, hrow] at hs
    · rfl
  have hdriver : ∃ gates, (startLifecycle driver table now).1 =
      { driver with pollGates := gates } := by
    unfold startLifecycle
    split
    · exact transitionAll_driver _ _
    · exact ⟨driver.pollGates, rfl⟩
  obtain ⟨gates, hdriver⟩ := hdriver
  have hv' := hv.of_gates gates
  obtain ⟨item, hp⟩ := Option.isSome_iff_exists.1 hv'.polled
  unfold watchedRun startLane
  rw [hdriver]
  generalize (startLifecycle driver table now).2 = table' at hstart ⊢
  rw [run_cons, run_nil]
  obtain ⟨gates', -, hstep⟩ := laneStep_demand (s := ⟨_, table', fun _ => none⟩) hp false t
  refine ⟨if_pos ⟨rfl, hv'.polled⟩, ?_⟩
  simp only [watchStep, hstep]
  have hsel : selects (DriverContext.affected { driver with pollGates := gates } root)
      TagRuntime.isTransportRow v = false := by simp [selects, hrow]
  exact (transitionDemand_other table' false t hv'.mem hsel).2.trans hstart

/-- **Suspension covers every view but the row.** For a view of a root that a lane owns: in every
run it is not good while the root is watched, exactly if it is not a whole-array row. A transition
leaves what does not depend on the root. -/
theorem suspension_covers_iff_not_row {driver : DriverContext} (hd : driver.hasLifecycle = true)
    {root : String} {v : TagRuntime} (hv : IsView driver root v) :
    ((∀ table now es, (watchedRun driver root table now es).2 ≠ .off →
        NotGood (watchedRun driver root table now es).1 v.name) ↔ v.isTransportRow = false) ∧
    ∀ gates table active now key, (∀ name, driver.DependsOn root name → driver.key name ≠ key) →
      (transitionDemand { driver with pollGates := gates } table root active now).2 key =
        table key := by
  refine ⟨⟨fun h => ?_, fun hrow table now es hw => ?_⟩, fun gates table active now key hkey =>
    transitionDemand_frame hkey⟩
  · by_contra hrow
    obtain ⟨hw, ht⟩ := row_survives_suspension hv (by simpa using hrow)
      (fun _ => some (goodSample driver v)) ⟨1, 1⟩ ⟨1, 1⟩
    obtain ⟨gates, hdriver⟩ := watchedRun_driver driver root
      (fun _ => some (goodSample driver v)) ⟨1, 1⟩ [.demand root false ⟨1, 1⟩]
    have hng := h (fun _ => some (goodSample driver v)) ⟨1, 1⟩ [.demand root false ⟨1, 1⟩]
      (by rw [hw]; simp)
    refine hng (goodSample driver v) ?_ rfl
    rw [hdriver]
    exact ht
  · exact notGood_of_viewInv (viewInv_run es _ (viewInv_start hd hv hrow table now)) hw

end

/-! ## The smallest array -/

section
attribute [local instance] intFloats

/-- An element of the array is covered. -/
theorem element_not_good_while_watched :
    (watchedRun arrayDriver "A" (fun _ => none) ⟨1, 1⟩ [.demand "A" false ⟨2, 2⟩]).2 = .suspended ∧
      NotGood (watchedRun arrayDriver "A" (fun _ => none) ⟨1, 1⟩ [.demand "A" false ⟨2, 2⟩]).1
        "A[0]" := by
  have hl : arrayDriver.hasLifecycle = true := by decide
  have hv : IsView arrayDriver "A" arrayElement :=
    ⟨by decide, by decide, .up (p := "A") (by decide) (.base (by decide)), by decide, by decide⟩
  have hw : (watchedRun arrayDriver "A" (fun _ => none) ⟨1, 1⟩ [.demand "A" false ⟨2, 2⟩]).2 =
      .suspended := by decide +kernel
  refine ⟨hw, (suspension_covers_iff_not_row hl hv).1.2 (by decide) _ _ _ ?_⟩
  rw [hw]
  decide

/-- The row of the array is not: it stays good through a suspension. -/
theorem row_good_while_suspended :
    ¬ ∀ table now es, (watchedRun arrayDriver "A" table now es).2 ≠ .off →
      ∀ v, IsView arrayDriver "A" v → NotGood (watchedRun arrayDriver "A" table now es).1 v.name := by
  intro h
  have hv : IsView arrayDriver "A" arrayRow :=
    ⟨by decide, by decide, .base (by decide), by decide, by decide⟩
  obtain ⟨hw, ht⟩ := row_survives_suspension hv (by decide)
    (fun _ => some (goodSample arrayDriver arrayRow)) ⟨1, 1⟩ ⟨2, 2⟩
  obtain ⟨gates, hdriver⟩ := watchedRun_driver arrayDriver "A"
    (fun _ => some (goodSample arrayDriver arrayRow)) ⟨1, 1⟩ [.demand "A" false ⟨2, 2⟩]
  refine h _ ⟨1, 1⟩ [.demand "A" false ⟨2, 2⟩] (by rw [hw]; decide) arrayRow hv
    (goodSample arrayDriver arrayRow) ?_ rfl
  rw [hdriver]
  exact ht

end

end OpcBridge
