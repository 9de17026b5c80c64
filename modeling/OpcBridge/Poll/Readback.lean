import OpcBridge.Poll.Dependents
import OpcBridge.Lib.Run
import Mathlib

/-!
# Write readback

`request_write_readback` rejects the samples that were read before a write: from the written name it
climbs to the physical root, closes the root under the links, and restarts the gate of every
selected tag. The selection leaves out whole-array rows, so a row keeps its old sample as good.

* `readbackRoot_fuel`: the climb ends, whatever the links are.
* `readbackRoot_eq_root`, `leadsTo_of_climbs`: the climb finds the root that the links lead to.
* `readbackOk_iff_no_array_row`: what the readback promises holds for every cache exactly when no
  covered tag is a whole-array row.
-/

namespace OpcBridge

open Lib

section
variable [Floats]

/-! ## The climb to the root -/

namespace DriverContext

/-- A known tag leads to its parent, an unknown `word.bit` to its word. -/
def readbackNext (driver : DriverContext) (name : String) : Next String :=
  match driver.find name with
  | none =>
    match parseBitQualifiedSourceName name with
    | some (parent, _) => .goto parent
    | none => .abort
  | some tag =>
    match tag.parent with
    | none => .stop
    | some parent => .goto parent

/-- Names at which a climb from `name` can enter a run of bit suffixes. -/
def entries (driver : DriverContext) (name : String) : List String :=
  name :: driver.tags.filterMap TagRuntime.parent

/-- More steps than names a climb can meet. -/
def readbackFuel (driver : DriverContext) (name : String) : Nat :=
  ((driver.entries name).map fun s => s.length + 1).sum + 1

def readbackRoot (driver : DriverContext) (name : String) : Climb String :=
  climb driver.readbackNext (driver.readbackFuel name) ∅ name

/-- The links lead from `name` up to `root`: to a tag without a parent, or around a cycle to the
first name met twice. -/
def LeadsTo (driver : DriverContext) (name root : String) : Prop :=
  Lib.Walks driver.readbackNext ∅ name root

end DriverContext

omit [Floats] in
theorem splitLast_length {c : Char} {cs a b : List Char} (h : splitLast c cs = some (a, b)) :
    a.length < cs.length := by
  induction cs generalizing a with
  | nil => cases h
  | cons d ds ih =>
    unfold splitLast at h
    cases hd : splitLast c ds with
    | some ab =>
      obtain ⟨a', b'⟩ := ab
      rw [hd] at h
      cases h
      simpa using ih hd
    | none =>
      rw [hd] at h
      dsimp only at h
      split_ifs at h
      cases h
      simp

omit [Floats] in
theorem trimChars_length (cs : List Char) : (trimChars cs).length ≤ cs.length := by
  have hle (l : List Char) : (l.dropWhile isSpace).length ≤ l.length :=
    (List.dropWhile_sublist _).length_le
  calc (trimChars cs).length
      = ((cs.dropWhile isSpace).reverse.dropWhile isSpace).length := List.length_reverse
    _ ≤ (cs.dropWhile isSpace).reverse.length := hle _
    _ = (cs.dropWhile isSpace).length := List.length_reverse
    _ ≤ cs.length := hle _

omit [Floats] in
/-- The word of a bit is shorter than the bit's name. -/
theorem parseBitQualifiedSourceName_length {name p : String} {bit : Nat}
    (h : parseBitQualifiedSourceName name = some (p, bit)) : p.length < name.length := by
  unfold parseBitQualifiedSourceName at h
  split at h
  · cases h
  · rename_i before bitText hs
    split_ifs at h
    cases h
    rw [← String.length_toList, ← String.length_toList, String.toList_ofList]
    exact Nat.lt_of_lt_of_le (splitLast_length hs) (trimChars_length _)

/-- A name and the words under its bit suffixes. -/
def bitChain : Nat → String → List String
  | 0, name => [name]
  | n + 1, name =>
    name :: match parseBitQualifiedSourceName name with
      | some (parent, _) => bitChain n parent
      | none => []

omit [Floats] in
theorem mem_bitChain_self (n : Nat) (name : String) : name ∈ bitChain n name := by
  cases n <;> simp [bitChain]

omit [Floats] in
theorem bitChain_length (n : Nat) (name : String) : (bitChain n name).length ≤ n + 1 := by
  induction n generalizing name with
  | zero => simp [bitChain]
  | succ n ih =>
    unfold bitChain
    rw [List.length_cons]
    split
    · exact Nat.succ_le_succ (ih _)
    · simp

omit [Floats] in
theorem bitChain_closed {n : Nat} {name k p : String} {bit : Nat} (hn : name.length ≤ n)
    (hk : k ∈ bitChain n name) (hp : parseBitQualifiedSourceName k = some (p, bit)) :
    p ∈ bitChain n name := by
  induction n generalizing name with
  | zero =>
    have h := parseBitQualifiedSourceName_length hp
    rw [List.mem_singleton.1 hk] at h
    omega
  | succ n ih =>
    unfold bitChain at hk ⊢
    rcases List.mem_cons.1 hk with rfl | hk
    · rw [hp]
      exact List.mem_cons_of_mem _ (mem_bitChain_self _ _)
    · cases hq : parseBitQualifiedSourceName name with
      | none => rw [hq] at hk; cases hk
      | some qb =>
        obtain ⟨q, b⟩ := qb
        rw [hq] at hk
        have hlt := parseBitQualifiedSourceName_length hq
        exact List.mem_cons_of_mem _ (ih (by omega) hk)

namespace DriverContext

theorem find_parent {driver : DriverContext} {name parent : String} {tag : TagRuntime}
    (h : driver.find name = some tag) (hp : tag.parent = some parent) (root : String) :
    parent ∈ driver.entries root := by
  refine List.mem_cons_of_mem _ (List.mem_filterMap.2 ⟨tag, ?_, hp⟩)
  exact (find_eq_some.1 h).1

/-- Every name a climb from `name` can meet. -/
def climbNames (driver : DriverContext) (name : String) : List String :=
  (driver.entries name).flatMap fun s => bitChain s.length s

theorem readbackNext_closed {driver : DriverContext} {name k p : String}
    (hk : k ∈ driver.climbNames name) (hp : driver.readbackNext k = .goto p) :
    p ∈ driver.climbNames name := by
  unfold climbNames at hk ⊢
  rw [List.mem_flatMap] at hk ⊢
  unfold readbackNext at hp
  cases hf : driver.find k with
  | none =>
    rw [hf] at hp
    obtain ⟨s, hs, hks⟩ := hk
    cases hb : parseBitQualifiedSourceName k with
    | none => rw [hb] at hp; cases hp
    | some qb =>
      rw [hb] at hp
      cases hp
      exact ⟨s, hs, bitChain_closed (Nat.le_refl _) hks hb⟩
  | some tag =>
    rw [hf] at hp
    cases ht : tag.parent with
    | none => simp [ht] at hp
    | some parent =>
      simp only [ht] at hp
      cases hp
      exact ⟨_, find_parent hf ht name, mem_bitChain_self _ _⟩

/-- **The climb ends**: the names it can meet are finitely many. -/
theorem readbackRoot_fuel (driver : DriverContext) (name : String) :
    driver.readbackRoot name ≠ .outOfFuel := by
  have hstart : name ∈ driver.climbNames name :=
    List.mem_flatMap.2 ⟨name, by simp [entries], mem_bitChain_self _ _⟩
  have hlen : (driver.climbNames name).length <
      ((driver.entries name).map fun s => s.length + 1).sum + 1 := by
    unfold climbNames
    rw [List.length_flatMap]
    exact Nat.lt_succ_of_le (List.sum_le_sum fun s _ => bitChain_length _ _)
  refine climb_fuel (U := (driver.climbNames name).toFinset) (fun k hk p hp => ?_) ?_ ?_
  · rw [List.mem_toFinset] at hk ⊢
    exact readbackNext_closed hk hp
  · rwa [List.mem_toFinset]
  · rw [Finset.sdiff_empty, readbackFuel]
    exact (List.toFinset_card_le _).trans_lt hlen

/-- The climb finds where the links lead. -/
theorem readbackRoot_eq_root {driver : DriverContext} {name root : String} :
    driver.readbackRoot name = .root root ↔ driver.LeadsTo name root :=
  ⟨walks_of_climb, fun h => (climb_of_walks h _).resolve_right (driver.readbackRoot_fuel name)⟩

end DriverContext

/-! ## The readback -/

def readbackDriver (driver : DriverContext) (name : String) (table : TagTable) (now : Instant) :
    DriverContext × TagTable :=
  match driver.readbackRoot name with
  | .root root =>
    transitionAll (selects (driver.affected root) TagRuntime.isArrayRow) (fun _ => true) true now
      driver.tags (driver, table)
  | _ => (driver, table)

/-- The first driver of the connection and epoch is handled, the others are passed by. -/
def requestWriteReadback : List DriverContext → (cid name : String) → (epoch : Nat) → TagTable →
    Instant → List DriverContext × TagTable
  | [], _, _, _, table, _ => ([], table)
  | driver :: drivers, cid, name, epoch, table, now =>
    if driver.conn.id ≠ cid ∨ driver.freshnessEpoch ≠ epoch then
      let r := requestWriteReadback drivers cid name epoch table now
      (driver :: r.1, r.2)
    else
      let r := readbackDriver driver name table now
      (r.1 :: drivers, r.2)

/-- A driver of connection `cid` and `epoch`. -/
def IsCurrent (cid : String) (epoch : Nat) (driver : DriverContext) : Prop :=
  driver.conn.id = cid ∧ driver.freshnessEpoch = epoch

/-- `driver` is the one a readback of connection `cid` and `epoch` handles, between the drivers
`before` and `after` it. -/
structure Handles (drivers : List DriverContext) (cid : String) (epoch : Nat)
    (before : List DriverContext) (driver : DriverContext) (after : List DriverContext) : Prop where
  drivers_eq : drivers = before ++ driver :: after
  before : ∀ d ∈ before, ¬ IsCurrent cid epoch d
  current : IsCurrent cid epoch driver

theorem requestWriteReadback_stale {drivers : List DriverContext} {cid name : String}
    {epoch : Nat} {table : TagTable} {now : Instant}
    (h : ∀ driver ∈ drivers, ¬ IsCurrent cid epoch driver) :
    requestWriteReadback drivers cid name epoch table now = (drivers, table) := by
  induction drivers with
  | nil => rfl
  | cons driver drivers ih =>
    have hd : driver.conn.id ≠ cid ∨ driver.freshnessEpoch ≠ epoch :=
      not_and_or.1 (h driver (by simp))
    rw [requestWriteReadback, if_pos hd, ih fun d hm => h d (List.mem_cons_of_mem _ hm)]

theorem requestWriteReadback_current {drivers before after : List DriverContext}
    {driver : DriverContext} {cid name : String} {epoch : Nat} {table : TagTable} {now : Instant}
    (h : Handles drivers cid epoch before driver after) :
    requestWriteReadback drivers cid name epoch table now =
      (before ++ (readbackDriver driver name table now).1 :: after,
        (readbackDriver driver name table now).2) := by
  obtain ⟨rfl, hbefore, hcur⟩ := h
  induction before with
  | nil =>
    have : ¬ (driver.conn.id ≠ cid ∨ driver.freshnessEpoch ≠ epoch) := by
      rw [not_or, not_not, not_not]
      exact hcur
    rw [List.nil_append, requestWriteReadback, if_neg this, List.nil_append]
  | cons d before ih =>
    have hne : d.conn.id ≠ cid ∨ d.freshnessEpoch ≠ epoch := not_and_or.1 (hbefore d (by simp))
    rw [List.cons_append, requestWriteReadback, if_pos hne,
      ih fun d hm => hbefore d (List.mem_cons_of_mem _ hm)]
    rfl

/-! ## What survives a write -/

/-- The tags whose samples a write to `name` makes old: enabled tags that are not memory and are
computed from the root that `name` leads to. -/
structure Covers (driver : DriverContext) (name : String) (tag : TagRuntime) : Prop where
  root : ∃ root, driver.LeadsTo name root ∧ driver.DependsOn root tag.name
  mem : tag ∈ driver.tags
  enabled : tag.cfg.enabled = true
  physical : isMemoryTag tag.cfg = false

/-- A later gate transition of the same driver. -/
structure GateEvent where
  tag : TagRuntime
  active : Bool
  restart : Bool
  now : Instant

def gateStep (acc : DriverContext × TagTable) (e : GateEvent) : DriverContext × TagTable :=
  transitionPollCache acc.1 e.tag acc.2 e.active e.restart e.now

/-- The tag has a gate that lets through only reads of the driver's epoch from `t` on. -/
def Guarded (name : String) (epoch t : Nat) (driver : DriverContext) : Prop :=
  driver.freshnessEpoch = epoch ∧
    ∃ gate, driver.pollGates name = some gate ∧ gate.epoch = epoch ∧ t ≤ gate.after

omit [Floats] in
theorem PollReadGate.transition_after {gate : PollReadGate} {epoch t now : Nat}
    {active restart : Bool} (he : gate.epoch = epoch) (ht : t ≤ gate.after) (hn : t ≤ now) :
    (gate.transition active restart epoch now).epoch = epoch ∧
      t ≤ (gate.transition active restart epoch now).after := by
  obtain ⟨e, a, b⟩ := gate
  cases active <;> cases restart <;> cases b <;>
    simp_all [transition, restart, resume, suspend]

/-- Later transitions keep a tag guarded. -/
theorem guarded_step {name : String} {epoch t : Nat} {acc : DriverContext × TagTable}
    {e : GateEvent} (h : Guarded name epoch t acc.1) (ht : t ≤ e.now.steady) :
    Guarded name epoch t (gateStep acc e).1 := by
  obtain ⟨hep, gate, hg, hge, hga⟩ := h
  rw [gateStep, transitionPollCache_driver]
  refine ⟨hep, ?_⟩
  by_cases hn : name = e.tag.name
  · subst hn
    obtain ⟨h1, h2⟩ := PollReadGate.transition_after hge hga ht
    refine ⟨_, Function.update_self .., ?_⟩
    rw [hg, hep, Option.getD_some]
    exact ⟨h1, h2⟩
  · exact ⟨gate, by rw [← hg]; exact Function.update_of_ne hn _ _, hge, hga⟩

theorem guarded_run {name : String} {epoch t : Nat} (acc : DriverContext × TagTable)
    {es : List GateEvent} (h : Guarded name epoch t acc.1) (ht : ∀ e ∈ es, t ≤ e.now.steady) :
    Guarded name epoch t (run gateStep acc es).1 :=
  run_invariant (I := fun acc : DriverContext × TagTable => Guarded name epoch t acc.1)
    (fun _ _ h ht => guarded_step h ht) h
    (along_of_forall ht)

/-- What a readback of `name` promises of the cache `table` and of every sample stored later. -/
structure ReadbackOk (drivers : List DriverContext) (cid name : String) (epoch : Nat)
    (table : TagTable) (now : Instant) : Prop where
  /-- A stale epoch changes nothing. -/
  stale : (∀ driver ∈ drivers, ¬ IsCurrent cid epoch driver) →
    requestWriteReadback drivers cid name epoch table now = (drivers, table)
  /-- With the current driver both loops end, only covered tags change, no cached sample of a
  covered tag is good, and after any later transitions none is stored as good unless its read
  started at or after the readback in the same epoch. -/
  current : ∀ before driver after, Handles drivers cid epoch before driver after →
    driver.readbackRoot name ≠ .outOfFuel ∧
    (∀ root, (pass driver.links (driver.affected root)).2 = false) ∧
    ∃ driver' table', requestWriteReadback drivers cid name epoch table now =
        (before ++ driver' :: after, table') ∧
      driver' = { driver with pollGates := driver'.pollGates } ∧
      (∀ n, (∀ tag, Covers driver name tag → tag.name ≠ n) →
        driver'.pollGates n = driver.pollGates n) ∧
      (∀ key, (∀ tag, Covers driver name tag → driver.key tag.name ≠ key) →
        table' key = table key) ∧
      ∀ tag, Covers driver name tag →
        (∀ s, table' (driver.key tag.name) = some s → s.quality ≠ 1) ∧
        ∀ es : List GateEvent, (∀ e ∈ es, now.steady ≤ e.now.steady) → ∀ s t,
          s.logicalName = tag.name →
          (applyPollCacheGate (run gateStep (driver', table') es).1 s t).quality = 1 →
          s.pollRead.sourceEpoch = epoch ∧ now.steady ≤ s.pollRead.started

theorem selects_of_covers {driver : DriverContext} {name root : String} {tag : TagRuntime}
    {skip : TagRuntime → Bool} (hr : driver.readbackRoot name = .root root)
    (h : Covers driver name tag) : selects (driver.affected root) skip tag = !skip tag := by
  obtain ⟨root', hr', hd⟩ := h.root
  rw [← DriverContext.readbackRoot_eq_root, hr] at hr'
  cases hr'
  simp [selects, DriverContext.mem_affected.2 hd, h.enabled, h.physical]

theorem covers_of_selects {driver : DriverContext} {name root : String} {tag : TagRuntime}
    {skip : TagRuntime → Bool} (hr : driver.readbackRoot name = .root root)
    (hm : tag ∈ driver.tags) (h : selects (driver.affected root) skip tag) :
    Covers driver name tag := by
  simp only [selects, Bool.and_eq_true, decide_eq_true_eq, Bool.not_eq_true'] at h
  exact ⟨⟨root, DriverContext.readbackRoot_eq_root.1 hr, DriverContext.mem_affected.1 h.1.1.1⟩, hm,
    h.1.1.2, h.1.2⟩

/-- The readback touches covered tags only. -/
theorem readbackDriver_frame (driver : DriverContext) (name : String) (table : TagTable)
    (now : Instant) :
    (∃ gates, (readbackDriver driver name table now).1 = { driver with pollGates := gates }) ∧
    (∀ n, (∀ tag, Covers driver name tag → tag.name ≠ n) →
      (readbackDriver driver name table now).1.pollGates n = driver.pollGates n) ∧
    ∀ key, (∀ tag, Covers driver name tag → driver.key tag.name ≠ key) →
      (readbackDriver driver name table now).2 key = table key := by
  unfold readbackDriver
  split
  · rename_i root hr
    refine ⟨transitionAll_driver _ _, fun n hn => ?_, fun key hk => ?_⟩
    · exact transitionAll_gate_ne fun tag ht hs => hn tag (covers_of_selects hr ht hs)
    · exact transitionAll_table_ne fun tag ht hs => hk tag (covers_of_selects hr ht hs)
  · exact ⟨⟨driver.pollGates, rfl⟩, fun _ _ => rfl, fun _ _ => rfl⟩

/-- A covered tag that is not a whole-array row is invalidated and guarded. -/
theorem readbackDriver_covered {driver : DriverContext} {name : String} {tag : TagRuntime}
    (h : Covers driver name tag) (hrow : tag.isArrayRow = false) (table : TagTable)
    (now : Instant) :
    (∃ s, (readbackDriver driver name table now).2 (driver.key tag.name) = some s ∧
      s.quality = 0) ∧
    Guarded tag.name driver.freshnessEpoch now.steady
      (readbackDriver driver name table now).1 := by
  obtain ⟨root, hr, -⟩ := h.root
  rw [← DriverContext.readbackRoot_eq_root] at hr
  have hs : selects (driver.affected root) TagRuntime.isArrayRow tag := by
    rw [selects_of_covers hr h, hrow]
    rfl
  obtain ⟨hg, ht⟩ := transitionAll_selected (fun _ => true) true now (driver, table)
    driver.names_nodup h.mem hs
  unfold readbackDriver
  rw [hr]
  dsimp only at hg ht ⊢
  refine ⟨?_, ?_, _, hg, ?_, ?_⟩
  · rw [ht, transitionPollCache_table_key]
    simp
  · obtain ⟨gates, hd⟩ := transitionAll_driver driver.tags (driver, table)
    rw [hd]
  · rfl
  · exact Nat.le_refl _

/-- Without whole-array rows among the covered tags the readback keeps its promise. -/
theorem readbackOk_of_no_array_row {drivers : List DriverContext} {cid name : String}
    {epoch : Nat} (table : TagTable) (now : Instant)
    (h : ∀ before driver after, Handles drivers cid epoch before driver after →
      ∀ tag, Covers driver name tag → tag.isArrayRow = false) :
    ReadbackOk drivers cid name epoch table now where
  stale := requestWriteReadback_stale
  current before driver after hd := by
    obtain ⟨⟨gates, hdriver⟩, hgate, htable⟩ := readbackDriver_frame driver name table now
    refine ⟨driver.readbackRoot_fuel name, fun root => congrArg Prod.snd (driver.affected_done root),
      _, _, requestWriteReadback_current hd, by rw [hdriver], hgate, htable, fun tag hc => ?_⟩
    have hrow := h before driver after hd tag hc
    obtain ⟨⟨s, hs, hq⟩, hguard⟩ := readbackDriver_covered hc hrow table now
    refine ⟨fun s' hs' => ?_, fun es hes s' t hname hgood => ?_⟩
    · rw [hs] at hs'
      cases hs'
      omega
    · rw [hd.current.2] at hguard
      obtain ⟨-, gate, hg, hge, hga⟩ := guarded_run (readbackDriver driver name table now) hguard hes
      rw [← hname] at hg
      obtain ⟨-, h1, h2, -⟩ := applyPollCacheGate_good hg hgood
      exact ⟨h1.trans hge, hga.trans h2⟩

/-- The good sample of a covered whole-array row survives. -/
theorem row_sample_survives {driver : DriverContext} {name : String} {tag : TagRuntime}
    (hc : Covers driver name tag) (hrow : tag.isArrayRow = true) (table : TagTable)
    (now : Instant) :
    (readbackDriver driver name table now).2 (driver.key tag.name) =
      table (driver.key tag.name) := by
  obtain ⟨root, hr, -⟩ := hc.root
  rw [← DriverContext.readbackRoot_eq_root] at hr
  unfold readbackDriver
  rw [hr]
  refine transitionAll_table_ne fun t ht hs hk => ?_
  -- no other tag has the row's key, and the row itself is skipped
  have hname : t.name = tag.name := makeTagKey_inj.1 hk
  have : t = tag := List.inj_on_of_nodup_map driver.names_nodup ht hc.mem hname
  rw [this, selects_of_covers hr hc, hrow] at hs
  cases hs

/-- A covered whole-array row breaks the promise: its good sample survives. -/
theorem not_readbackOk_of_array_row {drivers before after : List DriverContext}
    {driver : DriverContext} {cid name : String} {epoch : Nat} {tag : TagRuntime}
    (hd : Handles drivers cid epoch before driver after) (hc : Covers driver name tag)
    (hrow : tag.isArrayRow = true) (now : Instant) :
    ¬ ReadbackOk drivers cid name epoch (fun _ => some (goodSample driver tag)) now := by
  intro hok
  obtain ⟨-, -, driver', table', hreq, -, -, -, hcov⟩ := hok.current before driver after hd
  rw [requestWriteReadback_current hd, Prod.mk.injEq] at hreq
  have hs := row_sample_survives hc hrow (fun _ => some (goodSample driver tag)) now
  rw [hreq.2] at hs
  exact (hcov tag hc).1 _ hs rfl

/-- **When no old sample survives a write**: exactly when no covered tag of the handled driver is a
whole-array row. -/
theorem readbackOk_iff_no_array_row (drivers : List DriverContext) (cid name : String)
    (epoch : Nat) :
    (∀ table now, ReadbackOk drivers cid name epoch table now) ↔
      ∀ before driver after, Handles drivers cid epoch before driver after →
        ∀ tag, Covers driver name tag → tag.isArrayRow = false := by
  constructor
  · intro hok before driver after hd tag hc
    by_contra hrow
    exact not_readbackOk_of_array_row hd hc (by simpa using hrow) ⟨1, 1⟩ (hok _ _)
  · intro h table now
    exact readbackOk_of_no_array_row table now h

end

/-! ## The smallest array -/

section
attribute [local instance] intFloats

/-- The row `A` stays good after a write to `A[0]`. -/
theorem row_good_after_write : ¬ ∀ table now, ReadbackOk [arrayDriver] "C" "A[0]" 1 table now := by
  intro h
  have hd : Handles [arrayDriver] "C" 1 [] arrayDriver [] := ⟨rfl, by simp, rfl, rfl⟩
  have hroot : arrayDriver.LeadsTo "A[0]" "A" :=
    DriverContext.readbackRoot_eq_root.1 (by decide)
  have hc : Covers arrayDriver "A[0]" arrayRow :=
    ⟨⟨"A", hroot, .base (by decide)⟩, by decide, rfl, by decide⟩
  exact not_readbackOk_of_array_row hd hc rfl ⟨1, 1⟩ (h _ _)

end

end OpcBridge
