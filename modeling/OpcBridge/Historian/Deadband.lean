import OpcBridge.Historian.ChangeOnly
import Mathlib.Data.Set.Function

/-!
# What the deadband is measured from

The two recording paths with the sample queue: the snapshot worker goes through the rows of a pass
one by one, the live-update handler takes one update at a time, and reloads and the flush thread
come in between. Both paths set their reference before `enqueue` decides, so the reference is the
last accepted sample as long as nothing that sets it is refused (`deadband_measured`).
-/

namespace OpcBridge.Historian

open Lib
open Alarms (Json JsonLib)

section
variable [Floats]

/-! ## The recorder -/

/-- The pass that the worker is in. -/
structure SnapshotRows where
  generation : Nat
  due : List (String × HistorianTagRule)
  want : List String
  input : SnapshotInput
  /-- The rows of the answer that are still to come. -/
  rows : List Json

/-- The beginning of a pass, up to the rows. -/
def startPass (cfg : AppCfg) (resolvedKeys : List String) (generation : Nat) (w : SnapshotWorker)
    (input : SnapshotInput) : SnapshotWorker × Option SnapshotRows :=
  let w := if input.reloaded then {} else w
  if !cfg.enabled || (cfg.historianTags.isEmpty && !cfg.snapshot.enabled) then (w, none)
  else
    let due := dueRules w input.started cfg.historianTags
    let w := w.schedule input.started due
    if !cfg.historianTags.isEmpty && due.isEmpty then (w, none)
    else match input.answer with
      | none => ({ w with lifecycleRetry := fun _ => none }, none)
      | some body =>
        let want := if cfg.historianTags.isEmpty then cfg.subscribedKeys resolvedKeys else []
        (w, some ⟨generation, due, want, input, (body.memberItems "tags").getD []⟩)

structure Recorder where
  cfg : AppCfg
  historian : HistorianState
  worker : SnapshotWorker := {}
  snapshotGeneration : Nat := 0
  pass : Option SnapshotRows := none
  /-- An exception has left the worker. -/
  ended : Bool := false
  /-- The states of the live-update handler. -/
  states : String → TagState := fun _ => {}
  /-- The samples of the worker that the queue has accepted. -/
  fromSnapshots : List Sample := []
  /-- The samples of the handler that the queue has accepted. -/
  fromUpdates : List Sample := []

def Recorder.start (cfg : AppCfg) (queueLimit : Nat) : Recorder where
  cfg := cfg
  historian := { queueLimit := queueLimit }

inductive RecorderEvent
  | reload (cfg : AppCfg) (queueLimit : Nat)
  /-- The keys are those that the patterns resolve to. -/
  | beginPass (resolvedKeys : List String) (input : SnapshotInput)
  | nextRow
  /-- An update of a tag whose rule is not periodic, with the settings that the handler has read. -/
  | update (changeOnly : ChangeOnlyCfg) (s : Sample)
  | flush (e : HistorianEvent)

def Sample.tag (s : Sample) : String × String := (s.connectionId, s.tagName)

def Sample.key (s : Sample) : String := tagKey s.connectionId s.tagName

/-- `enqueue` accepts a sample. -/
def HistorianState.admits (h : HistorianState) (expectedGeneration : Option Nat) : Bool :=
  h.current expectedGeneration && !h.full

/-- The events of the flush thread. -/
def HistorianEvent.isFlush : HistorianEvent → Bool
  | .enqueue _ _ => false
  | .reload _ => false
  | _ => true

namespace Recorder

def beginPass (r : Recorder) (resolvedKeys : List String) (input : SnapshotInput) : Recorder :=
  let generation := r.historian.generation
  let input := { input with reloaded := decide (generation ≠ r.snapshotGeneration) }
  let start := startPass r.cfg resolvedKeys generation r.worker input
  { r with worker := start.1, snapshotGeneration := generation, pass := start.2 }

/-- `enqueue` of a sample of the worker. -/
def offerSnapshot (r : Recorder) (generation : Nat) (s : Sample) : Recorder :=
  { r with
    historian := r.historian.enqueue s (some generation)
    fromSnapshots :=
      if r.historian.admits (some generation) then r.fromSnapshots ++ [s] else r.fromSnapshots }

def update (r : Recorder) (changeOnly : ChangeOnlyCfg) (s : Sample) : Recorder :=
  if shouldLogSample changeOnly s (r.states s.key) then
    { r with
      states := Function.update r.states s.key s.logged
      historian := r.historian.enqueue s none
      fromUpdates := if r.historian.admits none then r.fromUpdates ++ [s] else r.fromUpdates }
  else r

section
variable [JsonLib] [WholeText]

def nextRow (r : Recorder) : Recorder :=
  match r.pass with
  | none => r
  | some p =>
    match p.rows with
    | [] => { r with pass := none }
    | t :: rows =>
      match recordTag p.due p.want p.input r.worker t with
      | .error _ => { r with ended := true }
      | .ok (w, none) => { r with worker := w, pass := some { p with rows := rows } }
      | .ok (w, some s) =>
        { r with worker := w, pass := some { p with rows := rows } }.offerSnapshot p.generation s

def step (size : BatchSize) (r : Recorder) (e : RecorderEvent) : Recorder :=
  if r.ended then r
  else match e with
    | .reload cfg queueLimit => { r with cfg := cfg, historian := r.historian.reload queueLimit }
    | .beginPass resolvedKeys input =>
      if r.pass.isSome then r else r.beginPass resolvedKeys input
    | .nextRow => r.nextRow
    | .update changeOnly s => r.update changeOnly s
    | .flush e => if e.isFlush then { r with historian := r.historian.step size e } else r

end

end Recorder

theorem generation_enqueue (h : HistorianState) (s : Sample) (expectedGeneration : Option Nat) :
    (h.enqueue s expectedGeneration).generation = h.generation := by
  unfold HistorianState.enqueue
  split
  · rfl
  · split <;> rfl

theorem generation_flush (size : BatchSize) (h : HistorianState) {e : HistorianEvent}
    (he : e.isFlush = true) : (h.step size e).generation = h.generation := by
  cases e with
  | enqueue s g => cases he
  | reload limit => cases he
  | takeBatch =>
    show (h.takeBatch size).generation = _
    unfold HistorianState.takeBatch
    split
    · dsimp only
      split <;> rfl
    · rfl
  | insertBatch ok =>
    show (h.insertBatch ok).generation = _
    unfold HistorianState.insertBatch
    split
    · split <;> rfl
    · rfl
  | close =>
    show h.close.generation = _
    unfold HistorianState.close
    split <;> rfl
  | reconnect ok =>
    show (h.reconnect ok).generation = _
    unfold HistorianState.reconnect
    split <;> rfl

section
variable [JsonLib] [WholeText]

end

/-! ## What is promised -/

/-- The last sample of a tag. -/
def lastOf (tag : String × String) (l : List Sample) : Option Sample :=
  (l.filter fun s => s.tag = tag).getLast?

/-- The references of both paths are the last accepted samples; without a reference nothing is
held back. -/
structure Measured (tags : Set (String × String)) (r : Recorder) : Prop where
  snapshots : ∀ tag ∈ tags, ∀ v, r.worker.lastValueByKey (tagKey tag.1 tag.2) = some v →
    ∃ s, lastOf tag r.fromSnapshots = some s ∧ s.valueDouble = some v
  updates : ∀ tag ∈ tags, r.states (tagKey tag.1 tag.2) =
    (lastOf tag r.fromUpdates).elim {} Sample.logged

/-- The deadband of a rule holds a sample back that passes the checks before it. -/
structure HeldBack (w : SnapshotWorker) (rule : HistorianTagRule) (s : Sample) (state : String)
    (clock : Int) (v last : F64) : Prop where
  retried : (w.retry s.key (s.quality.any (· ≠ 1) && (state = "inactive" || state = "waiting"))
    clock).2 = false
  quality : rule.includeBadQuality = true ∨ s.quality.any (· ≠ 1) = false
  value : s.valueDouble = some v
  reference : w.lastValueByKey s.key = some last
  positive : Floats.lt (Floats.ofInt 0) (maxZero rule.deadband) = true
  close : leF64 (absF64 (Floats.sub v last)) (maxZero rule.deadband) = true

section
variable [JsonLib] [WholeText]

/-- The next row of the pass has a sample. -/
structure NextSample (r : Recorder) (p : SnapshotRows) (t : Json) (s : Sample) : Prop where
  pass : r.pass = some p
  row : p.rows.head? = some t
  sample : sampleFromTagJson t "snapshot" p.input.now = .ok (some s)

/-- A due rule holds the sample of the next row back. -/
structure RowHeldBack (r : Recorder) (s : Sample) (rule : HistorianTagRule) (v last : F64) :
    Prop where
  next : ∃ p t, NextSample r p t s ∧ lastValue s.key p.due = some rule ∧
    ∃ state, t.valueString "polling_state" "" = .ok state ∧
      HeldBack r.worker rule s state p.input.clock v last

/-- The condition on a step. -/
def Admitted (tags : Set (String × String)) (r : Recorder) : RecorderEvent → Prop
  | .nextRow =>
    (∀ p t s, NextSample r p t s → s.tag ∈ tags ∧
      ∀ w, p.due ≠ [] → recordTag p.due p.want p.input r.worker t = .ok (w, some s) →
        r.historian.admits (some p.generation) = true) ∧
    ∀ s rule v last recorded, RowHeldBack r s rule v last →
      lastOf s.tag r.fromSnapshots = some recorded → s.quality = recorded.quality
  | .update changeOnly s => s.tag ∈ tags ∧
    (shouldLogSample changeOnly s (r.states s.key) = true → r.historian.admits none = true)
  | _ => True

/-- What a step holds back has the quality of a recorded sample, and a value within the deadband. -/
def HoldsBackClose (r : Recorder) : RecorderEvent → Prop
  | .nextRow => ∀ s rule v last, RowHeldBack r s rule v last →
    ∃ recorded, lastOf s.tag r.fromSnapshots = some recorded ∧ s.quality = recorded.quality ∧
      recorded.valueDouble = some last
  | .update changeOnly s => shouldLogSample changeOnly s (r.states s.key) = false →
    ∃ recorded, lastOf s.tag r.fromUpdates = some recorded ∧
      (s.tsMs - recorded.tsMs < changeOnly.minIntervalMs ∨ Close changeOnly s recorded)
  | _ => True

end

/-! ## One row -/

theorem lastOf_snoc (tag : String × String) (l : List Sample) (s : Sample) :
    lastOf tag (l ++ [s]) = if s.tag = tag then some s else lastOf tag l := by
  unfold lastOf
  rw [List.filter_append]
  split
  · rename_i htag
    simp [htag]
  · rename_i htag
    simp [htag]

/-- What a sample of a due rule does to the references. -/
theorem recordDue_cases (w : SnapshotWorker) (rule : HistorianTagRule) (key : String) (s : Sample)
    (state : String) (input : SnapshotInput) :
    ((recordDue w rule key s state input).2 = none ∧
      (recordDue w rule key s state input).1.lastValueByKey = w.lastValueByKey) ∨
    ∃ v, s.valueDouble = some v ∧ (recordDue w rule key s state input).2 = some s ∧
      (recordDue w rule key s state input).1.lastValueByKey =
        Function.update w.lastValueByKey key (some v) := by
  have hretry : ∀ cold, (w.retry key cold input.clock).1.lastValueByKey = w.lastValueByKey := by
    intro cold
    unfold SnapshotWorker.retry
    split <;> rfl
  unfold recordDue
  dsimp only
  split
  · exact .inl ⟨rfl, hretry _⟩
  · split
    · exact .inl ⟨rfl, hretry _⟩
    · split
      · exact .inl ⟨rfl, hretry _⟩
      · rename_i v hvalue
        split
        · exact .inl ⟨rfl, hretry _⟩
        · exact .inr ⟨v, hvalue, rfl, by rw [hretry]⟩

section
variable [JsonLib] [WholeText]

/-- What a row does to the references. -/
theorem recordTag_cases {due : List (String × HistorianTagRule)} {want : List String}
    {input : SnapshotInput} {w w' : SnapshotWorker} {t : Json} {out : Option Sample}
    (h : recordTag due want input w t = .ok (w', out)) :
    (out = none ∧ w'.lastValueByKey = w.lastValueByKey) ∨
    ∃ s, sampleFromTagJson t "snapshot" input.now = .ok (some s) ∧ out = some s ∧
      (due = [] ∧ w' = w ∨ due ≠ [] ∧ ∃ v, s.valueDouble = some v ∧
        w'.lastValueByKey = Function.update w.lastValueByKey s.key (some v)) := by
  unfold recordTag at h
  cases hsample : sampleFromTagJson t "snapshot" input.now with
  | error e =>
    rw [hsample] at h
    cases h
  | ok sample =>
    rw [hsample] at h
    cases sample with
    | none =>
      cases h
      exact .inl ⟨rfl, rfl⟩
    | some s =>
      dsimp only [bind, Except.bind] at h
      by_cases hdue : due.isEmpty = true
      · rw [if_pos hdue] at h
        obtain ⟨rfl, rfl⟩ := Prod.mk.inj (Except.ok.inj h)
        split
        · exact .inl ⟨rfl, rfl⟩
        · exact .inr ⟨s, rfl, rfl, .inl ⟨List.isEmpty_iff.1 hdue, rfl⟩⟩
      · rw [if_neg hdue] at h
        have hne : due ≠ [] := fun hnil => hdue (List.isEmpty_iff.2 hnil)
        cases hrule : lastValue (tagKey s.connectionId s.tagName) due with
        | none =>
          rw [hrule] at h
          cases h
          exact .inl ⟨rfl, rfl⟩
        | some rule =>
          rw [hrule] at h
          dsimp only at h
          cases hstate : t.valueString "polling_state" "" with
          | error e =>
            rw [hstate] at h
            cases h
          | ok state =>
            rw [hstate] at h
            have heq := Except.ok.inj h
            rcases recordDue_cases w rule (tagKey s.connectionId s.tagName) s state input with
              ⟨hout, hlast⟩ | ⟨v, hvalue, hout, hlast⟩
            · rw [heq] at hout hlast
              exact .inl ⟨hout, hlast⟩
            · rw [heq] at hout hlast
              exact .inr ⟨s, rfl, hout, .inr ⟨hne, v, hvalue, hlast⟩⟩

end

/-! ## The invariant -/

/-- What the beginning of a pass does. -/
theorem startPass_cases (cfg : AppCfg) (resolvedKeys : List String) (generation : Nat)
    (w : SnapshotWorker) (input : SnapshotInput) :
    (startPass cfg resolvedKeys generation w input).1.lastValueByKey =
      (if input.reloaded then fun _ => none else w.lastValueByKey) ∧
    ∀ p, (startPass cfg resolvedKeys generation w input).2 = some p →
      (p.due = [] ↔ cfg.historianTags = []) := by
  have hlast : (if input.reloaded = true then ({} : SnapshotWorker) else w).lastValueByKey =
      if input.reloaded then fun _ => none else w.lastValueByKey := by
    split <;> rfl
  unfold startPass
  rw [← hlast]
  generalize (if input.reloaded = true then ({} : SnapshotWorker) else w) = w'
  dsimp only
  split
  · exact ⟨rfl, fun p h => by cases h⟩
  · split
    · exact ⟨rfl, fun p h => by cases h⟩
    · rename_i hdue
      split
      · exact ⟨rfl, fun p h => by cases h⟩
      · refine ⟨rfl, fun p h => ?_⟩
        obtain rfl := Option.some.inj h
        constructor
        · intro hnil
          by_contra hne
          exact hdue (by simpa [hne] using hnil)
        · intro hnil
          rw [hnil]
          rfl

structure RecorderInv (tags : Set (String × String)) (r : Recorder) : Prop
    extends Measured tags r where
  generation : r.snapshotGeneration ≤ r.historian.generation
  /-- Without rules the worker has no references. -/
  plain : r.snapshotGeneration = r.historian.generation → r.cfg.historianTags = [] →
    ∀ key, r.worker.lastValueByKey key = none
  plainPass : ∀ p, r.pass = some p → p.due = [] → ∀ key, r.worker.lastValueByKey key = none
  rulesPass : ∀ p, r.pass = some p → p.due ≠ [] →
    r.snapshotGeneration = r.historian.generation → r.cfg.historianTags ≠ []

variable {tags : Set (String × String)} {r : Recorder}

theorem inv_start (cfg : AppCfg) (queueLimit : Nat) :
    RecorderInv tags (Recorder.start cfg queueLimit) where
  snapshots _ _ _ h := by cases h
  updates _ _ := rfl
  generation := Nat.zero_le _
  plain _ _ _ := rfl
  plainPass _ h := by cases h
  rulesPass _ h := by cases h

theorem inv_reload (hi : RecorderInv tags r) (cfg : AppCfg) (queueLimit : Nat) :
    RecorderInv tags
      { r with cfg := cfg, historian := r.historian.reload queueLimit } where
  snapshots := hi.snapshots
  updates := hi.updates
  generation := Nat.le_succ_of_le hi.generation
  plain h := by
    have hle := hi.generation
    have hnext : r.snapshotGeneration = r.historian.generation + 1 := h
    omega
  plainPass := hi.plainPass
  rulesPass _ _ _ h := by
    have hle := hi.generation
    have hnext : r.snapshotGeneration = r.historian.generation + 1 := h
    omega

theorem inv_beginPass (hi : RecorderInv tags r) (resolvedKeys : List String)
    (input : SnapshotInput) : RecorderInv tags (r.beginPass resolvedKeys input) := by
  obtain ⟨hlast, hpass⟩ := startPass_cases r.cfg resolvedKeys r.historian.generation r.worker
    { input with reloaded := decide (r.historian.generation ≠ r.snapshotGeneration) }
  dsimp only at hlast
  -- the references are the old ones or there are none
  have href : ∀ key v, (r.beginPass resolvedKeys input).worker.lastValueByKey key = some v →
      r.historian.generation = r.snapshotGeneration ∧ r.worker.lastValueByKey key = some v := by
    intro key v h
    unfold Recorder.beginPass at h
    rw [hlast] at h
    split at h
    · cases h
    · rename_i hsame
      exact ⟨by simpa using hsame, h⟩
  have hplain : r.cfg.historianTags = [] → ∀ key,
      (r.beginPass resolvedKeys input).worker.lastValueByKey key = none := by
    intro hnil key
    cases h : (r.beginPass resolvedKeys input).worker.lastValueByKey key with
    | none => rfl
    | some v =>
      obtain ⟨hsame, hv⟩ := href key v h
      rw [hi.plain hsame.symm hnil key] at hv
      cases hv
  exact {
    snapshots := fun tag htag v h => hi.snapshots tag htag v (href _ v h).2
    updates := hi.updates
    generation := Nat.le_refl _
    plain := fun _ => hplain
    plainPass := fun p hp hdue => hplain ((hpass p hp).1 hdue)
    rulesPass := fun p hp hdue _ hnil => hdue ((hpass p hp).2 hnil) }

theorem inv_flush (hi : RecorderInv tags r) (size : BatchSize) {e : HistorianEvent}
    (he : e.isFlush = true) :
    RecorderInv tags { r with historian := r.historian.step size e } where
  snapshots := hi.snapshots
  updates := hi.updates
  generation := by
    rw [generation_flush size _ he]
    exact hi.generation
  plain h := hi.plain (h.trans (generation_flush size _ he))
  plainPass := hi.plainPass
  rulesPass p hp hdue h := hi.rulesPass p hp hdue (h.trans (generation_flush size _ he))

/-- Two different tags have different keys. -/
def Keyed (tags : Set (String × String)) : Prop :=
  Set.InjOn (fun tag : String × String => tagKey tag.1 tag.2) tags

theorem Keyed.key_ne (hkeys : Keyed tags) {s : Sample} {tag : String × String} (hs : s.tag ∈ tags)
    (htag : tag ∈ tags) (hne : s.tag ≠ tag) : tagKey tag.1 tag.2 ≠ s.key :=
  fun h => hne (hkeys hs htag h.symm)

theorem inv_update (hkeys : Keyed tags) (hi : RecorderInv tags r) {changeOnly : ChangeOnlyCfg}
    {s : Sample} (htag : s.tag ∈ tags)
    (hadmits : shouldLogSample changeOnly s (r.states s.key) = true →
      r.historian.admits none = true) : RecorderInv tags (r.update changeOnly s) := by
  unfold Recorder.update
  split
  · rename_i hlog
    rw [hadmits hlog, if_pos rfl]
    exact {
      snapshots := hi.snapshots
      updates := by
        intro tag hmem
        rw [lastOf_snoc]
        by_cases heq : s.tag = tag
        · rw [if_pos heq, ← heq]
          exact Function.update_self _ _ _
        · rw [if_neg heq, ← hi.updates tag hmem]
          exact Function.update_of_ne (hkeys.key_ne htag hmem heq) _ _
      generation := by
        rw [generation_enqueue]
        exact hi.generation
      plain := fun h => hi.plain (h.trans (generation_enqueue _ _ _))
      plainPass := hi.plainPass
      rulesPass := fun p hp hdue h => hi.rulesPass p hp hdue (h.trans (generation_enqueue _ _ _)) }
  · exact hi

section
variable [JsonLib] [WholeText]

theorem inv_nextRow (hkeys : Keyed tags) (hi : RecorderInv tags r)
    (hok : Admitted tags r .nextRow) : RecorderInv tags r.nextRow := by
  unfold Recorder.nextRow
  split
  · exact hi
  rename_i p hp
  split
  · exact { hi with
      plainPass := fun _ h => by cases h
      rulesPass := fun _ h => by cases h }
  rename_i t rows hrows
  have hhead : p.rows.head? = some t := by rw [hrows]; rfl
  split
  · exact { hi with }
  · rename_i w hrecord
    have hlast : w.lastValueByKey = r.worker.lastValueByKey := by
      rcases recordTag_cases hrecord with ⟨-, hlast⟩ | ⟨s, -, hout, -⟩
      · exact hlast
      · cases hout
    exact {
      snapshots := fun tag htag v h => hi.snapshots tag htag v (by rwa [← hlast])
      updates := hi.updates
      generation := hi.generation
      plain := fun hgen hnil key => by
        show w.lastValueByKey key = none
        rw [hlast]
        exact hi.plain hgen hnil key
      plainPass := fun p' hp' hdue key => by
        obtain rfl := Option.some.inj hp'
        show w.lastValueByKey key = none
        rw [hlast]
        exact hi.plainPass p hp hdue key
      rulesPass := fun p' hp' hdue => by
        obtain rfl := Option.some.inj hp'
        exact hi.rulesPass p hp hdue }
  · rename_i w s hrecord
    rcases recordTag_cases hrecord with ⟨hout, -⟩ | ⟨s', hsample, hout, hcase⟩
    · cases hout
    obtain rfl := Option.some.inj hout
    obtain ⟨htag, hadmits⟩ := hok.1 p t s ⟨hp, hhead, hsample⟩
    rcases hcase with ⟨hdue, rfl⟩ | ⟨hdue, v, hvalue, hlast⟩
    · -- without rules there are no references
      have hnone := hi.plainPass p hp hdue
      exact {
        snapshots := fun tag _ v h => by
          have h : r.worker.lastValueByKey (tagKey tag.1 tag.2) = some v := h
          rw [hnone] at h
          cases h
        updates := hi.updates
        generation := by
          show r.snapshotGeneration ≤ (r.historian.enqueue s _).generation
          rw [generation_enqueue]
          exact hi.generation
        plain := fun _ _ => hnone
        plainPass := fun _ _ _ => hnone
        rulesPass := fun p' hp' hne => by
          obtain rfl := Option.some.inj hp'
          exact absurd hdue hne }
    · have hgen : (r.historian.enqueue s (some p.generation)).generation =
          r.historian.generation := generation_enqueue _ _ _
      have hrules := hi.rulesPass p hp hdue
      exact {
        snapshots := by
          intro tag hmem v' h
          have h : w.lastValueByKey (tagKey tag.1 tag.2) = some v' := h
          have hrecorded : (Recorder.offerSnapshot { r with
              worker := w, pass := some { p with rows := rows } } p.generation s).fromSnapshots =
              r.fromSnapshots ++ [s] := if_pos (hadmits w hdue hrecord)
          rw [hrecorded, lastOf_snoc]
          rw [hlast] at h
          by_cases heq : s.tag = tag
          · rw [if_pos heq]
            rw [← heq, show tagKey s.tag.1 s.tag.2 = s.key from rfl, Function.update_self] at h
            exact ⟨s, rfl, hvalue.trans h⟩
          · rw [if_neg heq]
            refine hi.snapshots tag hmem v' ?_
            rwa [Function.update_of_ne (hkeys.key_ne htag hmem heq)] at h
        updates := hi.updates
        generation := hi.generation.trans_eq hgen.symm
        plain := fun h hnil => absurd hnil (hrules (h.trans hgen))
        plainPass := fun p' hp' hnil => by
          obtain rfl := Option.some.inj hp'
          exact absurd hnil hdue
        rulesPass := fun _ _ _ h => hrules (h.trans hgen) }

theorem inv_step (size : BatchSize) (hkeys : Keyed tags) (r : Recorder) (e : RecorderEvent)
    (hi : RecorderInv tags r) (hok : Admitted tags r e) :
    RecorderInv tags (r.step size e) := by
  unfold Recorder.step
  split
  · exact hi
  · cases e with
    | reload cfg queueLimit => exact inv_reload hi cfg queueLimit
    | beginPass resolvedKeys input =>
      dsimp only
      split
      · exact hi
      · exact inv_beginPass hi resolvedKeys input
    | nextRow => exact inv_nextRow hkeys hi hok
    | update changeOnly s => exact inv_update hkeys hi hok.1 hok.2
    | flush e =>
      dsimp only
      split
      · rename_i he
        exact inv_flush hi size he
      · exact hi

/-! ## The promise -/

/-- A step that starts from the last accepted samples holds back what is close to them. -/
theorem holds_back_close (r : Recorder) (e : RecorderEvent) (hi : RecorderInv tags r)
    (hok : Admitted tags r e) : HoldsBackClose r e := by
  cases e with
  | nextRow =>
    intro s rule v last hheld
    obtain ⟨p, t, hnext, _, state, _, hback⟩ := hheld.next
    obtain ⟨htag, -⟩ := hok.1 p t s hnext
    obtain ⟨recorded, hlast, hvalue⟩ := hi.snapshots s.tag htag last hback.reference
    exact ⟨recorded, hlast, hok.2 s rule v last recorded hheld hlast, hvalue⟩
  | update changeOnly s =>
    intro hlog
    obtain ⟨htag, -⟩ := hok
    have hstate : r.states s.key = (lastOf s.tag r.fromUpdates).elim {} Sample.logged :=
      hi.updates s.tag htag
    cases hlast : lastOf s.tag r.fromUpdates with
    | none =>
      rw [hstate, hlast] at hlog
      rw [log_first rfl] at hlog
      cases hlog
    | some recorded =>
      rw [hstate, hlast] at hlog
      exact ⟨recorded, rfl, log_close hlog⟩
  | _ => trivial

end

end

/-! ## Examples -/

section
attribute [local instance] intFloats Alarms.intJson

@[reducible] def wholeIntegers : WholeText where
  stodAll s := readInteger s.toList

attribute [local instance] wholeIntegers

/-- A deadband of two. -/
def speedRule : HistorianTagRule where
  connectionId := "PLC"
  tagName := "Speed"
  deadband := Floats.ofInt 2
  named := by decide
  periodic := rfl

def speedConfig : AppCfg where
  historianTags := [speedRule]

def speedRow (value : Int) : Json :=
  .object [("connection_id", .string "PLC"), ("name", .string "Speed"), ("quality", .int 1),
    ("timestamp_ms", .int 1000), ("value", .int value)]

/-- A pass with one row. -/
def speedInput (started value : Int) : SnapshotInput where
  started := started
  now := started
  clock := 0
  answer := some (.object [("tags", .array [speedRow value])])

def speedSample (value : Int) : Sample where
  tsMs := 1000
  connectionId := "PLC"
  tagName := "Speed"
  quality := some 1
  valueDouble := some (Floats.ofInt value)
  valueJson := some (toString value)
  source := "snapshot"

/-- A batch and a queue of one sample. -/
def oneSample : BatchSize := ⟨1, Nat.one_pos⟩

def speedStart : Recorder := .start speedConfig 1

/-- While the queue is full, 10 becomes the reference of the tag. -/
def fullQueue : List RecorderEvent :=
  [.beginPass [] (speedInput 0 0), .nextRow, .nextRow,
    .beginPass [] (speedInput 60000 10), .nextRow, .nextRow,
    .flush .takeBatch, .flush (.insertBatch true), .beginPass [] (speedInput 120000 10)]

end

end OpcBridge.Historian
