import OpcBridge.Logic.Config
import OpcBridge.Core.Text
import OpcBridge.Lib.Run
import Mathlib.Data.List.Nodup

/-!
# Reloading automations

`loadLogicConfig` copies the results of the previous scripts in one critical section and installs
the new scripts in another; a validation cycle captures a script in one critical section and commits
its results in another. The steps of any number of loads and cycles may come in any order.

`captured_matches` says that a committed result belongs to the installation it was captured under.
`prepared_current` carries the other half: while no result is committed and nothing else is
installed between the copy and the installation of a load, the copy is what the state holds.
`stale_copy_installed` is a run in which a commit falls between the two.
-/

namespace OpcBridge

open Lib

/-! ## The file -/

/-- The fields of an item of `logic.json` as `load_item` reads them; a source field is `none` where
the JSON has no string. -/
structure LogicItem where
  isObject : Bool := true
  id : String
  name : Option String := none
  enabled : Bool := false
  intervalMs : Int := 0
  /-- `parse_logic_freshness`: whether fresh reads are required, their age and the timeout. -/
  freshness : Except String (Bool × Nat × Nat) := .ok (false, 0, 1000)
  engine : String := "javascript"
  source : Option String := none
  setupSource : Option String := none
  loopSource : Option String := none

inductive LogicFile
  /-- No JSON object with the two arrays. -/
  | invalid (error : String)
  | items (scripts blocks : List LogicItem)

/-- The script of an item with the id `id`, before results are carried over. -/
def readLogicItem (kind id : String) (js : LogicItem) : Except String LogicScriptConfig := do
  let name := trimCopy (js.name.getD id)
  let (requireFreshRead, freshMaxAgeMs, freshTimeoutMs) ← js.freshness
  let engine := trimCopy js.engine
  let script : LogicScriptConfig :=
    { id := id, kind := kind, name := if name = "" then id else name, enabled := js.enabled
      intervalMs := (max 0 js.intervalMs).toNat
      requireFreshRead := requireFreshRead, freshMaxAgeMs := freshMaxAgeMs
      freshTimeoutMs := freshTimeoutMs, engine := if engine = "" then "javascript" else engine }
  if kind = "block" then
    match js.setupSource, js.loopSource with
    | none, _ => .error ("Block '" ++ id ++ "' requires string field 'setup_source'.")
    | some _, none => .error ("Block '" ++ id ++ "' requires string field 'loop_source'.")
    | some setup, some loop => .ok { script with setupSource := setup, loopSource := loop }
  else
    match js.source with
    | none => .error ("Script '" ++ id ++ "' requires string field 'source'.")
    | some source => .ok { script with source := source }

/-- `same_body` -/
def sameBody (script prev : LogicScriptConfig) : Bool :=
  if script.kind = "script" then script.source == prev.source
  else script.setupSource == prev.setupSource && script.loopSource == prev.loopSource

/-- The results of a previous script with the same id. -/
def carryOver (prev : Option LogicScriptConfig) (script : LogicScriptConfig) : LogicScriptConfig :=
  match prev with
  | none => script
  | some prev =>
    let script := { script with stats := prev.stats }
    if sameBody script prev then
      { script with setupInitialized := prev.setupInitialized, retainedVars := prev.retainedVars }
    else { script with setupInitialized := false, retainedVars := fun _ => none }

structure LoadAcc where
  scripts : List LogicScriptConfig := []
  seenIds : List String := []
  /-- An exception left the loops. -/
  error : Option String := none

def loadItem (previousById : String → Option LogicScriptConfig) (kind : String) (acc : LoadAcc)
    (js : LogicItem) : LoadAcc :=
  if acc.error.isSome || !js.isObject then acc
  else
    let id := trimCopy js.id
    if id = "" ∨ id ∈ acc.seenIds then acc
    else
      let acc := { acc with seenIds := id :: acc.seenIds }
      match readLogicItem kind id js with
      | .error e => { acc with error := some e }
      | .ok script => { acc with scripts := acc.scripts ++ [carryOver (previousById id) script] }

def loadItems (previousById : String → Option LogicScriptConfig) (scripts blocks : List LogicItem) :
    LoadAcc :=
  blocks.foldl (loadItem previousById "block") (scripts.foldl (loadItem previousById "script") {})

/-! ## The shared state -/

structure LogicRuntimeState where
  revision : Nat := 0
  configLoaded : Bool := false
  lastLoadOk : Bool := true
  lastLoadMs : Int := 0
  configMtimeMs : Int := -1
  lastRunMs : Int := 0
  runsTotal : Nat := 0
  failuresTotal : Nat := 0
  lastError : String := ""
  scripts : List LogicScriptConfig := []

/-- What a load holds between its two critical sections. -/
structure PreparedLoad where
  previousById : String → Option LogicScriptConfig
  runsTotal : Nat
  failuresTotal : Nat
  lastRunMs : Int

/-- The last script with an id. -/
def LogicRuntimeState.previousById (logic : LogicRuntimeState) (id : String) :
    Option LogicScriptConfig :=
  (logic.scripts.filter (·.id != "")).reverse.find? (·.id == id)

def LogicRuntimeState.prepare (logic : LogicRuntimeState) : PreparedLoad where
  previousById := logic.previousById
  runsTotal := logic.runsTotal
  failuresTotal := logic.failuresTotal
  lastRunMs := logic.lastRunMs

/-- The installation of a prepared load. -/
def LogicRuntimeState.install (logic : LogicRuntimeState) (load : PreparedLoad) (file : LogicFile)
    (nowMs mtimeMs : Int) : LogicRuntimeState :=
  let next : LogicRuntimeState :=
    { revision := logic.revision + 1, configLoaded := true, lastLoadMs := nowMs
      configMtimeMs := mtimeMs, lastRunMs := load.lastRunMs, runsTotal := load.runsTotal
      failuresTotal := load.failuresTotal }
  match file with
  | .invalid e => { next with configLoaded := false, lastLoadOk := false, lastError := e }
  | .items scripts blocks =>
    let acc := loadItems load.previousById scripts blocks
    match acc.error with
    | some e =>
      { next with
        scripts := acc.scripts, configLoaded := false, lastLoadOk := false, lastError := e }
    | none => { next with scripts := acc.scripts }

/-- Without `logic.json` an empty state is installed at once. -/
def LogicRuntimeState.installMissing (logic : LogicRuntimeState) (nowMs : Int) :
    LogicRuntimeState :=
  { revision := logic.revision + 1, configLoaded := true, lastLoadMs := nowMs }

/-- What the evaluation of a captured script ends with. -/
structure LogicResult where
  ok : Bool
  err : String := ""
  nowMs : Int := 0
  durationMs : Int := 0
  referencedTags : Nat := 0
  missingTags : Nat := 0
  evaluatedReads : Nat := 0
  memoryWrites : Nat := 0
  variableCount : Nat := 0
  readPreview : String := ""
  writePreview : String := ""
  variablePreview : String := ""
  setupInitialized : Bool := false
  retainedVars : String → Option String := fun _ => none

def LogicScriptConfig.commit (script : LogicScriptConfig) (r : LogicResult) : LogicScriptConfig :=
  { script with
    stats :=
      { lastRunMs := r.nowMs, lastRunDurationMs := r.durationMs, lastRunOk := r.ok
        runsTotal := script.stats.runsTotal + 1
        failuresTotal := script.stats.failuresTotal + if r.ok then 0 else 1
        referencedTags := r.referencedTags, missingTags := r.missingTags
        evaluatedReads := r.evaluatedReads, memoryWrites := r.memoryWrites
        variableCount := r.variableCount, readPreview := r.readPreview
        writePreview := r.writePreview, variablePreview := r.variablePreview
        lastError := if r.ok then "" else r.err }
    setupInitialized := r.setupInitialized
    retainedVars := r.retainedVars }

def LogicRuntimeState.commit (logic : LogicRuntimeState) (idx : Nat) (r : LogicResult) :
    LogicRuntimeState :=
  { logic with
    scripts := logic.scripts.modify idx fun script => script.commit r
    lastRunMs := r.nowMs
    runsTotal := logic.runsTotal + 1
    failuresTotal := logic.failuresTotal + if r.ok then 0 else 1
    lastError := if !r.ok then r.err else if logic.lastLoadOk then "" else logic.lastError }

/-- The scripts that are due, in order. -/
def LogicRuntimeState.due (logic : LogicRuntimeState) (nowMs : Int) : List Nat :=
  (List.range logic.scripts.length).filter fun i => (logic.scripts[i]?).any fun script =>
    let interval : Int := if 0 < script.intervalMs then max 100 script.intervalMs else 1000
    script.enabled &&
      (decide (script.stats.lastRunMs ≤ 0) || decide (interval ≤ nowMs - script.stats.lastRunMs))

/-! ## Steps -/

/-- A validation cycle between two critical sections. -/
structure LogicCycle where
  revision : Nat
  due : List Nat
  captured : Option (Nat × LogicScriptConfig) := none

structure LogicSystem where
  logic : LogicRuntimeState := {}
  loads : Nat → Option PreparedLoad := fun _ => none
  cycles : Nat → Option LogicCycle := fun _ => none

inductive LogicEvent
  | copy (load : Nat)
  | install (load : Nat) (file : LogicFile) (nowMs mtimeMs : Int)
  | installMissing (nowMs : Int)
  | begin (cycle : Nat) (nowMs : Int)
  | capture (cycle : Nat)
  | commit (cycle : Nat) (result : LogicResult)

/-- One critical section; a section whose load or cycle is not there leaves the state alone. -/
def logicStep (s : LogicSystem) : LogicEvent → LogicSystem
  | .copy l => { s with loads := Function.update s.loads l (some s.logic.prepare) }
  | .install l file nowMs mtimeMs =>
    match s.loads l with
    | none => s
    | some load =>
      { s with
        logic := s.logic.install load file nowMs mtimeMs
        loads := Function.update s.loads l none }
  | .installMissing nowMs => { s with logic := s.logic.installMissing nowMs }
  | .begin c nowMs =>
    { s with
      cycles := Function.update s.cycles c
        (some { revision := s.logic.revision, due := s.logic.due nowMs }) }
  | .capture c =>
    match s.cycles c with
    | none => s
    | some cycle =>
      match cycle.captured, cycle.due with
      | none, idx :: due =>
        if s.logic.revision ≠ cycle.revision then
          { s with cycles := Function.update s.cycles c none }
        else
          { s with
            cycles := Function.update s.cycles c (some { cycle with
              due := due
              captured := (s.logic.scripts[idx]?).bind fun script =>
                if script.enabled then some (idx, script) else none }) }
      | _, _ => s
  | .commit c r =>
    match s.cycles c with
    | none => s
    | some cycle =>
      match cycle.captured with
      | none => s
      | some (idx, _) =>
        if s.logic.revision ≠ cycle.revision then
          { s with cycles := Function.update s.cycles c none }
        else if s.logic.scripts.length ≤ idx then
          { s with cycles := Function.update s.cycles c (some { cycle with captured := none }) }
        else
          { s with
            logic := s.logic.commit idx r
            cycles := Function.update s.cycles c (some { cycle with captured := none }) }

def LogicEvent.isInstall : LogicEvent → Bool
  | .install .. => true
  | .installMissing .. => true
  | _ => false

/-! ## Ids -/

/-- Scripts have different ids, none of them empty. -/
structure LogicRuntimeState.UniqueIds (logic : LogicRuntimeState) : Prop where
  nodup : (logic.scripts.map (·.id)).Nodup
  ne : ∀ script ∈ logic.scripts, script.id ≠ ""

@[simp] theorem carryOver_id (prev : Option LogicScriptConfig) (script : LogicScriptConfig) :
    (carryOver prev script).id = script.id := by
  unfold carryOver
  split
  · rfl
  · dsimp only
    split <;> rfl

theorem readLogicItem_id {kind id : String} {js : LogicItem} {script : LogicScriptConfig}
    (h : readLogicItem kind id js = .ok script) : script.id = id := by
  unfold readLogicItem at h
  simp only [bind, Except.bind] at h
  split at h
  · cases h
  · split at h
    · split at h <;> cases h
      rfl
    · split at h <;> cases h
      rfl

/-- What the loop has read so far. -/
structure LoadAcc.Ok (previousById : String → Option LogicScriptConfig) (acc : LoadAcc) : Prop where
  nodup : (acc.scripts.map (·.id)).Nodup
  seen : ∀ script ∈ acc.scripts, script.id ∈ acc.seenIds
  ne : ∀ script ∈ acc.scripts, script.id ≠ ""
  carried : ∀ script ∈ acc.scripts, ∃ raw, script = carryOver (previousById raw.id) raw

theorem loadItem_ok {previousById : String → Option LogicScriptConfig} {kind : String}
    {acc : LoadAcc} (h : acc.Ok previousById) (js : LogicItem) :
    (loadItem previousById kind acc js).Ok previousById := by
  unfold loadItem
  split
  · exact h
  · dsimp only
    split
    · exact h
    · rename_i hid
      rw [not_or] at hid
      split
      · exact ⟨h.nodup, fun s hs => List.mem_cons_of_mem _ (h.seen s hs), h.ne, h.carried⟩
      · rename_i script hread
        have hscript := readLogicItem_id hread
        have hnew : (carryOver (previousById (trimCopy js.id)) script).id = trimCopy js.id := by
          rw [carryOver_id, hscript]
        refine ⟨?_, fun s hs => ?_, fun s hs => ?_, fun s hs => ?_⟩
        · rw [List.map_append, List.nodup_append]
          refine ⟨h.nodup, by simp, fun a ha b hb hab => ?_⟩
          obtain ⟨s, hs, rfl⟩ := List.mem_map.1 ha
          simp only [List.map_cons, List.map_nil, List.mem_singleton] at hb
          rw [hb, hnew] at hab
          exact hid.2 (hab ▸ h.seen s hs)
        all_goals
          rcases List.mem_append.1 hs with hs | hs
        · exact List.mem_cons_of_mem _ (h.seen s hs)
        · rw [List.mem_singleton.1 hs, hnew]
          exact List.mem_cons_self ..
        · exact h.ne s hs
        · rw [List.mem_singleton.1 hs, hnew]
          exact hid.1
        · exact h.carried s hs
        · exact ⟨script, by rw [List.mem_singleton.1 hs, hscript]⟩

theorem loadItems_ok (previousById : String → Option LogicScriptConfig)
    (scripts blocks : List LogicItem) :
    (loadItems previousById scripts blocks).Ok previousById := by
  have hfold : ∀ kind (items : List LogicItem) (acc : LoadAcc), acc.Ok previousById →
      (items.foldl (loadItem previousById kind) acc).Ok previousById := by
    intro kind items
    induction items with
    | nil => exact fun _ h => h
    | cons js items ih => exact fun acc h => ih _ (loadItem_ok h js)
  exact hfold _ _ _ (hfold _ _ _ ⟨by simp, by simp, by simp, by simp⟩)

namespace LogicRuntimeState

/-- The scripts of an installation are those of the file with the results of the copy. -/
theorem install_scripts (logic : LogicRuntimeState) (load : PreparedLoad) (file : LogicFile)
    (nowMs mtimeMs : Int) :
    ∃ acc : LoadAcc, acc.Ok load.previousById ∧
      (logic.install load file nowMs mtimeMs).scripts = acc.scripts := by
  unfold install
  cases file with
  | invalid e => exact ⟨{}, ⟨by simp, by simp, by simp, by simp⟩, rfl⟩
  | items scripts blocks =>
    refine ⟨loadItems load.previousById scripts blocks, loadItems_ok .., ?_⟩
    dsimp only
    split <;> rfl

theorem uniqueIds_install (logic : LogicRuntimeState) (load : PreparedLoad) (file : LogicFile)
    (nowMs mtimeMs : Int) : (logic.install load file nowMs mtimeMs).UniqueIds := by
  obtain ⟨acc, hacc, he⟩ := logic.install_scripts load file nowMs mtimeMs
  exact ⟨he ▸ hacc.nodup, he ▸ hacc.ne⟩

theorem getElem?_commit (logic : LogicRuntimeState) (idx : Nat) (r : LogicResult) (i : Nat) :
    (logic.commit idx r).scripts[i]? =
      (logic.scripts[i]?).map fun script => if idx = i then script.commit r else script := by
  rw [commit, List.getElem?_modify]
  by_cases h : idx = i <;> simp [h]

theorem uniqueIds_commit {logic : LogicRuntimeState} (h : logic.UniqueIds) (idx : Nat)
    (r : LogicResult) : (logic.commit idx r).UniqueIds := by
  have hids : (logic.commit idx r).scripts.map (·.id) = logic.scripts.map (·.id) := by
    refine List.ext_getElem? fun i => ?_
    rw [List.getElem?_map, List.getElem?_map, getElem?_commit]
    cases logic.scripts[i]? with
    | none => rfl
    | some script => simp only [Option.map_some]; split <;> rfl
  refine ⟨hids ▸ h.nodup, fun script hs => ?_⟩
  have hid : script.id ∈ logic.scripts.map (·.id) := hids ▸ List.mem_map.2 ⟨script, hs, rfl⟩
  obtain ⟨prev, hp, he⟩ := List.mem_map.1 hid
  exact he ▸ h.ne prev hp

theorem previousById_eq {logic : LogicRuntimeState} (h : logic.UniqueIds)
    {prev : LogicScriptConfig} (hp : prev ∈ logic.scripts) :
    logic.previousById prev.id = some prev := by
  unfold previousById
  have hmem : ∀ script, script ∈ (logic.scripts.filter (·.id != "")).reverse ↔
      script ∈ logic.scripts := by
    intro script
    rw [List.mem_reverse, List.mem_filter]
    exact ⟨fun hs => hs.1, fun hs => ⟨hs, by simpa using h.ne script hs⟩⟩
  obtain ⟨found, hf⟩ : ∃ found, (logic.scripts.filter (·.id != "")).reverse.find?
      (·.id == prev.id) = some found := by
    rw [← Option.isSome_iff_exists, List.find?_isSome]
    exact ⟨prev, (hmem prev).2 hp, by simp⟩
  rw [hf, Option.some.injEq]
  exact List.inj_on_of_nodup_map h.nodup ((hmem found).1 (List.mem_of_find?_eq_some hf)) hp
    (by simpa using List.find?_some hf)

/-- Every script keeps the results of a previous script with its id and body. -/
def Kept (before after : LogicRuntimeState) : Prop :=
  ∀ prev ∈ before.scripts, ∀ script ∈ after.scripts, script.id = prev.id →
    sameBody script prev = true →
    script.retainedVars = prev.retainedVars ∧ script.setupInitialized = prev.setupInitialized ∧
      script.stats.runsTotal = prev.stats.runsTotal ∧
      script.stats.failuresTotal = prev.stats.failuresTotal

/-- An installation from a current copy keeps results. -/
theorem kept_install {logic : LogicRuntimeState} (h : logic.UniqueIds) {load : PreparedLoad}
    (hl : load.previousById = logic.previousById) (file : LogicFile) (nowMs mtimeMs : Int) :
    logic.Kept (logic.install load file nowMs mtimeMs) := by
  intro prev hp script hs hid hbody
  obtain ⟨acc, hacc, he⟩ := logic.install_scripts load file nowMs mtimeMs
  obtain ⟨raw, rfl⟩ := hacc.carried script (he ▸ hs)
  rw [carryOver_id] at hid
  rw [hl, hid, previousById_eq h hp] at hbody ⊢
  unfold carryOver at hbody ⊢
  dsimp only at hbody ⊢
  split
  · exact ⟨rfl, rfl, rfl, rfl⟩
  · rename_i hdiff
    rw [if_neg hdiff] at hbody
    exact absurd hbody hdiff

end LogicRuntimeState

/-! ## Runs -/

/-- Nothing changes the scripts while a load is between its copy and its installation. -/
def Undisturbed (s : LogicSystem) : LogicEvent → Prop
  | .commit _ _ => ∀ l, s.loads l = none
  | .install l _ _ _ => ∀ l', l' ≠ l → s.loads l' = none
  | .installMissing _ => ∀ l, s.loads l = none
  | _ => True

/-- The copies of the loads under way are current. -/
structure PreparedCurrent (s : LogicSystem) : Prop where
  unique : s.logic.UniqueIds
  current : ∀ l load, s.loads l = some load → load.previousById = s.logic.previousById

theorem preparedCurrent_step {s : LogicSystem} {e : LogicEvent} (h : PreparedCurrent s)
    (he : Undisturbed s e) : PreparedCurrent (logicStep s e) := by
  cases e with
  | copy l =>
    refine ⟨h.unique, fun l' load hl => ?_⟩
    simp only [logicStep] at hl ⊢
    by_cases hne : l' = l
    · rw [hne, Function.update_self, Option.some.injEq] at hl
      rw [← hl]
      rfl
    · rw [Function.update_of_ne hne] at hl
      exact h.current l' load hl
  | install l file nowMs mtimeMs =>
    simp only [logicStep]
    split
    · exact h
    · refine ⟨LogicRuntimeState.uniqueIds_install .., fun l' load' hl' => ?_⟩
      -- no other load is under way
      dsimp only at hl'
      by_cases hne : l' = l
      · rw [hne, Function.update_self] at hl'
        cases hl'
      · rw [Function.update_of_ne hne, he l' hne] at hl'
        cases hl'
  | installMissing nowMs =>
    refine ⟨⟨by simp [logicStep, LogicRuntimeState.installMissing],
      by simp [logicStep, LogicRuntimeState.installMissing]⟩, fun l load hl => ?_⟩
    simp only [logicStep, he l] at hl
    cases hl
  | begin c nowMs => exact ⟨h.unique, h.current⟩
  | capture c =>
    simp only [logicStep]
    repeat' split
    all_goals exact ⟨h.unique, h.current⟩
  | commit c r =>
    simp only [logicStep]
    split
    · exact h
    · split
      · exact h
      · split
        · exact ⟨h.unique, h.current⟩
        · split
          · exact ⟨h.unique, h.current⟩
          · refine ⟨LogicRuntimeState.uniqueIds_commit h.unique _ _, fun l load hl => ?_⟩
            rw [he l] at hl
            cases hl

/-- A script with the configuration of another one. -/
def SameScript (a b : LogicScriptConfig) : Prop :=
  a.id = b.id ∧ a.kind = b.kind ∧ a.source = b.source ∧ a.setupSource = b.setupSource ∧
    a.loopSource = b.loopSource

/-- A cycle of the current revision has captured what stands in its slot. -/
def CapturedMatches (s : LogicSystem) : Prop :=
  ∀ c cycle, s.cycles c = some cycle → cycle.revision ≤ s.logic.revision ∧
    (cycle.revision = s.logic.revision → ∀ idx script, cycle.captured = some (idx, script) →
      ∃ current, s.logic.scripts[idx]? = some current ∧ SameScript current script)

theorem LogicRuntimeState.install_revision (logic : LogicRuntimeState) (load : PreparedLoad)
    (file : LogicFile) (nowMs mtimeMs : Int) :
    (logic.install load file nowMs mtimeMs).revision = logic.revision + 1 := by
  unfold install
  cases file with
  | invalid e => rfl
  | items scripts blocks =>
    dsimp only
    split <;> rfl

/-- Another cycle in slot `c`. -/
theorem capturedMatches_update {s : LogicSystem} (h : CapturedMatches s) {c : Nat}
    {cycle : Option LogicCycle} (hc : ∀ cy, cycle = some cy → cy.revision ≤ s.logic.revision ∧
      (cy.revision = s.logic.revision → ∀ idx script, cy.captured = some (idx, script) →
        ∃ current, s.logic.scripts[idx]? = some current ∧ SameScript current script)) :
    CapturedMatches { s with cycles := Function.update s.cycles c cycle } := by
  intro c' cycle' hc'
  dsimp only at hc' ⊢
  by_cases hne : c' = c
  · rw [hne, Function.update_self] at hc'
    exact hc cycle' hc'
  · rw [Function.update_of_ne hne] at hc'
    exact h c' cycle' hc'

/-- A newer installation makes every cycle old. -/
theorem capturedMatches_newer {s s' : LogicSystem} (h : CapturedMatches s)
    (hc : s'.cycles = s.cycles) (hr : s'.logic.revision = s.logic.revision + 1) :
    CapturedMatches s' := by
  intro c cycle hcycle
  have hle := (h c cycle (hc ▸ hcycle)).1
  exact ⟨by omega, fun heq => by omega⟩

theorem capturedMatches_commit {s : LogicSystem} (h : CapturedMatches s) (idx : Nat)
    (r : LogicResult) : CapturedMatches { s with logic := s.logic.commit idx r } := by
  intro c cycle hc
  obtain ⟨hle, hm⟩ := h c cycle hc
  refine ⟨hle, fun heq i script hcap => ?_⟩
  obtain ⟨current, hcur, hsame⟩ := hm heq i script hcap
  refine ⟨_, by rw [LogicRuntimeState.getElem?_commit, hcur]; rfl, ?_⟩
  split
  · exact hsame
  · exact hsame

theorem capturedMatches_step {s : LogicSystem} (e : LogicEvent) (h : CapturedMatches s) :
    CapturedMatches (logicStep s e) := by
  cases e with
  | copy l => exact h
  | install l file nowMs mtimeMs =>
    simp only [logicStep]
    split
    · exact h
    · exact capturedMatches_newer h rfl (LogicRuntimeState.install_revision ..)
  | installMissing nowMs => exact capturedMatches_newer h rfl rfl
  | begin c nowMs =>
    exact capturedMatches_update h fun cy hcy => by
      cases hcy
      exact ⟨le_refl _, fun _ idx script hcap => by cases hcap⟩
  | capture c =>
    simp only [logicStep]
    split
    · exact h
    · rename_i cycle hcycle
      split
      · rename_i idx due _ _
        split
        · exact capturedMatches_update h (by simp)
        · refine capturedMatches_update h fun cy hcy => ?_
          cases hcy
          refine ⟨(h c cycle hcycle).1, fun _ i script hcap => ?_⟩
          obtain ⟨current, hcur, hen⟩ := Option.bind_eq_some_iff.1 hcap
          split at hen
          · cases hen
            exact ⟨script, hcur, rfl, rfl, rfl, rfl, rfl⟩
          · cases hen
      · exact h
  | commit c r =>
    simp only [logicStep]
    split
    · exact h
    · rename_i cycle hcycle
      split
      · exact h
      · rename_i idx script hcap
        split
        · exact capturedMatches_update h (by simp)
        · split
          · exact capturedMatches_update h fun cy hcy => by
              cases hcy
              exact ⟨(h c cycle hcycle).1, fun _ i script hcap => by cases hcap⟩
          · refine capturedMatches_update (capturedMatches_commit h idx r) fun cy hcy => ?_
            cases hcy
            exact ⟨(h c cycle hcycle).1, fun _ i script hcap => by cases hcap⟩

/-! ## The result -/

/-- **Reloads keep committed results** in every run in which no result is committed and nothing
else is installed between the copy and the installation of a load; and in every run a result is
committed only into the installation it was captured under. -/
theorem reload_keeps_results (es : List LogicEvent) :
    (Along logicStep Undisturbed {} es → ∀ before e after, es = before ++ e :: after →
      e.isInstall = true →
        (run logicStep {} before).logic.Kept (run logicStep {} (before ++ [e])).logic) ∧
    ∀ before c r after, es = before ++ .commit c r :: after →
      (run logicStep {} (before ++ [.commit c r])).logic = (run logicStep {} before).logic ∨
      ∃ cycle idx script current, (run logicStep {} before).cycles c = some cycle ∧
        cycle.captured = some (idx, script) ∧
        cycle.revision = (run logicStep {} before).logic.revision ∧
        (run logicStep {} before).logic.scripts[idx]? = some current ∧
        SameScript current script ∧
        (run logicStep {} (before ++ [.commit c r])).logic.scripts[idx]? =
          some (current.commit r) := by
  constructor
  · rintro hal before e after rfl hinst
    have h0 : PreparedCurrent {} := ⟨⟨by simp, by simp⟩, fun l load h => by cases h⟩
    obtain ⟨hinv, hok⟩ := run_step (fun s e h he => preparedCurrent_step h he) h0 hal
    rw [run_append]
    generalize run logicStep {} before = s at hinv hok
    cases e with
    | install l file nowMs mtimeMs =>
      simp only [run_cons, run_nil, logicStep]
      split
      · -- no load is under way: nothing is installed
        intro prev hp script hs hid _
        rw [List.inj_on_of_nodup_map hinv.unique.nodup hs hp hid]
        exact ⟨rfl, rfl, rfl, rfl⟩
      · exact LogicRuntimeState.kept_install hinv.unique (hinv.current l _ ‹_›) _ _ _
    | installMissing nowMs =>
      intro prev _ script hs
      simp [logicStep, LogicRuntimeState.installMissing] at hs
    | _ => cases hinst
  · rintro before c r after rfl
    have h0 : CapturedMatches {} := fun c cycle h => by cases h
    have hinv := run_induct (fun s e h => capturedMatches_step e h) h0 before
    rw [run_append]
    generalize run logicStep {} before = s at hinv
    simp only [run_cons, run_nil, logicStep]
    split
    · exact .inl rfl
    · rename_i cycle hcycle
      split
      · exact .inl rfl
      · rename_i idx script hcap
        split
        · exact .inl rfl
        · rename_i hrev
          split
          · exact .inl rfl
          · rw [ne_eq, not_not] at hrev
            obtain ⟨current, hcur, hsame⟩ := (hinv c cycle hcycle).2 hrev.symm idx script hcap
            refine .inr ⟨cycle, idx, script, current, hcycle, hcap, hrev.symm, hcur, hsame, ?_⟩
            rw [LogicRuntimeState.getElem?_commit, hcur]
            simp

/-! ## A commit between copy and installation -/

/-- A file with one script. -/
def counterFile : LogicFile :=
  .items [{ id := "counter", enabled := true, source := some "n = 1;" }] []

/-- A run of the script that keeps a variable. -/
def counterResult : LogicResult :=
  { ok := true, retainedVars := fun name => if name = "n" then some "1" else none }

/-- Load and run the script; then a reload copies, the cycle commits, and the reload installs. -/
def staleReload : List LogicEvent :=
  [.copy 0, .install 0 counterFile 0 0, .begin 0 5, .capture 0, .copy 1, .commit 0 counterResult,
    .install 1 counterFile 0 0]

/-- The reload rolls the results back. -/
theorem stale_copy_installed :
    ¬ ∀ es before e after, es = before ++ e :: after → e.isInstall = true →
      (run logicStep {} before).logic.Kept (run logicStep {} (before ++ [e])).logic := by
  intro h
  have hk := h staleReload (staleReload.take 6) (.install 1 counterFile 0 0) [] rfl rfl
  have hprev : ("counter", "script", "n = 1;", 1) ∈
      (run logicStep {} (staleReload.take 6)).logic.scripts.map fun script =>
        (script.id, script.kind, script.source, script.stats.runsTotal) := by decide +kernel
  have hnew : ("counter", "script", "n = 1;", 0) ∈
      (run logicStep {} staleReload).logic.scripts.map fun script =>
        (script.id, script.kind, script.source, script.stats.runsTotal) := by decide +kernel
  obtain ⟨prev, hp, hprev⟩ := List.mem_map.1 hprev
  obtain ⟨script, hs, hnew⟩ := List.mem_map.1 hnew
  simp only [Prod.mk.injEq] at hprev hnew
  obtain ⟨hid, -, hsource, hruns⟩ := hprev
  obtain ⟨hid', hkind, hsource', hruns'⟩ := hnew
  have hbody : sameBody script prev = true := by simp [sameBody, hkind, hsource, hsource']
  have hlost := (hk prev hp script hs (hid'.trans hid.symm) hbody).2.2.1
  omega

/-- The same file loaded again with nothing between copy and installation. -/
theorem quiet_reload_keeps :
    (run logicStep {} (staleReload.take 4 ++ [.commit 0 counterResult, .copy 1])).logic.Kept
      (run logicStep {} (staleReload.take 4 ++ [.commit 0 counterResult, .copy 1] ++
        [.install 1 counterFile 0 0])).logic := by
  refine (reload_keeps_results (staleReload.take 4 ++ [.commit 0 counterResult, .copy 1] ++
    [.install 1 counterFile 0 0])).1 ?_ _ (.install 1 counterFile 0 0) [] (by simp) rfl
  refine ⟨trivial, fun l hl => ?_, trivial, trivial, fun l => ?_, trivial, fun l hl => ?_, trivial⟩
  · exact Function.update_of_ne hl _ _
  · cases l <;> rfl
  · match l with
    | 0 => rfl
    | 1 => exact absurd rfl hl
    | l + 2 => rfl

end OpcBridge
