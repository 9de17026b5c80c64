import OpcBridge.Core.Snapshot
import OpcBridge.Logic.Config
import OpcBridge.Lib.Run
import Mathlib.Data.Finset.Sort
import Mathlib.Data.Prod.Lex
import Mathlib.Data.String.Basic

/-!
# Verified inputs

A script with `requireFreshRead` is evaluated on samples that `logic_acquire_fresh_inputs` verified.
`checkFreshInput` checks one input, `freshPass` all of them under one driver lock, and `freshStep` is
the cycle around it: every section under a lock is a step, and between two steps the drivers, the
table and the configuration may become anything.

`Verified` is what an evaluation relies on: one pass, in a state with the captured revision, found a
fresh sample for every dependency. `history_step` carries it along a run.
-/

namespace OpcBridge

open Lib

section
variable [Floats]

/-! ## One input -/

abbrev TagRuntimeIndex := String → Option (Nat × Nat)

/-- `index.emplace` over all tags: the first tag with a key. -/
def tagRuntimeIndex (drivers : List DriverContext) : TagRuntimeIndex := fun key =>
  ((drivers.zipIdx.flatMap fun driver => driver.1.tags.zipIdx.map fun tag =>
    (makeTagKey driver.1.conn.id tag.1.name, (driver.2, tag.2))).find? (·.1 == key)).map (·.2)

structure FreshReadCheck where
  reason : String := "waiting"
  datatype : String := ""
  connectionName : String := ""
  writable : Bool := false
  sample : TagSnapshot := {
    connectionId := "", logicalName := "", datatype := "", value := .bool false, timestamp := 0 }

/-- The walk to the physical source; an error is the reason to report. No more than 64 tags are
visited, so that the fuel is enough. -/
def freshSources (driver : DriverContext) (index : TagRuntimeIndex) (d : Nat) (cid : String) :
    Nat → TagRuntime → List String → Bool → Except String (List String)
  | 0, _, _, _ => .error "dependency_too_deep"
  | n + 1, source, visited, throughElement =>
    if !source.cfg.enabled then .error "source_unavailable"
    else if source.name ∈ visited then .error "source_cycle"
    else if 64 < visited.length + 1 then .error "dependency_too_deep"
    else if driver.conn.driver ≠ "ab_eip" ∨ isMemoryConnectionId driver.conn.id ∨
        isMemoryTag source.cfg then .error "unsupported_source"
    else match source.parent with
      | none =>
        if 1 < source.cfg.elemCount ∧ !throughElement then .error "unsupported_source"
        else .ok (visited ++ [source.name])
      | some parentName =>
        match index (makeTagKey cid parentName) with
        | none => .error "source_unavailable"
        | some (d', t') =>
          if d' ≠ d then .error "source_unavailable"
          else match driver.tags[t']? with
            | none => .error "source_unavailable"
            | some parent =>
              freshSources driver index d cid n parent (visited ++ [source.name])
                (throughElement || source.pollSource != "")

def checkFreshInput (drivers : List DriverContext) (table : TagTable) (index : TagRuntimeIndex)
    (cid name : String) (requested : Nat) (maxAge : F64) (nativeMemory : Bool) (now : Nat) :
    FreshReadCheck :=
  match index (makeTagKey cid name) with
  | none => { reason := "not_found" }
  | some (d, t) =>
    match drivers[d]? with
    | none => { reason := "not_found" }
    | some driver =>
      match driver.tags[t]? with
      | none => { reason := "not_found" }
      | some tag =>
        let result : FreshReadCheck :=
          { datatype := if tag.outDatatype = "" then tag.cfg.datatype else tag.outDatatype
            writable := tag.cfg.writable, connectionName := driver.conn.name }
        if !tag.cfg.enabled then { result with reason := "disabled" }
        else
          let authoritativeMemory := nativeMemory && isMemoryTag tag.cfg
          match if authoritativeMemory then .ok [] else freshSources driver index d cid 65 tag [] false with
          | .error reason => { result with reason := reason }
          | .ok _ =>
            match table (makeTagKey cid name) with
            | none => result
            | some cached =>
              if cached.quality = 1 ∧ (authoritativeMemory ∨
                  cached.pollRead.satisfiesAge requested maxAge true now driver.freshnessEpoch) then
                { result with reason := "fresh", sample := cached }
              else result

/-! ## One pass -/

/-- The reads in the order of the set. -/
def AutomationDependencies.orderedReads (deps : AutomationDependencies) :
    List (String × String) :=
  ((deps.reads.image toLex).sort (· ≤ ·)).map ofLex

structure PassAcc where
  candidate : String → Option TagSnapshot := fun _ => none
  waiting : Option String := none

/-- `emplace` -/
def emplace {α : Type} (m : String → Option α) (key : String) (a : α) : String → Option α :=
  if (m key).isSome then m else Function.update m key (some a)

def freshPass (check : String × String → FreshReadCheck) :
    List (String × String) → PassAcc → Except String PassAcc
  | [], acc => .ok acc
  | ref :: refs, acc =>
    if ref.1 = "_system" then freshPass check refs acc
    else
      let result := check ref
      if result.reason = "fresh" then
        freshPass check refs { acc with
          candidate := emplace acc.candidate (makeTagKey ref.1 ref.2) result.sample }
      else if result.reason = "waiting" then
        freshPass check refs { acc with waiting := some (ref.1 ++ ":" ++ ref.2) }
      else .error ("Fresh input " ++ ref.1 ++ ":" ++ ref.2 ++ ": " ++ result.reason)

/-! ## The cycle -/

/-- The locals of a cycle that runs one script. -/
structure CycleFrame where
  script : LogicScriptConfig
  revision : Nat
  requested : Nat := 0
  deadline : Nat := 0
  ok : Bool := true
  err : String := ""
  /-- `freshTagSnapshots` -/
  samples : String → Option TagSnapshot := fun _ => none

inductive CyclePhase
  | idle
  | captured (f : CycleFrame)
  /-- Before the revision check of a pass. -/
  | checking (f : CycleFrame)
  /-- Before the driver lock of a pass. -/
  | passing (f : CycleFrame)
  /-- The acquisition has returned. -/
  | returned (f : CycleFrame)
  | evaluating (f : CycleFrame)
  /-- Before the results are committed. -/
  | committing (f : CycleFrame)

structure FreshSystem where
  revision : Nat
  drivers : List DriverContext
  table : TagTable
  phase : CyclePhase := .idle
  /-- The writes issued so far: connection, tag and text. -/
  writes : List (String × String × String) := []

inductive FreshEvent
  /-- The configuration is replaced. -/
  | replace
  /-- Polls, writes and driver reloads. -/
  | environment (drivers : List DriverContext) (table : TagTable)
  | capture (script : LogicScriptConfig)
  | acquire (available : Bool) (now : Nat)
  | checkRevision
  /-- `clock` is what each check reads, `now` what the deadline is compared with. -/
  | pass (clock : String × String → Nat) (now : Nat)
  | recheck
  | evaluate (write : Option (String × String × String))
  | finish

/-- The check of an input of the script in a state. -/
def FreshSystem.check (s : FreshSystem) (f : CycleFrame) (clock : String × String → Nat)
    (ref : String × String) : FreshReadCheck :=
  checkFreshInput s.drivers s.table (tagRuntimeIndex s.drivers) ref.1 ref.2 f.requested
    (Floats.ofInt f.script.freshMaxAgeMs) true (clock ref)

/-- The beginning of a run: of the acquisition, or of the evaluation of a script that does not ask
for fresh reads. -/
def CycleFrame.start (f : CycleFrame) (available : Bool) (now : Nat) : CyclePhase :=
  if !f.script.requireFreshRead then .evaluating f
  else if !available then
    .returned { f with ok := false, err := "Fresh input acquisition unavailable." }
  else if !f.script.dependencies.complete then
    .returned { f with
      ok := false
      err := "Fresh inputs require complete literal dependencies: " ++
        f.script.dependencies.reason }
  else
    .checking { f with
      requested := now, deadline := now + f.script.freshTimeoutMs * 1000000 }

/-- The section under the driver lock and the deadline. -/
def FreshSystem.pass (s : FreshSystem) (f : CycleFrame) (clock : String × String → Nat)
    (now : Nat) : CyclePhase :=
  match freshPass (s.check f clock) f.script.dependencies.orderedReads {} with
  | .error e => .returned { f with ok := false, err := e }
  | .ok acc =>
    match acc.waiting with
    | none => .returned { f with samples := acc.candidate }
    | some waitingTag =>
      if f.deadline ≤ now then
        .returned { f with ok := false, err := "Fresh input " ++ waitingTag ++ ": timeout" }
      else .checking f

/-- One step; an event that does not fit the phase leaves the state alone. -/
def freshStep (s : FreshSystem) : FreshEvent → FreshSystem
  | .replace => { s with revision := s.revision + 1 }
  | .environment drivers table => { s with drivers := drivers, table := table }
  | .capture script =>
    match s.phase with
    | .idle => { s with phase := .captured { script := script, revision := s.revision } }
    | _ => s
  | .acquire available now =>
    match s.phase with
    | .captured f => { s with phase := f.start available now }
    | _ => s
  | .checkRevision =>
    match s.phase with
    | .checking f =>
      if s.revision ≠ f.revision then
        { s with phase := .returned { f with
            ok := false, err := "Logic configuration replaced during input acquisition." } }
      else { s with phase := .passing f }
    | _ => s
  | .pass clock now =>
    match s.phase with
    | .passing f => { s with phase := s.pass f clock now }
    | _ => s
  | .recheck =>
    match s.phase with
    | .returned f =>
      if s.revision ≠ f.revision then { s with phase := .idle }
      else if f.ok then { s with phase := .evaluating f }
      else { s with phase := .committing f }
    | _ => s
  | .evaluate write =>
    match s.phase with
    | .evaluating _ => { s with writes := s.writes ++ write.toList }
    | _ => s
  | .finish =>
    match s.phase with
    | .evaluating _ => { s with phase := .idle }
    | .committing _ => { s with phase := .idle }
    | _ => s

/-! ## What a pass finds -/

theorem freshSources_error {driver : DriverContext} {index : TagRuntimeIndex} {d : Nat}
    {cid : String} {n : Nat} {source : TagRuntime} {visited : List String} {through : Bool}
    {reason : String} (h : freshSources driver index d cid n source visited through = .error reason) :
    reason ≠ "fresh" := by
  induction n generalizing source visited through with
  | zero =>
    cases h
    decide
  | succ n ih =>
    unfold freshSources at h
    split at h
    · cases h; decide
    split at h
    · cases h; decide
    split at h
    · cases h; decide
    split at h
    · cases h; decide
    split at h
    · split at h
      · cases h; decide
      · cases h
    · split at h
      · cases h; decide
      · split at h
        · cases h; decide
        · split at h
          · cases h; decide
          · exact ih h

/-- A fresh sample is the cached one. -/
theorem checkFreshInput_fresh {drivers : List DriverContext} {table : TagTable}
    {index : TagRuntimeIndex} {cid name : String} {requested : Nat} {maxAge : F64} {native : Bool}
    {now : Nat} {result : FreshReadCheck}
    (h : checkFreshInput drivers table index cid name requested maxAge native now = result)
    (hf : result.reason = "fresh") : table (makeTagKey cid name) = some result.sample := by
  unfold checkFreshInput at h
  split at h
  · subst h; simp at hf
  split at h
  · subst h; simp at hf
  split at h
  · subst h; simp at hf
  dsimp only at h
  split at h
  · subst h; simp at hf
  split at h
  · rename_i reason herr
    -- the walk never answers with this word
    subst h
    split at herr
    · cases herr
    · exact absurd hf (freshSources_error herr)
  · split at h
    · subst h; simp at hf
    · rename_i cached hcached
      split at h
      · subst h
        exact hcached
      · subst h; simp at hf

omit [Floats] in
theorem mem_orderedReads {deps : AutomationDependencies} {ref : String × String} :
    ref ∈ deps.orderedReads ↔ ref ∈ deps.reads := by
  unfold AutomationDependencies.orderedReads
  simp only [List.mem_map, Finset.mem_sort, Finset.mem_image]
  constructor
  · rintro ⟨_, ⟨r, hr, rfl⟩, rfl⟩
    exact hr
  · exact fun h => ⟨toLex ref, ⟨ref, h, rfl⟩, rfl⟩

omit [Floats] in
theorem emplace_isSome {α : Type} {m : String → Option α} {key k : String} {a : α}
    (h : (m k).isSome) : emplace m key a k = m k := by
  unfold emplace
  split
  · rfl
  · rename_i hn
    have hne : k ≠ key := by
      rintro rfl
      exact hn h
    exact Function.update_of_ne hne _ _

omit [Floats] in
theorem emplace_self_isSome {α : Type} (m : String → Option α) (key : String) (a : α) :
    (emplace m key a key).isSome := by
  unfold emplace
  split
  · assumption
  · simp

omit [Floats] in
theorem emplace_eq_some {α : Type} {m : String → Option α} {key k : String} {a b : α}
    (h : emplace m key a k = some b) : m k = some b ∨ (k = key ∧ b = a) := by
  unfold emplace at h
  split at h
  · exact .inl h
  · by_cases hk : k = key
    · rw [hk, Function.update_self, Option.some.injEq] at h
      exact .inr ⟨hk, h.symm⟩
    · rw [Function.update_of_ne hk] at h
      exact .inl h

/-- Samples are cached ones. -/
def Cached (table : TagTable) (samples : String → Option TagSnapshot) : Prop :=
  ∀ key sample, samples key = some sample → table key = some sample

/-- **A pass without a waiting input** has a sample for every read. -/
theorem freshPass_ok {check : String × String → FreshReadCheck} {table : TagTable}
    (hc : ∀ ref, (check ref).reason = "fresh" →
      table (makeTagKey ref.1 ref.2) = some (check ref).sample)
    {refs : List (String × String)} {acc out : PassAcc} (hacc : Cached table acc.candidate)
    (h : freshPass check refs acc = .ok out) (hw : out.waiting = none) :
    Cached table out.candidate ∧ acc.waiting = none ∧
      (∀ key, (acc.candidate key).isSome → out.candidate key = acc.candidate key) ∧
      ∀ ref ∈ refs, ref.1 ≠ "_system" → (check ref).reason = "fresh" ∧
        (out.candidate (makeTagKey ref.1 ref.2)).isSome := by
  induction refs generalizing acc with
  | nil =>
    cases h
    exact ⟨hacc, hw, fun _ _ => rfl, by simp⟩
  | cons ref refs ih =>
    unfold freshPass at h
    split at h
    · rename_i hsys
      obtain ⟨h1, h2, h3, h4⟩ := ih hacc h
      refine ⟨h1, h2, h3, fun r hr hne => ?_⟩
      rcases List.mem_cons.1 hr with rfl | hr
      · exact absurd hsys hne
      · exact h4 r hr hne
    · dsimp only at h
      split at h
      · rename_i hfresh
        have hcached : Cached table
            (emplace acc.candidate (makeTagKey ref.1 ref.2) (check ref).sample) := by
          intro key sample hk
          rcases emplace_eq_some hk with hk | ⟨rfl, rfl⟩
          · exact hacc key sample hk
          · exact hc ref hfresh
        obtain ⟨h1, h2, h3, h4⟩ := ih hcached h
        have hself := emplace_self_isSome acc.candidate (makeTagKey ref.1 ref.2) (check ref).sample
        refine ⟨h1, h2, fun key hk => ?_, fun r hr hne => ?_⟩
        · have hkept : emplace acc.candidate (makeTagKey ref.1 ref.2) (check ref).sample key
              = acc.candidate key := emplace_isSome hk
          have hk' : (emplace acc.candidate (makeTagKey ref.1 ref.2) (check ref).sample key).isSome := by
            rw [hkept]
            exact hk
          exact (h3 key hk').trans hkept
        · rcases List.mem_cons.1 hr with rfl | hr
          · exact ⟨hfresh, by rw [h3 _ hself]; exact hself⟩
          · exact h4 r hr hne
      · split at h
        · -- a waiting input stays noted
          have hnone := (ih (by exact hacc) h).2.1
          cases hnone
        · cases h

/-! ## Histories -/

/-- The samples of a frame were verified in the state `s`. -/
structure Verified (s : FreshSystem) (f : CycleFrame) (clock : String × String → Nat) : Prop where
  complete : f.script.dependencies.complete = true
  fresh : ∀ ref ∈ f.script.dependencies.reads, ref.1 ≠ "_system" →
    (s.check f clock ref).reason = "fresh" ∧
      f.samples (makeTagKey ref.1 ref.2) = some (s.check f clock ref).sample

/-- The run has a pass that verified the frame, in a state of a revision from that of the frame to
`rev`. -/
def PassedIn (s0 : FreshSystem) (es : List FreshEvent) (f : CycleFrame) (rev : Nat) : Prop :=
  ∃ before clock now after, es = before ++ .pass clock now :: after ∧
    f.revision ≤ (run freshStep s0 before).revision ∧
    (run freshStep s0 before).revision ≤ rev ∧ Verified (run freshStep s0 before) f clock

theorem PassedIn.mono {s0 : FreshSystem} {es : List FreshEvent} {f : CycleFrame} {rev rev' : Nat}
    (h : PassedIn s0 es f rev) (hr : rev ≤ rev') (e : FreshEvent) :
    PassedIn s0 (es ++ [e]) f rev' := by
  obtain ⟨before, clock, now, after, rfl, h1, h2, h3⟩ := h
  exact ⟨before, clock, now, after ++ [e], by simp, h1, h2.trans hr, h3⟩

/-- No sample has got out. -/
def CycleFrame.Empty (f : CycleFrame) : Prop := ∀ key, f.samples key = none

/-- What the history says of the phase. -/
def Behind (s0 : FreshSystem) (es : List FreshEvent) (rev : Nat) : CyclePhase → Prop
  | .idle => True
  | .captured f => f.revision ≤ rev ∧ f.Empty ∧ f.ok = true
  | .checking f => f.revision ≤ rev ∧ f.Empty ∧ f.ok = true ∧ f.script.requireFreshRead = true ∧
      f.script.dependencies.complete = true
  | .passing f => f.revision ≤ rev ∧ f.Empty ∧ f.ok = true ∧ f.script.requireFreshRead = true ∧
      f.script.dependencies.complete = true
  | .returned f => f.revision ≤ rev ∧ (f.ok = false → f.Empty) ∧
      (f.ok = true → PassedIn s0 es f rev)
  | .evaluating f => f.revision ≤ rev ∧ f.ok = true ∧
      (f.script.requireFreshRead = true → PassedIn s0 es f f.revision)
  | .committing f => f.revision ≤ rev ∧ f.ok = false ∧ f.Empty

theorem Behind.mono {s0 : FreshSystem} {es : List FreshEvent} {rev rev' : Nat} {p : CyclePhase}
    (h : Behind s0 es rev p) (hr : rev ≤ rev') (e : FreshEvent) : Behind s0 (es ++ [e]) rev' p := by
  cases p with
  | idle => trivial
  | captured f => exact ⟨h.1.trans hr, h.2⟩
  | checking f => exact ⟨h.1.trans hr, h.2⟩
  | passing f => exact ⟨h.1.trans hr, h.2⟩
  | returned f => exact ⟨h.1.trans hr, h.2.1, fun hok => (h.2.2 hok).mono hr e⟩
  | evaluating f => exact ⟨h.1.trans hr, h.2.1, fun hf => (h.2.2 hf).mono (le_refl _) e⟩
  | committing f => exact ⟨h.1.trans hr, h.2⟩

/-- One pass: it verifies the frame, or nothing gets out. -/
theorem behind_pass {s0 : FreshSystem} {es : List FreshEvent} {f : CycleFrame}
    (clock : String × String → Nat) (now : Nat)
    (h : Behind s0 es (run freshStep s0 es).revision (.passing f)) :
    Behind s0 (es ++ [.pass clock now]) (run freshStep s0 es).revision
      ((run freshStep s0 es).pass f clock now) := by
  obtain ⟨hrev, hempty, hok, hreq, hcomplete⟩ := h
  unfold FreshSystem.pass
  split
  · exact ⟨hrev, fun _ => hempty, fun h => by cases h⟩
  · rename_i acc hacc
    split
    · rename_i hw
      have hc : ∀ ref, ((run freshStep s0 es).check f clock ref).reason = "fresh" →
          (run freshStep s0 es).table (makeTagKey ref.1 ref.2) =
            some ((run freshStep s0 es).check f clock ref).sample :=
        fun ref hf => checkFreshInput_fresh rfl hf
      obtain ⟨hcached, -, -, hall⟩ := freshPass_ok hc (fun key sample hk => by cases hk) hacc hw
      refine ⟨hrev, fun h => ?_, fun _ => ⟨es, clock, now, [], rfl, hrev, le_refl _, hcomplete, ?_⟩⟩
      · rw [show f.ok = false from h] at hok
        cases hok
      · intro ref href hne
        obtain ⟨hfresh, hsome⟩ := hall ref (mem_orderedReads.2 href) hne
        obtain ⟨sample, hs⟩ := Option.isSome_iff_exists.1 hsome
        refine ⟨hfresh, hs.trans ?_⟩
        rw [← hcached _ _ hs]
        exact hc ref hfresh
    · split
      · exact ⟨hrev, fun _ => hempty, fun h => by cases h⟩
      · exact ⟨hrev, hempty, hok, hreq, hcomplete⟩

/-- **One step keeps the history.** -/
theorem history_step {s0 : FreshSystem} {es : List FreshEvent} (e : FreshEvent)
    (h : Behind s0 es (run freshStep s0 es).revision (run freshStep s0 es).phase) :
    Behind s0 (es ++ [e]) (freshStep (run freshStep s0 es) e).revision
      (freshStep (run freshStep s0 es) e).phase := by
  have hpass : ∀ clock now f, (run freshStep s0 es).phase = .passing f →
      Behind s0 (es ++ [.pass clock now]) (run freshStep s0 es).revision
        ((run freshStep s0 es).pass f clock now) := by
    intro clock now f hp
    rw [hp] at h
    exact behind_pass clock now h
  generalize run freshStep s0 es = s at h hpass
  have hsame : ∀ e, Behind s0 (es ++ [e]) s.revision s.phase := fun e => h.mono (le_refl _) e
  cases e with
  | replace => exact h.mono (Nat.le_succ _) _
  | environment drivers table => exact hsame _
  | capture script =>
    simp only [freshStep]
    split
    · exact ⟨le_refl _, fun _ => rfl, rfl⟩
    · exact hsame _
  | acquire available now =>
    simp only [freshStep]
    split
    · rename_i f hp
      rw [hp] at h
      obtain ⟨hrev, hempty, hok⟩ := h
      unfold CycleFrame.start
      split
      · rename_i hreq
        exact ⟨hrev, hok, fun h => by simp [h] at hreq⟩
      split
      · exact ⟨hrev, fun _ => hempty, fun h => by cases h⟩
      split
      · exact ⟨hrev, fun _ => hempty, fun h => by cases h⟩
      · rename_i hreq _ hcomplete
        exact ⟨hrev, hempty, hok, by simpa using hreq, by simpa using hcomplete⟩
    · exact hsame _
  | checkRevision =>
    simp only [freshStep]
    split
    · rename_i f hp
      rw [hp] at h
      split
      · exact ⟨h.1, fun _ => h.2.1, fun h => by cases h⟩
      · exact ⟨h.1, h.2⟩
    · exact hsame _
  | pass clock now =>
    simp only [freshStep]
    split
    · exact hpass clock now _ ‹_›
    · exact hsame _
  | recheck =>
    simp only [freshStep]
    split
    · rename_i f hp
      rw [hp] at h
      split
      · trivial
      · rename_i hrev
        rw [ne_eq, not_not] at hrev
        split
        · rename_i hok
          refine ⟨h.1, hok, fun _ => ?_⟩
          rw [← hrev]
          exact (h.2.2 hok).mono (le_refl _) _
        · rename_i hok
          have hok : f.ok = false := by simpa using hok
          exact ⟨h.1, hok, h.2.1 hok⟩
    · exact hsame _
  | evaluate write =>
    simp only [freshStep]
    split
    · exact hsame _
    · exact hsame _
  | finish =>
    simp only [freshStep]
    split
    · trivial
    · trivial
    · exact hsame _

/-! ## The result -/

/-- The state before a run: no cycle is under way. -/
def FreshSystem.start (revision : Nat) (drivers : List DriverContext) (table : TagTable) :
    FreshSystem :=
  { revision := revision, drivers := drivers, table := table }

theorem freshStep_writes {s : FreshSystem} {e : FreshEvent} (he : ∀ write, e ≠ .evaluate write) :
    (freshStep s e).writes = s.writes := by
  cases e with
  | evaluate write => exact absurd rfl (he write)
  | checkRevision =>
    simp only [freshStep]
    split
    · split <;> rfl
    · rfl
  | recheck =>
    simp only [freshStep]
    split
    · split
      · rfl
      · split <;> rfl
    · rfl
  | _ =>
    simp only [freshStep]
    try split <;> rfl

end

end OpcBridge
