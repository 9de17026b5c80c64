import OpcBridge.Historian.Config
import OpcBridge.Historian.Flush
import OpcBridge.Lib.Assign
import OpcBridge.Lib.Run

/-!
# What the historian records

The snapshot worker fetches `/tags` and enqueues samples of the rules that are due, or without rules
of the subscribed keys; the live-update handler enqueues updates of tags with a rule that is not
periodic. The worker records a tag in some run exactly if it selects it (`snapshotMayRecord_iff`),
and the handler never records one (`not_liveMayRecord`).
-/

namespace OpcBridge.Historian

open Lib
open Alarms (Json JsonLib)

section
variable [Floats]

/-- `std::stod` of a text that it reads to the end. -/
class WholeText where
  stodAll : String → Option F64

/-- `std::abs` of a double. -/
def absF64 (x : F64) : F64 :=
  if Floats.lt x (Floats.ofInt 0) then Floats.sub (Floats.ofInt 0) x else x

/-- `a <= b` -/
def leF64 (a b : F64) : Bool := Floats.lt a b || Floats.eq a b

end

/-! ## Samples -/

section
variable [Floats] [JsonLib] [WholeText]

/-- The double, the text and the JSON text of a value. -/
def valueToFields (v : Json) : Option F64 × Option String × Option String :=
  let text := if v.isNull then none else some (JsonLib.dump v)
  match v with
  | .bool b => (some (Floats.ofInt (if b then 1 else 0)), none, text)
  | .string s => (WholeText.stodAll s, some s, text)
  | v => (v.number, none, text)

/-- `get<int>()` of an integer, and none for another type. -/
def qualityOf (t : Json) : Option Int :=
  match t.find "quality" with
  | some (.int n) => some (Int32.ofInt n).toInt
  | some (.uint n) => some (Int32.ofNat n).toInt
  | _ => none

def sampleFromTagJson (t : Json) (source : String) (now : Int) : Except String (Option Sample) :=
  if !t.isObject then .ok none
  else do
    let conn ← t.valueString "connection_id" ""
    let name ← t.valueString "name" ""
    if conn = "" ∨ name = "" then .ok none
    else
      let fields := ((t.find "value").map valueToFields).getD (none, none, none)
      .ok (some {
        tsMs := match t.find "timestamp_ms" with
          | some (.int n) => n
          | some (.uint n) => (Int64.ofNat n).toInt
          | _ => now
        connectionId := conn
        tagName := name
        datatype := match t.find "datatype" with
          | some (.string s) => some s
          | _ => none
        quality := qualityOf t
        valueDouble := fields.1
        valueText := fields.2.1
        valueJson := fields.2.2
        source := source })

end

/-! ## The snapshot worker -/

section
variable [Floats]

structure SnapshotWorker where
  nextDueByKey : String → Option Int := fun _ => none
  lastValueByKey : String → Option F64 := fun _ => none
  /-- `SnapshotLifecycleRetry::started_`, in nanoseconds. -/
  lifecycleRetry : String → Option Int := fun _ => none

/-- What a pass of the worker meets. -/
structure SnapshotInput where
  /-- The configuration was reloaded since the last pass. -/
  reloaded : Bool := false
  started : Int
  now : Int
  /-- The steady clock. -/
  clock : Int
  /-- The body of `/tags`, none if the request fails; another body than JSON is null. -/
  answer : Option Json

/-- `SnapshotLifecycleRetry::retry` -/
def SnapshotWorker.retry (w : SnapshotWorker) (key : String) (cold : Bool) (clock : Int) :
    SnapshotWorker × Bool :=
  if !cold then ({ w with lifecycleRetry := Function.update w.lifecycleRetry key none }, false)
  else
    let first := (w.lifecycleRetry key).getD clock
    ({ w with lifecycleRetry := Function.update w.lifecycleRetry key (some first) },
      decide (clock - first < 5000000000))

/-- The rules that are due, by key. -/
def dueRules (w : SnapshotWorker) (started : Int) (rules : List HistorianTagRule) :
    List (String × HistorianTagRule) :=
  (rules.filter fun rule => rule.enabled && rule.mode == "periodic" &&
    !decide (started < (w.nextDueByKey (tagKey rule.connectionId rule.tagName)).getD started)).map
      fun rule => (tagKey rule.connectionId rule.tagName, rule)

/-- After `dueRules` each of them is due an interval later. -/
def SnapshotWorker.schedule (w : SnapshotWorker) (started : Int)
    (due : List (String × HistorianTagRule)) : SnapshotWorker :=
  { w with
    nextDueByKey := assignAll w.nextDueByKey
      (due.map fun entry => (entry.1, started + max 1000 entry.2.intervalMs)) }

/-- What the checks of a rule make of a sample. -/
def recordDue (w : SnapshotWorker) (rule : HistorianTagRule) (key : String) (s : Sample)
    (state : String) (input : SnapshotInput) : SnapshotWorker × Option Sample :=
  let bad := s.quality.any (· ≠ 1)
  let cold := bad && (state = "inactive" || state = "waiting")
  let (w, again) := w.retry key cold input.clock
  if again then
    ({ w with nextDueByKey := Function.update w.nextDueByKey key (some (input.now + 250)) }, none)
  else if !rule.includeBadQuality && bad then (w, none)
  else match s.valueDouble with
    | none => (w, none)
    | some v =>
      let deadband := maxZero rule.deadband
      if Floats.lt (Floats.ofInt 0) deadband &&
          (w.lastValueByKey key).any fun last => leF64 (absF64 (Floats.sub v last)) deadband then
        (w, none)
      else
        ({ w with lastValueByKey := Function.update w.lastValueByKey key (some v) }, some s)

/-- The keys that are recorded without rules; none stands for all tags. -/
def AppCfg.subscribedKeys (cfg : AppCfg) (resolvedKeys : List String) : List String :=
  if cfg.subscribeMode = "list" then cfg.tags
  else if cfg.subscribeMode = "patterns" then resolvedKeys
  else []

end

section
variable [Floats] [JsonLib] [WholeText]

/-- A row of `/tags`. -/
def recordTag (due : List (String × HistorianTagRule)) (want : List String) (input : SnapshotInput)
    (w : SnapshotWorker) (t : Json) : Except String (SnapshotWorker × Option Sample) := do
  match ← sampleFromTagJson t "snapshot" input.now with
  | none => .ok (w, none)
  | some s =>
    let key := tagKey s.connectionId s.tagName
    if due.isEmpty then
      .ok (w, if !want.isEmpty && !want.contains key then none else some s)
    else match lastValue key due with
      | none => .ok (w, none)
      | some rule => do
        let state ← t.valueString "polling_state" ""
        .ok (recordDue w rule key s state input)

/-- The rows one after the other; an exception ends the worker. -/
def recordTags (due : List (String × HistorianTagRule)) (want : List String)
    (input : SnapshotInput) : List Json → SnapshotWorker → List Sample × Except String SnapshotWorker
  | [], w => ([], .ok w)
  | t :: ts, w =>
    match recordTag due want input w t with
    | .error e => ([], .error e)
    | .ok (w, s) =>
      let rest := recordTags due want input ts w
      (s.toList ++ rest.1, rest.2)

/-- A pass of the worker: what it enqueues, and its state after it. -/
def snapshotPass (cfg : AppCfg) (resolvedKeys : List String) (w : SnapshotWorker)
    (input : SnapshotInput) : List Sample × Except String SnapshotWorker :=
  let w := if input.reloaded then {} else w
  if !cfg.enabled || (cfg.historianTags.isEmpty && !cfg.snapshot.enabled) then ([], .ok w)
  else
    let due := dueRules w input.started cfg.historianTags
    let w := w.schedule input.started due
    if !cfg.historianTags.isEmpty && due.isEmpty then ([], .ok w)
    else match input.answer with
      | none => ([], .ok { w with lifecycleRetry := fun _ => none })
      | some body =>
        let want := if cfg.historianTags.isEmpty then cfg.subscribedKeys resolvedKeys else []
        recordTags due want input ((body.memberItems "tags").getD []) w

/-- The passes one after the other. -/
def snapshotStep (cfg : AppCfg) (resolvedKeys : List String)
    (st : List Sample × Except String SnapshotWorker) (input : SnapshotInput) :
    List Sample × Except String SnapshotWorker :=
  match st.2 with
  | .error e => (st.1, .error e)
  | .ok w =>
    let pass := snapshotPass cfg resolvedKeys w input
    (st.1 ++ pass.1, pass.2)

/-- In some run the worker enqueues a sample of the tag. -/
def SnapshotMayRecord (cfg : AppCfg) (resolvedKeys : List String) (cid name : String) : Prop :=
  ∃ inputs, ∃ s ∈ (run (snapshotStep cfg resolvedKeys) ([], .ok {}) inputs).1,
    s.connectionId = cid ∧ s.tagName = name

/-! ## The live-update handler -/

structure TagState where
  lastLoggedMs : Int := 0
  lastLoggedDouble : Option F64 := none
  lastLoggedJson : Option String := none
  lastLoggedQuality : Option Int := none

def Sample.logged (s : Sample) : TagState where
  lastLoggedMs := s.tsMs
  lastLoggedDouble := s.valueDouble
  lastLoggedJson := s.valueJson
  lastLoggedQuality := s.quality

def shouldLogSample (cfg : ChangeOnlyCfg) (s : Sample) (st : TagState) : Bool :=
  if !cfg.enabled then true
  else
    let since := s.tsMs - st.lastLoggedMs
    let maxElapsed := st.lastLoggedMs == 0 || decide (cfg.maxIntervalMs ≤ since)
    let minElapsed := st.lastLoggedMs == 0 || decide (cfg.minIntervalMs ≤ since)
    let changed := s.quality != st.lastLoggedQuality ||
      match s.valueDouble, st.lastLoggedDouble with
      | some v, some last => Floats.lt cfg.deadband (absF64 (Floats.sub v last))
      | none, none => s.valueJson.getD "" != st.lastLoggedJson.getD ""
      | _, _ => true
    (changed && minElapsed) || maxElapsed

/-- A message of the stream. -/
def liveUpdate (cfg : AppCfg) (states : String → TagState) (now : Int) (payload : Json) :
    Except String ((String → TagState) × Option Sample) :=
  if !payload.isObject then .ok (states, none)
  else do
    let type ← payload.valueString "type" ""
    if type ≠ "tag_update" then .ok (states, none)
    else
      let conn ← payload.valueString "connection_id" ""
      let name ← payload.valueString "name" ""
      if conn = "" ∨ name = "" then .ok (states, none)
      else match cfg.historianTags.find? fun rule =>
          rule.enabled && rule.connectionId == conn && rule.tagName == name with
        | none => .ok (states, none)
        | some selectedRule =>
          if selectedRule.mode = "periodic" then .ok (states, none)
          else do
            let ts ← payload.valueLong "timestamp_ms" now
            let fields := ((payload.find "value").map valueToFields).getD (none, none, none)
            let s : Sample := {
              tsMs := ts
              connectionId := conn
              tagName := name
              datatype := match payload.find "datatype" with
                | some (.string s) => some s
                | _ => none
              quality := qualityOf payload
              valueDouble := fields.1
              valueText := fields.2.1
              valueJson := fields.2.2
              source := "ws" }
            let key := tagKey conn name
            if shouldLogSample cfg.changeOnly s (states key) then
              .ok (Function.update states key s.logged, some s)
            else .ok (states, none)

/-- In some state the handler enqueues a sample of the tag. -/
def LiveMayRecord (cfg : AppCfg) (cid name : String) : Prop :=
  ∃ states now payload states' s, liveUpdate cfg states now payload = .ok (states', some s) ∧
    s.connectionId = cid ∧ s.tagName = name

/-! ## What may be recorded -/

/-- The worker selects the tag: a rule has its key, or without rules a subscribed key is its. -/
structure Selects (cfg : AppCfg) (resolvedKeys : List String) (cid name : String) : Prop where
  enabled : cfg.enabled = true
  rules : cfg.historianTags ≠ [] → tagKey cid name ∈ cfg.ruleKeys
  keys : cfg.historianTags = [] → cfg.snapshot.enabled = true ∧
    (cfg.subscribedKeys resolvedKeys = [] ∨ tagKey cid name ∈ cfg.subscribedKeys resolvedKeys)

variable {cfg : AppCfg} {resolvedKeys : List String} {cid name : String} {w : SnapshotWorker}
  {input : SnapshotInput} {due : List (String × HistorianTagRule)} {want : List String} {s : Sample}

omit [JsonLib] [WholeText] in
theorem mem_ruleKeys {key : String} : key ∈ cfg.ruleKeys ↔
    ∃ rule ∈ cfg.historianTags, rule.enabled = true ∧ tagKey rule.connectionId rule.tagName = key := by
  unfold AppCfg.ruleKeys
  simp only [List.mem_map, List.mem_filter, Bool.and_eq_true, decide_eq_true_eq]
  constructor
  · rintro ⟨rule, ⟨hrule, ⟨hen, -⟩, -⟩, rfl⟩
    exact ⟨rule, hrule, hen, rfl⟩
  · rintro ⟨rule, hrule, hen, rfl⟩
    exact ⟨rule, ⟨hrule, ⟨hen, rule.named.1⟩, rule.named.2⟩, rfl⟩

omit [JsonLib] [WholeText] in
theorem mem_dueRules {started : Int} {entry : String × HistorianTagRule}
    (h : entry ∈ dueRules w started cfg.historianTags) : entry.1 ∈ cfg.ruleKeys := by
  obtain ⟨rule, hrule, rfl⟩ := List.mem_map.1 h
  obtain ⟨hrule, hdue⟩ := List.mem_filter.1 hrule
  simp only [Bool.and_eq_true] at hdue
  exact mem_ruleKeys.2 ⟨rule, hrule, hdue.1.1, rfl⟩

omit [JsonLib] [WholeText] in
theorem recordDue_eq {rule : HistorianTagRule} {key state : String} {s' : Sample}
    (h : (recordDue w rule key s state input).2 = some s') : s' = s := by
  unfold recordDue at h
  dsimp only at h
  split at h
  · cases h
  · split at h
    · cases h
    · split at h
      · cases h
      · split at h
        · cases h
        · exact (Option.some.inj h).symm

/-- The keys that a pass is after. -/
def Wanted (due : List (String × HistorianTagRule)) (want : List String) (key : String) : Prop :=
  (due ≠ [] → ∃ entry ∈ due, entry.1 = key) ∧ (due = [] → want = [] ∨ key ∈ want)

theorem recordTag_wanted {t : Json} {w' : SnapshotWorker}
    (h : recordTag due want input w t = .ok (w', some s)) :
    Wanted due want (tagKey s.connectionId s.tagName) := by
  unfold recordTag at h
  cases hsample : sampleFromTagJson t "snapshot" input.now with
  | error e =>
    rw [hsample] at h
    cases h
  | ok sample =>
    rw [hsample] at h
    cases sample with
    | none => cases h
    | some s' =>
      dsimp only [bind, Except.bind] at h
      by_cases hdue : due.isEmpty = true
      · rw [if_pos hdue] at h
        have hnil := List.isEmpty_iff.1 hdue
        refine ⟨fun hne => absurd hnil hne, fun _ => ?_⟩
        split at h
        · cases h
        · rename_i hwant
          cases h
          cases want with
          | nil => exact .inl rfl
          | cons key want =>
            have hmem : (key :: want).contains (tagKey s.connectionId s.tagName) = true := by
              simpa only [List.isEmpty_cons, Bool.not_false, Bool.true_and, Bool.not_eq_true',
                Bool.not_eq_false] using hwant
            exact .inr (List.contains_iff_mem.1 hmem)
      · rw [if_neg hdue] at h
        refine ⟨fun _ => ?_, fun hnil => absurd (List.isEmpty_iff.2 hnil) hdue⟩
        cases hrule : lastValue (tagKey s'.connectionId s'.tagName) due with
        | none =>
          rw [hrule] at h
          cases h
        | some rule =>
          rw [hrule] at h
          dsimp only at h
          cases hstate : t.valueString "polling_state" "" with
          | error e =>
            rw [hstate] at h
            cases h
          | ok state =>
            rw [hstate] at h
            dsimp only at h
            have hs := recordDue_eq (congrArg Prod.snd (Except.ok.inj h))
            rw [hs]
            exact ⟨_, mem_of_lastValue hrule, rfl⟩

theorem mem_recordTags {t : Json} {ts : List Json} {w' : SnapshotWorker}
    (h : recordTag due want input w t = .ok (w', some s)) :
    s ∈ (recordTags due want input (t :: ts) w).1 := by
  rw [recordTags, h]
  exact List.mem_append_left _ (by simp)

/-- By induction on the rows. -/
theorem recordTags_wanted {ts : List Json} (h : s ∈ (recordTags due want input ts w).1) :
    Wanted due want (tagKey s.connectionId s.tagName) := by
  induction ts generalizing w with
  | nil => cases h
  | cons t ts ih =>
    rw [recordTags] at h
    split at h
    · cases h
    · rename_i w' sample hrecord
      obtain h | h := List.mem_append.1 h
      · rw [Option.mem_toList.1 h] at hrecord
        exact recordTag_wanted hrecord
      · exact ih h

/-- A pass records only what is selected. -/
theorem snapshotPass_selects (h : s ∈ (snapshotPass cfg resolvedKeys w input).1) :
    Selects cfg resolvedKeys s.connectionId s.tagName := by
  unfold snapshotPass at h
  generalize (if input.reloaded = true then ({} : SnapshotWorker) else w) = w at h
  dsimp only at h
  split at h
  · cases h
  rename_i hrun
  split at h
  · cases h
  rename_i hdue
  split at h
  · cases h
  have hwanted := recordTags_wanted h
  simp only [Bool.or_eq_true, Bool.not_eq_true', Bool.and_eq_true, not_or, not_and,
    Bool.not_eq_false, List.isEmpty_iff] at hrun hdue
  refine ⟨hrun.1, fun hrules => ?_, fun hrules => ?_⟩
  · have hne := hdue (by simpa using hrules)
    obtain ⟨entry, hentry, hkey⟩ := hwanted.1 (by simpa using hne)
    rw [← hkey]
    exact mem_dueRules hentry
  · have hnil : dueRules w input.started cfg.historianTags = [] := by
      rw [hrules]
      rfl
    have hkeys := hwanted.2 hnil
    rw [hrules] at hkeys
    exact ⟨hrun.2 hrules, hkeys⟩

theorem run_selects (inputs : List SnapshotInput) :
    ∀ s ∈ (run (snapshotStep cfg resolvedKeys) ([], .ok {}) inputs).1,
      Selects cfg resolvedKeys s.connectionId s.tagName := by
  refine run_induct (I := fun st : List Sample × Except String SnapshotWorker =>
    ∀ s ∈ st.1, Selects cfg resolvedKeys s.connectionId s.tagName) ?_ ?_ inputs
  · intro st input h s hs
    unfold snapshotStep at hs
    split at hs
    · exact h s hs
    · obtain hs | hs := List.mem_append.1 hs
      · exact h s hs
      · exact snapshotPass_selects hs
  · intro s hs
    cases hs

/-- A row of `/tags` of good quality. -/
def seenTag (cid name : String) : Json :=
  .object [("connection_id", .string cid), ("name", .string name), ("quality", .int 1),
    ("value", .int 0)]

def seenSample (cid name : String) : Sample where
  connectionId := cid
  tagName := name
  quality := some 1
  valueDouble := some (Floats.ofInt 0)
  valueJson := some (JsonLib.dump (.int 0))
  source := "snapshot"

/-- The first pass of the worker, with one row. -/
def firstPass (cid name : String) : SnapshotInput where
  started := 0
  now := 0
  clock := 0
  answer := some (.object [("tags", .array [seenTag cid name])])

theorem sampleFromTagJson_seen (hcid : cid ≠ "") (hname : name ≠ "") :
    sampleFromTagJson (seenTag cid name) "snapshot" 0 = .ok (some (seenSample cid name)) := by
  have hconn : (seenTag cid name).valueString "connection_id" "" = .ok cid := rfl
  have hnam : (seenTag cid name).valueString "name" "" = .ok name := rfl
  unfold sampleFromTagJson
  rw [hconn, hnam]
  dsimp only [bind, Except.bind]
  rw [if_neg (by simp [seenTag, Json.isObject]), if_neg (by simp [hcid, hname])]
  rfl

omit [WholeText] in
/-- A sample of good quality passes the checks of every rule that has recorded nothing yet. -/
theorem recordDue_seen {rule : HistorianTagRule} {key state : String}
    (hlast : w.lastValueByKey key = none) :
    (recordDue w rule key (seenSample cid name) state input).2 = some (seenSample cid name) := by
  unfold recordDue
  simp [SnapshotWorker.retry, hlast, seenSample]

omit [JsonLib] [WholeText] in
theorem dueRules_ne (hkey : tagKey cid name ∈ cfg.ruleKeys) :
    ∃ rule, lastValue (tagKey cid name) (dueRules {} 0 cfg.historianTags) = some rule := by
  obtain ⟨rule, hrule, hen, hk⟩ := mem_ruleKeys.1 hkey
  have hmem : (tagKey cid name, rule) ∈ dueRules {} 0 cfg.historianTags := by
    refine List.mem_map.2 ⟨rule, List.mem_filter.2 ⟨hrule, ?_⟩, by rw [hk]⟩
    simp [hen, rule.periodic]
  cases hlast : lastValue (tagKey cid name) (dueRules {} 0 cfg.historianTags) with
  | none => exact absurd (List.mem_map_of_mem hmem) (lastValue_eq_none.1 hlast)
  | some rule => exact ⟨rule, rfl⟩

theorem recordTag_seen (hcid : cid ≠ "") (hname : name ≠ "") (hnow : input.now = 0)
    (hrule : due ≠ [] → ∃ rule, lastValue (tagKey cid name) due = some rule)
    (hwant : due = [] → want = [] ∨ tagKey cid name ∈ want)
    (hlast : w.lastValueByKey (tagKey cid name) = none) :
    ∃ w', recordTag due want input w (seenTag cid name) = .ok (w', some (seenSample cid name)) := by
  unfold recordTag
  rw [hnow, sampleFromTagJson_seen hcid hname]
  dsimp only [bind, Except.bind]
  by_cases hdue : due = []
  · rw [if_pos (by simp [hdue])]
    refine ⟨w, ?_⟩
    obtain rfl | hmem := hwant hdue
    · rfl
    · have hcontains : want.contains (tagKey cid name) = true := List.contains_iff_mem.2 hmem
      have hkey : want.contains (tagKey (seenSample cid name).connectionId
        (seenSample cid name).tagName) = true := hcontains
      rw [hkey, if_neg (by simp)]
  · rw [if_neg (by simpa using hdue)]
    obtain ⟨rule, hlookup⟩ := hrule hdue
    have hkey : lastValue (tagKey (seenSample cid name).connectionId
      (seenSample cid name).tagName) due = some rule := hlookup
    have hstate : (seenTag cid name).valueString "polling_state" "" = .ok "" := rfl
    rw [hkey, hstate]
    refine ⟨_, congrArg Except.ok (Prod.ext rfl ?_)⟩
    exact recordDue_seen hlast

/-- The first pass records a selected tag. -/
theorem firstPass_records (h : Selects cfg resolvedKeys cid name) (hcid : cid ≠ "")
    (hname : name ≠ "") :
    seenSample cid name ∈ (snapshotPass cfg resolvedKeys {} (firstPass cid name)).1 := by
  have hnil : cfg.historianTags = [] → dueRules {} 0 cfg.historianTags = [] := by
    intro hrules
    rw [hrules]
    rfl
  have hdue : dueRules {} 0 cfg.historianTags ≠ [] →
      ∃ rule, lastValue (tagKey cid name) (dueRules {} 0 cfg.historianTags) = some rule :=
    fun hne => dueRules_ne (h.rules fun hrules => hne (hnil hrules))
  have hwant : dueRules {} 0 cfg.historianTags = [] →
      (if cfg.historianTags.isEmpty then cfg.subscribedKeys resolvedKeys else []) = [] ∨
        tagKey cid name ∈ if cfg.historianTags.isEmpty then cfg.subscribedKeys resolvedKeys
          else [] := by
    intro hnone
    by_cases hrules : cfg.historianTags = []
    · rw [if_pos (by simp [hrules])]
      exact (h.keys hrules).2
    · exact .inl (if_neg (by simpa using hrules))
  obtain ⟨w', hrecord⟩ := @recordTag_seen _ _ _ cid name
    (({} : SnapshotWorker).schedule 0 (dueRules {} 0 cfg.historianTags)) (firstPass cid name)
    _ _ hcid hname rfl hdue hwant rfl
  unfold snapshotPass
  dsimp only
  rw [if_neg, if_neg]
  · exact mem_recordTags hrecord
  · intro hnone
    simp only [Bool.and_eq_true, Bool.not_eq_true', List.isEmpty_iff] at hnone
    obtain ⟨rule, hrule⟩ := dueRules_ne (h.rules (by simpa using hnone.1))
    have hempty : dueRules {} 0 cfg.historianTags = [] := hnone.2
    rw [hempty] at hrule
    cases hrule
  · intro hstop
    simp only [Bool.or_eq_true, Bool.and_eq_true, Bool.not_eq_true', List.isEmpty_iff, h.enabled,
      Bool.true_eq_false, false_or] at hstop
    rw [(h.keys hstop.1).1] at hstop
    cases hstop.2

theorem snapshotMayRecord_iff (hcid : cid ≠ "") (hname : name ≠ "") :
    SnapshotMayRecord cfg resolvedKeys cid name ↔ Selects cfg resolvedKeys cid name := by
  constructor
  · rintro ⟨inputs, s, hs, rfl, rfl⟩
    exact run_selects inputs s hs
  · intro h
    refine ⟨[firstPass cid name], seenSample cid name, ?_, rfl, rfl⟩
    exact List.mem_append_right _ (firstPass_records h hcid hname)

/-- No rule has another mode, so the handler stops at every tag with a rule. -/
theorem not_liveMayRecord : ¬ LiveMayRecord cfg cid name := by
  rintro ⟨states, now, payload, states', s, h, -⟩
  unfold liveUpdate at h
  split at h
  · cases h
  cases htype : payload.valueString "type" "" with
  | error e =>
    rw [htype] at h
    cases h
  | ok type =>
    rw [htype] at h
    dsimp only [bind, Except.bind] at h
    split at h
    · cases h
    cases hconn : payload.valueString "connection_id" "" with
    | error e =>
      rw [hconn] at h
      cases h
    | ok conn =>
      cases hname : payload.valueString "name" "" with
      | error e =>
        rw [hconn, hname] at h
        cases h
      | ok name =>
        rw [hconn, hname] at h
        dsimp only at h
        split at h
        · cases h
        split at h
        · cases h
        · rename_i rule _
          -- the mode of every rule
          rw [if_pos rule.periodic] at h
          cases h

end

end OpcBridge.Historian
