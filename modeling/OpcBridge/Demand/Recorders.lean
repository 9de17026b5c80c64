import OpcBridge.Historian.Recording
import OpcBridge.Logger.Demand

/-!
# Recorded tags are demanded

A tag that is recorded but not demanded freezes when its polling is suspended. The historian demands
what it may record if its message is accepted (`historian_agrees_iff`); without rules an empty list of
keys stands for all tags to the snapshot worker and for none in the message. With the logger's part
this is `recorded_demanded_iff`.
-/

namespace OpcBridge.Historian

open Alarms (Json JsonLib)

section
variable [Floats]

/-- What `historian_demand_registration` says of all tags and of keys. -/
def registeredKeys (cfg : AppCfg) (resolvedKeys : List String) : Bool × List String :=
  if !cfg.enabled then (false, [])
  else if !cfg.historianTags.isEmpty then (false, cfg.ruleKeys)
  else if cfg.snapshot.enabled then
    if cfg.subscribeMode = "all" then (true, []) else (false, cfg.subscribedKeys resolvedKeys)
  else (false, [])

/-- The message demands the key. -/
structure KeyDemanded (allTags : Bool) (keys : List String) (key : String) : Prop where
  accepted : KeysAccepted keys
  covered : allTags = true ∨ key ∈ keys

variable {cfg : AppCfg} {resolvedKeys : List String} {cid name : String}

theorem registration_tags :
    (historianDemandRegistration cfg resolvedKeys).find "all_tags" =
        some (.bool (registeredKeys cfg resolvedKeys).1) ∧
      (historianDemandRegistration cfg resolvedKeys).find "tags" =
        some (.array ((registeredKeys cfg resolvedKeys).2.map .string)) := by
  unfold historianDemandRegistration registeredKeys AppCfg.subscribedKeys
  by_cases hen : cfg.enabled = true
  · by_cases hrules : cfg.historianTags.isEmpty = true
    · by_cases hsnap : cfg.snapshot.enabled = true
      · by_cases hall : cfg.subscribeMode = "all"
        · simp [hen, hrules, hsnap, hall, Json.find, List.lookup_cons]
        · by_cases hlist : cfg.subscribeMode = "list"
          · simp [hen, hrules, hsnap, hlist, Json.find, List.lookup_cons]
          · by_cases hpatterns : cfg.subscribeMode = "patterns"
            · simp [hen, hrules, hsnap, hpatterns, Json.find, List.lookup_cons]
            · simp [hen, hrules, hsnap, hall, hlist, hpatterns, Json.find, List.lookup_cons]
      · simp [hen, hrules, hsnap, Json.find, List.lookup_cons]
    · simp [hen, hrules, Json.find, List.lookup_cons]
  · simp [hen, Json.find, List.lookup_cons]

theorem registration_demands :
    MessageDemands (historianDemandRegistration cfg resolvedKeys) cid name ↔
      KeyDemanded (registeredKeys cfg resolvedKeys).1 (registeredKeys cfg resolvedKeys).2
        (tagKey cid name) := by
  obtain ⟨hall, htags⟩ := @registration_tags _ cfg resolvedKeys
  have hpatterns : (historianDemandRegistration cfg resolvedKeys).find "patterns" = none := rfl
  rw [messageDemands_iff rfl (by decide) rfl,
    registeredScope_eq hall htags (.inr ⟨hpatterns, rfl⟩) (by simp)]
  by_cases hacc : KeysAccepted (registeredKeys cfg resolvedKeys).2
  · rw [if_pos ⟨hacc, by simp⟩]
    constructor
    · rintro ⟨scope, hscope, hcovers⟩
      cases hscope
      refine ⟨hacc, ?_⟩
      simpa [ConsumerScope.Covers, tagKey] using hcovers
    · intro h
      refine ⟨_, rfl, ?_⟩
      simpa [ConsumerScope.Covers, tagKey] using h.covered
  · rw [if_neg fun h => hacc h.1]
    constructor
    · rintro ⟨scope, h, -⟩
      cases h
    · intro h
      exact absurd h.accepted hacc

end

section
variable [Floats] [JsonLib] [WholeText]

/-- The tags that the snapshot worker or the live-update handler may record are those that the
registration demands. -/
def RecordsWhatItDemands (cfg : AppCfg) (resolvedKeys : List String) : Prop :=
  ∀ cid name, cid ≠ "" → name ≠ "" →
    ((SnapshotMayRecord cfg resolvedKeys cid name ∨ LiveMayRecord cfg cid name) ↔
      MessageDemands (historianDemandRegistration cfg resolvedKeys) cid name)

/-- A list of keys that stands for the same tags to the worker and in the message. -/
structure KeysFit (keys : List String) : Prop where
  nonempty : keys ≠ []
  /-- A refused message is harmless only if the keys name no tag. -/
  accepted : KeysAccepted keys ∨ ∀ cid name, cid ≠ "" → name ≠ "" → tagKey cid name ∉ keys

structure HistorianFits (cfg : AppCfg) (resolvedKeys : List String) : Prop where
  rules : cfg.enabled = true → cfg.historianTags ≠ [] → KeysAccepted cfg.ruleKeys
  keys : cfg.enabled = true → cfg.historianTags = [] → cfg.snapshot.enabled = true →
    cfg.subscribeMode = "all" ∨ KeysFit (cfg.subscribedKeys resolvedKeys)

variable {cfg : AppCfg} {resolvedKeys : List String} {cid name : String}

theorem records_iff (hcid : cid ≠ "") (hname : name ≠ "") :
    (SnapshotMayRecord cfg resolvedKeys cid name ∨ LiveMayRecord cfg cid name) ↔
      Selects cfg resolvedKeys cid name := by
  rw [snapshotMayRecord_iff hcid hname]
  exact or_iff_left not_liveMayRecord

omit [JsonLib] [WholeText] in
/-- With rules. -/
theorem registeredKeys_rules (hen : cfg.enabled = true) (hrules : cfg.historianTags ≠ []) :
    registeredKeys cfg resolvedKeys = (false, cfg.ruleKeys) := by
  unfold registeredKeys
  rw [if_neg (by simp [hen]), if_pos (by simpa using hrules)]

omit [JsonLib] [WholeText] in
/-- Without rules. -/
theorem registeredKeys_snapshot (hen : cfg.enabled = true) (hrules : cfg.historianTags = [])
    (hsnap : cfg.snapshot.enabled = true) :
    registeredKeys cfg resolvedKeys =
      if cfg.subscribeMode = "all" then (true, []) else (false, cfg.subscribedKeys resolvedKeys) := by
  unfold registeredKeys
  rw [if_neg (by simp [hen]), if_neg (by simp [hrules]), if_pos hsnap]

omit [JsonLib] [WholeText] in
/-- Nothing runs without `enabled`, or without rules and snapshots. -/
theorem registeredKeys_idle (h : cfg.enabled = true → cfg.historianTags = [] ∧
    cfg.snapshot.enabled = false) : registeredKeys cfg resolvedKeys = (false, []) := by
  unfold registeredKeys
  by_cases hen : cfg.enabled = true
  · obtain ⟨hrules, hsnap⟩ := h hen
    simp [hrules, hsnap]
  · simp [hen]

theorem agree_rules (hen : cfg.enabled = true) (hrules : cfg.historianTags ≠ []) :
    RecordsWhatItDemands cfg resolvedKeys ↔ KeysAccepted cfg.ruleKeys := by
  have hselects : ∀ cid name, Selects cfg resolvedKeys cid name ↔ tagKey cid name ∈ cfg.ruleKeys :=
    fun cid name => ⟨fun h => h.rules hrules, fun h => ⟨hen, fun _ => h, fun hnil =>
      absurd hnil hrules⟩⟩
  constructor
  · intro h
    by_cases hnil : cfg.ruleKeys = []
    · rw [hnil]
      exact keysAccepted_nil
    -- the tag of an enabled rule is recorded, so the message is accepted
    · obtain ⟨key, hkey⟩ := List.exists_mem_of_ne_nil _ hnil
      obtain ⟨rule, -, -, rfl⟩ := mem_ruleKeys.1 hkey
      have hdemands := (h _ _ rule.named.1 rule.named.2).1
        ((records_iff rule.named.1 rule.named.2).2 ((hselects _ _).2 hkey))
      rw [registration_demands, registeredKeys_rules hen hrules] at hdemands
      exact hdemands.accepted
  · intro hacc cid name hcid hname
    rw [records_iff hcid hname, hselects, registration_demands, registeredKeys_rules hen hrules]
    constructor
    · intro hkey
      exact ⟨hacc, .inr hkey⟩
    · intro h
      exact h.covered.resolve_left (by simp)

theorem agree_keys (hen : cfg.enabled = true) (hrules : cfg.historianTags = [])
    (hsnap : cfg.snapshot.enabled = true) :
    RecordsWhatItDemands cfg resolvedKeys ↔
      cfg.subscribeMode = "all" ∨ KeysFit (cfg.subscribedKeys resolvedKeys) := by
  have hselects : ∀ cid name, Selects cfg resolvedKeys cid name ↔
      cfg.subscribedKeys resolvedKeys = [] ∨ tagKey cid name ∈ cfg.subscribedKeys resolvedKeys :=
    fun cid name => ⟨fun h => (h.keys hrules).2, fun h => ⟨hen, fun hne => absurd hrules hne,
      fun _ => ⟨hsnap, h⟩⟩⟩
  have hregistered := @registeredKeys_snapshot _ _ resolvedKeys hen hrules hsnap
  by_cases hall : cfg.subscribeMode = "all"
  · rw [if_pos hall] at hregistered
    have hnil : cfg.subscribedKeys resolvedKeys = [] := by
      unfold AppCfg.subscribedKeys
      rw [hall, if_neg (by decide), if_neg (by decide)]
    refine ⟨fun _ => .inl hall, fun _ cid name hcid hname => ?_⟩
    rw [records_iff hcid hname, hselects, registration_demands, hregistered, hnil]
    exact ⟨fun _ => ⟨keysAccepted_nil, .inl rfl⟩, fun _ => .inl rfl⟩
  rw [if_neg hall] at hregistered
  have hdemands : ∀ cid name,
      MessageDemands (historianDemandRegistration cfg resolvedKeys) cid name ↔
        KeysAccepted (cfg.subscribedKeys resolvedKeys) ∧
          tagKey cid name ∈ cfg.subscribedKeys resolvedKeys := by
    intro cid name
    rw [registration_demands, hregistered]
    exact ⟨fun h => ⟨h.accepted, h.covered.resolve_left (by simp)⟩, fun h => ⟨h.1, .inr h.2⟩⟩
  constructor
  · intro h
    refine .inr ⟨fun hnil => ?_, ?_⟩
    · -- everything is recorded and nothing is demanded
      have hany := (h "a" "b" (by decide) (by decide)).1
        ((records_iff (by decide) (by decide)).2 ((hselects _ _).2 (.inl hnil)))
      rw [hdemands, hnil] at hany
      cases hany.2
    · by_contra hno
      rw [not_or] at hno
      refine hno.2 fun cid name hcid hname hkey => hno.1 ?_
      exact ((hdemands cid name).1 ((h cid name hcid hname).1
        ((records_iff hcid hname).2 ((hselects cid name).2 (.inr hkey))))).1
  · rintro (h | h)
    · exact absurd h hall
    intro cid name hcid hname
    rw [records_iff hcid hname, hselects, hdemands]
    constructor
    · intro hkey
      have hkey := hkey.resolve_left h.nonempty
      exact ⟨h.accepted.resolve_right fun hno => hno cid name hcid hname hkey, hkey⟩
    · intro hkey
      exact .inr hkey.2

theorem agree_idle (h : cfg.enabled = true → cfg.historianTags = [] ∧ cfg.snapshot.enabled = false) :
    RecordsWhatItDemands cfg resolvedKeys := by
  intro cid name hcid hname
  rw [records_iff hcid hname, registration_demands, registeredKeys_idle h]
  constructor
  · intro hsel
    obtain ⟨hrules, hsnap⟩ := h hsel.enabled
    rw [(hsel.keys hrules).1] at hsnap
    cases hsnap
  · intro hdem
    simpa using hdem.covered

/-- **The historian demands what it may record** exactly if its message is accepted and, without
rules, the keys are not empty. -/
theorem historian_agrees_iff (cfg : AppCfg) (resolvedKeys : List String) :
    RecordsWhatItDemands cfg resolvedKeys ↔ HistorianFits cfg resolvedKeys := by
  by_cases hen : cfg.enabled = true
  · by_cases hrules : cfg.historianTags = []
    · by_cases hsnap : cfg.snapshot.enabled = true
      · rw [agree_keys hen hrules hsnap]
        constructor
        · intro h
          exact ⟨fun _ hne => absurd hrules hne, fun _ _ _ => h⟩
        · intro h
          exact h.keys hen hrules hsnap
      · have hidle := @agree_idle _ _ _ cfg resolvedKeys fun _ => ⟨hrules, by simpa using hsnap⟩
        exact ⟨fun _ => ⟨fun _ hne => absurd hrules hne, fun _ _ h => absurd h hsnap⟩, fun _ => hidle⟩
    · rw [agree_rules hen hrules]
      constructor
      · intro h
        exact ⟨fun _ _ => h, fun _ hnil => absurd hnil hrules⟩
      · intro h
        exact h.rules hen hrules
  · have hidle := @agree_idle _ _ _ cfg resolvedKeys fun h => absurd h hen
    exact ⟨fun _ => ⟨fun h => absurd h hen, fun h => absurd h hen⟩, fun _ => hidle⟩

end

end OpcBridge.Historian

namespace OpcBridge

open Alarms (Json JsonLib)

/-- **What is recorded is demanded, and nothing else**: for the tags logged from a base URL, and for
the tags that the historian may record. -/
theorem recorded_demanded_iff [Floats] [JsonLib] [Historian.WholeText] :
    (∀ (s : Logger.LoggerService) (base : String), s.Agrees base ↔ s.Fits base) ∧
    ∀ (cfg : Historian.AppCfg) (resolvedKeys : List String),
      Historian.RecordsWhatItDemands cfg resolvedKeys ↔
        Historian.HistorianFits cfg resolvedKeys :=
  ⟨fun _ _ => Logger.agrees_iff, Historian.historian_agrees_iff⟩

/-- Texts of whole numbers. -/
@[reducible] def intText : @Historian.WholeText intFloats :=
  letI := intFloats
  ⟨Floats.stod⟩

section
attribute [local instance] intFloats Alarms.intJson intText

/-- A historian that takes snapshots of an empty list of tags. -/
def emptyListConfig : Json :=
  .object [("subscribe_mode", .string "list"), ("tags", .array []),
    ("snapshot", .object [("enabled", .bool true)]),
    ("postgres", .object [("conninfo", .string "dbname=historian")])]

/-- The tags of a log job, one of a connection whose id begins with a colon. -/
def colonTags : Json :=
  .array [.string "plc:level", .object [("connection_id", .string ":plc"), ("name", .string "speed")]]

/-- A logger with one job of these tags. -/
def colonLogger (tags : Logger.JobTags) : Logger.LoggerService where
  dbs := [("db", {})]
  jobs := [("report", { databaseId := "db", enabled := true, tags := tags })]

/-- The first records every tag and demands none; the message of the second is refused, so that the
other tag of the job is not demanded either. -/
theorem recorded_not_demanded :
    (∃ cfg, Historian.loadConfig emptyListConfig = .ok cfg ∧
      ¬ Historian.RecordsWhatItDemands cfg []) ∧
    ∃ tags, Logger.parseJobTags colonTags = .ok (.ok tags) ∧
      ¬ (colonLogger tags).Agrees "http://127.0.0.1:8080" := by
  refine ⟨⟨_, rfl, fun h => ?_⟩, _, rfl, fun h => ?_⟩
  · have hfits := (Historian.historian_agrees_iff _ _).1 h
    obtain hall | hkeys := hfits.keys rfl rfl rfl
    · revert hall
      decide
    · exact hkeys.nonempty rfl
  · have hbegins := (Logger.agrees_iff.1 h).begins (Logger.makeTagKey ":plc" "speed")
      (by decide +kernel)
    revert hbegins
    decide +kernel

end

end OpcBridge
