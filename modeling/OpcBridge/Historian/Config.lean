import OpcBridge.Demand.Keys

/-!
# The configuration of the historian

`load_config` reads the recording rules from `tags` and `historian_tags`. Every rule is periodic,
since the policy knows no other mode, and names a connection and a tag; an exact key in `tags` gives
a rule if it can be split. Members that recording does not depend on are left out.
-/

namespace OpcBridge.Historian

open Lib
open Alarms (Json JsonLib)

section
variable [Floats]

structure ChangeOnlyCfg where
  enabled : Bool := true
  deadband : F64 := Floats.ofInt 0
  minIntervalMs : Int := 250
  maxIntervalMs : Int := 60000

structure SnapshotCfg where
  enabled : Bool := false
  intervalMs : Int := 60000

structure HistorianPolicy where
  intervalMs : Int := 60000
  mode : String := "periodic"
  includeBadQuality : Bool := false
  deadband : F64 := Floats.ofInt 0
  /-- Loading replaces any other mode. -/
  periodic : mode = "periodic" := by rfl

structure HistorianTagRule where
  connectionId : String
  tagName : String
  enabled : Bool := true
  intervalMs : Int := 60000
  mode : String := "periodic"
  includeBadQuality : Bool := false
  deadband : F64 := Floats.ofInt 0
  deadbandOverride : Bool := false
  named : connectionId ≠ "" ∧ tagName ≠ ""
  /-- It has the mode of the policy. -/
  periodic : mode = "periodic"

structure SubscribePattern where
  connectionId : String
  nameGlob : String

structure AppCfg where
  enabled : Bool := true
  /-- `all`, `list` or `patterns` -/
  subscribeMode : String := "all"
  tags : List String := []
  patterns : List SubscribePattern := []
  changeOnly : ChangeOnlyCfg := {}
  snapshot : SnapshotCfg := {}
  historianPolicy : HistorianPolicy := {}
  historianTags : List HistorianTagRule := []

def tagKey (conn name : String) : String := makeTagKey conn name

def splitTagKey (key : String) : Option (String × String) :=
  (cutAt ':' key).filter fun cut => cut.1 ≠ "" ∧ cut.2 ≠ ""

omit [Floats] in
theorem splitTagKey_named {key conn name : String} (h : splitTagKey key = some (conn, name)) :
    conn ≠ "" ∧ name ≠ "" := by
  simpa using (Option.filter_eq_some_iff.1 h).2

/-- `std::max(0.0, x)` -/
def maxZero (x : F64) : F64 := if Floats.lt (Floats.ofInt 0) x then x else Floats.ofInt 0

end

/-! ## Loading -/

section
variable [Floats] [JsonLib]

def loadPolicy (root : Json) : Except String HistorianPolicy :=
  match root.member "historian_policy" Json.isObject with
  | none => .ok {}
  | some policy => do
    let intervalMs ← policy.valueLong "interval_ms" 60000
    let mode ← policy.valueString "mode" "periodic"
    let includeBadQuality ← policy.valueBool "include_bad_quality" false
    let deadband ← policy.valueDouble "deadband" (Floats.ofInt 0)
    .ok {
      intervalMs := if intervalMs < 1000 then 1000 else intervalMs
      mode := if mode ≠ "periodic" then "periodic" else mode
      includeBadQuality := includeBadQuality
      deadband := maxZero deadband
      periodic := by
        by_cases h : mode = "periodic"
        · simp [h]
        · simp [h] }

/-- The rule of an exact key. -/
def keyRule (policy : HistorianPolicy) (key : String) : Option HistorianTagRule :=
  match h : splitTagKey key with
  | none => none
  | some (conn, name) => some {
      connectionId := conn
      tagName := name
      intervalMs := policy.intervalMs
      mode := policy.mode
      includeBadQuality := policy.includeBadQuality
      deadband := policy.deadband
      named := splitTagKey_named h
      periodic := policy.periodic }

/-- The rule of an object; none if it names no tag. -/
def objectRule (policy : HistorianPolicy) (t : Json) : Except String (Option HistorianTagRule) := do
  let conn ← t.valueString "connection_id" ""
  let fallback ← t.valueString "name" ""
  let name ← t.valueString "tag_name" fallback
  let enabled ← t.valueBool "enabled" true
  let override ← t.valueBool "deadband_override" false
  let deadband ← if override then t.valueDouble "deadband" policy.deadband else .ok policy.deadband
  .ok (if h : conn ≠ "" ∧ name ≠ "" then some {
      connectionId := conn
      tagName := name
      enabled := enabled
      intervalMs := if policy.intervalMs < 1000 then 1000 else policy.intervalMs
      mode := policy.mode
      includeBadQuality := policy.includeBadQuality
      deadband := maxZero deadband
      deadbandOverride := override
      named := h
      periodic := policy.periodic }
    else none)

/-- `cfg.tags.push_back(tag_key(…))` and `cfg.historian_tags.push_back(rule)` -/
def AppCfg.addRule (cfg : AppCfg) (rule : HistorianTagRule) : AppCfg :=
  { cfg with
    tags := cfg.tags ++ [tagKey rule.connectionId rule.tagName]
    historianTags := cfg.historianTags ++ [rule] }

def AppCfg.addObject (cfg : AppCfg) (t : Json) : Except String AppCfg :=
  if !t.isObject then .ok cfg
  else do
    let rule ← objectRule cfg.historianPolicy t
    .ok (rule.elim cfg cfg.addRule)

/-- An item of `tags`. -/
def AppCfg.addTag (cfg : AppCfg) (t : Json) : Except String AppCfg :=
  match t with
  | .string key => .ok { cfg with
      tags := cfg.tags ++ [key]
      historianTags := cfg.historianTags ++ (keyRule cfg.historianPolicy key).toList }
  | t => cfg.addObject t

def loadPattern (p : Json) : Except String (Option SubscribePattern) :=
  if !p.isObject then .ok none
  else do
    let conn ← p.valueString "connection_id" ""
    let fallback ← p.valueString "tag_name" ""
    let glob ← p.valueString "name" fallback
    .ok (if conn = "" ∨ glob = "" then none else some ⟨conn, glob⟩)

def loadConfig (root : Json) : Except String AppCfg := do
  let enabled ← root.valueBool "enabled" true
  let policy ← loadPolicy root
  let subscribeMode ← root.valueString "subscribe_mode" "all"
  let cfg : AppCfg :=
    { enabled := enabled, subscribeMode := subscribeMode, historianPolicy := policy }
  let cfg ← ((root.memberItems "tags").getD []).foldlM AppCfg.addTag cfg
  let cfg ← ((root.memberItems "historian_tags").getD []).foldlM AppCfg.addObject cfg
  let patterns ← ((root.memberItems "patterns").getD []).mapM loadPattern
  let changeOnly ← match root.member "change_only" Json.isObject with
    | none => .ok {}
    | some c => do
      let enabled ← c.valueBool "enabled" true
      let deadband ← c.valueDouble "deadband" (Floats.ofInt 0)
      let minIntervalMs ← c.valueLong "min_interval_ms" 250
      let maxIntervalMs ← c.valueLong "max_interval_ms" 60000
      .ok { enabled, deadband, minIntervalMs, maxIntervalMs }
  let snapshot ← match root.member "snapshot" Json.isObject with
    | none => .ok {}
    | some s => do
      let enabled ← s.valueBool "enabled" false
      let intervalMs ← s.valueLong "interval_ms" 60000
      .ok { enabled, intervalMs }
  .ok { cfg with
    patterns := patterns.filterMap id, changeOnly := changeOnly, snapshot := snapshot }

end

/-! ## Registration -/

section
variable [Floats]

/-- The keys of the enabled rules. -/
def AppCfg.ruleKeys (cfg : AppCfg) : List String :=
  (cfg.historianTags.filter fun rule =>
    rule.enabled && rule.connectionId ≠ "" && rule.tagName ≠ "").map fun rule =>
      rule.connectionId ++ ":" ++ rule.tagName

def historianDemandRegistration (cfg : AppCfg) (resolvedKeys : List String) : Json :=
  let (allTags, tags) :=
    if !cfg.enabled then (false, [])
    else if !cfg.historianTags.isEmpty then (false, cfg.ruleKeys)
    else if cfg.snapshot.enabled then
      if cfg.subscribeMode = "all" then (true, [])
      else if cfg.subscribeMode = "list" then (false, cfg.tags)
      else if cfg.subscribeMode = "patterns" then (false, resolvedKeys)
      else (false, [])
    else (false, [])
  .object [("type", .string "register_demand"), ("owner", .string "opcbridge-historian"),
    ("demand_mode", .string "explicit"), ("all_tags", .bool allTags),
    ("tags", .array (tags.map .string))]

end

end OpcBridge.Historian
