import OpcBridge.Alarms.Json

/-!
# The notification configuration of a document

`notification_config_from_root`: the targets, routes and policies of `alarms.json` become the
contacts, groups, routes and policies that `configure` reads. A field of the wrong type throws.
-/

namespace OpcBridge.Alarms

open OpcBridge Json

variable [Floats]

/-! ## Fields -/

/-- A field that is copied if it passes the test. -/
def copied (j : Json) (key : String) (test : Json → Bool) : List (String × Json) :=
  (j.member key test).toList.map (key, ·)

/-- `j[key] = v` of an object. -/
def setField (j : Json) (key : String) (v : Json) : Json :=
  match j with
  | .object fields => .object ((key, v) :: fields.filter fun x => x.1 != key)
  | j => j

def jsonStrings (texts : List String) : Json := .array (texts.map .string)

/-- The strings under the first of the keys that holds a nonempty array. -/
def triggersOf (p : Json) : List String → List String
  | [] => ["active"]
  | key :: keys =>
    match p.memberItems key with
    | some (item :: items) => stringItems (item :: items)
    | _ => triggersOf p keys

/-! ## Targets -/

structure TargetTables [Floats] where
  targetById : String → Option Json := fun _ => none
  contacts : List Json := []
  contactGroups : List Json := []

def contactOfTarget (id : String) (t : Json) : Except String Json := do
  let name ← t.valueString "name" id
  let phone ← t.valueString "value" ""
  let home ← t.valueString "phone_home" ""
  let work ← t.valueString "phone_work" ""
  let cell ← t.valueString "phone_cell" ""
  let email ← t.valueString "email" ""
  let enabled ← t.valueBool "enabled" true
  let cell ← if cell = "" then t.valueString "cell" "" else pure cell
  let home ← if home = "" then t.valueString "home" "" else pure home
  let work ← if work = "" then t.valueString "work" "" else pure work
  let phone :=
    if phone ≠ "" then phone else if cell ≠ "" then cell else if work ≠ "" then work else home
  return .object ([("id", .string id), ("name", .string name), ("phone", .string phone),
    ("phone_home", .string home), ("phone_work", .string work), ("phone_cell", .string cell),
    ("email", .string email), ("enabled", .bool enabled)] ++
      copied t "audio_delay_seconds" isNumberInteger)

def groupOfTarget (targetById : String → Option Json) (id : String) (t : Json) :
    Except String Json := do
  let name ← t.valueString "name" id
  let enabled ← t.valueBool "enabled" true
  let members := stringItems ((t.memberItems "members").getD [])
  let contacts ← members.filterM fun m =>
    match targetById m with
    | none => pure false
    | some target => do
      let type ← target.valueString "type" ""
      return type == "phone"
  return .object [("id", .string id), ("name", .string name), ("enabled", .bool enabled),
    ("contacts", jsonStrings contacts)]

def addTarget (tables : TargetTables) (t : Json) : Except String TargetTables := do
  if !t.isObject then return tables
  let id ← t.valueString "id" ""
  let type ← t.valueString "type" ""
  if id = "" ∨ type = "" then return tables
  let tables := { tables with targetById := Function.update tables.targetById id (some t) }
  let enabled ← if type = "phone" then t.valueBool "enabled" true else pure false
  if type = "phone" && enabled then
    let contact ← contactOfTarget id t
    return { tables with contacts := tables.contacts ++ [contact] }
  else if type = "group" then
    let group ← groupOfTarget tables.targetById id t
    return { tables with contactGroups := tables.contactGroups ++ [group] }
  else return tables

/-! ## Routes -/

structure RouteTables [Floats] where
  routeById : String → Option Json := fun _ => none
  routes : List Json := []
  voiceModem : Option Json := none

/-- The `config` object of a route. -/
def routeConfig (r : Json) : Json := (r.member "config" isObject).getD (.object [])

def audioRoute (id : String) (r : Json) : Except String (Option Json) := do
  let routeCfg := routeConfig r
  if (r.member "command" isString).isNone && (routeCfg.member "command" isString).isNone then
    return none
  let cmd ←
    match r.member "command" isString with
    | some c => c.getString
    | none => routeCfg.valueString "command" "/usr/bin/aplay"
  let args := ((r.member "args" isArray).or (routeCfg.member "args" isArray)).getD
    (jsonStrings ["{audio_path}"])
  let name ← r.valueString "name" id
  let enabled ← r.valueBool "enabled" true
  return some (.object [("name", .string name), ("type", .string "audio_command"),
    ("enabled", .bool enabled), ("min_severity", .int 0), ("on", jsonStrings ["active"]),
    ("command", .string (if cmd = "" then "/usr/bin/aplay" else cmd)), ("args", args),
    ("repeat_ms", .int 0), ("repeat_initial_delay_ms", .int 0),
    ("until", .string "acked_or_returned"), ("schedule_id", .string "always")])

def addRoute (tables : RouteTables) (r : Json) : Except String RouteTables := do
  if !r.isObject then return tables
  let id ← r.valueString "id" ""
  let type ← r.valueString "type" ""
  if id = "" ∨ type = "" then return tables
  let tables := { tables with routeById := Function.update tables.routeById id (some r) }
  if type = "voice_modem" then
    let enabled ← r.valueBool "enabled" true
    return { tables with voiceModem := some (setField (routeConfig r) "enabled" (.bool enabled)) }
  else if type = "audio_command" then
    let route ← audioRoute id r
    return { tables with routes := tables.routes ++ route.toList }
  else return tables

/-! ## Policies -/

section
variable [JsonLib]

structure RepeatFields where
  repeatMs : Int := 0
  initialDelayMs : Int := 0
  maxRepeats : Int := 0
  until_ : String := "acked_or_returned"

def maxRepeatsIn (n : Int) : Int := max 0 (min 1000000 n)

def repeatFields (p : Json) : Except String RepeatFields := do
  match p.member "repeat" isObject with
  | some rep =>
    let enabled ← rep.valueBool "enabled" false
    let repeatMs ←
      if enabled then do
        let interval ← rep.valueLong "interval_ms" 60000
        pure (max 1 interval)
      else pure 0
    let initialDelayMs ← rep.valueLong "initial_delay_ms" 0
    let maxRepeats ← rep.valueLong "max_repeats" 0
    let until_ ← rep.valueString "stop_on" "acked_or_returned"
    return { repeatMs := repeatMs, initialDelayMs := max 0 initialDelayMs,
             maxRepeats := maxRepeatsIn (Int32.ofInt maxRepeats).toInt, until_ := until_ }
  | none =>
    let number (key : String) : Except String Int :=
      match p.member key isNumber with
      | some v => do
        let n ← v.getLong
        return max 0 n
      | none => pure 0
    let repeatMs ← number "repeat_ms"
    let initialDelayMs ← number "repeat_initial_delay_ms"
    let maxRepeats ←
      match p.member "max_repeats" isNumberInteger with
      | some v => v.getInt
      | none => pure 0
    let until_ ←
      match p.member "until" isString with
      | some v => v.getString
      | none => pure "acked_or_returned"
    return { repeatMs := repeatMs, initialDelayMs := initialDelayMs,
             maxRepeats := maxRepeatsIn maxRepeats, until_ := until_ }

/-- A policy without steps. -/
def simplePolicy (p : Json) (policyId : String) (enabled : Bool) (triggers : List String)
    (rep : RepeatFields) (scheduleId : String) : Except String Json := do
  let name ← p.valueString "name" policyId
  let minSeverity ← p.valueInt "min_severity" 0
  let type ← p.valueString "type" "phone"
  let outputType ← p.valueString "output_type" type
  let outputType := if outputType = "voice" then "phone" else outputType
  return .object ([("id", .string policyId), ("name", .string name), ("enabled", .bool enabled),
      ("min_severity", .int minSeverity), ("on", jsonStrings triggers),
      ("schedule_id", .string scheduleId), ("output_type", .string outputType)] ++
    ["contacts", "contact_groups", "targets"].flatMap (copied p · isArray) ++
    copied p "call_backend" isString ++
    copied p "ack_dtmf" (fun _ => true) ++
    ["ack_wait_sec", "ring_timeout_sec", "audio_delay_seconds", "audio_gap_ms"].flatMap
      (copied p · isNumberInteger) ++
    ["email_subject_template", "email_active_body_template", "email_clear_body_template"].flatMap
      (copied p · isString) ++
    (if 0 < rep.repeatMs then [("repeat_ms", .int rep.repeatMs)] else []) ++
    (if 0 < rep.initialDelayMs then [("repeat_initial_delay_ms", .int rep.initialDelayMs)] else []) ++
    (if 0 < rep.maxRepeats then [("max_repeats", .int rep.maxRepeats)] else []) ++
    [("until", .string rep.until_)])

/-- What the steps of a policy add. -/
structure StepTables [Floats] where
  routes : List Json := []
  targets : List Json := []
  enabled : Bool
  hasVoiceStep : Bool := false

def stepTarget (targetById : String → Option Json) (afterMs : Int) (id : String) :
    Except String (List Json) := do
  match targetById id with
  | none => return []
  | some target =>
    let type ← target.valueString "type" ""
    let entry (kind : String) : Json :=
      .object [("type", .string kind), ("id", .string id), ("after_ms", .int afterMs)]
    if type = "phone" then return [entry "contact"]
    else if type = "group" then return [entry "group"]
    else return []

/-- One step, with its number from 1. -/
def addStep (targetById routeById : String → Option Json) (policyId : String) (policyEnabled : Bool)
    (triggers : List String) (rep : RepeatFields) (scheduleId : String) (tables : StepTables)
    (x : Json × Nat) : Except String StepTables := do
  let step := x.1
  if !step.isObject then return tables
  let routeId ← step.valueString "route_id" ""
  if routeId = "" then return tables
  match routeById routeId with
  | none => return tables
  | some route =>
    let routeType ← route.valueString "type" ""
    let routeEnabled ← route.valueBool "enabled" true
    let effectiveEnabled := policyEnabled && routeEnabled
    if routeType = "audio_command" then
      let routeCfg := routeConfig route
      if (routeCfg.member "command" isString).isNone then return tables
      let command ← routeCfg.valueString "command" ""
      let legacyRoute := .object [
        ("name", .string (policyId ++ "__step_" ++ toString x.2)),
        ("type", .string "audio_command"), ("enabled", .bool effectiveEnabled),
        ("min_severity", .int 0), ("on", jsonStrings triggers), ("command", .string command),
        ("args", (routeCfg.find "args").getD (jsonStrings ["{audio_path}"])),
        ("repeat_ms", .int rep.repeatMs), ("repeat_initial_delay_ms", .int rep.initialDelayMs),
        ("until", .string rep.until_), ("schedule_id", .string scheduleId)]
      return { tables with routes := tables.routes ++ [legacyRoute] }
    else if routeType = "voice_modem" then
      let tables := { tables with
        hasVoiceStep := true, enabled := tables.enabled && effectiveEnabled }
      match step.memberItems "targets" with
      | none => return tables
      | some targets =>
        let afterMs ← step.valueLong "after_ms" 0
        let entries ← (stringItems targets).mapM (stepTarget targetById (max 0 afterMs))
        return { tables with targets := tables.targets ++ entries.flatten }
    else return tables

structure PolicyTables [Floats] where
  routes : List Json
  policies : List Json := []

def addPolicy (targetById routeById : String → Option Json) (tables : PolicyTables) (p : Json) :
    Except String PolicyTables := do
  if !p.isObject then return tables
  let policyId ← p.valueString "id" ""
  if policyId = "" then return tables
  let enabled ← p.valueBool "enabled" true
  let triggers := triggersOf p ["triggers", "on"]
  let rep ← repeatFields p
  let scheduleId ← p.valueString "schedule_id" ""
  let scheduleId := if scheduleId = "" then "always" else scheduleId
  let isSimple := ["output_type", "on", "contact_groups", "contacts"].any p.contains
  match p.memberItems "steps", isSimple with
  | none, true =>
    let policy ← simplePolicy p policyId enabled triggers rep scheduleId
    return { tables with policies := tables.policies ++ [policy] }
  | none, false =>
    let _ ← p.valueString "name" policyId
    return tables
  | some steps, _ =>
    let name ← p.valueString "name" policyId
    let after ← (steps.zipIdx 1).foldlM
      (addStep targetById routeById policyId enabled triggers rep scheduleId)
      { enabled := enabled : StepTables }
    let legacyPolicy := .object [("id", .string policyId), ("name", .string name),
      ("enabled", .bool after.enabled), ("min_severity", .int 0), ("on", jsonStrings triggers),
      ("targets", .array after.targets), ("repeat_ms", .int rep.repeatMs),
      ("repeat_initial_delay_ms", .int rep.initialDelayMs), ("max_repeats", .int rep.maxRepeats),
      ("until", .string rep.until_), ("schedule_id", .string scheduleId)]
    return { tables with
      routes := tables.routes ++ after.routes
      policies := tables.policies ++ (if after.hasVoiceStep then [legacyPolicy] else []) }

end

/-! ## The configuration -/

section
variable [JsonLib]

def isAudioPolicy (p : Json) : Except String Bool := do
  if !p.isObject then return false
  let type ← p.valueString "type" ""
  let outputType ← p.valueString "output_type" type
  return outputType == "audio"

def defaultAudioRoute : Json :=
  .object [("name", .string "default_audio"), ("type", .string "audio_command"),
    ("enabled", .bool true), ("min_severity", .int 0), ("on", jsonStrings ["active"]),
    ("command", .string "/usr/bin/aplay"), ("args", jsonStrings ["{audio_path}"]),
    ("repeat_ms", .int 0), ("until", .string "acked_or_returned")]

def notificationConfigFromRoot (root : Json) : Except String Json := do
  let timezone ← root.valueString "timezone" ""
  let targets ← ((root.memberItems "targets").getD []).foldlM addTarget {}
  let routes ← ((root.memberItems "routes").getD []).foldlM addRoute {}
  let tables ← ((root.memberItems "policies").getD []).foldlM
    (addPolicy targets.targetById routes.routeById) { routes := routes.routes : PolicyTables }
  let hasAudioPolicy ← tables.policies.anyM isAudioPolicy
  let routeList :=
    if hasAudioPolicy && tables.routes.isEmpty then [defaultAudioRoute] else tables.routes
  return .object ([("enabled", .bool true), ("timezone", .string timezone),
      ("schedules", .array ((root.memberItems "schedules").getD [])),
      ("alarm_groups", .array ((root.memberItems "alarm_groups").getD [])),
      ("routes", .array routeList), ("contacts", .array targets.contacts),
      ("contact_groups", .array targets.contactGroups), ("policies", .array tables.policies)] ++
    ["audio", "tts", "sip", "smtp"].flatMap (copied root · isObject) ++
    routes.voiceModem.toList.map ("voice_modem", ·))

end

end OpcBridge.Alarms
