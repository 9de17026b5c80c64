import OpcBridge.Alarms.ConfigFromRoot
import OpcBridge.Alarms.Configure

/-!
# The rules of a document

What both loaders do with the `rules` or `alarms` of a document. The engine keeps the fields that it
evaluates; `AlarmDetails` are the others.
-/

namespace OpcBridge.Alarms

open OpcBridge Json

variable [Floats]

/-! ## Audio, sites and repeats -/

structure ResolvedAlarmAudio where
  audioFile : String := ""
  audioPath : String := ""
  speechText : String := ""
  audioFiles : List String := []
  audioPaths : List String := []
  speechTexts : List String := []
  audioGapMs : Int := -1
  audioMode : String := "audio_then_speech"

structure AlarmDetails where
  info : AlarmInfo := {}
  audio : ResolvedAlarmAudio := {}
  repeatOverride : Bool := false
  repeatMs : Int := 0

/-- The first object of the list with the name. -/
def namedItem (items : List Json) (name : String) : Option Json :=
  items.find? fun item => item.isObject && jsonStringOrEmpty item "name" == name

/-- The group of a rule. -/
def groupOf (root rule : Json) : Option Json :=
  namedItem ((root.memberItems "groups").getD []) (jsonStringOrEmpty rule "group")

/-- The site of a rule in its group. -/
def siteOf (group rule : Json) : Option Json :=
  if jsonStringOrEmpty rule "site" = "" then none
  else namedItem ((group.memberItems "sites").getD []) (jsonStringOrEmpty rule "site")

/-- The objects that a rule takes settings from, the rule last. -/
def alarmScopes (root rule : Json) : List Json :=
  match groupOf root rule with
  | none => [rule]
  | some group => group :: (siteOf group rule).toList ++ [rule]

def resolveAlarmSiteEnabled (root rule : Json) : Bool :=
  if jsonStringOrEmpty rule "group" = "" ∨ jsonStringOrEmpty rule "site" = "" then true
  else
    match ((groupOf root rule).bind (siteOf · rule)).bind (·.find "alarms_enabled") with
    | some (.bool b) => b
    | _ => true

section
variable [JsonLib]

/-- `apply_audio_scope` -/
def applyAudioScope (out : ResolvedAlarmAudio) (scope : Json) : Except String ResolvedAlarmAudio := do
  let audioGapMs ← clampedMember scope "audio_gap_ms" 0 5000 out.audioGapMs
  let mode := jsonStringOrEmpty scope "audio_mode"
  let audioMode :=
    if mode ∈ ["audio_only", "speech_only", "audio_then_speech", "speech_then_audio"] then mode
    else out.audioMode
  let file := jsonStringOrEmpty scope "audio_file"
  let listed := (scope.memberItems "audio_files").map fun items =>
    (stringItems items).filter (· != "")
  let audioFile := if file = "" then out.audioFile else file
  let files := listed.getD (if file = "" then [] else [file])
  let text := jsonStringOrEmpty scope "speech_text"
  let speechText := if text = "" then out.speechText else text
  let texts := (stringItems ((scope.memberItems "speech_texts").getD [])).filter (· != "")
  return { out with
    audioGapMs, audioMode
    audioFile := if audioFile = "" then files.head?.getD "" else audioFile
    audioFiles := out.audioFiles ++ files
    speechText := if speechText = "" then texts.head?.getD "" else speechText
    speechTexts := out.speechTexts ++ (if text = "" then [] else [text]) ++ texts }

/-- The paths of the audio files by id. -/
def audioPathTable (audio : Json) : String → Option String :=
  ((audio.memberItems "files").getD []).foldl (fun paths f =>
    let id := jsonStringOrEmpty f "id"
    let path := jsonStringOrEmpty f "path"
    if f.isObject && id != "" then
      Function.update paths id (some (if path = "" then id else path))
    else paths) fun _ => none

def resolveAlarmAudio (root rule : Json) (configDir : String) : Except String ResolvedAlarmAudio := do
  let audio := (root.member "audio" isObject).getD (.object [])
  let paths := audioPathTable audio
  let file := jsonStringOrEmpty audio "default_file"
  let text := jsonStringOrEmpty audio "speech_text"
  let out ← (alarmScopes root rule).foldlM applyAudioScope {
    audioFile := file
    audioFiles := [file].filter (· != "")
    speechText := text
    speechTexts := [text].filter (· != "") }
  let out :=
    if out.audioMode = "audio_only" then { out with speechText := "", speechTexts := [] }
    else if out.audioMode = "speech_only" then { out with audioFile := "", audioFiles := [] }
    else out
  let resolve (file : String) : String := resolveAudioPath configDir ((paths file).getD file)
  return { out with
    audioPath := if out.audioFile = "" then "" else resolve out.audioFile
    audioPaths := out.audioFiles.map resolve }

/-- Whether `repeat_ms` is set anywhere, and what is set last. -/
def resolveAlarmRepeat (root rule : Json) : Except String (Bool × Int) := do
  let out ← (alarmScopes root rule).foldlM (fun out scope =>
    match scope.member "repeat_ms" isNumber with
    | none => pure out
    | some v => do
      let n ← v.getLong
      return (true, n)) (false, 0)
  return (out.1, max 0 out.2)

/-! ## One rule -/

structure ParsedRule [Floats] where
  rule : AlarmRule
  details : AlarmDetails

/-- A rule without an id, a connection or a tag is left out. -/
def readRule (root : Json) (configDir : String) (it : Json) : Except String (Option ParsedRule) := do
  if !it.isObject then return none
  let id ← it.valueString "id" ""
  let name ← it.valueString "name" id
  let group ← it.valueString "group" ""
  let site ← it.valueString "site" ""
  let enabled ← it.valueBool "enabled" true
  let severity ← it.valueInt "severity" 500
  let delayMs ← it.valueLong "delay_ms" 0
  let (connectionId, tag) ←
    match it.member "source" isObject with
    | none => pure ("", "")
    | some source => do
      let connectionId ← source.valueString "connection_id" ""
      let tag ← source.valueString "tag" ""
      pure (connectionId, tag)
  let rule : AlarmRule := {
    id, name, enabled, connectionId, tag
    siteEnabled := resolveAlarmSiteEnabled root it
    delayMs := max 0 delayMs }
  let rule ←
    match it.member "condition" isObject with
    | none => pure rule
    | some condition => do
      let conditionType ← condition.valueString "type" "equals"
      if conditionType ∈ ["equals", "not_equals", "contains", "not_contains"] then
        pure { rule with conditionType, conditionValue := (condition.find "value").getD .null }
      else if conditionType ∈ ["high", "low"] then
        let threshold ← condition.valueDouble "threshold" (Floats.ofInt 0)
        let hysteresis ← condition.valueDouble "hysteresis" (Floats.ofInt 0)
        pure { rule with conditionType, threshold, hysteresis }
      else pure { rule with conditionType }
  let messageOnActive ← it.valueString "message_on_active" ""
  let messageOnReturn ← it.valueString "message_on_return" ""
  let notificationPolicy ← it.valueString "notification_policy" ""
  let audio ← resolveAlarmAudio root it configDir
  let (repeatOverride, repeatMs) ← resolveAlarmRepeat root it
  if id = "" ∨ connectionId = "" ∨ tag = "" then return none
  return some {
    rule := { rule with messageOnActive, messageOnReturn }
    details := { info := { severity, group, site, notificationPolicy }, audio, repeatOverride,
                 repeatMs } }

/-! ## The rule objects -/

/-- `a.value(k₁, a.value(k₂, ...))`: the innermost default is read first. -/
def valueOrElse (a : Json) : List String → Except String String
  | [] => .ok ""
  | key :: keys => do
    let default ← valueOrElse a keys
    a.valueString key default

/-- What `condition` gets from an entry of `alarms`. -/
def legacyCondition (a : Json) (type : String) : List (String × Json) :=
  if type ∈ ["equals", "not_equals", "contains", "not_contains"] then
    (((a.find "value").or (a.find "equals_value")).or (a.find "threshold")).toList.map ("value", ·)
  else if type ∈ ["high", "low"] then
    ["threshold", "hysteresis"].flatMap (copied a · fun _ => true)
  else []

/-- An entry of `alarms` as a rule object; the loaders differ in the keys of the name. -/
def ruleOfAlarm (nameKeys : List String) (a : Json) : Except String Json := do
  let type ← a.valueString "type" ""
  let id ← a.valueString "id" ""
  let name ← valueOrElse a nameKeys
  let enabled ← a.valueBool "enabled" true
  let severity ← a.valueInt "severity" 500
  let messageOnActive ← valueOrElse a ["message_on_active", "message"]
  let messageOnReturn ← a.valueString "message_on_return" ""
  let group ← a.valueString "group" ""
  let site ← a.valueString "site" ""
  let connectionId ← a.valueString "connection_id" ""
  let tag ← valueOrElse a ["tag_name", "tag"]
  return .object ([("id", .string id), ("name", .string name), ("enabled", .bool enabled),
      ("severity", .int severity), ("message_on_active", .string messageOnActive),
      ("message_on_return", .string messageOnReturn), ("group", .string group),
      ("site", .string site)] ++
    ["repeat_ms", "delay_ms", "audio_file", "speech_text", "audio_mode", "audio_gap_ms",
      "audio_files", "speech_texts"].flatMap (copied a · fun _ => true) ++
    [("source", .object [("connection_id", .string connectionId), ("tag", .string tag)]),
      ("condition", .object (("type", .string type) :: legacyCondition a type))])

/-- The rule objects; `none` if the document has neither `rules` nor `alarms`. -/
def ruleItems (nameKeys : List String) (root : Json) : Except String (Option (List Json)) :=
  match root.memberItems "rules", root.memberItems "alarms" with
  | some (item :: items), _ => .ok (some (item :: items))
  | _, some alarms => do
    let rules ← (alarms.filter isObject).mapM (ruleOfAlarm nameKeys)
    return some rules
  | some [], none => .ok (some [])
  | none, none => .ok none

def readRules (root : Json) (configDir : String) (items : List Json) :
    Except String (List ParsedRule) := items.filterMapM (readRule root configDir)

end

end OpcBridge.Alarms
