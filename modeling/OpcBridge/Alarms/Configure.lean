import OpcBridge.Alarms.Json
import OpcBridge.Alarms.Notify
import Mathlib.Logic.Function.Basic

/-!
# Configuring the notifications

`NotificationManager::configure` fills its tables from a document section by section. It clears
them first, and a field of the wrong type throws out of the middle: the sections before it are
filled, and of its own section the items before it.
-/

namespace OpcBridge.Alarms

open OpcBridge Json

variable [Floats] [JsonLib]

/-- A step of `configure`: it keeps what it changed when it throws. -/
abbrev Conf := ExceptT String (StateM NotificationConfig)

/-! ## Files -/

def joinPath (a b : String) : String :=
  if a = "" then b
  else if b = "" then a
  else if b.toList.head? = some '/' then b
  else if a.toList.getLast? = some '/' then a ++ b
  else a ++ "/" ++ b

def resolveAudioPath (configDir raw : String) : String :=
  if raw = "" then ""
  else if raw.toList.head? = some '/' then raw
  else if "audio/".toList.isPrefixOf raw.toList then joinPath configDir raw
  else joinPath (joinPath configDir "audio") raw

/-! ## Schedules -/

def twoDigits (a b : Char) : Nat := (a.toNat - 48) * 10 + (b.toNat - 48)

/-- `parse_hhmm` accepts the text. -/
def isHhmm (text : String) : Bool :=
  match text.toList with
  | [a, b, ':', c, d] =>
    [a, b, c, d].all isDigit && decide (twoDigits a b ≤ 23) && decide (twoDigits c d ≤ 59)
  | _ => false

/-- `parse_ymd` accepts the text. -/
def isYmd (text : String) : Bool :=
  match text.toList with
  | [a, b, c, d, '-', e, f, '-', g, h] =>
    [a, b, c, d, e, f, g, h].all isDigit && decide (1970 ≤ twoDigits a b * 100 + twoDigits c d) &&
      decide (1 ≤ twoDigits e f) && decide (twoDigits e f ≤ 12) &&
      decide (1 ≤ twoDigits g h) && decide (twoDigits g h ≤ 31)
  | _ => false

def dayIndex (d : String) : Option Nat :=
  ["sun", "mon", "tue", "wed", "thu", "fri", "sat"].findIdx? (· == d)

def readSchedule (item : Json) : Except String Schedule := do
  let id ← item.valueString "id" ""
  let type ← item.valueString "type" "always"
  let scheduleId ← item.valueString "schedule_id" ""
  let s : Schedule := { id := id, type := type, scheduleId := scheduleId }
  if id = "" ∨ type ≠ "custom" then return s
  let startDate ← item.valueString "start_date" ""
  let endDate ← item.valueString "end_date" ""
  let startTime ← item.valueString "start_time" ""
  let endTime ← item.valueString "end_time" ""
  let s :=
    match item.memberItems "days" with
    | none => s
    | some days =>
      let indices := (stringItems days).filterMap dayIndex
      { s with
        customDays := (List.range 7).map fun i => decide (i ∈ indices)
        customHasDays := !indices.isEmpty }
  let hasTimes := isHhmm startTime && isHhmm endTime
  return { s with
    startDate := if isYmd startDate then startDate else ""
    endDate := if isYmd endDate then endDate else ""
    startTime := if hasTimes then startTime else ""
    endTime := if hasTimes then endTime else "" }

def addSchedule (item : Json) : Conf Unit := do
  if item.isObject then
    let s ← readSchedule item
    if s.id ≠ "" then
      modify fun c => { c with schedules := Function.update c.schedules s.id (some s) }

def addAlwaysSchedule (c : NotificationConfig) : NotificationConfig :=
  if (c.schedules "always").isSome then c
  else { c with schedules := Function.update c.schedules "always" (some { id := "always" }) }

/-! ## Devices and servers -/

def configureVoiceModem (vm : Json) : Conf Unit := do
  let enabled ← vm.valueBool "enabled" false
  modify fun c => { c with voiceModem := { c.voiceModem with enabled := enabled } }
  let device ← vm.valueString "device" ""
  modify fun c => { c with voiceModem := { c.voiceModem with device := device } }
  let baud ← vm.valueInt "baud" 115200
  modify fun c => { c with voiceModem := { c.voiceModem with baud := baud } }
  let voiceInit ← vm.valueBool "voice_init" false
  modify fun c => { c with voiceModem := { c.voiceModem with voiceInit := voiceInit } }
  let voiceLine ← vm.valueInt "voice_line" 1
  modify fun c => { c with voiceModem := { c.voiceModem with voiceLine := voiceLine } }
  let dialSeconds ← vm.valueInt "dial_seconds" 30
  modify fun c => { c with voiceModem := { c.voiceModem with dialSeconds := dialSeconds } }
  let audioDelaySeconds ← vm.valueInt "audio_delay_seconds" 8
  modify fun c => { c with voiceModem := { c.voiceModem with audioDelaySeconds := audioDelaySeconds } }
  let audioGapMs ← vm.valueInt "audio_gap_ms" 50
  modify fun c => { c with voiceModem := { c.voiceModem with audioGapMs := audioGapMs } }
  let commandTimeoutMs ← vm.valueInt "command_timeout_ms" 3000
  modify fun c => { c with voiceModem := { c.voiceModem with commandTimeoutMs := commandTimeoutMs } }
  let ttsEngine ← vm.valueString "tts_engine" "auto"
  modify fun c => { c with voiceModem := { c.voiceModem with ttsEngine := ttsEngine } }

/-- `std::max(low, std::min(high, n))` -/
def clamp (low high n : Int) : Int := max low (min high n)

/-- The voice stays from an earlier configuration if there is no `tts` object. -/
def configureTts (cfg : Json) : Conf Unit := do
  modify fun c => { c with tts := { c.tts with speedWpm := 175 } }
  match cfg.member "tts" isObject, cfg.member "voice_modem" isObject with
  | some t, _ =>
    let speed ← t.valueInt "speed_wpm" 175
    modify fun c => { c with tts := { c.tts with speedWpm := clamp 80 450 speed } }
    let voice ← t.valueString "voice" ""
    modify fun c => { c with tts := { c.tts with voice := voice } }
  | none, some vm =>
    let speed ← vm.valueInt "tts_speed_wpm" 175
    modify fun c => { c with tts := { c.tts with speedWpm := clamp 80 450 speed } }
  | none, none => pure ()

def configureSip (s : Json) : Conf Unit := do
  let enabled ← s.valueBool "enabled" false
  modify fun c => { c with sip := { c.sip with enabled := enabled } }
  let server ← s.valueString "server" ""
  modify fun c => { c with sip := { c.sip with server := server } }
  let ext ← s.valueString "ext" ""
  modify fun c => { c with sip := { c.sip with ext := ext } }
  let pass ← s.valueString "pass" ""
  modify fun c => { c with sip := { c.sip with pass := pass } }
  let transport ← s.valueString "transport" "udp"
  modify fun c => { c with sip := { c.sip with transport := transport } }
  let netIf ← s.valueString "net_if" ""
  modify fun c => { c with sip := { c.sip with netIf := netIf } }
  let durationSec ← s.valueInt "duration_sec" 20
  modify fun c => { c with sip := { c.sip with durationSec := clamp 5 300 durationSec } }
  let ackPromptTts ← s.valueBool "ack_prompt_tts" true
  modify fun c => { c with sip := { c.sip with ackPromptTts := ackPromptTts } }
  let usePjsua2 ← s.valueBool "use_pjsua2" false
  modify fun c => { c with sip := { c.sip with usePjsua2 := usePjsua2 } }
  let testTo ← s.valueString "test_to" ""
  modify fun c => { c with sip := { c.sip with testTo := testTo } }
  let testAudioFile ← s.valueString "test_audio_file" ""
  modify fun c => { c with sip := { c.sip with testAudioFile := testAudioFile } }
  let testTtsText ← s.valueString "test_tts_text" ""
  modify fun c => { c with sip := { c.sip with testTtsText := testTtsText } }
  let ackConfirmAudioFile ← s.valueString "ack_confirm_audio_file" ""
  modify fun c => { c with sip := { c.sip with ackConfirmAudioFile := ackConfirmAudioFile } }
  let ackConfirmTtsText ← s.valueString "ack_confirm_tts_text" ""
  modify fun c => { c with sip := { c.sip with ackConfirmTtsText := ackConfirmTtsText } }
  let ackConfirmMaxMs ← s.valueInt "ack_confirm_max_ms" 4000
  modify fun c => { c with sip := { c.sip with ackConfirmMaxMs := clamp 0 30000 ackConfirmMaxMs } }

def addAudioFile (configDir : String) (c : NotificationConfig) (f : Json) : NotificationConfig :=
  let id := jsonStringOrEmpty f "id"
  let path := jsonStringOrEmpty f "path"
  let path := resolveAudioPath configDir (if path = "" then id else path)
  if f.isObject && id != "" then
    { c with audioPaths := Function.update c.audioPaths id (some path) }
  else c

def configureAudio (configDir : String) (audio : Json) : Conf Unit := do
  let device ← audio.valueString "output_device" ""
  modify fun c => { c with audioOutputDevice := device }
  modify fun c => ((audio.memberItems "files").getD []).foldl (addAudioFile configDir) c

def configureSmtp (s : Json) : Conf Unit := do
  let enabled ← s.valueBool "enabled" false
  modify fun c => { c with smtp := { c.smtp with enabled := enabled } }
  let host ← s.valueString "host" ""
  modify fun c => { c with smtp := { c.smtp with host := host } }
  let port ← s.valueInt "port" 587
  modify fun c => { c with smtp := { c.smtp with port := clamp 1 65535 port } }
  let security ← s.valueString "security" "starttls"
  modify fun c => { c with smtp := { c.smtp with
    security := if security ∈ ["starttls", "tls", "none"] then security else "starttls" } }
  let username ← s.valueString "username" ""
  modify fun c => { c with smtp := { c.smtp with username := username } }
  let password ← s.valueString "password" ""
  modify fun c => { c with smtp := { c.smtp with password := password } }
  let fromAddress ← s.valueString "from_address" ""
  modify fun c => { c with smtp := { c.smtp with fromAddress := fromAddress } }
  let fromName ← s.valueString "from_name" ""
  modify fun c => { c with smtp := { c.smtp with fromName := fromName } }
  let testTo ← s.valueString "test_to" ""
  modify fun c => { c with smtp := { c.smtp with testTo := testTo } }
  let timeoutSec ← s.valueInt "timeout_sec" 20
  modify fun c => { c with smtp := { c.smtp with timeoutSec := clamp 5 120 timeoutSec } }

/-! ## Contacts -/

/-- The member `key`, if it is an integer, between the bounds. -/
def clampedMember (item : Json) (key : String) (low high default : Int) : Except String Int :=
  match item.member key isNumberInteger with
  | none => pure default
  | some v => do
    let n ← v.getInt
    return clamp low high n

def readContact (item : Json) : Except String Contact := do
  let id ← item.valueString "id" ""
  let name ← item.valueString "name" id
  let phone ← item.valueString "phone" ""
  let home ← item.valueString "phone_home" ""
  let work ← item.valueString "phone_work" ""
  let cell ← item.valueString "phone_cell" ""
  let email ← item.valueString "email" ""
  let cell ← if cell = "" then item.valueString "cell" "" else pure cell
  let home ← if home = "" then item.valueString "home" "" else pure home
  let work ← if work = "" then item.valueString "work" "" else pure work
  let enabled ← item.valueBool "enabled" true
  let audioDelaySeconds ← clampedMember item "audio_delay_seconds" 0 120 (-1)
  let phone :=
    if phone ≠ "" then phone else if cell ≠ "" then cell else if work ≠ "" then work else home
  return { id, name, phone, phoneHome := home, phoneWork := work, phoneCell := cell, email, enabled,
           audioDelaySeconds }

def addContact (item : Json) : Conf Unit := do
  if item.isObject then
    let contact ← readContact item
    if contact.id ≠ "" then
      modify fun c => { c with contacts := Function.update c.contacts contact.id (some contact) }

def readContactGroup (item : Json) : Except String ContactGroup := do
  let id ← item.valueString "id" ""
  let name ← item.valueString "name" id
  let enabled ← item.valueBool "enabled" true
  return { id, name, enabled, contacts := stringItems ((item.memberItems "contacts").getD []) }

def addContactGroup (item : Json) : Conf Unit := do
  if item.isObject then
    let group ← readContactGroup item
    if group.id ≠ "" then
      modify fun c => { c with contactGroups := Function.update c.contactGroups group.id (some group) }

/-! ## Policies -/

/-- The first character of a key, if it has one. -/
def firstKey (text : String) : List String := (text.toList.take 1).map fun c => String.ofList [c]

/-- The first characters of the words of a text with commas and blanks. -/
def dtmfKeys (raw : String) : List String :=
  (raw.toList.splitOnP fun ch => ch == ',' || isSpace ch).flatMap fun token =>
    firstKey (String.ofList token)

/-- The keys in `ack_dtmf`, at least one. -/
def readAckDtmf (item : Json) (default : List String) : Except String (List String) := do
  let orOne (keys : List String) : List String := if keys.isEmpty then ["1"] else keys
  match item.find "ack_dtmf" with
  | some (.array values) =>
    let keys ← values.mapM fun dv =>
      match dv with
      | .string s => pure (firstKey s)
      | dv => do
        if dv.isNumberInteger then
          let n ← dv.getInt
          return firstKey (toString n)
        else return []
    return orOne keys.flatten
  | some (.string raw) => return orOne (dtmfKeys raw)
  | some v =>
    if v.isNumberInteger then
      let n ← v.getInt
      return orOne (firstKey (toString n))
    else return default
  | none => return default

def readPolicyTarget (target : Json) : Except String (List PolicyTarget) := do
  if !target.isObject then return []
  let type ← target.valueString "type" ""
  let id ← target.valueString "id" ""
  let method ← target.valueString "method" ""
  let afterMs ← target.valueLong "after_ms" 0
  if (type = "contact" ∨ type = "group") ∧ id ≠ "" then
    return [{ type, id, method, afterMs := max 0 afterMs }]
  else return []

/-- The `repeat` object of a policy goes before its own fields. -/
def readRepeat (item : Json) (p : Policy) : Except String Policy := do
  match item.member "repeat" isObject with
  | none => return p
  | some rep =>
    let enabled ← rep.valueBool "enabled" false
    let repeatMs ←
      if enabled then do
        let interval ← rep.valueLong "interval_ms" 60000
        pure (max 1 interval)
      else pure 0
    let initialDelayMs ← rep.valueLong "initial_delay_ms" 0
    let maxRepeats ← rep.valueLong "max_repeats" 0
    let until_ ← rep.valueString "stop_on" p.until_
    return { p with
      repeatMs := repeatMs
      repeatInitialDelayMs := max 0 initialDelayMs
      maxRepeats := clamp 0 1000000 (Int32.ofInt maxRepeats).toInt
      until_ := until_ }

def readPolicy (item : Json) : Except String Policy := do
  let id ← item.valueString "id" ""
  let name ← item.valueString "name" id
  let type ← item.valueString "type" "phone"
  let outputType ← item.valueString "output_type" type
  let callBackend ← item.valueString "call_backend" "auto"
  let enabled ← item.valueBool "enabled" true
  let minSeverity ← item.valueInt "min_severity" 0
  let repeatMs ← item.valueLong "repeat_ms" 0
  let repeatInitialDelayMs ← item.valueLong "repeat_initial_delay_ms" 0
  let maxRepeats ← item.valueInt "max_repeats" 0
  let until_ ← item.valueString "until" "acked_or_returned"
  let p ← readRepeat item {
    id, name, enabled, minSeverity, repeatMs, repeatInitialDelayMs, maxRepeats, until_
    outputType := if outputType = "voice" then "phone" else outputType
    callBackend := if callBackend ∈ ["auto", "sip", "voice_modem"] then callBackend else "auto" }
  let scheduleId ← item.valueString "schedule_id" "always"
  let audioDelaySeconds ← clampedMember item "audio_delay_seconds" 0 120 (-1)
  let audioGapMs ← clampedMember item "audio_gap_ms" 0 5000 (-1)
  let targets ← ((item.memberItems "targets").getD []).mapM readPolicyTarget
  let contacts := stringItems ((item.memberItems "contacts").getD [])
  let contactGroups := stringItems ((item.memberItems "contact_groups").getD [])
  let ackEnabled ←
    match item.member "ack_enabled" isBoolean with
    | none => pure true
    | some v => v.getBool
  let ackDtmf ← readAckDtmf item ["1"]
  let ackWaitSec ← clampedMember item "ack_wait_sec" 0 120 8
  let ringTimeoutSec ← clampedMember item "ring_timeout_sec" 5 600 15
  let emailSubjectTemplate ← item.valueString "email_subject_template" ""
  let emailActiveBodyTemplate ← item.valueString "email_active_body_template" ""
  let emailClearBodyTemplate ← item.valueString "email_clear_body_template" ""
  return { p with
    scheduleId, audioDelaySeconds, audioGapMs, contacts, contactGroups, ackEnabled, ringTimeoutSec
    emailSubjectTemplate, emailActiveBodyTemplate, emailClearBodyTemplate
    on := (((item.memberItems "on").or (item.memberItems "triggers")).map stringItems).getD ["active"]
    targets :=
      if targets.flatten.isEmpty then
        contacts.map (fun id => { type := "contact", id, method := "cell" }) ++
          contactGroups.map fun id => { type := "group", id, method := "cell" }
      else targets.flatten
    ackDtmf := if ackEnabled then ackDtmf else []
    ackWaitSec := if ackEnabled then ackWaitSec else 0 }

/-- `policies_[p.id] = p` -/
def setPolicy (c : NotificationConfig) (p : Policy) : NotificationConfig :=
  { c with
    policies := Function.update c.policies p.id (some p)
    policies_id := by
      intro id q h
      by_cases hid : id = p.id
      · rw [hid, Function.update_self] at h
        rw [← Option.some.inj h, hid]
      · rw [Function.update_of_ne hid] at h
        exact c.policies_id id q h
    policyNameToId :=
      if p.name ≠ "" ∧ p.name ≠ p.id then Function.update c.policyNameToId p.name (some p.id)
      else c.policyNameToId }

def addPolicyItem (item : Json) : Conf Unit := do
  if item.isObject then
    let p ← readPolicy item
    if p.id ≠ "" then modify fun c => setPolicy c p

/-! ## Assignments and alarm groups -/

def intMember (item : Json) (key : String) : Except String (Option Int) :=
  match item.member key isNumberInteger with
  | none => pure none
  | some v => some <$> v.getInt

def readAssignment (item : Json) : Except String Assignment := do
  let id ← item.valueString "id" ""
  let enabled ← item.valueBool "enabled" true
  let planId ← item.valueString "plan_id" ""
  let priority ← item.valueInt "priority" 1000
  let scope := (item.member "scope" isObject).getD item
  let severityMin ← intMember scope "severity_min"
  let severityMax ← intMember scope "severity_max"
  return { id, enabled, planId, priority, severityMin, severityMax
           alarmId := jsonStringOrEmpty scope "alarm_id"
           group := jsonStringOrEmpty scope "group"
           site := jsonStringOrEmpty scope "site" }

def addAssignment (item : Json) : Conf Unit := do
  if item.isObject then
    let a ← readAssignment item
    if a.planId ≠ "" then
      modify fun c => { c with
        assignments := c.assignments ++
          [{ a with planId := (c.policyNameToId a.planId).getD a.planId }] }

def nonemptyStrings (item : Json) (key : String) : List String :=
  (stringItems ((item.memberItems key).getD [])).filter (· != "")

def readAlarmGroup (item : Json) : Except String AlarmRouteBinding := do
  let id ← item.valueString "id" ""
  let name ← item.valueString "name" id
  let enabled ← item.valueBool "enabled" true
  let scheduleId ← item.valueString "schedule_id" "always"
  return { id, name, enabled, scheduleId, alarms := nonemptyStrings item "alarms"
           policyIds := nonemptyStrings item "policy_ids" }

def addAlarmGroup (item : Json) : Conf Unit := do
  if item.isObject then
    let route ← readAlarmGroup item
    if route.id ≠ "" then
      modify fun c => { c with alarmRouteBindings := c.alarmRouteBindings ++ [route] }

/-! ## Routes -/

def audioArgsForOutput (outputRaw : String) : List String :=
  let output := if trimCopy outputRaw = "" then "default" else trimCopy outputRaw
  if output = "default" then ["{audio_path}"] else ["-D", output, "{audio_path}"]

def applyConfiguredAudioOutput (device : String) (route : Route) : Route :=
  if route.type ≠ "audio_command" ∨ trimCopy device = "" then route
  else { route with args := audioArgsForOutput device }

def readRoute (item : Json) : Except String Route := do
  let name ← item.valueString "name" ""
  let type ← item.valueString "type" ""
  let enabled ← item.valueBool "enabled" true
  let minSeverity ← item.valueInt "min_severity" 0
  let command ← item.valueString "command" ""
  let repeatMs ← item.valueLong "repeat_ms" 0
  let repeatInitialDelayMs ← item.valueLong "repeat_initial_delay_ms" 0
  let maxRepeats ← item.valueInt "max_repeats" 0
  let until_ ← item.valueString "until" "acked_or_returned"
  let scheduleId ← item.valueString "schedule_id" "always"
  let defaultName := if type = "" then "notification" else type
  return { type, enabled, minSeverity, command, repeatMs, repeatInitialDelayMs, maxRepeats, until_
           scheduleId
           name := if name = "" then defaultName else name
           on := ((item.memberItems "on").map stringItems).getD ["active"]
           args := stringItems ((item.memberItems "args").getD []) }

def addConfiguredRoute (item : Json) : Conf Unit := do
  if item.isObject then
    let r ← readRoute item
    if r.type = "audio_command" ∧ r.command ≠ "" then
      modify fun c => { c with
        routes := c.routes ++ [applyConfiguredAudioOutput c.audioOutputDevice r] }

/-! ## The document -/

/-- The tables are cleared; `tts_`, `sip_` and `smtp_` are not among them. -/
def NotificationConfig.cleared (c : NotificationConfig) : NotificationConfig :=
  { tts := c.tts, sip := c.sip, smtp := c.smtp }

/-- A section for each item of an array member. -/
def forItems (cfg : Json) (key : String) (add : Json → Conf Unit) : Conf Unit :=
  ((cfg.memberItems key).getD []).forM add

/-- A section for an object member. -/
def forObject (cfg : Json) (key : String) (configure : Json → Conf Unit) : Conf Unit :=
  match cfg.member key isObject with
  | none => pure ()
  | some section_ => configure section_

def configureTables (configDir : String) (cfg : Json) : Conf Unit := do
  modify NotificationConfig.cleared
  if cfg.isObject then
    forItems cfg "schedules" addSchedule
    modify addAlwaysSchedule
    forObject cfg "voice_modem" configureVoiceModem
    configureTts cfg
    modify fun c => { c with sip := {} }
    forObject cfg "sip" configureSip
    forObject cfg "audio" (configureAudio configDir)
    modify fun c => { c with smtp := {} }
    forObject cfg "smtp" configureSmtp
    forItems cfg "contacts" addContact
    forItems cfg "contact_groups" addContactGroup
    forItems cfg "policies" addPolicyItem
    forItems cfg "assignments" addAssignment
    forItems cfg "alarm_groups" addAlarmGroup
    forItems cfg "routes" addConfiguredRoute

structure NotificationManager where
  configDir : String
  config : NotificationConfig := {}
  queue : JobQueue → List Job := fun _ => []

def NotificationManager.setConfigDir (m : NotificationManager) (dir : String) : NotificationManager :=
  { m with configDir := dir }

/-- Both queues are cleared with the tables. -/
def NotificationManager.configure (m : NotificationManager) (cfg : Json) :
    Except String Unit × NotificationManager :=
  let x := (configureTables m.configDir cfg).run.run m.config
  (x.1, { m with config := x.2, queue := fun _ => [] })

end OpcBridge.Alarms
