/-!
# The notification configuration

The tables of `NotificationManager` that `configure` fills and the policies read.
-/

namespace OpcBridge.Alarms

structure Route where
  name : String := ""
  type : String := ""
  enabled : Bool := true
  minSeverity : Int := 0
  on : List String := ["active"]
  command : String := ""
  args : List String := []
  repeatMs : Int := 0
  repeatInitialDelayMs : Int := 0
  /-- 0 repeats until the stop condition; otherwise the total of attempts. -/
  maxRepeats : Int := 0
  until_ : String := "acked_or_returned"
  scheduleId : String := "always"
deriving DecidableEq

structure TtsConfig where
  speedWpm : Int := 175
  voice : String := ""

structure VoiceModemConfig where
  enabled : Bool := false
  device : String := ""
  baud : Int := 115200
  voiceInit : Bool := false
  voiceLine : Int := 1
  dialSeconds : Int := 30
  audioDelaySeconds : Int := 8
  audioGapMs : Int := 50
  commandTimeoutMs : Int := 3000
  ttsEngine : String := "auto"

structure SipConfig where
  enabled : Bool := false
  server : String := ""
  ext : String := ""
  pass : String := ""
  transport : String := "udp"
  netIf : String := ""
  durationSec : Int := 20
  ackPromptTts : Bool := true
  usePjsua2 : Bool := false
  testTo : String := ""
  testAudioFile : String := ""
  testTtsText : String := ""
  ackConfirmAudioFile : String := ""
  ackConfirmTtsText : String := ""
  ackConfirmMaxMs : Int := 4000

structure SmtpConfig where
  enabled : Bool := false
  host : String := ""
  port : Int := 587
  security : String := "starttls"
  username : String := ""
  password : String := ""
  fromAddress : String := ""
  fromName : String := ""
  testTo : String := ""
  timeoutSec : Int := 20

structure Contact where
  id : String
  name : String := ""
  phone : String := ""
  phoneHome : String := ""
  phoneWork : String := ""
  phoneCell : String := ""
  email : String := ""
  enabled : Bool := true
  audioDelaySeconds : Int := -1

structure ContactGroup where
  id : String
  name : String := ""
  enabled : Bool := true
  contacts : List String := []

structure PolicyTarget where
  type : String
  id : String
  method : String := ""
  afterMs : Int := 0

structure Policy where
  id : String
  name : String := ""
  outputType : String := "phone"
  callBackend : String := "auto"
  enabled : Bool := true
  minSeverity : Int := 0
  on : List String := ["active"]
  targets : List PolicyTarget := []
  contacts : List String := []
  contactGroups : List String := []
  repeatMs : Int := 0
  repeatInitialDelayMs : Int := 0
  /-- 0 repeats until the stop condition; otherwise the total of attempts. -/
  maxRepeats : Int := 0
  until_ : String := "acked_or_returned"
  audioDelaySeconds : Int := -1
  audioGapMs : Int := -1
  scheduleId : String := "always"
  ackEnabled : Bool := true
  ackDtmf : List String := ["1"]
  ackWaitSec : Int := 8
  ringTimeoutSec : Int := 15
  emailSubjectTemplate : String := ""
  emailActiveBodyTemplate : String := ""
  emailClearBodyTemplate : String := ""

structure Assignment where
  id : String := ""
  enabled : Bool := true
  planId : String := ""
  priority : Int := 1000
  alarmId : String := ""
  group : String := ""
  site : String := ""
  severityMin : Option Int := none
  severityMax : Option Int := none

structure AlarmRouteBinding where
  id : String
  name : String := ""
  enabled : Bool := true
  scheduleId : String := "always"
  alarms : List String := []
  policyIds : List String := []

structure Schedule where
  id : String
  type : String := "always"
  scheduleId : String := ""
  /-- Sunday first. -/
  customDays : List Bool := List.replicate 7 true
  customHasDays : Bool := false
  startDate : String := ""
  endDate : String := ""
  startTime : String := ""
  endTime : String := ""

theorem noPolicies_id : ∀ (id : String) (p : Policy), none = some p → p.id = id := by
  intro id p h
  cases h

structure NotificationConfig where
  routes : List Route := []
  voiceModem : VoiceModemConfig := {}
  tts : TtsConfig := {}
  sip : SipConfig := {}
  smtp : SmtpConfig := {}
  contacts : String → Option Contact := fun _ => none
  contactGroups : String → Option ContactGroup := fun _ => none
  policies : String → Option Policy := fun _ => none
  /-- `policies_[id] = p` -/
  policies_id : ∀ id p, policies id = some p → p.id = id := by exact noPolicies_id
  policyNameToId : String → Option String := fun _ => none
  assignments : List Assignment := []
  alarmRouteBindings : List AlarmRouteBinding := []
  schedules : String → Option Schedule := fun _ => none
  audioPaths : String → Option String := fun _ => none
  audioOutputDevice : String := ""

/-- The fields of an alarm that only policies read. -/
structure AlarmInfo where
  severity : Int := 0
  group : String := ""
  site : String := ""
  notificationPolicy : String := ""

end OpcBridge.Alarms
