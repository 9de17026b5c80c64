import OpcBridge.Alarms.Effects
import OpcBridge.Alarms.NotificationConfig

/-!
# Notifications

`NotificationManager`: an alarm event becomes jobs of the policies that are selected for the alarm,
and two workers take the jobs from their queues. A worker's round is several steps, because alarms
change between them: it takes the earliest due job, asks `should_continue_notification`, makes the
attempt, asks again and puts a repeating job back.

A job carries the number of the activation that queued it, and every attempt is recorded with the
state of its alarm; the program has neither.
-/

namespace OpcBridge.Alarms

open OpcBridge

/-! ## Jobs -/

structure CallLeg where
  contactId : String
  contactName : String
  phone : String
  afterMs : Int
deriving DecidableEq

structure Job where
  route : Route
  alarmId : String
  eventType : String
  dueMs : Int
  email : String := ""
  contactId : String := ""
  contactName : String := ""
  policyId : String
  callBackend : String := "auto"
  /-- Repeats after the first attempt; negative without a limit. -/
  repeatsLeft : Int
  callLegs : List CallLeg := []
  /-- The activation of the alarm that queued the job. -/
  activation : Nat
deriving DecidableEq

inductive JobQueue
  | audio
  | modem
deriving DecidableEq

/-- What an event finds outside of the configuration. -/
structure NotifyEnv where
  /-- `now_ms()` as it is read for a policy and a recipient. -/
  clock : String → String → Int
  /-- The configured schedules that are active at the local time. -/
  schedules : String → Bool
  /-- The alarm has an audio path, or speech was generated for it. -/
  hasAudio : Bool

def scheduleIsActive (env : NotifyEnv) (scheduleId : String) : Bool :=
  let sid := trimCopy scheduleId
  sid == "" || sid == "always" || env.schedules sid

/-- The first element of each key. -/
def firstOfKey {α : Type} (key : α → String) : List String → List α → List α
  | _, [] => []
  | seen, x :: xs =>
    if key x ∈ seen then firstOfKey key seen xs else x :: firstOfKey key (key x :: seen) xs

namespace NotificationConfig
variable (cfg : NotificationConfig)

def findPolicy (idOrName : String) : Option Policy :=
  (cfg.policies idOrName).or ((cfg.policyNameToId idOrName).bind cfg.policies)

/-! ## Selecting policies -/

def selectAudioRoute : Option Route :=
  let audio := cfg.routes.filter fun r => r.type == "audio_command" && r.command != "" && r.enabled
  (audio.find? fun r => r.name == "default_audio").or audio.head?

def assignmentClass (a : Assignment) : Nat :=
  if a.alarmId ≠ "" then 0
  else if a.group ≠ "" ∧ a.site ≠ "" then 1
  else if a.group ≠ "" then 2
  else if a.severityMin.isSome ∨ a.severityMax.isSome then 3
  else 90

def assignmentMatches (alarmId : String) (info : AlarmInfo) (a : Assignment) : Bool :=
  if !a.enabled || a.planId == "" then false
  else if a.alarmId ≠ "" then a.alarmId == alarmId
  else if a.group ≠ "" then a.group == info.group && (a.site == "" || a.site == info.site)
  else if a.severityMin.isSome ∨ a.severityMax.isSome then
    a.severityMin.all (fun low => decide (low ≤ info.severity)) &&
      a.severityMax.all (fun high => decide (info.severity ≤ high))
  else false

/-- The assignment `a` is better than the best so far. -/
def assignmentBetter (a best : Assignment) : Bool :=
  decide (assignmentClass a < assignmentClass best) ||
    (decide (assignmentClass a = assignmentClass best) &&
      (decide (a.priority < best.priority) ||
        (decide (a.priority = best.priority) && decide (a.id < best.id))))

def resolvePolicy (alarmId : String) (info : AlarmInfo) : String :=
  let fits := cfg.assignments.filter fun a =>
    assignmentMatches alarmId info a && (cfg.findPolicy a.planId).isSome
  match fits.foldl (fun best a => match best with
      | none => some a
      | some b => if assignmentBetter a b then some a else some b) none with
  | none => ""
  | some a => a.planId

/-- The alarm groups that route the alarm. -/
def bindingsOf (alarmId : String) : List AlarmRouteBinding :=
  cfg.alarmRouteBindings.filter fun r => r.enabled && decide (alarmId ∈ r.alarms)

/-- The policies of an event with their schedules: those of the alarm's groups, each once for a
schedule, or else the assigned one. -/
def selections (alarmId : String) (info : AlarmInfo) : List (Policy × String) :=
  if cfg.bindingsOf alarmId ≠ [] then
    firstOfKey (fun x => x.1.id ++ "\n" ++ x.2) [] <|
      (cfg.bindingsOf alarmId).flatMap fun route =>
        route.policyIds.filterMap fun id => (cfg.findPolicy id).map (·, route.scheduleId)
  else
    let selected := cfg.resolvePolicy alarmId info
    let selected := if selected = "" then info.notificationPolicy else selected
    if selected = "" then []
    else match cfg.findPolicy selected with
      | none => []
      | some policy => [(policy, policy.scheduleId)]

/-! ## Queueing -/

def effectiveScheduleId (policy : Policy) (override : String) : String :=
  if override = "" then policy.scheduleId else override

/-- Repeats after the first attempt. -/
def repeatsAfterFirst (policy : Policy) : Int :=
  if policy.maxRepeats ≤ 0 then -1 else max 0 (policy.maxRepeats - 1)

def initialDelay (policy : Policy) (eventType : String) : Int :=
  if eventType = "active" then max 0 policy.repeatInitialDelayMs else 0

def namedRoute (kind : String) (policy : Policy) : String :=
  if policy.name = "" then kind ++ ":" ++ policy.id else kind ++ ":" ++ policy.name

def routeNeedsAudioPath (route : Route) : Bool :=
  route.args.isEmpty || route.args.any fun arg =>
    decide ("{audio_path}".toList <:+: arg.toList) || decide ("{audio_file}".toList <:+: arg.toList)

def audioPolicyJob (env : NotifyEnv) (policy : Policy) (scheduleId alarmId eventType : String)
    (activation : Nat) : Option Job :=
  match cfg.selectAudioRoute with
  | none => none
  | some base =>
    if routeNeedsAudioPath base && !env.hasAudio then none
    else some {
      route := { base with
        name := namedRoute "audio_policy" policy
        repeatMs := policy.repeatMs
        repeatInitialDelayMs := policy.repeatInitialDelayMs
        until_ := policy.until_
        maxRepeats := policy.maxRepeats
        scheduleId := scheduleId }
      alarmId := alarmId
      eventType := eventType
      policyId := policy.id
      repeatsLeft := repeatsAfterFirst policy
      dueMs := env.clock policy.id "" + initialDelay policy eventType
      activation := activation }

def targetContacts (target : PolicyTarget) : List Contact :=
  if target.type = "contact" then (cfg.contacts target.id).toList
  else if target.type = "group" then
    match cfg.contactGroups target.id with
    | none => []
    | some group => if !group.enabled then [] else group.contacts.filterMap cfg.contacts
  else []

/-- The contacts of a policy, with the target that names them. -/
def recipients (policy : Policy) : List (Contact × PolicyTarget) :=
  policy.targets.flatMap fun target => (cfg.targetContacts target).map (·, target)

def emailPolicyJobs (env : NotifyEnv) (policy : Policy) (scheduleId alarmId eventType : String)
    (activation : Nat) : List Job :=
  if !cfg.smtp.enabled || cfg.smtp.host == "" then []
  else
    let targets := firstOfKey (fun x => x.1.email) [] <|
      (cfg.recipients policy).filter fun x => x.1.enabled && x.1.email != ""
    targets.map fun x =>
      { route :=
          { name := namedRoute "email_policy" policy
            type := "email"
            enabled := true
            minSeverity := policy.minSeverity
            on := policy.on
            repeatMs := policy.repeatMs
            until_ := policy.until_
            repeatInitialDelayMs := policy.repeatInitialDelayMs
            maxRepeats := policy.maxRepeats
            scheduleId := scheduleId }
        alarmId := alarmId
        eventType := eventType
        dueMs := env.clock policy.id x.1.email + max 0 x.2.afterMs
        email := x.1.email
        contactId := x.1.id
        contactName := x.1.name
        policyId := policy.id
        repeatsLeft := repeatsAfterFirst policy
        activation := activation }

def contactPhoneForMethod (c : Contact) (method : String) : String :=
  let m := if method = "" then "cell" else method
  if m = "home" then (if c.phoneHome = "" then c.phone else c.phoneHome)
  else if m = "work" then (if c.phoneWork = "" then c.phone else c.phoneWork)
  else if m = "cell" then (if c.phoneCell = "" then c.phone else c.phoneCell)
  else if c.phone = "" then
    (if c.phoneCell ≠ "" then c.phoneCell else if c.phoneWork ≠ "" then c.phoneWork else c.phoneHome)
  else c.phone

/-- A backend is available if it is configured, and enabled or forced by the policy. -/
def callBackendAvailable (policy : Policy) : Bool :=
  let sipConfigured := cfg.sip.server != "" && cfg.sip.ext != "" && cfg.sip.pass != ""
  let vmConfigured := cfg.voiceModem.device != ""
  (sipConfigured && (policy.callBackend == "sip" || cfg.sip.enabled)) ||
    (vmConfigured && (policy.callBackend == "voice_modem" || cfg.voiceModem.enabled))

def callLegs (policy : Policy) : List CallLeg :=
  let legs := (cfg.recipients policy).filterMap fun x =>
    let dial := contactPhoneForMethod x.1 x.2.method
    if !x.1.enabled || dial == "" then none
    else some { contactId := x.1.id, contactName := x.1.name, phone := dial,
                afterMs := max 0 x.2.afterMs : CallLeg }
  firstOfKey CallLeg.phone [] legs

def phonePolicyJob (env : NotifyEnv) (policy : Policy) (scheduleId alarmId eventType : String)
    (activation : Nat) : Option Job :=
  if !cfg.callBackendAvailable policy then none
  else match cfg.callLegs policy with
    | [] => none
    | first :: legs => some {
        route :=
          { name := namedRoute "phone_policy" policy
            type := "call_sequence"
            repeatMs := policy.repeatMs
            repeatInitialDelayMs := policy.repeatInitialDelayMs
            maxRepeats := policy.maxRepeats
            until_ := policy.until_
            scheduleId := scheduleId }
        alarmId := alarmId
        eventType := eventType
        policyId := policy.id
        callBackend := policy.callBackend
        repeatsLeft := repeatsAfterFirst policy
        callLegs := first :: legs
        dueMs := env.clock policy.id "" + initialDelay policy eventType + max 0 first.afterMs
        activation := activation }

def enqueuePolicyOutput (env : NotifyEnv) (policy : Policy) (override : String) (alarmId : String)
    (info : AlarmInfo) (eventType : String) (activation : Nat) : List (JobQueue × Job) :=
  if !policy.enabled then []
  else if info.severity < policy.minSeverity then []
  else if eventType ∉ policy.on then []
  else
    let scheduleId := effectiveScheduleId policy override
    if !scheduleIsActive env scheduleId then []
    else if policy.outputType = "audio" then
      (cfg.audioPolicyJob env policy scheduleId alarmId eventType activation).toList.map (.audio, ·)
    else if policy.outputType = "email" then
      (cfg.emailPolicyJobs env policy scheduleId alarmId eventType activation).map (.modem, ·)
    else if policy.outputType ≠ "phone" then []
    else (cfg.phonePolicyJob env policy scheduleId alarmId eventType activation).toList.map (.modem, ·)

/-- The jobs of an event, in the order in which they are queued. -/
def enqueuePolicyJobs (env : NotifyEnv) (alarmId : String) (info : AlarmInfo) (eventType : String)
    (activation : Nat) : List (JobQueue × Job) :=
  (cfg.selections alarmId info).flatMap fun x =>
    cfg.enqueuePolicyOutput env x.1 x.2 alarmId info eventType activation

end NotificationConfig

/-! ## The workers -/

/-- Where a worker is in its round. -/
inductive Worker
  | idle
  | popped (job : Job)
  | checked (job : Job)
  | running (job : Job)
  | finished (job : Job)
  | repeating (job : Job)

structure Attempt where
  job : Job
  /-- The activation that the alarm was in. -/
  current : Nat
  alarmActive : Bool

/-- The first job that is due earliest, and the others. -/
def takeBest : List Job → Option (Job × List Job)
  | [] => none
  | job :: jobs =>
    match takeBest jobs with
    | none => some (job, [])
    | some (best, rest) =>
      if best.dueMs < job.dueMs then some (best, job :: rest) else some (job, jobs)

variable [Floats]

/-- The alarms and the notification manager. -/
structure Notifier where
  states : String → Option AlarmState
  queue : JobQueue → List Job := fun _ => []
  worker : JobQueue → Worker := fun _ => .idle
  activations : String → Nat := fun _ => 0
  attempts : List Attempt := []

def shouldContinueNotification (states : String → Option AlarmState) (alarmId until_ : String)
    (t : Int) : Bool :=
  match states alarmId with
  | none => false
  | some s =>
    if !s.enabled || !s.siteEnabled || s.shelvedAt t then false
    else if until_ = "returned" then s.active
    else if until_ = "acked" then s.active && !s.acked
    else if until_ = "manual" then s.active
    else s.active && !s.acked

namespace Notifier

def alarmActive (s : Notifier) (id : String) : Bool := (s.states id).any (·.active)

def setWorker (s : Notifier) (q : JobQueue) (w : Worker) : Notifier :=
  { s with worker := Function.update s.worker q w }

def shouldContinueJob (s : Notifier) (job : Job) (t : Int) : Bool :=
  shouldContinueNotification s.states job.alarmId job.route.until_ t

def pop (s : Notifier) (q : JobQueue) (now : Int) : Notifier :=
  match s.worker q, takeBest (s.queue q) with
  | .idle, some (best, rest) =>
    if now < best.dueMs then s
    else { s.setWorker q (.popped best) with queue := Function.update s.queue q rest }
  | _, _ => s

def check (s : Notifier) (q : JobQueue) (t : Int) : Notifier :=
  match s.worker q with
  | .popped job =>
    if job.eventType == "active" && !s.shouldContinueJob job t then s.setWorker q .idle
    else s.setWorker q (.checked job)
  | _ => s

def start (s : Notifier) (q : JobQueue) : Notifier :=
  match s.worker q with
  | .checked job =>
    { s.setWorker q (.running job) with
      attempts := s.attempts ++
        [{ job := job, current := s.activations job.alarmId,
           alarmActive := s.alarmActive job.alarmId }] }
  | _ => s

def finish (s : Notifier) (q : JobQueue) : Notifier :=
  match s.worker q with
  | .running job => s.setWorker q (.finished job)
  | _ => s

/-- Asks whether the job repeats; `t` and `now` are the readings of the two calls. -/
def decideRepeat (s : Notifier) (q : JobQueue) (t now : Int) : Notifier :=
  match s.worker q with
  | .finished job =>
    if job.eventType == "active" && decide (0 < job.route.repeatMs) && s.shouldContinueJob job t then
      if job.repeatsLeft = 0 then s.setWorker q .idle
      else s.setWorker q (.repeating { job with
        repeatsLeft := if 0 < job.repeatsLeft then job.repeatsLeft - 1 else job.repeatsLeft
        dueMs := now + job.route.repeatMs })
    else s.setWorker q .idle
  | _ => s

def push (s : Notifier) (q : JobQueue) : Notifier :=
  match s.worker q with
  | .repeating job =>
    { s.setWorker q .idle with queue := Function.update s.queue q (s.queue q ++ [job]) }
  | _ => s

end Notifier

/-! ## Runs -/

section
variable [JsonLib]

/-- The type of an event; an event is notified when it is logged. -/
def Mark.eventType : Mark → Option String
  | .event e => some e.type
  | .dropped _ => none

/-- What does not change during a run. -/
structure NotifySetup where
  cfg : NotificationConfig
  info : String → AlarmInfo

/-- The activation that an alarm is in after an effect. -/
def Notifier.nextActivation (s : Notifier) (id : String) (before after : AlarmState) : Nat :=
  if !before.active && after.active then s.activations id + 1 else s.activations id

/-- The engine changes an alarm and notifies its events. -/
def Notifier.change (s : Notifier) (setup : NotifySetup) (id : String) (f : Effect)
    (env : NotifyEnv) : Notifier :=
  match s.states id with
  | none => s
  | some a =>
    let next := f.run a
    let activation := s.nextActivation id a next.1
    let jobs := (next.2.filterMap Mark.eventType).flatMap fun type =>
      setup.cfg.enqueuePolicyJobs env id (setup.info id) type activation
    { s with
      states := Function.update s.states id (some next.1)
      activations := Function.update s.activations id activation
      queue := fun q => s.queue q ++ (jobs.filter fun x => decide (x.1 = q)).map Prod.snd }

inductive NotifyOp
  | change (id : String) (f : Effect) (env : NotifyEnv)
  | pop (q : JobQueue) (now : Int)
  | check (q : JobQueue) (t : Int)
  | start (q : JobQueue)
  | finish (q : JobQueue)
  | decideRepeat (q : JobQueue) (t now : Int)
  | push (q : JobQueue)

def Notifier.step (setup : NotifySetup) (s : Notifier) : NotifyOp → Notifier
  | .change id f env => s.change setup id f env
  | .pop q now => s.pop q now
  | .check q t => s.check q t
  | .start q => s.start q
  | .finish q => s.finish q
  | .decideRepeat q t now => s.decideRepeat q t now
  | .push q => s.push q

end

end OpcBridge.Alarms
