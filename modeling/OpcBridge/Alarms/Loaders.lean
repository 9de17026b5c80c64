import OpcBridge.Alarms.Rules
import OpcBridge.Alarms.Typed

/-!
# Loading a configuration

`fetch_rules_from_opcbridge` and `load_rules_from_file`. Both configure the notifications before
they have read the rules, so a document that is refused after that has already replaced the
notification tables and emptied the queues. `rejected_configuration_iff` says when a refused
document leaves everything as it was.
-/

namespace OpcBridge.Alarms

open OpcBridge Json

section
variable [Floats]

/-! ## The alarm server -/

/-- The engine, what it remembers of the configuration, and the notifications. -/
structure AlarmServer [Floats] where
  engine : AlarmEngine := {}
  details : String → Option AlarmDetails := fun _ => none
  lastConfigMtimeMs : Int := -1
  lastConfigHash : String := ""
  manager : NotificationManager

/-- The fields of the rules that the engine does not keep. -/
def detailsOf (rules : List ParsedRule) : String → Option AlarmDetails :=
  rules.foldl (fun details r => Function.update details r.rule.id (some r.details)) fun _ => none

/-- What `opcbridge` answers; `none` is a body that does not parse. -/
inductive FetchReply [Floats]
  | unreachable
  | response (status : Int) (body : Option Json)

inductive FetchFailure
  /-- The function returned false. -/
  | refused (err : String)
  /-- An exception left the function. -/
  | thrown (what : String)
deriving DecidableEq

variable [JsonLib]

/-! ## From opcbridge -/

/-- Some tooling saves the whole response as the document. -/
def unwrapRoot (root : Json) : Json :=
  match root.member "json" isObject with
  | some inner => if root.contains "rules" || root.contains "alarms" then root else inner
  | none => root

/-- The changed document of an answer and its time; `none` if it did not change. -/
def AlarmServer.fetchedRoot (s : AlarmServer) :
    FetchReply → Except FetchFailure (Option (Int × Json))
  | .unreachable => .error (.refused "Failed to connect to opcbridge HTTP.")
  | .response status body =>
    if status ≠ 200 then .error (.refused ("opcbridge returned HTTP " ++ toString status))
    else match body with
      | none => .error (.refused "Invalid JSON from /config/alarms")
      | some body => do
        let ok ← if body.isObject then (body.valueBool "ok" false).mapError .thrown else pure false
        if !ok then
          let err ← (body.valueString "error" "opcbridge returned ok=false").mapError .thrown
          throw (.refused err)
        let mtime ←
          match body.member "mtime_ms" isNumberInteger with
          | some v => v.getLong.mapError .thrown
          | none => pure (-1)
        match body.find "json" with
        | none => throw (.refused "Missing json field in /config/alarms response")
        | some root =>
          if s.lastConfigMtimeMs ≠ -1 ∧ mtime ≠ -1 ∧ mtime = s.lastConfigMtimeMs then return none
          else if !root.isObject then throw (.refused "alarms.json must be an object")
          else return some (mtime, unwrapRoot root)

/-- The delay and the rules of a document, for `fetch_rules_from_opcbridge`. -/
def fetchedRules (root : Json) (configDir : String) : Except String (Int × List ParsedRule) := do
  let delay ← root.valueLong "alarm_delay_ms" 0
  let items ← ruleItems ["name", "id"] root
  let rules ← readRules root configDir (items.getD [])
  return (max 0 delay, rules)

/-- The document is the one that is in force. -/
def AlarmServer.sameConfig (s : AlarmServer) (root : Json) : Prop :=
  s.lastConfigHash ≠ "" ∧ s.lastConfigHash = JsonLib.dump root

instance (s : AlarmServer) (root : Json) : Decidable (s.sameConfig root) :=
  inferInstanceAs (Decidable (_ ∧ _))

/-- The notification configuration of a changed document; `none` if it did not change. -/
def AlarmServer.changedConfiguration (s : AlarmServer) (root : Json) :
    Except FetchFailure (Option Json) :=
  if s.sameConfig root then .ok none
  else if !root.isObject then .error (.refused "Unsupported alarms config: ")
  else match notificationConfigFromRoot root with
    | .error what => .error (.thrown what)
    | .ok cfg => .ok (some cfg)

def AlarmServer.fetchRules (s : AlarmServer) (configDir : String) (reply : FetchReply) :
    Except FetchFailure Unit × AlarmServer :=
  match s.fetchedRoot reply with
  | .error e => (.error e, s)
  | .ok none => (.ok (), s)
  | .ok (some (mtime, root)) =>
    let s := { s with manager := s.manager.setConfigDir configDir }
    match s.changedConfiguration root with
    | .error e => (.error e, s)
    | .ok none => (.ok (), s)
    | .ok (some cfg) =>
      let (configured, manager) := s.manager.configure cfg
      let s := { s with manager := manager }
      match configured with
      | .error what => (.error (.thrown what), s)
      | .ok () =>
        match fetchedRules root configDir with
        | .error what => (.error (.refused ("Failed to apply rules: " ++ what)), s)
        | .ok (delay, rules) => (.ok (), { s with
            engine := s.engine.reload (rules.map (·.rule)) delay
            details := detailsOf rules
            lastConfigMtimeMs := mtime
            lastConfigHash := JsonLib.dump root })

/-! ## From a file -/

def dirnameOf (path : String) : String :=
  match splitLast '/' path.toList with
  | none => "."
  | some ([], _) => "/"
  | some (dir, _) => String.ofList dir

/-- What `load_rules_from_file` reads before it configures the notifications. -/
def fileConfiguration (root : Json) : Except String (Int × List Json × Json) := do
  if !root.isObject then throw "Invalid alarms.json; expected a JSON object."
  let delay ← root.valueLong "alarm_delay_ms" 0
  let items ← ruleItems ["name", "description", "id"] root
  match items with
  | none =>
    throw "Invalid alarms.json; expected \x7b\"rules\":[...]\x7d or \x7b\"alarms\":[...]\x7d"
  | some items =>
    let cfg ← notificationConfigFromRoot root
    return (max 0 delay, items, cfg)

/-- `file` is the parsed file, or why it could not be read. -/
def AlarmServer.loadRulesFromFile (s : AlarmServer) (path : String) (file : Except String Json) :
    Except String Unit × AlarmServer :=
  match file with
  | .error what => (.error what, s)
  | .ok root =>
    match fileConfiguration root with
    | .error what => (.error what, s)
    | .ok (delay, items, cfg) =>
      let (configured, manager) := s.manager.configure cfg
      let s := { s with manager := manager }
      match configured with
      | .error what => (.error what, s)
      | .ok () =>
        match readRules root (dirnameOf path) items with
        | .error what => (.error what, s)
        | .ok rules => (.ok (), { s with
            engine := s.engine.loadRulesFromFile (rules.map (·.rule)) delay
            details := detailsOf rules })

/-! ## What a refused document changes -/

/-- No job is queued, and configuring `cfg` leaves the tables as they are. -/
def NotificationManager.Settled (m : NotificationManager) (cfg : Json) : Prop :=
  (∀ q, m.queue q = []) ∧ ((configureTables m.configDir cfg).run.run m.config).2 = m.config

theorem configure_eq_iff (m : NotificationManager) (cfg : Json) :
    (m.configure cfg).2 = m ↔ m.Settled cfg := by
  refine ⟨fun h => ⟨fun q => ?_, congrArg (·.config) h⟩, fun ⟨hqueue, hconfig⟩ => ?_⟩
  · rw [← h]
    rfl
  · have hnone : m.queue = fun _ => [] := funext hqueue
    show { m with config := _, queue := fun _ => [] } = m
    rw [hconfig, ← hnone]

omit [Floats] [JsonLib] in
theorem ok_of_bind {ε α β : Type} {x : Except ε α} {f : α → Except ε β} {b : β}
    (h : (x >>= f) = .ok b) : ∃ a, x = .ok a ∧ f a = .ok b := by
  cases x with
  | error e => cases h
  | ok a => exact ⟨a, rfl, h⟩

theorem notificationConfigFromRoot_isObject {root cfg : Json}
    (h : notificationConfigFromRoot root = .ok cfg) : cfg.isObject = true := by
  unfold notificationConfigFromRoot at h
  obtain ⟨timezone, -, h⟩ := ok_of_bind h
  obtain ⟨targets, -, h⟩ := ok_of_bind h
  obtain ⟨routes, -, h⟩ := ok_of_bind h
  obtain ⟨tables, -, h⟩ := ok_of_bind h
  obtain ⟨hasAudioPolicy, -, h⟩ := ok_of_bind h
  rw [← Except.ok.inj h]
  rfl

theorem changedConfiguration_isObject {s : AlarmServer} {root cfg : Json}
    (h : s.changedConfiguration root = .ok (some cfg)) : cfg.isObject = true := by
  unfold AlarmServer.changedConfiguration at h
  split at h
  · cases h
  · split at h
    · cases h
    · split at h
      · cases h
      · rename_i cfg' hcfg
        cases h
        exact notificationConfigFromRoot_isObject hcfg

theorem fileConfiguration_isObject {root : Json} {x : Int × List Json × Json}
    (h : fileConfiguration root = .ok x) : x.2.2.isObject = true := by
  unfold fileConfiguration at h
  split at h
  · cases h
  · obtain ⟨delay, -, h⟩ := ok_of_bind h
    obtain ⟨items, -, h⟩ := ok_of_bind h
    cases items with
    | none => cases h
    | some items =>
      obtain ⟨cfg, hcfg, h⟩ := ok_of_bind h
      rw [← Except.ok.inj h]
      exact notificationConfigFromRoot_isObject hcfg

/-- If the document of the answer gets as far as the notifications, then the rest of it can be read,
or the notifications are already as it says. -/
def AlarmServer.FetchSafe (s : AlarmServer) (configDir : String) (reply : FetchReply) : Prop :=
  ∀ mtime root cfg, s.fetchedRoot reply = .ok (some (mtime, root)) →
    s.changedConfiguration root = .ok (some cfg) →
    (Configurable cfg ∧ ∃ rules, fetchedRules root configDir = .ok rules) ∨ s.manager.Settled cfg

def AlarmServer.LoadSafe (s : AlarmServer) (path : String) (file : Except String Json) : Prop :=
  ∀ root delay items cfg, file = .ok root → fileConfiguration root = .ok (delay, items, cfg) →
    (Configurable cfg ∧ ∃ rules, readRules root (dirnameOf path) items = .ok rules) ∨
      s.manager.Settled cfg

/-- The last stages of both loaders: the notifications are configured, then the rules are read. -/
theorem refused_iff {ε α : Type} {s : AlarmServer} {cfg : Json} (hcfg : cfg.isObject = true)
    {rules : Except String α} {result : Except ε Unit × AlarmServer}
    (haccepted : ∀ x, (s.manager.configure cfg).1 = .ok () → rules = .ok x → result.1 = .ok ())
    (hrefused : (∀ x, (s.manager.configure cfg).1 = .ok () → rules ≠ .ok x) →
      ∃ e, result = (.error e, { s with manager := (s.manager.configure cfg).2 })) :
    ((∃ e, result.1 = .error e) → result.2 = s) ↔
      (Configurable cfg ∧ ∃ x, rules = .ok x) ∨ s.manager.Settled cfg := by
  rw [← configure_ok_iff s.manager hcfg, ← configure_eq_iff]
  by_cases h : (s.manager.configure cfg).1 = .ok () ∧ ∃ x, rules = .ok x
  · obtain ⟨hconf, x, hrules⟩ := h
    refine iff_of_true (fun ⟨e, he⟩ => ?_) (.inl ⟨hconf, x, hrules⟩)
    rw [haccepted x hconf hrules] at he
    cases he
  · obtain ⟨e, he⟩ := hrefused fun x hconf hrules => h ⟨hconf, x, hrules⟩
    rw [he, or_iff_right h]
    refine ⟨fun hsame => congrArg (·.manager) (hsame ⟨e, rfl⟩), fun hmanager _ => ?_⟩
    dsimp only
    rw [hmanager]

theorem fetchRules_iff (s : AlarmServer) (configDir : String) (hdir : s.manager.configDir = configDir)
    (reply : FetchReply) :
    ((∃ e, (s.fetchRules configDir reply).1 = .error e) → (s.fetchRules configDir reply).2 = s) ↔
      s.FetchSafe configDir reply := by
  have hset : ({ s with manager := s.manager.setConfigDir configDir } : AlarmServer) = s := by
    subst hdir
    rfl
  unfold AlarmServer.fetchRules AlarmServer.FetchSafe
  rw [hset]
  rcases hroot : s.fetchedRoot reply with e | _ | ⟨mtime, root⟩
  · exact iff_of_true (fun _ => rfl) fun mtime root cfg h => by cases h
  · exact iff_of_true (fun _ => rfl) fun mtime root cfg h => by cases h
  dsimp only
  rcases hcfg : s.changedConfiguration root with e | _ | cfg
  · refine iff_of_true (fun _ => rfl) fun mtime' root' cfg' h hc => ?_
    cases h
    cases hcfg.symm.trans hc
  · refine iff_of_true (fun _ => rfl) fun mtime' root' cfg' h hc => ?_
    cases h
    cases hcfg.symm.trans hc
  -- the notifications are configured
  have hthis : (∀ mtime' root' cfg', (Except.ok (some (mtime, root)) : Except FetchFailure _) =
      .ok (some (mtime', root')) → s.changedConfiguration root' = .ok (some cfg') →
      (Configurable cfg' ∧ ∃ rules, fetchedRules root' configDir = .ok rules) ∨
        s.manager.Settled cfg') ↔
      (Configurable cfg ∧ ∃ rules, fetchedRules root configDir = .ok rules) ∨ s.manager.Settled cfg := by
    refine ⟨fun h => h mtime root cfg rfl hcfg, fun h mtime' root' cfg' hr hc => ?_⟩
    cases hr
    cases hcfg.symm.trans hc
    exact h
  rw [hthis]
  refine refused_iff (changedConfiguration_isObject hcfg) (fun x hconf hrules => ?_) fun hno => ?_
  · dsimp only
    rw [hconf, hrules]
  · dsimp only
    cases hconf : (s.manager.configure cfg).1 with
    | error what => exact ⟨_, rfl⟩
    | ok u =>
      cases hrules : fetchedRules root configDir with
      | error what => exact ⟨_, rfl⟩
      | ok x => exact absurd hrules (hno x hconf)

theorem loadRulesFromFile_iff (s : AlarmServer) (path : String) (file : Except String Json) :
    ((∃ e, (s.loadRulesFromFile path file).1 = .error e) →
      (s.loadRulesFromFile path file).2 = s) ↔ s.LoadSafe path file := by
  unfold AlarmServer.loadRulesFromFile AlarmServer.LoadSafe
  rcases file with what | root
  · exact iff_of_true (fun _ => rfl) fun root delay items cfg h => by cases h
  dsimp only
  rcases hread : fileConfiguration root with what | ⟨delay, items, cfg⟩
  · refine iff_of_true (fun _ => rfl) fun root' delay items cfg h hc => ?_
    cases h
    cases hread.symm.trans hc
  have hthis : (∀ root' delay' items' cfg', (Except.ok root : Except String Json) = .ok root' →
      fileConfiguration root' = .ok (delay', items', cfg') →
      (Configurable cfg' ∧ ∃ rules, readRules root' (dirnameOf path) items' = .ok rules) ∨
        s.manager.Settled cfg') ↔
      (Configurable cfg ∧ ∃ rules, readRules root (dirnameOf path) items = .ok rules) ∨
        s.manager.Settled cfg := by
    refine ⟨fun h => h root delay items cfg rfl hread, fun h root' delay' items' cfg' hr hc => ?_⟩
    cases hr
    cases hread.symm.trans hc
    exact h
  rw [hthis]
  refine refused_iff (fileConfiguration_isObject hread) (fun x hconf hrules => ?_) fun hno => ?_
  · dsimp only
    rw [hconf, hrules]
  · dsimp only
    cases hconf : (s.manager.configure cfg).1 with
    | error what => exact ⟨_, rfl⟩
    | ok u =>
      cases hrules : readRules root (dirnameOf path) items with
      | error what => exact ⟨_, rfl⟩
      | ok x => exact absurd hrules (hno x hconf)

end

/-! ## A rule with a number for its id -/

section
attribute [local instance] intFloats intJson

def numberedRule : Json := .object [("rules", .array [.object [("id", .int 5)]])]

def numberedReply : FetchReply :=
  .response 200 (some (.object [("ok", .bool true), ("json", numberedRule)]))

/-- An alarm is being notified. -/
def pagingServer : AlarmServer where
  manager :=
    { configDir := "config"
      queue := fun _ => [{ route := { type := "email" }, alarmId := "PUMP", eventType := "active",
                           dueMs := 0, policyId := "page", repeatsLeft := 2, activation := 1 }] }

end

end OpcBridge.Alarms
