import OpcBridge.Core.Config
import OpcBridge.Logic.Config

/-!
# Who wants a tag

The registries that polling demand is collected from: observations of OPC UA and HTTP readers,
WebSocket clients and their registrations, consumer leases, automation scripts and alarms. Each is
read out as a snapshot at one instant.
-/

namespace OpcBridge

section
variable [Floats]

/-! ## Observations -/

/-- `TagDemandObservations::Entry` -/
structure ObservationEntry where
  monitoredItems : Nat := 0
  activeMonitoredItems : Nat := 0
  inheritedSamplingItems : Nat := 0
  minSamplingInterval : F64 := Floats.ofInt (-1)
  httpUntil : Nat := 0
  uaReadUntil : Nat := 0
  uaFreshUntil : Nat := 0

structure ObservedItem where
  node : String
  /-- 0 is a disabled item. -/
  mode : Nat
  interval : F64

structure TagDemandObservations where
  entries : String → Option ObservationEntry
  /-- The monitored items by subscription and item id. -/
  items : List ((Nat × Nat) × ObservedItem)

def ObservationEntry.countItem (entry : ObservationEntry) (item : ObservedItem) :
    ObservationEntry :=
  let entry := { entry with monitoredItems := entry.monitoredItems + 1 }
  if item.mode = 0 then entry
  else
    let entry := { entry with activeMonitoredItems := entry.activeMonitoredItems + 1 }
    if Floats.lt item.interval (Floats.ofInt 0) then
      { entry with inheritedSamplingItems := entry.inheritedSamplingItems + 1 }
    else if Floats.lt entry.minSamplingInterval (Floats.ofInt 0) ||
        Floats.lt item.interval entry.minSamplingInterval then
      { entry with minSamplingInterval := item.interval }
    else entry

/-- The entries whose leases run, with the monitored items counted in. -/
def TagDemandObservations.snapshot (obs : TagDemandObservations) (now : Nat) :
    String → Option ObservationEntry :=
  obs.items.foldl
    (fun result item => Function.update result item.2.node
      (some (((result item.2.node).getD {}).countItem item.2)))
    (fun node => (obs.entries node).filter fun entry =>
      !(entry.httpUntil ≤ now && entry.uaReadUntil ≤ now))

end

/-! ## Consumer registrations -/

/-- `ConsumerDemand::Scope` -/
structure ConsumerScope where
  allTags : Bool := false
  tags : Finset String := ∅
  patterns : List (String × String) := []

/-- The registrations of one owner. -/
structure ConsumerOwner where
  registrations : Nat := 0
  allTagsRegistrations : Nat := 0
  tags : String → Nat := fun _ => 0
  patterns : List (String × String) := []

def ConsumerOwner.addScope (owner : ConsumerOwner) (scope : ConsumerScope) : ConsumerOwner :=
  let owner := { owner with registrations := owner.registrations + 1 }
  if scope.allTags then { owner with allTagsRegistrations := owner.allTagsRegistrations + 1 }
  else { owner with
    tags := fun key => if key ∈ scope.tags then owner.tags key + 1 else owner.tags key
    patterns := owner.patterns ++ scope.patterns }

def mergeConsumerScope : List (String × ConsumerOwner) → String → ConsumerScope →
    List (String × ConsumerOwner)
  | [], name, scope => [(name, ({} : ConsumerOwner).addScope scope)]
  | (n, owner) :: owners, name, scope =>
    if n = name then (n, owner.addScope scope) :: owners
    else (n, owner) :: mergeConsumerScope owners name scope

/-- The glob loop: `p` is what is left of the pattern and `star` the pattern after the last `*`,
whose match begins at `m` and is `k` characters long so far. -/
def globLoop (star : Option (List Char)) (m : List Char) (k : Nat) (p : List Char) : Bool :=
  match _ht : m.drop k with
  | [] => (p.dropWhile (· == '*')).isEmpty
  | c :: _ =>
    match p with
    | q :: p' =>
      if q = '?' ∨ q = c then globLoop star m (k + 1) p'
      else if q = '*' then globLoop (some p') (m.drop k) 0 p'
      else match star with
        | some p => globLoop star m.tail 0 p
        | none => false
    | [] => match star with
      | some p => globLoop star m.tail 0 p
      | none => false
termination_by (m.length, p.length)
decreasing_by
  · exact .right _ (by simp)
  · have hle : (m.drop k).length ≤ m.length := by simp
    rcases Nat.lt_or_eq_of_le hle with h | h
    · exact .left _ _ h
    · rw [h]
      exact .right _ (by simp)
  all_goals
    have hm : m ≠ [] := by rintro rfl; simp at _ht
    have hpos := List.length_pos_iff.2 hm
    exact .left _ _ (by rw [List.length_tail]; omega)

def consumerDemandGlob (pattern text : String) : Bool :=
  globLoop none text.toList 0 pattern.toList

def consumerDemandMatches (owner : ConsumerOwner) (cid name : String) : Bool :=
  owner.allTagsRegistrations != 0 || owner.tags (makeTagKey cid name) != 0 ||
    owner.patterns.any fun pattern => pattern.1 == cid && consumerDemandGlob pattern.2 name

/-! ## WebSocket clients and leases -/

structure WsClient where
  /-- Known, alive and in the ready state `Open`. -/
  isOpen : Bool
  demand : List (String × ConsumerScope) := []
  explicitDemand : Bool := false
  hasCustom : Bool := false
  subscribeAll : Bool := true
  tags : Finset String := ∅

structure WsDemand where
  allTagsClients : Nat := 0
  tags : String → Nat := fun _ => 0
  owners : List (String × ConsumerOwner) := []

def WsDemand.addClient (result : WsDemand) (client : WsClient) : WsDemand :=
  if !client.isOpen then result
  else
    let result := { result with
      owners := client.demand.foldl (fun owners r => mergeConsumerScope owners r.1 r.2)
        result.owners }
    if client.explicitDemand then result
    else if !client.hasCustom || client.subscribeAll then
      { result with allTagsClients := result.allTagsClients + 1 }
    else { result with
      tags := fun key => if key ∈ client.tags then result.tags key + 1 else result.tags key }

def wsDemandSnapshot (clients : List WsClient) : WsDemand := clients.foldl WsDemand.addClient {}

/-- A lease of the consumer `client` for the owner `owner`. -/
structure ConsumerLease where
  client : String
  owner : String
  scope : ConsumerScope
  until' : Nat

/-- `ConsumerDemandLeases::append` -/
def appendLeases (leases : List ConsumerLease) (now : Nat)
    (owners : List (String × ConsumerOwner)) : List (String × ConsumerOwner) :=
  (leases.filter fun lease => !decide (lease.until' ≤ now)).foldl
    (fun owners lease => mergeConsumerScope owners lease.owner lease.scope) owners

/-! ## Automations -/

structure AutomationReport where
  id : String
  name : String
  kind : String
  engine : String
  scope : String
  reason : String
  readTags : Finset (String × String)

structure AutomationDemand where
  coverageComplete : Bool := true
  allTagsRequired : Bool := false
  tags : Finset String := ∅
  enabledAutomations : List AutomationReport := []
  executingAutomations : List AutomationReport := []

/-- The dependencies that demand goes by: an engine or kind that does not run counts as unknown. -/
def LogicScriptConfig.demandDependencies (script : LogicScriptConfig) : AutomationDependencies :=
  if script.engine ≠ "javascript" ∨ (script.kind ≠ "block" ∧ script.kind ≠ "script") then
    script.dependencies.uncertain "unsupported_engine_or_kind"
  else script.dependencies

def AutomationDemand.addScript (result : AutomationDemand) (script : LogicScriptConfig) :
    AutomationDemand :=
  if !script.enabled then result
  else
    let deps := script.demandDependencies
    { result with
      coverageComplete := result.coverageComplete && deps.complete
      allTagsRequired := result.allTagsRequired || !deps.complete
      tags := result.tags ∪ deps.reads.image fun read => makeTagKey read.1 read.2
      enabledAutomations := result.enabledAutomations ++ [{
        id := script.id, name := script.name, kind := script.kind, engine := script.engine,
        scope := if deps.complete then "read_tags" else "all_tags", reason := deps.reason,
        readTags := deps.reads }] }

/-- `automation_demand_snapshot`: the configured scripts and the executing ones. -/
def automationDemandSnapshot (scripts executions : List LogicScriptConfig) : AutomationDemand :=
  let result := scripts.foldl AutomationDemand.addScript {}
  let running := executions.foldl AutomationDemand.addScript {}
  { coverageComplete := result.coverageComplete && running.coverageComplete
    allTagsRequired := result.allTagsRequired || running.allTagsRequired
    tags := result.tags ∪ running.tags
    enabledAutomations := result.enabledAutomations
    executingAutomations := running.enabledAutomations }

/-! ## Alarms -/

/-- What demand needs of an alarm. -/
structure AlarmConfig where
  connectionId : String
  tagName : String
  enabled : Bool := true

end OpcBridge
