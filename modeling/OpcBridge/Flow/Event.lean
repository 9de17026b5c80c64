import OpcBridge.Alarms.Json

/-!
# Flows and events

The data of `opcbridge-flow/opcbridge_flow.cpp`: the events that travel through a flow, the flow's
nodes with the settings that `process_event` reads, and the per-node state that the service keeps
between events. A setting of another JSON type than the code asks for raises an exception that
nothing in the worker catches; the flows here have none.

`born` is not in the program. It is the flow's `input_epoch_` when a value was received, so that a
value can be told from the values of an earlier deployment.
-/

namespace OpcBridge.Flow

open OpcBridge OpcBridge.Alarms

/-! ## The library -/

/-- Parsing and printing of numbers and JSON text. -/
class FlowLib [Floats] where
  /-- `std::stod` where it uses the whole text, and the result is finite. -/
  stodAll : String → Option F64
  /-- `std::stoull` in a base where it uses the whole text. -/
  stoullAll : Nat → String → Option UInt64
  /-- `std::isfinite(x) && std::trunc(x) == x` -/
  isWhole : F64 → Bool
  /-- What an `std::ostringstream` prints. -/
  printDouble : F64 → String
  /-- `json::parse` -/
  parseJson : String → Option Json
  /-- `MathExpression(expression, variables).evaluate()` -/
  evaluate : String → List (String × F64) → Except String F64

/-- The library on whole numbers, without JSON text and expressions. -/
@[reducible] def intFlowLib : @FlowLib intFloats :=
  letI := intFloats
  { stodAll := fun s => Floats.stod s
    stoullAll := fun _ s => (stoul s).map UInt64.ofNat
    isWhole := fun _ => true
    printDouble := fun x => Int.repr x
    parseJson := fun _ => none
    evaluate := fun _ _ => .error "" }

variable [Floats]

/-! ## Events -/

structure FlowEvent where
  present : Bool := false
  value : Json := .null
  quality : String := "not_initialized"
  timestampMs : Int := 0
  source : String := ""
  topic : String := ""
  key : String := ""
  born : Nat := 0

structure QueuedEvent where
  flowId : String
  nodeId : String
  event : FlowEvent
  hops : Nat := 0
  inputPort : String := ""
  /-- Rejects tag events of a replaced deployment; 0 for all others. -/
  inputEpoch : Nat := 0

def FlowEvent.writable (e : FlowEvent) : Except String Unit :=
  if !e.present then .error "value has not been initialized"
  else if e.value.isNull then .error "null values are not writable"
  else if e.quality ≠ "good" then .error ("quality is " ++ e.quality)
  else .ok ()

/-! ## Flows -/

structure TriggerSettings where
  durationMs : Int
  resetEnabled : Bool
  resetValue : Json
  initialValue : Json
  delayedValue : Json
  extendDelay : Bool
  sendInitial : Bool
  sendDelayed : Bool

/-- The types of nodes, with the settings that are read when an event is processed. -/
inductive NodeType
  | opcTagInput (onlyOnChange : Bool)
  | mqttSubscribe (connectionId topic : String)
  | manualInput
  | split
  | switch (rules : List String) (checkAll otherwise : Bool)
  | linearMap (inMin inMax outMin outMax : F64) (clamp : Bool)
  | bitOperations (operation outputMode booleanTest : String) (wordSize : Nat)
      (operand comparison : Json) (invertBoolean : Bool)
  | combine (mode : String) (signedResult : Bool)
  | booleanLogic (operation : String)
  | buildJson (fields : List String)
  | compute (inputs : List String) (expression : String)
  | delay (action : String) (delayMs : Int)
  | trigger (settings : TriggerSettings)
  | booleanInvert
  | datatypeConvert (datatype : String)
  | debug
  | opcTagWrite (connectionId tagName : String) (staleAfterMs : Int)
  | mqttPublish (connectionId topic : String) (payloadFormat : String)
  | emailOutput (sendMode to_ : String) (sendTrue sendFalse : Bool)

structure FlowNode where
  id : String
  type : NodeType

structure FlowEdge where
  source : String
  to_ : String
  sourcePort : Option String := none
  toPort : String := ""
  deriving DecidableEq

structure FlowDef where
  enabled : Bool := true
  mode : String := "active"
  nodes : List FlowNode
  edges : List FlowEdge

def FlowDef.node (f : FlowDef) (id : String) : Option FlowNode := f.nodes.find? fun n => n.id == id

def FlowDef.edgesOf (f : FlowDef) (id : String) : List FlowEdge :=
  f.edges.filter fun e => e.source == id

/-! ## State of a node -/

structure RateLimitState where
  /-- `none` is an event without a value. -/
  latest : Option FlowEvent := none
  scheduled : Bool := false
  nextAllowedMs : Int := 0

structure EmailState where
  initialized : Bool := false
  value : Json := .null
  born : Nat := 0

structure TriggerState where
  generation : UInt64 := 0
  born : Nat := 0

/-- What the service keeps for one node: an entry of each of its maps. -/
structure NodeState where
  combine : String → Option FlowEvent := fun _ => none
  boolean : String → Option FlowEvent := fun _ => none
  json : String → Option FlowEvent := fun _ => none
  compute : String → Option FlowEvent := fun _ => none
  rate : RateLimitState := {}
  trigger : TriggerState := {}
  email : EmailState := {}
  /-- `last_input_values_`; a null value is the missing one. -/
  lastInput : Json := .null
  lastBorn : Nat := 0

/-- `clear()` on the maps that `disable` clears. -/
def NodeState.disabled (s : NodeState) : NodeState :=
  { lastInput := s.lastInput, lastBorn := s.lastBorn }

/-! ## Actions -/

/-- What `process_event` does after it has left the node's state, one call at a time. `mark`,
`status` and `reject` write the displayed state of the node, which no event reads. -/
inductive Action
  | enqueue (e : QueuedEvent)
  | enqueueDelayed (e : QueuedEvent) (dueMs : Int)
  | replaceTriggerTimer (e : QueuedEvent) (dueMs : Int)
  /-- The second section of an e-mail node. -/
  | emailValue (nodeId : String) (value : Json) (born : Nat)
  | writeTag (connectionId tagName : String) (value : String)
  | publish (connectionId topic payload : String)
  | sendEmail (to_ : String) (transition : Option Bool)
  | mark (status : String)
  | status (text : String)
  | reject (error : String)

end OpcBridge.Flow
