import Mathlib.Algebra.Group.Nat.Defs
import OpcBridge.Flow.Event

/-!
# What a node does with an event

`process_event` after its first section, for each type of node: the section that reads and writes
the node's state, and the calls that follow. `nodeStep` gives both.
-/

namespace OpcBridge.Flow

open OpcBridge OpcBridge.Alarms

variable [Floats] [JsonLib] [FlowLib]

/-! ## Values -/

omit [JsonLib] in
def asNumber : Json → Option F64
  | .bool b => some (Floats.ofInt (if b then 1 else 0))
  | .string s => FlowLib.stodAll (trimCopy s)
  | v => v.number

def asBool : Json → Option Bool
  | .bool b => some b
  | .string s =>
    let raw := toLowerCopy (trimCopy s)
    if raw ∈ ["true", "on", "yes", "1"] then some true
    else if raw ∈ ["false", "off", "no", "0"] then some false
    else none
  | v => v.number.map fun x => !Floats.eq x (Floats.ofInt 0)

def parseBitInteger : Json → Option UInt64
  | .uint n => some (UInt64.ofNat n)
  | .int n => some (UInt64.ofInt n)
  | .float x => if FlowLib.isWhole x then some (UInt64.ofInt (JsonLib.truncate64 x)) else none
  | v =>
    let text := trimCopy (match v with | .string s => s | v => JsonLib.dump v)
    match text.toList with
    | [] => none
    | '0' :: 'x' :: c :: cs => FlowLib.stoullAll 16 (String.ofList (c :: cs))
    | '0' :: 'X' :: c :: cs => FlowLib.stoullAll 16 (String.ofList (c :: cs))
    | '0' :: 'b' :: c :: cs => FlowLib.stoullAll 2 (String.ofList (c :: cs))
    | '0' :: 'B' :: c :: cs => FlowLib.stoullAll 2 (String.ofList (c :: cs))
    | cs => FlowLib.stoullAll 10 (String.ofList cs)

def bitWordMask (width : Nat) : UInt64 :=
  if 64 ≤ width then UInt64.ofNat 18446744073709551615 else UInt64.ofNat (2 ^ width - 1)

def scalarText : Json → String
  | .string s => s
  | .bool b => if b then "true" else "false"
  | .float x => FlowLib.printDouble x
  | .int n => toString n
  -- `is_number_integer` holds of an unsigned value, which goes through `long long`
  | .uint n => toString (Int64.ofNat n).toInt
  | v => JsonLib.dump v

omit [JsonLib] in
def configuredFlowValue : Json → Json
  | .string s =>
    let text := trimCopy s
    if text = "" then .string "" else (FlowLib.parseJson text).getD (.string text)
  | v => v

/-! ## Nodes that compute a value -/

def bitOperation (operation : String) (input operand : UInt64) : UInt64 :=
  if operation = "and" then input &&& operand
  else if operation = "or" then input ||| operand
  else if operation = "xor" then input ^^^ operand
  else if operation = "and_not" then input &&& ~~~operand
  else if operation = "not" then ~~~input
  else if operation = "low_byte" then input &&& 0xff
  else if operation = "high_byte" then (input >>> 8) &&& 0xff
  else if operation = "low_word" then input &&& 0xffff
  else if operation = "high_word" then (input >>> 16) &&& 0xffff
  else if operation = "shift_left" then input <<< operand
  else if operation = "shift_right" then input >>> operand
  else input

def bitTest (test : String) (input operand result comparison : UInt64) : Bool :=
  if test = "zero" then result == 0
  else if test = "any" then input &&& operand != 0
  else if test = "all" then operand != 0 && input &&& operand == operand
  else if test = "equals" then result == comparison
  else result != 0

/-- A node without state: the new value, or the error of the rejected event. -/
def transform (output : FlowEvent) : NodeType → Except String FlowEvent
  | .linearMap inMin inMax outMin outMax clamp => do
    output.writable
    match asNumber output.value with
    | none => .error "input is not numeric"
    | some x =>
      let ratio := Floats.div (Floats.sub x inMin) (Floats.sub inMax inMin)
      let mapped := Floats.add outMin (Floats.mul ratio (Floats.sub outMax outMin))
      let least (a b : F64) : F64 := if Floats.lt b a then b else a
      let greatest (a b : F64) : F64 := if Floats.lt a b then b else a
      let mapped :=
        if clamp then greatest (least outMin outMax) (least (greatest outMin outMax) mapped)
        else mapped
      .ok { output with value := .float mapped }
  | .bitOperations operation outputMode booleanTest width operand comparison invertBoolean => do
    output.writable
    match parseBitInteger output.value with
    | none => .error "input must be an integer"
    | some n =>
      let mask := bitWordMask width
      let input := n &&& mask
      let operand := (parseBitInteger operand).getD 0 &&& mask
      if operation ∈ ["shift_left", "shift_right"] ∧ width ≤ operand.toNat then
        .error "shift count must be smaller than the word size"
      else
        let result := bitOperation operation input operand &&& mask
        if outputMode = "boolean" then
          let comparison := (parseBitInteger comparison).getD 0 &&& mask
          .ok { output with
            value := .bool (bitTest booleanTest input operand result comparison != invertBoolean) }
        else .ok { output with value := .uint result.toNat }
  | .booleanInvert => do
    output.writable
    match asBool output.value with
    | none => .error "input is not Boolean"
    | some b => .ok { output with value := .bool !b }
  | .datatypeConvert target => do
    output.writable
    if target = "bool" then
      match asBool output.value with
      | some b => .ok { output with value := .bool b }
      | none => .error "Boolean conversion failed"
    else if target = "float" ∨ target = "double" then
      match asNumber output.value with
      | some x => .ok { output with value := .float x }
      | none => .error "Numeric conversion failed"
    else if target = "integer" then
      match asNumber output.value with
      | some x => .ok { output with value := .int (Floats.llround x) }
      | none => .error "Integer conversion failed"
    else .ok { output with value := .string (scalarText output.value) }
  -- inputs and the debug node pass the event on
  | _ => .ok output

/-! ## Calls to the other nodes -/

section
omit [JsonLib] [FlowLib]

/-- The event for the node at the end of an edge. -/
def QueuedEvent.along (q : QueuedEvent) (output : FlowEvent) (edge : FlowEdge) : QueuedEvent :=
  { flowId := q.flowId, nodeId := edge.to_, event := output, hops := q.hops + 1,
    inputPort := edge.toPort, inputEpoch := q.inputEpoch }

/-- The event that a node sends to itself later. -/
def QueuedEvent.again (q : QueuedEvent) (output : FlowEvent) (port : String) : QueuedEvent :=
  { q with event := output, hops := q.hops + 1, inputPort := port }

def enqueueAll (q : QueuedEvent) (output : FlowEvent) (edges : List FlowEdge) : List Action :=
  edges.map fun edge => .enqueue (q.along output edge)

/-- The last lines of `process_event`. -/
def emitAll (f : FlowDef) (q : QueuedEvent) (output : FlowEvent) : List Action :=
  .mark "ok" :: enqueueAll q output (f.edgesOf q.nodeId)

end

/-! ## Split and switch -/

omit [JsonLib] [FlowLib] in
/-- The members of an object, or the items of an array under their positions. -/
def splitParts : Json → Option (List (String × Json))
  | .object fields => some fields
  | .array items => some (items.zipIdx.map fun x => (toString x.2, x.1))
  | _ => none

def splitStep (f : FlowDef) (q : QueuedEvent) : List Action :=
  match q.event.writable with
  | .error e => [.reject e]
  | .ok _ =>
    match splitParts q.event.value with
    | none => [.reject "Split input must be a JSON object or array"]
    | some parts =>
      (parts.filter fun x => !x.2.isNull).flatMap (fun x =>
        enqueueAll q { q.event with key := x.1, value := x.2 } (f.edgesOf q.nodeId)) ++
      [.mark ("split " ++ toString parts.length ++ " items")]

/-- The indices of the rules that match the key, only the first unless all are checked. -/
def matchingRules (rules : List String) (checkAll : Bool) (key : String) : List Nat :=
  let hits := (rules.zipIdx.filter fun x => key == trimCopy x.1).map fun x => x.2
  if checkAll then hits else hits.take 1

def switchStep (f : FlowDef) (q : QueuedEvent) (rules : List String) (checkAll otherwise : Bool) :
    List Action :=
  let hits := matchingRules rules checkAll q.event.key
  let edges := f.edgesOf q.nodeId
  if hits.isEmpty then
    (if otherwise then
      enqueueAll q q.event (edges.filter fun e => e.sourcePort.getD "" == "otherwise")
    else []) ++ [.mark "otherwise"]
  else
    hits.flatMap (fun i => enqueueAll q q.event
      (edges.filter fun e => e.sourcePort.getD "rule_0" == "rule_" ++ toString i)) ++
    [.mark "matched"]

/-! ## Nodes that wait for several inputs -/

def combinePorts (mode : String) : List String :=
  if mode = "four_bytes" then ["byte_3", "byte_2", "byte_1", "byte_0"]
  else if mode = "two_words" then ["high_word", "low_word"]
  else ["high_byte", "low_byte"]

/-- The combined word, from parts that were checked when they were retained. -/
def combined (mode : String) (signedResult : Bool) (retained : String → Option FlowEvent) : Json :=
  let part (port : String) (mask : UInt64) : UInt64 :=
    ((retained port).bind fun e => parseBitInteger e.value).getD 0 &&& mask
  let result :=
    if mode = "two_bytes" then (part "high_byte" 0xff <<< 8) ||| part "low_byte" 0xff
    else if mode = "two_words" then (part "high_word" 0xffff <<< 16) ||| part "low_word" 0xffff
    else (part "byte_3" 0xff <<< 24) ||| (part "byte_2" 0xff <<< 16) |||
      (part "byte_1" 0xff <<< 8) ||| part "byte_0" 0xff
  let bits := if mode = "two_bytes" then 16 else 32
  if signedResult ∧ result &&& (1 <<< (UInt64.ofNat (bits - 1))) ≠ 0 then
    .int (Int64.ofNat (result ||| ~~~bitWordMask bits).toNat).toInt
  else .uint result.toNat

def booleanResult (operation : String) (a b : Bool) : Bool :=
  if operation = "or" then a || b
  else if operation = "xor" then a != b
  else if operation = "and_not" then a && !b
  else if operation = "not_a_and_b" then !a && b
  else a && b

/-- The index behind the label of a port, by `stoi`. -/
def portIndex (label port : String) (count : Nat) : Option Nat :=
  if label.toList.isPrefixOf port.toList then
    match stoi (String.ofList (port.toList.drop label.length)) with
    | some n => if 0 ≤ n ∧ n < count then some n.toNat else none
    | none => none
  else none

/-- The retained inputs of a node and what follows: `none` while an input is missing. -/
structure Retention where
  retained : String → Option FlowEvent
  output : Option (Except String FlowEvent)
  waiting : String

def retain (inputs : String → Option FlowEvent) (q : QueuedEvent) : String → Option FlowEvent :=
  Function.update inputs q.inputPort (some q.event)

/-- The checks before an event is retained, and the inputs after it. -/
def retention (q : QueuedEvent) (s : NodeState) : NodeType → Except String Retention
  | .combine mode signedResult => do
    q.event.writable
    let ports := combinePorts mode
    if q.inputPort ∉ ports then .error "value must arrive through a labeled Combine input"
    else if (parseBitInteger q.event.value).isNone then .error "Combine input must be an integer"
    else
      let retained := retain s.combine q
      .ok {
        retained
        output :=
          if ports.all fun port => (retained port).isSome then
            some (.ok { q.event with value := combined mode signedResult retained })
          else none
        waiting := "waiting for all inputs" }
  | .booleanLogic operation => do
    q.event.writable
    if q.inputPort ≠ "a" ∧ q.inputPort ≠ "b" then
      .error "value must arrive through Boolean input A or B"
    else if (asBool q.event.value).isNone then .error "Boolean Logic input must be Boolean or 0/1"
    else
      let retained := retain s.boolean q
      .ok {
        retained
        output :=
          match retained "a", retained "b" with
          | some a, some b => some (.ok { q.event with
              value := .bool (booleanResult operation ((asBool a.value).getD false)
                ((asBool b.value).getD false))
              timestampMs := max a.timestampMs b.timestampMs })
          | _, _ => none
        waiting := "waiting for A and B" }
  | .buildJson fields => do
    q.event.writable
    if (portIndex "field_" q.inputPort fields.length).isNone then
      .error "value must arrive through a labeled Build JSON input"
    else
      let retained := retain s.json q
      let port (i : Nat) : String := "field_" ++ toString i
      .ok {
        retained
        output :=
          if fields.zipIdx.all fun x => (retained (port x.2)).isSome then
            some (.ok { q.event with
              key := ""
              value := .object (fields.zipIdx.map fun x =>
                (x.1, ((retained (port x.2)).map (·.value)).getD .null)) })
          else none
        waiting := "waiting for all fields" }
  | .compute inputs expression => do
    q.event.writable
    if (portIndex "input_" q.inputPort inputs.length).isNone then
      .error "value must arrive through a labeled Compute input"
    else if (asNumber q.event.value).isNone then .error "Compute inputs must be numeric"
    else
      let retained := retain s.compute q
      let port (i : Nat) : String := "input_" ++ toString i
      .ok {
        retained
        output :=
          if inputs.zipIdx.all fun x => (retained (port x.2)).isSome then
            let named := inputs.zipIdx.filterMap fun x =>
              (retained (port x.2)).bind fun e => (asNumber e.value).map fun n => (x.1, n)
            some ((FlowLib.evaluate expression named).map fun x =>
              { q.event with value := .float x, key := "" })
          else none
        waiting := "waiting for all inputs" }
  | _ => .error ""

/-- The state with the retained inputs of its type of node. -/
def NodeState.withRetained (s : NodeState) (retained : String → Option FlowEvent) :
    NodeType → NodeState
  | .combine .. => { s with combine := retained }
  | .booleanLogic _ => { s with boolean := retained }
  | .buildJson _ => { s with json := retained }
  | .compute .. => { s with compute := retained }
  | _ => s

def retainStep (f : FlowDef) (type : NodeType) (q : QueuedEvent) (s : NodeState) :
    NodeState × List Action :=
  match retention q s type with
  | .error e => (s, [.reject e])
  | .ok r =>
    (s.withRetained r.retained type,
      match r.output with
      | none => [.status r.waiting]
      | some (.error e) => [.reject e]
      | some (.ok output) => emitAll f q output)

/-! ## Delay and trigger -/

def rateReleasePort : String := "__rate_release"

def delayStep (f : FlowDef) (action : String) (delayMs now : Int) (q : QueuedEvent)
    (s : NodeState) : NodeState × List Action :=
  let delayMs := max 0 delayMs
  let edges := f.edgesOf q.nodeId
  if action = "rate_limit" ∧ q.inputPort = rateReleasePort then
    let output := s.rate.latest.getD { born := q.event.born }
    ({ s with rate := { s.rate with scheduled := false, nextAllowedMs := now + delayMs } },
      enqueueAll q output edges ++ [.mark "rate limit released latest value"])
  else
    match q.event.writable with
    | .error e => (s, [.reject e])
    | .ok _ =>
      if action = "rate_limit" then
        let rate := { s.rate with latest := some q.event }
        if rate.scheduled then
          ({ s with rate }, [.status "updated pending latest value"])
        else if rate.nextAllowedMs ≤ now then
          ({ s with rate := { rate with nextAllowedMs := now + delayMs } },
            enqueueAll q q.event edges ++ [.mark "rate limit released value"])
        else
          ({ s with rate := { rate with scheduled := true } },
            [.enqueueDelayed (q.again q.event rateReleasePort) rate.nextAllowedMs,
              .status "waiting to release latest value"])
      else
        (s, (edges.map fun edge => .enqueueDelayed (q.along q.event edge) (now + delayMs)) ++
          [.status (if edges.isEmpty then "no output connected"
            else "delaying each message " ++ toString delayMs ++ " ms")])

def triggerReleasePort : String := "__trigger_release:"

def isTriggerRelease (port : String) : Bool := triggerReleasePort.toList.isPrefixOf port.toList

/-- `send_value` -/
def sendValue (f : FlowDef) (q : QueuedEvent) (now : Int) (value : Json) (status : String) :
    List Action :=
  let sent := { q.event with
    present := !value.isNull, value := value
    quality := if value.isNull then "bad_null" else "good", timestampMs := now }
  enqueueAll q sent (f.edgesOf q.nodeId) ++ [.mark status]

def triggerStep (f : FlowDef) (c : TriggerSettings) (now : Int) (q : QueuedEvent)
    (s : NodeState) : NodeState × List Action :=
  if isTriggerRelease q.inputPort then
    let text := String.ofList (q.inputPort.toList.drop 18)
    let generation := UInt64.ofNat ((stoul text).getD 0)
    if s.trigger.generation = generation then
      ({ s with trigger := { generation := 0, born := q.event.born } },
        if c.sendDelayed then
          sendValue f q now (configuredFlowValue c.delayedValue) "trigger timeout"
        else [.status "trigger completed"])
    else (s, [])
  else
    match q.event.writable with
    | .error e => (s, [.reject e])
    | .ok _ =>
      let next := s.trigger.generation + 1
      if c.resetEnabled ∧ JsonLib.eq q.event.value (configuredFlowValue c.resetValue) then
        ({ s with trigger := { generation := next, born := q.event.born } },
          [.status "trigger reset"])
      else if c.extendDelay ∨ s.trigger.generation = 0 then
        ({ s with trigger := { generation := next, born := q.event.born } },
          (if c.sendInitial then
            sendValue f q now (configuredFlowValue c.initialValue) "trigger started" else []) ++
          [.replaceTriggerTimer
            (q.again q.event (triggerReleasePort ++ toString next.toNat))
            (now + max 1 c.durationMs)])
      else (s, [])

/-! ## Outputs -/

def outputStep (f : FlowDef) (type : NodeType) (now : Int) (q : QueuedEvent) (s : NodeState) :
    NodeState × List Action :=
  let monitored (status : String) (r : NodeState × List Action) : NodeState × List Action :=
    if f.mode = "monitor" then (s, [.mark status])
    else match q.event.writable with
      | .error e => (s, [.reject e])
      | .ok _ => r
  match type with
  | .opcTagWrite connectionId tagName staleAfterMs =>
    let staleMs := max 0 staleAfterMs
    monitored "monitor: write suppressed"
      (s, if 0 < staleMs ∧ staleMs < now - q.event.timestampMs then [.reject "input is stale"]
          else [.writeTag connectionId tagName (scalarText q.event.value)])
  | .mqttPublish connectionId topic payloadFormat =>
    monitored "monitor: publish suppressed"
      (s, [.publish connectionId topic
        (if payloadFormat = "json" then JsonLib.dump q.event.value else scalarText q.event.value)])
  | .emailOutput mode to_ sendTrue sendFalse =>
    let previous := s.email
    let idle : List Action :=
      [.status (if previous.initialized then "unchanged" else "baseline established")]
    monitored "monitor: email suppressed"
      ({ s with email := { initialized := true, value := q.event.value, born := q.event.born } },
        if mode = "boolean_transition" then
          match asBool q.event.value with
          | none => [.reject "Email Boolean transition mode requires a Boolean-compatible input"]
          | some b =>
            let changed := match previous.value with
              | .bool p => p != b
              | _ => false
            .emailValue q.nodeId (.bool b) q.event.born ::
              (if previous.initialized && changed && (if b then sendTrue else sendFalse) then
                [.sendEmail to_ (some b)] else idle)
        else if mode = "every" ∨
            (mode = "change" ∧ previous.initialized ∧
              ¬ JsonLib.eq previous.value q.event.value) then
          [.sendEmail to_ none]
        else idle)
  | _ => (s, [])

/-! ## All nodes -/

/-- The node's section and the calls after it. -/
def nodeStep (f : FlowDef) (type : NodeType) (now : Int) (q : QueuedEvent) (s : NodeState) :
    NodeState × List Action :=
  match type with
  | .split => (s, splitStep f q)
  | .switch rules checkAll otherwise => (s, switchStep f q rules checkAll otherwise)
  | .combine .. => retainStep f type q s
  | .booleanLogic _ => retainStep f type q s
  | .buildJson _ => retainStep f type q s
  | .compute .. => retainStep f type q s
  | .delay action delayMs => delayStep f action delayMs now q s
  | .trigger settings => triggerStep f settings now q s
  | .opcTagWrite .. => outputStep f type now q s
  | .mqttPublish .. => outputStep f type now q s
  | .emailOutput .. => outputStep f type now q s
  | _ =>
    (s, match transform q.event type with
      | .error e => [.reject e]
      | .ok output => emitAll f q output)

end OpcBridge.Flow
