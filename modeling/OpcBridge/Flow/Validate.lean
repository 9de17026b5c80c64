import OpcBridge.Alarms.Loaders
import OpcBridge.Flow.Node
import OpcBridge.Lib.Kahn

/-!
# Validation of a flow

`normalize_and_validate`: the header, the nodes with their settings, the edges, and Kahn's algorithm
for the cycles. An error is the text of the refusal, or of an exception of the JSON library.
`normalize_iff` says which flows are accepted.
-/

namespace OpcBridge.Flow

open OpcBridge OpcBridge.Alarms OpcBridge.Alarms.Json Lib

variable [Floats] [JsonLib] [FlowLib]

def flowError (error : String) (refused : Bool) : Except String Unit :=
  if refused then .error error else .ok ()

/-- The strings read by `trim(j.value(key, ""))`. -/
def trimmed (j : Json) (key : String) : Except String String := do
  return trimCopy (← j.valueString key "")

/-! ## Settings of the nodes -/

/-- A limit of a fresh read. -/
def checkFreshLimit (cfg : Json) (key : String) (limit : Int) : Except String Unit :=
  flowError (key ++ " is outside its integer range") <|
    match cfg.find key with
    | none => false
    | some (.int n) => n < 0 || limit < n
    | some (.uint n) => limit < (n : Int)
    | some _ => true

def checkTag (type : String) (cfg : Json) : Except String Unit := do
  let connection ← trimmed cfg "connection_id"
  let tag ← if connection = "" then pure "" else trimmed cfg "tag_name"
  flowError (type ++ " requires a connection and tag") (connection == "" || tag == "")

def checkTagInput (cfg : Json) : Except String Unit := do
  flowError "require_fresh_read must be boolean"
    ((cfg.find "require_fresh_read").any fun v => !v.isBoolean)
  checkFreshLimit cfg "fresh_max_age_ms" 60000
  checkFreshLimit cfg "fresh_timeout_ms" 5000

def checkMqtt (type : String) (cfg : Json) : Except String Unit := do
  flowError (type ++ " requires an MQTT connection") ((← trimmed cfg "connection_id") == "")
  flowError (type ++ " requires a topic") ((← trimmed cfg "topic") == "")

def checkEmail (cfg : Json) : Except String Unit := do
  let mode ← cfg.valueString "send_mode" "every"
  flowError "Unsupported Email sending mode" (mode ∉ ["every", "change", "boolean_transition"])
  flowError "Email Output requires at least one recipient" ((← trimmed cfg "to") == "")

def checkLinearMap (cfg : Json) : Except String Unit := do
  let inMin ← cfg.valueDouble "input_min" (Floats.ofInt 0)
  let inMax ← cfg.valueDouble "input_max" (Floats.ofInt 100)
  flowError "Linear map input range cannot be zero" (Floats.eq inMin inMax)

/-- `cfg.value(key, json("0"))` -/
def operandOf (cfg : Json) (key : String) : Json := (cfg.find key).getD (.string "0")

def checkBitOperations (cfg : Json) : Except String Unit := do
  let operation ← cfg.valueString "operation" "and"
  let outputMode ← cfg.valueString "output_mode" "result"
  let width ← cfg.valueInt "word_size" 16
  flowError "Unsupported bit operation" (operation ∉ ["and", "or", "xor", "and_not", "not",
    "shift_left", "shift_right", "low_byte", "high_byte", "low_word", "high_word"])
  flowError "Bit operation word size must be 8, 16, 32, or 64" (width ∉ [8, 16, 32, 64])
  flowError "High byte requires a word size of at least 16 bits"
    (operation == "high_byte" && width < 16)
  flowError "High word requires a word size of at least 32 bits"
    (operation == "high_word" && width < 32)
  flowError "Unsupported bit operation output type" (outputMode ∉ ["result", "boolean"])
  if outputMode = "boolean" then
    let test ← cfg.valueString "boolean_test" "nonzero"
    flowError "Unsupported bit operation Boolean test"
      (test ∉ ["nonzero", "zero", "any", "all", "equals"])
  flowError "Bit operation mask/operand is invalid"
    (operation ∈ ["and", "or", "xor", "and_not", "shift_left", "shift_right"] ∧
      (parseBitInteger (operandOf cfg "operand")).isNone)
  if outputMode = "boolean" then
    let test ← cfg.valueString "boolean_test" "nonzero"
    flowError "Bit operation comparison value is invalid"
      (test == "equals" && (parseBitInteger (operandOf cfg "comparison")).isNone)

def checkMode (error key default : String) (allowed : List String) (cfg : Json) :
    Except String Unit := do
  flowError error ((← cfg.valueString key default) ∉ allowed)

/-- The items of a nonempty array. -/
def someItems (error key : String) (cfg : Json) : Except String (List Json) :=
  match cfg.memberItems key with
  | some (item :: items) => .ok (item :: items)
  | _ => .error error

/-- The keys of the fields, each new. -/
def fieldKeys : List Json → List String → Except String (List String)
  | [], keys => .ok keys
  | field :: fields, keys => do
    let key ← trimmed field "key"
    flowError "Every Build JSON field needs a JSON key" (key == "")
    flowError "Build JSON keys must be unique" (key ∈ keys)
    fieldKeys fields (keys ++ [key])

def checkBuildJson (cfg : Json) : Except String Unit := do
  let fields ← someItems "Build JSON requires at least one field" "fields" cfg
  let _ ← fieldKeys fields []

def inputNameValid (name : String) : Bool :=
  match name.toList with
  | [] => false
  | c :: cs => isAlpha c && (c :: cs).all fun c => isAlnum c || c == '_'

def inputNames : List Json → List String → Except String (List String)
  | [], names => .ok names
  | input :: inputs, names => do
    let name ← trimmed input "name"
    flowError ("Compute input names must start with a letter and contain only letters, " ++
      "numbers, or underscores") (!inputNameValid name)
    flowError "Compute input names must be unique" (name ∈ names)
    inputNames inputs (names ++ [name])

def checkCompute (cfg : Json) : Except String Unit := do
  let inputs ← someItems "Compute requires at least one input" "inputs" cfg
  let names ← inputNames inputs []
  let expression ← trimmed cfg "expression"
  flowError "Compute expression is required" (expression == "")
  -- a trial with every input 1
  let _ ← FlowLib.evaluate expression (names.map fun name => (name, Floats.ofInt 1))

def checkDelay (cfg : Json) : Except String Unit := do
  let action ← cfg.valueString "action" "delay_each"
  flowError "Unsupported Delay action" (action ∉ ["delay_each", "rate_limit"])
  let delayMs ← cfg.valueLong "delay_ms" 1000
  flowError "Delay must be between 0 ms and 24 hours" (delayMs < 0 || 86400000 < delayMs)

def checkTrigger (cfg : Json) : Except String Unit := do
  let durationMs ← cfg.valueLong "duration_ms" 1000
  flowError "Trigger duration must be between 1 ms and 24 hours"
    (durationMs < 1 || 86400000 < durationMs)

def checkSwitch (cfg : Json) : Except String Unit := do
  let _ ← someItems "Switch requires at least one rule" "rules" cfg

def nodeTypes : List String := ["opc_tag_input", "mqtt_subscribe", "manual_input", "split", "switch",
  "linear_map", "bit_operations", "combine", "boolean_logic", "build_json", "compute", "delay",
  "trigger", "boolean_invert", "datatype_convert", "debug", "opc_tag_write", "mqtt_publish",
  "email_output"]

/-- The checks of a node's settings. -/
def checkSettings (type : String) (cfg : Json) : Except String Unit :=
  match type with
  | "opc_tag_input" => do
    checkTag type cfg
    checkTagInput cfg
  | "opc_tag_write" => checkTag type cfg
  | "mqtt_subscribe" => checkMqtt type cfg
  | "mqtt_publish" => checkMqtt type cfg
  | "email_output" => checkEmail cfg
  | "linear_map" => checkLinearMap cfg
  | "bit_operations" => checkBitOperations cfg
  | "combine" => checkMode "Unsupported Combine mode" "mode" "two_bytes"
      ["two_bytes", "two_words", "four_bytes"] cfg
  | "boolean_logic" => checkMode "Unsupported Boolean Logic operation" "operation" "and"
      ["and", "or", "xor", "and_not", "not_a_and_b"] cfg
  | "build_json" => checkBuildJson cfg
  | "compute" => checkCompute cfg
  | "delay" => checkDelay cfg
  | "trigger" => checkTrigger cfg
  | "switch" => checkSwitch cfg
  | _ => .ok ()

/-! ## Nodes and edges -/

/-- One node, with the ids of the nodes before it: its id and its normalized form. -/
def checkNode (ids : List String) (node : Json) : Except String (String × Json) := do
  flowError "Every node must be an object" (!node.isObject)
  let id ← trimmed node "id"
  let type ← trimmed node "type"
  flowError "Node IDs must be present and unique" (id == "" || id ∈ ids)
  flowError ("Unsupported node type: " ++ type) (type ∉ nodeTypes)
  let cfg := (node.member "config" isObject).getD (.object [])
  checkSettings type cfg
  return (id, setField (setField (setField node "id" (.string id)) "type" (.string type))
    "config" cfg)

def checkNodes : List Json → List String → Except String (List String × List Json)
  | [], ids => .ok (ids, [])
  | node :: nodes, ids => do
    let (id, node) ← checkNode ids node
    let (ids, nodes) ← checkNodes nodes (ids ++ [id])
    return (ids, node :: nodes)

/-- The nodes that an edge joins. -/
def edgeEnds (edge : Json) : Except String (String × String) := do
  return (← trimmed edge "from", ← trimmed edge "to")

def checkEdge (ids : List String) (edge : Json) : Except String ((String × String) × Json) := do
  let ends ← edgeEnds edge
  flowError "Every edge must connect existing nodes" (ends.1 ∉ ids || ends.2 ∉ ids)
  flowError "A node cannot connect to itself" (ends.1 == ends.2)
  return (ends, setField (setField edge "from" (.string ends.1)) "to" (.string ends.2))

def checkEdges (ids : List String) : List Json → Except String (List (String × String) × List Json)
  | [] => .ok ([], [])
  | edge :: edges => do
    let (ends, edge) ← checkEdge ids edge
    let (graph, edges) ← checkEdges ids edges
    return (ends :: graph, edge :: edges)

/-! ## The flow -/

def idCharacter (c : Char) : Bool := isAlnum c || c == '_' || c == '-'

/-- A default for a missing member. -/
def withDefault (flow : Json) (key : String) (v : Json) : Json :=
  if flow.contains key then flow else setField flow key v

/-- The checks before the nodes. -/
def checkHeader (flow : Json) : Except String Json := do
  flowError "Flow must be an object" (!flow.isObject)
  let id ← trimmed flow "id"
  let name ← trimmed flow "name"
  flowError "Flow ID may contain only letters, numbers, underscores, and dashes"
    (id == "" || !id.toList.all idCharacter)
  flowError "Flow name is required" (name == "")
  let flow := setField (setField flow "id" (.string id)) "name" (.string name)
  let flow := withDefault (withDefault flow "enabled" (.bool true)) "mode" (.string "active")
  flowError "Flow nodes must be an array" (flow.memberItems "nodes").isNone
  flowError "Flow edges must be an array" (flow.memberItems "edges").isNone
  return flow

/-- The items of an array that was checked. -/
def itemsOf (flow : Json) (key : String) : List Json := (flow.memberItems key).getD []

def normalizeAndValidate (flow : Json) : Except String Json := do
  let flow ← checkHeader flow
  let (ids, nodes) ← checkNodes (itemsOf flow "nodes") []
  let (graph, edges) ← checkEdges ids (itemsOf flow "edges")
  flowError "Flow contains a cycle" ((kahn ids graph).length != ids.length)
  return setField (setField flow "nodes" (.array nodes)) "edges" (.array edges)

/-! ## Which flows are accepted -/

section
omit [JsonLib] [FlowLib]

omit [Floats] in
theorem flowError_ok {error : String} {refused : Bool} {u : Unit}
    (h : flowError error refused = .ok u) : refused = false := by
  unfold flowError at h
  split at h
  · cases h
  · rename_i hr
    exact Bool.eq_false_iff.2 hr

theorem checkEdge_ok {ids : List String} {edge : Json} {ends : String × String}
    (hends : edgeEnds edge = .ok ends) (h1 : ends.1 ∈ ids) (h2 : ends.2 ∈ ids)
    (hne : ends.1 ≠ ends.2) :
    checkEdge ids edge =
      .ok (ends, setField (setField edge "from" (.string ends.1)) "to" (.string ends.2)) := by
  unfold checkEdge
  rw [hends]
  simp [h1, h2, hne, flowError, bind, Except.bind, pure, Except.pure]

theorem checkEdge_inv {ids : List String} {edge edge' : Json} {ends : String × String}
    (h : checkEdge ids edge = .ok (ends, edge')) : edgeEnds edge = .ok ends ∧
      (ends.1 ∈ ids ∧ ends.2 ∈ ids) ∧ ends.1 ≠ ends.2 ∧
      edge' = setField (setField edge "from" (.string ends.1)) "to" (.string ends.2) := by
  unfold checkEdge at h
  obtain ⟨ends', hends, h⟩ := ok_of_bind h
  obtain ⟨_, hjoin, h⟩ := ok_of_bind h
  obtain ⟨_, hself, h⟩ := ok_of_bind h
  have h := Except.ok.inj h
  simp only [Prod.mk.injEq] at h
  obtain ⟨rfl, rfl⟩ := h
  have hjoin := Bool.or_eq_false_iff.1 (flowError_ok hjoin)
  refine ⟨hends, ⟨?_, ?_⟩, beq_eq_false_iff_ne.1 (flowError_ok hself), rfl⟩
  · simpa using hjoin.1
  · simpa using hjoin.2

/-- The edges of the flow, ports ignored. -/
def graphOf (edges : List Json) : Except String (List (String × String)) := edges.mapM edgeEnds

theorem graphOf_cons {edge : Json} {edges : List Json} {graph : List (String × String)}
    (h : graphOf (edge :: edges) = .ok graph) : ∃ ends rest, edgeEnds edge = .ok ends ∧
      graphOf edges = .ok rest ∧ graph = ends :: rest := by
  unfold graphOf at h
  rw [List.mapM_cons] at h
  obtain ⟨ends, hends, h⟩ := ok_of_bind h
  obtain ⟨rest, hrest, h⟩ := ok_of_bind h
  exact ⟨ends, rest, hends, hrest, (Except.ok.inj h).symm⟩

theorem checkEdges_ok {ids : List String} : ∀ {edges : List Json} {graph : List (String × String)},
    graphOf edges = .ok graph → (∀ e ∈ graph, e.1 ∈ ids ∧ e.2 ∈ ids) →
    (∀ e ∈ graph, e.1 ≠ e.2) → ∃ edges', checkEdges ids edges = .ok (graph, edges') := by
  intro edges
  induction edges with
  | nil =>
    intro graph hg _ _
    obtain rfl := Except.ok.inj hg
    exact ⟨[], rfl⟩
  | cons edge edges ih =>
    intro graph hg hin hne
    obtain ⟨ends, rest, hends, hrest, rfl⟩ := graphOf_cons hg
    have hmem := List.mem_cons_self (a := ends) (l := rest)
    obtain ⟨edges', hedges⟩ := ih hrest (fun e he => hin e (List.mem_cons_of_mem _ he))
      (fun e he => hne e (List.mem_cons_of_mem _ he))
    refine ⟨setField (setField edge "from" (.string ends.1)) "to" (.string ends.2) :: edges', ?_⟩
    rw [checkEdges, checkEdge_ok hends (hin _ hmem).1 (hin _ hmem).2 (hne _ hmem), hedges]
    rfl

theorem checkEdges_inv {ids : List String} : ∀ {edges edges' : List Json}
    {graph : List (String × String)}, checkEdges ids edges = .ok (graph, edges') →
    graphOf edges = .ok graph ∧ ∀ e ∈ graph, e.1 ∈ ids ∧ e.2 ∈ ids := by
  intro edges
  induction edges with
  | nil =>
    intro edges' graph h
    have h := congrArg Prod.fst (Except.ok.inj h)
    obtain rfl : [] = graph := h
    exact ⟨rfl, fun e he => absurd he List.not_mem_nil⟩
  | cons edge edges ih =>
    intro edges' graph h
    rw [checkEdges] at h
    obtain ⟨⟨ends, edge'⟩, hedge, h⟩ := ok_of_bind h
    obtain ⟨⟨rest, edges''⟩, hedges, h⟩ := ok_of_bind h
    have h := congrArg Prod.fst (Except.ok.inj h)
    obtain rfl : ends :: rest = graph := h
    obtain ⟨hends, hjoin, -⟩ := checkEdge_inv hedge
    obtain ⟨hrest, hall⟩ := ih hedges
    refine ⟨?_, fun e he => ?_⟩
    · unfold graphOf at hrest ⊢
      rw [List.mapM_cons, hends, hrest]
      rfl
    · obtain rfl | he := List.mem_cons.1 he
      · exact hjoin
      · exact hall e he

end

theorem checkNode_new {ids : List String} {node node' : Json} {id : String}
    (h : checkNode ids node = .ok (id, node')) : id ∉ ids := by
  unfold checkNode at h
  obtain ⟨_, -, h⟩ := ok_of_bind h
  obtain ⟨id', -, h⟩ := ok_of_bind h
  obtain ⟨type, -, h⟩ := ok_of_bind h
  obtain ⟨_, hid, h⟩ := ok_of_bind h
  obtain ⟨_, -, h⟩ := ok_of_bind h
  obtain ⟨_, -, h⟩ := ok_of_bind h
  obtain rfl : id' = id := congrArg Prod.fst (Except.ok.inj h)
  have hid := flowError_ok hid
  rw [Bool.or_eq_false_iff] at hid
  exact of_decide_eq_false hid.2

theorem checkNodes_nodup : ∀ {nodes nodes' : List Json} {ids ids' : List String}, ids.Nodup →
    checkNodes nodes ids = .ok (ids', nodes') → ids'.Nodup := by
  intro nodes
  induction nodes with
  | nil =>
    intro nodes' ids ids' hids h
    obtain rfl : ids = ids' := congrArg Prod.fst (Except.ok.inj h)
    exact hids
  | cons node nodes ih =>
    intro nodes' ids ids' hids h
    rw [checkNodes] at h
    obtain ⟨⟨id, node'⟩, hnode, h⟩ := ok_of_bind h
    obtain ⟨⟨ids'', nodes''⟩, hnodes, h⟩ := ok_of_bind h
    obtain rfl : ids'' = ids' := congrArg Prod.fst (Except.ok.inj h)
    refine ih ?_ hnodes
    rw [List.nodup_append]
    refine ⟨hids, List.nodup_singleton id, fun a ha b hb hab => ?_⟩
    obtain rfl := List.mem_singleton.1 hb
    exact checkNode_new hnode (hab ▸ ha)

/-- **Validation.** A flow whose header and nodes pass and whose edges join its nodes is accepted if
and only if its edges have no cycle. -/
theorem normalize_iff {flow flow' : Json} {ids : List String} {nodes : List Json}
    {graph : List (String × String)} (hheader : checkHeader flow = .ok flow')
    (hnodes : checkNodes (itemsOf flow' "nodes") [] = .ok (ids, nodes))
    (hgraph : graphOf (itemsOf flow' "edges") = .ok graph)
    (hjoin : ∀ e ∈ graph, e.1 ∈ ids ∧ e.2 ∈ ids) :
    (∃ out, normalizeAndValidate flow = .ok out) ↔ Acyclic graph := by
  have hids := checkNodes_nodup List.nodup_nil hnodes
  have hkahn := kahn_complete hids hjoin
  unfold normalizeAndValidate
  rw [hheader]
  dsimp only [bind, Except.bind]
  rw [hnodes]
  dsimp only
  constructor
  · rintro ⟨out, h⟩
    obtain ⟨⟨graph', edges⟩, hedges, h⟩ := ok_of_bind h
    obtain ⟨_, hcycle, -⟩ := ok_of_bind h
    obtain rfl := Except.ok.inj (hgraph.symm.trans (checkEdges_inv hedges).1)
    refine hkahn.1 ?_
    simpa using flowError_ok hcycle
  · intro hacyclic
    -- an edge from a node to itself is a cycle
    have hne : ∀ e ∈ graph, e.1 ≠ e.2 := by
      intro e he hself
      refine hacyclic e.1 (.single ?_)
      show (e.1, e.1) ∈ graph
      rwa [show (e.1, e.1) = e from Prod.ext rfl hself]
    obtain ⟨edges, hedges⟩ := checkEdges_ok hgraph hjoin hne
    rw [hedges]
    have hlen := hkahn.2 hacyclic
    exact ⟨_, by simp [flowError, hlen]; rfl⟩

end OpcBridge.Flow
