import OpcBridge.Flow.Validate

/-!
# The flow of a document

`FlowDef.ofJson` reads the settings of an accepted flow as `process_event` and `poll_tag` do. The
validation looks at some of them only. One of another JSON type than the code asks for ends the
process with an exception when it is read; here it has its default, so that the runs of the program
are the beginnings of the runs here. `accepted_acyclic` says that the edges that the worker follows
are the ones that were checked.
-/

namespace OpcBridge.Flow

open OpcBridge OpcBridge.Alarms OpcBridge.Alarms.Json Lib

variable [Floats] [JsonLib]

/-! ## Settings -/

omit [JsonLib] in
/-- `cfg.value(key, default)` -/
def settingOr {α : Type} (read : Json → String → α → Except String α) (cfg : Json)
    (key : String) (default : α) : α :=
  match read cfg key default with
  | .ok v => v
  | .error _ => default

omit [JsonLib] in
/-- `cfg.value(key, json(default))` -/
def jsonOr (cfg : Json) (key : String) (default : Json) : Json := (cfg.find key).getD default

def TriggerSettings.ofJson (cfg : Json) : TriggerSettings where
  durationMs := settingOr valueLong cfg "duration_ms" 1000
  resetEnabled := settingOr valueBool cfg "reset_enabled" false
  resetValue := jsonOr cfg "reset_value" (.string "reset")
  initialValue := jsonOr cfg "initial_value" (.string "true")
  delayedValue := jsonOr cfg "delayed_value" (.string "false")
  extendDelay := settingOr valueBool cfg "extend_delay" true
  sendInitial := settingOr valueBool cfg "send_initial" true
  sendDelayed := settingOr valueBool cfg "send_delayed" true

/-- The settings of a node. A type without settings passes its events on. -/
def NodeType.ofJson (type : String) (cfg : Json) : NodeType :=
  let text (key default : String) : String := settingOr valueString cfg key default
  let flag (key : String) (default : Bool) : Bool := settingOr valueBool cfg key default
  let number (key : String) (default : Int) : F64 :=
    settingOr valueDouble cfg key (Floats.ofInt default)
  let texts (items key : String) : List String :=
    (itemsOf cfg items).map fun item => settingOr valueString item key ""
  match type with
  | "opc_tag_input" => .opcTagInput (flag "only_on_change" true)
  | "mqtt_subscribe" => .mqttSubscribe (text "connection_id" "") (text "topic" "")
  | "manual_input" => .manualInput
  | "split" => .split
  | "switch" => .switch (texts "rules" "value") (flag "check_all" false) (flag "otherwise" true)
  | "linear_map" => .linearMap (number "input_min" 0) (number "input_max" 100)
      (number "output_min" 0) (number "output_max" 100) (flag "clamp" false)
  | "bit_operations" => .bitOperations (text "operation" "and") (text "output_mode" "result")
      (text "boolean_test" "nonzero") (settingOr valueInt cfg "word_size" 16).toNat
      (operandOf cfg "operand") (operandOf cfg "comparison") (flag "invert_boolean" false)
  | "combine" => .combine (text "mode" "two_bytes") (flag "signed_result" false)
  | "boolean_logic" => .booleanLogic (text "operation" "and")
  | "build_json" => .buildJson (texts "fields" "key")
  | "compute" => .compute (texts "inputs" "name") (text "expression" "")
  | "delay" => .delay (text "action" "delay_each") (settingOr valueLong cfg "delay_ms" 1000)
  | "trigger" => .trigger (.ofJson cfg)
  | "boolean_invert" => .booleanInvert
  | "datatype_convert" => .datatypeConvert (text "datatype" "string")
  | "opc_tag_write" => .opcTagWrite (text "connection_id" "") (text "tag_name" "")
      (settingOr valueInt cfg "stale_after_ms" 0)
  | "mqtt_publish" => .mqttPublish (text "connection_id" "") (text "topic" "")
      (text "payload_format" "scalar")
  | "email_output" => .emailOutput (text "send_mode" "every") (text "to" "")
      (flag "send_true" true) (flag "send_false" true)
  | _ => .debug

def FlowNode.ofJson (node : Json) : FlowNode where
  id := settingOr valueString node "id" ""
  type := .ofJson (settingOr valueString node "type" "") (jsonOr node "config" (.object []))

omit [JsonLib] in
def FlowEdge.ofJson (edge : Json) : FlowEdge where
  source := settingOr valueString edge "from" ""
  to_ := settingOr valueString edge "to" ""
  sourcePort := (edge.member "from_port" isString).map fun _ => jsonStringOrEmpty edge "from_port"
  toPort := settingOr valueString edge "to_port" ""

def FlowDef.ofJson (flow : Json) : FlowDef where
  enabled := settingOr valueBool flow "enabled" true
  mode := settingOr valueString flow "mode" "active"
  nodes := (itemsOf flow "nodes").map FlowNode.ofJson
  edges := (itemsOf flow "edges").map FlowEdge.ofJson

/-! ## The edges of an accepted flow -/

section
omit [JsonLib]

theorem find_setField_self {j : Json} (h : j.isObject = true) (key : String) (v : Json) :
    (setField j key v).find key = some v := by
  cases j with
  | object fields => simp [setField, Json.find]
  | _ => cases h

theorem find_setField_ne (j : Json) {key other : String} (h : other ≠ key) (v : Json) :
    (setField j key v).find other = j.find other := by
  cases j with
  | object fields =>
    have hb : (other == key) = false := beq_eq_false_iff_ne.2 h
    simp only [setField, Json.find, List.lookup_cons, hb]
    induction fields with
    | nil => rfl
    | cons x fields ih =>
      obtain ⟨k, w⟩ := x
      by_cases hk : k = key
      · simpa [hk, List.lookup_cons, hb] using ih
      · have hk' : (k != key) = true := by simpa using hk
        simp only [List.filter_cons, hk', if_true, List.lookup_cons, ih]
  | _ => rfl

theorem isObject_setField (j : Json) (key : String) (v : Json) :
    (setField j key v).isObject = j.isObject := by
  cases j <;> rfl

theorem valueString_setField_self {j : Json} (h : j.isObject = true) (key text default : String) :
    valueString (setField j key (.string text)) key default = .ok text := by
  cases j with
  | object fields => simp [valueString, value, setField, Json.find, getString]
  | _ => cases h

/-- An edge of another type has no ends. -/
theorem edgeEnds_isObject {edge : Json} {ends : String × String} (h : edgeEnds edge = .ok ends) :
    edge.isObject = true := by
  unfold edgeEnds trimmed at h
  cases edge with
  | object fields => rfl
  | _ => cases h

/-- The ends of a normalized edge. -/
theorem ofJson_ends {edge : Json} (h : edge.isObject = true) (source target : String) :
    (FlowEdge.ofJson (setField (setField edge "from" (.string source)) "to"
        (.string target))).source = source ∧
    (FlowEdge.ofJson (setField (setField edge "from" (.string source)) "to"
        (.string target))).to_ = target := by
  have hobject := isObject_setField edge "from" (.string source)
  rw [h] at hobject
  unfold FlowEdge.ofJson settingOr
  dsimp only
  refine ⟨?_, ?_⟩
  · have hfrom : valueString (setField (setField edge "from" (.string source)) "to"
        (.string target)) "from" "" = .ok source := by
      cases edge with
      | object fields =>
        have hne := find_setField_ne (setField (.object fields) "from" (.string source))
          (show "from" ≠ "to" by decide) (.string target)
        rw [find_setField_self rfl] at hne
        simp only [setField] at hne ⊢
        simp only [valueString, value, hne, getString]
      | _ => cases h
    rw [hfrom]
  · rw [valueString_setField_self hobject]

/-- The edges of the document after the checks. -/
theorem checkEdges_graph {ids : List String} : ∀ {edges edges' : List Json}
    {graph : List (String × String)}, checkEdges ids edges = .ok (graph, edges') →
    (edges'.map FlowEdge.ofJson).map (fun e => (e.source, e.to_)) = graph := by
  intro edges
  induction edges with
  | nil =>
    intro edges' graph h
    obtain ⟨rfl, rfl⟩ := Prod.mk.injEq .. ▸ Except.ok.inj h
    rfl
  | cons edge edges ih =>
    intro edges' graph h
    rw [checkEdges] at h
    obtain ⟨⟨ends, edge'⟩, hedge, h⟩ := ok_of_bind h
    obtain ⟨⟨rest, edges''⟩, hedges, h⟩ := ok_of_bind h
    obtain ⟨rfl, rfl⟩ := Prod.mk.injEq .. ▸ Except.ok.inj h
    obtain ⟨hends, -, -, rfl⟩ := checkEdge_inv hedge
    obtain ⟨h1, h2⟩ := ofJson_ends (edgeEnds_isObject hends) ends.1 ends.2
    rw [List.map_cons, List.map_cons, ih hedges, h1, h2]

theorem checkHeader_isObject {flow flow' : Json} (h : checkHeader flow = .ok flow') :
    flow'.isObject = true := by
  unfold checkHeader at h
  obtain ⟨_, hobject, h⟩ := ok_of_bind h
  obtain ⟨id, -, h⟩ := ok_of_bind h
  obtain ⟨name, -, h⟩ := ok_of_bind h
  obtain ⟨_, -, h⟩ := ok_of_bind h
  obtain ⟨_, -, h⟩ := ok_of_bind h
  obtain ⟨_, -, h⟩ := ok_of_bind h
  obtain ⟨_, -, h⟩ := ok_of_bind h
  have hwith (j : Json) (key : String) (v : Json) :
      (withDefault j key v).isObject = j.isObject := by
    unfold withDefault
    split
    · rfl
    · exact isObject_setField j key v
  rw [← Except.ok.inj h, hwith, hwith, isObject_setField, isObject_setField]
  simpa using flowError_ok hobject

end

variable [FlowLib]

/-- The edges that the worker follows. -/
def FlowDef.graph (f : FlowDef) : List (String × String) :=
  f.edges.map fun e => (e.source, e.to_)

/-- A flow that was saved or deployed. -/
def Accepted (f : FlowDef) : Prop := ∃ flow out, normalizeAndValidate flow = .ok out ∧
  f = .ofJson out

/-- The worker never goes around in a circle. -/
theorem accepted_acyclic {f : FlowDef} (h : Accepted f) : Acyclic f.graph := by
  obtain ⟨flow, out, hout, rfl⟩ := h
  unfold normalizeAndValidate at hout
  obtain ⟨flow', hheader, hout⟩ := ok_of_bind hout
  obtain ⟨⟨ids, nodes⟩, hnodes, hout⟩ := ok_of_bind hout
  obtain ⟨⟨graph, edges⟩, hedges, hout⟩ := ok_of_bind hout
  obtain ⟨_, hcycle, hout⟩ := ok_of_bind hout
  have hobject := checkHeader_isObject hheader
  have hgraph : (FlowDef.ofJson out).graph = graph := by
    have hitems : itemsOf out "edges" = edges := by
      rw [← Except.ok.inj hout]
      unfold itemsOf memberItems
      rw [find_setField_self (by rwa [isObject_setField])]
      rfl
    unfold FlowDef.graph FlowDef.ofJson
    dsimp only
    rw [hitems, checkEdges_graph hedges]
  rw [hgraph]
  have hids := checkNodes_nodup List.nodup_nil hnodes
  refine (kahn_complete hids (checkEdges_inv hedges).2).1 ?_
  simpa using flowError_ok hcycle

end OpcBridge.Flow
