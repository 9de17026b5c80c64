import OpcBridge.Core.Snapshot

/-!
# Tags as OPC UA nodes

Which tags get a variable node, and how a snapshot becomes the node's value.
`std::get` on the wrong alternative throws; `uaSetVariableAttrFromSnapshot` keeps that outcome
apart from the `false` of an unsupported datatype.
-/

namespace OpcBridge

variable [Floats]

/-! ## Values -/

/-- `std::bad_variant_access` -/
inductive BadVariantAccess
  | mk
deriving DecidableEq

inductive UaValueRank
  | scalar
  | oneDimension
deriving DecidableEq

/-- The attributes a value sets; the element type is named by the datatype it is for. -/
structure UaVariableAttributes where
  valueRank : UaValueRank
  arrayDimensions : List Nat
  dataType : String
  value : List TagValue

/-- `none` is the function's `false`. -/
def uaSetVariableAttrFromSnapshot (seed : TagSnapshot) :
    Except BadVariantAccess (Option UaVariableAttributes) :=
  if seed.arrayValues ≠ [] then
    -- each element is tested with `holds_alternative` first
    if isSupportedDatatype seed.datatype ∧
        seed.arrayValues.all fun item => item.datatype == seed.datatype then
      .ok (some { valueRank := .oneDimension, arrayDimensions := [seed.arrayValues.length],
                  dataType := seed.datatype, value := seed.arrayValues })
    else .ok none
  else if isSupportedDatatype seed.datatype then
    if seed.value.datatype = seed.datatype then
      .ok (some { valueRank := .scalar, arrayDimensions := [], dataType := seed.datatype,
                  value := [seed.value] })
    else .error .mk
  else .ok none

/-! ## Eligibility -/

def isOpcuaClientDriverName (driver : String) : Bool :=
  driver == "opcua_client" || driver == "opcua-client" || driver == "remote_opcbridge"

def uaTagHasNode (conn : ConnectionConfig) (tag : TagRuntime) : Bool :=
  tag.cfg.enabled && (decide (0 ≤ tag.handle) || tag.handleDeferred || isMemoryTag tag.cfg ||
    tag.cfg.sourceTag != "" || tag.pollSource != "" || isOpcuaClientDriverName conn.driver)

/-- The seed of a tag that is live: it has a node and a datatype that a node can carry. -/
def liveSeed (conn : ConnectionConfig) (tag : TagRuntime) (now : Instant) : Option TagSnapshot :=
  if !uaTagHasNode conn tag then none
  else
    let seed := makeInitialSnapshotForOpcua conn tag now
    match uaSetVariableAttrFromSnapshot seed with
    | .ok (some _) => some seed
    | .ok none => none
    -- a seed is typed and never throws
    | .error _ => none

theorem liveSeed_eq_some {conn : ConnectionConfig} {tag : TagRuntime} {now : Instant}
    {seed : TagSnapshot} (h : liveSeed conn tag now = some seed) :
    uaTagHasNode conn tag = true ∧ seed = makeInitialSnapshotForOpcua conn tag now ∧
      (∃ attr, uaSetVariableAttrFromSnapshot seed = .ok (some attr)) := by
  unfold liveSeed at h
  split at h
  · cases h
  · rename_i hn
    dsimp only at h
    split at h
    · cases h
      exact ⟨by simpa using hn, rfl, _, ‹_›⟩
    · cases h
    · cases h

end OpcBridge
