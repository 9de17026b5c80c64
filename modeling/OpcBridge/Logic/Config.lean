import OpcBridge.Logic.Dependencies
import Mathlib.Data.Finset.Image
import Mathlib.Data.Finset.Lattice.Basic

/-!
# Automation scripts

The record of an automation script or block: its configuration, what its last run left, and the
variables it keeps between runs. `LogicScriptConfig.dependencies` is what demand and verified reads
are computed from.
-/

namespace OpcBridge

/-- What the last run of a script left. -/
structure LogicRunStats where
  lastRunMs : Int := 0
  lastRunDurationMs : Int := 0
  lastRunOk : Bool := false
  runsTotal : Nat := 0
  failuresTotal : Nat := 0
  referencedTags : Nat := 0
  missingTags : Nat := 0
  evaluatedReads : Nat := 0
  memoryWrites : Nat := 0
  variableCount : Nat := 0
  readPreview : String := ""
  writePreview : String := ""
  variablePreview : String := ""
  lastError : String := ""
deriving DecidableEq

structure LogicScriptConfig where
  id : String
  name : String := ""
  /-- `"script"` or `"block"`. -/
  kind : String := "script"
  enabled : Bool := false
  intervalMs : Nat := 0
  requireFreshRead : Bool := false
  freshMaxAgeMs : Nat := 0
  freshTimeoutMs : Nat := 1000
  engine : String := "javascript"
  source : String := ""
  setupSource : String := ""
  loopSource : String := ""
  stats : LogicRunStats := {}
  setupInitialized : Bool := false
  retainedVars : String → Option String := fun _ => none

/-- The dependencies of all configured branches, the retained setup code included. -/
def LogicScriptConfig.dependencies (script : LogicScriptConfig) : AutomationDependencies :=
  let deps := automationReadDependencies
    (if script.kind = "block" then script.setupSource else script.source)
  if script.kind = "block" then
    let loop := automationReadDependencies script.loopSource
    let deps := { deps with reads := deps.reads ∪ loop.reads }
    if loop.complete then deps else deps.uncertain loop.reason
  else deps

end OpcBridge
