import ContractMachine.Config.Basic
import ContractMachine.Gas.Fields
import ContractMachine.Json.Value

/-!
# Configuration texts

A configuration is written as JSON.  Every field may be left out and then has
its default; unknown fields are passed over.
-/

namespace ContractMachine

/-- Reads the prices of a schedule, with defaults for those left out. -/
def Schedule.ofJson? (json : Json) : Option Schedule := do
  let names := (Schedule.fields {}).map Prod.fst
  let values ← json.record? names
  let prices ← values.mapM
    (Json.orDefault (fun json => json.count?.map some) none)
  return Schedule.ofLookup fun name => ((names.zip prices).lookup name).join

namespace Config

/-- The limits with their names, in the order in which they follow the
schedule. -/
def limits (config : Config) : List (String × Nat) :=
  [("max_call_depth", config.maxCallDepth),
   ("max_code_size", config.maxCodeSize),
   ("max_init_code_size", config.maxInitCodeSize)]

/-- Reads a configuration, with defaults for what is left out. -/
def ofJson? (json : Json) : Option Config := do
  let defaults : Config := {}
  match ← json.record? ("schedule" :: defaults.limits.map Prod.fst) with
  | [schedule, maxCallDepth, maxCodeSize, maxInitCodeSize] =>
    return {
      schedule := ← Json.orDefault Schedule.ofJson? defaults.schedule schedule
      maxCallDepth := ← Json.orDefault Json.count? defaults.maxCallDepth
        maxCallDepth
      maxCodeSize := ← Json.orDefault Json.count? defaults.maxCodeSize
        maxCodeSize
      maxInitCodeSize := ← Json.orDefault Json.count? defaults.maxInitCodeSize
        maxInitCodeSize }
  | _ => none

/-- Reads a configuration text without judging its limits. -/
def read (text : String) : Except ConfigError Config :=
  match (Json.parse? text).bind ofJson? with
  | some config => .ok config
  | none => .error .malformed

/-- Reads a configuration text and validates it. -/
def parse (text : String) : Except ConfigError Config := do
  let config ← read text
  config.validate
  return config

end Config

end ContractMachine
