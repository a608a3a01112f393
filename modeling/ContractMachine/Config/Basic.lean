import ContractMachine.Gas.Schedule

/-!
# Configuration

A machine runs with a price schedule and three limits, which do not change
while it runs.  Not every combination makes sense; `Config.validate` names the
first that does not.
-/

namespace ContractMachine

/-- Prices and limits of a machine. -/
structure Config where
  schedule : Schedule := {}
  /-- The deepest frame allowed; a call from there fails. -/
  maxCallDepth : Nat := 1024
  /-- The largest deployed code in bytes. -/
  maxCodeSize : Nat := 24576
  /-- The largest initialisation code in bytes. -/
  maxInitCodeSize : Nat := 49152
  deriving DecidableEq, Repr

/-- Why a configuration is refused. -/
inductive ConfigError where
  /-- The text is not JSON of the right shape. -/
  | malformed
  | noCallDepth
  | initCodeBelowCode
  | zeroDivisor
  deriving DecidableEq, Repr

/-- The wording of an error. -/
def ConfigError.message : ConfigError → String
  | .malformed => "invalid config: <json>"
  | .noCallDepth => "invalid config: max_call_depth must be positive"
  | .initCodeBelowCode =>
    "invalid config: max_init_code_size must be at least max_code_size"
  | .zeroDivisor => "invalid config: gas schedule divisors must be nonzero"

/-- Refuses limits that a machine cannot run with. -/
def Config.validate (config : Config) : Except ConfigError Unit :=
  if config.maxCallDepth = 0 then .error .noCallDepth
  else if config.maxInitCodeSize < config.maxCodeSize then
    .error .initCodeBelowCode
  else if config.schedule.quadraticDivisor = 0 ∨
      config.schedule.refundDivisor = 0 then
    .error .zeroDivisor
  else .ok ()

end ContractMachine
