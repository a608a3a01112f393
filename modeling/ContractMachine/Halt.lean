import ContractMachine.Text.Hex

/-!
# Exceptional halts

A halt ends a frame, takes back what it wrote and uses up its gas.  It is an
outcome of execution, not a failure of the machine: a revert is no halt, and
neither is a ledger that does not answer.
-/

namespace ContractMachine

/-- Why a frame halts. -/
inductive Halt where
  | outOfGas
  | stackUnderflow
  | stackOverflow
  | invalidJump (destination : Nat)
  | invalidOpcode (byte : UInt8)
  | staticViolation
  | returnDataOutOfBounds
  | createCollision
  | codeTooLarge (size limit : Nat)
  | initCodeTooLarge (size limit : Nat)
  /-- Deployed code must not start with the reserved byte. -/
  | reservedCode
  | insufficientBalance
  deriving DecidableEq, Repr

/-- The wording of a halt. -/
def Halt.message : Halt → String
  | .outOfGas => "out of gas"
  | .stackUnderflow => "stack underflow"
  | .stackOverflow => "stack overflow (max 1024)"
  | .invalidJump destination =>
    "invalid jump destination: " ++ Decimal.render destination
  | .invalidOpcode byte => "invalid opcode: " ++ Hex.render [byte]
  | .staticViolation => "state modification in static context"
  | .returnDataOutOfBounds => "return data out of bounds"
  | .createCollision => "contract address collision"
  | .codeTooLarge size limit =>
    "code size " ++ Decimal.render size ++ " exceeds limit " ++
      Decimal.render limit
  | .initCodeTooLarge size limit =>
    "init code size " ++ Decimal.render size ++ " exceeds limit " ++
      Decimal.render limit
  | .reservedCode => "deployed code starts with 0xef"
  | .insufficientBalance => "insufficient balance"

end ContractMachine
