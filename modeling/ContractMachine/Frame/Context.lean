import ContractMachine.Word.Basic
import Std.Data.TreeMap

/-!
# What a frame sees of its surroundings

The context belongs to one frame: who called it, with what, and on whose
behalf it runs.  The environment is shared by all frames of a transaction: the
block and the sender.
-/

namespace ContractMachine

/-- How one frame was invoked. -/
structure Context where
  /-- The account whose storage and balance the code acts on. -/
  address : Address := 0
  caller : Address := 0
  value : Word := 0
  data : Bytes := #[]
  /-- Whether changes to the state are forbidden. -/
  isStatic : Bool := false
  /-- The nesting level, zero for the frame of the transaction itself. -/
  depth : Nat := 0
  deriving DecidableEq

/-- The block in which a transaction runs. -/
structure Block where
  number : Nat := 0
  timestamp : Nat := 0
  gasLimit : Nat := 30000000
  coinbase : Address := 0
  difficulty : Word := 0
  chainId : Nat := 1
  baseFee : Word := 0
  /-- Hashes of earlier blocks by number. -/
  hashes : Std.TreeMap Nat Word := ∅

/-- The hash of an earlier block: only the last 256 are known. -/
def Block.hash (block : Block) (number : Nat) : Word :=
  if block.number ≤ number ∨ 256 < block.number - number then 0
  else block.hashes.getD number 0

/-- What all frames of a transaction share. -/
structure Environment where
  block : Block := {}
  origin : Address := 0
  gasPrice : Word := 0

end ContractMachine
