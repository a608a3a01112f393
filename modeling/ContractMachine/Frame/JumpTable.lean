import ContractMachine.Bytes
import ContractMachine.Opcode.Encoding

/-!
# Jump destinations

A jump may only lead to a `JUMPDEST` byte that is an instruction of its own,
not one that is part of a number pushed by the instruction before it.  The
table is found by walking the code from its start and passing over the bytes
that belong to an instruction.
-/

namespace ContractMachine

/-- Whether each position of a code is a jump destination. -/
abbrev JumpTable := Array Bool

namespace JumpTable

/-- Whether each byte is a destination, when the first `skipped` bytes belong to
an instruction before them. -/
def scan : (skipped : Nat) → List UInt8 → List Bool
  | _, [] => []
  | skipped + 1, _ :: rest => false :: scan skipped rest
  | 0, byte :: rest =>
    let opcode := Opcode.decode byte
    (opcode == .jumpDest) :: scan opcode.immediateLength rest

/-- The destinations of a code. -/
def ofCode (code : Bytes) : JumpTable := (scan 0 code.toList).toArray

/-- Whether a position is a destination. -/
def isValid (table : JumpTable) (position : Nat) : Bool :=
  table.getD position false

@[simp]
theorem length_scan (skipped : Nat) (bytes : List UInt8) :
    (scan skipped bytes).length = bytes.length := by
  induction bytes generalizing skipped with
  | nil => simp [scan]
  | cons byte rest ih => cases skipped <;> simp [scan, ih]

end JumpTable

end ContractMachine
