import ContractMachine.Frame.Context
import ContractMachine.Frame.JumpTable
import ContractMachine.Frame.Memory
import ContractMachine.Frame.Stack
import Std.Data.TreeSet

/-!
# Frames

A frame is one execution of a code: its place in the code, its stack, memory
and gas, and the effects it has gathered for whoever called it.  Effects are
handed on only if the frame succeeds.
-/

namespace ContractMachine

/-- An entry that a contract leaves in the record of a transaction. -/
structure Log where
  address : Address := 0
  topics : List Word := []
  data : Bytes := #[]
  deriving DecidableEq

/-- What a frame gathers for its caller. -/
structure Effects where
  logs : Array Log := #[]
  /-- Accounts marked for deletion at the end of the transaction. -/
  destroyed : Std.TreeSet Address := ∅
  refund : Nat := 0

namespace Effects

/-- Adds to the refund. -/
def addRefund (effects : Effects) (amount : Nat) : Effects :=
  { effects with refund := Saturating.add effects.refund amount }

/-- Appends an entry. -/
def addLog (effects : Effects) (log : Log) : Effects :=
  { effects with logs := effects.logs.push log }

/-- Marks an account for deletion; also says whether it is the first mark. -/
def markDestroyed (effects : Effects) (address : Address) : Bool × Effects :=
  (!effects.destroyed.contains address,
    { effects with destroyed := effects.destroyed.insert address })

/-- Takes up the effects of a frame that succeeded after one's own. -/
def absorb (effects later : Effects) : Effects where
  logs := effects.logs ++ later.logs
  destroyed := effects.destroyed.insertMany later.destroyed.toList
  refund := Saturating.add effects.refund later.refund

end Effects

/-- One execution of a code. -/
structure Frame where
  code : Bytes
  jumps : JumpTable
  context : Context
  gasLimit : Nat
  /-- The gas that is left. -/
  gas : Nat
  /-- The position of the next instruction. -/
  position : Nat := 0
  stack : Stack := []
  memory : Memory := {}
  effects : Effects := {}
  /-- The output of the frame that was called last. -/
  returnData : Bytes := #[]

namespace Frame

/-- The frame about to run a code from its start. -/
def start (code : Bytes) (context : Context) (gas : Nat) : Frame where
  code := code
  jumps := JumpTable.ofCode code
  context := context
  gasLimit := gas
  gas := gas

/-- The gas used so far. -/
def gasUsed (frame : Frame) : Nat := frame.gasLimit - frame.gas

/-- Pays an amount of gas.  A frame that cannot pay loses what it has. -/
def charge (amount : Nat) : EStateM Halt Frame Unit := fun frame =>
  if frame.gas < amount then .error .outOfGas { frame with gas := 0 }
  else .ok () { frame with gas := frame.gas - amount }

/-- Takes back gas that a called frame left. -/
def returnGas (frame : Frame) (amount : Nat) : Frame :=
  { frame with gas := Saturating.add frame.gas amount }

/-- Pays for and performs the growth of memory that a range needs.  An empty
range needs none, wherever it lies; a range that no memory could cover is out
of gas at once. -/
def touch (schedule : Schedule) (offset length : Word) :
    EStateM Halt Frame Range := fun frame =>
  if length = 0 then .ok {} frame
  else
    match offset.toCount?, length.toCount? with
    | some offset, some length =>
      match frame.memory.requiredSize? offset length with
      | none => .error .outOfGas frame
      | some size =>
        match charge (schedule.expansionCost frame.memory.size size) frame with
        | .error halt frame => .error halt frame
        | .ok () frame =>
          .ok { offset := offset, length := length }
            { frame with memory := frame.memory.expand offset length }
    | _, _ => .error .outOfGas frame

/-- Continues at a destination, which must be valid. -/
def jump (destination : Word) : EStateM Halt Frame Unit := fun frame =>
  let target := destination.toCount
  if frame.jumps.isValid target then .ok () { frame with position := target }
  else .error (.invalidJump target) frame

/-- The number in the `length` bytes after the current instruction, of which at
most 32 count; bytes past the end of the code are zero. -/
def immediate (frame : Frame) (length : Nat) : Word :=
  Word.ofBytes (frame.code.window (frame.position + 1) (min length 32))

/-- Continues `n` bytes further on. -/
def advance (frame : Frame) (n : Nat) : Frame :=
  { frame with position := frame.position + n }

end Frame

end ContractMachine
