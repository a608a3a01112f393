import ContractMachine.Config.Basic
import ContractMachine.Frame.Basic
import ContractMachine.Ledger.Basic

/-!
# Running frames

Instructions act on a running frame and a ledger, and may fail in two ways:
the frame halts, or the ledger does not answer.  Either way, what was done
before the failure stands, since gas paid and operands taken do not come back.

A frame does not run other frames.  When it calls or creates, it stops with a
request, and whoever runs it answers.
-/

namespace ContractMachine

/-- A message call that a frame asks for. -/
structure CallRequest where
  kind : CallKind
  /-- The account whose code is to run. -/
  target : Address
  value : Word
  input : Bytes
  /-- The gas handed over. -/
  gas : Nat
  /-- The piece of memory that takes the output. -/
  window : Range
  deriving DecidableEq

/-- A creation that a frame asks for. -/
structure CreateRequest where
  salt : Option Word
  value : Word
  initCode : Bytes
  /-- The gas handed over. -/
  gas : Nat
  deriving DecidableEq

/-- Why a frame stops running. -/
inductive Signal where
  /-- It has ended with an output. -/
  | return (output : Bytes)
  /-- It has ended and wants its changes taken back. -/
  | revert (output : Bytes)
  /-- It waits for a call. -/
  | call (request : CallRequest)
  /-- It waits for a creation. -/
  | create (request : CreateRequest)
  deriving DecidableEq

/-- Why an instruction or a transaction fails. -/
inductive Failure where
  | halt (cause : Halt)
  | ledger (cause : LedgerError)
  deriving DecidableEq, Repr

/-- The wording of a failure. -/
def Failure.message : Failure → String
  | .halt cause => cause.message
  | .ledger cause => "repository error: " ++ cause.message

/-- A running frame and the ledger it runs on. -/
structure Live (σ : Type) where
  frame : Frame
  ledger : σ

/-- Actions of a running frame.  A failure keeps what was done before it. -/
abbrev Exec (σ : Type) := EStateM Failure (Live σ)

namespace Exec

variable {σ α : Type}

/-- An action on the frame alone. -/
def frame (action : EStateM Halt Frame α) : Exec σ α := fun live =>
  match action live.frame with
  | .ok result frame => .ok result { live with frame := frame }
  | .error cause frame => .error (.halt cause) { live with frame := frame }

/-- The running frame. -/
def getFrame : Exec σ Frame := fun live => .ok live.frame live

/-- Changes the frame. -/
def modifyFrame (f : Frame → Frame) : Exec σ Unit := fun live =>
  .ok () { live with frame := f live.frame }

/-- Changes the gathered effects. -/
def modifyEffects (f : Effects → Effects) : Exec σ Unit :=
  modifyFrame fun frame => { frame with effects := f frame.effects }

/-- Asks the ledger. -/
def ask (read : σ → Except LedgerError α) : Exec σ α := fun live =>
  match read live.ledger with
  | .ok result => .ok result live
  | .error cause => .error (.ledger cause) live

/-- Has the ledger write. -/
def tell (write : EStateM LedgerError σ α) : Exec σ α := fun live =>
  match write live.ledger with
  | .ok result ledger => .ok result { live with ledger := ledger }
  | .error cause ledger => .error (.ledger cause) { live with ledger := ledger }

/-- Halts the frame. -/
def halt (cause : Halt) : Exec σ α := throw (.halt cause)

/-- Pays an amount of gas. -/
def charge (amount : Nat) : Exec σ Unit := frame (Frame.charge amount)

/-- Pays for and performs the growth of memory that a range needs. -/
def touch (schedule : Schedule) (offset length : Word) : Exec σ Range :=
  frame (Frame.touch schedule offset length)

/-- Reads a range of memory. -/
def load (range : Range) : Exec σ Bytes := fun live =>
  let (bytes, memory) := live.frame.memory.load range.offset range.length
  .ok bytes { live with frame := { live.frame with memory := memory } }

/-- Changes the memory. -/
def modifyMemory (f : Memory → Memory) : Exec σ Unit :=
  modifyFrame fun frame => { frame with memory := f frame.memory }

end Exec

end ContractMachine
