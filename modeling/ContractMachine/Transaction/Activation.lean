import ContractMachine.Execution.Step
import ContractMachine.Address.Derivation

/-!
# Activations

An activation is a frame in progress together with the snapshot opened when it
was entered and what is to become of its output.  When the frame ends, its
snapshot is committed or rolled back, and what is left of it is an exit: the
outcome, the output, the gas left and, after success, the effects.
-/

namespace ContractMachine

/-- How a frame or a transaction ends. -/
inductive Outcome where
  | success
  /-- Changes are taken back, the gas left is returned, the output is kept. -/
  | revert
  /-- Changes are taken back and all gas is used up. -/
  | halt (cause : Halt)
  deriving DecidableEq, Repr

/-- What becomes of a frame's output. -/
inductive Role where
  /-- It goes to a piece of the caller's memory. -/
  | call (window : Range)
  /-- It is the code of a new contract. -/
  | creation (address : Address)
  deriving DecidableEq, Repr

/-- A frame in progress. -/
structure Activation where
  frame : Frame
  /-- The depth of the snapshot that encloses the frame. -/
  snapshot : Nat
  role : Role

/-- What a frame leaves behind. -/
structure Exit where
  outcome : Outcome
  output : Bytes
  gasLeft : Nat
  effects : Effects := {}

namespace Transaction

variable {σ α : Type} [Ledger σ]

/-- A read as an action. -/
def query (read : σ → Except LedgerError α) : EStateM LedgerError σ α :=
  fun ledger =>
  match read ledger with
  | .ok result => .ok result ledger
  | .error cause => .error cause ledger

/-- Opens a snapshot and prepares what goes on inside it; if that fails, the
snapshot is rolled back. -/
def enter (prepare : EStateM LedgerError σ α) :
    EStateM LedgerError σ (Nat × α) := fun ledger =>
  let (snapshot, ledger) := Ledger.openSnapshot ledger
  match prepare ledger with
  | .ok result ledger => .ok (snapshot, result) ledger
  | .error cause ledger =>
    match Ledger.rollback snapshot ledger with
    | .ok () ledger => .error cause ledger
    | .error rollbackCause ledger => .error rollbackCause ledger

/-- Whether an account holds less than a value. -/
def lacks (address : Address) (value : Word) : EStateM LedgerError σ Bool := do
  return (← query (Ledger.balance · address)) < value

/-- Moves value to an account, which is created if it is not there. -/
def credit (source target : Address) (value : Word) :
    EStateM LedgerError σ Unit := do
  if value = 0 then return
  if !(← query (Ledger.hasAccount · target)) then Ledger.createAccount target
  Ledger.transfer source target value

/-- Whether an address is taken: it has code or a nonzero nonce. -/
def isTaken (address : Address) : EStateM LedgerError σ Bool := do
  if (← query (Ledger.nonce · address)) ≠ 0 then return true
  return (← query (Ledger.codeHash · address)) != Keccak.emptyHash

/-- Enters a call: value is moved if the call moves any, and the target's code
is about to run. -/
def enterCall (context : Context) (moves : Bool) (source target : Address)
    (gas : Nat) (window : Range) : EStateM LedgerError σ Activation := do
  let (snapshot, code) ← enter do
    if moves then credit source context.address context.value
    query (Ledger.code · target)
  return { frame := Frame.start code context gas, snapshot,
           role := .call window }

/-- Enters a creation: a fresh account with nonce one gets the value, and the
initialisation code is about to run on it. -/
def enterCreation (creator address : Address) (value : Word) (initCode : Bytes)
    (gas depth : Nat) : EStateM LedgerError σ Activation := do
  let (snapshot, ()) ← enter do
    Ledger.createAccount address
    let _ ← Ledger.bumpNonce address
    Ledger.transfer creator address value
  let context : Context := { address, caller := creator, value, depth }
  return { frame := Frame.start initCode context gas, snapshot,
           role := .creation address }

/-- The first byte that deployed code must not have. -/
def reservedByte : UInt8 := 0xef

/-- Checks, pays for and installs the code that a creation returned. -/
def depositCode (config : Config) (address : Address) (code : Bytes) :
    Exec σ Unit := do
  if config.maxCodeSize < code.size then
    Exec.halt (.codeTooLarge code.size config.maxCodeSize)
  if code[0]? = some reservedByte then Exec.halt .reservedCode
  Exec.charge (config.schedule.codeDepositCost code.size)
  Exec.tell (Ledger.setCode address code)

/-- Closes the snapshot of a frame that succeeded and hands on its effects. -/
def succeed (snapshot : Nat) (frame : Frame) (output : Bytes) :
    EStateM LedgerError σ Exit := do
  Ledger.commit snapshot
  return { outcome := .success, output, gasLeft := frame.gas,
           effects := frame.effects }

/-- Closes the snapshot of a frame that reverted or halted. -/
def fail (snapshot gasLeft : Nat) (outcome : Outcome) (output : Bytes) :
    EStateM LedgerError σ Exit := do
  Ledger.rollback snapshot
  return { outcome, output, gasLeft }

/-- Ends a frame.  A creation that succeeds must first deposit its code; if it
cannot, it halts after all. -/
def leave (config : Config) (activation : Activation) (outcome : Outcome)
    (output : Bytes) : EStateM LedgerError σ Exit := fun ledger =>
  match outcome, activation.role with
  | .success, .call _ =>
    succeed activation.snapshot activation.frame output ledger
  | .success, .creation address =>
    match depositCode config address output
      { frame := activation.frame, ledger } with
    | .ok () live => succeed activation.snapshot live.frame output live.ledger
    | .error (.halt cause) live =>
      fail activation.snapshot 0 (.halt cause) #[] live.ledger
    | .error (.ledger cause) live =>
      match Ledger.rollback activation.snapshot live.ledger with
      | .ok () ledger => .error cause ledger
      | .error rollbackCause ledger => .error rollbackCause ledger
  | .revert, _ =>
    fail activation.snapshot activation.frame.gas .revert output ledger
  | .halt cause, _ => fail activation.snapshot 0 (.halt cause) output ledger

end Transaction

namespace Frame

/-- Puts the result of a call or creation on the stack and its output into the
return data. -/
def answer (frame : Frame) (returnData : Bytes) (result : Word) :
    Except Halt Frame :=
  (frame.stack.push result).map fun stack =>
    { frame with returnData := returnData, stack := stack }

/-- Goes on after a call or creation that never started: its gas comes back. -/
def refuse (frame : Frame) (gas : Nat) : Except Halt Frame :=
  (frame.returnGas gas).answer #[] 0

/-- Goes on after a called frame has ended. -/
def resume (frame : Frame) (role : Role) (exit : Exit) : Except Halt Frame :=
  let frame := frame.returnGas exit.gasLeft
  let succeeded := exit.outcome = .success
  let frame :=
    if succeeded then { frame with
      effects := frame.effects.absorb exit.effects } else frame
  match role with
  | .call window =>
    let output := exit.output.extract 0 window.length
    let frame := { frame with
      memory := frame.memory.store window.offset output }
    frame.answer exit.output (.ofBool succeeded)
  | .creation address =>
    frame.answer (if exit.outcome = .revert then exit.output else #[])
      (if succeeded then .ofAddress address else 0)

end Frame

end ContractMachine
