import ContractMachine.Proofs.Execution.Steps
import ContractMachine.Proofs.Frame.MemoryGrowth

/-!
# Strict execution

Here instructions are run without any provision.  Each takes its operands off
the stack itself, as many as it uses, and puts its results there itself, word by
word, and each of these fails if the stack is too short or too long.  Memory
does not grow but where an instruction pays for it: a use of a range that is not
covered is a fault, for which any failure may be chosen.

Nothing of this shows.  Strict execution agrees with execution that takes the
declared number of operands beforehand and lets every use of memory grow it,
step by step and whatever failure is chosen for the fault.  So the declared
numbers are the ones that instructions go by, and nothing they do to the stack
or to memory fails or makes memory grow once they have been authorized and have
paid.
-/

namespace ContractMachine

namespace Strict

open Exec Execution

variable {σ α : Type}

/-! ## The stack -/

/-- An action on the stack of a frame. -/
def onStack (f : Stack → Except Halt (α × Stack)) : Exec σ α :=
  Exec.frame fun frame =>
  match f frame.stack with
  | .ok (a, stack) => .ok a { frame with stack }
  | .error cause => .error cause frame

/-- Takes the top of the stack. -/
def pop : Exec σ Word := onStack Stack.pop

/-- Takes words off the stack one by one. -/
def popEach : Nat → Exec σ (List Word)
  | 0 => return []
  | n + 1 => do
    let word ← pop
    return word :: (← popEach n)

/-- Takes the topmost `n` words off the stack, to be told by their place
there. -/
def operands (n : Nat) : Exec σ (Nat → Word) := do
  let words ← onStack (·.popMany n)
  return fun i => words.getD i 0

/-- Puts a word on the stack. -/
def push (word : Word) : Exec σ Unit :=
  onStack fun stack => (stack.push word).map ((), ·)

/-! ## Memory -/

/-- Reads a range, which must be covered. -/
def load (fault : Failure) (range : Range) : Exec σ Bytes := fun live =>
  match live.frame.memory.load? range with
  | some bytes => .ok bytes live
  | none => .error fault live

/-- Changes the memory, if that is possible. -/
def modifyMemory (fault : Failure) (f : Memory → Option Memory) :
    Exec σ Unit := fun live =>
  match f live.frame.memory with
  | some memory => .ok () { live with frame := { live.frame with memory } }
  | none => .error fault live

/-- Pays for and copies `length` bytes of `source` to memory, with zeros past
its end. -/
def copyToMemory (fault : Failure) (schedule : Schedule) (source : Bytes)
    (target offset length : Word) : Exec σ Unit := do
  let range ← touch schedule target length
  charge (schedule.copyCost range.length)
  modifyMemory fault
    (·.store? range.offset (source.window offset.toCount range.length))

/-! ## Instructions -/

/-- How execution goes on after an instruction, which has put its results on the
stack. -/
inductive Flow where
  | next
  | jumped
  | stop (signal : Signal)

/-- Goes on with a result on the stack. -/
def answer (word : Word) : Exec σ Flow := do
  push word
  return .next

/-- Goes on at a destination in the code. -/
def jump (destination : Word) : Exec σ Flow := do
  frame (Frame.jump destination)
  return .jumped

variable [Ledger σ]

/-- Pays for a call and makes its request. -/
def prepareCall (fault : Failure) (schedule : Schedule) (kind : CallKind)
    (gas target value inputOffset inputLength windowOffset
      windowLength : Word) :
    Exec σ CallRequest := do
  let hasValue := value != 0
  if kind = .call ∧ hasValue ∧ (← getFrame).context.isStatic then
    halt .staticViolation
  let input ← touch schedule inputOffset inputLength
  let window ← touch schedule windowOffset windowLength
  let createsAccount ←
    if kind = .call ∧ hasValue then ask (Ledger.isEmpty · target.toAddress)
    else pure false
  charge (schedule.callExtraCost hasValue createsAccount)
  let forwarded := forwardedGas gas (← getFrame).gas
  charge forwarded
  let data ← load fault input
  return {
    kind := kind
    target := target.toAddress
    value := value
    input := data
    gas :=
      Saturating.add forwarded (if hasValue then schedule.callStipend else 0)
    window := window }

/-- Pays for a creation and makes its request. -/
def prepareCreate (fault : Failure) (config : Config) (salt : Option Word)
    (value offset length : Word) : Exec σ CreateRequest := do
  let size := length.toCount
  if config.maxInitCodeSize < size ∨ length.toCount?.isNone then
    halt (.initCodeTooLarge size config.maxInitCodeSize)
  let range ← touch config.schedule offset length
  charge (config.schedule.createExtraCost range.length salt.isSome)
  let initCode ← load fault range
  let gas := allButOne64th (← getFrame).gas
  charge gas
  return { salt, value, initCode, gas }

/-- Runs an instruction. -/
def execute (fault : Failure) (config : Config) (env : Environment)
    (opcode : Opcode) : Exec σ Flow :=
  let schedule := config.schedule
  match opcode with
  | .stop => return .stop (.return #[])
  | .unary f => do
    let a ← pop
    answer (f.apply a)
  | .binary f => do
    let operand ← operands 2
    answer (f.apply (operand 0) (operand 1))
  | .ternary f => do
    let operand ← operands 3
    answer (f.apply (operand 0) (operand 1) (operand 2))
  | .exp => do
    let operand ← operands 2
    charge (schedule.expCost (operand 1))
    answer ((operand 0).pow (operand 1))
  | .keccak256 => do
    let operand ← operands 2
    let range ← touch schedule (operand 0) (operand 1)
    charge (schedule.keccak256Cost range.length)
    answer (Keccak.hash (← load fault range))
  | .query q => do answer (q.answer env (← getFrame))
  | .selfBalance => do
    let address := (← getFrame).context.address
    answer (← ask (Ledger.balance · address))
  | .balance => do
    let address ← pop
    answer (← ask (Ledger.balance · address.toAddress))
  | .callDataLoad => do
    let offset ← pop
    let data := (← getFrame).context.data
    answer (Word.ofBytes (data.window offset.toCount 32))
  | .callDataCopy => do
    let operand ← operands 3
    copyToMemory fault schedule (← getFrame).context.data (operand 0)
      (operand 1) (operand 2)
    return .next
  | .codeCopy => do
    let operand ← operands 3
    copyToMemory fault schedule (← getFrame).code (operand 0) (operand 1)
      (operand 2)
    return .next
  | .extCodeSize => do
    let address ← pop
    let code ← ask (Ledger.code · address.toAddress)
    answer (.ofCount code.size)
  | .extCodeCopy => do
    let operand ← operands 4
    let code ← ask (Ledger.code · (operand 0).toAddress)
    copyToMemory fault schedule code (operand 1) (operand 2) (operand 3)
    return .next
  | .extCodeHash => do
    let address ← pop
    if ← ask (Ledger.isEmpty · address.toAddress) then answer 0
    else answer (← ask (Ledger.codeHash · address.toAddress))
  | .returnDataCopy => do
    let operand ← operands 3
    let data := (← getFrame).returnData
    if !isWithin data (operand 1) (operand 2) then halt .returnDataOutOfBounds
    copyToMemory fault schedule data (operand 0) (operand 1) (operand 2)
    return .next
  | .blockHash => do
    let number ← pop
    match number.toCount? with
    | some number => answer (env.block.hash number)
    | none => answer 0
  | .pop => do
    let _ ← pop
    return .next
  | .mload => do
    let offset ← pop
    let range ← touch schedule offset 32
    answer (Word.ofBytes (← load fault range))
  | .mstore => do
    let operand ← operands 2
    let range ← touch schedule (operand 0) 32
    modifyMemory fault (·.store? range.offset (operand 1).toBytes)
    return .next
  | .mstore8 => do
    let operand ← operands 2
    let range ← touch schedule (operand 0) 1
    modifyMemory fault (·.store? range.offset #[UInt8.ofNat (operand 1).toNat])
    return .next
  | .sload => do
    let key ← pop
    let address := (← getFrame).context.address
    answer (← ask (Ledger.slot · address key))
  | .sstore => do
    let operand ← operands 2
    let address := (← getFrame).context.address
    let current ← ask (Ledger.slot · address (operand 0))
    charge (schedule.sstoreCost current (operand 1))
    modifyEffects (·.addRefund (schedule.sstoreRefund current (operand 1)))
    tell (Ledger.setSlot address (operand 0) (operand 1))
    return .next
  | .jump => do
    let destination ← pop
    jump destination
  | .jumpIf => do
    let operand ← operands 2
    if operand 1 = 0 then return .next
    else jump (operand 0)
  | .jumpDest => return .next
  | .mcopy => do
    let operand ← operands 3
    let source ← touch schedule (operand 1) (operand 2)
    let target ← touch schedule (operand 0) (operand 2)
    charge (schedule.copyCost target.length)
    modifyMemory fault (·.copyWithin? target.offset source.offset target.length)
    return .next
  | .push n => do answer ((← getFrame).immediate n)
  | .dup n => do
    onStack fun stack => (stack.dup n).map ((), ·)
    return .next
  | .swap n => do
    onStack fun stack => (stack.swap n).map ((), ·)
    return .next
  | .log n => do
    let operand ← operands 2
    let topics ← popEach n
    let range ← touch schedule (operand 0) (operand 1)
    charge (schedule.logDataCost range.length)
    let data ← load fault range
    let address := (← getFrame).context.address
    modifyEffects (·.addLog { address, topics, data })
    return .next
  | .create false => do
    let operand ← operands 3
    let request ← prepareCreate fault config none (operand 0) (operand 1)
      (operand 2)
    return .stop (.create request)
  | .create true => do
    let operand ← operands 4
    let request ← prepareCreate fault config (some (operand 3)) (operand 0)
      (operand 1) (operand 2)
    return .stop (.create request)
  | .call kind => do
    let request ←
      if kind.takesValue then do
        let operand ← operands 7
        prepareCall fault schedule kind (operand 0) (operand 1) (operand 2)
          (operand 3)
          (operand 4) (operand 5) (operand 6)
      else do
        let operand ← operands 6
        prepareCall fault schedule kind (operand 0) (operand 1) 0 (operand 2)
          (operand 3)
          (operand 4) (operand 5)
    return .stop (.call request)
  | .return => do
    let operand ← operands 2
    let range ← touch schedule (operand 0) (operand 1)
    return .stop (.return (← load fault range))
  | .revert => do
    let operand ← operands 2
    let range ← touch schedule (operand 0) (operand 1)
    return .stop (.revert (← load fault range))
  | .selfDestruct => do
    let beneficiary ← pop
    selfDestruct schedule beneficiary.toAddress
    return .stop (.return #[])
  | .invalid => halt (.invalidOpcode Opcode.invalid.encode)
  | .undefined byte => halt (.invalidOpcode byte)

/-- Goes on after an instruction. -/
def proceed (opcode : Opcode) : Flow → Exec σ (Option Signal)
  | .next => do
    modifyFrame (·.advance (1 + opcode.immediateLength))
    return none
  | .jumped => return none
  | .stop signal => do
    modifyFrame (·.advance (1 + opcode.immediateLength))
    return some signal

/-- Runs one instruction; running off the end of the code is a return without
output. -/
def step (fault : Failure) (config : Config) (env : Environment) :
    Exec σ (Option Signal) := do
  let frame ← getFrame
  match frame.code[frame.position]? with
  | none => return some (.return #[])
  | some byte =>
    authorize config.schedule (Opcode.decode byte)
    proceed (Opcode.decode byte)
      (← execute fault config env (Opcode.decode byte))

end Strict

end ContractMachine
