import ContractMachine.Execution.Basic

/-!
# One instruction

`step` runs the instruction at the frame's position.  Before an instruction
does anything, the stack must hold its operands and have room for its results,
its fixed price is paid, and in a static frame it must not change the state.
Then its operands are taken off the stack, it runs, and its results are put
on.  What it pays beyond the fixed price it pays before it has any effect.

Memory that is paid for is there: `step` runs as if there were room for any size
that can be counted.  A machine has room for `Memory.capacity` bytes and breaks
off where a frame has paid for more.  The instructions that come to this are
those that `BreaksOff` tells; of all others, `step` says what they do.
-/

namespace ContractMachine

/-- How execution goes on after an instruction. -/
inductive Flow where
  /-- With the next instruction, and these results on the stack. -/
  | next (results : Stack)
  /-- At a destination in the code. -/
  | jump (destination : Word)
  /-- Not in this frame for now. -/
  | stop (signal : Signal)

/-- What the frame and its environment answer to a query. -/
def Query.answer (env : Environment) (frame : Frame) : Query → Word
  | .address => .ofAddress frame.context.address
  | .origin => .ofAddress env.origin
  | .caller => .ofAddress frame.context.caller
  | .callValue => frame.context.value
  | .callDataSize => .ofCount frame.context.data.size
  | .codeSize => .ofCount frame.code.size
  | .gasPrice => env.gasPrice
  | .returnDataSize => .ofCount frame.returnData.size
  | .coinbase => .ofAddress env.block.coinbase
  | .timestamp => .ofCount env.block.timestamp
  | .number => .ofCount env.block.number
  | .difficulty => env.block.difficulty
  | .gasLimit => .ofCount env.block.gasLimit
  | .chainId => .ofCount env.block.chainId
  | .baseFee => env.block.baseFee
  | .position => .ofCount frame.position
  | .memorySize => .ofCount frame.memory.size
  | .gas => .ofCount frame.gas

namespace Execution

open Exec

variable {σ : Type} [Ledger σ]

/-- Pays for and copies `length` bytes of `source` to memory, with zeros past
its end. -/
def copyToMemory (schedule : Schedule) (source : Bytes)
    (target offset length : Word) : Exec σ Unit := do
  let range ← touch schedule target length
  charge (schedule.copyCost range.length)
  modifyMemory (·.storePadded range.offset range.length source offset.toCount)

/-- Whether a piece of a byte string lies within it. -/
def isWithin (source : Bytes) (offset length : Word) : Bool :=
  match offset.toCount?, length.toCount? with
  | some offset, some length =>
    match Saturating.add? offset length with
    | some finish => finish ≤ source.size
    | none => false
  | _, _ => false

/-- Pays for a call and makes its request.  Operands are the gas, the target,
the value if the call takes one, and the places of the input and of the
output. -/
def prepareCall (schedule : Schedule) (kind : CallKind) (operand : Nat → Word) :
    Exec σ CallRequest := do
  let value := if kind.takesValue then operand 2 else 0
  let places := if kind.takesValue then 3 else 2
  let target := (operand 1).toAddress
  let hasValue := value != 0
  if kind = .call ∧ hasValue ∧ (← getFrame).context.isStatic then
    halt .staticViolation
  let input ← touch schedule (operand places) (operand (places + 1))
  let window ← touch schedule (operand (places + 2)) (operand (places + 3))
  let createsAccount ←
    if kind = .call ∧ hasValue then ask (Ledger.isEmpty · target)
    else pure false
  charge (schedule.callExtraCost hasValue createsAccount)
  let forwarded := forwardedGas (operand 0) (← getFrame).gas
  charge forwarded
  let data ← load input
  return {
    kind := kind
    target := target
    value := value
    input := data
    gas :=
      Saturating.add forwarded (if hasValue then schedule.callStipend else 0)
    window := window }

/-- Pays for a creation and makes its request.  Operands are the value, the
place of the initialisation code, and the salt if there is one.  The new
contract gets all but a 64th of the gas. -/
def prepareCreate (config : Config) (salted : Bool) (operand : Nat → Word) :
    Exec σ CreateRequest := do
  let size := (operand 2).toCount
  if config.maxInitCodeSize < size ∨ (operand 2).toCount?.isNone then
    halt (.initCodeTooLarge size config.maxInitCodeSize)
  let range ← touch config.schedule (operand 1) (operand 2)
  charge (config.schedule.createExtraCost range.length salted)
  let initCode ← load range
  let gas := allButOne64th (← getFrame).gas
  charge gas
  return {
    salt := if salted then some (operand 3) else none
    value := operand 0
    initCode := initCode
    gas := gas }

/-- Marks the account for deletion and sends its balance to the beneficiary. -/
def selfDestruct (schedule : Schedule) (beneficiary : Address) : Exec σ Unit :=
  do
  let address := (← getFrame).context.address
  let balance ← ask (Ledger.balance · address)
  if balance ≠ 0 then
    if ← ask (Ledger.isEmpty · beneficiary) then
      charge schedule.selfDestructNewAccount
  let (isFirst, effects) := (← getFrame).effects.markDestroyed address
  modifyEffects fun _ =>
    if isFirst then effects.addRefund schedule.selfDestructRefund else effects
  tell (Ledger.transfer address beneficiary balance)

/-- Runs an instruction on its operands, the first being the former top of the
stack. -/
def perform (config : Config) (env : Environment) (opcode : Opcode)
    (operands : Stack) : Exec σ Flow :=
  let schedule := config.schedule
  let operand (i : Nat) : Word := operands.getD i 0
  match opcode with
  | .stop => return .stop (.return #[])
  | .unary f => return .next [f.apply (operand 0)]
  | .binary f => return .next [f.apply (operand 0) (operand 1)]
  | .ternary f => return .next [f.apply (operand 0) (operand 1) (operand 2)]
  | .exp => do
    charge (schedule.expCost (operand 1))
    return .next [(operand 0).pow (operand 1)]
  | .keccak256 => do
    let range ← touch schedule (operand 0) (operand 1)
    charge (schedule.keccak256Cost range.length)
    return .next [Keccak.hash (← load range)]
  | .query q => return .next [q.answer env (← getFrame)]
  | .selfBalance => do
    let address := (← getFrame).context.address
    return .next [← ask (Ledger.balance · address)]
  | .balance => return .next [← ask (Ledger.balance · (operand 0).toAddress)]
  | .callDataLoad => do
    let data := (← getFrame).context.data
    return .next [Word.ofBytes (data.window (operand 0).toCount 32)]
  | .callDataCopy => do
    copyToMemory schedule (← getFrame).context.data (operand 0) (operand 1)
      (operand 2)
    return .next []
  | .codeCopy => do
    copyToMemory schedule (← getFrame).code (operand 0) (operand 1) (operand 2)
    return .next []
  | .extCodeSize => do
    let code ← ask (Ledger.code · (operand 0).toAddress)
    return .next [.ofCount code.size]
  | .extCodeCopy => do
    let code ← ask (Ledger.code · (operand 0).toAddress)
    copyToMemory schedule code (operand 1) (operand 2) (operand 3)
    return .next []
  | .extCodeHash => do
    let address := (operand 0).toAddress
    if ← ask (Ledger.isEmpty · address) then return .next [0]
    return .next [← ask (Ledger.codeHash · address)]
  | .returnDataCopy => do
    let data := (← getFrame).returnData
    if !isWithin data (operand 1) (operand 2) then halt .returnDataOutOfBounds
    copyToMemory schedule data (operand 0) (operand 1) (operand 2)
    return .next []
  | .blockHash =>
    match (operand 0).toCount? with
    | some number => return .next [env.block.hash number]
    | none => return .next [0]
  | .pop => return .next []
  | .mload => do
    let range ← touch schedule (operand 0) 32
    return .next [Word.ofBytes (← load range)]
  | .mstore => do
    let range ← touch schedule (operand 0) 32
    modifyMemory (·.storeWord range.offset (operand 1))
    return .next []
  | .mstore8 => do
    let range ← touch schedule (operand 0) 1
    modifyMemory (·.storeByte range.offset (UInt8.ofNat (operand 1).toNat))
    return .next []
  | .sload => do
    let address := (← getFrame).context.address
    return .next [← ask (Ledger.slot · address (operand 0))]
  | .sstore => do
    let address := (← getFrame).context.address
    let current ← ask (Ledger.slot · address (operand 0))
    charge (schedule.sstoreCost current (operand 1))
    modifyEffects (·.addRefund (schedule.sstoreRefund current (operand 1)))
    tell (Ledger.setSlot address (operand 0) (operand 1))
    return .next []
  | .jump => return .jump (operand 0)
  | .jumpIf => return if operand 1 = 0 then .next [] else .jump (operand 0)
  | .jumpDest => return .next []
  | .mcopy => do
    let source ← touch schedule (operand 1) (operand 2)
    let target ← touch schedule (operand 0) (operand 2)
    charge (schedule.copyCost target.length)
    modifyMemory (·.copyWithin target.offset source.offset target.length)
    return .next []
  | .push n => return .next [(← getFrame).immediate n]
  | .dup n =>
    match operands.dup n with
    | .ok results => return .next results
    | .error cause => halt cause
  | .swap n =>
    match operands.swap n with
    | .ok results => return .next results
    | .error cause => halt cause
  | .log _ => do
    let range ← touch schedule (operand 0) (operand 1)
    charge (schedule.logDataCost range.length)
    let data ← load range
    let address := (← getFrame).context.address
    modifyEffects (·.addLog { address, topics := operands.drop 2, data })
    return .next []
  | .create salted =>
    return .stop (.create (← prepareCreate config salted operand))
  | .call kind => return .stop (.call (← prepareCall schedule kind operand))
  | .return => do
    let range ← touch schedule (operand 0) (operand 1)
    return .stop (.return (← load range))
  | .revert => do
    let range ← touch schedule (operand 0) (operand 1)
    return .stop (.revert (← load range))
  | .selfDestruct => do
    selfDestruct schedule (operand 0).toAddress
    return .stop (.return #[])
  | .invalid => halt (.invalidOpcode Opcode.invalid.encode)
  | .undefined byte => halt (.invalidOpcode byte)

/-- What must hold before an instruction runs: operands, room, its fixed price,
and no change of state in a static frame. -/
def authorize (schedule : Schedule) (opcode : Opcode) : Exec σ Unit := do
  let frame ← getFrame
  if frame.stack.length < opcode.inputs then halt .stackUnderflow
  if Stack.limit < frame.stack.length - opcode.inputs + opcode.outputs then
    halt .stackOverflow
  charge (schedule.staticCost opcode)
  if frame.context.isStatic ∧ opcode.changesState then halt .staticViolation

/-- Goes on after an instruction. -/
def proceed (opcode : Opcode) : Flow → Exec σ (Option Signal)
  | .next results => do
    modifyFrame fun frame =>
      { frame.advance (1 + opcode.immediateLength) with
        stack := results ++ frame.stack }
    return none
  | .jump destination => do
    frame (Frame.jump destination)
    return none
  | .stop signal => do
    modifyFrame (·.advance (1 + opcode.immediateLength))
    return some signal

/-- Runs one instruction; running off the end of the code is a return without
output.  The result is the signal if the frame stops. -/
def step (config : Config) (env : Environment) : Exec σ (Option Signal) := do
  let frame ← getFrame
  match frame.code[frame.position]? with
  | none => return some (.return #[])
  | some byte =>
    let opcode := Opcode.decode byte
    authorize config.schedule opcode
    let operands := frame.stack.take opcode.inputs
    modifyFrame fun frame =>
      { frame with stack := frame.stack.drop opcode.inputs }
    proceed opcode (← perform config env opcode operands)

/-- Whether the next instruction makes memory grow beyond its capacity, so that
the machine breaks off instead of going on with it. -/
def BreaksOff (config : Config) (env : Environment) (live : Live σ) : Prop :=
  match step config env live with
  | .ok _ after | .error _ after => Memory.capacity < after.frame.memory.size

/-- Runs a frame until it stops, for at most `fuel` instructions; `none` if that
was not enough. -/
def run (config : Config) (env : Environment) :
    (fuel : Nat) → Live σ → Option (EStateM.Result Failure (Live σ) Signal)
  | 0, _ => none
  | fuel + 1, live =>
    match step config env live with
    | .ok none live => run config env fuel live
    | .ok (some signal) live => some (.ok signal live)
    | .error cause live => some (.error cause live)

end Execution

end ContractMachine
