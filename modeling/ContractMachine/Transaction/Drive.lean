import ContractMachine.Transaction.Activation

/-!
# Driving a transaction

The activations of a transaction form a stack: the topmost runs, the others
wait for the one above them.  `advance` takes the whole stack one instruction
further, entering and leaving frames as the topmost asks for it, and `drive`
repeats this until the last frame has ended or the ledger has failed.

A machine gets through this as long as no instruction on the way is one that
`Execution.BreaksOff` tells.
-/

namespace ContractMachine

/-- A transaction in progress. -/
structure Running (σ : Type) where
  /-- The activation that runs. -/
  top : Activation
  /-- The activations that wait, each for the one before it. -/
  waiting : List Activation
  ledger : σ

/-- How the driving of a transaction ends. -/
inductive Conclusion (σ : Type) where
  /-- The last frame has ended. -/
  | finished (exit : Exit) (ledger : σ)
  /-- A failure, which leaves activations open. -/
  | failed (cause : Failure) (unfinished : List Activation) (ledger : σ)

/-- What one instruction makes of a transaction. -/
inductive Progress (σ : Type) where
  | running (state : Running σ)
  | concluded (conclusion : Conclusion σ)

namespace Transaction

variable {σ : Type} [Ledger σ]

/-- How a request is met. -/
inductive Response where
  /-- A frame is entered. -/
  | entered (child : Activation)
  /-- Nothing is entered, and the gas comes back. -/
  | refused
  /-- Nothing is entered, and the gas is lost. -/
  | collided

/-- The context in which a called frame runs. -/
def calleeContext (caller : Context) (request : CallRequest) : Context :=
  let isStatic := caller.isStatic || request.kind = .staticCall
  let depth := caller.depth + 1
  let data := request.input
  match request.kind with
  | .call | .staticCall =>
    { address := request.target, caller := caller.address,
      value := request.value, data, isStatic, depth }
  | .callCode =>
    { address := caller.address, caller := caller.address,
      value := request.value, data, isStatic, depth }
  | .delegateCall =>
    { address := caller.address, caller := caller.caller,
      value := caller.value, data, isStatic, depth }

/-- Meets the request for a call. -/
def meetCall (config : Config) (caller : Context) (request : CallRequest) :
    EStateM LedgerError σ Response := do
  let context := calleeContext caller request
  if config.maxCallDepth < context.depth then return .refused
  let short ←
    if request.kind.takesValue then lacks caller.address context.value
    else pure false
  if short then return .refused
  return .entered (← enterCall context request.kind.takesValue caller.address
    request.target
    request.gas request.window)

/-- Meets the request for a creation.  The creator's nonce is counted up before
anything else is written, and stays so whatever becomes of the creation. -/
def meetCreation (config : Config) (creator : Context)
    (request : CreateRequest) : EStateM LedgerError σ Response := do
  let depth := creator.depth + 1
  if config.maxCallDepth < depth then return .refused
  if ← lacks creator.address request.value then return .refused
  let nonce ← query (Ledger.nonce · creator.address)
  if nonce = Saturating.limit then return .refused
  let address := creator.address.ofCreation nonce request.salt request.initCode
  let _ ← Ledger.bumpNonce creator.address
  if ← isTaken address then return .collided
  return .entered (← enterCreation creator.address address request.value
    request.initCode
    request.gas depth)

/-- Goes on after a request has been met. -/
def continueWith (top : Activation) (waiting : List Activation) (gas : Nat)
    (response : Response) (ledger : σ) : Progress σ :=
  let settle : Except Halt Frame → Progress σ
    | .ok frame => .running { top := { top with frame }, waiting, ledger }
    | .error cause => .concluded (.failed (.halt cause) (top :: waiting) ledger)
  match response with
  | .entered child =>
    .running { top := child, waiting := top :: waiting, ledger }
  | .refused => settle (top.frame.refuse gas)
  | .collided => settle (top.frame.answer #[] 0)

/-- Meets a request of the topmost frame. -/
def meet (top : Activation) (waiting : List Activation) (gas : Nat)
    (response : EStateM LedgerError σ Response) (ledger : σ) : Progress σ :=
  match response ledger with
  | .ok response ledger => continueWith top waiting gas response ledger
  | .error cause ledger =>
    .concluded (.failed (.ledger cause) (top :: waiting) ledger)

/-- Ends the topmost frame and goes on with the one that waits for it. -/
def finish (config : Config) (top : Activation) (waiting : List Activation)
    (outcome : Outcome) (output : Bytes) (ledger : σ) : Progress σ :=
  match leave config top outcome output ledger with
  | .error cause ledger => .concluded (.failed (.ledger cause) waiting ledger)
  | .ok exit ledger =>
    match waiting with
    | [] => .concluded (.finished exit ledger)
    | parent :: below =>
      match parent.frame.resume top.role exit with
      | .ok frame =>
        .running { top := { parent with frame }, waiting := below, ledger }
      | .error cause => .concluded (.failed (.halt cause) waiting ledger)

/-- Does what the signal of the topmost frame asks for. -/
def obey (config : Config) (top : Activation) (waiting : List Activation)
    (signal : Signal) (ledger : σ) : Progress σ :=
  match signal with
  | .call request =>
    meet top waiting request.gas
      (meetCall config top.frame.context request) ledger
  | .create request =>
    meet top waiting request.gas
      (meetCreation config top.frame.context request) ledger
  | .return output => finish config top waiting .success output ledger
  | .revert output => finish config top waiting .revert output ledger

/-- Takes a transaction one instruction further. -/
def advance (config : Config) (env : Environment) (state : Running σ) :
    Progress σ :=
  match Execution.step config env
    { frame := state.top.frame, ledger := state.ledger } with
  | .ok none live =>
    .running { state with
      top := { state.top with frame := live.frame }, ledger := live.ledger }
  | .ok (some signal) live =>
    obey config { state.top with
      frame := live.frame } state.waiting signal live.ledger
  | .error (.halt cause) live =>
    finish config { state.top with
      frame := live.frame } state.waiting (.halt cause) #[] live.ledger
  | .error (.ledger cause) live =>
    .concluded (.failed (.ledger cause)
      ({ state.top with frame := live.frame } :: state.waiting)
      live.ledger)

/-- Drives a transaction to its conclusion, for at most `fuel` instructions;
`none` if that was not enough. -/
def drive (config : Config) (env : Environment) :
    (fuel : Nat) → Running σ → Option (Conclusion σ)
  | 0, _ => none
  | fuel + 1, state =>
    match advance config env state with
    | .running state => drive config env fuel state
    | .concluded conclusion => some conclusion

end Transaction

end ContractMachine
