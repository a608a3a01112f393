import ContractMachine.Transaction.Drive

/-!
# Transactions

A transaction calls an account or creates a contract.  What execution decides,
failures of the code included, is reported in a receipt; an error is reserved
for a ledger that does not answer, and then every snapshot that is still open
is rolled back.

Accounts that destroyed themselves are deleted at the very end of a successful
transaction, in ascending order.
-/

namespace ContractMachine

/-- A message call by an account. -/
structure CallMessage where
  caller : Address
  target : Address
  gas : Nat
  value : Word := 0
  data : Bytes := #[]

/-- A contract creation by an account. -/
structure CreateMessage where
  caller : Address
  gas : Nat
  value : Word := 0
  initCode : Bytes := #[]
  salt : Option Word := none

/-- The result of a transaction. -/
structure Receipt where
  outcome : Outcome
  /-- The gas used, less what is given back. -/
  gasUsed : Nat
  gasRefunded : Nat := 0
  output : Bytes := #[]
  /-- What the transaction recorded and which accounts it deleted; nothing
  unless it succeeded. -/
  logs : Array Log := #[]
  deleted : List Address := []
  /-- The address of the new contract, if one was created. -/
  created : Option Address := none
  deriving DecidableEq

namespace Transaction

variable {σ : Type} [Ledger σ]

/-- How a transaction begins. -/
inductive Opening where
  /-- It is settled before any code has run. -/
  | settled (receipt : Receipt)
  /-- Its first frame is entered, for a call or for a creation at an address. -/
  | entered (root : Activation) (created : Option Address)

/-- The opening of a transaction that is turned down. -/
def Opening.rejected (cause : Halt) (gasUsed : Nat) : Opening :=
  .settled { outcome := .halt cause, gasUsed }

/-- Begins a message call. -/
def openCall (message : CallMessage) : EStateM LedgerError σ Opening := do
  if ← lacks message.caller message.value then
    return .rejected .insufficientBalance 0
  let context : Context :=
    { address := message.target, caller := message.caller,
      value := message.value, data := message.data }
  return .entered (← enterCall context true message.caller message.target
    message.gas {}) none

/-- Begins a creation.  Once size and balance are found right, the caller's
nonce is counted up whatever follows. -/
def openCreation (config : Config) (message : CreateMessage) :
    EStateM LedgerError σ Opening := do
  if config.maxInitCodeSize < message.initCode.size then
    return .rejected (.initCodeTooLarge message.initCode.size
      config.maxInitCodeSize) 0
  if ← lacks message.caller message.value then
    return .rejected .insufficientBalance 0
  let nonce ← query (Ledger.nonce · message.caller)
  let address := message.caller.ofCreation nonce message.salt message.initCode
  let _ ← Ledger.bumpNonce message.caller
  if ← isTaken address then return .rejected .createCollision message.gas
  let root ← enterCreation message.caller address message.value message.initCode
    message.gas 0
  return .entered root (some address)

/-- Settles a transaction whose last frame has ended: grants the refund and
deletes the accounts marked for it. -/
def settle (config : Config) (gas : Nat) (created : Option Address)
    (exit : Exit) : EStateM LedgerError σ Receipt := do
  let used := gas - exit.gasLeft
  match exit.outcome with
  | .success =>
    let refunded := config.schedule.cappedRefund used exit.effects.refund
    let deleted := exit.effects.destroyed.toList
    deleted.forM Ledger.deleteAccount
    return {
      outcome := .success
      gasUsed := used - refunded
      gasRefunded := refunded
      output := exit.output
      logs := exit.effects.logs
      deleted := deleted
      created := created }
  | outcome => return { outcome, gasUsed := used, output := exit.output }

/-- Rolls back the snapshots that are still open, innermost first.  A rollback
that fails is passed over. -/
def abandon (unfinished : List Activation) (ledger : σ) : σ :=
  unfinished.foldl (fun ledger activation =>
    match Ledger.rollback activation.snapshot ledger with
    | .ok () ledger => ledger
    | .error _ ledger => ledger) ledger

/-- Runs a transaction from its opening, for at most `fuel` instructions; `none`
if that was not enough. -/
def transact (config : Config) (env : Environment) (fuel gas : Nat)
    (opening : EStateM LedgerError σ Opening) (ledger : σ) :
    Option (EStateM.Result Failure σ Receipt) :=
  match opening ledger with
  | .error cause ledger => some (.error (.ledger cause) ledger)
  | .ok (.settled receipt) ledger => some (.ok receipt ledger)
  | .ok (.entered root created) ledger =>
    match drive config env fuel { top := root, waiting := [], ledger } with
    | none => none
    | some (.failed cause unfinished ledger) =>
      some (.error cause (abandon unfinished ledger))
    | some (.finished exit ledger) =>
      match settle config gas created exit ledger with
      | .ok receipt ledger => some (.ok receipt ledger)
      | .error cause ledger => some (.error (.ledger cause) ledger)

/-- Runs a message call. -/
def call (config : Config) (env : Environment) (fuel : Nat)
    (message : CallMessage) (ledger : σ) :
    Option (EStateM.Result Failure σ Receipt) :=
  transact config env fuel message.gas (openCall message) ledger

/-- Runs a creation. -/
def create (config : Config) (env : Environment) (fuel : Nat)
    (message : CreateMessage) (ledger : σ) :
    Option (EStateM.Result Failure σ Receipt) :=
  transact config env fuel message.gas (openCreation config message) ledger

end Transaction

end ContractMachine
