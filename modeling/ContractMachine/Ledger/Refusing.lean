import ContractMachine.Ledger.Basic

/-!
# Ledgers that refuse requests

A ledger behind a wrapper that turns chosen requests down: the request fails
with a given reason and changes nothing.  All other requests go through.  The
derived requests, `Ledger.transfer` and `Ledger.isEmpty`, are made of the
elementary ones and can therefore stop half way.
-/

namespace ContractMachine

/-- The elementary requests about one address. -/
inductive Access where
  | hasAccount
  | createAccount
  | deleteAccount
  | balance
  | credit
  | debit
  | nonce
  | bumpNonce
  | code
  | setCode
  | codeHash
  | slot
  | setSlot
  deriving DecidableEq, Repr

/-- A request as the wrapper sees it. -/
inductive LedgerRequest where
  | access (kind : Access) (address : Address)
  | commit (depth : Nat)
  | rollback (depth : Nat)
  deriving DecidableEq, Repr

/-- A ledger and the reasons for which requests to it are turned down. -/
structure RefusingLedger (σ : Type) where
  inner : σ
  refusal : LedgerRequest → Option String

namespace RefusingLedger

variable {σ α : Type}

/-- Passes a read on unless it is turned down. -/
def ask (ledger : RefusingLedger σ) (request : LedgerRequest)
    (read : σ → Except LedgerError α) : Except LedgerError α :=
  match ledger.refusal request with
  | some reason => .error (.backend reason)
  | none => read ledger.inner

/-- Passes a write on unless it is turned down. -/
def attempt (request : LedgerRequest) (write : EStateM LedgerError σ α) :
    EStateM LedgerError (RefusingLedger σ) α := fun ledger =>
  match ledger.refusal request with
  | some reason => .error (.backend reason) ledger
  | none =>
    match write ledger.inner with
    | .ok result inner => .ok result { ledger with inner := inner }
    | .error cause inner => .error cause { ledger with inner := inner }

instance [Ledger σ] : Ledger (RefusingLedger σ) where
  hasAccount ledger a :=
    ledger.ask (.access .hasAccount a) (Ledger.hasAccount · a)
  createAccount a := attempt (.access .createAccount a) (Ledger.createAccount a)
  deleteAccount a := attempt (.access .deleteAccount a) (Ledger.deleteAccount a)
  balance ledger a := ledger.ask (.access .balance a) (Ledger.balance · a)
  credit a amount := attempt (.access .credit a) (Ledger.credit a amount)
  debit a amount := attempt (.access .debit a) (Ledger.debit a amount)
  nonce ledger a := ledger.ask (.access .nonce a) (Ledger.nonce · a)
  bumpNonce a := attempt (.access .bumpNonce a) (Ledger.bumpNonce a)
  code ledger a := ledger.ask (.access .code a) (Ledger.code · a)
  setCode a code := attempt (.access .setCode a) (Ledger.setCode a code)
  codeHash ledger a := ledger.ask (.access .codeHash a) (Ledger.codeHash · a)
  slot ledger a key := ledger.ask (.access .slot a) (Ledger.slot · a key)
  setSlot a key value :=
    attempt (.access .setSlot a) (Ledger.setSlot a key value)
  openSnapshot ledger :=
    let (depth, inner) := Ledger.openSnapshot ledger.inner
    (depth, { ledger with inner := inner })
  commit depth := attempt (.commit depth) (Ledger.commit depth)
  rollback depth := attempt (.rollback depth) (Ledger.rollback depth)

end RefusingLedger

end ContractMachine
