import ContractMachine.Hash.Keccak
import ContractMachine.Text.FixedHex

/-!
# Ledgers

A ledger holds accounts and their storage, and can open nested snapshots: what
has been written since a snapshot is either kept by `commit` or taken back by
`rollback`.  The machine works on any type with these requests, and every
request may fail, so that a ledger may stand for a database elsewhere.

Reading an account that is not there gives zero balance, zero nonce, no code
and zero storage; writing to one creates it.
-/

namespace ContractMachine

/-- What the ledger records of an account, its storage apart. -/
structure Account where
  balance : Word := 0
  nonce : Nat := 0
  code : Bytes := #[]
  /-- The digest of `code`, kept so that reading it costs nothing. -/
  codeHash : Word := Keccak.emptyHash
  deriving DecidableEq, Inhabited

namespace Account

/-- Installs code together with its digest. -/
def withCode (account : Account) (code : Bytes) : Account :=
  { account with
    code := code
    codeHash := if code.isEmpty then Keccak.emptyHash else Keccak.hash code }

/-- Whether the account holds nothing at all. -/
def isEmpty (account : Account) : Bool :=
  account.nonce == 0 && account.balance == 0 &&
    account.codeHash == Keccak.emptyHash

/-- Whether the account is a contract. -/
def hasCode (account : Account) : Bool := account.codeHash != Keccak.emptyHash

end Account

/-- Why a ledger refuses a request. -/
inductive LedgerError where
  | insufficientBalance (address : Address) (balance amount : Word)
  | nonceOverflow (address : Address)
  | snapshotOrder (expected got : Nat)
  | noSnapshot
  | backend (reason : String)
  deriving DecidableEq, Repr

/-- The wording of an error. -/
def LedgerError.message : LedgerError → String
  | .insufficientBalance address balance amount =>
    "insufficient balance for " ++ address.render ++ ": have " ++
      balance.renderDecimal ++
      ", need " ++ amount.renderDecimal
  | .nonceOverflow address => "nonce overflow for " ++ address.render
  | .snapshotOrder expected got =>
    "snapshot out of order: innermost is " ++ Decimal.render expected ++
      ", got " ++
      Decimal.render got
  | .noSnapshot => "no outstanding snapshot"
  | .backend reason => "backend error: " ++ reason

/-- The requests that the machine makes of a ledger `σ`.  Reads leave the
ledger alone; a write that fails says what it leaves behind. -/
class Ledger (σ : Type) where
  /-- Whether there is an account at the address. -/
  hasAccount : σ → Address → Except LedgerError Bool
  /-- Starts a fresh account, keeping only a balance already held there. -/
  createAccount : Address → EStateM LedgerError σ Unit
  /-- Removes an account together with its storage. -/
  deleteAccount : Address → EStateM LedgerError σ Unit
  balance : σ → Address → Except LedgerError Word
  /-- Adds to a balance and returns the new one. -/
  credit : Address → Word → EStateM LedgerError σ Word
  /-- Takes from a balance and returns the new one, or fails if it is too
  low. -/
  debit : Address → Word → EStateM LedgerError σ Word
  nonce : σ → Address → Except LedgerError Nat
  /-- Counts the nonce up and returns the new one. -/
  bumpNonce : Address → EStateM LedgerError σ Nat
  code : σ → Address → Except LedgerError Bytes
  setCode : Address → Bytes → EStateM LedgerError σ Unit
  codeHash : σ → Address → Except LedgerError Word
  /-- The value stored under a key; zero where nothing is stored. -/
  slot : σ → Address → Word → Except LedgerError Word
  setSlot : Address → Word → Word → EStateM LedgerError σ Unit
  /-- Opens a snapshot and returns its depth, 1 for the outermost. -/
  openSnapshot : σ → Nat × σ
  /-- Keeps what was written since the innermost snapshot, which must have the
  given depth. -/
  commit : Nat → EStateM LedgerError σ Unit
  /-- Takes back what was written since the innermost snapshot, which must have
  the given depth. -/
  rollback : Nat → EStateM LedgerError σ Unit

namespace Ledger

variable {σ : Type} [Ledger σ]

/-- Moves value between accounts: first taken, then added.  Moving nothing makes
no request at all. -/
def transfer (source target : Address) (value : Word) :
    EStateM LedgerError σ Unit := do
  if value = 0 then return
  let _ ← debit source value
  let _ ← credit target value

/-- Whether the account is missing or holds nothing.  Later requests are made
only while the answer is open. -/
def isEmpty (ledger : σ) (address : Address) : Except LedgerError Bool := do
  if !(← hasAccount ledger address) then return true
  if (← nonce ledger address) ≠ 0 then return false
  if (← balance ledger address) ≠ 0 then return false
  return (← codeHash ledger address) == Keccak.emptyHash

end Ledger

end ContractMachine
