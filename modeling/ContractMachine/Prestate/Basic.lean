import ContractMachine.Ledger.Basic
import ContractMachine.Text.Blank
import Std.Data.TreeMap

/-!
# Prestates

A prestate lists the accounts that a ledger is to hold before anything runs,
in the form in which people write them: balances in decimal or hexadecimal,
code and storage in hexadecimal.  `Prestate.apply` writes them into a ledger,
account by account in the order of their written addresses, and stops at the
first text that it cannot read.
-/

namespace ContractMachine

/-- One account as written. -/
structure Allocation where
  balance : String := ""
  nonce : Nat := 0
  code : Option String := none
  storage : Std.TreeMap String String := ∅

/-- Accounts as written, by their written addresses. -/
structure Prestate where
  allocations : Std.TreeMap String Allocation := ∅

namespace Prestate

/-- Why a text does not denote a balance. -/
inductive BalanceError where
  | decimal (cause : Decimal.Error)
  | hex (cause : Hex.Error)
  /-- More digits than a word has. -/
  | tooLong
  deriving DecidableEq, Repr

/-- The wording of an error. -/
def BalanceError.message : BalanceError → String
  | .decimal cause => cause.message
  | .hex cause => cause.message
  | .tooLong => "Invalid string length"

/-- Why a prestate cannot be applied. -/
inductive Error where
  /-- The text is not JSON of the right shape. -/
  | malformed
  | address (text : List Char) (cause : FixedHex.Error)
  | balance (text : List Char) (cause : BalanceError)
  | hex (text : List Char) (cause : Hex.Error)
  | longSlot (text : List Char)
  | ledger (cause : LedgerError)
  deriving DecidableEq, Repr

/-- The wording of an error. -/
def Error.message : Error → String
  | .malformed => "invalid config: <json>"
  | .address text cause =>
    "invalid config: address " ++ Text.quoted text ++ ": " ++ cause.message
  | .balance text cause =>
    "invalid config: balance " ++ Text.quoted text ++ ": " ++ cause.message
  | .hex text cause =>
    "invalid config: hex " ++ Text.quoted text ++ ": " ++ cause.message
  | .longSlot text =>
    "invalid config: slot " ++ Text.quoted text ++ " longer than 32 bytes"
  | .ledger cause => "repository error: " ++ cause.message

/-! ## Reading texts -/

/-- Reads a hexadecimal number of at most 64 digits, after a second mark if
there is one.  An odd number of digits gets a leading zero. -/
def readHexNumber (text : List Char) : Except BalanceError Nat :=
  let digits := Hex.utf8 ((Hex.afterMark? text).getD text)
  if 64 < digits.length then .error .tooLong
  else
    let padded := if digits.length % 2 = 1 then 48 :: digits else digits
    match Hex.read padded with
    | .ok bytes => .ok (BigEndian.decode bytes)
    | .error cause => .error (.hex cause)

/-- Reads the number of a balance: hexadecimal after a mark, else decimal. -/
def readAmount (text : List Char) : Except BalanceError Nat :=
  match Hex.afterAnyMark? text with
  | some digits => readHexNumber digits
  | none =>
    match Decimal.read Word.top.toNat (Hex.utf8 text) with
    | .ok n => .ok n
    | .error cause => .error (.decimal cause)

/-- Reads a balance.  Blanks around it do not count, and nothing is zero. -/
def readBalance (text : String) : Except Error Word :=
  let trimmed := Text.trim text.toList
  if trimmed.isEmpty then .ok 0
  else
    match readAmount trimmed with
    | .ok n => .ok (BitVec.ofNat 256 n)
    | .error cause => .error (.balance trimmed cause)

/-- Reads a byte string with or without its mark. -/
def readBytes (text : String) : Except Error (List UInt8) :=
  let trimmed := Text.trim text.toList
  let digits := (Hex.afterMark? trimmed).getD trimmed
  match Hex.read (Hex.utf8 digits) with
  | .ok bytes => .ok bytes
  | .error cause => .error (.hex digits cause)

/-- Reads the code of an account; an account without one has none. -/
def readCode : Option String → Except Error Bytes
  | none => .ok #[]
  | some text => (readBytes text).map List.toArray

/-- Reads a storage key or value of at most 32 bytes. -/
def readSlot (text : String) : Except Error Word := do
  let bytes ← readBytes text
  if 32 < bytes.length then .error (.longSlot text.toList)
  else .ok (Word.ofBytes bytes.toArray)

/-- Reads storage rows in the order of their written keys; of two texts for one
key the later counts. -/
def readStorage (storage : Std.TreeMap String String) :
    Except Error (Std.TreeMap Word Word) :=
  storage.toList.foldlM (fun rows (key, value) => do
    let key ← readSlot key
    return rows.insert key (← readSlot value)) ∅

/-- Reads a written address. -/
def readAddress (text : String) : Except Error Address :=
  match Address.read (Text.trim text.toList) with
  | .ok address => .ok address
  | .error cause => .error (.address text.toList cause)

/-! ## Applying -/

section Apply

variable {σ α : Type} [Ledger σ]

/-- A reading as an action on the ledger. -/
def reading (result : Except Error α) : EStateM Error σ α := fun ledger =>
  match result with
  | .ok value => .ok value ledger
  | .error cause => .error cause ledger

/-- A ledger request as an action. -/
def tell (action : EStateM LedgerError σ α) : EStateM Error σ α := fun ledger =>
  match action ledger with
  | .ok value ledger => .ok value ledger
  | .error cause ledger => .error (.ledger cause) ledger

/-- Counts a nonce up `n` times. -/
def raiseNonce (address : Address) : Nat → EStateM Error σ Unit
  | 0 => pure ()
  | n + 1 => do
    let _ ← tell (Ledger.bumpNonce address)
    raiseNonce address n

/-- Writes one account. -/
def install (addressText : String) (allocation : Allocation) :
    EStateM Error σ Unit := do
  let address ← reading (readAddress addressText)
  tell (Ledger.createAccount address)
  let _ ← tell (Ledger.credit address
    (← reading (readBalance allocation.balance)))
  raiseNonce address allocation.nonce
  let code ← reading (readCode allocation.code)
  if !code.isEmpty then tell (Ledger.setCode address code)
  let rows ← reading (readStorage allocation.storage)
  rows.toList.forM fun (key, value) => tell (Ledger.setSlot address key value)

/-- Writes every account. -/
def apply (prestate : Prestate) : EStateM Error σ Unit :=
  prestate.allocations.toList.forM fun (address, allocation) =>
    install address allocation

end Apply

end Prestate

end ContractMachine
