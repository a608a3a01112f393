import ContractMachine.Ledger.Basic
import Std.Data.TreeMap
import Std.Data.TreeSet

/-!
# Layered ledgers

The ledger in memory is a base and a stack of layers, one for each open
snapshot.  A layer holds only what was written since its snapshot, so opening
and rolling back cost nothing; reads look through the layers from the
innermost outward, and a commit writes a layer onto the one beneath it.

A layer says of an address whether its account was written or removed, whether
its storage was wiped, and which rows were written after that.  The base keeps
no zero rows; a layer must, since a zero there hides a row further down.
-/

namespace ContractMachine

/-- Storage rows by key. -/
abbrev Rows := Std.TreeMap Word Word

/-- What the base holds for an address. -/
structure Record where
  account : Option Account := none
  rows : Rows := ∅

/-- What a layer has to say about an address. -/
structure Change where
  /-- The account as last written, `some none` if it was removed. -/
  account : Option (Option Account) := none
  /-- Whether the storage beneath is hidden. -/
  wiped : Bool := false
  /-- Rows written since, or since the storage was last wiped. -/
  rows : Rows := ∅

/-- One elementary write at an address. -/
inductive Edit where
  | account (account : Option Account)
  | wipe
  | row (key value : Word)

/-- An edit of the base: a zero row is no row. -/
def Record.edit (record : Record) : Edit → Record
  | .account account => { record with account := account }
  | .wipe => { record with rows := ∅ }
  | .row key value =>
    { record with
      rows := if value = 0 then record.rows.erase key
        else record.rows.insert key value }

/-- An edit of a layer. -/
def Change.edit (change : Change) : Edit → Change
  | .account account => { change with account := some account }
  | .wipe => { change with wiped := true, rows := ∅ }
  | .row key value => { change with rows := change.rows.insert key value }

/-- The edits that repeat a change somewhere else. -/
def Change.edits (change : Change) : List Edit :=
  (if change.wiped then [.wipe] else []) ++
    (match change.account with
      | some account => [.account account]
      | none => []) ++
    change.rows.toList.map fun (key, value) => .row key value

/-- What a change says of a key: its row, or zero if it hides what is
beneath. -/
def Change.slot? (change : Change) (key : Word) : Option Word :=
  change.rows[key]?.or (if change.wiped then some 0 else none)

/-- What was written since one snapshot. -/
abbrev Layer := Std.TreeMap Address Change

/-- A base and the layers over it, innermost first. -/
structure LayeredLedger where
  base : Std.TreeMap Address Record := ∅
  layers : List Layer := []

/-- Everything that the ledger shows of one account. -/
structure AccountEntry where
  address : Address
  balance : Word
  nonce : Nat
  code : Bytes
  /-- The nonzero rows by ascending key. -/
  storage : List (Word × Word)
  deriving DecidableEq

namespace LayeredLedger

/-- The number of open snapshots. -/
def depth (ledger : LayeredLedger) : Nat := ledger.layers.length

/-! ## Reading -/

/-- The account at an address: what the innermost layer that knows of it says,
else what the base holds. -/
def accountIn (base : Std.TreeMap Address Record) (address : Address) :
    List Layer → Option Account
  | [] => base[address]?.bind Record.account
  | layer :: beneath =>
    (layer[address]?.bind Change.account).getD (accountIn base address beneath)

/-- The account at an address. -/
def account (ledger : LayeredLedger) (address : Address) : Option Account :=
  accountIn ledger.base address ledger.layers

/-- The value under a key: what the innermost layer that knows of it says, else
what the base holds. -/
def slotIn (base : Std.TreeMap Address Record) (address : Address)
    (key : Word) : List Layer → Word
  | [] => (base[address]?.bind (·.rows[key]?)).getD 0
  | layer :: beneath =>
    (layer[address]?.bind (·.slot? key)).getD (slotIn base address key beneath)

/-- The value stored under a key. -/
def slot (ledger : LayeredLedger) (address : Address) (key : Word) : Word :=
  slotIn ledger.base address key ledger.layers

/-- The rows of an address as a layer leaves them. -/
def rowsThrough (address : Address) (layer : Layer) (beneath : Rows) : Rows :=
  match layer[address]? with
  | none => beneath
  | some change =>
    change.rows.foldl (fun rows key value => rows.insert key value)
      (if change.wiped then ∅ else beneath)

/-- All nonzero rows of an address: the base's, rewritten layer by layer from
the outermost inward. -/
def storage (ledger : LayeredLedger) (address : Address) : Rows :=
  let base := (ledger.base[address]?.map Record.rows).getD ∅
  (ledger.layers.foldr (rowsThrough address) base).filter fun _ value =>
    value ≠ 0

/-- Every address that the base or a layer knows of. -/
def addresses (ledger : LayeredLedger) : Std.TreeSet Address :=
  ledger.layers.foldl (fun set layer => set.insertMany layer.keys)
    (Std.TreeSet.ofList ledger.base.keys)

/-- Every account with its nonzero storage, by ascending address. -/
def dump (ledger : LayeredLedger) : List AccountEntry :=
  ledger.addresses.toList.filterMap fun address =>
    (ledger.account address).map fun account =>
      { address := address
        balance := account.balance
        nonce := account.nonce
        code := account.code
        storage := (ledger.storage address).toList }

/-! ## Writing -/

/-- Applies an edit to the innermost layer, or to the base if there is none. -/
def edit (ledger : LayeredLedger) (address : Address) (e : Edit) :
    LayeredLedger :=
  match ledger.layers with
  | [] =>
    { ledger with
      base :=
        ledger.base.insert address ((ledger.base.getD address {}).edit e) }
  | layer :: beneath =>
    { ledger with
      layers := layer.insert address ((layer.getD address {}).edit e) ::
        beneath }

/-- Writes an account computed from the one held, or from an empty one. -/
def modifyAccount (ledger : LayeredLedger) (address : Address)
    (f : Account → Account) : LayeredLedger :=
  ledger.edit address (.account (some (f ((ledger.account address).getD {}))))

/-- Installs an account in place of whatever was at the address. -/
def install (ledger : LayeredLedger) (address : Address) (account : Account) :
    LayeredLedger :=
  (ledger.edit address .wipe).edit address (.account (some account))

/-- Starts a fresh account, keeping only the balance held there. -/
def create (ledger : LayeredLedger) (address : Address) : LayeredLedger :=
  ledger.install address
    { balance := ((ledger.account address).getD {}).balance }

/-- Removes an account together with its storage. -/
def delete (ledger : LayeredLedger) (address : Address) : LayeredLedger :=
  (ledger.edit address .wipe).edit address (.account none)

/-- Stores a value, creating the account if there is none. -/
def setSlot (ledger : LayeredLedger) (address : Address) (key value : Word) :
    LayeredLedger :=
  let ledger :=
    match ledger.account address with
    | some _ => ledger
    | none => ledger.edit address (.account (some {}))
  ledger.edit address (.row key value)

/-! ## Snapshots -/

/-- Opens a snapshot: an empty layer. -/
def openSnapshot (ledger : LayeredLedger) : LayeredLedger :=
  { ledger with layers := ∅ :: ledger.layers }

/-- Repeats everything that a layer says. -/
def merge (ledger : LayeredLedger) (layer : Layer) : LayeredLedger :=
  layer.foldl (fun ledger address change =>
    change.edits.foldl (fun ledger e => ledger.edit address e) ledger) ledger

/-- Closes the innermost snapshot, which must have the given depth, and hands
its layer and the ledger beneath it to `close`. -/
def closeSnapshot (depth : Nat)
    (close : Layer → LayeredLedger → LayeredLedger) :
    EStateM LedgerError LayeredLedger Unit := fun ledger =>
  match ledger.layers with
  | [] => .error .noSnapshot ledger
  | layer :: beneath =>
    if depth = ledger.depth then
      .ok () (close layer { ledger with layers := beneath })
    else .error (.snapshotOrder ledger.depth depth) ledger

/-- Keeps what the innermost layer says by writing it onto what is beneath. -/
def commit (depth : Nat) : EStateM LedgerError LayeredLedger Unit :=
  closeSnapshot depth fun layer beneath => beneath.merge layer

/-- Drops the innermost layer. -/
def rollback (depth : Nat) : EStateM LedgerError LayeredLedger Unit :=
  closeSnapshot depth fun _ beneath => beneath

/-! ## Requests -/

/-- Takes from a balance; a balance that is too low stays as it is. -/
def debit (address : Address) (amount : Word) :
    EStateM LedgerError LayeredLedger Word :=
  fun ledger =>
    let balance := ((ledger.account address).getD {}).balance
    if balance < amount then
      .error (.insufficientBalance address balance amount) ledger
    else
      .ok (balance - amount)
        (ledger.modifyAccount address ({ · with balance := balance - amount }))

/-- Adds to a balance, which stops at the largest word. -/
def credit (address : Address) (amount : Word) :
    EStateM LedgerError LayeredLedger Word :=
  fun ledger =>
    let balance :=
      ((ledger.account address).getD {}).balance.saturatingAdd amount
    .ok balance (ledger.modifyAccount address ({ · with balance := balance }))

/-- Counts a nonce up; the largest one stays as it is. -/
def bumpNonce (address : Address) : EStateM LedgerError LayeredLedger Nat :=
  fun ledger =>
  let nonce := ((ledger.account address).getD {}).nonce
  if nonce < Saturating.limit then
    .ok (nonce + 1) (ledger.modifyAccount address
      ({ · with nonce := nonce + 1 }))
  else .error (.nonceOverflow address) ledger

instance : Ledger LayeredLedger where
  hasAccount ledger address := .ok (ledger.account address).isSome
  createAccount address := modify (·.create address)
  deleteAccount address := modify (·.delete address)
  balance ledger address := .ok ((ledger.account address).getD {}).balance
  credit := credit
  debit := debit
  nonce ledger address := .ok ((ledger.account address).getD {}).nonce
  bumpNonce := bumpNonce
  code ledger address := .ok ((ledger.account address).getD {}).code
  setCode address code := modify (·.modifyAccount address (·.withCode code))
  codeHash ledger address := .ok ((ledger.account address).getD {}).codeHash
  slot ledger address key := .ok (ledger.slot address key)
  setSlot address key value := modify (·.setSlot address key value)
  openSnapshot ledger := (ledger.depth + 1, ledger.openSnapshot)
  commit := commit
  rollback := rollback

end LayeredLedger

end ContractMachine
