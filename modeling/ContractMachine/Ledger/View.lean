import ContractMachine.Ledger.Layered

/-!
# What edits do to the reads

A layered ledger is read through `account` and `slot`.  An edit changes these
two views at one address only, and in the same way whether it goes to a layer
or to the base; nothing that reads need know where a write went.
-/

namespace ContractMachine

/-- What an edited change says of a key. -/
theorem Change.slot?_edit (change : Change) (e : Edit) (key : Word) :
    (change.edit e).slot? key =
      match e with
      | .account _ => change.slot? key
      | .wipe => some 0
      | .row row value =>
        if row = key then some value else change.slot? key := by
  cases e with
  | account account => rfl
  | wipe => simp [edit, slot?]
  | row row value =>
    by_cases hrow : row = key
    · simp [edit, slot?, hrow]
    · simp only [edit, slot?, Std.TreeMap.getElem?_insert,
        Std.compare_eq_iff_eq, if_neg hrow]
      rfl

/-- An empty change says nothing. -/
@[simp]
theorem Change.slot?_empty (key : Word) : ({} : Change).slot? key = none := by
  simp [slot?]

namespace LayeredLedger

/-- The account at the edited address. -/
theorem account_edit_self (ledger : LayeredLedger) (address : Address)
    (e : Edit) :
    (ledger.edit address e).account address =
      match e with
      | .account account => account
      | .wipe | .row _ _ => ledger.account address := by
  rcases ledger with ⟨base, layers⟩
  cases layers with
  | nil =>
    cases e <;>
      simp only [edit, account, accountIn, Record.edit,
        Std.TreeMap.getElem?_insert_self, Option.bind_some,
        Std.TreeMap.getD_eq_getD_getElem?] <;>
      cases base[address]? <;> rfl
  | cons layer beneath =>
    cases e <;>
      simp only [edit, account, accountIn, Change.edit,
        Std.TreeMap.getElem?_insert_self, Option.bind_some,
        Std.TreeMap.getD_eq_getD_getElem?] <;>
      cases layer[address]? <;> rfl

/-- No other account is edited. -/
theorem account_edit_of_ne (ledger : LayeredLedger) {address other : Address}
    (h : address ≠ other) (e : Edit) :
    (ledger.edit address e).account other = ledger.account other := by
  rcases ledger with ⟨base, layers⟩
  cases layers <;> simp [edit, account, accountIn,
    Std.TreeMap.getElem?_insert, h]

/-- The storage at the edited address. -/
theorem slot_edit_self (ledger : LayeredLedger) (address : Address) (e : Edit)
    (key : Word) :
    (ledger.edit address e).slot address key =
      match e with
      | .account _ => ledger.slot address key
      | .wipe => 0
      | .row row value =>
        if row = key then value else ledger.slot address key := by
  rcases ledger with ⟨base, layers⟩
  cases layers with
  | nil =>
    simp only [edit, slot, slotIn, Std.TreeMap.getElem?_insert_self,
      Option.bind_some, Std.TreeMap.getD_eq_getD_getElem?]
    cases e with
    | account account => cases base[address]? <;> simp [Record.edit]
    | wipe => simp [Record.edit]
    | row row value =>
      by_cases hvalue : value = 0#256 <;> by_cases hrow : row = key <;>
        cases base[address]? <;>
        simp [Record.edit, hvalue, hrow, Std.TreeMap.getElem?_erase,
          Std.TreeMap.getElem?_insert]
  | cons layer beneath =>
    simp only [edit, slot, slotIn, Std.TreeMap.getElem?_insert_self,
      Option.bind_some, Std.TreeMap.getD_eq_getD_getElem?]
    rw [Change.slot?_edit]
    cases e with
    | account account => cases layer[address]? <;> simp
    | wipe => rfl
    | row row value =>
      by_cases hrow : row = key <;> cases layer[address]? <;> simp [hrow]

/-- No other storage is edited. -/
theorem slot_edit_of_ne (ledger : LayeredLedger) {address other : Address}
    (h : address ≠ other) (e : Edit) (key : Word) :
    (ledger.edit address e).slot other key = ledger.slot other key := by
  rcases ledger with ⟨base, layers⟩
  cases layers <;> simp [edit, slot, slotIn, Std.TreeMap.getElem?_insert, h]

/-- An edit opens and closes no snapshot. -/
@[simp]
theorem depth_edit (ledger : LayeredLedger) (address : Address) (e : Edit) :
    (ledger.edit address e).depth = ledger.depth := by
  rcases ledger with ⟨base, layers⟩
  cases layers <;> simp [edit, depth]

/-- A new snapshot hides nothing. -/
@[simp]
theorem account_openSnapshot (ledger : LayeredLedger) (address : Address) :
    ledger.openSnapshot.account address = ledger.account address := by
  simp [openSnapshot, account, accountIn]

/-- A new snapshot hides no storage either. -/
@[simp]
theorem slot_openSnapshot (ledger : LayeredLedger) (address : Address)
    (key : Word) :
    ledger.openSnapshot.slot address key = ledger.slot address key := by
  simp [openSnapshot, slot, slotIn]

end LayeredLedger

end ContractMachine
