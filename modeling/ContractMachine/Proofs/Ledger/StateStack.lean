import ContractMachine.Ledger.View
import Mathlib

/-!
# Stacks of full states

What a ledger with snapshots means, without layers: a stack of states, each
written out in full.  Opening a snapshot copies the top of the stack, rolling
back drops the top, committing drops the state just beneath it, and every
other operation acts on the top alone.

Operations and their answers are data, so that a history of a ledger is a list
of operations and two ledgers can be compared on every history.
-/

namespace ContractMachine

/-- A state written out in full. -/
@[ext]
structure FlatState where
  account : Address → Option Account
  slot : Address → Word → Word

namespace FlatState

/-- The state in which there is nothing. -/
def empty : FlatState where
  account _ := none
  slot _ _ := 0

/-- The account at an address, or an empty one. -/
def held (state : FlatState) (address : Address) : Account :=
  (state.account address).getD {}

def put (state : FlatState) (address : Address) (account : Option Account) :
    FlatState :=
  { state with account := Function.update state.account address account }

def clear (state : FlatState) (address : Address) : FlatState :=
  { state with slot := Function.update state.slot address fun _ => 0 }

def store (state : FlatState) (address : Address) (key value : Word) :
    FlatState :=
  { state with
    slot := Function.update state.slot address
      (Function.update (state.slot address) key value) }

/-- Replaces the account, keeping the storage. -/
def modify (state : FlatState) (address : Address) (f : Account → Account) :
    FlatState :=
  state.put address (some (f (state.held address)))

/-- Puts an account in place of whatever was at the address. -/
def install (state : FlatState) (address : Address) (account : Account) :
    FlatState :=
  (state.clear address).put address (some account)

def create (state : FlatState) (address : Address) : FlatState :=
  state.install address { balance := (state.held address).balance }

def delete (state : FlatState) (address : Address) : FlatState :=
  (state.clear address).put address none

def setBalance (state : FlatState) (address : Address) (balance : Word) :
    FlatState :=
  state.modify address ({ · with balance := balance })

def setNonce (state : FlatState) (address : Address) (nonce : Nat) :
    FlatState :=
  state.modify address ({ · with nonce := nonce })

/-- Takes value from one account and then adds it to another, or to the same. -/
def move (state : FlatState) (source target : Address) (value : Word) :
    FlatState :=
  let debited := state.setBalance source ((state.held source).balance - value)
  debited.setBalance target ((debited.held target).balance.saturatingAdd value)

/-- Stores a value, which brings the account into being. -/
def setSlot (state : FlatState) (address : Address) (key value : Word) :
    FlatState :=
  (state.modify address id).store address key value

/-- Whether an account is missing or holds nothing at all. -/
def isEmpty (state : FlatState) (address : Address) : Bool :=
  (state.held address).isEmpty

/-- One elementary write. -/
def edit (state : FlatState) (address : Address) : Edit → FlatState
  | .account account => state.put address account
  | .wipe => state.clear address
  | .row key value => state.store address key value

/-- Writing back the account that is there changes nothing. -/
theorem modify_id_of_account {state : FlatState} {address : Address}
    {account : Account} (h : state.account address = some account) :
    state.modify address id = state := by
  have hput : Function.update state.account address (some account) =
      state.account := by
    rw [← h, Function.update_eq_self]
  simp [modify, held, put, h, hput]

end FlatState

/-- A stack of states, the current one on top. -/
@[ext]
structure StateStack where
  top : FlatState
  below : List FlatState

/-- What a ledger can be asked to do. -/
inductive Operation where
  | hasAccount (address : Address)
  | createAccount (address : Address)
  | deleteAccount (address : Address)
  | balance (address : Address)
  | credit (address : Address) (amount : Word)
  | debit (address : Address) (amount : Word)
  | nonce (address : Address)
  | bumpNonce (address : Address)
  | code (address : Address)
  | setCode (address : Address) (code : Bytes)
  | codeHash (address : Address)
  | slot (address : Address) (key : Word)
  | setSlot (address : Address) (key value : Word)
  | install (address : Address) (account : Account)
  | transfer (source target : Address) (value : Word)
  | isEmpty (address : Address)
  | openSnapshot
  | commit (depth : Nat)
  | rollback (depth : Nat)
  | depth

/-- What an operation that succeeds answers. -/
inductive Answer where
  | done
  | truth (value : Bool)
  | word (value : Word)
  | count (value : Nat)
  | bytes (value : Bytes)
  deriving DecidableEq

namespace StateStack

/-- The stack that holds nothing but the state in which there is nothing. -/
def empty : StateStack := ⟨FlatState.empty, []⟩

/-- The number of open snapshots. -/
def depth (stack : StateStack) : Nat := stack.below.length

/-- All states of the stack, the current one first. -/
def levels (stack : StateStack) : List FlatState := stack.top :: stack.below

/-- Acts on the current state alone. -/
def change (stack : StateStack) (f : FlatState → FlatState) : StateStack :=
  { stack with top := f stack.top }

/-- Closes the innermost snapshot, which must have the given depth; `keep` says
which of the two topmost states stays. -/
def close (depth : Nat) (keep : FlatState → FlatState → FlatState) :
    EStateM LedgerError StateStack Answer := fun stack =>
  match stack.below with
  | [] => .error .noSnapshot stack
  | beneath :: rest =>
    if depth = stack.depth then .ok .done ⟨keep stack.top beneath, rest⟩
    else .error (.snapshotOrder stack.depth depth) stack

/-- What an operation does to a stack of states. -/
def perform : Operation → EStateM LedgerError StateStack Answer
  | .hasAccount a =>
    fun stack => .ok (.truth (stack.top.account a).isSome) stack
  | .createAccount a => fun stack => .ok .done (stack.change (·.create a))
  | .deleteAccount a => fun stack => .ok .done (stack.change (·.delete a))
  | .balance a => fun stack => .ok (.word (stack.top.held a).balance) stack
  | .credit a amount => fun stack =>
    let balance := (stack.top.held a).balance.saturatingAdd amount
    .ok (.word balance) (stack.change (·.setBalance a balance))
  | .debit a amount => fun stack =>
    let balance := (stack.top.held a).balance
    if balance < amount then
      .error (.insufficientBalance a balance amount) stack
    else .ok (.word (balance - amount))
      (stack.change (·.setBalance a (balance - amount)))
  | .nonce a => fun stack => .ok (.count (stack.top.held a).nonce) stack
  | .bumpNonce a => fun stack =>
    let nonce := (stack.top.held a).nonce
    if nonce < Saturating.limit then
      .ok (.count (nonce + 1)) (stack.change (·.setNonce a (nonce + 1)))
    else .error (.nonceOverflow a) stack
  | .code a => fun stack => .ok (.bytes (stack.top.held a).code) stack
  | .setCode a code =>
    fun stack => .ok .done (stack.change (·.modify a (·.withCode code)))
  | .codeHash a => fun stack => .ok (.word (stack.top.held a).codeHash) stack
  | .slot a key => fun stack => .ok (.word (stack.top.slot a key)) stack
  | .setSlot a key value =>
    fun stack => .ok .done (stack.change (·.setSlot a key value))
  | .install a account =>
    fun stack => .ok .done (stack.change (·.install a account))
  | .transfer source target value => fun stack =>
    let balance := (stack.top.held source).balance
    if value = 0 then .ok .done stack
    else if balance < value then
      .error (.insufficientBalance source balance value) stack
    else .ok .done (stack.change (·.move source target value))
  | .isEmpty a => fun stack => .ok (.truth (stack.top.isEmpty a)) stack
  | .openSnapshot => fun stack =>
    .ok (.count (stack.depth + 1)) ⟨stack.top, stack.top :: stack.below⟩
  | .commit depth => close depth fun top _ => top
  | .rollback depth => close depth fun _ beneath => beneath
  | .depth => fun stack => .ok (.count stack.depth) stack

end StateStack

/-- An answer, or the error in its place, and the state that is left. -/
def outcomeOf {ε σ α : Type} : EStateM.Result ε σ α → Except ε α × σ
  | .ok answer state => (.ok answer, state)
  | .error cause state => (.error cause, state)

/-- Closing a snapshot brings up no state that was not there. -/
theorem StateStack.mem_levels_of_close {depth : Nat}
    {keep : FlatState → FlatState → FlatState}
    (hkeep : ∀ top beneath, keep top beneath = top ∨ keep top beneath = beneath)
    {stack : StateStack} {state : FlatState}
    (h : state ∈ (outcomeOf (close depth keep stack)).2.levels) :
    state ∈ stack.levels := by
  rcases stack with ⟨top, below⟩
  cases below with
  | nil => exact h
  | cons beneath rest =>
    rw [close] at h
    dsimp only at h
    split at h
    · rcases List.mem_cons.1 h with rfl | hrest
      · rcases hkeep top beneath with hkept |
          hkept <;> simp [levels, outcomeOf, hkept]
      · exact List.mem_cons_of_mem _ (List.mem_cons_of_mem _ hrest)
    · exact h

/-- The answers to a history of operations, and the state it leaves. -/
def serve {σ : Type} (perform : Operation → EStateM LedgerError σ Answer)
    (start : σ) (history : List Operation) :
    List (Except LedgerError Answer) × σ :=
  history.foldl (fun (answers, state) operation =>
    let (answer, state) := outcomeOf (perform operation state)
    (answers ++ [answer], state)) ([], start)

theorem serve_concat {σ : Type}
    (perform : Operation → EStateM LedgerError σ Answer) (start : σ)
    (history : List Operation) (operation : Operation) :
    serve perform start (history ++ [operation]) =
      let outcome :=
        outcomeOf (perform operation (serve perform start history).2)
      ((serve perform start history).1 ++ [outcome.1], outcome.2) := by
  simp [serve, List.foldl_append]

end ContractMachine
