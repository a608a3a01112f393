import ContractMachine.Proofs.Ledger.StateStack

/-!
# Layers stand for full states

A base with layers over it shows one full state, and so does each shorter
stack of layers: `LayeredLedger.states` is the stack of states that a layered
ledger stands for.  An edit of the ledger is an edit of the top of that stack,
and so is every write, since a write is made of edits.
-/

namespace ContractMachine

open Std (TreeMap)

namespace LayeredLedger

/-- The state that a base and the layers over it show. -/
def stateIn (base : TreeMap Address Record) (layers : List Layer) :
    FlatState where
  account address := accountIn base address layers
  slot address key := slotIn base address key layers

/-- The states that the layers beneath each layer show, innermost first. -/
def statesBelow (base : TreeMap Address Record) : List Layer → List FlatState
  | [] => []
  | _ :: beneath => stateIn base beneath :: statesBelow base beneath

/-- The stack of states that a ledger stands for. -/
def states (ledger : LayeredLedger) : StateStack where
  top := stateIn ledger.base ledger.layers
  below := statesBelow ledger.base ledger.layers

@[simp]
theorem account_top_states (ledger : LayeredLedger) (address : Address) :
    ledger.states.top.account address = ledger.account address := rfl

@[simp]
theorem slot_top_states (ledger : LayeredLedger) (address : Address)
    (key : Word) :
    ledger.states.top.slot address key = ledger.slot address key := rfl

@[simp]
theorem held_top_states (ledger : LayeredLedger) (address : Address) :
    ledger.states.top.held address = (ledger.account address).getD {} := rfl

@[simp]
theorem states_empty : ({} : LayeredLedger).states = StateStack.empty := by
  have htop : stateIn ∅ [] = FlatState.empty := by
    ext : 2
    · simp [stateIn, accountIn, FlatState.empty]
    · funext key
      simp [stateIn, slotIn, FlatState.empty]
  exact StateStack.ext htop rfl

@[simp]
theorem depth_states (ledger : LayeredLedger) :
    ledger.states.depth = ledger.depth := by
  have hlength : ∀ layers,
      (statesBelow ledger.base layers).length = layers.length := by
    intro layers
    induction layers with
    | nil => rfl
    | cons layer beneath ih => simp [statesBelow, ih]
  exact hlength ledger.layers

/-- An edit writes to the current state and leaves those of the snapshots
alone. -/
theorem states_edit (ledger : LayeredLedger) (address : Address) (e : Edit) :
    (ledger.edit address e).states =
      ledger.states.change (·.edit address e) := by
  have haccount : ∀ other, (ledger.edit address e).account other =
      (ledger.states.top.edit address e).account other := by
    intro other
    by_cases hother : other = address
    · subst other
      rw [account_edit_self]
      cases e <;> simp [FlatState.edit, FlatState.put, FlatState.clear,
        FlatState.store]
    · rw [account_edit_of_ne ledger (Ne.symm hother)]
      cases e <;>
        simp [FlatState.edit, FlatState.put, FlatState.clear,
          FlatState.store, hother]
  have hslot : ∀ other key, (ledger.edit address e).slot other key =
      (ledger.states.top.edit address e).slot other key := by
    intro other key
    by_cases hother : other = address
    · subst other
      rw [slot_edit_self]
      cases e <;>
        simp [FlatState.edit, FlatState.put, FlatState.clear, FlatState.store,
          Function.update_apply, eq_comm]
    · rw [slot_edit_of_ne ledger (Ne.symm hother)]
      cases e <;>
        simp [FlatState.edit, FlatState.put, FlatState.clear,
          FlatState.store, hother]
  have hbelow : (ledger.edit address e).states.below = ledger.states.below := by
    rcases ledger with ⟨base, layers⟩
    cases layers <;> rfl
  refine StateStack.ext ?_ hbelow
  exact FlatState.ext (funext haccount)
    (funext fun other => funext (hslot other))

/-! ## Writes -/

theorem states_modifyAccount (ledger : LayeredLedger) (address : Address)
    (f : Account → Account) :
    (ledger.modifyAccount address f).states =
      ledger.states.change (·.modify address f) := by
  rw [modifyAccount, states_edit]
  rfl

theorem states_install (ledger : LayeredLedger) (address : Address)
    (account : Account) :
    (ledger.install address account).states =
      ledger.states.change (·.install address account) := by
  rw [install, states_edit, states_edit]
  rfl

theorem states_create (ledger : LayeredLedger) (address : Address) :
    (ledger.create address).states =
      ledger.states.change (·.create address) := by
  rw [create, states_install]
  rfl

theorem states_delete (ledger : LayeredLedger) (address : Address) :
    (ledger.delete address).states =
      ledger.states.change (·.delete address) := by
  rw [delete, states_edit, states_edit]
  rfl

theorem states_setSlot (ledger : LayeredLedger) (address : Address)
    (key value : Word) :
    (ledger.setSlot address key value).states =
      ledger.states.change (·.setSlot address key value) := by
  rw [setSlot]
  cases haccount : ledger.account address with
  | some account =>
    have hheld : ledger.states.top.modify address id = ledger.states.top :=
      FlatState.modify_id_of_account haccount
    simp only [states_edit, StateStack.change, FlatState.setSlot,
      FlatState.edit, hheld]
  | none =>
    have hheld : ledger.states.top.held address = {} := by
      simp [haccount]
    simp only [states_edit, StateStack.change, FlatState.setSlot,
      FlatState.edit, FlatState.modify, hheld, id]

@[simp]
theorem states_openSnapshot (ledger : LayeredLedger) :
    ledger.openSnapshot.states =
      ⟨ledger.states.top, ledger.states.top :: ledger.states.below⟩ := by
  have htop : ledger.openSnapshot.states.top = ledger.states.top :=
    FlatState.ext (funext (account_openSnapshot ledger))
      (funext fun address => funext (slot_openSnapshot ledger address))
  exact StateStack.ext htop rfl

end LayeredLedger

end ContractMachine
