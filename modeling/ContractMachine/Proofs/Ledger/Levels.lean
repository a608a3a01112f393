import ContractMachine.Proofs.Ledger.Refinement

/-!
# The states of open snapshots

A ledger with open snapshots stands for a stack of states, and all writes go to
the topmost.  Actions made of writes and reads therefore leave the rest of the
stack alone; closing a snapshot, and nothing else, brings it up.
-/

namespace ContractMachine.LayeredLedger

open Actions

variable {α : Type}

/-- An action that leaves the states of all open snapshots alone. -/
def ActsOnTop (action : EStateM LedgerError LayeredLedger α) : Prop :=
  ∀ ledger, (left (action ledger)).states.below = ledger.states.below

theorem actsOnTop_createAccount (a : Address) :
    ActsOnTop (Ledger.createAccount a :
      EStateM LedgerError LayeredLedger Unit) := fun ledger =>
  (congrArg StateStack.below (states_create ledger a)).trans rfl

theorem actsOnTop_setCode (a : Address) (code : Bytes) :
    ActsOnTop (Ledger.setCode a code :
      EStateM LedgerError LayeredLedger Unit) := fun ledger =>
  (congrArg StateStack.below
    (states_modifyAccount ledger a (·.withCode code))).trans rfl

theorem actsOnTop_setSlot (a : Address) (key value : Word) :
    ActsOnTop (Ledger.setSlot a key value :
      EStateM LedgerError LayeredLedger Unit) :=
  fun ledger =>
    (congrArg StateStack.below (states_setSlot ledger a key value)).trans rfl

theorem below_modifyAccount (ledger : LayeredLedger) (a : Address)
    (f : Account → Account) :
    (ledger.modifyAccount a f).states.below = ledger.states.below := by
  rw [states_modifyAccount]
  rfl

theorem actsOnTop_credit (a : Address) (amount : Word) :
    ActsOnTop (Ledger.credit a amount :
      EStateM LedgerError LayeredLedger Word) := fun ledger =>
  below_modifyAccount ledger a fun account =>
    { account with
      balance := (ledger.states.top.held a).balance.saturatingAdd amount }

theorem actsOnTop_debit (a : Address) (amount : Word) :
    ActsOnTop (Ledger.debit a amount :
      EStateM LedgerError LayeredLedger Word) := by
  intro ledger
  by_cases hlt : (ledger.states.top.held a).balance < amount
  · rw [debit_of_lt hlt]
    rfl
  · rw [debit_of_not_lt hlt, left, below_modifyAccount]

theorem actsOnTop_bumpNonce (a : Address) :
    ActsOnTop (Ledger.bumpNonce a : EStateM LedgerError LayeredLedger Nat) := by
  intro ledger
  by_cases hlt : (ledger.states.top.held a).nonce < Saturating.limit
  · rw [bumpNonce_of_lt hlt, left, below_modifyAccount]
  · rw [bumpNonce_of_not_lt hlt]
    rfl

/-- A nonce that could be counted up is one higher, and nothing else has
changed. -/
theorem states_of_bumpNonce {a : Address} {n : Nat}
    {ledger after : LayeredLedger}
    (h : Ledger.bumpNonce a ledger = .ok n after) :
    after.states = ledger.states.change
      (·.setNonce a ((ledger.states.top.held a).nonce + 1)) := by
  by_cases hlt : (ledger.states.top.held a).nonce < Saturating.limit
  · rw [bumpNonce_of_lt hlt] at h
    cases h
    exact states_modifyAccount ledger a _
  · rw [bumpNonce_of_not_lt hlt] at h
    cases h

/-- Closing a snapshot keeps one of the two topmost states. -/
theorem states_of_closeSnapshot {close : Layer → LayeredLedger → LayeredLedger}
    (keep : FlatState → FlatState → FlatState) {depth : Nat}
    {ledger after : LayeredLedger}
    (hclose : mapState states
      (tell (closeSnapshot depth close) (fun _ => .done) ledger) =
      StateStack.close depth keep ledger.states)
    (h : closeSnapshot depth close ledger = .ok () after) :
    ∃ beneath rest, ledger.states.below = beneath :: rest ∧
      after.states = ⟨keep ledger.states.top beneath, rest⟩ := by
  rw [tell, h] at hclose
  dsimp only [mapState] at hclose
  rw [StateStack.close] at hclose
  cases hbelow : ledger.states.below with
  | nil => simp [hbelow] at hclose
  | cons beneath rest =>
    rw [hbelow] at hclose
    dsimp only at hclose
    by_cases hdepth : depth = ledger.states.depth
    · rw [if_pos hdepth] at hclose
      injection hclose with _ hstates
      exact ⟨beneath, rest, rfl, hstates⟩
    · rw [if_neg hdepth] at hclose
      cases hclose

/-- A commit keeps the current state and drops the one beneath it. -/
theorem states_of_commit {depth : Nat} {ledger after : LayeredLedger}
    (h : Ledger.commit depth ledger = .ok () after) :
    ∃ beneath rest, ledger.states.below = beneath :: rest ∧
      after.states = ⟨ledger.states.top, rest⟩ := by
  have hclose : mapState states (tell (commit depth) (fun _ => .done) ledger) =
      StateStack.close depth (fun top _ => top) ledger.states :=
    mapState_perform (.commit depth) ledger
  exact states_of_closeSnapshot _ hclose h

/-- A rollback brings back the state beneath the current one. -/
theorem states_of_rollback {depth : Nat} {ledger after : LayeredLedger}
    (h : Ledger.rollback depth ledger = .ok () after) :
    ∃ beneath rest, ledger.states.below = beneath :: rest ∧
      after.states = ⟨beneath, rest⟩ := by
  have hclose : mapState states
      (tell (rollback depth) (fun _ => .done) ledger) =
      StateStack.close depth (fun _ beneath => beneath) ledger.states :=
    mapState_perform (.rollback depth) ledger
  exact states_of_closeSnapshot _ hclose h

end ContractMachine.LayeredLedger
