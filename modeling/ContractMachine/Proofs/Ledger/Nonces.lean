import ContractMachine.Proofs.Ledger.Writes

/-!
# Nonces are counts

A nonce never exceeds the largest count: it is counted up only below that, and
all other writes keep it or start it afresh.  So this holds of every ledger
that a history of operations leaves, in the current state and in those of its
open snapshots, if accounts are installed with such nonces.
-/

namespace ContractMachine

namespace FlatState

/-- Every nonce is a count. -/
def NoncesCount (state : FlatState) : Prop :=
  ∀ a, (state.held a).nonce ≤ Saturating.limit

variable {state : FlatState} {a : Address}

theorem noncesCount_empty : empty.NoncesCount := fun _ => Nat.zero_le _

theorem NoncesCount.put {account : Option Account} (h : state.NoncesCount)
    (haccount : (account.getD {}).nonce ≤ Saturating.limit) :
    (state.put a account).NoncesCount := by
  intro other
  by_cases hother : other = a
  · subst other
    simpa [held, FlatState.put] using haccount
  · simpa [held, FlatState.put, hother] using h other

theorem NoncesCount.clear (h : state.NoncesCount) :
    (state.clear a).NoncesCount := h

theorem NoncesCount.store {key value : Word} (h : state.NoncesCount) :
    (state.store a key value).NoncesCount := h

/-- Writes that keep the nonce. -/
theorem NoncesCount.modify {f : Account → Account} (h : state.NoncesCount)
    (hf : (f (state.held a)).nonce = (state.held a).nonce) :
    (state.modify a f).NoncesCount := by
  refine h.put ?_
  rw [Option.getD_some, hf]
  exact h a

theorem NoncesCount.install {account : Account} (h : state.NoncesCount)
    (haccount : account.nonce ≤ Saturating.limit) :
    (state.install a account).NoncesCount :=
  h.clear.put haccount

theorem NoncesCount.create (h : state.NoncesCount) :
    (state.create a).NoncesCount :=
  h.install (Nat.zero_le _)

theorem NoncesCount.delete (h : state.NoncesCount) :
    (state.delete a).NoncesCount :=
  h.clear.put (Nat.zero_le _)

theorem NoncesCount.setBalance {balance : Word} (h : state.NoncesCount) :
    (state.setBalance a balance).NoncesCount :=
  h.modify rfl

theorem NoncesCount.setNonce {nonce : Nat} (h : state.NoncesCount)
    (hnonce : nonce ≤ Saturating.limit) :
    (state.setNonce a nonce).NoncesCount :=
  h.put hnonce

theorem NoncesCount.move {target : Address} {value : Word}
    (h : state.NoncesCount) :
    (state.move a target value).NoncesCount :=
  h.setBalance.setBalance

theorem NoncesCount.setSlot {key value : Word} (h : state.NoncesCount) :
    (state.setSlot a key value).NoncesCount :=
  (h.modify rfl).store

theorem NoncesCount.write {written : FlatState} (hwrite : Write state written)
    (h : state.NoncesCount) : written.NoncesCount := by
  cases hwrite with
  | store a key value => exact h.setSlot
  | move source target _ => exact h.move
  | create a => exact h.create
  | count a hlt => exact h.setNonce hlt
  | deploy a code => exact h.modify rfl

end FlatState

/-! ## Histories -/

/-- Whether an operation brings in nothing but counts. -/
def Operation.Counts : Operation → Prop
  | .install _ account => account.nonce ≤ Saturating.limit
  | _ => True

namespace StateStack

variable {stack : StateStack}

/-- Every nonce is a count, in the current state and in those of open
snapshots. -/
def NoncesCount (stack : StateStack) : Prop :=
  ∀ state ∈ stack.levels, state.NoncesCount

theorem NoncesCount.change {f : FlatState → FlatState} (h : stack.NoncesCount)
    (hf : (f stack.top).NoncesCount) : (stack.change f).NoncesCount :=
  List.forall_mem_cons.2 ⟨hf, (List.forall_mem_cons.1 h).2⟩

theorem NoncesCount.top (h : stack.NoncesCount) : stack.top.NoncesCount :=
  h _ List.mem_cons_self

theorem NoncesCount.close {depth : Nat}
    {keep : FlatState → FlatState → FlatState}
    (hkeep : ∀ top beneath, keep top beneath = top ∨ keep top beneath = beneath)
    (h : stack.NoncesCount) :
    (outcomeOf (StateStack.close depth keep stack)).2.NoncesCount :=
  fun state hstate => h state (mem_levels_of_close hkeep hstate)

/-- No operation brings in a nonce that is not a count, unless it installs
one. -/
theorem NoncesCount.perform {operation : Operation} (hcounts : operation.Counts)
    (h : stack.NoncesCount) :
    (outcomeOf (StateStack.perform operation stack)).2.NoncesCount := by
  cases operation with
  | hasAccount | balance | nonce | code | codeHash | slot | isEmpty | depth =>
    exact h
  | createAccount a => exact h.change h.top.create
  | deleteAccount a => exact h.change h.top.delete
  | credit a amount => exact h.change h.top.setBalance
  | debit a amount =>
    rw [StateStack.perform]
    dsimp only
    split
    · exact h
    · exact h.change h.top.setBalance
  | bumpNonce a =>
    rw [StateStack.perform]
    dsimp only
    split
    case isTrue hlt => exact h.change (h.top.setNonce hlt)
    case isFalse => exact h
  | setCode a code => exact h.change (h.top.modify rfl)
  | setSlot a key value => exact h.change h.top.setSlot
  | install a account => exact h.change (h.top.install hcounts)
  | transfer source target value =>
    rw [StateStack.perform]
    dsimp only
    split
    · exact h
    split
    · exact h
    · exact h.change h.top.move
  | openSnapshot => exact List.forall_mem_cons.2 ⟨h.top, h⟩
  | commit depth => exact h.close fun _ _ => .inl rfl
  | rollback depth => exact h.close fun _ _ => .inr rfl

end StateStack

namespace LayeredLedger

/-- The ledgers that histories of operations leave, in whatever order their
commits repeat what they keep. -/
def Reachable (ledger : LayeredLedger) : Prop :=
  ∃ history answers, Serves history answers ledger ∧ ∀ operation ∈ history,
    operation.Counts

theorem noncesCount_of_serves {history : List Operation}
    {answers : List (Except LedgerError Answer)} {ledger : LayeredLedger}
    (h : Serves history answers ledger)
    (hcounts : ∀ operation ∈ history, operation.Counts) :
    ledger.states.NoncesCount := by
  induction h with
  | nil =>
    rw [states_empty]
    exact List.forall_mem_singleton.2 FlatState.noncesCount_empty
  | @concat _ _ ledger operation result _ hresult ih =>
    obtain ⟨hhistory, hlast⟩ := List.forall_mem_append.1 hcounts
    have hperformed := (ih hhistory).perform (List.forall_mem_singleton.1 hlast)
    rw [← hresult.mapState_eq, outcomeOf_mapState] at hperformed
    exact hperformed

theorem Reachable.noncesCount {ledger : LayeredLedger} (h : ledger.Reachable) :
    ledger.states.top.NoncesCount := by
  obtain ⟨_, _, hserves, hcounts⟩ := h
  exact (noncesCount_of_serves hserves hcounts).top

end LayeredLedger

end ContractMachine
