import ContractMachine.Proofs.Ledger.Levels

/-!
# Writes to a state

While a transaction runs, the current state is only ever written to in five
ways: a value is stored, value is moved between accounts by one that can pay,
an account starts afresh with the balance it held, a nonce is counted up, and
code is installed.  What each of these writes preserves holds as long as the
transaction runs.

Most of them are acts of one account, which stores values of its own, pays from
its own balance and counts its own nonce up.  Requests that fail write nothing,
so a request that can fail part way is still a sequence of acts.
-/

namespace ContractMachine

/-- One write to a state. -/
inductive FlatState.Write : FlatState → FlatState → Prop where
  | store (state : FlatState) (a : Address) (key value : Word) :
      Write state (state.setSlot a key value)
  | move (state : FlatState) (source target : Address) {value : Word}
      (h : value ≤ (state.held source).balance) :
      Write state (state.move source target value)
  | create (state : FlatState) (a : Address) : Write state (state.create a)
  | count (state : FlatState) (a : Address)
      (h : (state.held a).nonce < Saturating.limit) :
      Write state (state.setNonce a ((state.held a).nonce + 1))
  | deploy (state : FlatState) (a : Address) (code : Bytes) :
      Write state (state.modify a (·.withCode code))

/-- Any number of writes. -/
def FlatState.Writes : FlatState → FlatState → Prop :=
  Relation.ReflTransGen Write

theorem FlatState.Writes.preserves {P : FlatState → Prop}
    (hP : ∀ {state written}, Write state written → P state → P written)
    {state written : FlatState} (h : Writes state written) (hstate : P state) :
    P written := by
  induction h with
  | refl => exact hstate
  | tail _ hwrite ih => exact hP hwrite ih

/-- One write that is the act of an account. -/
inductive FlatState.Act (actor : Address) : FlatState → FlatState → Prop where
  | store (state : FlatState) (key value : Word) :
      Act actor state (state.setSlot actor key value)
  | pay (state : FlatState) (target : Address) {value : Word}
      (h : value ≤ (state.held actor).balance) :
      Act actor state (state.move actor target value)
  | count (state : FlatState)
      (h : (state.held actor).nonce < Saturating.limit) :
      Act actor state (state.setNonce actor ((state.held actor).nonce + 1))

/-- Any number of acts of an account. -/
def FlatState.Acts (actor : Address) : FlatState → FlatState → Prop :=
  Relation.ReflTransGen (Act actor)

theorem FlatState.Acts.writes {actor : Address} {state written : FlatState}
    (h : Acts actor state written) : Writes state written := by
  refine Relation.ReflTransGen.mono (fun _ _ hact => ?_) _ _ h
  cases hact with
  | store key value => exact .store _ actor key value
  | pay target hle => exact .move _ actor target hle
  | count hlt => exact .count _ actor hlt

/-- The account that a new contract starts with. -/
def FlatState.found (state : FlatState) (a : Address) : FlatState :=
  (state.create a).setNonce a 1

theorem FlatState.nonce_create (state : FlatState) (a : Address) :
    ((state.create a).held a).nonce = 0 := by
  simp [create, install, held, put]

theorem FlatState.writes_found (state : FlatState) (a : Address) :
    Writes state (state.found a) := by
  have hlt : ((state.create a).held a).nonce < Saturating.limit := by
    rw [nonce_create]
    decide
  have hcount := Write.count (state.create a) a hlt
  rw [nonce_create] at hcount
  exact .tail (.single (.create state a)) hcount

/-- An account that pays itself is left as it was. -/
theorem FlatState.move_self {state : FlatState} {a : Address}
    {account : Account} {value : Word}
    (haccount : state.account a = some account) (h : value ≤ account.balance) :
    state.move a a value = state := by
  have hback : (account.balance - value).saturatingAdd value =
      account.balance := by
    have hfits : ¬ (account.balance - value).uaddOverflow value = true := by
      rw [BitVec.uaddOverflow, BitVec.toNat_sub_of_le h, decide_eq_true_eq]
      have hle : value.toNat ≤ account.balance.toNat := h
      omega
    rw [Word.saturatingAdd, if_neg hfits, BitVec.sub_add_cancel]
  have hput : Function.update state.account a (some account) =
      state.account := by
    rw [← haccount, Function.update_eq_self]
  simp [move, setBalance, modify, put, held, haccount, hback, hput]

namespace LayeredLedger

open Actions

theorem acts_setSlot (a : Address) (key value : Word) (ledger : LayeredLedger) :
    FlatState.Acts a ledger.states.top
      (left (Ledger.setSlot a key value ledger)).states.top := by
  have htop : (ledger.setSlot a key value).states.top =
      ledger.states.top.setSlot a key value := by
    rw [states_setSlot]
    rfl
  exact .single (htop ▸ .store ledger.states.top key value)

theorem acts_bumpNonce (a : Address) (ledger : LayeredLedger) :
    FlatState.Acts a ledger.states.top
      (left (Ledger.bumpNonce a ledger)).states.top := by
  by_cases hlt : (ledger.states.top.held a).nonce < Saturating.limit
  · have hbump := bumpNonce_of_lt hlt
    have hstates := states_of_bumpNonce hbump
    rw [hbump, left, hstates]
    exact .single (.count ledger.states.top hlt)
  · rw [bumpNonce_of_not_lt hlt]
    exact .refl

theorem acts_transfer (source target : Address) (value : Word)
    (ledger : LayeredLedger) :
    FlatState.Acts source ledger.states.top
      (left (Ledger.transfer source target value ledger)).states.top := by
  by_cases hvalue : value = 0
  · rw [Ledger.transfer, if_pos hvalue]
    exact .refl
  by_cases hlt : (ledger.states.top.held source).balance < value
  · rw [Ledger.transfer, if_neg hvalue, bind_of_error (debit_of_lt hlt)]
    exact .refl
  · obtain ⟨moved, htransfer, hstates⟩ := transfer_of_not_lt target hvalue hlt
    rw [htransfer, left, hstates]
    exact .single (.pay ledger.states.top target (BitVec.not_lt.1 hlt))

theorem acts_of_transfer {source target : Address} {value : Word}
    {ledger after : LayeredLedger}
    (h : Ledger.transfer source target value ledger = .ok () after) :
    FlatState.Acts source ledger.states.top after.states.top := by
  have hacts := acts_transfer source target value ledger
  rw [h] at hacts
  exact hacts

/-! ## Requests that are met -/

/-- An account can send whatever it holds. -/
theorem exists_transfer {ledger : LayeredLedger} {source : Address}
    (target : Address) {value : Word}
    (h : value ≤ (ledger.states.top.held source).balance) :
    ∃ after, Ledger.transfer source target value ledger = .ok () after := by
  by_cases hzero : value = 0
  · refine ⟨ledger, ?_⟩
    rw [Ledger.transfer, if_pos hzero]
    rfl
  · obtain ⟨moved, htransfer, _⟩ :=
      transfer_of_not_lt target hzero (BitVec.not_lt.2 h)
    exact ⟨moved, htransfer⟩

/-- The innermost snapshot can be closed. -/
theorem exists_closeSnapshot {ledger : LayeredLedger} (h : 0 < ledger.depth)
    (close : Layer → LayeredLedger → LayeredLedger) :
    ∃ after, closeSnapshot ledger.depth close ledger = .ok () after := by
  rcases ledger with ⟨base, layers⟩
  cases layers with
  | nil => exact absurd h (Nat.lt_irrefl 0)
  | cons layer beneath => exact ⟨_, if_pos rfl⟩

end LayeredLedger

end ContractMachine
