import ContractMachine.Proofs.Ledger.Refinement

/-!
# What can be seen of a ledger

Everything that can be read of a ledger, its dump and the number of its open
snapshots included, is told by the stack of states it stands for.  Two
relations between the ledger before and after something are stated in terms of
reads alone: nothing differs, or one account's nonce has been counted up and
nothing else differs.
-/

namespace ContractMachine.LayeredLedger

/-- Nothing that can be seen of a ledger has changed. -/
structure SameReads (before after : LayeredLedger) : Prop where
  hasAccount : ∀ a, Ledger.hasAccount after a = Ledger.hasAccount before a
  balance : ∀ a, Ledger.balance after a = Ledger.balance before a
  nonce : ∀ a, Ledger.nonce after a = Ledger.nonce before a
  code : ∀ a, Ledger.code after a = Ledger.code before a
  codeHash : ∀ a, Ledger.codeHash after a = Ledger.codeHash before a
  slot : ∀ a key, Ledger.slot after a key = Ledger.slot before a key
  dump : after.dump = before.dump
  depth : after.depth = before.depth

/-- The account at an address is there and its nonce is one higher, and nothing
else that can be seen of the ledger has changed. -/
structure NonceRaised (address : Address) (before after : LayeredLedger) :
    Prop where
  hasAccount : Ledger.hasAccount after address = .ok true
  hasAccount_other : ∀ a ≠ address,
    Ledger.hasAccount after a = Ledger.hasAccount before a
  nonce : ∃ n, Ledger.nonce before address = .ok n ∧
    Ledger.nonce after address = .ok (n + 1)
  nonce_other : ∀ a ≠ address, Ledger.nonce after a = Ledger.nonce before a
  balance : ∀ a, Ledger.balance after a = Ledger.balance before a
  code : ∀ a, Ledger.code after a = Ledger.code before a
  codeHash : ∀ a, Ledger.codeHash after a = Ledger.codeHash before a
  slot : ∀ a key, Ledger.slot after a key = Ledger.slot before a key
  dump : ∃ entry ∈ after.dump, entry.address = address ∧
    Ledger.balance before address = .ok entry.balance ∧
    Ledger.nonce after address = .ok entry.nonce ∧
    Ledger.code before address = .ok entry.code ∧
    entry.storage = (before.storage address).toList
  dump_other : after.dump.filter (·.address ≠ address) =
    before.dump.filter (·.address ≠ address)
  depth : after.depth = before.depth

theorem account_eq_of_top {before after : LayeredLedger}
    (h : after.states.top.account = before.states.top.account) (a : Address) :
    after.account a = before.account a := congrFun h a

theorem slot_eq_of_top {before after : LayeredLedger}
    (h : after.states.top.slot = before.states.top.slot) (a : Address)
    (key : Word) :
    after.slot a key = before.slot a key := congrFun (congrFun h a) key

theorem depth_eq_of_below {before after : LayeredLedger}
    (h : after.states.below = before.states.below) :
    after.depth = before.depth := by
  rw [← depth_states, ← depth_states, StateStack.depth, StateStack.depth, h]

theorem depth_of_below_cons {before after : LayeredLedger} {beneath : FlatState}
    (h : after.states.below = beneath :: before.states.below) :
    after.depth = before.depth + 1 := by
  rw [← depth_states, ← depth_states, StateStack.depth, StateStack.depth, h,
    List.length_cons]

theorem sameReads_of_states_eq {before after : LayeredLedger}
    (h : after.states = before.states) : SameReads before after := by
  have haccount : ∀ a, after.account a = before.account a :=
    account_eq_of_top (by rw [h])
  have hslot : ∀ a key, after.slot a key = before.slot a key :=
    slot_eq_of_top (by rw [h])
  have hdump : before.states.top.IsDump after.dump := by
    rw [← h]
    exact after.isDump_dump
  constructor
  · simp [Ledger.hasAccount, haccount]
  · simp [Ledger.balance, haccount]
  · simp [Ledger.nonce, haccount]
  · simp [Ledger.code, haccount]
  · simp [Ledger.codeHash, haccount]
  · simp [Ledger.slot, hslot]
  · exact hdump.unique before.isDump_dump
  · exact depth_eq_of_below (by rw [h])

section NonceRaised

variable {address : Address} {before after : LayeredLedger}

/-- A state with one nonce changed. -/
theorem account_setNonce (state : FlatState) (address a : Address) (n : Nat) :
    (state.setNonce address n).account a =
      if a = address then some { state.held address with nonce := n }
      else state.account a := by
  simp [FlatState.setNonce, FlatState.modify, FlatState.put,
    Function.update_apply]

theorem isStorage_iff_of_slot {state other : FlatState}
    (h : state.slot = other.slot) (a : Address) (rows : List (Word × Word)) :
    state.IsStorage a rows ↔ other.IsStorage a rows := by
  constructor
  · exact fun hrows => ⟨hrows.ascending, by rw [← h]; exact hrows.mem_iff⟩
  · exact fun hrows => ⟨hrows.ascending, by rw [h]; exact hrows.mem_iff⟩

theorem isStorage_storage (ledger : LayeredLedger) (a : Address) :
    ledger.states.top.IsStorage a (ledger.storage a).toList :=
  isStorage_of_tabulates (ledger.tabulates_storage a)

theorem nonceRaised_of_states_eq
    (h : after.states = before.states.change
      (·.setNonce address ((before.states.top.held address).nonce + 1))) :
    NonceRaised address before after := by
  have haccount : ∀ a, after.account a = if a = address then
      some { (before.account address).getD {} with
        nonce := ((before.account address).getD {}).nonce + 1 }
          else before.account a := by
    intro a
    rw [← account_top_states, h]
    exact account_setNonce ..
  have hslots : after.states.top.slot = before.states.top.slot := by
    rw [h]
    rfl
  have hslot := slot_eq_of_top hslots
  have hself := haccount address
  rw [if_pos rfl] at hself
  have hother : ∀ a ≠ address, after.account a = before.account a :=
    fun a ha => by
    rw [haccount, if_neg ha]
  constructor
  · simp [Ledger.hasAccount, hself]
  · intro a ha
    simp [Ledger.hasAccount, hother a ha]
  · exact ⟨_, rfl, by simp [Ledger.nonce, hself]⟩
  · intro a ha
    simp [Ledger.nonce, hother a ha]
  · intro a
    by_cases ha : a = address
    · simp [Ledger.balance, ha, hself]
    · simp [Ledger.balance, hother a ha]
  · intro a
    by_cases ha : a = address
    · simp [Ledger.code, ha, hself]
    · simp [Ledger.code, hother a ha]
  · intro a
    by_cases ha : a = address
    · simp [Ledger.codeHash, ha, hself]
    · simp [Ledger.codeHash, hother a ha]
  · simp [Ledger.slot, hslot]
  · have hrows : after.states.top.IsStorage address
        (before.storage address).toList :=
      (isStorage_iff_of_slot hslots ..).2 (before.isStorage_storage address)
    refine ⟨entryOf address { (before.account address).getD {} with
        nonce := ((before.account address).getD {}).nonce + 1 }
      (before.storage address).toList, ?_, rfl, rfl, ?_, rfl, rfl⟩
    · exact (after.isDump_dump.mem_iff _).2 ⟨_, hself, rfl, rfl, rfl, hrows⟩
    · simp [Ledger.nonce, hself, entryOf]
  · refine eq_of_ascending AccountEntry.address
      (after.isDump_dump.ascending.filter _)
      (before.isDump_dump.ascending.filter _) fun entry => ?_
    simp only [List.mem_filter, after.isDump_dump.mem_iff,
      before.isDump_dump.mem_iff]
    refine and_congr_left fun ha => ?_
    have hne : entry.address ≠ address := by simpa using ha
    simp only [account_top_states, hother _ hne, isStorage_iff_of_slot hslots]
  · exact depth_eq_of_below (by rw [h]; rfl)

end NonceRaised

end ContractMachine.LayeredLedger
