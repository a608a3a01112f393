import ContractMachine.Proofs.Ledger.Reads

/-!
# A dump shows everything

A dump passes over addresses without an account and leaves out the digests of
code.  It still tells all there is to see, because of two facts that hold of
every state a ledger gets into: where there is no account there is no storage,
and every digest is that of the code beside it.  `FlatState.Coherent` says so
of one state; every operation keeps it at every level of the stack, so that it
also holds of the states that rollbacks bring back.

Two coherent ledgers with the same dump show the same state.  Nothing that can
be read tells them apart, and no operation that leaves snapshots alone does.
-/

namespace ContractMachine

/-- The digest beside the code is that of the code; no code has a digest of its
own. -/
def Account.HashMatches (account : Account) : Prop :=
  account.codeHash = if account.code.isEmpty then Keccak.emptyHash
    else Keccak.hash account.code

theorem Account.hashMatches_withCode (account : Account) (code : Bytes) :
    (account.withCode code).HashMatches := rfl

theorem Account.hashMatches_of_code_empty {account : Account}
    (hcode : account.code = #[]) (hhash : account.codeHash = Keccak.emptyHash) :
    account.HashMatches := by
  rw [HashMatches, hcode, hhash]
  rfl

namespace FlatState

/-- Only accounts have storage, and every digest is that of the code beside
it. -/
structure Coherent (state : FlatState) : Prop where
  slot_eq_zero : ∀ a key, state.account a = none → state.slot a key = 0
  hashMatches : ∀ a account, state.account a = some account →
    account.HashMatches

variable {state : FlatState} {a : Address}

theorem coherent_empty : empty.Coherent where
  slot_eq_zero _ _ _ := rfl
  hashMatches _ _ h := by cases h

theorem Coherent.hashMatches_held (h : state.Coherent) (a : Address) :
    (state.held a).HashMatches := by
  rw [held]
  cases haccount : state.account a with
  | none => exact Account.hashMatches_of_code_empty rfl rfl
  | some account => exact h.hashMatches a account haccount

theorem Coherent.clear (h : state.Coherent) : (state.clear a).Coherent where
  slot_eq_zero b key hnone := by
    by_cases hb : b = a
    · simp [FlatState.clear, hb]
    · simpa [FlatState.clear, hb] using h.slot_eq_zero b key hnone
  hashMatches := h.hashMatches

theorem Coherent.put_some {account : Account} (h : state.Coherent)
    (haccount : account.HashMatches) :
    (state.put a (some account)).Coherent where
  slot_eq_zero b key hnone := by
    by_cases hb : b = a
    · simp [put, hb] at hnone
    · exact h.slot_eq_zero b key (by simpa [put, hb] using hnone)
  hashMatches b held hheld := by
    by_cases hb : b = a
    · obtain rfl : account = held := by simpa [put, hb] using hheld
      exact haccount
    · exact h.hashMatches b held (by simpa [put, hb] using hheld)

/-- An account may go once its storage is gone. -/
theorem Coherent.delete (h : state.Coherent) : (state.delete a).Coherent where
  slot_eq_zero b key hnone := by
    by_cases hb : b = a
    · simp [FlatState.delete, FlatState.put, FlatState.clear, hb]
    · exact h.clear.slot_eq_zero b key
        (by simpa [FlatState.delete, FlatState.put, FlatState.clear,
          hb] using hnone)
  hashMatches b held hheld := by
    by_cases hb : b = a
    · simp [FlatState.delete, FlatState.put, hb] at hheld
    · exact h.hashMatches b held
        (by simpa [FlatState.delete, FlatState.put, FlatState.clear,
          hb] using hheld)

/-- Rows may be written to an account that is there. -/
theorem Coherent.store {key value : Word} (h : state.Coherent)
    (haccount : state.account a ≠ none) :
    (state.store a key value).Coherent where
  slot_eq_zero b row hnone := by
    have hb : b ≠ a := by
      rintro rfl
      exact haccount hnone
    simpa [FlatState.store, hb] using h.slot_eq_zero b row hnone
  hashMatches := h.hashMatches

theorem Coherent.modify {f : Account → Account} (h : state.Coherent)
    (hf : (f (state.held a)).HashMatches) : (state.modify a f).Coherent :=
  h.put_some hf

theorem Coherent.install {account : Account} (h : state.Coherent)
    (haccount : account.HashMatches) : (state.install a account).Coherent :=
  h.clear.put_some haccount

theorem Coherent.create (h : state.Coherent) : (state.create a).Coherent :=
  h.install (Account.hashMatches_of_code_empty rfl rfl)

theorem Coherent.setBalance {balance : Word} (h : state.Coherent) :
    (state.setBalance a balance).Coherent :=
  h.modify (h.hashMatches_held a)

theorem Coherent.setNonce {nonce : Nat} (h : state.Coherent) :
    (state.setNonce a nonce).Coherent :=
  h.modify (h.hashMatches_held a)

theorem Coherent.move {target : Address} {value : Word} (h : state.Coherent) :
    (state.move a target value).Coherent :=
  h.setBalance.setBalance

theorem Coherent.setSlot {key value : Word} (h : state.Coherent) :
    (state.setSlot a key value).Coherent := by
  have hmodified : (state.modify a id).Coherent :=
    h.modify (h.hashMatches_held a)
  apply hmodified.store
  simp [FlatState.modify, put]

/-- The nonzero rows of an address tell the value under every key. -/
theorem IsStorage.slot_eq {left right : FlatState} {rows : List (Word × Word)}
    (hleft : left.IsStorage a rows) (hright : right.IsStorage a rows) :
    left.slot a = right.slot a := by
  funext key
  by_cases hzero : left.slot a key = 0
  · by_contra hne
    have hrow : (key, right.slot a key) ∈ rows :=
      (hright.mem_iff key _).2 ⟨fun h => hne (hzero.trans h.symm), rfl⟩
    exact hne ((hleft.mem_iff key _).1 hrow).2
  · have hrow : (key, left.slot a key) ∈ rows :=
      (hleft.mem_iff key _).2 ⟨hzero, rfl⟩
    exact ((hright.mem_iff key _).1 hrow).2.symm

end FlatState

/-! ## Histories -/

/-- Whether the digest of an account that an operation brings in is that of its
code. -/
def Operation.Matches : Operation → Prop
  | .install _ account => account.HashMatches
  | _ => True

/-- Whether an operation neither opens nor closes a snapshot. -/
def Operation.SparesSnapshots : Operation → Prop
  | .openSnapshot | .commit _ | .rollback _ => False
  | _ => True

namespace StateStack

variable {stack : StateStack}

/-- The current state and those of all open snapshots are coherent. -/
def Coherent (stack : StateStack) : Prop :=
  ∀ state ∈ stack.levels, state.Coherent

theorem Coherent.top (h : stack.Coherent) : stack.top.Coherent :=
  h _ List.mem_cons_self

theorem Coherent.change {f : FlatState → FlatState} (h : stack.Coherent)
    (hf : (f stack.top).Coherent) : (stack.change f).Coherent :=
  List.forall_mem_cons.2 ⟨hf, (List.forall_mem_cons.1 h).2⟩

theorem Coherent.close {depth : Nat} {keep : FlatState → FlatState → FlatState}
    (hkeep : ∀ top beneath, keep top beneath = top ∨ keep top beneath = beneath)
    (h : stack.Coherent) :
    (outcomeOf (StateStack.close depth keep stack)).2.Coherent :=
  fun state hstate => h state (mem_levels_of_close hkeep hstate)

theorem Coherent.perform {operation : Operation} (hmatches : operation.Matches)
    (h : stack.Coherent) :
    (outcomeOf (StateStack.perform operation stack)).2.Coherent := by
  cases operation with
  | hasAccount | balance | nonce | code | codeHash | slot | isEmpty | depth =>
    exact h
  | createAccount a => exact h.change h.top.create
  | deleteAccount a => exact h.change h.top.delete
  | credit a amount => exact h.change h.top.setBalance
  | debit a amount =>
    rw [StateStack.perform]
    dsimp only
    split
    · exact h
    · exact h.change h.top.setBalance
  | bumpNonce a =>
    rw [StateStack.perform]
    dsimp only
    split
    · exact h.change h.top.setNonce
    · exact h
  | setCode a code =>
    exact h.change (h.top.modify (Account.hashMatches_withCode ..))
  | setSlot a key value => exact h.change h.top.setSlot
  | install a account => exact h.change (h.top.install hmatches)
  | transfer source target value =>
    rw [StateStack.perform]
    dsimp only
    split
    · exact h
    split
    · exact h
    · exact h.change h.top.move
  | openSnapshot => exact List.forall_mem_cons.2 ⟨h.top, h⟩
  | commit depth => exact h.close fun _ _ => .inl rfl
  | rollback depth => exact h.close fun _ _ => .inr rfl

/-- What an operation leaves on top depends on the topmost state alone, unless
the operation is about snapshots. -/
theorem top_perform_congr {operation : Operation}
    (hspares : operation.SparesSnapshots) {left right : StateStack}
    (h : left.top = right.top) :
    (outcomeOf (perform operation left)).2.top =
      (outcomeOf (perform operation right)).2.top := by
  rcases left with ⟨top, below⟩
  rcases right with ⟨_, below'⟩
  obtain rfl : top = _ := h
  cases operation with
  | hasAccount | createAccount | deleteAccount | balance | credit | nonce | code
  | setCode | codeHash | slot | setSlot | install | isEmpty | depth => rfl
  | debit a amount =>
    simp only [perform]
    split <;> rfl
  | bumpNonce a =>
    simp only [perform]
    split <;> rfl
  | transfer source target value =>
    simp only [perform]
    split
    · rfl
    · split <;> rfl
  | openSnapshot | commit | rollback => exact hspares.elim

end StateStack

namespace LayeredLedger

/-- The ledger that a list of operations leaves. -/
def following (ledger : LayeredLedger) (operations : List Operation) :
    LayeredLedger :=
  (serve perform ledger operations).2

theorem following_concat (ledger : LayeredLedger) (operations : List Operation)
    (operation : Operation) :
    ledger.following (operations ++ [operation]) =
      (outcomeOf (perform operation (ledger.following operations))).2 :=
  congrArg Prod.snd (serve_concat perform ledger operations operation)

/-- One operation more is one operation more on the stack of states. -/
theorem states_following_concat (ledger : LayeredLedger)
    (operations : List Operation) (operation : Operation) :
    (ledger.following (operations ++ [operation])).states =
      (outcomeOf (StateStack.perform operation
        (ledger.following operations).states)).2 := by
  rw [following_concat, ← mapState_perform, outcomeOf_mapState]

theorem coherent_of_serves {history : List Operation}
    {answers : List (Except LedgerError Answer)} {ledger : LayeredLedger}
    (h : Serves history answers ledger)
    (hmatches : ∀ operation ∈ history, operation.Matches) :
    ledger.states.Coherent := by
  induction h with
  | nil =>
    rw [states_empty]
    exact List.forall_mem_singleton.2 FlatState.coherent_empty
  | @concat _ _ ledger operation result _ hresult ih =>
    obtain ⟨hhistory, hlast⟩ := List.forall_mem_append.1 hmatches
    have hperformed := (ih hhistory).perform (List.forall_mem_singleton.1 hlast)
    rw [← hresult.mapState_eq, outcomeOf_mapState] at hperformed
    exact hperformed

theorem coherent_following {ledger : LayeredLedger} (h : ledger.states.Coherent)
    {operations : List Operation}
    (hmatches : ∀ operation ∈ operations, operation.Matches) :
    (ledger.following operations).states.Coherent := by
  induction operations using List.reverseRecOn with
  | nil => exact h
  | append_singleton operations operation ih =>
    obtain ⟨hbefore, hlast⟩ := List.forall_mem_append.1 hmatches
    rw [states_following_concat]
    exact (ih hbefore).perform (List.forall_mem_singleton.1 hlast)

/-- Ledgers that show the same state still do so after the same operations, if
these leave snapshots alone. -/
theorem top_following {left right : LayeredLedger}
    (h : left.states.top = right.states.top) {operations : List Operation}
    (hspares : ∀ operation ∈ operations, operation.SparesSnapshots) :
    (left.following operations).states.top =
      (right.following operations).states.top := by
  induction operations using List.reverseRecOn with
  | nil => exact h
  | append_singleton operations operation ih =>
    obtain ⟨hbefore, hlast⟩ := List.forall_mem_append.1 hspares
    rw [states_following_concat, states_following_concat]
    exact StateStack.top_perform_congr (List.forall_mem_singleton.1 hlast)
      (ih hbefore)

/-! ## What a dump tells -/

/-- Nothing that can be read of an account or its storage tells two ledgers
apart. -/
structure ReadsAgree (left right : LayeredLedger) : Prop where
  hasAccount : ∀ a, Ledger.hasAccount left a = Ledger.hasAccount right a
  balance : ∀ a, Ledger.balance left a = Ledger.balance right a
  nonce : ∀ a, Ledger.nonce left a = Ledger.nonce right a
  code : ∀ a, Ledger.code left a = Ledger.code right a
  codeHash : ∀ a, Ledger.codeHash left a = Ledger.codeHash right a
  slot : ∀ a key, Ledger.slot left a key = Ledger.slot right a key
  isEmpty : ∀ a, Ledger.isEmpty left a = Ledger.isEmpty right a

theorem readsAgree_of_top {left right : LayeredLedger}
    (h : left.states.top = right.states.top) :
    ReadsAgree left right := by
  have haccount : ∀ a, left.account a = right.account a :=
    account_eq_of_top (by rw [h])
  have hslot : ∀ a key, left.slot a key = right.slot a key :=
    slot_eq_of_top (by rw [h])
  constructor
  · simp [Ledger.hasAccount, haccount]
  · simp [Ledger.balance, haccount]
  · simp [Ledger.nonce, haccount]
  · simp [Ledger.code, haccount]
  · simp [Ledger.codeHash, haccount]
  · simp [Ledger.slot, hslot]
  · simp [isEmpty_eq, h]

theorem dump_eq_of_top {left right : LayeredLedger}
    (h : left.states.top = right.states.top) :
    left.dump = right.dump := by
  have hdump : right.states.top.IsDump left.dump := h ▸ left.isDump_dump
  exact hdump.unique right.isDump_dump

/-- An account that one dump lists is the same in every coherent ledger with
that dump, and so is its storage. -/
theorem account_of_dump_eq {left right : LayeredLedger}
    (hleft : left.states.top.Coherent) (hright : right.states.top.Coherent)
    (h : left.dump = right.dump) {a : Address} {account : Account}
    (haccount : left.account a = some account) :
    right.account a = some account ∧ left.slot a = right.slot a := by
  have hrows := left.isStorage_storage a
  have hentry : entryOf a account (left.storage a).toList ∈ left.dump :=
    (left.isDump_dump.mem_iff _).2 ⟨account, haccount, rfl, rfl, rfl, hrows⟩
  rw [h, right.isDump_dump.mem_iff] at hentry
  obtain ⟨other, hother, hbalance, hnonce, hcode, hstorage⟩ := hentry
  -- Only the digest is not in the dump, and the code determines it.
  have hhash : account.codeHash = other.codeHash := by
    have hmatches := hright.hashMatches a other hother
    rw [Account.HashMatches, ← hcode] at hmatches
    rw [hmatches]
    exact hleft.hashMatches a account haccount
  have hsame : account = other := by
    cases account
    cases other
    simp_all [entryOf]
  rw [hsame]
  exact ⟨hother, hrows.slot_eq hstorage⟩

/-- Coherent ledgers with the same dump show the same state. -/
theorem top_eq_of_dump_eq {left right : LayeredLedger}
    (hleft : left.states.top.Coherent) (hright : right.states.top.Coherent)
    (h : left.dump = right.dump) :
    left.states.top = right.states.top := by
  have hboth : ∀ a, left.account a = right.account a ∧
      left.slot a = right.slot a := by
    intro a
    cases haccount : left.account a with
    | some account =>
      obtain ⟨hother, hslot⟩ := account_of_dump_eq hleft hright h haccount
      exact ⟨hother.symm, hslot⟩
    | none =>
      cases hother : right.account a with
      | some other =>
        have hback := (account_of_dump_eq hright hleft h.symm hother).1
        rw [haccount] at hback
        cases hback
      | none =>
        refine ⟨rfl, ?_⟩
        funext key
        calc
          left.slot a key = 0 := hleft.slot_eq_zero a key haccount
          _ = right.slot a key := (hright.slot_eq_zero a key hother).symm
  apply FlatState.ext
  · funext a
    exact (hboth a).1
  · funext a
    exact (hboth a).2

/-- What a ledger shows is coherent, in the terms of what can be read. -/
structure Coherent (ledger : LayeredLedger) : Prop where
  slot : ∀ a key, Ledger.hasAccount ledger a = .ok false →
    Ledger.slot ledger a key = .ok 0
  codeHash : ∀ a code, Ledger.code ledger a = .ok code →
    Ledger.codeHash ledger a =
      .ok (if code.isEmpty then Keccak.emptyHash else Keccak.hash code)

theorem coherent_of_top {ledger : LayeredLedger}
    (h : ledger.states.top.Coherent) :
    ledger.Coherent where
  slot a key habsent := by
    have hnone : ledger.account a = none := by
      simpa [Ledger.hasAccount] using habsent
    exact congrArg Except.ok (h.slot_eq_zero a key hnone)
  codeHash a code hcode := by
    obtain rfl : ((ledger.account a).getD {}).code = code := by
      simpa [Ledger.code] using hcode
    exact congrArg Except.ok (h.hashMatches_held a)

/-- Take any ledger that a history of operations leaves.  Where it has no
account it has no storage and every digest is that of the code, now and after
any rollbacks.  Any other such ledger with the same dump gives the same answer
to everything that can be read, and it and its dump stay alike under all further
operations that leave snapshots alone. -/
theorem dump_tells_all {history : List Operation}
    {answers : List (Except LedgerError Answer)} {ledger : LayeredLedger}
    (hserves : Serves history answers ledger)
    (hmatches : ∀ operation ∈ history, operation.Matches) :
    (∀ depths : List Nat, (ledger.following (depths.map .rollback)).Coherent) ∧
    ∀ history' answers' other, Serves history' answers' other →
      (∀ operation ∈ history', operation.Matches) → ledger.dump = other.dump →
      ReadsAgree ledger other ∧
      ∀ further : List Operation,
        (∀ operation ∈ further, operation.SparesSnapshots) →
        (ledger.following further).dump = (other.following further).dump ∧
        ReadsAgree (ledger.following further) (other.following further) := by
  have hcoherent := coherent_of_serves hserves hmatches
  constructor
  · intro depths
    apply coherent_of_top
    apply (coherent_following hcoherent ?_).top
    intro operation hoperation
    obtain ⟨depth, _, rfl⟩ := List.mem_map.1 hoperation
    trivial
  · intro history' answers' other hserves' hmatches' hdump
    have hcoherent' := coherent_of_serves hserves' hmatches'
    have htop := top_eq_of_dump_eq hcoherent.top hcoherent'.top hdump
    refine ⟨readsAgree_of_top htop, ?_⟩
    intro further hspares
    have hfurther := top_following htop hspares
    exact ⟨dump_eq_of_top hfurther, readsAgree_of_top hfurther⟩

/-- A row written and zeroed again in the base, and an account installed in an
open snapshot over storage that it hides: layered differently, dumped alike. -/
theorem dump_tells_all_of_zeroed_row :
    let account := ({ balance := 5 } : Account).withCode #[0x33, 0xff]
    let zeroed : List Operation := [.install 1 account, .setSlot 1 2 3,
      .setSlot 1 2 0]
    let hidden : List Operation := [.setSlot 1 2 3, .openSnapshot,
      .install 1 account]
    let left := (serve perform {} zeroed).2
    let right := (serve perform {} hidden).2
    left.depth ≠ right.depth ∧ left.dump = right.dump ∧
      (right.following [.rollback 1]).Coherent ∧ ReadsAgree left right := by
  intro account zeroed hidden left right
  have hdump : left.dump = right.dump := by decide +kernel
  have hzeroed : ∀ operation ∈ zeroed, operation.Matches := by
    simp [zeroed, account, Operation.Matches, Account.hashMatches_withCode]
  have hhidden : ∀ operation ∈ hidden, operation.Matches := by
    simp [hidden, account, Operation.Matches, Account.hashMatches_withCode]
  have hleft := dump_tells_all (serves_serve zeroed) hzeroed
  have hright := dump_tells_all (serves_serve hidden) hhidden
  refine ⟨by decide +kernel, hdump, hright.1 [1], ?_⟩
  exact (hleft.2 hidden _ right (serves_serve hidden) hhidden hdump).1

end LayeredLedger

end ContractMachine
