import ContractMachine.Proofs.Ledger.Balances
import ContractMachine.Proofs.Ledger.Reads
import ContractMachine.Proofs.Prestate.Declarations
import ContractMachine.Proofs.Text.Readers

/-!
# Prestates install what they declare

Accounts are installed through the requests that the machine itself makes: an
account starts afresh and keeps its balance, value is added, the nonce is
counted up, code is saved and rows are stored one after the other.  What this
comes to does not depend on what was at the address before, its balance apart.

Entries with different addresses do not see each other, so the order in which
they are installed does not matter.
-/

namespace ContractMachine

open Std (TreeMap)
open Actions LayeredLedger

/-! ## States -/

namespace FlatState

variable {state : FlatState} {a : Address} {account : Account}

theorem put_of_account (h : state.account a = some account) :
    state.put a (some account) = state := by
  rw [put, ← h, Function.update_eq_self]

theorem put_put (state : FlatState) (a : Address)
    (first second : Option Account) :
    (state.put a first).put a second = state.put a second := by
  simp [put]

theorem install_put (state : FlatState) (a : Address) (first second : Account) :
    (state.install a first).put a (some second) = state.install a second :=
  put_put (state.clear a) a _ _

theorem account_install (state : FlatState) (a : Address) (account : Account) :
    (state.install a account).account a = some account := by
  simp [install, put]

theorem modify_install (state : FlatState) (a : Address) (account : Account)
    (f : Account → Account) :
    (state.install a account).modify a f = state.install a (f account) := by
  rw [modify, held, account_install, Option.getD_some, install_put]

/-- Stores rows at an address, one after the other. -/
def storeRows (state : FlatState) (a : Address) (rows : List (Word × Word)) :
    FlatState :=
  rows.foldl (fun state row => state.setSlot a row.1 row.2) state

/-- Rows that are stored for an account leave a table of which they are the
latest entries. -/
theorem storeRows_eq {table : Rows} (haccount : state.account a = some account)
    (htable : Tabulates state a table) (rows : List (Word × Word)) :
    state.storeRows a rows = { state with
      slot := Function.update state.slot a fun key =>
        (insertAll table rows)[key]?.getD 0 } := by
  -- The table holds what has been stored so far, so each row goes into both.
  induction rows generalizing state table with
  | nil =>
    have hslot : (fun key => (insertAll table [])[key]?.getD 0) =
        state.slot a := funext htable
    rw [hslot, Function.update_eq_self]
    rfl
  | cons row rows ih =>
    have hstored : state.setSlot a row.1 row.2 = state.store a row.1 row.2 := by
      rw [setSlot, modify_id_of_account haccount]
    have htabulates : Tabulates (state.store a row.1 row.2) a
        (table.insert row.1 row.2) := by
      intro key
      by_cases hkey : row.1 = key
      · simp [store, hkey]
      · rw [TreeMap.getElem?_insert, if_neg (by simpa using hkey), htable key]
        simp [store, Ne.symm hkey]
    calc
      state.storeRows a (row :: rows) =
        (state.store a row.1 row.2).storeRows a rows := by
        rw [← hstored]
        rfl
      _ = { state.store a row.1 row.2 with
          slot := Function.update (state.store a row.1 row.2).slot a
            fun key =>
              (insertAll (table.insert row.1 row.2) rows)[key]?.getD 0 } :=
        ih haccount htabulates
      _ = _ := by
        simp only [store, Function.update_idem]
        rfl

end FlatState

theorem Keccak.hash_empty : hash #[] = emptyHash := by
  decide +kernel

/-- The digest that is kept beside no code is that of no code. -/
theorem Account.codeHash_withCode (account : Account) (code : Bytes) :
    (account.withCode code).codeHash = Keccak.hash code := by
  by_cases hcode : code = #[]
  · rw [hcode, Keccak.hash_empty]
    rfl
  · exact if_neg (by simpa using hcode)

namespace Declaration

variable {d e : Declaration} {state : FlatState}

/-- The account that is declared, on top of a balance. -/
def account (d : Declaration) (held : Word) : Account :=
  Account.withCode
    { balance := held.saturatingAdd d.balance, nonce := d.nonce } d.code

/-- The state with a declared account in it. -/
def onto (d : Declaration) (state : FlatState) : FlatState where
  account := Function.update state.account d.address
    (some (d.account (state.held d.address).balance))
  slot := Function.update state.slot d.address fun key => d.rows[key]?.getD 0

/-- Storing the declared rows for the declared account completes it. -/
theorem storeRows_install (d : Declaration) (state : FlatState) :
    (state.install d.address
      (d.account (state.held d.address).balance)).storeRows d.address
      d.rows.toList = d.onto state := by
  have htable : Tabulates
      (state.install d.address (d.account (state.held d.address).balance))
      d.address ∅ := by
    intro key
    simp [FlatState.install, FlatState.put, FlatState.clear]
  have hrows : (fun key : Word => (insertAll ∅ d.rows.toList)[key]?.getD 0) =
      fun key => d.rows[key]?.getD 0 := by
    funext key
    rw [getElem?_insertAll_of_perm (List.Perm.refl _) ∅ key]
    simp
  rw [FlatState.storeRows_eq (FlatState.account_install ..) htable, hrows]
  simp [onto, FlatState.install, FlatState.put, FlatState.clear]

theorem onto_comm (h : d.address ≠ e.address) (state : FlatState) :
    e.onto (d.onto state) = d.onto (e.onto state) := by
  have hd : (e.onto state).held d.address = state.held d.address := by
    simp [onto, FlatState.held, h]
  have he : (d.onto state).held e.address = state.held e.address := by
    simp [onto, FlatState.held, h.symm]
  apply FlatState.ext
  · simp only [onto] at hd he ⊢
    rw [hd, he, Function.update_comm h]
  · exact Function.update_comm h _ _ _

/-- The state with declared accounts in it, put there one after the other. -/
def allOnto (declarations : List Declaration) (state : FlatState) : FlatState :=
  declarations.foldl (fun state d => d.onto state) state

theorem allOnto_of_perm {first second : List Declaration}
    (hperm : first.Perm second)
    (hapart : first.Pairwise fun d e => d.address ≠ e.address)
    (state : FlatState) :
    allOnto first state = allOnto second state := by
  have hsymm : Std.Symm fun d e : Declaration => d.address ≠ e.address :=
    ⟨fun _ _ h => h.symm⟩
  apply hperm.foldl_eq'
  intro d hd e he reached
  by_cases hsame : d = e
  · rw [hsame]
  · exact onto_comm (hapart.forall hd he hsame) reached

/-- An address that is not declared keeps what it holds. -/
theorem allOnto_of_forall_ne {declarations : List Declaration} {a : Address}
    (h : ∀ d ∈ declarations, d.address ≠ a) (state : FlatState) :
    (allOnto declarations state).account a = state.account a ∧
      (allOnto declarations state).slot a = state.slot a := by
  induction declarations generalizing state with
  | nil => exact ⟨rfl, rfl⟩
  | cons d rest ih =>
    obtain ⟨hne, hrest⟩ := List.forall_mem_cons.1 h
    obtain ⟨haccount, hslot⟩ := ih hrest (d.onto state)
    refine ⟨haccount.trans ?_, hslot.trans ?_⟩
    · exact Function.update_of_ne hne.symm _ _
    · exact Function.update_of_ne hne.symm _ _

/-- A declared account is there in the end, on top of the balance that was there
before all. -/
theorem allOnto_of_mem {declarations : List Declaration}
    (hapart : declarations.Pairwise fun d e => d.address ≠ e.address)
    (hd : d ∈ declarations) (state : FlatState) :
    (allOnto declarations state).account d.address =
        some (d.account (state.held d.address).balance) ∧
      (allOnto declarations state).slot d.address = fun key =>
        d.rows[key]?.getD 0 := by
  induction declarations generalizing state with
  | nil => cases hd
  | cons first rest ih =>
    obtain ⟨hfirst, hrest⟩ := List.pairwise_cons.1 hapart
    obtain rfl | hd := List.mem_cons.1 hd
    · obtain ⟨haccount, hslot⟩ :=
        allOnto_of_forall_ne (fun e he => (hfirst e he).symm) (d.onto state)
      refine ⟨haccount.trans ?_, hslot.trans ?_⟩
      · exact Function.update_self ..
      · exact Function.update_self ..
    · have hheld : (first.onto state).held d.address =
          state.held d.address := by
        simp [onto, FlatState.held, (hfirst d hd).symm]
      have hlater := ih hrest hd (first.onto state)
      rw [hheld] at hlater
      exact hlater

end Declaration

/-! ## Actions -/

namespace Prestate

variable {α : Type} {ledger after : LayeredLedger} {a : Address}
  {entry : String × Allocation} {d : Declaration}

theorem reading_of_ok {result : Except Error α} {value : α}
    (h : result = .ok value) (ledger : LayeredLedger) :
    reading result ledger = .ok value ledger := by
  rw [h]
  rfl

theorem eq_ok_of_reading {result : Except Error α} {value : α}
    (h : reading result ledger = .ok value after) : result = .ok value := by
  cases result with
  | error cause => cases h
  | ok read =>
    cases h
    rfl

theorem tell_of_ok {action : EStateM LedgerError LayeredLedger α} {value : α}
    (h : action ledger = .ok value after) :
    tell action ledger = .ok value after := by
  rw [tell, h]

/-- A nonce can be counted up as long as the sum is a count. -/
theorem exists_raiseNonce {account : Account}
    (haccount : ledger.account a = some account) {n : Nat}
    (hn : account.nonce + n ≤ Saturating.limit) :
    ∃ after, raiseNonce a n ledger = .ok () after ∧
      after.states = ledger.states.change
      (·.put a (some { account with nonce := account.nonce + n })) := by
  induction n generalizing ledger account with
  | zero =>
    refine ⟨ledger, rfl, StateStack.ext ?_ rfl⟩
    exact (FlatState.put_of_account haccount).symm
  | succ n ih =>
    have hheld : ledger.states.top.held a = account := by
      rw [held_top_states, haccount, Option.getD_some]
    have hlt : (ledger.states.top.held a).nonce < Saturating.limit := by
      rw [hheld]
      omega
    have hbump := bumpNonce_of_lt hlt
    rw [hheld] at hbump
    have hstates :=
      states_modifyAccount ledger a ({ · with nonce := account.nonce + 1 })
    have hcounted :
        (ledger.modifyAccount a ({ · with nonce := account.nonce + 1 })).account
          a = some { account with nonce := account.nonce + 1 } := by
      rw [← account_top_states, hstates]
      simp [StateStack.change, FlatState.modify, FlatState.put, haccount]
    have hrest : account.nonce + 1 + n ≤ Saturating.limit := by omega
    obtain ⟨after, hraise, hafter⟩ := ih hcounted hrest
    refine ⟨after, (bind_of_ok (tell_of_ok hbump)).trans hraise, ?_⟩
    rw [hafter, hstates, Nat.add_right_comm, Nat.add_assoc]
    exact StateStack.ext (FlatState.put_put ..) rfl

/-- Stores rows as requests. -/
theorem exists_storeRows (a : Address) (rows : List (Word × Word))
    (ledger : LayeredLedger) :
    ∃ after, (rows.forM fun (key, value) => tell (Ledger.setSlot a key value))
      ledger = .ok () after ∧
        after.states = ledger.states.change (·.storeRows a rows) := by
  induction rows generalizing ledger with
  | nil => exact ⟨ledger, rfl, rfl⟩
  | cons row rows ih =>
    obtain ⟨after, hrest, hstates⟩ := ih (ledger.setSlot a row.1 row.2)
    rw [states_setSlot] at hstates
    exact ⟨after, hrest, hstates⟩

/-- A fresh account holds the balance from before and what is added to it. -/
theorem exists_fund (a : Address) (amount : Word) (ledger : LayeredLedger) :
    ∃ total funded, tell (Ledger.credit a amount) (ledger.create a) =
      .ok total funded ∧
      funded.states = ledger.states.change fun state =>
        state.install a
          { balance := (state.held a).balance.saturatingAdd amount } := by
  refine ⟨_, _, rfl, ?_⟩
  rw [states_modifyAccount, states_create]
  refine StateStack.ext ?_ rfl
  have hcreated : (ledger.create a).account a =
      some { balance := (ledger.states.top.held a).balance } := by
    rw [← account_top_states, states_create]
    exact FlatState.account_install ..
  simp only [StateStack.change, FlatState.create, FlatState.modify_install,
    hcreated, Option.getD_some]

/-- Saves code, but not if there is none. -/
def saveCode (a : Address) (code : Bytes) : EStateM Error LayeredLedger Unit :=
  if !code.isEmpty then tell (Ledger.setCode a code) else pure ()

/-- A fresh account has no code, so it makes no difference that none is not
saved. -/
theorem exists_saveCode {balance : Word} {nonce : Nat}
    (haccount : ledger.account a = some { balance, nonce }) (code : Bytes) :
    ∃ after, saveCode a code ledger = .ok () after ∧
      after.states = ledger.states.change
        (·.put a (some (Account.withCode { balance, nonce } code))) := by
  by_cases hcode : code = #[]
  · subst hcode
    refine ⟨ledger, rfl, StateStack.ext ?_ rfl⟩
    exact (FlatState.put_of_account haccount).symm
  · have hsaves : (!code.isEmpty) = true := by simpa using hcode
    refine ⟨ledger.modifyAccount a (·.withCode code), ?_, ?_⟩
    · rw [saveCode, if_pos hsaves]
      rfl
    · rw [states_modifyAccount]
      simp only [StateStack.change, FlatState.modify, held_top_states, haccount,
        Option.getD_some]

theorem install_eq (text : String) (allocation : Allocation) :
    install text allocation = (do
      let address ← reading (readAddress text)
      tell (Ledger.createAccount address)
      let balance ← reading (readBalance allocation.balance)
      let _ ← tell (Ledger.credit address balance)
      raiseNonce address allocation.nonce
      let code ← reading (readCode allocation.code)
      saveCode address code
      let rows ← reading (readStorage allocation.storage)
      rows.toList.forM fun (key, value) =>
        tell (Ledger.setSlot address key value)) := by
  rw [install]
  refine bind_congr fun address => bind_congr fun _ => bind_congr fun balance =>
    bind_congr fun _ => bind_congr fun _ => bind_congr fun code => ?_
  rw [saveCode]
  split <;> rfl

/-- An entry that can be read is installed. -/
theorem exists_install (h : Declares entry d)
    (hnonce : d.nonce ≤ Saturating.limit) (ledger : LayeredLedger) :
    ∃ after, install entry.1 entry.2 ledger = .ok () after ∧
      after.states = ledger.states.change d.onto := by
  have hcreate : tell (Ledger.createAccount d.address) ledger =
      .ok () (ledger.create d.address) := rfl
  obtain ⟨total, funded, hcredit, hfunded⟩ :=
    exists_fund d.address d.balance ledger
  have haccount : funded.account d.address = some {
      balance := (ledger.states.top.held d.address).balance.saturatingAdd
        d.balance } := by
    rw [← account_top_states, hfunded]
    exact FlatState.account_install ..
  obtain ⟨raised, hraise, hraised⟩ :=
    exists_raiseNonce haccount ((Nat.zero_add d.nonce).trans_le hnonce)
  rw [hfunded] at hraised
  have hcounted : raised.account d.address = some {
      balance := (ledger.states.top.held d.address).balance.saturatingAdd
        d.balance
      nonce := d.nonce } := by
    rw [← account_top_states, hraised]
    simp [StateStack.change, FlatState.put]
  obtain ⟨saved, hsave, hsaved⟩ := exists_saveCode hcounted d.code
  obtain ⟨after, hstore, hafter⟩ :=
    exists_storeRows d.address d.rows.toList saved
  refine ⟨after, ?_, ?_⟩
  · rw [install_eq, bind_of_ok (reading_of_ok h.address ledger),
      bind_of_ok hcreate, bind_of_ok (reading_of_ok h.balance _),
      bind_of_ok hcredit, ← h.nonce, bind_of_ok hraise,
      bind_of_ok (reading_of_ok h.code _), bind_of_ok hsave,
      bind_of_ok (reading_of_ok h.rows _)]
    exact hstore
  · rw [hafter, hsaved, hraised]
    refine StateStack.ext ?_ rfl
    simp only [StateStack.change, FlatState.install_put]
    exact d.storeRows_install _

/-- An entry that is installed can be read. -/
theorem exists_declares_of_install
    (h : install entry.1 entry.2 ledger = .ok () after) :
    ∃ d, Declares entry d := by
  rw [install_eq] at h
  obtain ⟨address, _, haddress, h⟩ := bind_eq_ok_iff.1 h
  obtain ⟨_, _, _, h⟩ := bind_eq_ok_iff.1 h
  obtain ⟨balance, _, hbalance, h⟩ := bind_eq_ok_iff.1 h
  obtain ⟨_, _, _, h⟩ := bind_eq_ok_iff.1 h
  obtain ⟨_, _, _, h⟩ := bind_eq_ok_iff.1 h
  obtain ⟨code, _, hcode, h⟩ := bind_eq_ok_iff.1 h
  obtain ⟨_, _, _, h⟩ := bind_eq_ok_iff.1 h
  obtain ⟨rows, _, hrows, _⟩ := bind_eq_ok_iff.1 h
  exact ⟨⟨address, balance, entry.2.nonce, code, rows⟩,
    eq_ok_of_reading haddress, eq_ok_of_reading hbalance, rfl,
    eq_ok_of_reading hcode, eq_ok_of_reading hrows⟩

/-- Writes accounts in some order. -/
def installAll (order : List (String × Allocation)) :
    EStateM Error LayeredLedger Unit :=
  order.forM fun (address, allocation) => install address allocation

theorem apply_eq (prestate : Prestate) :
    apply prestate = installAll prestate.allocations.toList := rfl

variable {order : List (String × Allocation)}

theorem installAll_cons (ledger : LayeredLedger) :
    installAll (entry :: order) ledger =
      (do install entry.1 entry.2; installAll order) ledger := rfl

/-- Entries that can all be read are installed one after the other. -/
theorem exists_installAll
    (hnonce : ∀ entry ∈ order, entry.2.nonce ≤ Saturating.limit)
    (h : ∀ entry ∈ order, Readable entry) (ledger : LayeredLedger) :
    ∃ after, installAll order ledger = .ok () after ∧
      after.states = ledger.states.change
        (Declaration.allOnto (order.filterMap declaration?)) := by
  induction order generalizing ledger with
  | nil => exact ⟨ledger, rfl, rfl⟩
  | cons entry order ih =>
    obtain ⟨hfirst, hrest⟩ := List.forall_mem_cons.1 h
    obtain ⟨hcount, hcounts⟩ := List.forall_mem_cons.1 hnonce
    obtain ⟨d, hd⟩ := readable_iff.1 hfirst
    obtain ⟨installed, hinstall, hinstalled⟩ :=
      exists_install hd (hd.nonce.trans_le hcount) ledger
    obtain ⟨after, hafter, hstates⟩ := ih hcounts hrest installed
    refine ⟨after, ?_, ?_⟩
    · rw [installAll_cons, bind_of_ok hinstall]
      exact hafter
    · rw [hstates, hinstalled,
        List.filterMap_cons_some (declaration?_eq_some_iff.2 hd)]
      rfl

theorem readable_of_installAll (h : installAll order ledger = .ok () after) :
    ∀ entry ∈ order, Readable entry := by
  induction order generalizing ledger with
  | nil => exact nofun
  | cons entry order ih =>
    rw [installAll_cons] at h
    obtain ⟨_, _, hfirst, hrest⟩ := bind_eq_ok_iff.1 h
    exact List.forall_mem_cons.2
      ⟨readable_iff.2 (exists_declares_of_install hfirst), ih hrest⟩

theorem exists_installAll_iff
    (hnonce : ∀ entry ∈ order, entry.2.nonce ≤ Saturating.limit)
    (ledger : LayeredLedger) :
    (∃ after, installAll order ledger = .ok () after) ↔ ∀ entry ∈ order,
      Readable entry := by
  constructor
  · rintro ⟨after, h⟩
    exact readable_of_installAll h
  · intro h
    obtain ⟨after, hafter, _⟩ := exists_installAll hnonce h ledger
    exact ⟨after, hafter⟩

theorem states_of_installAll
    (hnonce : ∀ entry ∈ order, entry.2.nonce ≤ Saturating.limit)
    (h : installAll order ledger = .ok () after) :
    after.states = ledger.states.change
      (Declaration.allOnto (order.filterMap declaration?)) := by
  obtain ⟨found, hfound, hstates⟩ :=
    exists_installAll hnonce (readable_of_installAll h) ledger
  obtain rfl : after = found := by simpa [h] using hfound
  exact hstates

/-! ## Reads -/

/-- What is to be seen of a listed account when its entry has been installed. -/
structure Installed (entry : String × Allocation) (a : Address)
    (before after : LayeredLedger) :
    Prop where
  hasAccount : Ledger.hasAccount after a = .ok true
  balance : ∃ held declared total, Ledger.balance before a = .ok held ∧
    readBalance entry.2.balance = .ok declared ∧
    Ledger.balance after a = .ok total ∧
    total.toNat = min (2 ^ 256 - 1) (held.toNat + declared.toNat)
  nonce : Ledger.nonce after a = .ok entry.2.nonce
  code : ∃ code, readCode entry.2.code = .ok code ∧
    WritesCode entry.2.code code ∧
    Ledger.code after a = .ok code ∧
    Ledger.codeHash after a = .ok (Keccak.hash code)
  storage : ∃ rows, readStorage entry.2.storage = .ok rows ∧
    (∀ key value, rows[key]? = some value ↔ LastRow entry.2.storage key value) ∧
    (∀ key, Ledger.slot after a key = .ok (rows[key]?.getD 0)) ∧
    (after.storage a).toList = (rows.filter fun _ value => value ≠ 0).toList

/-- Nothing that can be seen of an account has changed. -/
structure SameReadsAt (a : Address) (before after : LayeredLedger) : Prop where
  hasAccount : Ledger.hasAccount after a = Ledger.hasAccount before a
  balance : Ledger.balance after a = Ledger.balance before a
  nonce : Ledger.nonce after a = Ledger.nonce before a
  code : Ledger.code after a = Ledger.code before a
  codeHash : Ledger.codeHash after a = Ledger.codeHash before a
  isEmpty : Ledger.isEmpty after a = Ledger.isEmpty before a
  slot : ∀ key, Ledger.slot after a key = Ledger.slot before a key
  storage : (after.storage a).toList = (before.storage a).toList
  dump : ∀ entry, entry.address = a → (entry ∈ after.dump ↔ entry ∈ before.dump)

theorem installed_of_states (h : Declares entry d)
    (haccount : after.account d.address =
      some (d.account (ledger.states.top.held d.address).balance))
    (hslot : after.states.top.slot d.address = fun key => d.rows[key]?.getD 0) :
    Installed entry d.address ledger after where
  hasAccount := by simp [Ledger.hasAccount, haccount]
  balance := by
    refine ⟨_, d.balance,
      (d.account (ledger.states.top.held d.address).balance).balance, rfl,
      h.balance, by simp [Ledger.balance, haccount], ?_⟩
    rw [min_comm]
    exact Word.toNat_saturatingAdd_eq_min ..
  nonce := by simp [Ledger.nonce, haccount, Declaration.account,
    Account.withCode, h.nonce]
  code := by
    refine ⟨d.code, h.code, readCode_eq_ok_iff.1 h.code, ?_, ?_⟩
    · simp [Ledger.code, haccount, Declaration.account, Account.withCode]
    · simp [Ledger.codeHash, haccount, Declaration.account,
        Account.codeHash_withCode]
  storage := by
    refine ⟨d.rows, h.rows, fun key value => getElem?_of_readStorage h.rows,
      fun key => congrArg Except.ok (congrFun hslot key), ?_⟩
    have htabulates : Tabulates after.states.top d.address d.rows :=
      fun key => (congrFun hslot key).symm
    exact (after.isStorage_storage d.address).unique
      (isStorage_of_tabulates htabulates)

theorem sameReadsAt_of_states (haccount : after.account a = ledger.account a)
    (hslot : after.states.top.slot a = ledger.states.top.slot a) :
    SameReadsAt a ledger after := by
  have hstorage : ∀ rows,
      after.states.top.IsStorage a rows ↔
        ledger.states.top.IsStorage a rows := by
    intro rows
    constructor
    · exact fun hrows => ⟨hrows.ascending, by rw [← hslot]; exact hrows.mem_iff⟩
    · exact fun hrows => ⟨hrows.ascending, by rw [hslot]; exact hrows.mem_iff⟩
  constructor
  · simp [Ledger.hasAccount, haccount]
  · simp [Ledger.balance, haccount]
  · simp [Ledger.nonce, haccount]
  · simp [Ledger.code, haccount]
  · simp [Ledger.codeHash, haccount]
  · simp [isEmpty_eq, FlatState.isEmpty, haccount]
  · exact fun key => congrArg Except.ok (congrFun hslot key)
  · exact ((hstorage _).1 (after.isStorage_storage a)).unique
      (ledger.isStorage_storage a)
  · rintro entry rfl
    rw [after.isDump_dump.mem_iff, ledger.isDump_dump.mem_iff]
    simp only [account_top_states, haccount, hstorage]

theorem pairwise_declarations {prestate : Prestate}
    (hapart : ∀ text ∈ prestate.allocations, ∀ other ∈ prestate.allocations,
      ∀ address,
      readAddress text = .ok address → readAddress other = .ok address →
      text = other)
    (hperm : order.Perm prestate.allocations.toList) :
    (order.filterMap declaration?).Pairwise fun d e =>
      d.address ≠ e.address := by
  rw [(hperm.filterMap declaration?).pairwise_iff Ne.symm,
    List.pairwise_filterMap]
  refine (TreeMap.distinct_keys_toList (t := prestate.allocations)).imp_of_mem
    ?_
  intro entry other hentry hother hdistinct d hd e he hsame
  have haddress := (declaration?_eq_some_iff.1 hd).address
  rw [hsame] at haddress
  apply hdistinct
  rw [Std.compare_eq_iff_eq]
  exact hapart _ (mem_of_mem_toList hentry) _ (mem_of_mem_toList hother) _
    haddress
    (declaration?_eq_some_iff.1 he).address

/-- Applying a prestate installs the accounts that it declares and nothing else,
whatever the ledger held before.  Let no two of its addresses be the same, and
its nonces be counts.  It succeeds if and only if every text of every entry can
be read.  Then every listed account has the declared balance on top of the one
it had, up to the largest word, the declared nonce, and the declared code with
its digest; its storage is what is declared, the last text for a key being the
one that counts, and nothing is left of what was stored before.  Nothing changes
of any account that is not listed.  Whichever order the entries are taken in,
they can be installed or not, and the ledger shows the same in the end. -/
theorem prestate_installs_declared_accounts (prestate : Prestate)
    (ledger : LayeredLedger) (hnonce : ∀ entry ∈ prestate.allocations.toList,
      entry.2.nonce ≤ Saturating.limit)
    (hapart : ∀ text ∈ prestate.allocations, ∀ other ∈ prestate.allocations,
      ∀ address,
      readAddress text = .ok address → readAddress other = .ok address →
      text = other) :
    ((∃ after, apply prestate ledger = .ok () after) ↔
      ∀ entry ∈ prestate.allocations.toList, Readable entry) ∧
    (∀ after, apply prestate ledger = .ok () after →
      (∀ entry ∈ prestate.allocations.toList, ∃ a, readAddress entry.1 = .ok a ∧
        Installed entry a ledger after) ∧
      (∀ a, (∀ text ∈ prestate.allocations, readAddress text ≠ .ok a) →
        SameReadsAt a ledger after) ∧
      after.depth = ledger.depth) ∧
    ∀ order : List (String × Allocation),
      order.Perm prestate.allocations.toList →
      ((∃ other, installAll order ledger = .ok () other) ↔
        ∃ after, apply prestate ledger = .ok () after) ∧
      ∀ after other, apply prestate ledger = .ok () after →
        installAll order ledger = .ok () other → SameReads after other := by
  refine ⟨exists_installAll_iff hnonce ledger, ?_, ?_⟩
  · intro after h
    have hstates := states_of_installAll hnonce h
    refine ⟨?_, ?_, depth_eq_of_below (by rw [hstates]; rfl)⟩
    · intro entry hentry
      obtain ⟨d, hd⟩ := readable_iff.1 (readable_of_installAll h entry hentry)
      have hmem : d ∈ prestate.allocations.toList.filterMap declaration? :=
        List.mem_filterMap.2 ⟨entry, hentry, declaration?_eq_some_iff.2 hd⟩
      obtain ⟨haccount, hslot⟩ := Declaration.allOnto_of_mem
        (pairwise_declarations hapart (List.Perm.refl _)) hmem ledger.states.top
      refine ⟨d.address, hd.address, installed_of_states hd ?_ ?_⟩
      · rw [← account_top_states, hstates]
        exact haccount
      · rw [hstates]
        exact hslot
    · intro a hunlisted
      have hne : ∀ d ∈ prestate.allocations.toList.filterMap declaration?,
          d.address ≠ a := by
        rintro d hd rfl
        obtain ⟨entry, hentry, hdeclared⟩ := List.mem_filterMap.1 hd
        exact hunlisted entry.1 (mem_of_mem_toList hentry)
          (declaration?_eq_some_iff.1 hdeclared).address
      obtain ⟨haccount, hslot⟩ :=
        Declaration.allOnto_of_forall_ne hne ledger.states.top
      apply sameReadsAt_of_states
      · rw [← account_top_states, hstates]
        exact haccount
      · rw [hstates]
        exact hslot
  · intro order hperm
    have hcounts : ∀ entry ∈ order, entry.2.nonce ≤ Saturating.limit :=
      fun entry hentry => hnonce entry (hperm.mem_iff.1 hentry)
    constructor
    · rw [apply_eq, exists_installAll_iff hcounts, exists_installAll_iff hnonce]
      exact forall_congr' fun entry => imp_congr_left hperm.mem_iff
    · intro after other h hother
      apply sameReads_of_states_eq
      rw [states_of_installAll hcounts hother, states_of_installAll hnonce h]
      refine congrArg ledger.states.change (funext fun state => ?_)
      exact Declaration.allOnto_of_perm (hperm.filterMap declaration?)
        (pairwise_declarations hapart hperm) state

/-- An account with code and two texts for one key, on a ledger that holds a
balance and another row. -/
theorem listed_account_starts_afresh :
    let storage : TreeMap String String := .ofList [("0x03", "0x01"),
      ("0x0003", "0x02")]
    let allocation : Allocation :=
      { balance := "1000", nonce := 2, code := some " 0x60Ff", storage }
    let text := "0x00000000000000000000000000000000000000aa"
    let prestate : Prestate := { allocations := .ofList [(text, allocation)] }
    let held : LayeredLedger :=
      LayeredLedger.modifyAccount {} 0xaa ({ · with balance := 5 })
    ∃ after total, apply prestate (held.setSlot 0xaa 7 9) = .ok () after ∧
      Ledger.balance after 0xaa = .ok total ∧ total.toNat = 1005 ∧
      Ledger.nonce after 0xaa = .ok 2 ∧
      Ledger.code after 0xaa = .ok #[0x60, 0xff] ∧
      Ledger.slot after 0xaa 3 = .ok 1 ∧ Ledger.slot after 0xaa 7 = .ok 0 := by
  intro storage allocation text prestate held
  have hentries : prestate.allocations.toList = [(text, allocation)] := rfl
  have htexts : ∀ other ∈ prestate.allocations, other = text := by
    intro other hother
    have hkeys : prestate.allocations.keys = [text] := rfl
    rw [← TreeMap.mem_keys, hkeys] at hother
    exact List.mem_singleton.1 hother
  have haddress : readAddress text = .ok 0xaa := by cbv
  have hbalance : readBalance "1000" = .ok 1000 := by decide +kernel
  have hcode : readCode (some " 0x60Ff") = .ok #[0x60, 0xff] := by
    decide +kernel
  have hkeys : ∀ keyText ∈ storage, keyText = "0x0003" ∨ keyText = "0x03" := by
    intro keyText hkeyText
    have hlisted : storage.keys = ["0x0003", "0x03"] := by decide +kernel
    rw [← TreeMap.mem_keys, hlisted] at hkeyText
    simpa using hkeyText
  have hthree : readSlot "0x03" = .ok 3 := by decide +kernel
  have hlonger : readSlot "0x0003" = .ok 3 := by decide +kernel
  have hone : readSlot "0x01" = .ok 1 := by decide +kernel
  have htwo : readSlot "0x02" = .ok 2 := by decide +kernel
  have hreadable : ∀ entry ∈ prestate.allocations.toList, Readable entry := by
    rw [hentries, List.forall_mem_singleton]
    refine ⟨⟨_, haddress⟩, ⟨_, hbalance⟩, ⟨_, hcode⟩, ?_⟩
    have hrows : storage.toList = [("0x0003", "0x02"), ("0x03", "0x01")] := by
      decide +kernel
    change ∀ row ∈ storage.toList, ReadableRow row
    rw [hrows]
    exact List.forall_mem_cons.2 ⟨⟨⟨_, hlonger⟩, _, htwo⟩,
      List.forall_mem_singleton.2 ⟨⟨_, hthree⟩, _, hone⟩⟩
  have hlast : LastRow storage 3 1 := by
    refine ⟨"0x03", "0x01", by decide +kernel, hthree, hone, ?_⟩
    intro later hlater hlt
    obtain rfl | rfl := hkeys later hlater
    · exact absurd hlt (by decide)
    · exact absurd hlt (String.lt_irrefl _)
  have hnone : ∀ value, ¬ LastRow storage 7 value := by
    rintro value ⟨keyText, valueText, hfound, hkey, _⟩
    have hmem : keyText ∈ storage := by
      rw [TreeMap.mem_iff_isSome_getElem?, hfound]
      rfl
    obtain rfl | rfl := hkeys keyText hmem
    · simp [hlonger] at hkey
    · simp [hthree] at hkey
  obtain ⟨hok, hinstalled, _⟩ :=
    prestate_installs_declared_accounts prestate (held.setSlot 0xaa 7 9)
      (by rw [hentries]; decide)
      (fun first hfirst other hother _ _ _ =>
        (htexts first hfirst).trans (htexts other hother).symm)
  obtain ⟨after, hafter⟩ := hok.2 hreadable
  obtain ⟨a, ha, hseen⟩ := (hinstalled after hafter).1 (text, allocation)
    (by rw [hentries]; exact List.mem_singleton_self _)
  cases haddress.symm.trans ha
  obtain ⟨five, declared, total, hfive, hdeclared, htotal, hsum⟩ :=
    hseen.balance
  obtain ⟨installed, hwritten, _, hinstalled, _⟩ := hseen.code
  obtain ⟨rows, _, hrows, hslot, _⟩ := hseen.storage
  refine ⟨after, total, hafter, htotal, ?_, hseen.nonce, ?_, ?_, ?_⟩
  · cases hbalance.symm.trans hdeclared
    have hheld : Ledger.balance (held.setSlot 0xaa 7 9) 0xaa = .ok 5 := by cbv
    cases hheld.symm.trans hfive
    rw [hsum]
    decide
  · cases hcode.symm.trans hwritten
    exact hinstalled
  · rw [hslot, (hrows 3 1).2 hlast]
    rfl
  · have habsent : rows[(7 : Word)]? = none := by
      rw [Option.eq_none_iff_forall_ne_some]
      exact fun value hvalue => hnone value ((hrows 7 value).1 hvalue)
    rw [hslot, habsent]
    rfl

end Prestate

end ContractMachine
