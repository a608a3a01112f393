import ContractMachine.Proofs.Ledger.Dump
import ContractMachine.Proofs.Ledger.Writes

/-!
# The sum of all balances

Moving value keeps the sum of all balances, also when an account pays itself,
unless what the receiver would hold cannot be written down; then its balance
stops at the largest word and the sum drops.  A sum that is itself a word rules
this out.  No other write changes a balance, and a deletion takes away what the
account held.
-/

namespace ContractMachine

section Sums

-- Stated for any finite type of keys: the sums below range over all addresses,
-- and there are too many of these to be listed.
variable {ι : Type} [Fintype ι] [DecidableEq ι]

theorem sum_update_add (f : ι → Nat) (key : ι) (value : Nat) :
    ∑ other, Function.update f key value other + f key = ∑ other,
    f other + value := by
  rw [Finset.sum_update_of_mem (Finset.mem_univ key),
    Finset.sdiff_singleton_eq_erase,
    ← Finset.add_sum_erase _ f (Finset.mem_univ key)]
  omega

omit [DecidableEq ι] in
theorem le_sum (f : ι → Nat) (key : ι) : f key ≤ ∑ other, f other :=
  Finset.single_le_sum (fun _ _ => Nat.zero_le _) (Finset.mem_univ key)

theorem sum_map_eq_sum {keys : List ι} (hnodup : keys.Nodup) {f : ι → Nat}
    (h : ∀ key ∉ keys, f key = 0) : (keys.map f).sum = ∑ key, f key := by
  rw [← List.sum_toFinset f hnodup]
  apply Finset.sum_subset (Finset.subset_univ _)
  intro key _ hkey
  exact h key (by simpa using hkey)

end Sums

theorem Word.toNat_saturatingAdd_le (a b : Word) :
    (a.saturatingAdd b).toNat ≤ a.toNat + b.toNat := by
  rw [saturatingAdd]
  split
  case isTrue hover =>
    have hlarge : 2 ^ 256 ≤ a.toNat + b.toNat := by
      simpa [BitVec.uaddOverflow] using hover
    exact (BitVec.isLt _).le.trans hlarge
  case isFalse =>
    rw [BitVec.toNat_add]
    exact Nat.mod_le _ _

theorem Word.toNat_saturatingAdd {a b : Word}
    (h : a.toNat + b.toNat < 2 ^ 256) :
    (a.saturatingAdd b).toNat = a.toNat + b.toNat := by
  have hfits : ¬ a.uaddOverflow b = true := by
    simpa [BitVec.uaddOverflow] using h
  rw [saturatingAdd, if_neg hfits, BitVec.toNat_add, Nat.mod_eq_of_lt h]

/-- A sum stops at the largest word. -/
theorem Word.toNat_saturatingAdd_eq_min (a b : Word) :
    (a.saturatingAdd b).toNat = min (a.toNat + b.toNat) (2 ^ 256 - 1) := by
  by_cases hfits : a.toNat + b.toNat < 2 ^ 256
  · rw [toNat_saturatingAdd hfits]
    exact (Nat.min_eq_left (Nat.le_pred_of_lt hfits)).symm
  · have hover : a.uaddOverflow b = true := by
      simpa [BitVec.uaddOverflow] using Nat.not_lt.1 hfits
    rw [saturatingAdd, if_pos hover, Nat.min_eq_right (by omega)]
    rfl

namespace FlatState

/-- The balance at an address as a number. -/
def balanceAt (state : FlatState) (a : Address) : Nat :=
  (state.held a).balance.toNat

-- Irreducible, for the sum must never be unfolded to its terms.
/-- The sum of all balances. -/
@[irreducible]
def total (state : FlatState) : Nat := ∑ a, state.balanceAt a

variable (state : FlatState)

theorem balanceAt_le_total (a : Address) : state.balanceAt a ≤ state.total := by
  unfold total
  exact le_sum state.balanceAt a

theorem balanceAt_put (a : Address) (account : Option Account) :
    (state.put a account).balanceAt =
      Function.update state.balanceAt a (account.getD {}).balance.toNat := by
  funext other
  by_cases hother : other = a
  · subst other
    simp [balanceAt, held, put]
  · simp [balanceAt, held, put, hother]

/-- Replacing an account replaces its balance in the sum. -/
theorem total_put_add (a : Address) (account : Option Account) :
    (state.put a account).total + state.balanceAt a =
      state.total + (account.getD {}).balance.toNat := by
  unfold total
  rw [balanceAt_put]
  exact sum_update_add state.balanceAt a _

theorem total_of_account_eq {state other : FlatState}
    (h : state.account = other.account) :
    state.total = other.total := by
  have hbalances : state.balanceAt = other.balanceAt := by
    funext a
    rw [balanceAt, balanceAt, held, held, h]
  unfold total
  rw [hbalances]

theorem total_setBalance_add (a : Address) (balance : Word) :
    (state.setBalance a balance).total + state.balanceAt a =
      state.total + balance.toNat :=
  state.total_put_add a _

theorem total_modify {f : Account → Account}
    (h : ∀ account, (f account).balance = account.balance) (a : Address) :
    (state.modify a f).total = state.total := by
  have hput := state.total_put_add a (some (f (state.held a)))
  rw [Option.getD_some, h] at hput
  exact Nat.add_right_cancel hput

/-- Storage counts for nothing in the sum. -/
theorem total_clear_put_add (a : Address) (account : Option Account) :
    ((state.clear a).put a account).total + state.balanceAt a =
      state.total + (account.getD {}).balance.toNat := by
  have hcleared : (state.clear a).total = state.total := total_of_account_eq rfl
  rw [← hcleared]
  exact (state.clear a).total_put_add a account

theorem total_create (a : Address) : (state.create a).total = state.total :=
  Nat.add_right_cancel
    (state.total_clear_put_add a (some { balance := (state.held a).balance }))

theorem total_delete_add (a : Address) :
    (state.delete a).total + state.balanceAt a = state.total := by
  have hput := state.total_clear_put_add a none
  have hnothing : ((none : Option Account).getD {}).balance.toNat = 0 := rfl
  rw [hnothing, Nat.add_zero] at hput
  exact hput

theorem total_setSlot (a : Address) (key value : Word) :
    (state.setSlot a key value).total = state.total := by
  have hstored : (state.setSlot a key value).total =
      (state.modify a id).total :=
    total_of_account_eq rfl
  rw [hstored]
  exact state.total_modify (fun _ => rfl) a

variable {state}

/-- What is taken from a balance is missing from the sum. -/
theorem total_debited_add {source : Address} {value : Word}
    (h : value ≤ (state.held source).balance) :
    (state.setBalance source ((state.held source).balance - value)).total +
      value.toNat = state.total := by
  have hset :=
    state.total_setBalance_add source ((state.held source).balance - value)
  have hle : value.toNat ≤ (state.held source).balance.toNat := h
  rw [BitVec.toNat_sub_of_le h, balanceAt] at hset
  omega

theorem total_move_le {source : Address} (target : Address) {value : Word}
    (h : value ≤ (state.held source).balance) :
    (state.move source target value).total ≤ state.total := by
  have htaken := total_debited_add h
  rw [move]
  generalize state.setBalance source ((state.held source).balance - value) =
    debited at htaken ⊢
  have hset := debited.total_setBalance_add target
    ((debited.held target).balance.saturatingAdd value)
  have hle := Word.toNat_saturatingAdd_le (debited.held target).balance value
  rw [balanceAt] at hset
  omega

theorem total_move {source : Address} (target : Address) {value : Word}
    (h : value ≤ (state.held source).balance) (hsum : state.total < 2 ^ 256) :
    (state.move source target value).total = state.total := by
  have htaken := total_debited_add h
  rw [move]
  generalize state.setBalance source ((state.held source).balance - value) =
    debited at htaken ⊢
  have hset := debited.total_setBalance_add target
    ((debited.held target).balance.saturatingAdd value)
  have hheld : (debited.held target).balance.toNat ≤ debited.total :=
    debited.balanceAt_le_total target
  -- What the target holds and what it gets were both part of the sum.
  have hfits : (debited.held target).balance.toNat + value.toNat < 2 ^ 256 := by
    omega
  rw [balanceAt, Word.toNat_saturatingAdd hfits] at hset
  omega

/-- No write adds to the sum of all balances. -/
theorem total_le_of_write {written : FlatState} (h : Write state written) :
    written.total ≤ state.total := by
  cases h with
  | store a key value => exact (state.total_setSlot a key value).le
  | move source target h => exact total_move_le target h
  | create a => exact (state.total_create a).le
  | count a h => exact Nat.le_of_eq (state.total_modify (by intro; rfl) a)
  | deploy a code => exact Nat.le_of_eq (state.total_modify (by intro; rfl) a)

/-- No write changes the sum of all balances if that is a word. -/
theorem total_of_write {written : FlatState} (h : Write state written)
    (hsum : state.total < 2 ^ 256) : written.total = state.total := by
  cases h with
  | store a key value => exact state.total_setSlot a key value
  | move source target h => exact total_move target h hsum
  | create a => exact state.total_create a
  | count a h => exact state.total_modify (by intro; rfl) a
  | deploy a code => exact state.total_modify (by intro; rfl) a

theorem balanceAt_delete_of_ne {a other : Address} (h : other ≠ a) :
    (state.delete a).balanceAt other = state.balanceAt other := by
  simp [balanceAt, held, delete, put, clear, h]

/-- Deleting accounts, none of them twice, takes what they held from the sum. -/
theorem total_foldl_delete_add {deleted : List Address}
    (hnodup : deleted.Nodup) :
    (deleted.foldl delete state).total + (deleted.map state.balanceAt).sum =
      state.total := by
  induction deleted generalizing state with
  | nil => simp
  | cons a rest ih =>
    obtain ⟨hfresh, hrest⟩ := List.nodup_cons.1 hnodup
    have hkept : rest.map (state.delete a).balanceAt =
        rest.map state.balanceAt := by
      apply List.map_congr_left
      intro other hother
      exact balanceAt_delete_of_ne (ne_of_mem_of_not_mem hother hfresh)
    have hfirst := state.total_delete_add a
    have hothers := @ih (state.delete a) hrest
    rw [hkept] at hothers
    rw [List.foldl_cons, List.map_cons, List.sum_cons]
    omega

end FlatState

namespace LayeredLedger

/-- The balance at an address as a number. -/
def balanceOf (ledger : LayeredLedger) (a : Address) : Nat :=
  ((ledger.account a).getD {}).balance.toNat

/-- The sum of the balances of all accounts. -/
def totalBalance (ledger : LayeredLedger) : Nat :=
  (ledger.dump.map fun entry => entry.balance.toNat).sum

theorem mem_map_address_dump {ledger : LayeredLedger} {a : Address}
    {account : Account} (h : ledger.account a = some account) :
    a ∈ ledger.dump.map AccountEntry.address := by
  refine List.mem_map.2 ⟨entryOf a account (ledger.storage a).toList, ?_, rfl⟩
  exact (ledger.isDump_dump.mem_iff _).2
    ⟨account, h, rfl, rfl, rfl,
     isStorage_of_tabulates (ledger.tabulates_storage a)⟩

theorem totalBalance_eq (ledger : LayeredLedger) :
    ledger.totalBalance = ledger.states.top.total := by
  have hdump := ledger.isDump_dump
  have hnodup : (ledger.dump.map AccountEntry.address).Nodup :=
    List.pairwise_map.2 (hdump.ascending.imp BitVec.ne_of_lt)
  have hbalances : (ledger.dump.map fun entry => entry.balance.toNat) =
      (ledger.dump.map AccountEntry.address).map
        ledger.states.top.balanceAt := by
    rw [List.map_map]
    apply List.map_congr_left
    intro entry hentry
    obtain ⟨account, haccount, hbalance, _⟩ := (hdump.mem_iff entry).1 hentry
    rw [Function.comp_apply, hbalance, FlatState.balanceAt, FlatState.held,
      haccount]
    rfl
  rw [totalBalance, hbalances]
  unfold FlatState.total
  refine sum_map_eq_sum hnodup fun a ha => ?_
  cases haccount : ledger.account a with
  | some account => exact absurd (mem_map_address_dump haccount) ha
  | none =>
    rw [FlatState.balanceAt, held_top_states, haccount]
    rfl

theorem top_of_forM_deleteAccount {deleted : List Address}
    {ledger after : LayeredLedger}
    (h : deleted.forM Ledger.deleteAccount ledger = .ok () after) :
    after.states.top = deleted.foldl FlatState.delete ledger.states.top := by
  induction deleted generalizing ledger with
  | nil =>
    cases h
    rfl
  | cons a rest ih =>
    have hrest : rest.forM Ledger.deleteAccount (ledger.delete a) =
        .ok () after := h
    rw [ih hrest, states_delete]
    rfl

end LayeredLedger

end ContractMachine
