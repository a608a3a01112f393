import ContractMachine.Proofs.Ledger.Abstraction

/-!
# Dumps

A dump lists the accounts of the current state, each with its nonzero rows.
`FlatState.IsDump` says this of a state alone: there is exactly one such list,
so two ledgers that show the same state have the same dump.

The list does not depend on the order in which a ledger happens to visit its
addresses and the rows of its layers, either: `LayeredLedger.dumpBy` makes a
dump along any itinerary, and it is the same.
-/

namespace ContractMachine

open Std (TreeMap)

/-- The order of addresses, and of words, in a tree is that of the numbers. -/
theorem compare_eq_lt_iff {n : Nat} {a b : BitVec n} :
    compare a b = .lt ↔ a < b := by
  exact compareOfLessAndEq_eq_lt

/-- A list without repetition by ascending key is determined by its members. -/
theorem eq_of_ascending {α : Type} {n : Nat} (key : α → BitVec n)
    {left right : List α} (hleft : left.Pairwise fun x y => key x < key y)
    (hright : right.Pairwise fun x y => key x < key y)
    (hmem : ∀ x, x ∈ left ↔ x ∈ right) : left = right := by
  have hasymm : Std.Antisymm fun x y : α => key x < key y :=
    ⟨fun _ _ hxy hyx => absurd hxy (BitVec.lt_asymm hyx)⟩
  have hirrefl : Std.Irrefl fun x y : α => key x < key y :=
    ⟨fun _ => BitVec.lt_irrefl _⟩
  exact hleft.eq_of_mem_iff hright hmem

namespace FlatState

/-- The nonzero rows of an address by ascending key. -/
structure IsStorage (state : FlatState) (address : Address)
    (rows : List (Word × Word)) : Prop where
  ascending : rows.Pairwise fun earlier later => earlier.1 < later.1
  mem_iff : ∀ key value, (key, value) ∈ rows ↔
    value ≠ 0 ∧ state.slot address key = value

/-- The accounts of a state by ascending address, with their nonzero rows. -/
structure IsDump (state : FlatState) (entries : List AccountEntry) : Prop where
  ascending : entries.Pairwise fun earlier later =>
    earlier.address < later.address
  mem_iff : ∀ entry, entry ∈ entries ↔
    ∃ account, state.account entry.address = some account ∧
      entry.balance = account.balance ∧ entry.nonce = account.nonce ∧
      entry.code = account.code ∧ state.IsStorage entry.address entry.storage

theorem IsStorage.unique {state : FlatState} {address : Address}
    {left right : List (Word × Word)} (hleft : state.IsStorage address left)
    (hright : state.IsStorage address right) :
    left = right :=
  eq_of_ascending Prod.fst hleft.ascending hright.ascending fun row => by
    rw [hleft.mem_iff row.1 row.2, hright.mem_iff row.1 row.2]

theorem IsDump.unique {state : FlatState} {left right : List AccountEntry}
    (hleft : state.IsDump left) (hright : state.IsDump right) : left = right :=
  eq_of_ascending AccountEntry.address hleft.ascending hright.ascending
    fun entry => by
    rw [hleft.mem_iff, hright.mem_iff]

end FlatState

namespace LayeredLedger

/-! ## Rows -/

/-- Inserts entries into a table, one after the other. -/
def insertAll {n : Nat} {α : Type} (table : TreeMap (BitVec n) α)
    (visited : List (BitVec n × α)) : TreeMap (BitVec n) α :=
  visited.foldl (fun table entry => table.insert entry.1 entry.2) table

section InsertAll

variable {n : Nat} {α : Type} {visited : List (BitVec n × α)} {key : BitVec n}
  {value : α}

theorem getElem?_insertAll_of_forall_not_mem
    (h : ∀ value, (key, value) ∉ visited) (table : TreeMap (BitVec n) α) :
    (insertAll table visited)[key]? = table[key]? := by
  induction visited generalizing table with
  | nil => rfl
  | cons entry rest ih =>
    have hne : ¬ entry.1 = key := by
      rintro rfl
      exact h entry.2 (List.mem_cons_self ..)
    have hrest : ∀ value, (key, value) ∉ rest := fun value hvalue =>
      h value (List.mem_cons_of_mem entry hvalue)
    have hinsert : (table.insert entry.1 entry.2)[key]? = table[key]? := by
      rw [TreeMap.getElem?_insert, if_neg (by simpa using hne)]
    exact (ih hrest _).trans hinsert

theorem getElem?_insertAll_of_mem (hmem : (key, value) ∈ visited)
    (hunique : ∀ other, (key, other) ∈ visited → other = value)
    (table : TreeMap (BitVec n) α) :
    (insertAll table visited)[key]? = some value := by
  induction visited generalizing table with
  | nil => simp at hmem
  | cons entry rest ih =>
    have hrest : ∀ other, (key, other) ∈ rest → other = value :=
      fun other hother =>
      hunique other (List.mem_cons_of_mem entry hother)
    by_cases hlater : (key, value) ∈ rest
    · exact ih hlater hrest _
    · have hentry : entry = (key, value) := by
        simpa [hlater, eq_comm] using hmem
      have hnone : ∀ other, (key, other) ∉ rest := by
        intro other hother
        exact hlater (hrest other hother ▸ hother)
      subst hentry
      exact (getElem?_insertAll_of_forall_not_mem hnone _).trans (by simp)

/-- A table filled with entries of which no two disagree holds just these. -/
theorem mem_toList_insertAll_empty
    (hunique : ∀ {key value other},
      (key, value) ∈ visited → (key, other) ∈ visited →
      other = value) :
    (key, value) ∈ (insertAll ∅ visited).toList ↔ (key, value) ∈ visited := by
  rw [TreeMap.mem_toList_iff_getElem?_eq_some]
  constructor
  · intro hvalue
    by_contra habsent
    have hnone : ∀ other, (key, other) ∉ visited := by
      intro other hother
      have hheld := getElem?_insertAll_of_mem hother (fun _ => hunique hother) ∅
      rw [hvalue, Option.some.injEq] at hheld
      exact habsent (hheld ▸ hother)
    rw [getElem?_insertAll_of_forall_not_mem hnone] at hvalue
    simp at hvalue
  · intro hmem
    exact getElem?_insertAll_of_mem hmem (fun _ => hunique hmem) ∅

end InsertAll

/-- Visiting the rows of a table in any order and inserting them into another
table puts them in front of what is there. -/
theorem getElem?_insertAll_of_perm {rows : Rows} {visited : List (Word × Word)}
    (h : visited.Perm rows.toList) (beneath : Rows) (key : Word) :
    (insertAll beneath visited)[key]? = rows[key]?.or beneath[key]? := by
  have hmem : ∀ value, (key, value) ∈ visited ↔ rows[key]? = some value := by
    intro value
    rw [h.mem_iff, TreeMap.mem_toList_iff_getElem?_eq_some]
  cases hrow : rows[key]? with
  | none =>
    have hnone : ∀ value, (key, value) ∉ visited := by
      intro value hvalue
      simpa [hrow] using (hmem value).1 hvalue
    simpa using getElem?_insertAll_of_forall_not_mem hnone beneath
  | some value =>
    have hunique : ∀ other, (key, other) ∈ visited → other = value := by
      intro other hother
      simpa [hrow, eq_comm] using (hmem other).1 hother
    simpa using getElem?_insertAll_of_mem ((hmem value).2 hrow) hunique beneath

/-- A table whose rows, zeros apart, are those of an address. -/
def Tabulates (state : FlatState) (address : Address) (rows : Rows) : Prop :=
  ∀ key, rows[key]?.getD 0 = state.slot address key

theorem isStorage_of_tabulates {state : FlatState} {address : Address}
    {rows : Rows} (h : Tabulates state address rows) :
    state.IsStorage address (rows.filter fun _ value => value ≠ 0).toList where
  ascending := (TreeMap.ordered_keys_toList ..).imp compare_eq_lt_iff.1
  mem_iff key value := by
    rw [TreeMap.mem_toList_iff_getElem?_eq_some,
      TreeMap.getElem?_filter', ← h key]
    cases hrow : rows[key]? with
    | none =>
      constructor
      · intro hvalue
        simp at hvalue
      · rintro ⟨hvalue, rfl⟩
        exact absurd rfl hvalue
    | some held =>
      simp only [Option.filter_eq_some_iff, Option.some.injEq, Option.getD_some]
      constructor
      · rintro ⟨rfl, hvalue⟩
        exact ⟨by simpa using hvalue, rfl⟩
      · rintro ⟨hvalue, rfl⟩
        exact ⟨rfl, by simpa using hvalue⟩

theorem tabulates_base {base : TreeMap Address Record} {address : Address}
    {rows : Rows} (h : ∀ key : Word,
      rows[key]? = ((base[address]?.map Record.rows).getD ∅)[key]?) :
    Tabulates (stateIn base []) address rows := by
  intro key
  rw [h key]
  cases hrecord : base[address]? <;> simp [stateIn, slotIn, hrecord]

/-- A layer that knows nothing of an address shows the rows beneath. -/
theorem tabulates_of_unknown {base : TreeMap Address Record} {address : Address}
    {layer : Layer} {beneath : List Layer} {rows : Rows}
    (hlayer : layer[address]? = none)
    (h : Tabulates (stateIn base beneath) address rows) :
    Tabulates (stateIn base (layer :: beneath)) address rows := by
  intro key
  rw [h key]
  simp [stateIn, slotIn, hlayer]

/-- A layer that knows of an address puts its rows in front of those beneath,
which are gone if it has wiped them. -/
theorem tabulates_of_change {base : TreeMap Address Record} {address : Address}
    {layer : Layer} {beneath : List Layer} {change : Change} {rows : Rows}
    {visited : List (Word × Word)} (hlayer : layer[address]? = some change)
    (hvisited : visited.Perm change.rows.toList)
    (h : Tabulates (stateIn base beneath) address rows) :
    Tabulates (stateIn base (layer :: beneath)) address
      (insertAll (if change.wiped then ∅ else rows) visited) := by
  intro key
  have hslot : (stateIn base (layer :: beneath)).slot address key =
      (change.slot? key).getD ((stateIn base beneath).slot address key) := by
    simp [stateIn, slotIn, hlayer]
  rw [getElem?_insertAll_of_perm hvisited, hslot, ← h key, Change.slot?]
  cases hrow : change.rows[key]? <;> cases hwiped : change.wiped <;> simp

/-- The rows that a dump shows are those of the current state. -/
theorem tabulates_storage (ledger : LayeredLedger) (address : Address) :
    Tabulates ledger.states.top address
      (ledger.layers.foldr (rowsThrough address)
        ((ledger.base[address]?.map Record.rows).getD ∅)) := by
  rcases ledger with ⟨base, layers⟩
  induction layers with
  | nil => exact tabulates_base fun key => rfl
  | cons layer beneath ih =>
    rw [List.foldr_cons, rowsThrough]
    cases hlayer : layer[address]? with
    | none => exact tabulates_of_unknown hlayer ih
    | some change =>
      simp only [TreeMap.foldl_eq_foldl_toList]
      exact tabulates_of_change hlayer (List.Perm.refl _) ih

/-! ## Accounts -/

/-- The entry of an account whose rows have been collected. -/
def entryOf (address : Address) (account : Account)
    (storage : List (Word × Word)) : AccountEntry where
  address := address
  balance := account.balance
  nonce := account.nonce
  code := account.code
  storage := storage

/-- Entries for all accounts of a state, by ascending address, are its dump. -/
theorem isDump_of_entries {state : FlatState}
    (storage : Address → List (Word × Word))
    (hstorage : ∀ address, state.IsStorage address (storage address))
    {entries : List AccountEntry}
    (hascending : entries.Pairwise fun earlier later => earlier.address <
      later.address)
    (hmem : ∀ entry, entry ∈ entries ↔ ∃ account,
      state.account entry.address = some account ∧
        entry = entryOf entry.address account (storage entry.address)) :
    state.IsDump entries where
  ascending := hascending
  mem_iff entry := by
    rw [hmem]
    constructor
    · rintro ⟨account, haccount, hentry⟩
      rw [hentry]
      exact ⟨account, haccount, rfl, rfl, rfl, hstorage _⟩
    · rintro ⟨account, haccount, hbalance, hnonce, hcode, hrows⟩
      refine ⟨account, haccount, ?_⟩
      rw [entryOf, ← hbalance, ← hnonce, ← hcode, (hstorage _).unique hrows]

theorem mem_foldl_insertMany (address : Address) (layers : List Layer)
    (set : Std.TreeSet Address) :
    address ∈ layers.foldl (fun set layer => set.insertMany layer.keys) set ↔
      address ∈ set ∨ ∃ layer ∈ layers, address ∈ layer := by
  induction layers generalizing set with
  | nil => simp
  | cons layer rest ih =>
    rw [List.foldl_cons, ih]
    simp [Std.TreeSet.mem_insertMany_list, or_assoc]

/-- A dump visits every account. -/
theorem mem_addresses_of_account {ledger : LayeredLedger} {address : Address}
    {account : Account} (h : ledger.account address = some account) :
    address ∈ ledger.addresses := by
  rcases ledger with ⟨base, layers⟩
  rw [addresses, mem_foldl_insertMany]
  simp only [LayeredLedger.account] at h
  induction layers with
  | nil =>
    have hbase : address ∈ base := by
      rw [TreeMap.mem_iff_isSome_getElem?]
      obtain ⟨record, hrecord, _⟩ := Option.bind_eq_some_iff.1 h
      simp [hrecord]
    simpa using hbase
  | cons layer beneath ih =>
    by_cases hlayer : address ∈ layer
    · exact Or.inr ⟨layer, List.mem_cons_self .., hlayer⟩
    · have hnone : layer[address]? = none := by simpa using hlayer
      have hbeneath : accountIn base address beneath = some account := by
        simpa [accountIn, hnone] using h
      obtain hbase | ⟨other, hother, hmem⟩ := ih hbeneath
      · exact Or.inl hbase
      · exact Or.inr ⟨other, List.mem_cons_of_mem _ hother, hmem⟩

/-- The dump of a ledger is the dump of its current state. -/
theorem isDump_dump (ledger : LayeredLedger) :
    ledger.states.top.IsDump ledger.dump := by
  refine isDump_of_entries (fun address => (ledger.storage address).toList)
    (fun address => isStorage_of_tabulates (ledger.tabulates_storage address))
    ?_ ?_
  · rw [dump, List.pairwise_filterMap]
    refine ledger.addresses.ordered_toList.imp
      fun {earlier later} hlt x hx y hy => ?_
    obtain ⟨_, _, rfl⟩ := Option.map_eq_some_iff.1 hx
    obtain ⟨_, _, rfl⟩ := Option.map_eq_some_iff.1 hy
    exact compare_eq_lt_iff.1 hlt
  · intro entry
    simp only [dump, List.mem_filterMap, Option.map_eq_some_iff]
    constructor
    · rintro ⟨address, _, account, haccount, rfl⟩
      exact ⟨account, haccount, rfl⟩
    · rintro ⟨account, haccount, hentry⟩
      exact ⟨entry.address, by simpa using mem_addresses_of_account haccount,
        account, haccount, hentry.symm⟩

/-! ## Any order -/

/-- The order in which a dump visits what it collects. -/
structure Itinerary where
  addresses : List Address
  /-- The rows of an address in a table that has so many layers beneath it. -/
  rows : Address → Nat → Rows → List (Word × Word)

/-- An itinerary that misses no account and no row. -/
structure Itinerary.Covers (itinerary : Itinerary) (ledger : LayeredLedger) :
    Prop where
  addresses : ∀ {address account}, ledger.account address = some account →
    address ∈ itinerary.addresses
  rows : ∀ address depth rows,
    (itinerary.rows address depth rows).Perm rows.toList

/-- The rows of an address, collected table by table from the base inward. -/
def collect (visit : Nat → Rows → List (Word × Word)) (base : Rows)
    (address : Address) : List Layer → Rows
  | [] => insertAll ∅ (visit 0 base)
  | layer :: beneath =>
    match layer[address]? with
    | none => collect visit base address beneath
    | some change =>
      insertAll (if change.wiped then ∅ else collect visit base address beneath)
        (visit (beneath.length + 1) change.rows)

/-- The nonzero rows of an address, collected along an itinerary. -/
def storageBy (itinerary : Itinerary) (ledger : LayeredLedger)
    (address : Address) : List (Word × Word) :=
  let base := (ledger.base[address]?.map Record.rows).getD ∅
  ((collect (itinerary.rows address) base address ledger.layers).filter
    fun _ value => value ≠ 0).toList

/-- The entries of the accounts in the order in which an itinerary meets
them. -/
def entriesBy (itinerary : Itinerary) (ledger : LayeredLedger) :
    List (Address × AccountEntry) :=
  itinerary.addresses.filterMap fun address =>
    (ledger.account address).map fun account =>
      (address, entryOf address account (ledger.storageBy itinerary address))

/-- A dump made along an itinerary: the entries, sorted by a table. -/
def dumpBy (itinerary : Itinerary) (ledger : LayeredLedger) :
    List AccountEntry :=
  (insertAll ∅ (ledger.entriesBy itinerary)).toList.map Prod.snd

theorem tabulates_collect {visit : Nat → Rows → List (Word × Word)}
    (hvisit : ∀ depth rows, (visit depth rows).Perm rows.toList)
    (ledger : LayeredLedger) (address : Address) :
    Tabulates ledger.states.top address
      (collect visit ((ledger.base[address]?.map Record.rows).getD ∅) address
        ledger.layers) := by
  rcases ledger with ⟨base, layers⟩
  induction layers with
  | nil =>
    refine tabulates_base fun key => ?_
    rw [collect, getElem?_insertAll_of_perm (hvisit 0 _)]
    simp
  | cons layer beneath ih =>
    rw [collect]
    cases hlayer : layer[address]? with
    | none => exact tabulates_of_unknown hlayer ih
    | some change => exact tabulates_of_change hlayer (hvisit _ _) ih

theorem mem_entriesBy {itinerary : Itinerary} {ledger : LayeredLedger}
    {address : Address} {entry : AccountEntry} :
    (address, entry) ∈ ledger.entriesBy itinerary ↔
    address ∈ itinerary.addresses ∧
      ∃ account, ledger.account address = some account ∧
        entry =
          entryOf address account (ledger.storageBy itinerary address) := by
  simp only [entriesBy, List.mem_filterMap, Option.map_eq_some_iff,
    Prod.mk.injEq]
  constructor
  · rintro ⟨_, hvisited, account, haccount, rfl, rfl⟩
    exact ⟨hvisited, account, haccount, rfl⟩
  · rintro ⟨hvisited, account, haccount, rfl⟩
    exact ⟨address, hvisited, account, haccount, rfl, rfl⟩

/-- A dump made along any itinerary is the dump of the current state. -/
theorem isDump_dumpBy {itinerary : Itinerary} {ledger : LayeredLedger}
    (h : itinerary.Covers ledger) :
    ledger.states.top.IsDump (ledger.dumpBy itinerary) := by
  have hunique : ∀ {address entry other},
      (address, entry) ∈ ledger.entriesBy itinerary →
      (address, other) ∈ ledger.entriesBy itinerary → other = entry := by
    intro address entry other hentry hother
    obtain ⟨_, account, haccount, rfl⟩ := mem_entriesBy.1 hentry
    obtain ⟨_, _, haccount', rfl⟩ := mem_entriesBy.1 hother
    rw [haccount, Option.some.injEq] at haccount'
    rw [haccount']
  have hmem : ∀ {address entry},
      (address, entry) ∈ (insertAll ∅ (ledger.entriesBy itinerary)).toList ↔
        (address, entry) ∈ ledger.entriesBy itinerary :=
          mem_toList_insertAll_empty hunique
  have haddress : ∀ {address entry},
      (address, entry) ∈ ledger.entriesBy itinerary →
      entry.address = address := by
    intro address entry hentry
    obtain ⟨_, _, _, rfl⟩ := mem_entriesBy.1 hentry
    rfl
  refine isDump_of_entries (ledger.storageBy itinerary)
    (fun address =>
      isStorage_of_tabulates (tabulates_collect (h.rows address) ledger
        address)) ?_ ?_
  · rw [dumpBy, List.pairwise_map]
    refine (TreeMap.ordered_keys_toList ..).imp_of_mem
      fun {earlier later} hearlier hlater hlt => ?_
    rw [haddress (hmem.1 hearlier), haddress (hmem.1 hlater)]
    exact compare_eq_lt_iff.1 hlt
  · intro entry
    simp only [dumpBy, List.mem_map, Prod.exists, exists_eq_right, hmem]
    constructor
    · rintro ⟨address, hentry⟩
      obtain rfl := haddress hentry
      exact (mem_entriesBy.1 hentry).2
    · rintro ⟨account, haccount, hentry⟩
      exact ⟨entry.address,
        mem_entriesBy.2 ⟨h.addresses haccount, account, haccount, hentry⟩⟩

end LayeredLedger

end ContractMachine
