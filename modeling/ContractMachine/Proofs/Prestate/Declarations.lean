import Mathlib
import ContractMachine.Ledger.Layered
import ContractMachine.Prestate.Basic

/-!
# What a prestate declares

An entry of a prestate declares an account if all of its texts can be read.
Texts are read one by one, so that an entry can be read if and only if each of
its texts can.  Several texts may denote one storage key; they stand in the
order of texts, and the last of them counts.
-/

namespace ContractMachine.Prestate

open Std (TreeMap)

theorem mem_of_mem_toList {α : Type} {table : TreeMap String α}
    {entry : String × α} (h : entry ∈ table.toList) : entry.1 ∈ table := by
  rw [← TreeMap.mem_keys, ← TreeMap.map_fst_toList_eq_keys]
  exact List.mem_map_of_mem h

/-! ## Storage -/

/-- Reads a row and puts it in front of those read before. -/
def addRow (rows : Rows) (row : String × String) : Except Error Rows := do
  let key ← readSlot row.1
  return rows.insert key (← readSlot row.2)

theorem readStorage_eq (storage : TreeMap String String) :
    readStorage storage = storage.toList.foldlM addRow ∅ := rfl

/-- Whether both texts of a row can be read. -/
def ReadableRow (row : String × String) : Prop :=
  (∃ key, readSlot row.1 = .ok key) ∧ ∃ value, readSlot row.2 = .ok value

variable {rows after : Rows} {row : String × String}
  {texts : List (String × String)} {key value : Word}

theorem addRow_eq_ok_iff : addRow rows row = .ok after ↔
    ∃ key value, readSlot row.1 = .ok key ∧ readSlot row.2 = .ok value ∧
      rows.insert key value = after := by
  rw [addRow]
  cases readSlot row.1 with
  | error cause => simp [bind, Except.bind]
  | ok key =>
    cases readSlot row.2 with
    | error cause => simp [bind, Except.bind]
    | ok value => simp [bind, Except.bind, pure, Except.pure]

theorem foldlM_addRow_cons_eq_ok_iff :
    (row :: texts).foldlM addRow rows = .ok after ↔
      ∃ key value, readSlot row.1 = .ok key ∧ readSlot row.2 = .ok value ∧
        texts.foldlM addRow (rows.insert key value) = .ok after := by
  rw [List.foldlM_cons]
  constructor
  · intro h
    cases hrow : addRow rows row with
    | error cause => simp [hrow, bind, Except.bind] at h
    | ok next =>
      obtain ⟨key, value, hkey, hvalue, rfl⟩ := addRow_eq_ok_iff.1 hrow
      exact ⟨key, value, hkey, hvalue,
        by simpa [hrow, bind, Except.bind] using h⟩
  · rintro ⟨key, value, hkey, hvalue, h⟩
    rw [addRow_eq_ok_iff.2 ⟨key, value, hkey, hvalue, rfl⟩]
    exact h

theorem exists_foldlM_addRow_iff (texts : List (String × String))
    (rows : Rows) :
    (∃ after, texts.foldlM addRow rows = .ok after) ↔ ∀ row ∈ texts,
      ReadableRow row := by
  induction texts generalizing rows with
  | nil => exact ⟨fun _ => nofun, fun _ => ⟨rows, rfl⟩⟩
  | cons row texts ih =>
    rw [List.forall_mem_cons]
    constructor
    · rintro ⟨after, h⟩
      obtain ⟨key, value, hkey, hvalue, hrest⟩ :=
        foldlM_addRow_cons_eq_ok_iff.1 h
      exact ⟨⟨⟨key, hkey⟩, value, hvalue⟩, (ih _).1 ⟨after, hrest⟩⟩
    · rintro ⟨⟨⟨key, hkey⟩, value, hvalue⟩, htexts⟩
      obtain ⟨after, hrest⟩ := (ih (rows.insert key value)).2 htexts
      exact ⟨after,
        foldlM_addRow_cons_eq_ok_iff.2 ⟨key, value, hkey, hvalue, hrest⟩⟩

/-- A row is found under a key if it is the last one written there, or if it was
there before and nothing was written. -/
theorem getElem?_of_foldlM_addRow
    (hascending : texts.Pairwise fun row later => row.1 < later.1)
    (h : texts.foldlM addRow rows = .ok after) :
    after[key]? = some value ↔
      (∃ row ∈ texts, readSlot row.1 = .ok key ∧ readSlot row.2 = .ok value ∧
        ∀ later ∈ texts, row.1 < later.1 → readSlot later.1 ≠ .ok key) ∨
      (rows[key]? = some value ∧ ∀ row ∈ texts, readSlot row.1 ≠ .ok key) := by
  induction texts generalizing rows with
  | nil =>
    cases h
    simp
  | cons first texts ih =>
    obtain ⟨hfirst, hrest⟩ := List.pairwise_cons.1 hascending
    obtain ⟨firstKey, firstValue, hkey, hvalue, hadded⟩ :=
      foldlM_addRow_cons_eq_ok_iff.1 h
    rw [ih hrest hadded]
    -- What the first text writes counts only if no later text denotes its key.
    constructor
    · rintro (⟨row, hrow, hrowKey, hrowValue, hlast⟩ | ⟨hheld, hnone⟩)
      · refine .inl ⟨row, List.mem_cons_of_mem _ hrow, hrowKey, hrowValue, ?_⟩
        rintro later hlater hlt
        obtain rfl | hlater := List.mem_cons.1 hlater
        · exact absurd hlt (String.lt_asymm (hfirst row hrow))
        · exact hlast later hlater hlt
      · by_cases hsame : firstKey = key
        · subst hsame
          rw [TreeMap.getElem?_insert_self, Option.some.injEq] at hheld
          subst hheld
          refine .inl ⟨first, List.mem_cons_self, hkey, hvalue, ?_⟩
          rintro later hlater hlt
          obtain rfl | hlater := List.mem_cons.1 hlater
          · exact absurd hlt (String.lt_irrefl _)
          · exact hnone later hlater
        · rw [TreeMap.getElem?_insert, if_neg (by simpa using hsame)] at hheld
          refine .inr ⟨hheld, List.forall_mem_cons.2 ⟨?_, hnone⟩⟩
          rw [hkey]
          simpa using hsame
    · rintro (⟨row, hrow, hrowKey, hrowValue, hlast⟩ | ⟨hheld, hnone⟩)
      · obtain rfl | hrow := List.mem_cons.1 hrow
        · obtain rfl : firstKey = key := by simpa [hkey] using hrowKey
          obtain rfl : firstValue = value := by simpa [hvalue] using hrowValue
          exact .inr ⟨TreeMap.getElem?_insert_self,
            fun later hlater =>
              hlast later (List.mem_cons_of_mem _ hlater) (hfirst later hlater)⟩
        · exact .inl ⟨row, hrow, hrowKey, hrowValue,
            fun later hlater => hlast later (List.mem_cons_of_mem _ hlater)⟩
      · obtain ⟨hother, hnone⟩ := List.forall_mem_cons.1 hnone
        refine .inr ⟨?_, hnone⟩
        have hne : firstKey ≠ key := by
          rintro rfl
          exact hother hkey
        rw [TreeMap.getElem?_insert, if_neg (by simpa using hne)]
        exact hheld

/-- The value that storage as written gives to a key: of the texts that denote
the key, the last one counts. -/
def LastRow (storage : TreeMap String String) (key value : Word) : Prop :=
  ∃ keyText valueText, storage[keyText]? = some valueText ∧
    readSlot keyText = .ok key ∧ readSlot valueText = .ok value ∧
    ∀ later ∈ storage, keyText < later → readSlot later ≠ .ok key

theorem getElem?_of_readStorage {storage : TreeMap String String}
    (h : readStorage storage = .ok rows) :
    rows[key]? = some value ↔ LastRow storage key value := by
  rw [readStorage_eq] at h
  have hlt : ∀ {text other : String}, compare text other = .lt → text < other :=
    compareOfLessAndEq_eq_lt.1
  have hascending : storage.toList.Pairwise fun row later => row.1 < later.1 :=
    (TreeMap.ordered_keys_toList (t := storage)).imp hlt
  rw [getElem?_of_foldlM_addRow hascending h, or_iff_left (by simp)]
  constructor
  · rintro ⟨row, hrow, hkey, hvalue, hlast⟩
    refine ⟨row.1, row.2, TreeMap.mem_toList_iff_getElem?_eq_some.1 hrow, hkey,
      hvalue, ?_⟩
    intro later hlater
    exact hlast (later,
      storage[later]) (TreeMap.mem_toList_iff_getElem?_eq_some.2 (by simp))
  · rintro ⟨keyText, valueText, htext, hkey, hvalue, hlast⟩
    refine ⟨(keyText, valueText),
      TreeMap.mem_toList_iff_getElem?_eq_some.2 htext, hkey, hvalue, ?_⟩
    intro later hlater
    exact hlast later.1 (mem_of_mem_toList hlater)

/-! ## Entries -/

/-- Whether every text of an entry can be read. -/
structure Readable (entry : String × Allocation) : Prop where
  address : ∃ address, readAddress entry.1 = .ok address
  balance : ∃ balance, readBalance entry.2.balance = .ok balance
  code : ∃ code, readCode entry.2.code = .ok code
  storage : ∀ row ∈ entry.2.storage.toList, ReadableRow row

end ContractMachine.Prestate

namespace ContractMachine

/-- An account that is declared: what it is to hold on top of its balance, and
its storage. -/
structure Declaration where
  address : Address
  balance : Word
  nonce : Nat
  code : Bytes
  rows : Rows

/-- An entry whose texts denote a declaration. -/
structure Declares (entry : String × Allocation) (declaration : Declaration) :
    Prop where
  address : Prestate.readAddress entry.1 = .ok declaration.address
  balance : Prestate.readBalance entry.2.balance = .ok declaration.balance
  nonce : declaration.nonce = entry.2.nonce
  code : Prestate.readCode entry.2.code = .ok declaration.code
  rows : Prestate.readStorage entry.2.storage = .ok declaration.rows

end ContractMachine

namespace ContractMachine.Prestate

variable {entry : String × Allocation} {declaration : Declaration}

/-- What an entry declares, if all of it can be read. -/
def declaration? (entry : String × Allocation) : Option Declaration :=
  match readAddress entry.1, readBalance entry.2.balance, readCode entry.2.code,
    readStorage entry.2.storage with
  | .ok address, .ok balance, .ok code, .ok rows =>
    some { address, balance, nonce := entry.2.nonce, code, rows }
  | _, _, _, _ => none

theorem declaration?_eq_some_iff :
    declaration? entry = some declaration ↔ Declares entry declaration := by
  constructor
  · intro h
    rw [declaration?] at h
    split at h
    case h_1 address balance code rows haddress hbalance hcode hrows =>
      cases h
      exact ⟨haddress, hbalance, rfl, hcode, hrows⟩
    case h_2 => cases h
  · rintro ⟨haddress, hbalance, hnonce, hcode, hrows⟩
    rw [declaration?, haddress, hbalance, hcode, hrows, ← hnonce]

theorem readable_iff :
    Readable entry ↔ ∃ declaration, Declares entry declaration := by
  have hstorage := exists_foldlM_addRow_iff entry.2.storage.toList ∅
  rw [← readStorage_eq] at hstorage
  constructor
  · rintro ⟨⟨address, haddress⟩, ⟨balance, hbalance⟩, ⟨code, hcode⟩, hrows⟩
    obtain ⟨rows, hrows⟩ := hstorage.2 hrows
    exact ⟨⟨address, balance, entry.2.nonce, code, rows⟩, haddress, hbalance,
      rfl, hcode, hrows⟩
  · rintro ⟨declaration, h⟩
    exact ⟨⟨_, h.address⟩, ⟨_, h.balance⟩, ⟨_, h.code⟩, hstorage.1 ⟨_, h.rows⟩⟩

end ContractMachine.Prestate
