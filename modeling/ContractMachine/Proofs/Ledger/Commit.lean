import ContractMachine.Proofs.Ledger.Abstraction

/-!
# Closing snapshots

Rolling back shows the state beneath again.  Committing repeats the edits of
the innermost layer one after the other on what is beneath, and the state that
was current stays so.

The order of the edits does not matter, as long as no storage is wiped after a
row of it has been repeated.  This is stated for every list of edits that
repeats the layer in such an order, be it address by address or, as with three
separate tables, all wipes first, then all accounts, then all rows.
-/

namespace ContractMachine

open Std (TreeMap)

theorem Change.wipe_mem_edits {change : Change} :
    Edit.wipe ∈ change.edits ↔ change.wiped = true := by
  cases haccount : change.account <;> simp [edits, haccount]

theorem Change.account_mem_edits {change : Change} {account : Option Account} :
    Edit.account account ∈ change.edits ↔ change.account = some account := by
  cases haccount : change.account with
  | none => simp [edits, haccount]
  | some written => simpa [edits, haccount] using eq_comm

theorem Change.row_mem_edits {change : Change} {key value : Word} :
    Edit.row key value ∈ change.edits ↔ change.rows[key]? = some value := by
  have hrows : Edit.row key value ∈ change.edits ↔
      (key, value) ∈ change.rows.toList := by
    cases haccount : change.account <;> simp [edits, haccount]
  rw [hrows, TreeMap.mem_toList_iff_getElem?_eq_some]

/-- The edits that repeat a layer, address by address. -/
def Layer.edits (layer : Layer) : List (Address × Edit) :=
  layer.toList.flatMap fun entry => entry.2.edits.map fun e => (entry.1, e)

theorem Layer.mem_edits {layer : Layer} {address : Address} {e : Edit} :
    (address, e) ∈ layer.edits ↔ ∃ change,
      layer[address]? = some change ∧ e ∈ change.edits := by
  simp only [edits, List.mem_flatMap, List.mem_map, Prod.mk.injEq, Prod.exists,
    TreeMap.mem_toList_iff_getElem?_eq_some]
  constructor
  · rintro ⟨other, change, hchange, written, hwritten, rfl, rfl⟩
    exact ⟨change, hchange, hwritten⟩
  · rintro ⟨change, hchange, hwritten⟩
    exact ⟨address, change, hchange, e, hwritten, rfl, rfl⟩

/-- Whether a later edit would hide an earlier one: it wipes the storage to
which the earlier one has written. -/
def Edit.Spoils (later earlier : Address × Edit) : Prop :=
  later.1 = earlier.1 ∧ later.2 = .wipe ∧ ∃ key value,
    earlier.2 = .row key value

/-- A list of edits that repeats a layer in some order. -/
structure Layer.Repeats (layer : Layer) (edits : List (Address × Edit)) :
    Prop where
  perm : edits.Perm layer.edits
  ordered : edits.Pairwise fun earlier later => ¬ Edit.Spoils later earlier

namespace FlatState

theorem account_edit (state : FlatState) (address other : Address) (e : Edit) :
    (state.edit address e).account other =
      match e with
      | .account account =>
        if other = address then account else state.account other
      | .wipe | .row _ _ => state.account other := by
  cases e <;> simp [edit, put, clear, store, Function.update_apply]

theorem slot_edit (state : FlatState) (address other : Address) (key : Word)
    (e : Edit) :
    (state.edit address e).slot other key =
      match e with
      | .account _ => state.slot other key
      | .wipe => if other = address then 0 else state.slot other key
      | .row row value =>
        if other = address ∧ key = row then value
        else state.slot other key := by
  cases e with
  | account account => rfl
  | wipe =>
    by_cases hother : other = address <;> simp [edit, clear, hother]
  | row row value =>
    by_cases hother : other = address
    · subst other
      by_cases hkey : key = row <;> simp [edit, store, hkey]
    · simp [edit, store, hother]

/-- One edit after the other. -/
def replay (state : FlatState) (edits : List (Address × Edit)) : FlatState :=
  edits.foldl (fun state e => state.edit e.1 e.2) state

/-- The state that a layer shows over another. -/
def under (state : FlatState) (layer : Layer) : FlatState where
  account address :=
    (layer[address]?.bind Change.account).getD (state.account address)
  slot address key :=
    (layer[address]?.bind (·.slot? key)).getD (state.slot address key)

theorem account_replay_of_forall_not_mem {address : Address}
    {edits : List (Address × Edit)}
    (h : ∀ account, (address, Edit.account account) ∉ edits)
    (state : FlatState) :
    (state.replay edits).account address = state.account address := by
  induction edits generalizing state with
  | nil => rfl
  | cons e rest ih =>
    have hrest : ∀ account, (address, Edit.account account) ∉ rest :=
      fun account hmem =>
      h account (List.mem_cons_of_mem e hmem)
    have hhead : (state.edit e.1 e.2).account address =
        state.account address := by
      rw [account_edit]
      split
      · rename_i account he
        have hne : address ≠ e.1 := by
          rintro rfl
          exact h account (by simp [← he])
        rw [if_neg hne]
      · rfl
      · rfl
    exact (ih hrest _).trans hhead

theorem account_replay_of_mem {address : Address} {account : Option Account}
    {edits : List (Address × Edit)}
    (hmem : (address, Edit.account account) ∈ edits)
    (hunique : ∀ other, (address, Edit.account other) ∈ edits → other = account)
    (state : FlatState) : (state.replay edits).account address = account := by
  induction edits generalizing state with
  | nil => simp at hmem
  | cons e rest ih =>
    have hrest : ∀ other, (address, Edit.account other) ∈ rest →
        other = account :=
      fun other hother => hunique other (List.mem_cons_of_mem e hother)
    by_cases hlater : (address, Edit.account account) ∈ rest
    · exact ih hlater hrest _
    · have he : e = (address, Edit.account account) := by
        simpa [hlater, eq_comm] using hmem
      have hnone : ∀ other, (address, Edit.account other) ∉ rest := by
        intro other hother
        exact hlater (hrest other hother ▸ hother)
      subst he
      exact (account_replay_of_forall_not_mem hnone _).trans
        (by simp [account_edit])

theorem slot_replay_of_forall_not_mem {address : Address} {key : Word}
    {edits : List (Address × Edit)} (hwipe : (address, Edit.wipe) ∉ edits)
    (hrow : ∀ value, (address, Edit.row key value) ∉ edits)
    (state : FlatState) :
    (state.replay edits).slot address key = state.slot address key := by
  induction edits generalizing state with
  | nil => rfl
  | cons e rest ih =>
    have hrest : ∀ value, (address, Edit.row key value) ∉ rest :=
      fun value hmem =>
      hrow value (List.mem_cons_of_mem e hmem)
    have hhead : (state.edit e.1 e.2).slot address key =
        state.slot address key := by
      rw [slot_edit]
      split
      · rfl
      · rename_i he
        have hne : address ≠ e.1 := by
          rintro rfl
          exact hwipe (by simp [← he])
        rw [if_neg hne]
      · rename_i row value he
        have hne : ¬ (address = e.1 ∧ key = row) := by
          rintro ⟨rfl, rfl⟩
          exact hrow value (by simp [← he])
        rw [if_neg hne]
    exact (ih (fun hmem => hwipe (List.mem_cons_of_mem e hmem)) hrest _).trans
      hhead

theorem slot_replay_of_row_mem {address : Address} {key value : Word}
    {edits : List (Address × Edit)}
    (hmem : (address, Edit.row key value) ∈ edits)
    (hunique : ∀ other, (address, Edit.row key other) ∈ edits → other = value)
    (hordered : edits.Pairwise fun earlier later => ¬ Edit.Spoils later earlier)
    (state : FlatState) : (state.replay edits).slot address key = value := by
  induction edits generalizing state with
  | nil => simp at hmem
  | cons e rest ih =>
    rw [List.pairwise_cons] at hordered
    have hrest : ∀ other, (address, Edit.row key other) ∈ rest →
        other = value :=
      fun other hother => hunique other (List.mem_cons_of_mem e hother)
    by_cases hlater : (address, Edit.row key value) ∈ rest
    · exact ih hlater hrest hordered.2 _
    · have he : e = (address, Edit.row key value) := by
        simpa [hlater, eq_comm] using hmem
      have hnone : ∀ other, (address, Edit.row key other) ∉ rest := by
        intro other hother
        exact hlater (hrest other hother ▸ hother)
      have hwipe : (address, Edit.wipe) ∉ rest := by
        intro hwiped
        exact hordered.1 _ hwiped ⟨by rw [he], rfl, key, value, by rw [he]⟩
      subst he
      exact (slot_replay_of_forall_not_mem hwipe hnone _).trans
        (by simp [slot_edit])

theorem slot_replay_of_wipe_mem {address : Address} {key : Word}
    {edits : List (Address × Edit)} (hmem : (address, Edit.wipe) ∈ edits)
    (hrow : ∀ value, (address, Edit.row key value) ∉ edits)
    (state : FlatState) :
    (state.replay edits).slot address key = 0 := by
  induction edits generalizing state with
  | nil => simp at hmem
  | cons e rest ih =>
    have hrest : ∀ value, (address, Edit.row key value) ∉ rest :=
      fun value hvalue =>
      hrow value (List.mem_cons_of_mem e hvalue)
    by_cases hlater : (address, Edit.wipe) ∈ rest
    · exact ih hlater hrest _
    · have he : e = (address, Edit.wipe) := by
        simpa [hlater, eq_comm] using hmem
      subst he
      exact (slot_replay_of_forall_not_mem hlater hrest _).trans
        (by simp [slot_edit])

/-- Repeating a layer in any order shows what the layer itself showed. -/
theorem replay_of_repeats {layer : Layer} {edits : List (Address × Edit)}
    (h : layer.Repeats edits) (state : FlatState) :
    state.replay edits = state.under layer := by
  have hmem : ∀ {address e}, (address, e) ∈ edits ↔
      ∃ change, layer[address]? = some change ∧ e ∈ change.edits := by
    intro address e
    rw [h.perm.mem_iff, Layer.mem_edits]
  apply FlatState.ext
  · funext address
    cases hknown : layer[address]?.bind Change.account with
    | none =>
      have hnone : ∀ account, (address, Edit.account account) ∉ edits := by
        intro account hwritten
        obtain ⟨change, hchange, hedit⟩ := hmem.1 hwritten
        rw [Change.account_mem_edits] at hedit
        simp [hchange, hedit] at hknown
      simpa [under, hknown] using account_replay_of_forall_not_mem hnone state
    | some account =>
      obtain ⟨change, hchange, haccount⟩ := Option.bind_eq_some_iff.1 hknown
      have hwritten : (address, Edit.account account) ∈ edits :=
        hmem.2 ⟨change, hchange, Change.account_mem_edits.2 haccount⟩
      have hunique : ∀ other, (address, Edit.account other) ∈ edits →
          other = account := by
        intro other hother
        obtain ⟨change', hchange', hedit⟩ := hmem.1 hother
        obtain rfl : change' = change := by simpa [hchange] using hchange'.symm
        simpa [haccount, eq_comm] using Change.account_mem_edits.1 hedit
      simpa [under, hknown] using account_replay_of_mem hwritten hunique state
  · funext address key
    cases hchange : layer[address]? with
    | none =>
      have hnone : ∀ e, (address, e) ∉ edits := by
        intro e hwritten
        obtain ⟨change, hchange', _⟩ := hmem.1 hwritten
        simp [hchange] at hchange'
      simpa [under, hchange] using
        slot_replay_of_forall_not_mem (hnone _) (fun value => hnone _) state
    | some change =>
      have hedits : ∀ {e}, (address, e) ∈ edits ↔ e ∈ change.edits := by
        intro e
        simp [hmem, hchange]
      cases hrow : change.rows[key]? with
      | some value =>
        have hwritten : (address, Edit.row key value) ∈ edits :=
          hedits.2 (Change.row_mem_edits.2 hrow)
        have hunique : ∀ other, (address, Edit.row key other) ∈ edits →
            other = value := by
          intro other hother
          simpa [hrow, eq_comm] using Change.row_mem_edits.1 (hedits.1 hother)
        simpa [under, hchange, Change.slot?, hrow] using
          slot_replay_of_row_mem hwritten hunique h.ordered state
      | none =>
        have hnone : ∀ value, (address, Edit.row key value) ∉ edits := by
          intro value hwritten
          simpa [hrow] using Change.row_mem_edits.1 (hedits.1 hwritten)
        cases hwiped : change.wiped with
        | true =>
          have hwipe : (address, Edit.wipe) ∈ edits :=
            hedits.2 (Change.wipe_mem_edits.2 hwiped)
          simpa [under, hchange, Change.slot?, hrow, hwiped] using
            slot_replay_of_wipe_mem hwipe hnone state
        | false =>
          have hwipe : (address, Edit.wipe) ∉ edits := by
            intro hwritten
            simpa [hwiped] using Change.wipe_mem_edits.1 (hedits.1 hwritten)
          simpa [under, hchange, Change.slot?, hrow, hwiped] using
            slot_replay_of_forall_not_mem hwipe hnone state

end FlatState

/-- A change wipes before it writes. -/
theorem Change.pairwise_edits (change : Change) (address : Address) :
    (change.edits.map fun e => (address, e)).Pairwise
      fun earlier later => ¬ Edit.Spoils later earlier := by
  have hrows : (change.rows.toList.map fun row => Edit.row row.1 row.2).Pairwise
      fun earlier later => ¬ Edit.Spoils (address, later) (address,
        earlier) := by
    rw [List.pairwise_map]
    exact List.pairwise_of_forall fun earlier later hspoils => by
      simp [Edit.Spoils] at hspoils
  rw [List.pairwise_map]
  cases hwiped : change.wiped <;> cases haccount : change.account <;>
    simpa [edits, hwiped, haccount, Edit.Spoils] using hrows

/-- Committing repeats a layer address by address, which is one of the
orders. -/
theorem Layer.repeats_edits (layer : Layer) : layer.Repeats layer.edits where
  perm := List.Perm.refl _
  ordered := by
    rw [Layer.edits, List.pairwise_flatMap]
    refine ⟨fun entry _ => entry.2.pairwise_edits entry.1, ?_⟩
    refine layer.distinct_keys_toList.imp fun {earlier later} hdistinct => ?_
    intro x hx y hy hspoils
    obtain ⟨_, _, rfl⟩ := List.mem_map.1 hx
    obtain ⟨_, _, rfl⟩ := List.mem_map.1 hy
    exact hdistinct (Std.compare_eq_iff_eq.2 hspoils.1.symm)

namespace LayeredLedger

/-- One edit after the other. -/
def replay (ledger : LayeredLedger) (edits : List (Address × Edit)) :
    LayeredLedger :=
  edits.foldl (fun ledger e => ledger.edit e.1 e.2) ledger

theorem merge_eq_replay (ledger : LayeredLedger) (layer : Layer) :
    ledger.merge layer = ledger.replay layer.edits := by
  rw [merge, replay, Layer.edits, TreeMap.foldl_eq_foldl_toList,
    List.foldl_flatMap]
  simp only [List.foldl_map]

theorem states_replay (ledger : LayeredLedger) (edits : List (Address × Edit)) :
    (ledger.replay edits).states = ledger.states.change (·.replay edits) := by
  induction edits generalizing ledger with
  | nil => rfl
  | cons e rest ih =>
    calc
      (ledger.replay (e :: rest)).states =
        ((ledger.edit e.1 e.2).replay rest).states := rfl
      _ = (ledger.edit e.1 e.2).states.change (·.replay rest) := ih _
      _ = ledger.states.change (·.replay (e :: rest)) := by
        rw [states_edit]; rfl

/-- Writing the innermost layer onto what is beneath, in any order, keeps the
current state and drops the one of the snapshot. -/
theorem states_replay_of_repeats {base : TreeMap Address Record} {layer : Layer}
    {beneath : List Layer} {edits : List (Address × Edit)}
    (h : layer.Repeats edits) :
    (LayeredLedger.replay ⟨base, beneath⟩ edits).states =
      ⟨stateIn base (layer :: beneath), statesBelow base beneath⟩ := by
  rw [states_replay]
  exact StateStack.ext (FlatState.replay_of_repeats h _) rfl

/-- A commit that repeats the innermost layer by a given list of edits. -/
def commitBy (edits : List (Address × Edit)) (depth : Nat) :
    EStateM LedgerError LayeredLedger Unit :=
  closeSnapshot depth fun _ beneath => beneath.replay edits

theorem commit_eq_commitBy (ledger : LayeredLedger) (depth : Nat) :
    commit depth ledger =
      commitBy ((ledger.layers.head?.map Layer.edits).getD []) depth
        ledger := by
  rcases ledger with ⟨base, layers⟩
  cases layers with
  | nil => rfl
  | cons layer beneath =>
    simp [commit, commitBy, closeSnapshot, merge_eq_replay]

/-- A snapshot that cannot be closed leaves the ledger as it was. -/
theorem eq_of_closeSnapshot_error {ledger left : LayeredLedger} {depth : Nat}
    {close : Layer → LayeredLedger → LayeredLedger} {cause : LedgerError}
    (h : closeSnapshot depth close ledger = .error cause left) :
    left = ledger := by
  rw [closeSnapshot] at h
  split at h
  · cases h
    rfl
  · split at h
    · cases h
    · cases h
      rfl

end LayeredLedger

end ContractMachine
