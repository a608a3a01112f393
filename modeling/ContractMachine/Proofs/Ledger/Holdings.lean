import ContractMachine.Proofs.Ledger.Writes

/-!
# What writes leave at an address

A write changes what is held at the addresses it names and nothing else.  What
is held at one address is the account there, or an empty one, and its storage.
-/

namespace ContractMachine.FlatState

variable {state : FlatState} {a b : Address}

theorem held_modify (state : FlatState) (a b : Address)
    (f : Account → Account) :
    (state.modify a f).held b = if b = a then f (state.held b)
      else state.held b := by
  by_cases hb : b = a
  · subst b
    simp [modify, held, put]
  · simp [modify, held, put, hb]

theorem held_create (state : FlatState) (a b : Address) :
    (state.create a).held b =
      if b = a then { balance := (state.held b).balance }
      else state.held b := by
  by_cases hb : b = a
  · subst b
    simp [create, install, held, put]
  · simp [create, install, held, put, clear, hb]

theorem held_found (state : FlatState) (a b : Address) :
    (state.found a).held b =
      if b = a then { balance := (state.held b).balance, nonce := 1 }
      else state.held b := by
  by_cases hb : b = a
  · simp [found, setNonce, held_modify, held_create, hb]
  · simp [found, setNonce, held_modify, held_create, hb]

theorem held_setSlot (state : FlatState) (a b : Address) (key value : Word) :
    (state.setSlot a key value).held b = state.held b := by
  have hmodified : (state.setSlot a key value).held b =
      (state.modify a id).held b := rfl
  rw [hmodified, held_modify, id, ite_self]

/-- An account that is not there holds what a fresh one does. -/
theorem held_create_of_none (h : state.account a = none) (b : Address) :
    (state.create a).held b = state.held b := by
  rw [held_create]
  by_cases hb : b = a
  · subst b
    rw [if_pos rfl, held, h]
    rfl
  · rw [if_neg hb]

theorem slot_modify (state : FlatState) (a : Address) (f : Account → Account) :
    (state.modify a f).slot = state.slot := rfl

theorem slot_setSlot_of_ne (h : b ≠ a) (key value : Word) :
    (state.setSlot a key value).slot b = state.slot b := by
  simp [setSlot, store, slot_modify, h]

theorem slot_create_of_ne (h : b ≠ a) :
    (state.create a).slot b = state.slot b := by
  simp [create, install, put, clear, h]

/-! ## Deletions -/

theorem account_foldl_delete (deleted : List Address) (state : FlatState)
    (b : Address) :
    (deleted.foldl delete state).account b =
      if b ∈ deleted then none else state.account b := by
  induction deleted generalizing state with
  | nil => simp
  | cons a rest ih =>
    rw [List.foldl_cons, ih]
    by_cases hb : b = a
    · subst b
      simp [delete, put]
    · simp [delete, put, clear, hb]

theorem slot_foldl_delete (deleted : List Address) (state : FlatState)
    (b : Address) :
    (deleted.foldl delete state).slot b =
      if b ∈ deleted then fun _ => 0 else state.slot b := by
  induction deleted generalizing state with
  | nil => simp
  | cons a rest ih =>
    rw [List.foldl_cons, ih]
    by_cases hb : b = a
    · subst b
      simp [delete, put, clear]
    · simp [delete, put, clear, hb]

end ContractMachine.FlatState
