import Mathlib

/-!
# Results of actions

An action on a state ends with a result or with an error, and leaves a state
either way.  How a sequence of two actions ends is told by how its parts end;
these equations take programs apart one action at a time.
-/

namespace ContractMachine.Actions

variable {ε σ α β : Type} {x : EStateM ε σ α} {f : α → EStateM ε σ β}
  {s t u : σ}

/-- What an action leaves, whether it succeeds or fails. -/
def left : EStateM.Result ε σ α → σ
  | .ok _ state => state
  | .error _ state => state

theorem bind_of_ok {a : α} (h : x s = .ok a t) : (x >>= f) s = f a t := by
  change (x >>= f).run s = f a t
  have hrun : x.run s = .ok a t := h
  rw [EStateM.run_bind, hrun]
  rfl

theorem bind_of_error {cause : ε} (h : x s = .error cause t) :
    (x >>= f) s = .error cause t := by
  change (x >>= f).run s = .error cause t
  have hrun : x.run s = .error cause t := h
  rw [EStateM.run_bind, hrun]

theorem bind_eq_ok_iff {b : β} :
    (x >>= f) s = .ok b u ↔ ∃ a t, x s = .ok a t ∧ f a t = .ok b u := by
  cases hx : x s with
  | ok a t => simp [bind_of_ok hx]
  | error cause t => simp [bind_of_error hx]

theorem pure_eq_ok_iff {a b : α} :
    (pure a : EStateM ε σ α) s = .ok b t ↔ a = b ∧ s = t := by
  change EStateM.Result.ok a s = .ok b t ↔ _
  simp

end ContractMachine.Actions
