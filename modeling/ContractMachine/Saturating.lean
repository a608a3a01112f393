/-!
# Saturating counts

Gas, refunds, sizes and offsets are counts of at most 64 bits.  Sums and
products of counts stop at the largest one instead of wrapping around, so a
price that is too large to write down is still too large to pay.
-/

namespace ContractMachine.Saturating

/-- The largest count. -/
def limit : Nat := 0xffffffffffffffff

/-- The sum of two counts, or the largest count if the sum is not one. -/
def add (a b : Nat) : Nat := min (a + b) limit

/-- The product of two counts, or the largest count if it is not one. -/
def mul (a b : Nat) : Nat := min (a * b) limit

/-- The sum of two counts if that is a count. -/
def add? (a b : Nat) : Option Nat :=
  if a + b ≤ limit then some (a + b) else none

/-- The product of two counts if that is a count. -/
def mul? (a b : Nat) : Option Nat :=
  if a * b ≤ limit then some (a * b) else none

theorem add_le_limit (a b : Nat) : add a b ≤ limit := Nat.min_le_right ..

theorem mul_le_limit (a b : Nat) : mul a b ≤ limit := Nat.min_le_right ..

/-- A sum that fits is exact. -/
theorem add_eq_of_le {a b : Nat} (h : a + b ≤ limit) : add a b = a + b :=
  Nat.min_eq_left h

/-- A product that fits is exact. -/
theorem mul_eq_of_le {a b : Nat} (h : a * b ≤ limit) : mul a b = a * b :=
  Nat.min_eq_left h

/-- A sum that stops at the largest count may stop there earlier. -/
theorem add_min_limit (a b : Nat) :
    add (min a limit) b = min (a + b) limit := by
  rw [add]
  omega

end ContractMachine.Saturating
