import Mathlib
import ContractMachine.Gas.Schedule

/-!
# The price of memory

What memory costs grows with its size, so growing it in several steps costs
what growing it at once does.

The price is meant to be linear and quadratic in the number of words, cut off
at the largest count.  But the square is cut off before it is divided, so from
`2 ^ 32` words on the quadratic part stands still, and memory may be cheaper
than it is meant to be; `memoryCost_lt_quadraticPrice_iff` says when.
-/

namespace ContractMachine

theorem wordCount_mono {a b : Nat} (h : a ≤ b) : wordCount a ≤ wordCount b :=
  Nat.div_le_div_right (Nat.add_le_add_right h 31)

theorem wordCount_of_dvd {size : Nat} (h : 32 ∣ size) :
    wordCount size = size / 32 := by
  rw [wordCount]
  omega

namespace Schedule

open Saturating (limit)

variable {s : Schedule} {a b c words : Nat}

/-- Cutting off the linear part as well makes no difference. -/
theorem memoryCost_eq (s : Schedule) (words : Nat) :
    s.memoryCost words =
      min (s.memory * words +
        min (words * words) limit / max s.quadraticDivisor 1) limit :=
  Saturating.add_min_limit ..

@[simp]
theorem memoryCost_zero (s : Schedule) : s.memoryCost 0 = 0 := by
  simp [memoryCost_eq]

theorem memoryCost_le_limit (s : Schedule) (words : Nat) :
    s.memoryCost words ≤ limit :=
  Saturating.add_le_limit ..

theorem memoryCost_mono (s : Schedule) (h : a ≤ b) :
    s.memoryCost a ≤ s.memoryCost b := by
  have hsquare : min (a * a) limit ≤ min (b * b) limit :=
    min_le_min_right _ (Nat.mul_le_mul h h)
  rw [memoryCost_eq, memoryCost_eq]
  exact min_le_min_right _
    (Nat.add_le_add (Nat.mul_le_mul_left _ h) (Nat.div_le_div_right hsquare))

/-! ## Growing -/

/-- Growing to a size that is already there costs nothing, as the difference
says too. -/
theorem expansionCost_eq (s : Schedule) (h : a ≤ b) :
    s.expansionCost a b =
      s.memoryCost (wordCount b) - s.memoryCost (wordCount a) := by
  rw [expansionCost]
  by_cases hle : b ≤ a
  · obtain rfl : a = b := Nat.le_antisymm h hle
    rw [if_pos hle, Nat.sub_self]
  · rw [if_neg hle]

/-- What growing costs is what is missing to the price of the new size. -/
theorem expansionCost_add_memoryCost (s : Schedule) (h : a ≤ b) :
    s.expansionCost a b + s.memoryCost (wordCount a) =
      s.memoryCost (wordCount b) := by
  rw [expansionCost_eq s h]
  exact Nat.sub_add_cancel (s.memoryCost_mono (wordCount_mono h))

/-- Growing in two steps costs what growing at once does. -/
theorem expansionCost_add (s : Schedule) (hab : a ≤ b) (hbc : b ≤ c) :
    s.expansionCost a b + s.expansionCost b c = s.expansionCost a c := by
  have hfirst := s.expansionCost_add_memoryCost hab
  have hsecond := s.expansionCost_add_memoryCost hbc
  have hwhole := s.expansionCost_add_memoryCost (hab.trans hbc)
  omega

theorem expansionCost_le_limit (s : Schedule) (h : a ≤ b) :
    s.expansionCost a b ≤ limit := by
  rw [expansionCost_eq s h]
  exact (Nat.sub_le ..).trans (s.memoryCost_le_limit _)

/-! ## The quadratic price -/

/-- What memory is meant to cost, worked out without a bound and then cut
off. -/
def quadraticPrice (s : Schedule) (words : Nat) : Nat :=
  min (s.memory * words + words * words / s.quadraticDivisor) limit

theorem memoryCost_eq_of_pos (h : 1 ≤ s.quadraticDivisor) (words : Nat) :
    s.memoryCost words =
      min (s.memory * words + min (words * words) limit / s.quadraticDivisor)
        limit := by
  rw [memoryCost_eq, max_eq_left h]

/-- Memory costs less than it is meant to just if cutting off the square shows
in the quotient and the sum is still below the largest count. -/
theorem memoryCost_lt_quadraticPrice_iff (h : 1 ≤ s.quadraticDivisor) :
    s.memoryCost words < s.quadraticPrice words ↔
      limit / s.quadraticDivisor < words * words / s.quadraticDivisor ∧
        s.memory * words + limit / s.quadraticDivisor < limit := by
  rw [memoryCost_eq_of_pos h, quadraticPrice]
  obtain hfits | hcut := Nat.le_total (words * words) limit
  · have hquotient := Nat.div_le_div_right (c := s.quadraticDivisor) hfits
    rw [min_eq_left hfits]
    omega
  · have hquotient := Nat.div_le_div_right (c := s.quadraticDivisor) hcut
    rw [min_eq_right hcut]
    omega

theorem memoryCost_le_quadraticPrice (h : 1 ≤ s.quadraticDivisor)
    (words : Nat) :
    s.memoryCost words ≤ s.quadraticPrice words := by
  have hquotient : min (words * words) limit / s.quadraticDivisor ≤
      words * words / s.quadraticDivisor :=
        Nat.div_le_div_right (min_le_left ..)
  rw [memoryCost_eq_of_pos h, quadraticPrice]
  exact min_le_min_right _ (Nat.add_le_add_left hquotient _)

/-- The price is the one that is meant as long as the square of the size is a
count. -/
theorem memoryCost_eq_quadraticPrice (h : 1 ≤ s.quadraticDivisor)
    (hwords : words < 2 ^ 32) :
    s.memoryCost words = s.quadraticPrice words := by
  have hfits : words * words ≤ limit := calc
    words * words ≤ (2 ^ 32 - 1) * (2 ^ 32 - 1) :=
      Nat.mul_le_mul (Nat.le_pred_of_lt hwords) (Nat.le_pred_of_lt hwords)
    _ ≤ limit := by decide
  rw [memoryCost_eq_of_pos h, quadraticPrice, min_eq_left hfits]

end Schedule

end ContractMachine
