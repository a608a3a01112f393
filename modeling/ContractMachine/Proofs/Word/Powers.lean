import Mathlib
import ContractMachine.BigEndian.RoundTrip
import ContractMachine.Gas.Schedule
import ContractMachine.Word.Arithmetic

/-!
# Powers and remainders are exact

Every product of square-and-multiply wraps.  That does no harm, since words are
a ring: the product so far times the base to what is left of the exponent is the
same before and after a round, and when nothing is left it is the product.  Each
round halves the exponent, so the loop ends.

Remainders of sums and products are taken in twice the width, where neither
wraps, and are words again since they are smaller than the modulus.
-/

namespace ContractMachine.Word

/-! ## Powers -/

namespace Powering

/-- What the rounds are to give: the product so far times the power that is
left. -/
def power (p : Powering) : Word := p.product * p.base ^ p.exponent.toNat

/-- Half of an exponent counts twice, and the low-order bit once. -/
theorem toNat_exponent (p : Powering) :
    p.exponent.toNat =
      2 * p.round.exponent.toNat + (p.exponent.getLsbD 0).toNat := by
  have hhalf : p.round.exponent.toNat = p.exponent.toNat / 2 := by
    rw [round, BitVec.toNat_ushiftRight, Nat.shiftRight_one]
  have hbit : (p.exponent.getLsbD 0).toNat = p.exponent.toNat % 2 := by
    rw [BitVec.getLsbD, Nat.testBit_zero]
    rcases Nat.mod_two_eq_zero_or_one p.exponent.toNat with h | h <;> simp [h]
  omega

theorem product_round (p : Powering) :
    p.round.product = p.product * p.base ^ (p.exponent.getLsbD 0).toNat := by
  rw [round]
  cases p.exponent.getLsbD 0 with
  | false => exact (mul_one _).symm
  | true => exact congrArg (p.product * ·) (pow_one p.base).symm

/-- A round leaves the power as it is. -/
theorem power_round (p : Powering) : p.round.power = p.power := calc
  p.round.power = p.product * p.base ^ (p.exponent.getLsbD 0).toNat *
      (p.base * p.base) ^ p.round.exponent.toNat := by
    rw [power, product_round]
    rfl
  _ = p.product * p.base ^ (2 * p.round.exponent.toNat +
    (p.exponent.getLsbD 0).toNat) := by
    rw [← sq, ← pow_mul, mul_assoc, ← pow_add, Nat.add_comm]
  _ = p.power := by rw [power, ← toNat_exponent]

theorem run_eq_power (p : Powering) : p.run = p.power := by
  fun_induction run p with
  | case1 p hzero => simp [power, hzero]
  | case2 p _ ih => rw [ih, power_round]

/-- The exponent is first used up after at most as many rounds as it has bits,
and then the product is the result. -/
theorem exists_rounds {p : Powering} {width : Nat}
    (h : p.exponent.toNat < 2 ^ width) :
    ∃ rounds ≤ width, IsLeast {count | (round^[count] p).exponent = 0} rounds ∧
      (round^[rounds] p).product = p.run := by
  fun_induction run p generalizing width with
  | case1 p hzero =>
    exact ⟨0, Nat.zero_le _, ⟨hzero, fun _ _ => Nat.zero_le _⟩, rfl⟩
  | case2 p hne ih =>
    have hpos : p.exponent.toNat ≠ 0 :=
      fun hzero => hne (BitVec.eq_of_toNat_eq hzero)
    cases width with
    | zero => exact absurd (Nat.lt_one_iff.1 h) hpos
    | succ width =>
      have hhalf : p.round.exponent.toNat < 2 ^ width := by
        have hexponent := p.toNat_exponent
        rw [Nat.pow_succ] at h
        omega
      obtain ⟨rounds, hle, ⟨hdone, hleast⟩, hproduct⟩ := ih hhalf
      refine ⟨rounds + 1, Nat.succ_le_succ hle, ⟨hdone, ?_⟩, hproduct⟩
      intro earlier hearlier
      cases earlier with
      | zero => exact absurd hearlier hne
      | succ earlier => exact Nat.succ_le_succ (hleast hearlier)

end Powering

theorem pow_eq_pow (a e : Word) : a.pow e = a ^ e.toNat := by
  rw [pow, Powering.run_eq_power, Powering.power]
  exact one_mul _

theorem toNat_pow (a e : Word) :
    (a.pow e).toNat = a.toNat ^ e.toNat % 2 ^ 256 := by
  rw [pow_eq_pow, BitVec.toNat_pow]

theorem pow_add_of_lt (a : Word) {e f : Word}
    (h : e.toNat + f.toNat < 2 ^ 256) :
    a.pow (e + f) = a.pow e * a.pow f := by
  rw [pow_eq_pow, pow_eq_pow, pow_eq_pow, BitVec.toNat_add_of_lt h, pow_add]

/-! ## Remainders -/

variable {n : Word}

@[simp]
theorem toNat_widen (w : Word) : w.widen.toNat = w.toNat :=
  BitVec.toNat_setWidth_of_le (by decide)

/-- A remainder is smaller than the modulus, so that narrowing it loses
nothing. -/
theorem toNat_narrow_umod (h : n ≠ 0) (m : BitVec 512) :
    (narrow (m % n.widen)).toNat = m.toNat % n.toNat := by
  have hpos : 0 < n.toNat := Nat.pos_of_ne_zero fun hzero =>
    h (BitVec.eq_of_toNat_eq hzero)
  have hlt : m.toNat % n.toNat < 2 ^ 256 := (Nat.mod_lt _ hpos).trans n.isLt
  rw [narrow, BitVec.toNat_setWidth, BitVec.toNat_umod, toNat_widen,
    Nat.mod_eq_of_lt hlt]

theorem toNat_addMod (a b : Word) (h : n ≠ 0) :
    (a.addMod b n).toNat = (a.toNat + b.toNat) % n.toNat := by
  have hsum : (a.widen + b.widen).toNat = a.toNat + b.toNat := by
    have ha := a.isLt
    have hb := b.isLt
    rw [BitVec.toNat_add_of_lt, toNat_widen, toNat_widen]
    rw [toNat_widen, toNat_widen]
    omega
  rw [addMod, if_neg h, toNat_narrow_umod h, hsum]

/-- Twice the width is enough for every product. -/
theorem toNat_setWidth_mul {width : Nat} (x y : BitVec width) :
    (x.setWidth (width + width) * y.setWidth (width + width)).toNat =
      x.toNat * y.toNat := by
  have hlt : x.toNat * y.toNat < 2 ^ (width + width) := by
    rw [pow_add]
    exact Nat.mul_lt_mul'' x.isLt y.isLt
  rw [BitVec.toNat_mul, BitVec.toNat_setWidth_of_le (Nat.le_add_left ..),
    BitVec.toNat_setWidth_of_le (Nat.le_add_left ..), Nat.mod_eq_of_lt hlt]

theorem toNat_mulMod (a b : Word) (h : n ≠ 0) :
    (a.mulMod b n).toNat = a.toNat * b.toNat % n.toNat := by
  have hproduct : (a.widen * b.widen).toNat = a.toNat * b.toNat :=
    toNat_setWidth_mul a b
  rw [mulMod, if_neg h, toNat_narrow_umod h, hproduct]

/-- Powers and remainders are those of the numbers.  Square-and-multiply ends,
after at most as many rounds as a word has bits, and what it leaves is the power
modulo `2 ^ 256`, one for the exponent zero; so the power to a sum that is a
word is the product of the powers.  By a modulus other than zero, the remainders
of a sum and of a product are those of the unbounded ones.  An exponent is
charged for each of the bytes that it needs at least, up to the largest
count. -/
theorem powers_and_remainders_are_exact (a b e f n : Word) (s : Schedule) :
    (∃ rounds ≤ 256,
      IsLeast {count | (Powering.round^[count] ⟨a, e, 1⟩).exponent = 0} rounds ∧
        (Powering.round^[rounds] ⟨a, e, 1⟩).product = a.pow e) ∧
    (a.pow e).toNat = a.toNat ^ e.toNat % 2 ^ 256 ∧
    a.pow 0 = 1 ∧
    (e.toNat + f.toNat < 2 ^ 256 → a.pow (e + f) = a.pow e * a.pow f) ∧
    (n ≠ 0 →
      (a.addMod b n).toNat = (a.toNat + b.toNat) % n.toNat ∧
      (a.mulMod b n).toNat = a.toNat * b.toNat % n.toNat) ∧
    ∃ length, IsLeast {count | e.toNat < 256 ^ count} length ∧
      s.expCost e = min (s.expByte * length) (2 ^ 64 - 1) := by
  have hone : a.pow 0 = 1 := by
    rw [pow_eq_pow]
    exact pow_zero a
  exact ⟨Powering.exists_rounds e.isLt, toNat_pow a e, hone, pow_add_of_lt a,
    fun hn => ⟨toNat_addMod a b hn, toNat_mulMod a b hn⟩,
    e.byteLength, BigEndian.isLeast_byteLength e.toNat, rfl⟩

/-- Two to the 256 wraps, and so does its half times two; the square of the
largest word is no word, but its remainder by twelve is nine. -/
theorem largest_square_leaves_nine :
    (255 : Word).toNat + (1 : Word).toNat < 2 ^ 256 ∧
      pow 2 (255 + 1) = pow 2 255 * pow 2 1 ∧
      (12 : Word) ≠ 0 ∧ (mulMod top top 12).toNat = 9 := by
  obtain ⟨_, _, _, hsum, _, _⟩ :=
    powers_and_remainders_are_exact 2 0 255 1 12 {}
  obtain ⟨_, _, _, _, hmodulus, _⟩ :=
    powers_and_remainders_are_exact top top 0 0 12 {}
  refine ⟨by decide, hsum (by decide), by decide, ?_⟩
  rw [(hmodulus (by decide)).2]
  decide

end ContractMachine.Word
