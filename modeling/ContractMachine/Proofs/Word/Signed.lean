import Mathlib
import ContractMachine.Word.Arithmetic

/-!
# Signed operations compute on integers

A word stands for the integer in `[-2 ^ 255, 2 ^ 255)` that it is congruent to,
which is `BitVec.toInt`.  Signed division never forms that integer: it divides
magnitudes as unsigned words and puts the sign back by two's-complement
negation.  The least word has no opposite, but its magnitude is the right
unsigned word all the same, so quotient and remainder are those of the
integers, up to the one quotient that is no signed word and wraps.
-/

namespace ContractMachine.Word

variable {a b : Word}

theorem negate_eq_neg (a : Word) : a.negate = -a :=
  (BitVec.neg_eq_not_add a).symm

theorem isNegative_iff : a.isNegative = true ↔ 2 ^ 255 ≤ a.toNat := by
  simp [isNegative, BitVec.msb_eq_decide]

theorem toInt_of_isNegative (h : a.isNegative = true) :
    a.toInt = a.toNat - 2 ^ 256 := by
  rw [BitVec.toInt_eq_msb_cond]
  exact if_pos h

theorem toInt_of_not_isNegative (h : a.isNegative = false) :
    a.toInt = a.toNat := by
  rw [BitVec.toInt_eq_msb_cond]
  exact if_neg (Bool.eq_false_iff.1 h)

/-! ## Division -/

/-- The quotient of the magnitudes with the sign put back is the quotient of the
two's-complement numbers. -/
theorem signedDiv_eq_sdiv (h : b ≠ 0) : a.signedDiv b = a.sdiv b := by
  rw [signedDiv, if_neg h, BitVec.sdiv_eq]
  cases ha : a.msb <;> cases hb : b.msb <;>
    simp [magnitude, isNegative, negate_eq_neg, ha, hb, BitVec.udiv_eq]

/-- The remainder of the magnitudes with the sign of the dividend is the
remainder of the two's-complement numbers. -/
theorem signedMod_eq_srem (h : b ≠ 0) : a.signedMod b = a.srem b := by
  rw [signedMod, if_neg h, BitVec.srem_eq]
  cases ha : a.msb <;> cases hb : b.msb <;>
    simp [magnitude, isNegative, negate_eq_neg, ha, hb]

theorem signedDiv_eq_ofInt (h : b ≠ 0) :
    a.signedDiv b = BitVec.ofInt 256 (a.toInt.tdiv b.toInt) := by
  apply BitVec.eq_of_toInt_eq
  rw [signedDiv_eq_sdiv h, BitVec.toInt_sdiv, BitVec.toInt_ofInt]

theorem toInt_signedMod (h : b ≠ 0) :
    (a.signedMod b).toInt = a.toInt.tmod b.toInt := by
  rw [signedMod_eq_srem h, BitVec.toInt_srem]

/-- The quotient is a word, so that it is the least number it is congruent
to. -/
theorem toNat_signedDiv (h : b ≠ 0) :
    ((a.signedDiv b).toNat : ℤ) = a.toInt.tdiv b.toInt % 2 ^ 256 := by
  rw [signedDiv_eq_ofInt h, BitVec.toNat_ofInt]
  exact Int.toNat_of_nonneg (Int.emod_nonneg _ (by norm_num))

theorem abs_toInt_signedMod_lt (h : b ≠ 0) :
    |(a.signedMod b).toInt| < |b.toInt| := by
  have hdivisor : b.toInt ≠ 0 := fun hzero => h (BitVec.eq_of_toInt_eq hzero)
  rw [toInt_signedMod h, Int.abs_eq_natAbs, Int.abs_eq_natAbs, Int.natAbs_tmod]
  exact_mod_cast Nat.mod_lt _ (Int.natAbs_pos.2 hdivisor)

/-- A remainder that is not zero has the sign of the dividend. -/
theorem sign_toInt_signedMod (h : b ≠ 0) :
    (a.signedMod b).toInt = 0 ∨ (a.signedMod b).toInt.sign = a.toInt.sign := by
  rw [toInt_signedMod h, ← Int.sign_eq_zero_iff_zero, Int.sign_tmod]
  by_cases hdvd : b.toInt ∣ a.toInt
  · exact .inl (if_pos hdvd)
  · exact .inr (if_neg hdvd)

/-- Dividing and multiplying back gives the dividend; nothing is lost where the
quotient wraps. -/
theorem signedDiv_mul_add_signedMod (h : b ≠ 0) :
    a.signedDiv b * b + a.signedMod b = a := calc
  a.signedDiv b * b + a.signedMod b =
      BitVec.ofInt 256 (a.toInt.tdiv b.toInt) * BitVec.ofInt 256 b.toInt +
        BitVec.ofInt 256 (a.toInt.tmod b.toInt) := by
    rw [signedDiv_eq_ofInt h, ← toInt_signedMod h, BitVec.ofInt_toInt,
      BitVec.ofInt_toInt]
  _ = BitVec.ofInt 256 (a.toInt.tdiv b.toInt * b.toInt +
    a.toInt.tmod b.toInt) := by
    rw [BitVec.ofInt_add, BitVec.ofInt_mul]
  _ = a := by
    rw [mul_comm, add_comm, Int.tmod_add_mul_tdiv, BitVec.ofInt_toInt]

/-! ## Comparison -/

/-- Where the signs differ they decide; where they agree, both readings are
shifted alike. -/
theorem signedLt_iff : a.signedLt b = true ↔ a.toInt < b.toInt := by
  have ha := a.isLt
  have hb := b.isLt
  rw [signedLt]
  cases hsigna : a.isNegative <;> cases hsignb : b.isNegative
  · rw [toInt_of_not_isNegative hsigna, toInt_of_not_isNegative hsignb]
    simp [BitVec.lt_def]
  · have hlarge := isNegative_iff.1 hsignb
    rw [toInt_of_not_isNegative hsigna, toInt_of_isNegative hsignb]
    exact iff_of_false Bool.false_ne_true (by omega)
  · have hlarge := isNegative_iff.1 hsigna
    rw [toInt_of_isNegative hsigna, toInt_of_not_isNegative hsignb]
    exact iff_of_true rfl (by omega)
  · rw [toInt_of_isNegative hsigna, toInt_of_isNegative hsignb]
    simp [BitVec.lt_def]

/-- Signed operations are those of the integers that the words stand for.  By
zero, quotient and remainder are zero.  By any other word, the quotient is the
word congruent to the quotient rounded toward zero, so that the least word
divided by minus one is the least word again; the remainder stands for what the
exact quotient leaves, is zero or has the sign of the dividend, and is smaller
in magnitude than the divisor; and multiplying back and adding the remainder
gives the dividend.  The comparisons are those of the integers. -/
theorem signed_operations_match_integers (a b : Word) :
    (a.signedDiv 0 = 0 ∧ a.signedMod 0 = 0) ∧
    (b ≠ 0 →
      ((a.signedDiv b).toNat : ℤ) = a.toInt.tdiv b.toInt % 2 ^ 256 ∧
      (a.signedMod b).toInt = a.toInt - b.toInt * a.toInt.tdiv b.toInt ∧
      ((a.signedMod b).toInt = 0 ∨ (a.signedMod b).toInt.sign = a.toInt.sign) ∧
      |(a.signedMod b).toInt| < |b.toInt| ∧
      a.signedDiv b * b + a.signedMod b = a) ∧
    signedDiv (BitVec.intMin 256) (-1) = BitVec.intMin 256 ∧
    (a.signedLt b = true ↔ a.toInt < b.toInt) ∧
    (a.signedGt b = true ↔ b.toInt < a.toInt) := by
  refine ⟨⟨if_pos rfl, if_pos rfl⟩, ?_, by decide, signedLt_iff, signedLt_iff⟩
  intro hb
  have hremainder : (a.signedMod b).toInt =
      a.toInt - b.toInt * a.toInt.tdiv b.toInt := by
    rw [toInt_signedMod hb, Int.tmod_def]
  exact ⟨toNat_signedDiv hb, hremainder, sign_toInt_signedMod hb,
    abs_toInt_signedMod_lt hb, signedDiv_mul_add_signedMod hb⟩

/-- Minus seven by two is minus three, and minus one is left. -/
theorem minus_seven_by_two :
    (2 : Word) ≠ 0 ∧ signedDiv (-7) 2 = -3 ∧ (signedMod (-7) 2).toInt = -1 ∧
      signedDiv (-7) 2 * 2 + signedMod (-7) 2 = -7 := by
  obtain ⟨_, hdivides, _⟩ := signed_operations_match_integers (-7) 2
  obtain ⟨_, hremainder, _, _, hback⟩ := hdivides (by decide)
  refine ⟨by decide, by decide, ?_, hback⟩
  rw [hremainder]
  decide

end ContractMachine.Word
