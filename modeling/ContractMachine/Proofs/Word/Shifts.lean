import Mathlib
import ContractMachine.Proofs.Frame.EndlessBytes
import ContractMachine.Word.Shift

/-!
# Shifts, sign extension and byte selection compute on integers

The operations look at the size of their second operand before they shift, so
no operand is too large for them: past the width they give what a shift without
bounds would.  Each is described as a function of numbers, and the shifts and
the sign extension bit by bit as well, since the laws between them are about
where bits come from: a sign extension takes every bit above the sign bit from
there, and an arithmetic shift takes those past the end from the last one.
-/

namespace ContractMachine.Word

variable {v s : Word} {i : Nat}

/-! ## Shifts -/

theorem shl_eq_shiftLeft (v s : Word) : v.shl s = v <<< s.toNat := by
  rw [shl]
  split
  · rfl
  · exact (BitVec.shiftLeft_eq_zero (by omega)).symm

theorem shr_eq_ushiftRight (v s : Word) : v.shr s = v >>> s.toNat := by
  rw [shr]
  split
  · rfl
  · exact (BitVec.ushiftRight_eq_zero (by omega)).symm

/-- The ones above what a logical shift leaves of a word stand where the
arithmetic shift copies the sign. -/
theorem getLsbD_filled {shift : Nat} (h : shift < 256) (hi : i < 256) :
    (v >>> shift ||| top <<< (256 - shift)).getLsbD i =
      if shift + i < 256 then v.getLsbD (shift + i) else true := by
  rw [BitVec.getLsbD_or, BitVec.getLsbD_ushiftRight,
    BitVec.getLsbD_shiftLeft, top, BitVec.getLsbD_allOnes, decide_eq_true hi,
    Bool.true_and]
  by_cases hinside : shift + i < 256
  · rw [if_pos hinside, decide_eq_true (show i < 256 - shift by omega),
      Bool.not_true, Bool.false_and, Bool.or_false]
  · rw [if_neg hinside, decide_eq_false (show ¬i < 256 - shift by omega),
      decide_eq_true (show i - (256 - shift) < 256 by omega), Bool.not_false,
      Bool.true_and,
      Bool.or_true]

theorem sar_eq_sshiftRight (v s : Word) : v.sar s = v.sshiftRight s.toNat := by
  apply BitVec.eq_of_getLsbD_eq
  intro i hi
  have hwidth : ¬256 ≤ i := Nat.not_le.2 hi
  rw [BitVec.getLsbD_sshiftRight, decide_eq_false hwidth, Bool.not_false,
    Bool.true_and, sar, isNegative]
  by_cases hshift : s.toNat < 256
  · rw [if_pos hshift]
    cases v.msb with
    | true => exact getLsbD_filled hshift hi
    | false =>
      rw [if_neg Bool.false_ne_true, BitVec.getLsbD_ushiftRight]
      split
      · rfl
      · exact BitVec.getLsbD_of_ge v _ (by omega)
  · rw [if_neg hshift, if_neg (show ¬s.toNat + i < 256 by omega)]
    cases v.msb with
    | true => exact BitVec.getLsbD_allOnes.trans (decide_eq_true hi)
    | false => exact BitVec.getLsbD_zero

theorem toNat_shl (v s : Word) :
    (v.shl s).toNat = v.toNat * 2 ^ s.toNat % 2 ^ 256 := by
  rw [shl_eq_shiftLeft, BitVec.toNat_shiftLeft, Nat.shiftLeft_eq]

theorem toNat_shr (v s : Word) : (v.shr s).toNat = v.toNat / 2 ^ s.toNat := by
  rw [shr_eq_ushiftRight, BitVec.toNat_ushiftRight, Nat.shiftRight_eq_div_pow]

theorem toInt_sar (v s : Word) :
    (v.sar s).toInt = v.toInt.fdiv (2 ^ s.toNat) := by
  rw [sar_eq_sshiftRight, BitVec.toInt_sshiftRight, Int.shiftRight_eq_div_pow,
    Int.fdiv_eq_ediv_of_nonneg _ (by positivity)]
  norm_cast

theorem getLsbD_shl (hi : i < 256) (hshift : s.toNat ≤ i) :
    (v.shl s).getLsbD i = v.getLsbD (i - s.toNat) := by
  rw [shl_eq_shiftLeft, BitVec.getLsbD_shiftLeft, decide_eq_true hi,
    decide_eq_false (Nat.not_lt.2 hshift), Bool.not_false, Bool.true_and,
    Bool.true_and]

/-- Bits from past the end are copies of the last one. -/
theorem getLsbD_sar (hi : i < 256) :
    (v.sar s).getLsbD i = v.getLsbD (min (s.toNat + i) 255) := by
  rw [sar_eq_sshiftRight, BitVec.getLsbD_sshiftRight,
    BitVec.msb_eq_getLsbD_last, decide_eq_false (Nat.not_le.2 hi),
    Bool.not_false, Bool.true_and]
  by_cases hinside : s.toNat + i < 256
  · rw [if_pos hinside, Nat.min_eq_left (by omega)]
  · rw [if_neg hinside, Nat.min_eq_right (by omega)]

/-! ## Sign extension -/

/-- The mask under a sign bit has just the bits below it. -/
theorem getLsbD_mask {signBit : Nat} (h : signBit < 256) (i : Nat) :
    (1#256 <<< signBit - 1).getLsbD i = decide (i < signBit) := by
  have hpow : 2 ^ signBit < 2 ^ 256 := Nat.pow_lt_pow_right (by decide) h
  have hshift : (1#256 <<< signBit).toNat = 2 ^ signBit := by
    rw [BitVec.toNat_shiftLeft, BitVec.toNat_ofNat,
      Nat.one_mod_two_pow (by decide), Nat.shiftLeft_eq, Nat.one_mul,
      Nat.mod_eq_of_lt hpow]
  have hone : (1 : Word) ≤ 1#256 <<< signBit := by
    rw [BitVec.le_def, hshift]
    exact Nat.pow_pos (by decide)
  rw [BitVec.getLsbD, BitVec.toNat_sub_of_le hone, hshift]
  exact Nat.testBit_two_pow_sub_one ..

/-- Bits above the sign bit are copies of it. -/
theorem getLsbD_signExtend (v k : Word) (hi : i < 256) :
    (v.signExtend k).getLsbD i = v.getLsbD (min i (8 * k.toNat + 7)) := by
  rw [signExtend]
  by_cases hk : k.toNat < 31
  · have hmask := getLsbD_mask (show 8 * k.toNat + 7 < 256 by omega) i
    rw [if_pos hk]
    dsimp only
    by_cases hlow : i < 8 * k.toNat + 7
    · -- under the sign bit nothing changes
      rw [Nat.min_eq_left hlow.le]
      split
      · rw [BitVec.getLsbD_or, BitVec.getLsbD_not, hmask]
        simp [hlow]
      · rw [BitVec.getLsbD_and, hmask]
        simp [hlow]
    · rw [Nat.min_eq_right (Nat.not_lt.1 hlow)]
      split
      next hsign =>
        rw [BitVec.getLsbD_or, BitVec.getLsbD_not, hmask, hsign]
        simp [hlow, hi]
      next hsign =>
        rw [BitVec.getLsbD_and, hmask, Bool.eq_false_iff.2 hsign]
        simp [hlow]
  · rw [if_neg hk, Nat.min_eq_left (by omega)]

theorem signExtend_eq_signExtend (v : Word) {k : Word} (h : k.toNat < 32) :
    v.signExtend k = (v.setWidth (8 * (k.toNat + 1))).signExtend 256 := by
  apply BitVec.eq_of_getLsbD_eq
  intro i hi
  rw [getLsbD_signExtend v k hi, BitVec.getLsbD_signExtend, decide_eq_true hi,
    Bool.true_and, BitVec.msb_setWidth, BitVec.getLsbD_setWidth]
  by_cases hlow : i < 8 * (k.toNat + 1)
  · rw [if_pos hlow, decide_eq_true hlow, Bool.true_and,
      Nat.min_eq_left (by omega)]
  · rw [if_neg hlow, Nat.min_eq_right (by omega), decide_eq_true (by omega),
      Bool.true_and]
    rfl

theorem toInt_signExtend (v : Word) {k : Word} (h : k.toNat < 32) :
    (v.signExtend k).toInt = (v.setWidth (8 * (k.toNat + 1))).toInt := by
  rw [signExtend_eq_signExtend v h]
  exact BitVec.toInt_signExtend_of_le (by omega)

theorem signExtend_of_le (v : Word) {k : Word} (h : 31 ≤ k.toNat) :
    v.signExtend k = v :=
  if_neg (Nat.not_lt.2 h)

/-- Of two sign extensions the one from fewer bytes decides. -/
theorem signExtend_signExtend (v j k : Word) :
    (v.signExtend j).signExtend k = v.signExtend (if j ≤ k then j else k) := by
  apply BitVec.eq_of_getLsbD_eq
  intro i hi
  have hsource : min i (8 * k.toNat + 7) < 256 := by omega
  rw [getLsbD_signExtend _ _ hi, getLsbD_signExtend _ _ hsource,
    getLsbD_signExtend _ _ hi]
  congr 1
  by_cases h : j ≤ k
  · rw [if_pos h]
    rw [BitVec.le_def] at h
    omega
  · rw [if_neg h]
    rw [BitVec.le_def] at h
    omega

/-- Moving the sign bit to the top and back copies it over what stands above
it. -/
theorem signExtend_eq_sar_shl (v : Word) {k : Word} (h : k.toNat ≤ 30) :
    v.signExtend k =
      (v.shl (ofCount (248 - 8 * k.toNat))).sar
        (ofCount (248 - 8 * k.toNat)) := by
  have hshift : (ofCount (248 - 8 * k.toNat)).toNat = 248 - 8 * k.toNat := by
    rw [ofCount, BitVec.toNat_ofNat, Nat.mod_eq_of_lt (by omega)]
  apply BitVec.eq_of_getLsbD_eq
  intro i hi
  rw [getLsbD_signExtend _ _ hi, getLsbD_sar hi,
    getLsbD_shl (by omega) (by omega), hshift]
  congr 1
  omega

/-! ## Byte selection -/

theorem toNat_byteAt (v : Word) {i : Word} (h : i.toNat < 32) :
    (v.byteAt i).toNat = v.toNat / 2 ^ (8 * (31 - i.toNat)) % 256 := by
  have hbyte : v.toNat / 2 ^ (8 * (31 - i.toNat)) % 256 < 2 ^ 256 :=
    (Nat.mod_lt _ (by decide)).trans (by decide)
  have hpow : 256 ^ (31 - i.toNat) = 2 ^ (8 * (31 - i.toNat)) := by
    rw [Nat.pow_mul]
  rw [byteAt, if_pos h, getD_toBytes _ h, UInt8.toNat_ofNat', hpow, ofCount,
    BitVec.toNat_ofNat]
  exact Nat.mod_eq_of_lt hbyte

/-- Shifts, sign extension and byte selection are what they are on numbers,
whatever word the second operand is.  A left shift multiplies by a power of two,
modulo `2 ^ 256`; the right shifts divide by one and round down, the logical one
the number and the arithmetic one the integer that the word stands for.  A sign
extension stands for the integer that the low-order bytes stand for, and changes
nothing if these are all; of two in a row the one from fewer bytes decides, so
that a second one from the same bytes changes nothing; and it is a left shift
and an arithmetic shift back.  A byte is a digit to base 256, the first one the
most significant, and zero past the last. -/
theorem shifts_match_integers (v s i j k : Word) :
    (v.shl s).toNat = v.toNat * 2 ^ s.toNat % 2 ^ 256 ∧
    (v.shr s).toNat = v.toNat / 2 ^ s.toNat ∧
    (v.sar s).toInt = v.toInt.fdiv (2 ^ s.toNat) ∧
    (k.toNat < 32 →
      (v.signExtend k).toInt = (v.setWidth (8 * (k.toNat + 1))).toInt) ∧
    (31 ≤ k.toNat → v.signExtend k = v) ∧
    (v.signExtend k).signExtend k = v.signExtend k ∧
    (v.signExtend j).signExtend k = v.signExtend (if j ≤ k then j else k) ∧
    (k.toNat ≤ 30 → v.signExtend k =
      (v.shl (ofCount (248 - 8 * k.toNat))).sar (ofCount (248 - 8 * k.toNat))) ∧
    (i.toNat < 32 →
      (v.byteAt i).toNat = v.toNat / 2 ^ (8 * (31 - i.toNat)) % 256) ∧
    (32 ≤ i.toNat → v.byteAt i = 0) := by
  have hidempotent : (v.signExtend k).signExtend k = v.signExtend k := by
    rw [signExtend_signExtend, ite_self]
  have hpast : 32 ≤ i.toNat → v.byteAt i = 0 := fun h => if_neg (Nat.not_lt.2 h)
  exact ⟨toNat_shl v s, toNat_shr v s, toInt_sar v s, toInt_signExtend v,
    signExtend_of_le v, hidempotent, signExtend_signExtend v j k,
    signExtend_eq_sar_shl v, toNat_byteAt v, hpast⟩

/-- Extended from its two bytes, `0x80ff` stands for minus 32513, and that is
what shifting them to the top and back leaves; extended from all bytes it does
not change.  Its last byte but one is `0x80`, and there is none past the
last. -/
theorem two_bytes_extend :
    (signExtend 0x80ff 1).toInt = -32513 ∧
      signExtend 0x80ff 1 = (shl 0x80ff (ofCount 240)).sar (ofCount 240) ∧
      signExtend 0x80ff 31 = 0x80ff ∧ (byteAt 0x80ff 30).toNat = 0x80 ∧
      byteAt 0x80ff (-1) = 0 := by
  obtain ⟨_, _, _, hvalue, _, _, _, hshifts, hbyte, _⟩ :=
    shifts_match_integers 0x80ff 0 30 0 1
  obtain ⟨_, _, _, _, hwhole, _, _, _, _, hpast⟩ :=
    shifts_match_integers 0x80ff 0 (-1) 0 31
  refine ⟨?_, hshifts (by decide), hwhole (by decide), ?_, hpast (by decide)⟩
  · rw [hvalue (by decide)]
    decide
  · rw [hbyte (by decide)]
    decide

end ContractMachine.Word
