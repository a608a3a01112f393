import Mathlib
import ContractMachine.BigEndian.RoundTrip
import ContractMachine.Word.Basic

/-!
# The bytes of a word

A word and its 32 bytes determine each other: `ofBytes_toBytes` reads back
what is written, and `toBytes_ofBytes` writes back what is read.
-/

namespace ContractMachine.Word

/-- A word is the one that its bytes denote. -/
@[simp]
theorem ofBytes_toBytes (w : Word) : ofBytes w.toBytes = w := by
  have h : w.toNat < 256 ^ 32 := w.isLt
  rw [ofBytes, size_toBytes, Nat.sub_self, List.drop_zero, toBytes,
    BigEndian.decode_encode, Nat.mod_eq_of_lt h, BitVec.ofNat_toNat,
    BitVec.setWidth_eq]

/-- Thirty-two bytes are those of the word that they denote. -/
theorem toBytes_ofBytes {bytes : Bytes} (h : bytes.size = 32) :
    (ofBytes bytes).toBytes = bytes := by
  have hlt := BigEndian.decode_lt bytes.toList
  rw [Array.length_toList, h] at hlt
  have henc := BigEndian.encode_decode bytes.toList
  rw [Array.length_toList, h] at henc
  simp only [toBytes, ofBytes, BitVec.toNat_ofNat, h, Nat.sub_self,
    List.drop_zero]
  rw [Nat.mod_eq_of_lt (by simpa using hlt), henc]

end ContractMachine.Word
