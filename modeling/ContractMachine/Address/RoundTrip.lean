import Mathlib
import ContractMachine.Address.Basic
import ContractMachine.BigEndian.RoundTrip

/-!
# The bytes of an address

An address and its 20 bytes determine each other, so nothing is lost when an
address is written into a preimage and nothing is added when it is read.
-/

namespace ContractMachine.Address

/-- An address is the one that its bytes denote. -/
@[simp]
theorem ofBytes_toBytes (a : Address) : ofBytes a.toBytes = a := by
  have h : a.toNat < 256 ^ 20 := a.isLt
  rw [ofBytes, toBytes, BigEndian.decode_encode, Nat.mod_eq_of_lt h,
    BitVec.ofNat_toNat, BitVec.setWidth_eq]

/-- Twenty bytes are those of the address that they denote. -/
theorem toBytes_ofBytes {bytes : Bytes} (h : bytes.size = 20) :
    (ofBytes bytes).toBytes = bytes := by
  have hlt := BigEndian.decode_lt bytes.toList
  rw [Array.length_toList, h] at hlt
  have henc := BigEndian.encode_decode bytes.toList
  rw [Array.length_toList, h] at henc
  simp only [toBytes, ofBytes, BitVec.toNat_ofNat]
  rw [Nat.mod_eq_of_lt (by simpa using hlt), henc]

end ContractMachine.Address
