import ContractMachine.BigEndian.Basic
import ContractMachine.Bytes

/-!
# Addresses

An account is named by a 160-bit number, seen from outside as 20 bytes with
the most significant first.
-/

namespace ContractMachine

/-- The 160-bit name of an account. -/
abbrev Address := BitVec 160

namespace Address

/-- The 20 bytes of an address, most significant first. -/
def toBytes (a : Address) : Bytes := (BigEndian.encode 20 a.toNat).toArray

/-- The address that 20 big-endian bytes denote. -/
def ofBytes (bytes : Bytes) : Address :=
  BitVec.ofNat 160 (BigEndian.decode bytes.toList)

@[simp]
theorem size_toBytes (a : Address) : a.toBytes.size = 20 := by
  simp [toBytes]

end Address

end ContractMachine
