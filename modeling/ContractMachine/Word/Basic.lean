import ContractMachine.Address.Basic
import ContractMachine.Saturating

/-!
# Machine words

A word is a 256-bit number.  It is also a string of 32 bytes, most significant
first; an address stands in the low-order bytes of a word, and a count may fit
into one.
-/

namespace ContractMachine

/-- A 256-bit machine word. -/
abbrev Word := BitVec 256

namespace Word

/-- The largest word. -/
def top : Word := BitVec.allOnes 256

/-- The word of a count. -/
def ofCount (n : Nat) : Word := BitVec.ofNat 256 n

/-- One for true, zero for false. -/
def ofBool (b : Bool) : Word := if b then 1 else 0

/-- The word whose big-endian form ends in the given bytes: the last 32 bytes
count, and missing ones are zero. -/
def ofBytes (bytes : Bytes) : Word :=
  BitVec.ofNat 256 (BigEndian.decode (bytes.toList.drop (bytes.size - 32)))

/-- The 32 bytes of a word, most significant first. -/
def toBytes (w : Word) : Bytes := (BigEndian.encode 32 w.toNat).toArray

/-- The word of an address: zeros above its 160 bits. -/
def ofAddress (a : Address) : Word := a.setWidth 256

/-- The address in the low-order 160 bits of a word. -/
def toAddress (w : Word) : Address := w.setWidth 160

/-- The low-order 64 bits. -/
def low64 (w : Word) : Nat := (w.setWidth 64).toNat

/-- The count that the word denotes, if it is one. -/
def toCount? (w : Word) : Option Nat :=
  if w.toNat ≤ Saturating.limit then some w.toNat else none

/-- The count that the word denotes, or the largest count. -/
def toCount (w : Word) : Nat := w.toCount?.getD Saturating.limit

/-- The number of bytes that the word needs; zero needs none. -/
def byteLength (w : Word) : Nat := BigEndian.byteLength w.toNat

/-- The sign bit of the two's-complement reading. -/
def isNegative (w : Word) : Bool := w.msb

/-- The sum of two words, or the largest word if the sum does not fit. -/
def saturatingAdd (a b : Word) : Word :=
  if a.uaddOverflow b then top else a + b

@[simp]
theorem size_toBytes (w : Word) : w.toBytes.size = 32 := by
  simp [toBytes]

/-- An address comes back from the word that holds it. -/
@[simp]
theorem toAddress_ofAddress (a : Address) : (ofAddress a).toAddress = a := by
  simp [ofAddress, toAddress]

end Word

end ContractMachine
