/-!
# Big-endian numerals

A number of at most `8 * width` bits has a form as `width` bytes with the most
significant byte first.  `encode` writes it and `decode` reads it; `minimal`
writes a number with as few bytes as it needs.
-/

namespace ContractMachine.BigEndian

/-- The `width` low-order bytes of `n`, most significant first. -/
def encode : (width n : Nat) → List UInt8
  | 0, _ => []
  | width + 1, n => UInt8.ofNat (n >>> (8 * width)) :: encode width n

/-- The number that the bytes denote, most significant first. -/
def decode (bytes : List UInt8) : Nat :=
  bytes.foldl (fun value byte => value * 256 + byte.toNat) 0

/-- The number of bytes that `n` needs; zero needs none. -/
def byteLength (n : Nat) : Nat := if n = 0 then 0 else n.log2 / 8 + 1

/-- The shortest form of `n`: no leading zero byte, and nothing for zero. -/
def minimal (n : Nat) : List UInt8 := encode (byteLength n) n

@[simp]
theorem length_encode (width n : Nat) : (encode width n).length = width := by
  induction width with
  | zero => rfl
  | succ width ih => simp [encode, ih]

end ContractMachine.BigEndian
