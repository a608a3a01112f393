import ContractMachine.BigEndian.Basic

/-!
# Length-framed items

Before a contract address is hashed out of its creator, the creator is written
as a list of two byte strings, each framed by its length.  A single byte below
0x80 is its own frame; numbers are written without leading zero bytes.
-/

namespace ContractMachine.Rlp

/-- The frame of `length` bytes: one byte for a short length, else the length
of the length and the length. -/
def header (base : UInt8) (length : Nat) : List UInt8 :=
  if length < 56 then [base + UInt8.ofNat length]
  else
    let digits := BigEndian.minimal length
    (base + 55 + UInt8.ofNat digits.length) :: digits

/-- A framed byte string. -/
def string (bytes : List UInt8) : List UInt8 :=
  match bytes with
  | [byte] => if byte < 0x80 then [byte] else header 0x80 1 ++ [byte]
  | bytes => header 0x80 bytes.length ++ bytes

/-- A framed number. -/
def number (n : Nat) : List UInt8 := string (BigEndian.minimal n)

/-- A framed list of framed items. -/
def list (items : List (List UInt8)) : List UInt8 :=
  header 0xc0 items.flatten.length ++ items.flatten

end ContractMachine.Rlp
