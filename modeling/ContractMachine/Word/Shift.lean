import ContractMachine.Word.Basic

/-!
# Shifts, sign extension and byte selection

The second operand of these operations is a whole word.  A shift by 256 or
more leaves nothing but the sign, and a byte index past the word selects zero.
-/

namespace ContractMachine.Word

/-- Left shift; zero for shifts of 256 or more. -/
def shl (value shift : Word) : Word :=
  if shift.toNat < 256 then value <<< shift.toNat else 0

/-- Logical right shift; zero for shifts of 256 or more. -/
def shr (value shift : Word) : Word :=
  if shift.toNat < 256 then value >>> shift.toNat else 0

/-- Right shift that fills with the sign bit. -/
def sar (value shift : Word) : Word :=
  if shift.toNat < 256 then
    let shifted := value >>> shift.toNat
    if value.isNegative then shifted ||| (top <<< (256 - shift.toNat))
    else shifted
  else if value.isNegative then top else 0

/-- Extends the sign of the low-order `index + 1` bytes over the whole word. -/
def signExtend (value index : Word) : Word :=
  if index.toNat < 31 then
    let signBit := 8 * index.toNat + 7
    let mask : Word := (1#256 <<< signBit) - 1
    if value.getLsbD signBit then value ||| ~~~mask else value &&& mask
  else value

/-- The byte at `index`, counted from the most significant end; zero past 31. -/
def byteAt (value index : Word) : Word :=
  if index.toNat < 32 then ofCount (value.toBytes.getD index.toNat 0).toNat
  else 0

end ContractMachine.Word
