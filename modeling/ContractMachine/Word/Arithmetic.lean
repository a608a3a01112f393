import ContractMachine.Word.Basic

/-!
# Word arithmetic

Sums, differences and products wrap modulo `2 ^ 256` and are the operations of
`BitVec`.  Where a sum or product is to be reduced by a modulus it is formed in
twice the width.  Division by zero gives zero.  Signed operations read a word
as a two's-complement number and work on magnitudes: divide the magnitudes,
then put the sign back.
-/

namespace ContractMachine.Word

/-- The quotient rounded down; zero when the divisor is zero. -/
def div (a b : Word) : Word := if b = 0 then 0 else a / b

/-- The remainder; zero when the divisor is zero. -/
def mod (a b : Word) : Word := if b = 0 then 0 else a % b

/-- A word in twice its width. -/
def widen (w : Word) : BitVec 512 := w.setWidth 512

/-- The low-order 256 bits of a number of twice the width. -/
def narrow (n : BitVec 512) : Word := n.setWidth 256

/-- The remainder of the sum, formed in twice the width; zero when the modulus
is zero. -/
def addMod (a b n : Word) : Word :=
  if n = 0 then 0 else narrow ((a.widen + b.widen) % n.widen)

/-- The remainder of the product, formed in twice the width; zero when the
modulus is zero. -/
def mulMod (a b n : Word) : Word :=
  if n = 0 then 0 else narrow (a.widen * b.widen % n.widen)

theorem toNat_half_lt {w : Word} (h : w ≠ 0) : (w >>> 1).toNat < w.toNat := by
  have hpos : 0 < w.toNat := Nat.pos_of_ne_zero fun hzero =>
    h (BitVec.eq_of_toNat_eq hzero)
  rw [BitVec.toNat_ushiftRight, Nat.shiftRight_succ, Nat.shiftRight_zero]
  exact Nat.div_lt_self hpos (by decide)

/-- How far square-and-multiply has come: the factor for the next bit of the
exponent, what is left of the exponent, and what has been multiplied. -/
structure Powering where
  base : Word
  exponent : Word
  product : Word

namespace Powering

/-- A round takes up the low-order bit of the exponent, squares the base and
halves the exponent. -/
def round (p : Powering) : Powering where
  base := p.base * p.base
  exponent := p.exponent >>> 1
  product := if p.exponent.getLsbD 0 then p.product * p.base else p.product

/-- The product after as many rounds as it takes to use up the exponent. -/
def run (p : Powering) : Word :=
  if p.exponent = 0 then p.product else p.round.run
termination_by p.exponent.toNat
decreasing_by exact toNat_half_lt ‹_›

end Powering

/-- The power modulo `2 ^ 256`. -/
def pow (base exponent : Word) : Word := Powering.run ⟨base, exponent, 1⟩

/-- The two's-complement opposite. -/
def negate (a : Word) : Word := ~~~a + 1

/-- The absolute value of the two's-complement reading, as an unsigned word. -/
def magnitude (a : Word) : Word := if a.isNegative then a.negate else a

/-- The signed quotient rounded toward zero; zero when the divisor is zero.
The least word divided by minus one wraps to itself. -/
def signedDiv (a b : Word) : Word :=
  if b = 0 then 0
  else
    let quotient := a.magnitude / b.magnitude
    if a.isNegative ≠ b.isNegative then quotient.negate else quotient

/-- The signed remainder, with the sign of the dividend; zero when the divisor
is zero. -/
def signedMod (a b : Word) : Word :=
  if b = 0 then 0
  else
    let remainder := a.magnitude % b.magnitude
    if a.isNegative then remainder.negate else remainder

/-- Signed comparison: signs decide, and words of one sign compare unsigned. -/
def signedLt (a b : Word) : Bool :=
  match a.isNegative, b.isNegative with
  | true, false => true
  | false, true => false
  | _, _ => a < b

/-- Signed comparison the other way round. -/
def signedGt (a b : Word) : Bool := b.signedLt a

end ContractMachine.Word
