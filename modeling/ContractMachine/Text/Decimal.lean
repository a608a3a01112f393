/-!
# Decimal numerals

Numbers are written in decimal without leading zeros.  Reading goes from left
to right, allows leading zeros, and stops at the first digit that carries the
number past a limit.
-/

namespace ContractMachine.Decimal

/-- The decimal digits of a number. -/
def render (n : Nat) : String := String.ofList (Nat.toDigits 10 n)

/-- Why a byte string is not the decimal numeral of a number within the
limit. -/
inductive Error where
  | badDigit
  | tooLarge
  deriving DecidableEq, Repr

/-- The wording of an error. -/
def Error.message : Error → String
  | .badDigit => "a character is not in the range 0-9"
  | .tooLarge => "the number is too large for the type"

/-- The value of a decimal digit. -/
def digit? (byte : UInt8) : Option Nat :=
  if 48 ≤ byte.toNat ∧ byte.toNat ≤ 57 then some (byte.toNat - 48) else none

/-- Reads digits onto a value already read. -/
def readOnto (limit value : Nat) : List UInt8 → Except Error Nat
  | [] => .ok value
  | byte :: rest =>
    match digit? byte with
    | none => .error .badDigit
    | some d =>
      if value * 10 + d ≤ limit then readOnto limit (value * 10 + d) rest
      else .error .tooLarge

/-- The number that the digits denote, if it is within the limit. -/
def read (limit : Nat) (digits : List UInt8) : Except Error Nat :=
  readOnto limit 0 digits

end ContractMachine.Decimal
