import ContractMachine.Text.Hex
import ContractMachine.Word.Basic

/-!
# Fixed-width values as text

An address is written as 40 hexadecimal digits and a full-width word as 64,
both after `0x`.  Reading takes digits of either case and does not insist on
the mark.
-/

namespace ContractMachine

namespace FixedHex

/-- Why a text or byte string does not denote a value of the wanted width. -/
inductive Error where
  | invalidHex (cause : Hex.Error)
  | invalidLength (expected got : Nat)
  deriving DecidableEq, Repr

/-- The wording of an error. -/
def Error.message : Error → String
  | .invalidHex cause => "invalid hex: " ++ cause.message
  | .invalidLength expected got =>
    "expected " ++ Decimal.render expected ++ " bytes, got " ++
      Decimal.render got

/-- The byte string itself, if it has the wanted width. -/
def ofBytes (width : Nat) (bytes : List UInt8) : Except Error Bytes :=
  if bytes.length = width then .ok bytes.toArray
  else .error (.invalidLength width bytes.length)

/-- The bytes that a text with or without its mark denotes, if they have the
wanted width. -/
def read (width : Nat) (text : List Char) : Except Error Bytes :=
  match Hex.read (Hex.utf8 ((Hex.afterAnyMark? text).getD text)) with
  | .error cause => .error (.invalidHex cause)
  | .ok bytes => ofBytes width bytes

end FixedHex

namespace Address

/-- The address that exactly 20 bytes denote. -/
def ofBytesExact (bytes : List UInt8) : Except FixedHex.Error Address :=
  (FixedHex.ofBytes 20 bytes).map ofBytes

/-- Reads 40 digits with or without their mark. -/
def read (text : List Char) : Except FixedHex.Error Address :=
  (FixedHex.read 20 text).map ofBytes

/-- An address as `0x` and 40 digits. -/
def render (a : Address) : String := Hex.render a.toBytes.toList

end Address

namespace Word

/-- The word that exactly 32 bytes denote. -/
def ofBytesExact (bytes : List UInt8) : Except FixedHex.Error Word :=
  (FixedHex.ofBytes 32 bytes).map ofBytes

/-- Reads 64 digits with or without their mark. -/
def readFull (text : List Char) : Except FixedHex.Error Word :=
  (FixedHex.read 32 text).map ofBytes

/-- A word as `0x` and 64 digits. -/
def renderFull (w : Word) : String := Hex.render w.toBytes.toList

/-- A word as `0x` and its digits without leading zeros. -/
def renderHex (w : Word) : String := Hex.renderNumber w.toNat

/-- A word in decimal. -/
def renderDecimal (w : Word) : String := Decimal.render w.toNat

end Word

end ContractMachine
