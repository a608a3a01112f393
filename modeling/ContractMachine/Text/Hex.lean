import ContractMachine.Text.Decimal
import ContractMachine.Text.Quoted

/-!
# Hexadecimal text

Byte strings are written with two lowercase digits a byte, and read with
digits of either case.  Reading works on the bytes of the text, so positions
in errors count bytes.  What is written reads back (`read_digits`).
-/

namespace ContractMachine.Hex

/-- Why a text is not a hexadecimal byte string. -/
inductive Error where
  | oddLength
  | badDigit (byte : UInt8) (position : Nat)
  deriving DecidableEq, Repr

/-- The wording of an error; the offending byte is shown as the character with
that code point. -/
def Error.message : Error → String
  | .oddLength => "Odd number of digits"
  | .badDigit byte position =>
    "Invalid character " ++ Text.quotedChar (Char.ofNat byte.toNat) ++
      " at position " ++
      Decimal.render position

/-- The bytes of a text. -/
def utf8 (text : List Char) : List UInt8 := text.flatMap String.utf8EncodeChar

/-- The value of a digit, if the byte is one. -/
def digit? (byte : UInt8) : Option Nat :=
  let n := byte.toNat
  if 48 ≤ n ∧ n ≤ 57 then some (n - 48)
  else if 97 ≤ n ∧ n ≤ 102 then some (n - 87)
  else if 65 ≤ n ∧ n ≤ 70 then some (n - 55)
  else none

/-- Reads pairs of digits; `position` is where the first of them stands. -/
def readPairs (position : Nat) : List UInt8 → Except Error (List UInt8)
  | high :: low :: rest =>
    match digit? high, digit? low with
    | none, _ => .error (.badDigit high position)
    | some _, none => .error (.badDigit low (position + 1))
    | some h, some l =>
      (readPairs (position + 2) rest).map (UInt8.ofNat (16 * h + l) :: ·)
  | _ => .ok []

/-- The byte string that the digits denote.  An odd number of digits is
reported before a bad one. -/
def read (digits : List UInt8) : Except Error (List UInt8) :=
  if digits.length % 2 = 1 then .error .oddLength else readPairs 0 digits

/-- The two digits of a byte. -/
def pair (byte : UInt8) : List Char :=
  [Nat.digitChar (byte.toNat / 16), Nat.digitChar (byte.toNat % 16)]

/-- A byte string as `0x` and two digits a byte. -/
def render (bytes : List UInt8) : String :=
  String.ofList ('0' :: 'x' :: bytes.flatMap pair)

/-- A number as `0x` and its digits without leading zeros. -/
def renderNumber (n : Nat) : String :=
  String.ofList ('0' :: 'x' :: Nat.toDigits 16 n)

/-- What follows a leading `0x`. -/
def afterMark? : List Char → Option (List Char)
  | '0' :: 'x' :: rest => some rest
  | _ => none

/-- What follows a leading `0x` or `0X`. -/
def afterAnyMark? : List Char → Option (List Char)
  | '0' :: 'x' :: rest => some rest
  | '0' :: 'X' :: rest => some rest
  | _ => none

/-- The digits of a byte string are read two by two, wherever they stand. -/
theorem readPairs_digits (bytes : List UInt8) (position : Nat) :
    readPairs position (utf8 (bytes.flatMap pair)) = .ok bytes := by
  have hdigit : ∀ n : Fin 16,
      String.utf8EncodeChar (Nat.digitChar n) =
        [UInt8.ofNat (Nat.digitChar n).toNat] ∧
        digit? (UInt8.ofNat (Nat.digitChar n).toNat) = some n.val := by
    decide +kernel
  induction bytes generalizing position with
  | nil => rfl
  | cons byte rest ih =>
    have hbyte : byte.toNat < 256 := byte.toNat_lt
    obtain ⟨hhigh, hhighValue⟩ := hdigit ⟨byte.toNat / 16, by omega⟩
    obtain ⟨hlow, hlowValue⟩ := hdigit ⟨byte.toNat % 16, by omega⟩
    have hjoin : UInt8.ofNat (16 * (byte.toNat / 16) + byte.toNat % 16) =
        byte := by
      rw [Nat.div_add_mod, UInt8.ofNat_toNat]
    have hutf8 : utf8 ((byte :: rest).flatMap pair) =
        UInt8.ofNat (Nat.digitChar (byte.toNat / 16)).toNat ::
          UInt8.ofNat (Nat.digitChar (byte.toNat % 16)).toNat ::
          utf8 (rest.flatMap pair) := by
      simp only [utf8, List.flatMap_cons, List.flatMap_append, pair,
        List.flatMap_nil, hhigh, hlow]
      rfl
    rw [hutf8, readPairs, hhighValue, hlowValue]
    simp only [ih, Except.map, hjoin]

/-- What is written reads back. -/
theorem read_digits (bytes : List UInt8) :
    read (utf8 (bytes.flatMap pair)) = .ok bytes := by
  have hdigit : ∀ n : Fin 16,
      (String.utf8EncodeChar (Nat.digitChar n)).length = 1 := by
    decide +kernel
  have hlength : (utf8 (bytes.flatMap pair)).length = 2 * bytes.length := by
    induction bytes with
    | nil => rfl
    | cons byte rest ih =>
      have hbyte : byte.toNat < 256 := byte.toNat_lt
      have hhigh :
          (String.utf8EncodeChar (Nat.digitChar (byte.toNat / 16))).length =
            1 :=
        hdigit ⟨byte.toNat / 16, by omega⟩
      have hlow :
          (String.utf8EncodeChar (Nat.digitChar (byte.toNat % 16))).length =
            1 :=
        hdigit ⟨byte.toNat % 16, by omega⟩
      simp only [utf8, pair, List.flatMap_cons, List.flatMap_append,
        List.length_append, List.flatMap_nil, List.length_nil,
        List.length_cons] at ih ⊢
      omega
  rw [read, hlength, if_neg (by omega), readPairs_digits]

end ContractMachine.Hex
