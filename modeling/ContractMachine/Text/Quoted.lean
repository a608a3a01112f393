import ContractMachine.Text.Combining
import ContractMachine.Text.Unprintable

/-!
# Quoted text

Error messages show text and characters between quotes.  The quote itself, the
backslash and the common controls are escaped by a backslash; a character that
could not be seen is written as its code point.
-/

namespace ContractMachine.Text

/-- The form of one character between quotes of the given kind. -/
def escape (quote c : Char) : List Char :=
  if c = '\x00' then ['\\', '0']
  else if c = '\t' then ['\\', 't']
  else if c = '\r' then ['\\', 'r']
  else if c = '\n' then ['\\', 'n']
  else if c = '\\' ∨ c = quote then ['\\', c]
  else if isCombining c || isUnprintable c then
    "\\u\x7b".toList ++ Nat.toDigits 16 c.toNat ++ "\x7d".toList
  else [c]

/-- A text between double quotes. -/
def quoted (text : List Char) : String :=
  String.ofList ('"' :: text.flatMap (escape '"') ++ ['"'])

/-- A character between single quotes. -/
def quotedChar (c : Char) : String :=
  String.ofList ('\'' :: escape '\'' c ++ ['\''])

end ContractMachine.Text
