/-!
# JSON tokens

A JSON text is cut into tokens by a machine that reads one character at a time.
Of a number only its value as an unsigned integer is kept, and of a string its
text; a string may escape half a surrogate pair, and then it has no text.
-/

namespace ContractMachine.Json

/-- One token of a JSON text. -/
inductive Token where
  | openObject
  | closeObject
  | openArray
  | closeArray
  | colon
  | comma
  | null
  | bool (value : Bool)
  /-- A number, with its value if it is written as an unsigned integer. -/
  | number (value : Option Nat)
  /-- A string, with its text if it has one. -/
  | string (text : Option String)
  deriving DecidableEq, Repr

/-! ## Strings -/

/-- A part of a string: a character, or a code unit written as an escape. -/
inductive Piece where
  | char (c : Char)
  | unit (n : Nat)
  deriving DecidableEq, Repr

/-- Whether a code unit is the first half of a surrogate pair. -/
def isHighSurrogate (n : Nat) : Bool := 0xd800 ≤ n && n ≤ 0xdbff

/-- Whether a code unit is the second half of a surrogate pair. -/
def isLowSurrogate (n : Nat) : Bool := 0xdc00 ≤ n && n ≤ 0xdfff

/-- The characters of a string: surrogate pairs are joined, and half a pair is
no character. -/
def characters : List Piece → Option (List Char)
  | [] => some []
  | .char c :: rest => (characters rest).map (c :: ·)
  | .unit n :: rest =>
    if isHighSurrogate n then
      match rest with
      | .unit m :: rest =>
        if isLowSurrogate m then
          (characters rest).map
          (Char.ofNat (0x10000 + 0x400 * (n - 0xd800) + (m - 0xdc00)) :: ·)
        else none
      | _ => none
    else if isLowSurrogate n then none
    else (characters rest).map (Char.ofNat n :: ·)

/-- The character that a backslash and a letter stand for. -/
def unescape? : Char → Option Char
  | '"' => some '"'
  | '\\' => some '\\'
  | '/' => some '/'
  | 'b' => some '\x08'
  | 'f' => some '\x0c'
  | 'n' => some '\n'
  | 'r' => some '\r'
  | 't' => some '\t'
  | _ => none

/-- The value of a hexadecimal digit of either case. -/
def hexDigit? (c : Char) : Option Nat :=
  if '0' ≤ c ∧ c ≤ '9' then some (c.toNat - 48)
  else if 'a' ≤ c ∧ c ≤ 'f' then some (c.toNat - 87)
  else if 'A' ≤ c ∧ c ≤ 'F' then some (c.toNat - 55)
  else none

/-! ## Numbers -/

/-- What follows a nonempty run of digits, or nothing if there is no digit. -/
def afterDigits? (text : List Char) : Option (List Char) :=
  if (text.takeWhile Char.isDigit).isEmpty then none
  else some (text.dropWhile Char.isDigit)

/-- What follows an optional fraction. -/
def afterFraction? : List Char → Option (List Char)
  | '.' :: rest => afterDigits? rest
  | rest => some rest

/-- What follows an optional exponent. -/
def afterExponent? : List Char → Option (List Char)
  | c :: rest =>
    if c = 'e' ∨ c = 'E' then
      match rest with
      | '+' :: rest => afterDigits? rest
      | '-' :: rest => afterDigits? rest
      | rest => afterDigits? rest
    else some (c :: rest)
  | [] => some []

/-- Whether a run of digits has no leading zero. -/
def isIntegerPart : List Char → Bool
  | [] => false
  | '0' :: rest => rest.isEmpty
  | _ => true

/-- The number that a run of digits denotes. -/
def digitsValue (digits : List Char) : Nat :=
  digits.foldl (fun value c => 10 * value + (c.toNat - 48)) 0

/-- Reads a number token. -/
def number? (text : List Char) : Option Token :=
  let unsigned := match text with
    | '-' :: rest => rest
    | rest => rest
  let digits := unsigned.takeWhile Char.isDigit
  let rest := unsigned.dropWhile Char.isDigit
  if isIntegerPart digits &&
      (afterFraction? rest).bind afterExponent? == some [] then
    some (.number (if text = digits then some (digitsValue digits) else none))
  else none

/-- Reads a word token. -/
def word? (text : List Char) : Option Token :=
  if text = "null".toList then some .null
  else if text = "true".toList then some (.bool true)
  else if text = "false".toList then some (.bool false)
  else none

/-! ## The machine -/

/-- Where the machine is; what it has read of a token is kept in reverse. -/
inductive Mode where
  | between
  | string (pieces : List Piece)
  | escape (pieces : List Piece)
  /-- Within the four digits of an escape, with the value of those read. -/
  | unit (digits value : Nat) (pieces : List Piece)
  | number (text : List Char)
  | word (text : List Char)

/-- The machine: its mode, and the tokens read so far in reverse. -/
structure Lexer where
  mode : Mode := .between
  tokens : List Token := []

namespace Lexer

/-- Whether the character can stand in a number. -/
def isNumberPart (c : Char) : Bool :=
  c.isDigit || c == '-' || c == '+' || c == '.' || c == 'e' || c == 'E'

/-- Reads a character between tokens. -/
def begin (tokens : List Token) (c : Char) : Option Lexer :=
  let emit (token : Token) : Option Lexer := some { tokens := token :: tokens }
  match c with
  | ' ' | '\n' | '\t' | '\r' => some { tokens }
  | '\x7b' => emit .openObject
  | '\x7d' => emit .closeObject
  | '[' => emit .openArray
  | ']' => emit .closeArray
  | ':' => emit .colon
  | ',' => emit .comma
  | '"' => some { mode := .string [], tokens }
  | c =>
    if c == '-' || c.isDigit then some { mode := .number [c], tokens }
    else if c.isLower then some { mode := .word [c], tokens }
    else none

/-- Reads one character; `none` if no JSON text goes on like this. -/
def step (lexer : Lexer) (c : Char) : Option Lexer :=
  match lexer.mode with
  | .between => begin lexer.tokens c
  | .string pieces =>
    if c = '"' then
      let text := (characters pieces.reverse).map String.ofList
      some { tokens := .string text :: lexer.tokens }
    else if c = '\\' then some { lexer with mode := .escape pieces }
    else if c.toNat < 0x20 then none
    else some { lexer with mode := .string (.char c :: pieces) }
  | .escape pieces =>
    if c = 'u' then some { lexer with mode := .unit 0 0 pieces }
    else (unescape? c).map fun c =>
      { lexer with mode := .string (.char c :: pieces) }
  | .unit digits value pieces =>
    (hexDigit? c).map fun d =>
      let value := 16 * value + d
      if digits = 3 then { lexer with mode := .string (.unit value :: pieces) }
      else { lexer with mode := .unit (digits + 1) value pieces }
  | .number text =>
    if isNumberPart c then some { lexer with mode := .number (c :: text) }
    else (number? text.reverse).bind fun token =>
      begin (token :: lexer.tokens) c
  | .word text =>
    if c.isLower then some { lexer with mode := .word (c :: text) }
    else (word? text.reverse).bind fun token => begin (token :: lexer.tokens) c

/-- The tokens of a text that ends here. -/
def finish (lexer : Lexer) : Option (List Token) :=
  match lexer.mode with
  | .between => some lexer.tokens.reverse
  | .number text =>
    (number? text.reverse).map fun token => (token :: lexer.tokens).reverse
  | .word text =>
    (word? text.reverse).map fun token => (token :: lexer.tokens).reverse
  | .string _ | .escape _ | .unit .. => none

end Lexer

/-- The tokens of a text. -/
def tokens? (text : List Char) : Option (List Token) :=
  (text.foldlM Lexer.step {}).bind Lexer.finish

end ContractMachine.Json
