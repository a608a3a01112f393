import ContractMachine.Json.Token
import ContractMachine.Saturating

/-!
# JSON values

Tokens are put together to a value by a second machine, which holds the
containers that are still open.  Neither machine recurses into the text, so
nesting has no limit.

Values are read by shape: a number as a count, a string as its text, and a
record either as an object with named fields or as the array of its fields in
order.
-/

namespace ContractMachine

/-- A JSON value. -/
inductive Json where
  | null
  | bool (value : Bool)
  | number (value : Option Nat)
  | string (text : Option String)
  | array (items : List Json)
  | object (fields : List (Option String × Json))

namespace Json

/-- A container that is still open, with what it holds in reverse. -/
inductive Open where
  | array (items : List Json)
  | object (fields : List (Option String × Json))
  /-- An object that waits for the value of a key. -/
  | field (fields : List (Option String × Json)) (key : Option String)

/-- What may come next. -/
inductive Expected where
  | value
  | valueOrClose
  | key
  | keyOrClose
  | colon
  | commaOrClose
  | nothing
  deriving DecidableEq

/-- The machine: the open containers, innermost first, and what may come
next. -/
structure Builder where
  containers : List Open := []
  expected : Expected := .value
  /-- The value, once the text is complete. -/
  result : Option Json := none

namespace Builder

/-- Takes up a complete value. -/
def accept (containers : List Open) (value : Json) : Option Builder :=
  match containers with
  | [] => some { expected := .nothing, result := some value }
  | .array items :: outer =>
    some { containers := .array (value :: items) :: outer,
           expected := .commaOrClose }
  | .field fields key :: outer =>
    some { containers := .object ((key, value) :: fields) :: outer,
           expected := .commaOrClose }
  | .object _ :: _ => none

/-- Takes up a token; `none` if it cannot come here. -/
def step (builder : Builder) (token : Token) : Option Builder :=
  let { containers, expected, .. } := builder
  let takesValue : Bool := expected = .value ∨ expected = .valueOrClose
  let takesClose : Bool :=
    expected = .commaOrClose ∨ expected = .valueOrClose ∨ expected = .keyOrClose
  match token with
  | .null => if takesValue then accept containers .null else none
  | .bool value => if takesValue then accept containers (.bool value) else none
  | .number value =>
    if takesValue then accept containers (.number value) else none
  | .string text =>
    if takesValue then accept containers (.string text)
    else if expected = .key ∨ expected = .keyOrClose then
      match containers with
      | .object fields :: outer =>
        some { containers := .field fields text :: outer, expected := .colon }
      | _ => none
    else none
  | .openArray =>
    if takesValue then
      some { containers := .array [] :: containers, expected := .valueOrClose }
    else none
  | .openObject =>
    if takesValue then
      some { containers := .object [] :: containers, expected := .keyOrClose }
    else none
  | .closeArray =>
    match takesClose, containers with
    | true, .array items :: outer => accept outer (.array items.reverse)
    | _, _ => none
  | .closeObject =>
    match takesClose, containers with
    | true, .object fields :: outer => accept outer (.object fields.reverse)
    | _, _ => none
  | .colon =>
    if expected = .colon then some { containers, expected := .value } else none
  | .comma =>
    match expected, containers with
    | .commaOrClose, .array _ :: _ => some { containers, expected := .value }
    | .commaOrClose, .object _ :: _ => some { containers, expected := .key }
    | _, _ => none

end Builder

/-- The value of a text. -/
def parse? (text : String) : Option Json :=
  (tokens? text.toList).bind fun tokens =>
    (tokens.foldlM Builder.step {}).bind Builder.result

/-! ## Reading by shape -/

/-- An unsigned integer of at most 64 bits. -/
def count? : Json → Option Nat
  | .number (some n) => if n ≤ Saturating.limit then some n else none
  | _ => none

/-- A string with a text. -/
def text? : Json → Option String
  | .string text => text
  | _ => none

/-- An object whose keys all have texts. -/
def entries? : Json → Option (List (String × Json))
  | .object fields =>
    fields.mapM fun (key, value) => key.map fun key => (key, value)
  | _ => none

/-- The value of a field, if it is there; a field must not be there twice. -/
def field? (entries : List (String × Json)) (name : String) :
    Option (Option Json) :=
  match entries.filter (·.1 == name) with
  | [] => some none
  | [(_, value)] => some (some value)
  | _ => none

/-- The fields of a record.  An object names them, and other names are passed
over; an array gives them in order and may leave out the last ones. -/
def record? (names : List String) : Json → Option (List (Option Json))
  | .array items =>
    if items.length ≤ names.length then
      some (items.map some ++ List.replicate (names.length - items.length) none)
    else none
  | value => value.entries?.bind fun entries => names.mapM (field? entries)

/-- A field that may be missing. -/
def orDefault {α : Type} (read : Json → Option α) (default : α) :
    Option Json → Option α
  | none => some default
  | some value => read value

end Json

end ContractMachine
