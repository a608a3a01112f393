import ContractMachine.Word.Arithmetic
import ContractMachine.Word.Shift

/-!
# The instruction set

Every byte is an instruction.  Instructions that only compute on words are
grouped by the number of operands they take, and those that only report
something about the running code form one group of queries; the rest stand
alone.  Each instruction replaces its operands, the topmost `inputs` words of
the stack, by `outputs` words.
-/

namespace ContractMachine

/-- Functions of one word. -/
inductive Unary where
  | isZero
  | not
  deriving DecidableEq, Repr

/-- Functions of two words. -/
inductive Binary where
  | add
  | mul
  | sub
  | div
  | signedDiv
  | mod
  | signedMod
  | signExtend
  | lt
  | gt
  | signedLt
  | signedGt
  | eq
  | and
  | or
  | xor
  | byte
  | shl
  | shr
  | sar
  deriving DecidableEq, Repr

/-- Functions of three words. -/
inductive Ternary where
  | addMod
  | mulMod
  deriving DecidableEq, Repr

/-- Words that the running frame and its environment answer without operands. -/
inductive Query where
  | address
  | origin
  | caller
  | callValue
  | callDataSize
  | codeSize
  | gasPrice
  | returnDataSize
  | coinbase
  | timestamp
  | number
  | difficulty
  | gasLimit
  | chainId
  | baseFee
  | position
  | memorySize
  | gas
  deriving DecidableEq, Repr

/-- The ways to run another account's code. -/
inductive CallKind where
  /-- On the callee's own state, with value. -/
  | call
  /-- On the caller's state, with value that stays where it is. -/
  | callCode
  /-- On the caller's state, as if the caller's caller had called. -/
  | delegateCall
  /-- On the callee's own state, without value and without any change. -/
  | staticCall
  deriving DecidableEq, Repr

/-- One instruction. -/
inductive Opcode where
  | stop
  | unary (f : Unary)
  | binary (f : Binary)
  | ternary (f : Ternary)
  | exp
  | keccak256
  | query (q : Query)
  | selfBalance
  | balance
  | callDataLoad
  | callDataCopy
  | codeCopy
  | extCodeSize
  | extCodeCopy
  | extCodeHash
  | returnDataCopy
  | blockHash
  | pop
  | mload
  | mstore
  | mstore8
  | sload
  | sstore
  | jump
  | jumpIf
  | jumpDest
  | mcopy
  /-- Pushes the number written in the next `n` bytes of the code. -/
  | push (n : Nat)
  /-- Pushes a copy of the `n`th word from the top. -/
  | dup (n : Nat)
  /-- Swaps the top with the word `n` below it. -/
  | swap (n : Nat)
  /-- Records a log with `n` topics. -/
  | log (n : Nat)
  /-- Creates a contract, with an address by salt or by nonce. -/
  | create (salted : Bool)
  | call (kind : CallKind)
  | return
  | revert
  | selfDestruct
  /-- The instruction that is reserved to fail. -/
  | invalid
  /-- A byte without an instruction. -/
  | undefined (byte : UInt8)
  deriving DecidableEq, Repr

/-- The value of a unary function. -/
def Unary.apply : Unary → Word → Word
  | .isZero, a => .ofBool (a == 0)
  | .not, a => ~~~a

/-- The value of a binary function; the first operand is the top of the
stack. -/
def Binary.apply : Binary → Word → Word → Word
  | .add, a, b => a + b
  | .mul, a, b => a * b
  | .sub, a, b => a - b
  | .div, a, b => a.div b
  | .signedDiv, a, b => a.signedDiv b
  | .mod, a, b => a.mod b
  | .signedMod, a, b => a.signedMod b
  | .signExtend, index, value => value.signExtend index
  | .lt, a, b => .ofBool (a < b)
  | .gt, a, b => .ofBool (b < a)
  | .signedLt, a, b => .ofBool (a.signedLt b)
  | .signedGt, a, b => .ofBool (a.signedGt b)
  | .eq, a, b => .ofBool (a == b)
  | .and, a, b => a &&& b
  | .or, a, b => a ||| b
  | .xor, a, b => a ^^^ b
  | .byte, index, value => value.byteAt index
  | .shl, shift, value => value.shl shift
  | .shr, shift, value => value.shr shift
  | .sar, shift, value => value.sar shift

/-- The value of a ternary function. -/
def Ternary.apply : Ternary → Word → Word → Word → Word
  | .addMod, a, b, n => a.addMod b n
  | .mulMod, a, b, n => a.mulMod b n

/-- Whether the call takes a value operand. -/
def CallKind.takesValue : CallKind → Bool
  | .call | .callCode => true
  | .delegateCall | .staticCall => false

namespace Opcode

/-- The number of code bytes after the instruction that belong to it. -/
def immediateLength : Opcode → Nat
  | .push n => n
  | _ => 0

/-- The number of words that the instruction takes off the stack. -/
def inputs : Opcode → Nat
  | .stop | .query _ | .selfBalance | .jumpDest | .push _ | .invalid
  | .undefined _ => 0
  | .unary _ | .balance | .callDataLoad | .extCodeSize | .extCodeHash
  | .blockHash | .pop | .mload | .sload | .jump | .selfDestruct => 1
  | .binary _ | .exp | .keccak256 | .mstore | .mstore8 | .sstore | .jumpIf
  | .return | .revert => 2
  | .ternary _ | .callDataCopy | .codeCopy | .returnDataCopy | .mcopy
  | .create false => 3
  | .extCodeCopy | .create true => 4
  | .dup n => n
  | .swap n => n + 1
  | .log n => n + 2
  | .call kind => if kind.takesValue then 7 else 6

/-- The number of words that the instruction puts on the stack. -/
def outputs : Opcode → Nat
  | .stop | .callDataCopy | .codeCopy | .extCodeCopy | .returnDataCopy | .pop
  | .mstore
  | .mstore8 | .sstore | .jump | .jumpIf | .jumpDest | .mcopy | .log _ | .return
  | .revert | .invalid | .selfDestruct | .undefined _ => 0
  | .unary _ | .binary _ | .ternary _ | .exp | .keccak256 | .query _
  | .selfBalance | .balance
  | .callDataLoad | .extCodeSize | .extCodeHash | .blockHash | .mload | .sload
  | .push _ | .create _ | .call _ => 1
  | .dup n | .swap n => n + 1

/-- Whether the instruction changes the state and is therefore forbidden in a
static frame.  A call is not: it is forbidden only with value. -/
def changesState : Opcode → Bool
  | .sstore | .log _ | .create _ | .selfDestruct => true
  | _ => false

end Opcode

end ContractMachine
