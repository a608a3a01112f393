import ContractMachine.Opcode.Basic
import ContractMachine.Saturating

/-!
# Gas prices

A schedule gives the price of every metered operation.  Most instructions have
a fixed price by tier; some pay on top of it for what they touch, such as the
memory they grow, the bytes they copy, or the account they bring into being.
All prices are saturating counts.
-/

namespace ContractMachine

/-- The prices that a machine runs with. -/
structure Schedule where
  base : Nat := 2
  veryLow : Nat := 3
  low : Nat := 5
  mid : Nat := 8
  high : Nat := 10
  jumpDest : Nat := 1
  exp : Nat := 10
  /-- For each byte that the exponent needs. -/
  expByte : Nat := 50
  keccak256 : Nat := 30
  /-- For each word hashed. -/
  keccak256Word : Nat := 6
  /-- For each word copied. -/
  copy : Nat := 3
  /-- For each word of memory. -/
  memory : Nat := 3
  /-- Divides the square of the number of words of memory. -/
  quadraticDivisor : Nat := 512
  balance : Nat := 400
  extCode : Nat := 700
  extCodeHash : Nat := 400
  blockHash : Nat := 20
  sload : Nat := 200
  /-- For storing a nonzero value over zero. -/
  sstoreSet : Nat := 20000
  /-- For any other store. -/
  sstoreReset : Nat := 5000
  /-- Given back for storing zero over a nonzero value. -/
  sstoreClearRefund : Nat := 15000
  log : Nat := 375
  logTopic : Nat := 375
  /-- For each byte logged. -/
  logData : Nat := 8
  create : Nat := 32000
  /-- For each word of initialisation code. -/
  initCodeWord : Nat := 2
  /-- For each byte of deployed code. -/
  codeDeposit : Nat := 200
  call : Nat := 700
  callValue : Nat := 9000
  callNewAccount : Nat := 25000
  /-- Gas that a call with value gives on top of what is forwarded. -/
  callStipend : Nat := 2300
  selfDestruct : Nat := 5000
  selfDestructNewAccount : Nat := 25000
  /-- Given back for the first destruction of an account. -/
  selfDestructRefund : Nat := 24000
  /-- Divides the gas used, which bounds what is given back. -/
  refundDivisor : Nat := 2
  deriving DecidableEq, Repr

/-- The number of 32-byte words that hold `length` bytes. -/
def wordCount (length : Nat) : Nat := (length + 31) / 32

/-- All but a 64th of the available gas. -/
def allButOne64th (available : Nat) : Nat := available - available / 64

/-- The gas that a call forwards: what it asks for, but at most all but a 64th
of what there is. -/
def forwardedGas (requested : Word) (available : Nat) : Nat :=
  min requested.toCount (allButOne64th available)

namespace Schedule

open Saturating (add mul)

/-- The price of a binary function. -/
def binaryCost (s : Schedule) : Binary → Nat
  | .mul | .div | .signedDiv | .mod | .signedMod | .signExtend => s.low
  | .add | .sub | .lt | .gt | .signedLt | .signedGt | .eq | .and | .or
  | .xor | .byte | .shl | .shr | .sar => s.veryLow

/-- The price paid before an instruction runs. -/
def staticCost (s : Schedule) : Opcode → Nat
  | .stop | .return | .revert | .sstore | .invalid | .undefined _ => 0
  | .query _ | .pop | .push 0 => s.base
  | .unary _ | .callDataLoad | .mload | .mstore | .mstore8 | .callDataCopy
  | .codeCopy
  | .returnDataCopy | .mcopy | .push _ | .dup _ | .swap _ => s.veryLow
  | .binary f => s.binaryCost f
  | .selfBalance => s.low
  | .ternary _ | .jump => s.mid
  | .jumpIf => s.high
  | .jumpDest => s.jumpDest
  | .exp => s.exp
  | .keccak256 => s.keccak256
  | .balance => s.balance
  | .extCodeSize | .extCodeCopy => s.extCode
  | .extCodeHash => s.extCodeHash
  | .blockHash => s.blockHash
  | .sload => s.sload
  | .log n => add s.log (mul s.logTopic n)
  | .create _ => s.create
  | .call _ => s.call
  | .selfDestruct => s.selfDestruct

/-- The price of `words` words of memory: linear and quadratic. -/
def memoryCost (s : Schedule) (words : Nat) : Nat :=
  add (mul s.memory words) (mul words words / max s.quadraticDivisor 1)

/-- The price of growing memory from one size to another, in bytes. -/
def expansionCost (s : Schedule) (current new : Nat) : Nat :=
  if new ≤ current then 0
  else s.memoryCost (wordCount new) - s.memoryCost (wordCount current)

/-- The price of copying `length` bytes. -/
def copyCost (s : Schedule) (length : Nat) : Nat :=
  mul s.copy (wordCount length)

/-- The price of hashing `length` bytes. -/
def keccak256Cost (s : Schedule) (length : Nat) : Nat :=
  mul s.keccak256Word (wordCount length)

/-- The price of an exponent. -/
def expCost (s : Schedule) (exponent : Word) : Nat :=
  mul s.expByte exponent.byteLength

/-- The price of logging `length` bytes. -/
def logDataCost (s : Schedule) (length : Nat) : Nat := mul s.logData length

/-- The price of storing `new` over `current`. -/
def sstoreCost (s : Schedule) (current new : Word) : Nat :=
  if current = 0 ∧ new ≠ 0 then s.sstoreSet else s.sstoreReset

/-- What storing `new` over `current` gives back. -/
def sstoreRefund (s : Schedule) (current new : Word) : Nat :=
  if current ≠ 0 ∧ new = 0 then s.sstoreClearRefund else 0

/-- What a call pays on top of its fixed price. -/
def callExtraCost (s : Schedule) (hasValue createsAccount : Bool) : Nat :=
  add (if hasValue then s.callValue else 0)
    (if createsAccount then s.callNewAccount else 0)

/-- What a creation pays on top of its fixed price; one with a salt also pays
for the hash of its code. -/
def createExtraCost (s : Schedule) (length : Nat) (salted : Bool) : Nat :=
  add (mul s.initCodeWord (wordCount length))
    (if salted then s.keccak256Cost length else 0)

/-- The price of keeping `length` bytes of deployed code. -/
def codeDepositCost (s : Schedule) (length : Nat) : Nat :=
  mul s.codeDeposit length

/-- What is given back of the gas used. -/
def cappedRefund (s : Schedule) (gasUsed refund : Nat) : Nat :=
  min refund (gasUsed / max s.refundDivisor 1)

end Schedule

end ContractMachine
