import ContractMachine.Opcode.Basic
import ContractMachine.Text.Hex

/-!
# Instruction bytes and names

`decode` gives every byte its instruction and `encode` gives the byte back, as
`encode_decode` says.  Bytes without an instruction of their own stand for
themselves.
-/

namespace ContractMachine.Opcode

/-- The instruction of a byte. -/
def decode (byte : UInt8) : Opcode :=
  match byte.toNat with
  | 0x00 => .stop
  | 0x01 => .binary .add
  | 0x02 => .binary .mul
  | 0x03 => .binary .sub
  | 0x04 => .binary .div
  | 0x05 => .binary .signedDiv
  | 0x06 => .binary .mod
  | 0x07 => .binary .signedMod
  | 0x08 => .ternary .addMod
  | 0x09 => .ternary .mulMod
  | 0x0a => .exp
  | 0x0b => .binary .signExtend
  | 0x10 => .binary .lt
  | 0x11 => .binary .gt
  | 0x12 => .binary .signedLt
  | 0x13 => .binary .signedGt
  | 0x14 => .binary .eq
  | 0x15 => .unary .isZero
  | 0x16 => .binary .and
  | 0x17 => .binary .or
  | 0x18 => .binary .xor
  | 0x19 => .unary .not
  | 0x1a => .binary .byte
  | 0x1b => .binary .shl
  | 0x1c => .binary .shr
  | 0x1d => .binary .sar
  | 0x20 => .keccak256
  | 0x30 => .query .address
  | 0x31 => .balance
  | 0x32 => .query .origin
  | 0x33 => .query .caller
  | 0x34 => .query .callValue
  | 0x35 => .callDataLoad
  | 0x36 => .query .callDataSize
  | 0x37 => .callDataCopy
  | 0x38 => .query .codeSize
  | 0x39 => .codeCopy
  | 0x3a => .query .gasPrice
  | 0x3b => .extCodeSize
  | 0x3c => .extCodeCopy
  | 0x3d => .query .returnDataSize
  | 0x3e => .returnDataCopy
  | 0x3f => .extCodeHash
  | 0x40 => .blockHash
  | 0x41 => .query .coinbase
  | 0x42 => .query .timestamp
  | 0x43 => .query .number
  | 0x44 => .query .difficulty
  | 0x45 => .query .gasLimit
  | 0x46 => .query .chainId
  | 0x47 => .selfBalance
  | 0x48 => .query .baseFee
  | 0x50 => .pop
  | 0x51 => .mload
  | 0x52 => .mstore
  | 0x53 => .mstore8
  | 0x54 => .sload
  | 0x55 => .sstore
  | 0x56 => .jump
  | 0x57 => .jumpIf
  | 0x58 => .query .position
  | 0x59 => .query .memorySize
  | 0x5a => .query .gas
  | 0x5b => .jumpDest
  | 0x5e => .mcopy
  | 0xf0 => .create false
  | 0xf1 => .call .call
  | 0xf2 => .call .callCode
  | 0xf3 => .return
  | 0xf4 => .call .delegateCall
  | 0xf5 => .create true
  | 0xfa => .call .staticCall
  | 0xfd => .revert
  | 0xfe => .invalid
  | 0xff => .selfDestruct
  | n =>
    if 0x5f ≤ n ∧ n ≤ 0x7f then .push (n - 0x5f)
    else if 0x80 ≤ n ∧ n ≤ 0x8f then .dup (n - 0x7f)
    else if 0x90 ≤ n ∧ n ≤ 0x9f then .swap (n - 0x8f)
    else if 0xa0 ≤ n ∧ n ≤ 0xa4 then .log (n - 0xa0)
    else .undefined byte

/-- The byte of a unary function. -/
def unaryByte : Unary → UInt8
  | .isZero => 0x15
  | .not => 0x19

/-- The byte of a binary function. -/
def binaryByte : Binary → UInt8
  | .add => 0x01
  | .mul => 0x02
  | .sub => 0x03
  | .div => 0x04
  | .signedDiv => 0x05
  | .mod => 0x06
  | .signedMod => 0x07
  | .signExtend => 0x0b
  | .lt => 0x10
  | .gt => 0x11
  | .signedLt => 0x12
  | .signedGt => 0x13
  | .eq => 0x14
  | .and => 0x16
  | .or => 0x17
  | .xor => 0x18
  | .byte => 0x1a
  | .shl => 0x1b
  | .shr => 0x1c
  | .sar => 0x1d

/-- The byte of a query. -/
def queryByte : Query → UInt8
  | .address => 0x30
  | .origin => 0x32
  | .caller => 0x33
  | .callValue => 0x34
  | .callDataSize => 0x36
  | .codeSize => 0x38
  | .gasPrice => 0x3a
  | .returnDataSize => 0x3d
  | .coinbase => 0x41
  | .timestamp => 0x42
  | .number => 0x43
  | .difficulty => 0x44
  | .gasLimit => 0x45
  | .chainId => 0x46
  | .baseFee => 0x48
  | .position => 0x58
  | .memorySize => 0x59
  | .gas => 0x5a

/-- The byte of an instruction. -/
def encode : Opcode → UInt8
  | .stop => 0x00
  | .unary f => unaryByte f
  | .binary f => binaryByte f
  | .ternary .addMod => 0x08
  | .ternary .mulMod => 0x09
  | .exp => 0x0a
  | .keccak256 => 0x20
  | .query q => queryByte q
  | .selfBalance => 0x47
  | .balance => 0x31
  | .callDataLoad => 0x35
  | .callDataCopy => 0x37
  | .codeCopy => 0x39
  | .extCodeSize => 0x3b
  | .extCodeCopy => 0x3c
  | .extCodeHash => 0x3f
  | .returnDataCopy => 0x3e
  | .blockHash => 0x40
  | .pop => 0x50
  | .mload => 0x51
  | .mstore => 0x52
  | .mstore8 => 0x53
  | .sload => 0x54
  | .sstore => 0x55
  | .jump => 0x56
  | .jumpIf => 0x57
  | .jumpDest => 0x5b
  | .mcopy => 0x5e
  | .push n => 0x5f + UInt8.ofNat n
  | .dup n => 0x7f + UInt8.ofNat n
  | .swap n => 0x8f + UInt8.ofNat n
  | .log n => 0xa0 + UInt8.ofNat n
  | .create false => 0xf0
  | .create true => 0xf5
  | .call .call => 0xf1
  | .call .callCode => 0xf2
  | .call .delegateCall => 0xf4
  | .call .staticCall => 0xfa
  | .return => 0xf3
  | .revert => 0xfd
  | .invalid => 0xfe
  | .selfDestruct => 0xff
  | .undefined byte => byte

/-- The name of a binary function. -/
def binaryName : Binary → String
  | .add => "ADD"
  | .mul => "MUL"
  | .sub => "SUB"
  | .div => "DIV"
  | .signedDiv => "SDIV"
  | .mod => "MOD"
  | .signedMod => "SMOD"
  | .signExtend => "SIGNEXTEND"
  | .lt => "LT"
  | .gt => "GT"
  | .signedLt => "SLT"
  | .signedGt => "SGT"
  | .eq => "EQ"
  | .and => "AND"
  | .or => "OR"
  | .xor => "XOR"
  | .byte => "BYTE"
  | .shl => "SHL"
  | .shr => "SHR"
  | .sar => "SAR"

/-- The name of a query. -/
def queryName : Query → String
  | .address => "ADDRESS"
  | .origin => "ORIGIN"
  | .caller => "CALLER"
  | .callValue => "CALLVALUE"
  | .callDataSize => "CALLDATASIZE"
  | .codeSize => "CODESIZE"
  | .gasPrice => "GASPRICE"
  | .returnDataSize => "RETURNDATASIZE"
  | .coinbase => "COINBASE"
  | .timestamp => "TIMESTAMP"
  | .number => "NUMBER"
  | .difficulty => "DIFFICULTY"
  | .gasLimit => "GASLIMIT"
  | .chainId => "CHAINID"
  | .baseFee => "BASEFEE"
  | .position => "PC"
  | .memorySize => "MSIZE"
  | .gas => "GAS"

/-- The name of an instruction. -/
def name : Opcode → String
  | .stop => "STOP"
  | .unary .isZero => "ISZERO"
  | .unary .not => "NOT"
  | .binary f => binaryName f
  | .ternary .addMod => "ADDMOD"
  | .ternary .mulMod => "MULMOD"
  | .exp => "EXP"
  | .keccak256 => "KECCAK256"
  | .query q => queryName q
  | .selfBalance => "SELFBALANCE"
  | .balance => "BALANCE"
  | .callDataLoad => "CALLDATALOAD"
  | .callDataCopy => "CALLDATACOPY"
  | .codeCopy => "CODECOPY"
  | .extCodeSize => "EXTCODESIZE"
  | .extCodeCopy => "EXTCODECOPY"
  | .extCodeHash => "EXTCODEHASH"
  | .returnDataCopy => "RETURNDATACOPY"
  | .blockHash => "BLOCKHASH"
  | .pop => "POP"
  | .mload => "MLOAD"
  | .mstore => "MSTORE"
  | .mstore8 => "MSTORE8"
  | .sload => "SLOAD"
  | .sstore => "SSTORE"
  | .jump => "JUMP"
  | .jumpIf => "JUMPI"
  | .jumpDest => "JUMPDEST"
  | .mcopy => "MCOPY"
  | .push n => "PUSH" ++ Decimal.render n
  | .dup n => "DUP" ++ Decimal.render n
  | .swap n => "SWAP" ++ Decimal.render n
  | .log n => "LOG" ++ Decimal.render n
  | .create false => "CREATE"
  | .create true => "CREATE2"
  | .call .call => "CALL"
  | .call .callCode => "CALLCODE"
  | .call .delegateCall => "DELEGATECALL"
  | .call .staticCall => "STATICCALL"
  | .return => "RETURN"
  | .revert => "REVERT"
  | .invalid => "INVALID"
  | .selfDestruct => "SELFDESTRUCT"
  | .undefined byte => "UNDEFINED(" ++ Hex.render [byte] ++ ")"

/-- Decoding loses nothing: every byte is the byte of its instruction. -/
theorem encode_decode (byte : UInt8) : encode (decode byte) = byte := by
  have h : ∀ n : Fin 256,
      encode (decode (UInt8.ofNat n.val)) = UInt8.ofNat n.val := by
    decide +kernel
  simpa using h ⟨byte.toNat, byte.toNat_lt⟩

end ContractMachine.Opcode
