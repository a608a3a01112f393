import ContractMachine.Gas.Schedule

/-!
# The fields of a schedule by name

In configuration texts the prices go by these names, in this order.
-/

namespace ContractMachine.Schedule

/-- The prices with their names, in order. -/
def fields (s : Schedule) : List (String × Nat) :=
  [("base", s.base), ("verylow", s.veryLow), ("low", s.low), ("mid", s.mid),
   ("high", s.high), ("jumpdest", s.jumpDest), ("exp", s.exp),
   ("exp_byte", s.expByte), ("keccak256", s.keccak256),
   ("keccak256_word", s.keccak256Word), ("copy", s.copy), ("memory", s.memory),
   ("quad_coeff_div", s.quadraticDivisor), ("balance", s.balance),
   ("extcode", s.extCode), ("extcodehash", s.extCodeHash),
   ("blockhash", s.blockHash), ("sload", s.sload), ("sstore_set", s.sstoreSet),
   ("sstore_reset", s.sstoreReset),
   ("sstore_clear_refund", s.sstoreClearRefund), ("log", s.log),
   ("log_topic", s.logTopic), ("log_data", s.logData), ("create", s.create),
   ("initcode_word", s.initCodeWord), ("code_deposit", s.codeDeposit),
   ("call", s.call), ("call_value", s.callValue),
   ("call_new_account", s.callNewAccount), ("call_stipend", s.callStipend),
   ("selfdestruct", s.selfDestruct),
   ("selfdestruct_new_account", s.selfDestructNewAccount),
   ("selfdestruct_refund", s.selfDestructRefund),
   ("max_refund_quotient", s.refundDivisor)]

/-- The schedule whose prices are looked up by name, with defaults for those
that are not found. -/
def ofLookup (lookup : String → Option Nat) : Schedule :=
  let defaults : Schedule := {}
  let price (name : String) (default : Nat) : Nat := (lookup name).getD default
  {
    base := price "base" defaults.base
    veryLow := price "verylow" defaults.veryLow
    low := price "low" defaults.low
    mid := price "mid" defaults.mid
    high := price "high" defaults.high
    jumpDest := price "jumpdest" defaults.jumpDest
    exp := price "exp" defaults.exp
    expByte := price "exp_byte" defaults.expByte
    keccak256 := price "keccak256" defaults.keccak256
    keccak256Word := price "keccak256_word" defaults.keccak256Word
    copy := price "copy" defaults.copy
    memory := price "memory" defaults.memory
    quadraticDivisor := price "quad_coeff_div" defaults.quadraticDivisor
    balance := price "balance" defaults.balance
    extCode := price "extcode" defaults.extCode
    extCodeHash := price "extcodehash" defaults.extCodeHash
    blockHash := price "blockhash" defaults.blockHash
    sload := price "sload" defaults.sload
    sstoreSet := price "sstore_set" defaults.sstoreSet
    sstoreReset := price "sstore_reset" defaults.sstoreReset
    sstoreClearRefund := price "sstore_clear_refund" defaults.sstoreClearRefund
    log := price "log" defaults.log
    logTopic := price "log_topic" defaults.logTopic
    logData := price "log_data" defaults.logData
    create := price "create" defaults.create
    initCodeWord := price "initcode_word" defaults.initCodeWord
    codeDeposit := price "code_deposit" defaults.codeDeposit
    call := price "call" defaults.call
    callValue := price "call_value" defaults.callValue
    callNewAccount := price "call_new_account" defaults.callNewAccount
    callStipend := price "call_stipend" defaults.callStipend
    selfDestruct := price "selfdestruct" defaults.selfDestruct
    selfDestructNewAccount :=
      price "selfdestruct_new_account" defaults.selfDestructNewAccount
    selfDestructRefund :=
      price "selfdestruct_refund" defaults.selfDestructRefund
    refundDivisor := price "max_refund_quotient" defaults.refundDivisor }

/-- Looking the names up among the fields rebuilds the schedule. -/
theorem ofLookup_fields (s : Schedule) :
    ofLookup (fun name => s.fields.lookup name) = s := by
  rfl

end ContractMachine.Schedule
