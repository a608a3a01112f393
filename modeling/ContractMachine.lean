import ContractMachine.Address.Basic
import ContractMachine.Address.Derivation
import ContractMachine.Address.RoundTrip
import ContractMachine.BigEndian.Basic
import ContractMachine.BigEndian.RoundTrip
import ContractMachine.Bytes
import ContractMachine.Config.Basic
import ContractMachine.Config.Text
import ContractMachine.Execution.Basic
import ContractMachine.Execution.Step
import ContractMachine.Frame.Basic
import ContractMachine.Frame.Context
import ContractMachine.Frame.JumpTable
import ContractMachine.Frame.Memory
import ContractMachine.Frame.Stack
import ContractMachine.Gas.Fields
import ContractMachine.Gas.Schedule
import ContractMachine.Halt
import ContractMachine.Hash.Keccak
import ContractMachine.Json.Token
import ContractMachine.Json.Value
import ContractMachine.Ledger.Basic
import ContractMachine.Ledger.Layered
import ContractMachine.Ledger.Refusing
import ContractMachine.Ledger.View
import ContractMachine.Opcode.Basic
import ContractMachine.Opcode.Encoding
import ContractMachine.Prestate.Basic
import ContractMachine.Prestate.Text
import ContractMachine.Rlp
import ContractMachine.Saturating
import ContractMachine.Text.Blank
import ContractMachine.Text.Combining
import ContractMachine.Text.Decimal
import ContractMachine.Text.FixedHex
import ContractMachine.Text.Hex
import ContractMachine.Text.Quoted
import ContractMachine.Text.Unprintable
import ContractMachine.Transaction.Activation
import ContractMachine.Transaction.Drive
import ContractMachine.Transaction.Receipt
import ContractMachine.Word.Arithmetic
import ContractMachine.Word.Basic
import ContractMachine.Word.RoundTrip
import ContractMachine.Word.Shift
import ContractMachine.Proofs.Ledger.Abstraction
import ContractMachine.Proofs.Ledger.Commit
import ContractMachine.Proofs.Ledger.Dump
import ContractMachine.Proofs.Ledger.Refinement
import ContractMachine.Proofs.Execution.Moves
import ContractMachine.Proofs.Execution.Requests
import ContractMachine.Proofs.Ledger.Levels
import ContractMachine.Proofs.Ledger.Reads
import ContractMachine.Proofs.Transaction.Atomicity
import ContractMachine.Proofs.Transaction.GasConservation
import ContractMachine.Proofs.Execution.Steps
import ContractMachine.Proofs.Transaction.Answers
import ContractMachine.Proofs.Transaction.Termination
import ContractMachine.Proofs.Ledger.Writes
import ContractMachine.Proofs.Transaction.Preservation
import ContractMachine.Proofs.Ledger.Balances
import ContractMachine.Proofs.Transaction.ValueConservation
import ContractMachine.Proofs.Execution.Failures
import ContractMachine.Proofs.Execution.Static
import ContractMachine.Proofs.Transaction.StaticProtection
import ContractMachine.Proofs.Ledger.Nonces
import ContractMachine.Proofs.Ledger.Observation
import ContractMachine.Proofs.Transaction.Success
import ContractMachine.Proofs.Transaction.NoFailure
import ContractMachine.Proofs.Frame.InstructionStarts
import ContractMachine.Proofs.Transaction.Frames
import ContractMachine.Proofs.Transaction.ControlFlow
import ContractMachine.Proofs.Transaction.Writing
import ContractMachine.Proofs.Transaction.Actors
import ContractMachine.Proofs.Transaction.Staging
import ContractMachine.Proofs.Ledger.Holdings
import ContractMachine.Proofs.Transaction.CodeImmutability
import ContractMachine.Proofs.Execution.Marks
import ContractMachine.Proofs.Transaction.Isolation
import ContractMachine.Proofs.Transaction.Hosts
import ContractMachine.Proofs.Transaction.HostFailure
import ContractMachine.Proofs.Execution.Transport
import ContractMachine.Proofs.Transaction.Transport
import ContractMachine.Proofs.Ledger.Recording
import ContractMachine.Proofs.Transaction.SnapshotRecord
import ContractMachine.Proofs.Transaction.Nesting
import ContractMachine.Proofs.Execution.Deeds
import ContractMachine.Proofs.Transaction.Chronicle
import ContractMachine.Proofs.Transaction.Survival
import ContractMachine.Proofs.Transaction.Refunds
import ContractMachine.Proofs.Gas.MemoryPrice
import ContractMachine.Proofs.Transaction.Deletions
import ContractMachine.Proofs.Execution.Strict
import ContractMachine.Proofs.Execution.Agreement
import ContractMachine.Proofs.Execution.Provision
import ContractMachine.Proofs.Transaction.Lives
import ContractMachine.Proofs.Transaction.PaidMemory
import ContractMachine.Proofs.Transaction.MemoryCapacity
import ContractMachine.Proofs.Transaction.MemoryLimits
import ContractMachine.Proofs.Transaction.StackArity
import ContractMachine.Proofs.Execution.ChargesFirst
import ContractMachine.Proofs.Execution.StateChanges
import ContractMachine.Proofs.Transaction.Resumption
import ContractMachine.Proofs.Transaction.StoredRows
import ContractMachine.Proofs.Transaction.Deployment
import ContractMachine.Proofs.Word.Signed
import ContractMachine.Proofs.Word.Shifts
import ContractMachine.Proofs.Word.Powers
import ContractMachine.Proofs.Word.ByteOrder
import ContractMachine.Proofs.Address.Preimages
import ContractMachine.Proofs.Frame.EndlessBytes
import ContractMachine.Proofs.Frame.MemoryRefinement
import ContractMachine.Proofs.Execution.ZeroExtension
import ContractMachine.Proofs.Prestate.Declarations
import ContractMachine.Proofs.Prestate.Installation
import ContractMachine.Proofs.Text.Numerals
import ContractMachine.Proofs.Text.Readers
