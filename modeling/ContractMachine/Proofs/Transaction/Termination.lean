import ContractMachine.Proofs.Execution.Steps
import ContractMachine.Proofs.Transaction.Answers
import ContractMachine.Proofs.Transaction.GasConservation

/-!
# Every transaction ends

Nothing bounds how long a contract runs but its gas, and not every instruction
costs gas.  What an instruction does not pay in gas it pays in code: unless it
jumps, there is less code ahead of it afterwards.  If jumps, calls and
creations have a price and the stipend of a call is paid for, each instruction
lowers the gas of all live frames together, or keeps it and lowers the code
ahead of them together with their number.

Hence running a frame and driving a transaction are total functions, defined by
recursion on this potential, and they are what enough fuel computes.  A machine
whose memory is used up breaks off on the way, and ends the sooner.
-/

namespace ContractMachine

/-- Prices that let no contract run for ever. -/
structure Schedule.DrainsGas (schedule : Schedule) : Prop where
  mid : 1 ≤ schedule.mid
  high : 1 ≤ schedule.high
  call : 1 ≤ schedule.call
  create : 1 ≤ schedule.create
  stipend : schedule.callStipend ≤ schedule.callValue

/-- The default prices are such. -/
theorem Config.drainsGas_default : ({} : Config).schedule.DrainsGas := by
  constructor <;> decide

/-- The number of bytes from a frame's position to the end of its code. -/
def Frame.ahead (frame : Frame) : Nat := frame.code.size - frame.position

variable {σ : Type} [Ledger σ] {config : Config} {env : Environment}

/-! ## One frame -/

namespace Execution

variable {live after : Live σ}

/-- What each instruction of a frame lowers. -/
def potential (live : Live σ) : Nat ×ₗ Nat :=
  toLex (live.frame.gas, live.frame.ahead)

theorem staticCost_pos_of_jump {schedule : Schedule} {opcode : Opcode}
    (hprices : schedule.DrainsGas) (h : opcode = .jump ∨ opcode = .jumpIf) :
    1 ≤ schedule.staticCost opcode := by
  obtain rfl | rfl := h
  · exact hprices.mid
  · exact hprices.high

/-- A jump costs gas, and any other instruction leaves less code ahead. -/
theorem drains_of_step (hprices : config.schedule.DrainsGas)
    (h : step config env live = .ok none after) :
    after.frame.gas < live.frame.gas ∨
      after.frame.gas ≤ live.frame.gas ∧
      after.frame.ahead < live.frame.ahead := by
  obtain ⟨byte, hbyte, hcode, hgas, hmoved⟩ := progress_of_step h
  obtain hforward | hjump := hmoved
  · obtain ⟨hinside, _⟩ := Array.getElem?_eq_some_iff.1 hbyte
    refine .inr ⟨Nat.le_of_add_right_le hgas, ?_⟩
    rw [Frame.ahead, Frame.ahead, hcode]
    omega
  · have hprice := staticCost_pos_of_jump hprices hjump
    exact .inl (by omega)

theorem potential_lt_of_step (hprices : config.schedule.DrainsGas)
    (h : step config env live = .ok none after) :
    potential after < potential live := by
  apply Prod.Lex.toLex_lt_toLex.2
  obtain hgas | ⟨hgas, hahead⟩ := drains_of_step hprices h
  · exact .inl hgas
  · exact (Nat.lt_or_eq_of_le hgas).imp_right fun heq => ⟨heq, hahead⟩

/-- Runs a frame until it stops. -/
def complete (hprices : config.schedule.DrainsGas) (env : Environment)
    (live : Live σ) : EStateM.Result Failure (Live σ) Signal :=
  match _ : step config env live with
  | .ok none next => complete hprices env next
  | .ok (some signal) next => .ok signal next
  | .error cause next => .error cause next
termination_by potential live
decreasing_by exact potential_lt_of_step hprices ‹_›

theorem exists_run_eq_complete (hprices : config.schedule.DrainsGas)
    (env : Environment) (live : Live σ) :
    ∃ n, ∀ fuel ≥ n, run config env fuel live =
      some (complete hprices env live) := by
  fun_induction complete hprices env live with
  | case1 live next hstep ih =>
    obtain ⟨n, hn⟩ := ih
    refine ⟨n + 1, fun fuel hfuel => ?_⟩
    obtain ⟨more, rfl⟩ := Nat.exists_eq_add_of_le' (Nat.one_le_of_lt hfuel)
    rw [run, hstep]
    exact hn more (Nat.le_of_succ_le_succ hfuel)
  | case2 live signal next hstep =>
    refine ⟨1, fun fuel hfuel => ?_⟩
    obtain ⟨more, rfl⟩ := Nat.exists_eq_add_of_le' hfuel
    rw [run, hstep]
  | case3 live cause next hstep =>
    refine ⟨1, fun fuel hfuel => ?_⟩
    obtain ⟨more, rfl⟩ := Nat.exists_eq_add_of_le' hfuel
    rw [run, hstep]

end Execution

/-! ## All live frames -/

namespace Transaction

/-- The code ahead of all live frames, and their number. -/
def framesAhead (state : Running σ) : Nat :=
  state.top.frame.ahead + (state.waiting.map (·.frame.ahead)).sum +
    (state.waiting.length + 1)

/-- What each instruction of a transaction lowers. -/
def potential (state : Running σ) : Nat ×ₗ Nat :=
  toLex (liveGas state, framesAhead state)

section Turns

variable {top : Activation} {ledger after : σ} {frame : Frame}

/-- What a frame hands over with a request and what it is left with is less than
what it had. -/
theorem gas_add_lt_of_meets {live next : Live σ} {signal : Signal}
    {response : Response} (hprices : config.schedule.DrainsGas)
    (hstep : Execution.step config env live = .ok (some signal) next)
    (h : Meets config next signal response after) :
    next.frame.gas + signal.gas < live.frame.gas := by
  have hpaid := Execution.gas_add_cost_le_of_step hprices.stipend hstep
    (isRequest_of_meets h)
  have hcall := hprices.call
  have hcreate := hprices.create
  omega

theorem drains_of_continues (hprices : config.schedule.DrainsGas)
    (h : turn config env top ledger = .continues frame after) :
    frame.gas < top.frame.gas ∨ frame.gas ≤ top.frame.gas ∧
    frame.ahead < top.frame.ahead := by
  obtain hstep | ⟨signal, live, response, hstep, hmeets, hanswer⟩ :=
    turn_eq_continues h
  · exact Execution.drains_of_step hprices hstep
  · have hlt : live.frame.gas + signal.gas < top.frame.gas :=
      gas_add_lt_of_meets hprices hstep hmeets
    refine .inl ?_
    obtain ⟨_, hrefuse⟩ | ⟨_, hcollide⟩ := hanswer
    · calc
        frame.gas = (live.frame.returnGas signal.gas).gas :=
          (refuse_eq_ok hrefuse).1
        _ ≤ live.frame.gas + signal.gas := returnGas_gas_le ..
        _ < top.frame.gas := hlt
    · calc
        frame.gas = live.frame.gas := (answer_eq_ok hcollide).1
        _ ≤ live.frame.gas + signal.gas := Nat.le_add_right ..
        _ < top.frame.gas := hlt

theorem gas_add_lt_of_enters (hprices : config.schedule.DrainsGas)
    {child : Activation}
    (h : turn config env top ledger = .enters frame child after) :
    frame.gas + child.frame.gas < top.frame.gas := by
  obtain ⟨signal, live, hstep, rfl, hmeets⟩ := turn_eq_enters h
  rw [(entered_gas hmeets).1]
  exact gas_add_lt_of_meets hprices hstep hmeets

end Turns

theorem ahead_of_resume {frame resumed : Frame} {role : Role} {exit : Exit}
    (h : frame.resume role exit = .ok resumed) :
    resumed.ahead = frame.ahead := by
  obtain ⟨_, _, _, rfl⟩ := Frame.exists_of_resume h
  rfl

theorem potential_lt_of_advance (hprices : config.schedule.DrainsGas)
    {state next : Running σ} (h : advance config env state = .running next) :
    potential next < potential state := by
  apply Prod.Lex.toLex_lt_toLex.2
  cases advances_of_advance h with
  | continues hturn =>
    have hdrains := drains_of_continues hprices hturn
    simp only [liveGas, framesAhead]
    omega
  | enters hturn =>
    have hgas := gas_add_lt_of_enters hprices hturn
    simp only [liveGas, List.map_cons, List.sum_cons]
    omega
  | @resumes top parent _ _ _ exit frame hturn hresume =>
    -- No gas need be lost here: it is the number of frames that drops.
    have hleft := (gas_of_finished hturn).1
    have hahead := ahead_of_resume hresume
    have hgas : frame.gas ≤ parent.frame.gas + exit.gasLeft := calc
      frame.gas = (parent.frame.returnGas exit.gasLeft).gas :=
        (resume_eq_ok hresume).1
      _ ≤ parent.frame.gas + exit.gasLeft := returnGas_gas_le ..
    simp only [liveGas, framesAhead, List.map_cons, List.sum_cons,
      List.length_cons, hahead]
    omega

/-- Drives a transaction to its conclusion. -/
def conclude (hprices : config.schedule.DrainsGas) (env : Environment)
    (state : Running σ) : Conclusion σ :=
  match _ : advance config env state with
  | .running next => conclude hprices env next
  | .concluded conclusion => conclusion
termination_by potential state
decreasing_by exact potential_lt_of_advance hprices ‹_›

theorem exists_drive_eq_conclude (hprices : config.schedule.DrainsGas)
    (env : Environment) (state : Running σ) :
    ∃ n, ∀ fuel ≥ n, drive config env fuel state =
      some (conclude hprices env state) := by
  fun_induction conclude hprices env state with
  | case1 state next hadvance ih =>
    obtain ⟨n, hn⟩ := ih
    refine ⟨n + 1, fun fuel hfuel => ?_⟩
    obtain ⟨more, rfl⟩ := Nat.exists_eq_add_of_le' (Nat.one_le_of_lt hfuel)
    rw [drive, hadvance]
    exact hn more (Nat.le_of_succ_le_succ hfuel)
  | case2 state conclusion hadvance =>
    refine ⟨1, fun fuel hfuel => ?_⟩
    obtain ⟨more, rfl⟩ := Nat.exists_eq_add_of_le' hfuel
    rw [drive, hadvance]

/-- Runs a transaction from its opening to its end. -/
def transactToEnd (hprices : config.schedule.DrainsGas) (env : Environment)
    (gas : Nat) (opening : EStateM LedgerError σ Opening) (ledger : σ) :
    EStateM.Result Failure σ Receipt :=
  match opening ledger with
  | .error cause left => .error (.ledger cause) left
  | .ok (.settled receipt) left => .ok receipt left
  | .ok (.entered root created) entered =>
    close config gas created (conclude hprices env ⟨root, [], entered⟩)

theorem exists_transact_eq (hprices : config.schedule.DrainsGas)
    (env : Environment) (gas : Nat) (opening : EStateM LedgerError σ Opening)
    (ledger : σ) :
    ∃ n, ∀ fuel ≥ n, transact config env fuel gas opening ledger =
      some (transactToEnd hprices env gas opening ledger) := by
  cases hopening : opening ledger with
  | error cause left =>
    exact ⟨0, fun fuel _ => by rw [transact, transactToEnd, hopening]⟩
  | ok opened entered =>
    cases opened with
    | settled receipt =>
      exact ⟨0, fun fuel _ => by rw [transact, transactToEnd, hopening]⟩
    | entered root created =>
      obtain ⟨n, hn⟩ := exists_drive_eq_conclude hprices env ⟨root, [], entered⟩
      refine ⟨n, fun fuel hfuel => ?_⟩
      rw [transact_of_entered hopening, hn fuel hfuel, transactToEnd, hopening]
      rfl

/-- Every transaction ends, whatever the ledger, the environment and the code,
if jumps, calls and creations have a price and the price of moving value covers
the stipend of a call, as is the case by default.  Each instruction lowers the
potential of its frame, and each lowers that of all live frames: their gas, and
when that stays the same, the code ahead of them together with their number.  So
running a frame, from any state, and driving a transaction are total functions,
defined by recursion on the potential, and with enough fuel frames, drives,
calls and creations come to what these say. -/
theorem every_transaction_ends {config : Config}
    (hprices : config.schedule.DrainsGas) (env : Environment) :
    (∀ live next : Live σ, Execution.step config env live = .ok none next →
      Execution.potential next < Execution.potential live) ∧
    (∀ live : Live σ, ∃ n, ∀ fuel ≥ n,
      Execution.run config env fuel live =
        some (Execution.complete hprices env live)) ∧
    (∀ state next : Running σ, advance config env state = .running next →
      potential next < potential state) ∧
    (∀ state : Running σ, ∃ n, ∀ fuel ≥ n,
      drive config env fuel state = some (conclude hprices env state)) ∧
    (∀ (message : CallMessage) (ledger : σ), ∃ n, ∀ fuel ≥ n,
      call config env fuel message ledger =
        some (transactToEnd hprices env message.gas (openCall message)
          ledger)) ∧
    ∀ (message : CreateMessage) (ledger : σ), ∃ n, ∀ fuel ≥ n,
      create config env fuel message ledger =
        some (transactToEnd hprices env message.gas
          (openCreation config message) ledger) := by
  refine ⟨?_, ?_, ?_, ?_, ?_, ?_⟩
  · intro live next hstep
    exact Execution.potential_lt_of_step hprices hstep
  · intro live
    exact Execution.exists_run_eq_complete hprices env live
  · intro state next hadvance
    exact potential_lt_of_advance hprices hadvance
  · intro state
    exact exists_drive_eq_conclude hprices env state
  · intro message ledger
    exact exists_transact_eq hprices env message.gas (openCall message) ledger
  · intro message ledger
    exact exists_transact_eq hprices env message.gas
      (openCreation config message) ledger

/-- A contract that does nothing but jump back to its start is called, and
ends. -/
theorem endless_loop_ends :
    ∃ n, ∀ fuel ≥ n, call {} {} fuel { caller := 1, target := 2, gas := 100000 }
      (({} : LayeredLedger).install 2 { code := #[0x5b, 0x60, 0x00, 0x56] }) =
        some (transactToEnd Config.drainsGas_default {} 100000
          (openCall { caller := 1, target := 2, gas := 100000 })
          (({} : LayeredLedger).install 2
            { code := #[0x5b, 0x60, 0x00, 0x56] })) :=
  (every_transaction_ends Config.drainsGas_default {}).2.2.2.2.1 _ _

end Transaction

end ContractMachine
