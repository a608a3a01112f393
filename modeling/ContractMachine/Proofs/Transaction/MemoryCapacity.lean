import ContractMachine.Proofs.Execution.ZeroExtension
import ContractMachine.Proofs.Transaction.MemoryLimits

/-!
# Gas that keeps memory within its capacity

A machine breaks off where a frame has paid for more memory than there can be.
That much memory has a price too, and frames pay for what they have out of their
gas limits.  So a transaction with less gas than that price comes to its end
whatever it runs, and all that is said of transactions that end is said of it.

At the default prices this is the case up to `9 * 10 ^ 17` gas.  Beyond, a copy
of one byte is enough to break off.
-/

namespace ContractMachine

open Actions

/-- The price of the least memory that is too large. -/
def Schedule.excessPrice (schedule : Schedule) : Nat :=
  schedule.memoryCost (wordCount (Memory.capacity + 1))

example : ({} : Schedule).excessPrice = 900719925474099199 := by decide

theorem Frame.Solvent.size_le_capacity {schedule : Schedule} {frame : Frame}
    (h : frame.Solvent schedule)
    (hgas : frame.gasLimit < schedule.excessPrice) :
    frame.memory.size ≤ Memory.capacity := by
  by_contra hbeyond
  have hwords : wordCount (Memory.capacity + 1) ≤ wordCount frame.memory.size :=
    wordCount_mono (Nat.lt_of_not_le hbeyond)
  have hpaid : schedule.excessPrice ≤ frame.gasLimit := calc
    schedule.excessPrice ≤ frame.memory.price schedule :=
      schedule.memoryCost_mono hwords
    _ ≤ frame.gasLimit := Nat.le_of_add_left_le h
  exact absurd hpaid (Nat.not_le.2 hgas)

namespace Execution

variable {σ : Type} [Ledger σ]

theorem breaksOff_iff (config : Config) (env : Environment) (live : Live σ) :
    BreaksOff config env live ↔
      Memory.capacity < (left (step config env live)).frame.memory.size := by
  rw [BreaksOff]
  cases step config env live <;> rfl

end Execution

namespace Transaction

/-- A transaction does not break off if it has less gas than memory beyond its
capacity costs, and the price of moving value covers the stipend of a call. -/
theorem not_breaksOff_of_reaches {σ : Type} [Ledger σ] {config : Config}
    {env : Environment} {gas : Nat} {opening : EStateM LedgerError σ Opening}
    {ledger entered : σ} {root : Activation} {created : Option Address}
    {state : Running σ}
    (hstipend : config.schedule.callStipend ≤ config.schedule.callValue)
    (hgas : gas < config.schedule.excessPrice)
    (hopens : Opens config gas opening)
    (hopening : opening ledger = .ok (.entered root created) entered)
    (hreaches : Reaches config env ⟨root, [], entered⟩ state) :
    ¬ Execution.BreaksOff config env ⟨state.top.frame, state.ledger⟩ := by
  have hfunded :=
    funded_of_reaches hstipend (funded_root hopens hopening) hreaches
  have hsolvent := allSolvent_of_reaches hstipend hopens hopening hreaches
  have hlimit :=
    (Execution.moves_step config env
      ⟨state.top.frame, state.ledger⟩).gasLimit_eq
  rw [Execution.breaksOff_iff, Nat.not_lt]
  apply (solvent_step hsolvent.top state.ledger).size_le_capacity
  calc
    _ = state.top.frame.gasLimit := hlimit
    _ ≤ gas := Nat.le_of_add_right_le hfunded.backs.add_sum_le
    _ < config.schedule.excessPrice := hgas

end Transaction

/-- A frame with `10 ^ 18` gas that copies a byte of its code to `2 ^ 63`
breaks off. -/
theorem Execution.breaksOff_of_far_copy :
    let live : Live LayeredLedger :=
      ⟨{ Frame.start #[0x39] {} (10 ^ 18) with
        stack := [0x8000000000000000, 0, 1] }, {}⟩
    BreaksOff {} {} live := by
  intro live
  have hpoised : Poised ({} : Config).schedule .codeCopy
      ([] ++ [0x8000000000000000, 0, 1]) [] live.frame :=
    ⟨rfl, rfl, rfl, by decide, by decide, by decide, nofun⟩
  have hcopies := @CopiesFrom.copies _ _ {} {} live _ _ _ _ _ _ _ .code
    (by decide) hpoised
  rw [hcopies.breaksOff_iff ⟨2 ^ 63 + 32, by decide, by decide⟩]
  decide

end ContractMachine
