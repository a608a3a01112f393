import ContractMachine.Transaction.Activation

/-!
# Taking up an answer

A frame that has waited goes on with the answer on its stack.  It is the frame
that asked, with the gas that came back, the output in its return data and
perhaps in its memory, and the effects of a frame that succeeded; its code, its
place there and what it was called with are the same.  It fails to go on only
if its stack is full.
-/

namespace ContractMachine.Frame

variable {frame resumed : Frame}

theorem answer_eq_ok_iff {returnData : Bytes} {result : Word} :
    frame.answer returnData result = .ok resumed ↔
      frame.stack.length < Stack.limit ∧
        resumed = { frame with
          returnData, stack := result :: frame.stack } := by
  rw [answer, Stack.push]
  by_cases hroom : frame.stack.length < Stack.limit
  · rw [if_pos hroom]
    simp only [Except.map, Except.ok.injEq, hroom, true_and]
    exact eq_comm
  · rw [if_neg hroom]
    simp [Except.map, hroom]

theorem refuse_eq_ok_iff {gas : Nat} :
    frame.refuse gas = .ok resumed ↔
      frame.stack.length < Stack.limit ∧
        resumed = { frame.returnGas gas with
          returnData := #[], stack := 0 :: frame.stack } :=
  answer_eq_ok_iff

/-- The effects of a frame that goes on after another has ended. -/
def effectsAfter (frame : Frame) (exit : Exit) : Effects :=
  if exit.outcome = .success then frame.effects.absorb exit.effects
  else frame.effects

theorem exists_of_resume {role : Role} {exit : Exit}
    (h : frame.resume role exit = .ok resumed) :
    ∃ memory stack returnData, resumed = { frame.returnGas exit.gasLeft with
      memory, stack, returnData, effects := frame.effectsAfter exit } := by
  cases role <;> by_cases hsuccess : exit.outcome = .success <;>
    simp only [resume, hsuccess, if_true, if_false] at h <;>
    obtain ⟨_, rfl⟩ := answer_eq_ok_iff.1 h <;>
    exact ⟨_, _, _,
      by simp only [effectsAfter, hsuccess, if_true, if_false]; rfl⟩

theorem exists_resume (h : frame.stack.length < Stack.limit) (role : Role)
    (exit : Exit) :
    ∃ resumed, frame.resume role exit = .ok resumed := by
  cases role <;> by_cases hsuccess : exit.outcome = .success <;>
    simp only [resume, hsuccess, if_true, if_false] <;>
    exact ⟨_, answer_eq_ok_iff.2 ⟨h, rfl⟩⟩

end ContractMachine.Frame
