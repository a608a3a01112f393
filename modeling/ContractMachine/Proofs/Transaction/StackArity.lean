import ContractMachine.Proofs.Transaction.Lives

/-!
# Instructions keep to their declared numbers of operands and results

Every instruction is declared to take so many words off the stack and to put so
many there.  A step fails on the stack just when these numbers say that it must,
and nothing that an instruction does to the stack afterwards can fail.  Where it
succeeds it has replaced as many words as was declared.  A request leaves its
one result to whoever answers it, and leaves room for it.

So no stack ever gets past its limit.
-/

namespace ContractMachine

open Actions Execution

/-- Whoever answers a frame that waits puts just one word on its stack. -/
structure Frame.TakesAnswer (frame : Frame) : Prop where
  refuse : ∀ gas, ∃ answered,
    frame.refuse gas = .ok answered ∧ answered.stack = 0 :: frame.stack
  collide : ∃ answered, frame.answer #[] 0 = .ok answered ∧
    answered.stack = 0 :: frame.stack
  resume : ∀ role exit, ∃ answered word, frame.resume role exit = .ok answered ∧
    answered.stack = word :: frame.stack

theorem Frame.takesAnswer_of_lt {frame : Frame}
    (h : frame.stack.length < Stack.limit) :
    frame.TakesAnswer where
  refuse gas := ⟨_, refuse_eq_ok_iff.2 ⟨h, rfl⟩, rfl⟩
  collide := ⟨_, answer_eq_ok_iff.2 ⟨h, rfl⟩, rfl⟩
  resume role exit := by
    obtain ⟨answered, hresume⟩ := exists_resume h role exit
    obtain ⟨word, hstack⟩ := stack_of_resume hresume
    exact ⟨answered, word, hresume, hstack⟩

section Steps

variable {σ : Type} [Ledger σ] {config : Config} {env : Environment}
  {live after : Live σ} {byte : UInt8} {signal : Signal}

/-- An instruction that makes a request is declared to have one result. -/
theorem Execution.outputs_of_request
    (hbyte : live.frame.code[live.frame.position]? = some byte)
    (h : step config env live = .ok (some signal) after)
    (hrequest : signal.IsRequest) :
    (Opcode.decode byte).outputs = 1 := by
  obtain ⟨flow, last, hsucceeds, hproceed⟩ := succeeds_of_step hbyte h
  obtain ⟨rfl, _⟩ := proceed_eq_some hproceed
  obtain ⟨kind, request, hopcode, _⟩ | ⟨salted, request, hopcode, _⟩ |
      ⟨output, rfl | rfl⟩ :=
    perform_eq_stop hsucceeds.performed
  · rw [hopcode]
    rfl
  · rw [hopcode]
    rfl
  · exact hrequest.elim
  · exact hrequest.elim

/-- What a frame that makes a request has left on its stack. -/
theorem Execution.stack_of_request
    (hbyte : live.frame.code[live.frame.position]? = some byte)
    (h : step config env live = .ok (some signal) after)
    (hrequest : signal.IsRequest) :
    after.frame.stack = live.frame.stack.drop (Opcode.decode byte).inputs := by
  obtain ⟨_, hreplaces⟩ := replaces_of_step hbyte h
  cases signal with
  | «return» | revert => exact hrequest.elim
  | call request => exact hreplaces.1
  | create request => exact hreplaces

/-- What a frame that makes no request has left on its stack. -/
theorem Execution.stack_of_no_request {reason : Option Signal}
    (hbyte : live.frame.code[live.frame.position]? = some byte)
    (h : step config env live = .ok reason after)
    (hreason : ∀ signal, reason = some signal → ¬ signal.IsRequest) :
    ∃ results : Stack, results.length = (Opcode.decode byte).outputs ∧
      after.frame.stack =
        results ++ live.frame.stack.drop (Opcode.decode byte).inputs := by
  obtain ⟨_, hreplaces⟩ := replaces_of_step hbyte h
  rcases reason with _ | (_ | _ | _ | _)
  case none | some.return | some.revert => exact hreplaces
  case some.call | some.create => exact absurd trivial (hreason _ rfl)

end Steps

/-- What the declared numbers say about a step of an instruction. -/
structure Execution.KeepsArity {σ : Type} [Ledger σ] (config : Config)
    (env : Environment) (opcode : Opcode) (live : Live σ) : Prop where
  underflow_iff : (∃ reached,
    step config env live = .error (.halt .stackUnderflow) reached) ↔
    live.frame.stack.length < opcode.inputs
  overflow_iff : (∃ reached,
    step config env live = .error (.halt .stackOverflow) reached) ↔
    opcode.inputs ≤ live.frame.stack.length ∧
      Stack.limit < live.frame.stack.length - opcode.inputs + opcode.outputs
  strict : ∀ fault, Strict.step fault config env live = step config env live
  not_isStackFault : ∀ fault paid cause reached,
    authorize config.schedule opcode live = .ok () paid →
    Strict.execute fault config env opcode paid = .error cause reached →
    ¬ cause.IsStackFault
  replaces : ∀ reason after, step config env live = .ok reason after →
    (∀ signal, reason = some signal → ¬ signal.IsRequest) →
    ∃ results : Stack, results.length = opcode.outputs ∧
      after.frame.stack = results ++ live.frame.stack.drop opcode.inputs
  requests : ∀ signal after, step config env live = .ok (some signal) after →
    signal.IsRequest →
    opcode.outputs = 1 ∧
      after.frame.stack = live.frame.stack.drop opcode.inputs ∧
      after.frame.stack.length < Stack.limit ∧ after.frame.TakesAnswer

theorem Execution.keepsArity {σ : Type} [Ledger σ] (config : Config)
    (env : Environment) {live : Live σ} {byte : UInt8}
    (hbyte : live.frame.code[live.frame.position]? = some byte) :
    KeepsArity config env (Opcode.decode byte) live where
  underflow_iff := stackUnderflow_iff hbyte
  overflow_iff := stackOverflow_iff hbyte
  strict fault := Strict.step_eq fault config env live
  not_isStackFault fault _ _ _ := Strict.not_isStackFault_of_execute fault
  replaces _ _ hstep hreason := stack_of_no_request hbyte hstep hreason
  requests _ _ hstep hrequest := by
    have hroom := room_of_step hstep hrequest
    exact ⟨outputs_of_request hbyte hstep hrequest,
      stack_of_request hbyte hstep hrequest, hroom,
      Frame.takesAnswer_of_lt hroom⟩

/-- The declared numbers of operands and results are what instructions go by.
Whatever the byte, the ledger and the environment, a step fails for want of
operands if and only if the stack holds fewer words than its instruction takes,
and for want of room if and only if it holds enough but would hold too many
afterwards.  Strict execution, in which every instruction takes its operands and
puts its results by itself and fails where the stack does not let it, makes the
same steps, and does not fail on the stack once the instruction is authorized.
A step that succeeds replaces as many words on top of the stack as is declared
and leaves those beneath, but for a request, which takes its operands and has
room for its one result; a refusal, a collision and the end of another frame
each put just that one word there.

Hence no frame whose stack begins within the limit ever gets past it, and so no
frame of a transaction does. -/
theorem stack_arities_are_exact {σ : Type} [Ledger σ] (config : Config) :
    (∀ env (live : Live σ) byte,
      live.frame.code[live.frame.position]? = some byte →
      KeepsArity config env (Opcode.decode byte) live) ∧
    (∀ signal frame, Life σ config (.waits signal) frame → frame.TakesAnswer) ∧
    (∀ stage frame, Life σ config stage frame →
      frame.stack.length ≤ Stack.limit) ∧
    ∀ env gas opening ledger root created entered state,
      Transaction.Opens config gas opening →
      opening ledger = .ok (.entered root created) (entered : σ) →
      Transaction.Reaches config env ⟨root, [], entered⟩ state →
      ∀ activation ∈ state.top :: state.waiting,
        activation.frame.stack.length ≤ Stack.limit := by
  refine ⟨fun env live byte hbyte => keepsArity config env hbyte, ?_, ?_, ?_⟩
  · intro signal frame hlife
    exact Frame.takesAnswer_of_lt (hlife.fit.room signal rfl)
  · intro stage frame hlife
    exact hlife.fit.stack_le
  · intro env gas opening ledger root created entered state hopens hopening
      hreaches activation hmem
    have hlively := Transaction.lively_of_reaches hopens hopening hreaches
    obtain ⟨stage, hlife⟩ := hlively.exists_life activation hmem
    exact hlife.fit.stack_le

/-- There is no room for a copy on a full stack. -/
theorem full_stack_has_no_room_for_copy :
    let frame : Frame :=
      { Frame.start #[0x80] {} 100 with stack := List.replicate Stack.limit 0 }
    ∃ reached, step {} {} ⟨frame, ({} : LayeredLedger)⟩ =
      .error (.halt .stackOverflow) reached := by
  intro frame
  obtain ⟨hsteps, _⟩ := @stack_arities_are_exact LayeredLedger _ {}
  have hkeeps := hsteps {} ⟨frame, {}⟩ 0x80 rfl
  exact hkeeps.overflow_iff.2 (by decide +kernel)

end ContractMachine
