import ContractMachine.Proofs.Execution.Steps

/-!
# Instructions of a static frame

In a static frame no instruction is authorized that writes to the ledger,
gathers effects or creates; so whether an instruction succeeds or fails, ledger
and effects stay as they are.  What such a frame may still ask for is a call,
and if that is a plain one it moves no value.
-/

namespace ContractMachine.Execution

open Exec Actions

variable {σ : Type} [Ledger σ] {config : Config} {env : Environment}
  {live after : Live σ}

theorem ledger_step_of_static (h : live.frame.context.isStatic = true) :
    (left (step config env live)).ledger = live.ledger := by
  refine (moves_step config env live).ledger_eq ?_
  rw [h]
  exact Bool.noConfusion

theorem context_step (config : Config) (env : Environment) (live : Live σ) :
    (left (step config env live)).frame.context = live.frame.context :=
  (moves_step config env live).context_eq

/-! ## Effects -/

theorem part_authorize {opcode : Opcode} {address : Address}
    (schedule : Schedule) (authorized : Opcode) :
    Part opcode address (fun _ => True)
      (authorize schedule authorized : Exec σ Unit) := by
  refine Part.getFrame.bind fun frame _ =>
    part_guarded (.halt _) (part_guarded (.halt _) ?_)
  exact (Part.charge _).bind fun _ _ => part_ite (.halt _) (.pure trivial)

theorem Works.effects_eq {opcode : Opcode} {before after : Frame}
    (h : Works opcode before after) (hopcode : opcode.changesState = false) :
    after.effects = before.effects := by
  obtain ⟨_, _, _, _, heffects, rfl⟩ := h
  exact heffects hopcode

/-- The checks before an instruction gather nothing, whatever the
instruction. -/
theorem effects_authorize (schedule : Schedule) (opcode : Opcode)
    (live : Live σ) :
    (left (authorize schedule opcode live)).frame.effects =
      live.frame.effects := by
  have hworks : Works .stop live.frame
      (left (authorize schedule opcode live)).frame :=
    (part_authorize schedule opcode).works live rfl
  exact hworks.effects_eq rfl

omit [Ledger σ] in
theorem effects_proceed (opcode : Opcode) (flow : Flow) (live : Live σ) :
    (left (proceed opcode flow live)).frame.effects = live.frame.effects := by
  cases flow with
  | next results => rfl
  | stop signal => rfl
  | jump destination =>
    have hjump := left_frame (Frame.jump destination) live
    have heffects : (left (Frame.jump destination live.frame)).effects =
        live.frame.effects := by
      rw [Frame.jump]
      cases live.frame.jumps.isValid destination.toCount <;> rfl
    rw [proceed]
    cases hresult : Exec.frame (Frame.jump destination) live with
    | ok _ jumped =>
      rw [hresult, left] at hjump
      rw [bind_of_ok hresult]
      exact (congrArg (·.frame.effects) hjump).trans heffects
    | error cause jumped =>
      rw [hresult, left] at hjump
      rw [bind_of_error hresult]
      exact (congrArg (·.frame.effects) hjump).trans heffects

theorem effects_conduct {opcode : Opcode} (h : opcode.changesState = false)
    (operands : Stack) (live : Live σ) :
    (left (conduct config env opcode operands live)).frame.effects =
      live.frame.effects := by
  let taken : Live σ :=
    { live with
      frame := { live.frame with
        stack := live.frame.stack.drop opcode.inputs } }
  have hworks : Works opcode taken.frame
      (left (perform config env opcode operands taken)).frame :=
    (part_perform config env opcode operands).works taken rfl
  have heffects := hworks.effects_eq h
  have hconduct : conduct config env opcode operands live =
      (perform config env opcode operands >>= proceed opcode) taken := rfl
  rw [hconduct]
  cases hperform : perform config env opcode operands taken with
  | ok flow last =>
    rw [hperform] at heffects
    rw [bind_of_ok hperform, effects_proceed]
    exact heffects
  | error cause last =>
    rw [hperform] at heffects
    rw [bind_of_error hperform]
    exact heffects

theorem effects_step_of_static (h : live.frame.context.isStatic = true) :
    (left (step config env live)).frame.effects = live.frame.effects := by
  cases hbyte : live.frame.code[live.frame.position]? with
  | none => rw [step_of_none hbyte, left]
  | some byte =>
    rw [step_of_some hbyte]
    have heffects := effects_authorize config.schedule (Opcode.decode byte) live
    cases hauthorize : authorize config.schedule (Opcode.decode byte) live with
    | error cause reached =>
      rw [hauthorize] at heffects
      rw [bind_of_error hauthorize]
      exact heffects
    | ok _ reached =>
      rw [hauthorize] at heffects
      have hopcode : (Opcode.decode byte).changesState = false := by
        by_contra hchanges
        have hfalse :=
          isStatic_of_authorize hauthorize (by simpa using hchanges)
        rw [h] at hfalse
        cases hfalse
      rw [bind_of_ok hauthorize, effects_conduct hopcode]
      exact heffects

/-! ## Requests -/

omit [Ledger σ] in
theorem payCall_request {schedule : Schedule} {kind : CallKind}
    {operand : Nat → Word} {value : Word} {input window : Range}
    {createsAccount : Bool} {request : CallRequest}
    (h : payCall schedule kind operand value input window createsAccount live =
      .ok request after) : request.kind = kind ∧ request.value = value := by
  obtain ⟨_, _, _, hrest⟩ := bind_eq_ok_iff.1 h
  obtain ⟨_, _, _, hforward⟩ := bind_eq_ok_iff.1 hrest
  obtain ⟨_, _, _, hload⟩ := bind_eq_ok_iff.1 hforward
  obtain ⟨_, _, _, hpure⟩ := bind_eq_ok_iff.1 hload
  obtain ⟨rfl, _⟩ := pure_eq_ok_iff.1 hpure
  exact ⟨rfl, rfl⟩

/-- A plain call in a static frame has no value. -/
theorem value_of_prepareCall {schedule : Schedule} {kind : CallKind}
    {operand : Nat → Word} {request : CallRequest}
    (h : prepareCall schedule kind operand live = .ok request after)
    (hstatic : live.frame.context.isStatic = true)
    (hkind : request.kind = .call) :
    request.value = 0 := by
  obtain ⟨value, _, _, _, _, hpay, hvalue, _⟩ := exists_payCall_of_prepareCall h
  obtain ⟨rfl, rfl⟩ := payCall_request hpay
  exact hvalue hkind hstatic

/-- All that a static frame may ask for. -/
theorem call_of_static_step {signal : Signal}
    (h : step config env live = .ok (some signal) after)
    (hrequest : signal.IsRequest)
    (hstatic : live.frame.context.isStatic = true) :
    ∃ request, signal = .call request ∧
      (request.kind = .call → request.value = 0) := by
  obtain ⟨opcode, last, hasks, hauthorized, _⟩ := asks_of_step h hrequest
  cases hasks with
  | call hprepare => exact ⟨_, rfl, value_of_prepareCall hprepare hstatic⟩
  | create hprepare =>
    have hfalse := hauthorized.permitted rfl
    rw [hstatic] at hfalse
    cases hfalse

end ContractMachine.Execution
