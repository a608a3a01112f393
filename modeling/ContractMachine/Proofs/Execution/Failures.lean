import ContractMachine.Proofs.Execution.Static
import ContractMachine.Proofs.Ledger.Writes

/-!
# How instructions fail

An instruction fails because its frame halts or because the ledger does not
answer.  What an action may fail with is put together from what its parts may
fail with.

A call of any kind but the plain one is never turned down for what it would do:
it fails only for want of operands, of room on the stack or of gas.  And on a
layered ledger no instruction fails but by a halt: such a ledger answers every
question, and what self-destruction sends is what the account holds.
-/

namespace ContractMachine

/-- Failures for want of operands, of room on the stack or of gas. -/
def Failure.IsShortage (failure : Failure) : Prop :=
  failure = .halt .stackUnderflow ∨ failure = .halt .stackOverflow ∨
    failure = .halt .outOfGas

/-- Failures that end a frame and are no fault of the ledger. -/
def Failure.IsHalt (failure : Failure) : Prop := ∃ cause, failure = .halt cause

namespace Execution

open Exec Actions

variable {σ α β : Type} {allowed : Failure → Prop}

/-- An action that fails only in ways that are allowed. -/
def FailsOnly (allowed : Failure → Prop) (action : Exec σ α) : Prop :=
  ∀ live cause reached, action live = .error cause reached → allowed cause

theorem FailsOnly.bind {x : Exec σ α} {f : α → Exec σ β}
    (hx : FailsOnly allowed x) (hf : ∀ a, FailsOnly allowed (f a)) :
    FailsOnly allowed (x >>= f) := by
  intro live cause reached h
  cases hresult : x live with
  | ok a mid =>
    rw [bind_of_ok hresult] at h
    exact hf a mid cause reached h
  | error first mid =>
    rw [bind_of_error hresult] at h
    cases h
    exact hx live cause reached hresult

theorem failsOnly_of_ok {action : Exec σ α}
    (h : ∀ live, ∃ a reached, action live = .ok a reached) :
    FailsOnly allowed action := by
  intro live cause reached herror
  obtain ⟨a, mid, hok⟩ := h live
  rw [hok] at herror
  cases herror

theorem failsOnly_pure (a : α) : FailsOnly allowed (pure a : Exec σ α) :=
  failsOnly_of_ok fun _ => ⟨_, _, rfl⟩

theorem failsOnly_getFrame : FailsOnly allowed (getFrame : Exec σ Frame) :=
  failsOnly_of_ok fun _ => ⟨_, _, rfl⟩

theorem failsOnly_modifyFrame (f : Frame → Frame) :
    FailsOnly allowed (modifyFrame f : Exec σ Unit) :=
  failsOnly_of_ok fun _ => ⟨_, _, rfl⟩

theorem failsOnly_load (range : Range) :
    FailsOnly allowed (load range : Exec σ Bytes) :=
  failsOnly_of_ok fun _ => ⟨_, _, rfl⟩

theorem failsOnly_halt {cause : Halt} (h : allowed (.halt cause)) :
    FailsOnly allowed (halt cause : Exec σ α) := by
  intro live _ reached herror
  cases herror
  exact h

theorem failsOnly_ask {read : σ → Except LedgerError α}
    (h : ∀ ledger cause, read ledger = .error cause → allowed (.ledger cause)) :
    FailsOnly allowed (ask read) := by
  intro live cause reached herror
  rw [ask] at herror
  cases hread : read live.ledger with
  | ok a => simp [hread] at herror
  | error refusal =>
    simp only [hread, EStateM.Result.error.injEq] at herror
    obtain ⟨rfl, _⟩ := herror
    exact h _ _ hread

theorem failsOnly_tell {write : EStateM LedgerError σ α}
    (h : ∀ ledger cause reached, write ledger = .error cause reached →
      allowed (.ledger cause)) :
    FailsOnly allowed (tell write) := by
  intro live cause reached herror
  unfold Exec.tell at herror
  cases hwrite : write live.ledger with
  | ok a after => simp [hwrite] at herror
  | error refusal after =>
    simp only [hwrite, EStateM.Result.error.injEq] at herror
    obtain ⟨rfl, _⟩ := herror
    exact h _ _ _ hwrite

theorem failsOnly_frame {action : EStateM Halt Frame α}
    (h : ∀ frame cause reached, action frame = .error cause reached →
      allowed (.halt cause)) :
    FailsOnly allowed (Exec.frame action : Exec σ α) := by
  intro live cause reached herror
  rw [Exec.frame] at herror
  cases haction : action live.frame with
  | ok a after => simp [haction] at herror
  | error reason after =>
    simp only [haction, EStateM.Result.error.injEq] at herror
    obtain ⟨rfl, _⟩ := herror
    exact h _ _ _ haction

theorem charge_eq_error {amount : Nat} {frame reached : Frame} {cause : Halt}
    (h : Frame.charge amount frame = .error cause reached) :
    cause = .outOfGas := by
  rw [Frame.charge] at h
  split at h <;> cases h
  rfl

theorem touch_eq_error {schedule : Schedule} {offset length : Word}
    {frame reached : Frame} {cause : Halt}
    (h : Frame.touch schedule offset length frame = .error cause reached) :
    cause = .outOfGas := by
  rw [Frame.touch] at h
  split at h
  · cases h
  split at h
  case h_2 =>
    cases h
    rfl
  case h_1 first size _ _ =>
    cases hsize : frame.memory.requiredSize? first size with
    | none =>
      simp only [hsize] at h
      cases h
      rfl
    | some required =>
      simp only [hsize] at h
      cases hcharge : Frame.charge (schedule.expansionCost frame.memory.size
        required) frame with
      | ok _ paid => simp [hcharge] at h
      | error reason paid =>
        simp only [hcharge, EStateM.Result.error.injEq] at h
        obtain ⟨rfl, _⟩ := h
        exact charge_eq_error hcharge

theorem failsOnly_charge (h : allowed (.halt .outOfGas)) (amount : Nat) :
    FailsOnly allowed (charge amount : Exec σ Unit) :=
  failsOnly_frame fun _ _ _ hcharge => charge_eq_error hcharge ▸ h

theorem failsOnly_touch (h : allowed (.halt .outOfGas)) (schedule : Schedule)
    (offset length : Word) :
    FailsOnly allowed (touch schedule offset length : Exec σ Range) :=
  failsOnly_frame fun _ _ _ htouch => touch_eq_error htouch ▸ h

theorem failsOnly_ite {condition : Prop} [Decidable condition] {x y : Exec σ α}
    (hx : condition → FailsOnly allowed x)
    (hy : ¬ condition → FailsOnly allowed y) :
    FailsOnly allowed (if condition then x else y) := by
  by_cases hcondition : condition
  · rw [if_pos hcondition]
    exact hx hcondition
  · rw [if_neg hcondition]
    exact hy hcondition

/-- An action before which another is made under a condition. -/
theorem failsOnly_guarded {condition : Prop} [Decidable condition]
    {x : Exec σ Unit} {f : Unit → Exec σ α}
    (hx : condition → FailsOnly allowed x) (hf : FailsOnly allowed (f ())) :
    FailsOnly allowed (if condition then x >>= f else f ()) :=
  failsOnly_ite (fun hcondition => (hx hcondition).bind fun _ => hf) fun _ => hf

/-! ## Calls -/

theorem failsOnly_authorize {opcode : Opcode} (h : opcode.changesState = false)
    (schedule : Schedule) :
    FailsOnly Failure.IsShortage (authorize schedule opcode : Exec σ Unit) := by
  refine failsOnly_getFrame.bind fun frame => ?_
  refine failsOnly_guarded (fun _ => failsOnly_halt (.inl rfl)) ?_
  refine failsOnly_guarded (fun _ => failsOnly_halt (.inr (.inl rfl))) ?_
  refine (failsOnly_charge (.inr (.inr rfl)) _).bind fun _ => ?_
  refine failsOnly_ite (fun hforbidden => ?_) fun _ => failsOnly_pure ()
  rw [h] at hforbidden
  exact absurd hforbidden.2 Bool.false_ne_true

variable [Ledger σ]

theorem failsOnly_prepareCall {kind : CallKind} (h : kind ≠ .call)
    (schedule : Schedule) (operand : Nat → Word) :
    FailsOnly Failure.IsShortage
      (prepareCall schedule kind operand : Exec σ CallRequest) := by
  have hgas : Failure.IsShortage (.halt .outOfGas) := .inr (.inr rfl)
  refine failsOnly_getFrame.bind fun frame => ?_
  refine failsOnly_guarded (fun hplain => absurd hplain.1 h) ?_
  refine (failsOnly_touch hgas _ _ _).bind fun input =>
    (failsOnly_touch hgas _ _ _).bind fun window => ?_
  refine failsOnly_ite (fun hplain => absurd hplain.1 h) fun _ => ?_
  exact (failsOnly_charge hgas _).bind fun _ => failsOnly_getFrame.bind fun _ =>
    (failsOnly_charge hgas _).bind fun _ => (failsOnly_load _).bind fun _ =>
      failsOnly_pure _

/-- A call that is not a plain one fails only for want of something, whether its
frame is static or not. -/
theorem isShortage_of_call {config : Config} {env : Environment}
    {live reached : Live σ} {byte : UInt8} {kind : CallKind} {cause : Failure}
    (hbyte : live.frame.code[live.frame.position]? = some byte)
    (hopcode : Opcode.decode byte = .call kind) (hkind : kind ≠ .call)
    (h : step config env live = .error cause reached) : cause.IsShortage := by
  rw [step_of_some hbyte, hopcode] at h
  have hconduct : ∀ operands, FailsOnly Failure.IsShortage
      (conduct config env (.call kind) operands : Exec σ (Option Signal)) := by
    intro operands
    rw [conduct, perform, bind_assoc]
    refine (failsOnly_modifyFrame _).bind fun _ =>
      (failsOnly_prepareCall hkind _ _).bind ?_
    intro request
    rw [pure_bind, proceed]
    exact (failsOnly_modifyFrame _).bind fun _ => failsOnly_pure _
  exact (failsOnly_authorize rfl _).bind (fun _ => hconduct _) live cause
    reached h

/-! ## Layered ledgers -/

section Layered

variable {opcode : Opcode} {address : Address} {post : α → Prop}

theorem exists_answer {read : LayeredLedger → Except LedgerError α}
    (h : Question read) (ledger : LayeredLedger) :
    ∃ answer, read ledger = .ok answer := by
  cases h with
  | isEmpty a => exact ⟨_, LayeredLedger.isEmpty_eq ledger a⟩
  | balance | code | codeHash | slot => exact ⟨_, rfl⟩

theorem isHalt_of_part {action : Exec LayeredLedger α}
    (h : Part opcode address post action) (hopcode : opcode ≠ .selfDestruct)
    {live reached : Live LayeredLedger} {cause : Failure}
    (haddress : live.frame.context.address = address)
    (herror : action live = .error cause reached) : cause.IsHalt := by
  have hgas : Failure.IsHalt (.halt .outOfGas) := ⟨_, rfl⟩
  induction h generalizing live with
  | pure | getFrame | load | remember | gather => cases herror
  | halt => exact failsOnly_halt ⟨_, rfl⟩ _ _ _ herror
  | charge amount => exact failsOnly_charge hgas amount _ _ _ herror
  | touch schedule offset length =>
    exact failsOnly_touch hgas schedule offset length _ _ _ herror
  | ask hquestion =>
    refine failsOnly_ask (fun ledger refusal hrefused => ?_) _ _ _ herror
    obtain ⟨answer, hanswer⟩ := exists_answer hquestion ledger
    rw [hanswer] at hrefused
    cases hrefused
  | store key value =>
    exact failsOnly_tell (fun _ _ _ hrefused => by cases hrefused) _ _ _ herror
  | send target value hsends => exact absurd hsends hopcode
  | @bind _ _ _ _ x f hx _ ihx ihf =>
    obtain ⟨hmoves, hmid⟩ := hx.moves haddress
    cases hresult : x live with
    | error first mid =>
      rw [bind_of_error hresult] at herror
      cases herror
      exact ihx haddress hresult
    | ok a mid =>
      rw [hresult] at hmoves
      rw [bind_of_ok hresult] at herror
      have hkept : mid.frame.context.address = address := by
        rw [← haddress]
        exact congrArg Context.address hmoves.context_eq
      exact ihf a (hmid a mid hresult) hkept herror

/-- An account that destroys itself can send what it holds, once it has paid. -/
theorem exists_sent {balance : Word} {ledger : LayeredLedger}
    (h : balance ≤ (ledger.states.top.held address).balance)
    (schedule : Schedule) (beneficiary : Address) (frame : Frame) :
    ∃ sent, (do
      let (isFirst, effects) := (← getFrame).effects.markDestroyed address
      modifyEffects fun _ =>
        if isFirst then effects.addRefund schedule.selfDestructRefund
        else effects
      tell (Ledger.transfer address beneficiary balance) : Exec LayeredLedger
        Unit)
        ⟨frame, ledger⟩ = .ok () sent := by
  obtain ⟨after, htransfer⟩ := LayeredLedger.exists_transfer beneficiary h
  have htell : ∀ frame,
      tell (Ledger.transfer address beneficiary balance) ⟨frame, ledger⟩ =
      .ok () ⟨frame, after⟩ := by
    intro frame
    unfold Exec.tell
    rw [htransfer]
  exact ⟨⟨_, after⟩, htell _⟩

theorem isHalt_of_selfDestruct {schedule : Schedule} {beneficiary : Address}
    {live reached : Live LayeredLedger} {cause : Failure}
    (herror : selfDestruct schedule beneficiary live = .error cause reached) :
    cause.IsHalt := by
  let address := live.frame.context.address
  let balance := (live.ledger.states.top.held address).balance
  have hsends := exists_sent (BitVec.le_refl balance) schedule beneficiary
  have hframe : getFrame live = .ok live.frame live := rfl
  have hbalance : ask (Ledger.balance · address) live = .ok balance live := rfl
  rw [selfDestruct, bind_of_ok hframe] at herror
  dsimp only at herror
  rw [bind_of_ok hbalance] at herror
  by_cases hzero : balance ≠ 0
  · rw [if_pos hzero] at herror
    have hempty : ask (Ledger.isEmpty · beneficiary) live =
        .ok (live.ledger.states.top.isEmpty beneficiary) live := by
      rw [ask, LayeredLedger.isEmpty_eq]
    rw [bind_of_ok hempty] at herror
    by_cases hnew : live.ledger.states.top.isEmpty beneficiary = true
    · rw [if_pos hnew] at herror
      by_cases hpays : schedule.selfDestructNewAccount ≤ live.frame.gas
      · rw [bind_of_ok (charge_of_le hpays)] at herror
        obtain ⟨sent, hsent⟩ := hsends _
        cases hsent.symm.trans herror
      · rw [bind_of_error (charge_of_lt (Nat.not_le.1 hpays))] at herror
        cases herror
        exact ⟨_, rfl⟩
    · rw [if_neg hnew] at herror
      obtain ⟨sent, hsent⟩ := hsends _
      cases hsent.symm.trans herror
  · rw [if_neg hzero] at herror
    obtain ⟨sent, hsent⟩ := hsends _
    cases hsent.symm.trans herror

variable {config : Config} {env : Environment}
  {live reached : Live LayeredLedger}
variable {cause : Failure}

theorem isHalt_of_perform {operands : Stack}
    (herror : perform config env opcode operands live = .error cause reached) :
    cause.IsHalt := by
  by_cases hopcode : opcode = .selfDestruct
  · subst hopcode
    rw [perform] at herror
    cases hresult : selfDestruct config.schedule (operands.getD 0 0).toAddress
      live with
    | ok _ mid =>
      rw [bind_of_ok hresult] at herror
      cases herror
    | error first mid =>
      rw [bind_of_error hresult] at herror
      cases herror
      exact isHalt_of_selfDestruct hresult
  · exact isHalt_of_part (part_perform config env opcode operands) hopcode
      rfl herror

theorem failsOnly_proceed (opcode : Opcode) (flow : Flow) :
    FailsOnly Failure.IsHalt
      (proceed opcode flow : Exec LayeredLedger (Option Signal)) := by
  cases flow with
  | next results =>
    exact (failsOnly_modifyFrame _).bind fun _ => failsOnly_pure _
  | stop signal =>
    exact (failsOnly_modifyFrame _).bind fun _ => failsOnly_pure _
  | jump destination =>
    exact (failsOnly_frame fun _ _ _ _ => ⟨_, rfl⟩).bind fun _ =>
      failsOnly_pure _

/-- On a layered ledger an instruction fails only by a halt of its frame. -/
theorem isHalt_of_step (herror : step config env live = .error cause reached) :
    cause.IsHalt := by
  cases hbyte : live.frame.code[live.frame.position]? with
  | none =>
    rw [step_of_none hbyte] at herror
    cases herror
  | some byte =>
    rw [step_of_some hbyte] at herror
    cases hauthorize : authorize config.schedule (Opcode.decode byte) live with
    | error first mid =>
      rw [bind_of_error hauthorize] at herror
      cases herror
      have hpart : Part .stop live.frame.context.address (fun _ => True)
          (authorize config.schedule (Opcode.decode byte) :
            Exec LayeredLedger Unit) :=
        part_authorize config.schedule (Opcode.decode byte)
      exact isHalt_of_part hpart Opcode.noConfusion rfl hauthorize
    | ok _ paid =>
      let taken : Live LayeredLedger := { paid with frame := { paid.frame with
        stack := paid.frame.stack.drop (Opcode.decode byte).inputs } }
      have hconduct : (perform config env (Opcode.decode byte)
          (live.frame.stack.take (Opcode.decode byte).inputs) >>=
            proceed (Opcode.decode byte))
            taken = .error cause reached := by
        rw [bind_of_ok hauthorize] at herror
        exact herror
      cases hperform : perform config env (Opcode.decode byte)
          (live.frame.stack.take (Opcode.decode byte).inputs) taken with
      | ok flow last =>
        rw [bind_of_ok hperform] at hconduct
        exact failsOnly_proceed _ flow _ _ _ hconduct
      | error first last =>
        rw [bind_of_error hperform] at hconduct
        cases hconduct
        exact isHalt_of_perform hperform

end Layered

end Execution

end ContractMachine
