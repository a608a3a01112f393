import ContractMachine.Proofs.Execution.Agreement

/-!
# Authorized instructions lack nothing

Instruction by instruction, strict execution agrees with execution: whatever an
instruction takes from the stack, puts there, reads in memory or writes there
has been provided for when it was authorized or when it paid.  So strict steps
are steps.

What a step does to the stack and to memory can now be told from outside.  It
fails for want of operands or of room just if the declared numbers say so, it
replaces as many words as they say and leaves the words beneath, and memory
grows only against payment, even in a step that fails.
-/

namespace ContractMachine

namespace Execution

open Exec Actions

variable {σ : Type} {schedule : Schedule} {opcode : Opcode} {live : Live σ}

/-- The stack has the operands of an instruction and room for its results. -/
structure Provides (stack : Stack) (opcode : Opcode) : Prop where
  inputs_le : opcode.inputs ≤ stack.length
  room : stack.length - opcode.inputs + opcode.outputs ≤ Stack.limit

theorem provides_iff {stack : Stack} :
    Provides stack opcode ↔ ¬ stack.length < opcode.inputs ∧
      ¬ Stack.limit < stack.length - opcode.inputs + opcode.outputs := by
  rw [Nat.not_lt, Nat.not_lt]
  exact ⟨fun h => ⟨h.inputs_le, h.room⟩, fun h => ⟨h.1, h.2⟩⟩

theorem authorize_of_short (h : live.frame.stack.length < opcode.inputs) :
    authorize schedule opcode live = .error (.halt .stackUnderflow) live := by
  have hframe : getFrame live = .ok live.frame live := rfl
  rw [authorize, bind_of_ok hframe, if_pos h]
  rfl

theorem authorize_of_full (hinputs : ¬ live.frame.stack.length < opcode.inputs)
    (h : Stack.limit <
      live.frame.stack.length - opcode.inputs + opcode.outputs) :
    authorize schedule opcode live = .error (.halt .stackOverflow) live := by
  have hframe : getFrame live = .ok live.frame live := rfl
  rw [authorize, bind_of_ok hframe, if_neg hinputs, if_pos h]
  rfl

/-- An instruction that is not provided for fails at once. -/
theorem authorize_of_not_provides (h : ¬ Provides live.frame.stack opcode) :
    ∃ cause, authorize schedule opcode live = .error cause live := by
  by_cases hshort : live.frame.stack.length < opcode.inputs
  · exact ⟨_, authorize_of_short hshort⟩
  · refine ⟨_, authorize_of_full hshort ?_⟩
    by_contra hroom
    exact h (provides_iff.2 ⟨hshort, hroom⟩)

end Execution

namespace Strict

open Exec Execution Actions

variable {σ : Type} {schedule : Schedule} {stack : Stack} {ranges : List Range}

/-! ## Instructions -/

/-- What an instruction leaves on the stack fits there. -/
theorem Replaces.stack_le {opcode : Opcode} {signal : Option Signal}
    {after : Live σ} (h : Replaces opcode stack signal after)
    (hprovides : Provides stack opcode) :
    after.frame.stack.length ≤ Stack.limit := by
  have hroom := hprovides.room
  have hrest : (stack.drop opcode.inputs).length =
      stack.length - opcode.inputs :=
    List.length_drop
  rcases signal with _ | (_ | _ | _ | _)
  case none | some.return | some.revert =>
    obtain ⟨results, hlength, hstack⟩ := h
    rw [hstack, List.length_append]
    omega
  case some.call =>
    rw [h.1]
    omega
  case some.create =>
    rw [h]
    omega

section Instructions

variable (fault : Failure)

theorem agrees_copyToMemory (source : Bytes) (target offset length : Word) :
    Agrees schedule (At stack ranges)
      (copyToMemory fault schedule source target offset length : Exec σ Unit)
      (Execution.copyToMemory schedule source target offset length)
      fun _ => At stack ranges := by
  refine agrees_touch fun range _ => (agrees_charge _).bind fun _ => ?_
  have hsize : (source.window offset.toCount range.length).size ≤
      range.length :=
    (Bytes.size_window ..).le
  refine (agrees_store fault List.mem_cons_self hsize).weaken fun _ live hat =>
    ?_
  exact hat.subset fun _ => List.mem_cons_of_mem _

theorem agrees_prepareCreate (config : Config) (salted : Bool)
    (operand : Nat → Word) :
    Agrees config.schedule (At stack ranges)
      (prepareCreate fault config (if salted then some (operand 3) else none)
        (operand 0) (operand 1) (operand 2) : Exec σ CreateRequest)
      (Execution.prepareCreate config salted operand)
      fun _ => At stack ranges := by
  have hsalt : (if salted then some (operand 3) else none).isSome = salted := by
    cases salted <;> rfl
  rw [prepareCreate, Execution.prepareCreate, hsalt]
  refine agrees_guarded (agrees_halt (by simp [Failure.IsStackFault])) ?_
  refine agrees_touch fun range _ => (agrees_charge _).bind fun _ =>
    (agrees_load fault List.mem_cons_self).bind fun _ =>
      agrees_getFrame.bind fun _ =>
      (agrees_charge _).bind fun _ => ?_
  exact agrees_pure fun live hat => hat.subset fun _ => List.mem_cons_of_mem _

variable [Ledger σ]

theorem agrees_prepareCall (kind : CallKind) (operand : Nat → Word) :
    let places := if kind.takesValue then 3 else 2
    Agrees schedule (At stack ranges)
      (prepareCall fault schedule kind (operand 0) (operand 1)
        (if kind.takesValue then operand 2 else 0) (operand places)
        (operand (places + 1))
          (operand (places + 2)) (operand (places + 3)) : Exec σ CallRequest)
      (Execution.prepareCall schedule kind operand)
      fun request live => At stack [request.window] live := by
  refine agrees_getFrame.bind fun frame => agrees_guarded (agrees_halt ?_) ?_
  · simp [Failure.IsStackFault]
  refine agrees_touch fun input _ => agrees_touch fun window _ => ?_
  refine agrees_ite (fun _ => (agrees_ask _).bind fun createsAccount => ?_)
    (fun _ => (agrees_return false).bind fun createsAccount => ?_)
  all_goals
    refine (agrees_charge _).bind fun _ => agrees_getFrame.bind fun _ =>
      (agrees_charge _).bind fun _ =>
        (agrees_load fault (by simp)).bind fun _ => ?_
    exact agrees_pure fun live hat => hat.subset (by simp)

theorem agrees_selfDestruct (beneficiary : Address) :
    Agrees schedule (At stack ranges)
      (Execution.selfDestruct schedule beneficiary : Exec σ Unit)
      (Execution.selfDestruct schedule beneficiary) fun _ =>
        At stack ranges := by
  refine agrees_getFrame.bind fun frame => (agrees_ask _).bind fun balance =>
    agrees_ite (fun _ => (agrees_ask _).bind fun isNew =>
      agrees_guarded (agrees_charge _) ?_)
      fun _ => ?_
  all_goals
    refine agrees_getFrame.bind fun _ => (agrees_modifyEffects _).bind fun _ =>
      ?_
    exact agrees_tell _

theorem agrees_execute_create (config : Config) (env : Environment)
    (salted : Bool) (hinputs : (Opcode.create salted).inputs ≤ stack.length) :
    Agrees config.schedule (At stack [])
      (execute fault config env (.create salted) >>= proceed (.create salted) :
        Exec σ (Option Signal))
      (conduct config env (.create salted)
        (stack.take (Opcode.create salted).inputs))
      (Replaces (.create salted) stack) := by
  have hcreated (request : CreateRequest) : Agrees config.schedule
      (At (stack.drop (Opcode.create salted).inputs) [])
      (proceed (.create salted) (.stop (.create request)) :
        Exec σ (Option Signal))
      (Execution.proceed (.create salted) (.stop (.create request)))
      (Replaces (.create salted) stack) :=
    agrees_created request
  rw [conduct]
  cases salted with
  | false =>
    simp only [execute, perform, bind_assoc, pure_bind]
    exact agrees_operands hinputs ((agrees_prepareCreate fault config false
      fun i => (stack.take 3).getD i 0).bind hcreated)
  | true =>
    simp only [execute, perform, bind_assoc, pure_bind]
    exact agrees_operands hinputs ((agrees_prepareCreate fault config true
      fun i => (stack.take 4).getD i 0).bind hcreated)

theorem agrees_execute_call (config : Config) (env : Environment)
    (kind : CallKind) (hinputs : (Opcode.call kind).inputs ≤ stack.length) :
    Agrees config.schedule (At stack [])
      (execute fault config env (.call kind) >>=
        proceed (.call kind) : Exec σ (Option Signal))
      (conduct config env (.call kind) (stack.take (Opcode.call kind).inputs))
      (Replaces (.call kind) stack) := by
  have hcalled (request : CallRequest) : Agrees config.schedule
      (At (stack.drop (Opcode.call kind).inputs) [request.window])
      (proceed (.call kind) (.stop (.call request)) : Exec σ (Option Signal))
      (Execution.proceed (.call kind) (.stop (.call request)))
      (Replaces (.call kind) stack) :=
    agrees_called request
  rw [conduct]
  cases kind with
  | call | callCode =>
    simp only [execute, perform, CallKind.takesValue, if_true, bind_assoc,
      pure_bind]
    exact agrees_operands hinputs ((agrees_prepareCall fault _
      fun i => (stack.take 7).getD i 0).bind hcalled)
  | delegateCall | staticCall =>
    simp only [execute, perform, CallKind.takesValue, Bool.false_eq_true,
      if_false, bind_assoc, pure_bind]
    exact agrees_operands hinputs ((agrees_prepareCall fault _
      fun i => (stack.take 6).getD i 0).bind hcalled)

/-- Copies and swaps reach for some word, however near. -/
def isSized : Opcode → Bool
  | .dup n | .swap n => 1 ≤ n
  | _ => true

/-- Strict execution of an instruction that has its operands and the room for
its results agrees with the execution that takes them beforehand. -/
theorem agrees_execute (config : Config) (env : Environment) {opcode : Opcode}
    (hsized : isSized opcode = true) (hprovides : Provides stack opcode) :
    Agrees config.schedule (At stack [])
      (execute fault config env opcode >>=
        proceed opcode : Exec σ (Option Signal))
      (conduct config env opcode (stack.take opcode.inputs))
      (Replaces opcode stack) := by
  obtain ⟨hinputs, hroom⟩ := hprovides
  -- The ways to go on, for this instruction and this stack.
  have hanswer : opcode.outputs = 1 → ∀ ranges word, Agrees config.schedule
      (At (stack.drop opcode.inputs) ranges)
      (answer word >>= proceed opcode : Exec σ (Option Signal))
      (Execution.proceed opcode (.next [word])) (Replaces opcode stack) := by
    intro houtputs ranges
    apply agrees_answer houtputs
    rw [List.length_drop]
    omega
  have hnext : opcode.outputs = 0 → ∀ ranges, Agrees config.schedule
      (At (stack.drop opcode.inputs) ranges)
      (proceed opcode .next : Exec σ (Option Signal))
      (Execution.proceed opcode (.next [])) (Replaces opcode stack) :=
    fun houtputs ranges => agrees_next houtputs
  have hended : opcode.outputs = 0 → ∀ ranges signal, ¬ signal.IsRequest →
      Agrees config.schedule (At (stack.drop opcode.inputs) ranges)
      (proceed opcode (.stop signal) : Exec σ (Option Signal))
      (Execution.proceed opcode (.stop signal)) (Replaces opcode stack) :=
    fun houtputs ranges signal => agrees_ended houtputs
  have hjumped : opcode.outputs = 0 → ∀ ranges destination,
      Agrees config.schedule
      (At (stack.drop opcode.inputs) ranges)
      (jump destination >>= proceed opcode : Exec σ (Option Signal))
      (Execution.proceed opcode (.jump destination)) (Replaces opcode stack) :=
    fun houtputs ranges => agrees_jumped houtputs
  rw [conduct]
  cases opcode with
  | stop =>
    simp only [execute, perform, pure_bind]
    exact agrees_without_operands (hended rfl _ _ id)
  | jumpDest =>
    simp only [execute, perform, pure_bind]
    exact agrees_without_operands (hnext rfl _)
  | query q | push n =>
    simp only [execute, perform, bind_assoc, pure_bind]
    exact agrees_without_operands (agrees_getFrame.bind fun _ =>
      hanswer rfl _ _)
  | selfBalance =>
    simp only [execute, perform, bind_assoc, pure_bind]
    exact agrees_without_operands (agrees_getFrame.bind fun _ =>
      (agrees_ask _).bind fun _ =>
      hanswer rfl _ _)
  | unary f =>
    simp only [execute, perform, bind_assoc, pure_bind]
    exact agrees_pop hinputs (hanswer rfl _ _)
  | binary f | ternary f =>
    simp only [execute, perform, bind_assoc, pure_bind]
    exact agrees_operands hinputs (hanswer rfl _ _)
  | exp =>
    simp only [execute, perform, bind_assoc, pure_bind]
    exact agrees_operands hinputs ((agrees_charge _).bind fun _ =>
      hanswer rfl _ _)
  | keccak256 =>
    simp only [execute, perform, bind_assoc, pure_bind]
    exact agrees_operands hinputs (agrees_touch fun range _ =>
      (agrees_charge _).bind fun _ =>
      (agrees_load fault List.mem_cons_self).bind fun _ => hanswer rfl _ _)
  | balance | extCodeSize =>
    simp only [execute, perform, bind_assoc, pure_bind]
    exact agrees_pop hinputs ((agrees_ask _).bind fun _ => hanswer rfl _ _)
  | callDataLoad =>
    simp only [execute, perform, bind_assoc, pure_bind]
    exact agrees_pop hinputs (agrees_getFrame.bind fun _ => hanswer rfl _ _)
  | sload =>
    simp only [execute, perform, bind_assoc, pure_bind]
    exact agrees_pop hinputs (agrees_getFrame.bind fun _ =>
      (agrees_ask _).bind fun _ =>
      hanswer rfl _ _)
  | callDataCopy | codeCopy =>
    simp only [execute, perform, bind_assoc, pure_bind]
    exact agrees_operands hinputs (agrees_getFrame.bind fun _ =>
      (agrees_copyToMemory fault _ _ _ _).bind fun _ => hnext rfl _)
  | extCodeCopy =>
    simp only [execute, perform, bind_assoc, pure_bind]
    exact agrees_operands hinputs ((agrees_ask _).bind fun _ =>
      (agrees_copyToMemory fault _ _ _ _).bind fun _ => hnext rfl _)
  | extCodeHash =>
    simp only [execute, perform, bind_assoc]
    refine agrees_pop hinputs ((agrees_ask _).bind fun isEmpty => ?_)
    cases isEmpty with
    | true => exact hanswer rfl _ _
    | false =>
      simp only [Bool.false_eq_true, if_false, bind_assoc, pure_bind]
      exact (agrees_ask _).bind fun _ => hanswer rfl _ _
  | returnDataCopy =>
    simp only [execute, perform, bind_assoc]
    refine agrees_operands hinputs (agrees_getFrame.bind fun frame =>
      agrees_ite_bind (fun _ => ?_) fun _ => ?_)
    · simp only [bind_assoc]
      exact agrees_halt_bind (by simp [Failure.IsStackFault])
    · simp only [bind_assoc, pure_bind]
      exact (agrees_copyToMemory fault _ _ _ _).bind fun _ => hnext rfl _
  | blockHash =>
    simp only [execute, perform, Opcode.inputs, bind_assoc]
    refine agrees_pop hinputs ?_
    cases ((stack.take 1).getD 0 0).toCount? with
    | none | some number => exact hanswer rfl _ _
  | pop =>
    simp only [execute, perform, bind_assoc, pure_bind]
    exact agrees_pop hinputs (hnext rfl _)
  | mload =>
    simp only [execute, perform, bind_assoc, pure_bind]
    exact agrees_pop hinputs (agrees_touch fun range _ =>
      (agrees_load fault List.mem_cons_self).bind fun _ => hanswer rfl _ _)
  | mstore =>
    simp only [execute, perform, bind_assoc, pure_bind]
    refine agrees_operands hinputs (agrees_touch fun range hrange => ?_)
    have hsize : (Word.toBytes ((stack.take 2).getD 1 0)).size ≤
        range.length := by
      rw [hrange, Word.size_toBytes]
      rfl
    exact (agrees_store fault List.mem_cons_self hsize).bind fun _ =>
      hnext rfl _
  | mstore8 =>
    simp only [execute, perform, bind_assoc, pure_bind]
    refine agrees_operands hinputs (agrees_touch fun range hrange => ?_)
    have hsize : #[UInt8.ofNat (BitVec.toNat ((stack.take 2).getD 1 0))].size ≤
        range.length := by
      rw [hrange]
      rfl
    exact (agrees_store fault List.mem_cons_self hsize).bind fun _ =>
      hnext rfl _
  | mcopy =>
    simp only [execute, perform, bind_assoc, pure_bind]
    refine agrees_operands hinputs (agrees_touch fun source hsource =>
      agrees_touch fun target htarget => (agrees_charge _).bind fun _ => ?_)
    refine (agrees_modifyMemory fault fun memory hcovers => ?_).bind fun _ =>
      hnext rfl _
    -- Both ranges are as long as was asked for, also where one of them is
    -- empty.
    have hfrom : memory.Covers ⟨source.offset, target.length⟩ := by
      rw [htarget.trans hsource.symm]
      exact hcovers source (by simp)
    have hcopies :=
      Memory.copyWithin?_of_covers hfrom (hcovers target (by simp))
    exact ⟨hcopies, Memory.size_of_copyWithin? hcopies⟩
  | sstore =>
    simp only [execute, perform, bind_assoc, pure_bind]
    exact agrees_operands hinputs (agrees_getFrame.bind fun _ =>
      (agrees_ask _).bind fun _ =>
      (agrees_charge _).bind fun _ => (agrees_modifyEffects _).bind fun _ =>
        (agrees_tell _).bind fun _ => hnext rfl _)
  | jump =>
    simp only [execute, perform, bind_assoc, pure_bind]
    exact agrees_pop hinputs (hjumped rfl _ _)
  | jumpIf =>
    simp only [execute, perform, bind_assoc, apply_ite pure]
    refine agrees_operands hinputs (agrees_ite_bind (fun _ => ?_) fun _ => ?_)
    · exact hnext rfl _
    · exact hjumped rfl _ _
  | dup n =>
    -- Strict execution copies within the whole stack, the other one within the
    -- operands.
    have htake : (stack.take n).length = n := List.length_take_of_le hinputs
    have hlength : (stack.take n ++ stack.drop n).length < Stack.limit := by
      rw [List.take_append_drop]
      simp only [Opcode.inputs, Opcode.outputs] at hinputs hroom
      omega
    obtain ⟨results, hresults, htop, hwhole⟩ :=
      Stack.exists_dup (of_decide_eq_true hsized) htake.ge hlength
    rw [List.take_append_drop] at hwhole
    simp only [execute, perform, Opcode.inputs, htop, bind_assoc, pure_bind]
    exact agrees_replaced hwhole (hresults.trans (congrArg (· + 1) htake))
  | swap n =>
    have htake : (stack.take (n + 1)).length = n + 1 :=
      List.length_take_of_le hinputs
    have hdeep : n < (stack.take (n + 1)).length := htake.ge
    obtain ⟨results, hresults, htop, hwhole⟩ :=
      Stack.exists_swap (stack.drop (n + 1)) (of_decide_eq_true hsized) hdeep
    rw [List.take_append_drop] at hwhole
    simp only [execute, perform, Opcode.inputs, htop, bind_assoc, pure_bind]
    exact agrees_replaced hwhole (hresults.trans htake)
  | log n =>
    -- The topics are taken one by one after the first two operands, not with
    -- them.
    have hfirst : (stack.take (n + 2)).getD 0 0 = (stack.take 2).getD 0 0 := by
      simp only [List.getD_eq_getElem?_getD, List.getElem?_take]
      rfl
    have hsecond : (stack.take (n + 2)).getD 1 0 = (stack.take 2).getD 1 0 := by
      simp only [List.getD_eq_getElem?_getD, List.getElem?_take]
      rfl
    have htopics : (stack.take (n + 2)).drop 2 = (stack.drop 2).take n := by
      rw [List.drop_take]
      rfl
    simp only [execute, perform, Opcode.inputs, hfirst, hsecond, htopics,
      bind_assoc, pure_bind]
    exact agrees_operands_popEach hinputs (agrees_touch fun range _ =>
      (agrees_charge _).bind
      fun _ => (agrees_load fault List.mem_cons_self).bind fun _ =>
        agrees_getFrame.bind
        fun _ => (agrees_modifyEffects _).bind fun _ => hnext rfl _)
  | create salted => exact agrees_execute_create fault config env salted hinputs
  | call kind => exact agrees_execute_call fault config env kind hinputs
  | «return» | revert =>
    simp only [execute, perform, bind_assoc, pure_bind]
    exact agrees_operands hinputs (agrees_touch fun range _ =>
      (agrees_load fault List.mem_cons_self).bind fun _ => hended rfl _ _ id)
  | selfDestruct =>
    simp only [execute, perform, bind_assoc, pure_bind]
    exact agrees_pop hinputs ((agrees_selfDestruct _).bind fun _ =>
      hended rfl _ _ id)
  | invalid | undefined byte =>
    simp only [execute, perform]
    exact agrees_without_operands
      (agrees_halt_bind (by simp [Failure.IsStackFault]))

end Instructions

/-! ## Steps -/

section Steps

variable [Ledger σ] {config : Config} {env : Environment} {live : Live σ}
  {byte : UInt8} (fault : Failure)

theorem isSized_decode (byte : UInt8) :
    isSized (Opcode.decode byte) = true := by
  have hsized : ∀ n : Fin 256,
      isSized (Opcode.decode (UInt8.ofNat n.val)) = true := by
    decide +kernel
  simpa using hsized ⟨byte.toNat, byte.toNat_lt⟩

theorem step_of_none (h : live.frame.code[live.frame.position]? = none) :
    step fault config env live = .ok (some (.return #[])) live := by
  have hframe : getFrame live = .ok live.frame live := rfl
  rw [step, bind_of_ok hframe, h]
  rfl

theorem step_of_some (h : live.frame.code[live.frame.position]? = some byte) :
    step fault config env live = (do
      authorize config.schedule (Opcode.decode byte)
      execute fault config env (Opcode.decode byte) >>=
        proceed (Opcode.decode byte)) live := by
  have hframe : getFrame live = .ok live.frame live := rfl
  rw [step, bind_of_ok hframe, h]

omit [Ledger σ] in
theorem agrees_authorize {opcode : Opcode} (h : Provides stack opcode) :
    Agrees schedule (At stack []) (authorize schedule opcode : Exec σ Unit)
      (authorize schedule opcode) fun _ => At stack [] := by
  intro live hat
  obtain ⟨hshort, hfull⟩ := provides_iff.1 h
  have hframe : getFrame live = .ok live.frame live := rfl
  have hauthorize : authorize schedule opcode live = (do
      charge (schedule.staticCost opcode)
      if live.frame.context.isStatic ∧ opcode.changesState then
        halt .staticViolation) live := by
    rw [authorize, bind_of_ok hframe, hat.stack_eq, if_neg hshort, if_neg hfull]
  rw [hauthorize]
  exact ((agrees_charge _).bind fun _ => agrees_ite
    (fun _ => agrees_halt (by simp [Failure.IsStackFault])) fun _ =>
      agrees_return ()) live hat

/-- A step of an instruction that has been provided for. -/
theorem agrees_step (h : live.frame.code[live.frame.position]? = some byte)
    (hprovides : Provides live.frame.stack (Opcode.decode byte)) :
    step fault config env live = Execution.step config env live ∧
      Ends config.schedule live (Replaces (Opcode.decode byte) live.frame.stack)
        (Execution.step config env live) := by
  rw [step_of_some fault h, Execution.step_of_some h]
  exact ((agrees_authorize hprovides).bind fun _ =>
    agrees_execute fault config env (isSized_decode byte) hprovides) live
      ⟨rfl, by simp⟩

/-- Strict steps are steps. -/
theorem step_eq (config : Config) (env : Environment) (live : Live σ) :
    step fault config env live = Execution.step config env live := by
  cases hbyte : live.frame.code[live.frame.position]? with
  | none => rw [step_of_none fault hbyte, Execution.step_of_none hbyte]
  | some byte =>
    -- Whatever is not provided for fails before the two machines can differ.
    by_cases hprovides : Provides live.frame.stack (Opcode.decode byte)
    · exact (agrees_step fault hbyte hprovides).1
    · obtain ⟨cause, hrefused⟩ := authorize_of_not_provides hprovides
      rw [step_of_some fault hbyte, Execution.step_of_some hbyte,
        bind_of_error hrefused, bind_of_error hrefused]

/-- Once an instruction has been authorized, nothing that it does to the stack
fails. -/
theorem not_isStackFault_of_execute {paid reached : Live σ} {cause : Failure}
    (hauthorize : authorize config.schedule (Opcode.decode byte) live =
      .ok () paid)
    (h : execute fault config env (Opcode.decode byte) paid =
      .error cause reached) :
    ¬ cause.IsStackFault := by
  obtain ⟨hauthorizes, hpaid⟩ := authorize_eq_ok hauthorize
  have hprovides : Provides paid.frame.stack (Opcode.decode byte) := by
    rw [hpaid]
    exact ⟨hauthorizes.inputs_le, hauthorizes.room⟩
  obtain ⟨hsame, hends⟩ :=
    agrees_execute fault config env (isSized_decode byte) hprovides paid
      ⟨rfl, by simp⟩
  rw [bind_of_error h] at hsame
  rw [← hsame] at hends
  exact hends.2

end Steps

end Strict

namespace Execution

open Actions Strict

variable {σ : Type} [Ledger σ] {config : Config} {env : Environment}
  {live after : Live σ} {byte : UInt8}

/-- How a step of an instruction that has been provided for ends; this does not
depend on the failure that strict execution has for faults. -/
theorem ends_step (config : Config) (env : Environment)
    (hbyte : live.frame.code[live.frame.position]? = some byte)
    (hprovides : Provides live.frame.stack (Opcode.decode byte)) :
    Ends config.schedule live (Replaces (Opcode.decode byte) live.frame.stack)
      (step config env live) :=
  (agrees_step (.halt .outOfGas) hbyte hprovides).2

/-- Memory grows only against payment, also in a step that fails. -/
theorem pays_step (config : Config) (env : Environment) (live : Live σ) :
    live.frame.Pays config.schedule (left (step config env live)).frame := by
  cases hbyte : live.frame.code[live.frame.position]? with
  | none =>
    rw [step_of_none hbyte]
    exact .refl _
  | some byte =>
    by_cases hprovides : Provides live.frame.stack (Opcode.decode byte)
    · have hends := ends_step config env hbyte hprovides
      cases hstep : step config env live with
      | ok signal after =>
        rw [hstep] at hends
        exact hends.1
      | error cause reached =>
        rw [hstep] at hends
        exact hends.1
    · obtain ⟨cause, hrefused⟩ := authorize_of_not_provides hprovides
      rw [step_of_some hbyte, bind_of_error hrefused]
      exact .refl _

theorem pays_of_ok {signal : Option Signal}
    (h : step config env live = .ok signal after) :
    live.frame.Pays config.schedule after.frame := by
  have hpays := pays_step config env live
  rw [h] at hpays
  exact hpays

theorem pays_of_error {cause : Failure}
    (h : step config env live = .error cause after) :
    live.frame.Pays config.schedule after.frame := by
  have hpays := pays_step config env live
  rw [h] at hpays
  exact hpays

/-- A step that fails on the stack fails for want of what was declared. -/
theorem not_provides_of_isStackFault {cause : Failure}
    (hbyte : live.frame.code[live.frame.position]? = some byte)
    (h : step config env live = .error cause after)
    (hfault : cause.IsStackFault) :
    ¬ Provides live.frame.stack (Opcode.decode byte) := by
  intro hprovides
  have hends := ends_step config env hbyte hprovides
  rw [h] at hends
  exact hends.2 hfault

theorem stackUnderflow_iff
    (hbyte : live.frame.code[live.frame.position]? = some byte) :
    (∃ reached, step config env live = .error (.halt .stackUnderflow) reached) ↔
      live.frame.stack.length < (Opcode.decode byte).inputs := by
  constructor
  · rintro ⟨reached, h⟩
    by_contra hinputs
    -- With its operands there, the instruction can only lack room, but that is
    -- the other failure.
    have hfull : Stack.limit <
        live.frame.stack.length - (Opcode.decode byte).inputs +
        (Opcode.decode byte).outputs := by
      by_contra hroom
      exact not_provides_of_isStackFault hbyte h (.inl rfl)
        (provides_iff.2 ⟨hinputs, hroom⟩)
    rw [step_of_some hbyte,
      bind_of_error (authorize_of_full hinputs hfull)] at h
    cases h
  · intro hshort
    rw [step_of_some hbyte, bind_of_error (authorize_of_short hshort)]
    exact ⟨live, rfl⟩

theorem stackOverflow_iff
    (hbyte : live.frame.code[live.frame.position]? = some byte) :
    (∃ reached, step config env live = .error (.halt .stackOverflow) reached) ↔
      (Opcode.decode byte).inputs ≤ live.frame.stack.length ∧
        Stack.limit < live.frame.stack.length - (Opcode.decode byte).inputs +
          (Opcode.decode byte).outputs := by
  constructor
  · rintro ⟨reached, h⟩
    have hinputs : ¬ live.frame.stack.length < (Opcode.decode byte).inputs := by
      intro hshort
      rw [step_of_some hbyte, bind_of_error (authorize_of_short hshort)] at h
      cases h
    refine ⟨Nat.not_lt.1 hinputs, ?_⟩
    by_contra hroom
    exact not_provides_of_isStackFault hbyte h (.inr rfl)
      (provides_iff.2 ⟨hinputs, hroom⟩)
  · rintro ⟨hinputs, hfull⟩
    rw [step_of_some hbyte,
      bind_of_error (authorize_of_full (Nat.not_lt.2 hinputs) hfull)]
    exact ⟨live, rfl⟩

/-- What a successful step does to the stack. -/
theorem replaces_of_step {signal : Option Signal}
    (hbyte : live.frame.code[live.frame.position]? = some byte)
    (h : step config env live = .ok signal after) :
    Provides live.frame.stack (Opcode.decode byte) ∧
      Replaces (Opcode.decode byte) live.frame.stack signal after := by
  have hprovides : Provides live.frame.stack (Opcode.decode byte) := by
    by_contra hprovides
    obtain ⟨cause, hrefused⟩ := authorize_of_not_provides hprovides
    rw [step_of_some hbyte, bind_of_error hrefused] at h
    cases h
  have hends := ends_step config env hbyte hprovides
  rw [h] at hends
  exact ⟨hprovides, hends.2⟩

end Execution

end ContractMachine
