import ContractMachine.Proofs.Execution.Failures
import ContractMachine.Proofs.Execution.Provision
import ContractMachine.Proofs.Transaction.ControlFlow

/-!
# Charges come before effects

An instruction can halt at several points: before it begins, while it makes room
in memory, when it pays, or where it finds an operand wanting.  Up to the last
of these points it only prepares, by spending gas and by letting memory grow by
zeros.  What the instruction is for, be it a write to memory or to the ledger,
an entry in the log, a mark or a refund, comes once it can no longer halt.

So a frame that halts has taken operands, spent gas and grown its memory, and
everything else is as it was.
-/

namespace ContractMachine

/-! ## Growth by zeros -/

namespace Memory

variable {before middle after : Memory}

/-- The later memory is the earlier one with some zeros at its end, or with
none. -/
def Extends (before after : Memory) : Prop :=
  ∃ count, after.bytes = before.bytes ++ Array.replicate count 0

theorem Extends.refl (memory : Memory) : Extends memory memory := ⟨0, by simp⟩

theorem Extends.trans (hfirst : Extends before middle)
    (hsecond : Extends middle after) :
    Extends before after := by
  obtain ⟨first, hfirst⟩ := hfirst
  obtain ⟨second, hsecond⟩ := hsecond
  refine ⟨first + second, ?_⟩
  calc after.bytes
      = before.bytes ++ Array.replicate first 0 ++
        Array.replicate second 0 := by
        rw [hsecond, hfirst]
    _ = before.bytes ++ Array.replicate (first + second) 0 := by
        rw [Array.append_assoc, Array.replicate_append_replicate]

theorem extends_expand (memory : Memory) (offset length : Nat) :
    Extends memory (memory.expand offset length) := by
  rw [expand]
  split
  · exact .refl memory
  · exact ⟨_, rfl⟩

/-- Reading grows what it reads. -/
theorem extends_load (memory : Memory) (offset length : Nat) :
    Extends memory (memory.load offset length).2 := by
  rw [load]
  split
  · exact .refl memory
  · exact extends_expand memory offset length

end Memory

namespace Execution

open Exec Actions

variable {σ α β : Type}

/-! ## Preparations -/

/-- Gas may have been spent and memory may have grown by zeros; nothing else has
happened. -/
structure Prepares (before after : Live σ) : Prop where
  ledger_eq : after.ledger = before.ledger
  frame_eq : after.frame =
    { before.frame with gas := after.frame.gas, memory := after.frame.memory }
  memory_extends : before.frame.memory.Extends after.frame.memory

theorem Prepares.refl (live : Live σ) : Prepares live live :=
  ⟨rfl, rfl, .refl _⟩

theorem Prepares.trans {first second third : Live σ}
    (hfirst : Prepares first second) (hsecond : Prepares second third) :
    Prepares first third where
  ledger_eq := hsecond.ledger_eq.trans hfirst.ledger_eq
  frame_eq := by
    rw [hsecond.frame_eq, hfirst.frame_eq]
  memory_extends := hfirst.memory_extends.trans hsecond.memory_extends

/-- An action that only prepares, whether it succeeds or fails. -/
def Preparatory (action : Exec σ α) : Prop :=
  ∀ live, Prepares live (left (action live))

theorem preparatory_of_left_eq {action : Exec σ α}
    (h : ∀ live, left (action live) = live) :
    Preparatory action := by
  intro live
  rw [h live]
  exact .refl live

theorem preparatory_pure (a : α) : Preparatory (pure a : Exec σ α) :=
  preparatory_of_left_eq fun _ => rfl

theorem preparatory_halt (cause : Halt) : Preparatory (halt cause : Exec σ α) :=
  preparatory_of_left_eq fun _ => rfl

theorem preparatory_getFrame : Preparatory (getFrame : Exec σ Frame) :=
  preparatory_of_left_eq fun _ => rfl

theorem preparatory_ask (read : σ → Except LedgerError α) :
    Preparatory (ask read) :=
  preparatory_of_left_eq (left_ask read)

theorem preparatory_charge (amount : Nat) :
    Preparatory (charge amount : Exec σ Unit) := by
  intro live
  obtain ⟨gas, _, hleft⟩ := left_charge amount live.frame
  rw [charge, left_frame, hleft]
  exact ⟨rfl, rfl, .refl _⟩

theorem preparatory_touch (schedule : Schedule) (offset length : Word) :
    Preparatory (touch schedule offset length : Exec σ Range) := by
  intro live
  obtain ⟨gas, _, memory, hleft⟩ := left_touch schedule offset length live.frame
  have hextends : live.frame.memory.Extends
      (left (Frame.touch schedule offset length live.frame)).memory := by
    cases htouch : Frame.touch schedule offset length live.frame with
    | error cause touched =>
      have hmemory : touched.memory = live.frame.memory :=
        (Frame.touch_eq_error htouch).1
      rw [left, hmemory]
      exact .refl _
    | ok range touched =>
      obtain ⟨_, _, rfl⟩ | ⟨_, _, _, _, rfl⟩ := Frame.touch_eq_ok htouch
      · exact .refl _
      · exact Memory.extends_expand _ _ _
  rw [hleft] at hextends
  rw [touch, left_frame, hleft]
  exact ⟨rfl, rfl, hextends⟩

theorem preparatory_load (range : Range) :
    Preparatory (load range : Exec σ Bytes) := fun live =>
  ⟨rfl, rfl, Memory.extends_load live.frame.memory range.offset range.length⟩

theorem Preparatory.bind {x : Exec σ α} {f : α → Exec σ β} (hx : Preparatory x)
    (hf : ∀ a, Preparatory (f a)) : Preparatory (x >>= f) := by
  intro live
  have hfirst := hx live
  cases hresult : x live with
  | ok a reached =>
    rw [hresult] at hfirst
    rw [bind_of_ok hresult]
    exact hfirst.trans (hf a reached)
  | error cause reached =>
    rw [hresult] at hfirst
    rw [bind_of_error hresult]
    exact hfirst

theorem preparatory_ite {condition : Prop} [Decidable condition]
    {x y : Exec σ α} (hx : Preparatory x) (hy : Preparatory y) :
    Preparatory (if condition then x else y) := by
  split
  · exact hx
  · exact hy

/-- An action before which another is made under a condition. -/
theorem preparatory_guarded {condition : Prop} [Decidable condition]
    {x : Exec σ Unit} {f : Unit → Exec σ α} (hx : Preparatory x)
    (hf : Preparatory (f ())) :
    Preparatory (if condition then x >>= f else f ()) :=
  preparatory_ite (hx.bind fun _ => hf) hf

theorem preparatory_authorize (schedule : Schedule) (opcode : Opcode) :
    Preparatory (authorize schedule opcode : Exec σ Unit) := by
  refine preparatory_getFrame.bind fun frame => ?_
  apply preparatory_guarded (preparatory_halt _)
  apply preparatory_guarded (preparatory_halt _)
  exact (preparatory_charge _).bind fun _ =>
    preparatory_ite (preparatory_halt _) (preparatory_pure ())

/-! ## Actions that halt first -/

/-- An action that only prepares up to the last point where it can halt. -/
def HaltsFirst (action : Exec σ α) : Prop :=
  ∀ live cause reached, action live = .error (.halt cause) reached →
    Prepares live reached

theorem Preparatory.haltsFirst {action : Exec σ α} (h : Preparatory action) :
    HaltsFirst action := by
  intro live cause reached herror
  have hprepares := h live
  rw [herror] at hprepares
  exact hprepares

/-- What never halts may do anything. -/
theorem haltsFirst_of_failsOnly {action : Exec σ α}
    (h : FailsOnly (fun failure => ¬ failure.IsHalt) action) :
    HaltsFirst action := by
  intro live cause reached herror
  exact absurd ⟨cause, rfl⟩ (h live _ reached herror)

theorem Preparatory.bind_haltsFirst {x : Exec σ α} {f : α → Exec σ β}
    (hx : Preparatory x) (hf : ∀ a, HaltsFirst (f a)) :
    HaltsFirst (x >>= f) := by
  intro live cause reached herror
  have hfirst := hx live
  cases hresult : x live with
  | ok a mid =>
    rw [hresult] at hfirst
    rw [bind_of_ok hresult] at herror
    exact hfirst.trans (hf a mid cause reached herror)
  | error reason mid =>
    rw [hresult] at hfirst
    rw [bind_of_error hresult] at herror
    cases herror
    exact hfirst

/-- After something that halts first, nothing may halt. -/
theorem HaltsFirst.bind_failsOnly {x : Exec σ α} {f : α → Exec σ β}
    (hx : HaltsFirst x)
    (hf : ∀ a, FailsOnly (fun failure => ¬ failure.IsHalt) (f a)) :
    HaltsFirst (x >>= f) := by
  intro live cause reached herror
  cases hresult : x live with
  | ok a mid =>
    rw [bind_of_ok hresult] at herror
    exact absurd ⟨cause, rfl⟩ (hf a mid _ reached herror)
  | error reason mid =>
    rw [bind_of_error hresult] at herror
    cases herror
    exact hx live cause reached hresult

theorem haltsFirst_ite {condition : Prop} [Decidable condition] {x y : Exec σ α}
    (hx : HaltsFirst x) (hy : HaltsFirst y) :
    HaltsFirst (if condition then x else y) := by
  split
  · exact hx
  · exact hy

/-- An action before which preparations are made under a condition. -/
theorem haltsFirst_guarded {condition : Prop} [Decidable condition]
    {x : Exec σ Unit} {f : Unit → Exec σ α} (hx : Preparatory x)
    (hf : HaltsFirst (f ())) :
    HaltsFirst (if condition then x >>= f else f ()) :=
  haltsFirst_ite (hx.bind_haltsFirst fun _ => hf) hf

/-- Writes that the ledger may refuse do not halt the frame. -/
theorem not_isHalt_of_tell (write : EStateM LedgerError σ α) :
    FailsOnly (fun failure => ¬ failure.IsHalt) (tell write) := by
  refine failsOnly_tell fun ledger cause reached _ => ?_
  rintro ⟨reason, hhalt⟩
  cases hhalt

/-! ## Instructions -/

variable [Ledger σ]

theorem preparatory_prepareCall (schedule : Schedule) (kind : CallKind)
    (operand : Nat → Word) :
    Preparatory (prepareCall schedule kind operand : Exec σ CallRequest) := by
  refine preparatory_getFrame.bind fun frame =>
    preparatory_guarded (preparatory_halt _) ?_
  refine (preparatory_touch _ _ _).bind fun input =>
    (preparatory_touch _ _ _).bind fun window => ?_
  refine preparatory_ite ((preparatory_ask _).bind fun createsAccount => ?_)
    ((preparatory_pure _).bind fun createsAccount => ?_)
  all_goals
    exact (preparatory_charge _).bind fun _ =>
      preparatory_getFrame.bind fun _ =>
      (preparatory_charge _).bind fun _ => (preparatory_load _).bind fun _ =>
        preparatory_pure _

omit [Ledger σ] in
theorem preparatory_prepareCreate (config : Config) (salted : Bool)
    (operand : Nat → Word) :
    Preparatory (prepareCreate config salted operand :
      Exec σ CreateRequest) := by
  rw [prepareCreate]
  apply preparatory_guarded (preparatory_halt _)
  exact (preparatory_touch _ _ _).bind fun _ =>
    (preparatory_charge _).bind fun _ =>
    (preparatory_load _).bind fun _ => preparatory_getFrame.bind fun _ =>
      (preparatory_charge _).bind fun _ => preparatory_pure _

omit [Ledger σ] in
/-- Memory is written once the growth and the copy are paid for. -/
theorem haltsFirst_copyToMemory (schedule : Schedule) (source : Bytes)
    (target offset length : Word) :
    HaltsFirst (copyToMemory schedule source target offset length :
      Exec σ Unit) :=
  (preparatory_touch _ _ _).bind_haltsFirst fun _ =>
    (preparatory_charge _).bind_haltsFirst fun _ =>
      haltsFirst_of_failsOnly (failsOnly_modifyFrame _)

/-- The account is marked and its balance is sent once its beneficiary is paid
for. -/
theorem haltsFirst_selfDestruct (schedule : Schedule) (beneficiary : Address) :
    HaltsFirst (selfDestruct schedule beneficiary : Exec σ Unit) := by
  refine preparatory_getFrame.bind_haltsFirst fun frame =>
    (preparatory_ask _).bind_haltsFirst fun balance => ?_
  have hsends : ∀ address, HaltsFirst (do
      let marked := (← getFrame).effects.markDestroyed address
      modifyEffects fun _ =>
        if marked.1 then marked.2.addRefund schedule.selfDestructRefund
        else marked.2
      tell (Ledger.transfer address beneficiary balance) : Exec σ Unit) :=
        fun address =>
    haltsFirst_of_failsOnly (failsOnly_getFrame.bind fun _ =>
      (failsOnly_modifyFrame _).bind fun _ => not_isHalt_of_tell _)
  refine haltsFirst_ite ((preparatory_ask _).bind_haltsFirst fun isNew => ?_)
    (hsends _)
  exact haltsFirst_guarded (preparatory_charge _) (hsends _)

omit [Ledger σ] in
/-- Results are put on the stack after everything that can halt. -/
theorem HaltsFirst.then_return {x : Exec σ α} (hx : HaltsFirst x)
    (result : α → β) :
    HaltsFirst (x >>= fun a => pure (result a)) :=
  hx.bind_failsOnly fun _ => failsOnly_pure _

theorem haltsFirst_perform (config : Config) (env : Environment)
    (opcode : Opcode) (operands : Stack) :
    HaltsFirst (perform config env opcode operands : Exec σ Flow) := by
  cases opcode with
  | stop | pop | jumpDest | jump | jumpIf =>
    exact (preparatory_pure _).haltsFirst
  | unary f | binary f | ternary f => exact (preparatory_pure _).haltsFirst
  | exp => exact (preparatory_charge _).haltsFirst.then_return _
  | keccak256 =>
    exact (preparatory_touch _ _ _).bind_haltsFirst fun _ =>
      (preparatory_charge _).bind_haltsFirst fun _ =>
        (preparatory_load _).haltsFirst.then_return _
  | query q => exact preparatory_getFrame.haltsFirst.then_return _
  | selfBalance | sload =>
    exact preparatory_getFrame.bind_haltsFirst fun _ =>
      (preparatory_ask _).haltsFirst.then_return _
  | balance | extCodeSize => exact (preparatory_ask _).haltsFirst.then_return _
  | callDataLoad => exact preparatory_getFrame.haltsFirst.then_return _
  | callDataCopy | codeCopy =>
    exact preparatory_getFrame.bind_haltsFirst fun _ =>
      (haltsFirst_copyToMemory _ _ _ _ _).then_return _
  | extCodeCopy =>
    exact (preparatory_ask _).bind_haltsFirst fun _ =>
      (haltsFirst_copyToMemory _ _ _ _ _).then_return _
  | extCodeHash =>
    refine (preparatory_ask _).bind_haltsFirst fun isEmpty => ?_
    exact haltsFirst_ite (preparatory_pure _).haltsFirst
      ((preparatory_ask _).haltsFirst.then_return _)
  | returnDataCopy =>
    refine preparatory_getFrame.bind_haltsFirst fun _ =>
      haltsFirst_guarded (preparatory_halt _) ?_
    exact (haltsFirst_copyToMemory _ _ _ _ _).then_return _
  | blockHash =>
    simp only [perform]
    split <;> exact (preparatory_pure _).haltsFirst
  | mload =>
    exact (preparatory_touch _ _ _).bind_haltsFirst fun _ =>
      (preparatory_load _).haltsFirst.then_return _
  | mstore | mstore8 =>
    exact (preparatory_touch _ _ _).bind_haltsFirst fun _ =>
      (haltsFirst_of_failsOnly (failsOnly_modifyFrame _)).then_return _
  | sstore =>
    -- The refund and the write follow the charge, and only the ledger can
    -- refuse them.
    refine preparatory_getFrame.bind_haltsFirst fun _ =>
      (preparatory_ask _).bind_haltsFirst
      fun _ => (preparatory_charge _).bind_haltsFirst fun _ =>
        haltsFirst_of_failsOnly ?_
    exact (failsOnly_modifyFrame _).bind fun _ =>
      (not_isHalt_of_tell _).bind fun _ =>
      failsOnly_pure _
  | mcopy =>
    exact (preparatory_touch _ _ _).bind_haltsFirst fun _ =>
      (preparatory_touch _ _ _).bind_haltsFirst fun _ =>
        (preparatory_charge _).bind_haltsFirst
        fun _ =>
          (haltsFirst_of_failsOnly (failsOnly_modifyFrame _)).then_return _
  | push n => exact preparatory_getFrame.haltsFirst.then_return _
  | dup n | swap n =>
    simp only [perform]
    split
    · exact (preparatory_pure _).haltsFirst
    · exact (preparatory_halt _).haltsFirst
  | log n =>
    refine (preparatory_touch _ _ _).bind_haltsFirst fun _ =>
      (preparatory_charge _).bind_haltsFirst fun _ =>
        (preparatory_load _).bind_haltsFirst
        fun _ => preparatory_getFrame.bind_haltsFirst fun _ =>
          haltsFirst_of_failsOnly ?_
    exact (failsOnly_modifyFrame _).bind fun _ => failsOnly_pure _
  | create salted =>
    exact (preparatory_prepareCreate _ _ _).haltsFirst.then_return _
  | call kind => exact (preparatory_prepareCall _ _ _).haltsFirst.then_return _
  | «return» | revert =>
    exact (preparatory_touch _ _ _).bind_haltsFirst fun _ =>
      (preparatory_load _).haltsFirst.then_return _
  | selfDestruct => exact (haltsFirst_selfDestruct _ _).then_return _
  | invalid | undefined byte => exact (preparatory_halt _).haltsFirst

/-- An instruction that jumps has done nothing before. -/
theorem perform_eq_jump {config : Config} {env : Environment} {opcode : Opcode}
    {operands : Stack} {live reached : Live σ} {destination : Word}
    (h : perform config env opcode operands live =
      .ok (.jump destination) reached) :
    reached = live := by
  have hsuits := ((part_perform config env opcode operands).moves rfl).2 _ _ h
  obtain rfl | rfl := hsuits
  · cases h
    rfl
  · rw [perform, pure_eq_ok_iff] at h
    exact h.2.symm

/-- Going on after an instruction can halt only if nothing was done before. -/
theorem haltsFirst_conducted (config : Config) (env : Environment)
    (opcode : Opcode) (operands : Stack) :
    HaltsFirst (perform config env opcode operands >>= proceed opcode :
      Exec σ (Option Signal)) := by
  intro live cause reached herror
  cases hperform : perform config env opcode operands live with
  | error reason mid =>
    rw [bind_of_error hperform] at herror
    cases herror
    exact haltsFirst_perform config env opcode operands live cause reached
      hperform
  | ok flow mid =>
    rw [bind_of_ok hperform] at herror
    cases flow with
    | next results | stop signal => cases herror
    | jump destination =>
      rw [proceed_eq_error herror, perform_eq_jump hperform]
      exact .refl live

/-! ## Steps -/

/-- What a frame loses by an instruction that halts: some of its operands, some
gas, and the price of the zeros by which its memory has grown.  Nothing else has
changed. -/
structure Forfeits (schedule : Schedule) (opcode : Opcode)
    (before after : Live σ) : Prop where
  ledger_eq : after.ledger = before.ledger
  frame_eq : after.frame = { before.frame with
    gas := after.frame.gas, stack := after.frame.stack, memory :=
      after.frame.memory }
  operands : ∃ taken : Stack, taken.length ≤ opcode.inputs ∧
    before.frame.stack = taken ++ after.frame.stack
  gas_le : after.frame.gas ≤ before.frame.gas
  memory_extends : before.frame.memory.Extends after.frame.memory
  paid : after.frame.gas + after.frame.memory.price schedule ≤
    before.frame.gas + before.frame.memory.price schedule

variable {config : Config} {env : Environment} {live after : Live σ}
  {byte : UInt8} {cause : Halt}

/-- A step that halts has made preparations, after it took all operands or
none. -/
theorem prepares_of_halt
    (hbyte : live.frame.code[live.frame.position]? = some byte)
    (h : step config env live = .error (.halt cause) after) :
    ∃ count ≤ (Opcode.decode byte).inputs, Prepares
      { live with
        frame := { live.frame with
          stack := live.frame.stack.drop count } } after := by
  rw [step_of_some hbyte] at h
  cases hauthorize : authorize config.schedule (Opcode.decode byte) live with
  | error reason reached =>
    rw [bind_of_error hauthorize] at h
    cases h
    have hprepares :=
      preparatory_authorize config.schedule (Opcode.decode byte) live
    rw [hauthorize] at hprepares
    exact ⟨0, Nat.zero_le _, hprepares⟩
  | ok _ paid =>
    obtain ⟨_, rfl⟩ := authorize_eq_ok hauthorize
    rw [bind_of_ok hauthorize] at h
    let begins : Live σ :=
      { live with
        frame := begun config.schedule (Opcode.decode byte) live.frame }
    have hpaid : Prepares { live with frame := { live.frame with
        stack := live.frame.stack.drop (Opcode.decode byte).inputs } } begins :=
      ⟨rfl, rfl, .refl _⟩
    refine ⟨(Opcode.decode byte).inputs, le_rfl, hpaid.trans ?_⟩
    exact haltsFirst_conducted config env (Opcode.decode byte) _ begins
      cause after h

/-- Charges come before effects.  Whatever the code, the environment and the
ledger, a step that halts leaves the ledger as it was, and of the frame all but
three things: its log, marks, refund, return data, code, context and position
are the same.  It has at most the operands of its instruction less on its stack,
it has no more gas, and its memory is what it was, perhaps with zeros at its
end, the price of which is gone from the gas. -/
theorem halt_forfeits_only_operands_gas_and_growth {σ : Type} [Ledger σ]
    (config : Config) (env : Environment) (live after : Live σ) (cause : Halt)
    (h : step config env live = .error (.halt cause) after) :
    ∃ byte, live.frame.code[live.frame.position]? = some byte ∧
      Forfeits config.schedule (Opcode.decode byte) live after := by
  cases hbyte : live.frame.code[live.frame.position]? with
  | none =>
    rw [step_of_none hbyte] at h
    cases h
  | some byte =>
    obtain ⟨count, hcount, hprepares⟩ := prepares_of_halt hbyte h
    have hstack : after.frame.stack = live.frame.stack.drop count := by
      rw [hprepares.frame_eq]
    have hpays := pays_of_error h
    refine ⟨byte, rfl, hprepares.ledger_eq, ?_, ?_, hpays.gas_le,
      hprepares.memory_extends, hpays.paid⟩
    · rw [hprepares.frame_eq]
    · refine ⟨live.frame.stack.take count, ?_, ?_⟩
      · exact (List.length_take_le ..).trans hcount
      · rw [hstack, List.take_append_drop]

/-- A copy for which there is gas to grow memory but not to copy has its three
operands taken and leaves a word of zeros. -/
theorem unpaid_copy_leaves_zeros :
    let frame : Frame := { Frame.start #[0x37] { data := #[7] } 8 with
      stack := [0, 0, 1, 5] }
    let after : Frame := { frame with
      gas := 0, stack := [5], memory := ⟨Array.replicate 32 0⟩ }
    Forfeits (σ := LayeredLedger) {} .callDataCopy ⟨frame, {}⟩ ⟨after, {}⟩ := by
  intro frame after
  have hstep : step {} {} (⟨frame, {}⟩ : Live LayeredLedger) =
      .error (.halt .outOfGas) ⟨after, {}⟩ := by
    cbv
  obtain ⟨byte, hbyte, hforfeits⟩ :=
    halt_forfeits_only_operands_gas_and_growth {} {} _ _ .outOfGas hstep
  cases hbyte
  exact hforfeits

end Execution

end ContractMachine
