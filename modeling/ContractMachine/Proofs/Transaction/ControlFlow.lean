import ContractMachine.Proofs.Execution.Static
import ContractMachine.Proofs.Frame.InstructionStarts
import ContractMachine.Proofs.Transaction.Frames

/-!
# Frames run instructions only

A frame begins at the first byte of its code.  An instruction that succeeds
moves it past itself or, if it is a jump, to a destination of its table, and one
that fails leaves it where it is; waiting for an answer moves it nowhere.  So
whatever gas and operands it has, a frame is always where an instruction starts,
and the bytes of a pushed number are never run.
-/

namespace ContractMachine

open Actions

/-! ## Jumps -/

theorem Word.toCount_of_le {w : Word} (h : w.toNat ≤ Saturating.limit) :
    w.toCount = w.toNat := by
  rw [toCount, toCount?, if_pos h, Option.getD_some]

theorem Word.toCount_of_lt {w : Word} (h : Saturating.limit < w.toNat) :
    w.toCount = Saturating.limit := by
  rw [toCount, toCount?, if_neg (Nat.not_le.2 h), Option.getD_none]

/-- No word that is too large for a count is cut down to a destination: these
lie below the length of the code. -/
theorem JumpTable.isValid_toCount {code : Bytes} (hsize : code.size < 2 ^ 64)
    (w : Word) :
    (ofCode code).isValid w.toCount = (ofCode code).isValid w.toNat := by
  by_cases hcount : w.toNat ≤ Saturating.limit
  · rw [Word.toCount_of_le hcount]
  have hlarge := Nat.not_le.1 hcount
  have hlimit : code.size ≤ Saturating.limit := Nat.le_of_lt_succ hsize
  have hnot : ∀ position,
      code.size ≤ position → (ofCode code).isValid position = false := by
    intro position hle
    by_contra hvalid
    exact absurd (lt_size_of_isValid (by simpa using hvalid)) (Nat.not_lt.2 hle)
  rw [Word.toCount_of_lt hlarge, hnot _ hlimit, hnot _ (hlimit.trans hlarge.le)]

namespace Frame

variable {before after frame : Frame} {destination : Word}

theorem jump_of_isValid (h : frame.jumps.isValid destination.toCount = true) :
    jump destination frame = .ok () { frame with
      position := destination.toCount } :=
  if_pos h

theorem jump_of_not_isValid
    (h : frame.jumps.isValid destination.toCount = false) :
    jump destination frame = .error (.invalidJump destination.toCount) frame :=
  if_neg (Bool.eq_false_iff.1 h)

/-- The frame runs the same code and is at the same place. -/
structure Stays (before after : Frame) : Prop where
  code : after.code = before.code
  jumps : after.jumps = before.jumps
  position : after.position = before.position

/-- The frame runs the same code and has gone nowhere but past an instruction or
to a destination. -/
structure Shifts (before after : Frame) : Prop where
  code : after.code = before.code
  jumps : after.jumps = before.jumps
  position : after.position = before.position ∨
    Follows before.code before.position after.position ∨
    before.jumps.isValid after.position = true

theorem Stays.shifts (h : Stays before after) : Shifts before after :=
  ⟨h.code, h.jumps, .inl h.position⟩

/-- The frame is about to jump: its next instruction is a jump, and the
condition of a jump that has one is met. -/
def AtJump (frame : Frame) (destination : Word) : Prop :=
  ∃ byte, frame.code[frame.position]? = some byte ∧
    frame.stack[0]? = some destination ∧
    (Opcode.decode byte = .jump ∨
      Opcode.decode byte = .jumpIf ∧
        ∃ condition : Word, condition ≠ 0 ∧ frame.stack[1]? = some condition)

end Frame

/-! ## Steps -/

namespace Execution

variable {σ : Type} [Ledger σ] {config : Config} {env : Environment}
  {live after : Live σ} {opcode : Opcode} {destination : Word}

theorem Works.stays {before after : Frame} (h : Works opcode before after) :
    before.Stays after := by
  obtain ⟨_, _, _, _, _, rfl⟩ := h
  exact ⟨rfl, rfl, rfl⟩

omit [Ledger σ] in
theorem proceed_jump_of_isValid
    (h : live.frame.jumps.isValid destination.toCount = true) :
    proceed opcode (.jump destination) live =
      .ok none { live with
        frame := { live.frame with position := destination.toCount } } := by
  have hjump : Exec.frame (Frame.jump destination) live =
      .ok () { live with
        frame := { live.frame with position := destination.toCount } } := by
    rw [Exec.frame, Frame.jump_of_isValid h]
  rw [proceed, bind_of_ok hjump]
  rfl

omit [Ledger σ] in
theorem proceed_jump_of_not_isValid
    (h : live.frame.jumps.isValid destination.toCount = false) :
    proceed opcode (.jump destination) live =
      .error (.halt (.invalidJump destination.toCount)) live := by
  have hjump : Exec.frame (Frame.jump destination) live =
      .error (.halt (.invalidJump destination.toCount)) live := by
    rw [Exec.frame, Frame.jump_of_not_isValid h]
  rw [proceed, bind_of_error hjump]

omit [Ledger σ] in
/-- Going on fails only at a jump, and then it leaves everything as it is. -/
theorem proceed_eq_error {flow : Flow} {cause : Failure}
    (h : proceed opcode flow live = .error cause after) : after = live := by
  cases flow with
  | next results | stop signal => cases h
  | jump destination =>
    cases hvalid : live.frame.jumps.isValid destination.toCount with
    | true =>
      rw [proceed_jump_of_isValid hvalid] at h
      cases h
    | false =>
      rw [proceed_jump_of_not_isValid hvalid] at h
      cases h
      rfl

/-- A step that fails has done part of the work of some instruction, and perhaps
taken its operands. -/
theorem works_of_error {cause : Failure}
    (h : step config env live = .error cause after) :
    ∃ opcode n, Works opcode { live.frame with
      stack := live.frame.stack.drop n } after.frame := by
  cases hbyte : live.frame.code[live.frame.position]? with
  | none =>
    rw [step_of_none hbyte] at h
    cases h
  | some byte =>
    rw [step_of_some hbyte] at h
    have hchecked : Works .stop live.frame
        (left (authorize config.schedule (Opcode.decode byte) live)).frame :=
      (part_authorize config.schedule (Opcode.decode byte)).works live rfl
    cases hauthorize : authorize config.schedule (Opcode.decode byte) live with
    | error reason reached =>
      rw [bind_of_error hauthorize] at h
      cases h
      rw [hauthorize] at hchecked
      exact ⟨.stop, 0, hchecked⟩
    | ok _ paid =>
      obtain ⟨_, rfl⟩ := authorize_eq_ok hauthorize
      let begins : Live σ :=
        { live with
          frame := begun config.schedule (Opcode.decode byte) live.frame }
      let operands := live.frame.stack.take (Opcode.decode byte).inputs
      have hconduct : (perform config env (Opcode.decode byte) operands >>=
          proceed (Opcode.decode byte)) begins = .error cause after := by
        rw [bind_of_ok hauthorize] at h
        exact h
      have hpaid : Works (Opcode.decode byte)
          { live.frame with
            stack := live.frame.stack.drop (Opcode.decode byte).inputs }
          begins.frame := ⟨_, Nat.sub_le .., _, _, fun _ => rfl, rfl⟩
      have hworks : Works (Opcode.decode byte) begins.frame
          (left (perform config env (Opcode.decode byte) operands
            begins)).frame :=
        (part_perform config env (Opcode.decode byte) operands).works begins rfl
      refine ⟨Opcode.decode byte, (Opcode.decode byte).inputs, hpaid.trans ?_⟩
      cases hperform : perform config env (Opcode.decode byte) operands
        begins with
      | error reason reached =>
        rw [hperform] at hworks
        rw [bind_of_error hperform] at hconduct
        cases hconduct
        exact hworks
      | ok flow last =>
        rw [hperform] at hworks
        rw [bind_of_ok hperform] at hconduct
        rw [proceed_eq_error hconduct]
        exact hworks

/-- A step that fails leaves the frame where it is. -/
theorem stays_of_error {cause : Failure}
    (h : step config env live = .error cause after) :
    live.frame.Stays after.frame := by
  obtain ⟨_, _, hworks⟩ := works_of_error h
  obtain ⟨hcode, hjumps, hposition⟩ := hworks.stays
  exact ⟨hcode, hjumps, hposition⟩

/-- A step that succeeds is at the end of the code, moves past its instruction,
or jumps to a destination. -/
theorem shifts_of_ok {signal : Option Signal}
    (h : step config env live = .ok signal after) :
    live.frame.Shifts after.frame := by
  obtain ⟨_, rfl⟩ | ⟨byte, flow, last, hbyte, hsucceeds, hproceed⟩ :=
    step_eq_ok h
  · exact ⟨rfl, rfl, .inl rfl⟩
  obtain ⟨hcode, hjumps, hposition⟩ := hsucceeds.works.stays
  have hfollows : Follows live.frame.code live.frame.position
      (last.frame.advance
        (1 + (Opcode.decode byte).immediateLength)).position := by
    rw [Frame.advance, hposition]
    exact ⟨byte, hbyte, rfl⟩
  cases flow with
  | next results | stop reason =>
    cases hproceed
    exact ⟨hcode, hjumps, .inr (.inl hfollows)⟩
  | jump destination =>
    cases hvalid : last.frame.jumps.isValid destination.toCount with
    | true =>
      rw [proceed_jump_of_isValid hvalid] at hproceed
      cases hproceed
      rw [hjumps] at hvalid
      exact ⟨hcode, hjumps, .inr (.inr hvalid)⟩
    | false =>
      rw [proceed_jump_of_not_isValid hvalid] at hproceed
      cases hproceed

theorem shifts_step (config : Config) (env : Environment) (live : Live σ) :
    live.frame.Shifts (left (step config env live)).frame := by
  cases hstep : step config env live with
  | ok signal after => exact shifts_of_ok hstep
  | error cause after => exact (stays_of_error hstep).shifts

/-- The instruction of a frame that is about to jump asks for nothing but the
jump. -/
theorem perform_of_atJump {byte : UInt8} {frame : Frame}
    (h : frame.AtJump destination)
    (hbyte : frame.code[frame.position]? = some byte) (live : Live σ) :
    perform config env (Opcode.decode byte)
      (frame.stack.take (Opcode.decode byte).inputs) live =
      .ok (.jump destination) live := by
  obtain ⟨found, hfound, hfirst, hopcode⟩ := h
  rw [hbyte] at hfound
  cases hfound
  obtain hopcode | ⟨hopcode, condition, hmet, hsecond⟩ := hopcode
  · have hoperand : (frame.stack.take 1).getD 0 0 = destination := by
      simp [hfirst]
    have hperform : perform config env .jump (frame.stack.take 1) live =
        .ok (.jump ((frame.stack.take 1).getD 0 0)) live := rfl
    rw [hoperand] at hperform
    rw [hopcode]
    exact hperform
  · have hoperand : (frame.stack.take 2).getD 0 0 = destination := by
      simp [hfirst]
    have hcondition : (frame.stack.take 2).getD 1 0 = condition := by
      simp [hsecond]
    have hperform : perform config env .jumpIf (frame.stack.take 2) live =
        .ok (if (frame.stack.take 2).getD 1 0 = 0 then .next []
          else .jump ((frame.stack.take 2).getD 0 0)) live := rfl
    rw [hoperand, hcondition, if_neg hmet] at hperform
    rw [hopcode]
    exact hperform

/-- A frame that is about to jump, if its step does not fail, has jumped. -/
theorem jump_of_step {signal : Option Signal}
    (h : live.frame.AtJump destination)
    (hstep : step config env live = .ok signal after) :
    signal = none ∧ Frame.jump destination live.frame =
      .ok () { live.frame with position := after.frame.position } := by
  obtain ⟨byte, hbyte, _⟩ := id h
  obtain ⟨flow, last, hsucceeds, hproceed⟩ := succeeds_of_step hbyte hstep
  have hperform := hsucceeds.performed
  rw [perform_of_atJump h hbyte] at hperform
  injection hperform with hflow
  subst hflow
  have hjumps : last.frame.jumps = live.frame.jumps :=
    hsucceeds.works.stays.jumps
  cases hvalid : last.frame.jumps.isValid destination.toCount with
  | true =>
    rw [proceed_jump_of_isValid hvalid] at hproceed
    cases hproceed
    rw [hjumps] at hvalid
    exact ⟨rfl, Frame.jump_of_isValid hvalid⟩
  | false =>
    rw [proceed_jump_of_not_isValid hvalid] at hproceed
    cases hproceed

end Execution

/-! ## Courses -/

/-- What a frame may come to that begins to run a code: it makes steps, whether
they succeed or fail, with any prices and on any ledger; it goes on after a
request that is refused or that has collided, or after another frame has ended;
and at any time it may have any gas and any operands. -/
inductive Course (σ : Type) [Ledger σ] (code : Bytes) : Frame → Prop where
  | start (context : Context) (gas : Nat) :
      Course σ code (Frame.start code context gas)
  | supplied {frame : Frame} (h : Course σ code frame) (gas : Nat)
      (stack : Stack) :
      Course σ code { frame with gas, stack }
  | stepped {frame : Frame} (h : Course σ code frame) (config : Config)
      (env : Environment)
      (ledger : σ) :
      Course σ code (left (Execution.step config env ⟨frame, ledger⟩)).frame
  | refused {frame answered : Frame} (h : Course σ code frame) {gas : Nat}
      (hrefuse : frame.refuse gas = .ok answered) : Course σ code answered
  | collided {frame answered : Frame} (h : Course σ code frame)
      (hanswer : frame.answer #[] 0 = .ok answered) : Course σ code answered
  | resumed {frame answered : Frame} (h : Course σ code frame) {role : Role}
      {exit : Exit}
      (hresume : frame.resume role exit = .ok answered) : Course σ code answered

section Courses

variable {σ : Type} [Ledger σ] {code : Bytes} {frame : Frame}

/-- A frame that runs a code with the table of its destinations, from where an
instruction starts. -/
structure Frame.Aligned (code : Bytes) (frame : Frame) : Prop where
  code_eq : frame.code = code
  jumps_eq : frame.jumps = JumpTable.ofCode code
  isStart : IsStart code frame.position

theorem Frame.Aligned.shifts {after : Frame} (h : frame.Aligned code)
    (hshifts : frame.Shifts after) : after.Aligned code := by
  obtain ⟨hcode, hjumps, hposition⟩ := hshifts
  rw [h.code_eq] at hcode hposition
  rw [h.jumps_eq] at hjumps hposition
  refine ⟨hcode, hjumps, ?_⟩
  obtain hsame | hfollows | hvalid := hposition
  · rw [hsame]
    exact h.isStart
  · exact h.isStart.tail hfollows
  · exact (JumpTable.isValid_ofCode_iff.1 hvalid).2

theorem Course.aligned (h : Course σ code frame) : frame.Aligned code := by
  induction h with
  | start context gas => exact ⟨rfl, rfl, .refl⟩
  | supplied _ gas stack ih => exact ⟨ih.code_eq, ih.jumps_eq, ih.isStart⟩
  | stepped _ config env ledger ih =>
    exact ih.shifts (Execution.shifts_step config env ⟨_, ledger⟩)
  | refused _ hrefuse ih =>
    obtain ⟨_, rfl⟩ := Frame.refuse_eq_ok_iff.1 hrefuse
    exact ⟨ih.code_eq, ih.jumps_eq, ih.isStart⟩
  | collided _ hanswer ih =>
    obtain ⟨_, rfl⟩ := Frame.answer_eq_ok_iff.1 hanswer
    exact ⟨ih.code_eq, ih.jumps_eq, ih.isStart⟩
  | resumed _ hresume ih =>
    obtain ⟨_, _, _, rfl⟩ := Frame.exists_of_resume hresume
    exact ⟨ih.code_eq, ih.jumps_eq, ih.isStart⟩

end Courses

/-- Every live frame of a transaction takes the course of its code. -/
theorem Transaction.frameInvariant_course (σ : Type) [Ledger σ]
    (config : Config) (env : Environment) :
    FrameInvariant σ config env (fun _ => True) fun frame => ∃ code,
      Course σ code frame where
  start code context gas _ := ⟨code, .start context gas⟩
  step := by
    rintro frame ledger ⟨code, hcourse⟩
    exact ⟨code, hcourse.stepped config env ledger⟩
  refuse := by
    rintro frame answered gas ⟨code, hcourse⟩ hrefuse
    exact ⟨code, hcourse.refused hrefuse⟩
  collide := by
    rintro frame answered ⟨code, hcourse⟩ hanswer
    exact ⟨code, hcourse.collided hanswer⟩
  resume := by
    rintro parent frame role exit ⟨code, hcourse⟩ _ hresume
    exact ⟨code, hcourse.resumed hresume⟩

/-- Control flow never enters the number of a `PUSH`.  The table of a code marks
the `JUMPDEST` bytes at which an instruction starts, and instructions start
where no `PUSH` has its number.  Whatever course a frame takes, it is where an
instruction starts as long as it is inside the code, and so are all live frames
of every transaction.  A jump succeeds if its whole operand is a marked position
and leaves the frame as it is if not; a frame whose instruction is a jump that
is to be taken gets away from there by such a jump only. -/
theorem control_flow_avoids_pushed_numbers {σ : Type} [Ledger σ] {code : Bytes}
    (hsize : code.size < 2 ^ 64) :
    (∀ position, (JumpTable.ofCode code).isValid position = true ↔
      position < code.size ∧ code[position]? = some 0x5b ∧
      IsStart code position) ∧
    (∀ position < code.size, IsStart code position ↔ ¬ IsPushed code position) ∧
    (∀ frame, Course σ code frame →
      frame.position < code.size → IsStart code frame.position) ∧
    (∀ config env gas opening ledger root created entered state,
      Transaction.Opens config gas opening →
      opening ledger = .ok (.entered root created) (entered : σ) →
      Transaction.Reaches config env ⟨root, [], entered⟩ state →
      ∀ activation ∈ state.top :: state.waiting, activation.frame.code = code →
        activation.frame.position < code.size →
        IsStart code activation.frame.position) ∧
    (∀ frame, Course σ code frame → ∀ destination,
      ((JumpTable.ofCode code).isValid destination.toNat = true →
        Frame.jump destination frame = .ok () { frame with
          position := destination.toNat }) ∧
      ((JumpTable.ofCode code).isValid destination.toNat = false →
        Frame.jump destination frame =
          .error (.invalidJump destination.toCount) frame)) ∧
    ∀ frame, Course σ code frame → ∀ destination, frame.AtJump destination →
      ∀ config env (ledger : σ),
        (∀ signal after, Execution.step config env ⟨frame, ledger⟩ =
          .ok signal after →
          signal = none ∧ Frame.jump destination frame =
            .ok () { frame with position := after.frame.position }) ∧
        ∀ cause after, Execution.step config env ⟨frame, ledger⟩ =
          .error cause after →
          after.frame.position = frame.position := by
  refine ⟨fun position => ?_,
    fun position hposition => isStart_iff_not_isPushed hposition,
    fun frame hcourse _ => hcourse.aligned.isStart, ?_, ?_, ?_⟩
  · refine JumpTable.isValid_ofCode_iff.trans ⟨fun h => ⟨?_, h⟩, fun h => h.2⟩
    exact JumpTable.lt_size_of_isValid (JumpTable.isValid_ofCode_iff.2 h)
  · intro config env gas opening ledger root created entered state hopens
      hopening hreaches
      activation hmem hcode _
    obtain ⟨other, hcourse⟩ :=
      (Transaction.frameInvariant_course σ config env).of_reaches hopens
      hopening (fun _ _ => trivial) hreaches activation hmem
    obtain rfl : other = code := hcourse.aligned.code_eq.symm.trans hcode
    exact hcourse.aligned.isStart
  · intro frame hcourse destination
    rw [← JumpTable.isValid_toCount hsize, ← hcourse.aligned.jumps_eq]
    refine ⟨fun hvalid => ?_, Frame.jump_of_not_isValid⟩
    have hcount : destination.toCount = destination.toNat := by
      apply Word.toCount_of_le
      by_contra hlarge
      rw [hcourse.aligned.jumps_eq] at hvalid
      have hlt := JumpTable.lt_size_of_isValid hvalid
      rw [Word.toCount_of_lt (Nat.not_le.1 hlarge)] at hlt
      exact absurd (Nat.le_of_lt_succ hsize) (Nat.not_le.2 hlt)
    rw [Frame.jump_of_isValid hvalid, hcount]
  · intro frame _ destination hjumps config env ledger
    refine ⟨fun signal after hstep => ?_, fun cause after hstep => ?_⟩
    · exact Execution.jump_of_step hjumps hstep
    · exact (Execution.stays_of_error hstep).position

/-- The number that `PUSH1` takes may look like a destination, and a word may
end in the digits of one: neither is where a jump leads to. -/
theorem jump_misses_pushed_jumpDest :
    let code : Bytes := #[0x60, 0x5b, 0x5b]
    let frame := Frame.start code {} 0
    ¬ IsStart code 1 ∧ IsStart code 2 ∧
    Frame.jump 1 frame = .error (.invalidJump 1) frame ∧
    Frame.jump (2 ^ 64 + 2) frame =
      .error (.invalidJump Saturating.limit) frame ∧
    Frame.jump 2 frame = .ok () { frame with position := 2 } := by
  intro code frame
  obtain ⟨htable, hstart, _, _, hjump, _⟩ :=
    @control_flow_avoids_pushed_numbers LayeredLedger _ code (by decide)
  have hcourse : Course LayeredLedger code frame := .start {} 0
  have hpush : IsPushed code 1 := ⟨0, 0x60, 1, .refl, rfl, rfl, by decide,
    by decide⟩
  have hvalid : (JumpTable.ofCode code).isValid 2 = true := by decide
  have hlarge := (hjump frame hcourse (2 ^ 64 + 2)).2 (by decide +kernel)
  have hcount : (2 ^ 64 + 2 : Word).toCount = Saturating.limit := by
    decide +kernel
  rw [hcount] at hlarge
  exact ⟨fun h => (hstart 1 (by decide)).1 h hpush, ((htable 2).1 hvalid).2.2,
    (hjump frame hcourse 1).2 (by decide), hlarge,
    (hjump frame hcourse 2).1 hvalid⟩

end ContractMachine
