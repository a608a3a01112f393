import ContractMachine.Proofs.Execution.Parts

/-!
# What an instruction may do

Whatever instruction runs, and whether it succeeds or fails, it takes the frame
and the ledger through a sequence of moves of five kinds: gas is spent, the
frame works on its position, stack and memory, it gathers effects, it stores a
value of its own account, or it sends value from there.  Everything else about
the frame stays as it is, and only two instructions write to the ledger at all.

What is kept by each kind of move is thus kept by every instruction.
-/

namespace ContractMachine

variable {σ α β : Type}

namespace Execution

open Exec Actions

variable [Ledger σ]

/-- The elementary moves of a frame.  Writes to the ledger are made only where
`writing` holds. -/
inductive Move (writing : Prop) : Live σ → Live σ → Prop where
  | spend (live : Live σ) {gas : Nat} (h : gas ≤ live.frame.gas) :
      Move writing live { live with frame := { live.frame with gas } }
  | work (live : Live σ) (position : Nat) (stack : Stack) (memory : Memory) :
      Move writing live { live with
        frame := { live.frame with position, stack, memory } }
  | gather (live : Live σ) (effects : Effects) :
      Move writing live { live with frame := { live.frame with effects } }
  | store (live : Live σ) (key value : Word) (h : writing) :
      Move writing live { live with
        ledger :=
          left (Ledger.setSlot live.frame.context.address key value
            live.ledger) }
  | send (live : Live σ) (target : Address) (value : Word) (h : writing) :
      Move writing live { live with
        ledger :=
          left (Ledger.transfer live.frame.context.address target value
            live.ledger) }

/-- Any number of moves. -/
def Moves (writing : Prop) : Live σ → Live σ → Prop :=
  Relation.ReflTransGen (Move writing)

/-- An action that does nothing but make moves when it runs for an account. -/
def Travels (writing : Prop) (address : Address) (action : Exec σ α) : Prop :=
  ∀ live, live.frame.context.address = address →
    Moves writing live (left (action live))

namespace Moves

variable {writing : Prop} {before after : Live σ}

/-- A reflexive and transitive relation that holds of each kind of move holds of
any number of them. -/
theorem lift {R : Live σ → Live σ → Prop} (hrefl : ∀ live, R live live)
    (htrans : ∀ {first second third}, R first second → R second third →
      R first third)
    (hmove : ∀ {before after}, Move writing before after → R before after)
    (h : Moves writing before after) : R before after := by
  induction h with
  | refl => exact hrefl before
  | tail _ hlast ih => exact htrans ih (hmove hlast)

theorem mono {allowed : Prop} (hallowed : writing → allowed)
    (h : Moves writing before after) :
    Moves allowed before after := by
  refine Relation.ReflTransGen.mono (fun first second hmove => ?_) _ _ h
  cases hmove with
  | spend h => exact .spend _ h
  | work position stack memory => exact .work _ position stack memory
  | gather effects => exact .gather _ effects
  | store key value h => exact .store _ key value (hallowed h)
  | send target value h => exact .send _ target value (hallowed h)

/-- No instruction changes what a frame is called with. -/
theorem context_eq (h : Moves writing before after) :
    after.frame.context = before.frame.context := by
  refine lift (R := fun before after => after.frame.context =
    before.frame.context)
    (fun _ => rfl) (fun hfirst hsecond => hsecond.trans hfirst)
    (fun hmove => ?_) h
  cases hmove <;> rfl

theorem gas_le (h : Moves writing before after) :
    after.frame.gas ≤ before.frame.gas := by
  refine lift (R := fun before after => after.frame.gas ≤ before.frame.gas)
    (fun _ => le_rfl) (fun hfirst hsecond => hsecond.trans hfirst)
    (fun hmove => ?_) h
  cases hmove with
  | spend h => exact h
  | work | gather | store | send => exact le_rfl

theorem ledger_eq (hwriting : ¬ writing) (h : Moves writing before after) :
    after.ledger = before.ledger := by
  refine lift (R := fun before after => after.ledger = before.ledger)
    (fun _ => rfl) (fun hfirst hsecond => hsecond.trans hfirst)
    (fun hmove => ?_) h
  cases hmove with
  | spend | work | gather => rfl
  | store _ _ h | send _ _ h => exact absurd h hwriting

theorem gasLimit_eq (h : Moves writing before after) :
    after.frame.gasLimit = before.frame.gasLimit := by
  refine lift (R := fun before after => after.frame.gasLimit =
    before.frame.gasLimit)
    (fun _ => rfl) (fun hfirst hsecond => hsecond.trans hfirst)
    (fun hmove => ?_) h
  cases hmove <;> rfl

end Moves

/-! ## Elementary actions -/

section

variable {writing : Prop} {address : Address}

theorem Travels.bind {x : Exec σ α} {f : α → Exec σ β}
    (hx : Travels writing address x) (hf : ∀ a, Travels writing address (f a)) :
    Travels writing address (x >>= f) := by
  intro live haddress
  have hfirst := hx live haddress
  cases hresult : x live with
  | ok a reached =>
    rw [hresult] at hfirst
    rw [bind_of_ok hresult]
    refine hfirst.trans (hf a reached ?_)
    rw [← haddress]
    exact congrArg Context.address hfirst.context_eq
  | error cause reached =>
    rw [hresult] at hfirst
    rw [bind_of_error hresult]
    exact hfirst

theorem travels_pure (a : α) : Travels writing address (pure a : Exec σ α) :=
  fun _ _ => .refl

theorem travels_halt (cause : Halt) :
    Travels writing address (halt cause : Exec σ α) :=
  fun _ _ => .refl

theorem travels_getFrame_bind {f : Frame → Exec σ α}
    (h : ∀ frame, frame.context.address = address →
      Travels writing address (f frame)) :
    Travels writing address (getFrame >>= f) := fun live haddress =>
  h live.frame haddress live haddress

omit [Ledger σ] in
theorem left_ask (read : σ → Except LedgerError α) (live : Live σ) :
    left (ask read live) = live := by
  rw [ask]
  cases read live.ledger <;> rfl

theorem travels_ask (read : σ → Except LedgerError α) :
    Travels writing address (ask read) := by
  intro live _
  rw [left_ask]
  exact .refl

omit [Ledger σ] in
theorem left_frame (action : EStateM Halt Frame α) (live : Live σ) :
    left (Exec.frame action live) =
      ⟨left (action live.frame), live.ledger⟩ := by
  rw [Exec.frame]
  cases action live.frame <;> rfl

/-- An action on the frame alone that spends gas and works. -/
theorem travels_frame {action : EStateM Halt Frame α}
    (h : ∀ frame, ∃ gas ≤ frame.gas, ∃ position stack memory,
      left (action frame) = { frame with gas, position, stack, memory }) :
    Travels writing address (Exec.frame action : Exec σ α) := by
  intro live _
  obtain ⟨gas, hgas, position, stack, memory, hframe⟩ := h live.frame
  rw [left_frame, hframe]
  exact .tail (.single (.spend live hgas)) (.work _ position stack memory)

theorem left_charge (amount : Nat) (frame : Frame) :
    ∃ gas ≤ frame.gas,
      left (Frame.charge amount frame) = { frame with gas } := by
  rw [Frame.charge]
  by_cases hgas : frame.gas < amount
  · exact ⟨0, Nat.zero_le _, by rw [if_pos hgas]; rfl⟩
  · exact ⟨frame.gas - amount, Nat.sub_le .., by rw [if_neg hgas]; rfl⟩

omit [Ledger σ] in
theorem charge_of_le {amount : Nat} {live : Live σ}
    (h : amount ≤ live.frame.gas) :
    charge amount live =
      .ok () { live with
        frame := { live.frame with gas := live.frame.gas - amount } } := by
  rw [charge, Exec.frame, Frame.charge, if_neg (Nat.not_lt.2 h)]

omit [Ledger σ] in
theorem charge_of_lt {amount : Nat} {live : Live σ}
    (h : live.frame.gas < amount) :
    charge amount live =
      .error (.halt .outOfGas) { live with
        frame := { live.frame with gas := 0 } } := by
  rw [charge, Exec.frame, Frame.charge, if_pos h]

theorem travels_charge (amount : Nat) :
    Travels writing address (charge amount : Exec σ Unit) := by
  apply travels_frame
  intro frame
  obtain ⟨gas, hgas, hleft⟩ := left_charge amount frame
  exact ⟨gas, hgas, frame.position, frame.stack, frame.memory, hleft⟩

theorem travels_modifyFrame {f : Frame → Frame}
    (h : ∀ frame, ∃ position stack memory,
      f frame = { frame with position, stack, memory }) :
    Travels writing address (modifyFrame f : Exec σ Unit) := by
  intro live _
  obtain ⟨position, stack, memory, hframe⟩ := h live.frame
  rw [modifyFrame, hframe]
  exact .single (.work live position stack memory)

theorem travels_modifyMemory (f : Memory → Memory) :
    Travels writing address (modifyMemory f : Exec σ Unit) :=
  travels_modifyFrame fun frame => ⟨frame.position, frame.stack,
    f frame.memory, rfl⟩

theorem travels_modifyEffects (f : Effects → Effects) :
    Travels writing address (modifyEffects f : Exec σ Unit) := fun live _ =>
  .single (.gather live (f live.frame.effects))

theorem travels_load (range : Range) :
    Travels writing address (load range : Exec σ Bytes) := fun live _ =>
  .single (.work live live.frame.position live.frame.stack _)

/-- Paying for memory is a charge, and growing it is work. -/
theorem left_touch (schedule : Schedule) (offset length : Word)
    (frame : Frame) :
    ∃ gas ≤ frame.gas, ∃ memory,
      left (Frame.touch schedule offset length frame) = { frame with
        gas, memory } := by
  rw [Frame.touch]
  by_cases hlength : length = 0
  · exact ⟨frame.gas, le_rfl, frame.memory, by rw [if_pos hlength]; rfl⟩
  rw [if_neg hlength]
  split
  case h_2 => exact ⟨frame.gas, le_rfl, frame.memory, rfl⟩
  case h_1 first size _ _ =>
    cases frame.memory.requiredSize? first size with
    | none => exact ⟨frame.gas, le_rfl, frame.memory, rfl⟩
    | some required =>
      obtain ⟨gas, hgas, hleft⟩ :=
        left_charge (schedule.expansionCost frame.memory.size required) frame
      cases hcharge : Frame.charge (schedule.expansionCost frame.memory.size
        required) frame with
      | error cause paid =>
        obtain rfl : paid = { frame with gas } := by
          simpa [hcharge, left] using hleft
        exact ⟨gas, hgas, frame.memory, by simp [hcharge, left]⟩
      | ok _ paid =>
        obtain rfl : paid = { frame with gas } := by
          simpa [hcharge, left] using hleft
        exact ⟨gas, hgas, frame.memory.expand first size,
          by simp [hcharge, left]⟩

theorem travels_touch (schedule : Schedule) (offset length : Word) :
    Travels writing address (touch schedule offset length : Exec σ Range) := by
  apply travels_frame
  intro frame
  obtain ⟨gas, hgas, memory, hleft⟩ := left_touch schedule offset length frame
  exact ⟨gas, hgas, frame.position, frame.stack, memory, hleft⟩

theorem travels_jump (destination : Word) :
    Travels writing address
      (Exec.frame (Frame.jump destination) : Exec σ Unit) := by
  apply travels_frame
  intro frame
  rw [Frame.jump]
  by_cases hvalid : frame.jumps.isValid destination.toCount
  · exact ⟨frame.gas, le_rfl, destination.toCount, frame.stack, frame.memory,
      by simp only [hvalid, if_true]; rfl⟩
  · exact ⟨frame.gas, le_rfl, frame.position, frame.stack, frame.memory,
      by simp only [hvalid]; rfl⟩

/-! ## Instructions -/

theorem travels_ite {condition : Prop} [Decidable condition] {x y : Exec σ α}
    (hx : Travels writing address x) (hy : Travels writing address y) :
    Travels writing address (if condition then x else y) := by
  by_cases hcondition : condition
  · rw [if_pos hcondition]
    exact hx
  · rw [if_neg hcondition]
    exact hy

/-- An action before which another is made under a condition. -/
theorem travels_guarded {condition : Prop} [Decidable condition]
    {x : Exec σ Unit} {f : Unit → Exec σ α} (hx : Travels writing address x)
    (hf : ∀ a, Travels writing address (f a)) :
    Travels writing address (if condition then x >>= f else f ()) :=
  travels_ite (hx.bind hf) (hf ())

omit [Ledger σ] in
theorem left_tell (write : EStateM LedgerError σ α) (live : Live σ) :
    left (tell write live) = { live with
      ledger := left (write live.ledger) } := by
  unfold Exec.tell
  cases write live.ledger <;> rfl

theorem travels_tell {write : EStateM LedgerError σ α}
    (h : ∀ live : Live σ, live.frame.context.address = address →
      Move writing live { live with ledger := left (write live.ledger) }) :
    Travels writing address (tell write) := by
  intro live haddress
  rw [left_tell]
  exact .single (h live haddress)

theorem travels_setSlot (h : writing) (key value : Word) :
    Travels writing address
      (tell (Ledger.setSlot address key value) : Exec σ Unit) :=
  travels_tell fun live haddress => haddress ▸ .store live key value h

theorem travels_transfer (h : writing) (target : Address) (value : Word) :
    Travels writing address
      (tell (Ledger.transfer address target value) : Exec σ Unit) :=
  travels_tell fun live haddress => haddress ▸ .send live target value h

/-- A part of an instruction makes moves, and what is known of its result
holds. -/
theorem Part.moves {opcode : Opcode} {post : α → Prop} {action : Exec σ α}
    (h : Part opcode address post action) {live : Live σ}
    (haddress : live.frame.context.address = address) :
    Moves (opcode = .sstore ∨ opcode = .selfDestruct) live
      (left (action live)) ∧
      ∀ a reached, action live = .ok a reached → post a := by
  induction h generalizing live with
  | pure hpost => exact ⟨.refl, by rintro _ _ ⟨⟩; exact hpost⟩
  | getFrame => exact ⟨.refl, by rintro _ _ ⟨⟩; exact haddress⟩
  | halt cause => exact ⟨travels_halt cause live haddress, by rintro _ _ ⟨⟩⟩
  | @bind _ _ _ _ x f _ _ ihx ihf =>
    obtain ⟨hfirst, hmid⟩ := ihx haddress
    cases hresult : x live with
    | error cause reached =>
      rw [hresult] at hfirst
      rw [bind_of_error hresult]
      exact ⟨hfirst, by rintro _ _ ⟨⟩⟩
    | ok a reached =>
      rw [hresult] at hfirst
      rw [bind_of_ok hresult]
      have hkept : reached.frame.context.address = address := by
        rw [← haddress]
        exact congrArg Context.address hfirst.context_eq
      obtain ⟨hrest, hpost⟩ := ihf a (hmid a reached hresult) hkept
      exact ⟨hfirst.trans hrest, hpost⟩
  | ask => exact ⟨travels_ask _ live haddress, fun _ _ _ => trivial⟩
  | charge amount =>
    exact ⟨travels_charge amount live haddress, fun _ _ _ => trivial⟩
  | touch schedule offset length =>
    exact ⟨travels_touch schedule offset length live haddress,
      fun _ _ _ => trivial⟩
  | load range => exact ⟨travels_load range live haddress, fun _ _ _ => trivial⟩
  | remember f =>
    exact ⟨travels_modifyMemory f live haddress, fun _ _ _ => trivial⟩
  | gather f =>
    exact ⟨travels_modifyEffects f live haddress, fun _ _ _ => trivial⟩
  | store key value hopcode =>
    exact ⟨travels_setSlot (.inl hopcode) key value live haddress,
      fun _ _ _ => trivial⟩
  | send target value hopcode =>
    exact ⟨travels_transfer (.inr hopcode) target value live haddress,
      fun _ _ _ => trivial⟩

/-- Only storing and self-destruction write to the ledger. -/
theorem travels_perform (config : Config) (env : Environment) (opcode : Opcode)
    (operands : Stack) :
    Travels (opcode = .sstore ∨ opcode = .selfDestruct) address
      (perform config env opcode operands : Exec σ Flow) := fun _ haddress =>
  ((part_perform config env opcode operands).moves haddress).1

/-! ## Steps -/

theorem step_of_none {config : Config} {env : Environment} {live : Live σ}
    (h : live.frame.code[live.frame.position]? = none) :
    step config env live = .ok (some (.return #[])) live := by
  have hframe : getFrame live = .ok live.frame live := rfl
  rw [step, bind_of_ok hframe, h]
  rfl

/-- Runs an instruction that has been authorized. -/
def conduct (config : Config) (env : Environment) (opcode : Opcode)
    (operands : Stack) : Exec σ (Option Signal) := do
  modifyFrame fun frame =>
    { frame with stack := frame.stack.drop opcode.inputs }
  proceed opcode (← perform config env opcode operands)

theorem step_of_some {config : Config} {env : Environment} {live : Live σ}
    {byte : UInt8} (h : live.frame.code[live.frame.position]? = some byte) :
    step config env live = (do
      authorize config.schedule (Opcode.decode byte)
      conduct config env (Opcode.decode byte)
        (live.frame.stack.take (Opcode.decode byte).inputs)) live := by
  have hframe : getFrame live = .ok live.frame live := rfl
  rw [step, bind_of_ok hframe, h]
  rfl

theorem travels_authorize (schedule : Schedule) (opcode : Opcode) :
    Travels writing address (authorize schedule opcode : Exec σ Unit) := by
  apply travels_getFrame_bind
  intro frame _
  apply travels_guarded (travels_halt _)
  intro _
  apply travels_guarded (travels_halt _)
  intro _
  exact (travels_charge _).bind fun _ =>
    travels_ite (travels_halt _) (travels_pure _)

theorem travels_proceed (opcode : Opcode) (flow : Flow) :
    Travels writing address (proceed opcode flow : Exec σ (Option Signal)) := by
  cases flow with
  | next results =>
    exact (travels_modifyFrame fun _ => ⟨_, _, _, rfl⟩).bind fun _ =>
      travels_pure _
  | jump destination => exact (travels_jump _).bind fun _ => travels_pure _
  | stop signal =>
    exact (travels_modifyFrame fun _ => ⟨_, _, _, rfl⟩).bind fun _ =>
      travels_pure _

theorem travels_conduct (config : Config) (env : Environment) (opcode : Opcode)
    (operands : Stack) :
    Travels (opcode = .sstore ∨ opcode = .selfDestruct) address
      (conduct config env opcode operands : Exec σ (Option Signal)) :=
  (travels_modifyFrame fun _ => ⟨_, _, _, rfl⟩).bind fun _ =>
    (travels_perform config env opcode operands).bind fun flow =>
      travels_proceed opcode flow

omit [Ledger σ] in
/-- A check that halts has been passed if there is a result. -/
theorem ok_of_guarded {condition : Prop} [Decidable condition] {cause : Halt}
    {f : Unit → Exec σ α} {live reached : Live σ} {a : α}
    (h : (if condition then halt cause >>= f else f ()) live = .ok a reached) :
    ¬ condition ∧ f () live = .ok a reached := by
  by_cases hcondition : condition
  · rw [if_pos hcondition, bind_eq_ok_iff] at h
    obtain ⟨_, _, hhalt, _⟩ := h
    cases hhalt
  · rw [if_neg hcondition] at h
    exact ⟨hcondition, h⟩

omit [Ledger σ] in
/-- An instruction that changes the state is not authorized in a static
frame. -/
theorem isStatic_of_authorize {schedule : Schedule} {opcode : Opcode}
    {live reached : Live σ}
    (h : authorize schedule opcode live = .ok () reached)
    (hchanges : opcode.changesState) :
    live.frame.context.isStatic = false := by
  obtain ⟨frame, start, hframe, h⟩ := bind_eq_ok_iff.1 h
  cases hframe
  obtain ⟨_, h⟩ := ok_of_guarded h
  obtain ⟨_, h⟩ := ok_of_guarded h
  obtain ⟨_, paid, _, h⟩ := bind_eq_ok_iff.1 h
  by_contra hstatic
  have hcondition : live.frame.context.isStatic = true ∧
      opcode.changesState = true :=
    ⟨by simpa using hstatic, hchanges⟩
  rw [if_pos hcondition] at h
  cases h

/-- Whatever its next instruction is, a frame only makes moves, and it writes to
the ledger only if it is not static. -/
theorem moves_step (config : Config) (env : Environment) (live : Live σ) :
    Moves (live.frame.context.isStatic = false) live
      (left (step config env live)) := by
  cases hbyte : live.frame.code[live.frame.position]? with
  | none =>
    rw [step_of_none hbyte]
    exact .refl
  | some byte =>
    rw [step_of_some hbyte]
    have hauthorize : Moves (live.frame.context.isStatic = false) live
        (left (authorize config.schedule (Opcode.decode byte) live)) :=
      travels_authorize _ _ live rfl
    cases hresult : authorize config.schedule (Opcode.decode byte) live with
    | error cause reached =>
      rw [hresult] at hauthorize
      rw [bind_of_error hresult]
      exact hauthorize
    | ok _ reached =>
      rw [hresult] at hauthorize
      rw [bind_of_ok hresult]
      have hrest := travels_conduct config env (Opcode.decode byte)
        (live.frame.stack.take (Opcode.decode byte).inputs) reached rfl
      refine hauthorize.trans (hrest.mono fun hwrites =>
        isStatic_of_authorize hresult ?_)
      obtain hsstore | hdestruct := hwrites
      · rw [hsstore]
        rfl
      · rw [hdestruct]
        rfl

end

end Execution

end ContractMachine
