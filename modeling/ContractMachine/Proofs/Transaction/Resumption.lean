import ContractMachine.Proofs.Transaction.Lives
import ContractMachine.Proofs.Transaction.Recursion

/-!
# How a frame goes on after another

A frame that has asked for another waits while that one runs, and those that it
may ask for in turn.  Nothing happens to the frame that waits.  When the frame
above it has ended, it takes up what this has left: the gas, an output or an
address, and the effects if it has succeeded.  The window for the output of a
call was paid for when the call was requested, and the word on the stack had its
place since then, so there is always room for both.

A request for which no frame is entered is answered at once.
-/

namespace ContractMachine

open Actions

/-! ## Answers -/

namespace Frame

variable {suspended resumed : Frame} {exit : Exit} {window : Range}
  {address : Address}

/-- What a frame finds of the output of a call: a word that tells whether the
call has succeeded, the whole output in its return data, and as much of it as
fits in the window. -/
structure TakesOutput (suspended : Frame) (window : Range) (exit : Exit)
    (resumed : Frame) :
    Prop where
  stack_eq : resumed.stack =
    (if exit.outcome = .success then 1 else 0) :: suspended.stack
  returnData_eq : resumed.returnData = exit.output
  size_eq : resumed.memory.size = suspended.memory.size
  byteAt_eq : ∀ i, resumed.memory.byteAt i =
    if window.offset ≤ i ∧
        i < window.offset + min window.length exit.output.size then
      exit.output.getD (i - window.offset) 0
    else suspended.memory.byteAt i

/-- What a frame finds of a creation: the address of the new contract, or the
output of one that has reverted. -/
structure TakesAddress (suspended : Frame) (address : Address) (exit : Exit)
    (resumed : Frame) :
    Prop where
  stack_eq : resumed.stack =
    (if exit.outcome = .success then address.setWidth 256 else 0) ::
      suspended.stack
  returnData_eq : resumed.returnData = if exit.outcome = .revert then
    exit.output else #[]
  memory_eq : resumed.memory = suspended.memory

/-- What a frame takes up when the frame it has waited for has ended. -/
structure TakesUp (suspended : Frame) (role : Role) (exit : Exit)
    (resumed : Frame) : Prop where
  frame_eq : resumed = { suspended with
    gas := resumed.gas, stack := resumed.stack, memory := resumed.memory,
    effects := resumed.effects, returnData := resumed.returnData }
  gas_eq : resumed.gas = min (suspended.gas + exit.gasLeft) (2 ^ 64 - 1)
  call : ∀ window, role = .call window →
    suspended.TakesOutput window exit resumed
  creation : ∀ address, role = .creation address →
    suspended.TakesAddress address exit resumed
  effects_of_success : exit.outcome = .success →
    resumed.effects = suspended.effects.absorb exit.effects
  effects_of_failure : exit.outcome ≠ .success →
    resumed.effects = suspended.effects

theorem resume_call_eq_ok
    (h : suspended.resume (.call window) exit = .ok resumed) :
    resumed = { suspended.returnGas exit.gasLeft with
      memory := suspended.memory.store window.offset
        (exit.output.extract 0 window.length)
      stack := (if exit.outcome = .success then 1 else 0) :: suspended.stack
      effects := suspended.effectsAfter exit
      returnData := exit.output } := by
  by_cases hsuccess : exit.outcome = .success
  · simp only [resume, hsuccess, if_true] at h
    obtain ⟨_, rfl⟩ := answer_eq_ok_iff.1 h
    simp [effectsAfter, hsuccess, returnGas, Word.ofBool]
  · simp only [resume, hsuccess, if_false] at h
    obtain ⟨_, rfl⟩ := answer_eq_ok_iff.1 h
    simp [effectsAfter, hsuccess, returnGas, Word.ofBool]

theorem resume_creation_eq_ok
    (h : suspended.resume (.creation address) exit = .ok resumed) :
    resumed = { suspended.returnGas exit.gasLeft with
      stack := (if exit.outcome = .success then address.setWidth 256 else 0) ::
        suspended.stack
      effects := suspended.effectsAfter exit
      returnData := if exit.outcome = .revert then exit.output else #[] } := by
  by_cases hsuccess : exit.outcome = .success
  · simp only [resume, hsuccess, if_true] at h
    obtain ⟨_, rfl⟩ := answer_eq_ok_iff.1 h
    simp [effectsAfter, hsuccess, returnGas, Word.ofAddress]
  · simp only [resume, hsuccess, if_false] at h
    obtain ⟨_, rfl⟩ := answer_eq_ok_iff.1 h
    simp [effectsAfter, hsuccess, returnGas]

/-- An output goes to the beginning of a window that is covered, and nowhere
else. -/
theorem takesOutput_of_resume (hcovers : suspended.memory.Covers window)
    (h : suspended.resume (.call window) exit = .ok resumed) :
    suspended.TakesOutput window exit resumed := by
  have hsize : (exit.output.extract 0 window.length).size =
      min window.length exit.output.size := by
    rw [Array.size_extract, Nat.sub_zero]
  have hpart : suspended.memory.Covers ⟨window.offset,
      (exit.output.extract 0 window.length).size⟩ :=
    hcovers.shorten (hsize.le.trans (Nat.min_le_left ..))
  rw [resume_call_eq_ok h]
  refine ⟨rfl, rfl, Memory.size_of_store? (Memory.store?_of_covers hpart),
    fun i => ?_⟩
  rw [Memory.byteAt_store hpart.required, hsize]
  refine if_ctx_congr Iff.rfl (fun hwithin => ?_) fun _ => rfl
  have hindex : i - window.offset < min window.length exit.output.size - 0 :=
    Nat.sub_lt_left_of_lt_add hwithin.1 hwithin.2
  rw [Array.getD_eq_getD_getElem?, Array.getD_eq_getD_getElem?,
    Array.getElem?_extract, if_pos hindex, Nat.zero_add]

theorem takesUp_of_resume {role : Role}
    (hcovers : ∀ window, role = .call window → suspended.memory.Covers window)
    (h : suspended.resume role exit = .ok resumed) :
    suspended.TakesUp role exit resumed := by
  have hframe := h
  obtain ⟨memory, stack, returnData, rfl⟩ := exists_of_resume hframe
  refine ⟨rfl, rfl, ?_, ?_, fun hsuccess => if_pos hsuccess,
    fun hfails => if_neg hfails⟩
  · rintro window rfl
    exact takesOutput_of_resume (hcovers window rfl) h
  · rintro address rfl
    rw [resume_creation_eq_ok h]
    exact ⟨rfl, rfl, rfl⟩

end Frame

namespace Transaction

variable {σ : Type} [Ledger σ] {config : Config} {env : Environment}
  {ledger after : σ} {top child : Activation}

/-! ## Ends -/

/-- A frame that is left in a halt leaves no output, unless it was left with
one. -/
theorem output_of_leave {activation : Activation} {outcome : Outcome}
    {output : Bytes} {exit : Exit} {cause : Halt}
    (h : leave config activation outcome output ledger = .ok exit after)
    (hhalt : exit.outcome = .halt cause) :
    exit.output = #[] ∨ outcome = .halt cause ∧ exit.output = output := by
  have hsucceed : ∀ {frame : Frame} {written : σ},
      succeed activation.snapshot frame output written ≠ .ok exit after := by
    intro frame written hsucceed
    obtain ⟨_, _, _, hpure⟩ := bind_eq_ok_iff.1 hsucceed
    obtain ⟨rfl, _⟩ := pure_eq_ok_iff.1 hpure
    cases hhalt
  have hfail : ∀ {gas : Nat} {failure : Outcome} {kept : Bytes} {written : σ},
      fail activation.snapshot gas failure kept written = .ok exit after →
      failure = .halt cause ∧ exit.output = kept := by
    intro gas failure kept written hfail
    obtain ⟨_, _, _, hpure⟩ := bind_eq_ok_iff.1 hfail
    obtain ⟨rfl, _⟩ := pure_eq_ok_iff.1 hpure
    exact ⟨hhalt, rfl⟩
  cases outcome with
  | revert | halt reason => exact .inr (hfail h)
  | success =>
    cases hrole : activation.role with
    | call window =>
      simp only [leave, hrole] at h
      exact absurd h hsucceed
    | creation address =>
      simp only [leave, hrole] at h
      split at h
      case h_1 => exact absurd h hsucceed
      case h_2 => exact .inl (hfail h).2
      case h_3 => split at h <;> cases h

/-- A frame that halts leaves no output. -/
theorem output_of_halt {exit : Exit} {cause : Halt}
    (h : turn config env top ledger = .concludes (.finished exit after))
    (hhalt : exit.outcome = .halt cause) : exit.output = #[] := by
  rw [turn] at h
  split at h
  case h_1 | h_7 => cases h
  case h_2 | h_3 => exact absurd h ofResponse_ne_finished
  case h_4 | h_5 =>
    obtain hempty | ⟨houtcome, _⟩ :=
      output_of_leave (ofLeaving_eq_finished h) hhalt
    · exact hempty
    · cases houtcome
  case h_6 =>
    obtain hempty | ⟨_, hempty⟩ :=
      output_of_leave (ofLeaving_eq_finished h) hhalt
    · exact hempty
    · exact hempty

/-! ## Frames that wait -/

/-- How a frame has come to wait, and what has run since.  At some state of the
run it asked for another frame, which was entered; since then it has been
waiting as it was then. -/
structure Suspends (config : Config) (env : Environment) (first : Running σ)
    (signal : Signal) (live : Live σ) (child parent : Activation)
    (below : List Activation) (state : Running σ) :
    Prop where
  asks : ∃ asking, Reaches config env first asking ∧ asking.waiting = below ∧
    Execution.step config env ⟨asking.top.frame, asking.ledger⟩ =
      .ok (some signal) live ∧
    parent = { asking.top with frame := live.frame }
  runs : ∃ met, Meets config live signal (.entered child) met ∧
    RunsAbove config env (parent :: below) ⟨child, parent :: below, met⟩ state

theorem Suspends.advance {first state next : Running σ} {signal : Signal}
    {live : Live σ} {parent : Activation} {below : List Activation}
    (h : Suspends config env first signal live child parent below state)
    (hadvance : Transaction.advance config env state = .running next)
    (hsuffix : parent :: below <:+ next.waiting) :
    Suspends config env first signal live child parent below next := by
  obtain ⟨met, hmeets, hruns⟩ := h.runs
  exact ⟨h.asks, met, hmeets, hruns.tail ⟨hadvance, hsuffix⟩⟩

/-- Every frame that waits has come to wait during the run. -/
theorem exists_suspends {first state : Running σ} (hfirst : first.waiting = [])
    (h : Reaches config env first state) {parent : Activation}
    {below : List Activation} (hsuffix : parent :: below <:+ state.waiting) :
    ∃ signal live child,
      Suspends config env first signal live child parent below state := by
  induction h generalizing parent below with
  | refl =>
    rw [hfirst, List.suffix_nil] at hsuffix
    cases hsuffix
  | @tail state next hreaches hadvance ih =>
    have hkept : ∀ {parent below}, parent :: below <:+ state.waiting →
        parent :: below <:+ next.waiting → ∃ signal live child,
          Suspends config env first signal live child parent below next := by
      intro parent below hbefore hafter
      obtain ⟨signal, live, child, hsuspends⟩ := ih hbefore
      exact ⟨signal, live, child, hsuspends.advance hadvance hafter⟩
    cases advances_of_advance hadvance with
    | continues => exact hkept hsuffix hsuffix
    | resumes => exact hkept (hsuffix.trans (List.suffix_cons ..)) hsuffix
    | @enters top child waiting before after frame hturn =>
      obtain heq | hdeeper := List.suffix_cons_iff.1 hsuffix
      · -- The frame that was on top has just begun to wait.
        cases heq
        obtain ⟨signal, live, hstep, rfl, hmeets⟩ := turn_eq_enters hturn
        exact ⟨signal, live, child, ⟨_, hreaches, rfl, hstep, rfl⟩, after,
          hmeets, .refl⟩
      · exact hkept hdeeper hsuffix

/-- When only the frame that was waited for is left above one that waits, it has
the role it was entered with. -/
theorem role_of_runsAbove {floor : List Activation} {state : Running σ}
    (h : RunsAbove config env floor ⟨child, floor, ledger⟩ state)
    (hwaiting : state.waiting = floor) : state.top.role = child.role := by
  rw [← above_alone] at h
  obtain ⟨⟨top, own, left⟩, rfl, hreaches⟩ := exists_of_runsAbove h
  obtain rfl : own = [] := by simpa [above] using hwaiting
  have hroles : ∀ {state last : Running σ}, Reaches config env state last →
      rootRole last = rootRole state := by
    intro state last hreaches
    induction hreaches with
    | refl => rfl
    | tail _ hadvance ih => exact (rootRole_of_advance hadvance).trans ih
  exact hroles hreaches

/-- A frame is entered with the role that its request asks for; if it is a
creation, it runs for the new account. -/
theorem role_of_meets {live : Live σ} {signal : Signal}
    (h : Meets config live signal (.entered child) after) :
    signal.Suits child.role ∧ ∀ address, child.role = .creation address →
      child.address = address := by
  obtain ⟨request, rfl, henter⟩ | ⟨request, address, _, _, rfl, _, henter⟩ :=
    enters_of_meets h
  · obtain ⟨code, _, hrole, _⟩ := enterCall_eq_ok henter
    rw [hrole]
    exact ⟨rfl, nofun⟩
  · obtain ⟨hframe, hrole, _⟩ := enterCreation_eq_ok henter
    rw [hrole, Activation.address, hframe]
    exact ⟨trivial, by rintro _ ⟨⟩; rfl⟩

/-! ## Requests that enter no frame -/

/-- The turn of a frame whose request is met. -/
theorem turn_of_meets {signal : Signal} {live : Live σ} {response : Response}
    (hstep : Execution.step config env ⟨top.frame, ledger⟩ =
      .ok (some signal) live)
    (h : Meets config live signal response after) :
    turn config env top ledger =
      .ofResponse { top with
        frame := live.frame } signal.gas (.ok response after) := by
  rw [turn, hstep]
  cases h with
  | call hmeet | create hmeet => exact congrArg (Turn.ofResponse _ _) hmeet

theorem ledger_of_refused {live : Live σ} {signal : Signal}
    (h : Meets config live signal .refused after) : after = live.ledger := by
  cases h with
  | call hmeet =>
    obtain ⟨_, hledger⟩ | ⟨_, hentered, _⟩ := meetCall_eq_ok hmeet
    · exact hledger
    · cases hentered
  | create hmeet =>
    obtain ⟨_, _, hledger⟩ | ⟨_, _, _, _, _,
        ⟨hcollided, _⟩ | ⟨_, hentered, _⟩⟩ :=
      meetCreation_eq_ok hmeet
    · exact hledger
    · cases hcollided
    · cases hentered

theorem bumpNonce_of_collided {live : Live σ} {signal : Signal}
    (h : Meets config live signal .collided after) :
    ∃ n, Ledger.bumpNonce live.frame.context.address live.ledger =
      .ok n after := by
  cases h with
  | call hmeet =>
    obtain ⟨hrefused, _⟩ | ⟨_, hentered, _⟩ := meetCall_eq_ok hmeet
    · cases hrefused
    · cases hentered
  | create hmeet =>
    obtain ⟨_, hrefused, _⟩ | ⟨_, _, n, bumped, hbump,
        ⟨_, rfl⟩ | ⟨_, hentered, _⟩⟩ :=
      meetCreation_eq_ok hmeet
    · cases hrefused
    · exact ⟨n, hbump⟩
    · cases hentered

/-- How a frame goes on whose request enters no frame: with the gas if the
request is refused and nothing is written, and without it if a creation collides
after a nonce was counted up. -/
structure AnswersAtOnce (config : Config) (env : Environment)
    (state : Running σ) (signal : Signal) (live : Live σ) : Prop where
  refused : ∀ met, Meets config live signal .refused met → met = live.ledger ∧
    advance config env state =
      .running ⟨{ state.top with frame := { live.frame with
      gas := min (live.frame.gas + signal.gas) (2 ^ 64 - 1)
      stack := 0 :: live.frame.stack
      returnData := #[] } }, state.waiting, met⟩
  collided : ∀ met, Meets config live signal .collided met →
    (∃ n, Ledger.bumpNonce live.frame.context.address live.ledger = .ok n met) ∧
    advance config env state =
      .running ⟨{ state.top with frame := { live.frame with
      stack := 0 :: live.frame.stack
      returnData := #[] } }, state.waiting, met⟩

theorem answersAtOnce {state : Running σ} {signal : Signal} {live : Live σ}
    (hstep : Execution.step config env ⟨state.top.frame, state.ledger⟩ =
      .ok (some signal) live) :
    AnswersAtOnce config env state signal live := by
  constructor
  · intro met hmeets
    have hroom := Execution.room_of_step hstep (isRequest_of_meets hmeets)
    refine ⟨ledger_of_refused hmeets, ?_⟩
    rw [advance_eq_progressOf, turn_of_meets hstep hmeets, Turn.ofResponse,
      Frame.refuse_eq_ok_iff.2 ⟨hroom, rfl⟩]
    rfl
  · intro met hmeets
    have hroom := Execution.room_of_step hstep (isRequest_of_meets hmeets)
    refine ⟨bumpNonce_of_collided hmeets, ?_⟩
    rw [advance_eq_progressOf, turn_of_meets hstep hmeets, Turn.ofResponse,
      Frame.answer_eq_ok_iff.2 ⟨hroom, rfl⟩]
    rfl

/-! ## Runs -/

/-- When the frame above it has ended, a frame that has waited goes on. -/
theorem goes_on_of_finished {first state : Running σ} {signal : Signal}
    {live : Live σ} {parent : Activation} {below : List Activation}
    {exit : Exit}
    (h : Suspends config env first signal live child parent below state)
    (hwaiting : state.waiting = parent :: below)
    (hends : turn config env state.top state.ledger =
      .concludes (.finished exit after)) :
    ∃ frame, advance config env state =
      .running ⟨{ parent with frame }, below, after⟩ ∧
      parent.frame.TakesUp state.top.role exit frame := by
  obtain ⟨asking, _, _, hstep, rfl⟩ := h.asks
  obtain ⟨met, hmeets, hruns⟩ := h.runs
  have hroom := Execution.room_of_step hstep (isRequest_of_meets hmeets)
  obtain ⟨frame, hresume⟩ := Frame.exists_resume hroom state.top.role exit
  have hcovers : ∀ window, state.top.role = .call window →
      live.frame.memory.Covers window := by
    intro window hcall
    have hsuits := (role_of_meets hmeets).1
    rw [← role_of_runsAbove hruns hwaiting, hcall] at hsuits
    cases signal with
    | create | «return» | revert => exact hsuits.elim
    | call request =>
      obtain rfl : window = request.window := hsuits
      exact Execution.covers_of_step hstep
  refine ⟨frame, ?_, Frame.takesUp_of_resume hcovers hresume⟩
  rw [advance_eq_progressOf, hends, hwaiting, progressOf, deliver]
  dsimp only
  rw [hresume]

/-- A frame that waits goes on with what the frame above it has left, and with
nothing else.  Take any run and any moment at which a frame ends above another.
The one below is as it was when it asked, and it goes on.  After a call its
memory has the size it had, the window begins with as much of the output as it
can take, and all other bytes are the same; the return data is the whole output,
and the new word on the stack is 1 or 0.  After a creation the memory is the
same, the return data is the output of one that reverted, and the new word is
the address of the new account or 0.  Its gas grows by what was left, which is
nothing after a halt, and a halt leaves no output.  Its effects grow if the
frame has succeeded.  Its code, its position, its context and the rest of its
stack stay.

A request that is refused returns its gas and has written nothing; a creation at
an address that is taken has counted the nonce up and loses its gas.  Either way
the answer is 0 and the return data is empty. -/
theorem waiting_frame_takes_up_what_was_left {σ : Type} [Ledger σ]
    {config : Config} {env : Environment} {root : Activation} {ledger : σ}
    {state : Running σ} (h : Reaches config env ⟨root, [], ledger⟩ state) :
    (∀ parent below exit after, state.waiting = parent :: below →
      turn config env state.top state.ledger =
        .concludes (.finished exit after) →
      (∀ cause, exit.outcome = .halt cause → exit.gasLeft = 0 ∧
        exit.output = #[]) ∧
      ∃ signal live child,
        Suspends config env ⟨root, [], ledger⟩ signal live child parent
          below state ∧
        signal.Suits state.top.role ∧
        (∀ address, state.top.role = .creation address →
          child.address = address) ∧
        ∃ frame, advance config env state =
          .running ⟨{ parent with frame }, below, after⟩ ∧
          parent.frame.TakesUp state.top.role exit frame) ∧
    ∀ signal live,
      Execution.step config env ⟨state.top.frame, state.ledger⟩ =
        .ok (some signal) live →
      AnswersAtOnce config env state signal live := by
  constructor
  · intro parent below exit after hwaiting hends
    refine ⟨fun cause hhalt =>
      ⟨(gas_of_finished hends).2 cause hhalt, output_of_halt hends hhalt⟩, ?_⟩
    have hsuffix : parent :: below <:+ state.waiting := by
      rw [hwaiting]
    obtain ⟨signal, live, child, hsuspends⟩ := exists_suspends rfl h hsuffix
    obtain ⟨met, hmeets, hruns⟩ := hsuspends.runs
    obtain ⟨hsuits, haddress⟩ := role_of_meets hmeets
    rw [← role_of_runsAbove hruns hwaiting] at hsuits haddress
    exact ⟨signal, live, child, hsuspends, hsuits, haddress,
      goes_on_of_finished hsuspends hwaiting hends⟩
  · intro signal live hstep
    exact answersAtOnce hstep

/-- A contract that returns as many zeros as its address says. -/
def zeros : Bytes := #[0x30, 0x3d, 0xf3]

/-- A frame that is about to call it, with a window of one byte and a memory
full of sevens. -/
def callingFrame : Frame :=
  { Frame.start #[0xf1] {} 1000 with
    stack := [100, 2, 0, 0, 0, 0, 1], memory := ⟨Array.replicate 32 7⟩ }

/-- The first of the two zeros takes the place of the first seven, and the other
one is in the return data only. -/
theorem window_takes_first_of_two_zeros :
    let ledger := ({} : LayeredLedger).install 2 (({} : Account).withCode zeros)
    ∃ state frame after,
      Reaches {} {} ⟨⟨callingFrame, 0, .call {}⟩, [], ledger⟩ state ∧
      advance {} {} state = .running ⟨⟨frame, 0, .call {}⟩, [], after⟩ ∧
      frame.gas = 293 ∧ frame.stack = [1] ∧ frame.returnData = #[0, 0] ∧
      frame.memory.byteAt 0 = 0 ∧ frame.memory.byteAt 1 = 7 := by
  intro ledger
  let entered : Frame := Frame.start zeros { address := 2, depth := 1 } 100
  let pushed : Frame := { entered with gas := 98, position := 1, stack := [2] }
  let returning : Frame :=
    { entered with gas := 96, position := 2, stack := [0, 2] }
  let parent : Activation :=
    ⟨{ callingFrame with gas := 200, position := 1, stack := [] }, 0, .call {}⟩
  -- The digest of the code does not matter here, and is not computed.
  have hsteps : ∀ hash,
      let before : LayeredLedger := ({} : LayeredLedger).install 2
        { code := zeros, codeHash := hash }
      advance {} {} ⟨⟨callingFrame, 0, .call {}⟩, [], before⟩ =
        .running ⟨⟨entered, 1, .call ⟨0, 1⟩⟩, [parent], before.openSnapshot⟩ ∧
      advance {} {} ⟨⟨entered, 1, .call ⟨0, 1⟩⟩, [parent],
        before.openSnapshot⟩ =
        .running ⟨⟨pushed, 1, .call ⟨0, 1⟩⟩, [parent], before.openSnapshot⟩ ∧
      advance {} {} ⟨⟨pushed, 1, .call ⟨0, 1⟩⟩, [parent], before.openSnapshot⟩ =
        .running ⟨⟨returning, 1, .call ⟨0, 1⟩⟩, [parent], before.openSnapshot⟩ ∧
      turn {} {} ⟨returning, 1, .call ⟨0, 1⟩⟩ before.openSnapshot =
        .concludes (.finished ⟨.success, #[0, 0], 93, {}⟩ before) := by
    intro hash
    exact ⟨by cbv, by cbv, by cbv, by cbv⟩
  obtain ⟨hcall, hfirst, hsecond, hends⟩ := hsteps (Keccak.hash zeros)
  have hreaches : Reaches {} {} ⟨⟨callingFrame, 0, .call {}⟩, [], ledger⟩
      ⟨⟨returning, 1, .call ⟨0, 1⟩⟩, [parent], ledger.openSnapshot⟩ :=
    .tail (.tail (.single hcall) hfirst) hsecond
  obtain ⟨_, signal, live, child, hsuspends, _, _, frame, hadvance, htakes⟩ :=
    (waiting_frame_takes_up_what_was_left hreaches).1 parent [] _ _ rfl hends
  have houtput := htakes.call ⟨0, 1⟩ rfl
  refine ⟨_, frame, _, hreaches, hadvance, ?_, ?_, ?_, ?_, ?_⟩
  · exact htakes.gas_eq
  · exact houtput.stack_eq
  · exact houtput.returnData_eq
  · exact houtput.byteAt_eq 0
  · exact houtput.byteAt_eq 1

end Transaction

end ContractMachine
