import ContractMachine.Proofs.Execution.Failures
import ContractMachine.Proofs.Execution.Static
import ContractMachine.Proofs.Ledger.Writes
import ContractMachine.Proofs.Transaction.Answers
import ContractMachine.Proofs.Transaction.Atomicity

/-!
# Static frames change nothing

A static frame writes nothing itself, and all that it can ask for is a call,
which is static as well.  Such a call may still move value, from the account to
itself; that is a write, and it changes nothing.  So while frames run above a
static one, the current state and those at the openings of all these frames are
one and the same, and none of the frames has gathered any effects.
-/

namespace ContractMachine.Transaction

open Actions LayeredLedger

variable {config : Config} {env : Environment} {ledger after : LayeredLedger}

/-! ## Entering -/

/-- An account that was not there has nothing to pay with. -/
theorem transfer_create_ne_ok {a : Address} {value : Word} (target : Address)
    (haccount : ledger.account a = none) (hvalue : value ≠ 0) :
    Ledger.transfer a target value (ledger.create a) ≠ .ok () after := by
  have hbalance : ((ledger.create a).states.top.held a).balance = 0 := by
    rw [states_create]
    simp [StateStack.change, FlatState.create, FlatState.install, FlatState.put,
      FlatState.held, FlatState.clear, haccount]
  have hpoor : ((ledger.create a).states.top.held a).balance < value := by
    rw [hbalance]
    exact BitVec.not_le.1 (mt BitVec.le_zero_iff.1 hvalue)
  rw [Ledger.transfer, if_neg hvalue, bind_of_error (debit_of_lt hpoor)]
  rintro ⟨⟩

theorem states_of_transfer_self {a : Address} {account : Account} {value : Word}
    (haccount : ledger.account a = some account) (hvalue : value ≠ 0)
    (h : Ledger.transfer a a value ledger = .ok () after) :
    after.states = ledger.states := by
  by_cases hlt : (ledger.states.top.held a).balance < value
  · rw [Ledger.transfer, if_neg hvalue, bind_of_error (debit_of_lt hlt)] at h
    cases h
  · obtain ⟨moved, htransfer, hstates⟩ := transfer_of_not_lt a hvalue hlt
    rw [htransfer] at h
    cases h
    rw [hstates, StateStack.change, FlatState.move_self haccount]
    rw [held_top_states, haccount] at hlt
    exact BitVec.not_lt.1 hlt

/-- Moving nothing, and paying oneself, leaves the states as they are. -/
theorem states_of_credit {source target : Address} {value : Word}
    (hsame : value = 0 ∨ target = source)
    (h : credit source target value ledger = .ok () after) :
    after.states = ledger.states := by
  rw [credit] at h
  by_cases hvalue : value = 0
  · rw [if_pos hvalue] at h
    obtain ⟨_, rfl⟩ := pure_eq_ok_iff.1 h
    rfl
  obtain rfl := hsame.resolve_left hvalue
  rw [if_neg hvalue] at h
  have hquery : query (Ledger.hasAccount · target) ledger =
      .ok (ledger.account target).isSome ledger := rfl
  rw [bind_of_ok hquery] at h
  cases haccount : ledger.account target with
  | none =>
    have hcreate : Ledger.createAccount target ledger =
        .ok () (ledger.create target) := rfl
    rw [haccount, Option.isSome_none, Bool.not_false, if_pos rfl,
      bind_of_ok hcreate] at h
    exact absurd h (transfer_create_ne_ok target haccount hvalue)
  | some account =>
    rw [haccount, Option.isSome_some, Bool.not_true,
      if_neg Bool.false_ne_true] at h
    exact states_of_transfer_self haccount hvalue h

theorem states_of_prepareEntry {context : Context} {moves : Bool}
    {source target : Address} {code : Bytes}
    (hsame : moves = true → context.value = 0 ∨ context.address = source)
    (h : prepareEntry context moves source target ledger = .ok code after) :
    after.states = ledger.states := by
  cases moves with
  | false =>
    have hquery : query (Ledger.code · target) ledger = .ok code after := h
    obtain ⟨_, rfl⟩ := query_eq_ok hquery
    rfl
  | true =>
    obtain ⟨_, reached, hcredit, hquery⟩ := bind_eq_ok_iff.1 h
    obtain ⟨_, rfl⟩ := query_eq_ok hquery
    exact states_of_credit (hsame rfl) hcredit

/-- A call that is not a plain one with value is entered on the states as they
are: it moves no value, or an account pays itself. -/
theorem states_of_enterCall {caller : Context} {request : CallRequest}
    {child : Activation} (hvalue : request.kind = .call → request.value = 0)
    (h : enterCall (calleeContext caller request) request.kind.takesValue
      caller.address
      request.target request.gas request.window ledger = .ok child after) :
    after.states = ⟨ledger.states.top, ledger.states.levels⟩ := by
  obtain ⟨code, _, _, hprepare⟩ := enterCall_eq_ok h
  refine (states_of_prepareEntry ?_ hprepare).trans (states_openSnapshot ledger)
  intro hmoves
  cases hkind : request.kind with
  | call => exact .inl (by simp [calleeContext, hkind, hvalue hkind])
  | callCode => exact .inr (by simp [calleeContext, hkind])
  | delegateCall | staticCall => simp [hkind, CallKind.takesValue] at hmoves

theorem isStatic_calleeContext (caller : Context) (request : CallRequest) :
    (calleeContext caller request).isStatic =
      (caller.isStatic || request.kind = .staticCall) := by
  rw [calleeContext]
  cases request.kind <;> rfl

/-! ## One turn -/

/-- An activation that may change nothing, and has not. -/
structure Idle (activation : Activation) : Prop where
  isStatic : activation.frame.context.isStatic = true
  effects : activation.frame.effects = {}
  role : ∃ window, activation.role = .call window

section Turns

variable {top child : Activation} {frame : Frame}

theorem idle_of_step (h : Idle top) :
    Idle { top with
      frame :=
        (left (Execution.step config env ⟨top.frame, ledger⟩)).frame } where
  isStatic := by
    rw [Execution.context_step]
    exact h.isStatic
  effects := by
    rw [Execution.effects_step_of_static h.isStatic]
    exact h.effects
  role := h.role

/-- What a static frame asks for is a call that is static too and leaves the
states as they are. -/
theorem idle_of_meets {live : Live LayeredLedger} {signal : Signal}
    {response : Response} (h : Idle top)
    (hstep : Execution.step config env ⟨top.frame, ledger⟩ =
      .ok (some signal) live)
    (hmeets : Meets config live signal response after) :
    match response with
    | .entered child =>
      Idle child ∧ after.states = ⟨ledger.states.top, ledger.states.levels⟩
    | .refused | .collided => after.states = ledger.states := by
  have hledger : live.ledger = ledger :=
    Execution.ledger_of_request hstep (isRequest_of_meets hmeets)
  obtain ⟨request, rfl, hvalue⟩ :=
    Execution.call_of_static_step hstep (isRequest_of_meets hmeets) h.isStatic
  have hcontext : live.frame.context.isStatic = true := by
    have hkept := Execution.context_step config env ⟨top.frame, ledger⟩
    rw [hstep] at hkept
    exact (congrArg Context.isStatic hkept).trans h.isStatic
  cases hmeets with
  | call hmeet =>
    rw [hledger] at hmeet
    obtain ⟨rfl, rfl⟩ | ⟨child, rfl, henter⟩ := meetCall_eq_ok hmeet
    · rfl
    · obtain ⟨code, hframe, hrole, _⟩ := enterCall_eq_ok henter
      refine ⟨⟨?_, ?_, ⟨_, hrole⟩⟩, states_of_enterCall hvalue henter⟩
      · rw [hframe, Frame.start, isStatic_calleeContext, hcontext, Bool.true_or]
      · rw [hframe, Frame.start]

theorem idle_of_continues (h : Idle top)
    (hturn : turn config env top ledger = .continues frame after) :
    Idle { top with frame } ∧ after.states = ledger.states := by
  have hidle : Idle
      { top with
        frame :=
          (left (Execution.step config env ⟨top.frame, ledger⟩)).frame } :=
    idle_of_step h
  obtain hstep | ⟨signal, live, response, hstep, hmeets, hanswer⟩ :=
    turn_eq_continues hturn
  · have hledger :
        (left (Execution.step config env ⟨top.frame, ledger⟩)).ledger =
          ledger :=
      Execution.ledger_step_of_static h.isStatic
    rw [hstep] at hidle hledger
    exact ⟨hidle, congrArg states hledger⟩
  · rw [hstep] at hidle
    have hstates := idle_of_meets h hstep hmeets
    obtain ⟨rfl, hrefuse⟩ | ⟨rfl, hanswered⟩ := hanswer
    · obtain ⟨_, rfl⟩ := Frame.refuse_eq_ok_iff.1 hrefuse
      exact ⟨⟨hidle.isStatic, hidle.effects, hidle.role⟩, hstates⟩
    · obtain ⟨_, rfl⟩ := Frame.answer_eq_ok_iff.1 hanswered
      exact ⟨⟨hidle.isStatic, hidle.effects, hidle.role⟩, hstates⟩

theorem idle_of_enters (h : Idle top)
    (hturn : turn config env top ledger = .enters frame child after) :
    Idle { top with frame } ∧ Idle child ∧
      after.states = ⟨ledger.states.top, ledger.states.levels⟩ := by
  obtain ⟨signal, live, hstep, rfl, hmeets⟩ := turn_eq_enters hturn
  have hidle : Idle
      { top with
        frame :=
          (left (Execution.step config env ⟨top.frame, ledger⟩)).frame } :=
    idle_of_step h
  rw [hstep] at hidle
  exact ⟨hidle, idle_of_meets h hstep hmeets⟩

/-- How a called frame is left. -/
theorem leave_call_eq_ok {activation : Activation} {window : Range}
    {outcome : Outcome} {output : Bytes} {exit : Exit}
    (hrole : activation.role = .call window)
    (h : leave config activation outcome output ledger = .ok exit after) :
    (Ledger.commit activation.snapshot ledger = .ok () after ∧
      exit.effects = activation.frame.effects) ∨
    (Ledger.rollback activation.snapshot ledger = .ok () after ∧
      exit.effects = {}) := by
  cases outcome with
  | success =>
    simp only [leave, hrole] at h
    obtain ⟨_, reached, hcommit, hpure⟩ := bind_eq_ok_iff.1 h
    obtain ⟨rfl, rfl⟩ := pure_eq_ok_iff.1 hpure
    exact .inl ⟨hcommit, rfl⟩
  | revert | halt cause =>
    obtain ⟨_, reached, hrollback, hpure⟩ := bind_eq_ok_iff.1 h
    obtain ⟨rfl, rfl⟩ := pure_eq_ok_iff.1 hpure
    exact .inr ⟨hrollback, rfl⟩

/-- A static frame ends without effects, in the state that it had or in the one
at its opening. -/
theorem idle_of_finished {exit : Exit} (h : Idle top)
    (hturn : turn config env top ledger = .concludes (.finished exit after)) :
    exit.effects = {} ∧ ∃ beneath,
      ledger.states.below = beneath :: after.states.below ∧
      (after.states.top = ledger.states.top ∨ after.states.top = beneath) := by
  obtain ⟨live, outcome, output, hlive, hleave⟩ := turn_eq_finished hturn
  have hidle : Idle { top with frame := live.frame } := by
    rw [← hlive]
    exact idle_of_step h
  have hledger : live.ledger = ledger := by
    rw [← hlive]
    exact Execution.ledger_step_of_static h.isStatic
  obtain ⟨window, hrole⟩ := hidle.role
  rw [hledger] at hleave
  obtain ⟨hcommit, heffects⟩ | ⟨hrollback, heffects⟩ :=
    leave_call_eq_ok hrole hleave
  · obtain ⟨beneath, rest, hbelow, hstates⟩ := states_of_commit hcommit
    rw [hstates]
    exact ⟨heffects.trans hidle.effects, beneath, hbelow, .inl rfl⟩
  · obtain ⟨beneath, rest, hbelow, hstates⟩ := states_of_rollback hrollback
    rw [hstates]
    exact ⟨heffects, beneath, hbelow, .inr rfl⟩

theorem absorb_nothing : ({} : Effects).absorb {} = {} := rfl

/-- A static frame goes on after another as idle as before. -/
theorem idle_of_resume {parent : Activation} {role : Role} {exit : Exit}
    (h : Idle parent) (hexit : exit.effects = {})
    (hresume : parent.frame.resume role exit = .ok frame) :
    Idle { parent with frame } := by
  obtain ⟨memory, stack, returnData, rfl⟩ := Frame.exists_of_resume hresume
  refine ⟨h.isStatic, ?_, h.role⟩
  rw [Frame.effectsAfter, h.effects, hexit, absorb_nothing, ite_self]

end Turns

/-! ## Runs -/

/-- The state of a transaction while frames run above `floor` that may change
nothing: the current state and those at the openings of these frames are all the
one that was there at first. -/
structure Unmoved (stack : StateStack) (above floor : List Activation)
    (state : Running LayeredLedger) : Prop where
  waiting : state.waiting = above ++ floor
  idle : ∀ activation ∈ state.top :: above, Idle activation
  states : state.ledger.states =
    ⟨stack.top, List.replicate (above.length + 1) stack.top ++ stack.below⟩

variable {stack : StateStack} {floor : List Activation}

theorem unmoved_of_advance {above : List Activation}
    {state next : Running LayeredLedger}
    (hstate : Unmoved stack above floor state)
    (h : advance config env state = .running next)
    (hfloor : floor <:+ next.waiting) :
    ∃ above, Unmoved stack above floor next := by
  obtain ⟨hwaiting, hidle, hstates⟩ := hstate
  rw [List.forall_mem_cons] at hidle
  obtain ⟨htop, habove⟩ := hidle
  cases advances_of_advance h with
  | continues hturn =>
    obtain ⟨hcontinued, hkept⟩ := idle_of_continues htop hturn
    exact ⟨above, hwaiting, List.forall_mem_cons.2 ⟨hcontinued, habove⟩,
      hkept.trans hstates⟩
  | enters hturn =>
    obtain ⟨hwaits, hchild, hkept⟩ := idle_of_enters htop hturn
    refine ⟨_ :: above, congrArg _ hwaiting, ?_, ?_⟩
    · exact List.forall_mem_cons.2 ⟨hchild,
        List.forall_mem_cons.2 ⟨hwaits, habove⟩⟩
    · rw [hkept]
      dsimp only at hstates
      rw [hstates]
      rfl
  | @resumes top parent below ledger after exit frame hturn hresume =>
    obtain ⟨heffects, beneath, hbelow, hleft⟩ := idle_of_finished htop hturn
    dsimp only at hstates hwaiting
    cases above with
    | nil =>
      have hlength := hfloor.length_le
      rw [← List.nil_append floor, ← hwaiting, List.length_cons] at hlength
      exact absurd hlength (Nat.not_succ_le_self _)
    | cons first rest =>
      rw [List.cons_append, List.cons.injEq] at hwaiting
      obtain ⟨rfl, hrest⟩ := hwaiting
      rw [List.forall_mem_cons] at habove
      rw [hstates, List.replicate_succ, List.cons_append,
        List.cons.injEq] at hbelow
      rw [hstates, ← hbelow.1, or_self] at hleft
      refine ⟨rest, hrest, ?_, StateStack.ext hleft hbelow.2.symm⟩
      exact List.forall_mem_cons.2 ⟨idle_of_resume habove.1 heffects hresume,
        habove.2⟩

theorem unmoved_of_runsAbove {above : List Activation}
    {state last : Running LayeredLedger}
    (hstate : Unmoved stack above floor state)
    (h : RunsAbove config env floor state last) :
    ∃ above, Unmoved stack above floor last := by
  induction h with
  | refl => exact ⟨above, hstate⟩
  | tail _ hstep ih =>
    obtain ⟨_, hreached⟩ := ih
    exact unmoved_of_advance hreached hstep.1 hstep.2

/-- A plain call that enters a static frame has no value, for it comes from
one. -/
theorem value_of_static_callee {frame : Frame} {live : Live LayeredLedger}
    {request : CallRequest}
    (hstep : Execution.step config env ⟨frame, ledger⟩ =
      .ok (some (.call request)) live)
    (hstatic : (calleeContext live.frame.context request).isStatic = true)
    (hkind : request.kind = .call) : request.value = 0 := by
  have hcontext : live.frame.context = frame.context := by
    have hkept := Execution.context_step config env ⟨frame, ledger⟩
    rw [hstep] at hkept
    exact hkept
  rw [isStatic_calleeContext, hkind, hcontext] at hstatic
  obtain ⟨_, hsignal, hvalue⟩ :=
    Execution.call_of_static_step hstep trivial (by simpa using hstatic)
  cases hsignal
  exact hvalue hkind

/-- What a static frame is entered with. -/
theorem unmoved_of_entered {state entered : Running LayeredLedger}
    (hnext : advance config env state = .running entered)
    (hdeeper : entered.waiting.length = state.waiting.length + 1)
    (hstatic : entered.top.frame.context.isStatic = true) :
    Unmoved state.ledger.states [] entered.waiting entered := by
  cases advances_of_advance hnext with
  | continues => simp at hdeeper
  | resumes => simp at hdeeper; omega
  | enters hturn =>
    obtain ⟨signal, live, hstep, _, hmeets⟩ := turn_eq_enters hturn
    have hledger :=
      Execution.ledger_of_request hstep (isRequest_of_meets hmeets)
    cases hmeets with
    | create hmeet =>
      obtain ⟨_, hrefused, _⟩ | ⟨_, address, n, bumped, _, hrest⟩ :=
        meetCreation_eq_ok hmeet
      · cases hrefused
      obtain ⟨hcollided, _⟩ | ⟨child, hentered, henter⟩ := hrest
      · cases hcollided
      · cases hentered
        obtain ⟨hframe, _⟩ := enterCreation_eq_ok henter
        rw [hframe] at hstatic
        cases hstatic
    | @call request _ _ hmeet =>
      rw [hledger] at hmeet
      obtain ⟨hrefused, _⟩ | ⟨child, hentered, henter⟩ := meetCall_eq_ok hmeet
      · cases hrefused
      cases hentered
      obtain ⟨code, hframe, hrole, _⟩ := enterCall_eq_ok henter
      rw [hframe] at hstatic
      have hvalue := value_of_static_callee hstep hstatic
      refine ⟨rfl, ?_, states_of_enterCall hvalue henter⟩
      rw [List.forall_mem_singleton]
      refine ⟨?_, ?_, _, hrole⟩
      · rw [hframe]
        exact hstatic
      · rw [hframe, Frame.start]

/-- Static protection is airtight.  Let a static frame be entered, whatever the
ledger, the environment and the code.  All frames that come to run above it are
static as well.  When it ends, with whatever outcome, everything that can be
read of the ledger is as it was before the frame was entered, and its exit hands
on no record, no account marked for deletion and no refund.  A call with the
caller's own account is not forbidden in it, with value or without: it fails
only for want of operands, of room on the stack or of gas, like everywhere
else. -/
theorem static_protection_is_airtight {config : Config} {env : Environment}
    {state entered : Running LayeredLedger}
    (hnext : advance config env state = .running entered)
    (hdeeper : entered.waiting.length = state.waiting.length + 1)
    (hstatic : entered.top.frame.context.isStatic = true) :
    (∀ last, RunsAbove config env entered.waiting entered last →
      ∃ above, last.waiting = above ++ entered.waiting ∧
        ∀ activation ∈ last.top :: above,
          activation.frame.context.isStatic = true) ∧
    (∀ last exit after, RunsAbove config env entered.waiting entered last →
      last.waiting = entered.waiting →
      turn config env last.top last.ledger = .concludes (.finished exit after) →
      SameReads state.ledger after ∧ exit.effects.logs = #[] ∧
        exit.effects.destroyed.isEmpty = true ∧ exit.effects.refund = 0) ∧
    ∀ (live reached : Live LayeredLedger) byte cause,
      live.frame.code[live.frame.position]? = some byte →
      Opcode.decode byte = .call .callCode →
      Execution.step config env live = .error cause reached →
      cause.IsShortage := by
  have hentered := unmoved_of_entered hnext hdeeper hstatic
  refine ⟨fun last hruns => ?_, fun last exit after hruns hwaiting hends => ?_,
    ?_⟩
  · obtain ⟨above, hlast⟩ := unmoved_of_runsAbove hentered hruns
    exact ⟨above, hlast.waiting,
      fun activation hmem => (hlast.idle activation hmem).isStatic⟩
  · obtain ⟨above, hlast⟩ := unmoved_of_runsAbove hentered hruns
    obtain rfl : above = [] :=
      List.self_eq_append_left.1 (hwaiting.symm.trans hlast.waiting)
    obtain ⟨heffects, beneath, hbelow, hleft⟩ :=
      idle_of_finished (hlast.idle _ List.mem_cons_self) hends
    rw [hlast.states, List.length_nil, List.replicate_one,
      List.singleton_append, List.cons.injEq] at hbelow
    rw [hlast.states, ← hbelow.1, or_self] at hleft
    refine ⟨sameReads_of_states_eq (StateStack.ext hleft hbelow.2.symm), ?_⟩
    rw [heffects]
    exact ⟨rfl, rfl, rfl⟩
  · intro live reached byte cause hbyte hopcode hfails
    exact Execution.isShortage_of_call hbyte hopcode (by decide) hfails

/-- A static frame about to make a call with the code of another account, in
which it pays itself 5 out of 10. -/
def payingItself : Running LayeredLedger where
  top :=
    { frame :=
        { Frame.start #[0xf2] { address := 1, isStatic := true } 100000 with
          stack := [1000, 2, 5, 0, 0, 0, 0] }
      snapshot := 0
      role := .call {} }
  waiting := []
  ledger := ({} : LayeredLedger).install 1 { balance := 10 }

theorem payment_in_static_frame_leaves_no_trace :
    payingItself.top.frame.context.isStatic = true ∧ ∃ entered exit after,
      advance {} {} payingItself = .running entered ∧
      entered.waiting.length = payingItself.waiting.length + 1 ∧
      entered.top.frame.context.isStatic = true ∧
      entered.top.frame.context.value = 5 ∧
      turn {} {} entered.top entered.ledger =
        .concludes (.finished exit after) ∧
      exit.outcome = .success ∧ SameReads payingItself.ledger after := by
  obtain ⟨entered, hnext, hdeeper, hstatic, hvalue, exit, after, hends,
      hsuccess⟩ :
      ∃ entered, advance {} {} payingItself = .running entered ∧
        entered.waiting.length = payingItself.waiting.length + 1 ∧
        entered.top.frame.context.isStatic = true ∧
        entered.top.frame.context.value = 5 ∧
        ∃ exit after, turn {} {} entered.top entered.ledger =
          .concludes (.finished exit after) ∧ exit.outcome = .success :=
    ⟨_, rfl, rfl, rfl, rfl, _, _, rfl, rfl⟩
  obtain ⟨hreads, _⟩ :=
    (static_protection_is_airtight hnext hdeeper hstatic).2.1 entered exit after
      .refl rfl hends
  exact ⟨rfl, entered, exit, after, hnext, hdeeper, hstatic, hvalue, hends,
    hsuccess, hreads⟩

end ContractMachine.Transaction
