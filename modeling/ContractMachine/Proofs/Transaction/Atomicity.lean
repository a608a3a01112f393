import ContractMachine.Proofs.Ledger.Levels
import ContractMachine.Proofs.Ledger.Reads
import ContractMachine.Proofs.Transaction.Writing

/-!
# A frame that fails leaves no trace

Every frame runs inside its own snapshot.  Instructions write to the current
state only, entering a frame puts a state on top, and leaving one takes the top
two together or drops the first; so whatever runs above some waiting frames
leaves the states of their snapshots alone, and the rollback of a frame that
fails brings back the very state in which it was entered.

The nonce of a creator is counted up before that snapshot, so it stays.
-/

namespace ContractMachine.Transaction

open Actions LayeredLedger

variable {config : Config} {env : Environment} {ledger after : LayeredLedger}

/-! ## Entering -/

/-- Every write leaves the states of open snapshots alone. -/
theorem respects_below :
    Respects fun before after : LayeredLedger =>
      after.states.below = before.states.below where
  refl _ := rfl
  trans hfirst hsecond := hsecond.trans hfirst
  createAccount := actsOnTop_createAccount
  credit := actsOnTop_credit
  debit := actsOnTop_debit
  bumpNonce := actsOnTop_bumpNonce
  setCode := actsOnTop_setCode
  setSlot := actsOnTop_setSlot

/-- What is prepared inside a snapshot leaves the state at its opening
beneath. -/
theorem below_of_prepare {α : Type}
    {prepare : EStateM LedgerError LayeredLedger α} {a : α}
    (hprepare : ActsOnTop prepare)
    (h : prepare (Ledger.openSnapshot ledger).2 = .ok a after) :
    after.states.below = ledger.states.levels := by
  have hbelow := hprepare (Ledger.openSnapshot ledger).2
  rw [h] at hbelow
  exact hbelow.trans (congrArg StateStack.below (states_openSnapshot ledger))

theorem below_of_enterCall {context : Context} {moves : Bool}
    {source target : Address} {gas : Nat} {window : Range} {child : Activation}
    (h : enterCall context moves source target gas window ledger =
      .ok child after) :
    after.states.below = ledger.states.levels := by
  obtain ⟨_, _, _, hprepare⟩ := enterCall_eq_ok h
  exact below_of_prepare (respects_below.prepareEntry _ _ _ _) hprepare

theorem below_of_enterCreation {creator address : Address} {value : Word}
    {initCode : Bytes} {gas depth : Nat} {child : Activation}
    (h : enterCreation creator address value initCode gas depth ledger =
      .ok child after) :
    after.states.below = ledger.states.levels := by
  obtain ⟨_, _, hprepare⟩ := enterCreation_eq_ok h
  exact below_of_prepare (respects_below.prepareAccount _ _ _) hprepare

/-- The stack of states with the nonce of an account counted up. -/
def raised (a : Address) (stack : StateStack) : StateStack :=
  stack.change (·.setNonce a ((stack.top.held a).nonce + 1))

/-- What is left beneath when a request has been met. -/
theorem below_of_meets {live : Live LayeredLedger} {signal : Signal}
    {response : Response} (h : Meets config live signal response after) :
    match response with
    | .entered _ => after.states.below.tail = live.ledger.states.below
    | .refused | .collided =>
      after.states.below = live.ledger.states.below := by
  cases h with
  | call h =>
    obtain ⟨rfl, rfl⟩ | ⟨child, rfl, henter⟩ := meetCall_eq_ok h
    · rfl
    · exact congrArg List.tail (below_of_enterCall henter)
  | create h =>
    obtain ⟨_, rfl, rfl⟩ | ⟨_, address, n, bumped, hbump, hrest⟩ :=
      meetCreation_eq_ok h
    · rfl
    have hbelow : bumped.states.below = live.ledger.states.below := by
      rw [states_of_bumpNonce hbump]
      rfl
    obtain ⟨rfl, rfl⟩ | ⟨child, rfl, henter⟩ := hrest
    · exact hbelow
    · exact (congrArg List.tail (below_of_enterCreation henter)).trans hbelow

/-! ## One turn -/

/-- An instruction writes to the current state only. -/
theorem below_of_step (live : Live LayeredLedger) :
    (left (Execution.step config env live)).ledger.states.below =
      live.ledger.states.below :=
  respects_below.step config env live

theorem below_of_continues {top : Activation} {frame : Frame}
    (h : turn config env top ledger = .continues frame after) :
    after.states.below = ledger.states.below := by
  have hbelow :
      (left (Execution.step config env
        ⟨top.frame, ledger⟩)).ledger.states.below = _ :=
    below_of_step ⟨top.frame, ledger⟩
  obtain hstep | ⟨signal, live, response, hstep, hmeets, hanswer⟩ :=
    turn_eq_continues h
  · rw [hstep] at hbelow
    exact hbelow
  · rw [hstep] at hbelow
    have hmet := below_of_meets hmeets
    obtain ⟨rfl, _⟩ | ⟨rfl, _⟩ := hanswer
    · exact hmet.trans hbelow
    · exact hmet.trans hbelow

theorem below_of_enters {top child : Activation} {frame : Frame}
    (h : turn config env top ledger = .enters frame child after) :
    after.states.below.tail = ledger.states.below := by
  obtain ⟨signal, live, hstep, _, hmeets⟩ := turn_eq_enters h
  have hbelow :
      (left (Execution.step config env
        ⟨top.frame, ledger⟩)).ledger.states.below = _ :=
    below_of_step ⟨top.frame, ledger⟩
  rw [hstep] at hbelow
  exact (below_of_meets hmeets).trans hbelow

/-- A frame that ends closes one snapshot, and brings back the state at its
opening unless it succeeds. -/
theorem below_of_finished {top : Activation} {exit : Exit}
    (h : turn config env top ledger = .concludes (.finished exit after)) :
    ∃ beneath, ledger.states.below = beneath :: after.states.below ∧
      (exit.outcome ≠ .success → after.states.top = beneath) := by
  obtain ⟨live, outcome, output, hlive, hleave⟩ := turn_eq_finished h
  have hbelow : live.ledger.states.below = ledger.states.below := by
    rw [← hlive]
    exact below_of_step ⟨top.frame, ledger⟩
  obtain ⟨written, hwritten, hcloses⟩ := (leaves_of_leave hleave).closes
  have hwritten : written.states.below = ledger.states.below := by
    obtain rfl | ⟨address, rfl⟩ := hwritten
    · exact hbelow
    · exact (actsOnTop_setCode address output live.ledger).trans hbelow
  rw [← hwritten]
  obtain ⟨hsuccess, hcommit⟩ | ⟨_, hrollback⟩ := hcloses
  · obtain ⟨beneath, rest, hbeneath, hstates⟩ := states_of_commit hcommit
    exact ⟨beneath, by rw [hbeneath, hstates], fun hne => absurd hsuccess hne⟩
  · obtain ⟨beneath, rest, hbeneath, hstates⟩ := states_of_rollback hrollback
    exact ⟨beneath, by rw [hbeneath, hstates], fun _ => by rw [hstates]⟩

/-! ## Runs -/

/-- One instruction leaves the states of the snapshots of the frames below
alone; `n` is the number of frames that run above these. -/
theorem drop_below_of_advance {state next : Running LayeredLedger}
    {floor : List Activation} (h : advance config env state = .running next)
    (hstate : floor.length ≤ state.waiting.length)
    (hnext : floor.length ≤ next.waiting.length) :
    next.ledger.states.below.drop (next.waiting.length - floor.length) =
      state.ledger.states.below.drop (state.waiting.length - floor.length) := by
  cases advances_of_advance h with
  | continues hturn => rw [below_of_continues hturn]
  | @enters _ _ waiting _ _ _ hturn =>
    have hlength : waiting.length + 1 - floor.length =
        waiting.length - floor.length + 1 :=
      Nat.succ_sub hstate
    rw [← below_of_enters hturn, List.drop_tail, List.length_cons, hlength]
  | @resumes _ _ below _ _ _ _ hturn _ =>
    obtain ⟨beneath, hbelow, _⟩ := below_of_finished hturn
    have hlength : below.length + 1 - floor.length =
        below.length - floor.length + 1 :=
      Nat.succ_sub hnext
    rw [hbelow, List.length_cons, hlength, List.drop_succ_cons]

/-- What runs above waiting frames leaves the states of their snapshots
alone. -/
theorem drop_below_of_runsAbove {state last : Running LayeredLedger}
    {floor : List Activation} (hstate : floor <:+ state.waiting)
    (h : RunsAbove config env floor state last) :
    floor <:+ last.waiting ∧
    last.ledger.states.below.drop (last.waiting.length - floor.length) =
      state.ledger.states.below.drop (state.waiting.length - floor.length) := by
  induction h with
  | refl => exact ⟨hstate, rfl⟩
  | tail _ hstep ih =>
    obtain ⟨hadvance, hfloor⟩ := hstep
    exact ⟨hfloor,
      (drop_below_of_advance hadvance ih.1.length_le hfloor.length_le).trans
        ih.2⟩

/-- A frame that ends leaves the states beneath its snapshot as they were when
it was entered, and gives back the state at that time unless it succeeds. -/
theorem states_of_finished {entered last : Running LayeredLedger}
    {stack : StateStack} {exit : Exit}
    (hbelow : entered.ledger.states.below = stack.levels)
    (hruns : RunsAbove config env entered.waiting entered last)
    (hwaiting : last.waiting = entered.waiting)
    (hends : turn config env last.top last.ledger =
      .concludes (.finished exit after)) :
    after.states.below = stack.below ∧
      (exit.outcome ≠ .success → after.states.top = stack.top) := by
  obtain ⟨_, hdrop⟩ := drop_below_of_runsAbove List.suffix_rfl hruns
  rw [hwaiting, Nat.sub_self, List.drop_zero, List.drop_zero, hbelow] at hdrop
  obtain ⟨beneath, hbeneath, htop⟩ := below_of_finished hends
  rw [hdrop, StateStack.levels, List.cons.injEq] at hbeneath
  exact ⟨hbeneath.2.symm, fun hfails => (htop hfails).trans hbeneath.1.symm⟩

/-- A frame that ends without success gives back the states in which it was
entered. -/
theorem states_of_failed {entered last : Running LayeredLedger}
    {stack : StateStack} {exit : Exit}
    (hbelow : entered.ledger.states.below = stack.levels)
    (hruns : RunsAbove config env entered.waiting entered last)
    (hwaiting : last.waiting = entered.waiting)
    (hends : turn config env last.top last.ledger =
      .concludes (.finished exit after))
    (hfails : exit.outcome ≠ .success) : after.states = stack := by
  obtain ⟨hkept, htop⟩ := states_of_finished hbelow hruns hwaiting hends
  exact StateStack.ext (htop hfails) hkept

/-- The ledger on which a frame goes on after a request that was not a success:
the one that the meeting of the request left, or, if a frame was entered, one
with the states in which that was done. -/
theorem exists_meets_of_resumes {state resumed : Running LayeredLedger}
    {signal : Signal} {live : Live LayeredLedger} {outcome : Option Exit}
    (hstep : Execution.step config env ⟨state.top.frame, state.ledger⟩ =
      .ok (some signal) live)
    (h : Resumes config env state outcome resumed)
    (hfails : ∀ exit ∈ outcome, exit.outcome ≠ .success) :
    ∃ response met, Meets config live signal response met ∧
      match response with
      | .refused | .collided => resumed.ledger = met
      | .entered _ => ∀ stack : StateStack, met.states.below = stack.levels →
          resumed.ledger.states = stack := by
  cases h with
  | atOnce hnext hwaiting =>
    cases advances_of_advance hnext with
    | continues hturn =>
      obtain hplain | ⟨_, _, response, hsignal, hmeets, hanswer⟩ :=
        turn_eq_continues hturn
      · rw [hstep] at hplain
        cases hplain
      · rw [hstep] at hsignal
        cases hsignal
        refine ⟨response, _, hmeets, ?_⟩
        obtain ⟨rfl, _⟩ | ⟨rfl, _⟩ := hanswer
        · rfl
        · rfl
    | enters => simp at hwaiting
    | resumes => simp at hwaiting
  | later hnext hdeeper hruns hwaiting hends hresumed =>
    have hafter : resumed.ledger = _ :=
      ledger_of_advance_finished hends hresumed
    cases advances_of_advance hnext with
    | continues => simp at hdeeper
    | resumes => simp at hdeeper; omega
    | enters hturn =>
      obtain ⟨_, _, hsignal, _, hmeets⟩ := turn_eq_enters hturn
      rw [hstep] at hsignal
      cases hsignal
      refine ⟨_, _, hmeets, fun stack hbelow => ?_⟩
      rw [hafter]
      exact states_of_failed hbelow hruns hwaiting hends (hfails _ rfl)

theorem states_of_failed_call {state resumed : Running LayeredLedger}
    {request : CallRequest} {live : Live LayeredLedger} {outcome : Option Exit}
    (hstep : Execution.step config env ⟨state.top.frame, state.ledger⟩ =
      .ok (some (.call request)) live)
    (h : Resumes config env state outcome resumed)
    (hfails : ∀ exit ∈ outcome, exit.outcome ≠ .success) :
    resumed.ledger.states = live.ledger.states := by
  obtain ⟨response, met, hmeets, hresumed⟩ :=
    exists_meets_of_resumes hstep h hfails
  cases hmeets with
  | call hmeet =>
    obtain ⟨rfl, rfl⟩ | ⟨child, rfl, henter⟩ := meetCall_eq_ok hmeet
    · rw [hresumed]
    · exact hresumed _ (below_of_enterCall henter)

theorem states_of_failed_creation {state resumed : Running LayeredLedger}
    {request : CreateRequest} {live : Live LayeredLedger}
    {outcome : Option Exit}
    (hstep : Execution.step config env ⟨state.top.frame, state.ledger⟩ =
      .ok (some (.create request)) live)
    (h : Resumes config env state outcome resumed)
    (hfails : ∀ exit ∈ outcome, exit.outcome ≠ .success) :
    (¬ MayCreate config live.frame.context request.value live.ledger ∧
      resumed.ledger.states = live.ledger.states) ∨
    MayCreate config live.frame.context request.value live.ledger ∧
      resumed.ledger.states =
        raised live.frame.context.address live.ledger.states := by
  obtain ⟨response, met, hmeets, hresumed⟩ :=
    exists_meets_of_resumes hstep h hfails
  cases hmeets with
  | create hmeet =>
    obtain ⟨hmay, rfl, rfl⟩ | ⟨hmay, _, _, bumped, hbump, hrest⟩ :=
      meetCreation_eq_ok hmeet
    · exact .inl ⟨hmay, by rw [hresumed]⟩
    have hraised : bumped.states =
        raised live.frame.context.address live.ledger.states :=
      states_of_bumpNonce hbump
    refine .inr ⟨hmay, ?_⟩
    obtain ⟨rfl, rfl⟩ | ⟨child, rfl, henter⟩ := hrest
    · rw [hresumed, hraised]
    · rw [← hraised]
      exact hresumed _ (below_of_enterCreation henter)

/-! ## Whole transactions -/

/-- A transaction that does not succeed, once its first frame has been entered,
gives back the states in which that was done. -/
theorem states_of_failed_root {fuel gas : Nat} {root : Activation}
    {created : Option Address} {entered ended : LayeredLedger} {exit : Exit}
    {receipt : Receipt} {stack : StateStack}
    (hbelow : entered.states.below = stack.levels)
    (hdrive : drive config env fuel ⟨root, [], entered⟩ =
      some (.finished exit ended))
    (hsettle : settle config gas created exit ended = .ok receipt after)
    (hfails : receipt.outcome ≠ .success) : after.states = stack := by
  obtain ⟨houtcome, _, hkept⟩ := settle_eq_ok hsettle
  rw [houtcome] at hfails
  obtain ⟨last, hreaches, hwaiting, hends⟩ := exists_last_of_finished hdrive
  rw [(hkept hfails).1]
  have hentered :
      (⟨root, [], entered⟩ : Running LayeredLedger).ledger.states.below =
      stack.levels := hbelow
  exact states_of_failed hentered hreaches.runsAbove_nil hwaiting hends hfails

theorem states_of_failed_transaction {fuel : Nat} {message : CallMessage}
    {receipt : Receipt}
    (h : call config env fuel message ledger = some (.ok receipt after))
    (hfails : receipt.outcome ≠ .success) : after.states = ledger.states := by
  obtain hopening | ⟨root, created, entered, exit, ended, hopening, hdrive,
      hsettle⟩ :=
    transact_eq_ok h
  · obtain ⟨_, rfl⟩ | ⟨root, _, hroot, _⟩ := openCall_eq_ok hopening
    · rfl
    · cases hroot
  · obtain ⟨hroot, _⟩ | ⟨_, _, hroot, henter⟩ := openCall_eq_ok hopening
    · cases hroot
    · cases hroot
      exact states_of_failed_root (below_of_enterCall henter) hdrive
        hsettle hfails

theorem states_of_failed_deployment {fuel : Nat} {message : CreateMessage}
    {receipt : Receipt}
    (h : create config env fuel message ledger = some (.ok receipt after))
    (hfails : receipt.outcome ≠ .success) :
    (¬ (message.initCode.size ≤ config.maxInitCodeSize ∧
        Covers ledger message.caller message.value) ∧
        after.states = ledger.states) ∨
    (message.initCode.size ≤ config.maxInitCodeSize ∧
        Covers ledger message.caller message.value) ∧
      after.states = raised message.caller ledger.states := by
  obtain hopening | ⟨root, created, entered, exit, ended, hopening, hdrive,
      hsettle⟩ :=
    transact_eq_ok h
  · obtain ⟨hfirst, _, rfl⟩ | ⟨hfirst, _, _, bumped, hbump, hrest⟩ :=
      openCreation_eq_ok hopening
    · exact .inl ⟨hfirst, rfl⟩
    · obtain ⟨_, rfl⟩ | ⟨_, hroot, _⟩ := hrest
      · exact .inr ⟨hfirst, states_of_bumpNonce hbump⟩
      · cases hroot
  · obtain ⟨_, ⟨_, _, hroot⟩, _⟩ | ⟨hfirst, _, _, bumped, hbump, hrest⟩ :=
      openCreation_eq_ok hopening
    · cases hroot
    · obtain ⟨hroot, _⟩ | ⟨_, hroot, henter⟩ := hrest
      · cases hroot
      · cases hroot
        have hstates := states_of_failed_root (below_of_enterCreation henter)
          hdrive hsettle hfails
        exact .inr ⟨hfirst, hstates.trans (states_of_bumpNonce hbump)⟩

/-- Failures are atomic at every level of nesting.  A call that does not succeed
changes nothing that can be seen of the ledger, and a creation that does not
succeed at most counts up the caller's nonce, which it does when its code is not
too large and its value is covered.  Within a transaction, a frame goes on after
a call that did not succeed as if it had not been made, and after a creation
that did not succeed with at most its nonce counted up, which is done when the
checks of depth, balance and nonce are passed. -/
theorem failures_are_atomic (config : Config) (env : Environment) :
    (∀ fuel message (ledger after : LayeredLedger) receipt,
      call config env fuel message ledger = some (.ok receipt after) →
      receipt.outcome ≠ .success → SameReads ledger after) ∧
    (∀ fuel message (ledger after : LayeredLedger) receipt,
      create config env fuel message ledger = some (.ok receipt after) →
      receipt.outcome ≠ .success →
      (message.initCode.size ≤ config.maxInitCodeSize ∧
        Covers ledger message.caller message.value →
        NonceRaised message.caller ledger after) ∧
      (¬ (message.initCode.size ≤ config.maxInitCodeSize ∧
        Covers ledger message.caller message.value) → SameReads ledger after)) ∧
    (∀ (state resumed : Running LayeredLedger) request live outcome,
      Execution.step config env ⟨state.top.frame, state.ledger⟩ =
        .ok (some (.call request)) live →
      Resumes config env state outcome resumed →
      (∀ exit ∈ outcome, exit.outcome ≠ .success) →
      SameReads live.ledger resumed.ledger) ∧
    ∀ (state resumed : Running LayeredLedger) request live outcome,
      Execution.step config env ⟨state.top.frame, state.ledger⟩ =
        .ok (some (.create request)) live →
      Resumes config env state outcome resumed →
      (∀ exit ∈ outcome, exit.outcome ≠ .success) →
      (MayCreate config live.frame.context request.value live.ledger →
        NonceRaised live.frame.context.address live.ledger resumed.ledger) ∧
      (¬ MayCreate config live.frame.context request.value live.ledger →
        SameReads live.ledger resumed.ledger) := by
  refine ⟨?_, ?_, ?_, ?_⟩
  · intro fuel message ledger after receipt h hfails
    exact sameReads_of_states_eq (states_of_failed_transaction h hfails)
  · intro fuel message ledger after receipt h hfails
    obtain ⟨hnot, hstates⟩ | ⟨hpasses, hstates⟩ :=
      states_of_failed_deployment h hfails
    · exact ⟨fun hpasses => absurd hpasses hnot,
        fun _ => sameReads_of_states_eq hstates⟩
    · exact ⟨fun _ => nonceRaised_of_states_eq hstates,
        fun hnot => absurd hpasses hnot⟩
  · intro state resumed request live outcome hstep hresumes hfails
    exact sameReads_of_states_eq (states_of_failed_call hstep hresumes hfails)
  · intro state resumed request live outcome hstep hresumes hfails
    obtain ⟨hnot, hstates⟩ | ⟨hmay, hstates⟩ :=
      states_of_failed_creation hstep hresumes hfails
    · exact ⟨fun hmay => absurd hmay hnot,
        fun _ => sameReads_of_states_eq hstates⟩
    · exact ⟨fun _ => nonceRaised_of_states_eq hstates,
        fun hnot => absurd hmay hnot⟩

/-- A ledger with a contract at 2 that stores a row, pays the one at 3 and then
runs into an invalid instruction; the one at 3 stores a row and reverts. -/
def failingTwice : LayeredLedger :=
  (({} : LayeredLedger).install 2 (({ balance := 5 } : Account).withCode
    #[0x60, 1, 0x60, 0, 0x55,
      0x60, 0, 0x60, 0, 0x60, 0, 0x60, 0, 0x60, 4, 0x60, 3,
      0x61, 0xff, 0xff, 0xf1,
      0xfe])).install 3 (({} : Account).withCode
    #[0x60, 7, 0x60, 0, 0x55, 0x60, 0, 0x60, 0, 0xfd])

/-- A frame about to pay 5 out of 10 to a contract that reverts. -/
def payingInVain : Running LayeredLedger where
  top :=
    { frame :=
        { Frame.start #[0xf1] { address := 1 } 100000 with
          stack := [1000, 2, 5, 0, 0, 0, 0] }
      snapshot := 0
      role := .call {} }
  waiting := []
  ledger := (({} : LayeredLedger).install 1 { balance := 10 }).install 2
    (({ nonce := 1 } : Account).withCode #[0x3d, 0x3d, 0xfd])

/-- The payment and the rows of a call that fails are taken back with it, and so
is a payment by a frame that goes on. -/
theorem payments_in_vain_are_taken_back :
    (∃ receipt after,
      call {} {} 30 { caller := 1, target := 2, gas := 200000 } failingTwice =
        some (.ok receipt after) ∧
      receipt.outcome = .halt (.invalidOpcode 0xfe) ∧
      SameReads failingTwice after) ∧
    ∃ request live exit resumed,
      Execution.step {} {} ⟨payingInVain.top.frame, payingInVain.ledger⟩ =
        .ok (some (.call request)) live ∧ request.value = 5 ∧
      Resumes {} {} payingInVain (some exit) resumed ∧
      exit.outcome = .revert ∧ SameReads live.ledger resumed.ledger := by
  obtain ⟨hcalls, _, hchildren, _⟩ := failures_are_atomic {} {}
  constructor
  · have hcall : (ending? (call {} {} 30
        { caller := 1, target := 2, gas := 200000 } failingTwice)).map
          (·.1.outcome) = some (.halt (.invalidOpcode 0xfe)) := by
      decide +kernel
    obtain ⟨⟨receipt, after⟩, hends, houtcome⟩ := Option.map_eq_some_iff.1 hcall
    have hresult := eq_of_ending? hends
    refine ⟨receipt, after, hresult, houtcome, hcalls _ _ _ _ _ hresult ?_⟩
    rw [houtcome]
    nofun
  · obtain ⟨entered, hnext, hdeeper, second, hfirst, hstill, third,
        hsecond, hlast, exit, after, hends, hrevert, resumed, hresumed⟩ :
        ∃ entered, advance {} {} payingInVain = .running entered ∧
          entered.waiting.length = payingInVain.waiting.length + 1 ∧
        ∃ second, advance {} {} entered = .running second ∧
          second.waiting = entered.waiting ∧
        ∃ third, advance {} {} second = .running third ∧
          third.waiting = entered.waiting ∧
        ∃ exit after, turn {} {} third.top third.ledger =
            .concludes (.finished exit after) ∧
          exit.outcome = .revert ∧
        ∃ resumed, advance {} {} third = .running resumed :=
      ⟨_, rfl, rfl, _, rfl, rfl, _, rfl, rfl, _, _, rfl, rfl, _, rfl⟩
    have hruns : RunsAbove {} {} entered.waiting entered third :=
      .tail (.single ⟨hfirst, hstill ▸ List.suffix_rfl⟩)
        ⟨hsecond, hlast ▸ List.suffix_rfl⟩
    have hresumes : Resumes {} {} payingInVain (some exit) resumed :=
      .later hnext hdeeper hruns hlast hends hresumed
    refine ⟨_, _, exit, resumed, rfl, rfl, hresumes, hrevert, ?_⟩
    apply hchildren _ _ _ _ _ rfl hresumes
    rintro _ ⟨⟩
    rw [hrevert]
    nofun

end ContractMachine.Transaction
