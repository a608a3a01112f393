import ContractMachine.Proofs.Execution.Failures
import ContractMachine.Proofs.Ledger.Nonces
import ContractMachine.Proofs.Transaction.Entering

/-!
# What a layered ledger does not turn down

Frames are entered and left by requests that a ledger might turn down.  A
layered ledger does not: value is moved only by an account that has been found
to hold it, starting an account afresh takes no balance away, a fresh nonce can
be counted up, and the snapshot that is closed is the innermost.  What is left
is a nonce that is the largest count, and this is checked before it is counted
up, except at the opening of a creation.
-/

namespace ContractMachine

@[simp]
theorem FlatState.balance_create (state : FlatState) (a other : Address) :
    ((state.create a).held other).balance = (state.held other).balance := by
  by_cases hother : other = a
  · subst other
    simp [held, create, install, put]
  · simp [held, create, install, put, clear, hother]

@[simp]
theorem FlatState.balance_setNonce (state : FlatState) (a other : Address)
    (nonce : Nat) :
    ((state.setNonce a nonce).held other).balance =
      (state.held other).balance := by
  by_cases hother : other = a
  · subst other
    simp [held, setNonce, modify, put]
  · simp [held, setNonce, modify, put, hother]

namespace Transaction

open Actions LayeredLedger

variable {config : Config} {ledger : LayeredLedger}

/-! ## Entering -/

/-- A nonce that is not the largest can be counted up, which takes nothing from
any balance. -/
theorem exists_bumpNonce {a : Address}
    (h : (ledger.states.top.held a).nonce < Saturating.limit) :
    ∃ n bumped, Ledger.bumpNonce a ledger = .ok n bumped ∧
      ∀ other, (bumped.states.top.held other).balance =
        (ledger.states.top.held other).balance := by
  refine ⟨_, _, bumpNonce_of_lt h, fun other => ?_⟩
  rw [states_modifyAccount]
  exact FlatState.balance_setNonce ..

theorem exists_credit {source : Address} (target : Address) {value : Word}
    (h : value ≤ (ledger.states.top.held source).balance) :
    ∃ after, credit source target value ledger = .ok () after := by
  rw [credit]
  by_cases hzero : value = 0
  · rw [if_pos hzero]
    exact ⟨ledger, rfl⟩
  rw [if_neg hzero]
  have hquery : query (Ledger.hasAccount · target) ledger =
      .ok (ledger.account target).isSome ledger := rfl
  rw [bind_of_ok hquery]
  cases (ledger.account target).isSome with
  | true => exact exists_transfer target h
  | false =>
    have hcreate : Ledger.createAccount target ledger =
        .ok () (ledger.create target) := rfl
    rw [Bool.not_false, if_pos rfl, bind_of_ok hcreate]
    refine exists_transfer target ?_
    rw [states_create]
    simpa [StateStack.change] using h

theorem enter_of_ok {α : Type} {prepare : EStateM LedgerError LayeredLedger α}
    {a : α} {after : LayeredLedger}
    (h : prepare (Ledger.openSnapshot ledger).2 = .ok a after) :
    enter prepare ledger = .ok ((Ledger.openSnapshot ledger).1, a) after := by
  rw [enter]
  dsimp only
  rw [h]

theorem top_openSnapshot (ledger : LayeredLedger) :
    (Ledger.openSnapshot ledger).2.states.top = ledger.states.top := by
  change ledger.openSnapshot.states.top = ledger.states.top
  rw [states_openSnapshot]

theorem enterCall_of_ok {context : Context} {moves : Bool}
    {source target : Address} {code : Bytes} {after : LayeredLedger} (gas : Nat)
    (window : Range)
    (h : prepareEntry context moves source target
      (Ledger.openSnapshot ledger).2 =
      .ok code after) :
    enterCall context moves source target gas window ledger =
      .ok ⟨Frame.start code context gas, ledger.depth + 1, .call window⟩
        after :=
  bind_of_ok (enter_of_ok h)

theorem enterCreation_of_ok {creator address : Address} {value : Word}
    {after : LayeredLedger} (initCode : Bytes) (gas depth : Nat)
    (h : prepareAccount creator address value (Ledger.openSnapshot ledger).2 =
      .ok () after) :
    enterCreation creator address value initCode gas depth ledger =
      .ok
        ⟨Frame.start initCode { address, caller := creator, value, depth } gas,
        ledger.depth + 1, .creation address⟩ after :=
  bind_of_ok (enter_of_ok h)

theorem exists_enterCall {context : Context} {moves : Bool} {source : Address}
    (target : Address) (gas : Nat) (window : Range)
    (h : moves = true →
      context.value ≤ (ledger.states.top.held source).balance) :
    ∃ child after, enterCall context moves source target gas window ledger =
      .ok child after := by
  cases moves with
  | false => exact ⟨_, _, enterCall_of_ok gas window rfl⟩
  | true =>
    have hopened : context.value ≤
        ((Ledger.openSnapshot ledger).2.states.top.held source).balance := by
      rw [top_openSnapshot]
      exact h rfl
    obtain ⟨after, hcredit⟩ := exists_credit context.address hopened
    have hprepare : prepareEntry context true source target
        (Ledger.openSnapshot ledger).2 =
        .ok ((after.account target).getD {}).code after := by
      rw [prepareEntry, if_pos rfl, bind_of_ok hcredit]
      rfl
    exact ⟨_, after, enterCall_of_ok gas window hprepare⟩

/-- The new account is fresh, so its nonce can be counted up, and its creator
still holds what it held. -/
theorem exists_enterCreation {creator : Address} (address : Address)
    {value : Word} (initCode : Bytes) (gas depth : Nat)
    (h : value ≤ (ledger.states.top.held creator).balance) :
    ∃ child after,
      enterCreation creator address value initCode gas depth ledger =
        .ok child after := by
  have hcreate : Ledger.createAccount address (Ledger.openSnapshot ledger).2 =
      .ok () (ledger.openSnapshot.create address) := rfl
  have hcreated : (ledger.openSnapshot.create address).states.top =
      ledger.states.top.create address := by
    rw [states_create, StateStack.change, states_openSnapshot]
  have hfresh :
      ((ledger.openSnapshot.create address).states.top.held address).nonce <
      Saturating.limit := by
    rw [hcreated, FlatState.nonce_create]
    decide
  obtain ⟨_, bumped, hbump, hbalance⟩ := exists_bumpNonce hfresh
  have hholds : value ≤ (bumped.states.top.held creator).balance := by
    rw [hbalance, hcreated, FlatState.balance_create]
    exact h
  obtain ⟨after, htransfer⟩ := exists_transfer address hholds
  refine ⟨_, after, enterCreation_of_ok initCode gas depth ?_⟩
  rw [prepareAccount, bind_of_ok hcreate, bind_of_ok hbump, htransfer]

/-! ## Requests and openings -/

theorem lacks_eq (address : Address) (value : Word) (ledger : LayeredLedger) :
    lacks address value ledger =
      .ok (decide ((ledger.states.top.held address).balance < value)) ledger :=
        rfl

theorem exists_isTaken (address : Address) (ledger : LayeredLedger) :
    ∃ taken, isTaken address ledger = .ok taken ledger := by
  have hquery : query (Ledger.nonce · address) ledger =
      .ok (ledger.states.top.held address).nonce ledger := rfl
  rw [isTaken, bind_of_ok hquery]
  by_cases hnonce : (ledger.states.top.held address).nonce ≠ 0
  · rw [if_pos hnonce]
    exact ⟨true, rfl⟩
  · rw [if_neg hnonce]
    exact ⟨_, rfl⟩

theorem exists_meetCall (config : Config) (caller : Context)
    (request : CallRequest) (ledger : LayeredLedger) :
    ∃ response after, meetCall config caller request ledger =
      .ok response after := by
  rw [meetCall]
  by_cases hdepth : config.maxCallDepth < (calleeContext caller request).depth
  · rw [if_pos hdepth]
    exact ⟨_, _, rfl⟩
  rw [if_neg hdepth]
  -- Once the balance has been looked at, if it matters, the call is refused or
  -- entered.
  have hrest : ∀ isShort : Bool,
      (isShort = false → request.kind.takesValue = true →
        (calleeContext caller request).value ≤
          (ledger.states.top.held caller.address).balance) →
      ∃ response after, (if isShort = true then pure .refused else do
        let child ← enterCall (calleeContext caller request)
          request.kind.takesValue
          caller.address request.target request.gas request.window
        pure (.entered child) : EStateM LedgerError LayeredLedger Response)
          ledger = .ok response after := by
    intro isShort hcovers
    cases isShort with
    | true => exact ⟨_, _, rfl⟩
    | false =>
      obtain ⟨child, after, henter⟩ :=
        exists_enterCall request.target request.gas request.window
        (hcovers rfl)
      exact ⟨_, after, bind_of_ok henter⟩
  by_cases htakes : request.kind.takesValue = true
  · rw [if_pos htakes, bind_of_ok (lacks_eq ..)]
    exact hrest _ fun hshort _ => BitVec.not_lt.1 (of_decide_eq_false hshort)
  · rw [if_neg htakes]
    exact hrest false fun _ hmoves => absurd hmoves htakes

/-- Counting up the nonce and what follows it succeeds if the nonce is not the
largest and the value is covered. -/
theorem exists_creation {α : Type} {creator address : Address} {value : Word}
    (initCode : Bytes) (gas depth : Nat) (collided : α)
    (entered : Activation → α)
    (hcovers : value ≤ (ledger.states.top.held creator).balance)
    (hnonce : (ledger.states.top.held creator).nonce < Saturating.limit) :
    ∃ a after, proceedToCreate creator address value initCode gas depth collided
      entered ledger =
      .ok a after := by
  obtain ⟨_, bumped, hbump, hbalance⟩ := exists_bumpNonce hnonce
  obtain ⟨taken, htaken⟩ := exists_isTaken address bumped
  rw [proceedToCreate, bind_of_ok hbump, bind_of_ok htaken]
  cases taken with
  | true => exact ⟨_, _, rfl⟩
  | false =>
    rw [← hbalance] at hcovers
    obtain ⟨child, after, henter⟩ :=
      exists_enterCreation address initCode gas depth hcovers
    exact ⟨_, after, bind_of_ok henter⟩

theorem exists_meetCreation (config : Config) (creator : Context)
    (request : CreateRequest) (hnonces : ledger.states.top.NoncesCount) :
    ∃ response after, meetCreation config creator request ledger =
      .ok response after := by
  rw [meetCreation]
  by_cases hdepth : config.maxCallDepth < creator.depth + 1
  · rw [if_pos hdepth]
    exact ⟨_, _, rfl⟩
  rw [if_neg hdepth, bind_of_ok (lacks_eq ..)]
  by_cases hshort : (ledger.states.top.held creator.address).balance <
    request.value
  · rw [if_pos (decide_eq_true hshort)]
    exact ⟨_, _, rfl⟩
  have hquery : query (Ledger.nonce · creator.address) ledger =
      .ok (ledger.states.top.held creator.address).nonce ledger := rfl
  rw [if_neg (mt of_decide_eq_true hshort), bind_of_ok hquery]
  by_cases hlimit : (ledger.states.top.held creator.address).nonce =
    Saturating.limit
  · rw [if_pos hlimit]
    exact ⟨_, _, rfl⟩
  rw [if_neg hlimit]
  exact exists_creation _ _ _ _ _ (BitVec.not_lt.1 hshort)
    (Nat.lt_of_le_of_ne (hnonces creator.address) hlimit)

theorem exists_openCall (message : CallMessage) (ledger : LayeredLedger) :
    ∃ opening after, openCall message ledger = .ok opening after := by
  rw [openCall, bind_of_ok (lacks_eq ..)]
  by_cases hshort : (ledger.states.top.held message.caller).balance <
    message.value
  · rw [if_pos (decide_eq_true hshort)]
    exact ⟨_, _, rfl⟩
  rw [if_neg (mt of_decide_eq_true hshort)]
  let context : Context :=
    { address := message.target, caller := message.caller,
      value := message.value, data := message.data }
  have hcovers : true = true →
      context.value ≤ (ledger.states.top.held message.caller).balance :=
    fun _ => BitVec.not_lt.1 hshort
  obtain ⟨root, after, henter⟩ :=
    exists_enterCall message.target message.gas {} hcovers
  exact ⟨_, after, bind_of_ok henter⟩

theorem covers_iff {address : Address} {value : Word} :
    Covers ledger address value ↔
    value ≤ (ledger.states.top.held address).balance := by
  constructor
  · rintro ⟨_, hbalance, hle⟩
    cases hbalance
    exact hle
  · exact fun hle => ⟨_, rfl, hle⟩

/-- Whether the opening of a creation runs into the largest nonce. -/
def Overflows (config : Config) (message : CreateMessage)
    (ledger : LayeredLedger) : Prop :=
  message.initCode.size ≤ config.maxInitCodeSize ∧
    Covers ledger message.caller message.value ∧
    Ledger.nonce ledger message.caller = .ok Saturating.limit

theorem openCreation_of_overflows {message : CreateMessage}
    (h : Overflows config message ledger) :
    openCreation config message ledger =
      .error (.nonceOverflow message.caller) ledger := by
  obtain ⟨hsize, hcovers, hnonce⟩ := h
  have hlimit : ¬ (ledger.states.top.held message.caller).nonce <
      Saturating.limit :=
    (Except.ok.inj hnonce).not_lt
  have hquery : query (Ledger.nonce · message.caller) ledger =
      .ok (ledger.states.top.held message.caller).nonce ledger := rfl
  rw [openCreation, if_neg (Nat.not_lt.2 hsize), bind_of_ok (lacks_eq ..),
    if_neg (mt of_decide_eq_true (BitVec.not_lt.2 (covers_iff.1 hcovers))),
    bind_of_ok hquery,
    bind_of_error (bumpNonce_of_not_lt hlimit)]

theorem exists_openCreation {message : CreateMessage}
    (hnonces : ledger.states.top.NoncesCount)
    (h : ¬ Overflows config message ledger) :
    ∃ opening after, openCreation config message ledger =
      .ok opening after := by
  rw [openCreation]
  by_cases hsize : config.maxInitCodeSize < message.initCode.size
  · rw [if_pos hsize]
    exact ⟨_, _, rfl⟩
  rw [if_neg hsize, bind_of_ok (lacks_eq ..)]
  by_cases hshort : (ledger.states.top.held message.caller).balance <
    message.value
  · rw [if_pos (decide_eq_true hshort)]
    exact ⟨_, _, rfl⟩
  have hquery : query (Ledger.nonce · message.caller) ledger =
      .ok (ledger.states.top.held message.caller).nonce ledger := rfl
  have hcovers := BitVec.not_lt.1 hshort
  have hlimit : (ledger.states.top.held message.caller).nonce ≠
      Saturating.limit := by
    intro hlimit
    exact h ⟨Nat.not_lt.1 hsize, covers_iff.2 hcovers,
      congrArg Except.ok hlimit⟩
  rw [if_neg (mt of_decide_eq_true hshort), bind_of_ok hquery]
  exact exists_creation _ _ _ _ _ hcovers
    (Nat.lt_of_le_of_ne (hnonces message.caller) hlimit)

/-! ## Leaving -/

theorem exists_succeed {snapshot : Nat} (h : snapshot = ledger.depth)
    (hopen : 0 < ledger.depth) (frame : Frame) (output : Bytes) :
    ∃ exit after, succeed snapshot frame output ledger = .ok exit after := by
  obtain ⟨after, hcommit⟩ := exists_closeSnapshot hopen fun layer beneath =>
    beneath.merge layer
  rw [← h] at hcommit
  exact ⟨_, after, bind_of_ok hcommit⟩

theorem exists_fail {snapshot : Nat} (h : snapshot = ledger.depth)
    (hopen : 0 < ledger.depth) (gasLeft : Nat) (outcome : Outcome)
    (output : Bytes) :
    ∃ exit after, fail snapshot gasLeft outcome output ledger =
      .ok exit after := by
  obtain ⟨after, hrollback⟩ :=
    exists_closeSnapshot hopen fun _ beneath => beneath
  rw [← h] at hrollback
  exact ⟨_, after, bind_of_ok hrollback⟩

theorem failsOnly_depositCode (config : Config) (address : Address)
    (code : Bytes) :
    Execution.FailsOnly Failure.IsHalt
      (depositCode config address code : Exec LayeredLedger Unit) := by
  rw [depositCode]
  refine Execution.failsOnly_guarded (fun _ =>
    Execution.failsOnly_halt ⟨_, rfl⟩) ?_
  refine Execution.failsOnly_guarded (fun _ =>
    Execution.failsOnly_halt ⟨_, rfl⟩) ?_
  refine (Execution.failsOnly_charge ⟨_, rfl⟩ _).bind fun _ => ?_
  exact Execution.failsOnly_tell fun _ _ _ hrefused => by cases hrefused

theorem depth_depositCode (config : Config) (address : Address) (code : Bytes)
    (live : Live LayeredLedger) :
    (left (depositCode config address code live)).ledger.depth =
      live.ledger.depth := by
  obtain ⟨gas, _, written, hleft, rfl | rfl⟩ :=
    left_depositCode config address code live
  · rw [hleft]
  · rw [hleft]
    exact depth_edit ..

/-- A frame whose snapshot is the innermost can be left. -/
theorem exists_leave {activation : Activation}
    (h : activation.snapshot = ledger.depth) (hopen : 0 < ledger.depth)
    (config : Config) (outcome : Outcome) (output : Bytes) :
    ∃ exit after, leave config activation outcome output ledger =
      .ok exit after := by
  cases outcome with
  | revert | halt cause => exact exists_fail h hopen _ _ _
  | success =>
    cases hrole : activation.role with
    | call window =>
      simp only [leave, hrole]
      exact exists_succeed h hopen _ _
    | creation address =>
      have hdepth :=
        depth_depositCode config address output ⟨activation.frame, ledger⟩
      simp only [leave, hrole]
      cases hdeposit : depositCode config address output
        ⟨activation.frame, ledger⟩ with
      | ok _ live =>
        rw [hdeposit, left] at hdepth
        exact exists_succeed (h.trans hdepth.symm) (hdepth ▸ hopen) _ _
      | error failure live =>
        rw [hdeposit, left] at hdepth
        obtain ⟨cause, rfl⟩ :=
          failsOnly_depositCode config address output _ _ _ hdeposit
        exact exists_fail (h.trans hdepth.symm) (hdepth ▸ hopen) _ _ _

theorem exists_settle (config : Config) (gas : Nat) (created : Option Address)
    (exit : Exit) (ledger : LayeredLedger) :
    ∃ receipt after, settle config gas created exit ledger =
      .ok receipt after := by
  have hdelete : ∀ a (ledger : LayeredLedger), True →
      ∃ after, Ledger.deleteAccount a ledger = .ok () after ∧ True :=
    fun a ledger _ => ⟨ledger.delete a, rfl, trivial⟩
  exact exists_settle_of_deletes hdelete config gas created exit trivial

end Transaction

end ContractMachine
