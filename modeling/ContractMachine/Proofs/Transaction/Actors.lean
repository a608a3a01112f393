import ContractMachine.Proofs.Execution.Static
import ContractMachine.Proofs.Ledger.Writes
import ContractMachine.Proofs.Transaction.Atomicity
import ContractMachine.Proofs.Transaction.Frames

/-!
# On whose behalf a transaction writes

Instructions are acts of the account on which their frame runs, and so is what
that account pays to the frames it enters and the count of its creations.
Entering a frame moreover brings up the account that it will run on: a call
creates it if it is not there, and a creation founds it where no contract has
been.  A frame that ends deploys code if it is a creation, and writes nothing
else.
-/

namespace ContractMachine

/-- Whether a contract may be founded at an address: it has neither nonce nor
code. -/
def FlatState.IsFree (state : FlatState) (a : Address) : Prop :=
  (state.held a).nonce = 0 ∧ (state.held a).codeHash = Keccak.emptyHash

/-- The account at an address is there, or is brought into being. -/
inductive FlatState.Provides (a : Address) (state : FlatState) :
    FlatState → Prop where
  | there : Provides a state state
  | appears (h : state.account a = none) : Provides a state (state.create a)

namespace Transaction

open Actions LayeredLedger FlatState

variable {config : Config} {env : Environment} {ledger after : LayeredLedger}

/-- What entering a frame does to the state that is kept at its opening: the
account of the frame is brought up, and the one that enters it acts. -/
inductive Entry (actor : Address) (child : Activation)
    (state entered : FlatState) : Prop where
  | call {window : Range} {provided : FlatState}
      (hrole : child.role = .call window)
      (hprovides : Provides child.address state provided)
      (hacts : Acts actor provided entered)
  | creation (hrole : child.role = .creation child.address)
      (hfree : state.IsFree child.address)
      (hacts : Acts actor (state.found child.address) entered)

/-- What a frame of a role writes when it ends. -/
def Deploys (config : Config) (role : Role) (state ended : FlatState) : Prop :=
  match role with
  | .call _ => ended = state
  | .creation a =>
    ∃ code, Deployable config code ∧ ended = state.modify a (·.withCode code)

/-! ## Entering -/

theorem acts_of_credit {source target : Address} {value : Word}
    (h : credit source target value ledger = .ok () after) :
    ∃ provided, Provides target ledger.states.top provided ∧
      Acts source provided after.states.top := by
  rw [credit] at h
  by_cases hvalue : value = 0
  · rw [if_pos hvalue] at h
    obtain ⟨_, rfl⟩ := pure_eq_ok_iff.1 h
    exact ⟨_, .there, .refl⟩
  rw [if_neg hvalue] at h
  have hquery : query (Ledger.hasAccount · target) ledger =
      .ok (ledger.account target).isSome ledger := rfl
  rw [bind_of_ok hquery] at h
  cases haccount : ledger.account target with
  | none =>
    have hcreate : Ledger.createAccount target ledger =
        .ok () (ledger.create target) := rfl
    rw [haccount, Option.isSome_none, Bool.not_false, if_pos rfl,
      bind_of_ok hcreate] at h
    have hacts := acts_of_transfer h
    rw [states_create] at hacts
    exact ⟨_, .appears haccount, hacts⟩
  | some account =>
    rw [haccount, Option.isSome_some, Bool.not_true,
      if_neg Bool.false_ne_true] at h
    exact ⟨_, .there, acts_of_transfer h⟩

theorem acts_of_prepareEntry {context : Context} {moves : Bool}
    {source target : Address} {code : Bytes}
    (h : prepareEntry context moves source target ledger = .ok code after) :
    ∃ provided, Provides context.address ledger.states.top provided ∧
      Acts source provided after.states.top := by
  cases moves with
  | false =>
    have hquery : query (Ledger.code · target) ledger = .ok code after := h
    obtain ⟨_, rfl⟩ := query_eq_ok hquery
    exact ⟨_, .there, .refl⟩
  | true =>
    obtain ⟨_, reached, hcredit, hquery⟩ := bind_eq_ok_iff.1 h
    obtain ⟨_, rfl⟩ := query_eq_ok hquery
    exact acts_of_credit hcredit

theorem acts_of_prepareAccount {creator address : Address} {value : Word}
    (h : prepareAccount creator address value ledger = .ok () after) :
    Acts creator (ledger.states.top.found address) after.states.top := by
  have hcreate : Ledger.createAccount address ledger =
      .ok () (ledger.create address) := rfl
  rw [prepareAccount, bind_of_ok hcreate] at h
  obtain ⟨n, bumped, hbump, htransfer⟩ := bind_eq_ok_iff.1 h
  have hfound : bumped.states.top = ledger.states.top.found address := by
    rw [states_of_bumpNonce hbump, states_create, StateStack.change,
      StateStack.change]
    dsimp only
    rw [nonce_create, found]
  rw [← hfound]
  exact acts_of_transfer htransfer

theorem entry_of_enterCall {context : Context} {moves : Bool}
    {source target : Address} {gas : Nat} {window : Range} {child : Activation}
    (h : enterCall context moves source target gas window ledger =
      .ok child after) :
    Entry source child ledger.states.top after.states.top := by
  obtain ⟨code, hframe, hrole, hprepare⟩ := enterCall_eq_ok h
  have haddress : child.address = context.address := by
    rw [Activation.address, hframe]; rfl
  obtain ⟨provided, hprovides, hacts⟩ := acts_of_prepareEntry hprepare
  have hopened := congrArg StateStack.top (states_openSnapshot ledger)
  exact .call hrole (haddress ▸ hopened ▸ hprovides) hacts

theorem entry_of_enterCreation {creator address : Address} {value : Word}
    {initCode : Bytes} {gas depth : Nat} {child : Activation}
    (hfree : isTaken address ledger = .ok false ledger)
    (h : enterCreation creator address value initCode gas depth ledger =
      .ok child after) :
    Entry creator child ledger.states.top after.states.top := by
  obtain ⟨hframe, hrole, hprepare⟩ := enterCreation_eq_ok h
  have haddress : child.address = address := by
    rw [Activation.address, hframe]; rfl
  obtain ⟨hnonce, hhash⟩ := free_of_isTaken hfree
  have hfree : ledger.states.top.IsFree child.address := by
    rw [haddress]
    exact ⟨Except.ok.inj hnonce, Except.ok.inj hhash⟩
  have hopened := congrArg StateStack.top (states_openSnapshot ledger)
  have hacts := acts_of_prepareAccount hprepare
  exact .creation (haddress ▸ hrole) hfree (haddress ▸ hopened ▸ hacts)

/-- What is left of a creation that has passed the first checks. -/
theorem acts_of_proceedToCreate {α : Type} {creator address : Address}
    {value : Word} {initCode : Bytes} {gas depth : Nat} {collided a : α}
    {entered : Activation → α}
    (h : proceedToCreate creator address value initCode gas depth collided
      entered ledger =
      .ok a after) :
    ∃ mid, Acts creator ledger.states.top mid ∧
      (a = collided ∧ after.states.top = mid ∨
        ∃ child, a = entered child ∧
          after.states.below = mid :: ledger.states.below ∧
          Entry creator child mid after.states.top) := by
  obtain ⟨n, bumped, hbump, hrest⟩ := proceedToCreate_eq_ok h
  have hcounts := acts_bumpNonce creator ledger
  rw [hbump, left] at hcounts
  refine ⟨_, hcounts, ?_⟩
  obtain ⟨rfl, rfl⟩ | ⟨child, rfl, hfree, henter⟩ := hrest
  · exact .inl ⟨rfl, rfl⟩
  · refine .inr ⟨child, rfl, ?_, entry_of_enterCreation hfree henter⟩
    rw [below_of_enterCreation henter, StateStack.levels,
      states_of_bumpNonce hbump]
    rfl

/-! ## One turn -/

theorem acts_of_step (live : Live LayeredLedger) :
    Acts live.frame.context.address live.ledger.states.top
      (left (Execution.step config env live)).ledger.states.top := by
  have hlift := Execution.Moves.lift
    (R := fun before after : Live LayeredLedger =>
      after.frame.context = before.frame.context ∧
        Acts before.frame.context.address before.ledger.states.top
          after.ledger.states.top)
    (fun _ => ⟨rfl, .refl⟩)
    (fun hfirst hsecond => ⟨hsecond.1.trans hfirst.1,
      hfirst.2.trans (hfirst.1 ▸ hsecond.2)⟩)
    (fun hmove => ?_) (Execution.moves_step config env live)
  · exact hlift.2
  cases hmove with
  | spend | work | gather => exact ⟨rfl, .refl⟩
  | store key value _ => exact ⟨rfl, acts_setSlot _ key value _⟩
  | send target value _ => exact ⟨rfl, acts_transfer _ target value _⟩

theorem acts_of_meets {live : Live LayeredLedger} {signal : Signal}
    {response : Response} (h : Meets config live signal response after) :
    ∃ mid, Acts live.frame.context.address live.ledger.states.top mid ∧
      match response with
      | .entered child => after.states.below = mid :: live.ledger.states.below ∧
          Entry live.frame.context.address child mid after.states.top
      | .refused | .collided => after.states.top = mid := by
  cases h with
  | call h =>
    obtain ⟨rfl, rfl⟩ | ⟨child, rfl, henter⟩ := meetCall_eq_ok h
    · exact ⟨_, .refl, rfl⟩
    · exact ⟨_, .refl, below_of_enterCall henter, entry_of_enterCall henter⟩
  | create h =>
    obtain ⟨_, rfl, rfl⟩ | ⟨_, address, hcreate⟩ := meetCreation_cases h
    · exact ⟨_, .refl, rfl⟩
    obtain ⟨mid, hacts, ⟨rfl, htop⟩ | ⟨child, rfl, hentry⟩⟩ :=
      acts_of_proceedToCreate hcreate
    · exact ⟨mid, hacts, htop⟩
    · exact ⟨mid, hacts, hentry⟩

section Turns

variable {top child : Activation} {frame : Frame}

theorem acts_of_continues
    (h : turn config env top ledger = .continues frame after) :
    Acts top.address ledger.states.top after.states.top := by
  have hstepped : Acts top.address ledger.states.top
      (left (Execution.step config env
        ⟨top.frame, ledger⟩)).ledger.states.top :=
    acts_of_step ⟨top.frame, ledger⟩
  have hcontext := Execution.context_step config env ⟨top.frame, ledger⟩
  obtain hstep | ⟨signal, live, response, hstep, hmeets, hanswer⟩ :=
    turn_eq_continues h
  · rw [hstep] at hstepped
    exact hstepped
  · rw [hstep] at hstepped hcontext
    have haddress : live.frame.context.address = top.address :=
      congrArg Context.address hcontext
    obtain ⟨mid, hacts, hmet⟩ := acts_of_meets hmeets
    rw [haddress] at hacts
    have htop : after.states.top = mid := by
      obtain ⟨rfl, _⟩ | ⟨rfl, _⟩ := hanswer
      · exact hmet
      · exact hmet
    rw [htop]
    exact hstepped.trans hacts

theorem acts_of_enters
    (h : turn config env top ledger = .enters frame child after) :
    ∃ mid, Acts top.address ledger.states.top mid ∧
      after.states.below = mid :: ledger.states.below ∧
      Entry top.address child mid after.states.top := by
  obtain ⟨signal, live, hstep, _, hmeets⟩ := turn_eq_enters h
  have hstepped : Acts top.address ledger.states.top
      (left (Execution.step config env
        ⟨top.frame, ledger⟩)).ledger.states.top :=
    acts_of_step ⟨top.frame, ledger⟩
  have hbelow :
      (left (Execution.step config env
        ⟨top.frame, ledger⟩)).ledger.states.below =
      ledger.states.below := below_of_step ⟨top.frame, ledger⟩
  have hcontext := Execution.context_step config env ⟨top.frame, ledger⟩
  rw [hstep] at hstepped hbelow hcontext
  have haddress : live.frame.context.address = top.address :=
    congrArg Context.address hcontext
  obtain ⟨mid, hacts, hkept, hentry⟩ := acts_of_meets hmeets
  rw [haddress] at hacts hentry
  rw [show live.ledger.states.below = _ from hbelow] at hkept
  exact ⟨mid, hstepped.trans hacts, hkept, hentry⟩

theorem acts_of_finished {exit : Exit}
    (h : turn config env top ledger = .concludes (.finished exit after))
    (hsuccess : exit.outcome = .success) :
    ∃ reached, Acts top.address ledger.states.top reached ∧
      Deploys config top.role reached after.states.top := by
  obtain ⟨live, outcome, output, hlive, hleave⟩ := turn_eq_finished h
  have hstepped : Acts top.address ledger.states.top
      live.ledger.states.top := by
    rw [← hlive]
    exact acts_of_step ⟨top.frame, ledger⟩
  refine ⟨_, hstepped, ?_⟩
  obtain ⟨_, written, hcommit, hwritten⟩ := leave_eq_success hleave hsuccess
  obtain ⟨_, _, _, hstates⟩ := states_of_commit hcommit
  rw [hstates]
  dsimp only at hwritten
  cases hrole : top.role with
  | call window =>
    rw [hrole] at hwritten
    rw [hwritten]
    rfl
  | creation address =>
    rw [hrole] at hwritten
    obtain ⟨hdeployable, hset⟩ := hwritten
    cases hset
    exact ⟨output, hdeployable,
      congrArg StateStack.top (states_modifyAccount _ _ _)⟩

end Turns

/-! ## Openings -/

/-- What a caller's transaction does before its first instruction: the caller
acts, and if a frame is entered, the state that this leaves is kept. -/
def Begins (caller : Address) (ledger : LayeredLedger) (opened : Opening)
    (after : LayeredLedger) : Prop :=
  ∃ mid, Acts caller ledger.states.top mid ∧
    match opened with
    | .settled _ => after.states.top = mid
    | .entered root _ => after.states.below = mid :: ledger.states.below ∧
        Entry caller root mid after.states.top

theorem begins_of_openCall {message : CallMessage} {opened : Opening}
    (h : openCall message ledger = .ok opened after) :
    Begins message.caller ledger opened after := by
  obtain ⟨rfl, rfl⟩ | ⟨root, _, rfl, henter⟩ := openCall_eq_ok h
  · exact ⟨_, .refl, rfl⟩
  · exact ⟨_, .refl, below_of_enterCall henter, entry_of_enterCall henter⟩

theorem begins_of_openCreation {message : CreateMessage} {opened : Opening}
    (h : openCreation config message ledger = .ok opened after) :
    Begins message.caller ledger opened after := by
  obtain ⟨_, ⟨_, _, rfl⟩, rfl⟩ | ⟨_, address, hcreate⟩ := openCreation_cases h
  · exact ⟨_, .refl, rfl⟩
  obtain ⟨mid, hacts, ⟨rfl, htop⟩ | ⟨root, rfl, hentry⟩⟩ :=
    acts_of_proceedToCreate hcreate
  · exact ⟨mid, hacts, htop⟩
  · exact ⟨mid, hacts, hentry⟩

end Transaction

end ContractMachine
