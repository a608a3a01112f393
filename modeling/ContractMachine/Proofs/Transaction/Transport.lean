import ContractMachine.Proofs.Execution.Transport
import ContractMachine.Transaction.Receipt

/-!
# Transactions on another ledger

A map between ledgers under which every request is answered alike takes whole
transactions to whole transactions: the same frames are entered and left, and
the receipt, or the failure, is the same.  So a ledger may be put behind a
wrapper that watches the requests, and what the wrapper sees is what happens
without it.
-/

namespace ContractMachine

variable {σ τ α : Type}

/-- The same frames on another ledger. -/
def Running.map (f : σ → τ) (state : Running σ) : Running τ :=
  ⟨state.top, state.waiting, f state.ledger⟩

/-- The same conclusion with another ledger. -/
def Conclusion.map (f : σ → τ) : Conclusion σ → Conclusion τ
  | .finished exit ledger => .finished exit (f ledger)
  | .failed cause unfinished ledger => .failed cause unfinished (f ledger)

/-- The same progress with another ledger. -/
def Progress.map (f : σ → τ) : Progress σ → Progress τ
  | .running state => .running (state.map f)
  | .concluded conclusion => .concluded (conclusion.map f)

namespace Transaction

open Execution

variable {f : σ → τ}

theorem commutes_query {read : σ → Except LedgerError α}
    {read' : τ → Except LedgerError α}
    (h : ∀ ledger, read' (f ledger) = read ledger) :
    Commutes f (query read) (query read') := by
  intro ledger
  rw [query, query, h]
  cases read ledger <;> rfl

/-- What goes on after an answer does not depend on the ledger. -/
theorem continueWith_map (top : Activation) (waiting : List Activation)
    (gas : Nat) (response : Response) (ledger : σ) :
    continueWith top waiting gas response (f ledger) =
      (continueWith top waiting gas response ledger).map f := by
  cases response with
  | entered child => rfl
  | refused =>
    simp only [continueWith]
    split <;> rfl
  | collided =>
    simp only [continueWith]
    split <;> rfl

theorem meet_map {response : EStateM LedgerError σ Response}
    {response' : EStateM LedgerError τ Response}
    (h : Commutes f response response') (top : Activation)
    (waiting : List Activation) (gas : Nat) (ledger : σ) :
    meet top waiting gas response' (f ledger) =
      (meet top waiting gas response ledger).map f := by
  rw [meet, meet, h ledger]
  cases response ledger with
  | ok met after => exact continueWith_map top waiting gas met after
  | error cause after => rfl

section Running

variable [Ledger σ] [Ledger τ] (hf : Ledger.RunsAlike f)
include hf

/-! ## Entering and leaving -/

theorem commutes_enter {prepare : EStateM LedgerError σ α}
    {prepare' : EStateM LedgerError τ α} (h : Commutes f prepare prepare') :
    Commutes f (enter prepare) (enter prepare') := by
  intro ledger
  simp only [enter, hf.openSnapshot, h (Ledger.openSnapshot ledger).2]
  cases prepare (Ledger.openSnapshot ledger).2 with
  | ok result after => rfl
  | error cause after =>
    simp only [mapState, hf.rollback _ after]
    cases Ledger.rollback (Ledger.openSnapshot ledger).1 after <;> rfl

theorem commutes_lacks (address : Address) (value : Word) :
    Commutes f (lacks address value) (lacks address value) :=
  (commutes_query fun ledger => hf.balance ledger _).bind fun _ =>
    commutes_pure _

theorem commutes_credit (source target : Address) (value : Word) :
    Commutes f (credit source target value) (credit source target value) := by
  apply commutes_ite (commutes_pure ())
  apply (commutes_query fun ledger => hf.hasAccount ledger _).bind
  intro isThere
  exact commutes_guarded (hf.createAccount target) (commutes_transfer hf _ _ _)

theorem commutes_isTaken (address : Address) :
    Commutes f (isTaken address) (isTaken address) := by
  apply (commutes_query fun ledger => hf.nonce ledger _).bind
  intro nonce
  apply commutes_ite (commutes_pure true)
  exact (commutes_query fun ledger => hf.codeHash ledger _).bind fun _ =>
    commutes_pure _

theorem commutes_enterCall (context : Context) (moves : Bool)
    (source target : Address) (gas : Nat) (window : Range) :
    Commutes f (enterCall context moves source target gas window)
      (enterCall context moves source target gas window) := by
  refine (commutes_enter hf ?_).bind fun _ => commutes_pure _
  apply commutes_guarded (commutes_credit hf _ _ _)
  exact commutes_query fun ledger => hf.code ledger _

theorem commutes_enterCreation (creator address : Address) (value : Word)
    (initCode : Bytes) (gas depth : Nat) :
    Commutes f (enterCreation creator address value initCode gas depth)
      (enterCreation creator address value initCode gas depth) := by
  refine (commutes_enter hf ?_).bind fun _ => commutes_pure _
  exact (hf.createAccount _).bind fun _ => (hf.bumpNonce _).bind fun _ =>
    commutes_transfer hf _ _ _

theorem commutes_depositCode (config : Config) (address : Address)
    (code : Bytes) :
    Commutes (Live.map f) (depositCode config address code)
      (depositCode config address code) := by
  rw [depositCode, depositCode]
  apply commutes_guarded (commutes_halt _)
  apply commutes_guarded (commutes_halt _)
  exact (commutes_charge _).bind fun _ => commutes_tell (hf.setCode _ _)

theorem commutes_succeed (snapshot : Nat) (frame : Frame) (output : Bytes) :
    Commutes f (succeed snapshot frame output)
      (succeed snapshot frame output) :=
  (hf.commit snapshot).bind fun _ => commutes_pure _

theorem commutes_fail (snapshot gasLeft : Nat) (outcome : Outcome)
    (output : Bytes) :
    Commutes f (fail snapshot gasLeft outcome output)
      (fail snapshot gasLeft outcome output) :=
  (hf.rollback snapshot).bind fun _ => commutes_pure _

theorem commutes_leave (config : Config) (activation : Activation)
    (outcome : Outcome) (output : Bytes) :
    Commutes f (leave config activation outcome output)
      (leave config activation outcome output) := by
  intro ledger
  cases outcome with
  | revert | halt cause => exact commutes_fail hf _ _ _ _ ledger
  | success =>
    cases hrole : activation.role with
    | call window =>
      simp only [leave, hrole]
      exact commutes_succeed hf _ _ _ ledger
    | creation address =>
      have hdeposit := commutes_depositCode hf config address output
        ⟨activation.frame, ledger⟩
      rw [Live.map] at hdeposit
      simp only [leave, hrole, hdeposit]
      cases depositCode config address output ⟨activation.frame, ledger⟩ with
      | ok _ live => exact commutes_succeed hf _ _ _ live.ledger
      | error failure live =>
        cases failure with
        | halt cause => exact commutes_fail hf _ _ _ _ live.ledger
        | ledger cause =>
          simp only [mapState, Live.map, hf.rollback _ live.ledger]
          cases Ledger.rollback activation.snapshot live.ledger <;> rfl

/-! ## Running -/

theorem commutes_meetCall (config : Config) (caller : Context)
    (request : CallRequest) :
    Commutes f (meetCall config caller request)
      (meetCall config caller request) := by
  apply commutes_ite (commutes_pure _)
  refine commutes_ite ((commutes_lacks hf _ _).bind ?_)
    ((commutes_pure false).bind ?_)
  all_goals
    intro isShort
    apply commutes_ite (commutes_pure _)
    exact (commutes_enterCall hf _ _ _ _ _ _).bind fun _ => commutes_pure _

theorem commutes_meetCreation (config : Config) (creator : Context)
    (request : CreateRequest) :
    Commutes f (meetCreation config creator request)
      (meetCreation config creator request) := by
  apply commutes_ite (commutes_pure _)
  apply (commutes_lacks hf _ _).bind
  intro isShort
  apply commutes_ite (commutes_pure _)
  apply (commutes_query fun ledger => hf.nonce ledger _).bind
  intro nonce
  apply commutes_ite (commutes_pure _)
  apply (hf.bumpNonce _).bind
  intro _
  apply (commutes_isTaken hf _).bind
  intro isTaken
  apply commutes_ite (commutes_pure _)
  exact (commutes_enterCreation hf _ _ _ _ _ _).bind fun _ => commutes_pure _

theorem finish_map (config : Config) (top : Activation)
    (waiting : List Activation) (outcome : Outcome) (output : Bytes)
    (ledger : σ) :
    finish config top waiting outcome output (f ledger) =
      (finish config top waiting outcome output ledger).map f := by
  rw [finish, finish, commutes_leave hf config top outcome output ledger]
  cases leave config top outcome output ledger with
  | error cause after => rfl
  | ok exit after =>
    cases waiting with
    | nil => rfl
    | cons parent below =>
      simp only [mapState]
      cases parent.frame.resume top.role exit <;> rfl

theorem advance_map (config : Config) (env : Environment) (state : Running σ) :
    advance config env (state.map f) = (advance config env state).map f := by
  have hstep := commutes_step hf config env ⟨state.top.frame, state.ledger⟩
  rw [Live.map] at hstep
  rw [advance, advance, Running.map]
  dsimp only
  rw [hstep]
  cases Execution.step config env ⟨state.top.frame, state.ledger⟩ with
  | error failure live =>
    cases failure with
    | halt cause => exact finish_map hf config _ _ _ _ live.ledger
    | ledger cause => rfl
  | ok signal live =>
    cases signal with
    | none => rfl
    | some signal =>
      cases signal with
      | call request =>
        exact meet_map (commutes_meetCall hf config _ request) _ _ _ live.ledger
      | create request =>
        exact meet_map (commutes_meetCreation hf config _ request) _ _ _
          live.ledger
      | «return» output => exact finish_map hf config _ _ _ _ live.ledger
      | revert output => exact finish_map hf config _ _ _ _ live.ledger

theorem drive_map (config : Config) (env : Environment) (fuel : Nat)
    (state : Running σ) :
    drive config env fuel (state.map f) =
      (drive config env fuel state).map (Conclusion.map f) := by
  induction fuel generalizing state with
  | zero => rfl
  | succ fuel ih =>
    rw [drive, drive, advance_map hf]
    cases advance config env state with
    | running next => exact ih next
    | concluded conclusion => rfl

/-! ## Opening and abandoning -/

theorem commutes_openCall (message : CallMessage) :
    Commutes f (openCall message) (openCall message) := by
  apply (commutes_lacks hf _ _).bind
  intro isShort
  apply commutes_ite (commutes_pure _)
  exact (commutes_enterCall hf _ _ _ _ _ _).bind fun _ => commutes_pure _

theorem commutes_openCreation (config : Config) (message : CreateMessage) :
    Commutes f (openCreation config message) (openCreation config message) := by
  apply commutes_ite (commutes_pure _)
  apply (commutes_lacks hf _ _).bind
  intro isShort
  apply commutes_ite (commutes_pure _)
  apply (commutes_query fun ledger => hf.nonce ledger _).bind
  intro nonce
  apply (hf.bumpNonce _).bind
  intro _
  apply (commutes_isTaken hf _).bind
  intro isTaken
  apply commutes_ite (commutes_pure _)
  exact (commutes_enterCreation hf _ _ _ _ _ _).bind fun _ => commutes_pure _

theorem abandon_map (unfinished : List Activation) (ledger : σ) :
    abandon unfinished (f ledger) = f (abandon unfinished ledger) := by
  induction unfinished generalizing ledger with
  | nil => rfl
  | cons activation rest ih =>
    rw [abandon, abandon, List.foldl_cons, List.foldl_cons,
      hf.rollback _ ledger]
    cases Ledger.rollback activation.snapshot ledger with
    | ok _ after | error cause after => exact ih after

end Running

/-! ## Whole transactions -/

variable [Ledger σ] [Ledger τ] (hf : Ledger.IsHom f)
include hf

theorem commutes_deletes (deleted : List Address) :
    Commutes f (deleted.forM Ledger.deleteAccount)
      (deleted.forM Ledger.deleteAccount) := by
  induction deleted with
  | nil => exact commutes_pure _
  | cons a rest ih => exact (hf.deleteAccount a).bind fun _ => ih

theorem commutes_settle (config : Config) (gas : Nat) (created : Option Address)
    (exit : Exit) :
    Commutes f (settle config gas created exit)
      (settle config gas created exit) := by
  rw [settle, settle]
  cases exit.outcome with
  | success => exact (commutes_deletes hf _).bind fun _ => commutes_pure _
  | revert | halt => exact commutes_pure _

/-- A transaction that is opened alike on two ledgers goes alike. -/
theorem transact_map {opening : EStateM LedgerError σ Opening}
    {opening' : EStateM LedgerError τ Opening} (h : Commutes f opening opening')
    (config : Config) (env : Environment) (fuel gas : Nat) (ledger : σ) :
    transact config env fuel gas opening' (f ledger) =
      (transact config env fuel gas opening ledger).map (mapState f) := by
  rw [transact, transact, h ledger]
  cases opening ledger with
  | error cause after => rfl
  | ok opened after =>
    cases opened with
    | settled receipt => rfl
    | entered root created =>
      have hdrive := drive_map hf.toRunsAlike config env fuel ⟨root, [], after⟩
      rw [Running.map] at hdrive
      simp only [mapState, hdrive]
      cases drive config env fuel ⟨root, [], after⟩ with
      | none => rfl
      | some conclusion =>
        cases conclusion with
        | failed cause unfinished reached =>
          simp only [Option.map_some, Conclusion.map,
            abandon_map hf.toRunsAlike, mapState]
        | finished exit reached =>
          simp only [Option.map_some, Conclusion.map,
            commutes_settle hf config gas created exit reached]
          cases settle config gas created exit reached <;> rfl

theorem call_map (config : Config) (env : Environment) (fuel : Nat)
    (message : CallMessage) (ledger : σ) :
    call config env fuel message (f ledger) =
      (call config env fuel message ledger).map (mapState f) :=
  transact_map hf (commutes_openCall hf.toRunsAlike message) config env fuel
    message.gas ledger

theorem create_map (config : Config) (env : Environment) (fuel : Nat)
    (message : CreateMessage) (ledger : σ) :
    create config env fuel message (f ledger) =
      (create config env fuel message ledger).map (mapState f) :=
  transact_map hf (commutes_openCreation hf.toRunsAlike config message) config
    env fuel message.gas ledger

end Transaction

end ContractMachine
