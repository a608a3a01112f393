import ContractMachine.Execution.Step
import ContractMachine.Proofs.Ledger.Refinement

/-!
# Instructions on another ledger

Frames use a ledger through its requests only.  A map between two kinds of
ledgers under which every request has the same answer therefore takes what an
instruction does on one to what it does on the other: the instruction fails on
both or on neither, for the same reason, and the frame comes out the same.

`Commutes` is this relation between two actions.  It has one rule for each way
in which actions are put together, and an instruction is followed through by
these rules alone.
-/

namespace ContractMachine

open Actions

/-- Two actions that do the same up to a map of the state. -/
def Commutes {ε σ τ α : Type} (f : σ → τ) (x : EStateM ε σ α)
    (y : EStateM ε τ α) : Prop :=
  ∀ state, y (f state) = mapState f (x state)

section Rules

variable {ε σ τ α β : Type} {f : σ → τ}

theorem commutes_pure (a : α) :
    Commutes f (pure a : EStateM ε σ α) (pure a : EStateM ε τ α) := fun _ => rfl

theorem commutes_throw (cause : ε) :
    Commutes f (throw cause : EStateM ε σ α) (throw cause : EStateM ε τ α) :=
  fun _ => rfl

theorem Commutes.bind {x : EStateM ε σ α} {y : EStateM ε τ α}
    {g : α → EStateM ε σ β} {h : α → EStateM ε τ β} (hxy : Commutes f x y)
    (hgh : ∀ a, Commutes f (g a) (h a)) :
    Commutes f (x >>= g) (y >>= h) := by
  intro state
  have hfirst := hxy state
  cases hx : x state with
  | ok a reached =>
    rw [hx] at hfirst
    rw [bind_of_ok hx, bind_of_ok hfirst]
    exact hgh a reached
  | error cause reached =>
    rw [hx] at hfirst
    rw [bind_of_error hx, bind_of_error hfirst]
    rfl

theorem commutes_ite {condition : Prop} [Decidable condition]
    {x x' : EStateM ε σ α} {y y' : EStateM ε τ α} (hpos : Commutes f x y)
    (hneg : Commutes f x' y') :
    Commutes f (if condition then x else x') (if condition then y else y') := by
  by_cases hcondition : condition
  · rw [if_pos hcondition, if_pos hcondition]
    exact hpos
  · rw [if_neg hcondition, if_neg hcondition]
    exact hneg

/-- An action before which another is made under a condition. -/
theorem commutes_guarded {condition : Prop} [Decidable condition]
    {x : EStateM ε σ Unit} {y : EStateM ε τ Unit} {g : Unit → EStateM ε σ α}
    {h : Unit → EStateM ε τ α} (hxy : Commutes f x y)
    (hgh : Commutes f (g ()) (h ())) :
    Commutes f (if condition then x >>= g else g ()) (if condition then y >>=
      h else h ()) :=
  commutes_ite (hxy.bind fun _ => hgh) hgh

end Rules

/-- A map between ledgers under which every request that running frames make is
answered alike.  Frames do not delete accounts. -/
structure Ledger.RunsAlike {σ τ : Type} [Ledger σ] [Ledger τ] (f : σ → τ) :
    Prop where
  hasAccount : ∀ ledger a,
    Ledger.hasAccount (f ledger) a = Ledger.hasAccount ledger a
  createAccount : ∀ a,
    Commutes f (Ledger.createAccount a) (Ledger.createAccount a)
  balance : ∀ ledger a, Ledger.balance (f ledger) a = Ledger.balance ledger a
  credit : ∀ a amount,
    Commutes f (Ledger.credit a amount) (Ledger.credit a amount)
  debit : ∀ a amount, Commutes f (Ledger.debit a amount) (Ledger.debit a amount)
  nonce : ∀ ledger a, Ledger.nonce (f ledger) a = Ledger.nonce ledger a
  bumpNonce : ∀ a, Commutes f (Ledger.bumpNonce a) (Ledger.bumpNonce a)
  code : ∀ ledger a, Ledger.code (f ledger) a = Ledger.code ledger a
  setCode : ∀ a code, Commutes f (Ledger.setCode a code) (Ledger.setCode a code)
  codeHash : ∀ ledger a, Ledger.codeHash (f ledger) a = Ledger.codeHash ledger a
  slot : ∀ ledger a key, Ledger.slot (f ledger) a key = Ledger.slot ledger a key
  setSlot : ∀ a key value,
    Commutes f (Ledger.setSlot a key value) (Ledger.setSlot a key value)
  openSnapshot : ∀ ledger, Ledger.openSnapshot (f ledger) =
    ((Ledger.openSnapshot ledger).1, f (Ledger.openSnapshot ledger).2)
  commit : ∀ depth, Commutes f (Ledger.commit depth) (Ledger.commit depth)
  rollback : ∀ depth, Commutes f (Ledger.rollback depth) (Ledger.rollback depth)

/-- A map between ledgers under which every request is answered alike. -/
structure Ledger.IsHom {σ τ : Type} [Ledger σ] [Ledger τ] (f : σ → τ) : Prop
    extends Ledger.RunsAlike f where
  deleteAccount : ∀ a,
    Commutes f (Ledger.deleteAccount a) (Ledger.deleteAccount a)

/-- The same frame on another ledger. -/
def Live.map {σ τ : Type} (f : σ → τ) (live : Live σ) : Live τ :=
  ⟨live.frame, f live.ledger⟩

namespace Execution

open Exec

variable {σ τ α : Type} {f : σ → τ}

section Frames

theorem commutes_frame (action : EStateM Halt Frame α) :
    Commutes (Live.map f) (frame action) (frame action) := by
  intro live
  rw [frame, frame, Live.map]
  dsimp only
  cases action live.frame <;> rfl

theorem commutes_charge (amount : Nat) :
    Commutes (Live.map f) (charge amount) (charge amount) := commutes_frame _

theorem commutes_touch (schedule : Schedule) (offset length : Word) :
    Commutes (Live.map f) (touch schedule offset length)
      (touch schedule offset length) :=
  commutes_frame _

theorem commutes_getFrame : Commutes (Live.map f) getFrame getFrame :=
  fun _ => rfl

theorem commutes_modifyFrame (g : Frame → Frame) :
    Commutes (Live.map f) (modifyFrame g) (modifyFrame g) := fun _ => rfl

theorem commutes_load (range : Range) :
    Commutes (Live.map f) (load range) (load range) :=
  fun _ => rfl

theorem commutes_halt (cause : Halt) :
    Commutes (Live.map f) (halt cause : Exec σ α) (halt cause) :=
  commutes_throw _

theorem commutes_ask {read : σ → Except LedgerError α}
    {read' : τ → Except LedgerError α}
    (h : ∀ ledger, read' (f ledger) = read ledger) :
    Commutes (Live.map f) (ask read) (ask read') := by
  intro live
  rw [ask, ask, Live.map]
  dsimp only
  rw [h]
  cases read live.ledger <;> rfl

theorem commutes_tell {write : EStateM LedgerError σ α}
    {write' : EStateM LedgerError τ α} (h : Commutes f write write') :
    Commutes (Live.map f) (tell write) (tell write') := by
  intro live
  simp only [Exec.tell, Live.map, h live.ledger]
  cases write live.ledger <;> rfl

end Frames

variable [Ledger σ] [Ledger τ] (hf : Ledger.RunsAlike f)
include hf

theorem isEmpty_of_runsAlike (ledger : σ) (a : Address) :
    Ledger.isEmpty (f ledger) a = Ledger.isEmpty ledger a := by
  rw [Ledger.isEmpty, Ledger.isEmpty, hf.hasAccount, hf.nonce, hf.balance,
    hf.codeHash]

theorem commutes_transfer (source target : Address) (value : Word) :
    Commutes f (Ledger.transfer source target value)
      (Ledger.transfer source target value) := by
  apply commutes_ite (commutes_pure ())
  apply (hf.debit source value).bind
  intro _
  apply (hf.credit target value).bind
  intro _
  exact commutes_pure ()

omit hf [Ledger σ] [Ledger τ] in
theorem commutes_copyToMemory (schedule : Schedule) (source : Bytes)
    (target offset length : Word) :
    Commutes (Live.map f) (copyToMemory schedule source target offset length)
      (copyToMemory schedule source target offset length) :=
  (commutes_touch _ _ _).bind fun _ => (commutes_charge _).bind fun _ =>
    commutes_modifyFrame _

theorem commutes_prepareCall (schedule : Schedule) (kind : CallKind)
    (operand : Nat → Word) :
    Commutes (Live.map f) (prepareCall schedule kind operand)
      (prepareCall schedule kind operand) := by
  apply commutes_getFrame.bind
  intro frame
  apply commutes_guarded (commutes_halt _)
  apply (commutes_touch _ _ _).bind
  intro input
  apply (commutes_touch _ _ _).bind
  intro window
  refine commutes_ite
    ((commutes_ask fun ledger => isEmpty_of_runsAlike hf ledger _).bind ?_)
    ((commutes_pure false).bind ?_)
  all_goals
    intro createsAccount
    exact (commutes_charge _).bind fun _ => commutes_getFrame.bind fun _ =>
      (commutes_charge _).bind fun _ => (commutes_load _).bind fun _ =>
        commutes_pure _

omit hf [Ledger σ] [Ledger τ] in
theorem commutes_prepareCreate (config : Config) (salted : Bool)
    (operand : Nat → Word) :
    Commutes (Live.map f) (prepareCreate config salted operand)
      (prepareCreate config salted operand) := by
  rw [prepareCreate, prepareCreate]
  apply commutes_guarded (commutes_halt _)
  exact (commutes_touch _ _ _).bind fun _ => (commutes_charge _).bind fun _ =>
    (commutes_load _).bind fun _ => commutes_getFrame.bind fun _ =>
      (commutes_charge _).bind fun _ => commutes_pure _

theorem commutes_selfDestruct (schedule : Schedule) (beneficiary : Address) :
    Commutes (Live.map f) (selfDestruct schedule beneficiary)
      (selfDestruct schedule beneficiary) := by
  apply commutes_getFrame.bind
  intro frame
  apply (commutes_ask fun ledger => hf.balance ledger _).bind
  intro balance
  apply commutes_ite
  · apply (commutes_ask fun ledger => isEmpty_of_runsAlike hf ledger _).bind
    intro isNew
    apply commutes_guarded (commutes_charge _)
    exact commutes_getFrame.bind fun _ => (commutes_modifyFrame _).bind fun _ =>
      commutes_tell (commutes_transfer hf _ _ _)
  · exact commutes_getFrame.bind fun _ => (commutes_modifyFrame _).bind fun _ =>
      commutes_tell (commutes_transfer hf _ _ _)

/-- An instruction does the same on both ledgers. -/
theorem commutes_perform (config : Config) (env : Environment) (opcode : Opcode)
    (operands : Stack) :
    Commutes (Live.map f) (perform config env opcode operands)
      (perform config env opcode operands) := by
  cases opcode with
  | stop | pop | jumpDest | jump | jumpIf | unary | binary | ternary =>
    exact commutes_pure _
  | exp => exact (commutes_charge _).bind fun _ => commutes_pure _
  | keccak256 =>
    exact (commutes_touch _ _ _).bind fun _ => (commutes_charge _).bind fun _ =>
      (commutes_load _).bind fun _ => commutes_pure _
  | query | push | callDataLoad =>
    exact commutes_getFrame.bind fun _ => commutes_pure _
  | selfBalance =>
    exact commutes_getFrame.bind fun _ =>
      (commutes_ask fun ledger => hf.balance ledger _).bind fun _ =>
        commutes_pure _
  | sload =>
    exact commutes_getFrame.bind fun _ =>
      (commutes_ask fun ledger => hf.slot ledger _ _).bind fun _ =>
        commutes_pure _
  | balance =>
    exact (commutes_ask fun ledger => hf.balance ledger _).bind fun _ =>
      commutes_pure _
  | extCodeSize =>
    exact (commutes_ask fun ledger => hf.code ledger _).bind fun _ =>
      commutes_pure _
  | callDataCopy | codeCopy =>
    exact commutes_getFrame.bind fun _ =>
      (commutes_copyToMemory _ _ _ _ _).bind fun _ =>
      commutes_pure _
  | extCodeCopy =>
    exact (commutes_ask fun ledger => hf.code ledger _).bind fun _ =>
      (commutes_copyToMemory _ _ _ _ _).bind fun _ => commutes_pure _
  | extCodeHash =>
    apply (commutes_ask fun ledger => isEmpty_of_runsAlike hf ledger _).bind
    intro isEmpty
    apply commutes_ite (commutes_pure _)
    exact (commutes_ask fun ledger => hf.codeHash ledger _).bind fun _ =>
      commutes_pure _
  | returnDataCopy =>
    apply commutes_getFrame.bind
    intro frame
    apply commutes_guarded (commutes_halt _)
    exact (commutes_copyToMemory _ _ _ _ _).bind fun _ => commutes_pure _
  | blockHash =>
    simp only [perform]
    split <;> exact commutes_pure _
  | mload =>
    exact (commutes_touch _ _ _).bind fun _ => (commutes_load _).bind fun _ =>
      commutes_pure _
  | mstore | mstore8 =>
    exact (commutes_touch _ _ _).bind fun _ =>
      (commutes_modifyFrame _).bind fun _ =>
      commutes_pure _
  | sstore =>
    apply commutes_getFrame.bind
    intro frame
    exact (commutes_ask fun ledger => hf.slot ledger _ _).bind fun _ =>
      (commutes_charge _).bind fun _ => (commutes_modifyFrame _).bind fun _ =>
        (commutes_tell (hf.setSlot _ _ _)).bind fun _ => commutes_pure _
  | mcopy =>
    exact (commutes_touch _ _ _).bind fun _ =>
      (commutes_touch _ _ _).bind fun _ =>
      (commutes_charge _).bind fun _ => (commutes_modifyFrame _).bind fun _ =>
        commutes_pure _
  | dup n | swap n =>
    simp only [perform]
    split
    · exact commutes_pure _
    · exact commutes_halt _
  | log n =>
    exact (commutes_touch _ _ _).bind fun _ => (commutes_charge _).bind fun _ =>
      (commutes_load _).bind fun _ => commutes_getFrame.bind fun _ =>
        (commutes_modifyFrame _).bind fun _ => commutes_pure _
  | create salted =>
    exact (commutes_prepareCreate _ _ _).bind fun _ => commutes_pure _
  | call kind =>
    exact (commutes_prepareCall hf _ _ _).bind fun _ => commutes_pure _
  | «return» | revert =>
    exact (commutes_touch _ _ _).bind fun _ => (commutes_load _).bind fun _ =>
      commutes_pure _
  | selfDestruct =>
    exact (commutes_selfDestruct hf _ _).bind fun _ => commutes_pure _
  | invalid | undefined byte => exact commutes_halt _

omit hf [Ledger σ] [Ledger τ] in
theorem commutes_authorize (schedule : Schedule) (opcode : Opcode) :
    Commutes (Live.map f) (authorize schedule opcode)
      (authorize schedule opcode) := by
  apply commutes_getFrame.bind
  intro frame
  apply commutes_guarded (commutes_halt _)
  apply commutes_guarded (commutes_halt _)
  apply (commutes_charge _).bind
  intro _
  exact commutes_ite (commutes_halt _) (commutes_pure _)

omit hf [Ledger σ] [Ledger τ] in
theorem commutes_proceed (opcode : Opcode) (flow : Flow) :
    Commutes (Live.map f) (proceed opcode flow) (proceed opcode flow) := by
  cases flow with
  | next results => exact (commutes_modifyFrame _).bind fun _ => commutes_pure _
  | jump destination => exact (commutes_frame _).bind fun _ => commutes_pure _
  | stop signal => exact (commutes_modifyFrame _).bind fun _ => commutes_pure _

theorem commutes_step (config : Config) (env : Environment) :
    Commutes (Live.map f) (step config env) (step config env) := by
  apply commutes_getFrame.bind
  intro frame
  cases frame.code[frame.position]? with
  | none => exact commutes_pure _
  | some byte =>
    apply (commutes_authorize config.schedule (Opcode.decode byte)).bind
    intro _
    apply (commutes_modifyFrame _).bind
    intro _
    apply (commutes_perform hf config env _ _).bind
    intro flow
    exact commutes_proceed (Opcode.decode byte) flow

end Execution

end ContractMachine
