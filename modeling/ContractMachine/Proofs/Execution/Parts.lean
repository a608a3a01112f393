import ContractMachine.Execution.Step
import ContractMachine.Proofs.Actions

/-!
# What instructions are made of

Every instruction is put together from a few elementary actions, in which it
pays gas, uses memory, reads the ledger, and, if it is one that changes the
state, gathers effects or writes.  `Part` is the class of all actions that can
be put together so, and `part_perform` finds every instruction in it.

What is to be known of all instructions is then shown once for each elementary
action.
-/

namespace ContractMachine

/-- Whether an instruction may go on in a way: only jumps jump. -/
def Flow.Suits (opcode : Opcode) : Flow → Prop
  | .jump _ => opcode = .jump ∨ opcode = .jumpIf
  | .next _ | .stop _ => True

namespace Execution

open Exec Actions

variable {σ : Type} [Ledger σ]

/-- The questions that instructions ask the ledger. -/
inductive Question : {α : Type} → (σ → Except LedgerError α) → Prop where
  | balance (address : Address) : Question (Ledger.balance · address)
  | isEmpty (address : Address) : Question (Ledger.isEmpty · address)
  | code (address : Address) : Question (Ledger.code · address)
  | codeHash (address : Address) : Question (Ledger.codeHash · address)
  | slot (address : Address) (key : Word) : Question (Ledger.slot · address key)

/-- The actions that may be part of an instruction when it runs for an account,
each with what is known of its result. -/
inductive Part (opcode : Opcode) (address : Address) :
    {α : Type} → (α → Prop) → Exec σ α → Prop where
  | pure {α : Type} {post : α → Prop} {a : α} (h : post a) :
      Part opcode address post (Pure.pure a)
  | halt {α : Type} {post : α → Prop} (cause : Halt) :
      Part opcode address post (halt cause)
  | bind {α β : Type} {mid : α → Prop} {post : β → Prop} {x : Exec σ α}
      {f : α → Exec σ β}
      (hx : Part opcode address mid x) (hf : ∀ a,
        mid a → Part opcode address post (f a)) :
      Part opcode address post (x >>= f)
  | getFrame : Part opcode address (fun frame => frame.context.address =
      address) getFrame
  | ask {α : Type} {read : σ → Except LedgerError α} (h : Question read) :
      Part opcode address (fun _ => True) (ask read)
  | charge (amount : Nat) : Part opcode address (fun _ => True) (charge amount)
  | touch (schedule : Schedule) (offset length : Word) :
      Part opcode address (fun _ => True) (touch schedule offset length)
  | load (range : Range) : Part opcode address (fun _ => True) (load range)
  | remember (f : Memory → Memory) : Part opcode address (fun _ => True)
      (modifyMemory f)
  | gather (f : Effects → Effects) (h : opcode.changesState = true) :
      Part opcode address (fun _ => True) (modifyEffects f)
  | store (key value : Word) (h : opcode = .sstore) :
      Part opcode address (fun _ => True)
        (tell (Ledger.setSlot address key value))
  | send (target : Address) (value : Word) (h : opcode = .selfDestruct) :
      Part opcode address (fun _ => True)
        (tell (Ledger.transfer address target value))

section Instructions

variable {opcode : Opcode} {address : Address} {α : Type} {post : α → Prop}

theorem part_ite {condition : Prop} [Decidable condition] {x y : Exec σ α}
    (hx : Part opcode address post x) (hy : Part opcode address post y) :
    Part opcode address post (if condition then x else y) := by
  by_cases hcondition : condition
  · rw [if_pos hcondition]
    exact hx
  · rw [if_neg hcondition]
    exact hy

/-- An action before which another is made under a condition. -/
theorem part_guarded {condition : Prop} [Decidable condition] {x : Exec σ Unit}
    {f : Unit → Exec σ α} (hx : Part opcode address (fun _ => True) x)
    (hf : Part opcode address post (f ())) :
    Part opcode address post (if condition then x >>= f else f ()) :=
  part_ite (hx.bind fun _ _ => hf) hf

theorem part_copyToMemory (schedule : Schedule) (source : Bytes)
    (target offset length : Word) :
    Part opcode address (fun _ => True)
      (copyToMemory schedule source target offset length : Exec σ Unit) :=
  (Part.touch _ _ _).bind fun _ _ => (Part.charge _).bind fun _ _ => .remember _

theorem part_prepareCall (schedule : Schedule) (kind : CallKind)
    (operand : Nat → Word) :
    Part opcode address (fun _ => True)
      (prepareCall schedule kind operand : Exec σ CallRequest) := by
  refine Part.getFrame.bind fun frame _ => part_guarded (.halt _) ?_
  refine (Part.touch _ _ _).bind fun input _ =>
    (Part.touch _ _ _).bind fun window _ => ?_
  refine part_ite ((Part.ask (.isEmpty _)).bind fun createsAccount _ => ?_)
    ((Part.pure trivial).bind fun createsAccount (_ : True) => ?_)
  all_goals
    exact (Part.charge _).bind fun _ _ => Part.getFrame.bind fun _ _ =>
      (Part.charge _).bind fun _ _ => (Part.load _).bind fun _ _ =>
        .pure trivial

theorem part_prepareCreate (config : Config) (salted : Bool)
    (operand : Nat → Word) :
    Part opcode address (fun _ => True)
      (prepareCreate config salted operand : Exec σ CreateRequest) := by
  rw [prepareCreate]
  apply part_guarded (.halt _)
  exact (Part.touch _ _ _).bind fun _ _ => (Part.charge _).bind fun _ _ =>
    (Part.load _).bind fun _ _ => Part.getFrame.bind fun _ _ =>
      (Part.charge _).bind fun _ _ =>
      .pure trivial

theorem part_selfDestruct (h : opcode = .selfDestruct) (schedule : Schedule)
    (beneficiary : Address) :
    Part opcode address (fun _ => True)
      (selfDestruct schedule beneficiary : Exec σ Unit) := by
  have hchanges : opcode.changesState = true := by rw [h]; rfl
  refine Part.getFrame.bind fun frame haddress => ?_
  rw [haddress]
  refine (Part.ask (.balance _)).bind fun balance _ => part_ite
    ((Part.ask (.isEmpty _)).bind fun isNew _ => ?_) ?_
  · refine part_guarded (.charge _) (Part.getFrame.bind fun _ _ => ?_)
    exact (Part.gather _ hchanges).bind fun _ _ => .send beneficiary balance h
  · refine Part.getFrame.bind fun _ _ => ?_
    exact (Part.gather _ hchanges).bind fun _ _ => .send beneficiary balance h

/-- Every instruction is made of such parts, and only jumps jump. -/
theorem part_perform (config : Config) (env : Environment) (opcode : Opcode)
    (operands : Stack) :
    Part opcode address (Flow.Suits opcode)
      (perform config env opcode operands : Exec σ Flow) := by
  cases opcode with
  | stop | pop | jumpDest => exact .pure trivial
  | jump => exact .pure (.inl rfl)
  | jumpIf =>
    apply Part.pure
    split
    · trivial
    · exact .inr rfl
  | unary f | binary f | ternary f => exact .pure trivial
  | exp => exact (Part.charge _).bind fun _ _ => .pure trivial
  | keccak256 =>
    exact (Part.touch _ _ _).bind fun _ _ => (Part.charge _).bind fun _ _ =>
      (Part.load _).bind fun _ _ => .pure trivial
  | query q => exact Part.getFrame.bind fun _ _ => .pure trivial
  | selfBalance =>
    exact Part.getFrame.bind fun _ _ => (Part.ask (.balance _)).bind fun _ _ =>
      .pure trivial
  | sload =>
    exact Part.getFrame.bind fun _ _ => (Part.ask (.slot _ _)).bind fun _ _ =>
      .pure trivial
  | balance => exact (Part.ask (.balance _)).bind fun _ _ => .pure trivial
  | extCodeSize => exact (Part.ask (.code _)).bind fun _ _ => .pure trivial
  | callDataLoad => exact Part.getFrame.bind fun _ _ => .pure trivial
  | callDataCopy | codeCopy =>
    exact Part.getFrame.bind fun _ _ =>
      (part_copyToMemory _ _ _ _ _).bind fun _ _ =>
      .pure trivial
  | extCodeCopy =>
    exact (Part.ask (.code _)).bind fun _ _ =>
      (part_copyToMemory _ _ _ _ _).bind fun _ _ =>
      .pure trivial
  | extCodeHash =>
    refine (Part.ask (.isEmpty _)).bind fun isEmpty _ => ?_
    exact part_ite (.pure trivial) ((Part.ask (.codeHash _)).bind fun _ _ =>
      .pure trivial)
  | returnDataCopy =>
    refine Part.getFrame.bind fun _ _ => part_guarded (.halt _) ?_
    exact (part_copyToMemory _ _ _ _ _).bind fun _ _ => .pure trivial
  | blockHash =>
    simp only [perform]
    split <;> exact .pure trivial
  | mload =>
    exact (Part.touch _ _ _).bind fun _ _ => (Part.load _).bind fun _ _ =>
      .pure trivial
  | mstore | mstore8 =>
    exact (Part.touch _ _ _).bind fun _ _ => (Part.remember _).bind fun _ _ =>
      .pure trivial
  | sstore =>
    refine Part.getFrame.bind fun frame haddress => ?_
    rw [haddress]
    exact (Part.ask (.slot _ _)).bind fun _ _ => (Part.charge _).bind fun _ _ =>
      (Part.gather _ rfl).bind fun _ _ => (Part.store _ _ rfl).bind fun _ _ =>
        .pure trivial
  | mcopy =>
    exact (Part.touch _ _ _).bind fun _ _ => (Part.touch _ _ _).bind fun _ _ =>
      (Part.charge _).bind fun _ _ => (Part.remember _).bind fun _ _ =>
        .pure trivial
  | push n => exact Part.getFrame.bind fun _ _ => .pure trivial
  | dup n | swap n =>
    simp only [perform]
    split
    · exact .pure trivial
    · exact .halt _
  | log n =>
    exact (Part.touch _ _ _).bind fun _ _ => (Part.charge _).bind fun _ _ =>
      (Part.load _).bind fun _ _ => Part.getFrame.bind fun _ _ =>
        (Part.gather _ rfl).bind fun _ _ => .pure trivial
  | create salted =>
    exact (part_prepareCreate _ _ _).bind fun _ _ => .pure trivial
  | call kind => exact (part_prepareCall _ _ _).bind fun _ _ => .pure trivial
  | «return» | revert =>
    exact (Part.touch _ _ _).bind fun _ _ => (Part.load _).bind fun _ _ =>
      .pure trivial
  | selfDestruct =>
    exact (part_selfDestruct rfl _ _).bind fun _ _ => .pure trivial
  | invalid | undefined byte => exact .halt _

end Instructions

end Execution

end ContractMachine
