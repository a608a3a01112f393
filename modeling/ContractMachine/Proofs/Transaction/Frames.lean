import ContractMachine.Proofs.Transaction.GasConservation

/-!
# What holds of every live frame

A frame is changed by its own steps, by the answers to what it asks for, and by
the exits of the frames it has had entered; and all that such an exit passes on,
if it is a success, are the effects of the frame that has ended.  A property of
frames that all this keeps, and that a frame has when it begins to run on a good
account, holds of all live frames of a transaction whose frames run on good
accounts only.
-/

namespace ContractMachine

/-- The account on which a frame runs. -/
def Activation.address (activation : Activation) : Address :=
  activation.frame.context.address

namespace Transaction

open Actions

variable {σ : Type} [Ledger σ] {config : Config} {env : Environment}
  {ledger after : σ} {good : Address → Prop} {P : Frame → Prop}

/-- A property of single frames that is kept while they run on good accounts. -/
structure FrameInvariant (σ : Type) [Ledger σ] (config : Config)
    (env : Environment) (good : Address → Prop) (P : Frame → Prop) : Prop where
  start : ∀ code context gas,
    good context.address → P (Frame.start code context gas)
  step : ∀ {frame} (ledger : σ), P frame →
    P (left (Execution.step config env ⟨frame, ledger⟩)).frame
  refuse : ∀ {frame answered gas}, P frame → frame.refuse gas = .ok answered →
    P answered
  collide : ∀ {frame answered}, P frame → frame.answer #[] 0 = .ok answered →
    P answered
  resume : ∀ {parent frame role exit}, P parent →
    (exit.outcome = .success → ∃ child,
      P child ∧ exit.effects = child.effects) →
    parent.resume role exit = .ok frame → P frame

/-- Every frame that comes to run in a transaction runs on a good account. -/
def RunsOn (config : Config) (env : Environment) (good : Address → Prop)
    (state : Running σ) : Prop :=
  ∀ reached, Reaches config env state reached → good reached.top.address

/-- A property holds of all live frames. -/
def Throughout (P : Frame → Prop) (state : Running σ) : Prop :=
  ∀ activation ∈ state.top :: state.waiting, P activation.frame

namespace FrameInvariant

variable {top child : Activation} {frame : Frame}

theorem of_enterCall (h : FrameInvariant σ config env good P)
    {context : Context} {moves : Bool} {source target : Address} {gas : Nat}
    {window : Range} (hchild : good child.address)
    (henter : enterCall context moves source target gas window ledger =
      .ok child after) :
    P child.frame := by
  obtain ⟨code, hframe, _⟩ := enterCall_eq_ok henter
  rw [Activation.address, hframe] at hchild
  rw [hframe]
  exact h.start code context gas hchild

theorem of_enterCreation (h : FrameInvariant σ config env good P)
    {creator address : Address} {value : Word} {initCode : Bytes}
    {gas depth : Nat} (hchild : good child.address)
    (henter : enterCreation creator address value initCode gas depth ledger =
      .ok child after) :
    P child.frame := by
  obtain ⟨hframe, _⟩ := enterCreation_eq_ok henter
  rw [Activation.address, hframe] at hchild
  rw [hframe]
  exact h.start initCode _ gas hchild

theorem of_continues (h : FrameInvariant σ config env good P)
    (htop : P top.frame)
    (hturn : turn config env top ledger = .continues frame after) :
    P frame := by
  have hstepped := h.step ledger htop
  obtain hstep | ⟨signal, live, response, hstep, _, hanswer⟩ :=
    turn_eq_continues hturn
  · rw [hstep] at hstepped
    exact hstepped
  · rw [hstep] at hstepped
    obtain ⟨_, hrefuse⟩ | ⟨_, hcollide⟩ := hanswer
    · exact h.refuse hstepped hrefuse
    · exact h.collide hstepped hcollide

theorem of_enters (h : FrameInvariant σ config env good P) (htop : P top.frame)
    (hchild : good child.address)
    (hturn : turn config env top ledger = .enters frame child after) :
    P frame ∧ P child.frame := by
  have hstepped := h.step ledger htop
  obtain ⟨signal, live, hstep, rfl, hmeets⟩ := turn_eq_enters hturn
  rw [hstep] at hstepped
  refine ⟨hstepped, ?_⟩
  obtain ⟨_, _, henter⟩ | ⟨_, _, _, _, _, _, henter⟩ := enters_of_meets hmeets
  · exact h.of_enterCall hchild henter
  · exact h.of_enterCreation hchild henter

/-- What a frame that succeeds passes on are the effects of a frame with the
property. -/
theorem of_finished (h : FrameInvariant σ config env good P)
    (htop : P top.frame) {exit : Exit}
    (hturn : turn config env top ledger = .concludes (.finished exit after))
    (hsuccess : exit.outcome = .success) :
    ∃ child, P child ∧ exit.effects = child.effects := by
  have hstepped := h.step ledger htop
  obtain ⟨live, outcome, output, rfl, hleave⟩ := turn_eq_finished hturn
  obtain ⟨heffects, _⟩ := leave_eq_success hleave hsuccess
  exact ⟨_, hstepped, heffects⟩

theorem of_advance (h : FrameInvariant σ config env good P)
    {state next : Running σ} (hstate : Throughout P state)
    (hnext : good next.top.address)
    (hadvance : advance config env state = .running next) :
    Throughout P next := by
  obtain ⟨htop, hwaiting⟩ := List.forall_mem_cons.1 hstate
  cases advances_of_advance hadvance with
  | continues hturn =>
    exact List.forall_mem_cons.2 ⟨h.of_continues htop hturn, hwaiting⟩
  | enters hturn =>
    obtain ⟨hwaits, hchild⟩ := h.of_enters htop hnext hturn
    exact List.forall_mem_cons.2 ⟨hchild,
      List.forall_mem_cons.2 ⟨hwaits, hwaiting⟩⟩
  | resumes hturn hresume =>
    obtain ⟨hparent, hbelow⟩ := List.forall_mem_cons.1 hwaiting
    exact List.forall_mem_cons.2
      ⟨h.resume hparent (h.of_finished htop hturn) hresume, hbelow⟩

/-- From the first frame of a transaction on, the property holds of all live
frames. -/
theorem of_reaches (h : FrameInvariant σ config env good P) {gas : Nat}
    {opening : EStateM LedgerError σ Opening} {root : Activation}
    {created : Option Address} {state : Running σ}
    (hopens : Opens config gas opening)
    (hopening : opening ledger = .ok (.entered root created) after)
    (hruns : RunsOn config env good ⟨root, [], after⟩)
    (hreaches : Reaches config env ⟨root, [], after⟩ state) :
    Throughout P state := by
  induction hreaches with
  | refl =>
    have hroot : good root.address := hruns _ .refl
    refine List.forall_mem_singleton.2 ?_
    obtain ⟨_, _, _, henter⟩ | ⟨_, _, _, _, _, _, _, henter⟩ :=
      enters_of_opens hopens hopening
    · exact h.of_enterCall hroot henter
    · exact h.of_enterCreation hroot henter
  | @tail mid next hreaches hadvance ih =>
    exact h.of_advance ih (hruns next (hreaches.tail hadvance)) hadvance

end FrameInvariant

end Transaction

end ContractMachine
