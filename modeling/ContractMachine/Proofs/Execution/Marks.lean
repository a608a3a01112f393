import ContractMachine.Proofs.Execution.Static

/-!
# Frames mark their own account only

The only instruction that marks an account for deletion marks the one that its
frame runs on; the others gather no effects, or effects of another kind.  So a
frame spares every other account.
-/

namespace ContractMachine

/-- The frame runs on another account, and has not marked this one for
deletion. -/
structure Frame.Spares (a : Address) (frame : Frame) : Prop where
  address_ne : frame.context.address ≠ a
  not_mem_destroyed : a ∉ frame.effects.destroyed

theorem Effects.mem_markDestroyed {effects : Effects} {a marked : Address}
    (h : a ∈ (effects.markDestroyed marked).2.destroyed) :
    marked = a ∨ a ∈ effects.destroyed := by
  have hinsert : a ∈ effects.destroyed.insert marked := h
  rw [Std.TreeSet.mem_insert] at hinsert
  exact hinsert.imp_left Std.LawfulEqOrd.eq_of_compare

theorem Effects.mem_absorb {effects later : Effects} {a : Address}
    (h : a ∈ (effects.absorb later).destroyed) :
    a ∈ effects.destroyed ∨ a ∈ later.destroyed := by
  have hinsert : a ∈ effects.destroyed.insertMany later.destroyed.toList := h
  rw [Std.TreeSet.mem_insertMany_list, List.contains_iff_mem,
    Std.TreeSet.mem_toList] at hinsert
  exact hinsert

namespace Execution

open Exec Actions

variable {σ : Type} [Ledger σ] {α β : Type} {config : Config}
  {env : Environment} {a : Address}

/-- An action of a frame that spares an account before and after it, with what
is known of its result. -/
def Sparing (a : Address) (post : α → Prop) (action : Exec σ α) : Prop :=
  ∀ live, live.frame.Spares a → (left (action live)).frame.Spares a ∧
    ∀ result reached, action live = .ok result reached → post result

omit [Ledger σ] in
theorem Sparing.bind {mid : α → Prop} {post : β → Prop} {x : Exec σ α}
    {f : α → Exec σ β} (hx : Sparing a mid x)
    (hf : ∀ result, mid result → Sparing a post (f result)) :
    Sparing a post (x >>= f) := by
  intro live hlive
  obtain ⟨hfirst, hmid⟩ := hx live hlive
  cases hresult : x live with
  | ok result reached =>
    rw [hresult] at hfirst
    rw [bind_of_ok hresult]
    exact hf result (hmid result reached hresult) reached hfirst
  | error cause reached =>
    rw [hresult] at hfirst
    rw [bind_of_error hresult]
    exact ⟨hfirst, by rintro _ _ ⟨⟩⟩

omit [Ledger σ] in
theorem sparing_pure {post : α → Prop} {result : α} (h : post result) :
    Sparing a post (pure result : Exec σ α) := fun _ hlive =>
  ⟨hlive, by rintro _ _ ⟨⟩; exact h⟩

omit [Ledger σ] in
theorem sparing_getFrame :
    Sparing a (Frame.Spares a) (getFrame : Exec σ Frame) :=
  fun _ hlive => ⟨hlive, by rintro _ _ ⟨⟩; exact hlive⟩

/-- Parts of instructions that gather no effects. -/
theorem sparing_of_part (opcode : Opcode)
    (hopcode : opcode.changesState = false) {post : α → Prop}
    {action : Exec σ α} (h : ∀ address, Part opcode address post action) :
    Sparing a (fun _ => True) action := by
  intro live hlive
  have hworks : Works opcode live.frame (left (action live)).frame :=
    (h _).works live rfl
  have heffects := hworks.effects_eq hopcode
  obtain ⟨_, _, _, _, _, hframe⟩ := hworks
  refine ⟨⟨?_, ?_⟩, fun _ _ _ => trivial⟩
  · rw [hframe]
    exact hlive.address_ne
  · rw [heffects]
    exact hlive.not_mem_destroyed

omit [Ledger σ] in
theorem sparing_modifyEffects {f : Effects → Effects}
    (h : ∀ effects, a ∉ effects.destroyed → a ∉ (f effects).destroyed) :
    Sparing a (fun _ => True) (modifyEffects f : Exec σ Unit) := fun _ hlive =>
  ⟨⟨hlive.address_ne, h _ hlive.not_mem_destroyed⟩, fun _ _ _ => trivial⟩

omit [Ledger σ] in
theorem sparing_tell (write : EStateM LedgerError σ α) :
    Sparing a (fun _ => True) (tell write) := by
  intro live hlive
  rw [left_tell]
  exact ⟨hlive, fun _ _ _ => trivial⟩

/-! ## Instructions -/

theorem sparing_charge (amount : Nat) :
    Sparing a (fun _ => True) (charge amount : Exec σ Unit) :=
  sparing_of_part .stop rfl fun _ => .charge amount

theorem sparing_ask {read : σ → Except LedgerError α} (h : Question read) :
    Sparing a (fun _ => True) (ask read) :=
  sparing_of_part .stop rfl fun _ => .ask h

theorem sparing_touch (schedule : Schedule) (offset length : Word) :
    Sparing a (fun _ => True) (touch schedule offset length : Exec σ Range) :=
  sparing_of_part .stop rfl fun _ => .touch schedule offset length

theorem sparing_load (range : Range) :
    Sparing a (fun _ => True) (load range : Exec σ Bytes) :=
  sparing_of_part .stop rfl fun _ => .load range

/-- A frame that destroys itself marks its own account. -/
theorem sparing_selfDestruct (schedule : Schedule) (beneficiary : Address) :
    Sparing a (fun _ => True)
      (selfDestruct schedule beneficiary : Exec σ Unit) := by
  refine sparing_getFrame.bind fun frame hframe => ?_
  have hmarks : ∀ balance, Sparing a (fun _ => True) (do
      let marked := (← getFrame).effects.markDestroyed frame.context.address
      modifyEffects fun _ =>
        if marked.1 then marked.2.addRefund schedule.selfDestructRefund
        else marked.2
      tell (Ledger.transfer frame.context.address beneficiary balance) :
        Exec σ Unit) := by
    intro balance
    refine sparing_getFrame.bind fun marking hmarking => ?_
    refine (sparing_modifyEffects fun _ _ hmem => ?_).bind fun _ _ =>
      sparing_tell _
    have hmarked : a ∈
        (marking.effects.markDestroyed frame.context.address).2.destroyed := by
      split at hmem
      · exact hmem
      · exact hmem
    obtain hsame | hbefore := Effects.mem_markDestroyed hmarked
    · exact hframe.address_ne hsame
    · exact hmarking.not_mem_destroyed hbefore
  refine (sparing_ask (.balance _)).bind fun balance _ => ?_
  by_cases hbalance : balance ≠ 0
  · rw [if_pos hbalance]
    refine (sparing_ask (.isEmpty _)).bind fun isNew _ => ?_
    cases isNew with
    | true => exact (sparing_charge _).bind fun _ _ => hmarks balance
    | false => exact hmarks balance
  · rw [if_neg hbalance]
    exact hmarks balance

theorem sparing_perform (config : Config) (env : Environment) (opcode : Opcode)
    (operands : Stack) :
    Sparing a (fun _ => True)
      (perform config env opcode operands : Exec σ Flow) := by
  cases hchanges : opcode.changesState with
  | false =>
    exact sparing_of_part opcode hchanges fun _ =>
      part_perform config env opcode operands
  | true =>
    cases opcode with
    | sstore =>
      refine sparing_getFrame.bind fun _ _ =>
        (sparing_ask (.slot _ _)).bind fun _ _ =>
        (sparing_charge _).bind fun _ _ =>
          (sparing_modifyEffects ?_).bind fun _ _ =>
          (sparing_tell _).bind fun _ _ => sparing_pure trivial
      exact fun _ hmem => hmem
    | log n =>
      refine (sparing_touch _ _ _).bind fun _ _ =>
        (sparing_charge _).bind fun _ _ =>
        (sparing_load _).bind fun _ _ => sparing_getFrame.bind fun _ _ =>
          (sparing_modifyEffects ?_).bind fun _ _ => sparing_pure trivial
      exact fun _ hmem => hmem
    | create salted =>
      have hprepare : Sparing a (fun _ => True)
          (prepareCreate config salted (operands.getD · 0) :
            Exec σ CreateRequest) :=
        sparing_of_part .stop rfl fun _ => part_prepareCreate config salted _
      exact hprepare.bind fun _ _ => sparing_pure trivial
    | selfDestruct =>
      exact (sparing_selfDestruct _ _).bind fun _ _ => sparing_pure trivial
    | _ => cases hchanges

/-! ## Steps -/

theorem sparing_proceed (opcode : Opcode) (flow : Flow) :
    Sparing a (fun _ => True)
      (proceed opcode flow : Exec σ (Option Signal)) := by
  intro live hlive
  have htravels : Travels True live.frame.context.address
      (proceed opcode flow : Exec σ (Option Signal)) :=
        travels_proceed opcode flow
  refine ⟨⟨?_, ?_⟩, fun _ _ _ => trivial⟩
  · rw [(htravels live rfl).context_eq]
    exact hlive.address_ne
  · rw [effects_proceed]
    exact hlive.not_mem_destroyed

/-- A step spares every account that its frame has spared, whether it succeeds
or fails. -/
theorem spares_step {live : Live σ} (h : live.frame.Spares a) :
    (left (step config env live)).frame.Spares a := by
  cases hbyte : live.frame.code[live.frame.position]? with
  | none =>
    rw [step_of_none hbyte]
    exact h
  | some byte =>
    rw [step_of_some hbyte]
    have hauthorize : Sparing a (fun _ => True)
        (authorize config.schedule (Opcode.decode byte) : Exec σ Unit) :=
      sparing_of_part .stop rfl fun _ => part_authorize config.schedule _
    have htake : Sparing a (fun _ => True) (modifyFrame fun frame =>
        { frame with stack := frame.stack.drop (Opcode.decode byte).inputs } :
          Exec σ Unit) :=
      fun _ hlive => ⟨⟨hlive.address_ne, hlive.not_mem_destroyed⟩,
        fun _ _ _ => trivial⟩
    exact (hauthorize.bind fun _ _ => htake.bind fun _ _ =>
      (sparing_perform config env _ _).bind fun flow _ =>
        sparing_proceed _ flow) live h |>.1

end Execution

end ContractMachine
