import ContractMachine.Proofs.Execution.Marks
import ContractMachine.Proofs.Frame.MemoryRefinement

/-!
# What instructions leave behind

Three kinds of instructions do something that is to be known when a transaction
is over: they log, they destroy their own account, or they clear a storage row.
`Opcode.deeds` reads off the frame and the ledger that an instruction finds
what it will have done if it succeeds: a log has the account of the frame, the
words popped after its first two operands as topics, and the bytes that memory
shows in the range these two tell.

What a frame has gathered tells its deeds, in order: `Effects.Tells`.  A step
that succeeds adds the deeds of its instruction, and nothing else.
-/

namespace ContractMachine

open Actions

/-- Something an instruction does that is to be known when the transaction is
over. -/
inductive Deed where
  | log (entry : Log)
  /-- An account has destroyed itself. -/
  | destroy (address : Address)
  /-- A row that was not zero has been set to zero. -/
  | clear (address : Address) (key : Word)
  deriving DecidableEq

namespace Deed

/-- The entry of a log. -/
def log? : Deed → Option Log
  | .log entry => some entry
  | .destroy _ | .clear _ _ => none

/-- The account that has destroyed itself. -/
def destroyed? : Deed → Option Address
  | .destroy address => some address
  | .log _ | .clear _ _ => none

/-- Whether a row has been cleared. -/
def isClear : Deed → Bool
  | .clear _ _ => true
  | .log _ | .destroy _ => false

theorem mem_filterMap_destroyed? {deeds : List Deed} {address : Address} :
    address ∈ deeds.filterMap destroyed? ↔ .destroy address ∈ deeds := by
  rw [List.mem_filterMap]
  constructor
  · rintro ⟨deed, hdeed, haddress⟩
    cases deed <;> cases haddress
    exact hdeed
  · exact fun hdeed => ⟨_, hdeed, rfl⟩

end Deed

/-- What an instruction that succeeds has done, told by what it finds. -/
def Opcode.deeds {σ : Type} [Ledger σ] (opcode : Opcode) (live : Live σ) :
    List Deed :=
  let address := live.frame.context.address
  let operand (i : Nat) : Word := live.frame.stack.getD i 0
  match opcode with
  | .log n =>
    [.log {
      address := address
      topics := (live.frame.stack.drop 2).take n
      data := live.frame.memory.bytes.window (operand 0).toNat
        (operand 1).toNat }]
  | .selfDestruct => [.destroy address]
  | .sstore =>
    match Ledger.slot live.ledger address (operand 0) with
    | .ok current =>
      if current ≠ 0 ∧ operand 1 = 0 then [.clear address (operand 0)] else []
    | .error _ => []
  | _ => []

/-- Deeds, in order, and how many refunds were granted for those that destroyed
an account: at least one for each account, and at most one for each deed. -/
structure Tally where
  deeds : List Deed := []
  grants : Nat := 0
  card_le_grants : (deeds.filterMap Deed.destroyed?).toFinset.card ≤
    grants := by simp
  grants_le : grants ≤ (deeds.filterMap Deed.destroyed?).length := by simp

namespace Tally

/-- One deed more.  Only the first of those in a tally that destroy an account
is granted a refund. -/
def add (tally : Tally) (deed : Deed) : Tally where
  deeds := tally.deeds ++ [deed]
  grants := tally.grants +
    if deed.destroyed?.isSome ∧ deed ∉ tally.deeds then 1 else 0
  card_le_grants := by
    have hcard := tally.card_le_grants
    cases deed with
    | log entry | clear address key =>
      simpa [Deed.destroyed?, List.filterMap_cons] using hcard
    | destroy address =>
      have hinsert :
          ((tally.deeds ++ [Deed.destroy address]).filterMap
            Deed.destroyed?).toFinset =
            insert address
              (tally.deeds.filterMap Deed.destroyed?).toFinset := by
        simp [Deed.destroyed?]
      rw [hinsert]
      by_cases hdone : .destroy address ∈ tally.deeds
      · rw [Finset.insert_eq_of_mem (by
          rwa [List.mem_toFinset, Deed.mem_filterMap_destroyed?])]
        exact hcard.trans (Nat.le_add_right ..)
      · rw [if_pos ⟨rfl, hdone⟩]
        exact (Finset.card_insert_le ..).trans (Nat.succ_le_succ hcard)
  grants_le := by
    have hle := tally.grants_le
    cases deed with
    | log entry | clear address key =>
      simpa [Deed.destroyed?, List.filterMap_cons] using hle
    | destroy address =>
      rw [List.filterMap_append, List.length_append]
      split_ifs
      · exact Nat.succ_le_succ hle
      · exact hle.trans (Nat.le_add_right ..)

/-- Two tallies, one after the other. -/
def join (tally later : Tally) : Tally where
  deeds := tally.deeds ++ later.deeds
  grants := tally.grants + later.grants
  card_le_grants := by
    rw [List.filterMap_append, List.toFinset_append]
    exact (Finset.card_union_le ..).trans
      (Nat.add_le_add tally.card_le_grants later.card_le_grants)
  grants_le := by
    rw [List.filterMap_append, List.length_append]
    exact Nat.add_le_add tally.grants_le later.grants_le

/-- The refund for all that is in a tally. -/
def refund (schedule : Schedule) (tally : Tally) : Nat :=
  schedule.sstoreClearRefund * tally.deeds.countP Deed.isClear +
    schedule.selfDestructRefund * tally.grants

@[simp]
theorem deeds_add (tally : Tally) (deed : Deed) :
    (tally.add deed).deeds = tally.deeds ++ [deed] :=
  rfl

@[simp]
theorem deeds_join (tally later : Tally) :
    (tally.join later).deeds = tally.deeds ++ later.deeds :=
  rfl

theorem nothing_join (tally : Tally) : join {} tally = tally := by
  rcases tally with ⟨deeds, grants, _, _⟩
  simp [join]

theorem refund_add_log (schedule : Schedule) (tally : Tally) (entry : Log) :
    (tally.add (.log entry)).refund schedule = tally.refund schedule := by
  simp [refund, add, Deed.isClear, Deed.destroyed?]

theorem refund_add_clear (schedule : Schedule) (tally : Tally)
    (address : Address) (key : Word) :
    (tally.add (.clear address key)).refund schedule =
      tally.refund schedule + schedule.sstoreClearRefund := by
  simp [refund, add, Deed.isClear, Deed.destroyed?, Nat.mul_add,
    Nat.add_right_comm]

theorem refund_add_destroy_of_mem {tally : Tally} {address : Address}
    (h : .destroy address ∈ tally.deeds) (schedule : Schedule) :
    (tally.add (.destroy address)).refund schedule = tally.refund schedule := by
  simp [refund, add, Deed.isClear, h]

theorem refund_add_destroy_of_not_mem {tally : Tally} {address : Address}
    (h : .destroy address ∉ tally.deeds) (schedule : Schedule) :
    (tally.add (.destroy address)).refund schedule =
      tally.refund schedule + schedule.selfDestructRefund := by
  simp [refund, add, Deed.isClear, Deed.destroyed?, h, Nat.mul_add,
    Nat.add_assoc]

theorem refund_join (schedule : Schedule) (tally later : Tally) :
    (tally.join later).refund schedule =
      tally.refund schedule + later.refund schedule := by
  simp only [refund, join, List.countP_append, Nat.mul_add]
  omega

end Tally

namespace Effects

/-- What a frame has gathered are these deeds: their logs in order, the accounts
that they destroyed, and the refund for them, up to the largest count. -/
structure Tells (schedule : Schedule) (effects : Effects) (tally : Tally) :
    Prop where
  logs : effects.logs.toList = tally.deeds.filterMap Deed.log?
  destroyed : ∀ a, a ∈ effects.destroyed ↔ .destroy a ∈ tally.deeds
  refund : effects.refund = min (tally.refund schedule) Saturating.limit

variable {schedule : Schedule} {effects later : Effects} {tally : Tally}

theorem tells_nothing (schedule : Schedule) : Tells schedule {} {} where
  logs := rfl
  destroyed a := by simp
  refund := rfl

theorem Tells.addLog (h : Tells schedule effects tally) (entry : Log) :
    Tells schedule (effects.addLog entry) (tally.add (.log entry)) where
  logs := by simp [Effects.addLog, Deed.log?, h.logs]
  destroyed a := by simp [Effects.addLog, h.destroyed]
  refund := by
    rw [Tally.refund_add_log]
    exact h.refund

theorem Tells.addClear (h : Tells schedule effects tally) (address : Address)
    (key : Word) :
    Tells schedule (effects.addRefund schedule.sstoreClearRefund)
      (tally.add (.clear address key)) where
  logs := by simp [Effects.addRefund, Deed.log?, h.logs]
  destroyed a := by simp [Effects.addRefund, h.destroyed]
  refund := by
    rw [addRefund, h.refund, Saturating.add_min_limit, Tally.refund_add_clear]

theorem Tells.addNothing (h : Tells schedule effects tally) :
    Tells schedule (effects.addRefund 0) tally where
  logs := h.logs
  destroyed := h.destroyed
  refund := by
    rw [addRefund, h.refund, Saturating.add_min_limit, Nat.add_zero]

/-- The effects of a frame that destroys its account. -/
def destroy (effects : Effects) (schedule : Schedule) (address : Address) :
    Effects :=
  let (isFirst, marked) := effects.markDestroyed address
  if isFirst then marked.addRefund schedule.selfDestructRefund else marked

theorem Tells.destroy (h : Tells schedule effects tally) (address : Address) :
    Tells schedule (effects.destroy schedule address)
      (tally.add (.destroy address)) := by
  have hlogs : effects.logs.toList =
      (tally.add (.destroy address)).deeds.filterMap Deed.log? := by
    simp [Deed.log?, h.logs]
  have hdestroyed : ∀ a, a ∈ effects.destroyed.insert address ↔
      .destroy a ∈ (tally.add (.destroy address)).deeds := by
    intro a
    rw [Std.TreeSet.mem_insert, Std.compare_eq_iff_eq, h.destroyed,
      Tally.deeds_add, List.mem_append, List.mem_singleton, Deed.destroy.injEq,
      or_comm, eq_comm]
  by_cases hmarked : address ∈ effects.destroyed
  · have hdone : effects.destroy schedule address =
        { effects with destroyed := effects.destroyed.insert address } := by
      simp [Effects.destroy, markDestroyed, hmarked]
    rw [hdone]
    refine ⟨hlogs, hdestroyed, ?_⟩
    rw [Tally.refund_add_destroy_of_mem ((h.destroyed address).1 hmarked)]
    exact h.refund
  · have hdone : effects.destroy schedule address =
        addRefund { effects with destroyed := effects.destroyed.insert address }
          schedule.selfDestructRefund := by
      simp [Effects.destroy, markDestroyed, hmarked]
    have hnew : .destroy address ∉ tally.deeds := fun hmem =>
      hmarked ((h.destroyed address).2 hmem)
    rw [hdone]
    refine ⟨hlogs, hdestroyed, ?_⟩
    rw [addRefund, h.refund, Saturating.add_min_limit,
      Tally.refund_add_destroy_of_not_mem hnew]

/-- A frame that takes up what another has gathered tells the deeds of both. -/
theorem Tells.absorb {others : Tally} (h : Tells schedule effects tally)
    (hlater : Tells schedule later others) :
    Tells schedule (effects.absorb later) (tally.join others) where
  logs := by simp [Effects.absorb, h.logs, hlater.logs]
  destroyed a := by
    simp [Effects.absorb, Std.TreeSet.mem_insertMany_list,
      Std.TreeSet.mem_toList, h.destroyed, hlater.destroyed]
  refund := by
    have hsum : (effects.absorb later).refund =
        Saturating.add (min (tally.refund schedule) Saturating.limit)
          (min (others.refund schedule) Saturating.limit) := by
      rw [← h.refund, ← hlater.refund]
      rfl
    rw [hsum, Saturating.add_min_limit, Tally.refund_join]
    omega

end Effects

/-! ## What memory shows -/

namespace Frame

variable {schedule : Schedule} {offset length : Word} {frame touched : Frame}
  {range : Range}

/-- What is read of a range that has been paid for is what memory showed there
before. -/
theorem load_of_touch
    (h : touch schedule offset length frame = .ok range touched) :
    (touched.memory.load range.offset range.length).1 =
      frame.memory.bytes.window offset.toNat length.toNat := by
  obtain ⟨rfl, rfl, _⟩ | ⟨size, hsize, rfl, _, rfl⟩ := touch_eq_ok h
  · exact (Array.eq_empty_of_size_eq_zero (Bytes.size_window _ _ _)).symm
  · have haddressable : (⟨offset.toNat, length.toNat⟩ : Range).Addressable :=
      Range.addressable_of_requiredSize? hsize
    rw [Memory.load_eq haddressable, Memory.endless_expand, Bytes.window_eq_cut]
    rfl

end Frame

/-! ## Instructions -/

namespace Execution

open Exec

variable {σ : Type} [Ledger σ] {config : Config} {env : Environment}
  {live last : Live σ} {operands : Stack} {flow : Flow}

omit [Ledger σ] in
theorem touch_eq_ok {schedule : Schedule} {offset length : Word} {range : Range}
    (h : touch schedule offset length live = .ok range last) :
    ∃ gas memory, last = { live with
      frame := { live.frame with gas, memory } } ∧
      (memory.load range.offset range.length).1 =
        live.frame.memory.bytes.window offset.toNat length.toNat := by
  obtain ⟨gas, _, memory, hleft⟩ := left_touch schedule offset length live.frame
  obtain ⟨touched, htouch, rfl⟩ := frame_eq_ok h
  rw [htouch] at hleft
  obtain rfl : touched = _ := hleft
  exact ⟨gas, memory, rfl, Frame.load_of_touch htouch⟩

omit [Ledger σ] in
theorem read_of_ask {α : Type} {read : σ → Except LedgerError α} {a : α}
    (h : ask read live = .ok a last) : read live.ledger = .ok a := by
  rw [ask] at h
  split at h <;> cases h
  assumption

theorem effects_of_log {n : Nat}
    (h : perform config env (.log n) operands live = .ok flow last) :
    last.frame.effects = live.frame.effects.addLog {
      address := live.frame.context.address
      topics := operands.drop 2
      data := live.frame.memory.bytes.window (operands.getD 0 0).toNat
        (operands.getD 1 0).toNat } := by
  obtain ⟨range, _, htouch, hcharged⟩ := bind_eq_ok_iff.1 h
  obtain ⟨gas, memory, rfl, hload⟩ := touch_eq_ok htouch
  obtain ⟨_, _, hcharge, hloaded⟩ := bind_eq_ok_iff.1 hcharged
  obtain ⟨rfl, _⟩ := charge_eq_ok hcharge
  cases hloaded
  exact congrArg (fun data => live.frame.effects.addLog {
    address := live.frame.context.address
    topics := operands.drop 2
    data := data }) hload

theorem effects_of_sstore
    (h : perform config env .sstore operands live = .ok flow last) :
    ∃ current,
      Ledger.slot live.ledger live.frame.context.address (operands.getD 0 0) =
        .ok current ∧
      last.frame.effects = live.frame.effects.addRefund
        (config.schedule.sstoreRefund current (operands.getD 1 0)) := by
  obtain ⟨_, _, hframe, hasked⟩ := bind_eq_ok_iff.1 h
  cases hframe
  obtain ⟨current, _, hask, hcharged⟩ := bind_eq_ok_iff.1 hasked
  obtain rfl := ask_eq_ok hask
  obtain ⟨_, _, hcharge, hgathered⟩ := bind_eq_ok_iff.1 hcharged
  obtain ⟨rfl, _⟩ := charge_eq_ok hcharge
  obtain ⟨_, _, hgather, htold⟩ := bind_eq_ok_iff.1 hgathered
  cases hgather
  obtain ⟨_, _, htell, hpure⟩ := bind_eq_ok_iff.1 htold
  obtain ⟨_, rfl⟩ := pure_eq_ok_iff.1 hpure
  refine ⟨current, read_of_ask hask, ?_⟩
  have hleft := congrArg left htell
  rw [left_tell] at hleft
  exact (congrArg (·.frame.effects) hleft).symm

theorem effects_of_selfDestruct {schedule : Schedule} {beneficiary : Address}
    (h : selfDestruct schedule beneficiary live = .ok () last) :
    last.frame.effects =
      live.frame.effects.destroy schedule live.frame.context.address := by
  have hmarks : ∀ {marking : Live σ} {balance : Word},
      marking.frame.effects = live.frame.effects →
      (do
        let marked :=
          (← getFrame).effects.markDestroyed live.frame.context.address
        modifyEffects fun _ =>
          if marked.1 then marked.2.addRefund schedule.selfDestructRefund
          else marked.2
        tell (Ledger.transfer live.frame.context.address beneficiary balance) :
          Exec σ Unit) marking = .ok () last →
      last.frame.effects =
        live.frame.effects.destroy schedule live.frame.context.address := by
    intro marking balance heffects hmarks
    obtain ⟨_, _, hframe, hgathered⟩ := bind_eq_ok_iff.1 hmarks
    cases hframe
    obtain ⟨_, _, hgather, htell⟩ := bind_eq_ok_iff.1 hgathered
    cases hgather
    have hleft := congrArg left htell
    rw [left_tell] at hleft
    rw [← heffects]
    exact (congrArg (·.frame.effects) hleft).symm
  obtain ⟨_, _, hframe, hasked⟩ := bind_eq_ok_iff.1 h
  cases hframe
  obtain ⟨balance, _, hask, hrest⟩ := bind_eq_ok_iff.1 hasked
  obtain rfl := ask_eq_ok hask
  by_cases hbalance : balance ≠ 0
  · rw [if_pos hbalance] at hrest
    obtain ⟨isNew, _, hnew, hpaid⟩ := bind_eq_ok_iff.1 hrest
    obtain rfl := ask_eq_ok hnew
    cases isNew with
    | false => exact hmarks rfl hpaid
    | true =>
      obtain ⟨_, _, hcharge, hmarked⟩ := bind_eq_ok_iff.1 hpaid
      obtain ⟨rfl, _⟩ := charge_eq_ok hcharge
      refine hmarks ?_ hmarked
      rfl
  · rw [if_neg hbalance] at hrest
    exact hmarks rfl hrest

/-- A creation that is asked for has gathered nothing yet. -/
theorem effects_of_create {salted : Bool}
    (h : perform config env (.create salted) operands live = .ok flow last) :
    last.frame.effects = live.frame.effects := by
  obtain ⟨request, _, hprepare, hpure⟩ := bind_eq_ok_iff.1 h
  obtain ⟨_, rfl⟩ := pure_eq_ok_iff.1 hpure
  have hworks : Works .stop live.frame
      (left (prepareCreate config salted (operands.getD · 0) live)).frame :=
    (part_prepareCreate config salted _).works live rfl
  rw [hprepare] at hworks
  exact hworks.effects_eq rfl

theorem deeds_of_not_changesState {opcode : Opcode}
    (h : opcode.changesState = false) (live : Live σ) :
    opcode.deeds live = [] := by
  cases opcode with
  | sstore | log n | create salted | selfDestruct => cases h
  | _ => rfl

/-- An operand is the word at its place of the stack. -/
theorem getD_take {stack : Stack} {i n : Nat} (h : i < n) :
    (stack.take n).getD i 0 = stack.getD i 0 := by
  rw [List.getD_eq_getElem?_getD, List.getD_eq_getElem?_getD,
    List.getElem?_take_of_lt h]

/-- An instruction that succeeds adds its deeds to what its frame has
gathered. -/
theorem Succeeds.tells {opcode : Opcode} {tally : Tally}
    (h : Succeeds config env opcode live flow last)
    (htells : live.frame.effects.Tells config.schedule tally) :
    last.frame.effects.Tells config.schedule
      ((opcode.deeds live).foldl Tally.add tally) := by
  cases hchanges : opcode.changesState with
  | false =>
    rw [deeds_of_not_changesState hchanges, h.works.effects_eq hchanges]
    exact htells
  | true =>
    have hperformed := h.performed
    cases opcode with
    | log n =>
      rw [effects_of_log hperformed]
      have htopics : (live.frame.stack.take (n + 2)).drop 2 =
          (live.frame.stack.drop 2).take n := by
        rw [List.drop_take, Nat.add_sub_cancel]
      have hdone := htells.addLog {
        address := live.frame.context.address
        topics := (live.frame.stack.drop 2).take n
        data := live.frame.memory.bytes.window (live.frame.stack.getD 0 0).toNat
          (live.frame.stack.getD 1 0).toNat }
      simp only [Opcode.inputs, htopics,
        getD_take (Nat.lt_add_left n Nat.zero_lt_two),
        getD_take (Nat.lt_add_left n Nat.one_lt_two)]
      exact hdone
    | sstore =>
      obtain ⟨current, hslot, heffects⟩ := effects_of_sstore hperformed
      rw [heffects]
      simp only [Opcode.inputs, begun, getD_take Nat.zero_lt_two,
        getD_take Nat.one_lt_two] at hslot ⊢
      rw [Opcode.deeds, Schedule.sstoreRefund]
      simp only [hslot]
      by_cases hclears : current ≠ 0 ∧ live.frame.stack.getD 1 0 = 0
      · rw [if_pos hclears, if_pos hclears]
        exact htells.addClear _ _
      · rw [if_neg hclears, if_neg hclears]
        exact htells.addNothing
    | create salted =>
      rw [effects_of_create hperformed]
      exact htells
    | selfDestruct =>
      obtain ⟨_, _, hdestroy, hpure⟩ := bind_eq_ok_iff.1 hperformed
      obtain ⟨_, rfl⟩ := pure_eq_ok_iff.1 hpure
      rw [effects_of_selfDestruct hdestroy]
      exact htells.destroy live.frame.context.address
    | _ => cases hchanges

/-- The deeds of the next step of a frame, if it succeeds. -/
def deedsAt (config : Config) (env : Environment) (live : Live σ) : List Deed :=
  match step config env live, live.frame.code[live.frame.position]? with
  | .ok _ _, some byte => (Opcode.decode byte).deeds live
  | _, _ => []

/-- A step that succeeds adds the deeds of its instruction. -/
theorem tells_of_step {signal : Option Signal} {after : Live σ} {tally : Tally}
    (h : step config env live = .ok signal after)
    (htells : live.frame.effects.Tells config.schedule tally) :
    after.frame.effects.Tells config.schedule
      ((deedsAt config env live).foldl Tally.add tally) := by
  rw [deedsAt, h]
  cases hbyte : live.frame.code[live.frame.position]? with
  | none =>
    rw [step_of_none hbyte] at h
    cases h
    exact htells
  | some byte =>
    obtain ⟨flow, last, hsucceeds, hproceed⟩ := succeeds_of_step hbyte h
    have heffects : after.frame.effects = last.frame.effects := by
      have hproceeds := effects_proceed (Opcode.decode byte) flow last
      rwa [hproceed] at hproceeds
    rw [heffects]
    exact hsucceeds.tells htells

end Execution

end ContractMachine
