import ContractMachine.Proofs.Execution.Failures
import ContractMachine.Proofs.Execution.Steps
import ContractMachine.Proofs.Frame.MemoryRefinement

/-!
# Byte strings are read as if zeros followed them

Call data, a frame's own code, the code of other accounts and the numbers
written in code are all read in the same way: as pieces of the endless string
that has zeros after the bytes there are.  An offset may be any word; one that
is no count lies past the end of every byte string, and what is read there is
zero.  The output of the frame that was called last is read without zeros: a
piece of it must lie within it.

An instruction that is poised to run runs; what a copy costs on top decides
whether it is made.  A copy that is paid for and takes memory beyond its
capacity breaks off.
-/

namespace ContractMachine

/-- Cutting an offset down to a count does not show: there is nothing but zeros
so far out. -/
theorem Bytes.extended_toCount {source : Bytes} (h : source.size < 2 ^ 64)
    (offset : Word) (i : Nat) :
    source.extended (offset.toCount + i) =
      source.extended (offset.toNat + i) := by
  have hlimit : source.size ≤ Saturating.limit := Nat.le_of_lt_succ h
  by_cases hcount : offset.toNat ≤ Saturating.limit
  · rw [Word.toCount, Word.toCount?, if_pos hcount, Option.getD_some]
  · rw [Word.toCount, Word.toCount?, if_neg hcount, Option.getD_none,
      extended_of_le (by omega), extended_of_le (by omega)]

theorem Bytes.number_toCount {source : Bytes} (h : source.size < 2 ^ 64)
    (offset : Word) (length : Nat) :
    source.extended.number offset.toCount length =
      source.extended.number offset.toNat length := by
  refine Finset.sum_congr rfl fun i _ => ?_
  rw [extended_toCount h]

/-- A byte that is there is seen as it is. -/
theorem Bytes.getElem?_eq_extended {source : Bytes} {i : Nat}
    (h : i < source.size) :
    source[i]? = some (source.extended i) := by
  rw [extended, Array.getD_eq_getD_getElem?, Array.getElem?_eq_getElem h,
    Option.getD_some]

theorem Schedule.expansionCost_self (s : Schedule) (size : Nat) :
    s.expansionCost size size = 0 := by
  rw [expansionCost_eq s le_rfl, Nat.sub_self]

theorem Memory.Covers.addressable {memory : Memory} {range : Range}
    (h : memory.Covers range) :
    range.Addressable :=
  Range.addressable_of_requiredSize? h.required

theorem Memory.storePadded_zero (memory : Memory) (offset : Nat)
    (source : Bytes) (sourceOffset : Nat) :
    memory.storePadded offset 0 source sourceOffset = memory := by
  rw [storePadded, store,
    if_pos (Array.isEmpty_iff_size_eq_zero.2 (Bytes.size_window ..))]

theorem Memory.Covers.storePadded {memory : Memory} {offset length : Nat}
    (h : memory.Covers ⟨offset, length⟩) (source : Bytes) (sourceOffset : Nat) :
    (memory.storePadded offset length source sourceOffset).Covers
      ⟨offset, length⟩ := by
  apply h.of_size_le
  rw [size_storePadded source sourceOffset h.addressable]
  exact Nat.le_max_right ..

namespace Frame

variable {schedule : Schedule} {frame : Frame} {target offset length : Word}
  {size : Nat}

/-- A range is covered if the growth of memory can be paid for; where it lies is
forgotten if it is empty. -/
theorem exists_touch (schedule : Schedule)
    (h : frame.memory.requiredSize? offset.toNat length.toNat = some size)
    (hcost : schedule.expansionCost frame.memory.size size ≤ frame.gas) :
    ∃ range, touch schedule offset length frame = .ok range { frame with
        gas := frame.gas - schedule.expansionCost frame.memory.size size
        memory := frame.memory.expand offset.toNat length.toNat } ∧
      range.length = length.toNat ∧
      (length.toNat ≠ 0 → range.offset = offset.toNat) := by
  by_cases hlength : length = 0
  · subst hlength
    obtain rfl : frame.memory.size = size := Option.some.inj h
    have hkept : frame.memory.expand offset.toNat (0 : Word).toNat =
        frame.memory :=
      Memory.expand_of_covers (Memory.covers_iff.2 (.inl rfl))
    refine ⟨{}, ?_, rfl, fun hzero => absurd rfl hzero⟩
    rw [touch, if_pos rfl, Schedule.expansionCost_self, Nat.sub_zero, hkept]
  · have hpositive : length.toNat ≠ 0 := by
      intro hzero
      exact hlength (BitVec.eq_of_toNat_eq hzero)
    obtain ⟨hlimit, _⟩ := (Memory.requiredSize?_eq_some_iff hpositive).1 h
    have hcovers := le_wordCount_mul (offset.toNat + length.toNat)
    have hoffset : offset.toCount? = some offset.toNat := if_pos (by omega)
    have hcount : length.toCount? = some length.toNat := if_pos (by omega)
    refine ⟨⟨offset.toNat, length.toNat⟩, ?_, rfl, fun _ => rfl⟩
    rw [touch, if_neg hlength, hoffset, hcount]
    simp only [h]
    rw [charge, if_neg (Nat.not_lt.2 hcost)]

/-- A range that is covered costs nothing. -/
theorem touch_of_covers (hlength : length.toNat ≠ 0)
    (h : frame.memory.Covers ⟨offset.toNat, length.toNat⟩) :
    touch schedule offset length frame =
      .ok ⟨offset.toNat, length.toNat⟩ frame := by
  have hfree := schedule.expansionCost_self frame.memory.size
  obtain ⟨⟨_, _⟩, htouch, rfl, hoffset⟩ :=
    exists_touch schedule h.required (hfree.trans_le (Nat.zero_le _))
  obtain rfl := hoffset hlength
  rw [htouch, hfree, Nat.sub_zero, Memory.expand_of_covers h]

/-- Whether a frame can pay for a copy to a range of memory. -/
def Affords (schedule : Schedule) (target length : Word) (frame : Frame) :
    Prop :=
  ∃ size, frame.memory.requiredSize? target.toNat length.toNat = some size ∧
    schedule.expansionCost frame.memory.size size +
      schedule.copyCost length.toNat ≤ frame.gas

end Frame

namespace Execution

open Exec Actions

variable {σ : Type} [Ledger σ] {config : Config} {env : Environment}
  {live after : Live σ} {opcode : Opcode} {operands rest : Stack}
  {target offset length : Word} {source : Bytes}

theorem breaksOff_of_ok {signal : Option Signal}
    (h : step config env live = .ok signal after) :
    BreaksOff config env live ↔ Memory.capacity < after.frame.memory.size := by
  rw [BreaksOff, h]

/-! ## Words -/

/-- Whether the next instruction puts a number on the rest of the stack, pays
its fixed price, moves on and does nothing else. -/
def Pushes (config : Config) (env : Environment) (opcode : Opcode)
    (number : Nat) (rest : Stack) (live : Live σ) : Prop :=
  ∃ word : Word, word.toNat = number ∧
    step config env live = .ok none { live with
    frame := { live.frame with
      gas := live.frame.gas - config.schedule.staticCost opcode
      position := live.frame.position + (1 + opcode.immediateLength)
      stack := word :: rest } }

/-- An instruction whose one result is a word, and which leaves the frame as it
is. -/
theorem pushes_of_perform {word : Word}
    (h : Poised config.schedule opcode operands rest live.frame)
    (hperform : perform config env opcode operands
        { live with frame := begun config.schedule opcode live.frame } =
      .ok (.next [word]) { live with
        frame := begun config.schedule opcode live.frame }) :
    Pushes config env opcode word.toNat rest live := by
  refine ⟨word, rfl, ?_⟩
  rw [step_of_poised h, bind_of_ok hperform, ← h.stack_begun]
  rfl

theorem pushes_callDataLoad (hsize : live.frame.context.data.size < 2 ^ 64)
    (h : Poised config.schedule .callDataLoad [offset] rest live.frame) :
    Pushes config env .callDataLoad
      (live.frame.context.data.extended.number offset.toNat 32) rest live := by
  rw [← Bytes.number_toCount hsize, ← Word.toNat_ofBytes_cut _ _
    le_rfl, ← Bytes.window_eq_cut]
  exact pushes_of_perform h rfl

/-- The number after an instruction is read beyond the end of the code if it
does not end there. -/
theorem pushes_push {n : Nat} (hn : n ≤ 32)
    (h : Poised config.schedule (.push n) [] rest live.frame) :
    Pushes config env (.push n)
      (live.frame.code.extended.number (live.frame.position + 1) n) rest
      live := by
  have hword :
      Word.ofBytes (live.frame.code.window (live.frame.position + 1) n) =
      (begun config.schedule (.push n) live.frame).immediate n := by
    rw [Frame.immediate, Nat.min_eq_left hn]
    rfl
  rw [← Word.toNat_ofBytes_cut _ _ hn, ← Bytes.window_eq_cut, hword]
  exact pushes_of_perform h rfl

omit [Ledger σ] in
theorem touch_of_ok {schedule : Schedule} {range : Range} {touched : Frame}
    (h : Frame.touch schedule offset length live.frame = .ok range touched) :
    touch schedule offset length live = .ok range { live with
      frame := touched } := by
  rw [touch, Exec.frame, h]

/-- A word of memory that has been paid for is read for the fixed price. -/
theorem pushes_mload_of_covers
    (hcovers : live.frame.memory.Covers ⟨target.toNat, 32⟩)
    (h : Poised config.schedule .mload [target] rest live.frame) :
    Pushes config env .mload (live.frame.memory.endless.number target.toNat 32)
      rest live := by
  have htouch : Frame.touch config.schedule target 32
      (begun config.schedule .mload live.frame) =
      .ok ⟨target.toNat, 32⟩ (begun config.schedule .mload live.frame) :=
    Frame.touch_of_covers (by decide) hcovers
  have hload : load ⟨target.toNat, 32⟩
      { live with frame := begun config.schedule .mload live.frame } =
      .ok (live.frame.memory.endless.cut target.toNat 32)
        { live with frame := begun config.schedule .mload live.frame } := by
    rw [load]
    dsimp only [begun]
    rw [Memory.load_eq hcovers.addressable, Memory.expand_of_covers hcovers]
  rw [← Word.toNat_ofBytes_cut _ _ le_rfl]
  exact pushes_of_perform h
    ((bind_of_ok (touch_of_ok htouch)).trans (bind_of_ok hload))

/-! ## Copies -/

/-- What a copy to memory leaves: the bytes are written over those of their
range, and nothing else changes but the gas. -/
structure Copied (target length : Word) (content : EndlessBytes) (rest : Stack)
    (before after : Live σ) : Prop where
  memory_eq : after.frame.memory.endless =
    before.frame.memory.endless.write target.toNat length.toNat content
  covers : after.frame.memory.Covers ⟨target.toNat, length.toNat⟩
  size_eq : after.frame.memory.size =
    max (⟨target.toNat, length.toNat⟩ : Range).extent before.frame.memory.size
  frame_eq : after.frame = { before.frame with
    gas := after.frame.gas
    memory := after.frame.memory
    position := before.frame.position + 1
    stack := rest }
  ledger_eq : after.ledger = before.ledger

/-- How a copy to memory ends: it is made if it can be paid for, unless there is
not so much memory to be had. -/
structure Copies (config : Config) (env : Environment) (opcode : Opcode)
    (target length : Word) (content : EndlessBytes) (rest : Stack)
    (live : Live σ) : Prop where
  of_affords : (begun config.schedule opcode live.frame).Affords config.schedule
    target length →
    ∃ after, step config env live = .ok none after ∧
      Copied target length content rest live after
  of_not_affords :
    ¬ (begun config.schedule opcode live.frame).Affords config.schedule target
      length →
      ∃ after, step config env live = .error (.halt .outOfGas) after
  breaksOff_iff : (begun config.schedule opcode live.frame).Affords
    config.schedule target length →
    (BreaksOff config env live ↔ Memory.capacity <
      max (⟨target.toNat, length.toNat⟩ : Range).extent live.frame.memory.size)

theorem Copies.copied {content : EndlessBytes}
    (h : Copies config env opcode target length content rest live)
    (hstep : step config env live = .ok none after) :
    Copied target length content rest live after := by
  by_cases haffords :
      (begun config.schedule opcode live.frame).Affords config.schedule
        target length
  · obtain ⟨found, hfound, hcopied⟩ := h.of_affords haffords
    obtain rfl : found = after := by simpa [hstep] using hfound.symm
    exact hcopied
  · obtain ⟨reached, herror⟩ := h.of_not_affords haffords
    simp [hstep] at herror

/-- A copy that ends well or runs out of gas is not out of bounds. -/
theorem Copies.not_outOfBounds {content : EndlessBytes}
    (h : Copies config env opcode target length content rest live) :
    step config env live ≠ .error (.halt .returnDataOutOfBounds) after := by
  intro hstep
  by_cases haffords :
      (begun config.schedule opcode live.frame).Affords config.schedule
        target length
  · obtain ⟨found, hfound, _⟩ := h.of_affords haffords
    simp [hstep] at hfound
  · obtain ⟨reached, herror⟩ := h.of_not_affords haffords
    simp [hstep] at herror

omit [Ledger σ] in
theorem copyToMemory_of_affords {schedule : Schedule} (source : Bytes)
    (offset : Word) (h : live.frame.Affords schedule target length) :
    ∃ gas memory, copyToMemory schedule source target offset length live =
        .ok () { live with frame := { live.frame with gas, memory } } ∧
      memory.Covers ⟨target.toNat, length.toNat⟩ ∧
      memory.size = max (⟨target.toNat, length.toNat⟩ : Range).extent
        live.frame.memory.size ∧
      memory.endless = live.frame.memory.endless.write target.toNat length.toNat
        fun i => source.extended (offset.toCount + i) := by
  obtain ⟨size, hsize, hcost⟩ := h
  obtain ⟨range, htouch, hlength, hoffset⟩ :=
    Frame.exists_touch schedule hsize (by omega)
  have hcovers := Memory.covers_expand hsize
  have hrange : Range.Addressable ⟨target.toNat, length.toNat⟩ :=
    Range.addressable_of_requiredSize? hsize
  have hgrown := Memory.size_expand_eq hrange live.frame.memory
  have hcopy : schedule.copyCost range.length ≤
      live.frame.gas - schedule.expansionCost live.frame.memory.size size := by
    rw [hlength]
    omega
  rw [copyToMemory, bind_of_ok (touch_of_ok htouch),
    bind_of_ok (charge_of_le hcopy)]
  refine ⟨_, _, rfl, ?_⟩
  dsimp only
  rw [hlength]
  by_cases hempty : length.toNat = 0
  · rw [hempty, Memory.storePadded_zero, EndlessBytes.write_zero, ← hempty]
    exact ⟨hcovers, hgrown, Memory.endless_expand ..⟩
  · rw [hoffset hempty]
    refine ⟨hcovers.storePadded source offset.toCount, ?_, ?_⟩
    · rw [Memory.size_storePadded source offset.toCount hcovers.addressable,
        hgrown, ← max_assoc, max_self]
    · rw [Memory.endless_storePadded source offset.toCount hcovers.addressable,
        Memory.endless_expand]

omit [Ledger σ] in
theorem affords_of_copyToMemory {schedule : Schedule}
    (h : copyToMemory schedule source target offset length live =
      .ok () after) :
    live.frame.Affords schedule target length := by
  obtain ⟨range, touched, htouch, hrest⟩ := bind_eq_ok_iff.1 h
  obtain ⟨_, paid, hcharge, _⟩ := bind_eq_ok_iff.1 hrest
  obtain ⟨_, hcopy⟩ := charge_eq_ok hcharge
  obtain ⟨reached, hframe, rfl⟩ := frame_eq_ok htouch
  obtain ⟨rfl, rfl, rfl⟩ | ⟨size, hsize, rfl, hgrowth, rfl⟩ :=
    Frame.touch_eq_ok hframe
  · refine ⟨live.frame.memory.size, rfl, ?_⟩
    rw [Schedule.expansionCost_self, Nat.zero_add]
    exact hcopy
  · refine ⟨size, hsize, ?_⟩
    dsimp only at hcopy
    omega

omit [Ledger σ] in
theorem failsOnly_copyToMemory (schedule : Schedule) (source : Bytes)
    (target offset length : Word) :
    FailsOnly (Failure.halt .outOfGas = ·)
      (copyToMemory schedule source target offset length : Exec σ Unit) := by
  apply FailsOnly.bind (failsOnly_touch rfl _ _ _)
  intro range
  exact (failsOnly_charge rfl _).bind fun _ => failsOnly_modifyFrame _

/-- An instruction that comes to a copy and nothing else makes it if it is paid
for. -/
theorem copied_of_perform (hsize : source.size < 2 ^ 64)
    (h : Poised config.schedule opcode operands rest live.frame)
    (hnext : opcode.immediateLength = 0)
    (hperform : perform config env opcode operands
        { live with frame := begun config.schedule opcode live.frame } =
      (do
          copyToMemory config.schedule source target offset length
          return .next [] : Exec σ Flow)
        { live with frame := begun config.schedule opcode live.frame })
    (haffords : (begun config.schedule opcode live.frame).Affords
      config.schedule target length) :
    ∃ after, step config env live = .ok none after ∧
      Copied target length (fun i => source.extended (offset.toNat + i)) rest
        live after := by
  let taken : Live σ :=
    { live with frame := begun config.schedule opcode live.frame }
  have hpays : taken.frame.Affords config.schedule target length := haffords
  obtain ⟨gas, memory, hcopy, hcovers, hgrown, hendless⟩ :=
    copyToMemory_of_affords source offset hpays
  have hsame : (fun i => source.extended (offset.toCount + i)) =
      fun i => source.extended (offset.toNat + i) :=
    funext (Bytes.extended_toCount hsize offset)
  rw [hsame] at hendless
  rw [bind_of_ok hcopy] at hperform
  refine ⟨_, (step_of_poised h).trans (bind_of_ok hperform), hendless, hcovers,
    hgrown, ?_, rfl⟩
  rw [← h.stack_begun]
  simp only [hnext]
  rfl

/-- How an instruction that comes to a copy and nothing else ends. -/
theorem copies_of_perform (hsize : source.size < 2 ^ 64)
    (h : Poised config.schedule opcode operands rest live.frame)
    (hnext : opcode.immediateLength = 0)
    (hperform : perform config env opcode operands
        { live with frame := begun config.schedule opcode live.frame } =
      (do
          copyToMemory config.schedule source target offset length
          return .next [] : Exec σ Flow)
        { live with frame := begun config.schedule opcode live.frame }) :
    Copies config env opcode target length
      (fun i => source.extended (offset.toNat + i)) rest
      live where
  of_affords := copied_of_perform hsize h hnext hperform
  of_not_affords hshort := by
    cases hcopy : copyToMemory config.schedule source target offset length
        { live with frame := begun config.schedule opcode live.frame } with
    | ok _ copied => exact absurd (affords_of_copyToMemory hcopy) hshort
    | error cause reached =>
      obtain rfl := failsOnly_copyToMemory _ _ _ _ _ _ _ _ hcopy
      rw [bind_of_error hcopy] at hperform
      exact ⟨reached, (step_of_poised h).trans (bind_of_error hperform)⟩
  breaksOff_iff haffords := by
    obtain ⟨after, hstep, hcopied⟩ :=
      copied_of_perform hsize h hnext hperform haffords
    rw [breaksOff_of_ok hstep, hcopied.size_eq]

/-- Where the instructions that pad take their bytes from, and the operands that
say so. -/
inductive CopiesFrom (live : Live σ) : Opcode → Stack → Bytes → Prop where
  | callData : CopiesFrom live .callDataCopy [] live.frame.context.data
  | code : CopiesFrom live .codeCopy [] live.frame.code
  | external {address : Word} {code : Bytes}
      (h : Ledger.code live.ledger address.toAddress = .ok code) :
      CopiesFrom live .extCodeCopy [address] code

theorem CopiesFrom.copies {selector : Stack}
    (h : CopiesFrom live opcode selector source) (hsize : source.size < 2 ^ 64)
    (hpoised : Poised config.schedule opcode
      (selector ++ [target, offset, length]) rest
      live.frame) :
    Copies config env opcode target length
      (fun i => source.extended (offset.toNat + i)) rest live := by
  cases h with
  | callData => exact copies_of_perform hsize hpoised rfl rfl
  | code => exact copies_of_perform hsize hpoised rfl rfl
  | @external address _ hcode =>
    apply copies_of_perform hsize hpoised rfl
    have hask : ask (Ledger.code · address.toAddress)
        { live with frame := begun config.schedule .extCodeCopy live.frame } =
        .ok source { live with
          frame := begun config.schedule .extCodeCopy live.frame } := by
      rw [ask, hcode]
    exact bind_of_ok hask

/-- Whether a piece lies within a byte string is decided as if on numbers
without bound. -/
theorem isWithin_iff (hsize : source.size < 2 ^ 64) :
    isWithin source offset length = true ↔
    offset.toNat + length.toNat ≤ source.size := by
  have hlimit : source.size ≤ Saturating.limit := Nat.le_of_lt_succ hsize
  rw [isWithin, Word.toCount?, Word.toCount?]
  by_cases hsum : offset.toNat + length.toNat ≤ Saturating.limit
  · rw [if_pos (by omega), if_pos (by omega)]
    dsimp only
    rw [Saturating.add?, if_pos hsum]
    exact decide_eq_true_iff
  -- A sum that is no count is larger than any byte string, whether or not its
  -- parts are counts.
  · refine iff_of_false ?_ (by omega)
    by_cases hoffset : offset.toNat ≤ Saturating.limit
    · by_cases hlength : length.toNat ≤ Saturating.limit
      · simp [hoffset, hlength, Saturating.add?, hsum]
      · simp [hoffset, hlength]
    · simp [hoffset]

/-- A poised copy of the last output is made if the piece lies within it. -/
theorem copies_of_isWithin (hsize : live.frame.returnData.size < 2 ^ 64)
    (hwithin : offset.toNat + length.toNat ≤ live.frame.returnData.size)
    (h : Poised config.schedule .returnDataCopy [target, offset,
      length] rest live.frame) :
    Copies config env .returnDataCopy target length
      (fun i => live.frame.returnData.extended (offset.toNat + i)) rest
      live := by
  apply copies_of_perform hsize h rfl
  have hcheck : (!isWithin live.frame.returnData offset length) = false := by
    rw [(isWithin_iff hsize).2 hwithin]
    rfl
  exact congrFun (if_neg (Bool.eq_false_iff.1 hcheck)) _

theorem step_of_not_isWithin (hsize : live.frame.returnData.size < 2 ^ 64)
    (hoverrun : live.frame.returnData.size < offset.toNat + length.toNat)
    (h : Poised config.schedule .returnDataCopy [target, offset,
      length] rest live.frame) :
    step config env live = .error (.halt .returnDataOutOfBounds)
      { live with
        frame := begun config.schedule .returnDataCopy live.frame } := by
  have hcheck : (!isWithin live.frame.returnData offset length) = true := by
    rw [Bool.not_eq_true', ← Bool.not_eq_true, isWithin_iff hsize]
    exact Nat.not_le.2 hoverrun
  rw [step_of_poised h]
  apply bind_of_error
  exact congrFun (if_pos hcheck) _

/-- Every instruction that reads bytes sees zeros past their end, at offsets too
large for a count as well.  A word of call data and a number written in code are
the numbers that the endless strings denote.  A copy of call data, of the
frame's own code or of another account's is made if it can be paid for and
memory can hold it, and writes the bytes of the endless string over its range of
memory; so a word of call data that is copied to memory and read there is the
word that is read at once.  The output of the frame called last has no zeros
after it: a copy of it fails if and only if the piece, computed without bound,
ends past the end of the output, and else writes what is there. -/
theorem readers_agree_on_zero_extension {σ : Type} [Ledger σ] (config : Config)
    (env : Environment) (live : Live σ) (rest : Stack) :
    (∀ offset, live.frame.context.data.size < 2 ^ 64 →
      Poised config.schedule .callDataLoad [offset] rest live.frame →
      Pushes config env .callDataLoad
        (live.frame.context.data.extended.number offset.toNat 32) rest live) ∧
    (∀ opcode selector source target offset length, source.size < 2 ^ 64 →
      CopiesFrom live opcode selector source →
      Poised config.schedule opcode (selector ++ [target, offset, length]) rest
        live.frame →
      Copies config env opcode target length
        (fun i => source.extended (offset.toNat + i)) rest
        live) ∧
    (∀ target offset beneath after, ∀ later : Live σ,
      live.frame.context.data.size < 2 ^ 64 →
      Poised config.schedule .callDataCopy [target, offset,
        32] rest live.frame →
      step config env live = .ok none after →
      later.frame.memory = after.frame.memory →
      Poised config.schedule .mload [target] beneath later.frame →
      Pushes config env .mload
        (live.frame.context.data.extended.number offset.toNat 32) beneath
        later) ∧
    (∀ n ≤ 32, Poised config.schedule (.push n) [] rest live.frame →
      Pushes config env (.push n)
        (live.frame.code.extended.number (live.frame.position + 1) n)
        rest live) ∧
    ∀ target offset length, live.frame.returnData.size < 2 ^ 64 →
      Poised config.schedule .returnDataCopy [target, offset,
        length] rest live.frame →
      ((∃ after, step config env live =
        .error (.halt .returnDataOutOfBounds) after) ↔
        live.frame.returnData.size < offset.toNat + length.toNat) ∧
      (offset.toNat + length.toNat ≤ live.frame.returnData.size →
        Copies config env .returnDataCopy target length
          (fun i => live.frame.returnData.extended (offset.toNat + i))
          rest live ∧
        ∀ i < length.toNat, live.frame.returnData[offset.toNat + i]? =
          some (live.frame.returnData.extended (offset.toNat + i))) := by
  refine ⟨fun offset => pushes_callDataLoad,
    fun _ _ _ _ _ _ hsize hfrom => hfrom.copies hsize, ?_, fun n => pushes_push,
    ?_⟩
  · intro target offset beneath after later hsize hpoised hstep hmemory hload
    have hcopied := (CopiesFrom.callData.copies hsize hpoised).copied hstep
    have hnumber : later.frame.memory.endless.number target.toNat 32 =
        live.frame.context.data.extended.number offset.toNat 32 := by
      rw [hmemory, hcopied.memory_eq]
      exact EndlessBytes.number_write ..
    rw [← hnumber]
    apply pushes_mload_of_covers _ hload
    rw [hmemory]
    exact hcopied.covers
  · intro target offset length hsize hpoised
    refine ⟨⟨?_, fun hoverrun => ⟨_,
      step_of_not_isWithin hsize hoverrun hpoised⟩⟩, ?_⟩
    · rintro ⟨after, hstep⟩
      by_contra hwithin
      exact (copies_of_isWithin hsize (Nat.not_lt.1 hwithin)
        hpoised).not_outOfBounds hstep
    · intro hwithin
      exact ⟨copies_of_isWithin hsize hwithin hpoised,
        fun i hi => Bytes.getElem?_eq_extended (by omega)⟩

/-- Call data, code and output that end too early: the second byte of two, a
number of which one byte is missing, and a piece that ends past the largest
word. -/
theorem reads_past_the_end :
    let live (code : Bytes) (stack : Stack) : Live LayeredLedger :=
      ⟨{ Frame.start code { data := #[0xaa, 0xbb] } 100 with stack }, {}⟩
    Pushes {} {} .callDataLoad (0xbb * 256 ^ 31) [] (live #[0x35] [1]) ∧
    Pushes {} {} .callDataLoad 0 [] (live #[0x35] [0x10000000000000001]) ∧
    Pushes {} {} (.push 2) 0xab00 [] (live #[0x61, 0xab] []) ∧
    ∃ after, step {} {} (live #[0x3e] [0, Word.top, 1]) =
      .error (.halt .returnDataOutOfBounds) after := by
  intro live
  have hreader (code stack) :=
    readers_agree_on_zero_extension {} {} (live code stack) []
  have hload (offset : Word) :=
    (hreader #[0x35] [offset]).1 offset (by decide : 2 < 2 ^ 64)
    ⟨rfl, rfl, rfl, le_rfl, (by decide : 1 ≤ 1024),
     (by decide : 3 ≤ 100), nofun⟩
  have hsecond : (Bytes.extended #[0xaa, 0xbb]).number (1 : Word).toNat 32 =
      0xbb * 256 ^ 31 := by
    decide +kernel
  have hfar : (Bytes.extended #[0xaa, 0xbb]).number
      (0x10000000000000001 : Word).toNat 32 = 0 := by
    decide +kernel
  have hcut : (Bytes.extended #[0x61, 0xab]).number 1 2 = 0xab00 := by decide
  refine ⟨?_, ?_, ?_, ?_⟩
  · rw [← hsecond]
    exact hload 1
  · rw [← hfar]
    exact hload 0x10000000000000001
  · rw [← hcut]
    exact (hreader #[0x61, 0xab] []).2.2.2.1 2 (by decide)
      ⟨rfl, rfl, rfl, by decide, by decide, by decide, nofun⟩
  · exact ((hreader #[0x3e] [0, Word.top, 1]).2.2.2.2 0 Word.top 1 (by decide)
      ⟨rfl, rfl, rfl, by decide, by decide, by decide,
       nofun⟩).1.2 (by decide +kernel)

end Execution

end ContractMachine
