import ContractMachine.Frame.Basic
import ContractMachine.Proofs.Actions
import ContractMachine.Proofs.Gas.MemoryPrice

/-!
# Memory that has been paid for

A range is covered if using it makes memory grow no further: what it needs is
there.  Ranges stay covered as memory grows, and so do their parts.  Growing
makes its range covered, and every use of a covered range is in bounds and
leaves the size of memory alone; `load?`, `store?` and `copyWithin?` are the
uses of memory that insist on this.

What a frame has and what its memory is worth together never become more when
the frame pays for what it does; this is the relation `Frame.Pays`.
-/

namespace ContractMachine

theorem le_wordCount_mul (length : Nat) : length ≤ wordCount length * 32 := by
  rw [wordCount]
  omega

theorem Word.eq_toNat_of_toCount? {word : Word} {count : Nat}
    (h : word.toCount? = some count) :
    count = word.toNat := by
  rw [toCount?] at h
  split at h <;> cases h
  rfl

namespace Memory

variable {memory other : Memory} {range : Range} {offset length size : Nat}
  {content : Bytes}

/-! ## Covered ranges -/

/-- A range that needs no growth, and lies within memory unless it is empty. -/
structure Covers (memory : Memory) (range : Range) : Prop where
  required : memory.requiredSize? range.offset range.length = some memory.size
  within : range.length ≠ 0 → range.offset + range.length ≤ memory.size

instance (memory : Memory) (range : Range) : Decidable (memory.Covers range) :=
  decidable_of_iff (memory.requiredSize? range.offset range.length =
    some memory.size ∧
      (range.length ≠ 0 → range.offset + range.length ≤ memory.size))
    ⟨fun h => ⟨h.1, h.2⟩, fun h => ⟨h.required, h.within⟩⟩

theorem requiredSize?_of_ne_zero (hlength : length ≠ 0) :
    memory.requiredSize? offset length =
      if wordCount (offset + length) * 32 ≤ Saturating.limit then
        some (max (wordCount (offset + length) * 32) memory.size)
      else none := by
  have hle := le_wordCount_mul (offset + length)
  rw [requiredSize?, if_neg hlength, Saturating.add?]
  by_cases hend : offset + length ≤ Saturating.limit
  · rw [if_pos hend]
    dsimp only
    rw [Saturating.mul?]
    split <;> rfl
  · rw [if_neg hend, if_neg fun h => hend (hle.trans h)]

theorem requiredSize?_eq_some_iff (hlength : length ≠ 0) :
    memory.requiredSize? offset length = some size ↔
      wordCount (offset + length) * 32 ≤ Saturating.limit ∧
        max (wordCount (offset + length) * 32) memory.size = size := by
  rw [requiredSize?_of_ne_zero hlength]
  by_cases hcount : wordCount (offset + length) * 32 ≤ Saturating.limit
  · rw [if_pos hcount, Option.some.injEq]
    exact ⟨fun h => ⟨hcount, h⟩, And.right⟩
  · rw [if_neg hcount]
    exact ⟨nofun, fun h => absurd h.1 hcount⟩

/-- The words that a covered range reaches into are all there, and can be
counted. -/
theorem covers_iff : memory.Covers range ↔ range.length = 0 ∨
    wordCount (range.offset + range.length) * 32 ≤
      min Saturating.limit memory.size := by
  by_cases hlength : range.length = 0
  · have hrequired : memory.requiredSize? range.offset range.length =
        some memory.size := by
      rw [requiredSize?, if_pos hlength]
    exact ⟨fun _ => .inl hlength, fun _ => ⟨hrequired, absurd hlength⟩⟩
  constructor
  · intro h
    obtain ⟨hcount, hsize⟩ := (requiredSize?_eq_some_iff hlength).1 h.required
    exact .inr (Nat.le_min.2 ⟨hcount, (Nat.le_max_left ..).trans hsize.le⟩)
  · rintro (hempty | hwords)
    · exact absurd hempty hlength
    obtain ⟨hcount, hsize⟩ := Nat.le_min.1 hwords
    exact ⟨(requiredSize?_eq_some_iff hlength).2
      ⟨hcount, Nat.max_eq_right hsize⟩,
      fun _ => (le_wordCount_mul _).trans hsize⟩

theorem Covers.of_size_le (h : memory.Covers range)
    (hsize : memory.size ≤ other.size) :
    other.Covers range :=
  covers_iff.2 ((covers_iff.1 h).imp_right fun hwords =>
    hwords.trans (min_le_min_left _ hsize))

/-- A part of a covered range at its beginning is covered. -/
theorem Covers.shorten (h : memory.Covers ⟨offset, length⟩) {shorter : Nat}
    (hle : shorter ≤ length) : memory.Covers ⟨offset, shorter⟩ := by
  obtain hempty | hwords := covers_iff.1 h
  · exact covers_iff.2 (.inl (Nat.le_zero.1 (hle.trans hempty.le)))
  · refine covers_iff.2
      (.inr (Nat.le_trans (Nat.mul_le_mul_right 32 ?_) hwords))
    exact wordCount_mono (Nat.add_le_add_left hle offset)

theorem expand_of_covers (h : memory.Covers ⟨offset, length⟩) :
    memory.expand offset length = memory := by
  have hrequired : memory.requiredSize? offset length = some memory.size :=
    h.required
  rw [expand, hrequired]
  simp

theorem covers_expand (h : memory.requiredSize? offset length = some size) :
    (memory.expand offset length).Covers ⟨offset, length⟩ := by
  rw [covers_iff, size_expand h]
  by_cases hlength : length = 0
  · exact .inl hlength
  · obtain ⟨hcount, rfl⟩ := (requiredSize?_eq_some_iff hlength).1 h
    exact .inr (Nat.le_min.2 ⟨hcount, Nat.le_max_left ..⟩)

/-- Memory grows by whole words. -/
theorem dvd_of_requiredSize? (hsize : 32 ∣ memory.size)
    (h : memory.requiredSize? offset length = some size) : 32 ∣ size := by
  by_cases hlength : length = 0
  · rw [requiredSize?, if_pos hlength] at h
    cases h
    exact hsize
  · obtain ⟨_, rfl⟩ := (requiredSize?_eq_some_iff hlength).1 h
    rcases max_choice (wordCount (offset + length) * 32) memory.size with
      hmax | hmax
    · rw [hmax]
      exact Nat.dvd_mul_left ..
    · rw [hmax]
      exact hsize

/-! ## Uses of covered ranges -/

/-- Reads a range, which must be covered. -/
def load? (memory : Memory) (range : Range) : Option Bytes :=
  if memory.Covers range then
    some (memory.bytes.extract range.offset (range.offset + range.length))
  else none

/-- Writes a byte string, whose place must be covered. -/
def store? (memory : Memory) (offset : Nat) (content : Bytes) : Option Memory :=
  if memory.Covers ⟨offset, content.size⟩ then
    some { bytes := memory.bytes.overwrite offset content.toList }
  else none

/-- Copies a range to another place; both must be covered. -/
def copyWithin? (memory : Memory) (target source length : Nat) :
    Option Memory :=
  if memory.Covers ⟨source, length⟩ ∧ memory.Covers ⟨target, length⟩ then
    some {
      bytes := memory.bytes.overwrite target
        (memory.bytes.extract source (source + length)).toList }
  else none

theorem load_of_covers (h : memory.Covers range) :
    memory.load range.offset range.length =
      (memory.bytes.extract range.offset (range.offset + range.length),
        memory) := by
  rw [load]
  by_cases hlength : range.length = 0
  · rw [if_pos hlength, hlength]
    simp
  · rw [if_neg hlength, expand_of_covers h]

theorem store?_of_covers (h : memory.Covers ⟨offset, content.size⟩) :
    memory.store? offset content = some (memory.store offset content) := by
  rw [store?, if_pos h, store]
  by_cases hempty : content.isEmpty = true
  · rw [if_pos hempty, Array.isEmpty_iff.1 hempty]
    rfl
  · rw [if_neg hempty, expand_of_covers h]

theorem copyWithin?_of_covers {target source : Nat}
    (hsource : memory.Covers ⟨source, length⟩)
    (htarget : memory.Covers ⟨target, length⟩) :
    memory.copyWithin? target source length =
      some (memory.copyWithin target source length) := by
  have hboth : memory.Covers ⟨max target source, length⟩ := by
    rcases max_choice target source with hmax | hmax
    · rw [hmax]
      exact htarget
    · rw [hmax]
      exact hsource
  rw [copyWithin?, if_pos ⟨hsource, htarget⟩, copyWithin]
  by_cases hlength : length = 0
  · rw [if_pos hlength, hlength, Nat.add_zero,
      Array.extract_empty_of_stop_le_start (le_refl _)]
    rfl
  · rw [if_neg hlength, expand_of_covers hboth]

theorem size_of_store? (h : memory.store? offset content = some other) :
    other.size = memory.size := by
  rw [store?] at h
  split at h <;> cases h
  exact Bytes.size_overwrite ..

theorem size_of_copyWithin? {target source : Nat}
    (h : memory.copyWithin? target source length = some other) :
    other.size = memory.size := by
  rw [copyWithin?] at h
  split at h <;> cases h
  exact Bytes.size_overwrite ..

end Memory

/-! ## Paying -/

/-- What memory has cost so far. -/
def Memory.price (schedule : Schedule) (memory : Memory) : Nat :=
  schedule.memoryCost (wordCount memory.size)

namespace Frame

variable {schedule : Schedule} {before after frame touched : Frame}
  {offset length : Word} {range : Range}

/-- Memory does not shrink, stays made of whole words, and what it is worth more
is paid. -/
structure Pays (schedule : Schedule) (before after : Frame) : Prop where
  grows : before.memory.size ≤ after.memory.size
  aligned : 32 ∣ before.memory.size → 32 ∣ after.memory.size
  paid : after.gas + after.memory.price schedule ≤
    before.gas + before.memory.price schedule

namespace Pays

theorem of_size_eq (hsize : after.memory.size = before.memory.size)
    (hgas : after.gas ≤ before.gas) : Pays schedule before after where
  grows := hsize.ge
  aligned := by
    rw [hsize]
    exact id
  paid := by
    rw [Memory.price, Memory.price, hsize]
    exact Nat.add_le_add_right hgas _

theorem refl (frame : Frame) : Pays schedule frame frame :=
  of_size_eq rfl le_rfl

theorem gas_le (h : Pays schedule before after) : after.gas ≤ before.gas := by
  have hprice : before.memory.price schedule ≤ after.memory.price schedule :=
    schedule.memoryCost_mono (wordCount_mono h.grows)
  have hpaid := h.paid
  omega

theorem trans {last : Frame} (hfirst : Pays schedule before after)
    (hsecond : Pays schedule after last) : Pays schedule before last where
  grows := hfirst.grows.trans hsecond.grows
  aligned := hsecond.aligned ∘ hfirst.aligned
  paid := hsecond.paid.trans hfirst.paid

end Pays

theorem charge_eq_ok {amount : Nat} (h : charge amount frame = .ok () after) :
    amount ≤ frame.gas ∧ after = { frame with gas := frame.gas - amount } := by
  rw [charge] at h
  split at h <;> cases h
  exact ⟨Nat.not_lt.1 ‹_›, rfl⟩

theorem charge_eq_error {amount : Nat} {cause : Halt}
    (h : charge amount frame = .error cause after) :
    after = { frame with gas := 0 } := by
  rw [charge] at h
  split at h <;> cases h
  rfl

/-- How a range comes to be covered: it is empty, or memory has been paid for
and grown. -/
theorem touch_eq_ok
    (h : touch schedule offset length frame = .ok range touched) :
    (length = 0 ∧ range = {} ∧ touched = frame) ∨
    ∃ size, frame.memory.requiredSize? offset.toNat length.toNat = some size ∧
      range = { offset := offset.toNat, length := length.toNat } ∧
      schedule.expansionCost frame.memory.size size ≤ frame.gas ∧
      touched = { frame with
        gas := frame.gas - schedule.expansionCost frame.memory.size size
        memory := frame.memory.expand offset.toNat length.toNat } := by
  rw [touch] at h
  split at h
  case isTrue hempty =>
    cases h
    exact .inl ⟨hempty, rfl, rfl⟩
  split at h
  case h_2 => cases h
  case h_1 first count hfirst hcount =>
    obtain rfl := Word.eq_toNat_of_toCount? hfirst
    obtain rfl := Word.eq_toNat_of_toCount? hcount
    cases hsize : frame.memory.requiredSize? offset.toNat length.toNat with
    | none => simp [hsize] at h
    | some size =>
      simp only [hsize] at h
      cases hcharge : charge (schedule.expansionCost frame.memory.size size)
        frame with
      | error cause paid => simp [hcharge] at h
      | ok _ paid =>
        obtain ⟨hcost, rfl⟩ := charge_eq_ok hcharge
        simp only [hcharge] at h
        cases h
        exact .inr ⟨size, rfl, rfl, hcost, rfl⟩

/-- A range that cannot be paid for leaves memory as it is. -/
theorem touch_eq_error {cause : Halt}
    (h : touch schedule offset length frame = .error cause touched) :
    touched.memory = frame.memory ∧ touched.gas ≤ frame.gas := by
  rw [touch] at h
  split at h
  case isTrue => cases h
  split at h
  case h_2 =>
    cases h
    exact ⟨rfl, le_rfl⟩
  case h_1 first count _ _ =>
    cases hsize : frame.memory.requiredSize? first count with
    | none =>
      simp only [hsize] at h
      cases h
      exact ⟨rfl, le_rfl⟩
    | some size =>
      simp only [hsize] at h
      cases hcharge : charge (schedule.expansionCost frame.memory.size size)
        frame with
      | ok _ paid => simp [hcharge] at h
      | error reason paid =>
        simp only [hcharge] at h
        cases h
        rw [charge_eq_error hcharge]
        exact ⟨rfl, Nat.zero_le _⟩

/-- What a frame has after it has paid for a range. -/
structure Touches (schedule : Schedule) (length : Word) (frame : Frame)
    (range : Range) (touched : Frame) : Prop where
  frame_eq : touched = { frame with
    gas := touched.gas, memory := touched.memory }
  covers : touched.memory.Covers range
  range_length : range.length = length.toNat
  grows : frame.memory.size ≤ touched.memory.size
  aligned : 32 ∣ frame.memory.size → 32 ∣ touched.memory.size
  charged : touched.gas +
    schedule.expansionCost frame.memory.size touched.memory.size = frame.gas

theorem touches_of_touch
    (h : touch schedule offset length frame = .ok range touched) :
    Touches schedule length frame range touched := by
  obtain ⟨rfl, rfl, rfl⟩ | ⟨size, hsize, rfl, hcost, rfl⟩ := touch_eq_ok h
  · refine ⟨rfl, Memory.covers_iff.2 (.inl rfl), rfl, le_rfl, id, ?_⟩
    rw [Schedule.expansionCost_eq schedule le_rfl, Nat.sub_self, Nat.add_zero]
  · have hgrown := Memory.size_expand hsize
    refine ⟨rfl, Memory.covers_expand hsize, rfl, ?_, fun haligned => ?_, ?_⟩
    · rw [hgrown]
      exact Memory.size_le_of_requiredSize? hsize
    · rw [hgrown]
      exact Memory.dvd_of_requiredSize? haligned hsize
    · rw [hgrown]
      exact Nat.sub_add_cancel hcost

theorem Touches.pays (h : Touches schedule length frame range touched) :
    Pays schedule frame touched where
  grows := h.grows
  aligned := h.aligned
  paid := by
    have hprice := schedule.expansionCost_add_memoryCost h.grows
    have hcharged := h.charged
    rw [Memory.price, Memory.price]
    omega

theorem pays_touch (schedule : Schedule) (offset length : Word)
    (frame : Frame) :
    Pays schedule frame
      (Actions.left (touch schedule offset length frame)) := by
  cases htouch : touch schedule offset length frame with
  | ok range touched => exact (touches_of_touch htouch).pays
  | error cause touched =>
    obtain ⟨hmemory, hgas⟩ := touch_eq_error htouch
    exact .of_size_eq (congrArg Memory.size hmemory) hgas

theorem pays_charge (amount : Nat) (frame : Frame) :
    Pays schedule frame (Actions.left (charge amount frame)) := by
  cases hcharge : charge amount frame with
  | ok _ paid =>
    rw [(charge_eq_ok hcharge).2]
    exact .of_size_eq rfl (Nat.sub_le ..)
  | error cause paid =>
    rw [charge_eq_error hcharge]
    exact .of_size_eq rfl (Nat.zero_le _)

/-! ## Many ranges -/

/-- Pays for one range after another. -/
def touchAll (schedule : Schedule) (ranges : List (Word × Word)) :
    EStateM Halt Frame Unit :=
  ranges.forM fun (offset, length) => do
    let _ ← touch schedule offset length

/-- The charges for any number of ranges come to what growing at once costs. -/
theorem charged_of_touchAll {ranges : List (Word × Word)}
    (h : touchAll schedule ranges frame = .ok () touched) :
    frame.memory.size ≤ touched.memory.size ∧
      (32 ∣ frame.memory.size → 32 ∣ touched.memory.size) ∧
      touched.gas + schedule.expansionCost frame.memory.size
        touched.memory.size =
        frame.gas := by
  induction ranges generalizing frame with
  | nil =>
    cases h
    refine ⟨le_rfl, id, ?_⟩
    rw [Schedule.expansionCost_eq schedule le_rfl, Nat.sub_self, Nat.add_zero]
  | cons first rest ih =>
    obtain ⟨_, reached, hfirst, hrest⟩ := Actions.bind_eq_ok_iff.1 h
    obtain ⟨range, _, htouch, hpure⟩ := Actions.bind_eq_ok_iff.1 hfirst
    cases hpure
    have htouches := touches_of_touch htouch
    obtain ⟨hgrows, haligned, hcharged⟩ := ih hrest
    have hsum := schedule.expansionCost_add htouches.grows hgrows
    have hfirstCharged := htouches.charged
    exact ⟨htouches.grows.trans hgrows, haligned ∘ htouches.aligned, by omega⟩

end Frame

end ContractMachine
