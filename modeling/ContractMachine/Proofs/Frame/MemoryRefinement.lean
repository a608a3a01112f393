import ContractMachine.Proofs.Frame.EndlessBytes
import ContractMachine.Proofs.Frame.MemoryGrowth

/-!
# Memory is an endless array of zeros

What a frame can do with its memory is the same as with an endless array that
holds nothing but zeros at first: writes change the bytes of their range and
no others, copies read before they write, and reads change nothing.  How far
memory has grown shows in its size alone, and the size tells of a history of
uses only the furthest byte that was touched.

That is so up to the capacity of memory, which is less than the sizes that can
be counted.  Growing beyond it breaks off, and a history of uses comes to its
end if and only if it touches no range that reaches further.

Operations and replies are data, so that memory and the array can be compared
on every history.
-/

namespace ContractMachine

namespace Memory

/-- The ranges that an operation touches. -/
def Operation.ranges : Operation → List Range
  | .expand offset length | .load offset length
  | .storePadded offset length _ _ =>
    [⟨offset, length⟩]
  | .loadWord offset | .storeWord offset _ => [⟨offset, 32⟩]
  | .storeByte offset _ => [⟨offset, 1⟩]
  | .store offset content => [⟨offset, content.size⟩]
  | .copyWithin target source length => [⟨target, length⟩, ⟨source, length⟩]

/-- The replies to a history of operations, and what it leaves. -/
def serve {σ : Type} (perform : Operation → σ → Reply × σ) :
    List Operation → σ → List Reply × σ
  | [], state => ([], state)
  | operation :: rest, state =>
    let (reply, next) := perform operation state
    let (replies, last) := serve perform rest next
    (reply :: replies, last)

/-- The replies to a history of operations, and the memory it leaves; `none` if
one of them breaks off. -/
def serve? : List Operation → Memory → Option (List Reply × Memory)
  | [], memory => some ([], memory)
  | operation :: rest, memory =>
    match perform? operation memory with
    | none => none
    | some (reply, next) =>
      (serve? rest next).map fun (replies, last) => (reply :: replies, last)

end Memory

/-- What an operation does to an endless array. -/
def EndlessBytes.perform :
    Memory.Operation → EndlessBytes → Memory.Reply × EndlessBytes
  | .expand _ _, array => (.done, array)
  | .loadWord offset, array =>
    (.word (BitVec.ofNat 256 (array.number offset 32)), array)
  | .load offset length, array => (.bytes (array.cut offset length), array)
  | .storeWord offset word, array =>
    (.done, array.write offset 32 fun i =>
      UInt8.ofNat (word.toNat / 256 ^ (31 - i)))
  | .storeByte offset byte, array => (.done, array.write offset 1 fun _ => byte)
  | .store offset content, array =>
    (.done, array.write offset content.size content.extended)
  | .storePadded offset length source sourceOffset, array =>
    (.done, array.write offset length fun i =>
      source.extended (sourceOffset + i))
  | .copyWithin target source length, array =>
    (.done, array.write target length fun i => array (source + i))

namespace Range

/-- The size in whole words that covers a range; an empty one needs none. -/
def extent (range : Range) : Nat :=
  if range.length = 0 then 0 else wordCount (range.offset + range.length) * 32

/-- Whether some memory could cover a range. -/
def Addressable (range : Range) : Prop :=
  ({} : Memory).requiredSize? range.offset range.length ≠ none

variable {range : Range}

theorem requiredSize?_eq (memory : Memory) (range : Range) :
    memory.requiredSize? range.offset range.length =
      if range.extent ≤ Saturating.limit then
        some (max range.extent memory.size) else none := by
  by_cases hlength : range.length = 0
  · rw [extent, if_pos hlength, Memory.requiredSize?, if_pos hlength,
      if_pos (Nat.zero_le _), Nat.zero_max]
  · rw [extent, if_neg hlength, Memory.requiredSize?_of_ne_zero hlength]

theorem addressable_iff_extent_le :
    range.Addressable ↔ range.extent ≤ Saturating.limit := by
  rw [Addressable, requiredSize?_eq]
  split <;> simp_all

/-- Whether a range can be covered does not hang on the memory. -/
theorem addressable_iff (memory : Memory) :
    range.Addressable ↔
    memory.requiredSize? range.offset range.length ≠ none := by
  rw [addressable_iff_extent_le, requiredSize?_eq]
  split <;> simp_all

theorem addressable_of_requiredSize? {memory : Memory} {size : Nat}
    (h : memory.requiredSize? range.offset range.length = some size) :
    range.Addressable := by
  rw [addressable_iff memory, h]
  exact Option.some_ne_none size

theorem Addressable.requiredSize? (h : range.Addressable) (memory : Memory) :
    memory.requiredSize? range.offset range.length =
      some (max range.extent memory.size) := by
  rw [requiredSize?_eq, if_pos (addressable_iff_extent_le.1 h)]

/-- Of two ranges of one length the later one reaches further. -/
theorem extent_max (first second length : Nat) :
    (⟨max first second, length⟩ : Range).extent =
      max (⟨first, length⟩ : Range).extent
        (⟨second, length⟩ : Range).extent := by
  simp only [extent]
  by_cases hlength : length = 0
  · simp [hlength]
  · simp only [if_neg hlength, wordCount]
    omega

theorem Addressable.max {first second length : Nat}
    (hfirst : Addressable ⟨first, length⟩)
    (hsecond : Addressable ⟨second, length⟩) :
    Addressable ⟨max first second, length⟩ := by
  rw [addressable_iff_extent_le, extent_max]
  exact max_le (addressable_iff_extent_le.1 hfirst)
    (addressable_iff_extent_le.1 hsecond)

end Range

namespace Memory

variable {memory : Memory} {operation : Operation} {offset length : Nat}
  {content : Bytes}

/-! ## Bytes -/

/-- Memory as an endless array. -/
def endless (memory : Memory) : EndlessBytes := memory.bytes.extended

theorem endless_empty : ({} : Memory).endless = EndlessBytes.zeros := rfl

theorem endless_expand (memory : Memory) (offset length : Nat) :
    (memory.expand offset length).endless = memory.endless :=
  funext (byteAt_expand memory offset length)

theorem le_size_expand (h : (⟨offset, length⟩ : Range).Addressable)
    (hlength : length ≠ 0) :
    offset + length ≤ (memory.expand offset length).size :=
  have hrequired := h.requiredSize? memory
  (le_of_requiredSize? hrequired hlength).trans (size_expand hrequired).ge

/-- A range that memory has grown to cover holds the bytes of the endless
array. -/
theorem extract_expand (h : (⟨offset, length⟩ : Range).Addressable)
    (hlength : length ≠ 0) :
    (memory.expand offset length).bytes.extract offset (offset + length) =
      memory.endless.cut offset length := by
  rw [Bytes.extract_eq_cut (le_size_expand h hlength)]
  exact congrArg (EndlessBytes.cut · offset length)
    (endless_expand memory offset length)

theorem load_eq (h : (⟨offset, length⟩ : Range).Addressable) :
    memory.load offset length =
      (memory.endless.cut offset length, memory.expand offset length) := by
  rw [load]
  by_cases hlength : length = 0
  · rw [if_pos hlength, expand_of_covers (covers_iff.2 (.inl hlength)), hlength]
    rfl
  · rw [if_neg hlength]
    dsimp only
    rw [extract_expand h hlength]

theorem endless_overwrite (h : offset + content.size ≤ memory.size) :
    ({ bytes := memory.bytes.overwrite offset content.toList } :
      Memory).endless =
      memory.endless.write offset content.size content.extended := by
  have hfits : offset + content.toList.length ≤ memory.bytes.size := by
    rw [Array.length_toList]
    exact h
  funext i
  rw [endless, Bytes.extended, Bytes.getD_overwrite _ _ _ _ hfits,
    Array.length_toList]
  simp [EndlessBytes.write, endless, Bytes.extended,
    Array.getD_eq_getD_getElem?, List.getD_eq_getElem?_getD]

theorem endless_store (h : (⟨offset, content.size⟩ : Range).Addressable) :
    (memory.store offset content).endless =
      memory.endless.write offset content.size content.extended := by
  funext i
  exact byteAt_store (h.requiredSize? memory) i

theorem endless_storeWord (word : Word)
    (h : (⟨offset, 32⟩ : Range).Addressable) :
    (memory.storeWord offset word).endless =
      memory.endless.write offset 32 fun i =>
        UInt8.ofNat (word.toNat / 256 ^ (31 - i)) := by
  have hsize := word.size_toBytes
  rw [storeWord, endless_store (by rwa [hsize]), hsize]
  apply EndlessBytes.write_congr
  intro i hi
  exact word.getD_toBytes hi

theorem endless_storeByte (byte : UInt8)
    (h : (⟨offset, 1⟩ : Range).Addressable) :
    (memory.storeByte offset byte).endless =
      memory.endless.write offset 1 fun _ => byte := by
  rw [storeByte, endless_store h]
  apply EndlessBytes.write_congr
  intro i hi
  rw [Nat.lt_one_iff.1 hi]
  rfl

theorem endless_storePadded (source : Bytes) (sourceOffset : Nat)
    (h : (⟨offset, length⟩ : Range).Addressable) :
    (memory.storePadded offset length source sourceOffset).endless =
      memory.endless.write offset length fun i =>
        source.extended (sourceOffset + i) := by
  have hsize := source.size_window sourceOffset length
  rw [storePadded, endless_store (by rwa [hsize]), hsize]
  apply EndlessBytes.write_congr
  intro i hi
  rw [Bytes.window_eq_cut, Bytes.extended_cut _ _ hi]

/-- A copy takes the bytes as they were, however the two ranges overlap. -/
theorem endless_copyWithin {target source : Nat}
    (htarget : (⟨target, length⟩ : Range).Addressable)
    (hsource : (⟨source, length⟩ : Range).Addressable) :
    (memory.copyWithin target source length).endless =
      memory.endless.write target length fun i =>
        memory.endless (source + i) := by
  rw [copyWithin]
  by_cases hlength : length = 0
  · rw [if_pos hlength, hlength, EndlessBytes.write_zero]
  rw [if_neg hlength]
  -- Growing at the further of the two places covers both.
  have hwithin : max target source + length ≤
      (memory.expand (max target source) length).size :=
    le_size_expand (htarget.max hsource) hlength
  have hcut :
      (memory.expand (max target source) length).bytes.extract source
        (source + length) = memory.endless.cut source length := by
    rw [Bytes.extract_eq_cut (le_trans (by omega) hwithin)]
    exact congrArg (EndlessBytes.cut · source length) (endless_expand ..)
  dsimp only
  rw [hcut, endless_overwrite (by rw [EndlessBytes.size_cut]; omega),
    EndlessBytes.size_cut, endless_expand]
  apply EndlessBytes.write_congr
  intro i hi
  exact Bytes.extended_cut _ _ hi

/-- One operation replies to memory and to the endless array alike, and leaves
the same bytes. -/
theorem perform_refines (h : ∀ range ∈ operation.ranges, range.Addressable)
    (memory : Memory) :
    Prod.map id endless (perform operation memory) =
      EndlessBytes.perform operation memory.endless := by
  cases operation with
  | expand offset length =>
    exact congrArg (Prod.mk _) (endless_expand memory offset length)
  | loadWord offset =>
    have hrange := h _ List.mem_cons_self
    have hword : (memory.loadWord offset).1 =
        BitVec.ofNat 256 (memory.endless.number offset 32) := by
      rw [loadWord, extract_expand hrange (by decide),
        Word.ofBytes_cut _ _ le_rfl]
    rw [perform, Prod.map, hword]
    exact congrArg (Prod.mk _) (endless_expand memory offset 32)
  | load offset length =>
    rw [perform, load_eq (h _ List.mem_cons_self)]
    exact congrArg (Prod.mk _) (endless_expand memory offset length)
  | storeWord offset word =>
    exact congrArg (Prod.mk _) (endless_storeWord word (h _ List.mem_cons_self))
  | storeByte offset byte =>
    exact congrArg (Prod.mk _) (endless_storeByte byte (h _ List.mem_cons_self))
  | store offset content =>
    exact congrArg (Prod.mk _) (endless_store (h _ List.mem_cons_self))
  | storePadded offset length source sourceOffset =>
    exact congrArg (Prod.mk _)
      (endless_storePadded source sourceOffset (h _ List.mem_cons_self))
  | copyWithin target source length =>
    obtain ⟨htarget, hrest⟩ := List.forall_mem_cons.1 h
    exact congrArg (Prod.mk _)
      (endless_copyWithin htarget (hrest _ List.mem_cons_self))

/-- So does every history of operations. -/
theorem serve_refines {history : List Operation}
    (h : ∀ operation ∈ history, ∀ range ∈ operation.ranges, range.Addressable)
    (memory : Memory) :
    Prod.map id endless (serve perform history memory) =
      serve EndlessBytes.perform history memory.endless := by
  induction history generalizing memory with
  | nil => rfl
  | cons operation rest ih =>
    obtain ⟨hfirst, hrest⟩ := List.forall_mem_cons.1 h
    have hstep := perform_refines hfirst memory
    have hlater := ih hrest (perform operation memory).2
    rw [serve, serve, ← hstep]
    dsimp only [Prod.map]
    rw [← hlater]
    rfl

/-! ## Size -/

theorem size_expand_eq {range : Range} (h : range.Addressable)
    (memory : Memory) :
    (memory.expand range.offset range.length).size =
      max range.extent memory.size :=
  size_expand (h.requiredSize? memory)

theorem size_store (h : (⟨offset, content.size⟩ : Range).Addressable)
    (memory : Memory) :
    (memory.store offset content).size =
      max (⟨offset, content.size⟩ : Range).extent memory.size := by
  have hsize := size_expand_eq h memory
  rw [store]
  by_cases hempty : content.isEmpty = true
  · rw [if_pos hempty, Array.isEmpty_iff.1 hempty]
    exact (Nat.zero_max _).symm
  · rw [if_neg hempty]
    exact (Bytes.size_overwrite ..).trans hsize

theorem size_storePadded (source : Bytes) (sourceOffset : Nat)
    (h : (⟨offset, length⟩ : Range).Addressable) (memory : Memory) :
    (memory.storePadded offset length source sourceOffset).size =
      max (⟨offset, length⟩ : Range).extent memory.size := by
  have hwindow := source.size_window sourceOffset length
  have hrange : (⟨offset, (source.window sourceOffset length).size⟩ :
      Range).Addressable := by rwa [hwindow]
  have hsize := size_store hrange memory
  rw [hwindow] at hsize
  exact hsize

/-- An operation grows memory as far as the ranges it touches reach. -/
theorem size_perform (h : ∀ range ∈ operation.ranges, range.Addressable)
    (memory : Memory) :
    (perform operation memory).2.size =
      operation.ranges.foldl (fun size range => max range.extent size)
        memory.size := by
  cases operation with
  | expand offset length => exact size_expand_eq (h _ List.mem_cons_self) memory
  | loadWord offset => exact size_expand_eq (h _ List.mem_cons_self) memory
  | load offset length =>
    have hrange := h _ List.mem_cons_self
    rw [perform, load_eq hrange]
    exact size_expand_eq hrange memory
  | storeWord offset word =>
    have hrange : (⟨offset, word.toBytes.size⟩ : Range).Addressable := by
      rw [word.size_toBytes]
      exact h _ List.mem_cons_self
    have hsize := size_store hrange memory
    rw [word.size_toBytes] at hsize
    exact hsize
  | storeByte offset byte => exact size_store (h _ List.mem_cons_self) memory
  | store offset content => exact size_store (h _ List.mem_cons_self) memory
  | storePadded offset length source sourceOffset =>
    exact size_storePadded source sourceOffset (h _ List.mem_cons_self) memory
  | copyWithin target source length =>
    obtain ⟨htarget, hrest⟩ := List.forall_mem_cons.1 h
    have hsource := hrest _ List.mem_cons_self
    calc
      (memory.copyWithin target source length).size =
          (memory.expand (max target source) length).size := by
        rw [copyWithin]
        by_cases hlength : length = 0
        · rw [if_pos hlength, expand_of_covers (covers_iff.2 (.inl hlength))]
        · rw [if_neg hlength]
          exact Bytes.size_overwrite ..
      _ = max (max (⟨target, length⟩ : Range).extent
            (⟨source, length⟩ : Range).extent) memory.size := by
        rw [← Range.extent_max]
        exact size_expand_eq (htarget.max hsource) memory
      _ = max (⟨source, length⟩ : Range).extent
          (max (⟨target, length⟩ : Range).extent memory.size) := by
        rw [max_comm (⟨target, length⟩ : Range).extent, max_assoc]

theorem size_serve {history : List Operation}
    (h : ∀ operation ∈ history, ∀ range ∈ operation.ranges, range.Addressable)
    (memory : Memory) :
    (serve perform history memory).2.size =
      (history.flatMap Operation.ranges).foldl
        (fun size range => max range.extent size) memory.size := by
  induction history generalizing memory with
  | nil => rfl
  | cons operation rest ih =>
    obtain ⟨hfirst, hrest⟩ := List.forall_mem_cons.1 h
    rw [List.flatMap_cons, List.foldl_append, ← size_perform hfirst memory]
    exact ih hrest (perform operation memory).2

end Memory

/-- A multiple of 32 covers a range if it covers the words of the range. -/
theorem Range.extent_le_iff {range : Range} {size : Nat} (h : 32 ∣ size) :
    range.extent ≤ size ↔
    (range.length ≠ 0 → range.offset + range.length ≤ size) := by
  rw [extent]
  by_cases hlength : range.length = 0
  · simp [hlength]
  · rw [if_neg hlength, wordCount]
    constructor
    · intro hle _
      omega
    · intro hle
      have := hle hlength
      omega

theorem Range.dvd_extent (range : Range) : 32 ∣ range.extent := by
  rw [extent]
  split
  · exact Nat.dvd_zero 32
  · exact Nat.dvd_mul_left ..

/-- A size in whole words that covers every range but empty ones. -/
structure Memory.Spans (ranges : List Range) (size : Nat) : Prop where
  aligned : 32 ∣ size
  covers : ∀ range ∈ ranges,
    range.length ≠ 0 → range.offset + range.length ≤ size

/-- Growing range by range comes to the least size that covers them all. -/
theorem Memory.isLeast_spans (ranges : List Range) {start : Nat}
    (h : 32 ∣ start) :
    IsLeast {size | start ≤ size ∧ Spans ranges size}
      (ranges.foldl (fun size range => max range.extent size) start) := by
  induction ranges generalizing start with
  | nil => exact ⟨⟨le_rfl, h, nofun⟩, fun size hsize => hsize.1⟩
  | cons range rest ih =>
    have hgrown : 32 ∣ max range.extent start := by
      rcases max_choice range.extent start with hmax | hmax
      · rw [hmax]
        exact range.dvd_extent
      · rw [hmax]
        exact h
    have hsame : {size | start ≤ size ∧ Spans (range :: rest) size} =
        {size | max range.extent start ≤ size ∧ Spans rest size} := by
      ext size
      constructor
      · rintro ⟨hstart, haligned, hcovers⟩
        obtain ⟨hfirst, hrest⟩ := List.forall_mem_cons.1 hcovers
        exact ⟨max_le ((Range.extent_le_iff haligned).2 hfirst) hstart,
          haligned, hrest⟩
      · rintro ⟨hmax, haligned, hrest⟩
        obtain ⟨hextent, hstart⟩ := max_le_iff.1 hmax
        exact ⟨hstart, haligned,
          List.forall_mem_cons.2 ⟨(Range.extent_le_iff haligned).1 hextent,
            hrest⟩⟩
    rw [hsame]
    exact ih hgrown

namespace Memory

theorem isLeast_size_serve {history : List Operation}
    (h : ∀ operation ∈ history, ∀ range ∈ operation.ranges, range.Addressable) :
    IsLeast {size | Spans (history.flatMap Operation.ranges) size}
      (serve perform history {}).2.size := by
  have hleast := isLeast_spans (history.flatMap Operation.ranges)
    (Nat.dvd_zero 32)
  have hall : {size | 0 ≤ size ∧
      Spans (history.flatMap Operation.ranges) size} =
      {size | Spans (history.flatMap Operation.ranges) size} := by
    ext size
    exact and_iff_right (Nat.zero_le size)
  rw [hall] at hleast
  rw [size_serve h]
  exact hleast

theorem spans_iff_of_perm {first second : List Range} (h : first.Perm second)
    (size : Nat) :
    Spans first size ↔ Spans second size := by
  constructor
  · intro hspans
    exact ⟨hspans.aligned,
      fun range hrange => hspans.covers range (h.mem_iff.2 hrange)⟩
  · intro hspans
    exact ⟨hspans.aligned,
      fun range hrange => hspans.covers range (h.mem_iff.1 hrange)⟩

/-! ## Capacity -/

/-- Whether the ranges that an operation touches are within what memory can
hold. -/
def Operation.Fits (operation : Operation) : Prop :=
  ∀ range ∈ operation.ranges, range.extent ≤ capacity

instance (operation : Operation) : Decidable operation.Fits :=
  inferInstanceAs (Decidable (∀ range ∈ operation.ranges, _))

/-- Of the ranges that an operation touches, the one that it makes memory cover
reaches furthest. -/
theorem extent_reach_le_iff (operation : Operation) (size : Nat) :
    operation.reach.extent ≤ size ↔
      ∀ range ∈ operation.ranges, range.extent ≤ size := by
  cases operation with
  | copyWithin target source length =>
    simp [Operation.reach, Operation.ranges, Range.extent_max]
  | _ => simp [Operation.reach, Operation.ranges]

theorem perform?_eq (h : ∀ range ∈ operation.ranges, range.Addressable)
    (hsize : memory.size ≤ capacity) :
    perform? operation memory =
      if operation.Fits then some (perform operation memory) else none := by
  have hreach : operation.reach.Addressable := by
    simp only [Range.addressable_iff_extent_le] at h ⊢
    exact (extent_reach_le_iff operation _).2 h
  have hgrowth : max operation.reach.extent memory.size ≤
      max capacity memory.size ↔ operation.Fits := by
    rw [max_eq_left hsize, max_le_iff, and_iff_left hsize]
    exact extent_reach_le_iff operation capacity
  unfold perform?
  rw [hreach.requiredSize? memory]
  exact if_congr hgrowth rfl rfl

theorem size_perform_le (h : ∀ range ∈ operation.ranges, range.Addressable)
    (hfits : operation.Fits) (hsize : memory.size ≤ capacity) :
    (perform operation memory).2.size ≤ capacity := by
  rw [size_perform h]
  cases operation with
  | copyWithin target source length =>
    obtain ⟨htarget, hrest⟩ := List.forall_mem_cons.1 hfits
    exact max_le (hrest _ List.mem_cons_self) (max_le htarget hsize)
  | _ => exact max_le (hfits _ List.mem_cons_self) hsize

/-- A history comes to its end just if everything in it fits. -/
theorem serve?_eq {history : List Operation}
    (h : ∀ operation ∈ history, ∀ range ∈ operation.ranges, range.Addressable)
    (hsize : memory.size ≤ capacity) :
    serve? history memory =
      if ∀ operation ∈ history, operation.Fits then
        some (serve perform history memory)
      else none := by
  induction history generalizing memory with
  | nil => rfl
  | cons operation rest ih =>
    obtain ⟨hfirst, hrest⟩ := List.forall_mem_cons.1 h
    rw [serve?, perform?_eq hfirst hsize]
    by_cases hfits : operation.Fits
    · have hlater := ih hrest (size_perform_le hfirst hfits hsize)
      rw [if_pos hfits]
      simp only [hlater, List.forall_mem_cons, hfits, true_and]
      split <;> rfl
    · rw [if_neg hfits, if_neg fun hall => hfits (hall _ List.mem_cons_self)]

/-- Memory stands for an endless array that is zero at first, up to its
capacity.  Take any history of operations on ranges whose size can be counted;
which these are does not hang on the memory.  It breaks off if and only if it
touches a range that reaches beyond the capacity of memory.  If it does not,
memory gives the replies that the endless array gives, and shows the bytes that
the endless array holds: a word, a byte, a byte string or a padded piece of one
is written over the bytes of its range and no others, a copy writes what its
source held before, and reading changes nothing.  The size is the least multiple
of 32 that covers every range touched, but for empty ones, and the operations
come to the same size in any other order. -/
theorem memory_is_endless_up_to_capacity (history : List Operation)
    (h : ∀ operation ∈ history, ∀ range ∈ operation.ranges,
      range.Addressable) :
    (∀ (memory : Memory) (range : Range), range.Addressable ↔
      memory.requiredSize? range.offset range.length ≠ none) ∧
    (serve? history {} = none ↔
      ∃ operation ∈ history, ∃ range ∈ operation.ranges,
        capacity < range.extent) ∧
    ∀ replies memory, serve? history {} = some (replies, memory) →
      replies = (serve EndlessBytes.perform history .zeros).1 ∧
      memory.endless = (serve EndlessBytes.perform history .zeros).2 ∧
      IsLeast {size | Spans (history.flatMap Operation.ranges) size}
        memory.size ∧
      ∀ other : List Operation, other.Perm history →
        ∃ otherReplies otherMemory,
          serve? other {} = some (otherReplies, otherMemory) ∧
          otherMemory.size = memory.size := by
  have hempty : ({} : Memory).size ≤ capacity := Nat.zero_le _
  have hserve? := serve?_eq h hempty
  refine ⟨fun memory _ => Range.addressable_iff memory, ?_, ?_⟩
  · rw [hserve?, ite_eq_right_iff]
    simp only [Operation.Fits, reduceCtorEq, imp_false, not_forall, Nat.not_le,
      exists_prop]
  intro replies memory hserved
  have hfits : ∀ operation ∈ history, operation.Fits := by
    by_contra hbeyond
    rw [hserve?, if_neg hbeyond] at hserved
    cases hserved
  obtain ⟨rfl, rfl⟩ : (serve perform history {}).1 = replies ∧
      (serve perform history {}).2 = memory := by
    rw [hserve?, if_pos hfits] at hserved
    exact Prod.mk.inj (Option.some.inj hserved)
  have hrefines := serve_refines h {}
  rw [endless_empty] at hrefines
  have hleast := isLeast_size_serve h
  refine ⟨congrArg Prod.fst hrefines, congrArg Prod.snd hrefines, hleast, ?_⟩
  intro other hperm
  have hother : ∀ operation ∈ other, ∀ range ∈ operation.ranges,
      range.Addressable :=
    fun operation hoperation => h operation (hperm.mem_iff.1 hoperation)
  have hfitsOther : ∀ operation ∈ other, operation.Fits :=
    fun operation hoperation => hfits operation (hperm.mem_iff.1 hoperation)
  refine ⟨_, _, (serve?_eq hother hempty).trans (if_pos hfitsOther), ?_⟩
  have hsame : {size | Spans (other.flatMap Operation.ranges) size} =
      {size | Spans (history.flatMap Operation.ranges) size} := by
    ext size
    exact spans_iff_of_perm (hperm.flatMap_right Operation.ranges) size
  apply IsLeast.unique _ hleast
  rw [← hsame]
  exact isLeast_size_serve hother

/-- Five bytes are copied two places further on, over three of themselves. -/
theorem overlapping_copy_reads_first :
    let history : List Operation :=
      [.store 0 #[1, 2, 3, 4, 5], .copyWithin 2 0 5, .load 0 7]
    (∀ operation ∈ history, ∀ range ∈ operation.ranges, range.Addressable) ∧
      ∃ memory, serve? history {} =
          some ([.done, .done, .bytes #[1, 2, 1, 2, 3, 4, 5]], memory) ∧
        32 ∣ memory.size := by
  intro history
  have haddressable : ∀ operation ∈ history, ∀ range ∈ operation.ranges,
      range.Addressable := by
    simp only [Range.addressable_iff_extent_le]
    decide
  obtain ⟨_, hbreaks, hends⟩ :=
    memory_is_endless_up_to_capacity history haddressable
  have hfits : ¬ ∃ operation ∈ history, ∃ range ∈ operation.ranges,
      capacity < range.extent := by decide
  obtain ⟨⟨replies, memory⟩, hserved⟩ :=
    Option.ne_none_iff_exists'.1 (mt hbreaks.1 hfits)
  obtain ⟨rfl, _, hleast, _⟩ := hends replies memory hserved
  have hendless : (serve EndlessBytes.perform history .zeros).1 =
      [.done, .done, .bytes #[1, 2, 1, 2, 3, 4, 5]] := by decide
  rw [hendless] at hserved
  exact ⟨haddressable, memory, hserved, hleast.1.aligned⟩

/-- The size that the byte at `2 ^ 63` takes can be counted, but memory cannot
grow so far: the byte is not stored. -/
theorem far_byte_breaks_off :
    ({} : Memory).requiredSize? (2 ^ 63) 1 = some (2 ^ 63 + 32) ∧
    serve? [.storeByte (2 ^ 63) 1] {} = none ∧
    ¬ ∀ history : List Operation,
      (∀ operation ∈ history, ∀ range ∈ operation.ranges,
        range.Addressable) →
      ∃ memory, serve? history {} =
        some ((serve EndlessBytes.perform history .zeros).1, memory) := by
  have hrequired :
      ({} : Memory).requiredSize? (2 ^ 63) 1 = some (2 ^ 63 + 32) := by decide
  have hbreaks : serve? [.storeByte (2 ^ 63) 1] {} = none := by decide
  refine ⟨hrequired, hbreaks, fun hall => ?_⟩
  obtain ⟨memory, hserved⟩ := hall [.storeByte (2 ^ 63) 1] (by
    simp only [Range.addressable_iff_extent_le]
    decide)
  rw [hbreaks] at hserved
  cases hserved

end Memory

end ContractMachine
