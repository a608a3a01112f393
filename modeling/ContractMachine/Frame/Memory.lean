import ContractMachine.Gas.Schedule

/-!
# Memory

The memory of a frame is a byte string that only grows, in steps of 32 bytes,
and reads as zero where it has not been written.  Whoever uses it pays for its
growth first; each operation still grows what it touches.

No memory holds more than `capacity` bytes.  The operations themselves are
functions of memories of any size and know nothing of this limit.  What a
machine does is `perform?`: it breaks off, without a result, where memory would
have to grow beyond its capacity, and where a range is used that no size would
cover.

`byteAt` is the view of memory as an endless array of bytes.  Growing does not
show in it, and storing changes just the bytes of the range.
-/

namespace ContractMachine

/-- A piece of memory. -/
structure Range where
  offset : Nat := 0
  length : Nat := 0
  deriving DecidableEq, Repr

/-- The memory of a frame. -/
structure Memory where
  bytes : Bytes := #[]
  deriving DecidableEq

namespace Memory

/-- The current size in bytes. -/
def size (memory : Memory) : Nat := memory.bytes.size

/-- The size, in whole words, that memory must have to cover a range; `none` if
it is no count.  An empty range needs no growth. -/
def requiredSize? (memory : Memory) (offset length : Nat) : Option Nat :=
  if length = 0 then some memory.size
  else
    match Saturating.add? offset length with
    | none => none
    | some finish =>
      (Saturating.mul? (wordCount finish) 32).map (max · memory.size)

/-- Grows memory to cover a range. -/
def expand (memory : Memory) (offset length : Nat) : Memory :=
  match memory.requiredSize? offset length with
  | none => memory
  | some size =>
    { bytes := memory.bytes ++ Array.replicate (size - memory.size) 0 }

/-- Reads the word at an offset. -/
def loadWord (memory : Memory) (offset : Nat) : Word × Memory :=
  let memory := memory.expand offset 32
  (Word.ofBytes (memory.bytes.extract offset (offset + 32)), memory)

/-- Writes a byte string at an offset. -/
def store (memory : Memory) (offset : Nat) (content : Bytes) : Memory :=
  if content.isEmpty then memory
  else
    let memory := memory.expand offset content.size
    { bytes := memory.bytes.overwrite offset content.toList }

/-- Writes the word at an offset. -/
def storeWord (memory : Memory) (offset : Nat) (word : Word) : Memory :=
  memory.store offset word.toBytes

/-- Writes the byte at an offset. -/
def storeByte (memory : Memory) (offset : Nat) (byte : UInt8) : Memory :=
  memory.store offset #[byte]

/-- Reads a range. -/
def load (memory : Memory) (offset length : Nat) : Bytes × Memory :=
  if length = 0 then (#[], memory)
  else
    let memory := memory.expand offset length
    (memory.bytes.extract offset (offset + length), memory)

/-- Writes `length` bytes of `source` from `sourceOffset` on, and zeros for
those past its end. -/
def storePadded (memory : Memory) (offset length : Nat) (source : Bytes)
    (sourceOffset : Nat) : Memory :=
  memory.store offset (source.window sourceOffset length)

/-- Copies a range to another place; the two may overlap. -/
def copyWithin (memory : Memory) (target source length : Nat) : Memory :=
  if length = 0 then memory
  else
    let memory := memory.expand (max target source) length
    { bytes := memory.bytes.overwrite target
        (memory.bytes.extract source (source + length)).toList }

/-! ## Operations as data -/

/-- What can be done with memory. -/
inductive Operation where
  | expand (offset length : Nat)
  | loadWord (offset : Nat)
  | load (offset length : Nat)
  | storeWord (offset : Nat) (word : Word)
  | storeByte (offset : Nat) (byte : UInt8)
  | store (offset : Nat) (content : Bytes)
  | storePadded (offset length : Nat) (source : Bytes) (sourceOffset : Nat)
  | copyWithin (target source length : Nat)

/-- What an operation gives back. -/
inductive Reply where
  | done
  | word (value : Word)
  | bytes (value : Bytes)
  deriving DecidableEq

/-- What an operation does to memory, however much that is. -/
def perform : Operation → Memory → Reply × Memory
  | .expand offset length, memory => (.done, memory.expand offset length)
  | .loadWord offset, memory =>
    (.word (memory.loadWord offset).1, (memory.loadWord offset).2)
  | .load offset length, memory =>
    (.bytes (memory.load offset length).1, (memory.load offset length).2)
  | .storeWord offset word, memory => (.done, memory.storeWord offset word)
  | .storeByte offset byte, memory => (.done, memory.storeByte offset byte)
  | .store offset content, memory => (.done, memory.store offset content)
  | .storePadded offset length source sourceOffset, memory =>
    (.done, memory.storePadded offset length source sourceOffset)
  | .copyWithin target source length, memory =>
    (.done, memory.copyWithin target source length)

/-- The range that an operation makes memory cover. -/
def Operation.reach : Operation → Range
  | .expand offset length | .load offset length
  | .storePadded offset length _ _ => ⟨offset, length⟩
  | .loadWord offset | .storeWord offset _ => ⟨offset, 32⟩
  | .storeByte offset _ => ⟨offset, 1⟩
  | .store offset content => ⟨offset, content.size⟩
  | .copyWithin target source length => ⟨max target source, length⟩

/-- The most bytes that memory can hold. -/
def capacity : Nat := 0x7fffffffffffffff

/-- What an operation does to the memory of a machine; `none` if it breaks off.
A range that no size would cover is passed over by `expand`, and missing for the
others. -/
def perform? (operation : Operation) (memory : Memory) :
    Option (Reply × Memory) :=
  match memory.requiredSize? operation.reach.offset operation.reach.length with
  | some size =>
    if size ≤ max capacity memory.size then some (perform operation memory)
    else none
  | none =>
    match operation with
    | .expand _ _ => some (perform operation memory)
    | _ => none

/-! ## The endless array -/

/-- The byte at a position of the endless array. -/
def byteAt (memory : Memory) (i : Nat) : UInt8 := memory.bytes.getD i 0

/-- A required size covers the range. -/
theorem le_of_requiredSize? {memory : Memory} {offset length size : Nat}
    (h : memory.requiredSize? offset length = some size)
    (hlength : length ≠ 0) :
    offset + length ≤ size := by
  simp only [requiredSize?, if_neg hlength, Saturating.add?,
    Saturating.mul?] at h
  split at h
  · simp at h
  · rename_i finish hfinish
    split at hfinish
    · obtain ⟨product, hproduct, rfl⟩ := Option.map_eq_some_iff.1 h
      split at hproduct
      · simp only [Option.some.injEq] at hfinish hproduct
        subst hfinish hproduct
        unfold wordCount
        omega
      · simp at hproduct
    · simp at hfinish

/-- A required size is no smaller than the present one. -/
theorem size_le_of_requiredSize? {memory : Memory} {offset length size : Nat}
    (h : memory.requiredSize? offset length = some size) :
    memory.size ≤ size := by
  simp only [requiredSize?] at h
  split at h
  · simp only [Option.some.injEq] at h
    omega
  · split at h
    · simp at h
    · obtain ⟨product, _, rfl⟩ := Option.map_eq_some_iff.1 h
      exact Nat.le_max_right ..

/-- Growing reaches the required size. -/
theorem size_expand {memory : Memory} {offset length size : Nat}
    (h : memory.requiredSize? offset length = some size) :
    (memory.expand offset length).size = size := by
  have hle := size_le_of_requiredSize? h
  simp only [expand, h, Memory.size, Array.size_append,
    Array.size_replicate] at hle ⊢
  omega

/-- Growing shows nothing but zeros. -/
@[simp]
theorem byteAt_expand (memory : Memory) (offset length i : Nat) :
    (memory.expand offset length).byteAt i = memory.byteAt i := by
  rw [expand]
  split
  · rfl
  · simp only [byteAt, Array.getD_eq_getD_getElem?, Array.getElem?_append,
      Array.getElem?_replicate]
    by_cases hi : i < memory.bytes.size
    · rw [if_pos hi]
    · rw [if_neg hi, Array.getElem?_eq_none (by omega)]
      split <;> rfl

/-- Storing changes the bytes of the range and no others. -/
theorem byteAt_store {memory : Memory} {offset size : Nat} {content : Bytes}
    (h : memory.requiredSize? offset content.size = some size) (i : Nat) :
    (memory.store offset content).byteAt i =
      if offset ≤ i ∧ i < offset + content.size then content.getD (i - offset) 0
      else memory.byteAt i := by
  by_cases hempty : content.size = 0
  · have hnil : content = #[] := Array.eq_empty_of_size_eq_zero hempty
    subst hnil
    simp [store, show ¬(offset ≤ i ∧ i < offset) by omega]
  · have hcontent : content.isEmpty = false := by
      simpa [Array.isEmpty] using hempty
    have hfits : offset + content.toList.length ≤
        (memory.expand offset content.size).bytes.size := by
      rw [Array.length_toList]
      exact Nat.le_trans (le_of_requiredSize? h hempty)
        (Nat.le_of_eq (size_expand h).symm)
    have hview : (memory.expand offset content.size).bytes.getD i 0 =
        memory.bytes.getD i 0 :=
      byteAt_expand memory offset content.size i
    simp only [store, hcontent, Bool.false_eq_true, if_false, byteAt]
    rw [Bytes.getD_overwrite _ _ _ _ hfits, Array.length_toList, hview]
    simp [Array.getD_eq_getD_getElem?, List.getD_eq_getElem?_getD]

end Memory

end ContractMachine
