import Mathlib
import ContractMachine.BigEndian.RoundTrip
import ContractMachine.Frame.Memory

/-!
# Bytes without end

Memory and every byte string that a frame reads behave as if zeros followed
them without end.  An endless string is a function of the position; a piece of
it can be cut out, read as a big-endian number, or written over.  What is said
here about these three is independent of how byte strings are stored, and the
lemmas tie it to the stored ones.
-/

namespace ContractMachine

open Finset (range)

/-! ## Digits -/

namespace BigEndian

/-- A big-endian number is the sum of its bytes, each with its weight. -/
theorem decode_eq_sum (bytes : List UInt8) :
    decode bytes =
      ∑ i ∈ range bytes.length,
      (bytes.getD i 0).toNat * 256 ^ (bytes.length - 1 - i) := by
  induction bytes with
  | nil => rfl
  | cons byte rest ih =>
    rw [decode_cons, ih, List.length_cons, Finset.sum_range_succ', add_comm]
    congr 1
    refine Finset.sum_congr rfl fun i hi => ?_
    rw [List.getD_cons_succ, Nat.add_sub_cancel, Nat.sub_add_eq,
      Nat.sub_right_comm]

theorem getD_encode {width i : Nat} (n : Nat) (h : i < width) :
    (encode width n).getD i 0 = UInt8.ofNat (n / 256 ^ (width - 1 - i)) := by
  induction width generalizing i with
  | zero => omega
  | succ width ih =>
    rw [encode_succ]
    cases i with
    | zero => rfl
    | succ i =>
      rw [List.getD_cons_succ, ih (Nat.lt_of_succ_lt_succ h),
        Nat.add_sub_cancel, Nat.sub_add_eq, Nat.sub_right_comm]

end BigEndian

/-! ## Pieces of an endless string -/

/-- A string of bytes without end. -/
abbrev EndlessBytes := Nat → UInt8

namespace EndlessBytes

variable (bytes : EndlessBytes) (offset length : Nat)

/-- Nothing but zeros. -/
def zeros : EndlessBytes := fun _ => 0

/-- The `length` bytes from `offset` on. -/
def cut : Bytes := Array.ofFn fun i : Fin length => bytes (offset + i)

/-- The number that the `length` bytes from `offset` on denote, most significant
first. -/
def number : Nat :=
  ∑ i ∈ range length, (bytes (offset + i)).toNat * 256 ^ (length - 1 - i)

/-- Writes the first `length` bytes of `content` over those from `offset` on. -/
def write (content : EndlessBytes) : EndlessBytes := fun i =>
  if offset ≤ i ∧ i < offset + length then content (i - offset) else bytes i

@[simp]
theorem size_cut : (bytes.cut offset length).size = length := Array.size_ofFn

theorem getElem?_cut {i : Nat} (h : i < length) :
    (bytes.cut offset length)[i]? = some (bytes (offset + i)) := by
  rw [cut, Array.getElem?_ofFn, dif_pos h]

@[simp]
theorem write_zero (content : EndlessBytes) :
    bytes.write offset 0 content = bytes := by
  funext i
  exact if_neg (by omega)

/-- Only what is written over counts of the content. -/
theorem write_congr {content other : EndlessBytes}
    (h : ∀ i < length, content i = other i) :
    bytes.write offset length content = bytes.write offset length other := by
  funext i
  by_cases hi : offset ≤ i ∧ i < offset + length
  · rw [write, write, if_pos hi, if_pos hi, h _ (by omega)]
  · rw [write, write, if_neg hi, if_neg hi]

/-- A piece that has been written denotes the number that it denotes where it
comes from. -/
theorem number_write (source : EndlessBytes) (start : Nat) :
    (bytes.write offset length fun i => source (start + i)).number offset
      length = source.number start length := by
  refine Finset.sum_congr rfl fun i hi => ?_
  rw [write, if_pos (by have := Finset.mem_range.1 hi; omega),
    Nat.add_sub_cancel_left]

end EndlessBytes

theorem EndlessBytes.decode_cut (bytes : EndlessBytes) (offset length : Nat) :
    BigEndian.decode (bytes.cut offset length).toList =
      bytes.number offset length := by
  rw [BigEndian.decode_eq_sum, Array.length_toList, size_cut]
  refine Finset.sum_congr rfl fun i hi => ?_
  rw [List.getD_eq_getElem?_getD, Array.getElem?_toList,
    getElem?_cut _ _ _ (Finset.mem_range.1 hi), Option.getD_some]

/-- The word of a piece of at most 32 bytes is the number that the piece
denotes. -/
theorem Word.ofBytes_cut (bytes : EndlessBytes) (offset : Nat) {length : Nat}
    (h : length ≤ 32) :
    Word.ofBytes (bytes.cut offset length) =
      BitVec.ofNat 256 (bytes.number offset length) := by
  rw [Word.ofBytes, EndlessBytes.size_cut, Nat.sub_eq_zero_of_le h,
    List.drop_zero, EndlessBytes.decode_cut]

/-- So many bytes fit into a word. -/
theorem Word.toNat_ofBytes_cut (bytes : EndlessBytes) (offset : Nat)
    {length : Nat} (h : length ≤ 32) :
    (Word.ofBytes (bytes.cut offset length)).toNat =
      bytes.number offset length := by
  have hlt : bytes.number offset length < 2 ^ 256 := calc
    bytes.number offset length =
      BigEndian.decode (bytes.cut offset length).toList :=
      (bytes.decode_cut offset length).symm
    _ < 256 ^ (bytes.cut offset length).toList.length := BigEndian.decode_lt _
    _ = 256 ^ length := by rw [Array.length_toList, EndlessBytes.size_cut]
    _ ≤ 256 ^ 32 := Nat.pow_le_pow_right (by decide) h
    _ = 2 ^ 256 := by norm_num
  rw [Word.ofBytes_cut _ _ h, BitVec.toNat_ofNat, Nat.mod_eq_of_lt hlt]

theorem Word.getD_toBytes (w : Word) {i : Nat} (h : i < 32) :
    w.toBytes.getD i 0 = UInt8.ofNat (w.toNat / 256 ^ (31 - i)) := by
  rw [Array.getD_eq_getD_getElem?, Word.toBytes, List.getElem?_toArray,
    ← List.getD_eq_getElem?_getD, BigEndian.getD_encode _ h]

/-! ## Stored byte strings -/

namespace Bytes

/-- A byte string with zeros after it, without end. -/
def extended (source : Bytes) : EndlessBytes := fun i => source.getD i 0

variable {source : Bytes}

theorem extended_of_le {i : Nat} (h : source.size ≤ i) :
    source.extended i = 0 := by
  rw [extended, Array.getD_eq_getD_getElem?, Array.getElem?_eq_none h]
  rfl

theorem extended_cut (bytes : EndlessBytes) (offset : Nat) {length i : Nat}
    (h : i < length) :
    (bytes.cut offset length).extended i = bytes (offset + i) := by
  rw [extended, Array.getD_eq_getD_getElem?, EndlessBytes.getElem?_cut _ _ _ h,
    Option.getD_some]

/-- A window is a piece of the endless string. -/
theorem window_eq_cut (source : Bytes) (offset length : Nat) :
    source.window offset length = source.extended.cut offset length := by
  refine Array.ext_getElem? fun i => ?_
  by_cases hi : i < length
  · rw [getElem?_window _ _ _ _ hi, EndlessBytes.getElem?_cut _ _ _ hi,
      extended]
  · rw [Array.getElem?_eq_none (by simpa using hi),
      Array.getElem?_eq_none (by simpa using hi)]

/-- A piece that lies within a byte string is cut out of the endless one. -/
theorem extract_eq_cut {offset length : Nat}
    (h : offset + length ≤ source.size) :
    source.extract offset (offset + length) =
      source.extended.cut offset length := by
  have hsize : (source.extract offset (offset + length)).size = length := by
    rw [Array.size_extract]
    omega
  rw [← window_eq_cut, window, hsize, Nat.sub_self, Array.replicate_zero,
    Array.append_empty]

end Bytes

end ContractMachine
