import Mathlib
import ContractMachine.BigEndian.Basic

/-!
# Big-endian numerals read back

A number below `256 ^ width` has exactly one form as `width` bytes.
`decode_encode` and `encode_decode` say that writing and reading undo each
other, the first up to what the width cuts off; `decode_lt` bounds what some
bytes can denote.  Without a width given, a number has a shortest form, as long
as `isLeast_byteLength` says, and that reads back too.
-/

namespace ContractMachine.BigEndian

/-- The first byte counts multiples of what the others can hold. -/
theorem encode_succ (width n : Nat) :
    encode (width + 1) n = UInt8.ofNat (n / 256 ^ width) :: encode width n := by
  rw [encode, Nat.shiftRight_eq_div_pow, Nat.pow_mul]

private theorem foldl_digits (bytes : List UInt8) (value : Nat) :
    bytes.foldl (fun value byte => value * 256 + byte.toNat) value =
      value * 256 ^ bytes.length + decode bytes := by
  induction bytes generalizing value with
  | nil => simp [decode]
  | cons byte rest ih =>
    rw [decode, List.foldl_cons, List.foldl_cons, ih, ih (0 * 256 + byte.toNat),
      List.length_cons, Nat.pow_succ', ← Nat.mul_assoc]
    simp only [Nat.zero_mul, Nat.zero_add, Nat.add_mul]
    omega

/-- The first byte is the most significant one. -/
theorem decode_cons (byte : UInt8) (rest : List UInt8) :
    decode (byte :: rest) = byte.toNat * 256 ^ rest.length + decode rest := by
  rw [decode, List.foldl_cons, foldl_digits]
  simp

/-- A number that is read is as small as its bytes are few. -/
theorem decode_lt (bytes : List UInt8) : decode bytes < 256 ^ bytes.length := by
  induction bytes with
  | nil => simp [decode]
  | cons byte rest ih =>
    rw [decode_cons, List.length_cons, Nat.pow_succ']
    have hbyte : byte.toNat < 256 := byte.toNat_lt
    have hmul : byte.toNat * 256 ^ rest.length ≤ 255 * 256 ^ rest.length :=
      Nat.mul_le_mul_right _ (by omega)
    omega

/-- What is written reads back, as far as the width allows. -/
theorem decode_encode (width n : Nat) :
    decode (encode width n) = n % 256 ^ width := by
  induction width with
  | zero => simp [encode, decode, Nat.mod_one]
  | succ width ih =>
    have hsplit : n % 256 ^ (width + 1) =
        n % 256 ^ width + 256 ^ width * (n / 256 ^ width % 256) := by
      rw [Nat.pow_succ, Nat.mod_mul]
    rw [encode_succ, decode_cons, ih, length_encode, UInt8.toNat_ofNat', hsplit,
      Nat.mul_comm, Nat.add_comm]

/-- Writing takes up only the low-order bytes. -/
theorem encode_add_mul (width n m : Nat) :
    encode width (n + m * 256 ^ width) = encode width n := by
  induction width generalizing m with
  | zero => rfl
  | succ width ih =>
    have hsplit : m * 256 ^ (width + 1) = m * 256 * 256 ^ width := by
      rw [Nat.pow_succ', Nat.mul_assoc]
    rw [encode_succ, encode_succ, hsplit, ih,
      Nat.add_mul_div_right _ _ (Nat.pow_pos (by decide))]
    simp [Nat.mul_comm m 256]

/-- Bytes are the written form of the number they denote. -/
theorem encode_decode (bytes : List UInt8) :
    encode bytes.length (decode bytes) = bytes := by
  induction bytes with
  | nil => rfl
  | cons byte rest ih =>
    rw [List.length_cons, encode_succ, decode_cons, Nat.add_comm,
      encode_add_mul, ih]
    have hpos : 0 < 256 ^ rest.length := Nat.pow_pos (by decide)
    rw [Nat.add_mul_div_right _ _ hpos, Nat.div_eq_of_lt (decode_lt rest)]
    simp

/-! ## Shortest forms -/

/-- A number needs at most so many bytes just if it is below what they can
hold. -/
theorem byteLength_le_iff {n width : Nat} :
    byteLength n ≤ width ↔ n < 256 ^ width := by
  have hpow : 256 ^ width = 2 ^ (8 * width) := by rw [Nat.pow_mul]
  rw [byteLength, hpow]
  by_cases hn : n = 0
  · simp [hn]
  · rw [if_neg hn, ← Nat.log2_lt hn]
    omega

/-- The number of bytes that a number needs is the least that can hold it. -/
theorem isLeast_byteLength (n : Nat) :
    IsLeast {width | n < 256 ^ width} (byteLength n) :=
  ⟨byteLength_le_iff.1 le_rfl, fun _ hwidth => byteLength_le_iff.2 hwidth⟩

@[simp]
theorem length_minimal (n : Nat) : (minimal n).length = byteLength n :=
  length_encode ..

/-- The shortest form reads back. -/
@[simp]
theorem decode_minimal (n : Nat) : decode (minimal n) = n := by
  rw [minimal, decode_encode, Nat.mod_eq_of_lt (byteLength_le_iff.1 le_rfl)]

end ContractMachine.BigEndian
