import Mathlib
import ContractMachine.Address.RoundTrip
import ContractMachine.Word.RoundTrip

/-!
# Words and their bytes are ordered alike

A word can be seen as a number or as 32 bytes, and neither view shows more than
the other.  Bytes with the most significant first compare like the numbers they
denote, since the first byte that differs outweighs all that follow; so keys
sorted as words are sorted as bytes.  Longer byte strings denote the word that
their last 32 bytes do, and an address is the last 20 bytes of a word.
-/

namespace ContractMachine

namespace BigEndian

variable {a b : List UInt8}

/-- The number whose digits to base 256 are the bytes, the last one the least
significant. -/
def value (bytes : List UInt8) : Nat :=
  Nat.ofDigits 256 (bytes.reverse.map UInt8.toNat)

theorem decode_eq_value (bytes : List UInt8) : decode bytes = value bytes := by
  induction bytes with
  | nil => rfl
  | cons byte rest ih =>
    rw [decode_cons, ih, value, value, List.reverse_cons, List.map_append,
      Nat.ofDigits_append, List.length_map, List.length_reverse]
    simp [Nat.mul_comm, Nat.add_comm]

theorem decode_append (a b : List UInt8) :
    decode (a ++ b) = decode a * 256 ^ b.length + decode b := by
  induction a with
  | nil => simp [decode]
  | cons byte rest ih =>
    rw [List.cons_append, decode_cons, decode_cons, ih, List.length_append]
    ring

theorem compare_toNat (x y : UInt8) :
    compare x.toNat y.toNat = compare x y := by
  simp only [compare, compareOfLessAndEq,
    UInt8.lt_iff_toNat_lt, ← UInt8.toNat_inj]

/-- A larger byte outweighs whatever follows a smaller one. -/
theorem decode_cons_lt {byte byte' : UInt8} (hbyte : byte < byte')
    (h : a.length = b.length) :
    decode (byte :: a) < decode (byte' :: b) := by
  have hrest := decode_lt a
  have hstep : (byte.toNat + 1) * 256 ^ a.length ≤
      byte'.toNat * 256 ^ a.length :=
    Nat.mul_le_mul_right _ hbyte
  rw [Nat.succ_mul] at hstep
  rw [decode_cons, decode_cons, ← h]
  omega

/-- Byte strings of one length compare as the numbers that they denote. -/
theorem compare_decode (h : a.length = b.length) :
    compare (decode a) (decode b) = compare a b := by
  induction a generalizing b with
  | nil =>
    rw [List.length_eq_zero_iff.1 h.symm]
    rfl
  | cons byte rest ih =>
    cases b with
    | nil => exact absurd h (Nat.succ_ne_zero _)
    | cons byte' rest' =>
      have hlength : rest.length = rest'.length := Nat.succ.inj h
      rw [List.compare_cons_cons, ← compare_toNat]
      rcases lt_trichotomy byte.toNat byte'.toNat with hlt | heq | hgt
      · rw [Nat.compare_eq_lt.2 hlt,
          Nat.compare_eq_lt.2 (decode_cons_lt hlt hlength), Ordering.lt_then]
      · rw [decode_cons, decode_cons, ← hlength, heq, Nat.compare_eq_eq.2 rfl,
          Ordering.eq_then, ← ih hlength]
        simp only [Nat.compare_eq_ite_lt, Nat.add_lt_add_iff_left]
      · rw [Nat.compare_eq_gt.2 hgt,
          Nat.compare_eq_gt.2 (decode_cons_lt hgt hlength.symm),
          Ordering.gt_then]

theorem encode_zero (width : Nat) :
    encode width 0 = List.replicate width 0 := by
  induction width with
  | zero => rfl
  | succ width ih =>
    rw [encode_succ, ih, Nat.zero_div, List.replicate_succ]
    rfl

/-- Wider forms have more bytes in front. -/
theorem encode_add (more width n : Nat) :
    encode (more + width) n =
      encode more (n / 256 ^ width) ++ encode width n := by
  induction more with
  | zero => simp [encode]
  | succ more ih =>
    rw [Nat.succ_add, encode_succ, encode_succ, ih,
      Nat.div_div_eq_div_mul, ← pow_add, Nat.add_comm width, List.cons_append]

end BigEndian

namespace Word

/-! ## Bytes -/

/-- At most 32 bytes count, so that the number they denote is a word. -/
theorem toNat_ofBytes (bytes : Bytes) :
    (ofBytes bytes).toNat =
      BigEndian.value (bytes.toList.drop (bytes.size - 32)) := by
  have hlength : (bytes.toList.drop (bytes.size - 32)).length ≤ 32 := by
    rw [List.length_drop, Array.length_toList]
    omega
  have hlt : BigEndian.decode (bytes.toList.drop (bytes.size - 32)) < 2 ^ 256 :=
    calc
    _ < 256 ^ (bytes.toList.drop (bytes.size - 32)).length :=
      BigEndian.decode_lt _
    _ ≤ 256 ^ 32 := Nat.pow_le_pow_right (by decide) hlength
    _ = 2 ^ 256 := by norm_num
  rw [ofBytes, BitVec.toNat_ofNat, Nat.mod_eq_of_lt hlt,
    BigEndian.decode_eq_value]

/-- Bytes in front of the last 32 count multiples of `2 ^ 256`. -/
theorem toNat_ofBytes_eq_mod (bytes : Bytes) :
    (ofBytes bytes).toNat = BigEndian.value bytes.toList % 2 ^ 256 := by
  rw [ofBytes, BitVec.toNat_ofNat, ← BigEndian.decode_eq_value]
  by_cases hlong : 32 ≤ bytes.size
  · have hlength : (bytes.toList.drop (bytes.size - 32)).length = 32 := by
      rw [List.length_drop, Array.length_toList]
      omega
    conv_rhs => rw [← List.take_append_drop (bytes.size - 32) bytes.toList]
    rw [BigEndian.decode_append, hlength, show 256 ^ 32 = 2 ^ 256 by norm_num,
      Nat.mul_add_mod_self_right]
  · rw [Nat.sub_eq_zero_of_le (by omega), List.drop_zero]

theorem compare_eq_compare_toNat (v w : Word) :
    compare v w = compare v.toNat w.toNat := by
  simp only [compare, compareOfLessAndEq, BitVec.lt_def, ← BitVec.toNat_inj]

theorem compare_eq_compare_ofBytes (h k : Vector UInt8 32) :
    compare h k = compare (ofBytes h.toArray) (ofBytes k.toArray) := by
  have hvalue (h : Vector UInt8 32) :
      (ofBytes h.toArray).toNat = BigEndian.decode h.toList := by
    rw [toNat_ofBytes, ← BigEndian.decode_eq_value, h.size_toArray,
      Nat.sub_self, List.drop_zero]
    rfl
  rw [compare_eq_compare_toNat, hvalue, hvalue,
    BigEndian.compare_decode (by simp), Vector.compare_eq_compare_toList]

/-! ## Addresses -/

theorem toNat_ofAddress (a : Address) : (ofAddress a).toNat = a.toNat :=
  BitVec.toNat_setWidth_of_le (by decide)

theorem toNat_toAddress (w : Word) : w.toAddress.toNat = w.toNat % 2 ^ 160 :=
  BitVec.toNat_setWidth ..

/-- An address stands behind twelve zeros. -/
theorem toBytes_ofAddress (a : Address) :
    (ofAddress a).toBytes = Array.replicate 12 0 ++ a.toBytes := by
  have hsplit := BigEndian.encode_add 12 20 a.toNat
  have hhigh : a.toNat / 256 ^ 20 = 0 := Nat.div_eq_of_lt a.isLt
  rw [hhigh, BigEndian.encode_zero] at hsplit
  rw [toBytes, toNat_ofAddress, hsplit, Address.toBytes]
  simp

/-- The address in a word is its last twenty bytes. -/
theorem toBytes_toAddress (w : Word) :
    w.toAddress.toBytes = w.toBytes.extract 12 := by
  have hsplit := BigEndian.encode_add 12 20 w.toNat
  have hlow : BigEndian.encode 20 (w.toNat % 2 ^ 160) =
      BigEndian.encode 20 w.toNat := by
    have hparts : w.toNat =
        w.toNat % 2 ^ 160 + w.toNat / 2 ^ 160 * 256 ^ 20 := by omega
    conv_rhs => rw [hparts]
    rw [BigEndian.encode_add_mul]
  rw [Address.toBytes, toNat_toAddress, hlow, toBytes, hsplit]
  simp

/-- Numbers, words and bytes are three views of the same, in one order.  A word
and its 32 bytes determine each other, and byte strings of that length compare
byte by byte as the words and as the numbers do.  A byte string of any length
denotes the word of its last 32 bytes, which is its number modulo `2 ^ 256`.  An
address comes back from the word that holds it, where twelve zero bytes stand in
front of it; and of a word its address keeps the last twenty bytes, which is the
number modulo `2 ^ 160`. -/
theorem bytes_and_numbers_are_ordered_alike (w : Word) (h k : Vector UInt8 32)
    (bytes : Bytes) (a : Address) :
    ofBytes w.toBytes = w ∧
    (ofBytes h.toArray).toBytes = h.toArray ∧
    compare h k = compare (ofBytes h.toArray) (ofBytes k.toArray) ∧
    compare h k = compare (ofBytes h.toArray).toNat (ofBytes k.toArray).toNat ∧
    (ofBytes bytes).toNat =
      BigEndian.value (bytes.toList.drop (bytes.size - 32)) ∧
    (ofBytes bytes).toNat = BigEndian.value bytes.toList % 2 ^ 256 ∧
    (ofAddress a).toAddress = a ∧
    (ofAddress a).toBytes = Array.replicate 12 0 ++ a.toBytes ∧
    (ofAddress w.toAddress).toNat = w.toNat % 2 ^ 160 ∧
    w.toAddress.toBytes = w.toBytes.extract 12 := by
  have horder := compare_eq_compare_ofBytes h k
  have hmod : (ofAddress w.toAddress).toNat = w.toNat % 2 ^ 160 := by
    rw [toNat_ofAddress, toNat_toAddress]
  exact ⟨ofBytes_toBytes w, toBytes_ofBytes h.size_toArray, horder,
    horder.trans (compare_eq_compare_toNat ..), toNat_ofBytes bytes,
    toNat_ofBytes_eq_mod bytes,
    toAddress_ofAddress a, toBytes_ofAddress a, hmod, toBytes_toAddress w⟩

end Word

end ContractMachine
