import Mathlib
import ContractMachine.Proofs.Word.ByteOrder
import ContractMachine.Text.Hex

/-!
# Numerals

A numeral is a text of digits to some base, letters counting in either case,
and denotes a number.  Numerals are read byte by byte.  A character outside
ASCII takes several bytes, none of which is a digit, so that what the readers
accept can be told by characters: `Hex.read_eq_ok_iff` and
`Decimal.read_eq_ok_iff` say exactly which texts are read and as what.
-/

namespace ContractMachine

/-! ## Digits and their numbers -/

namespace Numeral

/-- The digits in the order of their values. -/
def alphabet : List Char :=
  ['0', '1', '2', '3', '4', '5', '6', '7', '8', '9', 'a', 'b', 'c', 'd',
   'e', 'f']

/-- The value of a digit of either case.  Other characters get a value that no
digit has. -/
def digitValue (c : Char) : Nat := alphabet.idxOf c.toLower

/-- Whether the text consists of digits to the base. -/
def IsNumeral (base : Nat) (text : List Char) : Prop :=
  ∀ c ∈ text, digitValue c < base

-- Named outright: the instance that is found by search runs through all
-- characters.
instance (base : Nat) (text : List Char) : Decidable (IsNumeral base text) :=
  List.decidableBAll (digitValue · < base) text

/-- The number that the digits denote to the base, the last one counting
ones. -/
def value (base : Nat) (text : List Char) : Nat :=
  Nat.ofDigits base (text.reverse.map digitValue)

/-- Whether the text is a numeral of the number to the base. -/
structure Denotes (base : Nat) (text : List Char) (n : Nat) : Prop where
  isNumeral : IsNumeral base text
  value_eq : value base text = n

variable {base n : Nat} {c : Char} {text : List Char}

theorem isNumeral_append {front back : List Char} :
    IsNumeral base (front ++ back) ↔
    IsNumeral base front ∧ IsNumeral base back :=
  List.forall_mem_append

theorem isNumeral_cons :
    IsNumeral base (c :: text) ↔ digitValue c < base ∧ IsNumeral base text :=
  List.forall_mem_cons

theorem value_append (base : Nat) (front back : List Char) :
    value base (front ++ back) =
      value base front * base ^ back.length + value base back := by
  rw [value, List.reverse_append, List.map_append, Nat.ofDigits_append,
    List.length_map, List.length_reverse, Nat.mul_comm, Nat.add_comm]
  rfl

@[simp]
theorem value_singleton (base : Nat) (c : Char) :
    value base [c] = digitValue c :=
  Nat.ofDigits_singleton

theorem value_cons (base : Nat) (c : Char) (text : List Char) :
    value base (c :: text) =
      digitValue c * base ^ text.length + value base text := by
  rw [← List.singleton_append, value_append, value_singleton]

theorem value_lt (hbase : 1 < base) (h : IsNumeral base text) :
    value base text < base ^ text.length := by
  have hdigits : ∀ d ∈ text.reverse.map digitValue, d < base := by
    intro d hd
    obtain ⟨c, hc, rfl⟩ := List.mem_map.1 hd
    exact h c (List.mem_reverse.1 hc)
  have hlt := Nat.ofDigits_lt_base_pow_length hbase hdigits
  rwa [List.length_map, List.length_reverse] at hlt

theorem Denotes.lt (hbase : 1 < base) (h : Denotes base text n) :
    n < base ^ text.length :=
  h.value_eq ▸ value_lt hbase h.isNumeral

/-- A zero in front of digits does not count. -/
theorem denotes_zero_cons (hbase : 0 < base) :
    Denotes base ('0' :: text) n ↔ Denotes base text n := by
  have hzero : digitValue '0' = 0 := by decide
  have hvalue : value base ('0' :: text) = value base text := by
    rw [value_cons, hzero, Nat.zero_mul, Nat.zero_add]
  constructor
  · intro h
    exact ⟨(isNumeral_cons.1 h.isNumeral).2, hvalue.symm.trans h.value_eq⟩
  · intro h
    exact ⟨isNumeral_cons.2 ⟨hzero ▸ hbase, h.isNumeral⟩,
      hvalue.trans h.value_eq⟩

theorem Denotes.zeros_append (hbase : 0 < base) (h : Denotes base text n)
    (zeros : Nat) :
    Denotes base (List.replicate zeros '0' ++ text) n := by
  induction zeros with
  | zero => exact h
  | succ zeros ih => exact (denotes_zero_cons hbase).2 ih

/-- The case of letters does not count. -/
theorem denotes_map_toLower :
    Denotes base (text.map Char.toLower) n ↔ Denotes base text n := by
  have hdigit (c : Char) : digitValue c.toLower = digitValue c := by
    rw [digitValue, Char.toLower_toLower_eq_toLower, digitValue]
  have hnumeral : IsNumeral base (text.map Char.toLower) ↔
      IsNumeral base text := by
    simp only [IsNumeral, List.forall_mem_map, hdigit]
  have hvalue : value base (text.map Char.toLower) = value base text := by
    simp only [value, ← List.map_reverse, List.map_map]
    congr 2
    exact funext hdigit
  exact ⟨fun h => ⟨hnumeral.1 h.isNumeral, hvalue.symm.trans h.value_eq⟩,
    fun h => ⟨hnumeral.2 h.isNumeral, hvalue.trans h.value_eq⟩⟩

theorem denotes_digitChar (hn : n < base) (hle : base ≤ 16) :
    Denotes base [n.digitChar] n := by
  have hdigits : ∀ d : Fin 16, digitValue d.val.digitChar = d.val := by
    decide +kernel
  have hdigit : digitValue n.digitChar = n := hdigits ⟨n, hn.trans_le hle⟩
  exact ⟨by simpa [IsNumeral, hdigit] using hn, by rw [value_singleton, hdigit]⟩

theorem Denotes.append {m : Nat} {digits : List Char} (h : Denotes base text n)
    (hdigits : Denotes base digits m) :
    Denotes base (text ++ digits) (n * base ^ digits.length + m) :=
  ⟨isNumeral_append.2 ⟨h.isNumeral, hdigits.isNumeral⟩, by
    rw [value_append, h.value_eq, hdigits.value_eq]⟩

/-- The written form of a number is a numeral of it. -/
theorem denotes_toDigits (hbase : 1 < base) (hle : base ≤ 16) (n : Nat) :
    Denotes base (Nat.toDigits base n) n := by
  induction n using Nat.strongRecOn with
  | ind n ih =>
    by_cases hn : n < base
    · rw [Nat.toDigits_of_lt_base hn]
      exact denotes_digitChar hn hle
    · have hmod : n % base < base := Nat.mod_lt _ (by omega)
      have hdigits := (ih (n / base) (Nat.div_lt_self (by omega) hbase)).append
        (denotes_digitChar hmod hle)
      rw [List.length_singleton, pow_one, Nat.mul_comm,
        Nat.div_add_mod] at hdigits
      rwa [Nat.toDigits_of_base_le hbase (by omega)]

/-! ## Bytes -/

theorem toNat_lt_of_digitValue_lt (h : digitValue c < 16) : c.toNat < 128 := by
  have hmem : c.toLower ∈ alphabet := List.idxOf_lt_length_iff.1 h
  by_cases hupper : c.isUpper
  · have hle : c.val ≤ 'Z'.val := (of_decide_eq_true hupper).2
    exact Nat.lt_of_le_of_lt (UInt32.le_iff_toNat_le.1 hle) (by decide)
  · have hascii : ∀ d ∈ alphabet, d.toNat < 128 := by simp [alphabet]
    rw [Char.toLower_eq_of_not_isUpper hupper] at hmem
    exact hascii c hmem

theorem utf8EncodeChar_of_lt (h : c.toNat < 128) :
    String.utf8EncodeChar c = [UInt8.ofNat c.toNat] := by
  rw [String.utf8EncodeChar]
  exact if_pos (Nat.le_of_lt_succ h)

theorem le_toNat_of_mem_utf8EncodeChar {byte : UInt8} (h : 128 ≤ c.toNat)
    (hbyte : byte ∈ String.utf8EncodeChar c) : 128 ≤ byte.toNat := by
  have hlow : ¬c.val.toNat ≤ 127 := Nat.not_le.2 h
  rw [String.utf8EncodeChar, if_neg hlow] at hbyte
  split at hbyte
  · simp only [List.mem_cons, List.not_mem_nil, or_false] at hbyte
    rcases hbyte with rfl | rfl <;> rw [UInt8.toNat_ofNat'] <;> omega
  split at hbyte
  · simp only [List.mem_cons, List.not_mem_nil, or_false] at hbyte
    rcases hbyte with rfl | rfl | rfl <;> rw [UInt8.toNat_ofNat'] <;> omega
  · simp only [List.mem_cons, List.not_mem_nil, or_false] at hbyte
    rcases hbyte with rfl | rfl | rfl |
      rfl <;> rw [UInt8.toNat_ofNat'] <;> omega

/-- Whether a byte is read as the digit to the base that it encodes, if it
encodes one. -/
def ReadsDigits (base : Nat) (digit? : UInt8 → Option Nat) : Prop :=
  ∀ byte : UInt8, digit? byte =
    if digitValue (Char.ofNat byte.toNat) < base then
      some (digitValue (Char.ofNat byte.toNat))
    else none

theorem readsDigits_hex : ReadsDigits 16 Hex.digit? := by
  unfold ReadsDigits
  decide +kernel

theorem readsDigits_decimal : ReadsDigits 10 Decimal.digit? := by
  unfold ReadsDigits
  decide +kernel

/-- A numeral takes one byte a digit. -/
theorem utf8_of_isNumeral (hbase : base ≤ 16) (h : IsNumeral base text) :
    Hex.utf8 text = text.map fun c => UInt8.ofNat c.toNat := by
  induction text with
  | nil => rfl
  | cons c text ih =>
    obtain ⟨hc, htext⟩ := isNumeral_cons.1 h
    have hascii : c.toNat < 128 := toNat_lt_of_digitValue_lt (hc.trans_le hbase)
    rw [Hex.utf8, List.flatMap_cons, utf8EncodeChar_of_lt hascii, List.map_cons,
      List.singleton_append]
    exact congrArg _ (ih htext)

theorem length_utf8 (h : IsNumeral 16 text) :
    (Hex.utf8 text).length = text.length := by
  rw [utf8_of_isNumeral le_rfl h, List.length_map]

section Bytes

variable {digit? : UInt8 → Option Nat}

theorem ofNat_toNat_toUInt8 (h : c.toNat < 128) :
    Char.ofNat (UInt8.ofNat c.toNat).toNat = c := by
  rw [UInt8.toNat_ofNat', Nat.mod_eq_of_lt (by omega), Char.ofNat_toNat]

theorem ReadsDigits.of_char (hreads : ReadsDigits base digit?)
    (hbase : base ≤ 16) (h : digitValue c < base) :
    digit? (UInt8.ofNat c.toNat) = some (digitValue c) := by
  rw [hreads,
    ofNat_toNat_toUInt8 (toNat_lt_of_digitValue_lt (h.trans_le hbase)),
    if_pos h]

theorem ReadsDigits.digitValue_lt (hreads : ReadsDigits base digit?)
    {byte : UInt8} (h : (digit? byte).isSome) :
    digitValue (Char.ofNat byte.toNat) < base := by
  rw [hreads] at h
  by_contra hnot
  rw [if_neg hnot] at h
  exact absurd h (by decide)

/-- A text whose bytes are all read as digits is a numeral. -/
theorem ReadsDigits.isNumeral (hreads : ReadsDigits base digit?)
    (hbase : base ≤ 16) (h : ∀ byte ∈ Hex.utf8 text, (digit? byte).isSome) :
    IsNumeral base text := by
  intro c hc
  have hbytes : ∀ byte ∈ String.utf8EncodeChar c, (digit? byte).isSome :=
    List.forall_mem_flatMap.1 h c hc
  by_cases hascii : c.toNat < 128
  · have hdigit := hreads.digitValue_lt
      (hbytes (UInt8.ofNat c.toNat) (by simp [utf8EncodeChar_of_lt hascii]))
    rwa [ofNat_toNat_toUInt8 hascii] at hdigit
  · -- The first byte of such a character is out of the range of digits.
    obtain ⟨byte, hbyte⟩ :=
      List.exists_mem_of_ne_nil _ (String.utf8EncodeChar_ne_nil (c := c))
    have hhigh : 128 ≤ byte.toNat :=
      le_toNat_of_mem_utf8EncodeChar (by omega) hbyte
    have hlow := toNat_lt_of_digitValue_lt
      ((hreads.digitValue_lt (hbytes byte hbyte)).trans_le hbase)
    have hvalid : byte.toNat.isValidChar :=
      .inl (byte.toNat_lt.trans (by decide))
    rw [Char.toNat_ofNat, if_pos hvalid] at hlow
    omega

end Bytes

end Numeral

open Numeral

/-! ## Byte strings in hexadecimal -/

namespace Hex

/-- Digits spell a byte string, two of them a byte. -/
inductive Spells : List Char → List UInt8 → Prop
  | nil : Spells [] []
  | cons {high low : Char} {text : List Char} {byte : UInt8}
      {bytes : List UInt8} (hhigh : digitValue high < 16)
      (hlow : digitValue low < 16)
      (hbyte : byte.toNat = 16 * digitValue high + digitValue low)
      (hrest : Spells text bytes) :
      Spells (high :: low :: text) (byte :: bytes)

variable {text : List Char} {bytes : List UInt8}

namespace Spells

theorem isNumeral (h : Spells text bytes) : IsNumeral 16 text := by
  induction h with
  | nil => exact nofun
  | cons hhigh hlow _ _ ih =>
    exact isNumeral_cons.2 ⟨hhigh, isNumeral_cons.2 ⟨hlow, ih⟩⟩

theorem length_eq (h : Spells text bytes) : text.length = 2 * bytes.length := by
  induction h with
  | nil => rfl
  | cons _ _ _ _ ih =>
    simp only [List.length_cons]
    omega

/-- The digits denote the number that the bytes do. -/
theorem value_eq (h : Spells text bytes) :
    value 16 text = BigEndian.decode bytes := by
  induction h with
  | nil => rfl
  | @cons high low text byte bytes _ _ hbyte hrest ih =>
    have hpow : 256 ^ bytes.length = 16 ^ text.length := by
      rw [hrest.length_eq, Nat.pow_mul]
    rw [BigEndian.decode_cons, ← ih, hbyte, hpow, value_cons, value_cons,
      List.length_cons, pow_succ]
    ring

theorem denotes (h : Spells text bytes) :
    Denotes 16 text (BigEndian.decode bytes) :=
  ⟨h.isNumeral, h.value_eq⟩

end Spells

/-- An even number of digits spells a byte string. -/
theorem exists_spells :
    ∀ {text : List Char}, IsNumeral 16 text → Even text.length →
    ∃ bytes, Spells text bytes
  | [], _, _ => ⟨[], .nil⟩
  | [_], _, heven => absurd heven (by simp)
  | high :: low :: text, h, heven => by
    obtain ⟨hhigh, htail⟩ := isNumeral_cons.1 h
    obtain ⟨hlow, hrest⟩ := isNumeral_cons.1 htail
    obtain ⟨bytes, hbytes⟩ :=
      exists_spells hrest (by simpa [Nat.even_add] using heven)
    have hbyte : (UInt8.ofNat (16 * digitValue high + digitValue low)).toNat =
        16 * digitValue high + digitValue low := by
      rw [UInt8.toNat_ofNat', Nat.mod_eq_of_lt (by omega)]
    exact ⟨_, .cons hhigh hlow hbyte hbytes⟩

theorem exists_spells_length_iff {length : Nat} :
    (∃ bytes, Spells text bytes ∧ bytes.length = length) ↔
      IsNumeral 16 text ∧ text.length = 2 * length := by
  constructor
  · rintro ⟨bytes, hbytes, rfl⟩
    exact ⟨hbytes.isNumeral, hbytes.length_eq⟩
  · rintro ⟨hnumeral, hlength⟩
    obtain ⟨bytes, hbytes⟩ :=
      exists_spells hnumeral (hlength ▸ even_two_mul length)
    have hdouble := hbytes.length_eq
    exact ⟨bytes, hbytes, by omega⟩

/-- A text spells nothing just if its bytes are odd in number or one of its
characters is no digit. -/
theorem not_exists_spells_iff :
    (¬∃ bytes, Spells text bytes) ↔
      Odd (utf8 text).length ∨ ¬IsNumeral 16 text := by
  by_cases hnumeral : IsNumeral 16 text
  · have hspells : (∃ bytes, Spells text bytes) ↔ Even text.length :=
      ⟨fun ⟨bytes, hbytes⟩ => hbytes.length_eq ▸ even_two_mul bytes.length,
        exists_spells hnumeral⟩
    rw [hspells, length_utf8 hnumeral, Nat.not_even_iff_odd]
    exact (or_iff_left (not_not.2 hnumeral)).symm
  · exact iff_of_true (fun ⟨bytes, hbytes⟩ => hnumeral hbytes.isNumeral)
      (.inr hnumeral)

/-- What is spelled is read, wherever it stands. -/
theorem readPairs_of_spells (h : Spells text bytes) (position : Nat) :
    readPairs position (utf8 text) = .ok bytes := by
  rw [utf8_of_isNumeral le_rfl h.isNumeral]
  induction h generalizing position with
  | nil => rfl
  | cons hhigh hlow hbyte _ ih =>
    rw [List.map_cons, List.map_cons, readPairs,
      readsDigits_hex.of_char le_rfl hhigh, readsDigits_hex.of_char le_rfl hlow]
    simp only [ih, Except.map, ← hbyte, UInt8.ofNat_toNat]

/-- Reading passes over digits only. -/
theorem isSome_of_readPairs {position : Nat} {digits : List UInt8}
    (heven : Even digits.length) (h : readPairs position digits = .ok bytes) :
    ∀ byte ∈ digits, (digit? byte).isSome := by
  fun_induction readPairs position digits generalizing bytes with
  | case1 => exact nomatch h
  | case2 => exact nomatch h
  | case3 position high low rest highValue lowValue hlow hhigh ih =>
    cases hrest : readPairs (position + 2) rest with
    | error cause => simp [hrest, Except.map] at h
    | ok bytes =>
      have hdigits := ih (by simpa [Nat.even_add] using heven) hrest
      simpa [hhigh, hlow] using hdigits
  | case4 digits position hshort =>
    match digits with
    | [] => exact nofun
    | [_] => exact absurd heven (by simp)
    | high :: low :: rest => exact (hshort high low rest rfl).elim

/-- A text is read as a byte string just if its characters spell it. -/
theorem read_eq_ok_iff : read (utf8 text) = .ok bytes ↔ Spells text bytes := by
  have hread {bytes : List UInt8} (h : Spells text bytes) : read (utf8 text) =
      .ok bytes := by
    have hlength : (utf8 text).length = 2 * bytes.length := by
      rw [length_utf8 h.isNumeral, h.length_eq]
    rw [read, hlength, if_neg (by omega), readPairs_of_spells h]
  refine ⟨fun h => ?_, hread⟩
  -- A text that is read is a numeral of even length, hence spells something,
  -- which can only be what is read.
  have hpairs := h
  rw [read] at hpairs
  split at hpairs
  next => cases hpairs
  next hodd =>
    have heven : Even (utf8 text).length := Nat.even_iff.2 (by omega)
    have hnumeral : IsNumeral 16 text :=
      readsDigits_hex.isNumeral le_rfl (isSome_of_readPairs heven hpairs)
    rw [length_utf8 hnumeral] at heven
    obtain ⟨spelled, hspelled⟩ := exists_spells hnumeral heven
    obtain rfl : spelled = bytes :=
      Except.ok.inj ((hread hspelled).symm.trans h)
    exact hspelled

end Hex

/-! ## Decimal numbers within a limit -/

namespace Decimal

variable {limit n : Nat} {text : List Char}

/-- Reading stops at the digit that carries the number past the limit, and what
follows can only make it larger. -/
theorem readOnto_of_isNumeral (h : IsNumeral 10 text) {before : Nat}
    (hbefore : before ≤ limit) :
    readOnto limit before (Hex.utf8 text) =
      if before * 10 ^ text.length + value 10 text ≤ limit then
        .ok (before * 10 ^ text.length + value 10 text)
      else .error .tooLarge := by
  rw [utf8_of_isNumeral (by decide) h]
  induction text generalizing before with
  | nil => simpa [readOnto, value] using hbefore
  | cons c text ih =>
    obtain ⟨hc, htext⟩ := isNumeral_cons.1 h
    have htotal : before * 10 ^ (c :: text).length + value 10 (c :: text) =
        (before * 10 + digitValue c) * 10 ^ text.length + value 10 text := by
      rw [value_cons, List.length_cons, pow_succ]
      ring
    rw [List.map_cons, readOnto, readsDigits_decimal.of_char (by decide) hc,
      htotal]
    by_cases hle : before * 10 + digitValue c ≤ limit
    · simp only [if_pos hle]
      exact ih htext hle
    · have hgrows : before * 10 + digitValue c ≤
          (before * 10 + digitValue c) * 10 ^ text.length :=
        Nat.le_mul_of_pos_right _ (by positivity)
      simp only [if_neg hle]
      rw [if_neg (by omega)]

theorem read_of_isNumeral (h : IsNumeral 10 text) :
    read limit (Hex.utf8 text) =
      if value 10 text ≤ limit then .ok (value 10 text)
      else .error .tooLarge := by
  rw [read, readOnto_of_isNumeral h (Nat.zero_le _), Nat.zero_mul, Nat.zero_add]

theorem isSome_of_readOnto {before : Nat} {digits : List UInt8}
    (h : readOnto limit before digits = .ok n) :
    ∀ byte ∈ digits, (digit? byte).isSome := by
  fun_induction readOnto limit before digits with
  | case1 => exact nofun
  | case2 => exact nomatch h
  | case3 before byte rest d hdigit hle ih =>
    exact List.forall_mem_cons.2 ⟨by simp [hdigit], ih h⟩
  | case4 => exact nomatch h

/-- A text is read as a number just if it is a numeral of it and the number is
within the limit. -/
theorem read_eq_ok_iff :
    read limit (Hex.utf8 text) = .ok n ↔ Denotes 10 text n ∧ n ≤ limit := by
  constructor
  · intro h
    have hnumeral : IsNumeral 10 text :=
      readsDigits_decimal.isNumeral (by decide) (isSome_of_readOnto h)
    rw [read_of_isNumeral hnumeral] at h
    split at h
    next hle =>
      obtain rfl := Except.ok.inj h
      exact ⟨⟨hnumeral, rfl⟩, hle⟩
    next => exact nomatch h
  · rintro ⟨⟨hnumeral, rfl⟩, hle⟩
    rw [read_of_isNumeral hnumeral, if_pos hle]

end Decimal

end ContractMachine
