import Mathlib
import ContractMachine.Prestate.Basic
import ContractMachine.Proofs.Text.Numerals

/-!
# What the readers of texts accept

Addresses and words are read from digits of a fixed number, code from any
number of digits two a byte, storage keys and values from up to 64 of them,
balances from decimal or hexadecimal numerals.  They differ in the marks that
they take, in whether blanks around the text count and in whether digits have
to come in pairs.  For each of them this module says which texts it accepts and
what it makes of them; the texts that values are written as are among these.
-/

namespace ContractMachine

open Numeral

/-! ## Marks and blanks -/

namespace Text

/-- The text less the first of the marks that it starts with, if it starts with
one. -/
def without (marks : List (List Char)) (text : List Char) : List Char :=
  (marks.findSome? text.dropPrefix?).getD text

/-- Whether the text has the given characters and blanks before and after
them. -/
def Padded (core text : List Char) : Prop :=
  ∃ before after, text = before ++ core ++ after ∧
    (∀ c ∈ before, isBlank c) ∧ ∀ c ∈ after, isBlank c

/-- Whether the text has the given characters and all blanks before and after
them. -/
structure Trimmed (core text : List Char) : Prop where
  padded : Padded core text
  head : ∀ c ∈ core.head?, ¬isBlank c
  last : ∀ c ∈ core.getLast?, ¬isBlank c

variable {core text : List Char}

theorem dropPrefix?_eq_some_iff {mark rest : List Char} :
    text.dropPrefix? mark = some rest ↔ text = mark ++ rest := by
  simp [List.dropPrefix?_eq_some_iff]

theorem dropWhile_isBlank_append {blanks : List Char}
    (h : ∀ c ∈ blanks, isBlank c) (text : List Char) :
    (blanks ++ text).dropWhile isBlank = text.dropWhile isBlank := by
  rw [List.dropWhile_append, List.dropWhile_eq_nil_iff.2 h]
  rfl

theorem dropWhile_isBlank_of_head (h : ∀ c ∈ text.head?, ¬isBlank c) :
    text.dropWhile isBlank = text := by
  cases text with
  | nil => rfl
  | cons c rest => exact List.dropWhile_cons_of_neg (h c rfl)

theorem not_isBlank_of_mem_head?_dropWhile {c : Char}
    (h : c ∈ (text.dropWhile isBlank).head?) : ¬isBlank c := by
  have hnot := List.head?_dropWhile_not isBlank text
  rw [Option.mem_def.1 h] at hnot
  exact Bool.eq_false_iff.1 hnot

/-- Blanks are taken from the front first, then from the back. -/
theorem dropWhile_eq_trim_append (text : List Char) : text.dropWhile isBlank =
    trim text ++ ((text.dropWhile isBlank).reverse.takeWhile
      isBlank).reverse := by
  rw [trim, ← List.reverse_append, List.takeWhile_append_dropWhile,
    List.reverse_reverse]

theorem trimmed_trim (text : List Char) : Trimmed (trim text) text := by
  refine ⟨⟨text.takeWhile isBlank,
    ((text.dropWhile isBlank).reverse.takeWhile isBlank).reverse, ?_,
    fun c => List.mem_takeWhile_imp, fun c hc => ?_⟩, fun c hc => ?_,
    fun c hc => ?_⟩
  · rw [List.append_assoc, ← dropWhile_eq_trim_append,
      List.takeWhile_append_dropWhile]
  · exact List.mem_takeWhile_imp (List.mem_reverse.1 hc)
  · have hfirst : c ∈ (text.dropWhile isBlank).head? := by
      rw [dropWhile_eq_trim_append, List.head?_append, Option.mem_def.1 hc]
      rfl
    exact not_isBlank_of_mem_head?_dropWhile hfirst
  · rw [trim, List.getLast?_reverse] at hc
    exact not_isBlank_of_mem_head?_dropWhile hc

theorem Trimmed.trim_eq (h : Trimmed core text) : trim text = core := by
  obtain ⟨⟨before, after, rfl, hbefore, hafter⟩, hhead, hlast⟩ := h
  rw [trim, List.append_assoc, dropWhile_isBlank_append hbefore]
  cases core with
  | nil =>
    rw [List.nil_append, List.dropWhile_eq_nil_iff.2 hafter]
    rfl
  | cons c rest =>
    have hafterReverse : ∀ d ∈ after.reverse, isBlank d :=
      fun d hd => hafter d (List.mem_reverse.1 hd)
    have hheadReverse : ∀ d ∈ (c :: rest).reverse.head?, ¬isBlank d := by
      rwa [List.head?_reverse]
    rw [List.cons_append,
      List.dropWhile_cons_of_neg (hhead c rfl), ← List.cons_append,
      List.reverse_append, dropWhile_isBlank_append hafterReverse,
      dropWhile_isBlank_of_head hheadReverse, List.reverse_reverse]

/-- Trimming takes away the blanks around a text and nothing else. -/
theorem trim_eq_iff : trim text = core ↔ Trimmed core text :=
  ⟨fun h => h ▸ trimmed_trim text, Trimmed.trim_eq⟩

theorem trim_of_padded (h : Padded core text) (hcore : ∀ c ∈ core, ¬isBlank c) :
    trim text = core :=
  trim_eq_iff.2 ⟨h, fun c hc => hcore c (List.mem_of_mem_head? hc),
    fun c hc => hcore c (List.mem_of_mem_getLast? hc)⟩

theorem not_isBlank_of_digitValue_lt {c : Char} (h : digitValue c < 16) :
    ¬isBlank c := by
  have hascii : ∀ n : Fin 128, digitValue (Char.ofNat n) < 16 →
      ¬isBlank (Char.ofNat n) := by
    decide +kernel
  have hc := hascii ⟨c.toNat, toNat_lt_of_digitValue_lt h⟩
  rw [Char.ofNat_toNat] at hc
  exact hc h

end Text

namespace Hex

/-- The mark of hexadecimal digits. -/
def mark : List Char := ['0', 'x']

/-- The mark with a capital letter. -/
def capitalMark : List Char := ['0', 'X']

variable {text rest : List Char}

theorem afterMark?_eq_some_iff :
    afterMark? text = some rest ↔ text = mark ++ rest := by
  rw [afterMark?.eq_def]
  split
  next => simp [mark]
  next hnot =>
    refine ⟨nofun, ?_⟩
    rintro rfl
    exact (hnot rest rfl).elim

theorem afterAnyMark?_eq_some_iff :
    afterAnyMark? text = some rest ↔
    text = mark ++ rest ∨ text = capitalMark ++ rest := by
  rw [afterAnyMark?.eq_def]
  split
  next => simp [mark, capitalMark]
  next => simp [mark, capitalMark]
  next hmark hcapital =>
    refine ⟨nofun, ?_⟩
    rintro (rfl | rfl)
    · exact (hmark rest rfl).elim
    · exact (hcapital rest rfl).elim

theorem without_mark :
    Text.without [mark] text = (afterMark? text).getD text := by
  have hdrop : text.dropPrefix? mark = afterMark? text := by
    ext rest
    rw [afterMark?_eq_some_iff, Text.dropPrefix?_eq_some_iff]
  rw [Text.without, List.findSome?_cons, List.findSome?_nil, hdrop]
  cases afterMark? text <;> rfl

theorem without_anyMark :
    Text.without [mark, capitalMark] text = (afterAnyMark? text).getD text := by
  have hdrop : (text.dropPrefix? mark).or (text.dropPrefix? capitalMark) =
      afterAnyMark? text := by
    ext rest
    rw [afterAnyMark?_eq_some_iff, Option.or_eq_some_iff,
      Text.dropPrefix?_eq_some_iff, Text.dropPrefix?_eq_some_iff]
    refine or_congr_right (and_iff_right_of_imp ?_)
    rintro rfl
    rfl
  rw [Text.without, List.findSome?_cons, List.findSome?_cons,
    List.findSome?_nil, ← hdrop]
  cases text.dropPrefix? mark with
  | some rest => rfl
  | none => cases text.dropPrefix? capitalMark <;> rfl

/-- A numeral has no mark, for its second character would be no digit. -/
theorem afterMark?_of_isNumeral (h : IsNumeral 16 text) :
    afterMark? text = none := by
  rw [Option.eq_none_iff_forall_ne_some]
  intro rest hrest
  rw [afterMark?_eq_some_iff.1 hrest] at h
  exact absurd (h 'x' (by simp [mark])) (by decide)

theorem afterAnyMark?_of_isNumeral (h : IsNumeral 16 text) :
    afterAnyMark? text = none := by
  rw [Option.eq_none_iff_forall_ne_some]
  intro rest hrest
  rcases afterAnyMark?_eq_some_iff.1 hrest with rfl | rfl
  · exact absurd (h 'x' (by simp [mark])) (by decide)
  · exact absurd (h 'X' (by simp [capitalMark])) (by decide)

end Hex

/-! ## Values of fixed width -/

namespace FixedHex

/-- The digits of a text that stands for a value of fixed width. -/
def digitsOf (text : List Char) : List Char :=
  Text.without [Hex.mark, Hex.capitalMark] text

/-- Texts are read as values of a fixed number of bytes just if they are two
digits a byte, after a mark or without one.  Those bytes are what is read, the
errors tell what is wrong, and what is written reads back. -/
structure ReadsExactly {α : Type} (width : Nat)
    (read : List Char → Except Error α) (encode : α → Bytes)
    (render : α → String) : Prop where
  accepts_iff : ∀ text, (∃ value, read text = .ok value) ↔
    IsNumeral 16 (digitsOf text) ∧ (digitsOf text).length = 2 * width
  spells : ∀ text value, read text = .ok value →
    Hex.Spells (digitsOf text) (encode value).toList
  invalidHex_iff : ∀ text, (∃ cause, read text = .error (.invalidHex cause)) ↔
    Odd (Hex.utf8 (digitsOf text)).length ∨ ¬IsNumeral 16 (digitsOf text)
  invalidLength_iff : ∀ text expected got,
    read text = .error (.invalidLength expected got) ↔
    expected = width ∧ got ≠ width ∧ IsNumeral 16 (digitsOf text) ∧
      (digitsOf text).length = 2 * got
  read_render : ∀ value, read (render value).toList = .ok value

variable {width expected got : Nat} {text : List Char} {bytes : Bytes}

theorem digitsOf_eq (text : List Char) :
    digitsOf text = (Hex.afterAnyMark? text).getD text :=
  Hex.without_anyMark

theorem read_eq_ok_iff : read width text = .ok bytes ↔
    Hex.Spells (digitsOf text) bytes.toList ∧ bytes.size = width := by
  rw [← Hex.read_eq_ok_iff, read, ← digitsOf_eq]
  cases hread : Hex.read (Hex.utf8 (digitsOf text)) with
  | error cause => simp
  | ok spelled =>
    simp only [Except.ok.injEq]
    constructor
    · intro h
      rw [ofBytes] at h
      split at h
      next hwidth =>
        obtain rfl := Except.ok.inj h
        exact ⟨rfl, hwidth⟩
      next => exact nomatch h
    · rintro ⟨rfl, hsize⟩
      exact if_pos hsize

theorem exists_read_eq_invalidHex_iff :
    (∃ cause, read width text = .error (.invalidHex cause)) ↔
    ¬∃ bytes, Hex.Spells (digitsOf text) bytes := by
  simp only [← Hex.read_eq_ok_iff, read, ← digitsOf_eq]
  cases hread : Hex.read (Hex.utf8 (digitsOf text)) with
  | error cause => simp
  | ok spelled =>
    by_cases hwidth : spelled.length = width <;> simp [ofBytes, hwidth]

theorem read_eq_invalidLength_iff :
    read width text = .error (.invalidLength expected got) ↔
    expected = width ∧ got ≠ width ∧
      ∃ bytes, Hex.Spells (digitsOf text) bytes ∧ bytes.length = got := by
  simp only [← Hex.read_eq_ok_iff, read, ← digitsOf_eq]
  cases hread : Hex.read (Hex.utf8 (digitsOf text)) with
  | error cause => simp
  | ok spelled =>
    by_cases hwidth : spelled.length = width
    · simp only [ofBytes, if_pos hwidth]
      grind
    · simp only [ofBytes, if_neg hwidth]
      grind

theorem digitsOf_render (bytes : List UInt8) :
    digitsOf (Hex.render bytes).toList = bytes.flatMap Hex.pair := by
  rw [digitsOf_eq, Hex.render, String.toList_ofList]
  rfl

/-- Values and byte strings of a fixed length that determine each other. -/
structure Views {α : Type} (width : Nat) (decode : Bytes → α)
    (encode : α → Bytes) : Prop where
  decode_encode : ∀ value, decode (encode value) = value
  encode_decode : ∀ bytes : Bytes,
    bytes.size = width → encode (decode bytes) = bytes
  size_encode : ∀ value, (encode value).size = width

variable {α : Type} {decode : Bytes → α} {encode : α → Bytes}

theorem Views.map_read_eq_ok_iff (h : Views width decode encode) {value : α} :
    (read width text).map decode = .ok value ↔
      Hex.Spells (digitsOf text) (encode value).toList := by
  constructor
  · intro hmap
    cases hread : read width text with
    | error cause => simp [hread, Except.map] at hmap
    | ok bytes =>
      obtain ⟨hspells, hwidth⟩ := read_eq_ok_iff.1 hread
      have hvalue : decode bytes = value := by
        simpa [hread, Except.map] using hmap
      rwa [← hvalue, h.encode_decode bytes hwidth]
  · intro hspells
    rw [read_eq_ok_iff.2 ⟨hspells, h.size_encode value⟩, Except.map,
      h.decode_encode]

theorem map_read_eq_error_iff {cause : Error} :
    (read width text).map decode = .error cause ↔
    read width text = .error cause := by
  cases read width text <;> simp [Except.map]

theorem Views.readsExactly (h : Views width decode encode) :
    ReadsExactly width (fun text => (read width text).map decode) encode
      (fun value => Hex.render (encode value).toList) := by
  refine ⟨fun text => ?_, fun text value => h.map_read_eq_ok_iff.1,
    fun text => ?_, fun text expected got => ?_, fun value => ?_⟩
  · rw [← Hex.exists_spells_length_iff]
    constructor
    · rintro ⟨value, hvalue⟩
      exact ⟨_, h.map_read_eq_ok_iff.1 hvalue, h.size_encode value⟩
    · rintro ⟨bytes, hbytes, hwidth⟩
      refine ⟨decode bytes.toArray, h.map_read_eq_ok_iff.2 ?_⟩
      rwa [h.encode_decode bytes.toArray hwidth]
  · simp only [map_read_eq_error_iff]
    rw [exists_read_eq_invalidHex_iff, Hex.not_exists_spells_iff]
  · rw [map_read_eq_error_iff, read_eq_invalidLength_iff,
      Hex.exists_spells_length_iff]
  · rw [h.map_read_eq_ok_iff, digitsOf_render]
    exact Hex.read_eq_ok_iff.1 (Hex.read_digits _)

end FixedHex

theorem Address.readsExactly :
    FixedHex.ReadsExactly 20 Address.read Address.toBytes Address.render :=
  FixedHex.Views.readsExactly
    ⟨Address.ofBytes_toBytes, fun _ => Address.toBytes_ofBytes,
     Address.size_toBytes⟩

theorem Word.readsExactly :
    FixedHex.ReadsExactly 32 Word.readFull Word.toBytes Word.renderFull :=
  FixedHex.Views.readsExactly
    ⟨Word.ofBytes_toBytes, fun _ => Word.toBytes_ofBytes, Word.size_toBytes⟩

theorem Word.toNat_ofBytes_of_le {bytes : List UInt8} (h : bytes.length ≤ 32) :
    (Word.ofBytes bytes.toArray).toNat = BigEndian.decode bytes := by
  rw [Word.toNat_ofBytes, BigEndian.decode_eq_value, List.size_toArray,
    Nat.sub_eq_zero_of_le h, List.drop_zero]

/-- Short byte strings are words with zeros in front. -/
theorem Word.toBytes_ofBytes_of_le {bytes : List UInt8}
    (h : bytes.length ≤ 32) :
    (Word.ofBytes bytes.toArray).toBytes.toList =
      List.replicate (32 - bytes.length) 0 ++ bytes := by
  have hhigh : BigEndian.decode bytes / 256 ^ bytes.length = 0 :=
    Nat.div_eq_of_lt (BigEndian.decode_lt bytes)
  have hsplit := BigEndian.encode_add (32 - bytes.length) bytes.length
    (BigEndian.decode bytes)
  rw [Nat.sub_add_cancel h, hhigh, BigEndian.encode_zero,
    BigEndian.encode_decode] at hsplit
  rw [Word.toBytes, Word.toNat_ofBytes_of_le h, hsplit]

namespace Prestate

/-! ## Code, storage keys and values -/

/-- The digits of a text that stands for bytes. -/
def digitsOf (text : String) : List Char :=
  Text.without [Hex.mark] (Text.trim text.toList)

variable {text : String} {bytes : List UInt8} {w : Word}

theorem readBytes_eq_ok_iff :
    readBytes text = .ok bytes ↔ Hex.Spells (digitsOf text) bytes := by
  rw [← Hex.read_eq_ok_iff, digitsOf, Hex.without_mark, readBytes]
  cases Hex.read (Hex.utf8 ((Hex.afterMark? (Text.trim text.toList)).getD
    (Text.trim text.toList))) <;> simp

/-- Whether a text stands for the code of an account: digits in pairs that spell
its bytes, or no text where there is no code. -/
def WritesCode : Option String → Bytes → Prop
  | none, code => code = #[]
  | some text, code => Hex.Spells (digitsOf text) code.toList

theorem readCode_eq_ok_iff {text : Option String} {code : Bytes} :
    readCode text = .ok code ↔ WritesCode text code := by
  cases text with
  | none => simp [readCode, WritesCode, eq_comm]
  | some text =>
    rw [WritesCode, ← readBytes_eq_ok_iff, readCode]
    cases readBytes text with
    | error cause => simp [Except.map]
    | ok bytes => simp [Except.map, ← Array.toList_inj]

theorem readSlot_eq_ok_iff : readSlot text = .ok w ↔
    ∃ bytes, Hex.Spells (digitsOf text) bytes ∧ bytes.length ≤ 32 ∧
      Word.ofBytes bytes.toArray = w := by
  simp only [← readBytes_eq_ok_iff, readSlot]
  cases hread : readBytes text with
  | error cause => simp [bind, Except.bind]
  | ok spelled =>
    by_cases hlong : 32 < spelled.length
    · simp [bind, Except.bind, hlong]
    · simp [bind, Except.bind, hlong, Nat.not_lt.1 hlong]

theorem exists_readSlot_iff : (∃ w, readSlot text = .ok w) ↔
    IsNumeral 16 (digitsOf text) ∧ Even (digitsOf text).length ∧
    (digitsOf text).length ≤ 64 := by
  simp only [readSlot_eq_ok_iff]
  constructor
  · rintro ⟨w, bytes, hspells, hlength, rfl⟩
    have hdigits := hspells.length_eq
    exact ⟨hspells.isNumeral, hdigits ▸ even_two_mul bytes.length, by omega⟩
  · rintro ⟨hnumeral, heven, hle⟩
    obtain ⟨bytes, hspells⟩ := Hex.exists_spells hnumeral heven
    have hdigits := hspells.length_eq
    exact ⟨_, bytes, hspells, by omega, rfl⟩

/-! ## Balances -/

/-- The texts of balances: decimal numerals of words, nothing at all counting as
zero, and up to 64 hexadecimal digits after a mark of either case and possibly a
second mark. -/
inductive WritesAmount : List Char → Nat → Prop
  | decimal {digits : List Char} {n : Nat} (hdigits : Denotes 10 digits n)
      (hword : n < 2 ^ 256) :
      WritesAmount digits n
  | hex {first second digits : List Char} {n : Nat}
      (hfirst : first ∈ [Hex.mark, Hex.capitalMark])
      (hsecond : second ∈ [[], Hex.mark]) (hdigits : Denotes 16 digits n)
      (hlength : digits.length ≤ 64) :
      WritesAmount (first ++ second ++ digits) n

variable {chars digits : List Char} {n : Nat}

/-- Digits odd in number get a zero in front, which does not change what they
denote. -/
theorem exists_read_paired_iff :
    (∃ bytes,
      Hex.read (if (Hex.utf8 digits).length % 2 = 1 then 48 :: Hex.utf8 digits
      else Hex.utf8 digits) = .ok bytes ∧ BigEndian.decode bytes = n) ↔
        Denotes 16 digits n := by
  have hzero : 48 :: Hex.utf8 digits = Hex.utf8 ('0' :: digits) := rfl
  by_cases hodd : (Hex.utf8 digits).length % 2 = 1
  · simp only [if_pos hodd, hzero, Hex.read_eq_ok_iff]
    constructor
    · rintro ⟨bytes, hbytes, rfl⟩
      exact (denotes_zero_cons (by decide)).1 hbytes.denotes
    · intro h
      have hpaired : Denotes 16 ('0' :: digits) n :=
        (denotes_zero_cons (by decide)).2 h
      rw [length_utf8 h.isNumeral] at hodd
      obtain ⟨bytes, hbytes⟩ := Hex.exists_spells hpaired.isNumeral
        (Nat.even_iff.2 (by simp only [List.length_cons]; omega))
      exact ⟨bytes, hbytes, hbytes.value_eq.symm.trans hpaired.value_eq⟩
  · simp only [if_neg hodd, Hex.read_eq_ok_iff]
    constructor
    · rintro ⟨bytes, hbytes, rfl⟩
      exact hbytes.denotes
    · intro h
      rw [length_utf8 h.isNumeral] at hodd
      obtain ⟨bytes, hbytes⟩ :=
        Hex.exists_spells h.isNumeral (Nat.even_iff.2 (by omega))
      exact ⟨bytes, hbytes, hbytes.value_eq.symm.trans h.value_eq⟩

theorem readHexNumber_eq_ok_iff
    (hdigits : Text.without [Hex.mark] chars = digits) :
    readHexNumber chars = .ok n ↔ Denotes 16 digits n ∧ digits.length ≤ 64 := by
  rw [Hex.without_mark] at hdigits
  simp only [readHexNumber, hdigits]
  by_cases hlong : 64 < (Hex.utf8 digits).length
  · rw [if_pos hlong]
    refine ⟨nofun, fun ⟨hnumeral, hlength⟩ => ?_⟩
    rw [length_utf8 hnumeral.isNumeral] at hlong
    omega
  · have hlength (h : Denotes 16 digits n) : digits.length ≤ 64 := by
      rw [length_utf8 h.isNumeral] at hlong
      omega
    rw [if_neg hlong, and_iff_left_of_imp hlength, ← exists_read_paired_iff]
    split
    next bytes hread => simp [hread]
    next cause hread => simp [hread]

theorem readHexNumber_of_long (h : IsNumeral 16 digits)
    (hlong : 64 < digits.length) :
    readHexNumber digits = .error .tooLong := by
  have hlength : 64 < (Hex.utf8 digits).length := by rwa [length_utf8 h]
  rw [readHexNumber, Hex.afterMark?_of_isNumeral h]
  exact if_pos hlength

theorem without_mark_of_second {second : List Char}
    (hsecond : second ∈ [[], Hex.mark]) (h : IsNumeral 16 digits) :
    Text.without [Hex.mark] (second ++ digits) = digits := by
  rw [Hex.without_mark]
  simp only [List.mem_cons, List.not_mem_nil, or_false] at hsecond
  rcases hsecond with rfl | rfl
  · rw [List.nil_append, Hex.afterMark?_of_isNumeral h]
    rfl
  · rfl

theorem exists_second (chars : List Char) :
    ∃ second ∈ [[], Hex.mark],
      chars = second ++ Text.without [Hex.mark] chars := by
  rw [Hex.without_mark]
  cases hmark : Hex.afterMark? chars with
  | none => exact ⟨[], by simp, rfl⟩
  | some rest => exact ⟨Hex.mark, by simp, Hex.afterMark?_eq_some_iff.1 hmark⟩

theorem le_top_iff : n ≤ Word.top.toNat ↔ n < 2 ^ 256 := by
  rw [Word.top, BitVec.toNat_allOnes]
  omega

theorem readAmount_of_isNumeral (h : IsNumeral 10 digits) :
    readAmount digits =
      if value 10 digits < 2 ^ 256 then .ok (value 10 digits)
      else .error (.decimal .tooLarge) := by
  have hnumeral : IsNumeral 16 digits := fun c hc => (h c hc).trans (by decide)
  rw [readAmount, Hex.afterAnyMark?_of_isNumeral hnumeral]
  simp only [Decimal.read_of_isNumeral h, le_top_iff]
  by_cases hword : value 10 digits < 2 ^ 256
  · rw [if_pos hword, if_pos hword]
  · rw [if_neg hword, if_neg hword]

theorem readAmount_of_marked {first : List Char}
    (hfirst : first ∈ [Hex.mark, Hex.capitalMark]) (chars : List Char) :
    readAmount (first ++ chars) = readHexNumber chars := by
  have hmark : Hex.afterAnyMark? (first ++ chars) = some chars :=
    Hex.afterAnyMark?_eq_some_iff.2 (by simpa using hfirst)
  rw [readAmount, hmark]

theorem readAmount_eq_ok_iff :
    readAmount chars = .ok n ↔ WritesAmount chars n := by
  constructor
  · intro h
    rw [readAmount] at h
    split at h
    next rest hmark =>
      obtain ⟨hdigits, hlength⟩ := (readHexNumber_eq_ok_iff rfl).1 h
      obtain ⟨second, hsecond, hrest⟩ := exists_second rest
      obtain ⟨first, hfirst, hchars⟩ : ∃ first ∈ [Hex.mark, Hex.capitalMark],
          chars = first ++ rest := by
        simpa using Hex.afterAnyMark?_eq_some_iff.1 hmark
      rw [hchars, hrest, ← List.append_assoc]
      exact .hex hfirst hsecond hdigits hlength
    next hmark =>
      split at h
      next number hread =>
        obtain rfl := Except.ok.inj h
        obtain ⟨hdigits, hle⟩ := Decimal.read_eq_ok_iff.1 hread
        exact .decimal hdigits (le_top_iff.1 hle)
      next => exact nomatch h
  · intro h
    cases h with
    | decimal hdigits hword =>
      rw [readAmount_of_isNumeral hdigits.isNumeral, hdigits.value_eq,
        if_pos hword]
    | hex hfirst hsecond hdigits hlength =>
      rw [List.append_assoc, readAmount_of_marked hfirst]
      exact (readHexNumber_eq_ok_iff
        (without_mark_of_second hsecond hdigits.isNumeral)).2
        ⟨hdigits, hlength⟩

theorem WritesAmount.lt (h : WritesAmount chars n) : n < 2 ^ 256 := by
  cases h with
  | decimal _ hword => exact hword
  | @hex _ _ digits _ _ _ hdigits hlength =>
    calc n
      _ < 16 ^ digits.length := hdigits.lt (by decide)
      _ ≤ 16 ^ 64 := Nat.pow_le_pow_right (by decide) hlength
      _ = 2 ^ 256 := by norm_num

/-- The number of a balance is read whatever blanks are around it. -/
theorem readBalance_eq (text : String) :
    readBalance text = match readAmount (Text.trim text.toList) with
      | .ok n => .ok (BitVec.ofNat 256 n)
      | .error cause => .error (.balance (Text.trim text.toList) cause) := by
  rw [readBalance]
  cases htrim : Text.trim text.toList with
  | nil => rfl
  | cons c rest => rfl

theorem readBalance_eq_ok_iff :
    readBalance text = .ok w ↔
    WritesAmount (Text.trim text.toList) w.toNat := by
  rw [← readAmount_eq_ok_iff, readBalance_eq]
  cases hread : readAmount (Text.trim text.toList) with
  | error cause => simp
  | ok n =>
    have hlt : n < 2 ^ 256 := (readAmount_eq_ok_iff.1 hread).lt
    simp only [Except.ok.injEq, ← BitVec.toNat_inj, BitVec.toNat_ofNat,
      Nat.mod_eq_of_lt hlt]

variable {first : List Char}

theorem not_isBlank_of_marked (hfirst : first ∈ [Hex.mark, Hex.capitalMark])
    (h : IsNumeral 16 digits) : ∀ c ∈ first ++ digits, ¬Text.isBlank c := by
  have hmarks : ∀ mark ∈ [Hex.mark, Hex.capitalMark], ∀ c ∈ mark,
      ¬Text.isBlank c := by
    simp [Hex.mark, Hex.capitalMark, Text.isBlank]
  exact List.forall_mem_append.2
    ⟨hmarks first hfirst,
     fun c hc => Text.not_isBlank_of_digitValue_lt (h c hc)⟩

theorem not_isBlank_of_isNumeral (h : IsNumeral 10 digits) :
    ∀ c ∈ digits, ¬Text.isBlank c :=
  fun c hc => Text.not_isBlank_of_digitValue_lt ((h c hc).trans (by decide))

/-- A balance in decimal reads back, with any zeros in front and blanks
around. -/
theorem readBalance_of_decimal {zeros : Nat}
    (h : Text.Padded (List.replicate zeros '0' ++ w.renderDecimal.toList)
      text.toList) :
    readBalance text = .ok w := by
  rw [Word.renderDecimal, Decimal.render, String.toList_ofList] at h
  have hdigits : Denotes 10
      (List.replicate zeros '0' ++ Nat.toDigits 10 w.toNat) w.toNat :=
    (denotes_toDigits (by decide) (by decide) w.toNat).zeros_append
      (by decide) zeros
  rw [readBalance_eq_ok_iff,
    Text.trim_of_padded h (not_isBlank_of_isNumeral hdigits.isNumeral)]
  exact .decimal hdigits w.isLt

/-- A balance in hexadecimal reads back, in either case, with zeros in front and
blanks around. -/
theorem readBalance_of_hex {zeros : Nat}
    (hfirst : first ∈ [Hex.mark, Hex.capitalMark])
    (hlower : digits.map Char.toLower =
      List.replicate zeros '0' ++ Nat.toDigits 16 w.toNat)
    (hlength : digits.length ≤ 64)
    (h : Text.Padded (first ++ digits) text.toList) :
    readBalance text = .ok w := by
  have hdigits : Denotes 16 digits w.toNat := by
    rw [← denotes_map_toLower, hlower]
    exact (denotes_toDigits (by decide) le_rfl w.toNat).zeros_append
      (by decide) zeros
  rw [readBalance_eq_ok_iff,
    Text.trim_of_padded h
      (not_isBlank_of_marked hfirst hdigits.isNumeral), ← List.append_nil first]
  exact .hex hfirst List.mem_cons_self hdigits hlength

theorem readBalance_of_tooLarge (hnumeral : IsNumeral 10 digits)
    (hlarge : 2 ^ 256 ≤ value 10 digits) (h : Text.Padded digits text.toList) :
    readBalance text = .error (.balance digits (.decimal .tooLarge)) := by
  rw [readBalance_eq, Text.trim_of_padded h (not_isBlank_of_isNumeral hnumeral),
    readAmount_of_isNumeral hnumeral, if_neg (Nat.not_lt.2 hlarge)]

theorem readBalance_of_tooLong (hfirst : first ∈ [Hex.mark, Hex.capitalMark])
    (hnumeral : IsNumeral 16 digits) (hlong : 64 < digits.length)
    (h : Text.Padded (first ++ digits) text.toList) :
    readBalance text = .error (.balance (first ++ digits) .tooLong) := by
  rw [readBalance_eq,
    Text.trim_of_padded h (not_isBlank_of_marked hfirst hnumeral),
    readAmount_of_marked hfirst, readHexNumber_of_long hnumeral hlong]

/-! ## All readers -/

/-- Readers of texts accept exactly what their grammars allow, and undo the
printers.  An address is read from 40 digits and a word of full width from 64,
of either case and after `0x`, `0X` or no mark; an odd number of bytes or a
character that is no digit is reported as such, and any other number of digits
by the bytes that they spell.  A storage key or value is read, less the blanks
around it and one `0x`, from up to 64 digits in pairs, and its bytes stand
behind zeros.  A balance is read from any text of `WritesAmount`, less the
blanks around it: so every word comes back from its decimal form behind any
zeros, and from its hexadecimal form of either case after `0x` or `0X` and
behind zeros up to 64 digits, while larger decimal numbers and longer
hexadecimal numerals are refused. -/
theorem readers_accept_exactly_their_grammars :
    FixedHex.ReadsExactly 20 Address.read Address.toBytes Address.render ∧
    FixedHex.ReadsExactly 32 Word.readFull Word.toBytes Word.renderFull ∧
    (∀ text core, Text.trim text = core ↔ Text.Trimmed core text) ∧
    (∀ text, (∃ w, readSlot text = .ok w) ↔ IsNumeral 16 (digitsOf text) ∧
      Even (digitsOf text).length ∧ (digitsOf text).length ≤ 64) ∧
    (∀ text w, readSlot text = .ok w → w.toNat = value 16 (digitsOf text) ∧
      ∃ bytes, Hex.Spells (digitsOf text) bytes ∧
        w.toBytes.toList = List.replicate (32 - bytes.length) 0 ++ bytes) ∧
    (∀ text w, readBalance text = .ok w ↔
      WritesAmount (Text.trim text.toList) w.toNat) ∧
    (∀ (w : Word) zeros text,
      Text.Padded (List.replicate zeros '0' ++ w.renderDecimal.toList)
        text.toList →
        readBalance text = .ok w) ∧
    (∀ (w : Word) zeros digits text, ∀ mark ∈ [Hex.mark, Hex.capitalMark],
      digits.map Char.toLower =
        List.replicate zeros '0' ++ Nat.toDigits 16 w.toNat →
        digits.length ≤ 64 → Text.Padded (mark ++ digits) text.toList →
          readBalance text = .ok w) ∧
    (∀ digits text, IsNumeral 10 digits → 2 ^ 256 ≤ value 10 digits →
      Text.Padded digits text.toList →
        readBalance text = .error (.balance digits (.decimal .tooLarge))) ∧
    ∀ digits text, ∀ mark ∈ [Hex.mark, Hex.capitalMark], IsNumeral 16 digits →
      64 < digits.length → Text.Padded (mark ++ digits) text.toList →
        readBalance text = .error (.balance (mark ++ digits) .tooLong) := by
  refine ⟨Address.readsExactly, Word.readsExactly,
    fun text core => Text.trim_eq_iff, fun text => exists_readSlot_iff, ?_,
    fun text w => readBalance_eq_ok_iff,
    fun w zeros text => readBalance_of_decimal, ?_, ?_, ?_⟩
  · intro text w hread
    obtain ⟨bytes, hspells, hlength, rfl⟩ := readSlot_eq_ok_iff.1 hread
    have hvalue :=
      (Word.toNat_ofBytes_of_le hlength).trans hspells.value_eq.symm
    exact ⟨hvalue, bytes, hspells, Word.toBytes_ofBytes_of_le hlength⟩
  · intro w zeros digits text mark hmark hdigits hlength hpadded
    exact readBalance_of_hex hmark hdigits hlength hpadded
  · intro digits text hnumeral hlarge hpadded
    exact readBalance_of_tooLarge hnumeral hlarge hpadded
  · intro digits text mark hmark hnumeral hlong hpadded
    exact readBalance_of_tooLong hmark hnumeral hlong hpadded

/-- The largest word is read behind a blank and a zero, and the next number is
refused, as are 65 zeros after a mark; letters of both cases and a key of two
digits are read. -/
theorem largest_word_is_last_balance_read :
    readBalance "\t0XffFF\n" = .ok 65535 ∧
    readBalance (String.ofList (' ' :: '0' :: Word.top.renderDecimal.toList)) =
      .ok Word.top ∧
    readBalance (String.ofList (Nat.toDigits 10 (2 ^ 256))) =
      .error (.balance (Nat.toDigits 10 (2 ^ 256)) (.decimal .tooLarge)) ∧
    readBalance (String.ofList (Hex.mark ++ List.replicate 65 '0')) =
      .error (.balance (Hex.mark ++ List.replicate 65 '0') .tooLong) ∧
    ∃ w, readSlot " 0x1F" = .ok w ∧ w.toNat = 31 := by
  obtain ⟨_, _, _, haccepts, hslot, _, hdecimal, hhex, hlarge, hlong⟩ :=
    readers_accept_exactly_their_grammars
  have hnext : Denotes 10 (Nat.toDigits 10 (2 ^ 256)) (2 ^ 256) :=
    denotes_toDigits (by decide) (by decide) _
  refine ⟨?_, ?_, ?_, ?_, ?_⟩
  · exact hhex 65535 0 ['f', 'f', 'F',
      'F'] _ Hex.capitalMark (by simp) (by decide) (by decide)
      ⟨['\t'], ['\n'], rfl, by simp [Text.isBlank], by simp [Text.isBlank]⟩
  · exact hdecimal Word.top 1 _
      ⟨[' '], [], by simp, by simp [Text.isBlank], nofun⟩
  · exact hlarge _ _ hnext.isNumeral hnext.value_eq.ge
      ⟨[], [], by simp, nofun, nofun⟩
  · exact hlong (List.replicate 65 '0') _ Hex.mark (by simp) (by decide +kernel)
      (by decide)
      ⟨[], [], by simp, nofun, nofun⟩
  · obtain ⟨w, hw⟩ := (haccepts " 0x1F").2 (by decide +kernel)
    exact ⟨w, hw, (hslot _ _ hw).1.trans (by decide +kernel)⟩

end Prestate

end ContractMachine
