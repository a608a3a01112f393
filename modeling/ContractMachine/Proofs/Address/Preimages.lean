import Mathlib
import ContractMachine.Address.Derivation
import ContractMachine.Address.RoundTrip
import ContractMachine.Word.RoundTrip

/-!
# Messages that name new contracts

The address of a new contract is cut out of the digest of a message.  The
message tells all that the address is derived from: framed strings are read off
their frames one after the other, the parts of a message with a salt stand at
fixed places, and the two kinds of message start with different bytes.  So two
contracts get one address only where the digest function fails to tell two
messages apart.
-/

namespace ContractMachine

/-! ## Framed strings -/

namespace Rlp

/-- Reads the first framed string of a message, given that it is shorter than 56
bytes, and leaves the rest of the message. -/
def takeString : List UInt8 → List UInt8 × List UInt8
  | [] => ([], [])
  | first :: rest =>
    if first < 0x80 then ([first], rest) else rest.splitAt (first.toNat - 0x80)

variable {bytes : List UInt8}

theorem header_of_lt (base : UInt8) {length : Nat} (h : length < 56) :
    header base length = [base + UInt8.ofNat length] :=
  if_pos h

/-- The byte in front of something short tells its length. -/
theorem toNat_tag (base : UInt8) {length : Nat}
    (h : base.toNat + length < 256) :
    (base + UInt8.ofNat length).toNat = base.toNat + length := by
  rw [UInt8.toNat_add, UInt8.toNat_ofNat', Nat.add_mod_mod, Nat.mod_eq_of_lt h]

/-- A short string is its own frame, or follows a byte that tells its length. -/
theorem string_cases (h : bytes.length < 56) :
    (∃ byte < 0x80, bytes = [byte] ∧ string bytes = [byte]) ∨
      string bytes = (0x80 + UInt8.ofNat bytes.length) :: bytes := by
  unfold string
  split
  next byte =>
    by_cases hbyte : byte < 0x80
    · exact .inl ⟨byte, hbyte, rfl, if_pos hbyte⟩
    · exact .inr (if_neg hbyte)
  next =>
    rw [header_of_lt _ h]
    exact .inr rfl

/-- What is framed is read off, whatever follows. -/
theorem takeString_string_append (h : bytes.length < 56) (rest : List UInt8) :
    takeString (string bytes ++ rest) = (bytes, rest) := by
  rcases string_cases h with ⟨byte, hbyte, rfl, hstring⟩ | hstring
  · rw [hstring, List.singleton_append, takeString, if_pos hbyte]
  · have htag : (0x80 + UInt8.ofNat bytes.length).toNat = 0x80 + bytes.length :=
      toNat_tag 0x80 (show 0x80 + bytes.length < 256 by omega)
    have hframed : ¬0x80 + UInt8.ofNat bytes.length < 0x80 := by
      rw [UInt8.lt_iff_toNat_lt, htag]
      exact Nat.not_lt.2 (Nat.le_add_right ..)
    rw [hstring, List.cons_append, takeString, if_neg hframed, htag,
      Nat.add_sub_cancel_left, List.splitAt_eq, List.take_left, List.drop_left]

theorem length_string_le (h : bytes.length < 56) :
    (string bytes).length ≤ bytes.length + 1 := by
  rcases string_cases h with ⟨byte, _, rfl, hstring⟩ | hstring
  · rw [hstring]
    exact Nat.le_succ _
  · rw [hstring, List.length_cons]

theorem list_of_lt {items : List (List UInt8)} (h : items.flatten.length < 56) :
    list items = (0xc0 + UInt8.ofNat items.flatten.length) ::
      items.flatten := by
  rw [list, header_of_lt _ h, List.singleton_append]

/-- A number is read off its shortest form. -/
theorem eq_of_number_eq {m n : Nat} (hm : BigEndian.byteLength m < 56)
    (hn : BigEndian.byteLength n < 56) (h : number m = number n) : m = n := by
  have hminimal : BigEndian.minimal m = BigEndian.minimal n := by
    have hread := congrArg (fun message => takeString (message ++ [])) h
    simp only [number] at hread
    rw [takeString_string_append (by simpa using hm),
      takeString_string_append (by simpa using hn)] at hread
    exact congrArg Prod.fst hread
  rw [← BigEndian.decode_minimal m, hminimal, BigEndian.decode_minimal]

end Rlp

theorem Word.toBytes_injective : Function.Injective Word.toBytes :=
  Function.LeftInverse.injective Word.ofBytes_toBytes

namespace Address

/-! ## The two kinds of message -/

theorem toBytes_injective : Function.Injective toBytes :=
  Function.LeftInverse.injective ofBytes_toBytes

theorem byteLength_nonce_le (nonce : UInt64) :
    BigEndian.byteLength nonce.toNat ≤ 8 :=
  BigEndian.byteLength_le_iff.2 nonce.toNat_lt

/-- A message without a salt is a list that is short enough for a frame of one
byte. -/
theorem exists_noncePreimage_eq (creator : Address) (nonce : UInt64) :
    ∃ length < 56, noncePreimage creator nonce.toNat =
      (0xc0 + UInt8.ofNat length) ::
        (Rlp.string creator.toBytes.toList ++ Rlp.number nonce.toNat) := by
  have hnonce := byteLength_nonce_le nonce
  have hcreator : (Rlp.string creator.toBytes.toList).length ≤ 21 :=
    (Rlp.length_string_le (by simp)).trans (by simp)
  have hnumber : (Rlp.number nonce.toNat).length ≤ 9 := by
    refine (Rlp.length_string_le ?_).trans ?_
    · rw [BigEndian.length_minimal]
      omega
    · rw [BigEndian.length_minimal]
      omega
  have hflatten : [Rlp.string creator.toBytes.toList,
      Rlp.number nonce.toNat].flatten =
      Rlp.string creator.toBytes.toList ++ Rlp.number nonce.toNat := by
    simp
  have hlength : (Rlp.string creator.toBytes.toList ++
      Rlp.number nonce.toNat).length < 56 := by
    rw [List.length_append]
    omega
  refine ⟨_, hlength, ?_⟩
  rw [noncePreimage, Rlp.list_of_lt (by rwa [hflatten]), hflatten]

theorem eq_of_noncePreimage_eq {creator creator' : Address}
    {nonce nonce' : UInt64}
    (h : noncePreimage creator nonce.toNat =
      noncePreimage creator' nonce'.toNat) :
    creator = creator' ∧ nonce = nonce' := by
  obtain ⟨length, _, hleft⟩ := exists_noncePreimage_eq creator nonce
  obtain ⟨length', _, hright⟩ := exists_noncePreimage_eq creator' nonce'
  have hcons := hleft.symm.trans (h.trans hright)
  have hread := congrArg Rlp.takeString (List.cons.inj hcons).2
  rw [Rlp.takeString_string_append (by simp),
    Rlp.takeString_string_append (by simp)] at hread
  have hcreator : creator = creator' :=
    toBytes_injective (Array.toList_inj.1 (congrArg Prod.fst hread))
  have hnonce : nonce.toNat = nonce'.toNat :=
    Rlp.eq_of_number_eq ((byteLength_nonce_le nonce).trans_lt (by decide))
      ((byteLength_nonce_le nonce').trans_lt (by decide))
      (congrArg Prod.snd hread)
  exact ⟨hcreator, UInt64.toNat_inj.1 hnonce⟩

@[simp]
theorem length_saltPreimage (creator : Address) (salt codeHash : Word) :
    (saltPreimage creator salt codeHash).length = 85 := by
  simp [saltPreimage]

theorem eq_of_saltPreimage_eq {creator creator' : Address}
    {salt salt' codeHash codeHash' : Word}
    (h : saltPreimage creator salt codeHash =
      saltPreimage creator' salt' codeHash') :
    creator = creator' ∧ salt = salt' ∧ codeHash = codeHash' := by
  have hparts := (List.cons.inj h).2
  obtain ⟨hfront, hcodeHash⟩ := List.append_inj hparts (by simp)
  obtain ⟨hcreator, hsalt⟩ := List.append_inj hfront (by simp)
  exact ⟨toBytes_injective (Array.toList_inj.1 hcreator),
    Word.toBytes_injective (Array.toList_inj.1 hsalt),
    Word.toBytes_injective (Array.toList_inj.1 hcodeHash)⟩

/-- The frame of a short list is no byte that a message with a salt starts
with. -/
theorem noncePreimage_ne_saltPreimage (creator creator' : Address)
    (nonce : UInt64) (salt codeHash : Word) :
    noncePreimage creator nonce.toNat ≠
      saltPreimage creator' salt codeHash := by
  intro heq
  obtain ⟨length, hlength, hframed⟩ := exists_noncePreimage_eq creator nonce
  have hfirst : 0xc0 + UInt8.ofNat length = 0xff :=
    (List.cons.inj (hframed.symm.trans heq)).1
  have htag : (0xc0 + UInt8.ofNat length).toNat = 0xc0 + length :=
    Rlp.toNat_tag 0xc0 (show 0xc0 + length < 256 by omega)
  rw [hfirst] at htag
  have hlast : 0xff = 0xc0 + length := htag
  omega

/-! ## Collisions -/

/-- What the address of a new contract is derived from. -/
inductive Derivation where
  | byNonce (creator : Address) (nonce : UInt64)
  | bySalt (creator : Address) (salt : Word) (initCode : Bytes)

namespace Derivation

/-- The message that is hashed. -/
def message : Derivation → Bytes
  | byNonce creator nonce => (noncePreimage creator nonce.toNat).toArray
  | bySalt creator salt initCode =>
    (saltPreimage creator salt (Keccak.hash initCode)).toArray

/-- The address that is derived. -/
def address : Derivation → Address
  | byNonce creator nonce => creator.byNonce nonce.toNat
  | bySalt creator salt initCode => creator.bySalt salt initCode

/-- Two derivations that differ in nothing but the initialisation code, and
whose codes are different but have one digest. -/
def CodesCollide (d d' : Derivation) : Prop :=
  ∃ creator salt initCode initCode', d = bySalt creator salt initCode ∧
    d' = bySalt creator salt initCode' ∧ initCode ≠ initCode' ∧
      Keccak.hash initCode = Keccak.hash initCode'

/-- Two derivations whose messages are different but have digests that agree in
the low-order 160 bits. -/
def MessagesCollide (d d' : Derivation) : Prop :=
  d.message ≠ d'.message ∧
    (Keccak.hash d.message).toAddress = (Keccak.hash d'.message).toAddress

theorem address_eq (d : Derivation) :
    d.address = (Keccak.hash d.message).toAddress := by
  cases d <;> rfl

theorem CodesCollide.message_eq {d d' : Derivation} (h : d.CodesCollide d') :
    d.message = d'.message := by
  obtain ⟨creator, salt, initCode, initCode', rfl, rfl, _, hhash⟩ := h
  rw [message, message, hhash]

/-- A message tells what it is made from, up to the digest that stands for the
code. -/
theorem eq_or_codesCollide {d d' : Derivation} (h : d.message = d'.message) :
    d = d' ∨ d.CodesCollide d' := by
  have hlist := congrArg Array.toList h
  cases d with
  | byNonce creator nonce =>
    cases d' with
    | byNonce creator' nonce' =>
      obtain ⟨rfl, rfl⟩ := eq_of_noncePreimage_eq hlist
      exact .inl rfl
    | bySalt creator' salt' initCode' =>
      exact (noncePreimage_ne_saltPreimage _ _ _ _ _ hlist).elim
  | bySalt creator salt initCode =>
    cases d' with
    | byNonce creator' nonce' =>
      exact (noncePreimage_ne_saltPreimage _ _ _ _ _ hlist.symm).elim
    | bySalt creator' salt' initCode' =>
      obtain ⟨rfl, rfl, hhash⟩ := eq_of_saltPreimage_eq hlist
      by_cases hcode : initCode = initCode'
      · exact .inl (by rw [hcode])
      · exact .inr ⟨creator, salt, initCode, initCode', rfl, rfl, hcode, hhash⟩

theorem address_eq_iff (d d' : Derivation) :
    d.address = d'.address ↔
    d = d' ∨ d.CodesCollide d' ∨ d.MessagesCollide d' := by
  rw [address_eq, address_eq]
  constructor
  · intro haddress
    by_cases hmessage : d.message = d'.message
    · exact (eq_or_codesCollide hmessage).imp_right .inl
    · exact .inr (.inr ⟨hmessage, haddress⟩)
  · rintro (rfl | hcodes | hmessages)
    · rfl
    · rw [hcodes.message_eq]
    · exact hmessages.2

end Derivation

/-- The messages that new addresses are hashed from are unambiguous.  A message
without a salt tells the creator and the nonce, whatever count it is; one with a
salt has 85 bytes and tells the creator, the salt and the digest of the
initialisation code; and none is of both kinds.  So two derivations give one
address just if they are the same, or their codes differ but have one digest, or
their messages differ but have digests with the same low-order 160 bits. -/
theorem address_preimages_are_unambiguous :
    (Function.Injective fun input : Address × UInt64 =>
      noncePreimage input.1 input.2.toNat) ∧
    (Function.Injective fun input : Address × Word × Word =>
      saltPreimage input.1 input.2.1 input.2.2) ∧
    (∀ creator salt codeHash,
      (saltPreimage creator salt codeHash).length = 85) ∧
    (∀ creator (nonce : UInt64) creator' salt codeHash,
      noncePreimage creator nonce.toNat ≠ saltPreimage creator' salt codeHash) ∧
    ∀ d d' : Derivation, d.address = d'.address ↔
      d = d' ∨ d.CodesCollide d' ∨ d.MessagesCollide d' := by
  refine ⟨?_, ?_, length_saltPreimage, ?_, Derivation.address_eq_iff⟩
  · intro input input' heq
    obtain ⟨hcreator, hnonce⟩ := eq_of_noncePreimage_eq heq
    exact Prod.ext hcreator hnonce
  · intro input input' heq
    obtain ⟨hcreator, hsalt, hcodeHash⟩ := eq_of_saltPreimage_eq heq
    exact Prod.ext hcreator (Prod.ext hsalt hcodeHash)
  · intro creator nonce creator' salt codeHash
    exact noncePreimage_ne_saltPreimage creator creator' nonce salt codeHash

end Address

end ContractMachine
