import ContractMachine.Hash.Keccak
import ContractMachine.Rlp

/-!
# Addresses of new contracts

A new contract's address is the low-order part of a digest.  Without a salt
the digest covers the creator and its nonce; with one it covers the creator,
the salt and the digest of the initialisation code.  The two kinds of hashed
message start with different bytes, so they never coincide.
-/

namespace ContractMachine.Address

/-- The message hashed for a creation that counts the creator's nonce. -/
def noncePreimage (creator : Address) (nonce : Nat) : List UInt8 :=
  Rlp.list [Rlp.string creator.toBytes.toList, Rlp.number nonce]

/-- The message hashed for a creation that names a salt. -/
def saltPreimage (creator : Address) (salt codeHash : Word) : List UInt8 :=
  0xff :: creator.toBytes.toList ++ salt.toBytes.toList ++
    codeHash.toBytes.toList

/-- The address of the contract that `creator` creates at `nonce`. -/
def byNonce (creator : Address) (nonce : Nat) : Address :=
  (Keccak.hash (noncePreimage creator nonce).toArray).toAddress

/-- The address of the contract that `creator` creates from `initCode` under a
salt. -/
def bySalt (creator : Address) (salt : Word) (initCode : Bytes) : Address :=
  (Keccak.hash (saltPreimage creator salt
    (Keccak.hash initCode)).toArray).toAddress

/-- The address of a new contract: by salt if there is one, else by nonce. -/
def ofCreation (creator : Address) (nonce : Nat) (salt : Option Word)
    (initCode : Bytes) : Address :=
  match salt with
  | none => creator.byNonce nonce
  | some salt => creator.bySalt salt initCode

end ContractMachine.Address
