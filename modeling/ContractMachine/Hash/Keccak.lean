import ContractMachine.Word.Basic

/-!
# Keccak-256

The sponge over 25 lanes of 64 bits with a rate of 136 bytes.  The message is
padded with a one bit, zeros and a final one bit; a digest is the first 32
bytes of the state, read as a big-endian word.

The permutation works lane by lane: lane `x + 5 * y` stands in column `x` and
row `y`.
-/

namespace ContractMachine.Keccak

/-- The 25 lanes of the sponge. -/
abbrev State := Array UInt64

/-- The lane in column `x` and row `y`, both taken modulo five. -/
def lane (s : State) (x y : Nat) : UInt64 := s.getD (x % 5 + 5 * (y % 5)) 0

/-- The state whose lane in each column and row is given by a function. -/
def build (f : (x y : Nat) → UInt64) : State :=
  Array.ofFn fun i : Fin 25 => f (i.val % 5) (i.val / 5)

/-- Rotation of a lane to the left. -/
def rotate (v : UInt64) (n : UInt64) : UInt64 := (v <<< n) ||| (v >>> (64 - n))

/-- How far each lane is rotated. -/
def rotations : Array UInt64 :=
  #[0, 1, 62, 28, 27, 36, 44, 6, 55, 20, 3, 10, 43, 25, 39, 41, 45, 15, 21, 8,
    18, 2, 61, 56, 14]

/-- The constant that each round adds to the first lane. -/
def roundConstants : List UInt64 :=
  [0x0000000000000001, 0x0000000000008082, 0x800000000000808a,
   0x8000000080008000, 0x000000000000808b, 0x0000000080000001,
   0x8000000080008081, 0x8000000000008009, 0x000000000000008a,
   0x0000000000000088, 0x0000000080008009, 0x000000008000000a,
   0x000000008000808b, 0x800000000000008b, 0x8000000000008089,
   0x8000000000008003, 0x8000000000008002, 0x8000000000000080,
   0x000000000000800a, 0x800000008000000a, 0x8000000080008081,
   0x8000000000008080, 0x0000000080000001, 0x8000000080008008]

/-- Adds to each lane the parities of the two neighbouring columns. -/
def theta (s : State) : State :=
  let parity : State := Array.ofFn fun x : Fin 5 =>
    lane s x 0 ^^^ lane s x 1 ^^^ lane s x 2 ^^^ lane s x 3 ^^^ lane s x 4
  let column (x : Nat) : UInt64 := parity.getD (x % 5) 0
  build fun x y => lane s x y ^^^ column (x + 4) ^^^ rotate (column (x + 1)) 1

/-- Rotates the lanes and moves them to their new places. -/
def rhoPi (s : State) : State :=
  build fun x y => rotate (lane s (x + 3 * y) x) (lane rotations (x + 3 * y) x)

/-- Combines each lane with the next two of its row. -/
def chi (s : State) : State :=
  build fun x y => lane s x y ^^^ (~~~lane s (x + 1) y &&& lane s (x + 2) y)

/-- One round of the permutation. -/
def round (s : State) (constant : UInt64) : State :=
  (chi (rhoPi (theta s))).modify 0 (· ^^^ constant)

/-- The permutation of the state. -/
def permute (s : State) : State := roundConstants.foldl round s

/-- The number of message bytes taken up between two permutations. -/
def rate : Nat := 136

/-- The message followed by its padding: a whole number of blocks. -/
def pad (message : Bytes) : Bytes :=
  let zeros := rate - 1 - message.size % rate
  ((message.push 0x01) ++ Array.replicate zeros 0).modify (message.size + zeros)
  (· ||| 0x80)

/-- The lane whose bytes stand at `offset`, least significant first. -/
def laneAt (bytes : Bytes) (offset : Nat) : UInt64 :=
  (List.range 8).foldr
    (fun i v => (v <<< 8) ||| (bytes.getD (offset + i) 0).toUInt64) 0

/-- Takes up the block that starts at `offset`. -/
def absorb (padded : Bytes) (s : State) (offset : Nat) : State :=
  permute (s.mapIdx fun i v => if 8 * i <
    rate then v ^^^ laneAt padded (offset + 8 * i) else v)

/-- The bytes of a lane, least significant first. -/
def laneBytes (v : UInt64) : List UInt8 :=
  (List.range 8).map fun i => (v >>> (8 * i).toUInt64).toUInt8

/-- The digest of a message. -/
def hash (message : Bytes) : Word :=
  let padded := pad message
  let start : State := Array.replicate 25 0
  let final := (List.range (padded.size / rate)).foldl
    (fun s block => absorb padded s (block * rate)) start
  Word.ofBytes ((final.toList.take 4).flatMap laneBytes).toArray

/-- The digest of the empty message. -/
def emptyHash : Word :=
  0xc5d2460186f7233c927e7db2dcc703c0e500b653ca82273b7bfad8045d85a470

end ContractMachine.Keccak
