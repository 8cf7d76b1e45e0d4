/-
The Keccak-256 digest: the sponge over 1600 bits with a rate of 136 bytes and the padding
`1 0 … 0 1`, as ledgers use it for selectors and topics.

The state is five by five lanes of 64 bits; lane `(x, y)` has index `5 * y + x`.

* `Keccak.permute` is the permutation of 24 rounds;
* `Keccak.digest` absorbs padded blocks and reads the first 32 bytes.
-/
import LedgerAbi.Text.Utf8

namespace LedgerAbi.Keccak

/-- The 25 lanes of the sponge. -/
abbrev State := Vector UInt64 25

/-- The lane of a column and a row, both taken modulo five. -/
def lane (s : State) (x y : Nat) : UInt64 := s.get (Fin.ofNat 25 (5 * (y % 5) + x % 5))

/-- The state with the given lanes. -/
def ofLanes (f : Nat → Nat → UInt64) : State := Vector.ofFn fun i => f (i.val % 5) (i.val / 5)

def rotateLeft (w : UInt64) (n : Nat) : UInt64 :=
  if n % 64 = 0 then w else (w <<< n.toUInt64) ||| (w >>> (64 - n % 64).toUInt64)

/-- By how many bits each lane is rotated, by lane index. -/
def rotations : Vector Nat 25 :=
  ⟨#[0, 1, 62, 28, 27, 36, 44, 6, 55, 20, 3, 10, 43, 25, 39, 41, 45, 15, 21, 8, 18, 2, 61, 56, 14], rfl⟩

/-- The constants added to the first lane, one for each round. -/
def roundConstants : List UInt64 := [
  0x0000000000000001, 0x0000000000008082, 0x800000000000808A, 0x8000000080008000,
  0x000000000000808B, 0x0000000080000001, 0x8000000080008081, 0x8000000000008009,
  0x000000000000008A, 0x0000000000000088, 0x0000000080008009, 0x000000008000000A,
  0x000000008000808B, 0x800000000000008B, 0x8000000000008089, 0x8000000000008003,
  0x8000000000008002, 0x8000000000000080, 0x000000000000800A, 0x800000008000000A,
  0x8000000080008081, 0x8000000000008080, 0x0000000080000001, 0x8000000080008008]

/-- Each lane is mixed with the parities of two neighbouring columns. -/
def theta (s : State) : State :=
  let parity : Vector UInt64 5 := Vector.ofFn fun x =>
    lane s x 0 ^^^ lane s x 1 ^^^ lane s x 2 ^^^ lane s x 3 ^^^ lane s x 4
  let column (x : Nat) : UInt64 := parity.get (Fin.ofNat 5 x)
  ofLanes fun x y => lane s x y ^^^ column (x + 4) ^^^ rotateLeft (column (x + 1)) 1

/-- The lanes are rotated and moved to other places. -/
def rhoPi (s : State) : State :=
  let rotated (x y : Nat) : UInt64 :=
    rotateLeft (lane s x y) (rotations.get (Fin.ofNat 25 (5 * (y % 5) + x % 5)))
  ofLanes fun x y => rotated (x + 3 * y) x

/-- Each lane is mixed with the two to its right, not linearly. -/
def chi (s : State) : State :=
  ofLanes fun x y => lane s x y ^^^ (~~~ (lane s (x + 1) y) &&& lane s (x + 2) y)

/-- A constant is added to the first lane. -/
def iota (constant : UInt64) (s : State) : State := s.set 0 (s.get 0 ^^^ constant)

def round (s : State) (constant : UInt64) : State := iota constant (chi (rhoPi (theta s)))

def permute (s : State) : State := roundConstants.foldl round s

/-- How many bytes are absorbed between two permutations. -/
def rate : Nat := 136

/-- The message with a one bit, zeros up to the end of a block, and a one bit. -/
def pad (message : Bytes) : Bytes :=
  let missing := rate - message.length % rate
  if missing = 1 then message ++ [0x81]
  else message ++ [0x01] ++ List.replicate (missing - 2) 0 ++ [0x80]

/-- The 64 bit word of eight bytes, least significant first. -/
def word (bytes : Bytes) : UInt64 :=
  bytes.foldr (fun b n => n <<< 8 ||| b.toUInt64) 0

/-- The eight bytes of a word, least significant first. -/
def wordBytes (w : UInt64) : Bytes :=
  (List.range 8).map fun i => (w >>> (8 * i).toUInt64).toUInt8

/-- A block mixed into the first lanes. -/
def absorb (s : State) (block : Bytes) : State :=
  Vector.ofFn fun i =>
    if i.val < 17 then s.get i ^^^ word ((block.drop (8 * i.val)).take 8) else s.get i

/-- Blocks of the padded message absorbed one after the other. -/
def absorbAll : Nat → State → Bytes → State
  | 0, s, _ => s
  | blocks + 1, s, message =>
    absorbAll blocks (permute (absorb s (message.take rate))) (message.drop rate)

/-- The 32 byte digest of a message. -/
def digest (message : Bytes) : Bytes :=
  let padded := pad message
  let s := absorbAll (padded.length / rate) (Vector.replicate 25 0) padded
  (s.toList.take 4).flatMap wordBytes

end LedgerAbi.Keccak
