import BearerCredentials.Bytes

/-!
# The SHA-2 hash functions, and keyed hashes

The three functions share one construction over words of 32 or 64 bits: the message is padded to whole blocks of
sixteen words, and each block is mixed into a state of eight words. The variants differ in the word size,
the rotations, the start state and the length of the digest.

* `Sha2`: the three functions.
* `Sha2.digest`: the digest of a message.
* `hmac`: the keyed hash of a message, as long as a digest of the hash function.
-/

namespace BearerCredentials

/-- the hash functions, named for the number of bits of their digests -/
inductive Sha2 where
  | sha256
  | sha384
  | sha512
deriving DecidableEq

namespace Sha2

/-- the leading bits of the fractional parts of the cube roots of the first eighty primes -/
def cubeRoots : List Nat :=
  [0x428a2f98d728ae22, 0x7137449123ef65cd, 0xb5c0fbcfec4d3b2f, 0xe9b5dba58189dbbc,
   0x3956c25bf348b538, 0x59f111f1b605d019, 0x923f82a4af194f9b, 0xab1c5ed5da6d8118,
   0xd807aa98a3030242, 0x12835b0145706fbe, 0x243185be4ee4b28c, 0x550c7dc3d5ffb4e2,
   0x72be5d74f27b896f, 0x80deb1fe3b1696b1, 0x9bdc06a725c71235, 0xc19bf174cf692694,
   0xe49b69c19ef14ad2, 0xefbe4786384f25e3, 0x0fc19dc68b8cd5b5, 0x240ca1cc77ac9c65,
   0x2de92c6f592b0275, 0x4a7484aa6ea6e483, 0x5cb0a9dcbd41fbd4, 0x76f988da831153b5,
   0x983e5152ee66dfab, 0xa831c66d2db43210, 0xb00327c898fb213f, 0xbf597fc7beef0ee4,
   0xc6e00bf33da88fc2, 0xd5a79147930aa725, 0x06ca6351e003826f, 0x142929670a0e6e70,
   0x27b70a8546d22ffc, 0x2e1b21385c26c926, 0x4d2c6dfc5ac42aed, 0x53380d139d95b3df,
   0x650a73548baf63de, 0x766a0abb3c77b2a8, 0x81c2c92e47edaee6, 0x92722c851482353b,
   0xa2bfe8a14cf10364, 0xa81a664bbc423001, 0xc24b8b70d0f89791, 0xc76c51a30654be30,
   0xd192e819d6ef5218, 0xd69906245565a910, 0xf40e35855771202a, 0x106aa07032bbd1b8,
   0x19a4c116b8d2d0c8, 0x1e376c085141ab53, 0x2748774cdf8eeb99, 0x34b0bcb5e19b48a8,
   0x391c0cb3c5c95a63, 0x4ed8aa4ae3418acb, 0x5b9cca4f7763e373, 0x682e6ff3d6b2b8a3,
   0x748f82ee5defb2fc, 0x78a5636f43172f60, 0x84c87814a1f0ab72, 0x8cc702081a6439ec,
   0x90befffa23631e28, 0xa4506cebde82bde9, 0xbef9a3f7b2c67915, 0xc67178f2e372532b,
   0xca273eceea26619c, 0xd186b8c721c0c207, 0xeada7dd6cde0eb1e, 0xf57d4f7fee6ed178,
   0x06f067aa72176fba, 0x0a637dc5a2c898a6, 0x113f9804bef90dae, 0x1b710b35131c471b,
   0x28db77f523047d84, 0x32caab7b40c72493, 0x3c9ebe0a15c9bebc, 0x431d67c49c100d4c,
   0x4cc5d4becb3e42b6, 0x597f299cfc657e2a, 0x5fcb6fab3ad6faec, 0x6c44198c4a475817]

/-- the leading bits of the fractional parts of the square roots of the first sixteen primes -/
def squareRoots : List Nat :=
  [0x6a09e667f3bcc908, 0xbb67ae8584caa73b, 0x3c6ef372fe94f82b, 0xa54ff53a5f1d36f1,
   0x510e527fade682d1, 0x9b05688c2b3e6c1f, 0x1f83d9abfb41bd6b, 0x5be0cd19137e2179,
   0xcbbb9d5dc1059ed8, 0x629a292a367cd507, 0x9159015a3070dd17, 0x152fecd8f70e5939,
   0x67332667ffc00b31, 0x8eb44a8768581511, 0xdb0c2e0d64f98fa7, 0x47b5481dbefa4fa4]

/-- what the variants of the construction over words of `w` bits have of their own -/
structure Rotations where
  /-- the number of rounds -/
  rounds : Nat
  /-- the rotations that mix the first word of the state -/
  first : Nat × Nat × Nat
  /-- the rotations that mix the fifth word of the state -/
  fifth : Nat × Nat × Nat
  /-- two rotations and a shift for the word fifteen places back in the schedule -/
  early : Nat × Nat × Nat
  /-- two rotations and a shift for the word two places back in the schedule -/
  late : Nat × Nat × Nat

/-- the construction over words of 32 bits -/
def rotations32 : Rotations := ⟨64, (2, 13, 22), (6, 11, 25), (7, 18, 3), (17, 19, 10)⟩

/-- the construction over words of 64 bits -/
def rotations64 : Rotations := ⟨80, (28, 34, 39), (14, 18, 41), (1, 8, 7), (19, 61, 6)⟩

variable {w : Nat}

/-- the leading `w` of 64 bits -/
def leading (w : Nat) (n : Nat) : BitVec w := BitVec.ofNat w (n >>> (64 - w))

/-- three rotations of a word, added without carry -/
def rotated (r : Nat × Nat × Nat) (x : BitVec w) : BitVec w :=
  x.rotateRight r.1 ^^^ x.rotateRight r.2.1 ^^^ x.rotateRight r.2.2

/-- two rotations and a shift of a word, added without carry -/
def shifted (r : Nat × Nat × Nat) (x : BitVec w) : BitVec w :=
  x.rotateRight r.1 ^^^ x.rotateRight r.2.1 ^^^ (x >>> r.2.2)

/-- the state: eight words -/
structure State (w : Nat) where
  a : BitVec w
  b : BitVec w
  c : BitVec w
  d : BitVec w
  e : BitVec w
  f : BitVec w
  g : BitVec w
  h : BitVec w

namespace State

def ofList (xs : List Nat) : State w :=
  let word (i : Nat) : BitVec w := leading w (xs.getD i 0)
  ⟨word 0, word 1, word 2, word 3, word 4, word 5, word 6, word 7⟩

def toList (s : State w) : List (BitVec w) := [s.a, s.b, s.c, s.d, s.e, s.f, s.g, s.h]

def add (s t : State w) : State w :=
  ⟨s.a + t.a, s.b + t.b, s.c + t.c, s.d + t.d, s.e + t.e, s.f + t.f, s.g + t.g, s.h + t.h⟩

/-- one round with a constant and a word of the schedule -/
def round (r : Rotations) (s : State w) (constant word : BitVec w) : State w :=
  let choice := (s.e &&& s.f) ^^^ (~~~s.e &&& s.g)
  let majority := (s.a &&& s.b) ^^^ (s.a &&& s.c) ^^^ (s.b &&& s.c)
  let t := s.h + rotated r.fifth s.e + choice + constant + word
  ⟨t + rotated r.first s.a + majority, s.a, s.b, s.c, s.d + t, s.e, s.f, s.g⟩

end State

/-- the rounds over the constants; `window` holds the next sixteen words of the schedule -/
def rounds (r : Rotations) (s : State w) : (constants : List (BitVec w)) → (window : List (BitVec w)) → State w
  | constant :: constants, word :: window =>
    let next := shifted r.late (window.getD 13 0) + window.getD 8 0 + shifted r.early (window.getD 0 0) + word
    rounds r (s.round r constant word) constants (window ++ [next])
  | _, _ => s

def words (w : Nat) (count : Nat) (bytes : Bytes) : List (BitVec w) :=
  match count with
  | 0 => []
  | count + 1 => BitVec.ofNat w (Bytes.toNat (bytes.take (w / 8))) :: words w count (bytes.drop (w / 8))

/-- mixes blocks of sixteen words into a state -/
def absorb (r : Rotations) (constants : List (BitVec w)) (s : State w) : (blocks : Nat) → Bytes → State w
  | 0, _ => s
  | blocks + 1, bytes =>
    let mixed := rounds r s constants (words w 16 (bytes.take (2 * w)))
    absorb r constants (s.add mixed) blocks (bytes.drop (2 * w))

/-- a message with a one bit, zeros, and its length in bits, up to whole blocks of `2 w` bytes -/
def pad (w : Nat) (message : Bytes) : Bytes :=
  let size := 2 * w
  let tail := 1 + w / 4
  let zeros := (size - (message.length + tail) % size) % size
  message ++ 0x80 :: List.replicate zeros 0 ++ Bytes.ofNat (w / 4) (8 * message.length)

def hash (w : Nat) (r : Rotations) (start : List Nat) (message : Bytes) : Bytes :=
  let padded := pad w message
  let constants := (cubeRoots.take r.rounds).map (leading w)
  let final := absorb r constants (State.ofList start : State w) (padded.length / (2 * w)) padded
  final.toList.flatMap fun word => Bytes.ofNat (w / 8) word.toNat

def size : Sha2 → Nat
  | sha256 => 32
  | sha384 => 48
  | sha512 => 64

def blockSize : Sha2 → Nat
  | sha256 => 64
  | sha384 | sha512 => 128

def digest : Sha2 → Bytes → Bytes
  | sha256, message => hash 32 rotations32 (squareRoots.take 8) message
  | sha384, message => (hash 64 rotations64 (squareRoots.drop 8) message).take 48
  | sha512, message => hash 64 rotations64 (squareRoots.take 8) message

end Sha2

/-! ## keyed hashes -/

/-- a key of the size of a block: a longer one is replaced by its digest, and zeros are added -/
def hmacKey (hash : Sha2) (key : Bytes) : Bytes :=
  let key := if key.length ≤ hash.blockSize then key else hash.digest key
  key ++ List.replicate (hash.blockSize - key.length) 0

def hmac (hash : Sha2) (key message : Bytes) : Bytes :=
  let key := hmacKey hash key
  let inner := hash.digest (key.map (· ^^^ 0x36) ++ message)
  hash.digest (key.map (· ^^^ 0x5c) ++ inner)

end BearerCredentials
