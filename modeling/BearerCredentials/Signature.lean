import BearerCredentials.Algorithm
import BearerCredentials.Der
import BearerCredentials.Digest

/-!
# Verifying signatures

* `SignatureScheme`: how the bytes of a key become a test of signatures, for each algorithm.
* `standardScheme`: the registered algorithms.

An RSA signature is a number whose power with the public exponent is a padded digest of the message. One padding is
fixed for each digest, the other one holds a salt as long as the digest, under a mask.

* `Rsa.PublicKey.read?`: a public key in binary form.
* `Rsa.verifyFixed`, `Rsa.verifySalted`: whether a signature belongs to a message.

The curves of prime order are `y² = x³ - 3x + b` over a prime field. Points are kept in homogeneous coordinates, where
one formula adds any two of them. A signature is a pair of numbers, written one after the other with as many bytes as
a coordinate has.

* `Curve`: the parameters, for `NamedCurve.p256` and `NamedCurve.p384`.
* `Curve.decodePoint?`: a point from its encoding.
* `Ecdsa.verify`: whether a signature belongs to a message.

The twisted Edwards curve is `-x² + y² = 1 + d x² y²` over the field of `2^255 - 19` elements. A point is encoded by
its ordinate and the parity of its abscissa, least significant byte first.

* `Edwards.decodePoint?`, `Edwards.encodePoint`: points and their encodings.
* `Edwards.verify`: whether a signature belongs to a message.

Powers modulo a number and multiples of a point are found by the same doubling, `accumulate`.
-/

namespace BearerCredentials

/-! ## arithmetic modulo a number -/

/-- `acc` with `n` copies of `x` taken in, by doubling -/
def accumulate {α : Type} (op : α → α → α) (acc x : α) (n : Nat) : α :=
  if n = 0 then acc
  else accumulate op (if n % 2 = 1 then op acc x else acc) (op x x) (n / 2)
termination_by n
decreasing_by omega

def powMod (base e m : Nat) : Nat := accumulate (fun x y => x * y % m) 1 (base % m) e % m

def inverseMod (x p : Nat) : Nat := powMod x (p - 2) p

/-- a difference modulo `m` of numbers below `m` -/
def subMod (x y m : Nat) : Nat := (x + (m - y)) % m

/-! ## RSA -/

namespace Rsa

/-- the greatest number of bits of a modulus -/
def maxBits : Nat := 4096

/-- the greatest public exponent -/
def maxExponent : Nat := Nat.pow 2 33 - 1

/-- whether a modulus and a public exponent can be used -/
def isUsable (modulus exponent : Nat) : Bool :=
  modulus < Nat.pow 2 maxBits && modulus % 2 = 1 && exponent % 2 = 1 && 2 ≤ exponent &&
    exponent ≤ maxExponent && exponent < modulus

/-- a public key that can be used -/
structure PublicKey where
  modulus : Nat
  exponent : Nat
  usable : isUsable modulus exponent = true := by decide

namespace PublicKey

/-- the public key of its binary form, a sequence of modulus and exponent -/
def read? (bytes : Bytes) : Option PublicKey := do
  let (value, rest) ← Der.readTagged 0x30 bytes
  guard rest.isEmpty
  let (modulus, value) ← Der.readUnsigned value
  let (exponent, value) ← Der.readUnsigned value
  guard value.isEmpty
  if h : isUsable modulus exponent = true then some ⟨modulus, exponent, h⟩ else none

def bits (key : PublicKey) : Nat := key.modulus.log2 + 1

/-- the number of bytes of the modulus, and of a signature -/
def size (key : PublicKey) : Nat := (key.bits + 7) / 8

/-- the padded digest that a signature stands for -/
def open? (key : PublicKey) (signature : Bytes) : Option Bytes :=
  let s := Bytes.toNat signature
  if signature.length = key.size ∧ s < key.modulus then
    some (Bytes.ofNat key.size (powMod s key.exponent key.modulus))
  else none

end PublicKey

/-- what stands before a digest to name its hash function -/
def digestHeader : Sha2 → Bytes
  | .sha256 => [0x30, 0x31, 0x30, 0x0d, 0x06, 0x09, 0x60, 0x86, 0x48, 0x01, 0x65, 0x03, 0x04, 0x02, 0x01,
      0x05, 0x00, 0x04, 0x20]
  | .sha384 => [0x30, 0x41, 0x30, 0x0d, 0x06, 0x09, 0x60, 0x86, 0x48, 0x01, 0x65, 0x03, 0x04, 0x02, 0x02,
      0x05, 0x00, 0x04, 0x30]
  | .sha512 => [0x30, 0x51, 0x30, 0x0d, 0x06, 0x09, 0x60, 0x86, 0x48, 0x01, 0x65, 0x03, 0x04, 0x02, 0x03,
      0x05, 0x00, 0x04, 0x40]

/-- the fixed padding of a digest to `size` bytes, if they are enough -/
def fixedPadding? (hash : Sha2) (size : Nat) (message : Bytes) : Option Bytes :=
  let info := digestHeader hash ++ hash.digest message
  if size < info.length + 11 then none
  else some (0x00 :: 0x01 :: List.replicate (size - info.length - 3) 0xff ++ 0x00 :: info)

/-- whether a signature with the fixed padding belongs to a message -/
def verifyFixed (hash : Sha2) (key : PublicKey) (message signature : Bytes) : Bool :=
  match key.open? signature, fixedPadding? hash key.size message with
  | some opened, some padded => opened == padded
  | _, _ => false

/-- the first `length` bytes of a mask that is generated from a seed -/
def mask (hash : Sha2) (seed : Bytes) (length : Nat) : Bytes :=
  let blocks := (List.range (length / hash.size + 1)).flatMap fun i =>
    hash.digest (seed ++ Bytes.ofNat 4 i)
  blocks.take length

/-- bytes with the `spare` highest bits of the first one cleared -/
def clearTop (spare : Nat) : Bytes → Bytes
  | [] => []
  | b :: rest => UInt8.ofNat (b.toNat % Nat.pow 2 (8 - spare)) :: rest

/-- whether a padded digest of at most `bits` bits, with a salt, belongs to a message -/
def saltedMatches (hash : Sha2) (bits : Nat) (padded message : Bytes) : Bool :=
  let size := (bits + 7) / 8
  let spare := 8 * size - bits
  let digestSize := hash.size
  if size < 2 * digestSize + 2 then false
  else
    let maskedBlock := padded.take (size - digestSize - 1)
    let check := (padded.drop (size - digestSize - 1)).take digestSize
    let block := clearTop spare (Bytes.xor maskedBlock (mask hash check maskedBlock.length))
    let zeros := size - 2 * digestSize - 2
    let salt := block.drop (zeros + 1)
    padded.getLast? == some 0xbc && clearTop spare maskedBlock == maskedBlock &&
      block.take (zeros + 1) == List.replicate zeros 0 ++ [0x01] &&
      hash.digest (List.replicate 8 0 ++ hash.digest message ++ salt) == check

/-- whether a signature with the salted padding belongs to a message -/
def verifySalted (hash : Sha2) (key : PublicKey) (message signature : Bytes) : Bool :=
  match key.open? signature with
  | none => false
  | some opened =>
    let bits := key.bits - 1
    saltedMatches hash bits (opened.drop (key.size - (bits + 7) / 8)) message

end Rsa

/-! ## curves of prime order -/

/-- the parameters of a curve -/
structure Curve where
  /-- the order of the field -/
  p : Nat
  /-- the constant term -/
  b : Nat
  /-- the coordinates of the base point -/
  baseX : Nat
  baseY : Nat
  /-- the order of the base point -/
  n : Nat
  /-- the number of bytes of a coordinate -/
  size : Nat

def NamedCurve.curve : NamedCurve → Curve
  | .p256 => {
      p := 0xffffffff00000001000000000000000000000000ffffffffffffffffffffffff
      b := 0x5ac635d8aa3a93e7b3ebbd55769886bc651d06b0cc53b0f63bce3c3e27d2604b
      baseX := 0x6b17d1f2e12c4247f8bce6e563a440f277037d812deb33a0f4a13945d898c296
      baseY := 0x4fe342e2fe1a7f9b8ee7eb4a7c0f9e162bce33576b315ececbb6406837bf51f5
      n := 0xffffffff00000000ffffffffffffffffbce6faada7179e84f3b9cac2fc632551
      size := 32 }
  | .p384 => {
      p := 0xfffffffffffffffffffffffffffffffffffffffffffffffffffffffffffffffeffffffff0000000000000000ffffffff
      b := 0xb3312fa7e23ee7e4988e056be3f82d19181d9c6efe8141120314088f5013875ac656398d8a2ed19d2a85c8edd3ec2aef
      baseX := 0xaa87ca22be8b05378eb1c71ef320ad746e1d3b628ba79b9859f741e082542a385502f25dbf55296c3a545e3872760ab7
      baseY := 0x3617de4a96262c6f5d9e98bf9292dc29f8f41dbd289a147ce9da3113b5f0b8c00a60b1ce1d7e819d7a431d7c90ea0e5f
      n := 0xffffffffffffffffffffffffffffffffffffffffffffffffc7634d81f4372ddf581a0db248b0a77aecec196accc52973
      size := 48 }

namespace Curve

/-- a point in homogeneous coordinates -/
structure Point where
  x : Nat
  y : Nat
  z : Nat

def zero : Point := ⟨0, 1, 0⟩

def base (c : Curve) : Point := ⟨c.baseX, c.baseY, 1⟩

def a (c : Curve) : Nat := c.p - 3

def add (c : Curve) (s t : Point) : Point :=
  let mul (x y : Nat) := x * y % c.p
  let sum (x y : Nat) := (x + y) % c.p
  let sub (x y : Nat) := subMod x y c.p
  let b3 := 3 * c.b
  let xx := mul s.x t.x
  let yy := mul s.y t.y
  let zz := mul s.z t.z
  let xy := sum (mul s.x t.y) (mul t.x s.y)
  let xz := sum (mul s.x t.z) (mul t.x s.z)
  let yz := sum (mul s.y t.z) (mul t.y s.z)
  let shift := sum (mul c.a xz) (mul b3 zz)
  let u := sub yy shift
  let v := sum yy shift
  let w := sum (3 * xx) (mul c.a zz)
  let r := sum (mul b3 xz) (mul c.a (sub xx (mul c.a zz)))
  ⟨sub (mul xy u) (mul yz r), sum (mul u v) (mul w r), sum (mul yz v) (mul xy w)⟩

def multiply (c : Curve) (k : Nat) (s : Point) : Point := accumulate c.add zero s k

/-- the affine abscissa, none for the neutral element -/
def abscissa? (c : Curve) (s : Point) : Option Nat :=
  if s.z = 0 then none else some (s.x * inverseMod s.z c.p % c.p)

/-- the right-hand side of the curve equation -/
def cubic (c : Curve) (x : Nat) : Nat := (x * x * x + c.a * x + c.b) % c.p

/-- a square root, if there is one; the order of the field is 3 modulo 4 -/
def squareRoot? (c : Curve) (x : Nat) : Option Nat :=
  let y := powMod x ((c.p + 1) / 4) c.p
  if y * y % c.p = x % c.p then some y else none

/-- the point with given coordinates, if it lies on the curve -/
def affine? (c : Curve) (x y : Nat) : Option Point :=
  if x < c.p ∧ y < c.p ∧ y * y % c.p = c.cubic x then some ⟨x, y, 1⟩ else none

/-- the point with a given abscissa, and the ordinate that `choose` picks of the root and its negative -/
def lift? (c : Curve) (x : Nat) (choose : Nat → Nat → Nat) : Option Point := do
  guard (x < c.p)
  let y ← c.squareRoot? (c.cubic x)
  c.affine? x (choose y (subMod 0 y c.p))

/-- a point from its encoding: both coordinates, or the abscissa with the parity of the ordinate, or the
abscissa alone for the point with the smaller ordinate -/
def decodePoint? (c : Curve) : Bytes → Option Point
  | [] => none
  | form :: rest =>
    if form = 0x04 then
      if rest.length = 2 * c.size then
        c.affine? (Bytes.toNat (rest.take c.size)) (Bytes.toNat (rest.drop c.size))
      else none
    else if rest.length = c.size then
      let x := Bytes.toNat rest
      if form = 0x02 ∨ form = 0x03 then
        c.lift? x fun y z => if y % 2 = form.toNat % 2 then y else z
      else if form = 0x05 then c.lift? x min
      else none
    else none

end Curve

namespace Ecdsa

/-- the hash function that goes with a curve -/
def hash : NamedCurve → Sha2
  | .p256 => .sha256
  | .p384 => .sha384

/-- whether a signature belongs to a message -/
def verify (curve : NamedCurve) (key : Curve.Point) (message signature : Bytes) : Bool :=
  let c := curve.curve
  let r := Bytes.toNat (signature.take c.size)
  let s := Bytes.toNat (signature.drop c.size)
  if signature.length = 2 * c.size ∧ 0 < r ∧ r < c.n ∧ 0 < s ∧ s < c.n then
    let e := Bytes.toNat ((hash curve).digest message)
    let w := inverseMod s c.n
    let point := c.add (c.multiply (e * w % c.n) c.base) (c.multiply (r * w % c.n) key)
    match c.abscissa? point with
    | none => false
    | some x => x % c.n == r
  else false

end Ecdsa

/-! ## the twisted Edwards curve -/

namespace Edwards

/-- the order of the field -/
def p : Nat := Nat.pow 2 255 - 19

/-- the coefficient of the curve -/
def d : Nat := 0x52036cee2b6ffe738cc740797779e89800700a4d4141d8ab75eb4dca135978a3

/-- the order of the base point -/
def order : Nat := Nat.pow 2 252 + 27742317777372353535851937790883648493

/-- a point in extended coordinates: `x / z`, `y / z`, and `t = x y / z` -/
structure Point where
  x : Nat
  y : Nat
  z : Nat
  t : Nat

def zero : Point := ⟨0, 1, 1, 0⟩

def ofAffine (x y : Nat) : Point := ⟨x, y, 1, x * y % p⟩

def add (s t : Point) : Point :=
  let a := subMod s.y s.x p * subMod t.y t.x p % p
  let b := (s.y + s.x) * (t.y + t.x) % p
  let c := s.t * 2 * d % p * t.t % p
  let e := s.z * 2 * t.z % p
  let f := subMod b a p
  let g := subMod e c p
  let h := (e + c) % p
  let i := (b + a) % p
  ⟨f * g % p, h * i % p, g * h % p, f * i % p⟩

def negate (s : Point) : Point := ⟨subMod 0 s.x p, s.y, s.z, subMod 0 s.t p⟩

def multiply (k : Nat) (s : Point) : Point := accumulate add zero s k

/-- the number of some bytes, the least significant one first -/
def littleNat (bytes : Bytes) : Nat := Bytes.toNat bytes.reverse

/-- the lowest `count` bytes of a number, the least significant one first -/
def littleBytes (count n : Nat) : Bytes := (Bytes.ofNat count n).reverse

/-- the square root of a quotient, if there is one -/
def squareRootRatio? (u v : Nat) : Option Nat :=
  let r := u * powMod v 3 p % p * powMod (u * powMod v 7 p) ((p - 5) / 8) p % p
  let check := v * r % p * r % p
  if check = u % p then some r
  else if check = subMod 0 (u % p) p then some (r * powMod 2 ((p - 1) / 4) p % p)
  else none

/-- the point of an ordinate, which is taken modulo the order of the field, and a parity -/
def lift? (y : Nat) (odd : Bool) : Option Point := do
  let y := y % p
  let yy := y * y % p
  let x ← squareRootRatio? (subMod yy 1 p) ((d * yy + 1) % p)
  let x := if (x % 2 == 1) == odd then x else subMod 0 x p
  return ofAffine x y

/-- the number of bytes of an encoded point -/
def pointSize : Nat := 32

/-- the place of the parity in an encoded point -/
def parityPlace : Nat := Nat.pow 2 255

def decodePoint? (bytes : Bytes) : Option Point :=
  let n := littleNat bytes
  lift? (n % parityPlace) (n / parityPlace % 2 == 1)

def encodePoint (s : Point) : Bytes :=
  let inverse := inverseMod s.z p
  let x := s.x * inverse % p
  let y := s.y * inverse % p
  littleBytes pointSize (y + x % 2 * parityPlace)

def base : Point :=
  ofAffine 15112221349535400772501151409588531511454012693041857206046113283949847762202
    46316835694926478169428394003475163141307993866256225615783033603165251855960

/-- a key: a point with its encoding -/
structure PublicKey where
  bytes : Bytes
  point : Point

def PublicKey.read? (bytes : Bytes) : Option PublicKey :=
  (decodePoint? bytes).map fun point => ⟨bytes, point⟩

/-- whether a signature belongs to a message -/
def verify (key : PublicKey) (message signature : Bytes) : Bool :=
  let r := signature.take 32
  let s := littleNat (signature.drop 32)
  if signature.length = 64 ∧ s < order then
    let k := littleNat (Sha2.digest .sha512 (r ++ key.bytes ++ message)) % order
    encodePoint (add (multiply s base) (negate (multiply k key.point))) == r
  else false

end Edwards

/-! ## the algorithms -/

/-- why bytes are no key for an algorithm -/
inductive MaterialFault where
  /-- they do not encode a key -/
  | unusable
  /-- there are too few of them to cut a key from, and the attempt breaks down -/
  | tooShort
deriving DecidableEq

/-- a test whether a signature belongs to a message -/
abbrev Verifier := (message signature : Bytes) → Bool

/-- how the bytes of a key become a test of signatures -/
abbrev SignatureScheme := (algorithm : Algorithm) → (material : Bytes) → Except MaterialFault Verifier

/-- the test of an RSA key; without a key that can be used it refuses every signature -/
def rsaVerifier (verify : Rsa.PublicKey → Bytes → Bytes → Bool) (material : Bytes) : Verifier :=
  fun message signature =>
    match Rsa.PublicKey.read? material with
    | none => false
    | some key => verify key message signature

def standardScheme : SignatureScheme
  | .hmac hash, material => .ok fun message signature => hmac hash material message == signature
  | .rsaFixed hash, material => .ok (rsaVerifier (Rsa.verifyFixed hash) material)
  | .rsaSalted hash, material => .ok (rsaVerifier (Rsa.verifySalted hash) material)
  | .ecdsa curve, material =>
    match curve.curve.decodePoint? material with
    | none => .error .unusable
    | some point => .ok (Ecdsa.verify curve point)
  | .eddsa, material =>
    if material.length < Edwards.pointSize then .error .tooShort
    else match Edwards.PublicKey.read? (material.take Edwards.pointSize) with
      | none => .error .unusable
      | some key => .ok (Edwards.verify key)

end BearerCredentials
