import BearerCredentials.Bytes

/-!
# Base64

Three bytes are written as four symbols of six bits each. What is left at the end, one byte or two, takes two
symbols or three, whose unused low bits are zero; the padded form fills the last group up with `=`. Reading
accepts the written form of some bytes and nothing else.

* `Alphabet`: the standard symbols, and those that are safe in an address.
* `encode`, `decode`: the form without padding.
* `encodePadded`, `decodePadded`: the form with padding.
-/

namespace BearerCredentials.Base64

/-- which characters stand for the last two symbols -/
inductive Alphabet where
  | standard
  | url
deriving DecidableEq

namespace Alphabet

def last : Alphabet → Char × Char
  | standard => ('+', '/')
  | url => ('-', '_')

/-- the symbol of a number below 64 -/
def symbol (a : Alphabet) (n : Nat) : Char :=
  if n < 26 then Char.ofNat ('A'.toNat + n)
  else if n < 52 then Char.ofNat ('a'.toNat + (n - 26))
  else if n < 62 then Char.ofNat ('0'.toNat + (n - 52))
  else if n = 62 then a.last.1
  else a.last.2

def number? (a : Alphabet) (c : Char) : Option Nat :=
  if 'A' ≤ c ∧ c ≤ 'Z' then some (c.toNat - 'A'.toNat)
  else if 'a' ≤ c ∧ c ≤ 'z' then some (c.toNat - 'a'.toNat + 26)
  else if '0' ≤ c ∧ c ≤ '9' then some (c.toNat - '0'.toNat + 52)
  else if c = a.last.1 then some 62
  else if c = a.last.2 then some 63
  else none

end Alphabet

/-- the symbols of some bytes, without padding -/
def encode (a : Alphabet) : Bytes → List Char
  | [] => []
  | [x] => [a.symbol (x.toNat / 4), a.symbol (x.toNat % 4 * 16)]
  | [x, y] =>
    [a.symbol (x.toNat / 4), a.symbol (x.toNat % 4 * 16 + y.toNat / 16), a.symbol (y.toNat % 16 * 4)]
  | x :: y :: z :: rest =>
    a.symbol (x.toNat / 4) :: a.symbol (x.toNat % 4 * 16 + y.toNat / 16) ::
      a.symbol (y.toNat % 16 * 4 + z.toNat / 64) :: a.symbol (z.toNat % 64) :: encode a rest

/-- the bytes that symbols without padding stand for -/
def decode (a : Alphabet) : List Char → Option Bytes
  | [] => some []
  | [_] => none
  | [p, q] => do
    let p ← a.number? p
    let q ← a.number? q
    if q % 16 = 0 then some [UInt8.ofNat (p * 4 + q / 16)] else none
  | [p, q, r] => do
    let p ← a.number? p
    let q ← a.number? q
    let r ← a.number? r
    if r % 4 = 0 then some [UInt8.ofNat (p * 4 + q / 16), UInt8.ofNat (q % 16 * 16 + r / 4)] else none
  | p :: q :: r :: s :: rest => do
    let p ← a.number? p
    let q ← a.number? q
    let r ← a.number? r
    let s ← a.number? s
    let bytes ← decode a rest
    some (UInt8.ofNat (p * 4 + q / 16) :: UInt8.ofNat (q % 16 * 16 + r / 4) ::
      UInt8.ofNat (r % 4 * 64 + s) :: bytes)

/-- what fills up the last group of `length` symbols -/
def padding (length : Nat) : List Char := List.replicate ((4 - length % 4) % 4) '='

/-- the symbols of some bytes, with padding -/
def encodePadded (a : Alphabet) (bytes : Bytes) : List Char :=
  let body := encode a bytes
  body ++ padding body.length

/-- the bytes that symbols with padding stand for -/
def decodePadded (a : Alphabet) (cs : List Char) : Option Bytes :=
  let body := cs.takeWhile (· != '=')
  if cs = body ++ padding body.length then decode a body else none

end BearerCredentials.Base64
