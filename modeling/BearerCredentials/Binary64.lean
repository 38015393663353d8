/-!
# Binary floating point of 64 bits

Every finite number of the format is a whole multiple of the least positive one, `2^-1074`, so a number is
kept as its sign and that multiple, its units. The multiple has at most 53 significant bits and lies below
`2^2098`; all arithmetic rounds to such a multiple, to the even one in a tie.

* `nearest`: the rounding of a quotient.
* `ofNat`, `times?`, `quotient`: conversion, product and quotient, each rounded once.
* `scale?`: a magnitude times a power of ten, by one product or by quotients.
* `roundToNat`: the nearest whole number, a half going away from zero.
-/

namespace BearerCredentials

/-- a finite floating point number -/
structure Binary64 where
  /-- the sign, which zero has too -/
  negative : Bool
  /-- the magnitude as a multiple of `2^-1074` -/
  units : Nat
deriving DecidableEq

namespace Binary64

/-- the units of the number one -/
def one : Nat := Nat.pow 2 1074

/-- the least number of units that is out of range -/
def limit : Nat := Nat.pow 2 2098

/-- the distance from `u` units to the next larger magnitude -/
def spacing (u : Nat) : Nat := Nat.pow 2 (u.log2 - 52)

/-- the whole number nearest to `n / d`, the even one in a tie -/
def roundQuotient (n d : Nat) : Nat :=
  let q := n / d
  let twice := 2 * (n % d)
  if twice < d then q else if d < twice then q + 1 else q + q % 2

def nearest (n d : Nat) : Nat :=
  let s := spacing (n / d)
  roundQuotient n (d * s) * s

def bounded? (u : Nat) : Option Nat :=
  if u < limit then some u else none

/-- the magnitude nearest to a whole number -/
def ofNat (n : Nat) : Nat :=
  nearest (n * one) 1

/-- the magnitude nearest to a power of ten -/
def powerOfTen (e : Nat) : Nat :=
  ofNat (Nat.pow 10 e)

def times? (u v : Nat) : Option Nat :=
  bounded? (nearest (u * v) one)

def quotient (u v : Nat) : Nat :=
  nearest (u * one) v

/-- the greatest exponent of a power of ten in range -/
def lastPower : Nat := 308

/-- a magnitude divided by `10^e`, in steps of at most `10^308` -/
def shrink (u e : Nat) : Nat :=
  if e ≤ lastPower then quotient u (powerOfTen e)
  else if u = 0 then 0
  else shrink (quotient u (powerOfTen lastPower)) (e - lastPower)
termination_by e
decreasing_by
  simp only [lastPower] at *
  omega

/-- a magnitude times `10^e`, if it is in range -/
def scale? (u : Nat) : Int → Option Nat
  | .ofNat e =>
    if e ≤ lastPower then times? u (powerOfTen e)
    else if u = 0 then some 0
    else none
  | .negSucc e => some (shrink u (e + 1))

/-- the whole number nearest to a magnitude, the larger one in a tie -/
def roundToNat (u : Nat) : Nat :=
  (2 * u + one) / (2 * one)

end Binary64

end BearerCredentials
