import BearerCredentials.Binary64

/-!
# The shortest decimal form of a floating point number

The fewest digits that read back as the same number, and of those the nearest to it. The search goes
through the decimal grids from coarse to fine and tests the two neighbours of the number on each, in exact
whole-number arithmetic: all quantities are multiples of `10^-400 · 2^-1074`.

* `shortest`: the digits and the power of ten of their last place.
* `decimal`: the written form, positional from `0.00001` to below `10^16`, else with an exponent.
-/

namespace BearerCredentials.Binary64

/-- the fineness of the finest grid: a power of ten below every magnitude -/
def finest : Nat := 400

/-- the point number `d` of the grid with spacing `10^(place - finest)` -/
def gridPoint (place d : Nat) : Nat :=
  d * Nat.pow 10 place * one

/-- whether a point lies among those that round to the magnitude of `u` units -/
def roundsTo (u point : Nat) : Bool :=
  let s := spacing u
  let x := u * Nat.pow 10 finest
  let above := s * Nat.pow 10 finest
  -- below a power of two the neighbour is only half as far away
  let below := if u == Nat.pow 2 52 * s && 1 < s then above / 2 else above
  let even := u / s % 2 == 0
  if x ≤ point then
    let twice := 2 * (point - x)
    twice < above || (even && twice == above)
  else
    let twice := 2 * (x - point)
    twice < below || (even && twice == below)

/-- the point of a grid that reads back as `u` units, the nearest if there are two -/
def onGrid? (u place : Nat) : Option Nat :=
  let x := u * Nat.pow 10 finest
  let d := x / (Nat.pow 10 place * one)
  let low := roundsTo u (gridPoint place d)
  let high := roundsTo u (gridPoint place (d + 1))
  match low, high with
  | false, false => none
  | true, false => some d
  | false, true => some (d + 1)
  | true, true =>
    let toLow := x - gridPoint place d
    let toHigh := gridPoint place (d + 1) - x
    if toLow < toHigh then some d
    else if toHigh < toLow then some (d + 1)
    else some (d + d % 2)

/-- the first hit on the grids from `place` downwards -/
def search (u : Nat) : (fuel place : Nat) → Nat × Nat
  | 0, place => (u * Nat.pow 10 finest / (Nat.pow 10 place * one), place)
  | fuel + 1, place =>
    match onGrid? u place with
    | some d => (d, place)
    | none => search u fuel (place - 1)

/-- a number without the zeros at its end, and how many there were beyond `place` -/
def stripZeros : (fuel d place : Nat) → Nat × Nat
  | 0, d, place => (d, place)
  | fuel + 1, d, place => if d % 10 = 0 then stripZeros fuel (d / 10) (place + 1) else (d, place)

/-- the shortest digits of a positive magnitude, and the power of ten of the last one -/
def shortest (u : Nat) : List Char × Int :=
  let length := (Nat.toDigits 10 (u * Nat.pow 10 finest / one)).length
  let found := search u 17 (length - 1)
  let stripped := stripZeros 18 found.1 found.2
  (Nat.toDigits 10 stripped.1, (stripped.2 : Int) - finest)

def zeros (count : Nat) : List Char := List.replicate count '0'

def exponentText (e : Int) : List Char :=
  'e' :: (if e < 0 then '-' else '+') :: Nat.toDigits 10 e.natAbs

/-- digits with the last one at the place `10^place`, written out -/
def layOut (digits : List Char) (place : Int) : List Char :=
  let point := digits.length + place
  if 0 ≤ place ∧ point ≤ 16 then digits ++ zeros place.toNat ++ ['.', '0']
  else if 0 < point ∧ point ≤ 16 then
    digits.take point.toNat ++ '.' :: digits.drop point.toNat
  else if -5 < point ∧ point ≤ 0 then '0' :: '.' :: zeros (-point).toNat ++ digits
  else match digits with
    | [d] => d :: exponentText (point - 1)
    | d :: rest => d :: '.' :: rest ++ exponentText (point - 1)
    | [] => []

def decimal (x : Binary64) : List Char :=
  let magnitude :=
    if x.units = 0 then ['0', '.', '0']
    else
      let (digits, place) := shortest x.units
      layOut digits place
  if x.negative then '-' :: magnitude else magnitude

end BearerCredentials.Binary64
