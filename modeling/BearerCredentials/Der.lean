import BearerCredentials.Bytes

/-!
# Nested binary data

The tag-length-value encoding of nested data. Keys are looked for leniently: lengths and tag numbers may be longer
than needed, and most values are not looked into. The key that is found is read strictly: a length takes as few bytes
as it can, and a number has no byte that it does not need.

* `Der.Block`: the parts of the data that a reader of keys looks at.
* `Der.read`: the blocks of some bytes.
* `Der.firstBytes?`, `Der.identifiers`: what is found by going through sequences in order.
* `Der.readTagged`, `Der.readUnsigned`: the value after a given tag and a natural number, in the strict form.
-/

namespace BearerCredentials.Der

/-- a part of nested data -/
inductive Block where
  | sequence (items : List Block)
  | set (items : List Block)
  /-- an object identifier -/
  | identifier (arcs : List Nat)
  /-- the bytes of a bit string, or the bytes of an octet string -/
  | bytes (value : Bytes)
  /-- anything else that is well formed -/
  | other

/-- a number in base 128, the last digit of which has the highest bit clear -/
def base128 (n : Nat) : Bytes → Option (Nat × Bytes)
  | [] => none
  | b :: rest =>
    let n := n * 128 + b.toNat % 128
    if b < 128 then some (n, rest) else base128 n rest

/-- the class, the number and whether there are parts inside -/
structure Tag where
  universal : Bool
  number : Nat

def readTag : Bytes → Option (Tag × Bytes)
  | [] => none
  | b :: rest =>
    let universal := b.toNat / 64 = 0
    let number := b.toNat % 32
    if number = 31 then
      (base128 0 rest).map fun (number, rest) => (⟨universal, number⟩, rest)
    else some (⟨universal, number⟩, rest)

def readLength : Bytes → Option (Nat × Bytes)
  | [] => none
  | b :: rest =>
    if b < 128 then some (b.toNat, rest)
    else
      let count := b.toNat - 128
      if 8 < count ∨ rest.length < count then none
      else some (Bytes.toNat (rest.take count), rest.drop count)

/-- a tag with its value -/
structure Element where
  tag : Tag
  value : Bytes
  rest : Bytes

def readElement (bytes : Bytes) : Option Element := do
  let (tag, bytes) ← readTag bytes
  let (length, bytes) ← readLength bytes
  if length ≤ bytes.length then some ⟨tag, bytes.take length, bytes.drop length⟩ else none

/-- the value of an identifier: two arcs in the first byte, one in each number after it -/
def readArcs (fuel : Nat) (bytes : Bytes) : Option (List Nat) :=
  match fuel, bytes with
  | _, [] => some []
  | 0, _ :: _ => none
  | fuel + 1, bytes => do
    let (arc, bytes) ← base128 0 bytes
    let arcs ← readArcs fuel bytes
    return arc :: arcs

def readIdentifier : Bytes → Option (List Nat)
  | [] => none
  | b :: rest => do
    let arcs ← readArcs rest.length rest
    let n := b.toNat
    return if n < 40 then 0 :: n :: arcs else if n < 80 then 1 :: (n - 40) :: arcs
      else 2 :: (n - 80) :: arcs

/-- the bytes of a bit string, whose first byte counts the unused bits of the last one -/
def readBits : Bytes → Option Bytes
  | [] => some []
  | unused :: bits => if unused.toNat ≤ bits.length * 8 then some bits else none

/-- whether a byte may stand in a string of the printable kind: a letter but capital `N`, a digit, the space
or one of a dozen marks -/
def isPrintable (b : UInt8) : Bool :=
  let c := Char.ofNat b.toNat
  (c.isAlphanum && c != 'N') || " '()+,-./:=?".toList.contains c

def digits? (bytes : Bytes) : Option (List Nat) :=
  if bytes.all fun b => 0x30 ≤ b && b ≤ 0x39 then some (bytes.map fun b => b.toNat - 0x30) else none

def daysInMonth (year month : Nat) : Nat :=
  if month = 2 then
    if year % 4 = 0 ∧ (year % 100 ≠ 0 ∨ year % 400 = 0) then 29 else 28
  else if month = 4 ∨ month = 6 ∨ month = 9 ∨ month = 11 then 30
  else 31

/-- whether a year and the ten digits of month, day, hour, minute and second are a time -/
def isTime (year : Nat) : List Nat → Bool
  | [m, m', d, d', h, h', n, n', s, s'] =>
    let month := m * 10 + m'
    let day := d * 10 + d'
    1 ≤ month && month ≤ 12 && 1 ≤ day && day ≤ daysInMonth year month &&
      h * 10 + h' < 24 && n * 10 + n' < 60 && s * 10 + s' < 60
  | _ => false

/-- whether bytes are a time with a year of two digits; the years run from 1950 to 2049 -/
def isShortTime (bytes : Bytes) : Bool :=
  bytes.length = 13 && bytes.getLast? = some 0x5a &&
    match digits? (bytes.take 12) with
    | some (y :: y' :: rest) =>
      let year := y * 10 + y'
      isTime (if 50 ≤ year then 1900 + year else 2000 + year) rest
    | _ => false

/-- a time with a year of four digits, with the point and the zeros that its fraction lacks -/
def fillFraction (bytes : Bytes) : Bytes :=
  let bytes := if bytes.contains 0x2e then bytes else bytes.take 14 ++ 0x2e :: bytes.drop 14
  bytes.dropLast ++ List.replicate (25 - bytes.length) 0x30 ++ bytes.drop (bytes.length - 1)

/-- whether bytes are a time with a year of four digits, and up to nine digits of a fraction -/
def isLongTime (bytes : Bytes) : Bool :=
  let time := fillFraction bytes
  15 ≤ bytes.length && time.length = 25 && time[14]? = some 0x2e && time[24]? = some 0x5a &&
    match digits? (time.take 14), digits? ((time.drop 15).take 9) with
    | some (a :: b :: c :: d :: rest), some _ => isTime (((a * 10 + b) * 10 + c) * 10 + d) rest
    | _, _ => false

def readPlain (number : Nat) (value : Bytes) : Option Block :=
  match number with
  | 1 => if value.length = 1 then some .other else none
  | 3 => (readBits value).map .bytes
  | 4 => some (.bytes value)
  | 6 => (readIdentifier value).map .identifier
  | 12 | 20 | 28 | 30 => (ofUtf8? value).map fun _ => .other
  | 19 => if value.all isPrintable then some .other else none
  | 23 => if isShortTime value then some .other else none
  | 24 => if isLongTime value then some .other else none
  | _ => some .other

theorem length_base128 {n m : Nat} {bytes rest : Bytes} (h : base128 n bytes = some (m, rest)) :
    rest.length < bytes.length := by
  induction bytes generalizing n with
  | nil => simp [base128] at h
  | cons b bytes ih =>
    simp only [base128] at h
    split at h
    · obtain ⟨-, rfl⟩ := Prod.mk.inj (Option.some.inj h)
      simp
    · exact Nat.lt_succ_of_lt (ih h)

theorem length_readTag {t : Tag} {bytes rest : Bytes} (h : readTag bytes = some (t, rest)) :
    rest.length < bytes.length := by
  cases bytes with
  | nil => simp [readTag] at h
  | cons b bytes =>
    simp only [readTag] at h
    split at h
    · obtain ⟨⟨n, r⟩, hb, he⟩ := Option.map_eq_some_iff.1 h
      obtain ⟨-, rfl⟩ := Prod.mk.inj he
      exact Nat.lt_succ_of_lt (length_base128 hb)
    · obtain ⟨-, rfl⟩ := Prod.mk.inj (Option.some.inj h)
      simp

theorem length_readLength {n : Nat} {bytes rest : Bytes} (h : readLength bytes = some (n, rest)) :
    rest.length < bytes.length := by
  cases bytes with
  | nil => simp [readLength] at h
  | cons b bytes =>
    simp only [readLength] at h
    split at h
    · obtain ⟨-, rfl⟩ := Prod.mk.inj (Option.some.inj h)
      simp
    · split at h
      · simp at h
      · obtain ⟨-, rfl⟩ := Prod.mk.inj (Option.some.inj h)
        simp only [List.length_drop, List.length_cons]
        omega

theorem length_readElement {e : Element} {bytes : Bytes} (h : readElement bytes = some e) :
    e.value.length + e.rest.length < bytes.length := by
  obtain ⟨⟨t, b1⟩, ht, h⟩ := Option.bind_eq_some_iff.1 h
  obtain ⟨⟨n, b2⟩, hl, h⟩ := Option.bind_eq_some_iff.1 h
  dsimp only at hl h
  have h1 := length_readTag ht
  have h2 := length_readLength hl
  split at h
  · obtain rfl := Option.some.inj h
    simp only [List.length_take, List.length_drop]
    omega
  · simp at h

def readBlocks (bytes : Bytes) : Option (List Block) :=
  match bytes with
  | [] => some []
  | b :: bytes =>
    match h : readElement (b :: bytes) with
    | none => none
    | some e => do
      have := length_readElement h
      let block ← (
        if !e.tag.universal then some .other
        else if e.tag.number = 16 ∨ e.tag.number = 17 then
          match readBlocks e.value with
          | none | some [] => none
          | some items => some (if e.tag.number = 16 then .sequence items else .set items)
        else readPlain e.tag.number e.value : Option Block)
      let rest ← readBlocks e.rest
      return block :: rest
termination_by bytes.length
decreasing_by
  · omega
  · omega

def read (bytes : Bytes) : Option (List Block) :=
  match readBlocks bytes with
  | none | some [] => none
  | some blocks => some blocks

mutual

/-- the object identifiers in a block, sequences gone through in order -/
def identifiersIn : Block → List (List Nat)
  | .sequence items => identifiers items
  | .identifier arcs => [arcs]
  | _ => []

def identifiers : List Block → List (List Nat)
  | [] => []
  | block :: rest => identifiersIn block ++ identifiers rest

end

mutual

/-- the first bit string or octet string in a block -/
def firstBytesIn? : Block → Option Bytes
  | .sequence items => firstBytes? items
  | .bytes value => some value
  | _ => none

/-- the first bit string or octet string in some blocks -/
def firstBytes? : List Block → Option Bytes
  | [] => none
  | block :: rest => (firstBytesIn? block).orElse fun _ => firstBytes? rest

end

/-! ## the strict form -/

/-- a length in its shortest form, and what follows it -/
def readShortestLength : Bytes → Option (Nat × Bytes)
  | [] => none
  | b :: rest =>
    if b < 0x80 then some (b.toNat, rest)
    else
      let count := b.toNat - 0x80
      let digits := rest.take count
      let length := Bytes.toNat digits
      if count = 0 ∨ 4 < count ∨ digits.length < count ∨ digits.head? = some 0 ∨ length < 0x80 then none
      else some (length, rest.drop count)

/-- the value that follows a tag, and what follows the value -/
def readTagged (tag : UInt8) : Bytes → Option (Bytes × Bytes)
  | [] => none
  | b :: rest => do
    guard (b = tag)
    let (length, rest) ← readShortestLength rest
    guard (length ≤ rest.length)
    return (rest.take length, rest.drop length)

/-- the natural number of a whole-number value: the highest bit is clear, by a zero byte if need be -/
def unsigned? : Bytes → Option Nat
  | [] => none
  | [b] => if b < 0x80 then some b.toNat else none
  | b :: c :: rest =>
    if 0x80 ≤ b ∨ (b = 0 ∧ c < 0x80) then none else some (Bytes.toNat (b :: c :: rest))

def readUnsigned (bytes : Bytes) : Option (Nat × Bytes) := do
  let (value, rest) ← readTagged 0x02 bytes
  let n ← unsigned? value
  return (n, rest)

end BearerCredentials.Der
