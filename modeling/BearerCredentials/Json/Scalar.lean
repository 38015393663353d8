import BearerCredentials.Binary64.Shortest

/-!
# Strings and numbers as they are spelled

The scalars of a JSON text. The first problem that is met from left to right decides, so every reading function
stops there and reports one of three faults.

A string is a sequence of pieces: characters that stand for themselves or have a short escape, and UTF-16 units
that are spelled in hexadecimal. The units become characters only when the string is read, so that a string that
is only passed over may hold half of a pair.

A numeral is a number as it is spelled. Its value is a whole number where 64 bits hold it, and a floating point
number else. The floating point value is found in one pass: digits are taken into a significand of 64 bits as long
as they fit, each one left over from the whole part or taken from the fraction moves the exponent, and the rounded
significand is scaled by the power of ten at the end.

* `Fault`: what can be wrong with a text.
* `scanString`: the pieces after an opening quote, and what follows the closing one.
* `assemble`, `Spelled.text`: the characters of a string; half of a pair is malformed.
* `escape`, `spell`: how a text is written as a string.
* `text_spelled`: the pieces of a written text are read as that text.
* `Numeral.value?`: the value of a numeral, none if it is out of range.
* `Number.render`: how a value is written.
-/

namespace BearerCredentials.Json

/-- why a JSON text is refused -/
inductive Fault where
  /-- the text ends too early -/
  | unfinished
  /-- the text is not JSON, or a number or a nesting is out of bounds -/
  | malformed
  /-- the text is JSON, of another shape than the wanted one -/
  | mismatch
deriving DecidableEq

/-! ## strings -/

/-- a part of a string as it is spelled -/
inductive Piece where
  | char (c : Char)
  /-- a UTF-16 unit in hexadecimal -/
  | unit (u : Nat)
deriving DecidableEq

/-- a string as it is spelled; a torn one does not reach its closing quote -/
structure Spelled where
  pieces : List Piece
  tear : Option Fault
deriving DecidableEq

namespace Spelled

/-- a string with one more piece at its start -/
def cons (p : Piece) (s : Spelled × List Char) : Spelled × List Char :=
  (⟨p :: s.1.pieces, s.1.tear⟩, s.2)

def torn (f : Fault) : Spelled × List Char := (⟨[], some f⟩, [])

end Spelled

def hexDigit? (c : Char) : Option Nat :=
  if '0' ≤ c ∧ c ≤ '9' then some (c.toNat - '0'.toNat)
  else if 'a' ≤ c ∧ c ≤ 'f' then some (c.toNat - 'a'.toNat + 10)
  else if 'A' ≤ c ∧ c ≤ 'F' then some (c.toNat - 'A'.toNat + 10)
  else none

/-- the UTF-16 unit of four hexadecimal digits -/
def unit? (a b c d : Char) : Option Nat := do
  let a ← hexDigit? a
  let b ← hexDigit? b
  let c ← hexDigit? c
  let d ← hexDigit? d
  return ((a * 16 + b) * 16 + c) * 16 + d

def shortEscape? (c : Char) : Option Char :=
  match c with
  | '"' => some '"'
  | '\\' => some '\\'
  | '/' => some '/'
  | 'b' => some '\x08'
  | 'f' => some '\x0c'
  | 'n' => some '\n'
  | 'r' => some '\r'
  | 't' => some '\t'
  | _ => none

def byteCount (cs : List Char) : Nat := cs.foldl (fun n c => n + c.utf8Size) 0

/-- the string whose opening quote has been read, and what follows its closing quote -/
def scanString : List Char → Spelled × List Char
  | [] => Spelled.torn .unfinished
  | '"' :: rest => (⟨[], none⟩, rest)
  | ['\\'] => Spelled.torn .unfinished
  | '\\' :: 'u' :: a :: b :: c :: d :: rest =>
    match unit? a b c d with
    | some u => Spelled.cons (.unit u) (scanString rest)
    | none => Spelled.torn .malformed
  | '\\' :: 'u' :: rest => Spelled.torn (if byteCount rest < 4 then .unfinished else .malformed)
  | '\\' :: c :: rest =>
    match shortEscape? c with
    | some x => Spelled.cons (.char x) (scanString rest)
    | none => Spelled.torn .malformed
  | c :: rest => if c.toNat < 0x20 then Spelled.torn .malformed else Spelled.cons (.char c) (scanString rest)

theorem length_scanString (cs : List Char) : (scanString cs).2.length ≤ cs.length := by
  fun_induction scanString cs <;> simp_all [Spelled.cons, Spelled.torn] <;> omega

/-- whether a UTF-16 unit is the first half of a pair -/
def isHighHalf (u : Nat) : Bool := 0xd800 ≤ u && u < 0xdc00

/-- whether a UTF-16 unit is the second half of a pair -/
def isLowHalf (u : Nat) : Bool := 0xdc00 ≤ u && u < 0xe000

/-- the character of a pair of UTF-16 units -/
def pairChar (high low : Nat) : Char :=
  Char.ofNat (0x10000 + (high - 0xd800) * 0x400 + (low - 0xdc00))

/-- the characters of a string up to its end, which may be a tear; `high` is the first half of a pair that
waits for its second one -/
def assemble (tear : Option Fault) : (high : Option Nat) → List Piece → Except Fault (List Char)
  | none, [] => match tear with
    | none => .ok []
    | some f => .error f
  | none, .char c :: rest => (assemble tear none rest).map (c :: ·)
  | none, .unit u :: rest =>
    if isLowHalf u then .error .malformed
    else if isHighHalf u then assemble tear (some u) rest
    else (assemble tear none rest).map (Char.ofNat u :: ·)
  | some _, [] => .error (tear.getD .malformed)
  | some _, .char _ :: _ => .error .malformed
  | some u, .unit v :: rest =>
    if isLowHalf v then (assemble tear none rest).map (pairChar u v :: ·) else .error .malformed

def Spelled.text (s : Spelled) : Except Fault String :=
  (assemble s.tear none s.pieces).map String.ofList

def escape (c : Char) : List Char :=
  if c = '"' then ['\\', '"']
  else if c = '\\' then ['\\', '\\']
  else if c = '\x08' then ['\\', 'b']
  else if c = '\t' then ['\\', 't']
  else if c = '\n' then ['\\', 'n']
  else if c = '\x0c' then ['\\', 'f']
  else if c = '\r' then ['\\', 'r']
  else if c.toNat < 0x20 then
    ['\\', 'u', '0', '0', Nat.digitChar (c.toNat / 16), Nat.digitChar (c.toNat % 16)]
  else [c]

def spell (s : String) : List Char :=
  '"' :: s.toList.flatMap escape ++ ['"']

/-- the piece as which a written character is read -/
def pieceOf (c : Char) : Piece :=
  if c.toNat < 0x20 ∧ c ≠ '\x08' ∧ c ≠ '\t' ∧ c ≠ '\n' ∧ c ≠ '\x0c' ∧ c ≠ '\r' then .unit c.toNat
  else .char c

theorem hexDigit?_digitChar : ∀ n : Fin 16, hexDigit? (Nat.digitChar n) = some n.1 := by decide

theorem scanString_char (c : Char) (rest : List Char) (hq : c ≠ '"') (hb : c ≠ '\\')
    (hc : ¬ c.toNat < 0x20) :
    scanString (c :: rest) = Spelled.cons (.char c) (scanString rest) := by
  rw [scanString]
  · rw [if_neg hc]
  all_goals simp_all

theorem assemble_pieceOf (tear : Option Fault) (c : Char) (rest : List Piece) :
    assemble tear none (pieceOf c :: rest) = (assemble tear none rest).map (c :: ·) := by
  have hp : pieceOf c = .char c ∨ (c.toNat < 0x20 ∧ pieceOf c = .unit c.toNat) := by
    unfold pieceOf
    split <;> simp_all
  rcases hp with hp | ⟨hc, hp⟩
  · simp [hp, assemble]
  · have hl : isLowHalf c.toNat = false := by simp [isLowHalf]; omega
    have hh : isHighHalf c.toNat = false := by simp [isHighHalf]; omega
    simp [hp, assemble, hl, hh]

theorem text_spelled (s : String) : Spelled.text ⟨s.toList.map pieceOf, none⟩ = .ok s := by
  have h : ∀ cs, assemble none none (cs.map pieceOf) = .ok cs := by
    intro cs
    induction cs with
    | nil => rfl
    | cons c cs ih => simp [assemble_pieceOf, ih, Except.map]
  simp [Spelled.text, h, Except.map]

/-! ## numbers -/

/-- a number as it is spelled -/
structure Numeral where
  negative : Bool
  /-- the digits before the point -/
  whole : List Char
  /-- the digits after the point; none without a point -/
  fraction : List Char
  /-- the sign and the digits of the exponent -/
  exponent : Option (Bool × List Char)
deriving DecidableEq

/-- the value of a number -/
inductive Number where
  /-- a whole number of 64 bits, signed or unsigned -/
  | integer (value : Int) (low : -9223372036854775808 ≤ value)
    (high : value < 18446744073709551616)
  | float (value : Binary64)
deriving DecidableEq

namespace Numeral

def digit (c : Char) : Nat := c.toNat - '0'.toNat

/-- takes digits into a significand below `2^64`; the digits from the first that does not fit are left -/
def absorb : Nat → List Char → Nat × List Char
  | s, [] => (s, [])
  | s, d :: ds =>
    let t := s * 10 + digit d
    if t < UInt64.size then absorb t ds else (s, d :: ds)

def spelledExponent (n : Numeral) : Int :=
  match n.exponent with
  | none => 0
  | some (negative, digits) =>
    let e : Int := digits.foldl (fun e d => e * 10 + digit d) 0
    if negative then -e else e

/-- the floating point value, none if it is out of range -/
def float? (n : Numeral) : Option Binary64 :=
  let (s, left) := absorb 0 n.whole
  let (s, dropped) := absorb s n.fraction
  let taken := n.fraction.length - dropped.length
  let e : Int := left.length - taken + n.spelledExponent
  (Binary64.scale? (Binary64.ofNat s) e).map fun units => ⟨n.negative, units⟩

/-- the whole number that is spelled, if it is spelled as one, 64 bits hold it, and it is no negative zero -/
def integer? (n : Numeral) : Option Int :=
  if n.fraction.isEmpty && n.exponent.isNone then
    match absorb 0 n.whole with
    | (s, []) =>
      if n.negative then
        if s = 0 ∨ 9223372036854775808 < s then none else some (-s)
      else some s
    | _ => none
  else none

/-- the value of a numeral, none if it is out of range -/
def value? (n : Numeral) : Option Number :=
  match n.integer? with
  | some i =>
    if h : -9223372036854775808 ≤ i ∧ i < 18446744073709551616 then some (.integer i h.1 h.2)
    else none
  | none => n.float?.map .float

/-- the value of a numeral; a number out of range is malformed -/
def value (n : Numeral) : Except Fault Number :=
  match n.value? with
  | some x => .ok x
  | none => .error .malformed

end Numeral

namespace Number

def render : Number → List Char
  | .integer i _ _ => if i < 0 then '-' :: Nat.toDigits 10 i.natAbs else Nat.toDigits 10 i.natAbs
  | .float x => x.decimal

/-- the number as a natural number below `2^64`, if it is spelled as one -/
def natural? : Number → Option Nat
  | .integer i _ _ => if i < 0 then none else some i.toNat
  | .float _ => none

/-- the natural number below `2^64` that a number stands for, a half going away from zero -/
def rounded? : Number → Option Nat
  | .integer i _ _ => if i < 0 then none else some i.toNat
  | .float x =>
    if (x.negative && x.units != 0) || UInt64.size * Binary64.one ≤ x.units then none
    else some (Binary64.roundToNat x.units)

end Number

end BearerCredentials.Json
