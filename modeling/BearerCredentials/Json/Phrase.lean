import BearerCredentials.Json.Outline
import BearerCredentials.Json.Print

/-!
# Phrases

The grammar of JSON as trees. A phrase is a value together with the way in which it is written: the blanks
between its parts, the escapes in its strings, the form of its numbers. Every phrase has a text, and a text is
JSON if it is the text of a phrase between blanks.

* `Letter`, `letters`: what a string consists of, and the letters of a text.
* `Phrase`, `Phrase.chars`: what may be written.
* `Phrase.outline`: the nesting of a phrase.
* `Padded.text`, `objectText`: a whole text.
-/

namespace BearerCredentials.Json

/-- characters that may stand around a value -/
structure Blanks where
  chars : List Char := []
  isBlank_of_mem : ∀ c ∈ chars, c ∈ [' ', '\t', '\n', '\r'] := by simp

/-- something with the blanks before and after it -/
structure Padded (α : Type) where
  before : Blanks := {}
  value : α
  after : Blanks := {}

/-- the blanks around a text, with the text -/
def Padded.around {α : Type} (p : Padded α) (text : List Char) : List Char :=
  p.before.chars ++ text ++ p.after.chars

/-! ## strings -/

/-- a character with an escape of its own -/
inductive ShortEscape where
  | quote
  | backslash
  | slash
  | backspace
  | formFeed
  | lineFeed
  | carriageReturn
  | tab

namespace ShortEscape

/-- what stands after the backslash -/
def mark : ShortEscape → Char
  | quote => '"'
  | backslash => '\\'
  | slash => '/'
  | backspace => 'b'
  | formFeed => 'f'
  | lineFeed => 'n'
  | carriageReturn => 'r'
  | tab => 't'

def char : ShortEscape → Char
  | quote => '"'
  | backslash => '\\'
  | slash => '/'
  | backspace => '\x08'
  | formFeed => '\x0c'
  | lineFeed => '\n'
  | carriageReturn => '\r'
  | tab => '\t'

end ShortEscape

/-- a hexadecimal digit, whose letter may be a capital -/
structure HexDigit where
  value : Fin 16
  capital : Bool := false

def HexDigit.char (d : HexDigit) : Char :=
  if d.capital then (Nat.digitChar d.value).toUpper else Nat.digitChar d.value

/-- a part of a string between its quotes -/
inductive Letter where
  /-- a character that stands for itself -/
  | plain (c : Char) (printable : 0x20 ≤ c.toNat) (ne_quote : c ≠ '"') (ne_backslash : c ≠ '\\')
  | short (escape : ShortEscape)
  /-- a UTF-16 unit -/
  | unit (a b c d : HexDigit)

namespace Letter

def chars : Letter → List Char
  | plain c _ _ _ => [c]
  | short e => ['\\', e.mark]
  | unit a b c d => ['\\', 'u', a.char, b.char, c.char, d.char]

def piece : Letter → Piece
  | plain c _ _ _ => .char c
  | short e => .char e.char
  | unit a b c d => .unit (((a.value * 16 + b.value) * 16 + c.value) * 16 + d.value : Nat)

end Letter

/-- the first half of a pair of UTF-16 units, which alone is no character -/
def Letter.half : Letter := .unit ⟨13, true⟩ ⟨8, false⟩ ⟨0, false⟩ ⟨0, false⟩

/-- a string between its quotes -/
def quoted (letters : List Letter) : List Char :=
  '"' :: letters.flatMap Letter.chars ++ ['"']

def spelled (letters : List Letter) : Spelled := ⟨letters.map Letter.piece, none⟩

/-- the letter as which a character is written -/
def Letter.ofChar (c : Char) : Letter :=
  if hq : c = '"' then .short .quote
  else if hb : c = '\\' then .short .backslash
  else if c = '\x08' then .short .backspace
  else if c = '\t' then .short .tab
  else if c = '\n' then .short .lineFeed
  else if c = '\x0c' then .short .formFeed
  else if c = '\r' then .short .carriageReturn
  else if hc : c.toNat < 0x20 then
    .unit ⟨0, false⟩ ⟨0, false⟩ ⟨⟨c.toNat / 16, by omega⟩, false⟩ ⟨⟨c.toNat % 16, by omega⟩, false⟩
  else .plain c (Nat.le_of_not_lt hc) hq hb

/-- the letters as which a text is written -/
def letters (s : String) : List Letter := s.toList.map Letter.ofChar

/-! ## numbers -/

/-- at least one decimal digit -/
structure Digits where
  chars : List Char
  ne_nil : chars ≠ [] := by decide
  isDigit_of_mem : ∀ c ∈ chars, c.isDigit = true := by simp

/-- an exponent as it is written -/
structure ExponentForm where
  capital : Bool
  /-- a minus sign or a plus sign, or none -/
  sign : Option Bool
  digits : Digits

/-- a number as it is written -/
structure NumeralForm where
  negative : Bool := false
  whole : Digits
  /-- a zero at the start stands alone -/
  leading : whole.chars.head? = some '0' → whole.chars = ['0']
  fraction : Option Digits := none
  exponent : Option ExponentForm := none

def exponentSignChars : Option Bool → List Char
  | none => []
  | some true => ['-']
  | some false => ['+']

/-- the mark of an exponent, its sign and its digits -/
def exponentChars : Option ExponentForm → List Char
  | none => []
  | some e => (if e.capital then 'E' else 'e') :: (exponentSignChars e.sign ++ e.digits.chars)

/-- the point and the digits after it -/
def fractionChars : Option Digits → List Char
  | none => []
  | some digits => '.' :: digits.chars

namespace NumeralForm

def chars (n : NumeralForm) : List Char :=
  (if n.negative then ['-'] else []) ++ (n.whole.chars ++ (fractionChars n.fraction ++ exponentChars n.exponent))

def numeral (n : NumeralForm) : Numeral where
  negative := n.negative
  whole := n.whole.chars
  fraction := (n.fraction.map Digits.chars).getD []
  exponent := n.exponent.map fun e => (e.sign.getD false, e.digits.chars)

end NumeralForm

/-! ## values -/

/-- a value as it is written -/
inductive Phrase where
  | null
  | bool (value : Bool)
  | number (form : NumeralForm)
  | text (letters : List Letter)
  /-- the items, and the blanks before the closing mark -/
  | array (items : List (Padded Phrase)) (stop : Blanks)
  /-- the names and values of the members, and the blanks before the closing mark -/
  | object (members : List (Padded (List Letter) × Padded Phrase)) (stop : Blanks)

/-- a member of an object as it is written -/
abbrev Member := Padded (List Letter) × Padded Phrase

mutual

def Phrase.chars : Phrase → List Char
  | .null => "null".toList
  | .bool true => "true".toList
  | .bool false => "false".toList
  | .number form => form.chars
  | .text letters => quoted letters
  | .array items stop => '[' :: separated [','] (itemTexts items) ++ stop.chars ++ [']']
  | .object members stop => '\x7b' :: separated [','] (memberTexts members) ++ stop.chars ++ ['\x7d']

def itemTexts : List (Padded Phrase) → List (List Char)
  | [] => []
  | ⟨before, p, after⟩ :: rest => (before.chars ++ p.chars ++ after.chars) :: itemTexts rest

def memberTexts : List (Padded (List Letter) × Padded Phrase) → List (List Char)
  | [] => []
  | (name, ⟨before, p, after⟩) :: rest =>
    (name.around (quoted name.value) ++ ':' :: (before.chars ++ p.chars ++ after.chars)) :: memberTexts rest

end

mutual

/-- the nesting of a value -/
def Phrase.outline : Phrase → Outline
  | .null => .null
  | .bool b => .bool b
  | .number form => .number form.numeral
  | .text letters => .text (spelled letters)
  | .array items _ => .array (itemOutlines items) none
  | .object members _ => .object (memberOutlines members) none

def itemOutlines : List (Padded Phrase) → List Outline
  | [] => []
  | ⟨_, p, _⟩ :: rest => p.outline :: itemOutlines rest

def memberOutlines : List (Padded (List Letter) × Padded Phrase) → List (Spelled × Outline)
  | [] => []
  | (name, ⟨_, p, _⟩) :: rest => (spelled name.value, p.outline) :: memberOutlines rest

end

/-- the text of a value between blanks -/
def Padded.text (p : Padded Phrase) : String :=
  String.ofList (p.around p.value.chars)

/-- the text of an object between blanks -/
def objectText (before : Blanks) (members : List Member) (stop after : Blanks) : String :=
  Padded.text ⟨before, .object members stop, after⟩

end BearerCredentials.Json
