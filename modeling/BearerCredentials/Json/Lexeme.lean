import BearerCredentials.Json.Scalar
import BearerCredentials.Text.Blank

/-!
# Lexemes

The marks, words, numerals and strings of a JSON text, without the blanks between them. Scanning stops at
the first place where no lexeme can be read; what went wrong there is the last lexeme. A numeral that breaks
off at the end of the text is unfinished for a reader who wants its value and malformed for one who passes
over it, so such a place carries both faults.

* `Lexeme.scan`: the lexemes of a text.
-/

namespace BearerCredentials.Json

/-- a part of a JSON text -/
inductive Lexeme where
  | openArray
  | closeArray
  | openObject
  | closeObject
  | comma
  | colon
  | null
  | bool (value : Bool)
  | number (value : Numeral)
  | text (value : Spelled)
  /-- no lexeme, with the fault for a reader and for one who skips it -/
  | unreadable (reading skipping : Fault)
deriving DecidableEq

/-- what follows the digits of a part of a numeral, which needs at least one digit -/
def needDigits (digits rest : List Char) : Except (Fault × Fault) Unit :=
  if digits.isEmpty then
    .error (if rest.isEmpty then .unfinished else .malformed, .malformed)
  else .ok ()

def scanSign : List Char → Bool × List Char
  | '-' :: rest => (true, rest)
  | cs => (false, cs)

/-- the digits after a point, if there is one -/
def scanFraction : List Char → Except (Fault × Fault) (List Char × List Char)
  | '.' :: rest => do
    let digits := rest.takeWhile Char.isDigit
    let rest := rest.dropWhile Char.isDigit
    needDigits digits rest
    return (digits, rest)
  | cs => return ([], cs)

/-- the sign of an exponent, which may be left out -/
def scanExponentSign : List Char → Bool × List Char
  | '-' :: rest => (true, rest)
  | '+' :: rest => (false, rest)
  | cs => (false, cs)

def scanExponent : List Char → Except (Fault × Fault) (Option (Bool × List Char) × List Char)
  | [] => return (none, [])
  | c :: rest =>
    if c = 'e' ∨ c = 'E' then do
      let (negative, rest) := scanExponentSign rest
      let digits := rest.takeWhile Char.isDigit
      let rest := rest.dropWhile Char.isDigit
      needDigits digits rest
      return (some (negative, digits), rest)
    else return (none, c :: rest)

/-- whether digits start with a zero that is not the only one -/
def hasLeadingZero : List Char → Bool
  | '0' :: _ :: _ => true
  | _ => false

/-- a numeral at the start of a text, and what follows it -/
def scanNumeral (cs : List Char) : Except (Fault × Fault) (Numeral × List Char) := do
  let (negative, cs) := scanSign cs
  let whole := cs.takeWhile Char.isDigit
  let cs := cs.dropWhile Char.isDigit
  needDigits whole cs
  if hasLeadingZero whole then throw (.malformed, .malformed)
  let (fraction, cs) ← scanFraction cs
  let (exponent, cs) ← scanExponent cs
  return (⟨negative, whole, fraction, exponent⟩, cs)

/-- what follows a word that the text starts with -/
def scanWord : (word cs : List Char) → Except Fault (List Char)
  | [], cs => .ok cs
  | _ :: _, [] => .error .unfinished
  | w :: word, c :: cs => if c = w then scanWord word cs else .error .malformed

/-- the word that starts with a letter, with its remaining letters -/
def word? : Char → Option (Lexeme × List Char)
  | 'n' => some (.null, "ull".toList)
  | 't' => some (.bool true, "rue".toList)
  | 'f' => some (.bool false, "alse".toList)
  | _ => none

def mark? : Char → Option Lexeme
  | '[' => some .openArray
  | ']' => some .closeArray
  | '\x7b' => some .openObject
  | '\x7d' => some .closeObject
  | ',' => some .comma
  | ':' => some .colon
  | _ => none

theorem length_scanWord {word cs rest : List Char} (h : scanWord word cs = .ok rest) :
    rest.length ≤ cs.length := by
  induction word generalizing cs with
  | nil => simp_all [scanWord]
  | cons w word ih =>
    cases cs with
    | nil => simp [scanWord] at h
    | cons c cs =>
      simp only [scanWord] at h
      split at h
      · exact Nat.le_succ_of_le (ih h)
      · simp at h

theorem length_scanSign (cs : List Char) : (scanSign cs).2.length ≤ cs.length := by
  unfold scanSign
  split <;> simp

theorem length_scanExponentSign (cs : List Char) : (scanExponentSign cs).2.length ≤ cs.length := by
  unfold scanExponentSign
  split <;> simp

theorem length_scanFraction {cs digits rest : List Char} (h : scanFraction cs = .ok (digits, rest)) :
    rest.length ≤ cs.length := by
  unfold scanFraction at h
  split at h
  · rename_i r
    have := (r.dropWhile_suffix Char.isDigit).length_le
    simp only [bind, Except.bind, pure, Except.pure] at h
    split at h <;> simp_all
    omega
  · simp_all [pure, Except.pure]

theorem length_scanExponent {cs rest : List Char} {e : Option (Bool × List Char)}
    (h : scanExponent cs = .ok (e, rest)) : rest.length ≤ cs.length := by
  unfold scanExponent at h
  split at h
  · simp_all [pure, Except.pure]
  · rename_i c r
    split at h
    · have h1 := length_scanExponentSign r
      have h2 := ((scanExponentSign r).2.dropWhile_suffix Char.isDigit).length_le
      simp only [bind, Except.bind, pure, Except.pure] at h
      split at h <;> simp_all
      omega
    · simp_all [pure, Except.pure]

theorem length_dropWhile_lt {α : Type} {p : α → Bool} {xs : List α} (h : xs.takeWhile p ≠ []) :
    (xs.dropWhile p).length < xs.length := by
  have hl : (xs.takeWhile p ++ xs.dropWhile p).length = xs.length := by
    rw [List.takeWhile_append_dropWhile]
  have hp := List.length_pos_iff.2 h
  rw [List.length_append] at hl
  omega

theorem needDigits_ok {digits rest : List Char} {u : Unit} (h : needDigits digits rest = .ok u) :
    digits ≠ [] := by
  rintro rfl
  simp [needDigits] at h

theorem length_scanNumeral {cs rest : List Char} {n : Numeral} (h : scanNumeral cs = .ok (n, rest)) :
    rest.length < cs.length := by
  unfold scanNumeral at h
  have h1 := length_scanSign cs
  simp only [bind, Except.bind, pure, Except.pure, throw, throwThe, MonadExceptOf.throw] at h
  split at h
  · simp at h
  rename_i hd
  have h2 := length_dropWhile_lt (needDigits_ok hd)
  split at h
  · simp at h
  split at h
  · simp at h
  rename_i hf
  split at h
  · simp at h
  rename_i he
  have h3 := length_scanFraction hf
  have h4 := length_scanExponent he
  simp_all
  omega

namespace Lexeme

def scan (cs : List Char) : List Lexeme :=
  match cs with
  | [] => []
  | c :: rest =>
    if Text.isSpace c then scan rest
    else match mark? c with
      | some mark => mark :: scan rest
      | none =>
        if c = '"' then
          .text (scanString rest).1 :: scan (scanString rest).2
        else match word? c with
          | some (lexeme, letters) =>
            match _h : scanWord letters rest with
            | .ok rest => lexeme :: scan rest
            | .error f => [.unreadable f f]
          | none =>
            if c = '-' ∨ c.isDigit then
              match _h : scanNumeral (c :: rest) with
              | .ok (n, rest) => .number n :: scan rest
              | .error (reading, skipping) => [.unreadable reading skipping]
            else [.unreadable .malformed .malformed]
termination_by cs.length
decreasing_by
  · simp
  · simp
  · exact Nat.lt_succ_of_le (length_scanString rest)
  · exact Nat.lt_succ_of_le (length_scanWord _h)
  · exact length_scanNumeral _h

end Lexeme

end BearerCredentials.Json
