import BearerCredentials.Json.Phrase
import BearerCredentials.Proofs.Text.Pieces

/-!
# Lexemes are scanned

* `scanString_quoted`, `scanNumeral_chars`           strings and numerals, whatever follows;
* `scan_mark`, `scan_quoted`, `scan_numeral`, `scan_word`   a lexeme at the start of a text.
-/

namespace BearerCredentials.Json

/-! ## strings -/

theorem hexDigit?_char (d : HexDigit) : hexDigit? d.char = some d.value.1 := by
  obtain ⟨value, capital⟩ := d
  revert value capital
  decide

theorem unit?_char (a b c d : HexDigit) :
    unit? a.char b.char c.char d.char =
      some (((a.value * 16 + b.value) * 16 + c.value) * 16 + d.value : Nat) := by
  simp only [unit?, hexDigit?_char, Option.bind_eq_bind, Option.bind_some]
  rfl

theorem scanString_letter (l : Letter) (rest : List Char) :
    scanString (l.chars ++ rest) = Spelled.cons l.piece (scanString rest) := by
  cases l with
  | plain c printable ne_quote ne_backslash =>
    exact scanString_char c rest ne_quote ne_backslash (Nat.not_lt.2 printable)
  | short e => cases e <;> rfl
  | unit a b c d =>
    show scanString ('\\' :: 'u' :: a.char :: b.char :: c.char :: d.char :: rest) = _
    rw [scanString, unit?_char]
    rfl

theorem scanString_quoted (letters : List Letter) (rest : List Char) :
    scanString (letters.flatMap Letter.chars ++ '"' :: rest) = (spelled letters, rest) := by
  induction letters with
  | nil => rfl
  | cons l letters ih =>
    rw [List.flatMap_cons, List.append_assoc, scanString_letter, ih]
    rfl

/-! ## numerals -/

/-- a text that does not go on with a numeral -/
def Stops (rest : List Char) : Prop :=
  ∀ c, rest.head? = some c → c.isDigit = false ∧ c ≠ '.' ∧ c ≠ 'e' ∧ c ≠ 'E'

variable {rest : List Char}

theorem needDigits_chars (digits : Digits) (rest : List Char) : needDigits digits.chars rest = .ok () := by
  rw [needDigits, List.isEmpty_eq_false_iff.2 digits.ne_nil]
  rfl

theorem exists_digit_cons (digits : Digits) (rest : List Char) :
    ∃ c cs, digits.chars ++ rest = c :: cs ∧ c.isDigit = true := by
  obtain ⟨chars, ne_nil, isDigit_of_mem⟩ := digits
  obtain ⟨c, cs, rfl⟩ := List.exists_cons_of_ne_nil ne_nil
  exact ⟨c, cs ++ rest, rfl, isDigit_of_mem c List.mem_cons_self⟩

theorem scanFraction_chars (f : Option Digits) (hr : ∀ c, rest.head? = some c → c.isDigit = false ∧ c ≠ '.') :
    scanFraction (fractionChars f ++ rest) = .ok ((f.map Digits.chars).getD [], rest) := by
  cases f with
  | none =>
    show scanFraction rest = .ok ([], rest)
    unfold scanFraction
    split
    · exact absurd rfl (hr '.' rfl).2
    · rfl
  | some digits =>
    obtain ⟨htake, hdrop⟩ := Text.takeWhile_append_of_stop digits.isDigit_of_mem fun c hc => (hr c hc).1
    show scanFraction ('.' :: (digits.chars ++ rest)) = _
    rw [scanFraction, htake, hdrop, needDigits_chars]
    rfl

theorem scanExponentSign_chars (sign : Option Bool) (digits : Digits) (rest : List Char) :
    scanExponentSign (exponentSignChars sign ++ (digits.chars ++ rest)) =
      (sign.getD false, digits.chars ++ rest) := by
  cases sign with
  | none =>
    obtain ⟨c, cs, e, hc⟩ := exists_digit_cons digits rest
    rw [e]
    show scanExponentSign (c :: cs) = (false, c :: cs)
    unfold scanExponentSign
    split
    · rename_i he
      obtain ⟨rfl, -⟩ := List.cons.inj he
      exact absurd hc (by decide)
    · rename_i he
      obtain ⟨rfl, -⟩ := List.cons.inj he
      exact absurd hc (by decide)
    · rfl
  | some negative => cases negative <;> rfl

theorem scanExponent_chars (e : Option ExponentForm) (hr : Stops rest) :
    scanExponent (exponentChars e ++ rest) =
      .ok (e.map fun e => (e.sign.getD false, e.digits.chars), rest) := by
  cases e with
  | none =>
    cases rest with
    | nil => rfl
    | cons c rest =>
      obtain ⟨-, -, he, hE⟩ := hr c rfl
      show scanExponent (c :: rest) = _
      rw [scanExponent, if_neg (by simp [he, hE])]
      rfl
  | some e =>
    obtain ⟨htake, hdrop⟩ := Text.takeWhile_append_of_stop e.digits.isDigit_of_mem fun c hc => (hr c hc).1
    have hmark : (if e.capital then 'E' else 'e') = 'e' ∨ (if e.capital then 'E' else 'e') = 'E' := by
      cases e.capital
      · exact Or.inl rfl
      · exact Or.inr rfl
    show scanExponent (_ :: (exponentSignChars e.sign ++ e.digits.chars ++ rest)) = _
    rw [scanExponent, if_pos hmark, List.append_assoc, scanExponentSign_chars]
    dsimp only
    rw [htake, hdrop, needDigits_chars]
    rfl

theorem head_exponentChars (e : Option ExponentForm) (hr : Stops rest) (c : Char)
    (hc : (exponentChars e ++ rest).head? = some c) : c.isDigit = false ∧ c ≠ '.' := by
  cases e with
  | none => exact ⟨(hr c hc).1, (hr c hc).2.1⟩
  | some e =>
    obtain rfl := Option.some.inj hc
    cases e.capital <;> decide

theorem head_fractionChars (f : Option Digits) (e : Option ExponentForm) (hr : Stops rest) (c : Char)
    (hc : (fractionChars f ++ (exponentChars e ++ rest)).head? = some c) : c.isDigit = false := by
  cases f with
  | none => exact (head_exponentChars e hr c hc).1
  | some digits =>
    obtain rfl := Option.some.inj hc
    decide

/-- a numeral starts with a minus sign or a digit -/
theorem exists_numeral_cons (n : NumeralForm) (rest : List Char) :
    ∃ c cs, n.chars ++ rest = c :: cs ∧ (c = '-' ∨ c.isDigit = true) := by
  unfold NumeralForm.chars
  cases n.negative with
  | true => exact ⟨'-', _, rfl, Or.inl rfl⟩
  | false =>
    obtain ⟨c, cs, e, hc⟩ := exists_digit_cons n.whole (fractionChars n.fraction ++ exponentChars n.exponent ++ rest)
    refine ⟨c, cs, ?_, Or.inr hc⟩
    rw [← e]
    simp only [Bool.false_eq_true, if_false, List.nil_append, List.append_assoc]

theorem hasLeadingZero_whole (n : NumeralForm) : hasLeadingZero n.whole.chars = false := by
  unfold hasLeadingZero
  split
  · rename_i hw
    have h := n.leading (by rw [hw]; rfl)
    rw [hw] at h
    cases h
  · rfl

theorem scanSign_chars (negative : Bool) (digits : Digits) (rest : List Char) :
    scanSign ((if negative then ['-'] else []) ++ (digits.chars ++ rest)) = (negative, digits.chars ++ rest) := by
  cases negative with
  | true => rfl
  | false =>
    obtain ⟨c, cs, e, hc⟩ := exists_digit_cons digits rest
    rw [e]
    show scanSign (c :: cs) = (false, c :: cs)
    unfold scanSign
    split
    · rename_i he
      obtain ⟨rfl, -⟩ := List.cons.inj he
      exact absurd hc (by decide)
    · rfl

/-- **A numeral is read to its end**, unless what follows goes on with it. -/
theorem scanNumeral_chars (n : NumeralForm) (hr : Stops rest) :
    scanNumeral (n.chars ++ rest) = .ok (n.numeral, rest) := by
  obtain ⟨htake, hdrop⟩ := Text.takeWhile_append_of_stop n.whole.isDigit_of_mem
    (head_fractionChars n.fraction n.exponent hr)
  rw [scanNumeral, NumeralForm.chars, List.append_assoc, List.append_assoc, List.append_assoc, scanSign_chars]
  dsimp only
  rw [htake, hdrop, needDigits_chars, hasLeadingZero_whole,
    scanFraction_chars n.fraction (head_exponentChars n.exponent hr)]
  simp only [bind, Except.bind, pure, Except.pure, Bool.false_eq_true, if_false]
  rw [scanExponent_chars n.exponent hr]
  rfl

/-! ## lexemes -/

section
open Lexeme

theorem scan_blanks (b : Blanks) (rest : List Char) : scan (b.chars ++ rest) = scan rest := by
  obtain ⟨chars, hb⟩ := b
  show scan (chars ++ rest) = scan rest
  induction chars with
  | nil => rfl
  | cons c chars ih =>
    have hc : Text.isSpace c = true := by
      have hmem := hb c List.mem_cons_self
      simp only [List.mem_cons, List.not_mem_nil, or_false] at hmem
      rcases hmem with rfl | rfl | rfl | rfl <;> rfl
    rw [List.cons_append, scan, if_pos hc]
    exact ih fun d hd => hb d (List.mem_cons_of_mem _ hd)

theorem scan_mark {c : Char} {mark : Lexeme} (hs : Text.isSpace c = false) (hm : mark? c = some mark) :
    scan (c :: rest) = mark :: scan rest := by
  rw [scan, if_neg (by rw [hs]; decide), hm]

theorem scan_quoted (letters : List Letter) (rest : List Char) :
    scan (quoted letters ++ rest) = .text (spelled letters) :: scan rest := by
  have hq : quoted letters ++ rest = '"' :: (letters.flatMap Letter.chars ++ '"' :: rest) := by
    simp only [quoted, List.cons_append, List.append_assoc, List.nil_append]
  have hs : Text.isSpace '"' = false := by decide
  have hm : mark? '"' = none := by decide
  rw [hq, scan, if_neg (by rw [hs]; decide), hm]
  simp only [if_true, scanString_quoted]

/-- the start of a numeral starts no other lexeme -/
theorem starts_numeral {c : Char} (hc : c = '-' ∨ c.isDigit = true) :
    Text.isSpace c = false ∧ mark? c = none ∧ c ≠ '"' ∧ word? c = none := by
  have hne {d : Char} (hd : ¬ (d = '-' ∨ d.isDigit = true)) : c ≠ d := by
    rintro rfl
    exact hd hc
  refine ⟨?_, ?_, hne (by decide), ?_⟩
  · simp only [Text.isSpace, Bool.or_eq_false_iff, beq_eq_false_iff_ne]
    exact ⟨⟨⟨hne (by decide), hne (by decide)⟩, hne (by decide)⟩, hne (by decide)⟩
  · unfold mark?
    split
    case h_7 => rfl
    all_goals exact absurd rfl (hne (by decide))
  · unfold word?
    split
    case h_4 => rfl
    all_goals exact absurd rfl (hne (by decide))

theorem scan_numeral (n : NumeralForm) (hr : Stops rest) :
    scan (n.chars ++ rest) = .number n.numeral :: scan rest := by
  have hscan := scanNumeral_chars n hr
  obtain ⟨c, cs, e, hc⟩ := exists_numeral_cons n rest
  rw [e] at hscan ⊢
  obtain ⟨hs, hm, hq, hw⟩ := starts_numeral hc
  rw [scan, if_neg (by rw [hs]; decide), hm]
  simp only [if_neg hq, hw, if_pos hc]
  split
  · rename_i h
    rw [hscan] at h
    cases h
    rfl
  · rename_i h
    rw [hscan] at h
    cases h

theorem scanWord_append (word rest : List Char) : scanWord word (word ++ rest) = .ok rest := by
  induction word with
  | nil => rfl
  | cons c word ih => rw [List.cons_append, scanWord, if_pos rfl, ih]

theorem scan_word {c : Char} {letters : List Char} {word : Lexeme} (rest : List Char) (hs : Text.isSpace c = false)
    (hm : mark? c = none) (hq : c ≠ '"') (hw : word? c = some (word, letters)) :
    scan (c :: letters ++ rest) = word :: scan rest := by
  have hscan := scanWord_append letters rest
  rw [List.cons_append, scan, if_neg (by rw [hs]; decide), hm]
  simp only [if_neg hq, hw]
  split
  · rename_i h
    rw [hscan] at h
    cases h
    rfl
  · rename_i h
    rw [hscan] at h
    cases h

end

end BearerCredentials.Json
