import BearerCredentials.Proofs.Json.Lexeme
import BearerCredentials.Proofs.Outcome

/-!
# A text and its lexemes

The converse of scanning: a lexeme that is not torn is the lexeme of the characters that were scanned.

* `closes`                       a string that reaches its closing quote consists of letters;
* `exists_form_of_scanNumeral`   a numeral is read from a form only;
* `Scanned`, `scanned_scan`      a text is its lexemes with blanks between them, as far as they are not torn.
-/

namespace BearerCredentials.Json

variable {cs rest : List Char}

/-! ## strings -/

theorem toNat_lt_of_hexDigit? {c : Char} {n : Nat} (h : hexDigit? c = some n) : c.toNat < 128 := by
  have hle {d : Char} (hd : d.toNat < 128) (hc : c ≤ d) : c.toNat < 128 :=
    Nat.lt_of_le_of_lt (UInt32.le_iff_toNat_le.1 hc) hd
  unfold hexDigit? at h
  split at h
  · rename_i hc
    exact hle (by decide) hc.2
  split at h
  · rename_i hc
    exact hle (by decide) hc.2
  split at h
  · rename_i hc
    exact hle (by decide) hc.2
  · cases h

/-- a hexadecimal digit is read from a digit only -/
theorem exists_hexDigit {c : Char} {n : Nat} (h : hexDigit? c = some n) : ∃ d : HexDigit, d.char = c := by
  have hall : ∀ k : Fin 128, hexDigit? (Char.ofNat k) = none ∨
      ∃ value : Fin 16, ∃ capital : Bool, HexDigit.char ⟨value, capital⟩ = Char.ofNat k := by decide +kernel
  have hc := hall ⟨c.toNat, toNat_lt_of_hexDigit? h⟩
  rw [Char.ofNat_toNat, h] at hc
  rcases hc with hc | ⟨value, capital, hc⟩
  · cases hc
  · exact ⟨⟨value, capital⟩, hc⟩

theorem exists_unit {a b c d : Char} {u : Nat} (h : unit? a b c d = some u) :
    ∃ l : Letter, l.chars = ['\\', 'u', a, b, c, d] := by
  unfold unit? at h
  obtain ⟨_, ha, h⟩ := Option.bind_eq_some_iff.1 h
  obtain ⟨_, hb, h⟩ := Option.bind_eq_some_iff.1 h
  obtain ⟨_, hc, h⟩ := Option.bind_eq_some_iff.1 h
  obtain ⟨_, hd, -⟩ := Option.bind_eq_some_iff.1 h
  obtain ⟨da, rfl⟩ := exists_hexDigit ha
  obtain ⟨db, rfl⟩ := exists_hexDigit hb
  obtain ⟨dc, rfl⟩ := exists_hexDigit hc
  obtain ⟨dd, rfl⟩ := exists_hexDigit hd
  exact ⟨.unit da db dc dd, rfl⟩

theorem exists_shortEscape {c x : Char} (h : shortEscape? c = some x) : ∃ e : ShortEscape, e.mark = c := by
  unfold shortEscape? at h
  split at h
  · exact ⟨.quote, rfl⟩
  · exact ⟨.backslash, rfl⟩
  · exact ⟨.slash, rfl⟩
  · exact ⟨.backspace, rfl⟩
  · exact ⟨.formFeed, rfl⟩
  · exact ⟨.lineFeed, rfl⟩
  · exact ⟨.carriageReturn, rfl⟩
  · exact ⟨.tab, rfl⟩
  · cases h

/-- letters and a closing quote, or a string that is torn -/
def Closes (cs : List Char) : Prop :=
  (∃ letters rest, cs = letters.flatMap Letter.chars ++ '"' :: rest ∧ scanString cs = (spelled letters, rest)) ∨
    ∃ pieces fault, scanString cs = (⟨pieces, some fault⟩, [])

theorem Closes.cons (l : Letter) (h : Closes cs) : Closes (l.chars ++ cs) := by
  rcases h with ⟨letters, rest, rfl, hs⟩ | ⟨pieces, fault, hs⟩
  · refine Or.inl ⟨l :: letters, rest, ?_, ?_⟩
    · rw [List.flatMap_cons, List.append_assoc]
    · rw [scanString_letter, hs]
      rfl
  · refine Or.inr ⟨l.piece :: pieces, fault, ?_⟩
    rw [scanString_letter, hs]
    rfl

/-- **A string that is not torn consists of letters.** -/
theorem closes (cs : List Char) : Closes cs := by
  fun_induction scanString cs with
  | case1 => exact Or.inr ⟨[], _, rfl⟩
  | case2 rest => exact Or.inl ⟨[], rest, rfl, rfl⟩
  | case3 => exact Or.inr ⟨[], _, rfl⟩
  | case4 a b c d rest u hu ih =>
    obtain ⟨l, hl⟩ := exists_unit hu
    have h := ih.cons l
    rw [hl] at h
    exact h
  | case5 a b c d rest hu =>
    refine Or.inr ⟨[], .malformed, ?_⟩
    rw [scanString, hu]
    rfl
  | case6 rest hshort => exact Or.inr ⟨[], _, scanString.eq_5 rest hshort⟩
  | case7 c rest _ hu x hx ih =>
    obtain ⟨e, rfl⟩ := exists_shortEscape hx
    exact ih.cons (.short e)
  | case8 c rest hlong hu hx =>
    refine Or.inr ⟨[], .malformed, ?_⟩
    rw [scanString.eq_6 c rest hlong hu, hx]
    rfl
  | case9 c rest hq hend hlong hu hb hc =>
    refine Or.inr ⟨[], .malformed, ?_⟩
    rw [scanString.eq_7 c rest hq hend hlong hu hb, if_pos hc]
    rfl
  | case10 c rest hq hend _ _ hb hc ih =>
    have hne : c ≠ '\\' := by
      rintro rfl
      cases rest with
      | nil => exact hend rfl rfl
      | cons d rest => exact hb d rest rfl rfl
    exact ih.cons (.plain c (Nat.le_of_not_lt hc) hq hne)

/-! ## numerals -/

/-- digits that stand at the start of a text, where there have to be some -/
theorem exists_digits {u : Unit} (h : needDigits (cs.takeWhile Char.isDigit) rest = .ok u) :
    ∃ digits : Digits, digits.chars = cs.takeWhile Char.isDigit :=
  ⟨⟨cs.takeWhile Char.isDigit, needDigits_ok h, fun c hc => List.all_eq_true.1 List.all_takeWhile c hc⟩, rfl⟩

theorem eq_of_scanSign {negative : Bool} (h : scanSign cs = (negative, rest)) :
    cs = (if negative then ['-'] else []) ++ rest := by
  unfold scanSign at h
  split at h
  · cases h
    rfl
  · cases h
    rfl

theorem exists_exponentSign {negative : Bool} (h : scanExponentSign cs = (negative, rest)) :
    ∃ sign, cs = exponentSignChars sign ++ rest ∧ sign.getD false = negative := by
  unfold scanExponentSign at h
  split at h
  · cases h
    exact ⟨some true, rfl, rfl⟩
  · cases h
    exact ⟨some false, rfl, rfl⟩
  · cases h
    exact ⟨none, rfl, rfl⟩

theorem exists_fraction {digits : List Char} (h : scanFraction cs = .ok (digits, rest)) :
    ∃ f, cs = fractionChars f ++ rest ∧ (f.map Digits.chars).getD [] = digits := by
  unfold scanFraction at h
  split at h
  · obtain ⟨u, hu, h⟩ := Outcome.bind_eq_ok_iff.1 h
    cases h
    obtain ⟨f, hf⟩ := exists_digits hu
    refine ⟨some f, ?_, hf⟩
    show _ = '.' :: (f.chars ++ _)
    rw [hf, List.takeWhile_append_dropWhile]
  · cases h
    exact ⟨none, rfl, rfl⟩

theorem exists_exponent {e : Option (Bool × List Char)} (h : scanExponent cs = .ok (e, rest)) :
    ∃ f, cs = exponentChars f ++ rest ∧ f.map (fun f => (f.sign.getD false, f.digits.chars)) = e := by
  unfold scanExponent at h
  split at h
  · cases h
    exact ⟨none, rfl, rfl⟩
  rename_i c cs
  split at h
  · rename_i hc
    generalize hs : scanExponentSign cs = signed at h
    obtain ⟨negative, cs'⟩ := signed
    obtain ⟨sign, rfl, rfl⟩ := exists_exponentSign hs
    obtain ⟨u, hu, h⟩ := Outcome.bind_eq_ok_iff.1 h
    cases h
    obtain ⟨digits, hd⟩ := exists_digits hu
    have hmark : (if decide (c = 'E') then 'E' else 'e') = c := by
      rcases hc with rfl | rfl <;> rfl
    refine ⟨some ⟨decide (c = 'E'), sign, digits⟩, ?_, ?_⟩
    · show _ = (if decide (c = 'E') then 'E' else 'e') :: (exponentSignChars sign ++ digits.chars ++ _)
      rw [hmark, hd, List.append_assoc, List.takeWhile_append_dropWhile]
    · rw [Option.map_some, hd]
  · cases h
    exact ⟨none, rfl, rfl⟩

theorem leading_of_hasLeadingZero {digits : List Char} (h : hasLeadingZero digits = false) :
    digits.head? = some '0' → digits = ['0'] := by
  intro hhead
  obtain ⟨more, rfl⟩ := List.head?_eq_some_iff.1 hhead
  cases more with
  | nil => rfl
  | cons d more => cases h

/-- **A numeral is read from a form only.** -/
theorem exists_form_of_scanNumeral {n : Numeral} (h : scanNumeral cs = .ok (n, rest)) :
    ∃ form : NumeralForm, form.numeral = n ∧ cs = form.chars ++ rest := by
  unfold scanNumeral at h
  generalize hs : scanSign cs = signed at h
  obtain ⟨negative, body⟩ := signed
  obtain rfl := eq_of_scanSign hs
  obtain ⟨u, hu, h⟩ := Outcome.bind_eq_ok_iff.1 h
  obtain ⟨whole, hw⟩ := exists_digits hu
  cases hz : hasLeadingZero (body.takeWhile Char.isDigit) with
  | true =>
    rw [hz] at h
    cases h
  | false =>
    rw [hz] at h
    obtain ⟨⟨fraction, cs'⟩, hf, h⟩ := Outcome.bind_eq_ok_iff.1 h
    obtain ⟨⟨exponent, cs''⟩, he, h⟩ := Outcome.bind_eq_ok_iff.1 h
    cases h
    obtain ⟨f, hcs', rfl⟩ := exists_fraction hf
    obtain ⟨e, hcs'', rfl⟩ := exists_exponent he
    have hbody : body = whole.chars ++ (fractionChars f ++ (exponentChars e ++ rest)) := by
      rw [← hcs'', ← hcs', hw, List.takeWhile_append_dropWhile]
    refine ⟨⟨negative, whole, leading_of_hasLeadingZero (hw ▸ hz), f, e⟩, ?_, ?_⟩
    · exact congrArg (fun digits => Numeral.mk negative digits _ _) hw
    · refine (congrArg ((if negative then ['-'] else []) ++ ·) hbody).trans ?_
      simp only [NumeralForm.chars, List.append_assoc]

/-! ## lexemes -/

theorem eq_of_scanWord {word : List Char} (h : scanWord word cs = .ok rest) : cs = word ++ rest := by
  induction word generalizing cs with
  | nil =>
    cases h
    rfl
  | cons w word ih =>
    cases cs with
    | nil => cases h
    | cons c cs =>
      rw [scanWord] at h
      split at h
      · rename_i hc
        rw [hc, ih h]
        rfl
      · cases h

/-- the characters of a lexeme -/
inductive Lexeme.IsWritten : Lexeme → List Char → Prop
  | openArray : IsWritten .openArray ['[']
  | closeArray : IsWritten .closeArray [']']
  | openObject : IsWritten .openObject ['\x7b']
  | closeObject : IsWritten .closeObject ['\x7d']
  | comma : IsWritten .comma [',']
  | colon : IsWritten .colon [':']
  | null : IsWritten .null "null".toList
  | yes : IsWritten (.bool true) "true".toList
  | no : IsWritten (.bool false) "false".toList
  | number (form : NumeralForm) : IsWritten (.number form.numeral) form.chars
  | text (letters : List Letter) : IsWritten (.text (spelled letters)) (quoted letters)

theorem isWritten_of_mark? {c : Char} {l : Lexeme} (h : mark? c = some l) : l.IsWritten [c] := by
  unfold mark? at h
  split at h
  · cases h
    exact .openArray
  · cases h
    exact .closeArray
  · cases h
    exact .openObject
  · cases h
    exact .closeObject
  · cases h
    exact .comma
  · cases h
    exact .colon
  · cases h

theorem isWritten_of_word? {c : Char} {l : Lexeme} {letters : List Char} (h : word? c = some (l, letters)) :
    l.IsWritten (c :: letters) := by
  unfold word? at h
  split at h
  · cases h
    exact .null
  · cases h
    exact .yes
  · cases h
    exact .no
  · cases h

/-- a lexeme that ends a text early -/
inductive Lexeme.IsTorn : Lexeme → Prop
  | unreadable (reading skipping : Fault) : IsTorn (.unreadable reading skipping)
  | text (pieces : List Piece) (fault : Fault) : IsTorn (.text ⟨pieces, some fault⟩)

/-- a text as its lexemes with blanks between them, up to one that may be torn -/
inductive Scanned : List Char → List Lexeme → Prop
  | blanks (b : Blanks) : Scanned b.chars []
  | cons (b : Blanks) {l : Lexeme} {w rest : List Char} {ls : List Lexeme} :
      l.IsWritten w → Scanned rest ls → Scanned (b.chars ++ (w ++ rest)) (l :: ls)
  | torn {l : Lexeme} (cs : List Char) : l.IsTorn → Scanned cs [l]

theorem Scanned.blank {c : Char} {ls : List Lexeme} (hc : Text.isSpace c = true) (h : Scanned cs ls) :
    Scanned (c :: cs) ls := by
  have hmem : c ∈ [' ', '\t', '\n', '\r'] := by
    simp only [Text.isSpace, Bool.or_eq_true, beq_iff_eq] at hc
    rcases hc with ((rfl | rfl) | rfl) | rfl <;> simp
  cases h with
  | blanks b => exact .blanks ⟨c :: b.chars, List.forall_mem_cons.2 ⟨hmem, b.isBlank_of_mem⟩⟩
  | cons b hl hrest => exact .cons ⟨c :: b.chars, List.forall_mem_cons.2 ⟨hmem, b.isBlank_of_mem⟩⟩ hl hrest
  | torn _ hl => exact .torn _ hl

/-- **A text is its lexemes with blanks between them**, as far as they are not torn. -/
theorem scanned_scan (cs : List Char) : Scanned cs (Lexeme.scan cs) := by
  fun_induction Lexeme.scan cs with
  | case1 => exact .blanks {}
  | case2 c rest hc ih => exact ih.blank hc
  | case3 c rest _ mark hm ih => exact .cons {} (isWritten_of_mark? hm) ih
  | case4 rest _ _ ih =>
    rcases closes rest with ⟨letters, after, rfl, hs⟩ | ⟨pieces, fault, hs⟩
    · rw [hs] at ih ⊢
      have h := Scanned.cons {} (.text letters) ih
      simp only [quoted, List.cons_append, List.append_assoc, List.nil_append] at h
      exact h
    · rw [hs, Lexeme.scan]
      exact .torn _ (.text pieces fault)
  | case5 c cs _ _ _ l letters hw rest hrest ih =>
    obtain rfl := eq_of_scanWord hrest
    exact .cons {} (isWritten_of_word? hw) ih
  | case6 => exact .torn _ (.unreadable _ _)
  | case7 c cs _ _ _ _ _ n rest hn ih =>
    obtain ⟨form, rfl, hcs⟩ := exists_form_of_scanNumeral hn
    rw [hcs]
    exact .cons {} (.number form) ih
  | case8 => exact .torn _ (.unreadable _ _)
  | case9 => exact .torn _ (.unreadable _ _)

end BearerCredentials.Json
