import BearerCredentials.Proofs.Claims.Read
import BearerCredentials.Proofs.Json.Phrase

/-!
# Written values are read

* `quoted_letters`, `text_letters`   a text is written in letters that spell it;
* `exists_numeralForm`               a whole number is written as a numeral of that value;
* `exists_phrase`                    in a layout of blanks a value is written as a phrase that is read as the value;
* `read_compact`, `read_pretty`      so both layouts are read back.
-/

namespace BearerCredentials.Json

/-! ## strings -/

theorem chars_ofChar (c : Char) : (Letter.ofChar c).chars = escape c := by
  unfold Letter.ofChar escape
  repeat' split
  all_goals rfl

theorem piece_ofChar (c : Char) : (Letter.ofChar c).piece = pieceOf c := by
  unfold Letter.ofChar
  repeat' split
  all_goals simp [Letter.piece, ShortEscape.char, pieceOf, Nat.div_add_mod', *]

/-- **The letters of a text are what it is written as.** -/
theorem quoted_letters (s : String) : quoted (letters s) = spell s := by
  rw [quoted, letters, spell, List.flatMap_map]
  congr
  exact funext chars_ofChar

theorem text_letters (s : String) : (spelled (letters s)).text = .ok s := by
  rw [spelled, letters, List.map_map, show Letter.piece ∘ Letter.ofChar = pieceOf from funext piece_ofChar,
    text_spelled]

/-! ## whole numbers -/

theorem le_ofDigitChars (digits : List Char) (n : Nat) : n ≤ Nat.ofDigitChars 10 digits n := by
  induction digits generalizing n with
  | nil => exact Nat.le_refl n
  | cons d digits ih =>
    have h := ih (10 * n + (d.toNat - '0'.toNat))
    rw [Nat.ofDigitChars_cons]
    omega

/-- digits are taken into the significand to the end where their number fits -/
theorem absorb_of_lt {digits : List Char} {s : Nat} (h : Nat.ofDigitChars 10 digits s < UInt64.size) :
    Numeral.absorb s digits = (Nat.ofDigitChars 10 digits s, []) := by
  induction digits generalizing s with
  | nil => rfl
  | cons d digits ih =>
    rw [Nat.ofDigitChars_cons] at h ⊢
    have hs : s * 10 + Numeral.digit d = 10 * s + (d.toNat - '0'.toNat) := by
      rw [Numeral.digit, Nat.mul_comm]
    have hlt := Nat.lt_of_le_of_lt (le_ofDigitChars digits _) h
    simp only [Numeral.absorb, hs, if_pos hlt]
    exact ih h

/-- a number is written without a zero at its start -/
theorem toDigits_leading (n : Nat) : (Nat.toDigits 10 n).head? = some '0' → Nat.toDigits 10 n = ['0'] := by
  induction n using Nat.strongRecOn with
  | ind n ih =>
    by_cases hn : n < 10
    · rw [Nat.toDigits_of_lt_base hn]
      intro h
      rw [Option.some.inj h]
    · have hle : 10 ≤ n := Nat.le_of_not_lt hn
      have hlt : n / 10 < n := Nat.div_lt_self (by omega) (by decide)
      rw [Nat.toDigits_of_base_le (by decide) hle]
      intro h
      have hhead : (Nat.toDigits 10 (n / 10)).head? = some '0' := by
        obtain ⟨c, cs, e⟩ := List.exists_cons_of_ne_nil (Nat.toDigits_ne_nil (n := n / 10) (b := 10))
        rw [e] at h ⊢
        exact h
      have hzero := congrArg (fun digits => Nat.ofDigitChars 10 digits 0) (ih (n / 10) hlt hhead)
      simp only [Nat.ofDigitChars_toDigits (b := 10) (n := n / 10) (by decide) (by decide)] at hzero
      have hnil : Nat.ofDigitChars 10 ['0'] 0 = 0 := by decide
      omega

theorem value?_of_integer? {n : Numeral} {i : Int} (h : n.integer? = some i) (low : -9223372036854775808 ≤ i)
    (high : i < 18446744073709551616) : n.value? = some (.integer i low high) := by
  unfold Numeral.value?
  simp only [h]
  exact dif_pos ⟨low, high⟩

theorem exists_numeralForm (i : Int) (low : -9223372036854775808 ≤ i) (high : i < 18446744073709551616) :
    ∃ n : NumeralForm, n.chars = Number.render (.integer i low high) ∧
      n.numeral.value? = some (.integer i low high) := by
  have hsize : UInt64.size = 18446744073709551616 := rfl
  have hvalue : Nat.ofDigitChars 10 (Nat.toDigits 10 i.natAbs) 0 = i.natAbs :=
    Nat.ofDigitChars_toDigits (by decide) (by decide)
  have habsorb : Numeral.absorb 0 (Nat.toDigits 10 i.natAbs) = (i.natAbs, []) := by
    rw [absorb_of_lt (by rw [hvalue]; omega), hvalue]
  have hinteger : Numeral.integer? ⟨decide (i < 0), Nat.toDigits 10 i.natAbs, [], none⟩ = some i := by
    simp only [Numeral.integer?, List.isEmpty_nil, Option.isNone_none, Bool.and_self, if_true, habsorb,
      decide_eq_true_eq]
    by_cases hi : i < 0
    · rw [if_pos hi, if_neg (by omega)]
      congr 1
      omega
    · rw [if_neg hi]
      congr 1
      omega
  refine ⟨⟨decide (i < 0), ⟨Nat.toDigits 10 i.natAbs, Nat.toDigits_ne_nil, fun c hc =>
    Nat.isDigit_of_mem_toDigits (by decide) (by decide) hc⟩, toDigits_leading _, none, none⟩, ?_, ?_⟩
  · simp only [NumeralForm.chars, Number.render, fractionChars, exponentChars, List.append_nil, decide_eq_true_eq]
    split <;> rfl
  · exact value?_of_integer? hinteger low high

/-! ## values -/

/-- a layout that puts nothing but blanks between the parts of a value -/
structure Layout.IsBlank (l : Layout) : Prop where
  lineStart : ∀ level, ∀ c ∈ l.lineStart level, c ∈ [' ', '\t', '\n', '\r']
  afterColon : ∀ c ∈ l.afterColon, c ∈ [' ', '\t', '\n', '\r']

theorem isBlank_compact : Layout.compact.IsBlank := ⟨nofun, nofun⟩

theorem isBlank_pretty : Layout.pretty.IsBlank := by
  refine ⟨fun level c hc => ?_, by simp [Layout.pretty]⟩
  rcases List.mem_cons.1 hc with rfl | hc
  · decide
  · rw [List.eq_of_mem_replicate hc]
    decide

mutual

/-- how many arrays and objects are nested -/
def depth : Json → Nat
  | .array items => depthItems items + 1
  | .object members => depthMembers members + 1
  | _ => 0

def depthItems : List Json → Nat
  | [] => 0
  | v :: rest => max (depth v) (depthItems rest)

def depthMembers : List (String × Json) → Nat
  | [] => 0
  | (_, v) :: rest => max (depth v) (depthMembers rest)

end

mutual

/-- no number is held as a floating point number -/
def Exact : Json → Prop
  | .number (.float _) => False
  | .array items => ExactItems items
  | .object members => ExactMembers members
  | _ => True

def ExactItems : List Json → Prop
  | [] => True
  | v :: rest => Exact v ∧ ExactItems rest

def ExactMembers : List (String × Json) → Prop
  | [] => True
  | (_, v) :: rest => Exact v ∧ ExactMembers rest

end

theorem separated_start (start x : List Char) (more : List (List Char)) :
    start ++ separated (',' :: start) (x :: more) = separated [','] ((x :: more).map (start ++ ·)) := by
  rw [List.map_cons, separated_cons, separated_cons, List.flatMap_map, ← List.append_assoc]
  rfl

/-- what is enclosed, as items that stand between blanks -/
theorem enclose_eq (l : Layout) (level : Nat) (opening closing : Char) {items : List (List Char)} (hne : items ≠ []) :
    l.enclose level opening closing items =
      opening :: separated [','] (items.map (l.lineStart (level + 1) ++ ·)) ++ l.lineStart level ++ [closing] := by
  obtain ⟨x, more, rfl⟩ := List.exists_cons_of_ne_nil hne
  rw [← separated_start]
  rfl

/-- the blanks at the start of a line at a level -/
def Layout.IsBlank.line {l : Layout} (hl : l.IsBlank) (level : Nat) : Blanks :=
  ⟨l.lineStart level, hl.lineStart level⟩

/-- an item on a line of its own -/
def Layout.IsBlank.item {l : Layout} (hl : l.IsBlank) (level : Nat) (after : Blanks) (p : Phrase) : Padded Phrase :=
  ⟨hl.line level, p, after⟩

/-- a member on a line of its own -/
def Layout.IsBlank.member {l : Layout} (hl : l.IsBlank) (level : Nat) (after : Blanks) (m : List Letter × Phrase) :
    Member :=
  (⟨hl.line level, m.1, after⟩, ⟨⟨l.afterColon, hl.afterColon⟩, m.2, after⟩)

theorem exists_arrayPhrase {l : Layout} (hl : l.IsBlank) (level : Nat) {vs : List Json} {ps : List Phrase}
    (hchars : ps.map Phrase.chars = renderItems l (level + 1) vs)
    (hread : ∀ d, depthItems vs ≤ d → itemsOfOutlines d (ps.map Phrase.outline) = .ok vs) :
    ∃ p : Phrase, p.chars = render l level (.array vs) ∧
      ∀ d, depth (.array vs) ≤ d → ofOutline d p.outline = .ok (.array vs) := by
  have hout (items : List (Padded Phrase)) (stop : Blanks) (he : items.map Padded.value = ps) (d : Nat)
      (hd : depth (.array vs) ≤ d) : ofOutline d (Phrase.outline (.array items stop)) = .ok (.array vs) := by
    obtain ⟨d, rfl⟩ := Nat.exists_eq_add_of_le' (Nat.le_trans (Nat.succ_le_succ (Nat.zero_le _)) hd)
    have hitems : itemOutlines items = ps.map Phrase.outline := by
      rw [itemOutlines_eq_map, ← he, List.map_map]
      rfl
    rw [Phrase.outline, ofOutline, hitems, hread d (Nat.le_of_succ_le_succ hd)]
    rfl
  cases ps with
  | nil =>
    refine ⟨.array [] {}, ?_, hout [] {} rfl⟩
    rw [render, ← hchars]
    rfl
  | cons p ps =>
    refine ⟨.array ((p :: ps).map (hl.item (level + 1) {})) (hl.line level), ?_, hout _ _ ?_⟩
    · have hne : (p :: ps).map Phrase.chars ≠ [] := List.cons_ne_nil _ _
      have hitem : (fun i : Padded Phrase => i.around i.value.chars) ∘ hl.item (level + 1) {} =
          (l.lineStart (level + 1) ++ ·) ∘ Phrase.chars := funext fun p => List.append_nil _
      rw [render, ← hchars, enclose_eq l level '[' ']' hne, Phrase.chars, itemTexts_eq_map, List.map_map, List.map_map,
        hitem]
      rfl
    · rw [List.map_map]
      exact List.map_id _

theorem exists_objectPhrase {l : Layout} (hl : l.IsBlank) (level : Nat) {vs : List (String × Json)}
    {ms : List (List Letter × Phrase)}
    (hchars : ms.map (fun m => quoted m.1 ++ ':' :: l.afterColon ++ m.2.chars) = renderMembers l (level + 1) vs)
    (hread : ∀ d, depthMembers vs ≤ d → membersOfOutlines d (ms.map fun m => (spelled m.1, m.2.outline)) = .ok vs) :
    ∃ p : Phrase, p.chars = render l level (.object vs) ∧
      ∀ d, depth (.object vs) ≤ d → ofOutline d p.outline = .ok (.object vs) := by
  have hout (members : List Member) (stop : Blanks) (he : members.map (fun m => (m.1.value, m.2.value)) = ms) (d : Nat)
      (hd : depth (.object vs) ≤ d) : ofOutline d (Phrase.outline (.object members stop)) = .ok (.object vs) := by
    obtain ⟨d, rfl⟩ := Nat.exists_eq_add_of_le' (Nat.le_trans (Nat.succ_le_succ (Nat.zero_le _)) hd)
    have hmembers : memberOutlines members = ms.map fun m => (spelled m.1, m.2.outline) := by
      rw [memberOutlines_eq_map, ← he, List.map_map]
      rfl
    rw [Phrase.outline, ofOutline, hmembers, hread d (Nat.le_of_succ_le_succ hd)]
    rfl
  cases ms with
  | nil =>
    refine ⟨.object [] {}, ?_, hout [] {} rfl⟩
    rw [render, ← hchars]
    rfl
  | cons m ms =>
    refine ⟨.object ((m :: ms).map (hl.member (level + 1) {})) (hl.line level), ?_, hout _ _ ?_⟩
    · have hne : (m :: ms).map (fun m => quoted m.1 ++ ':' :: l.afterColon ++ m.2.chars) ≠ [] := List.cons_ne_nil _ _
      have hmember : (fun m : Member => m.1.around (quoted m.1.value) ++ ':' :: m.2.around m.2.value.chars) ∘
          hl.member (level + 1) {} =
          (l.lineStart (level + 1) ++ ·) ∘ fun m => quoted m.1 ++ ':' :: l.afterColon ++ m.2.chars := by
        funext m
        show l.lineStart (level + 1) ++ quoted m.1 ++ [] ++ ':' :: (l.afterColon ++ m.2.chars ++ []) = _
        simp only [List.append_nil, List.append_assoc, List.cons_append, Function.comp_apply]
      rw [render, ← hchars, enclose_eq l level '\x7b' '\x7d' hne, Phrase.chars, memberTexts_eq_map, List.map_map,
        List.map_map, hmember]
      rfl
    · rw [List.map_map]
      exact List.map_id _

mutual

/-- **In a layout of blanks a value is written as a phrase**, which is read as the value. -/
theorem exists_phrase {l : Layout} (hl : l.IsBlank) : ∀ (v : Json) (level : Nat), v.Exact →
    ∃ p : Phrase, p.chars = render l level v ∧ ∀ d, v.depth ≤ d → ofOutline d p.outline = .ok v
  | .null, _, _ => ⟨.null, rfl, fun _ _ => rfl⟩
  | .bool true, _, _ => ⟨.bool true, rfl, fun _ _ => rfl⟩
  | .bool false, _, _ => ⟨.bool false, rfl, fun _ _ => rfl⟩
  | .number (.integer i low high), _, _ => by
    obtain ⟨n, hchars, hvalue⟩ := exists_numeralForm i low high
    refine ⟨.number n, hchars, fun d _ => ?_⟩
    rw [Phrase.outline, ofOutline, Numeral.value, hvalue]
    rfl
  | .text s, _, _ => by
    refine ⟨.text (letters s), quoted_letters s, fun d _ => ?_⟩
    rw [Phrase.outline, ofOutline, text_letters]
    rfl
  | .array items, level, h => by
    obtain ⟨ps, hchars, hread⟩ := exists_phrases hl items (level + 1) h
    exact exists_arrayPhrase hl level hchars hread
  | .object members, level, h => by
    obtain ⟨ms, hchars, hread⟩ := exists_memberPhrases hl members (level + 1) h
    exact exists_objectPhrase hl level hchars hread

/-- items that stand at a level are written as phrases -/
theorem exists_phrases {l : Layout} (hl : l.IsBlank) : ∀ (vs : List Json) (level : Nat), ExactItems vs →
    ∃ ps : List Phrase, ps.map Phrase.chars = renderItems l level vs ∧
      ∀ d, depthItems vs ≤ d → itemsOfOutlines d (ps.map Phrase.outline) = .ok vs
  | [], _, _ => ⟨[], rfl, fun _ _ => rfl⟩
  | v :: vs, level, h => by
    obtain ⟨p, hchars, hread⟩ := exists_phrase hl v level h.1
    obtain ⟨ps, hchars', hread'⟩ := exists_phrases hl vs level h.2
    refine ⟨p :: ps, by rw [List.map_cons, hchars, hchars', renderItems], fun d hd => ?_⟩
    have hd' := Nat.max_le.1 hd
    rw [List.map_cons, itemsOfOutlines, hread d hd'.1, hread' d hd'.2]
    rfl

theorem exists_memberPhrases {l : Layout} (hl : l.IsBlank) : ∀ (vs : List (String × Json)) (level : Nat),
    ExactMembers vs → ∃ ms : List (List Letter × Phrase),
      ms.map (fun m => quoted m.1 ++ ':' :: l.afterColon ++ m.2.chars) = renderMembers l level vs ∧
        ∀ d, depthMembers vs ≤ d → membersOfOutlines d (ms.map fun m => (spelled m.1, m.2.outline)) = .ok vs
  | [], _, _ => ⟨[], rfl, fun _ _ => rfl⟩
  | (name, v) :: vs, level, h => by
    obtain ⟨p, hchars, hread⟩ := exists_phrase hl v level h.1
    obtain ⟨ms, hchars', hread'⟩ := exists_memberPhrases hl vs level h.2
    refine ⟨(letters name, p) :: ms, by rw [List.map_cons, quoted_letters, hchars, hchars', renderMembers],
      fun d hd => ?_⟩
    have hd' := Nat.max_le.1 hd
    rw [List.map_cons, membersOfOutlines, text_letters, hread d hd'.1, hread' d hd'.2]
    rfl

end

/-- **What is written in a layout of blanks is read back**, with blanks around it. -/
theorem read_render {l : Layout} (hl : l.IsBlank) {v : Json} (he : v.Exact) (hd : v.depth ≤ maxDepth)
    (before after : Blanks) : read (String.ofList (before.chars ++ render l 0 v ++ after.chars)) = .ok v := by
  obtain ⟨p, hchars, hread⟩ := exists_phrase hl v 0 he
  have htext := ofText_text ⟨before, p, after⟩
  rw [Padded.text, Padded.around, hchars] at htext
  exact Outline.Document.read_eq_ok_iff.2 ⟨by rw [htext]; exact hread maxDepth hd, by rw [htext]⟩

theorem read_compact {v : Json} (he : v.Exact) (hd : v.depth ≤ maxDepth) : read v.compact = .ok v := by
  have h := read_render isBlank_compact he hd {} {}
  rw [List.append_nil] at h
  exact h

theorem read_pretty {v : Json} (he : v.Exact) (hd : v.depth ≤ maxDepth) : read v.pretty = .ok v := by
  have h := read_render isBlank_pretty he hd {} {}
  rw [List.append_nil] at h
  exact h

/-- a line ends after the value -/
theorem read_pretty_newline {v : Json} (he : v.Exact) (hd : v.depth ≤ maxDepth) : read (v.pretty ++ "\n") = .ok v := by
  have h := read_render isBlank_pretty he hd {} ⟨['\n'], by simp⟩
  rw [String.ofList_append] at h
  exact h

end BearerCredentials.Json
