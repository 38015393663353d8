import BearerCredentials.Json.Scalar
import BearerCredentials.Proofs.Text.Pieces
import BearerCredentials.Text.Rendering
import Mathlib.Data.List.Forall2

/-!
# Renderings can be read

* `Writes`, `writes_escapeChar`   the three ways in which a character is written between quotes;
* `Writes.readChar?_eq`           so a written character is read back, whatever follows;
* `quote_append_inj`              a quoted text can be told from what follows it;
* `Discernible`                   two texts that can be told apart in a field, whatever fields follow;
* `renderRecord_inj`              a record shows the texts of its fields if these are discernible;
* `isWord_toString`, `isWord_renderBool`   numbers and truth values are, as quoted texts are.
-/

namespace BearerCredentials.Text

/-! ## written characters -/

/-- what stands for a character after a backslash -/
def shortEscapes : List (Char × Char) :=
  [('0', '\x00'), ('t', '\t'), ('n', '\n'), ('r', '\r'), ('"', '"'), ('\\', '\\')]

/-- how a character is written between quotes -/
inductive Writes : Char → List Char → Prop
  | short {mark c : Char} : (mark, c) ∈ shortEscapes → Writes c ['\\', mark]
  | number (c : Char) : Writes c (codePoint c)
  | plain {c : Char} : c ≠ '"' → c ≠ '\\' → Writes c [c]

theorem writes_escapeChar (c : Char) : Writes c (escapeChar c) := by
  unfold escapeChar
  -- the characters with an escape of their own
  iterate 6
    split
    · subst_vars
      exact .short (by decide)
  split
  · exact .number c
  · rename_i hq hb _
    exact .plain hq hb

/-- the number of some hexadecimal digits -/
def hexValue (digits : List Char) : Nat :=
  digits.foldl (fun n c => 16 * n + (Json.hexDigit? c).getD 0) 0

/-- the first character of a written text, and what is left of the text -/
def readChar? : List Char → Option (Char × List Char)
  | '\\' :: 'u' :: '\x7b' :: cs =>
    some (.ofNat (hexValue (cs.takeWhile (· != '\x7d'))), (cs.dropWhile (· != '\x7d')).drop 1)
  | '\\' :: mark :: cs => (shortEscapes.lookup mark).map fun c => (c, cs)
  | c :: cs => some (c, cs)
  | [] => none

/-- the hexadecimal digits of a number, as numbers -/
theorem exists_hexDigits (n : Nat) : ∃ digits : List (Fin 16),
    Nat.toDigits 16 n = digits.map (fun d => Nat.digitChar d.1) ∧ digits.foldl (fun n d => 16 * n + d.1) 0 = n := by
  induction n using Nat.strongRecOn with
  | ind n ih =>
    by_cases hn : n < 16
    · refine ⟨[⟨n, hn⟩], Nat.toDigits_of_lt_base hn, ?_⟩
      show 16 * 0 + n = n
      omega
    · obtain ⟨digits, hdigits, hvalue⟩ := ih (n / 16) (by omega)
      refine ⟨digits ++ [⟨n % 16, by omega⟩], ?_, ?_⟩
      · rw [Nat.toDigits_of_base_le (by decide) (Nat.le_of_not_lt hn), hdigits, List.map_append]
        rfl
      · rw [List.foldl_append, hvalue]
        show 16 * (n / 16) + n % 16 = n
        omega

theorem hexValue_toDigits (n : Nat) : hexValue (Nat.toDigits 16 n) = n := by
  obtain ⟨digits, hdigits, hvalue⟩ := exists_hexDigits n
  rw [hdigits, hexValue, List.foldl_map]
  simp only [Json.hexDigit?_digitChar, Option.getD_some]
  exact hvalue

theorem brace_notMem_toDigits (n : Nat) : '\x7d' ∉ Nat.toDigits 16 n := by
  have hne : ∀ d : Fin 16, Nat.digitChar d ≠ '\x7d' := by decide
  obtain ⟨digits, hdigits, -⟩ := exists_hexDigits n
  rw [hdigits]
  intro hm
  obtain ⟨d, -, hd⟩ := List.mem_map.1 hm
  exact hne d hd

theorem readChar?_short {mark c : Char} (h : (mark, c) ∈ shortEscapes) (cs : List Char) :
    readChar? ('\\' :: mark :: cs) = some (c, cs) := by
  simp only [shortEscapes, List.mem_cons, Prod.mk.injEq, List.not_mem_nil, or_false] at h
  obtain ⟨rfl, rfl⟩ | ⟨rfl, rfl⟩ | ⟨rfl, rfl⟩ | ⟨rfl, rfl⟩ | ⟨rfl, rfl⟩ | ⟨rfl, rfl⟩ := h <;> rfl

/-- the number of a character is over at the closing brace, which is no digit -/
theorem readChar?_codePoint (c : Char) (cs : List Char) : readChar? (codePoint c ++ cs) = some (c, cs) := by
  have hform : codePoint c ++ cs = '\\' :: 'u' :: '\x7b' :: (Nat.toDigits 16 c.toNat ++ '\x7d' :: cs) := by
    simp [codePoint]
  obtain ⟨htake, hdrop⟩ := takeWhile_append_mark (brace_notMem_toDigits c.toNat) cs
  rw [hform, readChar?, htake, hdrop, hexValue_toDigits, Char.ofNat_toNat]
  rfl

theorem readChar?_plain {c : Char} (hc : c ≠ '\\') (cs : List Char) : readChar? (c :: cs) = some (c, cs) := by
  rw [readChar?]
  · exact fun _ e _ => hc e
  · exact fun _ _ e _ => hc e

variable {c d : Char} {written : List Char} {r r' : List Char}

/-- **A written character is read back**, whatever follows. -/
theorem Writes.readChar?_eq (h : Writes c written) (cs : List Char) : readChar? (written ++ cs) = some (c, cs) := by
  cases h with
  | short h => exact readChar?_short h cs
  | number => exact readChar?_codePoint c cs
  | plain _ hb => exact readChar?_plain hb cs

/-- no written character begins with a quote -/
theorem Writes.append_ne (h : Writes c written) : written ++ r ≠ '"' :: r' := by
  intro e
  cases h with
  | short => exact absurd (List.cons.inj e).1 (by decide)
  | number => exact absurd (List.cons.inj e).1 (by decide)
  | plain hq _ => exact hq (List.cons.inj e).1

theorem escapeChar_append_inj (h : escapeChar c ++ r = escapeChar d ++ r') : c = d ∧ r = r' := by
  have hread := (writes_escapeChar c).readChar?_eq r
  rw [h, (writes_escapeChar d).readChar?_eq r'] at hread
  obtain ⟨rfl, rfl⟩ := Prod.mk.inj (Option.some.inj hread)
  exact ⟨rfl, rfl⟩

/-- the closing quote is found, since no character is written as something that begins with it -/
theorem escaped_append_inj {cs ds : List Char}
    (h : cs.flatMap escapeChar ++ '"' :: r = ds.flatMap escapeChar ++ '"' :: r') : cs = ds ∧ r = r' := by
  induction cs generalizing ds with
  | nil =>
    cases ds with
    | nil => exact ⟨rfl, (List.cons.inj h).2⟩
    | cons d ds =>
      rw [List.flatMap_cons, List.append_assoc] at h
      exact absurd h.symm (writes_escapeChar d).append_ne
  | cons c cs ih =>
    rw [List.flatMap_cons, List.append_assoc] at h
    cases ds with
    | nil => exact absurd h (writes_escapeChar c).append_ne
    | cons d ds =>
      rw [List.flatMap_cons, List.append_assoc] at h
      obtain ⟨hc, hrest⟩ := escapeChar_append_inj h
      obtain ⟨hcs, hr⟩ := ih hrest
      exact ⟨by rw [hc, hcs], hr⟩

/-- **A quoted text can be told from what follows it.** -/
theorem quote_append_inj {s t : String} (h : (quote s).toList ++ r = (quote t).toList ++ r') : s = t ∧ r = r' := by
  have hform (s : String) (r : List Char) :
      (quote s).toList ++ r = '"' :: (s.toList.flatMap escapeChar ++ '"' :: r) := by
    simp [quote]
  rw [hform, hform] at h
  obtain ⟨hst, hr⟩ := escaped_append_inj (List.cons.inj h).2
  exact ⟨String.toList_injective hst, hr⟩

theorem quote_inj {s t : String} : quote s = quote t ↔ s = t := by
  refine ⟨fun h => ?_, congrArg quote⟩
  have happend : (quote s).toList ++ [] = (quote t).toList ++ [] := by rw [h]
  exact (quote_append_inj happend).1

/-! ## fields of a record -/

/-- what can stand after the text of a field: a further field or the end of the record -/
def EndsField (r : List Char) : Prop := r.head? = some ',' ∨ r.head? = some ' '

/-- two texts that can be told apart in a field, whatever fields follow -/
def Discernible (x y : String) : Prop :=
  ∀ r r', EndsField r → EndsField r' → x.toList ++ r = y.toList ++ r' → x = y

theorem discernible_quote (s t : String) : Discernible (quote s) (quote t) := by
  intro r r' _ _ h
  rw [(quote_append_inj h).1]

/-- a text without a character that can stand after it -/
def IsWord (x : String) : Prop := ∀ c ∈ x.toList, c ≠ ',' ∧ c ≠ ' '

theorem isWord_of_all {x : String} (h : (x.toList.all fun c => c != ',' && c != ' ') = true) : IsWord x := by
  intro c hc
  have hchar := List.all_eq_true.1 h c hc
  rwa [Bool.and_eq_true, bne_iff_ne, bne_iff_ne] at hchar

theorem IsWord.discernible {x y : String} (hx : IsWord x) (hy : IsWord y) : Discernible x y := by
  have hword {x : String} (hx : IsWord x) : ∀ c ∈ x.toList, (c != ',' && c != ' ') = true := by
    intro c hc
    rw [Bool.and_eq_true, bne_iff_ne, bne_iff_ne]
    exact hx c hc
  have hend {r : List Char} (hr : EndsField r) : ∀ c, r.head? = some c → (c != ',' && c != ' ') = false := by
    intro c hc
    rcases hr with hr | hr
    all_goals
      rw [hc] at hr
      cases hr
      decide
  intro r r' hr hr' h
  apply String.toList_injective
  rw [← (takeWhile_append_of_stop (hword hx) (hend hr)).1, h, (takeWhile_append_of_stop (hword hy) (hend hr')).1]

/-- a text that is over where a character first occurs in it -/
def ClosesWith (close : Char) (x : String) : Prop := ∃ cs, close ∉ cs ∧ x.toList = cs ++ [close]

theorem closesWith_of_dropLast {close : Char} {x : String} (hn : close ∉ x.toList.dropLast)
    (hl : x.toList.getLast? = some close) : ClosesWith close x :=
  ⟨x.toList.dropLast, hn, (List.dropLast_append_getLast? close hl).symm⟩

theorem ClosesWith.discernible {close : Char} {x y : String} (hx : ClosesWith close x) (hy : ClosesWith close y) :
    Discernible x y := by
  obtain ⟨cs, hcs, ex⟩ := hx
  obtain ⟨ds, hds, ey⟩ := hy
  intro r r' _ _ h
  rw [ex, ey, List.append_assoc, List.append_assoc, List.singleton_append, List.singleton_append] at h
  have hcd : cs = ds := by rw [← (takeWhile_append_mark hcs r).1, h, (takeWhile_append_mark hds r').1]
  apply String.toList_injective
  rw [ex, ey, hcd]

/-! ## records -/

theorem intercalate_cons_eq {α : Type} (sep x : List α) (xs : List (List α)) :
    sep.intercalate (x :: xs) = x ++ xs.flatMap (sep ++ ·) := by
  induction xs generalizing x with
  | nil => rw [List.intercalate_singleton, List.flatMap_nil, List.append_nil]
  | cons y ys ih => rw [List.intercalate_cons_cons, ih, List.flatMap_cons, List.append_assoc, List.append_assoc]

/-- the characters of a field -/
def fieldChars (f : String × String) : List Char := f.1.toList ++ [':', ' '] ++ f.2.toList

/-- what stands after a field: the further ones and the end of the record -/
def afterField (fields : List (String × String)) : List Char :=
  fields.flatMap (fun f => [',', ' '] ++ fieldChars f) ++ [' ', '\x7d']

theorem afterField_cons (f : String × String) (fields : List (String × String)) :
    afterField (f :: fields) =
      [',', ' '] ++ (f.1.toList ++ ([':', ' '] ++ (f.2.toList ++ afterField fields))) := by
  rw [afterField, afterField, List.flatMap_cons, fieldChars]
  simp only [List.append_assoc]

theorem endsField_afterField (fields : List (String × String)) : EndsField (afterField fields) := by
  cases fields with
  | nil => exact Or.inr rfl
  | cons f fields => exact Or.inl rfl

theorem toList_renderRecord (name : String) (f : String × String) (fields : List (String × String)) :
    (renderRecord name (f :: fields)).toList =
      name.toList ++ ([' ', '\x7b', ' '] ++ (f.1.toList ++ ([':', ' '] ++ (f.2.toList ++ afterField fields)))) := by
  have hfield : (String.toList ∘ fun f : String × String => f.1 ++ ": " ++ f.2) = fieldChars := by
    funext f
    rw [Function.comp_apply, String.toList_append, String.toList_append]
    rfl
  have hsep : ", ".toList = [',', ' '] := rfl
  have hopening : " \x7b ".toList = [' ', '\x7b', ' '] := rfl
  have hclosing : " \x7d".toList = [' ', '\x7d'] := rfl
  rw [renderRecord, String.toList_append, String.toList_append, String.toList_append, String.toList_intercalate,
    List.map_map, hfield, hsep, hopening, hclosing, List.map_cons, intercalate_cons_eq, List.flatMap_map, fieldChars,
    afterField]
  simp only [List.append_assoc]

/-- two fields of one name whose texts can be told apart -/
def SameField (f f' : String × String) : Prop := f.1 = f'.1 ∧ Discernible f.2 f'.2

/-- a field and what follows it can be told from another one of its name -/
theorem field_append_inj {f f' : String × String} {fields fields' : List (String × String)} (hf : SameField f f')
    (h : f.1.toList ++ ([':', ' '] ++ (f.2.toList ++ afterField fields)) =
      f'.1.toList ++ ([':', ' '] ++ (f'.2.toList ++ afterField fields'))) :
    f = f' ∧ afterField fields = afterField fields' := by
  obtain ⟨hname, htext⟩ := hf
  rw [hname] at h
  have h := List.append_cancel_left (List.append_cancel_left h)
  have heq := htext _ _ (endsField_afterField fields) (endsField_afterField fields') h
  rw [heq] at h
  exact ⟨Prod.ext hname heq, List.append_cancel_left h⟩

theorem afterField_inj {fields fields' : List (String × String)} (hf : List.Forall₂ SameField fields fields')
    (h : afterField fields = afterField fields') : fields = fields' := by
  induction hf with
  | nil => rfl
  | cons hf _ ih =>
    rw [afterField_cons, afterField_cons] at h
    obtain ⟨rfl, hrest⟩ := field_append_inj hf (List.append_cancel_left h)
    rw [ih hrest]

/-- **A record shows the texts of its fields** if they can be told from others in their places. -/
theorem renderRecord_inj {name : String} {fields fields' : List (String × String)}
    (hf : List.Forall₂ SameField fields fields') (h : renderRecord name fields = renderRecord name fields') :
    fields = fields' := by
  cases hf with
  | nil => rfl
  | cons hf hfields =>
    have h := congrArg String.toList h
    rw [toList_renderRecord, toList_renderRecord] at h
    obtain ⟨rfl, hrest⟩ := field_append_inj hf (List.append_cancel_left (List.append_cancel_left h))
    rw [afterField_inj hfields hrest]

theorem renderRecord_one_inj {name field x y : String} :
    renderRecord name [(field, x)] = renderRecord name [(field, y)] ↔ x = y := by
  refine ⟨fun h => ?_, fun h => by rw [h]⟩
  have h := congrArg String.toList h
  rw [toList_renderRecord, toList_renderRecord] at h
  have htexts := List.append_cancel_left (List.append_cancel_left (List.append_cancel_left (List.append_cancel_left h)))
  exact String.toList_injective (List.append_cancel_right htexts)

/-! ## words -/

theorem isWord_renderBool (b : Bool) : IsWord (renderBool b) := by
  cases b <;> exact isWord_of_all (by decide)

theorem renderBool_inj {b b' : Bool} : renderBool b = renderBool b' ↔ b = b' := by
  cases b <;> cases b' <;> decide

theorem toList_toString (n : UInt64) : (toString n).toList = Nat.toDigits 10 n.toNat := String.toList_ofList

theorem isWord_toString (n : UInt64) : IsWord (toString n) := by
  intro c hc
  rw [toList_toString] at hc
  have hdigit : c.isDigit = true := Nat.isDigit_of_mem_toDigits (by decide) (by decide) hc
  constructor
  · rintro rfl
    exact absurd hdigit (by decide)
  · rintro rfl
    exact absurd hdigit (by decide)

theorem toString_inj {m n : UInt64} : toString m = toString n ↔ m = n := by
  refine ⟨fun h => ?_, fun h => by rw [h]⟩
  have hdigits : Nat.toDigits 10 m.toNat = Nat.toDigits 10 n.toNat := by
    rw [← toList_toString, h, toList_toString]
  apply UInt64.toNat_inj.1
  rw [← Nat.ofDigitChars_ten_toDigits (n := m.toNat), hdigits, Nat.ofDigitChars_ten_toDigits]

end BearerCredentials.Text
