import BearerCredentials.Http.Headers
import BearerCredentials.Proofs.Text.Pieces
import BearerCredentials.Proofs.Text.Trim

/-!
# The grammar of an Authorization header

* `Form`                        what a value without blanks at its start stands for, one case for each way to answer;
* `parse_eq_iff_form`           the reader answers as the grammar does;
* `parse_bearerScheme_append`   a token after the scheme is found, whether the scheme is required or not;
* `parse_exact`                 so a token is read exactly where the grammar has one, it is trimmed, and it is read
                                again after the scheme.
-/

namespace BearerCredentials.Authorization

/-- what a value stands for that has no blanks at its start -/
inductive Form (requireScheme : Bool) (u : String) : Except Denial String → Prop
  | nothing : u = "" → Form requireScheme u (.error (.authorization .missing))
  | bareScheme {rest : String} :
      u = bearerScheme ++ rest → Text.allBlank rest = true → Form requireScheme u (.error (.token .malformed))
  | afterScheme {rest token : String} :
      u = bearerScheme ++ rest → Text.TrimsTo rest token → token ≠ "" → Form requireScheme u (.ok token)
  | bareToken {token : String} :
      u ≠ "" → (∀ rest, u ≠ bearerScheme ++ rest) → requireScheme = false →
      Text.TrimsTo u token → (∀ c ∈ token.toList, Text.isBlank c = false) → Form requireScheme u (.ok token)
  | noScheme :
      u ≠ "" → (∀ rest, u ≠ bearerScheme ++ rest) → requireScheme = true →
      Form requireScheme u (.error (.authorization .unreadable))
  | severalWords {words : String} :
      u ≠ "" → (∀ rest, u ≠ bearerScheme ++ rest) → Text.TrimsTo u words →
      (∃ c ∈ words.toList, Text.isBlank c = true) → Form requireScheme u (.error (.authorization .unreadable))

variable {requireScheme : Bool} {value u token : String} {outcome : Except Denial String}

/-! ## the three branches of the reader -/

theorem parse_of_blank (h : Text.trimStart value = "") :
    parse requireScheme value = .error (.authorization .missing) := by
  have he : (Text.trimStart value).isEmpty = true := String.isEmpty_iff.2 h
  simp only [parse, he, if_true]

theorem parse_of_scheme {rest : String} (h : Text.trimStart value = bearerScheme ++ rest) :
    parse requireScheme value =
      if Text.trim rest = "" then .error (.token .malformed) else .ok (Text.trim rest) := by
  have he : (Text.trimStart value).isEmpty = false := by
    rw [h]
    exact String.isEmpty_eq_false_iff.2 fun e => absurd (String.append_eq_empty_iff.1 e).1 (by decide)
  have hs : Text.stripStart? bearerScheme (Text.trimStart value) = some rest :=
    Text.stripStart?_eq_some_iff.2 h
  simp only [parse, he, hs, Bool.false_eq_true, if_false, String.isEmpty_iff]

theorem parse_of_no_scheme (hne : Text.trimStart value ≠ "")
    (h : ∀ rest, Text.trimStart value ≠ bearerScheme ++ rest) :
    parse requireScheme value =
      if requireScheme || Text.hasBlank (Text.trimEnd (Text.trimStart value)) then
        .error (.authorization .unreadable)
      else .ok (Text.trimEnd (Text.trimStart value)) := by
  have he : (Text.trimStart value).isEmpty = false := String.isEmpty_eq_false_iff.2 hne
  have hs : Text.stripStart? bearerScheme (Text.trimStart value) = none := by
    rw [Option.eq_none_iff_forall_ne_some]
    exact fun rest hr => h rest (Text.stripStart?_eq_some_iff.1 hr)
  simp only [parse, he, hs, Bool.false_eq_true, if_false]

/-! ## the reader and the grammar -/

/-- a value without the scheme is read as its one word -/
theorem parse_of_word (hu : Text.TrimsStartTo value u) (hne : u ≠ "") (hs : ∀ rest, u ≠ bearerScheme ++ rest)
    (ht : Text.TrimsTo u token) :
    parse requireScheme value =
      if requireScheme || Text.hasBlank token then .error (.authorization .unreadable) else .ok token := by
  have hstart := hu.trimStart_eq
  have hend : Text.trimEnd (Text.trimStart value) = token := by
    rw [Text.trimEnd_trimStart, ← Text.trim_trimStart, hstart, ht.trim_eq]
  rw [parse_of_no_scheme (by rwa [hstart]) (by rwa [hstart]), hend]

/-- the reader answers as the grammar does -/
theorem parse_of_form (hu : Text.TrimsStartTo value u) (h : Form requireScheme u outcome) :
    parse requireScheme value = outcome := by
  cases h with
  | nothing he => exact parse_of_blank (hu.trimStart_eq.trans he)
  | bareScheme he hb => rw [parse_of_scheme (hu.trimStart_eq.trans he), if_pos ((Text.trim_eq_empty_iff _).2 hb)]
  | afterScheme he ht hne =>
    rw [parse_of_scheme (hu.trimStart_eq.trans he), ht.trim_eq, if_neg hne]
  | bareToken hne hs hr ht hb =>
    rw [parse_of_word hu hne hs ht, hr, (Text.hasBlank_eq_false_iff _).2 hb]
    rfl
  | noScheme hne hs hr =>
    rw [parse_of_word hu hne hs (Text.trimsTo_trim u), hr]
    rfl
  | severalWords hne hs ht hb =>
    rw [parse_of_word hu hne hs ht, (Text.hasBlank_eq_true_iff _).2 hb, Bool.or_true]
    rfl

/-- the grammar has an answer for every value -/
theorem exists_form (requireScheme : Bool) (u : String) : ∃ outcome, Form requireScheme u outcome := by
  by_cases he : u = ""
  · exact ⟨_, .nothing he⟩
  by_cases hs : ∃ rest, u = bearerScheme ++ rest
  · obtain ⟨rest, hr⟩ := hs
    by_cases hb : Text.trim rest = ""
    · exact ⟨_, .bareScheme hr ((Text.trim_eq_empty_iff rest).1 hb)⟩
    · exact ⟨_, .afterScheme hr (Text.trimsTo_trim rest) hb⟩
  have hno : ∀ rest, u ≠ bearerScheme ++ rest := fun rest hr => hs ⟨rest, hr⟩
  cases hb : Text.hasBlank (Text.trim u) with
  | true => exact ⟨_, .severalWords he hno (Text.trimsTo_trim u) ((Text.hasBlank_eq_true_iff _).1 hb)⟩
  | false =>
    cases requireScheme with
    | true => exact ⟨_, .noScheme he hno rfl⟩
    | false => exact ⟨_, .bareToken he hno rfl (Text.trimsTo_trim u) ((Text.hasBlank_eq_false_iff _).1 hb)⟩

/-- **The reader answers as the grammar does**, and the grammar has no other answer. -/
theorem parse_eq_iff_form (hu : Text.TrimsStartTo value u) :
    parse requireScheme value = outcome ↔ Form requireScheme u outcome := by
  constructor
  · rintro rfl
    obtain ⟨outcome, h⟩ := exists_form requireScheme u
    rwa [parse_of_form hu h]
  · exact parse_of_form hu

/-! ## tokens -/

/-- a token of the grammar is not empty, a stretch of the value, and trimmed -/
theorem Form.token_trimmed (hu : Text.TrimsStartTo value u) (h : Form requireScheme u (.ok token)) :
    token ≠ "" ∧ token.toList <:+: value.toList ∧ Text.Trimmed token.toList := by
  cases h with
  | afterScheme he ht hne =>
    have hrest : token.toList <:+: u.toList := by
      rw [he, String.toList_append]
      exact ht.isInfix.trans (List.suffix_append _ _).isInfix
    exact ⟨hne, hrest.trans hu.isInfix, ht.trimmed⟩
  | bareToken hne hs hr ht hb =>
    refine ⟨?_, ht.isInfix.trans hu.isInfix, ht.trimmed⟩
    rintro rfl
    -- a value of blanks would have been trimmed away
    have hblank : Text.allBlank u = true := (Text.trim_eq_empty_iff u).1 ht.trim_eq
    obtain ⟨c, cs, e⟩ := List.exists_cons_of_ne_nil (mt String.toList_eq_nil_iff.1 hne)
    rw [Text.allBlank, e, List.all_cons, hu.head c (by rw [e]; rfl)] at hblank
    cases hblank

/-- a value that begins with the scheme has no blanks at its start -/
theorem trimStart_bearerScheme_append (rest : String) :
    Text.trimStart (bearerScheme ++ rest) = bearerScheme ++ rest := by
  rw [Text.trimStart, String.toList_append]
  show String.ofList (Text.dropBlanks ('B' :: ("earer ".toList ++ rest.toList))) = _
  rw [Text.dropBlanks_of_not_blank (by decide)]
  apply String.toList_injective
  rw [String.toList_ofList, String.toList_append]
  rfl

/-- **A token after the scheme is found, whether the scheme is required or not.** -/
theorem parse_bearerScheme_append (requireScheme : Bool) (h : Text.Trimmed token.toList) (hne : token ≠ "") :
    parse requireScheme (bearerScheme ++ token) = .ok token := by
  rw [parse_of_scheme (trimStart_bearerScheme_append token), h.trim_eq, if_neg hne]

/-- a token that is read where the scheme is required is read where it is not -/
theorem Form.without_requirement (h : Form requireScheme u (.ok token)) : Form false u (.ok token) := by
  cases h with
  | afterScheme he ht hne => exact .afterScheme he ht hne
  | bareToken hne hs hr ht hb => exact .bareToken hne hs rfl ht hb

/-- **A value is read as the grammar has it.** What is left of it once the blanks at its start are gone is missing if
it is empty; after the scheme it is the trimmed rest, which must not be blank; without the scheme, if none is
required, it is one word. A token that is read is not empty, a stretch of the value, and trimmed; it is also read
where no scheme is required, and it is read again after the scheme. -/
theorem parse_exact (requireScheme : Bool) (value : String) :
    ∃ u, Text.TrimsStartTo value u ∧
      (∀ outcome, parse requireScheme value = outcome ↔ Form requireScheme u outcome) ∧
      ∀ token, parse requireScheme value = .ok token →
        (token ≠ "" ∧ token.toList <:+: value.toList ∧ Text.Trimmed token.toList) ∧
          parse false value = .ok token ∧
            ∀ requireScheme', parse requireScheme' (bearerScheme ++ token) = .ok token := by
  have hu := Text.trimsStartTo_trimStart value
  refine ⟨_, hu, fun outcome => parse_eq_iff_form hu, fun token h => ?_⟩
  have hf : Form requireScheme _ (.ok token) := (parse_eq_iff_form hu).1 h
  have ht := hf.token_trimmed hu
  exact ⟨ht, parse_of_form hu hf.without_requirement, fun r => parse_bearerScheme_append r ht.2.2 ht.1⟩

/-- the scheme twice, between blanks of several kinds: only the first one is taken off -/
theorem parse_exact_nested :
    parse true "\t Bearer \u00a0Bearer a.b.c\u3000" = .ok "Bearer a.b.c" ∧
      parse false "\t Bearer \u00a0Bearer a.b.c\u3000" = .ok "Bearer a.b.c" ∧
        ∀ requireScheme, parse requireScheme (bearerScheme ++ "Bearer a.b.c") = .ok "Bearer a.b.c" := by
  have h : parse true "\t Bearer \u00a0Bearer a.b.c\u3000" = .ok "Bearer a.b.c" := by rfl
  obtain ⟨_, -, -, htoken⟩ := parse_exact true "\t Bearer \u00a0Bearer a.b.c\u3000"
  exact ⟨h, (htoken _ h).2⟩

end BearerCredentials.Authorization
