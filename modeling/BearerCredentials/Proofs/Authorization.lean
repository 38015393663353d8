import BearerCredentials.Proofs.Authorization.Grammar
import BearerCredentials.Proofs.Http.Visible

/-!
# The token in an Authorization header

* `Carries`                     a value is the token itself, or the scheme, blanks and the token;
* `carries_of_parse`            what is found in a value is carried by it;
* `parse_trim`                  what trimming changes;
* `ofHeaders_eq_ok_iff`         only the first such header is looked at;
* `exists_bearer_headers`       a token can be sent after the scheme, and arrives.
-/

namespace BearerCredentials.Authorization

/-- how a value carries a token once the blanks around it are gone -/
def Carries (requireScheme : Bool) (value token : String) : Prop :=
  (requireScheme = false ∧ Text.trim value = token) ∨
    ∃ blanks, Text.allBlank blanks = true ∧ Text.trim value = bearerScheme ++ blanks ++ token

variable {requireScheme : Bool} {value token : String}

/-! ## what is found in a value -/

/-- after the scheme a value goes on with blanks and the token -/
theorem trimsTo_of_scheme {u rest : String} (he : u = bearerScheme ++ rest) (ht : Text.TrimsTo rest token)
    (hne : token ≠ "") :
    ∃ blanks, Text.allBlank blanks = true ∧ Text.TrimsTo u (bearerScheme ++ blanks ++ token) := by
  obtain ⟨⟨blanks, after, hb, ha, rfl⟩, htoken⟩ := ht
  refine ⟨blanks, hb, ⟨"", after, rfl, ha, ?_⟩, ?_⟩
  · rw [he, String.empty_append]
    simp only [String.append_assoc]
  · rw [String.toList_append, String.toList_append]
    show Text.Trimmed ('B' :: ("earer ".toList ++ blanks.toList) ++ token.toList)
    exact .append (by decide) htoken (mt String.toList_eq_nil_iff.1 hne)

/-- **What is found in a value is carried by it.** -/
theorem carries_of_parse (h : parse requireScheme value = .ok token) : Carries requireScheme value token := by
  cases (parse_eq_iff_form (Text.trimsStartTo_trimStart value)).1 h with
  | afterScheme he ht hne =>
    obtain ⟨blanks, hb, ht'⟩ := trimsTo_of_scheme he ht hne
    exact Or.inr ⟨blanks, hb, by rw [← Text.trim_trimStart, ht'.trim_eq]⟩
  | bareToken hne hs hr ht hb => exact Or.inl ⟨hr, by rw [← Text.trim_trimStart, ht.trim_eq]⟩

/-- the causes why no token is found -/
theorem parse_eq_error {denial : Denial} (h : parse requireScheme value = .error denial) :
    (∃ fault, denial = .authorization fault) ∨ denial = .token .malformed := by
  cases (parse_eq_iff_form (Text.trimsStartTo_trimStart value)).1 h with
  | bareScheme => exact Or.inr rfl
  | nothing | noScheme | severalWords => exact Or.inl ⟨_, rfl⟩

/-! ## values that have been trimmed -/

/-- nothing but blanks after the scheme -/
theorem trim_of_bare_scheme {rest : String} (h : Text.trimStart value = bearerScheme ++ rest)
    (hrest : Text.trim rest = "") : Text.trim value = "Bearer" := by
  have hblank : Text.allBlank (" " ++ rest) = true := by
    rw [Text.allBlank, String.toList_append, List.all_append]
    exact Bool.and_eq_true_iff.2 ⟨rfl, (Text.trim_eq_empty_iff rest).1 hrest⟩
  have ht : Text.TrimsTo (Text.trimStart value) "Bearer" := by
    refine ⟨⟨"", " " ++ rest, rfl, hblank, ?_⟩, .of_no_blank (Text.not_blank_of_all (by decide))⟩
    rw [h, String.empty_append, ← String.append_assoc]
    rfl
  rw [← Text.trim_trimStart, ht.trim_eq]

/-- **A value that is trimmed has the same token**, except that the scheme without a token is no longer
seen as a scheme. -/
theorem parse_trim (requireScheme : Bool) (value : String) :
    parse requireScheme (Text.trim value) = parse requireScheme value ∨
      (Text.trim value = "Bearer" ∧ parse requireScheme value = .error (.token .malformed)) := by
  obtain ⟨post, -, hpost⟩ := Text.exists_trimStart value
  by_cases he : Text.trimStart value = ""
  · have ht : Text.trim value = "" := (String.append_eq_empty_iff.1 (hpost.symm.trans he)).1
    left
    rw [parse_of_blank he, parse_of_blank ((Text.trimStart_trim value).trans ht)]
  by_cases hs : ∃ rest, Text.trimStart value = bearerScheme ++ rest
  · obtain ⟨rest, hr⟩ := hs
    by_cases hne : Text.trim rest = ""
    · right
      exact ⟨trim_of_bare_scheme hr hne, by rw [parse_of_scheme hr, if_pos hne]⟩
    · obtain ⟨blanks, hblanks, ht⟩ := trimsTo_of_scheme hr (Text.trimsTo_trim rest) hne
      have htrim : Text.trim (blanks ++ Text.trim rest ++ "") = Text.trim (Text.trim rest) :=
        Text.trim_between hblanks rfl _
      rw [String.append_empty, Text.trim_trim] at htrim
      have hstart : Text.trimStart (Text.trim value) = bearerScheme ++ (blanks ++ Text.trim rest) := by
        rw [Text.trimStart_trim, ← Text.trim_trimStart, ht.trim_eq, String.append_assoc]
      left
      rw [parse_of_scheme hr, parse_of_scheme hstart, htrim]
  · have hno : ∀ rest, Text.trimStart value ≠ bearerScheme ++ rest := fun rest hr => hs ⟨rest, hr⟩
    have hne : Text.trimStart (Text.trim value) ≠ "" := by
      rw [Text.trimStart_trim]
      intro e
      apply he
      rw [Text.trimStart, (Text.allBlank_iff value).1 ((Text.trim_eq_empty_iff value).1 e), String.ofList_nil]
    have hno' : ∀ rest, Text.trimStart (Text.trim value) ≠ bearerScheme ++ rest := by
      intro rest hr
      rw [Text.trimStart_trim] at hr
      exact hno (rest ++ post) (by rw [hpost, hr, String.append_assoc])
    left
    rw [parse_of_no_scheme he hno, parse_of_no_scheme hne hno', Text.trimEnd_trimStart, Text.trimEnd_trimStart,
      Text.trim_trim]

/-! ## headers -/

/-- the first header of the name decides, if all of its value is visible -/
theorem ofHeaders_eq_ok_iff {headers : Http.Headers} :
    ofHeaders requireScheme headers = .ok token ↔
      ∃ value text, headers.first? headerName = some value ∧ Http.visible? value = some text ∧
        parse requireScheme text = .ok token := by
  unfold ofHeaders
  cases headers.first? headerName with
  | none => simp
  | some value =>
    cases hv : Http.visible? value with
    | none => simp [hv]
    | some text => simp [hv]

theorem ofHeaders_eq_error {headers : Http.Headers} {denial : Denial}
    (h : ofHeaders requireScheme headers = .error denial) :
    (∃ fault, denial = .authorization fault) ∨ denial = .token .malformed := by
  unfold ofHeaders at h
  split at h
  · cases h
    exact Or.inl ⟨_, rfl⟩
  split at h
  · cases h
    exact Or.inl ⟨_, rfl⟩
  · exact parse_eq_error h

theorem ofHeaders_of_invisible {headers : Http.Headers} {bytes : Bytes} (requireScheme : Bool)
    (h : headers.first? headerName = some bytes) (hv : Http.visible? bytes = none) :
    ofHeaders requireScheme headers = .error (.authorization .unreadable) := by
  unfold ofHeaders
  rw [h]
  simp only [hv]

theorem isVisibleText_bearerScheme : Http.IsVisibleText bearerScheme := by decide +kernel

/-- what stands after the scheme is found without the blanks around it -/
theorem ofHeaders_of_scheme {headers : Http.Headers} {rest : String} (requireScheme : Bool)
    (h : headers.first? headerName = some (utf8 (bearerScheme ++ rest))) (hv : Http.IsVisibleText rest)
    (hne : Text.trim rest ≠ "") : ofHeaders requireScheme headers = .ok (Text.trim rest) := by
  refine ofHeaders_eq_ok_iff.2 ⟨_, _, h, Http.visible?_utf8 (isVisibleText_bearerScheme.append hv), ?_⟩
  rw [parse_of_scheme (trimStart_bearerScheme_append rest), if_neg hne]

/-- a request with one Authorization header -/
theorem exists_headers {value : Bytes} (hv : Http.isValue value = true) :
    ∃ headers, Http.Headers.ofList [(headerName, value)] = .ok headers ∧
      headers.first? headerName = some value := by
  have hname : Http.isName headerName = true := by decide
  have hsame : Http.sameName headerName headerName = true := by decide
  refine ⟨_, Http.ofList_singleton hname hv, ?_⟩
  simp only [Http.Headers.first?, List.find?_cons, hsame, Option.map_some]

/-- **A token of visible characters can be sent after the scheme, and arrives.** -/
theorem exists_bearer_headers (requireScheme : Bool) (hv : Http.IsVisibleText token)
    (ht : Text.Trimmed token.toList) (hne : token ≠ "") :
    ∃ headers, Http.Headers.ofList [(headerName, utf8 (bearerScheme ++ token))] = .ok headers ∧
      ofHeaders requireScheme headers = .ok token := by
  have hs : Http.IsVisibleText (bearerScheme ++ token) := isVisibleText_bearerScheme.append hv
  obtain ⟨headers, hlist, hfirst⟩ := exists_headers (Http.isValue_utf8 hs)
  refine ⟨headers, hlist, ofHeaders_eq_ok_iff.2 ⟨_, _, hfirst, Http.visible?_utf8 hs, ?_⟩⟩
  exact parse_bearerScheme_append requireScheme ht hne

end BearerCredentials.Authorization
