import BearerCredentials.Proofs.Base64.Symbols
import BearerCredentials.Proofs.Http.Visible
import BearerCredentials.Proofs.Text.Pieces
import BearerCredentials.Proofs.Text.Trim
import BearerCredentials.Token

/-!
# The segments of a token

* `ofText?_eq_some_iff`            a text is a token where it has two points;
* `segmentBytes?_eq_some_iff`      a segment is read exactly where it is the one written for some bytes;
* `segmentMembers?_eq_some_iff`    the same for the text of an object;
* `OfSymbols`                      a token of symbols, which has two points and can be sent.
-/

namespace BearerCredentials.Token

theorem toList_text (t : Token) :
    t.text.toList = t.header.toList ++ '.' :: (t.payload.toList ++ '.' :: t.signature.toList) := by
  have hpoint : ".".toList = ['.'] := rfl
  simp only [text, String.toList_append, hpoint, List.append_assoc, List.cons_append,
    List.nil_append]

/-- **A text is a token where it has two points.** -/
theorem ofText?_eq_some_iff {s : String} {t : Token} :
    ofText? s = some t ↔ s = t.text ∧ ¬ '.' ∈ t.header.toList ∧ ¬ '.' ∈ t.payload.toList ∧
      ¬ '.' ∈ t.signature.toList := by
  constructor
  · intro h
    unfold ofText? at h
    split at h
    · rename_i header payload signature e
      obtain rfl := Option.some.inj h
      obtain ⟨hs, hh, hp, hsig⟩ := Text.splitOn_eq_three_iff.1 (Text.split_eq_iff.1 e)
      refine ⟨?_, hh, hp, hsig⟩
      apply String.toList_injective
      rw [toList_text, hs]
    · cases h
  · rintro ⟨rfl, hh, hp, hs⟩
    exact ofText?_text hh hp hs

theorem ofText?_injective {s s' : String} {t : Token} (h : ofText? s = some t) (h' : ofText? s' = some t) :
    s = s' := by
  rw [(ofText?_eq_some_iff.1 h).1, (ofText?_eq_some_iff.1 h').1]

/-- **A segment is read exactly where it is the one that is written for some bytes.** -/
theorem segmentBytes?_eq_some_iff {s : String} {bytes : Bytes} :
    segmentBytes? s = some bytes ↔ s = segment bytes := by
  constructor
  · intro h
    apply String.toList_injective
    rw [segment, String.toList_ofList]
    exact (Base64.decode_eq_some_iff .url).1 h
  · rintro rfl
    exact segmentBytes?_segment bytes

theorem segmentMembers?_eq_some_iff {s : String} {members : Members} :
    segmentMembers? s = some members ↔
      ∃ text, s = segment (utf8 text) ∧ Json.read text = .ok (.object members) := by
  constructor
  · intro h
    obtain ⟨bytes, hb, h⟩ := Option.bind_eq_some_iff.1 h
    obtain ⟨text, ht, h⟩ := Option.bind_eq_some_iff.1 h
    refine ⟨text, ofUtf8?_eq_some_iff.1 ht ▸ segmentBytes?_eq_some_iff.1 hb, ?_⟩
    clear hb ht
    split at h
    · rename_i hr
      obtain rfl := Option.some.inj h
      exact hr
    · cases h
  · rintro ⟨text, rfl, h⟩
    simp only [segmentMembers?, segmentBytes?_segment, ofUtf8?_utf8, Option.bind_eq_bind,
      Option.bind_some, h]

theorem isUrlSymbol_of_segment {s : String} {bytes : Bytes} (h : segmentBytes? s = some bytes) :
    ∀ c ∈ s.toList, Base64.IsUrlSymbol c :=
  Base64.isUrlSymbol_of_mem h

/-! ## tokens of symbols -/

/-- a token whose segments hold nothing but symbols -/
structure OfSymbols (t : Token) : Prop where
  header : ∀ c ∈ t.header.toList, Base64.IsUrlSymbol c
  payload : ∀ c ∈ t.payload.toList, Base64.IsUrlSymbol c
  signature : ∀ c ∈ t.signature.toList, Base64.IsUrlSymbol c

namespace OfSymbols

variable {t : Token}

theorem of_bytes {header payload signature : Bytes} (hh : segmentBytes? t.header = some header)
    (hp : segmentBytes? t.payload = some payload) (hs : segmentBytes? t.signature = some signature) :
    t.OfSymbols :=
  ⟨isUrlSymbol_of_segment hh, isUrlSymbol_of_segment hp, isUrlSymbol_of_segment hs⟩

theorem point_notMem {s : String} (h : ∀ c ∈ s.toList, Base64.IsUrlSymbol c) : ¬ '.' ∈ s.toList :=
  fun hm => (h _ hm).ne_point rfl

theorem ofText?_text (h : t.OfSymbols) : ofText? t.text = some t :=
  Token.ofText?_text (point_notMem h.header) (point_notMem h.payload) (point_notMem h.signature)

theorem count_point_text (h : t.OfSymbols) : t.text.toList.count '.' = 2 := by
  rw [toList_text, List.count_append, List.count_cons_self, List.count_append, List.count_cons_self,
    List.count_eq_zero.2 (point_notMem h.header), List.count_eq_zero.2 (point_notMem h.payload),
    List.count_eq_zero.2 (point_notMem h.signature)]

theorem mem_text (h : t.OfSymbols) : ∀ c ∈ t.text.toList, c = '.' ∨ Base64.IsUrlSymbol c := by
  intro c hc
  rw [toList_text] at hc
  rcases List.mem_append.1 hc with hc | hc
  · exact Or.inr (h.header c hc)
  rcases List.mem_cons.1 hc with rfl | hc
  · exact Or.inl rfl
  rcases List.mem_append.1 hc with hc | hc
  · exact Or.inr (h.payload c hc)
  rcases List.mem_cons.1 hc with rfl | hc
  · exact Or.inl rfl
  · exact Or.inr (h.signature c hc)

theorem isVisible_of_isUrlSymbol : ∀ n : Fin 128, Base64.IsUrlSymbol (Char.ofNat n) →
    Http.isVisible (UInt8.ofNat (Char.ofNat n).toNat) = true := by decide

theorem isVisibleText (h : t.OfSymbols) : Http.IsVisibleText t.text := by
  intro c hc
  rcases h.mem_text c hc with rfl | hc
  · decide
  · have hv := isVisible_of_isUrlSymbol ⟨c.toNat, hc.toNat_lt⟩
    rw [Char.ofNat_toNat] at hv
    exact ⟨hv hc, hc.toNat_lt⟩

theorem trimmed_text (h : t.OfSymbols) : Text.Trimmed t.text.toList := by
  refine Text.Trimmed.of_no_blank fun c hc => ?_
  rcases h.mem_text c hc with rfl | hc
  · decide
  · exact hc.not_blank

end OfSymbols

theorem text_ne_empty (t : Token) : t.text ≠ "" := by
  intro e
  have hl := congrArg String.toList e
  rw [toList_text] at hl
  exact absurd (List.append_eq_nil_iff.1 hl).2 (by simp)

end BearerCredentials.Token
