import BearerCredentials.Http.Headers

/-!
# Texts that may be sent as header values

* `IsVisibleText`        only visible ASCII characters, spaces and tabs;
* `isValue_utf8`         the bytes of such a text are a header value;
* `visible?_utf8`        and the text is what they are read as;
* `visible?_eq_some_iff` nothing else is read.
-/

namespace BearerCredentials.Http

/-- only visible ASCII characters, spaces and tabs -/
def IsVisibleText (s : String) : Prop :=
  ∀ c ∈ s.toList, isVisible (UInt8.ofNat c.toNat) = true ∧ c.toNat < 128

instance (s : String) : Decidable (IsVisibleText s) := List.decidableBAll _ _

theorem IsVisibleText.append {s s' : String} (h : IsVisibleText s) (h' : IsVisibleText s') :
    IsVisibleText (s ++ s') := by
  intro c hc
  rw [String.toList_append] at hc
  rcases List.mem_append.1 hc with hc | hc
  · exact h c hc
  · exact h' c hc

theorem utf8EncodeChar_ascii {c : Char} (h : c.toNat < 128) :
    String.utf8EncodeChar c = [UInt8.ofNat c.toNat] := by
  have hc : c.val.toNat ≤ 127 := Nat.le_of_lt_succ h
  simp only [String.utf8EncodeChar, hc, if_true]
  rfl

theorem utf8_of_visible {s : String} (h : IsVisibleText s) :
    utf8 s = s.toList.map fun c => UInt8.ofNat c.toNat := by
  unfold IsVisibleText at h
  unfold utf8
  generalize s.toList = cs at h
  induction cs with
  | nil => rfl
  | cons c cs ih =>
    have hc := (h c List.mem_cons_self).2
    rw [List.flatMap_cons, utf8EncodeChar_ascii hc, ih fun d hd => h d (List.mem_cons_of_mem _ hd)]
    rfl

/-- visible bytes may be sent -/
theorem isValueByte_of_isVisible {b : UInt8} (h : isVisible b = true) : isValueByte b = true := by
  unfold isVisible at h
  unfold isValueByte
  rw [Bool.or_eq_true, Bool.and_eq_true, decide_eq_true_eq, decide_eq_true_eq] at h
  rcases h with h | ⟨hlow, hhigh⟩
  · rw [h, Bool.true_or]
  · have hne : b ≠ 0x7f := by
      rintro rfl
      exact absurd hhigh (by decide)
    rw [decide_eq_true hlow, bne_iff_ne.2 hne, Bool.and_self, Bool.or_true]

theorem isValue_utf8 {s : String} (h : IsVisibleText s) : isValue (utf8 s) = true := by
  rw [isValue, utf8_of_visible h, List.all_eq_true]
  intro b hb
  obtain ⟨c, hc, rfl⟩ := List.mem_map.1 hb
  exact isValueByte_of_isVisible (h c hc).1

theorem all_isVisible_utf8 {s : String} (h : IsVisibleText s) : (utf8 s).all isVisible = true := by
  rw [utf8_of_visible h, List.all_eq_true]
  intro b hb
  obtain ⟨c, hc, rfl⟩ := List.mem_map.1 hb
  exact (h c hc).1

/-- **The bytes of a text that may be sent are read as that text.** -/
theorem visible?_utf8 {s : String} (h : IsVisibleText s) : visible? (utf8 s) = some s := by
  have hback : (utf8 s).map (fun b => Char.ofNat b.toNat) = s.toList := by
    rw [utf8_of_visible h, List.map_map]
    have hid : ∀ c ∈ s.toList, Char.ofNat (UInt8.ofNat c.toNat).toNat = id c := by
      intro c hc
      have hlt : c.toNat < 2 ^ 8 := Nat.lt_trans (h c hc).2 (by decide)
      rw [UInt8.toNat_ofNat', Nat.mod_eq_of_lt hlt, Char.ofNat_toNat, id]
    exact (List.map_congr_left hid).trans (List.map_id _)
  rw [visible?, if_pos (all_isVisible_utf8 h), hback, String.ofList_toList]

theorem toNat_lt_of_isVisible {b : UInt8} (h : isVisible b = true) : b.toNat < 128 := by
  unfold isVisible at h
  rw [Bool.or_eq_true, Bool.and_eq_true, decide_eq_true_eq, decide_eq_true_eq] at h
  rcases h with h | ⟨-, h⟩
  · rw [eq_of_beq h]
    decide
  · have hle : b.toNat ≤ 126 := UInt8.le_iff_toNat_le.1 h
    omega

theorem toNat_ofNat_of_isVisible {b : UInt8} (h : isVisible b = true) : (Char.ofNat b.toNat).toNat = b.toNat := by
  have hlt := toNat_lt_of_isVisible h
  have hvalid : b.toNat.isValidChar := Or.inl (by omega)
  rw [Char.ofNat, dif_pos hvalid]
  rfl

/-- **A value is read as a text if it holds the bytes of that text, which may be sent.** -/
theorem visible?_eq_some_iff {value : Bytes} {s : String} :
    visible? value = some s ↔ value = utf8 s ∧ IsVisibleText s := by
  constructor
  · intro h
    unfold visible? at h
    split at h
    · rename_i hall
      obtain rfl := Option.some.inj h
      rw [List.all_eq_true] at hall
      have hs : IsVisibleText (String.ofList (value.map fun b => Char.ofNat b.toNat)) := by
        intro c hc
        rw [String.toList_ofList] at hc
        obtain ⟨b, hb, rfl⟩ := List.mem_map.1 hc
        have hv := hall b hb
        rw [toNat_ofNat_of_isVisible hv, UInt8.ofNat_toNat]
        exact ⟨hv, toNat_lt_of_isVisible hv⟩
      refine ⟨?_, hs⟩
      have hid : ∀ b ∈ value, UInt8.ofNat (Char.ofNat b.toNat).toNat = id b := by
        intro b hb
        rw [toNat_ofNat_of_isVisible (hall b hb), UInt8.ofNat_toNat, id]
      rw [utf8_of_visible hs, String.toList_ofList, List.map_map]
      exact ((List.map_congr_left hid).trans (List.map_id _)).symm
    · cases h
  · rintro ⟨rfl, hs⟩
    exact visible?_utf8 hs

/-- a request with one header -/
theorem ofList_singleton {name value : Bytes} (hn : isName name = true) (hv : isValue value = true) :
    Headers.ofList [(name, value)] = .ok [⟨name, value, hn, hv⟩] := by
  rw [Headers.ofList, dif_pos hn, dif_pos hv]
  rfl

end BearerCredentials.Http
