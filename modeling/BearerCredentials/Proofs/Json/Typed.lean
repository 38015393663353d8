import BearerCredentials.Json.Shape
import BearerCredentials.Proofs.Claims.Read
import BearerCredentials.Proofs.Json.Members

/-!
# Values of a wanted shape

Where a text is read as a value of some shape, reading it for that shape gives the same.

* `ReadFrom`, `readFrom_of_ofOutline`                     the outlines that are read as a value;
* `readText_of_ofOutline`, …, `readTextObject_of_ofOutline`   reading for a shape;
* `skip_of_readText`, …, `skip_of_readBool`               what is read for a shape can be passed over.
-/

namespace BearerCredentials.Json

/-- an outline that is read as a value, by the shape of the value -/
inductive ReadFrom : Outline → Json → Prop
  | null : ReadFrom .null .null
  | bool (b : Bool) : ReadFrom (.bool b) (.bool b)
  | number {numeral : Numeral} {n : Number} : numeral.value = .ok n → ReadFrom (.number numeral) (.number n)
  | text {s : Spelled} {t : String} : s.text = .ok t → ReadFrom (.text s) (.text t)
  | array {depth : Nat} {items : List Outline} {vs : List Json} :
      itemsOfOutlines depth items = .ok vs → ReadFrom (.array items none) (.array vs)
  | object {depth : Nat} {fields : List (Spelled × Outline)} {members : List (String × Json)} :
      membersOfOutlines depth fields = .ok members → ReadFrom (.object fields none) (.object members)

variable {depth : Nat} {o : Outline}

theorem readFrom_of_ofOutline {v : Json} (h : ofOutline depth o = .ok v) : ReadFrom o v := by
  cases o with
  | null =>
    cases h
    exact .null
  | bool b =>
    cases h
    exact .bool b
  | number numeral =>
    obtain ⟨n, hn, rfl⟩ := Outcome.map_eq_ok_iff.1 h
    exact .number hn
  | text s =>
    obtain ⟨t, ht, rfl⟩ := Outcome.map_eq_ok_iff.1 h
    exact .text ht
  | broken reading skipping => cases h
  | array items tear =>
    cases depth with
    | zero => cases h
    | succ depth =>
      obtain ⟨vs, hvs, h⟩ := Outcome.bind_eq_ok_iff.1 h
      obtain ⟨rfl, rfl⟩ := closed_eq_ok_iff.1 h
      exact .array hvs
  | object fields tear =>
    cases depth with
    | zero => cases h
    | succ depth =>
      obtain ⟨ms, hms, h⟩ := Outcome.bind_eq_ok_iff.1 h
      obtain ⟨rfl, rfl⟩ := closed_eq_ok_iff.1 h
      exact .object hms

theorem readText_of_ofOutline {t : String} (h : ofOutline depth o = .ok (.text t)) : o.readText = .ok t := by
  cases readFrom_of_ofOutline h with
  | text ht => exact ht

theorem readBool_of_ofOutline {b : Bool} (h : ofOutline depth o = .ok (.bool b)) : o.readBool = .ok b := by
  cases readFrom_of_ofOutline h with
  | bool => rfl

theorem readNatural_of_ofOutline {n : Number} {k : Nat} (h : ofOutline depth o = .ok (.number n))
    (hk : n.natural? = some k) : o.readNatural = .ok (UInt64.ofNat k) := by
  cases readFrom_of_ofOutline h with
  | number hn =>
    refine Outcome.bind_eq_ok_iff.2 ⟨n, hn, ?_⟩
    simp only [hk]
    rfl

theorem readOptionalText_of_null (h : ofOutline depth o = .ok .null) : o.readOptionalText = .ok none := by
  cases readFrom_of_ofOutline h with
  | null => rfl

theorem readOptionalText_of_text {t : String} (h : ofOutline depth o = .ok (.text t)) :
    o.readOptionalText = .ok (some t) := by
  cases readFrom_of_ofOutline h with
  | text ht =>
    rw [Outline.readOptionalText, ht]
    rfl

theorem textItems_of_itemsOfOutlines {items : List Outline} {ts : List String}
    (h : itemsOfOutlines depth items = .ok (ts.map .text)) : Outline.textItems items = .ok ts := by
  induction items generalizing ts with
  | nil =>
    cases ts with
    | nil => rfl
    | cons t ts => cases h
  | cons o items ih =>
    obtain ⟨v, hv, h⟩ := Outcome.bind_eq_ok_iff.1 h
    obtain ⟨vs, hvs, h⟩ := Outcome.bind_eq_ok_iff.1 h
    cases ts with
    | nil => cases h
    | cons t ts =>
      cases h
      rw [Outline.textItems, readText_of_ofOutline hv, ih hvs]
      rfl

theorem readTexts_of_ofOutline {ts : List String} (h : ofOutline depth o = .ok (.array (ts.map .text))) :
    o.readTexts = .ok ts := by
  cases readFrom_of_ofOutline h with
  | array hitems =>
    rw [Outline.readTexts, textItems_of_itemsOfOutlines hitems]
    rfl

theorem textMembers_of_membersOfOutlines {fields : List (Spelled × Outline)} {ms : List (String × String)}
    (h : membersOfOutlines depth fields = .ok (ms.map fun m => (m.1, .text m.2))) :
    Outline.textMembers fields = .ok ms := by
  induction fields generalizing ms with
  | nil =>
    cases ms with
    | nil => rfl
    | cons m ms => cases h
  | cons field fields ih =>
    obtain ⟨name, o⟩ := field
    obtain ⟨x, hx, h⟩ := Outcome.bind_eq_ok_iff.1 h
    obtain ⟨v, hv, h⟩ := Outcome.bind_eq_ok_iff.1 h
    obtain ⟨vs, hvs, h⟩ := Outcome.bind_eq_ok_iff.1 h
    cases ms with
    | nil => cases h
    | cons m ms =>
      cases h
      rw [Outline.textMembers, hx, readText_of_ofOutline hv, ih hvs]
      rfl

theorem readTextObject_of_ofOutline {ms : List (String × String)}
    (h : ofOutline depth o = .ok (.object (ms.map fun m => (m.1, .text m.2)))) : o.readTextObject = .ok ms := by
  cases readFrom_of_ofOutline h with
  | object hmembers =>
    rw [Outline.readTextObject, textMembers_of_membersOfOutlines hmembers]
    rfl

/-! ## passing over what is read -/

theorem skip_of_readText {t : String} (h : o.readText = .ok t) : o.skip = .ok () := by
  cases o with
  | text s => exact closed_eq_ok_iff.2 ⟨tear_of_text h, rfl⟩
  | _ => cases h

theorem skip_of_readOptionalText {t : Option String} (h : o.readOptionalText = .ok t) : o.skip = .ok () := by
  cases o with
  | null => rfl
  | text s =>
    obtain ⟨t, ht, -⟩ := Outcome.map_eq_ok_iff.1 h
    exact closed_eq_ok_iff.2 ⟨tear_of_text ht, rfl⟩
  | _ => cases h

theorem skip_of_readNatural {n : UInt64} (h : o.readNatural = .ok n) : o.skip = .ok () := by
  cases o with
  | number numeral => rfl
  | _ => cases h

theorem skip_of_readBool {b : Bool} (h : o.readBool = .ok b) : o.skip = .ok () := by
  cases o with
  | bool b => rfl
  | _ => cases h

end BearerCredentials.Json
