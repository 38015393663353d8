import BearerCredentials.Http.Headers
import BearerCredentials.Proofs.Outcome

/-!
# The first header of a name

* `FirstValue`            the value of the first entry of a list whose name is a given one in small letters;
* `first?_of_firstValue`  the first header of that name has this value, whatever the other entries are;
* `FirstValue.append`     entries that are sent later change nothing.
-/

namespace BearerCredentials.Http

/-- the value of the first entry with a name, written in small letters here, or none where there is no such entry -/
inductive FirstValue (name : Bytes) : List (Bytes × Bytes) → Option Bytes → Prop where
  | nil : FirstValue name [] none
  | here {n value : Bytes} (rest : List (Bytes × Bytes)) :
      n.map lowerByte = name → FirstValue name ((n, value) :: rest) (some value)
  | later {n value : Bytes} {rest : List (Bytes × Bytes)} {found : Option Bytes} :
      n.map lowerByte ≠ name → FirstValue name rest found → FirstValue name ((n, value) :: rest) found

variable {entries : List (Bytes × Bytes)} {headers : Headers} {name value : Bytes} {found : Option Bytes}

theorem ofList_cons_eq_ok_iff :
    Headers.ofList ((name, value) :: entries) = .ok headers ↔
      ∃ h rest, Headers.ofList entries = .ok rest ∧ h.name = name ∧ h.value = value ∧ headers = h :: rest := by
  rw [Headers.ofList]
  constructor
  · intro h
    split at h
    · split at h
      · obtain ⟨rest, hrest, rfl⟩ := Outcome.map_eq_ok_iff.1 h
        exact ⟨_, rest, hrest, rfl, rfl, rfl⟩
      · cases h
    · cases h
  · rintro ⟨⟨n, v, hn, hv⟩, rest, hrest, rfl, rfl, rfl⟩
    rw [dif_pos hn, dif_pos hv, hrest]
    rfl

theorem first?_cons (h : Header) (headers : Headers) (name : Bytes) :
    Headers.first? (h :: headers) name =
      if h.name.map lowerByte = name.map lowerByte then some h.value else headers.first? name := by
  unfold Headers.first?
  rw [List.find?_cons]
  by_cases hn : h.name.map lowerByte = name.map lowerByte
  · have hs : sameName h.name name = true := beq_iff_eq.2 hn
    rw [if_pos hn, hs]
    rfl
  · have hs : sameName h.name name = false := beq_eq_false_iff_ne.2 hn
    rw [if_neg hn, hs]

/-- **The first header of a name has the value of the first entry with it**, in whatever case the names are written. -/
theorem first?_of_firstValue (hlist : Headers.ofList entries = .ok headers)
    (h : FirstValue (name.map lowerByte) entries found) : headers.first? name = found := by
  induction h generalizing headers with
  | nil =>
    cases hlist
    rfl
  | here rest hn =>
    obtain ⟨h, tail, -, rfl, rfl, rfl⟩ := ofList_cons_eq_ok_iff.1 hlist
    rw [first?_cons, if_pos hn]
  | later hn _ ih =>
    obtain ⟨h, tail, htail, rfl, rfl, rfl⟩ := ofList_cons_eq_ok_iff.1 hlist
    rw [first?_cons, if_neg hn, ih htail]

theorem FirstValue.append (h : FirstValue name entries (some value)) (later : List (Bytes × Bytes)) :
    FirstValue name (entries ++ later) (some value) := by
  generalize hf : some value = found at h
  induction h with
  | nil => cases hf
  | here rest hn =>
    rw [List.cons_append]
    exact .here _ hn
  | later hn _ ih => exact .later hn (ih hf)

end BearerCredentials.Http
