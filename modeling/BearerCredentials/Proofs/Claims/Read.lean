import BearerCredentials.Claims
import BearerCredentials.Proofs.NameMap
import BearerCredentials.Proofs.Outcome
import BearerCredentials.Token.Header

/-!
# Reading claims

* `Claims.read_eq_ok_iff`     a text has claims where it is read as an object, and they are its members;
* `Claims.get?_ofMembers`     a claim is the last member of its name, in canonical form.
-/

namespace BearerCredentials

namespace Json

theorem Outline.Document.read_eq_ok_iff {α : Type} {d : Document} {f : Outline → Except Fault α} {a : α} :
    d.read f = .ok a ↔ f d.root = .ok a ∧ d.trailing = false := by
  unfold Outline.Document.read
  rw [Outcome.bind_eq_ok_iff]
  constructor
  · rintro ⟨b, hb, h⟩
    cases ht : d.trailing with
    | true => rw [ht] at h; cases h
    | false =>
      rw [ht] at h
      cases h
      exact ⟨hb, rfl⟩
  · rintro ⟨h, ht⟩
    refine ⟨a, h, ?_⟩
    rw [ht]
    rfl

theorem closed_eq_ok_iff {α : Type} {tear : Option Fault} {a b : α} :
    closed tear a = .ok b ↔ tear = none ∧ a = b := by
  cases tear with
  | none => simp [closed]
  | some f => simp [closed]

/-- what is read from an object is an object -/
theorem exists_of_ofOutline_object {depth : Nat} {members : List (Spelled × Outline)}
    {tear : Option Fault} {v : Json} (h : ofOutline depth (.object members tear) = .ok v) :
    ∃ ms, v = .object ms := by
  cases depth with
  | zero => cases h
  | succ depth =>
    obtain ⟨ms, -, h⟩ := Outcome.bind_eq_ok_iff.1 h
    exact ⟨ms, (closed_eq_ok_iff.1 h).2.symm⟩

/-- an object is read from an object only -/
theorem exists_of_ofOutline_eq_object {depth : Nat} {o : Outline} {ms : List (String × Json)}
    (h : ofOutline depth o = .ok (.object ms)) : ∃ members tear, o = .object members tear := by
  cases o with
  | object members tear => exact ⟨members, tear, rfl⟩
  | null => cases h
  | bool b => cases h
  | number n =>
    obtain ⟨x, -, hx⟩ := Outcome.map_eq_ok_iff.1 h
    cases hx
  | text s =>
    obtain ⟨x, -, hx⟩ := Outcome.map_eq_ok_iff.1 h
    cases hx
  | broken reading skipping => cases h
  | array items tear =>
    cases depth with
    | zero => cases h
    | succ depth =>
      obtain ⟨vs, -, h⟩ := Outcome.bind_eq_ok_iff.1 h
      cases (closed_eq_ok_iff.1 h).2

theorem canonicalMembers_eq_map (members : List (String × Json)) :
    canonicalMembers members = members.map fun m => (m.1, canonical m.2) := by
  induction members with
  | nil => rfl
  | cons m members ih =>
    rw [canonicalMembers, ih]
    rfl

theorem lookup_map_canonical (members : List (String × Json)) (name : String) :
    (members.map fun m => (m.1, canonical m.2)).lookup name = (members.lookup name).map canonical :=
  lookup_map (f := fun x => x) canonical (fun _ _ h => h) members name

end Json

namespace Claims

theorem ofOutline_eq_ok_iff {o : Json.Outline} {claims : Claims} :
    ofOutline o = .ok claims ↔
      ∃ members, Json.ofOutline Json.maxDepth o = .ok (.object members) ∧ claims = ofMembers members := by
  constructor
  · intro h
    cases o with
    | object members tear =>
      obtain ⟨v, hv, h⟩ := Outcome.bind_eq_ok_iff.1 h
      obtain ⟨ms, rfl⟩ := Json.exists_of_ofOutline_object hv
      cases h
      exact ⟨ms, hv, rfl⟩
    | _ => cases h
  · rintro ⟨members, h, rfl⟩
    obtain ⟨ms, tear, rfl⟩ := Json.exists_of_ofOutline_eq_object h
    exact Outcome.bind_eq_ok_iff.2 ⟨_, h, rfl⟩

/-- **A text has claims where it is read as an object, and they are its members.** -/
theorem read_eq_ok_iff {s : String} {claims : Claims} :
    read s = .ok claims ↔ ∃ members, Json.read s = .ok (.object members) ∧ claims = ofMembers members := by
  unfold read Json.read
  rw [Json.Outline.Document.read_eq_ok_iff, ofOutline_eq_ok_iff]
  constructor
  · rintro ⟨⟨members, h, e⟩, ht⟩
    exact ⟨members, Json.Outline.Document.read_eq_ok_iff.2 ⟨h, ht⟩, e⟩
  · rintro ⟨members, h, e⟩
    obtain ⟨h, ht⟩ := Json.Outline.Document.read_eq_ok_iff.1 h
    exact ⟨⟨members, h, e⟩, ht⟩

theorem get?_ofMembers (members : List (String × Json)) (name : String) :
    (ofMembers members).get? name = (members.reverse.lookup name).map Json.canonical := by
  rw [ofMembers, NameMap.get?_ofList, Json.canonicalMembers_eq_map, ← List.map_reverse,
    Json.lookup_map_canonical]

/-- a claim whose name is not repeated is the member of that name -/
theorem get?_ofMembers_of_once {members : List (String × Json)} {name : String}
    (h : Token.occurrences name members ≤ 1) :
    (ofMembers members).get? name = (Token.member? name members).map Json.canonical := by
  rw [get?_ofMembers, lookup_reverse h, Token.member?]

end Claims

end BearerCredentials
