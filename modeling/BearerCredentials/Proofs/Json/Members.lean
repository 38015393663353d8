import BearerCredentials.Json.Shape
import BearerCredentials.Proofs.Claims.Read
import Mathlib.Data.List.Forall2

/-!
# Members as they are spelled

An object is read member by member, so the names and values of its members and their spellings correspond one
to one.

* `ReadsAs`, `membersOfOutlines_eq_ok_iff`   a spelled member, and the member that it is read as;
* `read_eq_object_iff`                       a text that is read as an object;
* `exists_numeral_of_mem`                    a number among the members is the value of a numeral;
* `skip_of_ofOutline`                        what can be read can be passed over.
-/

namespace BearerCredentials.Json

/-- a spelled member is read as a name and a value -/
def ReadsAs (depth : Nat) (field : Spelled × Outline) (m : String × Json) : Prop :=
  field.1.text = .ok m.1 ∧ ofOutline depth field.2 = .ok m.2

variable {depth : Nat} {fields : List (Spelled × Outline)} {members : List (String × Json)}

/-- **Members are read one by one, in their order.** -/
theorem membersOfOutlines_eq_ok_iff :
    membersOfOutlines depth fields = .ok members ↔ List.Forall₂ (ReadsAs depth) fields members := by
  induction fields generalizing members with
  | nil =>
    rw [List.forall₂_nil_left_iff]
    constructor
    · intro h
      cases h
      rfl
    · rintro rfl
      rfl
  | cons field fields ih =>
    obtain ⟨name, o⟩ := field
    rw [membersOfOutlines, List.forall₂_cons_left_iff]
    constructor
    · intro h
      obtain ⟨x, hx, h⟩ := Outcome.bind_eq_ok_iff.1 h
      obtain ⟨v, hv, h⟩ := Outcome.bind_eq_ok_iff.1 h
      obtain ⟨rest, hrest, h⟩ := Outcome.bind_eq_ok_iff.1 h
      cases h
      exact ⟨(x, v), rest, ⟨hx, hv⟩, ih.1 hrest, rfl⟩
    · rintro ⟨⟨x, v⟩, rest, ⟨hx, hv⟩, hrest, rfl⟩
      refine Outcome.bind_eq_ok_iff.2 ⟨x, hx, ?_⟩
      refine Outcome.bind_eq_ok_iff.2 ⟨v, hv, ?_⟩
      exact Outcome.bind_eq_ok_iff.2 ⟨rest, ih.2 hrest, rfl⟩

theorem ofOutline_object_eq_ok_iff {tear : Option Fault} :
    ofOutline maxDepth (.object fields tear) = .ok (.object members) ↔
      tear = none ∧ List.Forall₂ (ReadsAs (maxDepth - 1)) fields members := by
  show (membersOfOutlines (maxDepth - 1) fields >>= fun ms => closed tear (Json.object ms)) = _ ↔ _
  rw [Outcome.bind_eq_ok_iff]
  constructor
  · rintro ⟨ms, hms, h⟩
    obtain ⟨ht, he⟩ := closed_eq_ok_iff.1 h
    cases he
    exact ⟨ht, membersOfOutlines_eq_ok_iff.1 hms⟩
  · rintro ⟨ht, h⟩
    exact ⟨members, membersOfOutlines_eq_ok_iff.2 h, closed_eq_ok_iff.2 ⟨ht, rfl⟩⟩

/-- **A text is read as an object where it spells one and nothing else.** -/
theorem read_eq_object_iff {s : String} :
    read s = .ok (.object members) ↔
      ∃ fields, Outline.ofText s = ⟨.object fields none, false⟩ ∧
        List.Forall₂ (ReadsAs (maxDepth - 1)) fields members := by
  unfold read
  rw [Outline.Document.read_eq_ok_iff]
  constructor
  · rintro ⟨h, ht⟩
    obtain ⟨fields, tear, hroot⟩ := exists_of_ofOutline_eq_object h
    rw [hroot] at h
    obtain ⟨rfl, hms⟩ := ofOutline_object_eq_ok_iff.1 h
    refine ⟨fields, ?_, hms⟩
    rw [← hroot, ← ht]
  · rintro ⟨fields, hs, hms⟩
    rw [hs]
    exact ⟨ofOutline_object_eq_ok_iff.2 ⟨rfl, hms⟩, rfl⟩

/-- as many spelled members have a name as members -/
theorem countP_name_of_readsAs (h : List.Forall₂ (ReadsAs depth) fields members) (name : String) :
    fields.countP (fun field => field.1.text.toOption == some name) = members.countP fun m => m.1 == name := by
  induction h with
  | nil => rfl
  | cons hm _ ih =>
    rw [List.countP_cons, List.countP_cons, ih, hm.1]
    rfl

/-- a number is read from a numeral only -/
theorem exists_numeral_of_ofOutline {o : Outline} {n : Number} (h : ofOutline depth o = .ok (.number n)) :
    ∃ numeral, o = .number numeral ∧ numeral.value? = some n := by
  cases o with
  | number numeral =>
    obtain ⟨x, hx, he⟩ := Outcome.map_eq_ok_iff.1 h
    cases he
    refine ⟨numeral, rfl, ?_⟩
    unfold Numeral.value at hx
    split at hx
    · rename_i hv
      cases hx
      exact hv
    · cases hx
  | null => cases h
  | bool b => cases h
  | text s =>
    obtain ⟨x, -, hx⟩ := Outcome.map_eq_ok_iff.1 h
    cases hx
  | broken reading skipping => cases h
  | array items tear =>
    cases depth with
    | zero => cases h
    | succ depth =>
      obtain ⟨vs, -, h⟩ := Outcome.bind_eq_ok_iff.1 h
      cases (closed_eq_ok_iff.1 h).2
  | object fields tear =>
    obtain ⟨ms, he⟩ := exists_of_ofOutline_object h
    cases he

/-- in lists of one length whose places are related, each item is related to one of the other list -/
theorem exists_related {α β : Type} {r : α → β → Prop} {xs : List α} {ys : List β} {x : α} (h : List.Forall₂ r xs ys)
    (hx : x ∈ xs) : ∃ y ∈ ys, r x y := by
  induction h with
  | nil => cases hx
  | cons hr _ ih =>
    rcases List.mem_cons.1 hx with rfl | hx
    · exact ⟨_, List.mem_cons_self, hr⟩
    · obtain ⟨y, hy, hr⟩ := ih hx
      exact ⟨y, List.mem_cons_of_mem _ hy, hr⟩

theorem exists_numeral_of_mem {name : String} {n : Number}
    (h : List.Forall₂ (ReadsAs depth) fields members) (hm : (name, .number n) ∈ members) :
    ∃ numeral : Numeral, numeral.value? = some n := by
  have hflip : List.Forall₂ (flip (ReadsAs depth)) members fields := List.Forall₂.flip h
  obtain ⟨field, -, hr⟩ := exists_related hflip hm
  obtain ⟨numeral, -, hv⟩ := exists_numeral_of_ofOutline hr.2
  exact ⟨numeral, hv⟩

/-! ## passing over -/

theorem tear_of_assemble {tear : Option Fault} {high : Option Nat} {pieces : List Piece} {cs : List Char}
    (h : assemble tear high pieces = .ok cs) : tear = none := by
  fun_induction assemble tear high pieces generalizing cs with
  | case1 htear => exact htear
  | case2 => cases h
  | case3 c rest ih =>
    obtain ⟨cs', h', -⟩ := Outcome.map_eq_ok_iff.1 h
    exact ih h'
  | case4 => cases h
  | case5 u rest _ _ ih => exact ih h
  | case6 u rest _ _ ih =>
    obtain ⟨cs', h', -⟩ := Outcome.map_eq_ok_iff.1 h
    exact ih h'
  | case7 => cases h
  | case8 => cases h
  | case9 u v rest _ ih =>
    obtain ⟨cs', h', -⟩ := Outcome.map_eq_ok_iff.1 h
    exact ih h'
  | case10 => cases h

theorem tear_of_text {s : Spelled} {t : String} (h : s.text = .ok t) : s.tear = none := by
  obtain ⟨cs, hcs, -⟩ := Outcome.map_eq_ok_iff.1 h
  exact tear_of_assemble hcs

mutual

/-- **What can be read can be passed over.** -/
theorem skip_of_ofOutline : ∀ (o : Outline) {depth : Nat} {v : Json},
    ofOutline depth o = .ok v → o.skip = .ok ()
  | .null, _, _, _ => rfl
  | .bool _, _, _, _ => rfl
  | .number _, _, _, _ => rfl
  | .text s, _, _, h => by
    obtain ⟨t, ht, -⟩ := Outcome.map_eq_ok_iff.1 h
    exact closed_eq_ok_iff.2 ⟨tear_of_text ht, rfl⟩
  | .broken _ _, _, _, h => by cases h
  | .array items tear, depth, _, h => by
    cases depth with
    | zero => cases h
    | succ depth =>
      obtain ⟨vs, hvs, h⟩ := Outcome.bind_eq_ok_iff.1 h
      refine Outcome.bind_eq_ok_iff.2 ⟨(), skipItems_of_itemsOfOutlines items hvs, ?_⟩
      exact closed_eq_ok_iff.2 ⟨(closed_eq_ok_iff.1 h).1, rfl⟩
  | .object fields tear, depth, _, h => by
    cases depth with
    | zero => cases h
    | succ depth =>
      obtain ⟨ms, hms, h⟩ := Outcome.bind_eq_ok_iff.1 h
      refine Outcome.bind_eq_ok_iff.2 ⟨(), skipMembers_of_membersOfOutlines fields hms, ?_⟩
      exact closed_eq_ok_iff.2 ⟨(closed_eq_ok_iff.1 h).1, rfl⟩

theorem skipItems_of_itemsOfOutlines : ∀ (items : List Outline) {depth : Nat} {vs : List Json},
    itemsOfOutlines depth items = .ok vs → Outline.skipItems items = .ok ()
  | [], _, _, _ => rfl
  | o :: rest, _, _, h => by
    obtain ⟨v, hv, h⟩ := Outcome.bind_eq_ok_iff.1 h
    obtain ⟨vs, hvs, -⟩ := Outcome.bind_eq_ok_iff.1 h
    refine Outcome.bind_eq_ok_iff.2 ⟨(), skip_of_ofOutline o hv, ?_⟩
    exact skipItems_of_itemsOfOutlines rest hvs

theorem skipMembers_of_membersOfOutlines : ∀ (fields : List (Spelled × Outline)) {depth : Nat}
    {ms : List (String × Json)}, membersOfOutlines depth fields = .ok ms → Outline.skipMembers fields = .ok ()
  | [], _, _, _ => rfl
  | (name, o) :: rest, _, _, h => by
    obtain ⟨x, hx, h⟩ := Outcome.bind_eq_ok_iff.1 h
    obtain ⟨v, hv, h⟩ := Outcome.bind_eq_ok_iff.1 h
    obtain ⟨ms, hms, -⟩ := Outcome.bind_eq_ok_iff.1 h
    refine Outcome.bind_eq_ok_iff.2 ⟨(), closed_eq_ok_iff.2 ⟨tear_of_text hx, rfl⟩, ?_⟩
    refine Outcome.bind_eq_ok_iff.2 ⟨(), skip_of_ofOutline o hv, ?_⟩
    exact skipMembers_of_membersOfOutlines rest hms

end

end BearerCredentials.Json
