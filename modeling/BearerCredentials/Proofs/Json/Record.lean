import BearerCredentials.Proofs.Json.Members

/-!
# What the members of an object say about a record

Members are read in their order, but all that counts is which value each field has.

* `Record.ofMembers_cons_eq_ok_iff`   one member: a field that has not arrived yet, or no field;
* `Record.Slot`                       the part of a draft that a field fills;
* `Record.Slot.Says`, `Record.Slot.Gives`   what the members say about a field, in whatever order they stand;
* `Record.Slot.says_of_ofMembers`     that is what is read;
* `Record.exists_ofMembers`           members are read if each field has at most one value, and that can be read.
-/

namespace BearerCredentials.Json

/-! ## members of a name -/

/-- the values of the members of a name -/
def valuesOf (name : String) (members : List (Spelled × Outline)) : List Outline :=
  (members.filter fun m => m.1.text.toOption == some name).map Prod.snd

section
variable {name x : String} {key : Spelled} {o : Outline} {members members' : List (Spelled × Outline)}

theorem valuesOf_cons_self (h : key.text = .ok name) :
    valuesOf name ((key, o) :: members) = o :: valuesOf name members := by
  rw [valuesOf, List.filter_cons_of_pos (by rw [h]; exact beq_self_eq_true _)]
  rfl

theorem valuesOf_cons_of_ne (h : key.text = .ok x) (hne : x ≠ name) :
    valuesOf name ((key, o) :: members) = valuesOf name members := by
  rw [valuesOf, List.filter_cons_of_neg, valuesOf]
  rw [h]
  exact fun e => hne (Option.some.inj (eq_of_beq e))

theorem valuesOf_append (name : String) (members members' : List (Spelled × Outline)) :
    valuesOf name (members ++ members') = valuesOf name members ++ valuesOf name members' := by
  rw [valuesOf, List.filter_append, List.map_append]
  rfl

theorem valuesOf_perm (name : String) (h : members.Perm members') :
    (valuesOf name members).Perm (valuesOf name members') :=
  (h.filter _).map _

/-- no member of a name, no value -/
theorem valuesOf_eq_nil (h : ∀ m ∈ members, m.1.text ≠ .ok name) : valuesOf name members = [] := by
  rw [valuesOf, List.map_eq_nil_iff, List.filter_eq_nil_iff]
  intro m hm he
  exact h m hm (Outcome.toOption_eq_some_iff.1 (eq_of_beq he))

/-- a member whose name is not repeated has the one value of that name -/
theorem exists_valuesOf_of_mem {depth : Nat} {ms : List (String × Json)} {v : Json}
    (h : List.Forall₂ (ReadsAs depth) members ms) (hn : (ms.map Prod.fst).Nodup) (hm : (name, v) ∈ ms) :
    ∃ o, valuesOf name members = [o] ∧ ofOutline depth o = .ok v := by
  induction h with
  | nil => cases hm
  | @cons field m fields ms hread hrest ih =>
    obtain ⟨hx, hn⟩ := List.nodup_cons.1 hn
    rcases List.mem_cons.1 hm with rfl | hm
    · have hnil : valuesOf name fields = [] := by
        refine valuesOf_eq_nil fun field hf he => hx ?_
        obtain ⟨m', hm', hr⟩ := exists_related hrest hf
        exact List.mem_map.2 ⟨m', hm', Except.ok.inj (hr.1.symm.trans he)⟩
      exact ⟨field.2, (valuesOf_cons_self hread.1).trans (by rw [hnil]), hread.2⟩
    · have hne : m.1 ≠ name := by
        rintro rfl
        exact hx (List.mem_map.2 ⟨_, hm, rfl⟩)
      obtain ⟨o, hv, ho⟩ := ih hn hm
      exact ⟨o, (valuesOf_cons_of_ne hread.1 hne).trans hv, ho⟩

end

namespace Record

variable {draft : Type} {r : Record draft} {d d' : draft} {m : Spelled × Outline}
  {members members' : List (Spelled × Outline)}

/-- one member is a field that has not arrived yet, or it belongs to no field and is passed over -/
theorem ofMembers_cons_eq_ok_iff :
    r.ofMembers d (m :: members) = .ok d' ↔
      ∃ name, m.1.text = .ok name ∧
        ((name ∈ r.fields ∧ r.has d name = false ∧
            ∃ d₁, r.put d name m.2 = .ok d₁ ∧ r.ofMembers d₁ members = .ok d') ∨
          (¬ name ∈ r.fields ∧ m.2.skip = .ok () ∧ r.ofMembers d members = .ok d')) := by
  obtain ⟨key, o⟩ := m
  rw [ofMembers, Outcome.bind_eq_ok_iff]
  refine exists_congr fun name => and_congr_right fun _ => ?_
  by_cases hf : name ∈ r.fields
  · rw [if_pos (List.contains_iff_mem.2 hf)]
    cases hh : r.has d name with
    | true =>
      constructor
      · intro h
        cases h
      · rintro (⟨-, h, -⟩ | ⟨h, -⟩)
        · cases h
        · exact absurd hf h
    | false =>
      constructor
      · intro h
        obtain ⟨d₁, hput, h⟩ := Outcome.bind_eq_ok_iff.1 h
        exact Or.inl ⟨hf, rfl, d₁, hput, h⟩
      · rintro (⟨-, -, d₁, hput, h⟩ | ⟨h, -⟩)
        · exact Outcome.bind_eq_ok_iff.2 ⟨d₁, hput, h⟩
        · exact absurd hf h
  · rw [if_neg fun h => hf (List.contains_iff_mem.1 h), Outcome.bind_eq_ok_iff]
    constructor
    · rintro ⟨_, hskip, h⟩
      exact Or.inr ⟨hf, hskip, h⟩
    · rintro (⟨h, -⟩ | ⟨-, hskip, h⟩)
      · exact absurd h hf
      · exact ⟨(), hskip, h⟩

/-- every name can be read, and what belongs to no field can be passed over -/
def NamesReadable (r : Record draft) (members : List (Spelled × Outline)) : Prop :=
  ∀ m ∈ members, ∃ name, m.1.text = .ok name ∧ (¬ name ∈ r.fields → m.2.skip = .ok ())

/-- what is read as members can be read or passed over -/
theorem namesReadable_of_reads {depth : Nat} {ms : List (String × Json)}
    (h : List.Forall₂ (ReadsAs depth) members ms) : r.NamesReadable members := by
  intro field hf
  obtain ⟨m, -, hr⟩ := exists_related h hf
  exact ⟨m.1, hr.1, fun _ => skip_of_ofOutline field.2 hr.2⟩

theorem namesReadable_of_ofMembers (h : r.ofMembers d members = .ok d') : r.NamesReadable members := by
  induction members generalizing d with
  | nil => nofun
  | cons m members ih =>
    obtain ⟨name, hname, hm⟩ := ofMembers_cons_eq_ok_iff.1 h
    rcases hm with ⟨hf, -, d₁, -, h⟩ | ⟨-, hskip, h⟩
    · exact List.forall_mem_cons.2 ⟨⟨name, hname, fun hf' => absurd hf hf'⟩, ih h⟩
    · exact List.forall_mem_cons.2 ⟨⟨name, hname, fun _ => hskip⟩, ih h⟩

theorem NamesReadable.insert {name : String} {before after : List (Spelled × Outline)}
    (h : r.NamesReadable (before ++ after)) (hname : m.1.text = .ok name)
    (hskip : ¬ name ∈ r.fields → m.2.skip = .ok ()) : r.NamesReadable (before ++ m :: after) := by
  intro m' hm'
  rw [List.mem_append, List.mem_cons, or_left_comm, ← List.mem_append] at hm'
  rcases hm' with rfl | hm'
  · exact ⟨name, hname, hskip⟩
  · exact h m' hm'

/-- the part of a draft that one field fills -/
structure Slot (r : Record draft) (α : Type) where
  name : String
  read : Outline → Except Fault α
  get : draft → Option α
  set : draft → α → draft
  mem_fields : name ∈ r.fields
  has_eq : ∀ d, r.has d name = (get d).isSome
  put_eq : ∀ d o, r.put d name o = (read o).map (set d)
  get_set : ∀ d a, get (set d a) = some a
  get_of_put_ne : ∀ {d x o d'}, x ≠ name → r.put d x o = .ok d' → get d' = get d

namespace Slot

variable {α : Type} {s : r.Slot α} {default a b : α} {o : Outline}

theorem get_of_put (h : r.put d s.name o = .ok d') : ∃ a, s.read o = .ok a ∧ s.get d' = some a := by
  rw [s.put_eq, Outcome.map_eq_ok_iff] at h
  obtain ⟨a, ha, rfl⟩ := h
  exact ⟨a, ha, s.get_set d a⟩

theorem exists_put (h : s.read o = .ok a) (d : draft) : ∃ d', r.put d s.name o = .ok d' := by
  rw [s.put_eq, h]
  exact ⟨_, rfl⟩

/-- the member of a field that has not arrived is read as it -/
theorem ofMembers_cons (hx : m.1.text = .ok s.name) (hd : s.get d = none) (hread : s.read m.2 = .ok a)
    (h : r.ofMembers (s.set d a) members = .ok d') : r.ofMembers d (m :: members) = .ok d' := by
  refine ofMembers_cons_eq_ok_iff.2 ⟨s.name, hx, Or.inl ⟨s.mem_fields, ?_, s.set d a, ?_, h⟩⟩
  · rw [s.has_eq, hd]
    rfl
  · rw [s.put_eq, hread]
    rfl

/-- the item that stands for the field is read as it -/
theorem ofItems_cons_eq_ok_iff {names : List String} {items : List Outline} {p : draft × Bool} :
    r.ofItems d (s.name :: names) (o :: items) = .ok p ↔
      ∃ a, s.read o = .ok a ∧ r.ofItems (s.set d a) names items = .ok p := by
  rw [Record.ofItems, Outcome.bind_eq_ok_iff, s.put_eq]
  constructor
  · rintro ⟨d', hd', h⟩
    obtain ⟨a, ha, rfl⟩ := Outcome.map_eq_ok_iff.1 hd'
    exact ⟨a, ha, h⟩
  · rintro ⟨a, ha, h⟩
    exact ⟨_, Outcome.map_eq_ok_iff.2 ⟨a, ha, rfl⟩, h⟩

/-- what members say about a field: nothing, or one value that can be read -/
inductive Says (s : r.Slot α) (members : List (Spelled × Outline)) : Option α → Prop
  | nothing : valuesOf s.name members = [] → Says s members none
  | value {o : Outline} {a : α} : valuesOf s.name members = [o] → s.read o = .ok a → Says s members (some a)

/-- what members give for a field that has a default -/
def Gives (s : r.Slot α) (members : List (Spelled × Outline)) (default a : α) : Prop :=
  ∃ said, s.Says members said ∧ said.getD default = a

theorem Says.unique {said said' : Option α} (h : s.Says members said) (h' : s.Says members said') : said = said' := by
  cases h with
  | nothing hv =>
    cases h' with
    | nothing => rfl
    | value hv' =>
      rw [hv] at hv'
      cases hv'
  | value hv hr =>
    cases h' with
    | nothing hv' =>
      rw [hv] at hv'
      cases hv'
    | value hv' hr' =>
      rw [hv] at hv'
      cases hv'
      rw [hr] at hr'
      cases hr'
      rfl

theorem Says.exists_value (h : s.Says members (some a)) : ∃ o, valuesOf s.name members = [o] ∧ s.read o = .ok a := by
  cases h with
  | value hv hr => exact ⟨_, hv, hr⟩

/-- only the values of the field count -/
theorem Says.of_valuesOf {said : Option α} (h : s.Says members said)
    (hv : valuesOf s.name members' = valuesOf s.name members) : s.Says members' said := by
  cases h with
  | nothing h => exact .nothing (hv.trans h)
  | value h hr => exact .value (hv.trans h) hr

theorem Says.perm {said : Option α} (h : s.Says members said) (hp : members.Perm members') : s.Says members' said := by
  have hv := valuesOf_perm s.name hp.symm
  cases h with
  | nothing h =>
    rw [h] at hv
    exact .nothing (List.Perm.eq_nil hv)
  | value h hr =>
    rw [h] at hv
    exact .value (List.Perm.eq_singleton hv) hr

theorem Gives.unique (h : s.Gives members default a) (h' : s.Gives members default b) : a = b := by
  obtain ⟨said, hs, rfl⟩ := h
  obtain ⟨said', hs', rfl⟩ := h'
  rw [hs.unique hs']

theorem Gives.perm (h : s.Gives members default a) (hp : members.Perm members') : s.Gives members' default a := by
  obtain ⟨said, hs, he⟩ := h
  exact ⟨said, hs.perm hp, he⟩

/-- what one member does to a field: it is its value, which had not arrived, or it leaves the field alone -/
theorem step_of_ofMembers (s : r.Slot α) (h : r.ofMembers d (m :: members) = .ok d') :
    ∃ d₁, r.ofMembers d₁ members = .ok d' ∧
      ((m.1.text = .ok s.name ∧ s.get d = none ∧ ∃ a, s.read m.2 = .ok a ∧ s.get d₁ = some a) ∨
        ∃ x, m.1.text = .ok x ∧ x ≠ s.name ∧ s.get d₁ = s.get d) := by
  obtain ⟨x, hx, hm⟩ := ofMembers_cons_eq_ok_iff.1 h
  rcases hm with ⟨hf, hh, d₁, hput, h⟩ | ⟨hf, -, h⟩
  · refine ⟨d₁, h, ?_⟩
    by_cases he : x = s.name
    · subst he
      rw [s.has_eq, Option.isSome_eq_false_iff, Option.isNone_iff_eq_none] at hh
      exact Or.inl ⟨hx, hh, get_of_put hput⟩
    · exact Or.inr ⟨x, hx, he, s.get_of_put_ne he hput⟩
  · refine ⟨d, h, Or.inr ⟨x, hx, ?_, rfl⟩⟩
    rintro rfl
    exact hf s.mem_fields

/-- a field that has arrived does not arrive again -/
theorem kept_of_ofMembers (h : r.ofMembers d members = .ok d') (hd : s.get d = some a) :
    valuesOf s.name members = [] ∧ s.get d' = some a := by
  induction members generalizing d with
  | nil =>
    cases h
    exact ⟨rfl, hd⟩
  | cons m members ih =>
    obtain ⟨d₁, h, ⟨-, hnone, -⟩ | ⟨x, hx, hne, hget⟩⟩ := s.step_of_ofMembers h
    · rw [hd] at hnone
      cases hnone
    · obtain ⟨hv, hd'⟩ := ih h (hget.trans hd)
      exact ⟨(valuesOf_cons_of_ne hx hne).trans hv, hd'⟩

/-- **What is read for a field is what the members say about it.** -/
theorem says_of_ofMembers (s : r.Slot α) (h : r.ofMembers d members = .ok d') (hd : s.get d = none) :
    s.Says members (s.get d') := by
  induction members generalizing d with
  | nil =>
    cases h
    rw [hd]
    exact .nothing rfl
  | cons m members ih =>
    obtain ⟨d₁, h, ⟨hx, -, a, hread, hget⟩ | ⟨x, hx, hne, hget⟩⟩ := s.step_of_ofMembers h
    · obtain ⟨hv, hd'⟩ := kept_of_ofMembers h hget
      rw [hd']
      refine .value ?_ hread
      rw [valuesOf_cons_self hx, hv]
    · exact (ih h (hget.trans hd)).of_valuesOf (valuesOf_cons_of_ne hx hne)

/-- members that say something about a field have at most one value for it, and that can be read -/
theorem Says.readable {said : Option α} (h : s.Says members said) :
    valuesOf s.name members = [] ∨
      ∃ o, valuesOf s.name members = [o] ∧ ∀ d, ∃ d', r.put d s.name o = .ok d' := by
  cases h with
  | nothing hv => exact Or.inl hv
  | value hv hr => exact Or.inr ⟨_, hv, exists_put hr⟩

/-- a member of another name has no say -/
theorem Gives.insert_ne_iff {x : String} {before after : List (Spelled × Outline)} (hx : m.1.text = .ok x)
    (hne : x ≠ s.name) :
    s.Gives (before ++ m :: after) default a ↔ s.Gives (before ++ after) default a := by
  have hv : valuesOf s.name (before ++ m :: after) = valuesOf s.name (before ++ after) := by
    rw [valuesOf_append, valuesOf_cons_of_ne hx hne, valuesOf_append]
  constructor
  · rintro ⟨said, h, he⟩
    exact ⟨said, h.of_valuesOf hv.symm, he⟩
  · rintro ⟨said, h, he⟩
    exact ⟨said, h.of_valuesOf hv, he⟩

/-- a field that was left out may be given its default -/
theorem Gives.insert_default {before after : List (Spelled × Outline)} (h : s.Gives (before ++ after) default a)
    (hx : m.1.text = .ok s.name) (habsent : valuesOf s.name (before ++ after) = [])
    (hread : s.read m.2 = .ok default) : s.Gives (before ++ m :: after) default a := by
  obtain rfl : default = a := Gives.unique ⟨none, .nothing habsent, rfl⟩ h
  refine ⟨some default, .value ?_ hread, rfl⟩
  rw [valuesOf_append, List.append_eq_nil_iff] at habsent
  rw [valuesOf_append, valuesOf_cons_self hx, habsent.1, habsent.2, List.nil_append]

end Slot

/-- **Members are read if each field has at most one value**, and that can be read; the order does not matter. -/
theorem exists_ofMembers
    (hput : ∀ {d x o d'}, r.put d x o = .ok d' → ∀ name, name ≠ x → r.has d' name = r.has d name)
    (hn : r.NamesReadable members)
    (hs : ∀ name ∈ r.fields, valuesOf name members = [] ∨ (r.has d name = false ∧
      ∃ o, valuesOf name members = [o] ∧ ∀ d, ∃ d', r.put d name o = .ok d')) :
    ∃ d', r.ofMembers d members = .ok d' := by
  induction members generalizing d with
  | nil => exact ⟨d, rfl⟩
  | cons m members ih =>
    obtain ⟨⟨x, hx, hskip⟩, hn⟩ := List.forall_mem_cons.1 hn
    by_cases hf : x ∈ r.fields
    · have hself : valuesOf x (m :: members) = m.2 :: valuesOf x members := valuesOf_cons_self hx
      rcases hs x hf with hnil | ⟨hh, o, ho, hread⟩
      · exact absurd (hself.symm.trans hnil) (List.cons_ne_nil _ _)
      · obtain ⟨he, hrest⟩ := List.cons.inj (hself.symm.trans ho)
        obtain ⟨d₁, hd₁⟩ := hread d
        obtain ⟨d', h⟩ : ∃ d', r.ofMembers d₁ members = .ok d' := by
          refine ih hn fun name hname => ?_
          by_cases hne : name = x
          · exact Or.inl (hne ▸ hrest)
          · have := hs name hname
            rw [valuesOf_cons_of_ne hx (Ne.symm hne), ← hput hd₁ name hne] at this
            exact this
        exact ⟨d', ofMembers_cons_eq_ok_iff.2 ⟨x, hx, Or.inl ⟨hf, hh, d₁, he ▸ hd₁, h⟩⟩⟩
    · obtain ⟨d', h⟩ : ∃ d', r.ofMembers d members = .ok d' := by
        refine ih hn fun name hname => ?_
        have hne : x ≠ name := by
          rintro rfl
          exact hf hname
        have := hs name hname
        rw [valuesOf_cons_of_ne hx hne] at this
        exact this
      exact ⟨d', ofMembers_cons_eq_ok_iff.2 ⟨x, hx, Or.inr ⟨hf, hskip hf, h⟩⟩⟩

theorem ofOutline_object_eq_ok_iff {α : Type} {empty : draft} {finish : draft → Except Fault α} {a : α} :
    r.ofOutline empty finish (.object members none) = .ok a ↔
      ∃ d, r.ofMembers empty members = .ok d ∧ finish d = .ok a := by
  rw [ofOutline, Outcome.bind_eq_ok_iff]
  rfl

end Record

end BearerCredentials.Json
