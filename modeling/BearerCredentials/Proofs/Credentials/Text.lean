import BearerCredentials.Credentials
import BearerCredentials.Proofs.Json.Record
import BearerCredentials.Proofs.Json.Typed
import BearerCredentials.Proofs.Json.Written
import BearerCredentials.Proofs.Text.ByteOrder

/-!
# Credentials in texts

* `Says`, `exists_says_of_read`   what a text says where it is read as credentials;
* `read_of_json`                  a text that says what credentials are written as is read as those credentials;
* `read_canonical`                so credentials are read back, and written in a canonical form, whatever text they
                                  were read from.
-/

namespace BearerCredentials.Credentials

open Json (Outline Record)

variable {c : Credentials} {d d' : Draft} {text username : String} {x : String} {o : Outline}
  {roles : List String} {attributes : List (String × String)}

/-! ## what is read -/

/-- a draft with one more field -/
inductive Arrives (d : Draft) (o : Outline) : String → Draft → Prop
  | username {a : String} : o.readText = .ok a → Arrives d o "username" { d with username := some a }
  | roles {a : List String} :
      o.readTexts = .ok a → Arrives d o "backend_roles" { d with roles := some (NameSet.ofList a) }
  | attributes {a : List (String × String)} :
      o.readTextObject = .ok a → Arrives d o "attributes" { d with attributes := some (NameMap.ofList a) }
  | none {x : String} : ¬ x ∈ record.fields → Arrives d o x d

theorem arrives_of_put (h : record.put d x o = .ok d') : Arrives d o x d' := by
  have h : d.put x o = .ok d' := h
  unfold Draft.put at h
  split at h
  case h_4 =>
    cases h
    refine .none ?_
    simp only [record, List.mem_cons, List.not_mem_nil, or_false, not_or]
    exact ⟨‹_›, ‹_›, ‹_›⟩
  all_goals
    obtain ⟨a, ha, h⟩ := Outcome.bind_eq_ok_iff.1 h
    cases h
  · exact .username ha
  · exact .roles ha
  · exact .attributes ha

def usernameSlot : record.Slot String where
  name := "username"
  read := Outline.readText
  get := Draft.username
  set d a := { d with username := some a }
  mem_fields := by decide
  has_eq _ := rfl
  put_eq _ o := Outcome.bind_ok_eq_map o.readText _
  get_set _ _ := rfl
  get_of_put_ne hne h := by
    cases arrives_of_put h with
    | username => exact absurd rfl hne
    | _ => rfl

def rolesSlot : record.Slot NameSet where
  name := "backend_roles"
  read o := o.readTexts.map NameSet.ofList
  get := Draft.roles
  set d a := { d with roles := some a }
  mem_fields := by decide
  has_eq _ := rfl
  put_eq _ o := by
    show (o.readTexts >>= _) = _
    cases o.readTexts <;> rfl
  get_set _ _ := rfl
  get_of_put_ne hne h := by
    cases arrives_of_put h with
    | roles => exact absurd rfl hne
    | _ => rfl

def attributesSlot : record.Slot (NameMap String) where
  name := "attributes"
  read o := o.readTextObject.map NameMap.ofList
  get := Draft.attributes
  set d a := { d with attributes := some a }
  mem_fields := by decide
  has_eq _ := rfl
  put_eq _ o := by
    show (o.readTextObject >>= _) = _
    cases o.readTextObject <;> rfl
  get_set _ _ := rfl
  get_of_put_ne hne h := by
    cases arrives_of_put h with
    | attributes => exact absurd rfl hne
    | _ => rfl

/-- the values of the three fields: members of an object that stand among others in any order, or the items of an
array -/
inductive Fields : Outline → Outline → Outline → Outline → Prop
  | object {members : List (Json.Spelled × Outline)} {username roles attributes : Outline} :
      Json.valuesOf "username" members = [username] → Json.valuesOf "backend_roles" members = [roles] →
      Json.valuesOf "attributes" members = [attributes] → Fields (.object members none) username roles attributes
  | array {username roles attributes : Outline} :
      Fields (.array [username, roles, attributes] none) username roles attributes

/-- what a text says: a user name, roles that may be repeated, and attributes whose names may be repeated -/
def Says (text username : String) (roles : List String) (attributes : List (String × String)) : Prop :=
  ∃ u r a, Fields (Outline.ofText text).root u r a ∧
    u.readText = .ok username ∧ r.readTexts = .ok roles ∧ a.readTextObject = .ok attributes

theorem finish_eq_ok_iff : d.finish = .ok c ↔ d = ⟨some c.username, some c.roles, some c.attributes⟩ := by
  unfold Draft.finish
  constructor
  · intro h
    split at h
    · cases h
      rfl
    · cases h
  · rintro rfl
    rfl

theorem exists_fields_of_ofMembers {members : List (Json.Spelled × Outline)}
    (h : record.ofMembers {} members = .ok d) (hd : d.finish = .ok c) :
    ∃ u r a, Fields (.object members none) u r a ∧ usernameSlot.read u = .ok c.username ∧
      rolesSlot.read r = .ok c.roles ∧ attributesSlot.read a = .ok c.attributes := by
  obtain rfl := finish_eq_ok_iff.1 hd
  obtain ⟨u, hu, hu'⟩ := (usernameSlot.says_of_ofMembers h rfl).exists_value
  obtain ⟨r, hr, hr'⟩ := (rolesSlot.says_of_ofMembers h rfl).exists_value
  obtain ⟨a, ha, ha'⟩ := (attributesSlot.says_of_ofMembers h rfl).exists_value
  exact ⟨u, r, a, .object hu hr ha, hu', hr', ha'⟩

theorem exists_fields_of_ofItems {items : List Outline} (h : record.ofItems {} record.fields items = .ok (d, false))
    (hd : d.finish = .ok c) :
    ∃ u r a, Fields (.array items none) u r a ∧ usernameSlot.read u = .ok c.username ∧
      rolesSlot.read r = .ok c.roles ∧ attributesSlot.read a = .ok c.attributes := by
  rw [finish_eq_ok_iff] at hd
  -- fewer items leave a field out, and more are refused
  rcases items with _ | ⟨u, items⟩
  · cases h
    cases hd
  obtain ⟨username, hu, h⟩ := usernameSlot.ofItems_cons_eq_ok_iff.1 h
  rcases items with _ | ⟨r, items⟩
  · cases h
    cases hd
  obtain ⟨roles, hr, h⟩ := rolesSlot.ofItems_cons_eq_ok_iff.1 h
  rcases items with _ | ⟨a, items⟩
  · cases h
    cases hd
  obtain ⟨attributes, ha, h⟩ := attributesSlot.ofItems_cons_eq_ok_iff.1 h
  rcases items with _ | ⟨o, items⟩
  · cases h
    cases hd
    exact ⟨u, r, a, .array, hu, hr, ha⟩
  · cases h

theorem exists_fields_of_ofOutline (h : ofOutline o = .ok c) :
    ∃ u r a, Fields o u r a ∧ usernameSlot.read u = .ok c.username ∧
      rolesSlot.read r = .ok c.roles ∧ attributesSlot.read a = .ok c.attributes := by
  cases o with
  | object members tear =>
    obtain ⟨d, hm, h⟩ := Outcome.bind_eq_ok_iff.1 h
    obtain ⟨_, ht, hd⟩ := Outcome.bind_eq_ok_iff.1 h
    obtain ⟨rfl, -⟩ := Json.closed_eq_ok_iff.1 ht
    exact exists_fields_of_ofMembers hm hd
  | array items tear =>
    obtain ⟨⟨d, more⟩, hm, h⟩ := Outcome.bind_eq_ok_iff.1 h
    cases more with
    | true => cases h
    | false =>
      obtain ⟨_, ht, hd⟩ := Outcome.bind_eq_ok_iff.1 h
      obtain ⟨rfl, -⟩ := Json.closed_eq_ok_iff.1 ht
      exact exists_fields_of_ofItems hm hd
  | _ => cases h

/-- **What is read as credentials says what they are.** -/
theorem exists_says_of_read (h : read text = .ok c) :
    ∃ roles attributes, Says text c.username roles attributes ∧
      c.roles = NameSet.ofList roles ∧ c.attributes = NameMap.ofList attributes := by
  obtain ⟨h, -⟩ := Outline.Document.read_eq_ok_iff.1 h
  obtain ⟨u, r, a, hf, hu, hr, ha⟩ := exists_fields_of_ofOutline h
  obtain ⟨roles, hroles, er⟩ := Outcome.map_eq_ok_iff.1 hr
  obtain ⟨attributes, hattributes, ea⟩ := Outcome.map_eq_ok_iff.1 ha
  exact ⟨roles, attributes, ⟨u, r, a, hf, hu, hroles, hattributes⟩, er.symm, ea.symm⟩

/-! ## what is written -/

theorem exact_written : (written username roles attributes).Exact := by
  have hroles : Json.ExactItems (roles.map .text) := by
    induction roles with
    | nil => trivial
    | cons role roles ih => exact ⟨trivial, ih⟩
  have hattributes : Json.ExactMembers (attributes.map fun a => (a.1, .text a.2)) := by
    induction attributes with
    | nil => trivial
    | cons a attributes ih => exact ⟨trivial, ih⟩
  exact ⟨trivial, hroles, hattributes, trivial⟩

theorem depth_written : (written username roles attributes).depth ≤ Json.maxDepth := by
  have hroles : Json.depthItems (roles.map .text) = 0 := by
    induction roles with
    | nil => rfl
    | cons role roles ih =>
      show max 0 (Json.depthItems (roles.map .text)) = 0
      rw [ih]
      rfl
  have hattributes : Json.depthMembers (attributes.map fun a => (a.1, .text a.2)) = 0 := by
    induction attributes with
    | nil => rfl
    | cons a attributes ih =>
      show max 0 (Json.depthMembers (attributes.map fun a => (a.1, .text a.2))) = 0
      rw [ih]
      rfl
  have hd : (written username roles attributes).depth = 2 := by
    show max 0 (max (Json.depthItems (roles.map .text) + 1)
      (max (Json.depthMembers (attributes.map fun a => (a.1, .text a.2)) + 1) 0)) + 1 = 2
    rw [hroles, hattributes]
    rfl
  rw [hd]
  decide

/-- **A text that says what credentials are written as** is read as those credentials. -/
theorem read_of_written (h : Json.read text = .ok (written username roles attributes)) :
    read text = .ok ⟨username, NameSet.ofList roles, NameMap.ofList attributes⟩ := by
  obtain ⟨fields, htext, hms⟩ := Json.read_eq_object_iff.1 h
  rw [read, Outline.Document.read_eq_ok_iff, htext]
  obtain _ | ⟨hu, _ | ⟨hr, _ | ⟨ha, _ | _⟩⟩⟩ := hms
  have hroles : rolesSlot.read _ = .ok (NameSet.ofList roles) :=
    Outcome.map_eq_ok_iff.2 ⟨roles, Json.readTexts_of_ofOutline hr.2, rfl⟩
  have hattributes : attributesSlot.read _ = .ok (NameMap.ofList attributes) :=
    Outcome.map_eq_ok_iff.2 ⟨attributes, Json.readTextObject_of_ofOutline ha.2, rfl⟩
  refine ⟨Record.ofOutline_object_eq_ok_iff.2 ⟨⟨some _, some _, some _⟩, ?_, rfl⟩, rfl⟩
  refine usernameSlot.ofMembers_cons hu.1 rfl (Json.readText_of_ofOutline hu.2) ?_
  refine rolesSlot.ofMembers_cons hr.1 rfl hroles ?_
  exact attributesSlot.ofMembers_cons ha.1 rfl hattributes rfl

theorem read_of_json (h : Json.read text = .ok c.json) : read text = .ok c := by
  rw [json] at h
  rw [read_of_written h, NameSet.ofList_toList, NameMap.ofList_toList]

/-- **A text that writes credentials in canonical form**: the roles in ascending order of their bytes, and each
attribute once -/
structure Canonical (text : String) (c : Credentials) (roles : List String) (attributes : List (String × String)) :
    Prop where
  read_eq : Json.read text = .ok (written c.username roles attributes)
  ascending : (roles.map utf8).Pairwise (· < ·)
  nodup : (attributes.map Prod.fst).Nodup

theorem canonical_of_json (h : Json.read text = .ok c.json) : Canonical text c c.roles.toList c.attributes.toList where
  read_eq := h
  ascending := List.pairwise_map.2 (c.roles.ascending.imp utf8_lt_utf8)
  nodup := c.attributes.nodup_toList

/-- **Credentials are read back**, from both layouts. Those that are read from a text are written with each role of
the text once, in ascending order of their bytes, and with each attribute once, whose value is the last one that the
text has for it. -/
theorem read_canonical :
    (∀ c : Credentials, read c.json.compact = .ok c ∧ read c.json.pretty = .ok c) ∧
    ∀ (text : String) (c : Credentials), read text = .ok c →
      (read c.json.compact = .ok c ∧ read c.json.pretty = .ok c) ∧
      ∃ roles attributes, Says text c.username roles attributes ∧
        ∃ roles' attributes', Canonical c.json.compact c roles' attributes' ∧
          Canonical c.json.pretty c roles' attributes' ∧ (∀ role, role ∈ roles' ↔ role ∈ roles) ∧
            ∀ name, attributes'.lookup name = attributes.reverse.lookup name := by
  have hcompact (c : Credentials) : Json.read c.json.compact = .ok c.json :=
    Json.read_compact exact_written depth_written
  have hpretty (c : Credentials) : Json.read c.json.pretty = .ok c.json :=
    Json.read_pretty exact_written depth_written
  have hback (c : Credentials) : read c.json.compact = .ok c ∧ read c.json.pretty = .ok c :=
    ⟨read_of_json (hcompact c), read_of_json (hpretty c)⟩
  refine ⟨hback, fun text c h => ⟨hback c, ?_⟩⟩
  obtain ⟨roles, attributes, hs, hroles, hattributes⟩ := exists_says_of_read h
  refine ⟨roles, attributes, hs, c.roles.toList, c.attributes.toList, canonical_of_json (hcompact c),
    canonical_of_json (hpretty c), fun role => ?_, fun name => ?_⟩
  · rw [hroles]
    exact NameSet.mem_ofList
  · rw [← NameMap.get?_eq_lookup, hattributes, NameMap.get?_ofList]

/-- fields in another order among other members, with a role and an attribute that are repeated -/
def repetitiveText : String :=
  "\x7b\"attributes\": \x7b\"a\": \"1\", \"b\": \"\", \"a\": \"2\"\x7d, \"x\": [1e999], " ++
    "\"backend_roles\": [\"z\", \"\\u00e9\", \"A\", \"z\"], \"username\": \"u\"\x7d"

def plainCredentials : Credentials where
  username := "u"
  roles := ⟨["A", "z", "é"], by decide⟩
  attributes := ⟨[("a", "2"), ("b", "")], by decide⟩

theorem read_repetitiveText : read repetitiveText = .ok plainCredentials := by decide +kernel

theorem canonical_repetitiveText :
    read repetitiveText = .ok plainCredentials ∧
      (read plainCredentials.json.compact = .ok plainCredentials ∧
        read plainCredentials.json.pretty = .ok plainCredentials) ∧
      ∃ roles attributes, Says repetitiveText "u" roles attributes ∧
        ∃ roles' attributes', Canonical plainCredentials.json.compact plainCredentials roles' attributes' ∧
          Canonical plainCredentials.json.pretty plainCredentials roles' attributes' ∧
            (∀ role, role ∈ roles' ↔ role ∈ roles) ∧
              ∀ name, attributes'.lookup name = attributes.reverse.lookup name :=
  ⟨read_repetitiveText, read_canonical.2 repetitiveText plainCredentials read_repetitiveText⟩

end BearerCredentials.Credentials
