import BearerCredentials.Proofs.Json.Record
import BearerCredentials.Proofs.Json.Typed
import BearerCredentials.Proofs.Json.Written
import BearerCredentials.Settings

/-!
# Settings as the members of an object

* `arrives_of_put`               what a member does to a draft of settings;
* `signingKeySlot`, …            the fields, each with the part of a draft that it fills;
* `GivenBy`                      the settings that members give;
* `ofOutline_object_eq_ok_iff`   an object is read as these settings.
-/

namespace BearerCredentials.Settings

open Json (Outline Record)

variable {d d' : Draft} {x : String} {o : Outline} {s s' : Settings}
  {m : Json.Spelled × Outline} {members members' before after : List (Json.Spelled × Outline)}

/-- a draft with one more field -/
inductive Arrives (d : Draft) (o : Outline) : String → Draft → Prop
  | signingKey {a : Option String} :
      o.readOptionalText = .ok a → Arrives d o "signing_key" { d with signingKey := some a }
  | encryptionKey {a : Option String} :
      o.readOptionalText = .ok a → Arrives d o "encryption_key" { d with encryptionKey := some a }
  | subjectKey {a : String} : o.readText = .ok a → Arrives d o "subject_key" { d with subjectKey := some a }
  | rolesKey {a : String} : o.readText = .ok a → Arrives d o "roles_key" { d with rolesKey := some a }
  | clockSkewTolerance {a : UInt64} :
      o.readNatural = .ok a → Arrives d o "clock_skew_tolerance_seconds" { d with clockSkewTolerance := some a }
  | requireBearerScheme {a : Bool} :
      o.readBool = .ok a → Arrives d o "require_bearer_scheme" { d with requireBearerScheme := some a }
  | none {x : String} : ¬ x ∈ record.fields → Arrives d o x d

theorem arrives_of_put (h : record.put d x o = .ok d') : Arrives d o x d' := by
  have h : d.put x o = .ok d' := h
  unfold Draft.put at h
  split at h
  case h_7 =>
    cases h
    refine .none ?_
    simp only [record, List.mem_cons, List.not_mem_nil, or_false, not_or]
    exact ⟨‹_›, ‹_›, ‹_›, ‹_›, ‹_›, ‹_›⟩
  all_goals
    obtain ⟨a, ha, h⟩ := Outcome.bind_eq_ok_iff.1 h
    cases h
  · exact .signingKey ha
  · exact .encryptionKey ha
  · exact .subjectKey ha
  · exact .rolesKey ha
  · exact .clockSkewTolerance ha
  · exact .requireBearerScheme ha

/-- what is read for a field can be passed over -/
theorem skip_of_put (hf : x ∈ record.fields) (h : record.put d x o = .ok d') : o.skip = .ok () := by
  cases arrives_of_put h with
  | signingKey ha => exact Json.skip_of_readOptionalText ha
  | encryptionKey ha => exact Json.skip_of_readOptionalText ha
  | subjectKey ha => exact Json.skip_of_readText ha
  | rolesKey ha => exact Json.skip_of_readText ha
  | clockSkewTolerance ha => exact Json.skip_of_readNatural ha
  | requireBearerScheme ha => exact Json.skip_of_readBool ha
  | none hf' => exact absurd hf hf'

theorem has_of_put_ne (h : record.put d x o = .ok d') (name : String) (hne : name ≠ x) :
    record.has d' name = record.has d name := by
  show d'.has name = d.has name
  unfold Draft.has
  cases arrives_of_put h <;> split <;> first | rfl | exact absurd rfl hne

/-! ## the fields -/

def signingKeySlot : record.Slot (Option String) where
  name := "signing_key"
  read := Outline.readOptionalText
  get := Draft.signingKey
  set d a := { d with signingKey := some a }
  mem_fields := by decide
  has_eq _ := rfl
  put_eq _ o := Outcome.bind_ok_eq_map o.readOptionalText _
  get_set _ _ := rfl
  get_of_put_ne hne h := by
    cases arrives_of_put h with
    | signingKey => exact absurd rfl hne
    | _ => rfl

def encryptionKeySlot : record.Slot (Option String) where
  name := "encryption_key"
  read := Outline.readOptionalText
  get := Draft.encryptionKey
  set d a := { d with encryptionKey := some a }
  mem_fields := by decide
  has_eq _ := rfl
  put_eq _ o := Outcome.bind_ok_eq_map o.readOptionalText _
  get_set _ _ := rfl
  get_of_put_ne hne h := by
    cases arrives_of_put h with
    | encryptionKey => exact absurd rfl hne
    | _ => rfl

def subjectKeySlot : record.Slot String where
  name := "subject_key"
  read := Outline.readText
  get := Draft.subjectKey
  set d a := { d with subjectKey := some a }
  mem_fields := by decide
  has_eq _ := rfl
  put_eq _ o := Outcome.bind_ok_eq_map o.readText _
  get_set _ _ := rfl
  get_of_put_ne hne h := by
    cases arrives_of_put h with
    | subjectKey => exact absurd rfl hne
    | _ => rfl

def rolesKeySlot : record.Slot String where
  name := "roles_key"
  read := Outline.readText
  get := Draft.rolesKey
  set d a := { d with rolesKey := some a }
  mem_fields := by decide
  has_eq _ := rfl
  put_eq _ o := Outcome.bind_ok_eq_map o.readText _
  get_set _ _ := rfl
  get_of_put_ne hne h := by
    cases arrives_of_put h with
    | rolesKey => exact absurd rfl hne
    | _ => rfl

def clockSkewToleranceSlot : record.Slot UInt64 where
  name := "clock_skew_tolerance_seconds"
  read := Outline.readNatural
  get := Draft.clockSkewTolerance
  set d a := { d with clockSkewTolerance := some a }
  mem_fields := by decide
  has_eq _ := rfl
  put_eq _ o := Outcome.bind_ok_eq_map o.readNatural _
  get_set _ _ := rfl
  get_of_put_ne hne h := by
    cases arrives_of_put h with
    | clockSkewTolerance => exact absurd rfl hne
    | _ => rfl

def requireBearerSchemeSlot : record.Slot Bool where
  name := "require_bearer_scheme"
  read := Outline.readBool
  get := Draft.requireBearerScheme
  set d a := { d with requireBearerScheme := some a }
  mem_fields := by decide
  has_eq _ := rfl
  put_eq _ o := Outcome.bind_ok_eq_map o.readBool _
  get_set _ _ := rfl
  get_of_put_ne hne h := by
    cases arrives_of_put h with
    | requireBearerScheme => exact absurd rfl hne
    | _ => rfl

/-- something about each field: its part of a draft, its default and what the settings have there -/
structure AtFields (P : (α : Type) → record.Slot α → α → α → Prop) (s : Settings) : Prop where
  signingKey : P _ signingKeySlot default.signingKey s.signingKey
  encryptionKey : P _ encryptionKeySlot default.encryptionKey s.encryptionKey
  subjectKey : P _ subjectKeySlot default.subjectKey s.subjectKey
  rolesKey : P _ rolesKeySlot default.rolesKey s.rolesKey
  clockSkewTolerance : P _ clockSkewToleranceSlot default.clockSkewTolerance s.clockSkewTolerance
  requireBearerScheme : P _ requireBearerSchemeSlot default.requireBearerScheme s.requireBearerScheme

section
variable {P Q R : (α : Type) → record.Slot α → α → α → Prop}

theorem AtFields.imp₂ (hP : AtFields P s) (hQ : AtFields Q s)
    (h : ∀ α slot default a, P α slot default a → Q α slot default a → R α slot default a) : AtFields R s where
  signingKey := h _ _ _ _ hP.signingKey hQ.signingKey
  encryptionKey := h _ _ _ _ hP.encryptionKey hQ.encryptionKey
  subjectKey := h _ _ _ _ hP.subjectKey hQ.subjectKey
  rolesKey := h _ _ _ _ hP.rolesKey hQ.rolesKey
  clockSkewTolerance := h _ _ _ _ hP.clockSkewTolerance hQ.clockSkewTolerance
  requireBearerScheme := h _ _ _ _ hP.requireBearerScheme hQ.requireBearerScheme

theorem AtFields.imp (hP : AtFields P s) (h : ∀ α slot default a, P α slot default a → R α slot default a) :
    AtFields R s :=
  hP.imp₂ hP fun α slot default a hp _ => h α slot default a hp

/-- what holds of the fields of the default settings holds of the defaults of the fields -/
theorem AtFields.of_default {P : (α : Type) → record.Slot α → α → Prop}
    (h : AtFields (fun α slot _ a => P α slot a) default) : AtFields (fun α slot default _ => P α slot default) s :=
  ⟨h.signingKey, h.encryptionKey, h.subjectKey, h.rolesKey, h.clockSkewTolerance, h.requireBearerScheme⟩

/-- what holds of each name of a field -/
theorem AtFields.forall_mem_fields {p : String → Prop} (h : AtFields (fun _ slot _ _ => p slot.name) s) :
    ∀ name ∈ record.fields, p name :=
  List.forall_mem_cons.2 ⟨h.signingKey, List.forall_mem_cons.2 ⟨h.encryptionKey,
    List.forall_mem_cons.2 ⟨h.subjectKey, List.forall_mem_cons.2 ⟨h.rolesKey,
    List.forall_mem_cons.2 ⟨h.clockSkewTolerance, List.forall_mem_cons.2 ⟨h.requireBearerScheme, nofun⟩⟩⟩⟩⟩⟩

end

/-! ## what members give -/

/-- the settings that members give: each field is what they say about it, or its default -/
structure GivenBy (members : List (Json.Spelled × Outline)) (s : Settings) : Prop where
  names : record.NamesReadable members
  fields : AtFields (fun _ slot default a => slot.Gives members default a) s

theorem GivenBy.unique (h : GivenBy members s) (h' : GivenBy members s') : s = s' := by
  cases s
  cases s'
  congr 1
  · exact h.fields.signingKey.unique h'.fields.signingKey
  · exact h.fields.encryptionKey.unique h'.fields.encryptionKey
  · exact h.fields.subjectKey.unique h'.fields.subjectKey
  · exact h.fields.rolesKey.unique h'.fields.rolesKey
  · exact h.fields.clockSkewTolerance.unique h'.fields.clockSkewTolerance
  · exact h.fields.requireBearerScheme.unique h'.fields.requireBearerScheme

theorem givenBy_of_ofMembers (h : record.ofMembers {} members = .ok d) : GivenBy members d.finish where
  names := Record.namesReadable_of_ofMembers h
  fields := {
    signingKey := ⟨_, signingKeySlot.says_of_ofMembers h rfl, rfl⟩
    encryptionKey := ⟨_, encryptionKeySlot.says_of_ofMembers h rfl, rfl⟩
    subjectKey := ⟨_, subjectKeySlot.says_of_ofMembers h rfl, rfl⟩
    rolesKey := ⟨_, rolesKeySlot.says_of_ofMembers h rfl, rfl⟩
    clockSkewTolerance := ⟨_, clockSkewToleranceSlot.says_of_ofMembers h rfl, rfl⟩
    requireBearerScheme := ⟨_, requireBearerSchemeSlot.says_of_ofMembers h rfl, rfl⟩ }

theorem GivenBy.exists_ofMembers (h : GivenBy members s) : ∃ d, record.ofMembers {} members = .ok d := by
  have hempty : AtFields (fun _ slot _ _ => record.has {} slot.name = false) s := ⟨rfl, rfl, rfl, rfl, rfl, rfl⟩
  refine Record.exists_ofMembers (fun hput => has_of_put_ne hput) h.names
    (h.fields.imp₂ hempty fun _ _ _ _ hg hh => ?_).forall_mem_fields
  obtain ⟨said, hs, -⟩ := hg
  exact hs.readable.imp_right fun hr => ⟨hh, hr⟩

/-- **An object is read as the settings that its members give.** -/
theorem ofOutline_object_eq_ok_iff : ofOutline (.object members none) = .ok s ↔ GivenBy members s := by
  rw [ofOutline, Record.ofOutline_object_eq_ok_iff]
  constructor
  · rintro ⟨d, h, hd⟩
    cases hd
    exact givenBy_of_ofMembers h
  · intro hg
    obtain ⟨d, h⟩ := hg.exists_ofMembers
    refine ⟨d, h, ?_⟩
    rw [hg.unique (givenBy_of_ofMembers h)]

theorem GivenBy.perm (h : GivenBy members s) (hp : members.Perm members') : GivenBy members' s where
  names m hm := h.names m (hp.mem_iff.2 hm)
  fields := h.fields.imp fun _ _ _ _ hg => hg.perm hp

/-- a member that is no field may come or go -/
theorem GivenBy.insert_iff {name : String} (hname : m.1.text = .ok name) (hf : ¬ name ∈ record.fields)
    (hskip : m.2.skip = .ok ()) : GivenBy (before ++ m :: after) s ↔ GivenBy (before ++ after) s := by
  have hne {α : Type} (slot : record.Slot α) : name ≠ slot.name := by
    rintro rfl
    exact hf slot.mem_fields
  constructor
  · intro h
    refine ⟨fun m' hm' => h.names m' ?_, h.fields.imp fun _ slot _ _ hg => ?_⟩
    · rw [List.mem_append] at hm'
      exact List.mem_append.2 (hm'.imp_right (List.mem_cons_of_mem m))
    · exact (Record.Slot.Gives.insert_ne_iff hname (hne slot)).1 hg
  · intro h
    refine ⟨h.names.insert hname fun _ => hskip, h.fields.imp fun _ slot _ _ hg => ?_⟩
    exact (Record.Slot.Gives.insert_ne_iff hname (hne slot)).2 hg

/-- a field that was left out may be given its default -/
theorem GivenBy.insert_default {name : String} (h : GivenBy (before ++ after) s) (hname : m.1.text = .ok name)
    (hf : name ∈ record.fields) (habsent : Json.valuesOf name (before ++ after) = [])
    (hread : AtFields (fun _ slot default _ => slot.name = name → slot.read m.2 = .ok default) s) :
    GivenBy (before ++ m :: after) s where
  names := h.names.insert hname fun hf' => absurd hf hf'
  fields := h.fields.imp₂ hread fun _ slot _ _ hg hr => by
    by_cases he : slot.name = name
    · subst he
      exact hg.insert_default hname habsent (hr rfl)
    · exact (Record.Slot.Gives.insert_ne_iff hname (Ne.symm he)).2 hg

end BearerCredentials.Settings
