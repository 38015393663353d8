import BearerCredentials.Proofs.Json.Accepted
import BearerCredentials.Proofs.Json.Typed
import BearerCredentials.Proofs.Json.Written
import BearerCredentials.Proofs.Settings.Members

/-!
# Settings in texts

* `read_of_json`             a text that says what settings are written as is read as those settings;
* `exists_phrase_of_read`    what is read as settings is the text of an object or an array;
* `read_objectText_iff`      the text of an object is read as the settings that its members give;
* `Rearranged`               members in another order, with or without members that are no fields, and with
                             defaults added;
* `GivenBy.rearranged`       they give the same settings;
* `read_compact_rearranged`  so settings are read back, and from each such text.
-/

namespace BearerCredentials.Settings

open Json (Outline Record Padded Blanks Member spelled memberOutlines objectText)

variable {s : Settings} {text name : String} {depth : Nat} {fields : List (Json.Spelled × Outline)}
  {m : Member} {members members' : List Member}

/-! ## settings that are written -/

theorem exact_json (s : Settings) : s.json.Exact := by
  have hkey (key : Option String) : (jsonOption key).Exact := by cases key <;> trivial
  exact ⟨hkey s.signingKey, hkey s.encryptionKey, trivial, trivial, trivial, trivial, trivial⟩

theorem depth_json (s : Settings) : s.json.depth ≤ Json.maxDepth := by
  have hkey (key : Option String) : (jsonOption key).depth = 0 := by cases key <;> rfl
  have hd : s.json.depth = 1 := by
    show max (jsonOption s.signingKey).depth (max (jsonOption s.encryptionKey).depth 0) + 1 = 1
    rw [hkey, hkey]
    rfl
  rw [hd]
  decide

theorem readOptionalText_of_jsonOption {o : Outline} {key : Option String}
    (h : Json.ofOutline depth o = .ok (jsonOption key)) : o.readOptionalText = .ok key := by
  cases key with
  | none => exact Json.readOptionalText_of_null h
  | some text => exact Json.readOptionalText_of_text h

theorem readNatural_of_jsonNatural {o : Outline} {n : UInt64}
    (h : Json.ofOutline depth o = .ok (jsonNatural n)) : o.readNatural = .ok n := by
  have hn : (Json.Number.integer n.toNat (by omega) (by have := n.toNat_lt; omega)).natural? = some n.toNat := by
    simp [Json.Number.natural?]
  rw [Json.readNatural_of_ofOutline h hn, UInt64.ofNat_toNat]

theorem nodup_writtenMembers (s : Settings) : (s.writtenMembers.map Prod.fst).Nodup := by
  show ["signing_key", "encryption_key", "subject_key", "roles_key", "clock_skew_tolerance_seconds",
    "require_bearer_scheme"].Nodup
  decide

/-- a value that is read for a field as something -/
def Writes {α : Type} (slot : record.Slot α) (v : Json) (a : α) : Prop :=
  ∀ {depth : Nat} {o : Outline}, Json.ofOutline depth o = .ok v → slot.read o = .ok a

/-- each field has a member, whose value is read as the field -/
theorem exists_writtenMember (s : Settings) :
    AtFields (fun _ slot _ a => ∃ v, (slot.name, v) ∈ s.writtenMembers ∧ Writes slot v a) s where
  signingKey := ⟨_, .head _, readOptionalText_of_jsonOption⟩
  encryptionKey := ⟨_, .tail _ (.head _), readOptionalText_of_jsonOption⟩
  subjectKey := ⟨_, .tail _ (.tail _ (.head _)), Json.readText_of_ofOutline⟩
  rolesKey := ⟨_, .tail _ (.tail _ (.tail _ (.head _))), Json.readText_of_ofOutline⟩
  clockSkewTolerance := ⟨_, .tail _ (.tail _ (.tail _ (.tail _ (.head _)))), readNatural_of_jsonNatural⟩
  requireBearerScheme := ⟨_, .tail _ (.tail _ (.tail _ (.tail _ (.tail _ (.head _))))), Json.readBool_of_ofOutline⟩

/-- members that are read as written settings give them -/
theorem givenBy_of_reads (h : List.Forall₂ (Json.ReadsAs depth) fields s.writtenMembers) : GivenBy fields s where
  names := Record.namesReadable_of_reads h
  fields := s.exists_writtenMember.imp fun _ _ _ a ⟨_, hm, hw⟩ => by
    obtain ⟨o, ho, hv⟩ := Json.exists_valuesOf_of_mem h s.nodup_writtenMembers hm
    exact ⟨some a, .value ho (hw hv), rfl⟩

/-- **A text that says what settings are written as** is read as those settings. -/
theorem read_of_json (h : Json.read text = .ok s.json) : read text = .ok s := by
  obtain ⟨fields, htext, hms⟩ := Json.read_eq_object_iff.1 h
  rw [read, Outline.Document.read_eq_ok_iff, htext]
  exact ⟨ofOutline_object_eq_ok_iff.2 (givenBy_of_reads hms), rfl⟩

/-- **What is read as settings is JSON**: an object, or an array with the fields in order. -/
theorem exists_phrase_of_read (h : read text = .ok s) :
    ∃ p : Padded Json.Phrase, text = p.text ∧
      ((∃ members stop, p.value = .object members stop) ∨ ∃ items stop, p.value = .array items stop) := by
  rw [read, Outline.Document.read_eq_ok_iff] at h
  obtain ⟨hroot, htrailing⟩ := h
  have hdocument : Outline.ofText text = ⟨(Outline.ofText text).root, false⟩ := by rw [← htrailing]
  obtain ⟨p, hp, ho⟩ := Json.exists_phrase_of_ofText hdocument (Record.skip_of_ofOutline skip_of_put hroot)
  refine ⟨p, hp, ?_⟩
  rw [← ho] at hroot
  cases hv : p.value with
  | object members stop => exact Or.inl ⟨members, stop, rfl⟩
  | array items stop => exact Or.inr ⟨items, stop, rfl⟩
  | _ =>
    rw [hv] at hroot
    cases hroot

/-! ## members that are rearranged -/

/-- **The text of an object is read as the settings that its members give.** -/
theorem read_objectText_iff {before stop after : Blanks} :
    read (objectText before members stop after) = .ok s ↔ GivenBy (memberOutlines members) s := by
  rw [read, Outline.Document.read_eq_ok_iff, objectText, Json.ofText_text, and_iff_left rfl]
  exact ofOutline_object_eq_ok_iff

/-- a member has a name, in whatever way that is spelled -/
def IsNamed (m : Member) (name : String) : Prop := (spelled m.1.value).text = .ok name

/-- a member that is no field -/
def IsUnknown (m : Member) : Prop := ∃ name, IsNamed m name ∧ ¬ name ∈ record.fields

/-- a member with the value that a field has in the default settings -/
def IsDefault (m : Member) (name : String) : Prop :=
  IsNamed m name ∧ ∃ v, (name, v) ∈ default.writtenMembers ∧ Json.read m.2.text = .ok v

/-- members that are put into another order, joined or left by members that are no fields, whatever their values,
and joined by the defaults of fields that were left out -/
inductive Rearranged : List Member → List Member → Prop
  | perm {members members' : List Member} : members.Perm members' → Rearranged members members'
  | insert (before after : List Member) {m : Member} : IsUnknown m →
      Rearranged (before ++ after) (before ++ m :: after)
  | remove (before after : List Member) {m : Member} : IsUnknown m →
      Rearranged (before ++ m :: after) (before ++ after)
  | addDefault (before after : List Member) {m : Member} {name : String} : IsDefault m name →
      (∀ m' ∈ before ++ after, ¬ IsNamed m' name) → Rearranged (before ++ after) (before ++ m :: after)
  | trans {members middle members' : List Member} : Rearranged members middle → Rearranged middle members' →
      Rearranged members members'

theorem memberOutlines_insert (before after : List Member) (m : Member) :
    memberOutlines (before ++ m :: after) =
      memberOutlines before ++ (spelled m.1.value, m.2.value.outline) :: memberOutlines after := by
  rw [Json.memberOutlines_eq_map, List.map_append, List.map_cons, ← Json.memberOutlines_eq_map,
    ← Json.memberOutlines_eq_map]

theorem memberOutlines_append (before after : List Member) :
    memberOutlines (before ++ after) = memberOutlines before ++ memberOutlines after := by
  rw [Json.memberOutlines_eq_map, List.map_append, ← Json.memberOutlines_eq_map, ← Json.memberOutlines_eq_map]

theorem valuesOf_memberOutlines (h : ∀ m ∈ members, ¬ IsNamed m name) :
    Json.valuesOf name (memberOutlines members) = [] := by
  rw [Json.memberOutlines_eq_map]
  exact Json.valuesOf_eq_nil (List.forall_mem_map.2 h)

theorem GivenBy.insert_unknown_iff (hm : IsUnknown m) (before after : List Member) :
    GivenBy (memberOutlines (before ++ m :: after)) s ↔ GivenBy (memberOutlines (before ++ after)) s := by
  obtain ⟨name, hname, hf⟩ := hm
  rw [memberOutlines_insert, memberOutlines_append]
  exact GivenBy.insert_iff hname hf (Json.skip_outline m.2.value)

/-- where a member has the default of a field, that is what is read for the field -/
theorem read_of_isDefault (hm : IsDefault m name) :
    AtFields (fun _ slot default _ => slot.name = name → slot.read m.2.value.outline = .ok default) s := by
  obtain ⟨-, v, hv, hread⟩ := hm
  have ho : Json.ofOutline Json.maxDepth m.2.value.outline = .ok v := by
    rw [Json.read, Outline.Document.read_eq_ok_iff, Json.ofText_text] at hread
    exact hread.1
  refine (default.exists_writtenMember.imp fun _ slot _ a ⟨v', hv', hw⟩ => ?_).of_default
  rintro rfl
  have hn := default.nodup_writtenMembers
  obtain rfl : v' = v := Option.some.inj ((lookup_of_mem hn hv').symm.trans (lookup_of_mem hn hv))
  exact hw ho

theorem GivenBy.add_default (hm : IsDefault m name) {before after : List Member}
    (h : GivenBy (memberOutlines (before ++ after)) s) (habsent : ∀ m' ∈ before ++ after, ¬ IsNamed m' name) :
    GivenBy (memberOutlines (before ++ m :: after)) s := by
  have hv := valuesOf_memberOutlines habsent
  have hf : name ∈ record.fields := by
    obtain ⟨-, v, hv, -⟩ := hm
    exact List.mem_map_of_mem (f := Prod.fst) hv
  rw [memberOutlines_append] at h hv
  rw [memberOutlines_insert]
  exact h.insert_default hm.1 hf hv (read_of_isDefault hm)

/-- **Members that are rearranged give the same settings.** -/
theorem GivenBy.rearranged (h : Rearranged members members') (hg : GivenBy (memberOutlines members) s) :
    GivenBy (memberOutlines members') s := by
  induction h with
  | perm hp =>
    rw [Json.memberOutlines_eq_map] at hg ⊢
    exact hg.perm (hp.map _)
  | insert before after hm => exact (insert_unknown_iff hm before after).2 hg
  | remove before after hm => exact (insert_unknown_iff hm before after).1 hg
  | addDefault before after hm habsent => exact hg.add_default hm habsent
  | trans _ _ ih ih' => exact ih' (ih hg)

/-- **Settings are read back from what they are written as**; whatever is read as settings is the text of an object or
an array, and what is read from the text of an object stays the same where its members are rearranged. -/
theorem read_compact_rearranged :
    (∀ s : Settings, read s.json.compact = .ok s) ∧
    (∀ {text : String} {s : Settings}, read text = .ok s → ∃ p : Padded Json.Phrase, text = p.text ∧
      ((∃ members stop, p.value = .object members stop) ∨ ∃ items stop, p.value = .array items stop)) ∧
    ∀ {members members' : List Member}, Rearranged members members' →
      ∀ (before stop after before' stop' after' : Blanks) (s : Settings),
        read (objectText before members stop after) = .ok s →
          read (objectText before' members' stop' after') = .ok s := by
  refine ⟨fun s => ?_, exists_phrase_of_read, ?_⟩
  · exact read_of_json (Json.read_compact s.exact_json s.depth_json)
  · intro members members' h before stop after before' stop' after' s hs
    exact read_objectText_iff.2 (GivenBy.rearranged h (read_objectText_iff.1 hs))

/-- a member with a name that is written plainly, and a blank before its value -/
def spacedMember (name : String) (value : Json.Phrase) : Member :=
  (⟨{}, Json.letters name, {}⟩, ⟨⟨[' '], by simp⟩, value, {}⟩)

theorem isNamed_spacedMember_iff {x : String} {value : Json.Phrase} :
    IsNamed (spacedMember name value) x ↔ name = x := by
  rw [IsNamed, spacedMember, Json.text_letters, Except.ok.injEq]

/-- no field, with a nested value that cannot be read, only passed over -/
def strayMember : Member :=
  spacedMember "stray" (.array [
    ⟨{}, .object [(⟨{}, [.half], {}⟩, ⟨{}, .null, {}⟩)] {}, {}⟩,
    ⟨{}, .bool true, {}⟩] {})

def userMember : Member := spacedMember "subject_key" (.text (Json.letters "user"))

def rolesMember : Member := spacedMember "roles_key" (.text (Json.letters "roles"))

theorem isDefault_rolesMember : IsDefault rolesMember "roles_key" := by
  refine ⟨isNamed_spacedMember_iff.2 rfl, .text "roles", .tail _ (.tail _ (.tail _ (.head _))), ?_⟩
  rw [Json.read, Outline.Document.read_eq_ok_iff, Json.ofText_text]
  exact ⟨rfl, rfl⟩

theorem rearranged_strayMember : Rearranged [userMember] [rolesMember, strayMember, userMember] := by
  have hstray : IsUnknown strayMember := ⟨"stray", isNamed_spacedMember_iff.2 rfl, by decide⟩
  have habsent : ∀ m ∈ [strayMember, userMember], ¬ IsNamed m "roles_key" := by
    refine List.forall_mem_cons.2 ⟨fun h => ?_, List.forall_mem_singleton.2 fun h => ?_⟩
    · exact absurd (isNamed_spacedMember_iff.1 h) (by decide)
    · exact absurd (isNamed_spacedMember_iff.1 h) (by decide)
  refine .trans (.insert [] [userMember] hstray) ?_
  refine .trans (.addDefault [strayMember] [userMember] isDefault_rolesMember habsent) ?_
  exact .perm (.swap rolesMember strayMember [userMember])

theorem read_strayMember :
    Rearranged [userMember] [rolesMember, strayMember, userMember] ∧
      read (objectText {} [userMember] {} {}) = .ok { subjectKey := "user" } ∧
      read (objectText {} [rolesMember, strayMember, userMember] {} {}) = .ok { subjectKey := "user" } := by
  have hs : read (objectText {} [userMember] {} {}) = .ok { subjectKey := "user" } :=
    read_objectText_iff.2 (ofOutline_object_eq_ok_iff.1 rfl)
  exact ⟨rearranged_strayMember, hs, read_compact_rearranged.2.2 rearranged_strayMember {} {} {} {} {} {} _ hs⟩

end BearerCredentials.Settings
