import BearerCredentials.Credentials
import BearerCredentials.Proofs.Claims.Read
import BearerCredentials.Proofs.NameMap
import BearerCredentials.Proofs.Roles
import Mathlib.Data.String.Basic

/-!
# Credentials as the image of claims

* `NamesSubject`, `exists_ofClaims_iff`   claims amount to credentials where the subject's claim is neither
                                          null nor blank;
* `toList_attributesOf`                   there is one attribute for each claim, in the order of the claims;
* `attribute?_ofClaims`                   the attribute of a claim is the text of that claim;
* `ofClaims_eq_ok_iff`                    what credentials are made of;
* `IsImage`                               nothing of the claims is lost, and nothing is added;
* `isImage_of_ofClaims`                   credentials are the image of the claims that they are made of.
-/

namespace BearerCredentials

/-! ## the subject -/

/-- a claim that is neither null nor a blank text -/
def NamesSubject (v : Json) : Prop := v ≠ .null ∧ ∀ s, v = .text s → Text.allBlank s = false

/-- a subject is the text of the claim that names it -/
theorem subjectOf?_eq_some_iff {v : Json} {username : String} :
    subjectOf? (some v) = some username ↔ NamesSubject v ∧ claimText v = username := by
  cases v with
  | null => simp [subjectOf?, NamesSubject]
  | text s =>
    cases hs : Text.allBlank s with
    | true => simp [subjectOf?, NamesSubject, hs]
    | false => simp [subjectOf?, NamesSubject, hs, claimText]
  | _ => simp [subjectOf?, NamesSubject]

theorem exists_subjectOf?_iff {v : Json} : (∃ username, subjectOf? (some v) = some username) ↔ NamesSubject v := by
  simp only [subjectOf?_eq_some_iff, exists_and_left, exists_eq', and_true]

theorem namesSubject_canonical {v : Json} : NamesSubject v.canonical ↔ NamesSubject v := by
  cases v <;> simp [NamesSubject, Json.canonical]

namespace Credentials

theorem exists_ofClaims_iff {claims : Claims} {subjectKey rolesKey : String} :
    (∃ c, ofClaims claims subjectKey rolesKey = .ok c) ↔
      ∃ v, claims.get? subjectKey = some v ∧ NamesSubject v := by
  have hsome : (∃ c, ofClaims claims subjectKey rolesKey = .ok c) ↔
      ∃ username, subjectOf? (claims.get? subjectKey) = some username := by
    unfold ofClaims Claims.subject?
    cases subjectOf? (claims.get? subjectKey) with
    | none => simp
    | some username => simp
  rw [hsome]
  cases claims.get? subjectKey with
  | none => simp [subjectOf?]
  | some v => simp [exists_subjectOf?_iff]

theorem ofClaims_eq_error {claims : Claims} {subjectKey rolesKey : String} {denial : Denial}
    (h : ofClaims claims subjectKey rolesKey = .error denial) : denial = .noSubject subjectKey := by
  unfold ofClaims at h
  cases hs : claims.subject? subjectKey with
  | none =>
    rw [hs] at h
    cases h
    rfl
  | some username =>
    rw [hs] at h
    cases h

/-- members without repeated names amount to credentials by the member that names the subject -/
theorem exists_ofClaims_ofMembers {members : List (String × Json)} {subjectKey : String} {v : Json}
    (rolesKey : String) (hn : (members.map Prod.fst).Nodup) (hm : (subjectKey, v) ∈ members) (hv : NamesSubject v) :
    ∃ c, ofClaims (Claims.ofMembers members) subjectKey rolesKey = .ok c := by
  refine exists_ofClaims_iff.2 ⟨v.canonical, ?_, namesSubject_canonical.2 hv⟩
  rw [Claims.get?_ofMembers_of_once (countP_le_one hn subjectKey), Token.member?, lookup_of_mem hn hm]
  rfl

end Credentials

/-! ## attributes -/

namespace Credentials

theorem attributeName_injective (x y : String) (h : attributeName x = attributeName y) : x = y :=
  (String.append_right_inj attributeStart).1 h

/-- what stands before the name of a claim leaves the order of names as it is -/
theorem attributeName_lt {x y : String} (h : x < y) : attributeName x < attributeName y := by
  rw [String.lt_iff_toList_lt] at h ⊢
  rw [attributeName, attributeName, String.toList_append, String.toList_append]
  exact List.append_left_lt h

/-- **There is one attribute for each claim**, in the order of the claims. -/
theorem toList_attributesOf (claims : Claims) :
    (attributesOf claims).toList = claims.toList.map fun e => (attributeName e.1, claimText e.2) := by
  refine NameMap.toList_ofList ?_
  rw [List.map_map]
  exact List.pairwise_map.2 ((List.pairwise_map.1 claims.ascending).imp attributeName_lt)

theorem get?_attributesOf (claims : Claims) (name : String) :
    (attributesOf claims).get? (attributeName name) = (claims.get? name).map claimText := by
  rw [NameMap.get?_eq_lookup, toList_attributesOf, lookup_map claimText attributeName_injective,
    NameMap.get?_eq_lookup]

/-- **The attribute of a claim is the text of that claim.** -/
theorem attribute?_ofClaims {claims : Claims} {subjectKey rolesKey : String} {c : Credentials}
    (h : ofClaims claims subjectKey rolesKey = .ok c) (name : String) :
    c.attribute? name = (claims.get? name).map claimText := by
  unfold ofClaims at h
  split at h
  · cases h
  · cases h
    exact get?_attributesOf claims name

end Credentials

/-! ## the image -/

/-- only a text can be blank -/
theorem not_allBlank_claimText {v : Json} (h : NamesSubject v) : Text.allBlank (claimText v) = false := by
  have hcompact : Text.allBlank v.compact = false := (Json.trimmed_compact v).1.not_allBlank (Json.trimmed_compact v).2
  cases v with
  | text s => exact h.2 s rfl
  | _ => exact hcompact

namespace Credentials

variable {claims : Claims} {subjectKey rolesKey : String} {c : Credentials}

theorem ofClaims_eq_ok_iff :
    ofClaims claims subjectKey rolesKey = .ok c ↔
      (∃ v, claims.get? subjectKey = some v ∧ NamesSubject v ∧ claimText v = c.username) ∧
        c.roles = RoleClaim.rolesOf (claims.get? rolesKey) ∧ c.attributes = attributesOf claims := by
  have hsubject : (∃ v, claims.get? subjectKey = some v ∧ NamesSubject v ∧ claimText v = c.username) ↔
      claims.subject? subjectKey = some c.username := by
    unfold Claims.subject?
    cases claims.get? subjectKey with
    | none => simp [subjectOf?]
    | some v => simp [subjectOf?_eq_some_iff]
  rw [hsubject]
  unfold ofClaims
  obtain ⟨username, roles, attributes⟩ := c
  cases claims.subject? subjectKey with
  | none => simp
  | some name => simp [RoleClaim.rolesOf, eq_comm]

/-- nothing of the claims is lost in credentials, and nothing is added -/
structure IsImage (claims : Claims) (subjectKey rolesKey : String) (c : Credentials) : Prop where
  size_eq : c.attributes.size = claims.size
  named : ∀ name text, c.attributes.get? name = some text →
    ∃ claim v, claims.get? claim = some v ∧ name = "attr.jwt." ++ claim ∧ text = claimText v
  attribute?_eq : ∀ claim, c.attribute? claim = (claims.get? claim).map claimText
  subject : c.attribute? subjectKey = some c.username
  not_blank : Text.allBlank c.username = false
  roles_eq : c.roles = RoleClaim.rolesOf (claims.get? rolesKey)

theorem size_attributesOf (claims : Claims) : (attributesOf claims).size = claims.size := by
  have h := congrArg List.length (toList_attributesOf claims)
  rwa [List.length_map] at h

/-- each attribute is the one of a claim -/
theorem exists_claim_of_attributesOf {name text : String} (h : (attributesOf claims).get? name = some text) :
    ∃ claim v, claims.get? claim = some v ∧ name = attributeName claim ∧ text = claimText v := by
  rw [← NameMap.mem_toList_iff, toList_attributesOf] at h
  obtain ⟨⟨claim, v⟩, hm, e⟩ := List.mem_map.1 h
  obtain ⟨rfl, rfl⟩ := Prod.mk.inj e
  exact ⟨claim, v, NameMap.mem_toList_iff.1 hm, rfl, rfl⟩

theorem isImage_of_ofClaims (h : ofClaims claims subjectKey rolesKey = .ok c) : IsImage claims subjectKey rolesKey c := by
  obtain ⟨⟨v, hv, hs, hu⟩, hr, ha⟩ := ofClaims_eq_ok_iff.1 h
  refine ⟨?_, fun name text ht => ?_, attribute?_ofClaims h, ?_, ?_, hr⟩
  · rw [ha, size_attributesOf]
  · rw [ha] at ht
    exact exists_claim_of_attributesOf ht
  · rw [attribute?_ofClaims h, hv, Option.map_some, hu]
  · rw [← hu]
    exact not_allBlank_claimText hs

/-- **Credentials are the image of the claims that they are made of.** There are some where the claim that names the
subject is there, not null, and no blank text; else the subject is missing under that very name. There are as many
attributes as claims, each one has the name of a claim, and each claim has its text as one; the user name is one of
these texts and not blank, and the roles are those of the claim that names them. -/
theorem ofClaims_faithful (claims : Claims) (subjectKey rolesKey : String) :
    ((∃ c, ofClaims claims subjectKey rolesKey = .ok c) ↔
        ∃ v, claims.get? subjectKey = some v ∧ v ≠ .null ∧ ∀ s, v = .text s → Text.allBlank s = false) ∧
      (∀ denial, ofClaims claims subjectKey rolesKey = .error denial → denial = .noSubject subjectKey) ∧
      ∀ c, ofClaims claims subjectKey rolesKey = .ok c → IsImage claims subjectKey rolesKey c :=
  ⟨exists_ofClaims_iff, fun _ => ofClaims_eq_error, fun _ => isImage_of_ofClaims⟩

/-- a claim with no name, and one that is named as its attribute would be -/
def oddClaims : Claims := .ofList [("", .array [.text "a", .null]), ("attr.jwt.", .text " x ")]

theorem ofClaims_faithful_oddClaims : ∃ c, ofClaims oddClaims "" "" = .ok c ∧ IsImage oddClaims "" "" c := by
  have hv : oddClaims.get? "" = some (.array [.text "a", .null]) := by rfl
  obtain ⟨c, hc⟩ := (ofClaims_faithful oddClaims "" "").1.2 ⟨_, hv, nofun, nofun⟩
  exact ⟨c, hc, (ofClaims_faithful oddClaims "" "").2.2 c hc⟩

end Credentials

end BearerCredentials
