import BearerCredentials.Proofs.Credentials.Image
import BearerCredentials.Proofs.Json.Canonical
import BearerCredentials.Proofs.Json.Equality

/-!
# The text of a claim says all of it

* `Claims.Tells`                  what a payload claims under a name;
* `Claims.Tells.canonical_eq`     it is in canonical form;
* `Claims.Tells.depth_lt`         it is not nested too deep to be read again;
* `Claims.Tells.read_claimText`   so its text is read back as what is claimed;
* `claimText_lossless`            attributes lose nothing.
-/

namespace BearerCredentials

namespace Json

/-- a value that is no text, with no floating point number anywhere in it -/
structure IsExactData (v : Json) : Prop where
  not_text : ∀ s, v ≠ .text s
  exact : v.Exact

theorem IsExactData.claimText_eq {v : Json} (h : v.IsExactData) : claimText v = v.compact := by
  cases v with
  | text s => exact absurd rfl (h.not_text s)
  | _ => rfl

end Json

namespace Claims

/-- what a payload claims under a name -/
def Tells (payload name : String) (v : Json) : Prop :=
  ∃ claims, Claims.read payload = .ok claims ∧ claims.get? name = some v

variable {payload name : String} {v : Json}

/-- a claim is the canonical form of a member of the payload -/
theorem Tells.exists_member (h : Tells payload name v) :
    ∃ members m, Json.read payload = .ok (.object members) ∧ m ∈ members ∧ m.2.canonical = v := by
  obtain ⟨claims, hread, hv⟩ := h
  obtain ⟨members, hm, rfl⟩ := read_eq_ok_iff.1 hread
  rw [get?_ofMembers] at hv
  obtain ⟨u, hu, rfl⟩ := Option.map_eq_some_iff.1 hv
  exact ⟨members, (name, u), hm, List.mem_reverse.1 (mem_of_lookup hu), rfl⟩

theorem Tells.canonical_eq (h : Tells payload name v) : v.canonical = v := by
  obtain ⟨members, m, -, -, rfl⟩ := h.exists_member
  exact Json.canonical_canonical m.2

/-- a claim stands one level below the payload -/
theorem Tells.depth_lt (h : Tells payload name v) : v.depth < Json.maxDepth := by
  obtain ⟨members, m, hread, hm, rfl⟩ := h.exists_member
  have hroot := (Json.Outline.Document.read_eq_ok_iff.1 hread).1
  have hpayload : Json.depthMembers members + 1 ≤ Json.maxDepth := Json.depth_le_of_ofOutline _ hroot
  calc m.2.canonical.depth ≤ m.2.depth := Json.depth_canonical_le m.2
    _ ≤ Json.depthMembers members := Json.depthMembers_le_iff.1 (Nat.le_refl _) m hm
    _ < Json.maxDepth := hpayload

/-- **The text of a claim is read back as the claim.** -/
theorem Tells.read_claimText (h : Tells payload name v) (hv : v.IsExactData) : Json.read (claimText v) = .ok v := by
  rw [hv.claimText_eq]
  exact Json.read_compact hv.exact (Nat.le_of_lt h.depth_lt)

end Claims

/-- **Attributes lose nothing.** The attribute of a claim is its text: a text as it is, and other data without floating
point numbers as a JSON text that is read as that data and no other. So data that two payloads claim has one text
only where it is the same. -/
theorem claimText_lossless {payload : String} {claims : Claims} {name : String} {v : Json}
    (hread : Claims.read payload = .ok claims) (hv : claims.get? name = some v) :
    (∀ subjectKey rolesKey c, Credentials.ofClaims claims subjectKey rolesKey = .ok c →
        c.attribute? name = some (claimText v)) ∧
      (∀ s, v = .text s → claimText v = s) ∧
      (v.IsExactData → Json.read (claimText v) = .ok v ∧ v.canonical = v) ∧
      ∀ payload' name' w, Claims.Tells payload' name' w → v.IsExactData → w.IsExactData →
        claimText v = claimText w → v = w := by
  have htells : Claims.Tells payload name v := ⟨claims, hread, hv⟩
  refine ⟨fun subjectKey rolesKey c hc => ?_, fun s hs => ?_, fun he => ?_, fun payload' name' w hw he he' heq => ?_⟩
  · rw [Credentials.attribute?_ofClaims hc, hv]
    rfl
  · rw [hs]
    rfl
  · exact ⟨htells.read_claimText he, htells.canonical_eq⟩
  · have hback : Json.read (claimText v) = .ok w := by rw [heq, hw.read_claimText he']
    exact Except.ok.inj ((htells.read_claimText he).symm.trans hback)

/-- a payload with a repeated member deep inside, the numbers at both ends, and names that have to be escaped -/
def nestedPayload : String :=
  "\x7b\"name\": \"Ada\", \"deep\": [\x7b\"b\": 1e5, \"a\": \x7b\"\\u0000\\\"\\ud83d\\ude00\": [[]]\x7d, " ++
    "\"b\": [-9223372036854775808, 18446744073709551615, null]\x7d]\x7d"

def nestedValue : Json :=
  .array [.object [
    ("a", .object [("\x00\"😀", .array [.array []])]),
    ("b", .array [.number (.integer (-9223372036854775808) (by decide) (by decide)),
      .number (.integer 18446744073709551615 (by decide) (by decide)), .null])]]

def nestedClaims : Claims := ⟨[("deep", nestedValue), ("name", .text "Ada")], by decide⟩

theorem read_nestedPayload : Claims.read nestedPayload = .ok nestedClaims :=
  Outcome.toOption_eq_some_iff.1 (by decide +kernel)

theorem isExactData_nestedValue : nestedValue.IsExactData where
  not_text := nofun
  exact := by simp [nestedValue, Json.Exact, Json.ExactItems, Json.ExactMembers]

/-- other data, of another payload -/
theorem tells_text : Claims.Tells "\x7b\"deep\": [\"null\"]\x7d" "deep" (.array [.text "null"]) :=
  ⟨⟨[("deep", .array [.text "null"])], by decide⟩, Outcome.toOption_eq_some_iff.1 (by decide +kernel), by rfl⟩

theorem claimText_lossless_nestedPayload :
    Claims.read nestedPayload = .ok nestedClaims ∧ nestedClaims.get? "deep" = some nestedValue ∧
      nestedValue.IsExactData ∧ (Json.read (claimText nestedValue) = .ok nestedValue ∧
        nestedValue.canonical = nestedValue) ∧ claimText nestedValue ≠ claimText (.array [.text "null"]) := by
  have hv : nestedClaims.get? "deep" = some nestedValue := by rfl
  have hother : (Json.array [.text "null"]).IsExactData := ⟨nofun, trivial, trivial⟩
  obtain ⟨-, -, hback, hdiffer⟩ := claimText_lossless read_nestedPayload hv
  refine ⟨read_nestedPayload, hv, isExactData_nestedValue, hback isExactData_nestedValue, fun heq => ?_⟩
  cases hdiffer _ _ _ tells_text isExactData_nestedValue hother heq

end BearerCredentials
