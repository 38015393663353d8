import BearerCredentials.Proofs.Token.Registered
import BearerCredentials.Token

/-!
# The checks of a token

Each check succeeds under one condition, and later proofs cite the condition only.

* `Signed`, `checkSignature_eq_ok_iff`   the signature belongs to the token, under the key alone;
* `checkSignature_of_not_signed`         how the check fails under a key that can be used;
* `checkSignature_eq_brokenDown_iff`     the check breaks down where the key is too short to be cut;
* `claimsAt_eq_ok_iff`                   the payload is in order and the token is valid now;
* `claims_eq_ok_iff`                     both.
-/

namespace BearerCredentials.Token

variable {scheme : SignatureScheme} {key : VerifyingKey} {t : Token}

/-- the signature of a token belongs to it, by an algorithm that takes the kind of the key -/
def Signed (scheme : SignatureScheme) (key : VerifyingKey) (t : Token) : Prop :=
  ∃ algorithm verify signature, t.algorithm? = some algorithm ∧ algorithm ∈ key.kind.algorithms ∧
    scheme algorithm key.material = .ok verify ∧ segmentBytes? t.signature = some signature ∧
    verify t.signed signature = true

theorem checkWith_eq_ok_iff {verify : Verifier} :
    t.checkWith verify = .ok () ↔
      ∃ signature, segmentBytes? t.signature = some signature ∧ verify t.signed signature = true := by
  unfold checkWith
  cases segmentBytes? t.signature with
  | none => simp
  | some signature =>
    cases h : verify t.signed signature with
    | true => simp [h]
    | false => simp [h]

theorem checkWith_ne_brokenDown (verify : Verifier) : t.checkWith verify ≠ .error .brokenDown := by
  unfold checkWith
  cases segmentBytes? t.signature with
  | none => simp
  | some signature => cases h : verify t.signed signature <;> simp [h]

theorem checkWith_eq_refused {verify : Verifier} {fault : TokenFault}
    (h : t.checkWith verify = .error (.refused fault)) : fault = .malformed ∨ fault = .wrongSignature := by
  unfold checkWith at h
  split at h
  · cases h
    exact Or.inl rfl
  split at h
  · cases h
  · cases h
    exact Or.inr rfl

/-- what the check of the signature comes to once the algorithm is known to take the key -/
theorem checkSignature_of_algorithm {algorithm : Algorithm} (h : t.algorithm? = some algorithm)
    (hk : algorithm ∈ key.kind.algorithms) :
    t.checkSignature scheme key =
      match scheme algorithm key.material with
      | .error .unusable => .error (.refused .malformed)
      | .error .tooShort => .error .brokenDown
      | .ok verify => t.checkWith verify := by
  have hc : key.algorithms.contains algorithm = true := List.contains_iff_mem.2 hk
  unfold checkSignature
  rw [h]
  show (if (!key.algorithms.contains algorithm) = true then _ else _) = _
  rw [hc]
  rfl

theorem checkSignature_of_no_algorithm (h : t.algorithm? = none) :
    t.checkSignature scheme key = .error (.refused .malformed) := by
  unfold checkSignature
  rw [h]
  rfl

theorem checkSignature_of_foreign {algorithm : Algorithm} (h : t.algorithm? = some algorithm)
    (hk : algorithm ∉ key.kind.algorithms) :
    t.checkSignature scheme key = .error (.refused .foreignAlgorithm) := by
  have hc : key.algorithms.contains algorithm = false := by
    rw [← Bool.not_eq_true, List.contains_iff_mem]
    exact hk
  unfold checkSignature
  rw [h]
  simp only [hc, Bool.not_false, if_true, TokenFault.ofReport]

/-- without an algorithm that takes the key the token is refused -/
theorem checkSignature_refused (scheme : SignatureScheme) (h : ¬ ∃ algorithm, t.algorithm? = some algorithm ∧
    algorithm ∈ key.kind.algorithms) : ∃ fault, t.checkSignature scheme key = .error (.refused fault) := by
  cases ha : t.algorithm? with
  | none => exact ⟨_, checkSignature_of_no_algorithm ha⟩
  | some algorithm => exact ⟨_, checkSignature_of_foreign ha fun hm => h ⟨algorithm, ha, hm⟩⟩

theorem checkSignature_eq_ok_iff : t.checkSignature scheme key = .ok () ↔ t.Signed scheme key := by
  by_cases h : ∃ algorithm, t.algorithm? = some algorithm ∧ algorithm ∈ key.kind.algorithms
  · obtain ⟨algorithm, ha, hk⟩ := h
    rw [checkSignature_of_algorithm ha hk]
    constructor
    · intro hc
      split at hc
      · cases hc
      · cases hc
      · rename_i verify hv
        obtain ⟨signature, hs, hok⟩ := checkWith_eq_ok_iff.1 hc
        exact ⟨algorithm, verify, signature, ha, hk, hv, hs, hok⟩
    · rintro ⟨algorithm', verify, signature, ha', -, hv, hs, hok⟩
      obtain rfl := Option.some.inj (ha.symm.trans ha')
      rw [hv]
      exact checkWith_eq_ok_iff.2 ⟨signature, hs, hok⟩
  · constructor
    · intro hc
      obtain ⟨fault, hf⟩ := checkSignature_refused scheme h
      rw [hf] at hc
      cases hc
    · rintro ⟨algorithm, verify, signature, ha, hk, -⟩
      exact absurd ⟨algorithm, ha, hk⟩ h

theorem not_signed_of_foreign {algorithm : Algorithm} (h : t.algorithm? = some algorithm)
    (hk : algorithm ∉ key.kind.algorithms) : ¬ t.Signed scheme key := by
  rw [← checkSignature_eq_ok_iff, checkSignature_of_foreign h hk]
  simp

/-- the check of a signature that does not belong to its token -/
theorem checkSignature_of_not_signed {algorithm : Algorithm} {verify : Verifier} (ha : t.algorithm? = some algorithm)
    (hk : algorithm ∈ key.kind.algorithms) (hv : scheme algorithm key.material = .ok verify)
    (h : ¬ t.Signed scheme key) :
    t.checkSignature scheme key = .error (.refused
      (if (segmentBytes? t.signature).isSome then .wrongSignature else .malformed)) := by
  rw [checkSignature_of_algorithm ha hk, hv]
  show t.checkWith verify = _
  unfold checkWith
  cases hs : segmentBytes? t.signature with
  | none => rfl
  | some signature =>
    cases hok : verify t.signed signature with
    | true => exact absurd ⟨algorithm, verify, signature, ha, hk, hv, hs, hok⟩ h
    | false => simp [hok]

/-- **The check of a signature breaks down where the key is too short for the token's algorithm.** -/
theorem checkSignature_eq_brokenDown_iff :
    t.checkSignature scheme key = .error .brokenDown ↔
      ∃ algorithm, t.algorithm? = some algorithm ∧ algorithm ∈ key.kind.algorithms ∧
        scheme algorithm key.material = .error .tooShort := by
  by_cases h : ∃ algorithm, t.algorithm? = some algorithm ∧ algorithm ∈ key.kind.algorithms
  · obtain ⟨algorithm, ha, hk⟩ := h
    rw [checkSignature_of_algorithm ha hk]
    constructor
    · intro hc
      split at hc
      · cases hc
      · rename_i hv
        exact ⟨algorithm, ha, hk, hv⟩
      · exact absurd hc (checkWith_ne_brokenDown _)
    · rintro ⟨algorithm', ha', -, hv⟩
      obtain rfl := Option.some.inj (ha.symm.trans ha')
      rw [hv]
  · constructor
    · intro hc
      obtain ⟨fault, hf⟩ := checkSignature_refused scheme h
      rw [hf] at hc
      cases hc
    · rintro ⟨algorithm, ha, hk, -⟩
      exact absurd ⟨algorithm, ha, hk⟩ h

/-- both readings of a payload see the same members -/
theorem payload?_eq_some_iff {members : Members} {validity : Validity} :
    t.payload? = some (members, validity) ↔
      segmentMembers? t.payload = some members ∧ Validity.ofMembers? members = some validity := by
  constructor
  · intro h
    obtain ⟨bytes, hb, h⟩ := Option.bind_eq_some_iff.1 h
    obtain ⟨text, ht, h⟩ := Option.bind_eq_some_iff.1 h
    split at h
    · rename_i hread hvalidity
      cases h
      refine ⟨?_, (Validity.read_eq_ok_iff hread).1 hvalidity⟩
      simp only [segmentMembers?, hb, ht, Option.bind_eq_bind, Option.bind_some, hread]
    · cases h
  · rintro ⟨hm, hv⟩
    obtain ⟨bytes, hb, hm⟩ := Option.bind_eq_some_iff.1 hm
    obtain ⟨text, ht, hm⟩ := Option.bind_eq_some_iff.1 hm
    split at hm
    · rename_i hread
      cases hm
      simp only [payload?, hb, ht, Option.bind_eq_bind, Option.bind_some, hread,
        (Validity.read_eq_ok_iff hread).2 hv]
    · cases hm

theorem claimsAt_of_no_payload {tolerance now : Nat} (h : t.payload? = none) :
    t.claimsAt tolerance now = .error .malformed := by
  unfold claimsAt
  rw [h]
  rfl

theorem claimsAt_eq_ok_iff {tolerance now : Nat} {claims : Claims} :
    t.claimsAt tolerance now = .ok claims ↔
      ∃ members validity, segmentMembers? t.payload = some members ∧
        Validity.ofMembers? members = some validity ∧ validity.fault? tolerance now = none ∧
        claims = Claims.ofMembers members := by
  unfold claimsAt
  constructor
  · intro h
    split at h
    · cases h
    · rename_i members validity e
      obtain ⟨hm, hv⟩ := payload?_eq_some_iff.1 e
      split at h
      · cases h
      · rename_i hf
        cases h
        exact ⟨members, validity, hm, hv, hf, rfl⟩
  · rintro ⟨members, validity, hm, hv, hf, rfl⟩
    rw [payload?_eq_some_iff.2 ⟨hm, hv⟩]
    simp only [hf]

theorem claims_eq_ok_iff {tolerance now : Nat} {claims : Claims} :
    t.claims scheme key tolerance now = .ok claims ↔
      t.Signed scheme key ∧ t.claimsAt tolerance now = .ok claims := by
  unfold Token.claims
  rw [Outcome.bind_eq_ok_iff]
  constructor
  · rintro ⟨_, hs, h⟩
    exact ⟨checkSignature_eq_ok_iff.1 hs, Outcome.mapError_eq_ok_iff.1 h⟩
  · rintro ⟨hs, h⟩
    exact ⟨(), checkSignature_eq_ok_iff.2 hs, Outcome.mapError_eq_ok_iff.2 h⟩

theorem claims_eq_brokenDown_iff {tolerance now : Nat} :
    t.claims scheme key tolerance now = .error .brokenDown ↔
      t.checkSignature scheme key = .error .brokenDown := by
  unfold Token.claims
  rw [Outcome.bind_eq_error_iff]
  constructor
  · rintro (h | ⟨-, -, h⟩)
    · exact h
    · obtain ⟨fault, -, hf⟩ := Outcome.mapError_eq_error_iff.1 h
      cases hf
  · exact Or.inl

end BearerCredentials.Token
