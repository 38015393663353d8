import BearerCredentials.Authenticator
import BearerCredentials.Proofs.Token.Checks

/-!
# The stages of authentication

* `authenticate_eq_ok_iff`, `authenticate_eq_brokenDown_iff`   a key and a token have to be there first;
* `authenticate_eq_refused_iff`                                where a cause comes from;
* `credentialsOf_eq_ok_iff`                                    what a token has to pass;
* `credentialsOf_of_error`, `credentialsOf_of_signed`          the signature first, and then the payload;
* `extract_eq_some_iff`, `extract_eq_none_iff`                 what is left of this outside.
-/

namespace BearerCredentials.Authenticator

variable {scheme : SignatureScheme} {a : Authenticator} {key : VerifyingKey} {now : Nat}
  {headers : Http.Headers} {token : String} {c : Credentials}

theorem credentialsOf_eq_ok_iff :
    a.credentialsOf scheme key now token = .ok c ↔
      ∃ t claims, Token.ofText? token = some t ∧ t.claims scheme key a.tolerance.toNat now = .ok claims ∧
        Credentials.ofClaims claims a.subjectKey a.rolesKey = .ok c := by
  unfold credentialsOf
  constructor
  · intro h
    split at h
    · cases h
    · rename_i t ht
      split at h
      · cases h
      · cases h
      · rename_i claims hclaims
        exact ⟨t, claims, ht, hclaims, Outcome.mapError_eq_ok_iff.1 h⟩
  · rintro ⟨t, claims, ht, hclaims, h⟩
    rw [ht]
    simp only [hclaims]
    exact Outcome.mapError_eq_ok_iff.2 h

theorem credentialsOf_eq_brokenDown_iff :
    a.credentialsOf scheme key now token = .error .brokenDown ↔
      ∃ t, Token.ofText? token = some t ∧ t.checkSignature scheme key = .error .brokenDown := by
  unfold credentialsOf
  constructor
  · intro h
    split at h
    · cases h
    · rename_i t ht
      split at h
      · cases h
      · rename_i hb
        exact ⟨t, ht, Token.claims_eq_brokenDown_iff.1 hb⟩
      · obtain ⟨fault, -, hf⟩ := Outcome.mapError_eq_error_iff.1 h
        cases hf
  · rintro ⟨t, ht, hb⟩
    rw [ht]
    simp only [Token.claims_eq_brokenDown_iff.2 hb]

theorem authenticate_eq_ok_iff :
    a.authenticate scheme now headers = .ok c ↔
      ∃ key token, a.key = .ok key ∧ Authorization.ofHeaders a.requireBearerScheme headers = .ok token ∧
        a.credentialsOf scheme key now token = .ok c := by
  unfold authenticate
  constructor
  · intro h
    obtain ⟨key, hkey, h⟩ := Outcome.bind_eq_ok_iff.1 h
    obtain ⟨token, htoken, h⟩ := Outcome.bind_eq_ok_iff.1 h
    exact ⟨key, token, Outcome.mapError_eq_ok_iff.1 hkey, Outcome.mapError_eq_ok_iff.1 htoken, h⟩
  · rintro ⟨key, token, hkey, htoken, h⟩
    refine Outcome.bind_eq_ok_iff.2 ⟨key, Outcome.mapError_eq_ok_iff.2 hkey, ?_⟩
    exact Outcome.bind_eq_ok_iff.2 ⟨token, Outcome.mapError_eq_ok_iff.2 htoken, h⟩

theorem authenticate_of_no_key {fault : KeySettingFault} (h : a.key = .error fault) :
    a.authenticate scheme now headers = .error (.refused (.key fault)) := by
  rw [authenticate, h]
  rfl

theorem authenticate_eq_credentialsOf (hkey : a.key = .ok key)
    (hsent : Authorization.ofHeaders a.requireBearerScheme headers = .ok token) :
    a.authenticate scheme now headers = a.credentialsOf scheme key now token := by
  unfold authenticate
  rw [hkey, hsent]
  rfl

/-- what is reported of a token -/
def reported : Failure TokenFault → Failure Denial
  | .refused fault => .refused (.token fault)
  | .brokenDown => .brokenDown

/-- a token is not looked at any further where its signature does not belong to it -/
theorem credentialsOf_of_error {t : Token} {e : Failure TokenFault} (ht : Token.ofText? token = some t)
    (h : t.checkSignature scheme key = .error e) :
    a.credentialsOf scheme key now token = .error (reported e) := by
  have hclaims : t.claims scheme key a.tolerance.toNat now = .error e := by
    rw [Token.claims, h]
    rfl
  unfold credentialsOf
  rw [ht]
  simp only [hclaims]
  cases e <;> rfl

/-- after the signature the payload decides -/
theorem credentialsOf_of_signed {t : Token} (ht : Token.ofText? token = some t) (h : t.Signed scheme key) :
    a.credentialsOf scheme key now token =
      match t.claimsAt a.tolerance.toNat now with
      | .error fault => .error (.refused (.token fault))
      | .ok claims => (Credentials.ofClaims claims a.subjectKey a.rolesKey).mapError .refused := by
  have hclaims : t.claims scheme key a.tolerance.toNat now =
      (t.claimsAt a.tolerance.toNat now).mapError .refused := by
    rw [Token.claims, Token.checkSignature_eq_ok_iff.2 h]
    rfl
  unfold credentialsOf
  rw [ht]
  simp only [hclaims]
  cases t.claimsAt a.tolerance.toNat now <;> rfl

theorem authenticate_eq_brokenDown_iff :
    a.authenticate scheme now headers = .error .brokenDown ↔
      ∃ key token t, a.key = .ok key ∧ Authorization.ofHeaders a.requireBearerScheme headers = .ok token ∧
        Token.ofText? token = some t ∧ t.checkSignature scheme key = .error .brokenDown := by
  unfold authenticate
  constructor
  · intro h
    rcases Outcome.bind_eq_error_iff.1 h with h | ⟨key, hkey, h⟩
    · obtain ⟨fault, -, hf⟩ := Outcome.mapError_eq_error_iff.1 h
      cases hf
    rcases Outcome.bind_eq_error_iff.1 h with h | ⟨token, htoken, h⟩
    · obtain ⟨fault, -, hf⟩ := Outcome.mapError_eq_error_iff.1 h
      cases hf
    obtain ⟨t, ht, hb⟩ := credentialsOf_eq_brokenDown_iff.1 h
    exact ⟨key, token, t, Outcome.mapError_eq_ok_iff.1 hkey, Outcome.mapError_eq_ok_iff.1 htoken, ht, hb⟩
  · rintro ⟨key, token, t, hkey, htoken, ht, hb⟩
    refine Outcome.bind_eq_error_iff.2 (Or.inr ⟨key, Outcome.mapError_eq_ok_iff.2 hkey, ?_⟩)
    refine Outcome.bind_eq_error_iff.2 (Or.inr ⟨token, Outcome.mapError_eq_ok_iff.2 htoken, ?_⟩)
    exact credentialsOf_eq_brokenDown_iff.2 ⟨t, ht, hb⟩

/-- where a cause comes from -/
theorem authenticate_eq_refused_iff {denial : Denial} :
    a.authenticate scheme now headers = .error (.refused denial) ↔
      (∃ fault, a.key = .error fault ∧ denial = .key fault) ∨
        ∃ key, a.key = .ok key ∧
          (Authorization.ofHeaders a.requireBearerScheme headers = .error denial ∨
            ∃ token, Authorization.ofHeaders a.requireBearerScheme headers = .ok token ∧
              a.credentialsOf scheme key now token = .error (.refused denial)) := by
  cases hkey : a.key with
  | error fault =>
    rw [authenticate_of_no_key hkey]
    simp [eq_comm]
  | ok key =>
    cases hsent : Authorization.ofHeaders a.requireBearerScheme headers with
    | error cause =>
      have he : a.authenticate scheme now headers = .error (.refused cause) := by
        rw [authenticate, hkey, hsent]
        rfl
      rw [he]
      simp
    | ok token =>
      rw [authenticate_eq_credentialsOf hkey hsent]
      simp

theorem extract_of_refused {denial : Denial} (h : a.authenticate scheme now headers = .error (.refused denial)) :
    a.extract scheme now headers = some ⟨none, [.refused denial]⟩ := by
  rw [extract, h]

/-- of the headers only the token counts -/
theorem extract_congr {headers' : Http.Headers}
    (h : Authorization.ofHeaders a.requireBearerScheme headers = Authorization.ofHeaders a.requireBearerScheme headers') :
    a.extract scheme now headers = a.extract scheme now headers' := by
  unfold extract authenticate
  rw [h]

/-- without a token of three segments there are no credentials -/
theorem exists_extract_of_no_token
    (h : ∀ token, Authorization.ofHeaders a.requireBearerScheme headers = .ok token → Token.ofText? token = none) :
    ∃ log, a.extract scheme now headers = some ⟨none, log⟩ := by
  cases hkey : a.key with
  | error fault => exact ⟨_, extract_of_refused (authenticate_of_no_key hkey)⟩
  | ok key =>
    cases hsent : Authorization.ofHeaders a.requireBearerScheme headers with
    | error cause => exact ⟨_, extract_of_refused (authenticate_eq_refused_iff.2 (Or.inr ⟨key, hkey, Or.inl hsent⟩))⟩
    | ok token =>
      have ht : a.credentialsOf scheme key now token = .error (.refused (.token .malformed)) := by
        rw [credentialsOf, h token hsent]
      exact ⟨_, extract_of_refused ((authenticate_eq_credentialsOf hkey hsent).trans ht)⟩

theorem extract_eq_some_iff {log : List LogEvent} :
    a.extract scheme now headers = some ⟨some c, log⟩ ↔
      a.authenticate scheme now headers = .ok c ∧ log = [.accepted c.username c.roles.size] := by
  unfold extract
  constructor
  · intro h
    split at h
    · rename_i hc
      cases h
      exact ⟨hc, rfl⟩
    · cases h
    · cases h
  · rintro ⟨h, rfl⟩
    rw [h]

/-- every extraction logs one event -/
theorem exists_event_of_extract {found : Option Credentials} {log : List LogEvent}
    (h : a.extract scheme now headers = some ⟨found, log⟩) : ∃ event, log = [event] := by
  unfold extract at h
  split at h
  · cases h
    exact ⟨_, rfl⟩
  · cases h
    exact ⟨_, rfl⟩
  · cases h

theorem extract_eq_none_iff :
    a.extract scheme now headers = none ↔ a.authenticate scheme now headers = .error .brokenDown := by
  unfold extract
  constructor
  · intro h
    split at h
    · cases h
    · cases h
    · rename_i hb
      exact hb
  · intro h
    rw [h]

end BearerCredentials.Authenticator
