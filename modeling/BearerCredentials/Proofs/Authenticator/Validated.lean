import BearerCredentials.Proofs.Authenticator.Issued
import BearerCredentials.Proofs.Credentials.Image
import BearerCredentials.Proofs.Token.Instants

/-!
# What is validated is what is handed on

The time of a token is checked in one reading of its payload, and the credentials are made from another.

* `Validated`                  a payload of which both readings say the same about its time;
* `validated_of_extract`       the payload behind some credentials is such a one.
-/

namespace BearerCredentials

namespace Authenticator

/-- the payload behind some credentials, of which both readings say the same about the time -/
structure Validated (a : Authenticator) (now : Nat) (headers : Http.Headers) (c : Credentials) where
  token : Token
  payloadText : String
  /-- the members of the payload as they are spelled -/
  fields : List (Json.Spelled × Json.Outline)
  claims : Claims
  validity : Token.Validity
  sent : Authorization.ofHeaders a.requireBearerScheme headers = .ok token.text
  payload_decoded : Base64.decode .url token.payload.toList = some (utf8 payloadText)
  spelled : Json.Outline.ofText payloadText = ⟨.object fields none, false⟩
  once : ∀ name ∈ ["exp", "nbf", "sub", "iss", "aud"],
    fields.countP (fun field => field.1.text.toOption == some name) ≤ 1
  claims_of_payload : Claims.read payloadText = .ok claims
  credentials_of_claims : Credentials.ofClaims claims a.subjectKey a.rolesKey = .ok c
  validity_of_payload : Token.Validity.read payloadText = .ok validity
  expires : ∀ v, claims.get? "exp" = some v → ∃ n e, v = .number n ∧ n.RoundsTo e ∧
    validity.expires = some e ∧ now - a.tolerance.toNat ≤ e ∧ c.attribute? "exp" = some (claimText v)
  starts : ∀ v, claims.get? "nbf" = some v → ∃ n s, v = .number n ∧ n.RoundsTo s ∧
    validity.starts = some s ∧ s ≤ now + a.tolerance.toNat ∧ c.attribute? "nbf" = some (claimText v)

variable {scheme : SignatureScheme} {a : Authenticator} {now : Nat} {headers : Http.Headers} {c : Credentials}
  {log : List LogEvent}

/-- **No request has credentials unless its payload is validated as it is handed on.** -/
theorem validated_of_extract (h : a.extract scheme now headers = some ⟨some c, log⟩) :
    Nonempty (Validated a now headers c) := by
  obtain ⟨key, token, -, hsent, hcred⟩ := authenticate_eq_ok_iff.1 (extract_eq_some_iff.1 h).1
  obtain ⟨t, claims, ht, hclaims, hc⟩ := credentialsOf_eq_ok_iff.1 hcred
  obtain ⟨rfl, -⟩ := Token.ofText?_eq_some_iff.1 ht
  obtain ⟨members, validity, hmembers, hvalidity, hfault, rfl⟩ :=
    Token.claimsAt_eq_ok_iff.1 (Token.claims_eq_ok_iff.1 hclaims).2
  obtain ⟨payloadText, hpayload, hread⟩ := Token.segmentMembers?_eq_some_iff.1 hmembers
  obtain ⟨fields, hspelled, hfields⟩ := Json.read_eq_object_iff.1 hread
  obtain ⟨hlate, hearly⟩ := Token.Validity.fault?_eq_none_iff.1 hfault
  have honce := Token.noneRepeated_iff.1 (Token.Validity.ofMembers?_eq_some_iff.1 hvalidity).1
  have hclaims := Claims.read_eq_ok_iff.2 ⟨members, hread, rfl⟩
  have htime := (Token.Validity.read_eq_ok_iff hread).2 hvalidity
  obtain ⟨hexp, hnbf⟩ := Token.gives_of_read hclaims htime
  have hattribute {name : String} {v : Json} (hv : (Claims.ofMembers members).get? name = some v) :
      c.attribute? name = some (claimText v) := by
    rw [Credentials.attribute?_ofClaims hc name, hv]
    rfl
  exact ⟨{
    token := t, payloadText, fields, claims := Claims.ofMembers members, validity
    sent := hsent
    payload_decoded := Token.segmentBytes?_eq_some_iff.2 hpayload
    spelled := hspelled
    once := by
      intro name hname
      rw [Json.countP_name_of_readsAs hfields]
      exact honce name hname
    claims_of_payload := hclaims
    credentials_of_claims := hc
    validity_of_payload := htime
    expires := by
      intro v hv
      obtain ⟨n, e, hn, he, hround⟩ := hexp.of_claim v hv
      have hle := hlate e he
      exact ⟨n, e, hn, hround, he, by omega, hattribute hv⟩
    starts := by
      intro v hv
      obtain ⟨n, s, hn, hs, hround⟩ := hnbf.of_claim v hv
      exact ⟨n, s, hn, hround, hs, hearly s hs, hattribute hv⟩ }⟩

theorem validated_of_extract_edgePayload :
    ∃ headers c log,
      Http.Headers.ofList [(utf8 "Authorization",
        utf8 ("Bearer " ++ (Token.issue .sha512 (utf8 "key") edgePayload).text))] = .ok headers ∧
      (ofSettings edgeSettings).extract standardScheme 1700000030 headers = some ⟨some c, log⟩ ∧
      Nonempty (Validated (ofSettings edgeSettings) 1700000030 headers c) := by
  obtain ⟨headers, c, hlist, -, -, hx⟩ := exists_accepted_issue .sha512
    (key_of_secret (by decide) signingKey_edgeSettings) read_edgePayload timely_edgeMembers
    name_edgeMembers namesSubject_ada
  exact ⟨headers, c, _, hlist, hx, validated_of_extract hx⟩

end Authenticator

end BearerCredentials
