import BearerCredentials.Proofs.Authenticator.Issued

/-!
# What credentials rest on

* `Grounds`               everything that stands behind some credentials;
* `grounds_of_extract`    no request has credentials without it.
-/

namespace BearerCredentials

namespace Token

/-- the algorithm of a header is the one that its member `alg` names -/
theorem name_of_headerAlgorithm? {fields : Members} {algorithm : Algorithm}
    (h : headerAlgorithm? fields = some algorithm) :
    (member? "alg" fields).bind choice? = some algorithm.name := by
  unfold headerAlgorithm? at h
  split at h
  · obtain ⟨v, hv, ha⟩ := Option.bind_eq_some_iff.1 h
    obtain ⟨name, hname, hfind⟩ := Option.bind_eq_some_iff.1 ha
    have hn := List.find?_some hfind
    rw [hv, Option.bind_some, hname, ← eq_of_beq hn]
  · cases h

end Token

namespace Authenticator

/-- what the credentials of a request rest on -/
structure Grounds (scheme : SignatureScheme) (s : Settings) (headers : Http.Headers) (c : Credentials) where
  key : VerifyingKey
  /-- the value of the header -/
  value : String
  token : Token
  algorithm : Algorithm
  verify : Verifier
  signature : Bytes
  headerText : String
  headerFields : Token.Members
  payloadText : String
  claims : Claims
  key_of_setting : VerifyingKey.ofSetting s.signingKey = .ok key
  sent : headers.first? (utf8 "Authorization") = some (utf8 value)
  carried : Authorization.Carries s.requireBearerScheme value token.text
  points : token.text.toList.count '.' = 2
  symbols : ∀ ch ∈ token.text.toList, ch = '.' ∨ Base64.IsUrlSymbol ch
  header_decoded : Base64.decode .url token.header.toList = some (utf8 headerText)
  header_read : Json.read headerText = .ok (.object headerFields)
  header_well_formed : Token.headerAlgorithm? headerFields = some algorithm
  header_names : (Token.member? "alg" headerFields).bind Token.choice? = some algorithm.name
  algorithm_of_kind : algorithm ∈ key.kind.algorithms
  /-- the configured material alone, whatever key the header may carry -/
  verify_of_key : scheme algorithm key.material = .ok verify
  signature_decoded : Base64.decode .url token.signature.toList = some signature
  /-- all of the token before its last point -/
  signature_verified : verify (utf8 (token.header ++ "." ++ token.payload)) signature = true
  payload_decoded : Base64.decode .url token.payload.toList = some (utf8 payloadText)
  claims_of_payload : Claims.read payloadText = .ok claims
  credentials_of_claims : Credentials.ofClaims claims s.subjectKey s.rolesKey = .ok c

variable {scheme : SignatureScheme} {s : Settings} {now : Nat} {headers : Http.Headers} {c : Credentials}
  {log : List LogEvent}

/-- **No request has credentials without grounds.** -/
theorem grounds_of_extract (h : (ofSettings s).extract scheme now headers = some ⟨some c, log⟩) :
    Nonempty (Grounds scheme s headers c) := by
  obtain ⟨key, token, hkey, hsent, hcred⟩ := authenticate_eq_ok_iff.1 (extract_eq_some_iff.1 h).1
  -- the header
  obtain ⟨bytes, value, hfirst, hvisible, hparse⟩ := Authorization.ofHeaders_eq_ok_iff.1 hsent
  obtain ⟨rfl, -⟩ := Http.visible?_eq_some_iff.1 hvisible
  have hcarried := Authorization.carries_of_parse hparse
  -- the segments
  obtain ⟨t, claims, ht, hclaims, hc⟩ := credentialsOf_eq_ok_iff.1 hcred
  obtain ⟨rfl, -⟩ := Token.ofText?_eq_some_iff.1 ht
  obtain ⟨hsigned, hpayload⟩ := Token.claims_eq_ok_iff.1 hclaims
  obtain ⟨algorithm, verify, signature, halgorithm, hkind, hverify, hsignature, hok⟩ := hsigned
  obtain ⟨fields, hfields, hnamed⟩ := Option.bind_eq_some_iff.1 halgorithm
  obtain ⟨headerText, hheader, hheaderRead⟩ := Token.segmentMembers?_eq_some_iff.1 hfields
  obtain ⟨members, validity, hmembers, -, -, rfl⟩ := Token.claimsAt_eq_ok_iff.1 hpayload
  obtain ⟨payloadText, hpayloadText, hpayloadRead⟩ := Token.segmentMembers?_eq_some_iff.1 hmembers
  have hh := Token.segmentBytes?_eq_some_iff.2 hheader
  have hp := Token.segmentBytes?_eq_some_iff.2 hpayloadText
  have hsymbols := Token.OfSymbols.of_bytes hh hp hsignature
  exact ⟨{
    key, value, token := t, algorithm, verify, signature, headerText, headerFields := fields, payloadText
    claims := Claims.ofMembers members
    key_of_setting := hkey
    sent := hfirst
    carried := hcarried
    points := hsymbols.count_point_text
    symbols := hsymbols.mem_text
    header_decoded := hh
    header_read := hheaderRead
    header_well_formed := hnamed
    header_names := Token.name_of_headerAlgorithm? hnamed
    algorithm_of_kind := hkind
    verify_of_key := hverify
    signature_decoded := hsignature
    signature_verified := hok
    payload_decoded := hp
    claims_of_payload := Claims.read_eq_ok_iff.2 ⟨members, hpayloadRead, rfl⟩
    credentials_of_claims := hc }⟩

theorem grounds_of_extract_edgePayload :
    ∃ headers c log,
      Http.Headers.ofList [(utf8 "Authorization",
        utf8 ("Bearer " ++ (Token.issue .sha256 (utf8 "key") edgePayload).text))] = .ok headers ∧
      (ofSettings edgeSettings).extract standardScheme 1700000030 headers = some ⟨some c, log⟩ ∧
      Nonempty (Grounds standardScheme edgeSettings headers c) := by
  obtain ⟨headers, c, hlist, -, -, hx⟩ := exists_accepted_issue .sha256
    (key_of_secret (by decide) signingKey_edgeSettings) read_edgePayload timely_edgeMembers
    name_edgeMembers namesSubject_ada
  exact ⟨headers, c, _, hlist, hx, grounds_of_extract hx⟩

end Authenticator

end BearerCredentials
