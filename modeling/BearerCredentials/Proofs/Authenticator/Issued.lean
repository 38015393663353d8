import BearerCredentials.Proofs.Authenticator.Stages
import BearerCredentials.Proofs.Authorization
import BearerCredentials.Proofs.Credentials.Image
import BearerCredentials.Proofs.Json.Equality
import BearerCredentials.Proofs.Token.Checks
import BearerCredentials.Proofs.Token.Segments
import BearerCredentials.Proofs.Token.Validity
import BearerCredentials.Proofs.VerifyingKey.Spelled

/-!
# Issued tokens are accepted

* `algorithm?_headerText`            the header that names an algorithm is read as naming it;
* `ofSymbols_issue`, `signed_issue`  an issued token can be sent, and its signature belongs to it;
* `claims_issue`                     its claims are those of the payload, if it is valid now;
* `exists_accepted_issue`            its request has the credentials of its payload;
* `extract_issue`                    the same from the settings and the text of the payload on;
* `edgePayload`                      a payload at both ends of the time in which it is valid.
-/

/-! ## the token -/

namespace BearerCredentials.Token

variable {hash : Sha2} {secret : Bytes} {payload : String}

theorem algorithm?_headerText (a : Algorithm) :
    (segmentMembers? (segment (utf8 (headerText a)))).bind headerAlgorithm? = some a := by
  rcases a with (_ | _ | _) | (_ | _ | _) | (_ | _ | _) | (_ | _) | _ <;> decide +kernel

example : headerText (.hmac .sha256) = "\x7b\"typ\":\"JWT\",\"alg\":\"HS256\"\x7d" := by decide +kernel

theorem ofSymbols_issue (hash : Sha2) (secret : Bytes) (payload : String) :
    (issue hash secret payload).OfSymbols :=
  .of_bytes (segmentBytes?_segment _) (segmentBytes?_segment _) (segmentBytes?_segment _)

theorem signed_issue (hash : Sha2) (secret : Bytes) (payload : String) :
    Signed standardScheme ⟨.hmac, secret⟩ (issue hash secret payload) := by
  refine ⟨.hmac hash, _, _, algorithm?_headerText (.hmac hash), ?_, rfl, segmentBytes?_segment _, ?_⟩
  · exact (KeyKind.mem_algorithms_iff .hmac (.hmac hash)).2 rfl
  · exact beq_self_eq_true (hmac hash secret (issue hash secret payload).signed)

theorem claims_issue {members : Members} {tolerance now : Nat} (hash : Sha2) (secret : Bytes)
    (hr : Json.read payload = .ok (.object members)) (ht : Timely members tolerance now) :
    (issue hash secret payload).claims standardScheme ⟨.hmac, secret⟩ tolerance now =
      .ok (Claims.ofMembers members) := by
  obtain ⟨validity, hv, hf⟩ := Validity.exists_validity ht
  have hm : segmentMembers? (issue hash secret payload).payload = some members :=
    segmentMembers?_eq_some_iff.2 ⟨payload, rfl, hr⟩
  exact claims_eq_ok_iff.2 ⟨signed_issue hash secret payload,
    claimsAt_eq_ok_iff.2 ⟨members, validity, hm, hv, hf, rfl⟩⟩

end BearerCredentials.Token

/-! ## its request -/

namespace BearerCredentials.Authenticator

variable {secret : Bytes} {payload : String} {members : Token.Members} {now : Nat} {v : Json}

theorem authenticate_issue {a : Authenticator} {hash : Sha2} {headers : Http.Headers} {c : Credentials}
    (hkey : a.key = .ok ⟨.hmac, secret⟩)
    (hsent : Authorization.ofHeaders a.requireBearerScheme headers = .ok (Token.issue hash secret payload).text)
    (hread : Json.read payload = .ok (.object members))
    (htime : Token.Timely members a.tolerance.toNat now)
    (hc : Credentials.ofClaims (Claims.ofMembers members) a.subjectKey a.rolesKey = .ok c) :
    a.authenticate standardScheme now headers = .ok c := by
  have hclaims := Token.claims_issue hash secret hread htime
  refine authenticate_eq_ok_iff.2 ⟨_, _, hkey, hsent, ?_⟩
  exact credentialsOf_eq_ok_iff.2 ⟨_, _, (Token.ofSymbols_issue hash secret payload).ofText?_text, hclaims, hc⟩

/-- an issued token can be sent, and its request has the credentials of its payload -/
theorem exists_accepted_issue {a : Authenticator} (hash : Sha2) (hkey : a.key = .ok ⟨.hmac, secret⟩)
    (hread : Json.read payload = .ok (.object members))
    (htime : Token.Timely members a.tolerance.toNat now)
    (hm : (a.subjectKey, v) ∈ members) (hv : NamesSubject v) :
    ∃ headers c,
      Http.Headers.ofList [(utf8 "Authorization",
        utf8 ("Bearer " ++ (Token.issue hash secret payload).text))] = .ok headers ∧
      Authorization.ofHeaders a.requireBearerScheme headers = .ok (Token.issue hash secret payload).text ∧
      Credentials.ofClaims (Claims.ofMembers members) a.subjectKey a.rolesKey = .ok c ∧
      a.extract standardScheme now headers = some ⟨some c, [.accepted c.username c.roles.size]⟩ := by
  have hsymbols := Token.ofSymbols_issue hash secret payload
  obtain ⟨headers, hlist, hsent⟩ := Authorization.exists_bearer_headers a.requireBearerScheme
    hsymbols.isVisibleText hsymbols.trimmed_text (Token.text_ne_empty _)
  obtain ⟨c, hc⟩ := Credentials.exists_ofClaims_ofMembers a.rolesKey htime.distinct hm hv
  refine ⟨headers, c, hlist, hsent, hc, ?_⟩
  exact extract_eq_some_iff.2 ⟨authenticate_issue hkey hsent hread htime hc, rfl⟩

theorem key_of_secret {s : Settings} (hsecret : secret ≠ [])
    (hkey : s.signingKey = some (Base64.secretText secret)) : (ofSettings s).key = .ok ⟨.hmac, secret⟩ := by
  show VerifyingKey.ofSetting s.signingKey = _
  rw [hkey]
  exact VerifyingKey.ofSetting_of_spellsSecret (spellsSecret_secretText hsecret)

/-- **A token that was issued with the configured secret yields the credentials of its payload**, whenever the
payload is valid at that instant and names a subject. -/
theorem extract_issue {s : Settings} (hash : Sha2) (hsecret : secret ≠ [])
    (hkey : s.signingKey = some (Base64.secretText secret))
    (hread : Json.read payload = .ok (.object members))
    (htime : Token.Timely members s.clockSkewTolerance.toNat now)
    (hm : (s.subjectKey, v) ∈ members) (hv : NamesSubject v) :
    ∃ headers claims c,
      Http.Headers.ofList [(utf8 "Authorization",
        utf8 ("Bearer " ++ (Token.issue hash secret payload).text))] = .ok headers ∧
      Claims.read payload = .ok claims ∧
      Credentials.ofClaims claims s.subjectKey s.rolesKey = .ok c ∧
      (ofSettings s).extract standardScheme now headers =
        some ⟨some c, [.accepted c.username c.roles.size]⟩ := by
  obtain ⟨headers, c, hlist, -, hc, hx⟩ :=
    exists_accepted_issue hash (key_of_secret hsecret hkey) hread htime hm hv
  exact ⟨headers, _, c, hlist, Claims.read_eq_ok_iff.2 ⟨members, hread, rfl⟩, hc, hx⟩

/-! ## a payload at the edge -/

/-- a payload that is valid at one instant only, where clocks may be thirty seconds off -/
def edgePayload : String :=
  "\x7b\"exp\":1.7e9,\"name\":\"Ada\",\"nbf\":1700000060,\"roles\":[\"reader\"]\x7d"

/-- its members -/
def edgeMembers : Token.Members := [
  ("exp", .number (.float ⟨false, 1700000000 * Binary64.one⟩)),
  ("name", .text "Ada"),
  ("nbf", .number (.integer 1700000060 (by decide) (by decide))),
  ("roles", .array [.text "reader"])]

/-- settings with a secret of three bytes -/
def edgeSettings : Settings where
  signingKey := some "a2V5"
  subjectKey := "name"
  requireBearerScheme := true

theorem signingKey_edgeSettings : edgeSettings.signingKey = some (Base64.secretText (utf8 "key")) := by
  decide

theorem read_edgePayload : Json.read edgePayload = .ok (.object edgeMembers) :=
  Outcome.toOption_eq_some_iff.1 (by decide +kernel)

theorem timely_edgeMembers : Token.Timely edgeMembers 30 1700000030 where
  distinct := by decide
  subject := by
    intro v hv
    simp [edgeMembers] at hv
  expires := by
    intro v hv
    obtain rfl : v = .number (.float ⟨false, 1700000000 * Binary64.one⟩) := by
      simpa [edgeMembers] using hv
    exact ⟨1700000000, ⟨_, rfl, rfl, Bool.noConfusion, by decide⟩, by decide⟩
  starts := by
    intro v hv
    obtain rfl : v = .number (.integer 1700000060 (by decide) (by decide)) := by
      simpa [edgeMembers] using hv
    exact ⟨1700000060, ⟨_, rfl, rfl⟩, by decide⟩

theorem name_edgeMembers : ("name", .text "Ada") ∈ edgeMembers :=
  List.mem_cons_of_mem _ List.mem_cons_self

theorem namesSubject_ada : NamesSubject (.text "Ada") := by
  refine ⟨Json.noConfusion, ?_⟩
  rintro s ⟨⟩
  decide

/-- at that instant a request with it has credentials -/
theorem exists_accepted_edgePayload (hash : Sha2) :
    ∃ headers c,
      Http.Headers.ofList [(utf8 "Authorization",
        utf8 ("Bearer " ++ (Token.issue hash (utf8 "key") edgePayload).text))] = .ok headers ∧
      (ofSettings edgeSettings).extract standardScheme 1700000030 headers =
        some ⟨some c, [.accepted c.username c.roles.size]⟩ := by
  have hkey : (ofSettings edgeSettings).key = .ok ⟨.hmac, utf8 "key"⟩ := key_of_secret (by decide) signingKey_edgeSettings
  obtain ⟨headers, c, hlist, -, -, hx⟩ :=
    exists_accepted_issue hash hkey read_edgePayload timely_edgeMembers name_edgeMembers namesSubject_ada
  exact ⟨headers, c, hlist, hx⟩

theorem extract_issue_edgePayload :
    ∃ headers claims c,
      Http.Headers.ofList [(utf8 "Authorization",
        utf8 ("Bearer " ++ (Token.issue .sha384 (utf8 "key") edgePayload).text))] = .ok headers ∧
      Claims.read edgePayload = .ok claims ∧
      Credentials.ofClaims claims "name" "roles" = .ok c ∧
      (ofSettings edgeSettings).extract standardScheme 1700000030 headers =
        some ⟨some c, [.accepted c.username c.roles.size]⟩ :=
  extract_issue .sha384 (by decide) signingKey_edgeSettings read_edgePayload timely_edgeMembers
    name_edgeMembers namesSubject_ada

end BearerCredentials.Authenticator
