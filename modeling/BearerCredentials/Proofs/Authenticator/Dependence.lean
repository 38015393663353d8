import BearerCredentials.Proofs.Authenticator.Issued
import BearerCredentials.Proofs.Http.First
import BearerCredentials.Proofs.VerifyingKey.Setting

/-!
# What a decision depends on

* `authenticate_of_first`             of the headers, only the first one that is named Authorization;
* `VerifyAlike`                       settings that differ in the key for encrypted claims, and in blanks around
                                      the signing key;
* `authenticate_eq_of_verifyAlike`    neither other headers nor such a difference changes a decision.
-/

namespace BearerCredentials

/-- signing keys that differ in the blanks around them at most -/
inductive SameButForBlanks : Option String → Option String → Prop where
  | absent : SameButForBlanks none none
  | around (raw : String) {pre post pre' post' : String} : Text.allBlank pre = true → Text.allBlank post = true →
      Text.allBlank pre' = true → Text.allBlank post' = true →
      SameButForBlanks (some (pre ++ raw ++ post)) (some (pre' ++ raw ++ post'))

/-- settings under which tokens are verified alike: the key for encrypted claims may differ -/
structure VerifyAlike (s s' : Settings) : Prop where
  signingKey : SameButForBlanks s.signingKey s'.signingKey
  subjectKey : s.subjectKey = s'.subjectKey
  rolesKey : s.rolesKey = s'.rolesKey
  clockSkewTolerance : s.clockSkewTolerance = s'.clockSkewTolerance
  requireBearerScheme : s.requireBearerScheme = s'.requireBearerScheme

theorem VerifyingKey.ofSetting_eq_of_sameButForBlanks {setting setting' : Option String}
    (h : SameButForBlanks setting setting') : ofSetting setting = ofSetting setting' := by
  cases h with
  | absent => rfl
  | around raw hpre hpost hpre' hpost' =>
    rw [ofSetting_between hpre hpost, ofSetting_between hpre' hpost']

namespace Authenticator

variable {scheme : SignatureScheme} {a : Authenticator} {now : Nat} {headers headers' : Http.Headers}
  {s s' : Settings} {entries entries' : List (Bytes × Bytes)} {found : Option Bytes}

theorem authenticate_of_first
    (h : headers.first? Authorization.headerName = headers'.first? Authorization.headerName) :
    a.authenticate scheme now headers = a.authenticate scheme now headers' := by
  have hsent : Authorization.ofHeaders a.requireBearerScheme headers =
      Authorization.ofHeaders a.requireBearerScheme headers' := by
    rw [Authorization.ofHeaders, Authorization.ofHeaders, h]
  rw [authenticate, authenticate, hsent]

theorem authenticate_with_encryptionKey (encryptionKey : Option Bytes) :
    { a with encryptionKey := encryptionKey }.authenticate scheme now headers = a.authenticate scheme now headers :=
  rfl

/-- the key for encrypted claims is all in which the two authenticators may differ -/
theorem ofSettings_eq_of_verifyAlike (h : VerifyAlike s s') :
    ofSettings s' = { ofSettings s with encryptionKey := (ofSettings s').encryptionKey } := by
  have hkey := VerifyingKey.ofSetting_eq_of_sameButForBlanks h.signingKey
  unfold ofSettings
  rw [hkey, h.subjectKey, h.rolesKey, h.clockSkewTolerance, h.requireBearerScheme]

theorem first?_authorization (hlist : Http.Headers.ofList entries = .ok headers)
    (h : Http.FirstValue (utf8 "authorization") entries found) :
    headers.first? Authorization.headerName = found := by
  have hname : utf8 "authorization" = Authorization.headerName.map Http.lowerByte := by decide
  rw [hname] at h
  exact Http.first?_of_firstValue hlist h

theorem authenticate_eq_of_alike (hlist : Http.Headers.ofList entries = .ok headers)
    (hlist' : Http.Headers.ofList entries' = .ok headers')
    (hfirst : Http.FirstValue (utf8 "authorization") entries found)
    (hfirst' : Http.FirstValue (utf8 "authorization") entries' found) (hs : VerifyAlike s s') :
    (ofSettings s).authenticate scheme now headers = (ofSettings s').authenticate scheme now headers' := by
  have hsame : headers.first? Authorization.headerName = headers'.first? Authorization.headerName :=
    (first?_authorization hlist hfirst).trans (first?_authorization hlist' hfirst').symm
  calc (ofSettings s).authenticate scheme now headers
      = (ofSettings s).authenticate scheme now headers' := authenticate_of_first hsame
    _ = { ofSettings s with encryptionKey := (ofSettings s').encryptionKey }.authenticate scheme now headers' :=
      (authenticate_with_encryptionKey _).symm
    _ = (ofSettings s').authenticate scheme now headers' := by rw [← ofSettings_eq_of_verifyAlike hs]

/-- **A decision depends on the first Authorization header and on what tokens are verified with**, and on nothing
else.  So a second header of that name never changes it, nor does the key for encrypted claims. -/
theorem authenticate_eq_of_verifyAlike (scheme : SignatureScheme) (now : Nat) :
    (∀ entries entries' headers headers' found s s', Http.Headers.ofList entries = .ok headers →
      Http.Headers.ofList entries' = .ok headers' → Http.FirstValue (utf8 "authorization") entries found →
      Http.FirstValue (utf8 "authorization") entries' found → VerifyAlike s s' →
        (ofSettings s).authenticate scheme now headers = (ofSettings s').authenticate scheme now headers' ∧
          (ofSettings s).extract scheme now headers = (ofSettings s').extract scheme now headers') ∧
      (∀ entries later headers headers' value s, Http.Headers.ofList entries = .ok headers →
        Http.Headers.ofList (entries ++ later) = .ok headers' →
        Http.FirstValue (utf8 "authorization") entries (some value) →
          (ofSettings s).authenticate scheme now headers' = (ofSettings s).authenticate scheme now headers) ∧
      ∀ headers s encryptionKey, (ofSettings { s with encryptionKey := encryptionKey }).authenticate scheme now headers =
        (ofSettings s).authenticate scheme now headers := by
  refine ⟨?_, ?_, ?_⟩
  · intro entries entries' headers headers' found s s' hlist hlist' hfirst hfirst' hs
    have he : (ofSettings s).authenticate scheme now headers = (ofSettings s').authenticate scheme now headers' :=
      authenticate_eq_of_alike hlist hlist' hfirst hfirst' hs
    exact ⟨he, by rw [extract, extract, he]⟩
  · intro entries later headers headers' value s hlist hlist' hfirst
    apply authenticate_of_first
    rw [first?_authorization hlist hfirst, first?_authorization hlist' (hfirst.append later)]
  · intro headers s encryptionKey
    exact authenticate_with_encryptionKey (a := ofSettings s) _

/-! ## a request with other headers -/

/-- the settings at the edge with blanks around the signing key, and a key for encrypted claims that is none -/
def blankedSettings : Settings :=
  { edgeSettings with signingKey := some (" " ++ "a2V5" ++ "\n"), encryptionKey := some "%%%" }

theorem verifyAlike_blankedSettings : VerifyAlike edgeSettings blankedSettings where
  signingKey := by
    have hkey : edgeSettings.signingKey = some ("" ++ "a2V5" ++ "") := by decide
    rw [hkey]
    exact .around "a2V5" (by decide) (by decide) (by decide) (by decide)
  subjectKey := rfl
  rolesKey := rfl
  clockSkewTolerance := rfl
  requireBearerScheme := rfl

/-- a value among other headers, under a name in capitals and before one of the same name -/
def crowded (value : Bytes) : List (Bytes × Bytes) :=
  [(utf8 "Accept", utf8 "*/*"), (utf8 "AUTHORIZATION", value), (utf8 "Authorization", utf8 "Basic QTpi")]

theorem firstValue_crowded (value : Bytes) : Http.FirstValue (utf8 "authorization") (crowded value) (some value) :=
  .later (by decide) (.here _ (by decide))

theorem exists_headers_crowded {value : Bytes} (hv : Http.isValue value = true) :
    ∃ headers, Http.Headers.ofList (crowded value) = .ok headers := by
  refine ⟨[⟨utf8 "Accept", utf8 "*/*", by decide, by decide⟩, ⟨utf8 "AUTHORIZATION", value, by decide, hv⟩,
    ⟨utf8 "Authorization", utf8 "Basic QTpi", by decide, by decide⟩], ?_⟩
  refine Http.ofList_cons_eq_ok_iff.2 ⟨_, _, ?_, rfl, rfl, rfl⟩
  refine Http.ofList_cons_eq_ok_iff.2 ⟨_, _, ?_, rfl, rfl, rfl⟩
  exact Http.ofList_cons_eq_ok_iff.2 ⟨_, [], rfl, rfl, rfl, rfl⟩

theorem extract_crowded_edgePayload :
    ∃ headers c,
      Http.Headers.ofList (crowded (utf8 ("Bearer " ++ (Token.issue .sha256 (utf8 "key") edgePayload).text))) =
        .ok headers ∧
      (ofSettings blankedSettings).extract standardScheme 1700000030 headers =
        some ⟨some c, [.accepted c.username c.roles.size]⟩ := by
  obtain ⟨headers, c, hlist, hx⟩ := exists_accepted_edgePayload .sha256
  obtain ⟨h, -, -, -, hvalue, -⟩ := Http.ofList_cons_eq_ok_iff.1 hlist
  obtain ⟨headers', hlist'⟩ := exists_headers_crowded (hvalue ▸ h.isValue_value)
  have hsame := ((authenticate_eq_of_verifyAlike standardScheme 1700000030).1 _ _ headers headers' _ _ _ hlist hlist'
    (.here _ (by decide)) (firstValue_crowded _) verifyAlike_blankedSettings).2
  exact ⟨headers', c, hlist', hsame ▸ hx⟩

end Authenticator

end BearerCredentials
