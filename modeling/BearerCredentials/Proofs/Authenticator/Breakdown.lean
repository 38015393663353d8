import BearerCredentials.Proofs.Authenticator.Stages
import BearerCredentials.Proofs.Authorization
import BearerCredentials.Proofs.Token.Segments

/-!
# Requests that are not answered

Signing material is stored unread. Where it turns out to be no key, the request has no credentials; only a key
that is too short to be cut leaves the request without any answer.

* `standardScheme_eq_tooShort_iff`            which material is too short, and for which algorithm;
* `IsUsable`, `isUsable_of_standardScheme`    material under which some signature is accepted is a key;
* `extract_isSome_iff`                        when there is an answer, and under which keys it has credentials.
-/

namespace BearerCredentials

/-! ## material -/

section
variable {algorithm : Algorithm} {material : Bytes}

theorem standardScheme_eq_tooShort_iff :
    standardScheme algorithm material = .error .tooShort ↔
      algorithm = .eddsa ∧ material.length < Edwards.pointSize := by
  cases algorithm with
  | hmac hash => simp [standardScheme]
  | rsaFixed hash => simp [standardScheme]
  | rsaSalted hash => simp [standardScheme]
  | ecdsa curve => cases h : curve.curve.decodePoint? material <;> simp [standardScheme, h]
  | eddsa =>
    by_cases hl : material.length < Edwards.pointSize
    · simp [standardScheme, hl]
    · cases h : Edwards.PublicKey.read? (material.take Edwards.pointSize) <;>
        simp [standardScheme, hl, h]

/-- material that is a key for an algorithm -/
def IsUsable : Algorithm → Bytes → Prop
  | .hmac _, _ => True
  | .rsaFixed _, material | .rsaSalted _, material => (Rsa.PublicKey.read? material).isSome = true
  | .ecdsa curve, material => (curve.curve.decodePoint? material).isSome = true
  | .eddsa, material => Edwards.pointSize ≤ material.length ∧
      (Edwards.PublicKey.read? (material.take Edwards.pointSize)).isSome = true

theorem isSome_of_rsaVerifier {verify : Rsa.PublicKey → Bytes → Bytes → Bool} {message signature : Bytes}
    (h : rsaVerifier verify material message signature = true) :
    (Rsa.PublicKey.read? material).isSome = true := by
  unfold rsaVerifier at h
  cases hr : Rsa.PublicKey.read? material with
  | none =>
    rw [hr] at h
    cases h
  | some key => rfl

/-- material under which some signature is accepted is a key -/
theorem isUsable_of_standardScheme {verify : Verifier} {message signature : Bytes}
    (hv : standardScheme algorithm material = .ok verify) (h : verify message signature = true) :
    IsUsable algorithm material := by
  cases algorithm with
  | hmac hash => trivial
  | rsaFixed hash =>
    cases hv
    exact isSome_of_rsaVerifier h
  | rsaSalted hash =>
    cases hv
    exact isSome_of_rsaVerifier h
  | ecdsa curve =>
    simp only [IsUsable]
    cases hd : curve.curve.decodePoint? material with
    | none =>
      simp only [standardScheme, hd] at hv
      cases hv
    | some point => rfl
  | eddsa =>
    simp only [IsUsable]
    by_cases hl : material.length < Edwards.pointSize
    · simp only [standardScheme, if_pos hl] at hv
      cases hv
    refine ⟨Nat.le_of_not_lt hl, ?_⟩
    cases hr : Edwards.PublicKey.read? (material.take Edwards.pointSize) with
    | none =>
      simp only [standardScheme, if_neg hl, hr] at hv
      cases hv
    | some key => rfl

end

namespace Authenticator

/-! ## answers -/

/-- a signing key on the twisted Edwards curve that is too short to be cut to the size of a point -/
def HasShortKey (s : Settings) : Prop :=
  ∃ material, VerifyingKey.ofSetting s.signingKey = .ok ⟨.ed, material⟩ ∧
    material.length < Edwards.pointSize

/-- a request whose token names an algorithm -/
def SendsTokenFor (algorithm : Algorithm) (requireScheme : Bool) (headers : Http.Headers) : Prop :=
  ∃ token t, Authorization.ofHeaders requireScheme headers = .ok token ∧ Token.ofText? token = some t ∧
    t.algorithm? = some algorithm

theorem extract_eq_none_iff_short (s : Settings) (now : Nat) (headers : Http.Headers) :
    (ofSettings s).extract standardScheme now headers = none ↔
      HasShortKey s ∧ SendsTokenFor .eddsa s.requireBearerScheme headers := by
  rw [extract_eq_none_iff, authenticate_eq_brokenDown_iff]
  constructor
  · rintro ⟨key, token, t, hkey, htoken, ht, hb⟩
    obtain ⟨algorithm, ha, hk, hs⟩ := Token.checkSignature_eq_brokenDown_iff.1 hb
    obtain ⟨rfl, hl⟩ := standardScheme_eq_tooShort_iff.1 hs
    obtain ⟨kind, material⟩ := key
    obtain rfl : Algorithm.eddsa.keyKind = kind := (KeyKind.mem_algorithms_iff kind .eddsa).1 hk
    exact ⟨⟨material, hkey, hl⟩, token, t, htoken, ht, ha⟩
  · rintro ⟨⟨material, hkey, hl⟩, token, t, htoken, ht, ha⟩
    refine ⟨⟨.ed, material⟩, token, t, hkey, htoken, ht, Token.checkSignature_eq_brokenDown_iff.2 ?_⟩
    exact ⟨.eddsa, ha, List.mem_singleton_self _, standardScheme_eq_tooShort_iff.2 ⟨rfl, hl⟩⟩

/-- credentials are given only under a key that the algorithm of the token can use -/
theorem exists_isUsable_of_extract {s : Settings} {now : Nat} {headers : Http.Headers} {c : Credentials}
    {log : List LogEvent} (h : (ofSettings s).extract standardScheme now headers = some ⟨some c, log⟩) :
    ∃ key algorithm, VerifyingKey.ofSetting s.signingKey = .ok key ∧
      SendsTokenFor algorithm s.requireBearerScheme headers ∧ algorithm ∈ key.kind.algorithms ∧
      IsUsable algorithm key.material := by
  obtain ⟨key, token, hkey, hsent, hc⟩ := authenticate_eq_ok_iff.1 (extract_eq_some_iff.1 h).1
  obtain ⟨t, claims, ht, hclaims, -⟩ := credentialsOf_eq_ok_iff.1 hc
  obtain ⟨algorithm, verify, signature, ha, hk, hv, -, hok⟩ := (Token.claims_eq_ok_iff.1 hclaims).1
  exact ⟨key, algorithm, hkey, ⟨token, t, hsent, ht, ha⟩, hk, isUsable_of_standardScheme hv hok⟩

/-- **A request is answered unless the key is too short for the algorithm that its token names.** Whatever else is
wrong with the key, the answer is that there are no credentials. -/
theorem extract_isSome_iff (s : Settings) (now : Nat) (headers : Http.Headers) :
    (((ofSettings s).extract standardScheme now headers).isSome = true ↔
        ¬ (HasShortKey s ∧ SendsTokenFor .eddsa s.requireBearerScheme headers)) ∧
      ∀ c log, (ofSettings s).extract standardScheme now headers = some ⟨some c, log⟩ →
        ∃ key algorithm, VerifyingKey.ofSetting s.signingKey = .ok key ∧
          SendsTokenFor algorithm s.requireBearerScheme headers ∧ algorithm ∈ key.kind.algorithms ∧
          IsUsable algorithm key.material := by
  refine ⟨?_, fun c log h => exists_isUsable_of_extract h⟩
  rw [Option.isSome_iff_ne_none, ne_eq, extract_eq_none_iff_short]

/-! ## a key without a point -/

/-- a public key on the twisted Edwards curve whose bit string is empty -/
def emptyKeyText : String := "-----BEGIN PUBLIC KEY-----\nMAowBQYDK2VwAwEA\n-----END PUBLIC KEY-----\n"

/-- a token that names the algorithm -/
def edwardsToken : Token where
  header := "eyJ0eXAiOiJKV1QiLCJhbGciOiJFZERTQSJ9"
  payload := "eyJzdWIiOiJFZCJ9"
  signature := "WwkQsfr5D4uEnhL6w5C04ZGNbwaC7LF7CNDe-2BLlRfHqmtpcux3O2kZPFqWG9EOHmfc2EMqOoBZrOkpJO9aBg"

theorem ofSymbols_edwardsToken : edwardsToken.OfSymbols := by
  constructor <;> exact Base64.isUrlSymbol_of_all (by decide +kernel)

theorem algorithm?_edwardsToken : edwardsToken.algorithm? = some .eddsa := by decide +kernel

/-- the key is too short for the token, and the request stays without an answer -/
theorem extract_emptyKeyText :
    ∃ headers,
      Http.Headers.ofList [(utf8 "Authorization", utf8 ("Bearer " ++ edwardsToken.text))] = .ok headers ∧
      (ofSettings (.ofSigningKey emptyKeyText)).extract standardScheme 1700000000 headers = none := by
  have hsymbols := ofSymbols_edwardsToken
  obtain ⟨headers, hlist, hsent⟩ := Authorization.exists_bearer_headers false hsymbols.isVisibleText
    hsymbols.trimmed_text edwardsToken.text_ne_empty
  have hkey : VerifyingKey.ofSetting (some emptyKeyText) = .ok ⟨.ed, []⟩ :=
    Outcome.toOption_eq_some_iff.1 (by decide +kernel)
  refine ⟨headers, hlist, (extract_eq_none_iff_short _ _ _).2 ⟨⟨[], hkey, by decide⟩, ?_⟩⟩
  exact ⟨_, _, hsent, hsymbols.ofText?_text, algorithm?_edwardsToken⟩

end Authenticator

end BearerCredentials
