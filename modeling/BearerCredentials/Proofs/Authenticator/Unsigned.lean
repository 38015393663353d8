import BearerCredentials.Proofs.Authenticator.Breakdown
import BearerCredentials.Proofs.Authenticator.Issued

/-!
# Payloads without a signature are not looked at

* `checkSignature_eq_of_not_signed`   two tokens that differ in their payload fail the check in the same way;
* `SendsAfterScheme`                  a request that sends a token after the scheme, in visible characters;
* `unsigned_payload_unseen`           what is reported of a payload is reported of a signed one, and requests
  whose tokens differ in an unsigned payload have the same outcome.
-/

namespace BearerCredentials

namespace Token

variable {scheme : SignatureScheme} {key : VerifyingKey} {t t' : Token}

theorem checkSignature_eq_refused {fault : TokenFault} (h : t.checkSignature scheme key = .error (.refused fault)) :
    fault = .malformed ∨ fault = .foreignAlgorithm ∨ fault = .wrongSignature := by
  cases ha : t.algorithm? with
  | none =>
    rw [checkSignature_of_no_algorithm ha] at h
    cases h
    exact Or.inl rfl
  | some algorithm =>
    by_cases hk : algorithm ∈ key.kind.algorithms
    · rw [checkSignature_of_algorithm ha hk] at h
      split at h
      · cases h
        exact Or.inl rfl
      · cases h
      · rcases checkWith_eq_refused h with h | h
        · exact Or.inl h
        · exact Or.inr (Or.inr h)
    · rw [checkSignature_of_foreign ha hk] at h
      cases h
      exact Or.inr (Or.inl rfl)

/-- **Tokens that differ in their payload fail the check of the signature in the same way.** -/
theorem checkSignature_eq_of_not_signed (hh : t.header = t'.header) (hs : t.signature = t'.signature)
    (h : ¬ t.Signed scheme key) (h' : ¬ t'.Signed scheme key) :
    t.checkSignature scheme key = t'.checkSignature scheme key := by
  have ha : t.algorithm? = t'.algorithm? := by rw [algorithm?, algorithm?, hh]
  cases halgorithm : t.algorithm? with
  | none => rw [checkSignature_of_no_algorithm halgorithm, checkSignature_of_no_algorithm (ha ▸ halgorithm)]
  | some algorithm =>
    have halgorithm' : t'.algorithm? = some algorithm := ha ▸ halgorithm
    by_cases hk : algorithm ∈ key.kind.algorithms
    · cases hv : scheme algorithm key.material with
      | error fault =>
        rw [checkSignature_of_algorithm halgorithm hk, checkSignature_of_algorithm halgorithm' hk, hv]
        cases fault <;> rfl
      | ok verify =>
        rw [checkSignature_of_not_signed halgorithm hk hv h, checkSignature_of_not_signed halgorithm' hk hv h', hs]
    · rw [checkSignature_of_foreign halgorithm hk, checkSignature_of_foreign halgorithm' hk]

end Token

/-- a cause that lies in what a token claims -/
def Denial.LiesInClaims : Denial → Prop
  | .token .expired | .token .premature | .noSubject _ => True
  | _ => False

namespace Authenticator

variable {scheme : SignatureScheme} {a : Authenticator} {now now' : Nat} {headers headers' : Http.Headers}
  {t t' : Token}

/-- a request that sends a token after the scheme; blanks around the token are no part of it -/
def SendsAfterScheme (headers : Http.Headers) (t : Token) : Prop :=
  ∃ x, Http.IsVisibleText x ∧ Token.ofText? (Text.trim x) = some t ∧
    headers.first? (utf8 "Authorization") = some (utf8 ("Bearer " ++ x))

theorem exists_sent (requireScheme : Bool) (h : SendsAfterScheme headers t) :
    ∃ token, Authorization.ofHeaders requireScheme headers = .ok token ∧ Token.ofText? token = some t := by
  obtain ⟨x, hx, ht, hfirst⟩ := h
  have hne : Text.trim x ≠ "" := by
    intro e
    rw [e] at ht
    cases ht
  exact ⟨Text.trim x, Authorization.ofHeaders_of_scheme requireScheme hfirst hx hne, ht⟩

theorem signed_of_liesInClaims {denial : Denial} (h : a.authenticate scheme now headers = .error (.refused denial))
    (hd : denial.LiesInClaims) :
    ∃ key token t, a.key = .ok key ∧ Authorization.ofHeaders a.requireBearerScheme headers = .ok token ∧
      Token.ofText? token = some t ∧ t.Signed scheme key := by
  obtain ⟨fault, -, rfl⟩ | ⟨key, hkey, hcause | ⟨token, hsent, h⟩⟩ := authenticate_eq_refused_iff.1 h
  · cases hd
  · rcases Authorization.ofHeaders_eq_error hcause with ⟨fault, rfl⟩ | rfl <;> cases hd
  cases ht : Token.ofText? token with
  | none =>
    rw [credentialsOf, ht] at h
    cases h
    cases hd
  | some t =>
    refine ⟨key, token, t, hkey, hsent, ht, ?_⟩
    cases hs : t.checkSignature scheme key with
    | ok _ => exact Token.checkSignature_eq_ok_iff.1 hs
    | error e =>
      rw [credentialsOf_of_error ht hs] at h
      cases e with
      | brokenDown => cases h
      | refused fault =>
        cases h
        rcases Token.checkSignature_eq_refused hs with rfl | rfl | rfl <;> cases hd

/-- requests whose tokens differ in an unsigned payload have the same outcome -/
theorem authenticate_eq_of_not_signed (hsent : SendsAfterScheme headers t) (hsent' : SendsAfterScheme headers' t')
    (hh : t.header = t'.header) (hs : t.signature = t'.signature)
    (h : ∀ key, a.key = .ok key → ¬ t.Signed scheme key ∧ ¬ t'.Signed scheme key) :
    a.authenticate scheme now headers = a.authenticate scheme now' headers' := by
  cases hkey : a.key with
  | error fault => rw [authenticate_of_no_key hkey, authenticate_of_no_key hkey]
  | ok key =>
    obtain ⟨hn, hn'⟩ := h key hkey
    obtain ⟨token, htoken, ht⟩ := exists_sent a.requireBearerScheme hsent
    obtain ⟨token', htoken', ht'⟩ := exists_sent a.requireBearerScheme hsent'
    have he := Token.checkSignature_eq_of_not_signed hh hs hn hn'
    rw [authenticate_eq_credentialsOf hkey htoken, authenticate_eq_credentialsOf hkey htoken']
    cases hc : t.checkSignature scheme key with
    | ok _ => exact absurd (Token.checkSignature_eq_ok_iff.1 hc) hn
    | error e => rw [credentialsOf_of_error ht hc, credentialsOf_of_error ht' (he ▸ hc)]

/-- **Nothing that a token claims is reported before its signature has been checked**, and requests whose tokens
differ in an unsigned payload have the same outcome. -/
theorem unsigned_payload_unseen (scheme : SignatureScheme) (a : Authenticator) :
    (∀ now headers denial, a.authenticate scheme now headers = .error (.refused denial) → denial.LiesInClaims →
      ∃ key token t, a.key = .ok key ∧ Authorization.ofHeaders a.requireBearerScheme headers = .ok token ∧
        Token.ofText? token = some t ∧ t.Signed scheme key) ∧
    ∀ now now' headers headers' t t', SendsAfterScheme headers t → SendsAfterScheme headers' t' →
      t.header = t'.header → t.signature = t'.signature →
      (∀ key, a.key = .ok key → ¬ t.Signed scheme key ∧ ¬ t'.Signed scheme key) →
      a.authenticate scheme now headers = a.authenticate scheme now' headers' ∧
        a.extract scheme now headers = a.extract scheme now' headers' := by
  refine ⟨fun now headers denial h hd => signed_of_liesInClaims h hd, ?_⟩
  intro now now' headers headers' t t' hsent hsent' hh hs h
  have he : a.authenticate scheme now headers = a.authenticate scheme now' headers' :=
    authenticate_eq_of_not_signed hsent hsent' hh hs h
  exact ⟨he, by rw [extract, extract, he]⟩

/-! ## a token with another algorithm, and two other payloads of it -/

/-- the token with another payload -/
def respelledToken (payload : String) : Token := { edwardsToken with payload := payload }

theorem algorithm?_respelledToken (payload : String) : (respelledToken payload).algorithm? = some .eddsa :=
  algorithm?_edwardsToken

theorem ofText?_respelledToken {payload : String} (h : ¬ '.' ∈ payload.toList) :
    Token.ofText? (respelledToken payload).text = some (respelledToken payload) := by
  have hheader : ¬ '.' ∈ edwardsToken.header.toList := by decide
  have hsignature : ¬ '.' ∈ edwardsToken.signature.toList := by decide
  exact Token.ofText?_text hheader h hsignature

theorem key_edgeSettings : (ofSettings edgeSettings).key = .ok ⟨.hmac, utf8 "key"⟩ :=
  key_of_secret (by decide) signingKey_edgeSettings

theorem not_signed_respelledToken (payload : String) {key : VerifyingKey}
    (hkey : (ofSettings edgeSettings).key = .ok key) : ¬ (respelledToken payload).Signed standardScheme key := by
  rw [key_edgeSettings] at hkey
  cases hkey
  exact Token.not_signed_of_foreign (algorithm?_respelledToken payload) (by decide)

theorem exists_sends_respelledToken (payload : String) (h : ∀ c ∈ payload.toList, Base64.IsUrlSymbol c) :
    ∃ headers, Http.Headers.ofList [(utf8 "Authorization", utf8 ("Bearer " ++ (respelledToken payload).text))] =
      .ok headers ∧ SendsAfterScheme headers (respelledToken payload) := by
  have hsymbols : (respelledToken payload).OfSymbols := { ofSymbols_edwardsToken with payload := h }
  have hv := hsymbols.isVisibleText
  obtain ⟨headers, hlist, hfirst⟩ :=
    Authorization.exists_headers (Http.isValue_utf8 (Authorization.isVisibleText_bearerScheme.append hv))
  refine ⟨headers, hlist, _, hv, ?_, hfirst⟩
  rw [Text.trim, hsymbols.trimmed_text.trimBlanks, String.ofList_toList]
  exact hsymbols.ofText?_text

theorem unsigned_payload_unseen_edwardsToken :
    ∃ headers headers',
      Http.Headers.ofList [(utf8 "Authorization", utf8 ("Bearer " ++ (respelledToken "e").text))] = .ok headers ∧
      Http.Headers.ofList [(utf8 "Authorization", utf8 ("Bearer " ++ (respelledToken "").text))] = .ok headers' ∧
      (ofSettings edgeSettings).extract standardScheme 0 headers =
        (ofSettings edgeSettings).extract standardScheme 1700000000 headers' := by
  obtain ⟨headers, hlist, hsent⟩ := exists_sends_respelledToken "e" (Base64.isUrlSymbol_of_all (by decide))
  obtain ⟨headers', hlist', hsent'⟩ := exists_sends_respelledToken "" (Base64.isUrlSymbol_of_all (by decide))
  refine ⟨headers, headers', hlist, hlist', ?_⟩
  exact ((unsigned_payload_unseen standardScheme (ofSettings edgeSettings)).2 0 1700000000 headers headers' _ _
    hsent hsent' rfl rfl fun key hkey =>
      ⟨not_signed_respelledToken "e" hkey, not_signed_respelledToken "" hkey⟩).2

/-- a payload that is not visible keeps the token from being found, so that its algorithm is not reported -/
theorem authenticate_invisible_payload :
    ∃ headers headers',
      Http.Headers.ofList [(utf8 "Authorization", utf8 ("Bearer " ++ (respelledToken "é").text))] = .ok headers ∧
      Http.Headers.ofList [(utf8 "Authorization", utf8 ("Bearer " ++ (respelledToken "e").text))] = .ok headers' ∧
      Token.ofText? (respelledToken "é").text = some (respelledToken "é") ∧
      Token.ofText? (respelledToken "e").text = some (respelledToken "e") ∧
      (∀ key, (ofSettings edgeSettings).key = .ok key →
        ¬ (respelledToken "é").Signed standardScheme key ∧ ¬ (respelledToken "e").Signed standardScheme key) ∧
      (ofSettings edgeSettings).authenticate standardScheme 1700000000 headers ≠
        (ofSettings edgeSettings).authenticate standardScheme 1700000000 headers' := by
  have hvalue : Http.isValue (utf8 ("Bearer " ++ (respelledToken "é").text)) = true := by decide +kernel
  have hvisible : Http.visible? (utf8 ("Bearer " ++ (respelledToken "é").text)) = none := by decide +kernel
  obtain ⟨headers, hlist, hfirst⟩ := Authorization.exists_headers hvalue
  obtain ⟨headers', hlist', hsent'⟩ := exists_sends_respelledToken "e" (Base64.isUrlSymbol_of_all (by decide))
  refine ⟨headers, headers', hlist, hlist', ofText?_respelledToken (by decide), ofText?_respelledToken (by decide),
    fun key hkey => ⟨not_signed_respelledToken "é" hkey, not_signed_respelledToken "e" hkey⟩, ?_⟩
  have hunreadable : (ofSettings edgeSettings).authenticate standardScheme 1700000000 headers =
      .error (.refused (.authorization .unreadable)) := by
    rw [authenticate, key_edgeSettings, Authorization.ofHeaders_of_invisible _ hfirst hvisible]
    rfl
  obtain ⟨token', htoken', ht'⟩ := exists_sent true hsent'
  have hforeign : (respelledToken "e").checkSignature standardScheme ⟨.hmac, utf8 "key"⟩ =
      .error (.refused .foreignAlgorithm) :=
    Token.checkSignature_of_foreign (algorithm?_respelledToken "e") (by decide)
  rw [hunreadable, authenticate_eq_credentialsOf key_edgeSettings htoken', credentialsOf_of_error ht' hforeign]
  decide

end Authenticator

end BearerCredentials
