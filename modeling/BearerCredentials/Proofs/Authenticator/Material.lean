import BearerCredentials.Proofs.Authenticator.Breakdown
import BearerCredentials.Proofs.VerifyingKey.Setting

/-!
# Enabled authenticators whose key is none

A PEM text is accepted by the kind of key that it names, and the bytes that it holds are not looked at.

* `IsKey`                the bytes that are a key of a kind;
* `HoldsNoKey`           a setting with a PEM text that holds other bytes;
* `isKey_iff`            these settings, and no others, give a key that is none, and what comes of it.
-/

namespace BearerCredentials

/-- bytes that are a key of a kind -/
def IsKey : KeyKind → Bytes → Prop
  | .hmac, material => material ≠ []
  | .rsa, material => (Rsa.PublicKey.read? material).isSome = true
  | .ec, material => ∃ curve : NamedCurve, (curve.curve.decodePoint? material).isSome = true
  | .ed, material => material.length = Edwards.pointSize ∧ (Edwards.PublicKey.read? material).isSome = true

theorem exists_isUsable_of_isKey {kind : KeyKind} {material : Bytes} (h : IsKey kind material) :
    ∃ algorithm ∈ kind.algorithms, IsUsable algorithm material := by
  cases kind with
  | hmac => exact ⟨.hmac .sha256, by decide, trivial⟩
  | rsa => exact ⟨.rsaFixed .sha256, by decide, h⟩
  | ec =>
    obtain ⟨curve, hc⟩ := h
    exact ⟨.ecdsa curve, by cases curve <;> decide, hc⟩
  | ed =>
    obtain ⟨hl, hr⟩ := h
    refine ⟨.eddsa, by decide, Nat.le_of_eq hl.symm, ?_⟩
    rw [← hl, List.take_length]
    exact hr

namespace Token

variable {key : VerifyingKey} {t : Token} {algorithm : Algorithm}

/-- under bytes that are no key for its algorithm no token is signed -/
theorem not_signed_of_not_isUsable (ha : t.algorithm? = some algorithm) (h : ¬ IsUsable algorithm key.material) :
    ¬ t.Signed standardScheme key := by
  rintro ⟨algorithm', verify, signature, ha', -, hv, -, hok⟩
  obtain rfl := Option.some.inj (ha.symm.trans ha')
  exact h (isUsable_of_standardScheme hv hok)

/-- how the check of a signature fails once the algorithm is known to take the key -/
theorem exists_error_of_not_signed {scheme : SignatureScheme} (ha : t.algorithm? = some algorithm)
    (hk : algorithm ∈ key.kind.algorithms) (h : ¬ t.Signed scheme key) :
    ∃ e, t.checkSignature scheme key = .error e ∧
      (e = .refused .malformed ∨ e = .refused .wrongSignature ∨ e = .brokenDown) := by
  cases hv : scheme algorithm key.material with
  | error fault =>
    rw [checkSignature_of_algorithm ha hk, hv]
    cases fault with
    | unusable => exact ⟨_, rfl, Or.inl rfl⟩
    | tooShort => exact ⟨_, rfl, Or.inr (Or.inr rfl)⟩
  | ok verify =>
    refine ⟨_, checkSignature_of_not_signed ha hk hv h, ?_⟩
    cases segmentBytes? t.signature with
    | none => exact Or.inl rfl
    | some signature => exact Or.inr (Or.inl rfl)

end Token

namespace Authenticator

variable {s : Settings} {key : VerifyingKey} {algorithm : Algorithm} {now : Nat} {headers : Http.Headers}

/-- a setting with a PEM text that holds bytes which are no key of the kind that it names -/
def HoldsNoKey (setting : Option String) : Prop :=
  ∃ raw pem material, setting = some raw ∧ VerifyingKey.isPem raw = true ∧
    PemKey.read? (Text.trim raw) = some pem ∧ pem.material? pem.form.keyKind = some material ∧
    ¬ IsKey pem.form.keyKind material

theorem ofSetting_of_pem {raw : String} {pem : PemKey} {kind : KeyKind} {material : Bytes}
    (hp : VerifyingKey.isPem raw = true) (hread : PemKey.read? (Text.trim raw) = some pem)
    (hm : pem.material? kind = some material) : VerifyingKey.ofSetting (some raw) = .ok ⟨kind, material⟩ := by
  rw [VerifyingKey.ofSetting_of_isPem hp, Outcome.elim_eq_ok_iff]
  exact VerifyingKey.ofPem?_eq_some_iff.2 ⟨pem, hread, hm⟩

theorem isKey_iff_not_holdsNoKey {setting : Option String} :
    (∀ key, VerifyingKey.ofSetting setting = .ok key → IsKey key.kind key.material) ↔ ¬ HoldsNoKey setting := by
  constructor
  · rintro h ⟨raw, pem, material, rfl, hp, hread, hm, hno⟩
    exact hno (h _ (ofSetting_of_pem hp hread hm))
  · intro h key hkey
    refine Classical.byContradiction fun hno => ?_
    obtain ⟨raw, rfl, ⟨hp, hpem⟩ | ⟨-, hkind, hne⟩⟩ := VerifyingKey.cases_of_ofSetting hkey
    · obtain ⟨pem, hread, hm⟩ := VerifyingKey.ofPem?_eq_some_iff.1 hpem
      have hkind := PemKey.eq_keyKind hm
      rw [hkind] at hm hno
      exact h ⟨raw, pem, key.material, rfl, hp, hread, hm, hno⟩
    · rw [hkind] at hno
      exact hno hne

/-- what a request comes to whose token names an algorithm for which the bytes are no key -/
theorem authenticate_of_not_isUsable (hkey : (ofSettings s).key = .ok key)
    (hk : algorithm ∈ key.kind.algorithms) (h : ¬ IsUsable algorithm key.material)
    (hsent : SendsTokenFor algorithm s.requireBearerScheme headers) :
    ∃ failure, (ofSettings s).authenticate standardScheme now headers = .error failure ∧
      (failure = .refused (.token .malformed) ∨ failure = .refused (.token .wrongSignature) ∨
        failure = .brokenDown) := by
  obtain ⟨token, t, htoken, ht, ha⟩ := hsent
  obtain ⟨e, hc, hcases⟩ := Token.exists_error_of_not_signed ha hk (Token.not_signed_of_not_isUsable ha h)
  refine ⟨reported e, (authenticate_eq_credentialsOf hkey htoken).trans (credentialsOf_of_error ht hc), ?_⟩
  rcases hcases with rfl | rfl | rfl
  · exact Or.inl rfl
  · exact Or.inr (Or.inl rfl)
  · exact Or.inr (Or.inr rfl)

theorem isEnabled_of_holdsNoKey (h : HoldsNoKey s.signingKey) : (ofSettings s).isEnabled = true := by
  obtain ⟨raw, pem, material, hs, hp, hread, hm, -⟩ := h
  have hkey : (ofSettings s).key = .ok ⟨pem.form.keyKind, material⟩ := by
    show VerifyingKey.ofSetting s.signingKey = _
    rw [hs]
    exact ofSetting_of_pem hp hread hm
  rw [isEnabled, hkey]
  rfl

/-- a PEM text that is refused disables the authenticator -/
theorem authenticate_of_refused_pem {raw : String} (scheme : SignatureScheme) (hs : s.signingKey = some raw)
    (hp : VerifyingKey.isPem raw = true) (h : (ofSettings s).isEnabled = false) :
    (ofSettings s).authenticate scheme now headers = .error (.refused (.key .unreadable)) := by
  cases hkey : (ofSettings s).key with
  | ok key =>
    rw [isEnabled, hkey] at h
    cases h
  | error fault =>
    have hsetting : VerifyingKey.ofSetting (some raw) = .error fault := hs ▸ hkey
    rw [VerifyingKey.ofSetting_of_isPem hp, Outcome.elim_eq_error_iff] at hsetting
    rw [authenticate_of_no_key hkey, ← hsetting.2]

/-- **The key of an enabled authenticator is a key, unless it comes from a PEM text that holds other bytes.** Such
a text enables the authenticator all the same, and what is wrong is reported of every token for which the bytes
are no key, as if it were wrong with the token. -/
theorem isKey_iff (s : Settings) :
    ((∀ key, (ofSettings s).key = .ok key → IsKey key.kind key.material) ↔ ¬ HoldsNoKey s.signingKey) ∧
      (∀ kind material, IsKey kind material → ∃ algorithm ∈ kind.algorithms, IsUsable algorithm material) ∧
      (HoldsNoKey s.signingKey → (ofSettings s).isEnabled = true) ∧
      (∀ raw, s.signingKey = some raw → VerifyingKey.isPem raw = true → (ofSettings s).isEnabled = false →
        ∀ scheme now headers,
          (ofSettings s).authenticate scheme now headers = .error (.refused (.key .unreadable))) ∧
      ∀ key algorithm, (ofSettings s).key = .ok key → algorithm ∈ key.kind.algorithms →
        ¬ IsUsable algorithm key.material →
        ∀ now headers, SendsTokenFor algorithm s.requireBearerScheme headers →
          ∃ failure, (ofSettings s).authenticate standardScheme now headers = .error failure ∧
            (failure = .refused (.token .malformed) ∨ failure = .refused (.token .wrongSignature) ∨
              failure = .brokenDown) := by
  refine ⟨isKey_iff_not_holdsNoKey, fun kind material => exists_isUsable_of_isKey, isEnabled_of_holdsNoKey, ?_, ?_⟩
  · intro raw hs hp h scheme now headers
    exact authenticate_of_refused_pem scheme hs hp h
  · intro key algorithm hkey hk hno now headers hsent
    exact authenticate_of_not_isUsable hkey hk hno hsent

/-! ## a key without a point -/

/-- a public key that is named as one on a curve of prime order, and whose bit string holds a text -/
def pointlessKeyText : String :=
  "-----BEGIN PUBLIC KEY-----\nMCAwEwYHKoZIzj0CAQYIKoZIzj0DAQcDCQBubyBwb2ludA==\n-----END PUBLIC KEY-----\n"

/-- it is taken for a key, and the authenticator is enabled -/
theorem isEnabled_pointlessKeyText :
    VerifyingKey.ofSetting (some pointlessKeyText) = .ok ⟨.ec, utf8 "no point"⟩ ∧
      (ofSettings (.ofSigningKey pointlessKeyText)).isEnabled = true ∧ ¬ IsKey .ec (utf8 "no point") := by
  have hkey : VerifyingKey.ofSetting (some pointlessKeyText) = .ok ⟨.ec, utf8 "no point"⟩ :=
    Outcome.toOption_eq_some_iff.1 (by decide +kernel)
  have hno : ∀ curve : NamedCurve, (curve.curve.decodePoint? (utf8 "no point")).isSome = false := by
    intro curve
    cases curve <;> decide +kernel
  have hkey' : (ofSettings (.ofSigningKey pointlessKeyText)).key = .ok ⟨.ec, utf8 "no point"⟩ := hkey
  refine ⟨hkey, ?_, ?_⟩
  · rw [isEnabled, hkey']
    rfl
  · rintro ⟨curve, hc⟩
    rw [hno curve] at hc
    cases hc

end Authenticator

end BearerCredentials
