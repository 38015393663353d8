import BearerCredentials.Proofs.Authenticator.Disabled
import BearerCredentials.Proofs.Authenticator.Unsigned

/-!
# Tokens with an algorithm of another kind

* `Token.headerAlgorithm?_alone`               a header that holds nothing but the name of an algorithm;
* `Token.claims_eq_foreign_iff`                the algorithm of a token is named, and takes no key of the kind;
* `Authenticator.authenticate_eq_foreign_iff`  when this is what a request comes to;
* `Authenticator.foreign_iff_known`            a name alone is reported as foreign where it is the name of an
  algorithm, and any other name as malformed.
-/

namespace BearerCredentials

namespace Algorithm

variable {name : String}

theorem name_of_ofName? {a : Algorithm} (h : ofName? name = some a) : a.name = name := by
  have hb := List.find?_some h
  exact eq_of_beq hb

theorem exists_ofName?_iff : (∃ a, ofName? name = some a) ↔ ∃ a : Algorithm, a.name = name := by
  constructor
  · rintro ⟨a, h⟩
    exact ⟨a, name_of_ofName? h⟩
  · rintro ⟨a, rfl⟩
    rw [← Option.isSome_iff_exists, ofName?, List.find?_isSome]
    exact ⟨a, mem_all a, beq_self_eq_true a.name⟩

end Algorithm

namespace Token

variable {scheme : SignatureScheme} {key : VerifyingKey} {t : Token} {tolerance now : Nat}

/-- a header that holds nothing but the name of an algorithm is read as that algorithm, or not at all -/
theorem headerAlgorithm?_alone (name : String) : headerAlgorithm? [("alg", .text name)] = Algorithm.ofName? name := by
  have honce : noneRepeated (headerMembers.map Prod.fst) [("alg", .text name)] = true := by
    rw [noneRepeated, List.all_eq_true]
    intro field _
    exact decide_eq_true List.countP_le_length
  have hshape : (headerMembers.lookup "alg").all (fun shape => shape (.text name)) = (Algorithm.ofName? name).isSome :=
    rfl
  have hknown : (headerMembers.lookup "alg").isSome = true := rfl
  have hmember : (member? "alg" [("alg", .text name)]).bind algorithmOf? = Algorithm.ofName? name := rfl
  rw [headerAlgorithm?, haveShapes, honce, hmember]
  simp only [List.all_cons, List.all_nil, hshape, hknown, Bool.true_and, Bool.and_true, Bool.true_or]
  cases Algorithm.ofName? name <;> rfl

theorem claimsAt_eq_error {fault : TokenFault} (h : t.claimsAt tolerance now = .error fault) :
    fault ≠ .foreignAlgorithm := by
  unfold claimsAt at h
  split at h
  · cases h
    decide
  · rename_i validity _
    rcases validity.fault?_cases tolerance now with hf | hf | hf
    · rw [hf] at h
      cases h
    · rw [hf] at h
      cases h
      decide
    · rw [hf] at h
      cases h
      decide

theorem checkSignature_eq_foreign_iff :
    t.checkSignature scheme key = .error (.refused .foreignAlgorithm) ↔
      ∃ algorithm, t.algorithm? = some algorithm ∧ algorithm ∉ key.kind.algorithms := by
  constructor
  · intro h
    cases ha : t.algorithm? with
    | none =>
      rw [checkSignature_of_no_algorithm ha] at h
      cases h
    | some algorithm =>
      refine ⟨algorithm, rfl, fun hk => ?_⟩
      rw [checkSignature_of_algorithm ha hk] at h
      split at h
      · cases h
      · cases h
      · rcases checkWith_eq_refused h with h | h <;> cases h
  · rintro ⟨algorithm, ha, hk⟩
    exact checkSignature_of_foreign ha hk

/-- only the check of the signature finds that an algorithm is foreign -/
theorem claims_eq_foreign_iff :
    t.claims scheme key tolerance now = .error (.refused .foreignAlgorithm) ↔
      ∃ algorithm, t.algorithm? = some algorithm ∧ algorithm ∉ key.kind.algorithms := by
  rw [← checkSignature_eq_foreign_iff, Token.claims, Outcome.bind_eq_error_iff]
  constructor
  · rintro (h | ⟨-, -, h⟩)
    · exact h
    · obtain ⟨fault, hf, e⟩ := Outcome.mapError_eq_error_iff.1 h
      cases e
      exact absurd rfl (claimsAt_eq_error hf)
  · exact Or.inl

end Token

namespace Authenticator

variable {scheme : SignatureScheme} {a : Authenticator} {key : VerifyingKey} {now : Nat} {headers : Http.Headers}
  {name token : String}

theorem credentialsOf_eq_foreign_iff :
    a.credentialsOf scheme key now token = .error (.refused (.token .foreignAlgorithm)) ↔
      ∃ t algorithm, Token.ofText? token = some t ∧ t.algorithm? = some algorithm ∧
        algorithm ∉ key.kind.algorithms := by
  constructor
  · intro h
    unfold credentialsOf at h
    split at h
    · cases h
    · rename_i t ht
      split at h
      · rename_i fault hclaims
        cases h
        obtain ⟨algorithm, ha, hk⟩ := Token.claims_eq_foreign_iff.1 hclaims
        exact ⟨t, algorithm, ht, ha, hk⟩
      · cases h
      · obtain ⟨cause, hcause, e⟩ := Outcome.mapError_eq_error_iff.1 h
        cases e
        cases Credentials.ofClaims_eq_error hcause
  · rintro ⟨t, algorithm, ht, ha, hk⟩
    exact credentialsOf_of_error ht (Token.checkSignature_of_foreign ha hk)

/-- **A request comes to a foreign algorithm where its token names an algorithm that takes no key of the kind.** -/
theorem authenticate_eq_foreign_iff :
    a.authenticate scheme now headers = .error (.refused (.token .foreignAlgorithm)) ↔
      ∃ key algorithm, a.key = .ok key ∧ SendsTokenFor algorithm a.requireBearerScheme headers ∧
        algorithm ∉ key.kind.algorithms := by
  constructor
  · intro h
    obtain ⟨fault, -, e⟩ | ⟨key, hkey, hcause | ⟨token, hsent, h⟩⟩ := authenticate_eq_refused_iff.1 h
    · cases e
    · rcases Authorization.ofHeaders_eq_error hcause with ⟨fault, e⟩ | e <;> cases e
    · obtain ⟨t, algorithm, ht, ha, hk⟩ := credentialsOf_eq_foreign_iff.1 h
      exact ⟨key, algorithm, hkey, ⟨token, t, hsent, ht, ha⟩, hk⟩
  · rintro ⟨key, algorithm, hkey, ⟨token, t, hsent, ht, ha⟩, hk⟩
    rw [authenticate_eq_credentialsOf hkey hsent]
    exact credentialsOf_eq_foreign_iff.2 ⟨t, algorithm, ht, ha, hk⟩

/-! ## a name alone -/

/-- a request whose token has a header that holds nothing but the name of an algorithm -/
def SendsNameAlone (name : String) (requireScheme : Bool) (headers : Http.Headers) : Prop :=
  ∃ token t, Authorization.ofHeaders requireScheme headers = .ok token ∧ Token.ofText? token = some t ∧
    Token.segmentMembers? t.header = some [("alg", .text name)]

theorem algorithm?_alone {t : Token} (h : Token.segmentMembers? t.header = some [("alg", .text name)]) :
    t.algorithm? = Algorithm.ofName? name := by
  rw [Token.algorithm?, h]
  exact Token.headerAlgorithm?_alone name

theorem authenticate_of_unknown_name (hkey : a.key = .ok key)
    (hsent : SendsNameAlone name a.requireBearerScheme headers) (h : ∀ algorithm : Algorithm, algorithm.name ≠ name) :
    a.authenticate scheme now headers = .error (.refused (.token .malformed)) := by
  obtain ⟨token, t, htoken, ht, hheader⟩ := hsent
  have hnone : t.algorithm? = none := by
    rw [algorithm?_alone hheader, Option.eq_none_iff_forall_ne_some]
    intro algorithm ha
    exact h algorithm (Algorithm.name_of_ofName? ha)
  rw [authenticate_eq_credentialsOf hkey htoken]
  exact credentialsOf_of_error ht (Token.checkSignature_of_no_algorithm hnone)

theorem authenticate_of_foreign_name (hkey : a.key = .ok key)
    (hsent : SendsNameAlone name a.requireBearerScheme headers)
    (hname : ∀ algorithm ∈ key.kind.algorithms, algorithm.name ≠ name)
    (h : ∃ algorithm : Algorithm, algorithm.name = name) :
    a.authenticate scheme now headers = .error (.refused (.token .foreignAlgorithm)) := by
  obtain ⟨token, t, htoken, ht, hheader⟩ := hsent
  obtain ⟨algorithm, ha⟩ := Algorithm.exists_ofName?_iff.2 h
  refine authenticate_eq_foreign_iff.2 ⟨key, algorithm, hkey, ⟨token, t, htoken, ht, ?_⟩, ?_⟩
  · rw [algorithm?_alone hheader, ha]
  · intro hk
    exact hname algorithm hk (Algorithm.name_of_ofName? ha)

/-- **A token that names an algorithm alone, and none of the kind of the key, is refused; that its algorithm is
foreign is reported exactly where the name is the name of some algorithm.** Any other name is taken for a malformed
token. The payload and the signature do not matter. -/
theorem foreign_iff_known (scheme : SignatureScheme) {a : Authenticator} {key : VerifyingKey} (hkey : a.key = .ok key)
    {name : String} (hname : ∀ algorithm ∈ key.kind.algorithms, algorithm.name ≠ name) {headers : Http.Headers}
    (hsent : SendsNameAlone name a.requireBearerScheme headers) (now : Nat) :
    (a.authenticate scheme now headers = .error (.refused (.token .foreignAlgorithm)) ↔
        ∃ algorithm : Algorithm, algorithm.name = name) ∧
      (a.authenticate scheme now headers = .error (.refused (.token .malformed)) ↔
        ∀ algorithm : Algorithm, algorithm.name ≠ name) := by
  by_cases h : ∃ algorithm : Algorithm, algorithm.name = name
  · have hforeign : a.authenticate scheme now headers = .error (.refused (.token .foreignAlgorithm)) :=
      authenticate_of_foreign_name hkey hsent hname h
    rw [hforeign]
    refine ⟨iff_of_true rfl h, iff_of_false (by decide) ?_⟩
    rintro hno
    obtain ⟨algorithm, ha⟩ := h
    exact hno algorithm ha
  · have hno : ∀ algorithm : Algorithm, algorithm.name ≠ name := fun algorithm ha => h ⟨algorithm, ha⟩
    have hmalformed : a.authenticate scheme now headers = .error (.refused (.token .malformed)) :=
      authenticate_of_unknown_name hkey hsent hno
    rw [hmalformed]
    exact ⟨iff_of_false (by decide) h, iff_of_true rfl hno⟩

/-! ## two headers -/

/-- a token with a header, and no signature -/
def unsignedToken (header : String) : Token := ⟨header, "eyJzdWIiOiJLaXJrIn0", ""⟩

theorem exists_sends_unsignedToken {header : String} (requireScheme : Bool)
    (h : ∀ c ∈ header.toList, Base64.IsUrlSymbol c)
    (hheader : Token.segmentMembers? header = some [("alg", .text name)]) :
    ∃ headers,
      Http.Headers.ofList [(utf8 "Authorization", utf8 ("Bearer " ++ (unsignedToken header).text))] = .ok headers ∧
        SendsNameAlone name requireScheme headers := by
  have hpayload : ∀ c ∈ "eyJzdWIiOiJLaXJrIn0".toList, Base64.IsUrlSymbol c :=
    Base64.isUrlSymbol_of_all (by decide)
  have hsignature : ∀ c ∈ "".toList, Base64.IsUrlSymbol c := Base64.isUrlSymbol_of_all (by decide)
  have hsymbols : (unsignedToken header).OfSymbols := ⟨h, hpayload, hsignature⟩
  obtain ⟨headers, hlist, hsent⟩ := Authorization.exists_bearer_headers requireScheme hsymbols.isVisibleText
    hsymbols.trimmed_text (unsignedToken header).text_ne_empty
  exact ⟨headers, hlist, _, _, hsent, hsymbols.ofText?_text, hheader⟩

/-- the name of an algorithm on a curve, under a key for keyed hashes -/
theorem foreign_iff_known_curve :
    ∃ headers, Http.Headers.ofList [(utf8 "Authorization",
        utf8 ("Bearer " ++ (unsignedToken "eyJhbGciOiJFUzI1NiJ9").text))] = .ok headers ∧
      (∀ algorithm ∈ KeyKind.hmac.algorithms, algorithm.name ≠ "ES256") ∧
      SendsNameAlone "ES256" edgeSettings.requireBearerScheme headers ∧
      (ofSettings edgeSettings).authenticate standardScheme 1700000000 headers =
        .error (.refused (.token .foreignAlgorithm)) := by
  have hheader : Token.segmentMembers? "eyJhbGciOiJFUzI1NiJ9" = some [("alg", .text "ES256")] := by decide +kernel
  have hname : ∀ algorithm ∈ KeyKind.hmac.algorithms, algorithm.name ≠ "ES256" := by decide
  obtain ⟨headers, hlist, hsent⟩ := exists_sends_unsignedToken edgeSettings.requireBearerScheme
    (Base64.isUrlSymbol_of_all (by decide)) hheader
  refine ⟨headers, hlist, hname, hsent, ?_⟩
  exact (foreign_iff_known standardScheme key_edgeSettings hname hsent 1700000000).1.2 ⟨.ecdsa .p256, rfl⟩

/-- the name that stands for no signature is the name of no algorithm, and not reported as foreign -/
theorem authenticate_none_malformed :
    ∃ headers, Http.Headers.ofList [(utf8 "Authorization",
        utf8 ("Bearer " ++ (unsignedToken "eyJhbGciOiJub25lIn0").text))] = .ok headers ∧
      (ofSettings edgeSettings).isEnabled = true ∧
      (∀ algorithm ∈ (ofSettings edgeSettings).algorithms, algorithm.name ≠ "none") ∧
      SendsNameAlone "none" edgeSettings.requireBearerScheme headers ∧
      (ofSettings edgeSettings).authenticate standardScheme 1700000000 headers =
        .error (.refused (.token .malformed)) ∧
      (ofSettings edgeSettings).authenticate standardScheme 1700000000 headers ≠
        .error (.refused (.token .foreignAlgorithm)) := by
  have hheader : Token.segmentMembers? "eyJhbGciOiJub25lIn0" = some [("alg", .text "none")] := by decide +kernel
  have hno : ∀ algorithm : Algorithm, algorithm.name ≠ "none" := by
    intro algorithm
    rcases algorithm with (_ | _ | _) | (_ | _ | _) | (_ | _ | _) | (_ | _) | _ <;> decide
  have henabled : (ofSettings edgeSettings).isEnabled = true := by
    rw [isEnabled, key_edgeSettings]
    rfl
  obtain ⟨headers, hlist, hsent⟩ := exists_sends_unsignedToken edgeSettings.requireBearerScheme
    (Base64.isUrlSymbol_of_all (by decide)) hheader
  have hmalformed : (ofSettings edgeSettings).authenticate standardScheme 1700000000 headers =
      .error (.refused (.token .malformed)) := authenticate_of_unknown_name key_edgeSettings hsent hno
  refine ⟨headers, hlist, henabled, fun algorithm _ => hno algorithm, hsent, hmalformed, ?_⟩
  rw [hmalformed]
  decide

end Authenticator

end BearerCredentials
