import BearerCredentials.Proofs.Authenticator.Issued
import BearerCredentials.Proofs.Token.Instants

/-!
# Requests as the clock goes on

A request that passes every check before those of the time is too early at first, then has an outcome that is
the same at every instant, and is too late after that. All other requests fail the same way at every instant.

* `Reaches`              a request that passes every check before those of the time;
* `Window`               when such a request is too early and too late;
* `window_of_reaches`    the times are these, and without such checks there is only one outcome.
-/

namespace BearerCredentials.Authenticator

/-- a request that passes every check before those of the time, with the claims of its payload -/
def Reaches (scheme : SignatureScheme) (a : Authenticator) (headers : Http.Headers) (claims : Claims) : Prop :=
  ∃ key token t payloadText validity,
    a.key = .ok key ∧ Authorization.ofHeaders a.requireBearerScheme headers = .ok token ∧
    Token.ofText? token = some t ∧ t.Signed scheme key ∧
    Token.segmentBytes? t.payload = some (utf8 payloadText) ∧ Claims.read payloadText = .ok claims ∧
    Token.Validity.read payloadText = .ok validity

/-- the outcome of claims at every instant in which they are valid -/
def settled (a : Authenticator) (claims : Claims) : Except (Failure Denial) Credentials :=
  (Credentials.ofClaims claims a.subjectKey a.rolesKey).mapError .refused

def expired : Except (Failure Denial) Credentials := .error (.refused (.token .expired))

def premature : Except (Failure Denial) Credentials := .error (.refused (.token .premature))

/-- the phases of a request, in their order -/
def phase : Except (Failure Denial) Credentials → Nat
  | .error (.refused (.token .premature)) => 0
  | .error (.refused (.token .expired)) => 2
  | _ => 1

/-- when a request is too early and too late -/
structure Window (scheme : SignatureScheme) (a : Authenticator) (headers : Http.Headers) (claims : Claims) :
    Prop where
  exp_rounds : ∀ v, claims.get? "exp" = some v → ∃ n e, v = .number n ∧ n.RoundsTo e
  nbf_rounds : ∀ v, claims.get? "nbf" = some v → ∃ n s, v = .number n ∧ n.RoundsTo s
  expired_iff : ∀ now, a.authenticate scheme now headers = expired ↔
    ∃ n e, claims.get? "exp" = some (.number n) ∧ n.RoundsTo e ∧ e + a.tolerance.toNat < now
  premature_iff : ∀ now, a.authenticate scheme now headers = premature ↔
    a.authenticate scheme now headers ≠ expired ∧
      ∃ n s, claims.get? "nbf" = some (.number n) ∧ n.RoundsTo s ∧ now + a.tolerance.toNat < s
  between : ∀ now, a.authenticate scheme now headers ≠ expired → a.authenticate scheme now headers ≠ premature →
    a.authenticate scheme now headers = a.settled claims
  settled_cases : (∃ c, a.settled claims = .ok c) ∨ a.settled claims = .error (.refused (.noSubject a.subjectKey))
  /-- the phases come in their order -/
  forward : ∀ now now', now ≤ now' →
    phase (a.authenticate scheme now headers) ≤ phase (a.authenticate scheme now' headers)
  /-- what is the outcome at two instants is the outcome at all instants between them -/
  convex : ∀ now₁ now now₂, now₁ ≤ now → now ≤ now₂ →
    a.authenticate scheme now₁ headers = a.authenticate scheme now₂ headers →
    a.authenticate scheme now headers = a.authenticate scheme now₁ headers
  tolerant : ∀ (tolerance : UInt64) now c, a.tolerance ≤ tolerance → a.authenticate scheme now headers = .ok c →
    { a with tolerance := tolerance }.authenticate scheme now headers = .ok c

variable {scheme : SignatureScheme} {a : Authenticator} {headers : Http.Headers} {claims : Claims} {now now' : Nat}

/-! ## outcomes -/

theorem settled_cases (a : Authenticator) (claims : Claims) :
    (∃ c, a.settled claims = .ok c) ∨ a.settled claims = .error (.refused (.noSubject a.subjectKey)) := by
  unfold settled Credentials.ofClaims
  cases claims.subject? a.subjectKey with
  | none => exact Or.inr rfl
  | some username => exact Or.inl ⟨_, rfl⟩

/-- what comes of a fault in the time, or of none -/
def outcome (settled : Except (Failure Denial) Credentials) :
    Option TokenFault → Except (Failure Denial) Credentials
  | some fault => .error (.refused (.token fault))
  | none => settled

theorem authenticate_of_payload {key : VerifyingKey} {token : String} {t : Token} {members : Token.Members}
    {validity : Token.Validity} (hkey : a.key = .ok key)
    (hsent : Authorization.ofHeaders a.requireBearerScheme headers = .ok token) (ht : Token.ofText? token = some t)
    (hsigned : t.Signed scheme key) (hp : t.payload? = some (members, validity)) :
    a.authenticate scheme now headers =
      outcome (a.settled (Claims.ofMembers members)) (validity.fault? a.tolerance.toNat now) := by
  rw [authenticate_eq_credentialsOf hkey hsent, credentialsOf_of_signed ht hsigned, Token.claimsAt, hp]
  cases hf : validity.fault? a.tolerance.toNat now <;> simp only [hf, outcome, settled]

/-- **A request that passes the other checks has the outcome of its time**, whatever the tolerance is. -/
theorem exists_outcome (h : Reaches scheme a headers claims) :
    ∃ validity : Token.Validity, Token.Gives claims "exp" validity.expires ∧
      Token.Gives claims "nbf" validity.starts ∧
      ∀ (tolerance : UInt64) now, { a with tolerance := tolerance }.authenticate scheme now headers =
        outcome (a.settled claims) (validity.fault? tolerance.toNat now) := by
  obtain ⟨key, token, t, payloadText, validity, hkey, hsent, ht, hsigned, hpayload, hclaims, htime⟩ := h
  obtain ⟨hexp, hnbf⟩ := Token.gives_of_read hclaims htime
  obtain ⟨members, hread, rfl⟩ := Claims.read_eq_ok_iff.1 hclaims
  have hmembers : Token.segmentMembers? t.payload = some members :=
    Token.segmentMembers?_eq_some_iff.2 ⟨payloadText, Token.segmentBytes?_eq_some_iff.1 hpayload, hread⟩
  have hp := Token.payload?_eq_some_iff.2 ⟨hmembers, (Token.Validity.read_eq_ok_iff hread).1 htime⟩
  exact ⟨validity, hexp, hnbf, fun tolerance now => authenticate_of_payload hkey hsent ht hsigned hp⟩

/-- all other requests fail, with one failure -/
theorem exists_failure (h : ¬ ∃ claims, Reaches scheme a headers claims) :
    ∃ failure, ∀ now, a.authenticate scheme now headers = .error failure := by
  cases hkey : a.key with
  | error fault =>
    exact ⟨.refused (.key fault), fun now => authenticate_of_no_key hkey⟩
  | ok key =>
  cases hsent : Authorization.ofHeaders a.requireBearerScheme headers with
  | error denial =>
    refine ⟨.refused denial, fun now => ?_⟩
    rw [authenticate, hkey, hsent]
    rfl
  | ok token =>
  cases ht : Token.ofText? token with
  | none =>
    refine ⟨.refused (.token .malformed), fun now => ?_⟩
    rw [authenticate_eq_credentialsOf hkey hsent, credentialsOf, ht]
  | some t =>
  cases hs : t.checkSignature scheme key with
  | error e =>
    exact ⟨_, fun now => (authenticate_eq_credentialsOf hkey hsent).trans (credentialsOf_of_error ht hs)⟩
  | ok _ =>
  have hsigned := Token.checkSignature_eq_ok_iff.1 hs
  cases hp : t.payload? with
  | none =>
    refine ⟨.refused (.token .malformed), fun now => ?_⟩
    rw [authenticate_eq_credentialsOf hkey hsent, credentialsOf_of_signed ht hsigned,
      Token.claimsAt_of_no_payload hp]
  | some payload =>
    obtain ⟨members, validity⟩ := payload
    obtain ⟨hmembers, hvalidity⟩ := Token.payload?_eq_some_iff.1 hp
    obtain ⟨payloadText, hpayload, hread⟩ := Token.segmentMembers?_eq_some_iff.1 hmembers
    refine absurd ⟨Claims.ofMembers members, key, token, t, payloadText, validity, hkey, hsent, ht, hsigned, ?_⟩ h
    exact ⟨Token.segmentBytes?_eq_some_iff.2 hpayload, Claims.read_eq_ok_iff.2 ⟨members, hread, rfl⟩,
      (Token.Validity.read_eq_ok_iff hread).2 hvalidity⟩

/-! ## the window -/

theorem settled_ne_fault (fault : TokenFault) : a.settled claims ≠ .error (.refused (.token fault)) := by
  intro e
  rcases a.settled_cases claims with ⟨c, hc⟩ | hc
  · rw [hc] at e
    cases e
  · rw [hc] at e
    cases e

theorem outcome_eq_fault_iff {f : Option TokenFault} {fault : TokenFault} :
    outcome (a.settled claims) f = .error (.refused (.token fault)) ↔ f = some fault := by
  cases f with
  | none => exact ⟨fun e => absurd e (settled_ne_fault fault), nofun⟩
  | some fault' =>
    constructor
    · intro e
      cases e
      rfl
    · intro e
      cases e
      rfl

theorem outcome_eq_ok_iff {f : Option TokenFault} {c : Credentials} :
    outcome (a.settled claims) f = .ok c ↔ f = none ∧ a.settled claims = .ok c := by
  cases f with
  | none => exact ⟨fun e => ⟨rfl, e⟩, fun e => e.2⟩
  | some fault => exact ⟨nofun, nofun⟩

theorem outcome_injective {f f' : Option TokenFault}
    (h : outcome (a.settled claims) f = outcome (a.settled claims) f') : f = f' := by
  cases f' with
  | some fault => exact outcome_eq_fault_iff.1 h
  | none =>
    cases f with
    | some fault => exact (outcome_eq_fault_iff.1 h.symm).symm
    | none => rfl

theorem phase_le_two (x : Except (Failure Denial) Credentials) : phase x ≤ 2 := by
  unfold phase
  split <;> decide

theorem phase_mono {validity : Token.Validity} {tolerance : Nat} (hle : now ≤ now') :
    phase (outcome (a.settled claims) (validity.fault? tolerance now)) ≤
      phase (outcome (a.settled claims) (validity.fault? tolerance now')) := by
  rcases Token.Validity.fault?_cases validity tolerance now' with h' | h' | h'
  · rcases Token.Validity.fault?_cases validity tolerance now with h | h | h
    · rw [h, h']
    · rw [Token.Validity.fault?_expired_mono hle h] at h'
      cases h'
    · rw [h]
      exact Nat.zero_le _
  · rw [h']
    exact phase_le_two _
  · rw [h', Token.Validity.fault?_premature_mono hle h']

/-- **Every request has its window, or fails at every instant in the same way.** -/
theorem window_of_reaches (scheme : SignatureScheme) (a : Authenticator) (headers : Http.Headers) :
    (∀ claims, Reaches scheme a headers claims → Window scheme a headers claims) ∧
      ((¬ ∃ claims, Reaches scheme a headers claims) →
        ∃ failure, ∀ now, a.authenticate scheme now headers = .error failure) := by
  refine ⟨fun claims h => ?_, exists_failure⟩
  obtain ⟨validity, hexp, hnbf, hout⟩ := exists_outcome h
  have hat (now : Nat) : a.authenticate scheme now headers =
      outcome (a.settled claims) (validity.fault? a.tolerance.toNat now) := hout a.tolerance now
  have hexpired (now : Nat) : a.authenticate scheme now headers = expired ↔
      validity.fault? a.tolerance.toNat now = some .expired := by
    rw [hat]
    exact outcome_eq_fault_iff
  have hpremature (now : Nat) : a.authenticate scheme now headers = premature ↔
      validity.fault? a.tolerance.toNat now = some .premature := by
    rw [hat]
    exact outcome_eq_fault_iff
  exact {
    exp_rounds := by
      intro v hv
      obtain ⟨n, e, hn, -, hround⟩ := hexp.of_claim v hv
      exact ⟨n, e, hn, hround⟩
    nbf_rounds := by
      intro v hv
      obtain ⟨n, s, hn, -, hround⟩ := hnbf.of_claim v hv
      exact ⟨n, s, hn, hround⟩
    expired_iff := by
      intro now
      rw [hexpired, Token.Validity.fault?_eq_expired_iff, hexp.exists_iff]
    premature_iff := by
      intro now
      rw [hpremature, ne_eq, hexpired, Token.Validity.fault?_eq_premature_iff, hnbf.exists_iff]
    between := by
      intro now hne hne'
      rw [ne_eq, hexpired] at hne
      rw [ne_eq, hpremature] at hne'
      rcases Token.Validity.fault?_cases validity a.tolerance.toNat now with hf | hf | hf
      · rw [hat, hf]
        rfl
      · exact absurd hf hne
      · exact absurd hf hne'
    settled_cases := a.settled_cases claims
    forward := by
      intro now now' hle
      rw [hat, hat]
      exact phase_mono hle
    convex := by
      intro now₁ now now₂ h₁ h₂ he
      rw [hat, hat] at he
      rw [hat, hat, Token.Validity.fault?_convex h₁ h₂ (outcome_injective he)]
    tolerant := by
      intro tolerance now c hle hc
      rw [hat, outcome_eq_ok_iff] at hc
      rw [hout, outcome_eq_ok_iff]
      exact ⟨Token.Validity.fault?_none_mono (UInt64.le_iff_toNat_le.1 hle) hc.1, hc.2⟩ }

theorem reaches_issue {secret : Bytes} {payload : String} {members : Token.Members} (hash : Sha2)
    (hkey : a.key = .ok ⟨.hmac, secret⟩)
    (hsent : Authorization.ofHeaders a.requireBearerScheme headers = .ok (Token.issue hash secret payload).text)
    (hread : Json.read payload = .ok (.object members)) {tolerance : Nat}
    (htime : Token.Timely members tolerance now) :
    Reaches standardScheme a headers (Claims.ofMembers members) := by
  obtain ⟨validity, hvalidity, -⟩ := Token.Validity.exists_validity htime
  refine ⟨_, _, _, payload, validity, hkey, hsent, (Token.ofSymbols_issue hash secret payload).ofText?_text,
    Token.signed_issue hash secret payload, Token.segmentBytes?_segment _, ?_, ?_⟩
  · exact Claims.read_eq_ok_iff.2 ⟨members, hread, rfl⟩
  · exact (Token.Validity.read_eq_ok_iff hread).2 hvalidity

theorem window_edgePayload :
    ∃ headers claims,
      Http.Headers.ofList [(utf8 "Authorization",
        utf8 ("Bearer " ++ (Token.issue .sha256 (utf8 "key") edgePayload).text))] = .ok headers ∧
      Reaches standardScheme (ofSettings edgeSettings) headers claims ∧
      Window standardScheme (ofSettings edgeSettings) headers claims := by
  have hkey := key_of_secret (s := edgeSettings) (by decide) signingKey_edgeSettings
  obtain ⟨headers, c, hlist, hsent, -, -⟩ := exists_accepted_issue .sha256 hkey read_edgePayload
    timely_edgeMembers name_edgeMembers namesSubject_ada
  have hreaches := reaches_issue .sha256 hkey hsent read_edgePayload timely_edgeMembers
  exact ⟨headers, _, hlist, hreaches, (window_of_reaches _ _ _).1 _ hreaches⟩

end BearerCredentials.Authenticator
