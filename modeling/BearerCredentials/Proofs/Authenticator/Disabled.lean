import BearerCredentials.Proofs.Authenticator.Stages
import BearerCredentials.Proofs.Authorization
import BearerCredentials.Proofs.Credentials.Image
import BearerCredentials.Proofs.VerifyingKey.Setting

/-!
# Disabled authenticators

Two notions of being enabled meet here: the settings hold a signing key that is not blank, and the authenticator
could read it.  The second implies the first, and where it fails every request is refused for a cause that lies in
the settings, before any of its headers is looked at.

* `isEnabled_eq_false_iff_givesNoKey`   an authenticator is disabled if the settings give it no key;
* `authenticate_of_givesNoKey`          for which cause its requests are refused;
* `liesInRequest_of_key`                with a key no cause lies in the settings;
* `disabled_iff_refused_by_settings`    all of this together.
-/

namespace BearerCredentials

theorem Settings.isEnabled_eq_false_iff {s : Settings} :
    s.isEnabled = false ↔ VerifyingKey.GivesNoKey s.signingKey .absent := by
  unfold Settings.isEnabled
  cases s.signingKey with
  | none => exact ⟨fun _ => .absent, fun _ => rfl⟩
  | some raw =>
    show (!(Text.trim raw).isEmpty) = false ↔ _
    rw [Text.isEmpty_trim, Bool.not_eq_false']
    constructor
    · exact .blank
    · rintro (_ | hb)
      exact hb

namespace Authenticator

variable {scheme : SignatureScheme} {a : Authenticator} {s : Settings} {key : VerifyingKey} {now : Nat}
  {headers : Http.Headers} {token : String} {fault : KeySettingFault} {denial : Denial}

/-! ## without a key -/

theorem isEnabled_eq_false_iff_givesNoKey :
    (ofSettings s).isEnabled = false ↔ ∃ fault, VerifyingKey.GivesNoKey s.signingKey fault := by
  show (VerifyingKey.ofSetting s.signingKey).isOk = false ↔ _
  cases hkey : VerifyingKey.ofSetting s.signingKey with
  | ok key =>
    refine ⟨nofun, ?_⟩
    rintro ⟨fault, hf⟩
    rw [VerifyingKey.ofSetting_eq_error_iff.2 hf] at hkey
    cases hkey
  | error fault => exact ⟨fun _ => ⟨fault, VerifyingKey.ofSetting_eq_error_iff.1 hkey⟩, fun _ => rfl⟩

theorem authenticate_of_givesNoKey (h : VerifyingKey.GivesNoKey s.signingKey fault) :
    (ofSettings s).authenticate scheme now headers = .error (.refused (.key fault)) :=
  authenticate_of_no_key (VerifyingKey.ofSetting_eq_error_iff.2 h)

theorem eq_of_givesNoKey (h : VerifyingKey.GivesNoKey s.signingKey fault) :
    fault = if s.isEnabled then .unreadable else .absent := by
  cases he : s.isEnabled with
  | false =>
    -- a setting gives no key for one cause only
    have habsent := VerifyingKey.ofSetting_eq_error_iff.2 (Settings.isEnabled_eq_false_iff.1 he)
    rw [VerifyingKey.ofSetting_eq_error_iff.2 h] at habsent
    exact Except.error.inj habsent
  | true =>
    cases fault with
    | unreadable => rfl
    | absent =>
      rw [Settings.isEnabled_eq_false_iff.2 h] at he
      cases he

/-! ## with a key -/

theorem credentialsOf_eq_refused (h : a.credentialsOf scheme key now token = .error (.refused denial)) :
    (∃ fault, denial = .token fault) ∨ denial = .noSubject a.subjectKey := by
  unfold credentialsOf at h
  split at h
  · cases h
    exact Or.inl ⟨_, rfl⟩
  split at h
  · cases h
    exact Or.inl ⟨_, rfl⟩
  · cases h
  · obtain ⟨cause, hcause, hf⟩ := Outcome.mapError_eq_error_iff.1 h
    cases hf
    exact Or.inr (Credentials.ofClaims_eq_error hcause)

theorem liesInRequest_of_key (hkey : a.key = .ok key)
    (h : a.authenticate scheme now headers = .error (.refused denial)) : denial.liesInSettings = false := by
  obtain ⟨fault, hno, -⟩ | ⟨key', -, hsent | ⟨token, -, hc⟩⟩ := authenticate_eq_refused_iff.1 h
  · rw [hkey] at hno
    cases hno
  · rcases Authorization.ofHeaders_eq_error hsent with ⟨fault, rfl⟩ | rfl <;> rfl
  · rcases credentialsOf_eq_refused hc with ⟨fault, rfl⟩ | rfl <;> rfl

theorem liesInRequest_of_isEnabled (he : a.isEnabled = true)
    (h : a.authenticate scheme now headers = .error (.refused denial)) : denial.liesInSettings = false := by
  cases hkey : a.key with
  | ok key => exact liesInRequest_of_key hkey h
  | error fault =>
    rw [isEnabled, hkey] at he
    cases he

/-! ## the two together -/

/-- **A request is refused by the settings if and only if the authenticator is disabled.** It is disabled where the
settings give no key, all its requests are refused for one cause then, and settings that are not enabled never give
an enabled one. -/
theorem disabled_iff_refused_by_settings (scheme : SignatureScheme) (s : Settings) :
    ((ofSettings s).isEnabled = false ↔ ∃ fault, VerifyingKey.GivesNoKey s.signingKey fault) ∧
      (∀ fault, VerifyingKey.GivesNoKey s.signingKey fault →
        fault = (if s.isEnabled then .unreadable else .absent) ∧
          ∀ now headers,
            (ofSettings s).authenticate scheme now headers = .error (.refused (.key fault)) ∧
              (ofSettings s).extract scheme now headers = some ⟨none, [.refused (.key fault)]⟩) ∧
      ((ofSettings s).isEnabled = true → ∀ now headers denial,
        (ofSettings s).authenticate scheme now headers = .error (.refused denial) →
          denial.liesInSettings = false) ∧
      (∀ now headers, (∃ denial, (ofSettings s).authenticate scheme now headers = .error (.refused denial) ∧
          denial.liesInSettings = true) ↔ (ofSettings s).isEnabled = false) ∧
      ((ofSettings s).isEnabled = true → s.isEnabled = true) := by
  refine ⟨isEnabled_eq_false_iff_givesNoKey, ?_, ?_, ?_, ?_⟩
  · intro fault h
    refine ⟨eq_of_givesNoKey h, fun now headers => ?_⟩
    have hrefused : (ofSettings s).authenticate scheme now headers = .error (.refused (.key fault)) :=
      authenticate_of_givesNoKey h
    exact ⟨hrefused, extract_of_refused hrefused⟩
  · exact fun he now headers denial h => liesInRequest_of_isEnabled he h
  · intro now headers
    constructor
    · rintro ⟨denial, h, hd⟩
      rw [← Bool.not_eq_true]
      intro he
      rw [liesInRequest_of_isEnabled he h] at hd
      cases hd
    · intro he
      obtain ⟨fault, hf⟩ := isEnabled_eq_false_iff_givesNoKey.1 he
      exact ⟨.key fault, authenticate_of_givesNoKey hf, rfl⟩
  · intro he
    rw [← Bool.not_eq_false]
    intro hs
    rw [isEnabled_eq_false_iff_givesNoKey.2 ⟨_, Settings.isEnabled_eq_false_iff.1 hs⟩] at he
    cases he

theorem refused_pemMark :
    VerifyingKey.GivesNoKey (some VerifyingKey.pemMark) .unreadable ∧
      (∀ now headers, (ofSettings (.ofSigningKey VerifyingKey.pemMark)).extract standardScheme now headers =
        some ⟨none, [.refused (.key .unreadable)]⟩) ∧
      (ofSettings (.ofSigningKey "a2V5")).isEnabled = true ∧
      ∀ now headers denial,
        (ofSettings (.ofSigningKey "a2V5")).authenticate standardScheme now headers = .error (.refused denial) →
          denial.liesInSettings = false := by
  have hno : VerifyingKey.GivesNoKey (some VerifyingKey.pemMark) .unreadable :=
    VerifyingKey.ofSetting_eq_error_iff.1 (by decide +kernel)
  have hkey : (ofSettings (.ofSigningKey "a2V5")).isEnabled = true := by decide +kernel
  refine ⟨hno, fun now headers => ?_, hkey, ?_⟩
  · exact (((disabled_iff_refused_by_settings standardScheme (.ofSigningKey VerifyingKey.pemMark)).2.1
      .unreadable hno).2 now headers).2
  · exact (disabled_iff_refused_by_settings standardScheme (.ofSigningKey "a2V5")).2.2.1 hkey

end Authenticator

end BearerCredentials
