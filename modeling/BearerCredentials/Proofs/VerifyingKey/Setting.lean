import BearerCredentials.Proofs.Base64.Symbols
import BearerCredentials.Proofs.Outcome
import BearerCredentials.Proofs.Text.Pieces
import BearerCredentials.Proofs.Text.Trim
import BearerCredentials.VerifyingKey

/-!
# Settings that give a key

* `SpellsSecret`, `decodeSecret?_eq_some_iff`   a secret in base64 is read from the texts that spell it;
* `PemKey.material?`, `PemKey.eq_keyKind`       the bytes that a PEM text holds for the kind of key that it names;
* `VerifyingKey.ofPem?_eq_some_iff`             these bytes are the key, whatever they are;
* `VerifyingKey.cases_of_ofSetting`             a setting gives a key by its PEM text, or else as a secret;
* `GivesNoKey`, `ofSetting_eq_error_iff`        why it gives none.
-/

namespace BearerCredentials

/-! ## secrets in base64 -/

namespace Base64

/-- the padded form of a secret -/
def secretText (secret : Bytes) : String := String.ofList (encodePadded .standard secret)

theorem toList_secretText (secret : Bytes) : (secretText secret).toList = encodePadded .standard secret :=
  String.toList_ofList

end Base64

/-- a text that spells a secret: one of its two forms, with blanks anywhere -/
def SpellsSecret (raw : String) (secret : Bytes) : Prop :=
  secret ≠ [] ∧ ((Text.squeeze raw).toList = Base64.encodePadded .standard secret ∨
    (Text.squeeze raw).toList = Base64.encode .standard secret)

theorem isEmpty_not_eq_true_iff {secret : Bytes} : (!secret.isEmpty) = true ↔ secret ≠ [] := by
  rw [Bool.not_eq_true', List.isEmpty_eq_false_iff]

/-- **A secret is read from the texts that spell it, and from no others.** -/
theorem decodeSecret?_eq_some_iff {raw : String} {secret : Bytes} :
    decodeSecret? raw = some secret ↔ SpellsSecret raw secret := by
  have hpadded (bytes : Bytes) : Base64.decodePadded .standard (Text.squeeze raw).toList = some bytes ↔
      (Text.squeeze raw).toList = Base64.encodePadded .standard bytes :=
    Base64.decodePadded_eq_some_iff .standard
  have hbare (bytes : Bytes) : Base64.decode .standard (Text.squeeze raw).toList = some bytes ↔
      (Text.squeeze raw).toList = Base64.encode .standard bytes :=
    Base64.decode_eq_some_iff .standard
  show ((Base64.decodePadded .standard _).orElse fun _ => Base64.decode .standard _).filter _ = _ ↔ _
  rw [Option.filter_eq_some_iff, isEmpty_not_eq_true_iff, and_comm, SpellsSecret, ← hpadded, ← hbare]
  refine and_congr_right fun _ => ?_
  cases hp : Base64.decodePadded .standard (Text.squeeze raw).toList with
  | none => simp
  | some bytes =>
    rw [Option.orElse_some, Option.some.injEq]
    constructor
    · exact Or.inl
    · rintro (h | h)
      · exact h
      -- a text of both forms spells the same secret in both
      · exact (Base64.eq_of_encode_eq_encodePadded ((hbare secret).1 h ▸ (hpadded bytes).1 hp)).symm

theorem spellsSecret_secretText {secret : Bytes} (h : secret ≠ []) : SpellsSecret (Base64.secretText secret) secret := by
  refine ⟨h, Or.inl ?_⟩
  rw [Text.squeeze, String.toList_ofList, Base64.toList_secretText, List.filter_eq_self]
  intro c hc
  rw [Base64.isBlank_of_mem_encodePadded hc]
  rfl

/-! ## public keys in PEM -/

/-- the kind of key that a PEM text names -/
def PemForm.keyKind : PemForm → KeyKind
  | .rsaKey => .rsa
  | .keyInfo kind _ => kind

namespace PemKey

variable {pem : PemKey} {kind : KeyKind} {material : Bytes}

/-- the bytes that a PEM text holds for a kind of key -/
def material? (pem : PemKey) : KeyKind → Option Bytes
  | .hmac => none
  | .rsa => pem.rsa?
  | .ec => pem.ec?
  | .ed => pem.ed?

/-- a PEM text holds no bytes for another kind of key than it names -/
theorem eq_keyKind (h : pem.material? kind = some material) : kind = pem.form.keyKind := by
  cases kind with
  | hmac => cases h
  | rsa =>
    have hr : pem.rsa? = some material := h
    unfold rsa? at hr
    split at hr
    · rename_i hf
      rw [hf, PemForm.keyKind]
    · rename_i hf
      rw [hf, PemForm.keyKind]
    · cases hr
  | ec =>
    have he : pem.ec? = some material := h
    unfold ec? at he
    split at he
    · rename_i hf
      rw [hf, PemForm.keyKind]
    · cases he
  | ed =>
    have he : pem.ed? = some material := h
    unfold ed? at he
    split at he
    · rename_i hf
      rw [hf, PemForm.keyKind]
    · cases he

end PemKey

namespace VerifyingKey

variable {key : VerifyingKey} {text : String} {setting : Option String}

/-- a PEM text read as a key of one kind -/
theorem reading_eq_some_iff {kind : KeyKind} :
    (((PemKey.read? text).bind fun pem => pem.material? kind).map (VerifyingKey.mk kind)) = some key ↔
      kind = key.kind ∧ ∃ pem, PemKey.read? text = some pem ∧ pem.material? key.kind = some key.material := by
  rw [Option.map_eq_some_iff]
  constructor
  · rintro ⟨material, h, rfl⟩
    obtain ⟨pem, hread, hm⟩ := Option.bind_eq_some_iff.1 h
    exact ⟨rfl, pem, hread, hm⟩
  · rintro ⟨rfl, pem, hread, hm⟩
    exact ⟨key.material, Option.bind_eq_some_iff.2 ⟨pem, hread, hm⟩, rfl⟩

/-- what one of the readings accepts is the key that the text holds -/
theorem exists_pem_of_reading {reading : String → Option VerifyingKey} (hr : reading ∈ pemReadings)
    (h : reading text = some key) :
    ∃ pem, PemKey.read? text = some pem ∧ pem.material? key.kind = some key.material := by
  have hcases : reading = rsaOfPem? ∨ reading = ecOfPem? ∨ reading = edOfPem? := by
    simpa [pemReadings] using hr
  rcases hcases with rfl | rfl | rfl <;> exact (reading_eq_some_iff.1 h).2

theorem exists_reading_of_pem {pem : PemKey} (hread : PemKey.read? text = some pem)
    (hm : pem.material? key.kind = some key.material) : ∃ reading ∈ pemReadings, reading text = some key := by
  have hpem : key.kind = key.kind ∧ ∃ pem, PemKey.read? text = some pem ∧
      pem.material? key.kind = some key.material := ⟨rfl, pem, hread, hm⟩
  cases hkind : key.kind with
  | hmac =>
    rw [hkind] at hm
    cases hm
  | rsa => exact ⟨rsaOfPem?, by simp [pemReadings], reading_eq_some_iff.2 (hkind ▸ hpem)⟩
  | ec => exact ⟨ecOfPem?, by simp [pemReadings], reading_eq_some_iff.2 (hkind ▸ hpem)⟩
  | ed => exact ⟨edOfPem?, by simp [pemReadings], reading_eq_some_iff.2 (hkind ▸ hpem)⟩

/-- **The bytes that a PEM text holds are the key**, whatever they are. -/
theorem ofPem?_eq_some_iff :
    ofPem? text = some key ↔ ∃ pem, PemKey.read? text = some pem ∧ pem.material? key.kind = some key.material := by
  constructor
  · intro h
    obtain ⟨reading, hr, hk⟩ := List.exists_of_findSome?_eq_some h
    exact exists_pem_of_reading hr hk
  · rintro ⟨pem, hread, hm⟩
    obtain ⟨reading, hr, hk⟩ := exists_reading_of_pem hread hm
    have hsome : (ofPem? text).isSome = true := List.findSome?_isSome_iff.2 ⟨reading, hr, by rw [hk]; rfl⟩
    obtain ⟨key', hkey'⟩ := Option.isSome_iff_exists.1 hsome
    -- the first reading that accepts the text finds the same bytes
    obtain ⟨reading', hr', hk'⟩ := List.exists_of_findSome?_eq_some hkey'
    obtain ⟨pem', hread', hm'⟩ := exists_pem_of_reading hr' hk'
    obtain rfl := Option.some.inj (hread.symm.trans hread')
    have hkind : key'.kind = key.kind := (PemKey.eq_keyKind hm').trans (PemKey.eq_keyKind hm).symm
    rw [hkind, hm] at hm'
    have hmaterial : key'.material = key.material := (Option.some.inj hm').symm
    rw [hkey']
    cases key
    cases key'
    simp only at hkind hmaterial
    rw [hkind, hmaterial]

/-- whether a setting is taken for a PEM text -/
def isPem (raw : String) : Bool := Text.hasStretch pemMark.toList (Text.trim raw).toList

theorem allBlank_of_isPem {raw : String} (h : isPem raw = true) : Text.allBlank raw = false := by
  rw [← Text.isEmpty_trim, String.isEmpty_eq_false_iff]
  intro e
  rw [isPem, e] at h
  exact absurd h (by decide)

theorem ofSetting_of_blank {raw : String} (h : Text.allBlank raw = true) : ofSetting (some raw) = .error .absent := by
  rw [← Text.isEmpty_trim] at h
  simp only [ofSetting, Option.map_some, h, if_true]

theorem ofSetting_of_isPem {raw : String} (h : isPem raw = true) :
    ofSetting (some raw) = (ofPem? (Text.trim raw)).elim (.error .unreadable) .ok := by
  have he : (Text.trim raw).isEmpty = false := (Text.isEmpty_trim raw).trans (allBlank_of_isPem h)
  unfold isPem at h
  simp only [ofSetting, Option.map_some, he, h, Bool.false_eq_true, if_false, if_true]
  cases ofPem? (Text.trim raw) <;> rfl

theorem ofSetting_of_not_isPem {raw : String} (hb : Text.allBlank raw = false) (h : isPem raw = false) :
    ofSetting (some raw) = ((decodeSecret? raw).map (VerifyingKey.mk .hmac)).elim (.error .unreadable) .ok := by
  have he : (Text.trim raw).isEmpty = false := (Text.isEmpty_trim raw).trans hb
  have hs : decodeSecret? (Text.trim raw) = decodeSecret? raw := by
    rw [decodeSecret?, decodeSecret?, Text.squeeze_trim]
  unfold isPem at h
  simp only [ofSetting, Option.map_some, he, h, hs, Bool.false_eq_true, if_false]
  cases decodeSecret? raw <;> rfl

/-- blanks around a setting do not matter -/
theorem ofSetting_between {pre post : String} (hpre : Text.allBlank pre = true) (hpost : Text.allBlank post = true)
    (raw : String) : ofSetting (some (pre ++ raw ++ post)) = ofSetting (some raw) := by
  rw [ofSetting, Option.map_some, Text.trim_between hpre hpost]
  rfl

/-- **A setting gives a key by its PEM text, or else as a secret of at least one byte.** -/
theorem cases_of_ofSetting (h : ofSetting setting = .ok key) :
    ∃ raw, setting = some raw ∧
      ((isPem raw = true ∧ ofPem? (Text.trim raw) = some key) ∨
        (isPem raw = false ∧ key.kind = .hmac ∧ key.material ≠ [])) := by
  cases setting with
  | none => cases h
  | some raw =>
    refine ⟨raw, rfl, ?_⟩
    cases hb : Text.allBlank raw with
    | true =>
      rw [ofSetting_of_blank hb] at h
      cases h
    | false =>
      cases hp : isPem raw with
      | true =>
        rw [ofSetting_of_isPem hp, Outcome.elim_eq_ok_iff] at h
        exact Or.inl ⟨rfl, h⟩
      | false =>
        rw [ofSetting_of_not_isPem hb hp, Outcome.elim_eq_ok_iff, Option.map_eq_some_iff] at h
        obtain ⟨secret, hs, rfl⟩ := h
        exact Or.inr ⟨rfl, rfl, (decodeSecret?_eq_some_iff.1 hs).1⟩

theorem ofSetting_of_isPem_eq_error_iff {raw : String} (h : isPem raw = true) {fault : KeySettingFault} :
    ofSetting (some raw) = .error fault ↔
      fault = .unreadable ∧ ∀ reading ∈ pemReadings, reading (Text.trim raw) = none := by
  rw [ofSetting_of_isPem h, Outcome.elim_eq_error_iff, ofPem?, List.findSome?_eq_none_iff, and_comm, eq_comm]

theorem ofSetting_of_not_isPem_eq_error_iff {raw : String} (hb : Text.allBlank raw = false) (h : isPem raw = false)
    {fault : KeySettingFault} :
    ofSetting (some raw) = .error fault ↔ fault = .unreadable ∧ ∀ secret, ¬ SpellsSecret raw secret := by
  have hnone : decodeSecret? raw = none ↔ ∀ secret, ¬ SpellsSecret raw secret := by
    rw [Option.eq_none_iff_forall_ne_some]
    exact forall_congr' fun secret => not_congr decodeSecret?_eq_some_iff
  rw [ofSetting_of_not_isPem hb h, Outcome.elim_eq_error_iff, Option.map_eq_none_iff, hnone, and_comm, eq_comm]

/-- why a setting gives no key: it is absent or blank, or neither of the two forms of a key -/
inductive GivesNoKey : Option String → KeySettingFault → Prop where
  | absent : GivesNoKey none .absent
  | blank {raw : String} : Text.allBlank raw = true → GivesNoKey (some raw) .absent
  | pem {raw : String} : isPem raw = true → (∀ reading ∈ pemReadings, reading (Text.trim raw) = none) →
      GivesNoKey (some raw) .unreadable
  | secret {raw : String} : Text.allBlank raw = false → isPem raw = false → (∀ secret, ¬ SpellsSecret raw secret) →
      GivesNoKey (some raw) .unreadable

/-- **All other settings give a key.** -/
theorem ofSetting_eq_error_iff {fault : KeySettingFault} :
    ofSetting setting = .error fault ↔ GivesNoKey setting fault := by
  constructor
  · intro h
    cases setting with
    | none =>
      cases h
      exact .absent
    | some raw =>
      cases hb : Text.allBlank raw with
      | true =>
        rw [ofSetting_of_blank hb] at h
        cases h
        exact .blank hb
      | false =>
        cases hp : isPem raw with
        | true =>
          obtain ⟨rfl, hnone⟩ := (ofSetting_of_isPem_eq_error_iff hp).1 h
          exact .pem hp hnone
        | false =>
          obtain ⟨rfl, hnone⟩ := (ofSetting_of_not_isPem_eq_error_iff hb hp).1 h
          exact .secret hb hp hnone
  · rintro (_ | hb | ⟨hp, hnone⟩ | ⟨hb, hp, hnone⟩)
    · rfl
    · exact ofSetting_of_blank hb
    · exact (ofSetting_of_isPem_eq_error_iff hp).2 ⟨rfl, hnone⟩
    · exact (ofSetting_of_not_isPem_eq_error_iff hb hp).2 ⟨rfl, hnone⟩

end VerifyingKey

end BearerCredentials
