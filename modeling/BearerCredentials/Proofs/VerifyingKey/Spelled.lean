import BearerCredentials.Proofs.VerifyingKey.Setting

/-!
# Which settings hold a secret

* `Text.Spaced`, `spellsSecret_iff_spaced`   a secret is spelled by its two forms, with blanks put in anywhere;
* `SpellsSecret.unique`                      a text spells one secret at most;
* `VerifyingKey.isPem_iff`                   a setting is taken for a PEM text where it holds the mark;
* `VerifyingKey.ofSetting_exact`             what each setting gives, one that holds the mark apart.
-/

namespace BearerCredentials

/-! ## blanks put in -/

namespace Text

/-- some characters with blanks put in anywhere -/
inductive Spaced : List Char → List Char → Prop where
  | nil : Spaced [] []
  | blank {c : Char} {cs ds : List Char} : isBlank c = true → Spaced cs ds → Spaced cs (c :: ds)
  | cons (c : Char) {cs ds : List Char} : Spaced cs ds → Spaced (c :: cs) (c :: ds)

theorem spaced_filter (ds : List Char) : Spaced (ds.filter fun c => !isBlank c) ds := by
  induction ds with
  | nil => exact .nil
  | cons c ds ih =>
    cases hc : isBlank c with
    | true =>
      rw [List.filter_cons_of_neg (by simp [hc])]
      exact .blank hc ih
    | false =>
      rw [List.filter_cons_of_pos (by simp [hc])]
      exact .cons c ih

theorem Spaced.filter {cs ds : List Char} (h : Spaced cs ds) (hcs : ∀ c ∈ cs, isBlank c = false) :
    ds.filter (fun c => !isBlank c) = cs := by
  induction h with
  | nil => rfl
  | blank hc _ ih =>
    rw [List.filter_cons_of_neg (by simp [hc])]
    exact ih hcs
  | cons c _ ih =>
    have hc := hcs c List.mem_cons_self
    rw [List.filter_cons_of_pos (by simp [hc]), ih fun d hd => hcs d (List.mem_cons_of_mem _ hd)]

/-- putting blanks in undoes taking them out -/
theorem spaced_iff {cs : List Char} {s : String} (hcs : ∀ c ∈ cs, isBlank c = false) :
    Spaced cs s.toList ↔ (squeeze s).toList = cs := by
  rw [squeeze, String.toList_ofList]
  constructor
  · intro h
    exact h.filter hcs
  · rintro rfl
    exact spaced_filter s.toList

theorem mem_squeeze {s : String} {c : Char} (h : c ∈ s.toList) (hc : isBlank c = false) :
    c ∈ (squeeze s).toList := by
  rw [squeeze, String.toList_ofList, List.mem_filter]
  exact ⟨h, by rw [hc]; rfl⟩

end Text

/-! ## secrets -/

section
variable {raw : String} {secret secret' : Bytes}

theorem spellsSecret_iff_spaced :
    SpellsSecret raw secret ↔ secret ≠ [] ∧
      (Text.Spaced (Base64.encodePadded .standard secret) raw.toList ∨
        Text.Spaced (Base64.encode .standard secret) raw.toList) := by
  have hpadded : ∀ c ∈ Base64.encodePadded .standard secret, Text.isBlank c = false :=
    fun c hc => Base64.isBlank_of_mem_encodePadded hc
  have hbare : ∀ c ∈ Base64.encode .standard secret, Text.isBlank c = false :=
    fun c hc => hpadded c (List.mem_append_left _ hc)
  rw [Text.spaced_iff hpadded, Text.spaced_iff hbare]
  rfl

theorem SpellsSecret.unique (h : SpellsSecret raw secret) (h' : SpellsSecret raw secret') : secret = secret' := by
  rw [← decodeSecret?_eq_some_iff] at h h'
  exact Option.some.inj (h.symm.trans h')

/-- what is no blank in the text belongs to the padded form -/
theorem SpellsSecret.mem_encodePadded (h : SpellsSecret raw secret) {c : Char} (hc : c ∈ raw.toList)
    (hb : Text.isBlank c = false) : c ∈ Base64.encodePadded .standard secret := by
  have hm := Text.mem_squeeze hc hb
  rcases h.2 with e | e
  · rwa [e] at hm
  · rw [e] at hm
    exact List.mem_append_left _ hm

/-- a secret is not spelled with the marks of the other alphabet -/
theorem SpellsSecret.mark_notMem (h : SpellsSecret raw secret) {c : Char} (hc : c = '-' ∨ c = '_') :
    ¬ c ∈ raw.toList := by
  intro hm
  have hb : Text.isBlank c = false := by
    rcases hc with rfl | rfl <;> decide
  exact Base64.mark_notMem_encodePadded hc secret (h.mem_encodePadded hm hb)

/-- a text that spells a secret is not blank -/
theorem SpellsSecret.not_allBlank (h : SpellsSecret raw secret) : Text.allBlank raw = false := by
  have hne : (Text.squeeze raw).toList ≠ [] := by
    rcases h.2 with e | e
    · rw [e, Base64.encodePadded]
      exact List.append_ne_nil_of_left_ne_nil (Base64.encode_ne_nil h.1) _
    · rw [e]
      exact Base64.encode_ne_nil h.1
  obtain ⟨c, hc⟩ := List.exists_mem_of_ne_nil _ hne
  rw [Text.squeeze, String.toList_ofList, List.mem_filter] at hc
  rw [Text.allBlank, List.all_eq_false]
  exact ⟨c, hc.1, by simpa using hc.2⟩

end

namespace VerifyingKey

variable {raw : String} {secret : Bytes}

/-! ## the mark of a PEM text -/

theorem not_blank_of_mem_pemMark : ∀ c ∈ pemMark.toList, Text.isBlank c = false := by
  have hall : (pemMark.toList.all fun c => !Text.isBlank c) = true := rfl
  intro c hc
  rw [← Bool.not_eq_true']
  exact List.all_eq_true.1 hall c hc

/-- trimming takes nothing of the mark away -/
theorem isPem_iff : isPem raw = true ↔ pemMark.toList <:+: raw.toList := by
  rw [isPem, Text.hasStretch_iff, Text.trim, String.toList_ofList]
  exact Text.infix_trimBlanks_iff (by decide) not_blank_of_mem_pemMark

theorem isPem_of_spellsSecret (h : SpellsSecret raw secret) : isPem raw = false := by
  rw [← Bool.not_eq_true, isPem_iff]
  intro hmark
  exact h.mark_notMem (Or.inl rfl) (hmark.subset (by decide))

/-! ## what a setting gives -/

theorem allBlank_iff_forall : Text.allBlank raw = true ↔ ∀ c ∈ raw.toList, Text.isBlank c = true := by
  rw [Text.allBlank, List.all_eq_true]

theorem ofSetting_eq_absent_iff :
    ofSetting (some raw) = .error .absent ↔ ∀ c ∈ raw.toList, Text.isBlank c = true := by
  rw [ofSetting_eq_error_iff, ← allBlank_iff_forall]
  constructor
  · rintro (_ | hb)
    exact hb
  · exact .blank

theorem ofSetting_of_spellsSecret (h : SpellsSecret raw secret) :
    ofSetting (some raw) = .ok ⟨.hmac, secret⟩ := by
  rw [ofSetting_of_not_isPem h.not_allBlank (isPem_of_spellsSecret h), decodeSecret?_eq_some_iff.2 h]
  rfl

/-- a setting without the mark gives the secret that it spells -/
theorem ofSetting_eq_ok_iff (h : isPem raw = false) {key : VerifyingKey} :
    ofSetting (some raw) = .ok key ↔ key.kind = .hmac ∧ SpellsSecret raw key.material := by
  constructor
  · intro hkey
    cases hb : Text.allBlank raw with
    | true =>
      rw [ofSetting_of_blank hb] at hkey
      cases hkey
    | false =>
      rw [ofSetting_of_not_isPem hb h, Outcome.elim_eq_ok_iff, Option.map_eq_some_iff] at hkey
      obtain ⟨secret, hsecret, rfl⟩ := hkey
      exact ⟨rfl, decodeSecret?_eq_some_iff.1 hsecret⟩
  · rintro ⟨hkind, hspelled⟩
    obtain ⟨kind, material⟩ := key
    obtain rfl : kind = .hmac := hkind
    exact ofSetting_of_spellsSecret hspelled

theorem ofSetting_eq_unreadable_iff (h : isPem raw = false) :
    ofSetting (some raw) = .error .unreadable ↔
      (∃ c ∈ raw.toList, Text.isBlank c = false) ∧ ∀ secret, ¬ SpellsSecret raw secret := by
  have hblank : (∃ c ∈ raw.toList, Text.isBlank c = false) ↔ Text.allBlank raw = false := by
    rw [Text.allBlank, List.all_eq_false]
    simp only [Bool.not_eq_true]
  rw [hblank, ofSetting_eq_error_iff]
  constructor
  · rintro (_ | _ | ⟨hpem, -⟩ | ⟨hb, -, hno⟩)
    · rw [h] at hpem
      cases hpem
    · exact ⟨hb, hno⟩
  · rintro ⟨hb, hno⟩
    exact .secret hb h hno

theorem ne_hmac_of_isPem (h : isPem raw = true) {key : VerifyingKey} (hkey : ofSetting (some raw) = .ok key) :
    key.kind ≠ .hmac := by
  intro hkind
  rw [ofSetting_of_isPem h, Outcome.elim_eq_ok_iff, ofPem?_eq_some_iff] at hkey
  obtain ⟨pem, -, hm⟩ := hkey
  rw [hkind] at hm
  cases hm

/-- **What a setting gives.** Blanks give nothing, and a text with the mark gives no secret; every other text gives
the secret that it spells, or else nothing. Each secret of at least one byte is spelled in both of its forms
wherever blanks are put in, a text spells no two secrets, and none with the symbols of the other alphabet. -/
theorem ofSetting_exact (raw : String) :
    (ofSetting (some raw) = .error .absent ↔ ∀ c ∈ raw.toList, Text.isBlank c = true) ∧
      (pemMark.toList <:+: raw.toList → ∀ key, ofSetting (some raw) = .ok key → key.kind ≠ .hmac) ∧
      (¬ pemMark.toList <:+: raw.toList →
        (∀ key, ofSetting (some raw) = .ok key ↔ key.kind = .hmac ∧ SpellsSecret raw key.material) ∧
          (ofSetting (some raw) = .error .unreadable ↔
            (∃ c ∈ raw.toList, Text.isBlank c = false) ∧ ∀ secret, ¬ SpellsSecret raw secret)) ∧
      (∀ secret, secret ≠ [] →
        Text.Spaced (Base64.encodePadded .standard secret) raw.toList ∨
          Text.Spaced (Base64.encode .standard secret) raw.toList →
        ofSetting (some raw) = .ok ⟨.hmac, secret⟩) ∧
      ∀ secret, SpellsSecret raw secret →
        (∀ secret', SpellsSecret raw secret' → secret' = secret) ∧ ¬ '-' ∈ raw.toList ∧ ¬ '_' ∈ raw.toList := by
  rw [← isPem_iff, Bool.not_eq_true]
  refine ⟨ofSetting_eq_absent_iff, fun h key hkey => ne_hmac_of_isPem h hkey,
    fun h => ⟨fun key => ofSetting_eq_ok_iff h, ofSetting_eq_unreadable_iff h⟩, ?_, ?_⟩
  · intro secret hne hspaced
    exact ofSetting_of_spellsSecret (spellsSecret_iff_spaced.2 ⟨hne, hspaced⟩)
  · intro secret h
    exact ⟨fun secret' h' => h'.unique h, h.mark_notMem (Or.inl rfl), h.mark_notMem (Or.inr rfl)⟩

-- a filler too few, and a bit of the last symbol that fills no byte
example : decodeSecret? "Zg==" = some (utf8 "f") ∧ decodeSecret? "Zg=" = none ∧ decodeSecret? "Zh==" = none := by
  decide +kernel

end VerifyingKey

end BearerCredentials
