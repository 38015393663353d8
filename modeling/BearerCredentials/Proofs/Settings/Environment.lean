import BearerCredentials.Proofs.Outcome
import BearerCredentials.Proofs.Text.Trim
import BearerCredentials.Settings.Environment

/-!
# What an environment is loaded as

* `parseSeconds?_eq_some_iff`, `parseSwitch?_eq_some_iff`   how seconds and switches are spelled;
* `Environment.Gives`, `Environment.Offends`                what a variable gives, and one that cannot be read;
* `readVariable_eq_ok_iff`, `readVariable_eq_error_iff`     there is no third case;
* `ofEnvironment_toEnvironment`                             settings that are spelled out are loaded again;
* `ofEnvironment_exact`                                     which environments are loaded, and as what.
-/

namespace BearerCredentials

namespace Settings

/-! ## seconds and switches -/

/-- decimal digits, which a plus sign may precede, of a number of 64 bits -/
def SpellsSeconds (text : String) (seconds : UInt64) : Prop :=
  ∃ digits : List Char, (text.toList = digits ∨ text.toList = '+' :: digits) ∧ digits ≠ [] ∧
    (∀ c ∈ digits, c.isDigit = true) ∧ Nat.ofDigitChars 10 digits 0 = seconds.toNat

/-- the words for a truth value -/
def switchWords : Bool → List String
  | true => ["1", "true", "yes", "on"]
  | false => ["0", "false", "no", "off"]

/-- a word for a truth value in any case of ASCII letters -/
def SpellsSwitch (text : String) (on : Bool) : Prop :=
  String.ofList (text.toList.map Char.toLower) ∈ switchWords on

instance (text : String) (on : Bool) : Decidable (SpellsSwitch text on) := List.instDecidableMemOfLawfulBEq _ _

theorem eq_dropPlus_or (cs : List Char) : cs = dropPlus cs ∨ cs = '+' :: dropPlus cs := by
  unfold dropPlus
  split
  · exact Or.inr rfl
  · exact Or.inl rfl

theorem dropPlus_of_digits {digits : List Char} (h : ∀ c ∈ digits, c.isDigit = true) :
    dropPlus digits = digits := by
  unfold dropPlus
  split
  · exact absurd (h '+' List.mem_cons_self) (by decide)
  · rfl

theorem parseSeconds?_eq_some_iff {text : String} {seconds : UInt64} :
    parseSeconds? text = some seconds ↔ SpellsSeconds text seconds := by
  unfold parseSeconds?
  dsimp only
  constructor
  · intro h
    split at h
    · cases h
    rename_i hd
    rw [Bool.or_eq_true, not_or, List.isEmpty_iff, Bool.not_eq_true', Bool.not_eq_false, List.all_eq_true] at hd
    split at h
    · rename_i hlt
      cases h
      refine ⟨dropPlus text.toList, eq_dropPlus_or text.toList, hd.1, hd.2, ?_⟩
      rw [UInt64.toNat_ofNat', Nat.mod_eq_of_lt hlt]
    · cases h
  · rintro ⟨digits, htext, hne, hd, hn⟩
    have hdrop : dropPlus text.toList = digits := by
      rcases htext with e | e
      · rw [e, dropPlus_of_digits hd]
      · rw [e]
        rfl
    have hcond : (digits.isEmpty || !digits.all Char.isDigit) = false := by
      rw [List.all_eq_true.2 hd, List.isEmpty_eq_false_iff.2 hne]
      rfl
    have hlt : seconds.toNat < UInt64.size := seconds.toNat_lt
    simp only [hdrop, hcond, Bool.false_eq_true, if_false, hn, if_pos hlt, UInt64.ofNat_toNat]

theorem parseSwitch?_eq_some_iff {text : String} {on : Bool} :
    parseSwitch? text = some on ↔ SpellsSwitch text on := by
  unfold parseSwitch? SpellsSwitch
  generalize String.ofList (text.toList.map Char.toLower) = word
  have hexcl : word ∈ switchWords true → ¬ word ∈ switchWords false := by
    intro h
    simp only [switchWords, List.mem_cons, List.not_mem_nil, or_false] at h
    rcases h with rfl | rfl | rfl | rfl <;> decide
  have ht : ["1", "true", "yes", "on"].contains word = true ↔ word ∈ switchWords true := List.contains_iff_mem
  have hf : ["0", "false", "no", "off"].contains word = true ↔ word ∈ switchWords false := List.contains_iff_mem
  simp only [ht, hf]
  by_cases h : word ∈ switchWords true
  · cases on <;> simp [h, hexcl h]
  · cases on <;> simp [h]

theorem spellsSeconds_toDigits (seconds : UInt64) :
    SpellsSeconds (String.ofList (Nat.toDigits 10 seconds.toNat)) seconds := by
  refine ⟨Nat.toDigits 10 seconds.toNat, Or.inl (String.toList_ofList), Nat.toDigits_ne_nil, ?_, ?_⟩
  · exact fun c hc => Nat.isDigit_of_mem_toDigits (by decide) (by decide) hc
  · exact Nat.ofDigitChars_toDigits (by decide) (by decide)

theorem spellsSwitch_renderBool (on : Bool) : SpellsSwitch (Text.renderBool on) on := by
  cases on <;> decide

end Settings

/-! ## one variable -/

namespace Environment

variable {α : Type} {env : Environment} {name value : String} {spells : String → α → Prop} {a default : α}

/-- unset or blank -/
def LeavesOut (env : Environment) (name : String) : Prop :=
  env name = none ∨ ∃ value, env name = some value ∧ Text.allBlank value = true

/-- the default of a variable that is left out, and else what its value spells between the blanks -/
inductive Gives (env : Environment) (name : String) (spells : String → α → Prop) (default : α) : α → Prop
  | default : env.LeavesOut name → Gives env name spells default default
  | spelled {value : String} {a : α} : env name = some value → Text.allBlank value = false →
      spells (Text.trim value) a → Gives env name spells default a

/-- a value that spells nothing -/
structure Offends (env : Environment) (name : String) (spells : String → α → Prop) (value : String) : Prop where
  set : env name = some value
  not_blank : Text.allBlank value = false
  not_spelled : ∀ a, ¬ spells (Text.trim value) a

theorem present?_eq_some_iff : env.present? name = some value ↔ env name = some value ∧ Text.allBlank value = false := by
  rw [present?, Option.filter_eq_some_iff, Text.isEmpty_trim, Bool.not_eq_true']

theorem present?_eq_none_iff : env.present? name = none ↔ env.LeavesOut name := by
  rw [present?, Option.filter_eq_none_iff, LeavesOut]
  cases henv : env name with
  | none => simp
  | some value => simp [Text.isEmpty_trim]

theorem LeavesOut.not_present (h : env.LeavesOut name) (hset : env name = some value) :
    Text.allBlank value ≠ false := by
  rcases h with h | ⟨value', h, hb⟩
  · rw [h] at hset
    cases hset
  · rw [h] at hset
    cases hset
    rw [hb]
    decide

end Environment

namespace Settings

variable {α : Type} {env : Environment} {name : String} {parse? : String → Option α}
  {spells : String → α → Prop} {default a : α} {e : EnvironmentError} {s : Settings}

theorem readVariable_eq_ok_iff (hp : ∀ {text a}, parse? text = some a ↔ spells text a) :
    readVariable env name parse? default = .ok a ↔ env.Gives name spells default a := by
  unfold readVariable
  cases hv : env.present? name with
  | none =>
    have hl := Environment.present?_eq_none_iff.1 hv
    constructor
    · intro h
      cases h
      exact .default hl
    · intro h
      cases h with
      | default => rfl
      | spelled hset hb => exact absurd hb (hl.not_present hset)
  | some value =>
    obtain ⟨hset, hb⟩ := Environment.present?_eq_some_iff.1 hv
    constructor
    · intro h
      cases hparse : parse? (Text.trim value) with
      | none => simp only [hparse] at h; cases h
      | some b =>
        simp only [hparse] at h
        cases h
        exact .spelled hset hb (hp.1 hparse)
    · intro h
      cases h with
      | default hl => exact absurd hb (hl.not_present hset)
      | spelled hset' _ hs =>
        rw [hset] at hset'
        cases hset'
        simp only [hp.2 hs]

theorem readVariable_eq_error_iff (default : α) (hp : ∀ {text a}, parse? text = some a ↔ spells text a) :
    readVariable env name parse? default = .error e ↔ env.Offends name spells e.value ∧ e.name = name := by
  unfold readVariable
  cases hv : env.present? name with
  | none =>
    have hl := Environment.present?_eq_none_iff.1 hv
    constructor
    · intro h
      cases h
    · rintro ⟨ho, -⟩
      exact absurd ho.not_blank (hl.not_present ho.set)
  | some value =>
    obtain ⟨hset, hb⟩ := Environment.present?_eq_some_iff.1 hv
    constructor
    · intro h
      cases hparse : parse? (Text.trim value) with
      | none =>
        simp only [hparse] at h
        cases h
        refine ⟨⟨hset, hb, fun a hs => ?_⟩, rfl⟩
        rw [hp.2 hs] at hparse
        cases hparse
      | some b => simp only [hparse] at h; cases h
    · rintro ⟨ho, rfl⟩
      have he := ho.set
      rw [hset] at he
      cases he
      have hparse : parse? (Text.trim e.value) = none :=
        Option.eq_none_iff_forall_ne_some.2 fun a h => ho.not_spelled a (hp.1 h)
      simp only [hparse]

/-! ## all variables -/

theorem ofEnvironment_eq_ok_iff :
    ofEnvironment env = .ok s ↔
      env.Gives Environment.clockSkewTolerance SpellsSeconds Settings.default.clockSkewTolerance s.clockSkewTolerance ∧
      env.Gives Environment.requireBearerScheme SpellsSwitch Settings.default.requireBearerScheme s.requireBearerScheme ∧
      s.signingKey = env.present? Environment.signingKey ∧
      s.encryptionKey = env.present? Environment.encryptionKey ∧
      s.subjectKey = ((env.present? Environment.subjectKey).map Text.trim).getD Settings.default.subjectKey ∧
      s.rolesKey = ((env.present? Environment.rolesKey).map Text.trim).getD Settings.default.rolesKey := by
  unfold ofEnvironment
  rw [← readVariable_eq_ok_iff parseSeconds?_eq_some_iff, ← readVariable_eq_ok_iff parseSwitch?_eq_some_iff]
  constructor
  · intro h
    obtain ⟨seconds, hseconds, h⟩ := Outcome.bind_eq_ok_iff.1 h
    obtain ⟨required, hrequired, h⟩ := Outcome.bind_eq_ok_iff.1 h
    cases h
    exact ⟨hseconds, hrequired, rfl, rfl, rfl, rfl⟩
  · rintro ⟨hseconds, hrequired, hs, he, hsub, hrol⟩
    refine Outcome.bind_eq_ok_iff.2 ⟨_, hseconds, ?_⟩
    refine Outcome.bind_eq_ok_iff.2 ⟨_, hrequired, ?_⟩
    rw [← hs, ← he, ← hsub, ← hrol]
    rfl

/-- the seconds are read before the switch -/
theorem ofEnvironment_eq_error_iff :
    ofEnvironment env = .error e ↔
      (env.Offends Environment.clockSkewTolerance SpellsSeconds e.value ∧ e.name = Environment.clockSkewTolerance) ∨
      ((∃ seconds, env.Gives Environment.clockSkewTolerance SpellsSeconds Settings.default.clockSkewTolerance seconds) ∧
        env.Offends Environment.requireBearerScheme SpellsSwitch e.value ∧
        e.name = Environment.requireBearerScheme) := by
  unfold ofEnvironment
  rw [← readVariable_eq_error_iff Settings.default.clockSkewTolerance parseSeconds?_eq_some_iff,
    ← readVariable_eq_error_iff Settings.default.requireBearerScheme parseSwitch?_eq_some_iff]
  simp only [← readVariable_eq_ok_iff parseSeconds?_eq_some_iff]
  constructor
  · intro h
    rcases Outcome.bind_eq_error_iff.1 h with h | ⟨seconds, hseconds, h⟩
    · exact Or.inl h
    rcases Outcome.bind_eq_error_iff.1 h with h | ⟨required, -, h⟩
    · exact Or.inr ⟨⟨seconds, hseconds⟩, h⟩
    · cases h
  · rintro (h | ⟨⟨seconds, hseconds⟩, h⟩)
    · exact Outcome.bind_eq_error_iff.2 (Or.inl h)
    · refine Outcome.bind_eq_error_iff.2 (Or.inr ⟨seconds, hseconds, ?_⟩)
      exact Outcome.bind_eq_error_iff.2 (Or.inl h)

/-! ## keys and claim names -/

/-- not empty, and no blank at either end -/
def IsClaimName (name : String) : Prop := name ≠ "" ∧ Text.Trimmed name.toList

theorem isClaimName_trim {value : String} (h : Text.allBlank value = false) : IsClaimName (Text.trim value) := by
  constructor
  · intro he
    rw [← Text.isEmpty_trim, he] at h
    exact absurd h (by decide)
  · rw [Text.trim, String.toList_ofList]
    exact Text.trimmed_trimBlanks value.toList

theorem isClaimName_present {default : String} (hd : IsClaimName default) :
    IsClaimName (((env.present? name).map Text.trim).getD default) := by
  cases hv : env.present? name with
  | none => exact hd
  | some value => exact isClaimName_trim (Environment.present?_eq_some_iff.1 hv).2

theorem IsClaimName.trim (h : IsClaimName name) : Text.trim name = name := h.2.trim_eq

theorem isClaimName_iff : IsClaimName name ↔ name ≠ "" ∧ Text.trim name = name := by
  refine ⟨fun h => ⟨h.1, h.trim⟩, fun ⟨hne, h⟩ => ⟨hne, ?_⟩⟩
  rw [← h, Text.trim, String.toList_ofList]
  exact Text.trimmed_trimBlanks _

instance (name : String) : Decidable (IsClaimName name) := decidable_of_iff _ isClaimName_iff.symm

theorem IsClaimName.not_blank (h : IsClaimName name) : Text.allBlank name = false := h.2.not_allBlank h.1

theorem isClaimName_default :
    IsClaimName Settings.default.subjectKey ∧ IsClaimName Settings.default.rolesKey :=
  ⟨by decide, by decide⟩

/-- a key of the environment is not blank, so it enables -/
theorem isEnabled_iff_of_present (h : s.signingKey = env.present? Environment.signingKey) :
    s.isEnabled = true ↔ s.signingKey.isSome = true := by
  unfold isEnabled
  cases hk : s.signingKey with
  | none => simp
  | some key =>
    have hb := (Environment.present?_eq_some_iff.1 (h.symm.trans hk)).2
    simp [Text.isEmpty_trim, hb]

/-! ## settings that are spelled out -/

theorem present?_of_key {key : Option String} (hset : env name = key)
    (h : ∀ text, key = some text → Text.allBlank text = false) : env.present? name = key := by
  cases key with
  | none => exact Environment.present?_eq_none_iff.2 (Or.inl hset)
  | some text => exact Environment.present?_eq_some_iff.2 ⟨hset, h text rfl⟩

/-- a value without blanks that is spelled is given -/
theorem gives_of_trimmed {text : String} (hset : env name = some text) (hc : IsClaimName text)
    (hs : spells text a) : env.Gives name spells default a :=
  .spelled hset hc.not_blank (hc.trim.symm ▸ hs)

theorem isClaimName_toDigits (n : Nat) : IsClaimName (String.ofList (Nat.toDigits 10 n)) := by
  constructor
  · rw [ne_eq, String.ofList_eq_empty_iff]
    exact Nat.toDigits_ne_nil
  · rw [String.toList_ofList]
    exact .of_no_blank fun c hc => Text.not_blank_of_mem_toDigits hc

theorem isClaimName_renderBool (on : Bool) : IsClaimName (Text.renderBool on) := by
  cases on <;> decide

/-- **Settings that are spelled out in an environment are loaded from it.** -/
theorem ofEnvironment_toEnvironment (hs : ∀ key, s.signingKey = some key → Text.allBlank key = false)
    (he : ∀ key, s.encryptionKey = some key → Text.allBlank key = false) (hsub : IsClaimName s.subjectKey)
    (hrol : IsClaimName s.rolesKey) : ofEnvironment s.toEnvironment = .ok s := by
  have hkey : s.toEnvironment Environment.signingKey = s.signingKey := rfl
  have hencryption : s.toEnvironment Environment.encryptionKey = s.encryptionKey := rfl
  have hname {name claim : String} (hset : s.toEnvironment name = some claim) (hc : IsClaimName claim)
      (default : String) : claim = ((s.toEnvironment.present? name).map Text.trim).getD default := by
    rw [Environment.present?_eq_some_iff.2 ⟨hset, hc.not_blank⟩, Option.map_some, hc.trim]
    rfl
  refine ofEnvironment_eq_ok_iff.2 ⟨?_, ?_, ?_, ?_, ?_, ?_⟩
  · exact gives_of_trimmed rfl (isClaimName_toDigits _) (spellsSeconds_toDigits _)
  · exact gives_of_trimmed rfl (isClaimName_renderBool _) (spellsSwitch_renderBool _)
  · exact (present?_of_key hkey hs).symm
  · exact (present?_of_key hencryption he).symm
  · exact hname rfl hsub _
  · exact hname rfl hrol _

/-- **An environment is loaded unless the seconds or the switch are spelled wrongly**, and then the first of the two
is reported with its value as it is set.  What is loaded has claim names without blanks at their ends and is enabled
by any key; settings that are spelled out are loaded again. -/
theorem ofEnvironment_exact :
    (∀ env, (∃ s, ofEnvironment env = .ok s) ↔
      (∃ seconds, env.Gives Environment.clockSkewTolerance SpellsSeconds Settings.default.clockSkewTolerance seconds) ∧
      ∃ required, env.Gives Environment.requireBearerScheme SpellsSwitch Settings.default.requireBearerScheme required) ∧
    (∀ env e, ofEnvironment env = .error e ↔
      (env.Offends Environment.clockSkewTolerance SpellsSeconds e.value ∧ e.name = Environment.clockSkewTolerance) ∨
      ((∃ seconds, env.Gives Environment.clockSkewTolerance SpellsSeconds Settings.default.clockSkewTolerance seconds) ∧
        env.Offends Environment.requireBearerScheme SpellsSwitch e.value ∧
        e.name = Environment.requireBearerScheme)) ∧
    (∀ env s, ofEnvironment env = .ok s →
      env.Gives Environment.clockSkewTolerance SpellsSeconds Settings.default.clockSkewTolerance s.clockSkewTolerance ∧
      env.Gives Environment.requireBearerScheme SpellsSwitch Settings.default.requireBearerScheme s.requireBearerScheme ∧
      IsClaimName s.subjectKey ∧ IsClaimName s.rolesKey ∧ (s.isEnabled = true ↔ s.signingKey.isSome = true)) ∧
    ∀ s : Settings, (∀ key, s.signingKey = some key → Text.allBlank key = false) →
      (∀ key, s.encryptionKey = some key → Text.allBlank key = false) → IsClaimName s.subjectKey →
      IsClaimName s.rolesKey → ofEnvironment s.toEnvironment = .ok s := by
  refine ⟨fun env => ⟨?_, ?_⟩, fun env e => ofEnvironment_eq_error_iff, fun env s h => ?_,
    fun s => ofEnvironment_toEnvironment⟩
  · rintro ⟨s, h⟩
    obtain ⟨hseconds, hrequired, -⟩ := ofEnvironment_eq_ok_iff.1 h
    exact ⟨⟨_, hseconds⟩, _, hrequired⟩
  · rintro ⟨⟨seconds, hseconds⟩, required, hrequired⟩
    exact ⟨⟨_, _, _, _, seconds, required⟩, ofEnvironment_eq_ok_iff.2 ⟨hseconds, hrequired, rfl, rfl, rfl, rfl⟩⟩
  · obtain ⟨hseconds, hrequired, hkey, -, hsub, hrol⟩ := ofEnvironment_eq_ok_iff.1 h
    refine ⟨hseconds, hrequired, ?_, ?_, isEnabled_iff_of_present hkey⟩
    · rw [hsub]
      exact isClaimName_present isClaimName_default.1
    · rw [hrol]
      exact isClaimName_present isClaimName_default.2

/-- settings with a key over two lines, and with the longest tolerance -/
def patientSettings : Settings where
  signingKey := some "-----BEGIN\n\t\"\\ "
  subjectKey := "preferred name"
  rolesKey := "rôles"
  clockSkewTolerance := 18446744073709551615
  requireBearerScheme := true

theorem ofEnvironment_patientSettings :
    ofEnvironment patientSettings.toEnvironment = .ok patientSettings ∧
      (patientSettings.isEnabled = true ↔ patientSettings.signingKey.isSome = true) := by
  have hload := ofEnvironment_exact.2.2.2 patientSettings
    (by rintro key ⟨⟩; decide) nofun (by decide) (by decide)
  exact ⟨hload, (ofEnvironment_exact.2.2.1 _ _ hload).2.2.2.2⟩

end Settings

end BearerCredentials
