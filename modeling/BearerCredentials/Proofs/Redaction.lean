import BearerCredentials.Http.Application
import BearerCredentials.Proofs.Text.Rendering
import BearerCredentials.Proofs.VerifyingKey.Spelled

/-!
# Renderings hide the keys, and nothing else

* `Settings.debug_eq_iff`         settings show all but their keys, of which they show whether these are there;
* `Authenticator.debug_eq_iff`    authenticators show of their keys the kind, or why there is none;
* `renderings_alike_iff`          when two settings are shown alike, by themselves and by what is made from them.
-/

namespace BearerCredentials

open Text (IsWord ClosesWith Discernible SameField)

/-! ## settings -/

namespace Settings

variable {s t : Settings}

/-- settings that agree in all but the keys -/
structure OpenAlike (s t : Settings) : Prop where
  subjectKey : s.subjectKey = t.subjectKey
  rolesKey : s.rolesKey = t.rolesKey
  clockSkewTolerance : s.clockSkewTolerance = t.clockSkewTolerance
  requireBearerScheme : s.requireBearerScheme = t.requireBearerScheme

theorem isWord_redacted (key : Option String) : IsWord (redacted key) := by
  have hpresent : IsWord (redacted (some "")) := Text.isWord_of_all (by decide +kernel)
  cases key with
  | none => exact Text.isWord_of_all (by decide)
  | some key => exact hpresent

theorem redacted_inj {key key' : Option String} : redacted key = redacted key' ↔ key.isSome = key'.isSome := by
  have hne : redacted none ≠ redacted (some "") := by decide +kernel
  cases key with
  | none =>
    cases key' with
    | none => exact ⟨fun _ => rfl, fun _ => rfl⟩
    | some key' => exact ⟨fun h => absurd h hne, nofun⟩
  | some key =>
    cases key' with
    | none => exact ⟨fun h => absurd h.symm hne, nofun⟩
    | some key' => exact ⟨fun _ => rfl, fun _ => rfl⟩

/-- no field of settings can be taken for another one, or for two -/
theorem sameField_shown (s t : Settings) : List.Forall₂ SameField s.shown t.shown := by
  have hredacted (key key' : Option String) : Discernible (redacted key) (redacted key') :=
    (isWord_redacted key).discernible (isWord_redacted key')
  refine .cons ⟨rfl, hredacted _ _⟩ (.cons ⟨rfl, hredacted _ _⟩ ?_)
  refine .cons ⟨rfl, Text.discernible_quote _ _⟩ (.cons ⟨rfl, Text.discernible_quote _ _⟩ ?_)
  refine .cons ⟨rfl, (Text.isWord_toString _).discernible (Text.isWord_toString _)⟩ ?_
  exact .cons ⟨rfl, (Text.isWord_renderBool _).discernible (Text.isWord_renderBool _)⟩ .nil

/-- **Settings show all but their keys**, of which they show whether these are there. -/
theorem debug_eq_iff :
    s.debug = t.debug ↔
      s.OpenAlike t ∧ s.signingKey.isSome = t.signingKey.isSome ∧ s.encryptionKey.isSome = t.encryptionKey.isSome := by
  constructor
  · intro h
    have hshown := Text.renderRecord_inj (sameField_shown s t) h
    simp only [shown, List.cons.injEq, Prod.mk.injEq, true_and, and_true, redacted_inj, Text.quote_inj,
      Text.toString_inj, Text.renderBool_inj] at hshown
    obtain ⟨hsigning, hencryption, hsubject, hroles, htolerance, hscheme⟩ := hshown
    exact ⟨⟨hsubject, hroles, htolerance, hscheme⟩, hsigning, hencryption⟩
  · rintro ⟨⟨hsubject, hroles, htolerance, hscheme⟩, hsigning, hencryption⟩
    rw [debug, debug, shown, shown, redacted_inj.2 hsigning, redacted_inj.2 hencryption, hsubject, hroles,
      htolerance, hscheme]

end Settings

/-! ## authenticators -/

namespace Authenticator

variable {a b : Authenticator}

/-- a key of a kind, without bytes -/
def bareKey (kind : KeyKind) : VerifyingKey := ⟨kind, []⟩

/-- a key is shown by its kind -/
theorem keyText_eq (key : Except KeySettingFault VerifyingKey) :
    keyText key = keyText ((key.map VerifyingKey.kind).map bareKey) := by
  cases key <;> rfl

theorem keyText_inj {key key' : Except KeySettingFault VerifyingKey} :
    keyText key = keyText key' ↔ key.map VerifyingKey.kind = key'.map VerifyingKey.kind := by
  have hkind (kind kind' : Except KeySettingFault KeyKind) :
      keyText (kind.map bareKey) = keyText (kind'.map bareKey) ↔ kind = kind' := by
    rcases kind with (_ | _) | (_ | _ | _ | _) <;> rcases kind' with (_ | _) | (_ | _ | _ | _) <;> decide +kernel
  rw [keyText_eq key, keyText_eq key', hkind]

theorem closesWith_keyText (key : Except KeySettingFault VerifyingKey) : ClosesWith ')' (keyText key) := by
  rw [keyText_eq]
  rcases key.map VerifyingKey.kind with (_ | _) | (_ | _ | _ | _) <;>
    exact Text.closesWith_of_dropLast (by decide +kernel) (by decide +kernel)

theorem algorithms_congr (h : a.key.map VerifyingKey.kind = b.key.map VerifyingKey.kind) :
    a.algorithms = b.algorithms := by
  unfold algorithms VerifyingKey.algorithms
  cases ha : a.key with
  | error _ =>
    cases hb : b.key with
    | error _ => rfl
    | ok _ => rw [ha, hb] at h; cases h
  | ok key =>
    cases hb : b.key with
    | error _ => rw [ha, hb] at h; cases h
    | ok key' =>
      rw [ha, hb] at h
      exact congrArg KeyKind.algorithms (Except.ok.inj h)

theorem closesWith_algorithms (a : Authenticator) :
    ClosesWith ']' (Text.renderList (a.algorithms.map Algorithm.name)) := by
  unfold algorithms VerifyingKey.algorithms
  cases a.key with
  | error _ =>
    show ClosesWith ']' (Text.renderList [])
    exact Text.closesWith_of_dropLast (by decide) (by decide)
  | ok key =>
    show ClosesWith ']' (Text.renderList (key.kind.algorithms.map Algorithm.name))
    cases key.kind <;> exact Text.closesWith_of_dropLast (by decide +kernel) (by decide +kernel)

theorem sameField_shown (a b : Authenticator) : List.Forall₂ SameField a.shown b.shown := by
  have hbool (x y : Bool) : Discernible (Text.renderBool x) (Text.renderBool y) :=
    (Text.isWord_renderBool x).discernible (Text.isWord_renderBool y)
  refine .cons ⟨rfl, (closesWith_keyText _).discernible (closesWith_keyText _)⟩ ?_
  refine .cons ⟨rfl, (closesWith_algorithms _).discernible (closesWith_algorithms _)⟩ ?_
  refine .cons ⟨rfl, (Text.isWord_toString _).discernible (Text.isWord_toString _)⟩ ?_
  refine .cons ⟨rfl, Text.discernible_quote _ _⟩ (.cons ⟨rfl, Text.discernible_quote _ _⟩ ?_)
  exact .cons ⟨rfl, hbool _ _⟩ (.cons ⟨rfl, hbool _ _⟩ .nil)

/-- **Authenticators show all but their keys**, of which they show the kind, or why there is none. -/
theorem debug_eq_iff :
    a.debug = b.debug ↔
      a.key.map VerifyingKey.kind = b.key.map VerifyingKey.kind ∧ a.tolerance = b.tolerance ∧
        a.subjectKey = b.subjectKey ∧ a.rolesKey = b.rolesKey ∧ a.requireBearerScheme = b.requireBearerScheme ∧
          a.encryptionKey.isSome = b.encryptionKey.isSome := by
  constructor
  · intro h
    have hshown := Text.renderRecord_inj (sameField_shown a b) h
    simp only [shown, List.cons.injEq, Prod.mk.injEq, true_and, and_true, keyText_inj, Text.quote_inj,
      Text.toString_inj, Text.renderBool_inj] at hshown
    obtain ⟨hkey, -, hrest⟩ := hshown
    exact ⟨hkey, hrest⟩
  · rintro ⟨hkey, htolerance, hsubject, hroles, hscheme, hencryption⟩
    rw [debug, debug, shown, shown, keyText_inj.2 hkey, algorithms_congr hkey, htolerance, hsubject, hroles, hscheme,
      hencryption]

theorem decodeSecret?_of_blank {raw : String} (h : Text.allBlank raw = true) : decodeSecret? raw = none := by
  rw [Option.eq_none_iff_forall_ne_some]
  intro secret hs
  have hnot := (decodeSecret?_eq_some_iff.1 hs).not_allBlank
  rw [h] at hnot
  exact absurd hnot (by decide)

/-- a blank setting spells no secret, so it need not be set apart -/
theorem encryptionKeyOf_eq (setting : Option String) :
    (encryptionKeyOf setting).1 = setting.bind decodeSecret? := by
  cases setting with
  | none => rfl
  | some raw =>
    unfold encryptionKeyOf
    rw [Option.filter_some, Text.isEmpty_trim, Option.bind_some]
    cases hb : Text.allBlank raw with
    | true =>
      rw [decodeSecret?_of_blank hb]
      rfl
    | false =>
      rw [Bool.not_false, if_pos rfl]
      cases hd : decodeSecret? raw with
      | none => simp only [hd]
      | some key => simp only [hd]

end Authenticator

/-- settings whose signing keys are of one kind or refused for one cause, and whose keys for encrypted claims can be
read or cannot -/
structure Settings.KeysAlike (s t : Settings) : Prop where
  signingKey : (VerifyingKey.ofSetting s.signingKey).map VerifyingKey.kind =
    (VerifyingKey.ofSetting t.signingKey).map VerifyingKey.kind
  encryptionKey : (s.encryptionKey.bind decodeSecret?).isSome = (t.encryptionKey.bind decodeSecret?).isSome

theorem Authenticator.debug_ofSettings_eq_iff {s t : Settings} :
    (ofSettings s).debug = (ofSettings t).debug ↔ s.OpenAlike t ∧ s.KeysAlike t := by
  have hencryption (s : Settings) : (ofSettings s).encryptionKey = s.encryptionKey.bind decodeSecret? :=
    encryptionKeyOf_eq s.encryptionKey
  rw [debug_eq_iff, hencryption, hencryption]
  constructor
  · rintro ⟨hkey, htolerance, hsubject, hroles, hscheme, hkey'⟩
    exact ⟨⟨hsubject, hroles, htolerance, hscheme⟩, ⟨hkey, hkey'⟩⟩
  · rintro ⟨⟨hsubject, hroles, htolerance, hscheme⟩, ⟨hkey, hkey'⟩⟩
    exact ⟨hkey, htolerance, hsubject, hroles, hscheme, hkey'⟩

/-- **Renderings hide the keys, and nothing else.** Two settings are shown alike where they agree in all but their keys
and in whether each key is there; no claim name passes for another field. Authenticators and applications that are made
from them are shown alike where the settings agree in all but their keys, and the keys come to the same: signing keys
of one kind, or none for one cause, and keys for encrypted claims that both can be read, or both cannot. -/
theorem renderings_alike_iff (s t : Settings) :
    (s.debug = t.debug ↔
      s.OpenAlike t ∧ s.signingKey.isSome = t.signingKey.isSome ∧
        s.encryptionKey.isSome = t.encryptionKey.isSome) ∧
    ((Authenticator.ofSettings s).debug = (Authenticator.ofSettings t).debug ↔ s.OpenAlike t ∧ s.KeysAlike t) ∧
    ∀ gate gate' : Authenticator,
      (Http.Application.mk (.ofSettings s) gate).debug = (Http.Application.mk (.ofSettings t) gate').debug ↔
        s.OpenAlike t ∧ s.KeysAlike t := by
  refine ⟨Settings.debug_eq_iff, Authenticator.debug_ofSettings_eq_iff, fun gate gate' => ?_⟩
  rw [← Authenticator.debug_ofSettings_eq_iff]
  exact Text.renderRecord_one_inj

end BearerCredentials
