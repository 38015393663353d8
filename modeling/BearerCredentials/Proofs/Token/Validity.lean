import BearerCredentials.Proofs.Binary64.Rounding
import BearerCredentials.Proofs.NameMap
import BearerCredentials.Token.Header
import BearerCredentials.Token.Validity

/-!
# Payloads that are accepted at an instant

* `Json.IsInstant`            a number that is a whole number of seconds, however it is spelled;
* `Validity.ofMembers?`       the time that the members of a payload give;
* `Token.Timely`              what a payload needs at an instant;
* `fault?_eq_expired_iff`, `fault?_eq_premature_iff`, `fault?_eq_none_iff`   the faults of a time, in their order;
* `exists_validity`           such a payload gives a time, and there is no fault in it.
-/

namespace BearerCredentials

/-! ## instants -/

/-- a number that is a whole number below `2^64`, be it in the form of a fraction -/
def Json.Number.IsWhole (e : Nat) : Json.Number → Prop
  | .integer i _ _ => i = e
  | .float x => x.units = e * Binary64.one ∧ (x.negative = true → e = 0) ∧ e < UInt64.size

/-- a number of seconds since 1970 -/
def Json.IsInstant (v : Json) (e : Nat) : Prop := ∃ n, v = .number n ∧ Json.Number.IsWhole e n

theorem Json.Number.rounded?_of_isWhole {n : Json.Number} {e : Nat} (h : n.IsWhole e) :
    n.rounded? = some e := by
  cases n with
  | integer i low high =>
    obtain rfl : i = e := h
    rw [rounded?, if_neg (by omega), Int.toNat_natCast]
  | float x =>
    obtain ⟨hu, hneg, hlt⟩ := h
    have hsign : (x.negative && x.units != 0) = false := by
      cases hx : x.negative with
      | false => rfl
      | true =>
        rw [hu, hneg hx, Nat.zero_mul]
        rfl
    have hsize : decide (UInt64.size * Binary64.one ≤ x.units) = false := by
      rw [hu]
      exact decide_eq_false (Nat.not_le_of_lt (Nat.mul_lt_mul_of_pos_right hlt Binary64.one_pos))
    rw [rounded?, hsign, hsize, hu, Binary64.roundToNat_mul_one]
    rfl

namespace Token

/-- a payload without repeated names whose time, as far as it gives one, holds the instant -/
structure Timely (members : Members) (tolerance now : Nat) : Prop where
  distinct : (members.map Prod.fst).Nodup
  subject : ∀ v, ("sub", v) ∈ members → (∀ items, v ≠ .array items) ∧ ∀ fields, v ≠ .object fields
  expires : ∀ v, ("exp", v) ∈ members → ∃ e, v.IsInstant e ∧ now ≤ e + tolerance
  starts : ∀ v, ("nbf", v) ∈ members → ∃ e, v.IsInstant e ∧ e ≤ now + tolerance

namespace Validity

def isSubject : Json → Bool
  | .array _ | .object _ => false
  | _ => true

def instant? : Json → Option Nat
  | .number n => n.rounded?
  | _ => none

/-- the instant of a member, if it is there; none if it is there and no instant -/
def instantOf? (name : String) (members : Members) : Option (Option Nat) :=
  match member? name members with
  | none => some none
  | some v => (instant? v).map some

/-- the instants that the members of a payload give -/
def ofMembers? (members : Members) : Option Validity := do
  guard (noneRepeated registered members)
  guard ((member? "sub" members).all isSubject)
  let expires ← instantOf? "exp" members
  let starts ← instantOf? "nbf" members
  return ⟨expires, starts⟩

variable {members : Members} {tolerance now : Nat}

theorem noneRepeated_of_nodup (h : (members.map Prod.fst).Nodup) (names : List String) :
    noneRepeated names members = true := by
  rw [noneRepeated, List.all_eq_true]
  intro name _
  exact decide_eq_true (countP_le_one h name)

theorem isSubject_of_ne {v : Json} (ha : ∀ items, v ≠ .array items) (ho : ∀ fields, v ≠ .object fields) :
    isSubject v = true := by
  cases v with
  | array items => exact absurd rfl (ha items)
  | object fields => exact absurd rfl (ho fields)
  | _ => rfl

theorem exists_instantOf? {name : String} {P : Nat → Prop}
    (h : ∀ v, (name, v) ∈ members → ∃ e, v.IsInstant e ∧ P e) :
    ∃ instant, instantOf? name members = some instant ∧ ∀ e, instant = some e → P e := by
  unfold instantOf? member?
  cases hm : members.lookup name with
  | none => exact ⟨none, rfl, fun e he => by cases he⟩
  | some v =>
    obtain ⟨e, ⟨n, rfl, hn⟩, hp⟩ := h v (mem_of_lookup hm)
    refine ⟨some e, ?_, ?_⟩
    · show (n.rounded?).map some = some (some e)
      rw [Json.Number.rounded?_of_isWhole hn]
      rfl
    · intro e' he'
      obtain rfl := Option.some.inj he'
      exact hp

/-! ## faults -/

theorem fault?_eq_expired_iff {v : Validity} :
    v.fault? tolerance now = some .expired ↔ ∃ e, v.expires = some e ∧ e + tolerance < now := by
  unfold fault?
  split
  · rename_i h
    obtain ⟨e, he, hlt⟩ := (Option.any_eq_true _ _).1 h
    exact iff_of_true rfl ⟨e, he, of_decide_eq_true hlt⟩
  · rename_i h
    refine iff_of_false ?_ ?_
    · split <;> simp
    · rintro ⟨e, he, hlt⟩
      exact h ((Option.any_eq_true _ _).2 ⟨e, he, decide_eq_true hlt⟩)

theorem fault?_eq_premature_iff {v : Validity} :
    v.fault? tolerance now = some .premature ↔
      v.fault? tolerance now ≠ some .expired ∧ ∃ s, v.starts = some s ∧ now + tolerance < s := by
  unfold fault?
  split
  · simp
  split
  · rename_i h
    obtain ⟨s, hs, hlt⟩ := (Option.any_eq_true _ _).1 h
    exact iff_of_true rfl ⟨by simp, s, hs, of_decide_eq_true hlt⟩
  · rename_i h
    refine iff_of_false (by simp) ?_
    rintro ⟨-, s, hs, hlt⟩
    exact h ((Option.any_eq_true _ _).2 ⟨s, hs, decide_eq_true hlt⟩)

/-- there are no other faults -/
theorem fault?_cases (v : Validity) (tolerance now : Nat) :
    v.fault? tolerance now = none ∨ v.fault? tolerance now = some .expired ∨
      v.fault? tolerance now = some .premature := by
  unfold fault?
  split
  · exact Or.inr (Or.inl rfl)
  split
  · exact Or.inr (Or.inr rfl)
  · exact Or.inl rfl

theorem fault?_eq_none_iff {v : Validity} :
    v.fault? tolerance now = none ↔
      (∀ e, v.expires = some e → now ≤ e + tolerance) ∧ ∀ s, v.starts = some s → s ≤ now + tolerance := by
  constructor
  · intro h
    have hexp : ¬ ∃ e, v.expires = some e ∧ e + tolerance < now := by
      rw [← fault?_eq_expired_iff, h]
      simp
    have hnbf : ¬ ∃ s, v.starts = some s ∧ now + tolerance < s := by
      intro hs
      have hp := fault?_eq_premature_iff.2 ⟨by rw [h]; simp, hs⟩
      rw [h] at hp
      cases hp
    exact ⟨fun e he => Nat.le_of_not_lt fun hlt => hexp ⟨e, he, hlt⟩,
      fun s hs => Nat.le_of_not_lt fun hlt => hnbf ⟨s, hs, hlt⟩⟩
  · rintro ⟨hlate, hearly⟩
    rcases fault?_cases v tolerance now with h | h | h
    · exact h
    · obtain ⟨e, he, hlt⟩ := fault?_eq_expired_iff.1 h
      exact absurd (hlate e he) (Nat.not_le_of_lt hlt)
    · obtain ⟨-, s, hs, hlt⟩ := fault?_eq_premature_iff.1 h
      exact absurd (hearly s hs) (Nat.not_le_of_lt hlt)

/-! ## as the clock goes on -/

variable {v : Validity} {tolerance' now' : Nat}

theorem fault?_expired_mono (hle : now ≤ now') (h : v.fault? tolerance now = some .expired) :
    v.fault? tolerance now' = some .expired := by
  obtain ⟨e, he, hlt⟩ := fault?_eq_expired_iff.1 h
  exact fault?_eq_expired_iff.2 ⟨e, he, Nat.lt_of_lt_of_le hlt hle⟩

theorem fault?_premature_mono (hle : now ≤ now') (h : v.fault? tolerance now' = some .premature) :
    v.fault? tolerance now = some .premature := by
  obtain ⟨hne, s, hs, hlt⟩ := fault?_eq_premature_iff.1 h
  refine fault?_eq_premature_iff.2 ⟨fun he => hne (fault?_expired_mono hle he), s, hs, ?_⟩
  omega

theorem fault?_none_mono (hle : tolerance ≤ tolerance') (h : v.fault? tolerance now = none) :
    v.fault? tolerance' now = none := by
  obtain ⟨hlate, hearly⟩ := fault?_eq_none_iff.1 h
  refine fault?_eq_none_iff.2 ⟨fun e he => ?_, fun s hs => ?_⟩
  · have := hlate e he
    omega
  · have := hearly s hs
    omega

/-- what is wrong at two instants is wrong at all instants between them -/
theorem fault?_convex {now₁ now₂ : Nat} (h₁ : now₁ ≤ now) (h₂ : now ≤ now₂)
    (h : v.fault? tolerance now₁ = v.fault? tolerance now₂) :
    v.fault? tolerance now = v.fault? tolerance now₁ := by
  rcases fault?_cases v tolerance now₁ with hf | hf | hf
  · rw [hf]
    rcases fault?_cases v tolerance now with hn | hn | hn
    · exact hn
    · have hlate := fault?_expired_mono h₂ hn
      rw [← h, hf] at hlate
      cases hlate
    · have hearly := fault?_premature_mono h₁ hn
      rw [hf] at hearly
      cases hearly
  · rw [hf]
    exact fault?_expired_mono h₁ hf
  · rw [hf]
    rw [h] at hf
    exact fault?_premature_mono h₂ hf

/-! ## members -/

/-- **A payload that holds the instant gives a time in which it lies.** -/
theorem exists_validity (h : Timely members tolerance now) :
    ∃ validity, ofMembers? members = some validity ∧ validity.fault? tolerance now = none := by
  obtain ⟨expires, hexpires, hlate⟩ := exists_instantOf? h.expires
  obtain ⟨starts, hstarts, hearly⟩ := exists_instantOf? h.starts
  have hsub : (member? "sub" members).all isSubject = true := by
    cases hm : member? "sub" members with
    | none => rfl
    | some v =>
      obtain ⟨ha, ho⟩ := h.subject v (mem_of_lookup hm)
      exact isSubject_of_ne ha ho
  refine ⟨⟨expires, starts⟩, ?_, fault?_eq_none_iff.2 ⟨hlate, hearly⟩⟩
  rw [ofMembers?, noneRepeated_of_nodup h.distinct, hsub, hexpires, hstarts]
  rfl

end Validity

end Token

end BearerCredentials
