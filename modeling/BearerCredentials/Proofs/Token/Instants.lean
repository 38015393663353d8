import BearerCredentials.Proofs.Binary64.Rounding
import BearerCredentials.Proofs.Claims.Read
import BearerCredentials.Proofs.Token.Registered

/-!
# Claims that are instants

The instants that are checked, and the claims of the same payload.

* `Gives`           a claim is a number that is rounded to an instant, and without the claim there is none;
* `gives_of_read`   the claims of a payload give the instants that are checked.
-/

namespace BearerCredentials.Token

variable {members : Members} {claims : Claims} {name s : String} {instant : Option Nat} {v : Json}

/-- a claim is a number that is rounded to an instant, and without the claim there is none -/
structure Gives (claims : Claims) (name : String) (instant : Option Nat) : Prop where
  of_claim : ∀ v, claims.get? name = some v → ∃ n e, v = .number n ∧ instant = some e ∧ n.RoundsTo e
  of_none : claims.get? name = none → instant = none

theorem Gives.eq_some_iff (h : Gives claims name instant) {e : Nat} :
    instant = some e ↔ ∃ n, claims.get? name = some (.number n) ∧ n.RoundsTo e := by
  constructor
  · rintro rfl
    cases hv : claims.get? name with
    | none => cases h.of_none hv
    | some v =>
      obtain ⟨n, e', rfl, he, hround⟩ := h.of_claim v hv
      obtain rfl := Option.some.inj he
      exact ⟨n, rfl, hround⟩
  · rintro ⟨n, hv, hround⟩
    obtain ⟨n', e', hn, rfl, hround'⟩ := h.of_claim _ hv
    obtain rfl := Json.number.inj hn
    rw [← hround.rounded?, hround'.rounded?]

theorem Gives.exists_iff (h : Gives claims name instant) {P : Nat → Prop} :
    (∃ e, instant = some e ∧ P e) ↔ ∃ n e, claims.get? name = some (.number n) ∧ n.RoundsTo e ∧ P e := by
  constructor
  · rintro ⟨e, he, hp⟩
    obtain ⟨n, hn, hround⟩ := h.eq_some_iff.1 he
    exact ⟨n, e, hn, hround, hp⟩
  · rintro ⟨n, e, hn, hround, hp⟩
    exact ⟨e, h.eq_some_iff.2 ⟨n, hn, hround⟩, hp⟩

theorem gives_of_members (hread : Json.read s = .ok (.object members)) (honce : occurrences name members ≤ 1)
    (hinstant : Validity.instantOf? name members = some instant) :
    Gives (Claims.ofMembers members) name instant where
  of_claim := by
    intro v hv
    rw [Claims.get?_ofMembers_of_once honce] at hv
    obtain ⟨w, hw, rfl⟩ := Option.map_eq_some_iff.1 hv
    rw [Validity.instantOf?, hw] at hinstant
    obtain ⟨e, he, rfl⟩ := Option.map_eq_some_iff.1 hinstant
    cases w with
    | number n =>
      obtain ⟨fields, -, hfields⟩ := Json.read_eq_object_iff.1 hread
      obtain ⟨numeral, hvalue⟩ := Json.exists_numeral_of_mem hfields (mem_of_lookup hw)
      exact ⟨n, e, rfl, rfl, Json.Numeral.roundsTo_of_rounded? hvalue he⟩
    | _ => cases he
  of_none := by
    intro hv
    rw [Claims.get?_ofMembers_of_once honce] at hv
    rw [Validity.instantOf?, Option.map_eq_none_iff.1 hv] at hinstant
    exact (Option.some.inj hinstant).symm

/-- **The claims of a payload give the instants that are checked.** -/
theorem gives_of_read {validity : Validity} (hc : Claims.read s = .ok claims) (hv : Validity.read s = .ok validity) :
    Gives claims "exp" validity.expires ∧ Gives claims "nbf" validity.starts := by
  obtain ⟨members, hread, rfl⟩ := Claims.read_eq_ok_iff.1 hc
  obtain ⟨hnone, -, hexpires, hstarts⟩ :=
    Validity.ofMembers?_eq_some_iff.1 ((Validity.read_eq_ok_iff hread).1 hv)
  have honce := noneRepeated_iff.1 hnone
  exact ⟨gives_of_members hread (honce "exp" (by decide)) hexpires,
    gives_of_members hread (honce "nbf" (by decide)) hstarts⟩

end BearerCredentials.Token
