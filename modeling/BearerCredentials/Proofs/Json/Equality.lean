import BearerCredentials.Json.Value

/-!
# Equality of JSON values

* `Json.same`        the comparison, with the items and the members in their order;
* `Json.same_iff`    it decides equality.
-/

namespace BearerCredentials.Json

mutual

/-- whether two values are the same -/
def same : Json → Json → Bool
  | .null, .null => true
  | .bool a, .bool b => a == b
  | .number m, .number n => m == n
  | .text s, .text t => s == t
  | .array vs, .array ws => sameItems vs ws
  | .object ms, .object ns => sameMembers ms ns
  | _, _ => false

def sameItems : List Json → List Json → Bool
  | [], [] => true
  | v :: vs, w :: ws => same v w && sameItems vs ws
  | _, _ => false

def sameMembers : List (String × Json) → List (String × Json) → Bool
  | [], [] => true
  | (x, v) :: ms, (y, w) :: ns => x == y && same v w && sameMembers ms ns
  | _, _ => false

end

mutual

theorem same_iff : ∀ v w : Json, same v w = true ↔ v = w
  | .null, w => by cases w <;> simp [same]
  | .bool a, w => by cases w <;> simp [same]
  | .number n, w => by cases w <;> simp [same]
  | .text s, w => by cases w <;> simp [same]
  | .array vs, w => by
    cases w with
    | array ws => rw [same, sameItems_iff vs ws, array.injEq]
    | _ => simp [same]
  | .object ms, w => by
    cases w with
    | object ns => rw [same, sameMembers_iff ms ns, object.injEq]
    | _ => simp [same]

theorem sameItems_iff : ∀ vs ws : List Json, sameItems vs ws = true ↔ vs = ws
  | [], ws => by cases ws <;> simp [sameItems]
  | v :: vs, ws => by
    cases ws with
    | nil => simp [sameItems]
    | cons w ws => rw [sameItems, Bool.and_eq_true, same_iff v w, sameItems_iff vs ws, List.cons.injEq]

theorem sameMembers_iff : ∀ ms ns : List (String × Json), sameMembers ms ns = true ↔ ms = ns
  | [], ns => by cases ns <;> simp [sameMembers]
  | (x, v) :: ms, ns => by
    cases ns with
    | nil => simp [sameMembers]
    | cons n ns =>
      obtain ⟨y, w⟩ := n
      rw [sameMembers, Bool.and_eq_true, Bool.and_eq_true, same_iff v w, sameMembers_iff ms ns, beq_iff_eq,
        List.cons.injEq, Prod.mk.injEq]

end

instance : DecidableEq Json := fun v w => decidable_of_iff _ (same_iff v w)

end BearerCredentials.Json
