/-!
# Sets of names

A finite set of texts, kept as its members in strictly ascending order (by code point), so that equal sets
are equal values and listing a set needs no sorting.

* `NameSet.insert`, `NameSet.ofList`, `NameSet.contains`.
* `NameSet.mem_insert`, `NameSet.mem_ofList`: what the operations do to membership.
-/

namespace BearerCredentials

/-- a finite set of texts -/
structure NameSet where
  /-- the members in ascending order -/
  names : List String
  ascending : names.Pairwise (· < ·) := by simp
deriving DecidableEq

namespace NameSet

/-- a name put at its place in an ascending list, once -/
def insertName (x : String) : List String → List String
  | [] => [x]
  | y :: ys => if x < y then x :: y :: ys else if x = y then y :: ys else y :: insertName x ys

theorem mem_insertName {x z : String} {ys : List String} :
    z ∈ insertName x ys ↔ z = x ∨ z ∈ ys := by
  induction ys with
  | nil => simp [insertName]
  | cons y ys ih =>
    unfold insertName
    split
    · simp
    · split
      · subst_vars
        simp
      · simp [ih, or_left_comm]

theorem pairwise_insertName {x : String} {ys : List String} (h : ys.Pairwise (· < ·)) :
    (insertName x ys).Pairwise (· < ·) := by
  induction ys with
  | nil => simp [insertName]
  | cons y ys ih =>
    have ⟨hy, hys⟩ := List.pairwise_cons.1 h
    unfold insertName
    split
    · rename_i hlt
      refine List.pairwise_cons.2 ⟨fun z hz => ?_, h⟩
      rcases List.mem_cons.1 hz with rfl | hz
      · exact hlt
      · exact String.lt_trans hlt (hy z hz)
    · rename_i hnlt
      split
      · exact h
      · rename_i hne
        refine List.pairwise_cons.2 ⟨fun z hz => ?_, ih hys⟩
        rcases mem_insertName.1 hz with rfl | hz
        · exact Std.lt_of_le_of_ne (Std.not_lt.1 hnlt) (Ne.symm hne)
        · exact hy z hz

def empty : NameSet := ⟨[], .nil⟩

instance : Inhabited NameSet := ⟨empty⟩

instance : EmptyCollection NameSet := ⟨empty⟩

instance : Membership String NameSet := ⟨fun s x => x ∈ s.names⟩

def insert (s : NameSet) (x : String) : NameSet :=
  ⟨insertName x s.names, pairwise_insertName s.ascending⟩

def ofList (xs : List String) : NameSet :=
  xs.foldl insert ∅

def toList (s : NameSet) : List String := s.names

def size (s : NameSet) : Nat := s.names.length

def contains (s : NameSet) (x : String) : Bool := s.names.contains x

theorem mem_iff {s : NameSet} {x : String} : x ∈ s ↔ x ∈ s.names := Iff.rfl

theorem not_mem_empty (x : String) : ¬ x ∈ (∅ : NameSet) := nofun

theorem mem_insert {s : NameSet} {x z : String} : z ∈ s.insert x ↔ z = x ∨ z ∈ s :=
  mem_insertName

theorem mem_foldl_insert {xs : List String} {s : NameSet} {z : String} :
    z ∈ xs.foldl insert s ↔ z ∈ xs ∨ z ∈ s := by
  induction xs generalizing s with
  | nil => simp
  | cons x xs ih => simp [ih, mem_insert, or_assoc, or_left_comm]

theorem mem_ofList {xs : List String} {z : String} : z ∈ ofList xs ↔ z ∈ xs := by
  simp [ofList, mem_foldl_insert, not_mem_empty]

end NameSet

end BearerCredentials
