import BearerCredentials.NameSet

/-!
# Maps from names

A finite map from texts, kept as its entries in strictly ascending order of their names (by code point), so
that equal maps are equal values.

* `NameMap.insert`: a later value replaces an earlier one.
* `NameMap.ofList`: of the entries with one name the last counts.
* `NameMap.get?_insert`: what insertion does to look-up.
-/

namespace BearerCredentials

/-- a finite map from texts to values -/
structure NameMap (α : Type) where
  /-- the entries in ascending order of their names -/
  entries : List (String × α)
  ascending : (entries.map Prod.fst).Pairwise (· < ·) := by simp
deriving DecidableEq

namespace NameMap

variable {α : Type}

/-- an entry put at its place in an ascending list; an entry of the same name gives way -/
def insertEntry (x : String) (a : α) : List (String × α) → List (String × α)
  | [] => [(x, a)]
  | (y, b) :: rest =>
    if x < y then (x, a) :: (y, b) :: rest
    else if x = y then (x, a) :: rest
    else (y, b) :: insertEntry x a rest

theorem map_fst_insertEntry (x : String) (a : α) (entries : List (String × α)) :
    (insertEntry x a entries).map Prod.fst = NameSet.insertName x (entries.map Prod.fst) := by
  induction entries with
  | nil => rfl
  | cons e rest ih =>
    obtain ⟨y, b⟩ := e
    simp only [insertEntry, List.map_cons, NameSet.insertName]
    split
    · rfl
    · split
      · subst_vars
        rfl
      · simp [ih]

theorem lookup_cons_eq_if (x y : String) (a : α) (entries : List (String × α)) :
    ((y, a) :: entries).lookup x = if x = y then some a else entries.lookup x := by
  rw [List.lookup_cons]
  by_cases h : x = y
  · rw [if_pos h, beq_iff_eq.2 h]
  · rw [if_neg h, beq_eq_false_iff_ne.2 h]

theorem lookup_insertEntry (x z : String) (a : α) (entries : List (String × α)) :
    (insertEntry x a entries).lookup z = if z = x then some a else entries.lookup z := by
  induction entries with
  | nil => exact lookup_cons_eq_if z x a []
  | cons e rest ih =>
    obtain ⟨y, b⟩ := e
    simp only [insertEntry]
    split
    · exact lookup_cons_eq_if z x a _
    · split
      · subst_vars
        simp only [lookup_cons_eq_if]
        split <;> rfl
      · rename_i hne
        simp only [lookup_cons_eq_if, ih]
        split
        · subst_vars
          rw [if_neg (Ne.symm hne)]
        · rfl

def empty : NameMap α := ⟨[], by simp⟩

instance : Inhabited (NameMap α) := ⟨empty⟩

instance : EmptyCollection (NameMap α) := ⟨empty⟩

def insert (m : NameMap α) (x : String) (a : α) : NameMap α where
  entries := insertEntry x a m.entries
  ascending := by
    rw [map_fst_insertEntry]
    exact NameSet.pairwise_insertName m.ascending

/-- the map of a list of entries; of the entries with one name the last counts -/
def ofList (entries : List (String × α)) : NameMap α :=
  entries.foldl (fun m e => m.insert e.1 e.2) ∅

def get? (m : NameMap α) (x : String) : Option α :=
  m.entries.lookup x

/-- the entries in ascending order of their names -/
def toList (m : NameMap α) : List (String × α) := m.entries

def size (m : NameMap α) : Nat := m.entries.length

theorem get?_empty (x : String) : (∅ : NameMap α).get? x = none := rfl

theorem get?_insert (m : NameMap α) (x z : String) (a : α) :
    (m.insert x a).get? z = if z = x then some a else m.get? z :=
  lookup_insertEntry x z a m.entries

end NameMap

end BearerCredentials
