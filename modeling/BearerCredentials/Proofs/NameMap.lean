import BearerCredentials.NameMap
import Mathlib.Data.List.Sort

/-!
# Sets of names, and look-up in maps that are made from lists

* `NameSet.ext`                sets with the same members are equal;
* `NameMap.get?_ofList`        of the entries with one name the last counts;
* `lookup_reverse`             where a name occurs at most once, the last entry is the first;
* `lookup_of_mem`              where no name is repeated, each entry is the one that is found;
* `NameMap.mem_of_mem_ofList`  a map that is made from a list has no other entries;
* `NameMap.get?_eq_lookup`     a map has the entry that is found in its list;
* `NameMap.toList_ofList`      entries in ascending order are the entries of their map;
* `NameMap.ofList_toList`      a map is the map of its list.
-/

namespace BearerCredentials

/-! ## sets -/

namespace NameSet

theorem ext {s t : NameSet} (h : ∀ z, z ∈ s ↔ z ∈ t) : s = t := by
  have hnames : s.names = t.names := s.ascending.eq_of_mem_iff t.ascending h
  cases s
  cases t
  congr

theorem ofList_toList (s : NameSet) : ofList s.toList = s := ext fun _ => mem_ofList

end NameSet

/-! ## entries -/

section
variable {α : Type}

theorem lookup_cons_ne {x y : String} (h : x ≠ y) (a : α) (entries : List (String × α)) :
    ((y, a) :: entries).lookup x = entries.lookup x := by
  rw [NameMap.lookup_cons_eq_if, if_neg h]

theorem lookup_eq_none_of_countP {x : String} {entries : List (String × α)}
    (h : entries.countP (fun e => e.1 == x) = 0) : entries.lookup x = none := by
  rw [List.lookup_eq_none_iff]
  intro e he
  have hx := List.countP_eq_zero.1 h e he
  rw [beq_iff_eq] at hx
  exact bne_iff_ne.2 (fun e' => hx e'.symm)

theorem lookup_reverse {x : String} {entries : List (String × α)}
    (h : entries.countP (fun e => e.1 == x) ≤ 1) : entries.reverse.lookup x = entries.lookup x := by
  induction entries with
  | nil => rfl
  | cons e entries ih =>
    obtain ⟨y, a⟩ := e
    rw [List.reverse_cons, List.lookup_append]
    rw [List.countP_cons] at h
    by_cases hxy : x = y
    · subst hxy
      have h0 : entries.countP (fun e => e.1 == x) = 0 := by
        rw [if_pos (beq_self_eq_true x)] at h
        omega
      rw [ih (by omega), lookup_eq_none_of_countP h0, List.lookup_cons_self, List.lookup_cons_self,
        Option.none_or]
    · rw [ih (by omega), lookup_cons_ne hxy, lookup_cons_ne hxy, List.lookup_nil, Option.or_none]

theorem mem_of_lookup {x : String} {a : α} {entries : List (String × α)}
    (h : entries.lookup x = some a) : (x, a) ∈ entries := by
  obtain ⟨before, after, rfl, -⟩ := List.lookup_eq_some_iff.1 h
  exact List.mem_append_right _ List.mem_cons_self

theorem countP_le_one {entries : List (String × α)} (h : (entries.map Prod.fst).Nodup) (x : String) :
    entries.countP (fun e => e.1 == x) ≤ 1 := by
  have hc := List.nodup_iff_count.1 h x
  rwa [List.count, List.countP_map] at hc

theorem lookup_of_mem {x : String} {a : α} {entries : List (String × α)}
    (hn : (entries.map Prod.fst).Nodup) (h : (x, a) ∈ entries) : entries.lookup x = some a := by
  induction entries with
  | nil => cases h
  | cons e entries ih =>
    obtain ⟨y, b⟩ := e
    obtain ⟨hy, hn⟩ := List.nodup_cons.1 hn
    rcases List.mem_cons.1 h with he | hm
    · cases he
      rw [List.lookup_cons_self]
    · have hne : x ≠ y := by
        rintro rfl
        exact hy (List.mem_map.2 ⟨(x, a), hm, rfl⟩)
      rw [lookup_cons_ne hne, ih hn hm]

/-- entries that are renamed, without two names becoming one -/
theorem lookup_map {β : Type} {f : String → String} (g : α → β) (hf : ∀ x y, f x = f y → x = y)
    (entries : List (String × α)) (x : String) :
    (entries.map fun e => (f e.1, g e.2)).lookup (f x) = (entries.lookup x).map g := by
  induction entries with
  | nil => rfl
  | cons e entries ih =>
    obtain ⟨y, a⟩ := e
    rw [List.map_cons]
    by_cases hxy : x = y
    · subst hxy
      rw [List.lookup_cons_self, List.lookup_cons_self]
      rfl
    · rw [lookup_cons_ne hxy, lookup_cons_ne fun e => hxy (hf x y e), ih]

/-! ## maps -/

namespace NameMap

theorem get?_eq_lookup (m : NameMap α) (x : String) : m.get? x = m.toList.lookup x :=
  rfl

theorem nodup_toList (m : NameMap α) : (m.toList.map Prod.fst).Nodup := by
  refine m.ascending.imp ?_
  rintro x y hlt rfl
  exact String.lt_irrefl x hlt

theorem get?_foldl_insert (entries : List (String × α)) (m : NameMap α) (x : String) :
    (entries.foldl (fun m e => m.insert e.1 e.2) m).get? x = (entries.reverse.lookup x).or (m.get? x) := by
  induction entries generalizing m with
  | nil => rfl
  | cons e entries ih =>
    obtain ⟨y, a⟩ := e
    rw [List.foldl_cons, ih, get?_insert, List.reverse_cons, List.lookup_append, Option.or_assoc]
    congr 1
    by_cases hxy : x = y
    · subst hxy
      rw [if_pos rfl, List.lookup_cons_self]
      rfl
    · rw [if_neg hxy, lookup_cons_ne hxy]
      rfl

theorem get?_ofList (entries : List (String × α)) (x : String) :
    (ofList entries).get? x = entries.reverse.lookup x := by
  rw [ofList, get?_foldl_insert, get?_empty, Option.or_none]

/-- a map has exactly the entries of its list -/
theorem mem_toList_iff {m : NameMap α} {x : String} {a : α} : (x, a) ∈ m.toList ↔ m.get? x = some a := by
  rw [get?_eq_lookup]
  exact ⟨lookup_of_mem m.nodup_toList, mem_of_lookup⟩

/-- a map that is made from a list has no other entries -/
theorem mem_of_mem_ofList {e : String × α} {entries : List (String × α)} (h : e ∈ (ofList entries).toList) :
    e ∈ entries := by
  have hget : (ofList entries).get? e.1 = some e.2 := mem_toList_iff.1 h
  rw [get?_ofList] at hget
  exact List.mem_reverse.1 (mem_of_lookup hget)

/-- a greater name comes last -/
theorem insertEntry_of_lt {x : String} {a : α} {entries : List (String × α)} (h : ∀ e ∈ entries, e.1 < x) :
    insertEntry x a entries = entries ++ [(x, a)] := by
  induction entries with
  | nil => rfl
  | cons e entries ih =>
    obtain ⟨y, b⟩ := e
    obtain ⟨hy, h⟩ := List.forall_mem_cons.1 h
    have hlt : ¬ x < y := fun hlt => String.lt_irrefl x (String.lt_trans hlt hy)
    have hne : x ≠ y := by
      rintro rfl
      exact String.lt_irrefl x hy
    rw [insertEntry, if_neg hlt, if_neg hne, ih h]
    rfl

theorem entries_foldl_insert {entries : List (String × α)} {m : NameMap α}
    (h : ((m.entries ++ entries).map Prod.fst).Pairwise (· < ·)) :
    (entries.foldl (fun m e => m.insert e.1 e.2) m).entries = m.entries ++ entries := by
  induction entries generalizing m with
  | nil => exact (List.append_nil _).symm
  | cons e entries ih =>
    have hlt : ∀ e' ∈ m.entries, e'.1 < e.1 := by
      rw [List.map_append] at h
      intro e' he'
      exact (List.pairwise_append.1 h).2.2 _ (List.mem_map_of_mem he') _ List.mem_cons_self
    have hm : (m.insert e.1 e.2).entries = m.entries ++ [e] := insertEntry_of_lt hlt
    rw [List.foldl_cons, ih (by rwa [hm, List.append_assoc]), hm, List.append_assoc]
    rfl

theorem eq_of_entries {m n : NameMap α} (h : m.entries = n.entries) : m = n := by
  cases m
  cases n
  congr

/-- entries whose names are in ascending order are the entries of their map -/
theorem toList_ofList {entries : List (String × α)} (h : (entries.map Prod.fst).Pairwise (· < ·)) :
    (ofList entries).toList = entries :=
  entries_foldl_insert (m := ∅) h

theorem ofList_toList (m : NameMap α) : ofList m.toList = m :=
  eq_of_entries (toList_ofList m.ascending)

end NameMap

end

end BearerCredentials
