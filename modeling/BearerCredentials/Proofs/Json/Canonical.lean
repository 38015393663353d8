import BearerCredentials.Proofs.Json.Written

/-!
# The canonical form of a value

* `depth_le_of_ofOutline`   what is read is nested no deeper than is allowed;
* `depth_canonical_le`      the canonical form is nested no deeper than the value;
* `canonical_canonical`     a canonical form is its own canonical form.
-/

namespace BearerCredentials.Json

/-! ## nesting -/

theorem depthMembers_le_iff {ms : List (String × Json)} {d : Nat} :
    depthMembers ms ≤ d ↔ ∀ m ∈ ms, m.2.depth ≤ d := by
  induction ms with
  | nil => simp [depthMembers]
  | cons m ms ih => rw [depthMembers, Nat.max_le, ih, List.forall_mem_cons]

mutual

/-- **What is read is nested no deeper than is allowed.** -/
theorem depth_le_of_ofOutline : ∀ (o : Outline) {d : Nat} {v : Json}, ofOutline d o = .ok v → v.depth ≤ d
  | .null, _, _, h => by
    cases h
    exact Nat.zero_le _
  | .bool _, _, _, h => by
    cases h
    exact Nat.zero_le _
  | .number _, _, _, h => by
    obtain ⟨n, -, rfl⟩ := Outcome.map_eq_ok_iff.1 h
    exact Nat.zero_le _
  | .text _, _, _, h => by
    obtain ⟨t, -, rfl⟩ := Outcome.map_eq_ok_iff.1 h
    exact Nat.zero_le _
  | .broken _ _, _, _, h => by cases h
  | .array items _, d, _, h => by
    cases d with
    | zero => cases h
    | succ d =>
      obtain ⟨vs, hvs, h⟩ := Outcome.bind_eq_ok_iff.1 h
      obtain ⟨-, rfl⟩ := closed_eq_ok_iff.1 h
      exact Nat.succ_le_succ (depthItems_le_of_itemsOfOutlines items hvs)
  | .object fields _, d, _, h => by
    cases d with
    | zero => cases h
    | succ d =>
      obtain ⟨ms, hms, h⟩ := Outcome.bind_eq_ok_iff.1 h
      obtain ⟨-, rfl⟩ := closed_eq_ok_iff.1 h
      exact Nat.succ_le_succ (depthMembers_le_of_membersOfOutlines fields hms)

theorem depthItems_le_of_itemsOfOutlines : ∀ (items : List Outline) {d : Nat} {vs : List Json},
    itemsOfOutlines d items = .ok vs → depthItems vs ≤ d
  | [], _, _, h => by
    cases h
    exact Nat.zero_le _
  | o :: rest, _, _, h => by
    obtain ⟨v, hv, h⟩ := Outcome.bind_eq_ok_iff.1 h
    obtain ⟨vs, hvs, h⟩ := Outcome.bind_eq_ok_iff.1 h
    cases h
    exact Nat.max_le.2 ⟨depth_le_of_ofOutline o hv, depthItems_le_of_itemsOfOutlines rest hvs⟩

theorem depthMembers_le_of_membersOfOutlines : ∀ (fields : List (Spelled × Outline)) {d : Nat}
    {ms : List (String × Json)}, membersOfOutlines d fields = .ok ms → depthMembers ms ≤ d
  | [], _, _, h => by
    cases h
    exact Nat.zero_le _
  | (name, o) :: rest, _, _, h => by
    obtain ⟨x, -, h⟩ := Outcome.bind_eq_ok_iff.1 h
    obtain ⟨v, hv, h⟩ := Outcome.bind_eq_ok_iff.1 h
    obtain ⟨ms, hms, h⟩ := Outcome.bind_eq_ok_iff.1 h
    cases h
    exact Nat.max_le.2 ⟨depth_le_of_ofOutline o hv, depthMembers_le_of_membersOfOutlines rest hms⟩

end

/-! ## the canonical form -/

mutual

/-- the canonical form is nested no deeper than the value -/
theorem depth_canonical_le : ∀ v : Json, v.canonical.depth ≤ v.depth
  | .null => Nat.le_refl _
  | .bool _ => Nat.le_refl _
  | .number _ => Nat.le_refl _
  | .text _ => Nat.le_refl _
  | .array items => Nat.succ_le_succ (depthItems_canonicalItems_le items)
  | .object members => by
    -- of the members with one name only the last one is left, so each one that is left is a member
    have hleft : depthMembers (NameMap.ofList (canonicalMembers members)).toList ≤ depthMembers members :=
      depthMembers_le_iff.2 fun m hm =>
        depthMembers_le_iff.1 (depthMembers_canonicalMembers_le members) m (NameMap.mem_of_mem_ofList hm)
    exact Nat.succ_le_succ hleft

theorem depthItems_canonicalItems_le : ∀ vs : List Json, depthItems (canonicalItems vs) ≤ depthItems vs
  | [] => Nat.le_refl _
  | v :: rest => by
    rw [canonicalItems, depthItems, depthItems]
    have hv := depth_canonical_le v
    have hrest := depthItems_canonicalItems_le rest
    omega

theorem depthMembers_canonicalMembers_le : ∀ ms : List (String × Json),
    depthMembers (canonicalMembers ms) ≤ depthMembers ms
  | [] => Nat.le_refl _
  | (_, v) :: rest => by
    rw [canonicalMembers, depthMembers, depthMembers]
    have hv := depth_canonical_le v
    have hrest := depthMembers_canonicalMembers_le rest
    omega

end

theorem canonicalMembers_of_canonical {ms : List (String × Json)} (h : ∀ m ∈ ms, m.2.canonical = m.2) :
    canonicalMembers ms = ms := by
  induction ms with
  | nil => rfl
  | cons m ms ih =>
    obtain ⟨hm, h⟩ := List.forall_mem_cons.1 h
    rw [canonicalMembers, hm, ih h]

mutual

/-- **A canonical form is its own canonical form.** -/
theorem canonical_canonical : ∀ v : Json, v.canonical.canonical = v.canonical
  | .null => rfl
  | .bool _ => rfl
  | .number _ => rfl
  | .text _ => rfl
  | .array items => congrArg Json.array (canonicalItems_canonicalItems items)
  | .object members => by
    have hleft : ∀ m ∈ (NameMap.ofList (canonicalMembers members)).toList, m.2.canonical = m.2 :=
      fun m hm => canonical_of_mem_canonicalMembers members m (NameMap.mem_of_mem_ofList hm)
    rw [canonical, canonical, canonicalMembers_of_canonical hleft, NameMap.ofList_toList]

theorem canonicalItems_canonicalItems : ∀ vs : List Json, canonicalItems (canonicalItems vs) = canonicalItems vs
  | [] => rfl
  | v :: rest => by
    rw [canonicalItems, canonicalItems, canonical_canonical v, canonicalItems_canonicalItems rest]

theorem canonical_of_mem_canonicalMembers : ∀ ms : List (String × Json), ∀ m ∈ canonicalMembers ms,
    m.2.canonical = m.2
  | [] => nofun
  | (_, v) :: rest => List.forall_mem_cons.2 ⟨canonical_canonical v, canonical_of_mem_canonicalMembers rest⟩

end

end BearerCredentials.Json
