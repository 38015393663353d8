import BearerCredentials.Text.Blank

/-!
# Pieces and stretches of a text

* `not_mem_of_mem_splitOn`, `splitOn_eq_three_iff`      pieces hold no separator; a text of three pieces;
* `IsSplit`, `split_eq_iff_isSplit`                     the pieces of a text, said without splitting it;
* `hasStretch_iff`, `stripStart?_eq_some_iff`           stretches and beginnings;
* `takeWhile_append_of_stop`, `takeWhile_append_mark`   a beginning that ends where a property does, or at a mark.
-/

namespace BearerCredentials.Text

/-! ## pieces -/

theorem not_mem_of_mem_splitOn {α : Type} [BEq α] [LawfulBEq α] {sep : α} {cs piece : List α}
    (h : piece ∈ cs.splitOn sep) : ¬ sep ∈ piece := by
  induction cs generalizing piece with
  | nil =>
    obtain rfl := List.mem_singleton.1 h
    exact List.not_mem_nil
  | cons c cs ih =>
    rw [List.splitOn_cons_eq_if_modifyHead] at h
    split at h
    · rcases List.mem_cons.1 h with rfl | h
      · exact List.not_mem_nil
      · exact ih h
    · rename_i hc
      obtain ⟨first, rest, e⟩ := List.exists_cons_of_ne_nil (List.splitOn_ne_nil sep cs)
      rw [e, List.modifyHead_cons] at h
      rw [e] at ih
      rcases List.mem_cons.1 h with rfl | h
      · intro hm
        rcases List.mem_cons.1 hm with rfl | hm
        · exact hc (beq_self_eq_true sep)
        · exact ih List.mem_cons_self hm
      · exact ih (List.mem_cons_of_mem _ h)

theorem splitOn_eq_three_iff {sep : Char} {cs a b c : List Char} :
    cs.splitOn sep = [a, b, c] ↔
      cs = a ++ sep :: (b ++ sep :: c) ∧ ¬ sep ∈ a ∧ ¬ sep ∈ b ∧ ¬ sep ∈ c := by
  constructor
  · intro h
    have hn {piece : List Char} (hp : piece ∈ [a, b, c]) : ¬ sep ∈ piece :=
      not_mem_of_mem_splitOn (h ▸ hp)
    have hjoin : [sep].intercalate (cs.splitOn sep) = cs := List.intercalate_splitOn sep
    rw [h, List.intercalate_cons_cons, List.intercalate_cons_cons, List.intercalate_singleton] at hjoin
    exact ⟨by simp [← hjoin], hn (by simp), hn (by simp), hn (by simp)⟩
  · rintro ⟨rfl, ha, hb, hc⟩
    rw [List.splitOn_append_cons_self_of_not_mem ha, List.splitOn_append_cons_self_of_not_mem hb,
      List.splitOn_eq_singleton hc]

theorem split_eq_iff {sep : Char} {s : String} {pieces : List String} :
    split sep s = pieces ↔ s.toList.splitOn sep = pieces.map String.toList := by
  have hcomp : String.toList ∘ String.ofList = id := funext fun cs => String.toList_ofList
  have hcomp' : String.ofList ∘ String.toList = id := funext fun s => String.ofList_toList
  rw [split]
  constructor
  · rintro rfl
    rw [List.map_map, hcomp, List.map_id]
  · intro h
    rw [h, List.map_map, hcomp', List.map_id]

/-! ## the pieces of a text -/

section
variable {sep : Char} {s : String} {pieces : List String}

/-- the pieces of a text: without separators in them they make the text, with separators between them -/
structure IsSplit (sep : Char) (s : String) (pieces : List String) : Prop where
  ne_nil : pieces ≠ []
  notMem : ∀ piece ∈ pieces, ¬ sep ∈ piece.toList
  join : String.intercalate (String.singleton sep) pieces = s

theorem toList_join (sep : Char) (pieces : List String) :
    (String.intercalate (String.singleton sep) pieces).toList = [sep].intercalate (pieces.map String.toList) := by
  rw [String.toList_intercalate, String.toList_singleton]

theorem isSplit_split (sep : Char) (s : String) : IsSplit sep s (split sep s) where
  ne_nil := mt List.map_eq_nil_iff.1 (List.splitOn_ne_nil sep s.toList)
  notMem := by
    intro piece h
    obtain ⟨cs, hcs, rfl⟩ := List.mem_map.1 h
    rw [String.toList_ofList]
    exact not_mem_of_mem_splitOn hcs
  join := by
    apply String.toList_injective
    rw [toList_join, ← split_eq_iff.1 rfl, List.intercalate_splitOn]

/-- **Splitting finds the one list of pieces that make the text.** -/
theorem split_eq_iff_isSplit : split sep s = pieces ↔ IsSplit sep s pieces := by
  constructor
  · rintro rfl
    exact isSplit_split sep s
  · rintro ⟨hne, hn, rfl⟩
    rw [split_eq_iff, toList_join]
    refine List.splitOn_intercalate sep (fun cs hcs => ?_) (mt List.map_eq_nil_iff.1 hne)
    obtain ⟨piece, hp, rfl⟩ := List.mem_map.1 hcs
    exact hn piece hp

theorem split_append (sep : Char) (s t : String) :
    split sep (s ++ String.singleton sep ++ t) = split sep s ++ split sep t := by
  rw [split, String.toList_append, String.toList_append, String.toList_singleton, List.append_assoc,
    List.singleton_append, List.splitOn_append_cons_self, List.map_append]
  rfl

end

/-! ## stretches and beginnings -/

theorem hasStretch_iff {needle cs : List Char} : hasStretch needle cs = true ↔ needle <:+: cs := by
  induction cs with
  | nil => rw [hasStretch, List.isEmpty_iff, List.infix_nil]
  | cons c cs ih => rw [hasStretch, Bool.or_eq_true, List.isPrefixOf_iff_prefix, ih, List.infix_cons_iff]

theorem stripStart?_eq_some_iff {start s rest : String} :
    stripStart? start s = some rest ↔ s = start ++ rest := by
  unfold stripStart?
  constructor
  · intro h
    split at h
    · rename_i hp
      obtain ⟨cs, e⟩ := List.isPrefixOf_iff_prefix.1 hp
      obtain rfl := Option.some.inj h
      apply String.toList_injective
      rw [String.toList_append, String.toList_ofList, ← e, ← String.length_toList, List.drop_left]
    · cases h
  · rintro rfl
    have hp : start.toList.isPrefixOf (start ++ rest).toList = true := by
      rw [String.toList_append]
      exact List.isPrefixOf_iff_prefix.2 (List.prefix_append _ _)
    rw [if_pos hp, String.toList_append, ← String.length_toList, List.drop_left, String.ofList_toList]

/-- a beginning of characters with a property, before one without it or the end of the text -/
theorem takeWhile_append_of_stop {p : Char → Bool} {cs rest : List Char} (hp : ∀ c ∈ cs, p c = true)
    (hr : ∀ c, rest.head? = some c → p c = false) :
    (cs ++ rest).takeWhile p = cs ∧ (cs ++ rest).dropWhile p = rest := by
  have hnone : rest.takeWhile p = [] ∧ rest.dropWhile p = rest := by
    cases rest with
    | nil => exact ⟨rfl, rfl⟩
    | cons c rest =>
      have hc : ¬ p c = true := by rw [hr c rfl]; decide
      exact ⟨List.takeWhile_cons_of_neg hc, List.dropWhile_cons_of_neg hc⟩
  rw [List.takeWhile_append_of_pos hp, List.dropWhile_append_of_pos hp, hnone.1, hnone.2, List.append_nil]
  exact ⟨rfl, rfl⟩

/-- a beginning without a mark, before the mark -/
theorem takeWhile_append_mark {mark : Char} {cs : List Char} (h : mark ∉ cs) (rest : List Char) :
    (cs ++ mark :: rest).takeWhile (· != mark) = cs ∧ (cs ++ mark :: rest).dropWhile (· != mark) = mark :: rest := by
  refine takeWhile_append_of_stop (fun c hc => bne_iff_ne.2 ?_) ?_
  · rintro rfl
    exact h hc
  · rintro c ⟨⟩
    exact bne_self_eq_false mark

end BearerCredentials.Text
