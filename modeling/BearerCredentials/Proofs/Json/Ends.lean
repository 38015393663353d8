import BearerCredentials.Json.Print
import BearerCredentials.Proofs.Text.Trim

/-!
# The ends of a written value

* `not_blank_decimal`                  a floating point number is written without blanks;
* `trimmed_render`, `trimmed_compact`  a value is written with no blank at its ends, and never as nothing.
-/

namespace BearerCredentials

open Text (isBlank)

/-! ## floating point numbers -/

namespace Binary64

variable {digits : List Char}

theorem not_blank_zeros (count : Nat) : ∀ c ∈ zeros count, isBlank c = false := by
  intro c hc
  obtain rfl := List.eq_of_mem_replicate hc
  decide

theorem not_blank_exponentText (e : Int) : ∀ c ∈ exponentText e, isBlank c = false := by
  have hsign : isBlank (if e < 0 then '-' else '+') = false := by
    split <;> decide
  exact List.forall_mem_cons.2 ⟨by decide, List.forall_mem_cons.2 ⟨hsign, fun c => Text.not_blank_of_mem_toDigits⟩⟩

/-- to digits a layout adds zeros, a point and an exponent -/
theorem not_blank_layOut (hd : ∀ c ∈ digits, isBlank c = false) (place : Int) :
    ∀ c ∈ layOut digits place, isBlank c = false := by
  unfold layOut
  dsimp only
  split
  · exact List.forall_mem_append.2 ⟨List.forall_mem_append.2 ⟨hd, not_blank_zeros _⟩, Text.not_blank_of_all (by decide)⟩
  split
  · refine List.forall_mem_append.2 ⟨fun c hc => hd c (List.mem_of_mem_take hc), ?_⟩
    exact List.forall_mem_cons.2 ⟨by decide, fun c hc => hd c (List.mem_of_mem_drop hc)⟩
  split
  · refine List.forall_mem_append.2 ⟨?_, hd⟩
    exact List.forall_mem_cons.2 ⟨by decide, List.forall_mem_cons.2 ⟨by decide, not_blank_zeros _⟩⟩
  split
  · exact List.forall_mem_cons.2 ⟨hd _ List.mem_cons_self, not_blank_exponentText _⟩
  · obtain ⟨hfirst, hrest⟩ := List.forall_mem_cons.1 hd
    refine List.forall_mem_append.2 ⟨?_, not_blank_exponentText _⟩
    exact List.forall_mem_cons.2 ⟨hfirst, List.forall_mem_cons.2 ⟨by decide, hrest⟩⟩
  · exact hd

theorem layOut_ne_nil (hne : digits ≠ []) (place : Int) : layOut digits place ≠ [] := by
  unfold layOut
  dsimp only
  split
  · simp
  split
  · simp
  split
  · simp
  split
  · simp
  · simp
  · exact hne

theorem exists_shortest (u : Nat) : ∃ d place, shortest u = (Nat.toDigits 10 d, place) := ⟨_, _, rfl⟩

/-- **A floating point number is written without blanks, and never as nothing.** -/
theorem not_blank_decimal (x : Binary64) : (∀ c ∈ x.decimal, isBlank c = false) ∧ x.decimal ≠ [] := by
  obtain ⟨d, place, e⟩ := exists_shortest x.units
  have hd : ∀ c ∈ Nat.toDigits 10 d, isBlank c = false := fun c => Text.not_blank_of_mem_toDigits
  unfold decimal
  simp only [e]
  split <;> split
  · exact ⟨Text.not_blank_of_all (by decide), by simp⟩
  · exact ⟨List.forall_mem_cons.2 ⟨by decide, not_blank_layOut hd place⟩, by simp⟩
  · exact ⟨Text.not_blank_of_all (by decide), by simp⟩
  · exact ⟨not_blank_layOut hd place, layOut_ne_nil Nat.toDigits_ne_nil place⟩

end Binary64

/-! ## values -/

namespace Json

theorem not_blank_number (n : Number) : (∀ c ∈ n.render, isBlank c = false) ∧ n.render ≠ [] := by
  cases n with
  | integer i low high =>
    rw [Number.render]
    split
    · exact ⟨List.forall_mem_cons.2 ⟨by decide, fun c => Text.not_blank_of_mem_toDigits⟩, List.cons_ne_nil _ _⟩
    · exact ⟨fun c => Text.not_blank_of_mem_toDigits, Nat.toDigits_ne_nil⟩
  | float x => exact x.not_blank_decimal

theorem exists_enclose (l : Layout) (level : Nat) (opening closing : Char) (items : List (List Char)) :
    ∃ inside, l.enclose level opening closing items = opening :: inside ++ [closing] := by
  cases items with
  | nil => exact ⟨[], rfl⟩
  | cons item items => exact ⟨_, rfl⟩

/-- a value is written between marks that are not blank, as a word, or as a number -/
theorem trimmed_render (l : Layout) (level : Nat) (v : Json) :
    Text.Trimmed (render l level v) ∧ render l level v ≠ [] := by
  have hmarks {opening closing : Char} (inside : List Char) (ho : isBlank opening = false)
      (hc : isBlank closing = false) :
      Text.Trimmed (opening :: inside ++ [closing]) ∧ opening :: inside ++ [closing] ≠ [] :=
    ⟨.append ho (.of_no_blank (List.forall_mem_singleton.2 hc)) (List.cons_ne_nil _ _), List.cons_ne_nil _ _⟩
  have hword (word : List Char) (hb : ∀ c ∈ word, isBlank c = false) (hne : word ≠ []) :
      Text.Trimmed word ∧ word ≠ [] := ⟨.of_no_blank hb, hne⟩
  cases v with
  | null => exact hword "null".toList (Text.not_blank_of_all (by decide)) (by decide)
  | bool b =>
    cases b with
    | true => exact hword "true".toList (Text.not_blank_of_all (by decide)) (by decide)
    | false => exact hword "false".toList (Text.not_blank_of_all (by decide)) (by decide)
  | number n => exact hword n.render (not_blank_number n).1 (not_blank_number n).2
  | text s => exact hmarks _ (by decide) (by decide)
  | array items =>
    obtain ⟨inside, e⟩ := exists_enclose l level '[' ']' (renderItems l (level + 1) items)
    rw [render, e]
    exact hmarks inside (by decide) (by decide)
  | object members =>
    obtain ⟨inside, e⟩ := exists_enclose l level '\x7b' '\x7d' (renderMembers l (level + 1) members)
    rw [render, e]
    exact hmarks inside (by decide) (by decide)

/-- **A value is written with no blank at its ends, and never as nothing.** -/
theorem trimmed_compact (v : Json) : Text.Trimmed v.compact.toList ∧ v.compact ≠ "" := by
  obtain ⟨ht, hne⟩ := trimmed_render .compact 0 v
  rw [compact, String.toList_ofList, ne_eq, String.ofList_eq_empty_iff]
  exact ⟨ht, hne⟩

end Json

end BearerCredentials
