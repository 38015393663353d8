import BearerCredentials.Der.Print
import Mathlib.Data.List.Forall2

/-!
# Written nested data is read back

* `readIdentifier_written`            the value of an identifier, number by number;
* `ReadsAs`                           bytes that are read as a block, whatever follows them;
* `readsAs_sequence` and the others   what is written is read as the block that it was written for.
-/

namespace BearerCredentials.Der

/-! ## identifiers -/

/-- digits that are marked as not the last one raise the number that has been read so far from zero -/
theorem base128_marked128 (n : Nat) (rest : Bytes) : base128 0 (marked128 n ++ rest) = base128 n rest := by
  fun_induction marked128 n generalizing rest with
  | case1 => rfl
  | case2 n hn ih =>
    have hb : (UInt8.ofNat (128 + n % 128)).toNat = 128 + n % 128 := by
      rw [UInt8.toNat_ofNat']
      omega
    have hge : ¬ UInt8.ofNat (128 + n % 128) < 128 := by
      rw [UInt8.lt_iff_toNat_lt, hb]
      exact Nat.not_lt.2 (Nat.le_add_right _ _)
    have hdigit : n / 128 * 128 + (128 + n % 128) % 128 = n := by omega
    rw [List.append_assoc, ih, List.singleton_append, base128, if_neg hge, hb, hdigit]

theorem base128_encodeBase128 (n : Nat) (rest : Bytes) : base128 0 (encodeBase128 n ++ rest) = some (n, rest) := by
  have hb : (UInt8.ofNat (n % 128)).toNat = n % 128 := by
    rw [UInt8.toNat_ofNat']
    omega
  have hlt : UInt8.ofNat (n % 128) < 128 := by
    rw [UInt8.lt_iff_toNat_lt, hb]
    exact Nat.mod_lt n (by decide)
  have hdigit : n / 128 * 128 + n % 128 % 128 = n := by omega
  rw [encodeBase128, List.append_assoc, base128_marked128, List.singleton_append, base128, if_pos hlt, hb, hdigit]

theorem encodeBase128_ne_nil (n : Nat) : encodeBase128 n ≠ [] := by
  rw [encodeBase128]
  exact List.append_ne_nil_of_right_ne_nil _ (List.cons_ne_nil _ _)

/-- every number takes a byte at least -/
theorem length_le_length_flatMap (arcs : List Nat) : arcs.length ≤ (arcs.flatMap encodeBase128).length := by
  induction arcs with
  | nil => exact Nat.le_refl 0
  | cons n arcs ih =>
    have hn := List.length_pos_iff.2 (encodeBase128_ne_nil n)
    rw [List.flatMap_cons, List.length_append, List.length_cons]
    omega

theorem readArcs_written {fuel : Nat} {arcs : List Nat} (h : arcs.length ≤ fuel) :
    readArcs fuel (arcs.flatMap encodeBase128) = some arcs := by
  induction arcs generalizing fuel with
  | nil =>
    rw [List.flatMap_nil]
    cases fuel <;> rfl
  | cons n arcs ih =>
    obtain ⟨fuel, rfl⟩ := Nat.exists_eq_add_one_of_ne_zero (Nat.ne_of_gt (Nat.lt_of_lt_of_le (Nat.succ_pos _) h))
    have hne : encodeBase128 n ++ arcs.flatMap encodeBase128 ≠ [] :=
      List.append_ne_nil_of_left_ne_nil (encodeBase128_ne_nil n) _
    rw [List.flatMap_cons, readArcs]
    · rw [base128_encodeBase128]
      simp only [Option.bind_eq_bind, Option.bind_some, ih (Nat.le_of_succ_le_succ h)]
      rfl
    · exact hne

/-- the first two numbers share a byte; below two the second one stays below forty -/
theorem readIdentifier_written {a b : Nat} {arcs : List Nat} (h : a < 2 ∧ b < 40 ∨ a = 2 ∧ b < 176) :
    readIdentifier (UInt8.ofNat (a * 40 + b) :: arcs.flatMap encodeBase128) = some (a :: b :: arcs) := by
  have hn : (UInt8.ofNat (a * 40 + b)).toNat = a * 40 + b := by
    rw [UInt8.toNat_ofNat']
    omega
  rw [readIdentifier, readArcs_written (length_le_length_flatMap arcs)]
  simp only [Option.bind_eq_bind, Option.bind_some, hn]
  rcases h with ⟨ha, hb⟩ | ⟨rfl, hb⟩
  · rcases Nat.lt_succ_iff_lt_or_eq.1 ha with ha | rfl
    · obtain rfl := Nat.lt_one_iff.1 ha
      rw [if_pos (by omega), Nat.zero_mul, Nat.zero_add]
      rfl
    · rw [if_neg (by omega), if_pos (by omega), show 1 * 40 + b - 40 = b from by omega]
      rfl
  · rw [if_neg (by omega), if_neg (by omega), show 2 * 40 + b - 80 = b from by omega]
    rfl

/-! ## elements -/

/-- bytes that are read as a block, whatever follows them -/
def ReadsAs (bytes : Bytes) (block : Block) : Prop :=
  ∀ rest blocks, readBlocks rest = some blocks → readBlocks (bytes ++ rest) = some (block :: blocks)

/-- the block that the value of an element with a universal tag is read as -/
def blockOf? (number : Nat) (value : Bytes) : Option Block :=
  if number = 16 ∨ number = 17 then
    match readBlocks value with
    | none | some [] => none
    | some items => some (if number = 16 then .sequence items else .set items)
  else readPlain number value

theorem readBlocks_element {tag : UInt8} {value : Bytes} (hu : tag.toNat < 64) (ht : tag.toNat % 32 ≠ 31)
    (hv : value.length < UInt64.size) (rest : Bytes) :
    readBlocks (element tag value ++ rest) =
      (blockOf? (tag.toNat % 32) value).bind fun block => (readBlocks rest).map (block :: ·) := by
  have hread := readElement_element ht hv rest
  have hdiv : tag.toNat / 64 = 0 := by omega
  rw [hdiv] at hread
  rw [element, List.append_assoc, List.cons_append] at hread ⊢
  rw [readBlocks]
  split
  · rename_i h
    rw [hread] at h
    cases h
  · rename_i e h
    rw [hread] at h
    cases h
    simp only [decide_true, Bool.not_true, Bool.false_eq_true, if_false, Option.map_eq_bind]
    rfl

/-- a plain value is read as its block -/
theorem readsAs_element {tag : UInt8} {value : Bytes} {block : Block} (hu : tag.toNat < 64)
    (ht : tag.toNat % 32 ≠ 31) (hv : value.length < UInt64.size) (h : blockOf? (tag.toNat % 32) value = some block) :
    ReadsAs (element tag value) block := by
  intro rest blocks hrest
  rw [readBlocks_element hu ht hv, h, hrest]
  rfl

theorem readBlocks_of_readsAs {bytes : Bytes} {block : Block} (h : ReadsAs bytes block) :
    readBlocks bytes = some [block] := by
  have hb := h [] [] (by rw [readBlocks])
  rwa [List.append_nil] at hb

theorem readBlocks_flatten {items : List Bytes} {blocks : List Block} (h : List.Forall₂ ReadsAs items blocks) :
    readBlocks items.flatten = some blocks := by
  induction h with
  | nil =>
    rw [List.flatten_nil, readBlocks]
  | cons hitem _ ih =>
    rw [List.flatten_cons]
    exact hitem _ _ ih

theorem readsAs_sequence {items : List Bytes} {block : Block} {blocks : List Block}
    (h : List.Forall₂ ReadsAs items (block :: blocks)) (hl : items.flatten.length < UInt64.size) :
    ReadsAs (sequence items) (.sequence (block :: blocks)) := by
  refine readsAs_element (by decide) (by decide) hl ?_
  show blockOf? 16 items.flatten = _
  rw [blockOf?, if_pos (Or.inl rfl), readBlocks_flatten h]
  rfl

theorem readsAs_null : ReadsAs null .other :=
  readsAs_element (by decide) (by decide) (by decide) rfl

theorem readsAs_bitString {bytes : Bytes} (hl : bytes.length + 1 < UInt64.size) :
    ReadsAs (bitString bytes) (.bytes bytes) :=
  readsAs_element (by decide) (by decide) hl rfl

theorem readsAs_identifier {a b : Nat} {arcs : List Nat} (h : a < 2 ∧ b < 40 ∨ a = 2 ∧ b < 176)
    (hl : (arcs.flatMap encodeBase128).length + 1 < UInt64.size) :
    ReadsAs (identifier (a :: b :: arcs)) (.identifier (a :: b :: arcs)) := by
  refine readsAs_element (by decide) (by decide) hl ?_
  show (readIdentifier _).map Block.identifier = _
  rw [readIdentifier_written h]
  rfl

/-- what is read as a block alone is read by itself -/
theorem read_of_readsAs {bytes : Bytes} {block : Block} (h : ReadsAs bytes block) : read bytes = some [block] := by
  rw [read, readBlocks_of_readsAs h]

/-! ## sizes -/

/-- a length takes as many bytes as a length of a machine word has, and one more -/
theorem length_encodeLength_le {n : Nat} (h : n < UInt64.size) : (encodeLength n).length ≤ 9 := by
  have hd : (Bytes.digits n).length ≤ 8 := Bytes.length_digits_le h
  rw [encodeLength]
  split
  · exact (by decide : 1 ≤ 9)
  · rw [List.length_cons]
    exact Nat.succ_le_succ hd

theorem length_element_le {tag : UInt8} {value : Bytes} (h : value.length < UInt64.size) :
    (element tag value).length ≤ value.length + 10 := by
  have hl := length_encodeLength_le h
  rw [element, List.length_append, List.length_cons]
  omega

end BearerCredentials.Der
