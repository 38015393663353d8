import BearerCredentials.Bytes
import Mathlib.Data.String.Basic
import Mathlib.Tactic.SplitIfs

/-!
# The order of texts and of their bytes

Texts are ordered by code point. Their UTF-8 forms are in the same order, byte by byte.

* `cons_digit_lt`          the order of numbers by one digit and what follows it;
* `utf8EncodeChar_lt`      a character with a greater code point has greater bytes, whatever follows;
* `utf8_lt_utf8`           a greater text has greater bytes.
-/

namespace BearerCredentials

theorem cons_lt_of_lt {a b : Nat} {xs ys : Bytes} (hb : b < 256) (h : a < b) :
    UInt8.ofNat a :: xs < UInt8.ofNat b :: ys := by
  refine List.cons_lt_cons_iff.2 (Or.inl ?_)
  rw [UInt8.lt_iff_toNat_lt, UInt8.toNat_ofNat', UInt8.toNat_ofNat']
  omega

/-- numbers with digits in base `m`, of which the first one has the place value `q`: what follows the digits is
compared where they are equal -/
theorem cons_digit_lt {v w q m lead : Nat} {xs ys : Bytes} (hq : 0 < q) (hm : 0 < m) (hlead : m + lead ≤ 256)
    (h : v % (q * m) < w % (q * m)) (hrest : v % q < w % q → xs < ys) :
    UInt8.ofNat (v / q % m + lead) :: xs < UInt8.ofNat (w / q % m + lead) :: ys := by
  have hw : w / q % m < m := Nat.mod_lt _ hm
  rw [Nat.mod_mul, Nat.mod_mul] at h
  rcases Nat.lt_trichotomy (v / q % m) (w / q % m) with hlt | heq | hgt
  · exact cons_lt_of_lt (by omega) (by omega)
  · rw [heq] at h ⊢
    exact List.cons_lt_cons_iff.2 (Or.inr ⟨rfl, hrest (Nat.lt_of_add_lt_add_right h)⟩)
  · exfalso
    have hmul : q * (w / q % m + 1) ≤ q * (v / q % m) := Nat.mul_le_mul_left q hgt
    have hlt : w % q < q := Nat.mod_lt w hq
    rw [Nat.mul_add] at hmul
    omega

/-- the last byte -/
theorem cons_last_lt {v w : Nat} {xs ys : Bytes} (h : v % 64 < w % 64) :
    UInt8.ofNat (v % 64 + 128) :: xs < UInt8.ofNat (w % 64 + 128) :: ys :=
  cons_lt_of_lt (by omega) (by omega)

/-- **A greater character has greater bytes**, whatever follows them. -/
theorem utf8EncodeChar_lt {c d : Char} (h : c < d) (xs ys : Bytes) :
    String.utf8EncodeChar c ++ xs < String.utf8EncodeChar d ++ ys := by
  have hv : c.val.toNat < d.val.toNat := h
  have hd : d.val.toNat < 0x110000 := by
    rcases d.valid with hlow | hhigh
    · exact Nat.lt_trans hlow (by decide)
    · exact hhigh.2
  unfold String.utf8EncodeChar
  dsimp only
  generalize c.val.toNat = v at hv ⊢
  generalize d.val.toNat = w at hv hd ⊢
  split_ifs
  -- a greater character has no shorter form
  any_goals omega
  -- of forms of different length, and of single bytes, the first bytes are compared
  any_goals refine cons_lt_of_lt ?_ ?_ <;> omega
  · exact cons_digit_lt (q := 64) (by decide) (by decide) (by decide) (by omega) cons_last_lt
  · refine cons_digit_lt (q := 4096) (by decide) (by decide) (by decide) (by omega) fun h => ?_
    exact cons_digit_lt (q := 64) (by decide) (by decide) (by decide) h cons_last_lt
  · refine cons_digit_lt (q := 262144) (by decide) (by decide) (by decide) (by omega) fun h => ?_
    refine cons_digit_lt (q := 4096) (by decide) (by decide) (by decide) h fun h => ?_
    exact cons_digit_lt (q := 64) (by decide) (by decide) (by decide) h cons_last_lt

/-- **A greater text has greater bytes.** -/
theorem utf8_lt_utf8 {s t : String} (h : s < t) : utf8 s < utf8 t := by
  have hl : s.toList < t.toList := String.lt_iff_toList_lt.1 h
  unfold utf8
  generalize s.toList = cs at hl ⊢
  generalize t.toList = ds at hl ⊢
  induction cs generalizing ds with
  | nil =>
    cases ds with
    | nil => cases hl
    | cons d ds =>
      have hd : String.utf8EncodeChar d ≠ [] := String.utf8EncodeChar_ne_nil
      obtain ⟨b, bs, hb⟩ := List.exists_cons_of_ne_nil hd
      rw [List.flatMap_cons, hb]
      exact .nil
  | cons c cs ih =>
    cases ds with
    | nil => cases hl
    | cons d ds =>
      rw [List.flatMap_cons, List.flatMap_cons]
      rcases List.cons_lt_cons_iff.1 hl with hlt | ⟨rfl, hrest⟩
      · exact utf8EncodeChar_lt hlt _ _
      · exact List.append_left_lt (ih ds hrest)

end BearerCredentials
