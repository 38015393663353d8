import BearerCredentials.Json.Scalar
import Mathlib.Data.Rat.Floor
import Mathlib.Tactic.FieldSimp
import Mathlib.Tactic.Linarith
import Mathlib.Tactic.Ring

/-!
# Rounding numbers to instants

The value of a number as a rational, and the whole number it is rounded to.

* `isShort_of_scale?`                the result of an arithmetic operation has at most 53 significant bits;
* `Json.Number.rounded?_eq_some_iff` which whole number a number is rounded to, if to any;
* `Json.Numeral.rounded?_lt`         what a spelled number is rounded to lies below `2^64`.
-/

namespace BearerCredentials

namespace Binary64

theorem one_pos : 0 < one := by
  unfold one
  generalize 1074 = n
  exact Nat.two_pow_pos n

theorem exists_one_eq : ∃ w, one = 2 ^ w := by
  unfold one
  generalize 1074 = n
  exact ⟨n, rfl⟩

theorem roundToNat_mul_one (e : Nat) : roundToNat (e * one) = e := by
  have hone := one_pos
  have h2 : 0 < 2 * one := Nat.mul_pos (by decide) hone
  have hlt : one < 2 * one := by omega
  have he : 2 * (e * one) + one = one + 2 * one * e := by
    rw [← Nat.mul_assoc, Nat.mul_right_comm, Nat.add_comm]
  rw [roundToNat, he, Nat.add_mul_div_left _ _ h2, Nat.div_eq_of_lt hlt, Nat.zero_add]

/-! ## significant bits -/

/-- magnitudes of at most 53 significant bits -/
def IsShort (u : Nat) : Prop := ∃ m k, m ≤ 2 ^ 53 ∧ u = m * 2 ^ k

theorem isShort_zero : IsShort 0 := ⟨0, 0, Nat.zero_le _, rfl⟩

theorem roundQuotient_le (n d : Nat) : roundQuotient n d ≤ n / d + 1 := by
  have hmod : n / d % 2 ≤ 1 := Nat.le_of_lt_succ (Nat.mod_lt _ (by decide))
  simp only [roundQuotient]
  split
  · exact Nat.le_succ _
  split
  · exact Nat.le_refl _
  · exact Nat.add_le_add_left hmod _

theorem div_spacing_lt (q : Nat) : q / spacing q < 2 ^ 53 := by
  have hq : q < 2 ^ (q.log2 + 1) := Nat.lt_log2_self
  have hle : 2 ^ (q.log2 + 1) ≤ 2 ^ 53 * 2 ^ (q.log2 - 52) := by
    rw [← Nat.pow_add]
    exact Nat.pow_le_pow_right (by decide) (by omega)
  show q / 2 ^ (q.log2 - 52) < 2 ^ 53
  rw [Nat.div_lt_iff_lt_mul (Nat.two_pow_pos _)]
  exact Nat.lt_of_lt_of_le hq hle

theorem isShort_nearest (n d : Nat) : IsShort (nearest n d) := by
  refine ⟨roundQuotient n (d * spacing (n / d)), (n / d).log2 - 52, ?_, rfl⟩
  have hle := roundQuotient_le n (d * spacing (n / d))
  have hlt := div_spacing_lt (n / d)
  rw [Nat.div_div_eq_div_mul] at hlt
  omega

theorem isShort_shrink (u e : Nat) : IsShort (shrink u e) := by
  fun_induction shrink u e with
  | case1 u e _ => exact isShort_nearest _ _
  | case2 => exact isShort_zero
  | case3 u e _ _ ih => exact ih

/-- **The result of scaling has at most 53 significant bits.** -/
theorem isShort_of_scale? {u v : Nat} {e : Int} (h : scale? u e = some v) : IsShort v := by
  unfold scale? at h
  split at h
  · split at h
    · simp only [times?, bounded?] at h
      split at h
      · obtain rfl := Option.some.inj h
        exact isShort_nearest _ _
      · cases h
    split at h
    · obtain rfl := Option.some.inj h
      exact isShort_zero
    · cases h
  · obtain rfl := Option.some.inj h
    exact isShort_shrink _ _

/-- a short magnitude below `2^64` is not rounded up to `2^64` -/
theorem roundToNat_lt {u : Nat} (hs : IsShort u) (h : u < UInt64.size * one) : roundToNat u < UInt64.size := by
  have hone := one_pos
  rw [roundToNat, Nat.div_lt_iff_lt_mul (Nat.mul_pos (by decide) hone)]
  suffices hgap : 2 * u + one < 2 * (UInt64.size * one) by
    rwa [Nat.mul_left_comm]
  obtain ⟨w, hw⟩ := exists_one_eq
  obtain ⟨m, k, hm, rfl⟩ := hs
  rw [hw] at h hone ⊢
  by_cases hk : w ≤ k
  · -- a whole number, which is at least one away
    obtain ⟨j, rfl⟩ := Nat.exists_eq_add_of_le hk
    have he : m * 2 ^ (w + j) = m * 2 ^ j * 2 ^ w := by
      rw [Nat.pow_add, Nat.mul_comm (2 ^ w), ← Nat.mul_assoc]
    rw [he] at h ⊢
    have hlt : m * 2 ^ j + 1 ≤ UInt64.size := Nat.lt_of_mul_lt_mul_right h
    have hle := Nat.mul_le_mul_right (2 ^ w) hlt
    rw [Nat.succ_mul] at hle
    omega
  · -- a fraction, whose 53 bits do not reach up to `2^64`
    have hpow : 2 * 2 ^ k ≤ 2 ^ w := by
      rw [← Nat.pow_succ']
      exact Nat.pow_le_pow_right (by decide) (by omega)
    have hle : 2 * (m * 2 ^ k) ≤ 2 ^ 53 * 2 ^ w := by
      rw [Nat.mul_left_comm]
      exact Nat.mul_le_mul hm hpow
    have hlt : (2 ^ 53 + 1) * 2 ^ w < 2 * UInt64.size * 2 ^ w :=
      Nat.mul_lt_mul_of_pos_right (by decide) hone
    rw [Nat.add_mul, Nat.one_mul, Nat.mul_assoc] at hlt
    omega

/-! ## values -/

/-- the value of a floating point number -/
def toRat (x : Binary64) : ℚ := if x.negative then -(x.units / one) else x.units / one

theorem floor_add_half (u : Nat) : ⌊(u / one : ℚ) + 1 / 2⌋ = roundToNat u := by
  have hone : (one : ℚ) ≠ 0 := Nat.cast_ne_zero.2 (Nat.ne_of_gt one_pos)
  have he : (u / one : ℚ) + 1 / 2 = ((2 * u + one : Nat) : ℤ) / ((2 * one : Nat) : ℚ) := by
    push_cast
    field_simp
  rw [he, Rat.floor_intCast_div_natCast, roundToNat, Int.natCast_ediv]

theorem toRat_of_units {x : Binary64} (h : (x.negative && x.units != 0) = false) :
    x.toRat = x.units / one := by
  unfold toRat
  split
  · rename_i hneg
    rw [hneg, Bool.true_and, bne_eq_false_iff_eq] at h
    rw [h, Nat.cast_zero, zero_div, neg_zero]
  · rfl

theorem toRat_neg {x : Binary64} (h : (x.negative && x.units != 0) = true) : x.toRat < 0 := by
  obtain ⟨hneg, hne⟩ := Bool.and_eq_true_iff.1 h
  have hunits : (0 : ℚ) < x.units := Nat.cast_pos.2 (Nat.pos_of_ne_zero (bne_iff_ne.1 hne))
  have hone : (0 : ℚ) < one := Nat.cast_pos.2 one_pos
  rw [toRat, if_pos hneg]
  exact neg_neg_of_pos (div_pos hunits hone)

theorem div_one_lt_iff {u n : Nat} : (u / one : ℚ) < n ↔ u < n * one := by
  have hone : (0 : ℚ) < one := Nat.cast_pos.2 one_pos
  rw [div_lt_iff₀ hone]
  exact_mod_cast Iff.rfl

end Binary64

/-- the whole number nearest to a rational, away from zero in a tie -/
def roundAway (q : ℚ) : ℤ := if 0 ≤ q then ⌊q + 1 / 2⌋ else -⌊1 / 2 - q⌋

theorem roundAway_intCast {i : ℤ} (h : 0 ≤ i) : roundAway i = i := by
  have hhalf : ⌊(1 / 2 : ℚ)⌋ = 0 := by norm_num
  rw [roundAway, if_pos (Int.cast_nonneg h), Int.floor_intCast_add, hhalf, add_zero]

namespace Json

/-- the value of a number -/
def Number.toRat : Number → ℚ
  | .integer i _ _ => i
  | .float x => x.toRat

theorem Number.rounded?_integer (i : Int) (low high) :
    (integer i low high).rounded? = if i < 0 then none else some i.toNat := rfl

theorem Number.rounded?_float (x : Binary64) :
    (float x).rounded? =
      if (x.negative && x.units != 0) = true ∨ UInt64.size * Binary64.one ≤ x.units then none
      else some (Binary64.roundToNat x.units) := by
  rw [rounded?]
  simp only [Bool.or_eq_true, decide_eq_true_eq]

/-- **A number is rounded to a whole number where it lies between zero and `2^64`.** -/
theorem Number.rounded?_eq_some_iff {n : Number} {e : Nat} :
    n.rounded? = some e ↔ 0 ≤ n.toRat ∧ n.toRat < UInt64.size ∧ roundAway n.toRat = e := by
  cases n with
  | integer i low high =>
    rw [rounded?_integer, toRat, Int.cast_nonneg_iff]
    by_cases hi : i < 0
    · rw [if_pos hi]
      constructor
      · intro h
        cases h
      · rintro ⟨h, -, -⟩
        omega
    · have hi' : 0 ≤ i := by omega
      have hsize : (i : ℚ) < (UInt64.size : ℕ) := by exact_mod_cast high
      rw [if_neg hi, Option.some.injEq, roundAway_intCast hi']
      constructor
      · rintro rfl
        exact ⟨hi', hsize, by omega⟩
      · rintro ⟨-, -, h⟩
        omega
  | float x =>
    rw [rounded?_float, toRat]
    by_cases hneg : (x.negative && x.units != 0) = true
    · have hlt := Binary64.toRat_neg hneg
      rw [if_pos (Or.inl hneg)]
      constructor
      · intro h
        cases h
      · rintro ⟨h, -, -⟩
        exact absurd h (not_le.2 hlt)
    · have hnonneg : (0 : ℚ) ≤ x.units / Binary64.one := div_nonneg (Nat.cast_nonneg _) (Nat.cast_nonneg _)
      rw [Binary64.toRat_of_units (Bool.eq_false_of_not_eq_true hneg), Binary64.div_one_lt_iff, roundAway,
        if_pos hnonneg, Binary64.floor_add_half, Nat.cast_inj]
      by_cases hsize : UInt64.size * Binary64.one ≤ x.units
      · rw [if_pos (Or.inr hsize)]
        constructor
        · intro h
          cases h
        · rintro ⟨-, h, -⟩
          exact absurd hsize (Nat.not_le_of_lt h)
      · rw [if_neg (not_or.2 ⟨hneg, hsize⟩), Option.some.injEq]
        exact ⟨fun h => ⟨hnonneg, Nat.lt_of_not_le hsize, h⟩, fun h => h.2.2⟩

/-- a number that is rounded to a whole number of 64 bits -/
structure Number.RoundsTo (n : Number) (e : Nat) : Prop where
  nonneg : 0 ≤ n.toRat
  nearest : roundAway n.toRat = e
  bounded : e < UInt64.size

theorem Number.RoundsTo.toRat_lt {n : Number} {e : Nat} (h : n.RoundsTo e) : n.toRat < UInt64.size := by
  have hn := h.nearest
  rw [roundAway, if_pos h.nonneg] at hn
  have hlt : n.toRat + 1 / 2 < (e : ℤ) + 1 := Int.floor_le_iff.1 (le_of_eq hn)
  have hle : ((e : ℤ) : ℚ) + 1 ≤ (UInt64.size : ℕ) := by exact_mod_cast h.bounded
  linarith

theorem Number.RoundsTo.rounded? {n : Number} {e : Nat} (h : n.RoundsTo e) : n.rounded? = some e :=
  Number.rounded?_eq_some_iff.2 ⟨h.nonneg, h.toRat_lt, h.nearest⟩

/-! ## spelled numbers -/

theorem Numeral.isShort_of_value? {numeral : Numeral} {x : Binary64} (h : numeral.value? = some (.float x)) :
    Binary64.IsShort x.units := by
  unfold Numeral.value? at h
  split at h
  · split at h
    · cases h
    · cases h
  · obtain ⟨y, hy, he⟩ := Option.map_eq_some_iff.1 h
    cases he
    obtain ⟨units, hu, rfl⟩ := Option.map_eq_some_iff.1 hy
    exact Binary64.isShort_of_scale? hu

/-- **What a spelled number is rounded to lies below `2^64`.** -/
theorem Numeral.rounded?_lt {numeral : Numeral} {n : Number} {e : Nat} (h : numeral.value? = some n)
    (hr : n.rounded? = some e) : e < UInt64.size := by
  cases n with
  | integer i low high =>
    rw [Number.rounded?_integer] at hr
    split at hr
    · cases hr
    · obtain rfl := Option.some.inj hr
      show i.toNat < 18446744073709551616
      omega
  | float x =>
    rw [Number.rounded?_float] at hr
    split at hr
    · cases hr
    · rename_i hc
      obtain rfl := Option.some.inj hr
      exact Binary64.roundToNat_lt (Numeral.isShort_of_value? h) (Nat.lt_of_not_le (not_or.1 hc).2)

theorem Numeral.roundsTo_of_rounded? {numeral : Numeral} {n : Number} {e : Nat} (h : numeral.value? = some n)
    (hr : n.rounded? = some e) : n.RoundsTo e := by
  obtain ⟨hnonneg, -, hnearest⟩ := Number.rounded?_eq_some_iff.1 hr
  exact ⟨hnonneg, hnearest, Numeral.rounded?_lt h hr⟩

end Json

end BearerCredentials
