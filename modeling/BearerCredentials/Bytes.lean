/-!
# Bytes

Byte strings as lists, their reading as numbers with the most significant byte first, and the UTF-8 form
of a text.

* `Bytes.toNat`, `Bytes.ofNat`: a number from its bytes, and its lowest bytes.
* `Bytes.digits`: the bytes of a number, as many as it needs; `Bytes.toNat_digits` reads them back.
* `utf8`, `ofUtf8?`: the bytes of a text, and the text of bytes that are one.
* `ofUtf8?_eq_some_iff`: the reading accepts exactly what the writing produces.
-/

namespace BearerCredentials

abbrev Bytes := List UInt8

namespace Bytes

/-- the number whose base-256 digits are the bytes, the most significant one first -/
def toNat (bytes : Bytes) : Nat :=
  bytes.foldl (fun n b => n * 256 + b.toNat) 0

/-- the lowest `count` bytes of a number, the most significant one first -/
def ofNat (count : Nat) (n : Nat) : Bytes :=
  (List.range count).reverse.map fun i => UInt8.ofNat (n >>> (8 * i))

/-- the base-256 digits of a number, the most significant one first; zero has none -/
def digits (n : Nat) : Bytes :=
  if n = 0 then [] else digits (n / 256) ++ [UInt8.ofNat n]
termination_by n
decreasing_by omega

/-- the bytewise exclusive or, as long as the shorter of the two -/
def xor (xs ys : Bytes) : Bytes :=
  List.zipWith (· ^^^ ·) xs ys

theorem toNat_concat (bytes : Bytes) (b : UInt8) : toNat (bytes ++ [b]) = toNat bytes * 256 + b.toNat := by
  rw [toNat, List.foldl_append]
  rfl

theorem toNat_digits (n : Nat) : toNat (digits n) = n := by
  fun_induction digits n with
  | case1 => rfl
  | case2 n _ ih =>
    rw [toNat_concat, ih, UInt8.toNat_ofNat']
    omega

/-- a number below `256 ^ k` has at most `k` digits -/
theorem length_digits_le {n k : Nat} (h : n < Nat.pow 256 k) : (digits n).length ≤ k := by
  induction k generalizing n with
  | zero =>
    obtain rfl : n = 0 := Nat.lt_one_iff.1 h
    unfold digits
    exact Nat.le_refl 0
  | succ k ih =>
    unfold digits
    split
    · exact Nat.zero_le _
    · have hk : n / 256 < Nat.pow 256 k := Nat.div_lt_of_lt_mul (Nat.mul_comm _ _ ▸ h)
      rw [List.length_append]
      exact Nat.succ_le_succ (ih hk)

end Bytes

/-- the UTF-8 form of a text -/
def utf8 (s : String) : Bytes :=
  s.toList.flatMap String.utf8EncodeChar

/-- the text whose UTF-8 form the bytes are -/
def ofUtf8? (bytes : Bytes) : Option String :=
  String.fromUTF8? bytes.toByteArray

theorem toByteArray_utf8 (s : String) : (utf8 s).toByteArray = s.toByteArray :=
  String.utf8Encode_toList

theorem eq_of_toByteArray_eq {xs ys : Bytes} (h : xs.toByteArray = ys.toByteArray) : xs = ys := by
  have hd := congrArg ByteArray.data h
  simpa using hd

theorem ofUtf8?_eq_some_iff {bytes : Bytes} {s : String} : ofUtf8? bytes = some s ↔ bytes = utf8 s := by
  rw [ofUtf8?, String.fromUTF8?]
  constructor
  · intro h
    split at h
    · obtain rfl := Option.some.inj h
      refine eq_of_toByteArray_eq ?_
      rw [toByteArray_utf8]
      rfl
    · simp at h
  · rintro rfl
    rw [toByteArray_utf8, dif_pos s.isValidUTF8]
    rfl

theorem ofUtf8?_utf8 (s : String) : ofUtf8? (utf8 s) = some s :=
  ofUtf8?_eq_some_iff.2 rfl

end BearerCredentials
