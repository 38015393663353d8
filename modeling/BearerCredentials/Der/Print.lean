import BearerCredentials.Der

/-!
# Written nested data

Elements with tags of one byte and lengths in their shortest form.

* `element`: a tag with its value; `readElement_element` says that it is read back, whatever follows.
* `sequence`, `identifier`, `bitString`, `null`: the elements that public keys are written with.
-/

namespace BearerCredentials.Der

def encodeLength (n : Nat) : Bytes :=
  if n < 128 then [UInt8.ofNat n]
  else UInt8.ofNat (128 + (Bytes.digits n).length) :: Bytes.digits n

def element (tag : UInt8) (value : Bytes) : Bytes :=
  tag :: encodeLength value.length ++ value

def sequence (items : List Bytes) : Bytes := element 0x30 items.flatten

/-- the element without a value -/
def null : Bytes := element 0x05 []

def bitString (bytes : Bytes) : Bytes := element 0x03 (0 :: bytes)

/-- the base-128 digits of a number, with the highest bit set; zero has none -/
def marked128 (n : Nat) : Bytes :=
  if n = 0 then [] else marked128 (n / 128) ++ [UInt8.ofNat (128 + n % 128)]
termination_by n
decreasing_by omega

/-- a number in base 128, the last digit of which has the highest bit clear -/
def encodeBase128 (n : Nat) : Bytes :=
  marked128 (n / 128) ++ [UInt8.ofNat (n % 128)]

/-- an object identifier, whose first two arcs share a byte -/
def identifier (arcs : List Nat) : Bytes :=
  match arcs with
  | a :: b :: arcs => element 0x06 (UInt8.ofNat (a * 40 + b) :: arcs.flatMap encodeBase128)
  | _ => element 0x06 []

theorem readLength_encodeLength {n : Nat} (h : n < UInt64.size) (rest : Bytes) :
    readLength (encodeLength n ++ rest) = some (n, rest) := by
  have hl : (Bytes.digits n).length ≤ 8 := Bytes.length_digits_le h
  unfold encodeLength
  split
  · rename_i hn
    have hb : (UInt8.ofNat n).toNat = n := by
      rw [UInt8.toNat_ofNat']
      omega
    have hlt : UInt8.ofNat n < 128 := UInt8.lt_iff_toNat_lt.2 (hb.symm ▸ hn)
    simp only [List.singleton_append, readLength, if_pos hlt, hb]
  · have hb : (UInt8.ofNat (128 + (Bytes.digits n).length)).toNat = 128 + (Bytes.digits n).length := by
      rw [UInt8.toNat_ofNat']
      omega
    have hge : ¬ UInt8.ofNat (128 + (Bytes.digits n).length) < 128 := by
      rw [UInt8.lt_iff_toNat_lt, hb]
      exact Nat.not_lt.2 (Nat.le_add_right _ _)
    have hc : ¬ (8 < (Bytes.digits n).length ∨ (Bytes.digits n ++ rest).length < (Bytes.digits n).length) := by
      rw [List.length_append]
      omega
    simp only [List.cons_append, readLength, if_neg hge, hb, Nat.add_sub_cancel_left, if_neg hc,
      List.take_left', List.drop_left', Bytes.toNat_digits]

theorem readTag_of_short {tag : UInt8} (h : tag.toNat % 32 ≠ 31) (rest : Bytes) :
    readTag (tag :: rest) = some (⟨tag.toNat / 64 = 0, tag.toNat % 32⟩, rest) := by
  simp only [readTag, if_neg h]

/-- what is written is read back, whatever follows -/
theorem readElement_element {tag : UInt8} {value : Bytes} (ht : tag.toNat % 32 ≠ 31)
    (hv : value.length < UInt64.size) (rest : Bytes) :
    readElement (element tag value ++ rest) =
      some ⟨⟨tag.toNat / 64 = 0, tag.toNat % 32⟩, value, rest⟩ := by
  have hl : value.length ≤ (value ++ rest).length := by
    rw [List.length_append]
    exact Nat.le_add_right _ _
  simp only [readElement, element, List.cons_append, List.append_assoc, readTag_of_short ht,
    readLength_encodeLength hv, Option.bind_eq_bind, Option.bind_some, if_pos hl,
    List.take_left', List.drop_left']

end BearerCredentials.Der
