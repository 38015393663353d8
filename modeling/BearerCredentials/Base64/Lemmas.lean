import BearerCredentials.Base64

/-!
# Base64: reading undoes writing

* `decode_eq_some_iff`: the form without padding is read exactly where it is the written form of some bytes.
* `decodePadded_eq_some_iff`: the same for the form with padding.
-/

namespace BearerCredentials.Base64

theorem le_toNat {c d : Char} (h : c ≤ d) : c.toNat ≤ d.toNat := h

theorem Alphabet.number?_symbol (a : Alphabet) : ∀ n : Fin 64, a.number? (a.symbol n) = some n.1 := by
  cases a <;> decide

/-- each character with a number is the symbol of that number -/
theorem Alphabet.number?_eq_some {a : Alphabet} {c : Char} {n : Nat} (h : a.number? c = some n) :
    n < 64 ∧ a.symbol n = c := by
  unfold Alphabet.number? at h
  split at h
  · rename_i hc
    have h1 := le_toNat hc.1
    have h2 := le_toNat hc.2
    obtain rfl := Option.some.inj h
    simp only [Char.reduceToNat] at h1 h2 ⊢
    refine ⟨by omega, ?_⟩
    rw [symbol, if_pos (by omega), show 'A'.toNat + (c.toNat - 65) = c.toNat from by
      simp only [Char.reduceToNat]; omega, Char.ofNat_toNat]
  split at h
  · rename_i hc
    have h1 := le_toNat hc.1
    have h2 := le_toNat hc.2
    obtain rfl := Option.some.inj h
    simp only [Char.reduceToNat] at h1 h2 ⊢
    refine ⟨by omega, ?_⟩
    rw [symbol, if_neg (by omega), if_pos (by omega),
      show 'a'.toNat + (c.toNat - 97 + 26 - 26) = c.toNat from by
        simp only [Char.reduceToNat]; omega, Char.ofNat_toNat]
  split at h
  · rename_i hc
    have h1 := le_toNat hc.1
    have h2 := le_toNat hc.2
    obtain rfl := Option.some.inj h
    simp only [Char.reduceToNat] at h1 h2 ⊢
    refine ⟨by omega, ?_⟩
    rw [symbol, if_neg (by omega), if_neg (by omega), if_pos (by omega),
      show '0'.toNat + (c.toNat - 48 + 52 - 52) = c.toNat from by
        simp only [Char.reduceToNat]; omega, Char.ofNat_toNat]
  split at h
  · obtain rfl := Option.some.inj h
    simp_all [symbol]
  split at h
  · obtain rfl := Option.some.inj h
    simp_all [symbol]
  · simp at h

theorem Alphabet.number?_symbol_of_lt (a : Alphabet) {n : Nat} (h : n < 64) :
    a.number? (a.symbol n) = some n :=
  a.number?_symbol ⟨n, h⟩

theorem ofNat_eq {n : Nat} {b : UInt8} (h : n = b.toNat) : UInt8.ofNat n = b := by
  subst h
  simp

theorem decode_encode (a : Alphabet) (bytes : Bytes) : decode a (encode a bytes) = some bytes := by
  have hn {n : Nat} (h : n < 64) := a.number?_symbol_of_lt h
  fun_induction encode a bytes with
  | case1 => rfl
  | case2 x =>
    have hx := x.toNat_lt
    rw [decode, hn (by omega), hn (by omega)]
    simp only [Option.bind_eq_bind, Option.bind_some]
    rw [if_pos (by omega), ofNat_eq (b := x) (by omega)]
  | case3 x y =>
    have hx := x.toNat_lt
    have hy := y.toNat_lt
    rw [decode, hn (by omega), hn (by omega), hn (by omega)]
    simp only [Option.bind_eq_bind, Option.bind_some]
    rw [if_pos (by omega), ofNat_eq (b := x) (by omega), ofNat_eq (b := y) (by omega)]
  | case4 x y z rest ih =>
    have hx := x.toNat_lt
    have hy := y.toNat_lt
    have hz := z.toNat_lt
    rw [decode, hn (by omega), hn (by omega), hn (by omega), hn (by omega), ih]
    simp only [Option.bind_eq_bind, Option.bind_some]
    rw [ofNat_eq (b := x) (by omega), ofNat_eq (b := y) (by omega), ofNat_eq (b := z) (by omega)]

theorem encode_of_decode (a : Alphabet) {cs : List Char} {bytes : Bytes} (h : decode a cs = some bytes) :
    encode a bytes = cs := by
  have hsize : UInt8.size = 256 := rfl
  fun_induction decode a cs generalizing bytes with
  | case1 => obtain rfl := Option.some.inj h; rfl
  | case2 => simp at h
  | case3 p q =>
    obtain ⟨m, hp, h⟩ := Option.bind_eq_some_iff.1 h
    obtain ⟨n, hq, h⟩ := Option.bind_eq_some_iff.1 h
    obtain ⟨hm, ep⟩ := Alphabet.number?_eq_some hp
    obtain ⟨hn, eq⟩ := Alphabet.number?_eq_some hq
    split at h
    · obtain rfl := Option.some.inj h
      rw [encode, UInt8.toNat_ofNat_of_lt' (by omega), show (m * 4 + n / 16) / 4 = m from by omega,
        show (m * 4 + n / 16) % 4 * 16 = n from by omega, ep, eq]
    · simp at h
  | case4 p q r =>
    obtain ⟨k, hp, h⟩ := Option.bind_eq_some_iff.1 h
    obtain ⟨m, hq, h⟩ := Option.bind_eq_some_iff.1 h
    obtain ⟨n, hr, h⟩ := Option.bind_eq_some_iff.1 h
    obtain ⟨hk, ep⟩ := Alphabet.number?_eq_some hp
    obtain ⟨hm, eq⟩ := Alphabet.number?_eq_some hq
    obtain ⟨hn, er⟩ := Alphabet.number?_eq_some hr
    split at h
    · obtain rfl := Option.some.inj h
      rw [encode, UInt8.toNat_ofNat_of_lt' (by omega), UInt8.toNat_ofNat_of_lt' (by omega),
        show (k * 4 + m / 16) / 4 = k from by omega,
        show (k * 4 + m / 16) % 4 * 16 + (m % 16 * 16 + n / 4) / 16 = m from by omega,
        show (m % 16 * 16 + n / 4) % 16 * 4 = n from by omega, ep, eq, er]
    · simp at h
  | case5 p q r s rest ih =>
    obtain ⟨j, hp, h⟩ := Option.bind_eq_some_iff.1 h
    obtain ⟨k, hq, h⟩ := Option.bind_eq_some_iff.1 h
    obtain ⟨m, hr, h⟩ := Option.bind_eq_some_iff.1 h
    obtain ⟨n, hs, h⟩ := Option.bind_eq_some_iff.1 h
    obtain ⟨bytes, hb, h⟩ := Option.bind_eq_some_iff.1 h
    obtain ⟨hj, ep⟩ := Alphabet.number?_eq_some hp
    obtain ⟨hk, eq⟩ := Alphabet.number?_eq_some hq
    obtain ⟨hm, er⟩ := Alphabet.number?_eq_some hr
    obtain ⟨hn, es⟩ := Alphabet.number?_eq_some hs
    obtain rfl := Option.some.inj h
    rw [encode, UInt8.toNat_ofNat_of_lt' (by omega), UInt8.toNat_ofNat_of_lt' (by omega),
      UInt8.toNat_ofNat_of_lt' (by omega),
      show (j * 4 + k / 16) / 4 = j from by omega,
      show (j * 4 + k / 16) % 4 * 16 + (k % 16 * 16 + m / 4) / 16 = k from by omega,
      show (k % 16 * 16 + m / 4) % 16 * 4 + (m % 4 * 64 + n) / 64 = m from by omega,
      show (m % 4 * 64 + n) % 64 = n from by omega, ep, eq, er, es, ih hb]

theorem decode_eq_some_iff (a : Alphabet) {cs : List Char} {bytes : Bytes} :
    decode a cs = some bytes ↔ cs = encode a bytes :=
  ⟨fun h => (encode_of_decode a h).symm, fun h => h ▸ decode_encode a bytes⟩

theorem Alphabet.number?_pad (a : Alphabet) : a.number? '=' = none := by
  cases a <;> rfl

theorem Alphabet.symbol_ne_pad (a : Alphabet) (n : Nat) : a.symbol n ≠ '=' := by
  by_cases h : n < 64
  · intro e
    have hs := a.number?_symbol_of_lt h
    rw [e, a.number?_pad] at hs
    simp at hs
  · rw [symbol, if_neg (by omega), if_neg (by omega), if_neg (by omega), if_neg (by omega)]
    cases a <;> decide

theorem ne_pad_of_mem_encode (a : Alphabet) {bytes : Bytes} {c : Char} (h : c ∈ encode a bytes) :
    c ≠ '=' := by
  have hs := a.symbol_ne_pad
  fun_induction encode a bytes <;> grind

theorem takeWhile_encode_append (a : Alphabet) (bytes : Bytes) (n : Nat) :
    (encode a bytes ++ padding n).takeWhile (· != '=') = encode a bytes := by
  rw [List.takeWhile_append_of_pos fun c hc => by simp [ne_pad_of_mem_encode a hc]]
  unfold padding
  cases (4 - n % 4) % 4 <;> simp [List.replicate_succ]

theorem decodePadded_eq_some_iff (a : Alphabet) {cs : List Char} {bytes : Bytes} :
    decodePadded a cs = some bytes ↔ cs = encodePadded a bytes := by
  unfold decodePadded encodePadded
  constructor
  · intro h
    simp only at h
    split at h
    · rename_i hc
      rw [decode_eq_some_iff] at h
      rw [hc, h]
    · simp at h
  · rintro rfl
    simp only [takeWhile_encode_append, if_true, decode_encode]

end BearerCredentials.Base64
