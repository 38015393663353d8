import BearerCredentials.Base64.Lemmas
import BearerCredentials.Text.Blank

/-!
# The symbols of base64

* `IsUrlSymbol`, `isUrlSymbol_of_mem`   the characters of the form that is safe in an address;
* `mem_encode`                          a written form consists of symbols;
* `mark_notMem_encodePadded`            the standard form has none of the two marks;
* `eq_of_encode_eq_encodePadded`        the two forms of different bytes are different;
* `decodeLoose`                         a reading that minds neither padding nor unused bits;
* `decodeLoose_of_decode`               it agrees with the exact one wherever that reads anything.
-/

namespace BearerCredentials.Base64

/-! ## which characters occur -/

theorem mem_encode {a : Alphabet} {bytes : Bytes} {c : Char} (h : c ∈ encode a bytes) :
    ∃ n : Fin 64, c = a.symbol n := by
  fun_induction encode a bytes with
  | case1 => exact absurd h List.not_mem_nil
  | case2 x =>
    have hx := x.toNat_lt
    simp only [List.mem_cons, List.not_mem_nil, or_false] at h
    rcases h with h | h
    · exact ⟨⟨_, by omega⟩, h⟩
    · exact ⟨⟨_, by omega⟩, h⟩
  | case3 x y =>
    have hx := x.toNat_lt
    have hy := y.toNat_lt
    simp only [List.mem_cons, List.not_mem_nil, or_false] at h
    rcases h with h | h | h
    · exact ⟨⟨_, by omega⟩, h⟩
    · exact ⟨⟨_, by omega⟩, h⟩
    · exact ⟨⟨_, by omega⟩, h⟩
  | case4 x y z rest ih =>
    have hx := x.toNat_lt
    have hy := y.toNat_lt
    have hz := z.toNat_lt
    simp only [List.mem_cons] at h
    rcases h with h | h | h | h | h
    · exact ⟨⟨_, by omega⟩, h⟩
    · exact ⟨⟨_, by omega⟩, h⟩
    · exact ⟨⟨_, by omega⟩, h⟩
    · exact ⟨⟨_, by omega⟩, h⟩
    · exact ih h

theorem mem_of_decode {a : Alphabet} {cs : List Char} {bytes : Bytes} (h : decode a cs = some bytes)
    {c : Char} (hc : c ∈ cs) : ∃ n : Fin 64, c = a.symbol n := by
  rw [decode_eq_some_iff] at h
  exact mem_encode (h ▸ hc)

theorem mem_encodePadded {a : Alphabet} {bytes : Bytes} {c : Char} (h : c ∈ encodePadded a bytes) :
    c = '=' ∨ ∃ n : Fin 64, c = a.symbol n := by
  rcases List.mem_append.1 h with h | h
  · exact Or.inr (mem_encode h)
  · exact Or.inl (List.eq_of_mem_replicate h)

/-- a letter or digit, or one of the two marks that are safe in an address -/
def IsUrlSymbol (c : Char) : Prop :=
  ('A' ≤ c ∧ c ≤ 'Z') ∨ ('a' ≤ c ∧ c ≤ 'z') ∨ ('0' ≤ c ∧ c ≤ '9') ∨ c = '-' ∨ c = '_'

instance (c : Char) : Decidable (IsUrlSymbol c) := by
  unfold IsUrlSymbol
  infer_instance

theorem isUrlSymbol_of_all {cs : List Char} (h : (cs.all fun c => decide (IsUrlSymbol c)) = true) :
    ∀ c ∈ cs, IsUrlSymbol c :=
  fun c hc => of_decide_eq_true (List.all_eq_true.1 h c hc)

theorem isUrlSymbol_symbol : ∀ n : Fin 64, IsUrlSymbol (Alphabet.url.symbol n) := by decide

theorem isBlank_symbol (a : Alphabet) : ∀ n : Fin 64, Text.isBlank (a.symbol n) = false := by
  cases a <;> decide

theorem isUrlSymbol_of_mem {cs : List Char} {bytes : Bytes} (h : decode .url cs = some bytes) :
    ∀ c ∈ cs, IsUrlSymbol c := by
  intro c hc
  obtain ⟨n, rfl⟩ := mem_of_decode h hc
  exact isUrlSymbol_symbol n

theorem IsUrlSymbol.ne_point {c : Char} (h : IsUrlSymbol c) : c ≠ '.' := by
  rintro rfl
  exact absurd h (by decide)

theorem IsUrlSymbol.toNat_lt {c : Char} (h : IsUrlSymbol c) : c.toNat < 128 := by
  rcases h with ⟨-, h⟩ | ⟨-, h⟩ | ⟨-, h⟩ | rfl | rfl
  · exact Nat.lt_of_le_of_lt (le_toNat h) (by decide)
  · exact Nat.lt_of_le_of_lt (le_toNat h) (by decide)
  · exact Nat.lt_of_le_of_lt (le_toNat h) (by decide)
  · decide
  · decide

theorem not_blank_of_isUrlSymbol : ∀ n : Fin 128, IsUrlSymbol (Char.ofNat n) →
    Text.isBlank (Char.ofNat n) = false := by decide

theorem IsUrlSymbol.not_blank {c : Char} (h : IsUrlSymbol c) : Text.isBlank c = false := by
  have hn := not_blank_of_isUrlSymbol ⟨c.toNat, h.toNat_lt⟩
  rw [Char.ofNat_toNat] at hn
  exact hn h

/-! ## the two forms -/

theorem isBlank_of_mem_encodePadded {bytes : Bytes} {c : Char} (h : c ∈ encodePadded .standard bytes) :
    Text.isBlank c = false := by
  rcases mem_encodePadded h with rfl | ⟨n, rfl⟩
  · decide
  · exact isBlank_symbol .standard n

theorem symbol_standard_ne_mark : ∀ n : Fin 64,
    Alphabet.standard.symbol n ≠ '-' ∧ Alphabet.standard.symbol n ≠ '_' := by decide

/-- the marks that are safe in an address do not occur in the standard form -/
theorem mark_notMem_encodePadded {c : Char} (hc : c = '-' ∨ c = '_') (bytes : Bytes) :
    ¬ c ∈ encodePadded .standard bytes := by
  intro h
  rcases mem_encodePadded h with rfl | ⟨n, rfl⟩
  · exact absurd hc (by decide)
  · exact hc.elim (symbol_standard_ne_mark n).1 (symbol_standard_ne_mark n).2

theorem encode_ne_nil {a : Alphabet} {bytes : Bytes} (h : bytes ≠ []) : encode a bytes ≠ [] := by
  intro e
  have hd := decode_encode a bytes
  rw [e] at hd
  exact h (Option.some.inj hd).symm

theorem eq_of_encode_eq_encodePadded {a : Alphabet} {xs ys : Bytes} (h : encode a xs = encodePadded a ys) :
    xs = ys := by
  have hx : (encode a xs ++ padding 0).takeWhile (· != '=') = encode a xs := takeWhile_encode_append a xs 0
  rw [show padding 0 = [] from rfl, List.append_nil] at hx
  have he : encode a xs = encode a ys := by rw [← hx, h, encodePadded, takeWhile_encode_append]
  have hd := decode_encode a xs
  rw [he, decode_encode] at hd
  exact (Option.some.inj hd).symm

/-! ## a loose reading -/

/-- the bytes of some numbers of six bits; bits that fill no byte are dropped -/
def looseBytes : List Nat → Bytes
  | p :: q :: r :: s :: rest =>
    UInt8.ofNat (p * 4 + q / 16) :: UInt8.ofNat (q % 16 * 16 + r / 4) :: UInt8.ofNat (r % 4 * 64 + s) ::
      looseBytes rest
  | [p, q, r] => [UInt8.ofNat (p * 4 + q / 16), UInt8.ofNat (q % 16 * 16 + r / 4)]
  | [p, q] => [UInt8.ofNat (p * 4 + q / 16)]
  | _ => []

/-- a reading that drops everything from the first `=` on, and bits that fill no byte -/
def decodeLoose (a : Alphabet) (cs : List Char) : Option Bytes :=
  ((cs.takeWhile (· != '=')).mapM a.number?).map looseBytes

theorem mapM_number?_of_decode {a : Alphabet} {cs : List Char} {bytes : Bytes}
    (h : decode a cs = some bytes) : (cs.mapM a.number?).map looseBytes = some bytes := by
  fun_induction decode a cs generalizing bytes with
  | case1 => simpa [looseBytes] using h
  | case2 => cases h
  | case3 p q =>
    obtain ⟨m, hp, h⟩ := Option.bind_eq_some_iff.1 h
    obtain ⟨n, hq, h⟩ := Option.bind_eq_some_iff.1 h
    split at h
    · simpa [hp, hq, looseBytes] using h
    · cases h
  | case4 p q r =>
    obtain ⟨k, hp, h⟩ := Option.bind_eq_some_iff.1 h
    obtain ⟨m, hq, h⟩ := Option.bind_eq_some_iff.1 h
    obtain ⟨n, hr, h⟩ := Option.bind_eq_some_iff.1 h
    split at h
    · simpa [hp, hq, hr, looseBytes] using h
    · cases h
  | case5 p q r s rest ih =>
    obtain ⟨j, hp, h⟩ := Option.bind_eq_some_iff.1 h
    obtain ⟨k, hq, h⟩ := Option.bind_eq_some_iff.1 h
    obtain ⟨m, hr, h⟩ := Option.bind_eq_some_iff.1 h
    obtain ⟨n, hs, h⟩ := Option.bind_eq_some_iff.1 h
    obtain ⟨tail, hb, h⟩ := Option.bind_eq_some_iff.1 h
    obtain ⟨numbers, hn, e⟩ := Option.map_eq_some_iff.1 (ih hb)
    simpa [hp, hq, hr, hs, hn, looseBytes, e] using h

theorem decodeLoose_of_decode {a : Alphabet} {cs : List Char} {bytes : Bytes}
    (h : decode a cs = some bytes) : decodeLoose a cs = some bytes := by
  have hpad : ∀ c ∈ cs, (c != '=') = true := by
    intro c hc
    rw [decode_eq_some_iff] at h
    simpa using ne_pad_of_mem_encode a (h ▸ hc)
  have htake : cs.takeWhile (· != '=') = cs := by
    have ht : (cs ++ []).takeWhile (· != '=') = cs ++ [].takeWhile (· != '=') :=
      List.takeWhile_append_of_pos hpad
    rwa [List.append_nil, List.takeWhile_nil, List.append_nil] at ht
  rw [decodeLoose, htake]
  exact mapM_number?_of_decode h

end BearerCredentials.Base64
