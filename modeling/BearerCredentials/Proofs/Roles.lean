import BearerCredentials.Proofs.Json.Ends
import BearerCredentials.Proofs.NameMap
import BearerCredentials.Proofs.Text.ByteOrder
import BearerCredentials.Proofs.Text.Pieces
import BearerCredentials.Claims

/-!
# The roles of a claim

* `Names`                the roles that a claim names, said for each shape on its own;
* `mem_rolesOf_iff`      they are the roles of the claim;
* `rolesOf_normal`       roles are trimmed and listed in ascending order, and stay the same as an array;
* `rolesOf_composes`     the roles of two texts or arrays that are put together, and the two shapes of a list.
-/

namespace BearerCredentials.RoleClaim

variable {claim : Option Json} {items : List Json} {names : List String} {s role : String}

/-- the roles of a claim, or of its absence -/
def rolesOf (claim : Option Json) : NameSet := (ofClaim claim).roles

/-- a role that a claim names -/
inductive Names : Option Json → String → Prop
  | piece {s piece role : String} {pieces : List String} :
      Text.IsSplit ',' s pieces → piece ∈ pieces → Text.TrimsTo piece role → role ≠ "" → Names (some (.text s)) role
  | item {items : List Json} {v : Json} {role : String} :
      v ∈ items → v ≠ .null → Text.TrimsTo (claimText v) role → role ≠ "" → Names (some (.array items)) role
  | bool {b : Bool} : Names (some (.bool b)) (Json.bool b).compact
  | number {n : Json.Number} : Names (some (.number n)) (Json.number n).compact
  | object {members : List (String × Json)} : Names (some (.object members)) (Json.object members).compact

/-! ## the roles of each shape -/

theorem mem_normalized_iff : role ∈ normalized names ↔ role ≠ "" ∧ ∃ name ∈ names, Text.trim name = role := by
  rw [normalized, NameSet.mem_ofList, List.mem_filter, List.mem_map, Bool.not_eq_true', String.isEmpty_eq_false_iff]
  exact and_comm

theorem mem_rolesOf_text :
    role ∈ rolesOf (some (.text s)) ↔ role ≠ "" ∧ ∃ piece ∈ Text.split ',' s, Text.trim piece = role :=
  mem_normalized_iff

theorem isNull_eq_false_iff {v : Json} : v.isNull = false ↔ v ≠ .null := by
  cases v <;> simp [Json.isNull]

theorem mem_rolesOf_array :
    role ∈ rolesOf (some (.array items)) ↔
      role ≠ "" ∧ ∃ v ∈ items, v ≠ .null ∧ Text.trim (claimText v) = role := by
  have h : role ∈ rolesOf (some (.array items)) ↔
      role ≠ "" ∧ ∃ name ∈ (items.filter fun v => !v.isNull).map claimText, Text.trim name = role := mem_normalized_iff
  rw [h]
  simp only [List.mem_map, List.mem_filter, Bool.not_eq_true', isNull_eq_false_iff]
  constructor
  · rintro ⟨hne, name, ⟨v, ⟨hv, hnull⟩, rfl⟩, ht⟩
    exact ⟨hne, v, hv, hnull, ht⟩
  · rintro ⟨hne, v, hv, hnull, ht⟩
    exact ⟨hne, _, ⟨v, ⟨hv, hnull⟩, rfl⟩, ht⟩

theorem mem_rolesOf_scalar {v : Json} (h : rolesOf (some v) = NameSet.ofList [claimText v]) :
    role ∈ rolesOf (some v) ↔ role = claimText v := by
  rw [h, NameSet.mem_ofList, List.mem_singleton]

/-- **The roles of a claim are those that it names.** -/
theorem mem_rolesOf_iff : role ∈ rolesOf claim ↔ Names claim role := by
  constructor
  · intro h
    cases claim with
    | none => exact absurd h (NameSet.not_mem_empty role)
    | some v =>
      cases v with
      | null => exact absurd h (NameSet.not_mem_empty role)
      | text s =>
        obtain ⟨hne, piece, hp, rfl⟩ := mem_rolesOf_text.1 h
        exact .piece (Text.isSplit_split ',' s) hp (Text.trimsTo_trim piece) hne
      | array items =>
        obtain ⟨hne, v, hv, hnull, rfl⟩ := mem_rolesOf_array.1 h
        exact .item hv hnull (Text.trimsTo_trim _) hne
      | bool b =>
        obtain rfl := (mem_rolesOf_scalar rfl).1 h
        exact .bool
      | number n =>
        obtain rfl := (mem_rolesOf_scalar rfl).1 h
        exact .number
      | object members =>
        obtain rfl := (mem_rolesOf_scalar rfl).1 h
        exact .object
  · intro h
    cases h with
    | piece hs hp ht hne =>
      obtain rfl := Text.split_eq_iff_isSplit.2 hs
      exact mem_rolesOf_text.2 ⟨hne, _, hp, ht.trim_eq⟩
    | item hv hnull ht hne => exact mem_rolesOf_array.2 ⟨hne, _, hv, hnull, ht.trim_eq⟩
    | bool => exact (mem_rolesOf_scalar rfl).2 rfl
    | number => exact (mem_rolesOf_scalar rfl).2 rfl
    | object => exact (mem_rolesOf_scalar rfl).2 rfl

/-! ## the normal form -/

/-- a role is neither empty nor has it blanks at its ends, whatever value it is the text of -/
theorem Names.trimmed (h : Names claim role) : role ≠ "" ∧ Text.Trimmed role.toList := by
  cases h with
  | piece hs hp ht hne => exact ⟨hne, ht.trimmed⟩
  | item hv hnull ht hne => exact ⟨hne, ht.trimmed⟩
  | bool => exact (Json.trimmed_compact _).symm
  | number => exact (Json.trimmed_compact _).symm
  | object => exact (Json.trimmed_compact _).symm

theorem Names.comma_notMem (h : Names (some (.text s)) role) : ¬ ',' ∈ role.toList := by
  cases h with
  | piece hs hp ht hne => exact fun hc => hs.notMem _ hp (ht.isInfix.subset hc)

theorem trimmed_of_mem_rolesOf (h : role ∈ (rolesOf claim).toList) : role ≠ "" ∧ Text.Trimmed role.toList :=
  (mem_rolesOf_iff.1 h).trimmed

/-- names that are trimmed are normalised already -/
theorem mem_normalized_of_trimmed (h : ∀ name ∈ names, name ≠ "" ∧ Text.Trimmed name.toList) :
    role ∈ normalized names ↔ role ∈ names := by
  have htrim {name : String} (hn : name ∈ names) : Text.trim name = name := (h name hn).2.trim_eq
  rw [mem_normalized_iff]
  constructor
  · rintro ⟨-, name, hn, rfl⟩
    rwa [htrim hn]
  · intro hr
    exact ⟨(h role hr).1, role, hr, htrim hr⟩

/-- the roles of an array of texts -/
theorem rolesOf_texts (names : List String) : rolesOf (some (.array (names.map .text))) = normalized names := by
  have hfilter : (names.map Json.text).filter (fun v => !v.isNull) = names.map .text :=
    List.filter_eq_self.2 fun v hv => by
      obtain ⟨name, -, rfl⟩ := List.mem_map.1 hv
      rfl
  show normalized (((names.map Json.text).filter fun v => !v.isNull).map claimText) = normalized names
  rw [hfilter, List.map_map, show claimText ∘ Json.text = id from rfl, List.map_id]

/-- roles in an array are the same roles -/
theorem rolesOf_texts_rolesOf (claim : Option Json) :
    rolesOf (some (.array ((rolesOf claim).toList.map .text))) = rolesOf claim := by
  rw [rolesOf_texts]
  exact NameSet.ext fun role => mem_normalized_of_trimmed fun name => trimmed_of_mem_rolesOf

/-- **Roles are in normal form.** A claim has the roles that it names: of a text the pieces between commas, of an array
the texts of its items, trimmed and without empty ones, and of any other value its text. So no role is empty or has
blanks at its ends, and those of a text have no comma; they are listed in strictly ascending order of their bytes, and
in an array they are the same roles again. -/
theorem rolesOf_normal (claim : Option Json) :
    (∀ role, role ∈ (rolesOf claim).toList ↔ Names claim role) ∧
      (∀ role ∈ (rolesOf claim).toList, role ≠ "" ∧ Text.Trimmed role.toList) ∧
      ((rolesOf claim).toList.map utf8).Pairwise (· < ·) ∧
      (∀ s, claim = some (.text s) → ∀ role ∈ (rolesOf claim).toList, ¬ ',' ∈ role.toList) ∧
      rolesOf (some (.array ((rolesOf claim).toList.map .text))) = rolesOf claim := by
  refine ⟨fun role => mem_rolesOf_iff, fun role => trimmed_of_mem_rolesOf, ?_, ?_, rolesOf_texts_rolesOf claim⟩
  · exact List.pairwise_map.2 ((rolesOf claim).ascending.imp utf8_lt_utf8)
  · rintro s rfl role hr
    exact (mem_rolesOf_iff.1 hr).comma_notMem

theorem rolesOf_normal_padded :
    Names (some (.text ", b c\u00a0,a,,a")) "b c" ∧ ("b c" ≠ "" ∧ Text.Trimmed "b c".toList) ∧ ¬ ',' ∈ "b c".toList := by
  have h : "b c" ∈ (rolesOf (some (.text ", b c\u00a0,a,,a"))).toList := by decide +kernel
  obtain ⟨hnames, htrimmed, -, hcomma, -⟩ := rolesOf_normal (some (.text ", b c\u00a0,a,,a"))
  exact ⟨(hnames _).1 h, htrimmed _ h, hcomma _ rfl _ h⟩

/-! ## lists that are put together -/

theorem mem_normalized_append {names' : List String} :
    role ∈ normalized (names ++ names') ↔ role ∈ normalized names ∨ role ∈ normalized names' := by
  simp only [mem_normalized_iff, List.mem_append, or_and_right, exists_or, and_or_left]

theorem mem_rolesOf_comma (s t : String) :
    role ∈ rolesOf (some (.text (s ++ "," ++ t))) ↔
      role ∈ rolesOf (some (.text s)) ∨ role ∈ rolesOf (some (.text t)) := by
  have h : rolesOf (some (.text (s ++ "," ++ t))) = normalized (Text.split ',' s ++ Text.split ',' t) :=
    congrArg normalized (Text.split_append ',' s t)
  rw [h]
  exact mem_normalized_append

theorem mem_rolesOf_append {items' : List Json} :
    role ∈ rolesOf (some (.array (items ++ items'))) ↔
      role ∈ rolesOf (some (.array items)) ∨ role ∈ rolesOf (some (.array items')) := by
  simp only [mem_rolesOf_array, List.mem_append, or_and_right, exists_or, and_or_left]

/-- an item that may be a role -/
def IsNamed (v : Json) : Prop := v ≠ .null ∧ Text.allBlank (claimText v) = false

/-- the items that are no roles do not matter, nor do order and repetition -/
theorem rolesOf_array_congr {items' : List Json} (h : ∀ v, IsNamed v → (v ∈ items ↔ v ∈ items')) :
    rolesOf (some (.array items)) = rolesOf (some (.array items')) := by
  have hsub {xs ys : List Json} (h : ∀ v, IsNamed v → v ∈ xs → v ∈ ys) {role : String}
      (hr : role ∈ rolesOf (some (.array xs))) : role ∈ rolesOf (some (.array ys)) := by
    obtain ⟨hne, v, hv, hnull, rfl⟩ := mem_rolesOf_array.1 hr
    have hblank : Text.allBlank (claimText v) = false := by
      rw [← Text.isEmpty_trim]
      exact String.isEmpty_eq_false_iff.2 hne
    exact mem_rolesOf_array.2 ⟨hne, v, h v ⟨hnull, hblank⟩ hv, hnull, rfl⟩
  exact NameSet.ext fun role => ⟨hsub fun v hn => (h v hn).1, hsub fun v hn => (h v hn).2⟩

/-- names that are trimmed and have no comma are the roles of their text -/
theorem mem_rolesOf_join (h : ∀ name ∈ names, name ≠ "" ∧ Text.Trimmed name.toList)
    (hc : ∀ name ∈ names, ¬ ',' ∈ name.toList) :
    role ∈ rolesOf (some (.text (String.intercalate "," names))) ↔ role ∈ names := by
  cases names with
  | nil =>
    have hs : rolesOf (some (.text "")) = ∅ := by decide
    show role ∈ rolesOf (some (.text "")) ↔ _
    rw [hs]
    exact ⟨fun hr => absurd hr (NameSet.not_mem_empty role), nofun⟩
  | cons name names =>
    have hs : Text.split ',' (String.intercalate "," (name :: names)) = name :: names :=
      Text.split_eq_iff_isSplit.2 ⟨List.cons_ne_nil _ _, hc, rfl⟩
    show role ∈ normalized (Text.split ',' (String.intercalate "," (name :: names))) ↔ _
    rw [hs]
    exact mem_normalized_of_trimmed h

/-- **The two shapes of a list agree, and lists can be put together.** -/
theorem rolesOf_composes :
    (∀ s t role, role ∈ rolesOf (some (.text (s ++ "," ++ t))) ↔
        role ∈ rolesOf (some (.text s)) ∨ role ∈ rolesOf (some (.text t))) ∧
      (∀ items items' role, role ∈ rolesOf (some (.array (items ++ items'))) ↔
        role ∈ rolesOf (some (.array items)) ∨ role ∈ rolesOf (some (.array items'))) ∧
      (∀ items items', (∀ v, IsNamed v → (v ∈ items ↔ v ∈ items')) →
        rolesOf (some (.array items)) = rolesOf (some (.array items'))) ∧
      ∀ s, (∃ pieces, Text.IsSplit ',' s pieces ∧
          rolesOf (some (.text s)) = rolesOf (some (.array (pieces.map .text)))) ∧
        rolesOf (some (.text (String.intercalate "," (rolesOf (some (.text s))).toList))) = rolesOf (some (.text s)) := by
  refine ⟨fun s t role => mem_rolesOf_comma s t, fun xs ys role => mem_rolesOf_append,
    fun xs ys => rolesOf_array_congr, fun s => ⟨⟨_, Text.isSplit_split ',' s, (rolesOf_texts _).symm⟩, ?_⟩⟩
  refine NameSet.ext fun role => mem_rolesOf_join (fun name => trimmed_of_mem_rolesOf) fun name hn => ?_
  exact (mem_rolesOf_iff.1 hn).comma_notMem

theorem rolesOf_composes_shuffled :
    rolesOf (some (.array [.text "a", .null, .text "b"])) =
      rolesOf (some (.array [.text "b", .text " ", .text "a", .text "a"])) := by
  refine rolesOf_composes.2.2.1 _ _ fun v hv => ?_
  have hblank : v ≠ .text " " := by
    rintro rfl
    exact absurd hv.2 (by decide)
  simp only [List.mem_cons, List.not_mem_nil, or_false, hv.1, hblank, false_or, or_self]
  exact or_comm

end BearerCredentials.RoleClaim
