import BearerCredentials.Proofs.Json.Members
import BearerCredentials.Proofs.Token.Validity
import BearerCredentials.Token.Validity
import Mathlib.Data.Option.Basic

/-!
# The two readings of a payload agree

A payload is read as an object, of whose members with one name the last counts, and as a record of its
registered claims, which fails where one of them is repeated. Both readings see the same instants.

* `Validity.accept?`, `ofMembers?_concat`   what one more member means for the time that is given;
* `Registered.put_eq_ok_iff`                a field of the record means the same;
* `Registered.ofMembers_eq_ok_iff`          so all members do, one after the other;
* `Validity.read_eq_ok_iff`                 the record of a text gives the time that its members give.
-/

namespace BearerCredentials.Token

variable {members before after : Members} {name key : String} {w : Json}

/-! ## one more member -/

theorem member?_append : member? key (before ++ after) = (member? key before).or (member? key after) :=
  List.lookup_append

theorem member?_concat (h : name = key → key ∉ before.map Prod.fst) :
    member? key (before ++ [(name, w)]) = if key = name then some w else member? key before := by
  rw [member?_append, member?, member?]
  by_cases hk : key = name
  · subst hk
    have hb : before.lookup key = none := by
      rw [List.lookup_eq_none_iff]
      intro m hm
      exact bne_iff_ne.2 fun e => h rfl (List.mem_map.2 ⟨m, hm, e.symm⟩)
    rw [if_pos rfl, hb, Option.none_or, List.lookup_cons_self]
  · rw [if_neg hk, lookup_cons_ne hk, List.lookup_nil, Option.or_none]

theorem occurrences_append : occurrences name (before ++ after) = occurrences name before + occurrences name after :=
  List.countP_append

theorem occurrences_eq_zero_iff : occurrences name members = 0 ↔ name ∉ members.map Prod.fst := by
  rw [occurrences, List.countP_eq_zero]
  constructor
  · intro h hm
    obtain ⟨m, hm, e⟩ := List.mem_map.1 hm
    exact h m hm (beq_iff_eq.2 e)
  · intro h m hm e
    exact h (List.mem_map.2 ⟨m, hm, beq_iff_eq.1 e⟩)

theorem noneRepeated_iff {names : List String} :
    noneRepeated names members = true ↔ ∀ name ∈ names, occurrences name members ≤ 1 := by
  rw [noneRepeated, List.all_eq_true]
  simp only [decide_eq_true_eq]

namespace Validity

variable {v v' : Validity}

/-- the time that is given with one more member, where it was `v` before -/
def accept? (v : Validity) (name : String) (w : Json) : Option Validity :=
  match name with
  | "exp" => (instant? w).map fun e => { v with expires := some e }
  | "nbf" => (instant? w).map fun s => { v with starts := some s }
  | "sub" => if isSubject w then some v else none
  | _ => some v

theorem accept?_of_ne (he : name ≠ "exp") (hn : name ≠ "nbf") (hs : name ≠ "sub") :
    accept? v name w = some v := by
  unfold accept?
  split
  · exact absurd rfl he
  · exact absurd rfl hn
  · exact absurd rfl hs
  · rfl

theorem accept?_of_notMem (h : name ∉ registered) : accept? v name w = some v := by
  refine accept?_of_ne ?_ ?_ ?_ <;> exact fun e => h (e ▸ by decide)

/-- each part of the time is given by the member of one name -/
theorem accept?_eq_some_iff :
    accept? v name w = some v' ↔
      ("sub" = name → isSubject w = true) ∧
        (if "exp" = name then (instant? w).map some else some v.expires) = some v'.expires ∧
        (if "nbf" = name then (instant? w).map some else some v.starts) = some v'.starts := by
  obtain ⟨expires, starts⟩ := v
  obtain ⟨expires', starts'⟩ := v'
  unfold accept?
  split
  · cases instant? w <;> simp
  · cases instant? w <;> simp
  · cases isSubject w <;> simp
  · rename_i he hs hsub
    simp [Ne.symm he, Ne.symm hs, Ne.symm hsub]

theorem ofMembers?_eq_some_iff :
    ofMembers? members = some v ↔
      noneRepeated registered members = true ∧ (member? "sub" members).all isSubject = true ∧
        instantOf? "exp" members = some v.expires ∧ instantOf? "nbf" members = some v.starts := by
  obtain ⟨expires, starts⟩ := v
  simp [ofMembers?, Option.guard_eq_some', Option.bind_eq_some_iff]

theorem instantOf?_concat (h : name = key → key ∉ before.map Prod.fst) :
    instantOf? key (before ++ [(name, w)]) =
      if key = name then (instant? w).map some else instantOf? key before := by
  rw [instantOf?, member?_concat h]
  by_cases hk : key = name
  · rw [if_pos hk, if_pos hk]
  · rw [if_neg hk, if_neg hk]
    rfl

theorem noneRepeated_concat (h : noneRepeated registered before = true)
    (hnew : name ∈ registered → name ∉ before.map Prod.fst) :
    noneRepeated registered (before ++ [(name, w)]) = true := by
  refine noneRepeated_iff.2 fun key hkey => ?_
  rw [occurrences_append]
  by_cases hk : name = key
  · subst hk
    rw [occurrences_eq_zero_iff.2 (hnew hkey), Nat.zero_add]
    exact List.countP_le_length
  · have hone : occurrences key [(name, w)] = 0 :=
      occurrences_eq_zero_iff.2 fun hm => hk (List.mem_singleton.1 hm).symm
    rw [hone]
    exact noneRepeated_iff.1 h key hkey

/-- **One more member gives what is accepted after the others**, if its name is none of a registered claim
that is there already. -/
theorem ofMembers?_concat (h : ofMembers? before = some v)
    (hnew : name ∈ registered → name ∉ before.map Prod.fst) :
    ofMembers? (before ++ [(name, w)]) = accept? v name w := by
  obtain ⟨hnone, hsub, hexp, hnbf⟩ := ofMembers?_eq_some_iff.1 h
  have hkey {key : String} (hr : key ∈ registered) : name = key → key ∉ before.map Prod.fst := by
    rintro rfl
    exact hnew hr
  apply Option.ext
  intro v'
  rw [ofMembers?_eq_some_iff, accept?_eq_some_iff, noneRepeated_concat hnone hnew,
    member?_concat (hkey (by decide)), instantOf?_concat (hkey (by decide)),
    instantOf?_concat (hkey (by decide)), hexp, hnbf]
  by_cases hs : "sub" = name
  · simp [hs]
  · simp [hs, hsub]

/-- a registered claim that is there already -/
theorem ofMembers?_repeated (hr : name ∈ registered) (hb : name ∈ before.map Prod.fst) :
    ofMembers? (before ++ (name, w) :: after) = none := by
  rw [Option.eq_none_iff_forall_ne_some]
  intro v h
  have hle := noneRepeated_iff.1 (ofMembers?_eq_some_iff.1 h).1 name hr
  have hpos : occurrences name before ≠ 0 := fun e => occurrences_eq_zero_iff.1 e hb
  have hpos' : occurrences name ((name, w) :: after) ≠ 0 :=
    fun e => occurrences_eq_zero_iff.1 e (List.mem_cons_self)
  rw [occurrences_append] at hle
  omega

theorem exists_instantOf?_of_append {e : Option Nat} (h : instantOf? key (before ++ after) = some e) :
    ∃ e', instantOf? key before = some e' := by
  unfold instantOf? at h ⊢
  cases hm : member? key before with
  | none => exact ⟨none, rfl⟩
  | some w =>
    rw [member?_append, hm, Option.some_or] at h
    exact ⟨e, h⟩

/-- members that give a time still do when the last ones are left out -/
theorem exists_ofMembers?_of_append (h : ofMembers? (before ++ after) = some v) :
    ∃ v', ofMembers? before = some v' := by
  obtain ⟨hnone, hsub, hexp, hnbf⟩ := ofMembers?_eq_some_iff.1 h
  obtain ⟨expires, hexpires⟩ := exists_instantOf?_of_append hexp
  obtain ⟨starts, hstarts⟩ := exists_instantOf?_of_append hnbf
  refine ⟨⟨expires, starts⟩, ofMembers?_eq_some_iff.2 ⟨?_, ?_, hexpires, hstarts⟩⟩
  · refine noneRepeated_iff.2 fun key hkey => ?_
    have hle := noneRepeated_iff.1 hnone key hkey
    rw [occurrences_append] at hle
    omega
  · cases hm : member? "sub" before with
    | none => rfl
    | some w =>
      rw [member?_append, hm, Option.some_or] at hsub
      exact hsub

end Validity

namespace Registered

variable {d d' : Draft} {o : Json.Outline} {field : Json.Spelled × Json.Outline} {depth : Nat}

/-! ## fields of the record -/

theorem readInstant_eq_ok_iff (h : Json.ofOutline depth o = .ok w) {e : Nat} :
    readInstant o = .ok e ↔ Validity.instant? w = some e := by
  constructor
  · intro he
    cases o with
    | number numeral =>
      obtain ⟨n, hn, rfl⟩ := Outcome.map_eq_ok_iff.1 h
      obtain ⟨n', hn', he⟩ := Outcome.bind_eq_ok_iff.1 he
      obtain rfl := Except.ok.inj (hn.symm.trans hn')
      show n.rounded? = some e
      split at he
      · rename_i hr
        cases he
        exact hr
      · cases he
    | _ => cases he
  · intro he
    cases w with
    | number n =>
      obtain ⟨numeral, rfl, hv⟩ := Json.exists_numeral_of_ofOutline h
      have hr : n.rounded? = some e := he
      refine Outcome.bind_eq_ok_iff.2 ⟨n, ?_, ?_⟩
      · rw [Json.Numeral.value, hv]
      · rw [hr]
        rfl
    | _ => cases he

theorem readSubject_eq_ok_iff (h : Json.ofOutline depth o = .ok w) :
    readSubject o = .ok () ↔ Validity.isSubject w = true := by
  cases o with
  | array items tear =>
    cases depth with
    | zero => cases h
    | succ depth =>
      obtain ⟨vs, -, h⟩ := Outcome.bind_eq_ok_iff.1 h
      obtain ⟨-, rfl⟩ := Json.closed_eq_ok_iff.1 h
      simp [readSubject, Validity.isSubject]
  | object fields tear =>
    obtain ⟨ms, rfl⟩ := Json.exists_of_ofOutline_object h
    simp [readSubject, Validity.isSubject]
  | null =>
    cases h
    exact iff_of_true rfl rfl
  | bool b =>
    cases h
    exact iff_of_true rfl rfl
  | number numeral =>
    obtain ⟨n, -, rfl⟩ := Outcome.map_eq_ok_iff.1 h
    exact iff_of_true (Outcome.map_eq_ok_iff.2 ⟨_, h, rfl⟩) rfl
  | text s =>
    obtain ⟨t, -, rfl⟩ := Outcome.map_eq_ok_iff.1 h
    exact iff_of_true (Outcome.map_eq_ok_iff.2 ⟨_, h, rfl⟩) rfl
  | broken reading skipping => cases h

/-- **A field of the record means what its member means for the time.** -/
theorem put_eq_ok_iff (h : Json.ofOutline (Json.maxDepth - 1) o = .ok w) :
    put d name o = .ok d' ↔
      ∃ v, d.validity.accept? name w = some v ∧ d' = ⟨name :: d.names, v.expires, v.starts⟩ := by
  unfold put
  split
  · constructor
    · intro hd
      obtain ⟨e, he, hd⟩ := Outcome.bind_eq_ok_iff.1 hd
      cases hd
      exact ⟨⟨some e, d.starts⟩, Option.map_eq_some_iff.2 ⟨e, (readInstant_eq_ok_iff h).1 he, rfl⟩, rfl⟩
    · rintro ⟨v, hv, rfl⟩
      obtain ⟨e, he, rfl⟩ := Option.map_eq_some_iff.1 hv
      exact Outcome.bind_eq_ok_iff.2 ⟨e, (readInstant_eq_ok_iff h).2 he, rfl⟩
  · constructor
    · intro hd
      obtain ⟨s, hs, hd⟩ := Outcome.bind_eq_ok_iff.1 hd
      cases hd
      exact ⟨⟨d.expires, some s⟩, Option.map_eq_some_iff.2 ⟨s, (readInstant_eq_ok_iff h).1 hs, rfl⟩, rfl⟩
    · rintro ⟨v, hv, rfl⟩
      obtain ⟨s, hs, rfl⟩ := Option.map_eq_some_iff.1 hv
      exact Outcome.bind_eq_ok_iff.2 ⟨s, (readInstant_eq_ok_iff h).2 hs, rfl⟩
  · constructor
    · intro hd
      obtain ⟨_, hs, hd⟩ := Outcome.bind_eq_ok_iff.1 hd
      cases hd
      exact ⟨d.validity, if_pos ((readSubject_eq_ok_iff h).1 hs), rfl⟩
    · rintro ⟨v, hv, rfl⟩
      obtain ⟨hs, hv⟩ := Option.ite_none_right_eq_some.1 hv
      cases hv
      exact Outcome.bind_eq_ok_iff.2 ⟨(), (readSubject_eq_ok_iff h).2 hs, rfl⟩
  · rename_i he hn hs
    rw [Validity.accept?_of_ne he hn hs]
    constructor
    · intro hd
      obtain ⟨_, -, hd⟩ := Outcome.bind_eq_ok_iff.1 hd
      cases hd
      exact ⟨d.validity, rfl, rfl⟩
    · rintro ⟨v, hv, rfl⟩
      cases hv
      exact Outcome.bind_eq_ok_iff.2 ⟨(), Outcome.map_eq_ok_iff.2 ⟨w, h, rfl⟩, rfl⟩

/-! ## all members -/

/-- a draft holds what some members have given -/
structure Draft.Holds (d : Draft) (before : Members) : Prop where
  names : ∀ name, name ∈ d.names ↔ name ∈ Validity.registered ∧ name ∈ before.map Prod.fst
  validity : Validity.ofMembers? before = some d.validity

theorem Draft.holds_nil : Draft.Holds {} [] where
  names := fun name => by simp
  validity := rfl

/-- another member is passed over -/
theorem Draft.Holds.skip (hd : d.Holds before) (hr : name ∉ Validity.registered) :
    d.Holds (before ++ [(name, w)]) where
  names := by
    intro key
    rw [hd.names, List.map_append, List.mem_append]
    constructor
    · rintro ⟨hk, hb⟩
      exact ⟨hk, Or.inl hb⟩
    · rintro ⟨hk, hb | hb⟩
      · exact ⟨hk, hb⟩
      · obtain rfl : key = name := List.mem_singleton.1 hb
        exact absurd hk hr
  validity := by
    rw [Validity.ofMembers?_concat hd.validity fun h => absurd h hr, Validity.accept?_of_notMem hr]

theorem Draft.Holds.put {v : Validity} (hd : d.Holds before) (hr : name ∈ Validity.registered)
    (hnew : name ∉ before.map Prod.fst) (hv : d.validity.accept? name w = some v) :
    Draft.Holds ⟨name :: d.names, v.expires, v.starts⟩ (before ++ [(name, w)]) where
  names := by
    intro key
    rw [List.mem_cons, hd.names, List.map_append, List.mem_append]
    constructor
    · rintro (rfl | ⟨hk, hb⟩)
      · exact ⟨hr, Or.inr (List.mem_singleton_self _)⟩
      · exact ⟨hk, Or.inl hb⟩
    · rintro ⟨hk, hb | hb⟩
      · exact Or.inr ⟨hk, hb⟩
      · exact Or.inl (List.mem_singleton.1 hb)
  validity := by
    rw [Validity.ofMembers?_concat hd.validity fun _ => hnew, hv]
    rfl

section
variable {draft : Type} {r : Json.Record draft} {d d' : draft} {spelled : Json.Spelled}
  {rest : List (Json.Spelled × Json.Outline)}

theorem ofMembers_cons_of_notMem (hs : spelled.text = .ok name) (hr : name ∉ r.fields)
    (ho : o.skip = .ok ()) : r.ofMembers d ((spelled, o) :: rest) = r.ofMembers d rest := by
  have hc : r.fields.contains name = false := by
    rw [← Bool.not_eq_true, List.contains_iff_mem]
    exact hr
  rw [Json.Record.ofMembers, hs]
  show (if r.fields.contains name = true then _ else _) = _
  rw [hc, if_neg Bool.false_ne_true, ho]
  rfl

theorem ofMembers_cons_of_mem (hs : spelled.text = .ok name) (hr : name ∈ r.fields) :
    r.ofMembers d ((spelled, o) :: rest) =
      if r.has d name = true then .error .mismatch else r.put d name o >>= fun d => r.ofMembers d rest := by
  rw [Json.Record.ofMembers, hs]
  show (if r.fields.contains name = true then _ else _) = _
  rw [if_pos (List.contains_iff_mem.2 hr)]
  rfl

end

variable {fields : List (Json.Spelled × Json.Outline)} {v : Validity}

/-- **The record of the members that are left is what all members give.** -/
theorem ofMembers_eq_ok_iff (h : List.Forall₂ (Json.ReadsAs (Json.maxDepth - 1)) fields after)
    (hd : d.Holds before) :
    (∃ d', record.ofMembers d fields = .ok d' ∧ d'.validity = v) ↔
      Validity.ofMembers? (before ++ after) = some v := by
  induction h generalizing before d with
  | nil =>
    rw [List.append_nil, hd.validity, Option.some.injEq]
    constructor
    · rintro ⟨d', hd', hv⟩
      cases hd'
      exact hv
    · intro hv
      exact ⟨d, rfl, hv⟩
  | @cons field m fields after hm _ ih =>
    obtain ⟨spelled, o⟩ := field
    obtain ⟨name, w⟩ := m
    obtain ⟨hs, ho⟩ := hm
    have happend : before ++ (name, w) :: after = (before ++ [(name, w)]) ++ after := by
      rw [List.append_assoc, List.singleton_append]
    by_cases hr : name ∈ Validity.registered
    · rw [ofMembers_cons_of_mem hs hr]
      by_cases hb : name ∈ before.map Prod.fst
      · -- a second one
        have hhas : record.has d name = true := List.contains_iff_mem.2 ((hd.names name).2 ⟨hr, hb⟩)
        rw [if_pos hhas, Validity.ofMembers?_repeated hr hb]
        simp
      · have hhas : ¬ record.has d name = true := fun hc => hb ((hd.names name).1 (List.contains_iff_mem.1 hc)).2
        rw [if_neg hhas, happend]
        cases hv : d.validity.accept? name w with
        | some v' =>
          have hput : record.put d name o = .ok ⟨name :: d.names, v'.expires, v'.starts⟩ :=
            (put_eq_ok_iff ho).2 ⟨v', hv, rfl⟩
          rw [hput]
          exact ih (hd.put hr hb hv)
        | none =>
          constructor
          · rintro ⟨d', hd', -⟩
            obtain ⟨d₁, hput, -⟩ := Outcome.bind_eq_ok_iff.1 hd'
            obtain ⟨v', hv', -⟩ := (put_eq_ok_iff ho).1 hput
            rw [hv] at hv'
            cases hv'
          · intro hall
            obtain ⟨v', hv'⟩ := Validity.exists_ofMembers?_of_append hall
            rw [Validity.ofMembers?_concat hd.validity fun _ => hb, hv] at hv'
            cases hv'
    · rw [ofMembers_cons_of_notMem hs hr (Json.skip_of_ofOutline o ho), happend]
      exact ih (hd.skip hr)

end Registered

namespace Validity

/-- **The record of a text gives the time that its members give.** -/
theorem read_eq_ok_iff {s : String} {v : Validity} (h : Json.read s = .ok (.object members)) :
    read s = .ok v ↔ ofMembers? members = some v := by
  obtain ⟨fields, hs, hmembers⟩ := Json.read_eq_object_iff.1 h
  have hrecord := Registered.ofMembers_eq_ok_iff (v := v) hmembers Registered.Draft.holds_nil
  rw [List.nil_append] at hrecord
  rw [read, Json.Outline.Document.read_eq_ok_iff, hs, ← hrecord]
  constructor
  · rintro ⟨ho, -⟩
    obtain ⟨d, hd, ho⟩ := Outcome.bind_eq_ok_iff.1 ho
    cases ho
    exact ⟨d, hd, rfl⟩
  · rintro ⟨d, hd, rfl⟩
    exact ⟨Outcome.bind_eq_ok_iff.2 ⟨d, hd, rfl⟩, rfl⟩

end Validity

end BearerCredentials.Token
