import BearerCredentials.Proofs.Json.Phrase
import BearerCredentials.Proofs.Json.Record
import BearerCredentials.Proofs.Json.Scanned

/-!
# What is accepted is JSON

The converse of reading phrases: a text whose outline can be passed over is the text of a phrase.

* `skip_of_close`, `skip_fail`    where something is wrong the outline cannot be passed over;
* `Leads`, `Stands`               the text up to a value and up to a place;
* `Stands.step`                   a lexeme leads from one place to the next;
* `exists_phrase_of_ofText`       so a text that is accepted is the text of a phrase;
* `Record.skip_of_ofOutline`      and what is read as a record is accepted.
-/

namespace BearerCredentials.Json

open Outline

variable {fault : Fault} {o : Outline} {root : Outline}

/-! ## what cannot be passed over -/

theorem skipItems_eq_ok_iff {items : List Outline} : skipItems items = .ok () ↔ ∀ o ∈ items, o.skip = .ok () := by
  induction items with
  | nil => exact ⟨nofun, fun _ => rfl⟩
  | cons o items ih =>
    rw [skipItems, Outcome.bind_eq_ok_iff, List.forall_mem_cons, ← ih]
    exact ⟨fun ⟨_, ho, hitems⟩ => ⟨ho, hitems⟩, fun ⟨ho, hitems⟩ => ⟨(), ho, hitems⟩⟩

theorem skipMembers_eq_ok_iff {members : List (Spelled × Outline)} :
    skipMembers members = .ok () ↔ ∀ m ∈ members, m.1.tear = none ∧ m.2.skip = .ok () := by
  induction members with
  | nil => exact ⟨nofun, fun _ => rfl⟩
  | cons m members ih =>
    obtain ⟨name, o⟩ := m
    rw [skipMembers, Outcome.bind_eq_ok_iff, List.forall_mem_cons, ← ih]
    constructor
    · rintro ⟨_, hname, h⟩
      obtain ⟨_, ho, hmembers⟩ := Outcome.bind_eq_ok_iff.1 h
      exact ⟨⟨(closed_eq_ok_iff.1 hname).1, ho⟩, hmembers⟩
    · rintro ⟨⟨hname, ho⟩, hmembers⟩
      exact ⟨(), closed_eq_ok_iff.2 ⟨hname, rfl⟩, Outcome.bind_eq_ok_iff.2 ⟨(), ho, hmembers⟩⟩

theorem skip_array_eq_ok_iff {items : List Outline} {tear : Option Fault} :
    (Outline.array items tear).skip = .ok () ↔ (∀ o ∈ items, o.skip = .ok ()) ∧ tear = none := by
  rw [skip, Outcome.bind_eq_ok_iff, ← skipItems_eq_ok_iff]
  constructor
  · rintro ⟨_, hitems, h⟩
    exact ⟨hitems, (closed_eq_ok_iff.1 h).1⟩
  · rintro ⟨hitems, h⟩
    exact ⟨(), hitems, closed_eq_ok_iff.2 ⟨h, rfl⟩⟩

theorem skip_object_eq_ok_iff {members : List (Spelled × Outline)} {tear : Option Fault} :
    (Outline.object members tear).skip = .ok () ↔
      (∀ m ∈ members, m.1.tear = none ∧ m.2.skip = .ok ()) ∧ tear = none := by
  rw [skip, Outcome.bind_eq_ok_iff, ← skipMembers_eq_ok_iff]
  constructor
  · rintro ⟨_, hmembers, h⟩
    exact ⟨hmembers, (closed_eq_ok_iff.1 h).1⟩
  · rintro ⟨hmembers, h⟩
    exact ⟨(), hmembers, closed_eq_ok_iff.2 ⟨h, rfl⟩⟩

/-- what is enclosed has to be passed over as well -/
theorem skip_of_close {c : Context} (h : (c.close o).skip = .ok ()) : o.skip = .ok () := by
  induction c generalizing o with
  | root => exact h
  | item before outer ih => exact (skip_array_eq_ok_iff.1 (ih h)).1 o (List.mem_reverse.2 List.mem_cons_self)
  | member before key outer ih =>
    exact ((skip_object_eq_ok_iff.1 (ih h)).1 (key, o) (List.mem_reverse.2 List.mem_cons_self)).2

/-- where a text goes wrong it cannot be passed over -/
theorem skip_fail {p : Place} (h : p.fail fault = ⟨root, false⟩) : root.skip ≠ .ok () := by
  intro hs
  cases p with
  | value c =>
    cases h
    cases skip_of_close hs
  | firstItem c =>
    cases h
    cases (skip_array_eq_ok_iff.1 (skip_of_close hs)).2
  | firstName c =>
    cases h
    cases (skip_object_eq_ok_iff.1 (skip_of_close hs)).2
  | name before c =>
    cases h
    cases (skip_object_eq_ok_iff.1 (skip_of_close hs)).2
  | colon before key c =>
    cases h
    have hmem : (key, Outline.broken fault fault) ∈ ((key, .broken fault fault) :: before).reverse :=
      List.mem_reverse.2 List.mem_cons_self
    cases ((skip_object_eq_ok_iff.1 (skip_of_close hs)).1 _ hmem).2
  | after v c =>
    cases c with
    | root => cases h
    | item before outer =>
      cases h
      cases (skip_array_eq_ok_iff.1 (skip_of_close hs)).2
    | member before key outer =>
      cases h
      cases (skip_object_eq_ok_iff.1 (skip_of_close hs)).2

/-- a text may end after a value only -/
theorem eq_after_of_finish {p : Place} (h : p.finish = ⟨root, false⟩) (hs : root.skip = .ok ()) :
    p = .after root .root := by
  unfold Place.finish at h
  split at h
  · cases h
    rfl
  · exact absurd hs (skip_fail h)

/-- where a text breaks off in a lexeme it cannot be passed over -/
theorem skip_torn {l : Lexeme} {p : Place} (hl : l.IsTorn) (h : p.run [l] = ⟨root, false⟩) : root.skip ≠ .ok () := by
  intro hs
  rw [Place.run] at h
  cases hstep : p.step? l with
  | none =>
    rw [hstep] at h
    exact skip_fail h hs
  | some p' =>
    rw [hstep] at h
    -- nothing follows the lexeme, so it is all there is
    obtain rfl := eq_after_of_finish h hs
    cases p with
    | value c =>
      cases hl with
      | unreadable =>
        cases hstep
        cases hs
      | text =>
        cases hstep
        cases hs
    | firstItem c => cases hl <;> cases hstep
    | firstName c => cases hl <;> cases hstep
    | name before c => cases hl <;> cases hstep
    | colon before key c => cases hl <;> cases hstep
    | after v c => cases hl <;> cases c <;> cases hstep

/-! ## the text that leads to a place -/

/-- items with a comma after each -/
def itemsBefore (items : List (Padded Phrase)) : List Char := (itemTexts items).flatMap (· ++ [','])

/-- members with a comma after each -/
def membersBefore (members : List Member) : List Char := (memberTexts members).flatMap (· ++ [','])

/-- the text up to a value, in which what encloses the value is opened and not closed -/
inductive Leads : Context → List Char → Prop
  | root : Leads .root []
  | item {outer : Context} {pre : List Char} (b : Blanks) (items : List (Padded Phrase)) :
      Leads outer pre → Leads (.item (itemOutlines items).reverse outer) (pre ++ b.chars ++ '[' :: itemsBefore items)
  | member {outer : Context} {pre : List Char} (b : Blanks) (members : List Member) (name : Padded (List Letter)) :
      Leads outer pre → Leads (.member (memberOutlines members).reverse (spelled name.value) outer)
        (pre ++ b.chars ++ '\x7b' :: membersBefore members ++ (name.around (quoted name.value) ++ [':']))

/-- the text up to a place -/
inductive Stands : Place → List Char → Prop
  | value {c : Context} {pre : List Char} : Leads c pre → Stands (.value c) pre
  | firstItem {c : Context} {pre : List Char} (b : Blanks) :
      Leads c pre → Stands (.firstItem c) (pre ++ b.chars ++ ['['])
  | firstName {c : Context} {pre : List Char} (b : Blanks) :
      Leads c pre → Stands (.firstName c) (pre ++ b.chars ++ ['\x7b'])
  | name {c : Context} {pre : List Char} (b : Blanks) (members : List Member) :
      Leads c pre →
        Stands (.name (memberOutlines members).reverse c) (pre ++ b.chars ++ '\x7b' :: membersBefore members)
  | colon {c : Context} {pre : List Char} (b : Blanks) (members : List Member) (before : Blanks)
      (letters : List Letter) :
      Leads c pre → Stands (.colon (memberOutlines members).reverse (spelled letters) c)
        (pre ++ b.chars ++ '\x7b' :: membersBefore members ++ (before.chars ++ quoted letters))
  | after {c : Context} {pre : List Char} (b : Blanks) (p : Phrase) :
      Leads c pre → Stands (.after p.outline c) (pre ++ b.chars ++ p.chars)

theorem reverse_itemOutlines_concat (items : List (Padded Phrase)) (item : Padded Phrase) :
    (itemOutlines (items ++ [item])).reverse = item.value.outline :: (itemOutlines items).reverse := by
  rw [itemOutlines_eq_map, itemOutlines_eq_map, List.map_append, List.map_singleton, List.reverse_concat]

theorem reverse_memberOutlines_concat (members : List Member) (m : Member) :
    (memberOutlines (members ++ [m])).reverse =
      (spelled m.1.value, m.2.value.outline) :: (memberOutlines members).reverse := by
  rw [memberOutlines_eq_map, memberOutlines_eq_map, List.map_append, List.map_singleton, List.reverse_concat]

theorem itemsBefore_concat (items : List (Padded Phrase)) (item : Padded Phrase) :
    itemsBefore (items ++ [item]) = itemsBefore items ++ item.around item.value.chars ++ [','] := by
  rw [itemsBefore, itemsBefore, itemTexts_eq_map, itemTexts_eq_map, List.map_append, List.map_singleton,
    List.flatMap_append, List.flatMap_singleton, List.append_assoc]

theorem membersBefore_concat (members : List Member) (m : Member) :
    membersBefore (members ++ [m]) =
      membersBefore members ++ (m.1.around (quoted m.1.value) ++ ':' :: m.2.around m.2.value.chars) ++ [','] := by
  rw [membersBefore, membersBefore, memberTexts_eq_map, memberTexts_eq_map, List.map_append, List.map_singleton,
    List.flatMap_append, List.flatMap_singleton, ← List.append_assoc]

theorem chars_array_concat (items : List (Padded Phrase)) (item : Padded Phrase) (stop : Blanks) :
    (Phrase.array (items ++ [item]) stop).chars =
      '[' :: itemsBefore items ++ item.around item.value.chars ++ stop.chars ++ [']'] := by
  rw [Phrase.chars, itemTexts_eq_map, List.map_append, List.map_singleton, separated_concat, ← itemTexts_eq_map]
  rfl

theorem chars_object_concat (members : List Member) (m : Member) (stop : Blanks) :
    (Phrase.object (members ++ [m]) stop).chars =
      '\x7b' :: membersBefore members ++ (m.1.around (quoted m.1.value) ++ ':' :: m.2.around m.2.value.chars) ++
        stop.chars ++ ['\x7d'] := by
  rw [Phrase.chars, memberTexts_eq_map, List.map_append, List.map_singleton, separated_concat, ← memberTexts_eq_map]
  rfl

section
variable {c : Context} {pre w : List Char} {l : Lexeme} {p p' : Place}

/-- where a value may stand, each lexeme of a value leads on -/
theorem Leads.step (h : Leads c pre) (b : Blanks) (hw : l.IsWritten w) (hstep : c.value? l = some p') :
    Stands p' (pre ++ b.chars ++ w) := by
  cases hw with
  | openArray =>
    cases hstep
    exact .firstItem b h
  | openObject =>
    cases hstep
    exact .firstName b h
  | null =>
    cases hstep
    exact .after b .null h
  | yes =>
    cases hstep
    exact .after b (.bool true) h
  | no =>
    cases hstep
    exact .after b (.bool false) h
  | number form =>
    cases hstep
    exact .after b (.number form) h
  | text letters =>
    cases hstep
    exact .after b (.text letters) h
  | closeArray | closeObject | comma | colon => cases hstep

/-- after an item, a comma leads to the next one and the closing mark behind the array -/
theorem Leads.step_item {before : List Outline} {q : Phrase} (h : Leads (.item before c) pre) (b b' : Blanks)
    (hw : l.IsWritten w) (hstep : (Place.after q.outline (.item before c)).step? l = some p') :
    Stands p' (pre ++ b.chars ++ q.chars ++ b'.chars ++ w) := by
  cases h with
  | @item _ pre start items h =>
    cases hw with
    | comma =>
      cases hstep
      have e : pre ++ start.chars ++ '[' :: itemsBefore items ++ b.chars ++ q.chars ++ b'.chars ++ [','] =
          pre ++ start.chars ++ '[' :: itemsBefore (items ++ [⟨b, q, b'⟩]) := by
        rw [itemsBefore_concat]
        simp only [Padded.around, List.append_assoc, List.cons_append]
      rw [e, ← reverse_itemOutlines_concat items ⟨b, q, b'⟩]
      exact .value (.item start _ h)
    | closeArray =>
      cases hstep
      have e : pre ++ start.chars ++ '[' :: itemsBefore items ++ b.chars ++ q.chars ++ b'.chars ++ [']'] =
          pre ++ start.chars ++ (Phrase.array (items ++ [⟨b, q, {}⟩]) b').chars := by
        rw [chars_array_concat]
        simp only [Padded.around, List.append_assoc, List.cons_append, List.nil_append]
      rw [e, ← reverse_itemOutlines_concat items ⟨b, q, {}⟩, List.reverse_reverse]
      exact .after start (.array _ b') h
    | _ => cases hstep

/-- after a member, a comma leads to the next name and the closing mark behind the object -/
theorem Leads.step_member {before : List (Spelled × Outline)} {key : Spelled} {q : Phrase}
    (h : Leads (.member before key c) pre) (b b' : Blanks) (hw : l.IsWritten w)
    (hstep : (Place.after q.outline (.member before key c)).step? l = some p') :
    Stands p' (pre ++ b.chars ++ q.chars ++ b'.chars ++ w) := by
  cases h with
  | @member _ pre start members name h =>
    cases hw with
    | comma =>
      cases hstep
      have e : pre ++ start.chars ++ '\x7b' :: membersBefore members ++ (name.around (quoted name.value) ++ [':']) ++
          b.chars ++ q.chars ++ b'.chars ++ [','] =
          pre ++ start.chars ++ '\x7b' :: membersBefore (members ++ [(name, ⟨b, q, b'⟩)]) := by
        rw [membersBefore_concat]
        simp only [Padded.around, List.append_assoc, List.cons_append, List.nil_append]
      rw [e, ← reverse_memberOutlines_concat members (name, ⟨b, q, b'⟩)]
      exact .name start _ h
    | closeObject =>
      cases hstep
      have e : pre ++ start.chars ++ '\x7b' :: membersBefore members ++ (name.around (quoted name.value) ++ [':']) ++
          b.chars ++ q.chars ++ b'.chars ++ ['\x7d'] =
          pre ++ start.chars ++ (Phrase.object (members ++ [(name, ⟨b, q, {}⟩)]) b').chars := by
        rw [chars_object_concat]
        simp only [Padded.around, List.append_assoc, List.cons_append, List.nil_append]
      rw [e, ← reverse_memberOutlines_concat members (name, ⟨b, q, {}⟩), List.reverse_reverse]
      exact .after start (.object _ b') h
    | _ => cases hstep

/-- **A lexeme leads from one place to the next.** -/
theorem Stands.step (h : Stands p pre) (b : Blanks) (hw : l.IsWritten w) (hstep : p.step? l = some p') :
    Stands p' (pre ++ b.chars ++ w) := by
  cases h with
  | value h => exact h.step b hw hstep
  | @firstItem c pre b' h =>
    by_cases hl : l = .closeArray
    · subst hl
      cases hw
      cases hstep
      have e : pre ++ b'.chars ++ ['['] ++ b.chars ++ [']'] = pre ++ b'.chars ++ (Phrase.array [] b).chars := by
        simp only [Phrase.chars, itemTexts, separated, List.append_assoc, List.cons_append, List.nil_append]
      rw [e]
      exact .after b' (.array [] b) h
    · rw [step?_firstItem hl] at hstep
      exact (Leads.item b' [] h).step b hw hstep
  | @firstName c pre b' h =>
    cases hw with
    | closeObject =>
      cases hstep
      have e : pre ++ b'.chars ++ ['\x7b'] ++ b.chars ++ ['\x7d'] = pre ++ b'.chars ++ (Phrase.object [] b).chars := by
        simp only [Phrase.chars, memberTexts, separated, List.append_assoc, List.cons_append, List.nil_append]
      rw [e]
      exact .after b' (.object [] b) h
    | text letters =>
      cases hstep
      rw [List.append_assoc _ b.chars]
      exact .colon b' [] b letters h
    | _ => cases hstep
  | name b' members h =>
    cases hw with
    | text letters =>
      cases hstep
      rw [List.append_assoc _ b.chars]
      exact .colon b' members b letters h
    | _ => cases hstep
  | colon b' members before letters h =>
    cases hw with
    | colon =>
      cases hstep
      have hvalue := Stands.value (.member b' members ⟨before, letters, b⟩ h)
      simpa only [Padded.around, List.append_assoc, List.cons_append] using hvalue
    | _ => cases hstep
  | @after c pre b' q h =>
    cases c with
    | root => cases hstep
    | item before outer => exact h.step_item b' b hw hstep
    | member before key outer => exact h.step_member b' b hw hstep

/-- a text that leads on to its end is a value between blanks -/
theorem exists_phrase_of_run {cs : List Char} {ls : List Lexeme} (hls : Scanned cs ls) (h : Stands p pre)
    (hrun : p.run ls = ⟨root, false⟩) (hs : root.skip = .ok ()) :
    ∃ q : Padded Phrase, pre ++ cs = q.around q.value.chars ∧ q.value.outline = root := by
  induction hls generalizing p pre with
  | blanks b =>
    obtain rfl := eq_after_of_finish hrun hs
    cases h with
    | after b' q h =>
      cases h
      exact ⟨⟨b', q, b⟩, rfl, rfl⟩
  | @cons b l w rest ls hw _ ih =>
    rw [Place.run] at hrun
    cases hstep : p.step? l with
    | none =>
      rw [hstep] at hrun
      exact absurd hs (skip_fail hrun)
    | some p' =>
      rw [hstep] at hrun
      obtain ⟨q, hq, ho⟩ := ih (h.step b hw hstep) hrun
      refine ⟨q, ?_, ho⟩
      rw [← hq]
      simp only [List.append_assoc]
  | torn cs hl => exact absurd hs (skip_torn hl hrun)

/-- **What is accepted is JSON**: a text whose outline can be passed over, with nothing after it, is the text of a
phrase. -/
theorem exists_phrase_of_ofText {s : String} (h : ofText s = ⟨root, false⟩) (hs : root.skip = .ok ()) :
    ∃ q : Padded Phrase, s = q.text ∧ q.value.outline = root := by
  obtain ⟨q, hq, ho⟩ := exists_phrase_of_run (scanned_scan s.toList) (.value .root) h hs
  refine ⟨q, ?_, ho⟩
  rw [Padded.text, ← hq, List.nil_append, String.ofList_toList]

end

/-! ## records -/

namespace Record

variable {draft : Type} {r : Record draft} {d : draft}

theorem skip_of_ofMembers (hput : ∀ {d x o d'}, x ∈ r.fields → r.put d x o = .ok d' → o.skip = .ok ())
    {members : List (Spelled × Outline)} {d' : draft} (h : r.ofMembers d members = .ok d') :
    ∀ m ∈ members, m.1.tear = none ∧ m.2.skip = .ok () := by
  induction members generalizing d with
  | nil => nofun
  | cons m members ih =>
    obtain ⟨name, hname, hm⟩ := ofMembers_cons_eq_ok_iff.1 h
    rcases hm with ⟨hf, -, d₁, hd₁, h⟩ | ⟨-, hskip, h⟩
    · exact List.forall_mem_cons.2 ⟨⟨tear_of_text hname, hput hf hd₁⟩, ih h⟩
    · exact List.forall_mem_cons.2 ⟨⟨tear_of_text hname, hskip⟩, ih h⟩

theorem skip_of_ofItems (hput : ∀ {d x o d'}, x ∈ r.fields → r.put d x o = .ok d' → o.skip = .ok ())
    {names : List String} (hn : ∀ x ∈ names, x ∈ r.fields) {items : List Outline} {d' : draft}
    (h : r.ofItems d names items = .ok (d', false)) : ∀ o ∈ items, o.skip = .ok () := by
  induction items generalizing d names with
  | nil => nofun
  | cons o items ih =>
    cases names with
    | nil => cases h
    | cons x names =>
      obtain ⟨hx, hn⟩ := List.forall_mem_cons.1 hn
      obtain ⟨d₁, hd₁, h⟩ := Outcome.bind_eq_ok_iff.1 h
      exact List.forall_mem_cons.2 ⟨hput hx hd₁, ih hn h⟩

/-- **What is read as a record can be passed over**, if that holds of what is read for its fields. -/
theorem skip_of_ofOutline (hput : ∀ {d x o d'}, x ∈ r.fields → r.put d x o = .ok d' → o.skip = .ok ())
    {α : Type} {empty : draft} {finish : draft → Except Fault α} {a : α} (h : r.ofOutline empty finish o = .ok a) :
    o.skip = .ok () := by
  cases o with
  | object members tear =>
    obtain ⟨d, hd, h⟩ := Outcome.bind_eq_ok_iff.1 h
    obtain ⟨_, htear, -⟩ := Outcome.bind_eq_ok_iff.1 h
    exact skip_object_eq_ok_iff.2 ⟨skip_of_ofMembers hput hd, (closed_eq_ok_iff.1 htear).1⟩
  | array items tear =>
    obtain ⟨⟨d, more⟩, hd, h⟩ := Outcome.bind_eq_ok_iff.1 h
    cases more with
    | true => cases h
    | false =>
      obtain ⟨_, htear, -⟩ := Outcome.bind_eq_ok_iff.1 h
      exact skip_array_eq_ok_iff.2 ⟨skip_of_ofItems hput (fun _ hx => hx) hd, (closed_eq_ok_iff.1 htear).1⟩
  | _ => cases h

end Record

end BearerCredentials.Json
