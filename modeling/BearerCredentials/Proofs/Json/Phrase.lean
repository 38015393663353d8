import BearerCredentials.Json.Shape
import BearerCredentials.Proofs.Json.Lexeme

/-!
# Phrases are read

* `passes`         a value is passed from the place before it to the place after it;
* `ofText_text`    a text that is JSON has the outline of its phrase;
* `skip_outline`   which can be passed over.
-/

namespace BearerCredentials.Json

open Lexeme Outline

variable {rest : List Char}

/-! ## items and members -/

theorem itemTexts_eq_map (items : List (Padded Phrase)) :
    itemTexts items = items.map fun i => i.around i.value.chars := by
  induction items with
  | nil => rfl
  | cons i items ih =>
    rw [itemTexts, ih]
    rfl

theorem itemOutlines_eq_map (items : List (Padded Phrase)) :
    itemOutlines items = items.map fun i => i.value.outline := by
  induction items with
  | nil => rfl
  | cons i items ih =>
    rw [itemOutlines, ih]
    rfl

theorem memberTexts_eq_map (members : List Member) :
    memberTexts members = members.map fun m =>
      m.1.around (quoted m.1.value) ++ ':' :: m.2.around m.2.value.chars := by
  induction members with
  | nil => rfl
  | cons m members ih =>
    rw [memberTexts, ih]
    rfl

theorem memberOutlines_eq_map (members : List Member) :
    memberOutlines members = members.map fun m => (spelled m.1.value, m.2.value.outline) := by
  induction members with
  | nil => rfl
  | cons m members ih =>
    rw [memberOutlines, ih]
    rfl

theorem separated_cons (sep x : List Char) (more : List (List Char)) :
    separated sep (x :: more) = x ++ more.flatMap (sep ++ ·) := by
  induction more generalizing x with
  | nil => rw [separated, List.flatMap_nil, List.append_nil]
  | cons y more ih =>
    rw [separated, ih, List.flatMap_cons]
    · simp only [List.append_assoc]
    · exact List.cons_ne_nil y more

theorem separated_concat (sep x : List Char) (xs : List (List Char)) :
    separated sep (xs ++ [x]) = xs.flatMap (· ++ sep) ++ x := by
  induction xs with
  | nil => rfl
  | cons y xs ih =>
    rw [List.cons_append, separated, ih, List.flatMap_cons]
    · simp only [List.append_assoc]
    · exact List.append_ne_nil_of_right_ne_nil xs (List.cons_ne_nil x [])

/-! ## what stops a numeral -/

theorem Stops.blanks (b : Blanks) (hr : Stops rest) : Stops (b.chars ++ rest) := by
  obtain ⟨chars, hb⟩ := b
  cases chars with
  | nil => exact hr
  | cons c chars =>
    intro d hd
    obtain rfl := Option.some.inj hd
    have hmem := hb c List.mem_cons_self
    simp only [List.mem_cons, List.not_mem_nil, or_false] at hmem
    rcases hmem with rfl | rfl | rfl | rfl <;> decide

theorem stops_cons {c : Char} (hc : c.isDigit = false ∧ c ≠ '.' ∧ c ≠ 'e' ∧ c ≠ 'E') : Stops (c :: rest) := by
  intro d hd
  obtain rfl := Option.some.inj hd
  exact hc

/-- what follows an item or a member: a further one, or the closing mark -/
theorem stops_more (more : List (List Char)) (stop : Blanks) {mark : Char}
    (hm : mark.isDigit = false ∧ mark ≠ '.' ∧ mark ≠ 'e' ∧ mark ≠ 'E') :
    Stops (more.flatMap (',' :: ·) ++ (stop.chars ++ mark :: rest)) := by
  cases more with
  | nil => exact Stops.blanks stop (stops_cons hm)
  | cons x more => exact stops_cons (by decide)

/-! ## values -/

theorem run_of_step {p p' : Place} {l : Lexeme} {ls : List Lexeme} (h : p.step? l = some p') :
    p.run (l :: ls) = p'.run ls := by
  rw [Place.run, h]

/-- the place before a value and the place after it -/
def Passes (p : Phrase) : Prop :=
  ∀ (c : Context) (rest : List Char), Stops rest →
    (Place.value c).run (scan (p.chars ++ rest)) = (Place.after p.outline c).run (scan rest)

theorem passes_padded {p : Phrase} (hp : Passes p) (before after : Blanks) (c : Context) (hr : Stops rest) :
    (Place.value c).run (scan (before.chars ++ p.chars ++ after.chars ++ rest)) =
      (Place.after p.outline c).run (scan rest) := by
  rw [List.append_assoc, List.append_assoc, scan_blanks, hp c _ (Stops.blanks after hr), scan_blanks]

/-- a value starts with a lexeme that no closing mark is -/
theorem exists_lexeme_cons (p : Phrase) (hr : Stops rest) :
    ∃ l ls, scan (p.chars ++ rest) = l :: ls ∧ l ≠ .closeArray ∧ ∀ c : Context, ∃ place, c.value? l = some place := by
  cases p with
  | null => exact ⟨.null, _, scan_word rest (by decide) (by decide) (by decide) rfl, nofun, fun c => ⟨_, rfl⟩⟩
  | bool b =>
    refine ⟨.bool b, ?_⟩
    cases b with
    | true => exact ⟨_, scan_word rest (by decide) (by decide) (by decide) rfl, nofun, fun c => ⟨_, rfl⟩⟩
    | false => exact ⟨_, scan_word rest (by decide) (by decide) (by decide) rfl, nofun, fun c => ⟨_, rfl⟩⟩
  | number form => exact ⟨.number _, _, scan_numeral form hr, nofun, fun c => ⟨_, rfl⟩⟩
  | text letters => exact ⟨.text _, _, scan_quoted letters rest, nofun, fun c => ⟨_, rfl⟩⟩
  | array items stop => exact ⟨.openArray, _, scan_mark (by decide) (by decide), nofun, fun c => ⟨_, rfl⟩⟩
  | object members stop => exact ⟨.openObject, _, scan_mark (by decide) (by decide), nofun, fun c => ⟨_, rfl⟩⟩

/-- the first item of an array is a value like any other -/
theorem step?_firstItem {c : Context} {l : Lexeme} (hl : l ≠ .closeArray) :
    (Place.firstItem c).step? l = (Context.item [] c).value? l := by
  cases l <;> first | rfl | exact absurd rfl hl

theorem run_firstItem (p : Phrase) (c : Context) (hr : Stops rest) :
    (Place.firstItem c).run (scan (p.chars ++ rest)) = (Place.value (.item [] c)).run (scan (p.chars ++ rest)) := by
  obtain ⟨l, ls, e, hne, hvalue⟩ := exists_lexeme_cons p hr
  obtain ⟨place, hp⟩ := hvalue (.item [] c)
  have hitem : (Place.value (.item [] c)).step? l = some place := hp
  rw [e, run_of_step ((step?_firstItem hne).trans hp), run_of_step hitem]

/-- the items after a value, up to the closing mark -/
def PassesItems (items : List (Padded Phrase)) : Prop :=
  ∀ (v : Outline) (before : List Outline) (c : Context) (stop : Blanks) (rest : List Char),
    (Place.after v (.item before c)).run
        (scan ((itemTexts items).flatMap (',' :: ·) ++ (stop.chars ++ ']' :: rest))) =
      (Place.after (.array (before.reverse ++ v :: itemOutlines items) none) c).run (scan rest)

theorem passesItems_nil : PassesItems [] := by
  intro v before c stop rest
  have hclose : scan (']' :: rest) = .closeArray :: scan rest := scan_mark (by decide) (by decide)
  have hstep : (Place.after v (.item before c)).step? .closeArray =
      some (.after (.array (before.reverse ++ [v]) none) c) := by
    rw [← List.reverse_cons]
    rfl
  show (Place.after v (.item before c)).run (scan (stop.chars ++ ']' :: rest)) = _
  rw [scan_blanks, hclose, run_of_step hstep]
  rfl

theorem passesItems_cons {p : Phrase} {items : List (Padded Phrase)} (hp : Passes p) (hitems : PassesItems items)
    (before after : Blanks) : PassesItems (⟨before, p, after⟩ :: items) := by
  intro v done c stop rest
  have hcomma (cs : List Char) : scan (',' :: cs) = .comma :: scan cs := scan_mark (by decide) (by decide)
  have hstep : (Place.after v (.item done c)).step? .comma = some (.value (.item (v :: done) c)) := rfl
  have h := hitems p.outline (v :: done) c stop rest
  rw [List.reverse_cons, List.append_assoc] at h
  rw [itemTexts, List.flatMap_cons, List.cons_append, List.cons_append, List.append_assoc, hcomma, run_of_step hstep,
    passes_padded hp before after _ (stops_more _ _ (by decide))]
  exact h

theorem passes_emptyArray (stop : Blanks) : Passes (.array [] stop) := by
  intro c rest _
  have hopen (cs : List Char) : scan ('[' :: cs) = .openArray :: scan cs := scan_mark (by decide) (by decide)
  have hclose : scan (']' :: rest) = .closeArray :: scan rest := scan_mark (by decide) (by decide)
  have hstep : (Place.value c).step? .openArray = some (.firstItem c) := rfl
  have hstep' : (Place.firstItem c).step? .closeArray = some (.after (.array [] none) c) := rfl
  show (Place.value c).run (scan ('[' :: (stop.chars ++ [']'] ++ rest))) = _
  rw [hopen, run_of_step hstep, List.append_assoc, scan_blanks, List.cons_append, List.nil_append, hclose,
    run_of_step hstep']
  rfl

theorem passes_array {p : Phrase} {items : List (Padded Phrase)} (hp : Passes p) (hitems : PassesItems items)
    (before after stop : Blanks) : Passes (.array (⟨before, p, after⟩ :: items) stop) := by
  intro c rest _
  have hopen (cs : List Char) : scan ('[' :: cs) = .openArray :: scan cs := scan_mark (by decide) (by decide)
  have hstep : (Place.value c).step? .openArray = some (.firstItem c) := rfl
  have hr : Stops ((itemTexts items).flatMap (',' :: ·) ++ (stop.chars ++ ']' :: rest)) := stops_more _ _ (by decide)
  have htext : Phrase.chars (.array (⟨before, p, after⟩ :: items) stop) ++ rest =
      '[' :: (before.chars ++ (p.chars ++ (after.chars ++
        ((itemTexts items).flatMap (',' :: ·) ++ (stop.chars ++ ']' :: rest))))) := by
    rw [Phrase.chars, itemTexts, separated_cons]
    simp only [List.cons_append, List.append_assoc, List.nil_append]
  rw [htext, hopen, run_of_step hstep, scan_blanks, run_firstItem p c (Stops.blanks after hr),
    hp _ _ (Stops.blanks after hr), scan_blanks]
  exact hitems p.outline [] c stop rest

/-- a member, from a place where its name may stand -/
theorem run_member {place : Place} {done : List (Spelled × Outline)} {c : Context} {p : Phrase}
    (name : Padded (List Letter)) (hp : Passes p) (before after : Blanks)
    (hplace : ∀ s, place.step? (.text s) = some (.colon done s c)) (hr : Stops rest) :
    place.run (scan (name.around (quoted name.value) ++ ':' :: (before.chars ++ p.chars ++ after.chars) ++ rest)) =
      (Place.after p.outline (.member done (spelled name.value) c)).run (scan rest) := by
  have hcolon (cs : List Char) : scan (':' :: cs) = .colon :: scan cs := scan_mark (by decide) (by decide)
  have hstep : (Place.colon done (spelled name.value) c).step? .colon =
      some (.value (.member done (spelled name.value) c)) := rfl
  rw [Padded.around, List.append_assoc, List.append_assoc, List.append_assoc, scan_blanks, scan_quoted,
    run_of_step (hplace _), scan_blanks, List.cons_append, hcolon, run_of_step hstep]
  exact passes_padded hp before after _ hr

/-- the members after a value, up to the closing mark -/
def PassesMembers (members : List (Padded (List Letter) × Padded Phrase)) : Prop :=
  ∀ (key : Spelled) (v : Outline) (done : List (Spelled × Outline)) (c : Context) (stop : Blanks) (rest : List Char),
    (Place.after v (.member done key c)).run
        (scan ((memberTexts members).flatMap (',' :: ·) ++ (stop.chars ++ '\x7d' :: rest))) =
      (Place.after (.object (done.reverse ++ (key, v) :: memberOutlines members) none) c).run (scan rest)

theorem passesMembers_nil : PassesMembers [] := by
  intro key v done c stop rest
  have hclose : scan ('\x7d' :: rest) = .closeObject :: scan rest := scan_mark (by decide) (by decide)
  have hstep : (Place.after v (.member done key c)).step? .closeObject =
      some (.after (.object (done.reverse ++ [(key, v)]) none) c) := by
    rw [← List.reverse_cons]
    rfl
  show (Place.after v (.member done key c)).run (scan (stop.chars ++ '\x7d' :: rest)) = _
  rw [scan_blanks, hclose, run_of_step hstep]
  rfl

theorem passesMembers_cons {p : Phrase} {members : List (Padded (List Letter) × Padded Phrase)} (hp : Passes p)
    (hmembers : PassesMembers members) (name : Padded (List Letter)) (before after : Blanks) :
    PassesMembers ((name, ⟨before, p, after⟩) :: members) := by
  intro key v done c stop rest
  have hcomma (cs : List Char) : scan (',' :: cs) = .comma :: scan cs := scan_mark (by decide) (by decide)
  have hstep : (Place.after v (.member done key c)).step? .comma = some (.name ((key, v) :: done) c) := rfl
  have h := hmembers (spelled name.value) p.outline ((key, v) :: done) c stop rest
  rw [List.reverse_cons, List.append_assoc] at h
  rw [memberTexts, List.flatMap_cons, List.append_assoc, List.cons_append, hcomma, run_of_step hstep,
    run_member name hp before after (fun s => rfl) (stops_more _ _ (by decide))]
  exact h

theorem passes_emptyObject (stop : Blanks) : Passes (.object [] stop) := by
  intro c rest _
  have hopen (cs : List Char) : scan ('\x7b' :: cs) = .openObject :: scan cs := scan_mark (by decide) (by decide)
  have hclose : scan ('\x7d' :: rest) = .closeObject :: scan rest := scan_mark (by decide) (by decide)
  have hstep : (Place.value c).step? .openObject = some (.firstName c) := rfl
  have hstep' : (Place.firstName c).step? .closeObject = some (.after (.object [] none) c) := rfl
  show (Place.value c).run (scan ('\x7b' :: (stop.chars ++ ['\x7d'] ++ rest))) = _
  rw [hopen, run_of_step hstep, List.append_assoc, scan_blanks, List.cons_append, List.nil_append, hclose,
    run_of_step hstep']
  rfl

theorem passes_object {p : Phrase} {members : List (Padded (List Letter) × Padded Phrase)} (hp : Passes p)
    (hmembers : PassesMembers members) (name : Padded (List Letter)) (before after stop : Blanks) :
    Passes (.object ((name, ⟨before, p, after⟩) :: members) stop) := by
  intro c rest _
  have hopen (cs : List Char) : scan ('\x7b' :: cs) = .openObject :: scan cs := scan_mark (by decide) (by decide)
  have hstep : (Place.value c).step? .openObject = some (.firstName c) := rfl
  have htext : Phrase.chars (.object ((name, ⟨before, p, after⟩) :: members) stop) ++ rest =
      '\x7b' :: (name.around (quoted name.value) ++ ':' :: (before.chars ++ p.chars ++ after.chars) ++
        ((memberTexts members).flatMap (',' :: ·) ++ (stop.chars ++ '\x7d' :: rest))) := by
    rw [Phrase.chars, memberTexts, separated_cons]
    simp only [List.cons_append, List.append_assoc, List.nil_append]
  rw [htext, hopen, run_of_step hstep,
    run_member name hp before after (fun s => rfl) (stops_more _ _ (by decide))]
  exact hmembers (spelled name.value) p.outline [] c stop rest

mutual

/-- **A value is passed from the place before it to the place after it**, whatever follows. -/
theorem passes : ∀ p : Phrase, Passes p
  | .null => fun c rest _ => by
    have h : scan ("null".toList ++ rest) = .null :: scan rest :=
      scan_word rest (by decide) (by decide) (by decide) rfl
    have hstep : (Place.value c).step? .null = some (.after .null c) := rfl
    rw [Phrase.chars, h, run_of_step hstep]
    rfl
  | .bool true => fun c rest _ => by
    have h : scan ("true".toList ++ rest) = .bool true :: scan rest :=
      scan_word rest (by decide) (by decide) (by decide) rfl
    have hstep : (Place.value c).step? (.bool true) = some (.after (.bool true) c) := rfl
    rw [Phrase.chars, h, run_of_step hstep]
    rfl
  | .bool false => fun c rest _ => by
    have h : scan ("false".toList ++ rest) = .bool false :: scan rest :=
      scan_word rest (by decide) (by decide) (by decide) rfl
    have hstep : (Place.value c).step? (.bool false) = some (.after (.bool false) c) := rfl
    rw [Phrase.chars, h, run_of_step hstep]
    rfl
  | .number form => fun c rest hr => by
    have hstep : (Place.value c).step? (.number form.numeral) = some (.after (.number form.numeral) c) := rfl
    rw [Phrase.chars, scan_numeral form hr, run_of_step hstep]
    rfl
  | .text letters => fun c rest _ => by
    have hstep : (Place.value c).step? (.text (spelled letters)) = some (.after (.text (spelled letters)) c) := rfl
    rw [Phrase.chars, scan_quoted, run_of_step hstep]
    rfl
  | .array [] stop => passes_emptyArray stop
  | .array (⟨before, p, after⟩ :: items) stop => passes_array (passes p) (passesItems items) before after stop
  | .object [] stop => passes_emptyObject stop
  | .object ((name, ⟨before, p, after⟩) :: members) stop =>
    passes_object (passes p) (passesMembers members) name before after stop

theorem passesItems : ∀ items : List (Padded Phrase), PassesItems items
  | [] => passesItems_nil
  | ⟨before, p, after⟩ :: items => passesItems_cons (passes p) (passesItems items) before after

theorem passesMembers : ∀ members : List (Padded (List Letter) × Padded Phrase), PassesMembers members
  | [] => passesMembers_nil
  | (name, ⟨before, p, after⟩) :: members =>
    passesMembers_cons (passes p) (passesMembers members) name before after

end

theorem stops_nil : Stops [] := nofun

/-- **A text that is JSON has the outline of its phrase**, and nothing follows it. -/
theorem ofText_text (p : Padded Phrase) : ofText p.text = ⟨p.value.outline, false⟩ := by
  have h := passes_padded (passes p.value) p.before p.after .root stops_nil
  rw [List.append_nil] at h
  rw [ofText, Padded.text, String.toList_ofList, Padded.around, h]
  rw [scan]
  rfl

mutual

/-- **What is JSON can be passed over.** -/
theorem skip_outline : ∀ p : Phrase, p.outline.skip = .ok ()
  | .null | .bool _ | .number _ | .text _ => rfl
  | .array items stop => by
    rw [Phrase.outline, skip, skipItems_outlines items]
    rfl
  | .object members stop => by
    rw [Phrase.outline, skip, skipMembers_outlines members]
    rfl

theorem skipItems_outlines : ∀ items : List (Padded Phrase), skipItems (itemOutlines items) = .ok ()
  | [] => rfl
  | ⟨before, p, after⟩ :: items => by
    rw [itemOutlines, skipItems, skip_outline p]
    exact skipItems_outlines items

theorem skipMembers_outlines : ∀ members : List (Padded (List Letter) × Padded Phrase),
    skipMembers (memberOutlines members) = .ok ()
  | [] => rfl
  | (name, ⟨before, p, after⟩) :: members => by
    rw [memberOutlines, skipMembers, skip_outline p]
    exact skipMembers_outlines members

end

/-- what can be passed over need not be readable -/
example : (Phrase.text [.half]).outline.skip = .ok () ∧ (spelled [.half]).text = .error .malformed := ⟨rfl, rfl⟩

end BearerCredentials.Json
