import BearerCredentials.Text.Blank
import Mathlib.Data.List.TakeWhile

/-!
# Trimmed texts

* `exists_dropBlanks`, `exists_trimBlanks`   what trimming takes away is blank;
* `Trimmed`                                  no blank at either end;
* `trim_between`, `squeeze_trim`             blanks around a text do not matter to trimming and squeezing;
* `trim_trim`, `trimStart_trim`              a text that has been trimmed stays as it is;
* `TrimsTo`, `TrimsStartTo`                  what is left of a text, said without trimming it;
* `trimsTo_trim`, `TrimsTo.trim_eq`          trimming finds the one trimmed stretch between blanks;
* `infix_trimBlanks_iff`                     trimming leaves the stretches without blanks.
-/

namespace BearerCredentials.Text

/-! ## blanks at the start -/

theorem dropBlanks_append {pre : List Char} (h : ∀ c ∈ pre, isBlank c = true) (cs : List Char) :
    dropBlanks (pre ++ cs) = dropBlanks cs :=
  List.dropWhile_append_of_pos h

theorem dropBlanks_eq_nil {cs : List Char} (h : ∀ c ∈ cs, isBlank c = true) : dropBlanks cs = [] :=
  List.dropWhile_eq_nil_iff.2 h

theorem dropBlanks_of_not_blank {c : Char} (h : isBlank c = false) (cs : List Char) :
    dropBlanks (c :: cs) = c :: cs :=
  List.dropWhile_cons_of_neg (by rw [h]; exact Bool.false_ne_true)

theorem exists_dropBlanks (cs : List Char) :
    ∃ pre, (∀ c ∈ pre, isBlank c = true) ∧ cs = pre ++ dropBlanks cs :=
  ⟨cs.takeWhile isBlank, fun _ => List.mem_takeWhile_imp, List.takeWhile_append_dropWhile.symm⟩

theorem not_blank_of_dropBlanks {cs rest : List Char} {c : Char} (h : dropBlanks cs = c :: rest) :
    isBlank c = false := by
  have hnot := List.head?_dropWhile_not isBlank cs
  rw [dropBlanks] at h
  rw [h] at hnot
  exact hnot

theorem allBlank_iff (s : String) : allBlank s = true ↔ dropBlanks s.toList = [] := by
  rw [allBlank, List.all_eq_true, dropBlanks, List.dropWhile_eq_nil_iff]

/-! ## trimmed texts -/

/-- no blank at either end -/
def Trimmed (cs : List Char) : Prop :=
  (∀ c, cs.head? = some c → isBlank c = false) ∧ ∀ c, cs.getLast? = some c → isBlank c = false

theorem Trimmed.of_no_blank {cs : List Char} (h : ∀ c ∈ cs, isBlank c = false) : Trimmed cs :=
  ⟨fun c hc => h c (List.mem_of_mem_head? hc), fun c hc => h c (List.mem_of_getLast? hc)⟩

theorem not_blank_of_all {cs : List Char} (h : (cs.all fun c => !isBlank c) = true) : ∀ c ∈ cs, isBlank c = false :=
  fun c hc => Bool.not_eq_eq_eq_not.1 (List.all_eq_true.1 h c hc)

theorem not_blank_of_isDigit {c : Char} (h : c.isDigit = true) : isBlank c = false := by
  obtain ⟨hlow, hhigh⟩ := Char.isDigit_iff_toNat.1 h
  have hzero : '0'.toNat = 0x30 := rfl
  have hnine : '9'.toNat = 0x39 := rfl
  simp only [isBlank, Bool.or_eq_false_iff, Bool.and_eq_false_iff, decide_eq_false_iff_not, beq_eq_false_iff_ne]
  omega

theorem not_blank_of_mem_toDigits {n : Nat} {c : Char} (h : c ∈ Nat.toDigits 10 n) : isBlank c = false :=
  not_blank_of_isDigit (Nat.isDigit_of_mem_toDigits (by decide) (by decide) h)

theorem Trimmed.reverse {cs : List Char} (h : Trimmed cs) : Trimmed cs.reverse := by
  refine ⟨fun c hc => h.2 c ?_, fun c hc => h.1 c ?_⟩
  · rwa [List.head?_reverse] at hc
  · rwa [List.getLast?_reverse] at hc

theorem Trimmed.dropBlanks {cs : List Char} (h : Trimmed cs) : dropBlanks cs = cs := by
  cases cs with
  | nil => rfl
  | cons c cs => exact dropBlanks_of_not_blank (h.1 c rfl) cs

theorem Trimmed.trimBlanks {cs : List Char} (h : Trimmed cs) : trimBlanks cs = cs := by
  rw [Text.trimBlanks, h.dropBlanks, dropBlanksEnd, h.reverse.dropBlanks, List.reverse_reverse]

/-- a stretch that does not start with a blank, with a trimmed one at its end -/
theorem Trimmed.append {c : Char} {cs ds : List Char} (hc : isBlank c = false) (h : Trimmed ds)
    (hne : ds ≠ []) : Trimmed (c :: cs ++ ds) := by
  refine ⟨fun d hd => ?_, fun d hd => h.2 d ?_⟩
  · obtain rfl := Option.some.inj hd
    exact hc
  · obtain ⟨x, hx⟩ := Option.isSome_iff_exists.1 (List.getLast?_isSome.2 hne)
    rw [List.getLast?_append, hx] at hd
    rw [hx]
    exact hd

theorem exists_dropBlanksEnd (cs : List Char) :
    ∃ post, (∀ c ∈ post, isBlank c = true) ∧ cs = dropBlanksEnd cs ++ post := by
  obtain ⟨pre, hpre, e⟩ := exists_dropBlanks cs.reverse
  refine ⟨pre.reverse, fun c hc => hpre c (List.mem_reverse.1 hc), ?_⟩
  rw [dropBlanksEnd, ← List.reverse_append, ← e, List.reverse_reverse]

theorem exists_trimBlanks (cs : List Char) :
    ∃ pre post, (∀ c ∈ pre, isBlank c = true) ∧ (∀ c ∈ post, isBlank c = true) ∧
      cs = pre ++ trimBlanks cs ++ post := by
  obtain ⟨pre, hpre, e⟩ := exists_dropBlanks cs
  obtain ⟨post, hpost, e'⟩ := exists_dropBlanksEnd (dropBlanks cs)
  refine ⟨pre, post, hpre, hpost, ?_⟩
  rw [List.append_assoc, trimBlanks, ← e']
  exact e

theorem trimmed_trimBlanks (cs : List Char) : Trimmed (trimBlanks cs) := by
  obtain ⟨post, -, e⟩ := exists_dropBlanksEnd (dropBlanks cs)
  constructor
  · intro c hc
    have hd : (dropBlanks cs).head? = some c := by
      rw [e, List.head?_append]
      exact Option.or_eq_some_iff.2 (Or.inl hc)
    obtain ⟨rest, hr⟩ := List.head?_eq_some_iff.1 hd
    exact not_blank_of_dropBlanks hr
  · intro c hc
    rw [trimBlanks, dropBlanksEnd, List.getLast?_reverse] at hc
    obtain ⟨rest, hr⟩ := List.head?_eq_some_iff.1 hc
    exact not_blank_of_dropBlanks hr

theorem trimBlanks_append {pre post cs : List Char} (hpre : ∀ c ∈ pre, isBlank c = true)
    (hpost : ∀ c ∈ post, isBlank c = true) (h : Trimmed cs) : trimBlanks (pre ++ cs ++ post) = cs := by
  rw [trimBlanks, List.append_assoc, dropBlanks_append hpre]
  cases cs with
  | nil => rw [List.nil_append, dropBlanks_eq_nil hpost]; rfl
  | cons c cs =>
    have hpost' : ∀ d ∈ post.reverse, isBlank d = true := fun d hd => hpost d (List.mem_reverse.1 hd)
    rw [List.cons_append, dropBlanks_of_not_blank (h.1 c rfl), ← List.cons_append, dropBlanksEnd,
      List.reverse_append, dropBlanks_append hpost', h.reverse.dropBlanks, List.reverse_reverse]

/-! ## blanks around a text -/

theorem trimBlanks_between {pre post : List Char} (hpre : ∀ c ∈ pre, isBlank c = true)
    (hpost : ∀ c ∈ post, isBlank c = true) (cs : List Char) :
    trimBlanks (pre ++ cs ++ post) = trimBlanks cs := by
  obtain ⟨pre', post', hpre', hpost', e⟩ := exists_trimBlanks cs
  have hp : ∀ c ∈ pre ++ pre', isBlank c = true := fun c hc => (List.mem_append.1 hc).elim (hpre c) (hpre' c)
  have hq : ∀ c ∈ post' ++ post, isBlank c = true := fun c hc => (List.mem_append.1 hc).elim (hpost' c) (hpost c)
  calc trimBlanks (pre ++ cs ++ post)
      = trimBlanks (pre ++ (pre' ++ trimBlanks cs ++ post') ++ post) := by rw [← e]
    _ = trimBlanks (pre ++ pre' ++ trimBlanks cs ++ (post' ++ post)) := by simp only [List.append_assoc]
    _ = trimBlanks cs := trimBlanks_append hp hq (trimmed_trimBlanks cs)

theorem trim_between {pre post : String} (hpre : allBlank pre = true) (hpost : allBlank post = true) (s : String) :
    trim (pre ++ s ++ post) = trim s := by
  rw [allBlank, List.all_eq_true] at hpre hpost
  rw [trim, String.toList_append, String.toList_append, trimBlanks_between hpre hpost]
  rfl

theorem trimBlanks_eq_nil_iff {cs : List Char} : trimBlanks cs = [] ↔ dropBlanks cs = [] := by
  constructor
  · intro h
    obtain ⟨pre, post, hpre, hpost, e⟩ := exists_trimBlanks cs
    rw [h, List.append_nil] at e
    rw [e, dropBlanks_append hpre, dropBlanks_eq_nil hpost]
  · intro h
    rw [trimBlanks, h]
    rfl

theorem isEmpty_trim (s : String) : (trim s).isEmpty = allBlank s := by
  rw [Bool.eq_iff_iff, allBlank_iff, ← trimBlanks_eq_nil_iff, String.isEmpty_iff, trim, String.ofList_eq_empty_iff]

theorem hasBlank_eq_true_iff (s : String) : hasBlank s = true ↔ ∃ c ∈ s.toList, isBlank c = true :=
  List.any_eq_true

theorem hasBlank_eq_false_iff (s : String) : hasBlank s = false ↔ ∀ c ∈ s.toList, isBlank c = false := by
  rw [hasBlank, List.any_eq_false]
  simp only [Bool.not_eq_true]

/-! ## a text that has been trimmed -/

theorem trimStart_trim (s : String) : trimStart (trim s) = trim s := by
  rw [trimStart, trim, String.toList_ofList, (trimmed_trimBlanks s.toList).dropBlanks]

theorem trim_trim (s : String) : trim (trim s) = trim s := by
  rw [trim, trim, String.toList_ofList, (trimmed_trimBlanks s.toList).trimBlanks]

/-- blanks are left at the end where only those at the start are trimmed -/
theorem exists_trimStart (s : String) : ∃ post, allBlank post = true ∧ trimStart s = trim s ++ post := by
  obtain ⟨post, hpost, e⟩ := exists_dropBlanksEnd (dropBlanks s.toList)
  refine ⟨String.ofList post, ?_, ?_⟩
  · rw [allBlank, String.toList_ofList, List.all_eq_true]
    exact hpost
  · rw [trimStart, trim, trimBlanks, ← String.ofList_append, ← e]

theorem trim_trimStart (s : String) : trim (trimStart s) = trim s := by
  obtain ⟨post, hpost, e⟩ := exists_trimStart s
  have h : trim ("" ++ trim s ++ post) = trim (trim s) := trim_between rfl hpost (trim s)
  rw [String.empty_append, trim_trim, ← e] at h
  exact h

theorem trimEnd_trimStart (s : String) : trimEnd (trimStart s) = trim s := by
  rw [trimEnd, trimStart, String.toList_ofList]
  rfl

/-- only blanks are trimmed, and those are squeezed out as well -/
theorem squeeze_trim (s : String) : squeeze (trim s) = squeeze s := by
  obtain ⟨pre, post, hpre, hpost, e⟩ := exists_trimBlanks s.toList
  have hout {cs : List Char} (h : ∀ c ∈ cs, isBlank c = true) : cs.filter (fun c => !isBlank c) = [] := by
    rw [List.filter_eq_nil_iff]
    intro c hc
    rw [h c hc]
    exact Bool.false_ne_true
  have hs : s.toList.filter (fun c => !isBlank c) = (trimBlanks s.toList).filter fun c => !isBlank c :=
    calc s.toList.filter (fun c => !isBlank c)
        = (pre ++ trimBlanks s.toList ++ post).filter (fun c => !isBlank c) := by rw [← e]
      _ = (trimBlanks s.toList).filter fun c => !isBlank c := by
        rw [List.filter_append, List.filter_append, hout hpre, hout hpost, List.nil_append, List.append_nil]
  rw [squeeze, squeeze, hs, trim, String.toList_ofList]

/-! ## what is left of a text -/

/-- `u` is `s` from its first character that is not blank on -/
structure TrimsStartTo (s u : String) : Prop where
  split : ∃ before, allBlank before = true ∧ s = before ++ u
  head : ∀ c, u.toList.head? = some c → isBlank c = false

/-- `t` is `s` from its first character that is not blank to its last one -/
structure TrimsTo (s t : String) : Prop where
  split : ∃ before after, allBlank before = true ∧ allBlank after = true ∧ s = before ++ t ++ after
  trimmed : Trimmed t.toList

theorem trimsStartTo_trimStart (s : String) : TrimsStartTo s (trimStart s) := by
  obtain ⟨pre, hpre, e⟩ := exists_dropBlanks s.toList
  refine ⟨⟨String.ofList pre, ?_, ?_⟩, fun c hc => ?_⟩
  · rw [allBlank, String.toList_ofList, List.all_eq_true]
    exact hpre
  · rw [trimStart, ← String.ofList_append, ← e, String.ofList_toList]
  · rw [trimStart, String.toList_ofList] at hc
    obtain ⟨rest, hr⟩ := List.head?_eq_some_iff.1 hc
    exact not_blank_of_dropBlanks hr

theorem TrimsStartTo.trimStart_eq {s u : String} (h : TrimsStartTo s u) : trimStart s = u := by
  obtain ⟨⟨before, hb, rfl⟩, hu⟩ := h
  rw [allBlank, List.all_eq_true] at hb
  rw [trimStart, String.toList_append, dropBlanks_append hb]
  apply String.toList_injective
  rw [String.toList_ofList]
  generalize u.toList = cs at hu
  cases cs with
  | nil => rfl
  | cons c cs => exact dropBlanks_of_not_blank (hu c rfl) cs

theorem trimsTo_trim (s : String) : TrimsTo s (trim s) := by
  obtain ⟨pre, post, hpre, hpost, e⟩ := exists_trimBlanks s.toList
  refine ⟨⟨String.ofList pre, String.ofList post, ?_, ?_, ?_⟩, ?_⟩
  · rw [allBlank, String.toList_ofList, List.all_eq_true]
    exact hpre
  · rw [allBlank, String.toList_ofList, List.all_eq_true]
    exact hpost
  · rw [trim, ← String.ofList_append, ← String.ofList_append, ← e, String.ofList_toList]
  · rw [trim, String.toList_ofList]
    exact trimmed_trimBlanks s.toList

/-- **Trimming finds the one trimmed stretch between blanks.** -/
theorem TrimsTo.trim_eq {s t : String} (h : TrimsTo s t) : trim s = t := by
  obtain ⟨⟨before, after, hb, ha, rfl⟩, ht⟩ := h
  rw [trim_between hb ha, trim, ht.trimBlanks, String.ofList_toList]

theorem TrimsTo.of_trimmed {s : String} (h : Trimmed s.toList) : TrimsTo s s :=
  ⟨⟨"", "", rfl, rfl, by rw [String.empty_append, String.append_empty]⟩, h⟩

theorem trim_eq_empty_iff (s : String) : trim s = "" ↔ allBlank s = true := by
  rw [← isEmpty_trim, String.isEmpty_iff]

theorem Trimmed.trim_eq {s : String} (h : Trimmed s.toList) : trim s = s := (TrimsTo.of_trimmed h).trim_eq

theorem Trimmed.not_allBlank {s : String} (h : Trimmed s.toList) (hne : s ≠ "") : allBlank s = false := by
  rw [← isEmpty_trim, h.trim_eq]
  exact String.isEmpty_eq_false_iff.2 hne

/-- what is left of a text is one of its stretches -/
theorem TrimsTo.isInfix {s t : String} (h : TrimsTo s t) : t.toList <:+: s.toList := by
  obtain ⟨⟨before, after, -, -, rfl⟩, -⟩ := h
  rw [String.toList_append, String.toList_append]
  exact List.infix_append _ _ _

theorem TrimsStartTo.isInfix {s u : String} (h : TrimsStartTo s u) : u.toList <:+: s.toList := by
  obtain ⟨⟨before, -, rfl⟩, -⟩ := h
  rw [String.toList_append]
  exact (List.suffix_append _ _).isInfix

/-! ## stretches without blanks -/

section
variable {needle : List Char} (hne : needle ≠ []) (hn : ∀ c ∈ needle, isBlank c = false)
include hne hn

/-- a stretch without blanks does not begin in the blanks before a text -/
theorem infix_of_blanks_append {pre cs : List Char} (hpre : ∀ c ∈ pre, isBlank c = true)
    (h : needle <:+: pre ++ cs) : needle <:+: cs := by
  induction pre with
  | nil => exact h
  | cons b pre ih =>
    rw [List.cons_append, List.infix_cons_iff] at h
    rcases h with h | h
    · obtain ⟨n, ns, rfl⟩ := List.exists_cons_of_ne_nil hne
      obtain ⟨rfl, -⟩ := List.cons_prefix_cons.1 h
      have hb := hn n List.mem_cons_self
      rw [hpre n List.mem_cons_self] at hb
      cases hb
    · exact ih (fun c hc => hpre c (List.mem_cons_of_mem _ hc)) h

theorem infix_between_iff {pre post cs : List Char} (hpre : ∀ c ∈ pre, isBlank c = true)
    (hpost : ∀ c ∈ post, isBlank c = true) : needle <:+: pre ++ cs ++ post ↔ needle <:+: cs := by
  constructor
  · intro h
    rw [List.append_assoc] at h
    have h1 := infix_of_blanks_append hne hn hpre h
    rw [← List.reverse_infix, List.reverse_append] at h1
    have hne' : needle.reverse ≠ [] := mt List.reverse_eq_nil_iff.1 hne
    have hn' : ∀ c ∈ needle.reverse, isBlank c = false := fun c hc => hn c (List.mem_reverse.1 hc)
    have hpost' : ∀ c ∈ post.reverse, isBlank c = true := fun c hc => hpost c (List.mem_reverse.1 hc)
    exact List.reverse_infix.1 (infix_of_blanks_append hne' hn' hpost' h1)
  · intro h
    exact h.trans (List.infix_append pre cs post)

/-- trimming leaves the stretches without blanks -/
theorem infix_trimBlanks_iff {cs : List Char} : needle <:+: trimBlanks cs ↔ needle <:+: cs := by
  obtain ⟨pre, post, hpre, hpost, e⟩ := exists_trimBlanks cs
  have h : needle <:+: pre ++ trimBlanks cs ++ post ↔ needle <:+: trimBlanks cs :=
    infix_between_iff hne hn hpre hpost
  rw [← e] at h
  exact h.symm

end

end BearerCredentials.Text
