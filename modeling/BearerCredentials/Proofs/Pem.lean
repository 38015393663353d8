import BearerCredentials.Pem
import BearerCredentials.Proofs.Base64.Symbols
import BearerCredentials.Proofs.Text.Trim
import Mathlib.Data.List.Chain

/-!
# Written PEM texts are read back

* `seek_append`                     a marker is found after characters that cannot begin it;
* `seek_eq_none`                    it is not found where it does not occur;
* `HasNoEmptyLine`                  lines with something in them, so that none of them divides headers from data;
* `hasNoEmptyLine_inLines`          this is how data is broken into lines;
* `ofText?_text`                    labelled data is read back from its text.
-/

namespace BearerCredentials.Pem

/-! ## the search for a marker -/

theorem seekFrom_self (marker left read cs : List Char) :
    seekFrom marker left read (left ++ cs) = some (((left.reverse ++ read).drop marker.length).reverse, cs) := by
  induction left generalizing read with
  | nil =>
    rw [List.nil_append, seekFrom]
    rfl
  | cons m left ih =>
    rw [List.cons_append, seekFrom, if_pos rfl, ih, List.reverse_cons, List.append_assoc, List.singleton_append]

section
variable {m : Char} {marker body : List Char}

theorem seekFrom_skip (h : ¬ m ∈ body) (read cs : List Char) :
    seekFrom (m :: marker) (m :: marker) read (body ++ cs) =
      seekFrom (m :: marker) (m :: marker) (body.reverse ++ read) cs := by
  induction body generalizing read with
  | nil => rfl
  | cons c body ih =>
    have ⟨hc, hbody⟩ := not_or.1 (mt List.mem_cons.2 h)
    rw [List.cons_append, seekFrom, if_neg (Ne.symm hc), ih hbody, List.reverse_cons, List.append_assoc,
      List.singleton_append]

/-- a marker is found after characters that cannot begin it -/
theorem seek_append (h : ¬ m ∈ body) (cs : List Char) :
    seek (m :: marker) (body ++ (m :: marker ++ cs)) = some (body, cs) := by
  have hl : (m :: marker).length = (m :: marker).reverse.length := List.length_reverse.symm
  rw [seek, seekFrom_skip h, seekFrom_self, hl, List.drop_left, List.append_nil, List.reverse_reverse]

theorem seek_mark {mark : String} (hmark : mark.toList = m :: marker) (h : ¬ m ∈ body) (cs : List Char) :
    seek mark.toList (body ++ (mark.toList ++ cs)) = some (body, cs) := by
  rw [hmark]
  exact seek_append h cs

end

/-- whatever has been matched so far, a marker that is found occurs from there on -/
theorem infix_of_seekFrom {marker left read cs : List Char} {found : List Char × List Char}
    (h : seekFrom marker left read cs = some found) {matched : List Char} (hm : marker = matched ++ left) :
    marker <:+: matched ++ cs := by
  induction cs generalizing left read matched with
  | nil =>
    cases left with
    | nil =>
      subst hm
      exact List.infix_refl _
    | cons m left => cases h
  | cons c cs ih =>
    cases left with
    | nil =>
      rw [hm, List.append_nil]
      exact (List.prefix_append matched (c :: cs)).isInfix
    | cons m left =>
      rw [seekFrom] at h
      split at h
      · rename_i hc
        have hm' : marker = matched ++ [m] ++ left := by rw [hm, List.append_assoc, List.singleton_append]
        have hi := ih h hm'
        rwa [List.append_assoc, List.singleton_append, ← hc] at hi
      · -- the attempt has failed, and the next one starts with nothing matched
        have hi := ih h (List.nil_append marker).symm
        rw [List.nil_append] at hi
        exact hi.trans (((List.suffix_cons c cs).trans (List.suffix_append matched (c :: cs))).isInfix)

theorem seek_eq_none {marker cs : List Char} (h : ¬ marker <:+: cs) : seek marker cs = none := by
  cases hs : seek marker cs with
  | none => rfl
  | some found => exact absurd (infix_of_seekFrom hs (List.nil_append marker).symm) h

/-! ## lines -/

/-- no character that ends a line is followed by another one that does, or may -/
def HasNoEmptyLine (body : List Char) : Prop :=
  body.IsChain fun c d => c = '\n' → d ≠ '\n' ∧ d ≠ '\r'

/-- without an empty line there are no headers -/
theorem sections_of_hasNoEmptyLine {body : List Char} (h : HasNoEmptyLine body) : sections body = ([], body) := by
  have hlf : seek ['\n', '\n'] body = none := by
    refine seek_eq_none fun hi => ?_
    have hc := List.IsChain.infix h hi
    rw [List.isChain_cons_cons] at hc
    exact (hc.1 rfl).1 rfl
  have hcrlf : seek ['\r', '\n', '\r', '\n'] body = none := by
    refine seek_eq_none fun hi => ?_
    have hc := List.IsChain.infix h hi
    rw [List.isChain_cons_cons, List.isChain_cons_cons] at hc
    exact (hc.2.1 rfl).2 rfl
  rw [sections, hlf, hcrlf]

/-- the two ways to end a line -/
def IsLineEnd (lineEnd : String) : Prop := lineEnd = "\n" ∨ lineEnd = "\r\n"

instance (lineEnd : String) : Decidable (IsLineEnd lineEnd) := by
  unfold IsLineEnd
  infer_instance

theorem IsLineEnd.isSpace {lineEnd : String} (h : IsLineEnd lineEnd) :
    ∀ c ∈ lineEnd.toList, Text.isSpace c = true := by
  rw [← List.all_eq_true]
  rcases h with rfl | rfl <;> rfl

section
variable {lineEnd symbols : List Char}

theorem mem_inLines {c : Char} (h : c ∈ inLines lineEnd symbols) : c ∈ lineEnd ∨ c ∈ symbols := by
  fun_induction inLines lineEnd symbols with
  | case1 => exact absurd h List.not_mem_nil
  | case2 symbols _ ih =>
    rcases List.mem_append.1 h with h | h
    · rcases List.mem_append.1 h with h | h
      · exact Or.inr (List.mem_of_mem_take h)
      · exact Or.inl h
    · exact (ih h).imp_right List.mem_of_mem_drop

/-- what the lines hold but for their ends -/
theorem filter_inLines (he : ∀ c ∈ lineEnd, Text.isBlank c = true) (hs : ∀ c ∈ symbols, Text.isBlank c = false) :
    (inLines lineEnd symbols).filter (fun c => !Text.isBlank c) = symbols := by
  fun_induction inLines lineEnd symbols with
  | case1 => rfl
  | case2 symbols _ ih =>
    have htake : (symbols.take lineWidth).filter (fun c => !Text.isBlank c) = symbols.take lineWidth := by
      rw [List.filter_eq_self]
      intro c hc
      rw [hs c (List.mem_of_mem_take hc)]
      rfl
    have hend : lineEnd.filter (fun c => !Text.isBlank c) = [] := by
      rw [List.filter_eq_nil_iff]
      intro c hc
      rw [he c hc]
      exact Bool.false_ne_true
    rw [List.filter_append, List.filter_append, htake, hend, List.append_nil,
      ih fun c hc => hs c (List.mem_of_mem_drop hc), List.take_append_drop]

theorem head?_inLines : (inLines lineEnd symbols).head? = symbols.head? := by
  rw [inLines]
  split
  · rename_i h
    rw [h]
  · rename_i h
    obtain ⟨c, cs, rfl⟩ := List.exists_cons_of_ne_nil h
    rfl

/-- data begins where the end of the line before it is passed -/
theorem dropWhile_inLines (hs : ∀ c ∈ symbols, Text.isBlank c = false) {d : Char} (hd : Text.isSpace d = false)
    (rest : List Char) :
    (inLines lineEnd symbols ++ d :: rest).dropWhile Text.isSpace = inLines lineEnd symbols ++ d :: rest := by
  have hfirst : ∀ c ∈ (inLines lineEnd symbols).head?, Text.isSpace c = false := by
    intro c hc
    rw [head?_inLines] at hc
    have hb := hs c (List.mem_of_mem_head? hc)
    rw [← Bool.not_eq_true]
    intro h
    rw [Text.isBlank_of_isSpace h] at hb
    cases hb
  cases hdata : inLines lineEnd symbols with
  | nil => rw [List.nil_append, List.dropWhile_cons_of_neg (by rw [hd]; exact Bool.false_ne_true)]
  | cons c cs =>
    have hc := hfirst c (by rw [hdata]; rfl)
    rw [List.cons_append, List.dropWhile_cons_of_neg (by rw [hc]; exact Bool.false_ne_true)]

end

/-- **Lines of data are not empty.** -/
theorem hasNoEmptyLine_inLines {lineEnd : String} (he : IsLineEnd lineEnd) {symbols : List Char}
    (hs : ∀ c ∈ symbols, Text.isBlank c = false) : HasNoEmptyLine (inLines lineEnd.toList symbols) := by
  have hne {c : Char} (hc : Text.isBlank c = false) : c ≠ '\n' ∧ c ≠ '\r' := by
    constructor
    · rintro rfl
      exact absurd hc (by decide)
    · rintro rfl
      exact absurd hc (by decide)
  generalize hends : lineEnd.toList = ends
  fun_induction inLines ends symbols with
  | case1 => exact .nil
  | case2 symbols _ ih =>
    have hchunk : HasNoEmptyLine (symbols.take lineWidth) :=
      (List.pairwise_of_forall_mem_list fun c hc d _ hn =>
        absurd hn (hne (hs c (List.mem_of_mem_take hc))).1).isChain
    have hend : HasNoEmptyLine ends := by
      rcases he with rfl | rfl <;> subst hends
      · exact .singleton _
      · exact .cons_cons (by decide) (.singleton _)
    have hrest : HasNoEmptyLine (inLines ends (symbols.drop lineWidth)) :=
      ih fun c hc => hs c (List.mem_of_mem_drop hc)
    rw [HasNoEmptyLine, List.isChain_append, List.isChain_append]
    refine ⟨⟨hchunk, hend, ?_⟩, hrest, ?_⟩
    · intro c hc d _ hn
      have hc' := List.mem_of_mem_take (List.mem_of_getLast? hc)
      exact absurd hn (hne (hs c hc')).1
    · -- after the end of a line comes a symbol
      intro c _ d hd _
      rw [head?_inLines] at hd
      exact hne (hs d (List.mem_of_mem_drop (List.mem_of_mem_head? hd)))

/-! ## data in lines -/

section
variable {lineEnd : String} (he : IsLineEnd lineEnd) (contents : Bytes)
include he

/-- data holds no mark that could begin the marker after it -/
theorem mark_notMem_data : ¬ '-' ∈ inLines lineEnd.toList (Base64.encodePadded .standard contents) := by
  intro hc
  rcases mem_inLines hc with hc | hc
  · exact absurd (he.isSpace _ hc) (by decide)
  · exact Base64.mark_notMem_encodePadded (Or.inl rfl) contents hc

theorem sections_data :
    sections (inLines lineEnd.toList (Base64.encodePadded .standard contents)) =
      ([], inLines lineEnd.toList (Base64.encodePadded .standard contents)) :=
  sections_of_hasNoEmptyLine (hasNoEmptyLine_inLines he fun _ => Base64.isBlank_of_mem_encodePadded)

/-- the end of the line of the label is passed, and nothing of the data -/
theorem dropWhile_data {d : Char} (hd : Text.isSpace d = false) (rest : List Char) :
    (lineEnd.toList ++ (inLines lineEnd.toList (Base64.encodePadded .standard contents) ++ d :: rest)).dropWhile
      Text.isSpace = inLines lineEnd.toList (Base64.encodePadded .standard contents) ++ d :: rest := by
  rw [List.dropWhile_append_of_pos he.isSpace]
  exact dropWhile_inLines (fun _ => Base64.isBlank_of_mem_encodePadded) hd rest

theorem decodePadded_data :
    Base64.decodePadded .standard
      ((inLines lineEnd.toList (Base64.encodePadded .standard contents)).filter fun c => !Text.isBlank c) =
        some contents := by
  rw [filter_inLines (fun c hc => Text.isBlank_of_isSpace (he.isSpace c hc))
    fun _ => Base64.isBlank_of_mem_encodePadded]
  exact (Base64.decodePadded_eq_some_iff .standard).2 rfl

end

/-! ## the text -/

theorem toList_text (lineEnd : String) (pem : Pem) :
    (text lineEnd pem).toList = beginMark.toList ++ (pem.label.toList ++ (labelMark.toList ++ (lineEnd.toList ++
      (inLines lineEnd.toList (Base64.encodePadded .standard pem.contents) ++
        (endMark.toList ++ (pem.label.toList ++ labelMark.toList)))))) := by
  simp only [text, String.toList_append, String.toList_ofList, List.append_assoc]

theorem beginMark_prefix_text (lineEnd : String) (pem : Pem) : beginMark.toList <+: (text lineEnd pem).toList := by
  rw [toList_text]
  exact List.prefix_append _ _

theorem labelMark_suffix_text (lineEnd : String) (pem : Pem) : labelMark.toList <:+ (text lineEnd pem).toList := by
  refine ⟨(beginMark ++ pem.label ++ labelMark ++ lineEnd ++
    String.ofList (inLines lineEnd.toList (Base64.encodePadded .standard pem.contents)) ++
      endMark ++ pem.label).toList, ?_⟩
  rw [← String.toList_append]
  rfl

/-- there are no blanks at the ends of a text -/
theorem trimmed_text (lineEnd : String) (pem : Pem) : Text.Trimmed (text lineEnd pem).toList := by
  constructor
  · intro c hc
    obtain ⟨rest, e⟩ := beginMark_prefix_text lineEnd pem
    rw [← e] at hc
    cases hc
    decide
  · intro c hc
    obtain ⟨rest, e⟩ := labelMark_suffix_text lineEnd pem
    have hlast : labelMark.toList.getLast? = some '-' := rfl
    rw [← e, List.getLast?_append, hlast] at hc
    cases hc
    decide

/-- **Labelled data is read back from its text.** -/
theorem ofText?_text {lineEnd : String} (he : IsLineEnd lineEnd) {pem : Pem} (hne : pem.label ≠ "")
    (hlabel : ¬ '-' ∈ pem.label.toList) : ofText? (text lineEnd pem) = some pem := by
  have htext := toList_text lineEnd pem
  have hdash := mark_notMem_data he pem.contents
  have hdrop := dropWhile_data he pem.contents (show Text.isSpace '-' = false by decide)
    ("----END ".toList ++ (pem.label.toList ++ labelMark.toList))
  have hsections := sections_data he pem.contents
  have hcontents := decodePadded_data he pem.contents
  generalize inLines lineEnd.toList (Base64.encodePadded .standard pem.contents) = data at *
  have hbegin := seek_mark (show beginMark.toList = '-' :: "----BEGIN ".toList from rfl) List.not_mem_nil
    (pem.label.toList ++ (labelMark.toList ++ (lineEnd.toList ++ (data ++ (endMark.toList ++
      (pem.label.toList ++ labelMark.toList))))))
  rw [List.nil_append, ← htext] at hbegin
  have hmark := seek_mark (show labelMark.toList = '-' :: "----".toList from rfl) hlabel
  have hlast := hmark []
  rw [List.append_nil] at hlast
  have hend := seek_mark (show endMark.toList = '-' :: "----END ".toList from rfl) hdash
    (pem.label.toList ++ labelMark.toList)
  have hne' : pem.label.toList ≠ [] := mt String.toList_eq_nil_iff.1 hne
  -- the markers one after the other, then the two checks and the data
  refine Option.bind_eq_some_iff.2 ⟨_, hbegin, ?_⟩
  refine Option.bind_eq_some_iff.2 ⟨_, hmark _, ?_⟩
  refine Option.bind_eq_some_iff.2 ⟨_, (congrArg _ hdrop).trans hend, ?_⟩
  refine Option.bind_eq_some_iff.2 ⟨_, hlast, ?_⟩
  refine Option.bind_eq_some_iff.2 ⟨(), if_pos ⟨hne', rfl⟩, ?_⟩
  rw [hsections]
  refine Option.bind_eq_some_iff.2 ⟨(), if_pos rfl, ?_⟩
  refine Option.bind_eq_some_iff.2 ⟨_, hcontents, ?_⟩
  rw [String.ofList_toList]
  rfl

end BearerCredentials.Pem
