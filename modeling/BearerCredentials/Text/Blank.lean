/-!
# Blank characters

The characters with the Unicode property `White_Space`, and what the library does with them: trimming,
taking them out, and splitting a text at a separator.

* `isBlank`: the property, as its ten ranges; `isSpace`: the four of them that formats allow.
* `trimStart`, `trimEnd`, `trim`: a text without the blanks at its ends.
* `squeeze`: a text without any blank.
* `split`: the pieces between the separators, always at least one.
-/

namespace BearerCredentials.Text

def isBlank (c : Char) : Bool :=
  let n := c.toNat
  (0x09 ≤ n && n ≤ 0x0d) || n == 0x20 || n == 0x85 || n == 0xa0 || n == 0x1680 ||
    (0x2000 ≤ n && n ≤ 0x200a) || n == 0x2028 || n == 0x2029 || n == 0x202f || n == 0x205f ||
    n == 0x3000

/-- whether a character is a space, a tab or one of the two that end a line: the blanks that a format allows
between its parts -/
def isSpace (c : Char) : Bool :=
  c == ' ' || c == '\t' || c == '\n' || c == '\r'

/-- the characters from the first one that is not blank on -/
def dropBlanks (cs : List Char) : List Char :=
  cs.dropWhile isBlank

/-- the characters up to the last one that is not blank -/
def dropBlanksEnd (cs : List Char) : List Char :=
  (dropBlanks cs.reverse).reverse

/-- the characters between the first and the last one that is not blank -/
def trimBlanks (cs : List Char) : List Char :=
  dropBlanksEnd (dropBlanks cs)

def trimStart (s : String) : String :=
  String.ofList (dropBlanks s.toList)

def trimEnd (s : String) : String :=
  String.ofList (dropBlanksEnd s.toList)

def trim (s : String) : String :=
  String.ofList (trimBlanks s.toList)

def squeeze (s : String) : String :=
  String.ofList (s.toList.filter fun c => !isBlank c)

/-- whether a text holds no character but blanks -/
def allBlank (s : String) : Bool :=
  s.toList.all isBlank

/-- whether some character of a text is blank -/
def hasBlank (s : String) : Bool :=
  s.toList.any isBlank

/-- the pieces of a text between the occurrences of `sep` -/
def split (sep : Char) (s : String) : List String :=
  (s.toList.splitOn sep).map String.ofList

/-- a text that begins with `start`, without that beginning -/
def stripStart? (start s : String) : Option String :=
  if start.toList.isPrefixOf s.toList then
    some (String.ofList (s.toList.drop start.length))
  else none

/-- whether one list of characters occurs in another as a stretch -/
def hasStretch (needle : List Char) : List Char → Bool
  | [] => needle.isEmpty
  | c :: cs => needle.isPrefixOf (c :: cs) || hasStretch needle cs

theorem isBlank_of_isSpace {c : Char} (h : isSpace c = true) : isBlank c = true := by
  simp only [isSpace, Bool.or_eq_true, beq_iff_eq] at h
  rcases h with ((rfl | rfl) | rfl) | rfl <;> decide

end BearerCredentials.Text
