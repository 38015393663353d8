import BearerCredentials.Base64
import BearerCredentials.Text.Blank

/-!
# Keys in text form

Binary data between a line that begins it and a line that ends it, both with the same label. Between them may
stand headers, closed by an empty line, and then the data in padded base64 with blanks anywhere.

* `Pem.ofText?`: the first such data in a text.
* `Pem.text`: the written form, without headers.
* `seek`: the search for a marker, which starts afresh at the character after a failed attempt.
-/

namespace BearerCredentials

/-- labelled binary data -/
structure Pem where
  label : String
  contents : Bytes
deriving DecidableEq

namespace Pem

/-- moves through a text until the rest of a marker has come in one go; a character that does not fit ends
the attempt and belongs to no other. `read` holds what has been passed, the last character first. -/
def seekFrom (marker : List Char) : (left read cs : List Char) → Option (List Char × List Char)
  | [], read, cs => some ((read.drop marker.length).reverse, cs)
  | _ :: _, _, [] => none
  | m :: left, read, c :: cs =>
    if c = m then seekFrom marker left (c :: read) cs else seekFrom marker marker (c :: read) cs

/-- the text before and after the first marker that the search finds -/
def seek (marker cs : List Char) : Option (List Char × List Char) :=
  seekFrom marker marker [] cs

def lines (cs : List Char) : List (List Char) :=
  let pieces := cs.splitOn '\n'
  if pieces.getLast? = some [] then pieces.dropLast else pieces

/-- the lines of the headers and the data, which an empty line divides; without one all is data -/
def sections (body : List Char) : List (List Char) × List Char :=
  match seek ['\n', '\n'] body with
  | some (headers, data) => (lines headers, data)
  | none =>
    match seek ['\r', '\n', '\r', '\n'] body with
    | some (headers, data) => (lines headers, data)
    | none => ([], body)

/-- what stands before the label of the first line -/
def beginMark : String := "-----BEGIN "

/-- what stands before the label of the last line -/
def endMark : String := "-----END "

/-- what stands after a label -/
def labelMark : String := "-----"

def ofText? (s : String) : Option Pem := do
  let (_, cs) ← seek beginMark.toList s.toList
  let (label, cs) ← seek labelMark.toList cs
  let (body, cs) ← seek endMark.toList (cs.dropWhile Text.isSpace)
  let (endLabel, _) ← seek labelMark.toList cs
  guard (label ≠ [] ∧ label = endLabel)
  let (headers, data) := sections body
  guard (headers.all fun line => line.contains ':')
  let contents ← Base64.decodePadded .standard (data.filter fun c => !Text.isBlank c)
  return ⟨String.ofList label, contents⟩

/-- the greatest length of a line of data -/
def lineWidth : Nat := 64

/-- some symbols in lines of the greatest length, each with its end -/
def inLines (lineEnd symbols : List Char) : List Char :=
  if symbols = [] then []
  else symbols.take lineWidth ++ lineEnd ++ inLines lineEnd (symbols.drop lineWidth)
termination_by symbols.length
decreasing_by
  have : 0 < symbols.length := List.length_pos_iff.2 ‹_›
  rw [List.length_drop, lineWidth]
  omega

def text (lineEnd : String) (pem : Pem) : String :=
  let data := inLines lineEnd.toList (Base64.encodePadded .standard pem.contents)
  beginMark ++ pem.label ++ labelMark ++ lineEnd ++ String.ofList data ++
    endMark ++ pem.label ++ labelMark

end Pem

end BearerCredentials
