import BearerCredentials.Json.Outline
import BearerCredentials.NameMap

/-!
# JSON values

A value keeps the members of its objects as the text gives them, in their order and with repeated names. Its
canonical form has every object sorted by name, and of the members with one name the last.

* `Json.canonical`: the canonical form.
* `Json.read`: the value of a text, with at most 127 levels of nesting.
-/

namespace BearerCredentials

/-- a JSON value -/
inductive Json where
  | null
  | bool (value : Bool)
  | number (value : Json.Number)
  | text (value : String)
  | array (items : List Json)
  | object (members : List (String × Json))

namespace Json

def isNull : Json → Bool
  | null => true
  | _ => false

mutual

/-- the value with its objects sorted by name; of the members with one name the last stays -/
def canonical : Json → Json
  | .array items => .array (canonicalItems items)
  | .object members => .object (NameMap.ofList (canonicalMembers members)).toList
  | v => v

def canonicalItems : List Json → List Json
  | [] => []
  | v :: rest => canonical v :: canonicalItems rest

/-- the members in canonical form, in their order -/
def canonicalMembers : List (String × Json) → List (String × Json)
  | [] => []
  | (name, v) :: rest => (name, canonical v) :: canonicalMembers rest

end

/-- the deepest nesting that is read -/
def maxDepth : Nat := 127

/-- a list that was read to its end, or the fault there -/
def closed {α : Type} (tear : Option Fault) (a : α) : Except Fault α :=
  match tear with
  | none => .ok a
  | some f => .error f

mutual

/-- the value of an outline with at most `depth` levels of nesting -/
def ofOutline (depth : Nat) : Outline → Except Fault Json
  | .null => .ok .null
  | .bool b => .ok (.bool b)
  | .number n => n.value.map .number
  | .text s => s.text.map .text
  | .broken reading _ => .error reading
  | .array items tear =>
    match depth with
    | 0 => .error .malformed
    | depth + 1 => do
      let items ← itemsOfOutlines depth items
      closed tear (.array items)
  | .object members tear =>
    match depth with
    | 0 => .error .malformed
    | depth + 1 => do
      let members ← membersOfOutlines depth members
      closed tear (.object members)

def itemsOfOutlines (depth : Nat) : List Outline → Except Fault (List Json)
  | [] => .ok []
  | o :: rest => do
    let v ← ofOutline depth o
    let rest ← itemsOfOutlines depth rest
    return v :: rest

/-- the names and values of the members of an object -/
def membersOfOutlines (depth : Nat) : List (Spelled × Outline) → Except Fault (List (String × Json))
  | [] => .ok []
  | (name, o) :: rest => do
    let name ← name.text
    let v ← ofOutline depth o
    let rest ← membersOfOutlines depth rest
    return (name, v) :: rest

end

/-- what a text is read as; nothing may follow it -/
def Outline.Document.read {α : Type} (d : Outline.Document) (f : Outline → Except Fault α) :
    Except Fault α := do
  let a ← f d.root
  if d.trailing then throw .malformed
  return a

def read (s : String) : Except Fault Json :=
  (Outline.ofText s).read (ofOutline maxDepth)

end Json

end BearerCredentials
