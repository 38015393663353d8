import BearerCredentials.Json.Value

/-!
# Written JSON

A layout says which blanks stand between the parts of a value; the rest of the written form is the same in
all of them.

* `Json.render`: a value in a layout.
* `Json.compact`: a value without blanks.
* `Json.pretty`: a value over several lines, two spaces to a level.
-/

namespace BearerCredentials.Json

/-- the blanks between the parts of a value -/
structure Layout where
  /-- what stands before the first item at a level, before a further one, and before the closing mark -/
  lineStart : Nat → List Char
  /-- what stands after the colon of a member -/
  afterColon : List Char

def Layout.compact : Layout := ⟨fun _ => [], []⟩

/-- a line for each item, two spaces to a level -/
def Layout.pretty : Layout := ⟨fun level => '\n' :: List.replicate (2 * level) ' ', [' ']⟩

/-- some texts with separators between them -/
def separated (sep : List Char) : List (List Char) → List Char
  | [] => []
  | [x] => x
  | x :: rest => x ++ sep ++ separated sep rest

/-- items between an opening and a closing mark; nothing stands between the marks if there are none -/
def Layout.enclose (l : Layout) (level : Nat) (opening closing : Char) (items : List (List Char)) : List Char :=
  match items with
  | [] => [opening, closing]
  | items =>
    let start := l.lineStart (level + 1)
    opening :: start ++ separated (',' :: start) items ++ l.lineStart level ++ [closing]

mutual

/-- the characters of a value whose first line stands at a level -/
def render (l : Layout) (level : Nat) : Json → List Char
  | .null => "null".toList
  | .bool true => "true".toList
  | .bool false => "false".toList
  | .number n => n.render
  | .text s => spell s
  | .array items => l.enclose level '[' ']' (renderItems l (level + 1) items)
  | .object members => l.enclose level '\x7b' '\x7d' (renderMembers l (level + 1) members)

def renderItems (l : Layout) (level : Nat) : List Json → List (List Char)
  | [] => []
  | v :: rest => render l level v :: renderItems l level rest

def renderMembers (l : Layout) (level : Nat) : List (String × Json) → List (List Char)
  | [] => []
  | (name, v) :: rest =>
    (spell name ++ ':' :: l.afterColon ++ render l level v) :: renderMembers l level rest

end

def compact (v : Json) : String := String.ofList (render .compact 0 v)

def pretty (v : Json) : String := String.ofList (render .pretty 0 v)

end BearerCredentials.Json
