import BearerCredentials.Json.Value

/-!
# Reading a text of a given shape

Where a value of a given shape is wanted, an array or object in its place is refused where it opens, and a
scalar after it has been read: a scalar that cannot be read reports its own fault. What is of no interest
is passed over, which checks the grammar, but neither the nesting, nor the range of numbers, nor
the pairing of UTF-16 halves.

* `Outline.readText`, `Outline.readBool`, `Outline.readNatural`, `Outline.readTexts`: scalars and lists.
* `Outline.skip`: passing over.
* `Record`: how an object or array is read into a draft whose fields arrive one by one.
-/

namespace BearerCredentials.Json

namespace Outline

/-- the fault of an outline in the place of another shape -/
def refusal : Outline → Fault
  | .number n => match n.value with
    | .ok _ => .mismatch
    | .error f => f
  | .text s => match s.text with
    | .ok _ => .mismatch
    | .error f => f
  | .broken reading _ => reading
  | _ => .mismatch

def readText : Outline → Except Fault String
  | .text s => s.text
  | o => .error o.refusal

def readOptionalText : Outline → Except Fault (Option String)
  | .null => .ok none
  | .text s => s.text.map some
  | o => .error o.refusal

def readBool : Outline → Except Fault Bool
  | .bool b => .ok b
  | o => .error o.refusal

/-- a natural number below `2^64`, spelled as one -/
def readNatural : Outline → Except Fault UInt64
  | .number n => do
    match (← n.value).natural? with
    | some k => return UInt64.ofNat k
    | none => throw .mismatch
  | o => .error o.refusal

def textItems : List Outline → Except Fault (List String)
  | [] => .ok []
  | o :: rest => do
    let t ← o.readText
    let rest ← textItems rest
    return t :: rest

def readTexts : Outline → Except Fault (List String)
  | .array items tear => do
    let ts ← textItems items
    closed tear ts
  | o => .error o.refusal

/-- the names and texts of a list of members -/
def textMembers : List (Spelled × Outline) → Except Fault (List (String × String))
  | [] => .ok []
  | (name, o) :: rest => do
    let name ← name.text
    let t ← o.readText
    let rest ← textMembers rest
    return (name, t) :: rest

def readTextObject : Outline → Except Fault (List (String × String))
  | .object members tear => do
    let ms ← textMembers members
    closed tear ms
  | o => .error o.refusal

mutual

def skip : Outline → Except Fault Unit
  | .text s => closed s.tear ()
  | .broken _ skipping => .error skipping
  | .array items tear => do
    skipItems items
    closed tear ()
  | .object members tear => do
    skipMembers members
    closed tear ()
  | _ => .ok ()

def skipItems : List Outline → Except Fault Unit
  | [] => .ok ()
  | o :: rest => do
    skip o
    skipItems rest

def skipMembers : List (Spelled × Outline) → Except Fault Unit
  | [] => .ok ()
  | (name, o) :: rest => do
    closed name.tear ()
    skip o
    skipMembers rest

end

end Outline

/-- how the fields of a record are read into a draft of it -/
structure Record (draft : Type) where
  /-- the names of the fields, in order -/
  fields : List String
  /-- whether a field has arrived -/
  has : draft → String → Bool
  /-- the draft with one more field -/
  put : draft → String → Outline → Except Fault draft

namespace Record

variable {draft : Type}

/-- the draft after some members of an object: a field may arrive once, other members are passed over -/
def ofMembers (r : Record draft) (d : draft) : List (Spelled × Outline) → Except Fault draft
  | [] => .ok d
  | (name, o) :: rest => do
    let name ← name.text
    if r.fields.contains name then
      if r.has d name then throw .mismatch
      let d ← r.put d name o
      r.ofMembers d rest
    else
      o.skip
      r.ofMembers d rest

/-- the draft after some items of an array, which are the fields in order, and whether items are left -/
def ofItems (r : Record draft) (d : draft) : List String → List Outline → Except Fault (draft × Bool)
  | _, [] => .ok (d, false)
  | [], _ :: _ => .ok (d, true)
  | name :: names, o :: rest => do
    let d ← r.put d name o
    r.ofItems d names rest

/-- the record of an outline, completed from its draft by `finish` -/
def ofOutline {α : Type} (r : Record draft) (empty : draft) (finish : draft → Except Fault α) :
    Outline → Except Fault α
  | .object members tear => do
    let d ← r.ofMembers empty members
    closed tear ()
    finish d
  | .array items tear => do
    let (d, more) ← r.ofItems empty r.fields items
    if more then throw .malformed
    closed tear ()
    finish d
  | o => .error o.refusal

end Record

end BearerCredentials.Json
