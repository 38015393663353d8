import BearerCredentials.Json.Print
import BearerCredentials.Json.Shape
import BearerCredentials.Text.Blank

/-!
# Claims

What a token says about its subject: a map from claim names to JSON values in canonical form. One claim of whatever
shape names the roles of the subject: a list separated by commas, an array, or a single value.

* `Claims.read`: the claims of a text, which has to be an object.
* `claimText`: a claim as text, a string as it is and any other value as compact JSON.
* `Claims.subject?`: the subject, if the claim that names it is there and says something.
* `RoleClaim`: the shapes of the claim that names the roles.
* `RoleClaim.roles`: the set of roles, trimmed and without blank ones.
-/

namespace BearerCredentials

abbrev Claims := NameMap Json

namespace Claims

/-- the claims that the members of an object make -/
def ofMembers (members : List (String × Json)) : Claims :=
  NameMap.ofList (Json.canonicalMembers members)

/-- the claims of an outline, which has to be an object -/
def ofOutline : Json.Outline → Except Json.Fault Claims
  | .object members tear => do
    match ← Json.ofOutline Json.maxDepth (.object members tear) with
    | .object members => return ofMembers members
    | _ => throw .mismatch
  | o => .error o.refusal

def read (s : String) : Except Json.Fault Claims :=
  (Json.Outline.ofText s).read ofOutline

end Claims

def claimText : Json → String
  | .text s => s
  | v => v.compact

/-- the subject that a claim names, if there is one -/
def subjectOf? : Option Json → Option String
  | none | some .null => none
  | some (.text s) => if Text.allBlank s then none else some s
  | some v => some (claimText v)

def Claims.subject? (claims : Claims) (subjectKey : String) : Option String :=
  subjectOf? (claims.get? subjectKey)

/-! ## roles -/

/-- the shape of a claim that names roles -/
inductive RoleClaim where
  | absent
  | null
  | text (value : String)
  | sequence (items : List Json)
  | scalar (value : Json)

namespace RoleClaim

/-- the shape of a claim, or of its absence -/
def ofClaim : Option Json → RoleClaim
  | none => .absent
  | some .null => .null
  | some (.text s) => .text s
  | some (.array items) => .sequence items
  | some v => .scalar v

def shape : RoleClaim → String
  | absent => "absent"
  | null => "null"
  | text _ => "text"
  | sequence _ => "sequence"
  | scalar _ => "scalar"

/-- the set of the names that are not blank, trimmed -/
def normalized (names : List String) : NameSet :=
  NameSet.ofList ((names.map Text.trim).filter fun name => !name.isEmpty)

def roles : RoleClaim → NameSet
  | absent | null => ∅
  | text s => normalized (Text.split ',' s)
  | sequence items => normalized ((items.filter fun v => !v.isNull).map claimText)
  | scalar v => NameSet.ofList [claimText v]

end RoleClaim

end BearerCredentials
