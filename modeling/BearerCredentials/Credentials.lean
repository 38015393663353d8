import BearerCredentials.Denial
import BearerCredentials.Claims

/-!
# Credentials

Who sends a request: a user name, a set of roles, and every claim of the token as an attribute.

* `Credentials.ofClaims`: the credentials that claims amount to.
* `Credentials.json`, `Credentials.read`: the written form, and reading it.
-/

namespace BearerCredentials

/-- who sends a request -/
structure Credentials where
  username : String
  roles : NameSet
  attributes : NameMap String
deriving DecidableEq

namespace Credentials

/-- what the attribute of a claim is named with, before the claim's name -/
def attributeStart : String := "attr.jwt."

def attributeName (claim : String) : String := attributeStart ++ claim

/-- the attributes of claims: each one as text -/
def attributesOf (claims : Claims) : NameMap String :=
  NameMap.ofList (claims.toList.map fun (name, v) => (attributeName name, claimText v))

def ofClaims (claims : Claims) (subjectKey rolesKey : String) : Except Denial Credentials :=
  match claims.subject? subjectKey with
  | none => .error (.noSubject subjectKey)
  | some username => .ok {
      username
      roles := (RoleClaim.ofClaim (claims.get? rolesKey)).roles
      attributes := attributesOf claims }

def hasRole (c : Credentials) (role : String) : Bool := c.roles.contains role

def attribute? (c : Credentials) (claim : String) : Option String :=
  c.attributes.get? (attributeName claim)

/-- a user name, roles and attributes as they are written, in this order -/
def written (username : String) (roles : List String) (attributes : List (String × String)) : Json :=
  .object [
    ("username", .text username),
    ("backend_roles", .array (roles.map .text)),
    ("attributes", .object (attributes.map fun a => (a.1, .text a.2)))]

/-- the written form -/
def json (c : Credentials) : Json := written c.username c.roles.toList c.attributes.toList

/-- the fields that have arrived while credentials are read -/
structure Draft where
  username : Option String := none
  roles : Option NameSet := none
  attributes : Option (NameMap String) := none

namespace Draft

def has (d : Draft) : String → Bool
  | "username" => d.username.isSome
  | "backend_roles" => d.roles.isSome
  | "attributes" => d.attributes.isSome
  | _ => false

def put (d : Draft) (field : String) (o : Json.Outline) : Except Json.Fault Draft :=
  match field with
  | "username" => return { d with username := some (← o.readText) }
  | "backend_roles" => return { d with roles := some (NameSet.ofList (← o.readTexts)) }
  | "attributes" => return { d with attributes := some (NameMap.ofList (← o.readTextObject)) }
  | _ => return d

/-- the credentials of a draft, which needs all fields -/
def finish : Draft → Except Json.Fault Credentials
  | ⟨some username, some roles, some attributes⟩ => .ok ⟨username, roles, attributes⟩
  | _ => .error .mismatch

end Draft

def record : Json.Record Draft where
  fields := ["username", "backend_roles", "attributes"]
  has := Draft.has
  put := Draft.put

def ofOutline (o : Json.Outline) : Except Json.Fault Credentials :=
  record.ofOutline {} Draft.finish o

def read (s : String) : Except Json.Fault Credentials :=
  (Json.Outline.ofText s).read ofOutline

end Credentials

end BearerCredentials
