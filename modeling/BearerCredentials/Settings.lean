import BearerCredentials.Json.Print
import BearerCredentials.Json.Shape
import BearerCredentials.Text.Blank
import BearerCredentials.Text.Rendering

/-!
# Settings

What has to be known before requests are answered: the keys, the claims that name the subject and the roles,
the tolerance for clocks that disagree, and whether the scheme may be left out.

* `Settings`: the record with its defaults, and one function per field that may be overridden.
* `Settings.json`, `Settings.read`: the written form, and reading it; fields that are left out have defaults.
* `Settings.debug`: a rendering that shows whether a key is there, never the key.
-/

namespace BearerCredentials

structure Settings where
  /-- a secret in base64 or a public key in PEM; without it no request has credentials -/
  signingKey : Option String := none
  /-- a key in base64 for encrypted claims -/
  encryptionKey : Option String := none
  subjectKey : String := "sub"
  rolesKey : String := "roles"
  /-- the tolerance for `exp` and `nbf`, in seconds -/
  clockSkewTolerance : UInt64 := 30
  /-- whether a token without the scheme is refused -/
  requireBearerScheme : Bool := false
deriving DecidableEq

namespace Settings

def default : Settings := {}

instance : Inhabited Settings := ⟨default⟩

def ofSigningKey (key : String) : Settings := { signingKey := some key }

def withEncryptionKey (s : Settings) (key : String) : Settings := { s with encryptionKey := some key }

def withSubjectKey (s : Settings) (claim : String) : Settings := { s with subjectKey := claim }

def withRolesKey (s : Settings) (claim : String) : Settings := { s with rolesKey := claim }

def withClockSkewTolerance (s : Settings) (seconds : UInt64) : Settings :=
  { s with clockSkewTolerance := seconds }

def withRequiredBearerScheme (s : Settings) : Settings := { s with requireBearerScheme := true }

/-- whether there is a signing key that is not blank -/
def isEnabled (s : Settings) : Bool :=
  match s.signingKey with
  | none => false
  | some key => !(Text.trim key).isEmpty

/-- whether a key is there, which is all that is shown of it -/
def redacted (key : Option String) : String :=
  match key with
  | none => "None"
  | some _ => "Some(" ++ Text.quote "<redacted>" ++ ")"

/-- the fields as they are shown -/
def shown (s : Settings) : List (String × String) := [
  ("signing_key", redacted s.signingKey),
  ("encryption_key", redacted s.encryptionKey),
  ("subject_key", Text.quote s.subjectKey),
  ("roles_key", Text.quote s.rolesKey),
  ("clock_skew_tolerance_seconds", toString s.clockSkewTolerance),
  ("require_bearer_scheme", Text.renderBool s.requireBearerScheme)]

def debug (s : Settings) : String := Text.renderRecord "AuthConfig" s.shown

def jsonOption (key : Option String) : Json :=
  match key with
  | none => .null
  | some key => .text key

/-- a natural number of 64 bits -/
def jsonNatural (n : UInt64) : Json :=
  .number (.integer n.toNat (by omega) (by have := n.toNat_lt; omega))

/-- the members of written settings: all fields in this order -/
def writtenMembers (s : Settings) : List (String × Json) := [
  ("signing_key", jsonOption s.signingKey),
  ("encryption_key", jsonOption s.encryptionKey),
  ("subject_key", .text s.subjectKey),
  ("roles_key", .text s.rolesKey),
  ("clock_skew_tolerance_seconds", jsonNatural s.clockSkewTolerance),
  ("require_bearer_scheme", .bool s.requireBearerScheme)]

/-- the written form -/
def json (s : Settings) : Json := .object s.writtenMembers

/-- the fields that have arrived while settings are read -/
structure Draft where
  signingKey : Option (Option String) := none
  encryptionKey : Option (Option String) := none
  subjectKey : Option String := none
  rolesKey : Option String := none
  clockSkewTolerance : Option UInt64 := none
  requireBearerScheme : Option Bool := none

namespace Draft

def has (d : Draft) : String → Bool
  | "signing_key" => d.signingKey.isSome
  | "encryption_key" => d.encryptionKey.isSome
  | "subject_key" => d.subjectKey.isSome
  | "roles_key" => d.rolesKey.isSome
  | "clock_skew_tolerance_seconds" => d.clockSkewTolerance.isSome
  | "require_bearer_scheme" => d.requireBearerScheme.isSome
  | _ => false

def put (d : Draft) (field : String) (o : Json.Outline) : Except Json.Fault Draft :=
  match field with
  | "signing_key" => return { d with signingKey := some (← o.readOptionalText) }
  | "encryption_key" => return { d with encryptionKey := some (← o.readOptionalText) }
  | "subject_key" => return { d with subjectKey := some (← o.readText) }
  | "roles_key" => return { d with rolesKey := some (← o.readText) }
  | "clock_skew_tolerance_seconds" => return { d with clockSkewTolerance := some (← o.readNatural) }
  | "require_bearer_scheme" => return { d with requireBearerScheme := some (← o.readBool) }
  | _ => return d

/-- the settings of a draft; a field that has not arrived has its default -/
def finish (d : Draft) : Settings where
  signingKey := d.signingKey.getD default.signingKey
  encryptionKey := d.encryptionKey.getD default.encryptionKey
  subjectKey := d.subjectKey.getD default.subjectKey
  rolesKey := d.rolesKey.getD default.rolesKey
  clockSkewTolerance := d.clockSkewTolerance.getD default.clockSkewTolerance
  requireBearerScheme := d.requireBearerScheme.getD default.requireBearerScheme

end Draft

def record : Json.Record Draft where
  fields := ["signing_key", "encryption_key", "subject_key", "roles_key",
    "clock_skew_tolerance_seconds", "require_bearer_scheme"]
  has := Draft.has
  put := Draft.put

def ofOutline (o : Json.Outline) : Except Json.Fault Settings :=
  record.ofOutline {} (fun d => .ok d.finish) o

def read (s : String) : Except Json.Fault Settings :=
  (Json.Outline.ofText s).read ofOutline

end Settings

end BearerCredentials
