import BearerCredentials.Settings

/-!
# Settings from the environment

* `Settings.ofEnvironment`: the settings that environment variables give; unset and blank ones are defaults.
* `Settings.toEnvironment`: the environment that spells settings out.
* `EnvironmentError.message`: what is said of a variable that cannot be read.
-/

namespace BearerCredentials

/-- the values of the environment variables that are set -/
abbrev Environment := String → Option String

namespace Environment

def signingKey : String := "JWT_SIGNING_KEY"

def encryptionKey : String := "JWT_ENCRYPTION_KEY"

def subjectKey : String := "JWT_SUBJECT_KEY"

def rolesKey : String := "JWT_ROLES_KEY"

def clockSkewTolerance : String := "JWT_CLOCK_SKEW_TOLERANCE_SECONDS"

def requireBearerScheme : String := "JWT_REQUIRE_BEARER_SCHEME"

/-- the variable that says how log lines are written, which is no setting of authentication -/
def logFormat : String := "LOG_FORMAT"

def names : List String :=
  [signingKey, encryptionKey, subjectKey, rolesKey, clockSkewTolerance, requireBearerScheme, logFormat]

/-- the value of a variable that is set and not blank -/
def present? (env : Environment) (name : String) : Option String :=
  (env name).filter fun value => !(Text.trim value).isEmpty

end Environment

/-- a variable whose value cannot be read -/
structure EnvironmentError where
  name : String
  /-- the value as it is set -/
  value : String
deriving DecidableEq

/-- what is said of a variable that cannot be read -/
def EnvironmentError.message (e : EnvironmentError) : String :=
  "invalid value for " ++ e.name ++ ": " ++ Text.quote e.value

namespace Settings

/-- digits without the plus sign that may stand before them -/
def dropPlus : List Char → List Char
  | '+' :: rest => rest
  | cs => cs

/-- a natural number below `2^64` in decimal digits, with an optional plus sign -/
def parseSeconds? (s : String) : Option UInt64 :=
  let digits := dropPlus s.toList
  if digits.isEmpty || !digits.all Char.isDigit then none
  else
    let n := Nat.ofDigitChars 10 digits 0
    if n < UInt64.size then some (UInt64.ofNat n) else none

/-- a truth value in one of its spellings, in any case of ASCII letters -/
def parseSwitch? (s : String) : Option Bool :=
  let word := String.ofList (s.toList.map Char.toLower)
  if ["1", "true", "yes", "on"].contains word then some true
  else if ["0", "false", "no", "off"].contains word then some false
  else none

/-- the value of a variable, if it is present, as `parse?` reads it without the blanks at its ends -/
def readVariable {α : Type} (env : Environment) (name : String) (parse? : String → Option α)
    (default : α) : Except EnvironmentError α :=
  match env.present? name with
  | none => .ok default
  | some value =>
    match parse? (Text.trim value) with
    | some a => .ok a
    | none => .error ⟨name, value⟩

/-- the settings that environment variables give -/
def ofEnvironment (env : Environment) : Except EnvironmentError Settings := do
  let clockSkewTolerance ←
    readVariable env Environment.clockSkewTolerance parseSeconds? default.clockSkewTolerance
  let requireBearerScheme ←
    readVariable env Environment.requireBearerScheme parseSwitch? default.requireBearerScheme
  return {
    signingKey := env.present? Environment.signingKey
    encryptionKey := env.present? Environment.encryptionKey
    subjectKey := ((env.present? Environment.subjectKey).map Text.trim).getD default.subjectKey
    rolesKey := ((env.present? Environment.rolesKey).map Text.trim).getD default.rolesKey
    clockSkewTolerance
    requireBearerScheme }

/-- the environment that spells settings out -/
def toEnvironment (s : Settings) : Environment := fun name =>
  if name = Environment.signingKey then s.signingKey
  else if name = Environment.encryptionKey then s.encryptionKey
  else if name = Environment.subjectKey then some s.subjectKey
  else if name = Environment.rolesKey then some s.rolesKey
  else if name = Environment.clockSkewTolerance then
    some (String.ofList (Nat.toDigits 10 s.clockSkewTolerance.toNat))
  else if name = Environment.requireBearerScheme then some (Text.renderBool s.requireBearerScheme)
  else none

end Settings

end BearerCredentials
