import BearerCredentials.Http.Headers
import BearerCredentials.Credentials
import BearerCredentials.Settings
import BearerCredentials.Token

/-!
# Authentication of requests

An authenticator is made from the settings once, and answers requests after that. A request has credentials, or
there is a cause why it has none; only the log says which.

* `Authenticator.ofSettings`: the authenticator, and what is logged while it is made.
* `Authenticator.authenticate`: the credentials of a request, or why there are none.
* `Authenticator.extract`: the credentials of a request if there are any, and what is logged.
-/

namespace BearerCredentials

/-- how much an event matters -/
inductive LogLevel where
  | debug
  | info
  | warn
deriving DecidableEq

/-- what is logged -/
inductive LogEvent where
  | keyLoaded (kind : KeyKind)
  | keyAbsent
  | keyRejected (cause : KeySettingFault)
  | encryptionKeyIgnored
  | accepted (username : String) (roles : Nat)
  | refused (cause : Denial)
deriving DecidableEq

/-- the value of a field of an event -/
inductive LogField where
  | text (value : String)
  | count (value : Nat)
deriving DecidableEq

namespace LogEvent

def level : LogEvent → LogLevel
  | keyLoaded _ | accepted .. | refused _ => .debug
  | keyAbsent => .info
  | keyRejected _ | encryptionKeyIgnored => .warn

def message : LogEvent → String
  | keyLoaded _ => "JWT signing key loaded"
  | keyAbsent => "No JWT signing key configured, bearer authentication disabled"
  | keyRejected _ => "JWT signing key rejected, bearer authentication disabled"
  | encryptionKeyIgnored => "JWT claims encryption key is not valid base64, ignoring it"
  | accepted .. => "Bearer token accepted"
  | refused _ => "No bearer credentials"

def fields : LogEvent → List (String × LogField)
  | keyLoaded kind => [("family", .text kind.name)]
  | keyAbsent | encryptionKeyIgnored => []
  | keyRejected cause => [("error_code", .text (Denial.key cause).code)]
  | accepted username roles => [("username", .text username), ("roles", .count roles)]
  | refused cause => [("error_code", .text cause.code), ("error", .text cause.message)]

end LogEvent

/-- what answers requests -/
structure Authenticator where
  /-- the key, or why there is none -/
  key : Except KeySettingFault VerifyingKey
  /-- the tolerance for `exp` and `nbf`, in seconds -/
  tolerance : UInt64
  subjectKey : String
  rolesKey : String
  requireBearerScheme : Bool
  encryptionKey : Option Bytes

/-- the credentials of a request, and what is logged -/
structure Extraction where
  credentials : Option Credentials
  log : List LogEvent

namespace Authenticator

/-- the key for encrypted claims that a setting gives; blank is none -/
def encryptionKeyOf (setting : Option String) : Option Bytes × List LogEvent :=
  match setting.filter fun raw => !(Text.trim raw).isEmpty with
  | none => (none, [])
  | some raw =>
    match decodeSecret? raw with
    | some key => (some key, [])
    | none => (none, [.encryptionKeyIgnored])

def keyEvent : Except KeySettingFault VerifyingKey → LogEvent
  | .ok key => .keyLoaded key.kind
  | .error .absent => .keyAbsent
  | .error cause => .keyRejected cause

def ofSettings (s : Settings) : Authenticator where
  key := VerifyingKey.ofSetting s.signingKey
  tolerance := s.clockSkewTolerance
  subjectKey := s.subjectKey
  rolesKey := s.rolesKey
  requireBearerScheme := s.requireBearerScheme
  encryptionKey := (encryptionKeyOf s.encryptionKey).1

/-- what is logged while the authenticator of some settings is made -/
def makingLog (s : Settings) : List LogEvent :=
  keyEvent (VerifyingKey.ofSetting s.signingKey) :: (encryptionKeyOf s.encryptionKey).2

def isEnabled (a : Authenticator) : Bool := a.key.isOk

def algorithms (a : Authenticator) : List Algorithm :=
  match a.key with
  | .ok key => key.algorithms
  | .error _ => []

/-- the credentials that a token amounts to at an instant -/
def credentialsOf (scheme : SignatureScheme) (a : Authenticator) (key : VerifyingKey) (now : Nat)
    (token : String) : Except (Failure Denial) Credentials :=
  match Token.ofText? token with
  | none => .error (.refused (.token .malformed))
  | some t =>
    match t.claims scheme key a.tolerance.toNat now with
    | .error (.refused fault) => .error (.refused (.token fault))
    | .error .brokenDown => .error .brokenDown
    | .ok claims => (Credentials.ofClaims claims a.subjectKey a.rolesKey).mapError .refused

/-- the credentials of a request at an instant, or why there are none -/
def authenticate (scheme : SignatureScheme) (a : Authenticator) (now : Nat) (headers : Http.Headers) :
    Except (Failure Denial) Credentials := do
  let key ← a.key.mapError fun fault => .refused (.key fault)
  let token ← (Authorization.ofHeaders a.requireBearerScheme headers).mapError .refused
  credentialsOf scheme a key now token

/-- the credentials of a request at an instant if there are any; none at all in a breakdown -/
def extract (scheme : SignatureScheme) (a : Authenticator) (now : Nat) (headers : Http.Headers) :
    Option Extraction :=
  match a.authenticate scheme now headers with
  | .ok c => some ⟨some c, [.accepted c.username c.roles.size]⟩
  | .error (.refused cause) => some ⟨none, [.refused cause]⟩
  | .error .brokenDown => none

def keyFaultName : KeySettingFault → String
  | .absent => "ConfigurationDisabled"
  | .unreadable => "InvalidSigningKey"

/-- how a key is shown, or why there is none -/
def keyText : Except KeySettingFault VerifyingKey → String
  | .ok key => "Ok(" ++ key.debug ++ ")"
  | .error cause => "Err(" ++ keyFaultName cause ++ ")"

/-- the fields as they are shown -/
def shown (a : Authenticator) : List (String × String) := [
  ("key", keyText a.key),
  ("algorithms", Text.renderList (a.algorithms.map Algorithm.name)),
  ("leeway", toString a.tolerance),
  ("subject_key", Text.quote a.subjectKey),
  ("roles_key", Text.quote a.rolesKey),
  ("require_bearer_scheme", Text.renderBool a.requireBearerScheme),
  ("encryption_key", Text.renderBool a.encryptionKey.isSome)]

def debug (a : Authenticator) : String := Text.renderRecord "JwtAuthenticator" a.shown

end Authenticator

end BearerCredentials
