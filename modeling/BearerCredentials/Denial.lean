/-!
# Why a request has no credentials

* `Denial`: the causes, one kind for each stage: the key setting, the Authorization header, the token, the
  subject.
* `TokenReport`, `TokenFault.ofReport`: what the check of a token reports, and the fault that this stands for.
* `Denial.code`, `Denial.message`: what programs and people are told.
* `Denial.liesInSettings`: whether the cause is in the settings and not in the request.
-/

namespace BearerCredentials

/-- why the settings give no key -/
inductive KeySettingFault where
  /-- no key is set -/
  | absent
  /-- the key is neither a secret nor a public key -/
  | unreadable
deriving DecidableEq

/-- why a request gives no token -/
inductive AuthorizationFault where
  | missing
  /-- the header has another scheme, or lacks one that is required -/
  | unreadable
deriving DecidableEq

/-- what can be wrong with a token -/
inductive TokenFault where
  /-- a part of it cannot be read, or the key cannot be used with its algorithm -/
  | malformed
  | wrongSignature
  /-- its algorithm does not take a key of the configured kind -/
  | foreignAlgorithm
  | expired
  | premature
deriving DecidableEq

/-- what the check of a token can report -/
inductive TokenReport where
  | wrongSignature
  /-- the algorithm is not among those that the key takes -/
  | foreignAlgorithm
  /-- the name stands for no algorithm -/
  | unknownAlgorithm
  | expired
  | premature
  /-- a part cannot be read, the key cannot be used, or a claim is missing or of a wrong form -/
  | other
deriving DecidableEq

namespace TokenReport

/-- the report of a name; a name that is not listed is that of a report without a fault of its own -/
def ofName : String → TokenReport
  | "InvalidSignature" => wrongSignature
  | "InvalidAlgorithm" => foreignAlgorithm
  | "InvalidAlgorithmName" => unknownAlgorithm
  | "ExpiredSignature" => expired
  | "ImmatureSignature" => premature
  | _ => other

end TokenReport

/-- the fault that a report stands for -/
@[simp] def TokenFault.ofReport : TokenReport → TokenFault
  | .wrongSignature => wrongSignature
  | .foreignAlgorithm | .unknownAlgorithm => foreignAlgorithm
  | .expired => expired
  | .premature => premature
  | .other => malformed

/-- why a request has no credentials -/
inductive Denial where
  | key (fault : KeySettingFault)
  | authorization (fault : AuthorizationFault)
  | token (fault : TokenFault)
  /-- the claim that names the subject is absent, null or blank -/
  | noSubject (claim : String)
deriving DecidableEq

namespace Denial

def code : Denial → String
  | key .absent => "configuration_disabled"
  | key .unreadable => "invalid_signing_key"
  | authorization .missing => "missing_auth_header"
  | authorization .unreadable => "invalid_auth_header"
  | token .malformed => "malformed_token"
  | token .wrongSignature => "invalid_signature"
  | token .foreignAlgorithm => "unsupported_algorithm"
  | token .expired => "token_expired"
  | token .premature => "token_not_yet_valid"
  | noSubject _ => "subject_claim_missing"

def message : Denial → String
  | key .absent => "JWT authentication is disabled (no signing key)"
  | key .unreadable => "Configured signing key is invalid"
  | authorization .missing => "Authorization header is required"
  | authorization .unreadable => "Invalid authorization header format (expected 'Bearer <token>')"
  | token .malformed => "Token is malformed"
  | token .wrongSignature => "Token signature is invalid"
  | token .foreignAlgorithm => "Token algorithm is not accepted for the configured key"
  | token .expired => "Token has expired"
  | token .premature => "Token is not yet valid"
  | noSubject claim => "Token has no '" ++ claim ++ "' claim"

/-- whether the cause is in the settings and not in the request -/
def liesInSettings : Denial → Bool
  | key _ => true
  | _ => false

end Denial

end BearerCredentials
