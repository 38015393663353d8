import BearerCredentials.Authenticator
import BearerCredentials.Settings.Environment

/-!
# The command line

Shows the credentials that a value of the Authorization header amounts to, under the settings of the
environment. The value is the first argument, or standard input if there is none or it is a dash.

* `CommandLine.run`: what is written and how the command ends.
-/

namespace BearerCredentials.CommandLine

/-- what a command is started with -/
structure Invocation where
  arguments : List String
  input : Bytes
  environment : Environment

/-- how a command ends, and what it has written -/
structure Outcome where
  exitCode : UInt8
  output : String := ""
deriving DecidableEq

/-- the end of a command that has shown credentials -/
def success : UInt8 := 0

/-- the end of a command whose value yields no credentials -/
def noCredentials : UInt8 := 1

/-- the end of a command that cannot read its settings or its input -/
def badInvocation : UInt8 := 2

/-- the end of a command that has broken down -/
def brokenDown : UInt8 := 101

def valueOf? (i : Invocation) : Option String :=
  match i.arguments with
  | [] => ofUtf8? i.input
  | value :: _ => if value = "-" then ofUtf8? i.input else some value

/-- the headers of a request with a value; without it if it may not be sent -/
def headersOf (value : String) : Http.Headers :=
  match Http.Headers.ofList [(Authorization.headerName, utf8 (Text.trim value))] with
  | .ok headers => headers
  | .error _ => []

/-- what is written and how the command ends -/
def run (scheme : SignatureScheme) (now : Nat) (i : Invocation) : Outcome :=
  match Settings.ofEnvironment i.environment with
  | .error _ => { exitCode := badInvocation }
  | .ok settings =>
    match valueOf? i with
    | none => { exitCode := badInvocation }
    | some value =>
      match (Authenticator.ofSettings settings).extract scheme now (headersOf value) with
      | none => { exitCode := brokenDown }
      | some e =>
        match e.credentials with
        | none => { exitCode := noCredentials }
        | some c => { exitCode := success, output := c.json.pretty ++ "\n" }

end BearerCredentials.CommandLine
