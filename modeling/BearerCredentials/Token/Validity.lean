import BearerCredentials.Denial
import BearerCredentials.Json.Shape

/-!
# The time in which a token is valid

A payload is read as a record of its registered claims. Each of them may arrive once, in whatever spelling of its
name, and what else the payload holds is passed over.

* `Validity`: the instants between which a token is valid, as far as it gives them.
* `Validity.fault?`: what is wrong with a token at some instant, with some tolerance on both sides.
* `Registered.record`: the record of the registered claims, with the instants that have arrived.
* `Validity.read`: the time in which a token is valid, from the text of its payload.
-/

namespace BearerCredentials.Token

/-- the instants between which a token is valid, in seconds since 1970 -/
structure Validity where
  expires : Option Nat
  starts : Option Nat
deriving DecidableEq

namespace Validity

def registered : List String := ["exp", "nbf", "sub", "iss", "aud"]

/-- what is wrong with a token at an instant: its end lies before `now - tolerance`, or its start after
`now + tolerance`. Instants are natural numbers here; in words of 64 bits the two bounds are the same only as long as
the difference and the sum stay in range, that is for `tolerance ≤ now` and `now + tolerance < 2 ^ 64`. -/
def fault? (v : Validity) (tolerance now : Nat) : Option TokenFault :=
  if v.expires.any fun e => e + tolerance < now then some (.ofReport .expired)
  else if v.starts.any fun s => now + tolerance < s then some (.ofReport .premature)
  else none

end Validity

/-! ## from the payload -/

namespace Registered

/-- the registered claims that have arrived while a payload is read -/
structure Draft where
  /-- their names, the last one first -/
  names : List String := []
  expires : Option Nat := none
  starts : Option Nat := none

/-- the time that has been given so far -/
def Draft.validity (d : Draft) : Validity := ⟨d.expires, d.starts⟩

def readInstant : Json.Outline → Except Json.Fault Nat
  | .number n => do
    match (← n.value).rounded? with
    | some instant => return instant
    | none => throw .mismatch
  | o => .error o.refusal

/-- reads a scalar of any kind -/
def readSubject : Json.Outline → Except Json.Fault Unit
  | .array .. | .object .. => .error .mismatch
  | o => (Json.ofOutline 0 o).map fun _ => ()

/-- reads a value of any kind, one level below the object -/
def readAny (o : Json.Outline) : Except Json.Fault Unit :=
  (Json.ofOutline (Json.maxDepth - 1) o).map fun _ => ()

def put (d : Draft) (field : String) (o : Json.Outline) : Except Json.Fault Draft := do
  let d := { d with names := field :: d.names }
  match field with
  | "exp" => return { d with expires := some (← readInstant o) }
  | "nbf" => return { d with starts := some (← readInstant o) }
  | "sub" => do
    readSubject o
    return d
  | _ => do
    readAny o
    return d

def record : Json.Record Draft where
  fields := Validity.registered
  has d name := d.names.contains name
  put := put

end Registered

namespace Validity

def ofOutline (o : Json.Outline) : Except Json.Fault Validity :=
  Registered.record.ofOutline {} (fun d => .ok d.validity) o

/-- the time in which a token is valid, from the text of its payload -/
def read (s : String) : Except Json.Fault Validity :=
  (Json.Outline.ofText s).read ofOutline

end Validity

end BearerCredentials.Token
