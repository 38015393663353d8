import BearerCredentials.Bytes
import BearerCredentials.Denial
import BearerCredentials.Text.Blank

/-!
# Request headers

The headers of a request in the order of their arrival. Names are compared without regard to the case of
ASCII letters, and the first header of a name counts. A token is sent in the Authorization header, after the scheme
`Bearer`, or bare where the settings allow it.

* `Headers.ofList`: the headers of a list of names and values; the first bad one is refused.
* `Headers.first?`: the value of the first header of a name.
* `visible?`: a value as text, if it consists of visible ASCII characters, spaces and tabs.
* `Authorization.parse`: the token in the value of the Authorization header.
* `Authorization.ofHeaders`: the token in the first such header of a request.
-/

namespace BearerCredentials.Http

/-- a header that cannot be sent -/
inductive HeaderFault where
  | name
  | value
deriving DecidableEq

/-- the characters of a header name that are neither letters nor digits -/
def nameMarks : List Char := "!#$%&'*+-.^_`|~".toList

/-- whether a byte may stand in a header name -/
def isNameByte (b : UInt8) : Bool :=
  let c := Char.ofNat b.toNat
  c.isAlphanum || nameMarks.contains c

/-- whether a byte may stand in a header value -/
def isValueByte (b : UInt8) : Bool :=
  b == 0x09 || (0x20 ≤ b && b != 0x7f)

/-- the greatest length of a header name -/
def maxNameLength : Nat := 65535

def isName (name : Bytes) : Bool :=
  !name.isEmpty && name.length ≤ maxNameLength && name.all isNameByte

def isValue (value : Bytes) : Bool := value.all isValueByte

/-- a header name and value as they are sent -/
structure Header where
  name : Bytes
  value : Bytes
  isName_name : isName name = true := by decide
  isValue_value : isValue value = true := by decide

/-- the headers of a request in the order of their arrival -/
abbrev Headers := List Header

/-- a byte with a capital ASCII letter made small -/
def lowerByte (b : UInt8) : UInt8 :=
  if 0x41 ≤ b ∧ b ≤ 0x5a then b + 0x20 else b

def sameName (x y : Bytes) : Bool := x.map lowerByte == y.map lowerByte

namespace Headers

/-- the headers of a list of names and values; a bad name comes before a bad value -/
def ofList : List (Bytes × Bytes) → Except HeaderFault Headers
  | [] => .ok []
  | (name, value) :: rest =>
    if hn : isName name = true then
      if hv : isValue value = true then
        (ofList rest).map (⟨name, value, hn, hv⟩ :: ·)
      else .error .value
    else .error .name

/-- the value of the first header of a name -/
def first? (headers : Headers) (name : Bytes) : Option Bytes :=
  (headers.find? fun h => sameName h.name name).map Header.value

end Headers

/-- whether a byte is a visible ASCII character, a space or a tab -/
def isVisible (b : UInt8) : Bool :=
  b == 0x09 || (0x20 ≤ b && b ≤ 0x7e)

/-- a value as text, if all of it is visible -/
def visible? (value : Bytes) : Option String :=
  if value.all isVisible then some (String.ofList (value.map fun b => Char.ofNat b.toNat)) else none

end BearerCredentials.Http

/-! ## the Authorization header -/

namespace BearerCredentials.Authorization

/-- what stands before a token: the scheme and a space -/
def bearerScheme : String := "Bearer "

/-- the name of the header -/
def headerName : Bytes := utf8 "Authorization"

/-- the token in the value of the header; without the scheme it is refused if the scheme is required -/
def parse (requireScheme : Bool) (value : String) : Except Denial String :=
  let value := Text.trimStart value
  if value.isEmpty then .error (.authorization .missing)
  else match Text.stripStart? bearerScheme value with
    | some rest =>
      let token := Text.trim rest
      if token.isEmpty then .error (.token .malformed) else .ok token
    | none =>
      let token := Text.trimEnd value
      if requireScheme || Text.hasBlank token then .error (.authorization .unreadable) else .ok token

/-- the token in the first Authorization header of a request -/
def ofHeaders (requireScheme : Bool) (headers : Http.Headers) : Except Denial String :=
  match headers.first? headerName with
  | none => .error (.authorization .missing)
  | some value =>
    match Http.visible? value with
    | none => .error (.authorization .unreadable)
    | some value => parse requireScheme value

end BearerCredentials.Authorization
