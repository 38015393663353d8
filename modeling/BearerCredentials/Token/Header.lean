import BearerCredentials.Algorithm
import BearerCredentials.Json.Value

/-!
# Token headers

The first segment of a token is an object that names the algorithm of the signature. Some other members have a
meaning and therefore a shape, though nothing is done with them here; a member without a meaning has to be
a text. No member with a meaning may be repeated.

* `Token.headerAlgorithm?`: the algorithm that a header names, if the header is well formed.
* `Token.isKeyRecord`: the shape of a key that a header carries.
-/

namespace BearerCredentials.Token

/-- the members of an object, in the order of the text -/
abbrev Members := List (String × Json)

def isText : Json → Bool
  | .text _ => true
  | _ => false

def isTextOrNull : Json → Bool
  | .text _ | .null => true
  | _ => false

/-- whether a value is a list of texts or null -/
def isTextsOrNull : Json → Bool
  | .array items => items.all isText
  | .null => true
  | _ => false

def member? (name : String) (members : Members) : Option Json := members.lookup name

def occurrences (name : String) (members : Members) : Nat :=
  members.countP fun m => m.1 == name

def noneRepeated (names : List String) (members : Members) : Bool :=
  names.all fun name => occurrences name members ≤ 1

/-- the name that a choice without contents is written as: a text, or an object with one null member -/
def choice? : Json → Option String
  | .text s => some s
  | .object [(s, .null)] => some s
  | _ => none

/-- whether a value is the name of some algorithm, of this library or not -/
def isAlgorithmName : Json → Bool
  | .text _ | .object [(_, .null)] | .object [(_, .object [])] => true
  | _ => false

def keyCurves : List String := ["P-256", "P-384", "P-521", "Ed25519"]

/-- the kinds of key records, with the members that hold their numbers and whether there is a curve -/
def keyKinds : List (String × List String × Bool) :=
  [("EC", ["x", "y"], true), ("RSA", ["n", "e"], false), ("oct", ["k"], false), ("OKP", ["x"], true)]

/-- whether members have what a kind of key record needs -/
def isKeyOfKind (members : Members) (kind : String × List String × Bool) : Bool :=
  let (name, numbers, hasCurve) := kind
  let choices := if hasCurve then ["kty", "crv"] else ["kty"]
  noneRepeated (choices ++ numbers) members &&
    (member? "kty" members).bind choice? == some name &&
    (!hasCurve || (((member? "crv" members).bind choice?).map keyCurves.contains == some true)) &&
    numbers.all fun number => (member? number members).any isText

/-- the members that every key record may have, with their shapes -/
def keyMembers : List (String × (Json → Bool)) :=
  [("use", isTextOrNull), ("key_ops", isTextsOrNull), ("alg", fun v => v.isNull || isAlgorithmName v),
    ("kid", isTextOrNull), ("x5u", isTextOrNull), ("x5c", isTextsOrNull), ("x5t", isTextOrNull),
    ("x5t#S256", isTextOrNull)]

/-- whether all members with a meaning have their shapes and none is repeated -/
def haveShapes (shapes : List (String × (Json → Bool))) (members : Members) : Bool :=
  noneRepeated (shapes.map Prod.fst) members &&
    members.all fun (name, v) => (shapes.lookup name).all fun shape => shape v

def isKeyRecord : Json → Bool
  | .object members =>
    haveShapes keyMembers members &&
      -- the common members are no part of what is left for the kind
      keyKinds.any (isKeyOfKind (members.filter fun m => (keyMembers.lookup m.1).isNone))
  | _ => false

def algorithmOf? (v : Json) : Option Algorithm := (choice? v).bind Algorithm.ofName?

/-- the members of a header with a meaning, with their shapes -/
def headerMembers : List (String × (Json → Bool)) :=
  ("alg", fun v => (algorithmOf? v).isSome) ::
    ("jwk", fun v => v.isNull || isKeyRecord v) ::
    ["x5c", "crit"].map (fun name => (name, isTextsOrNull)) ++
    ["typ", "cty", "jku", "kid", "x5u", "x5t", "x5t#S256", "url", "nonce", "enc", "zip"].map
      fun name => (name, isTextOrNull)

/-- the algorithm that a header names, if the header is well formed -/
def headerAlgorithm? (members : Members) : Option Algorithm :=
  if haveShapes headerMembers members &&
      members.all fun (name, v) => (headerMembers.lookup name).isSome || isText v then
    (member? "alg" members).bind algorithmOf?
  else none

end BearerCredentials.Token
