import BearerCredentials.Base64.Lemmas
import BearerCredentials.Claims
import BearerCredentials.Signature
import BearerCredentials.Token.Header
import BearerCredentials.Token.Validity
import BearerCredentials.VerifyingKey

/-!
# Signed tokens

A token has three segments in base64: a header, a payload, and a signature over the first two as they are
written. The header and the signature are checked before the payload is looked at.

* `Token.ofText?`: the segments of a token.
* `Token.checkSignature`: whether the signature belongs to the token, under the configured key alone.
* `Token.claims`: the claims of a token that is signed and valid.
* `Token.text`: a token as it is sent; `Token.ofText?_text` says that its segments are found again.
* `Token.segment`: the segment that holds some bytes; `Token.segmentBytes?_segment` reads it back.
* `Token.issue`: the token for a payload, signed with a secret.
-/

namespace BearerCredentials

/-- why there is no answer: a cause that is reported, or a breakdown that is not -/
inductive Failure (ε : Type) where
  | refused (cause : ε)
  /-- the key is too short to be cut to the size of its kind -/
  | brokenDown
deriving DecidableEq

/-- a token: three segments as they are written -/
structure Token where
  header : String
  payload : String
  signature : String
deriving DecidableEq

namespace Token

def ofText? (s : String) : Option Token :=
  match Text.split '.' s with
  | [header, payload, signature] => some ⟨header, payload, signature⟩
  | _ => none

/-- the bytes that are signed: all before the last point -/
def signed (t : Token) : Bytes := utf8 (t.header ++ "." ++ t.payload)

def segmentBytes? (segment : String) : Option Bytes := Base64.decode .url segment.toList

/-- the members of the object that a segment holds -/
def segmentMembers? (segment : String) : Option Members := do
  let bytes ← segmentBytes? segment
  let text ← ofUtf8? bytes
  match Json.read text with
  | .ok (.object members) => some members
  | _ => none

def algorithm? (t : Token) : Option Algorithm := (segmentMembers? t.header).bind headerAlgorithm?

/-- whether the signature of a token belongs to it, by a test for its algorithm -/
def checkWith (t : Token) (verify : Verifier) : Except (Failure TokenFault) Unit :=
  match segmentBytes? t.signature with
  | none => .error (.refused (.ofReport .other))
  | some signature =>
    if verify t.signed signature then .ok () else .error (.refused (.ofReport .wrongSignature))

/-- whether the signature of a token belongs to it, under a key; an algorithm that is none is met while the header is
read, and is not reported as unknown -/
def checkSignature (scheme : SignatureScheme) (key : VerifyingKey) (t : Token) :
    Except (Failure TokenFault) Unit :=
  match t.algorithm? with
  | none => .error (.refused (.ofReport .other))
  | some algorithm =>
    if !key.algorithms.contains algorithm then .error (.refused (.ofReport .foreignAlgorithm))
    else match scheme algorithm key.material with
      | .error .unusable => .error (.refused (.ofReport .other))
      | .error .tooShort => .error .brokenDown
      | .ok verify => t.checkWith verify

/-- the members of the payload and the time in which the token is valid, each from a reading of its own -/
def payload? (t : Token) : Option (Members × Validity) := do
  let bytes ← segmentBytes? t.payload
  let text ← ofUtf8? bytes
  match Json.read text, Validity.read text with
  | .ok (.object members), .ok validity => some (members, validity)
  | _, _ => none

/-- the claims of a token whose signature has been checked, if it is valid now -/
def claimsAt (tolerance now : Nat) (t : Token) : Except TokenFault Claims :=
  match t.payload? with
  | none => .error (.ofReport .other)
  | some (members, validity) =>
    match validity.fault? tolerance now with
    | some fault => .error fault
    | none => .ok (Claims.ofMembers members)

/-- the claims of a token that is signed and valid now -/
def claims (scheme : SignatureScheme) (key : VerifyingKey) (tolerance now : Nat) (t : Token) :
    Except (Failure TokenFault) Claims := do
  checkSignature scheme key t
  (t.claimsAt tolerance now).mapError .refused

/-! ## issuing -/

def text (t : Token) : String := t.header ++ "." ++ t.payload ++ "." ++ t.signature

def segment (bytes : Bytes) : String := String.ofList (Base64.encode .url bytes)

def headerText (a : Algorithm) : String :=
  (Json.object [("typ", .text "JWT"), ("alg", .text a.name)]).compact

/-- the token for a payload, signed with a secret -/
def issue (hash : Sha2) (secret : Bytes) (payload : String) : Token :=
  let unsigned : Token := {
    header := segment (utf8 (headerText (.hmac hash)))
    payload := segment (utf8 payload)
    signature := "" }
  { unsigned with signature := segment (hmac hash secret unsigned.signed) }

theorem segmentBytes?_segment (bytes : Bytes) : segmentBytes? (segment bytes) = some bytes := by
  rw [segmentBytes?, segment, String.toList_ofList]
  exact Base64.decode_encode .url bytes

/-- the segments of a token are found again, if there is no point in them -/
theorem ofText?_text {t : Token} (hh : ¬ '.' ∈ t.header.toList) (hp : ¬ '.' ∈ t.payload.toList)
    (hs : ¬ '.' ∈ t.signature.toList) : ofText? t.text = some t := by
  have he : t.text.toList =
      t.header.toList ++ '.' :: (t.payload.toList ++ '.' :: t.signature.toList) := by
    simp [text]
  rw [ofText?, Text.split, he, List.splitOn_append_cons_self_of_not_mem hh,
    List.splitOn_append_cons_self_of_not_mem hp, List.splitOn_eq_singleton hs]
  simp

end Token

end BearerCredentials
