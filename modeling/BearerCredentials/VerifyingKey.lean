import BearerCredentials.Algorithm
import BearerCredentials.Denial
import BearerCredentials.Der
import BearerCredentials.Pem
import BearerCredentials.Text.Rendering

/-!
# Signing keys

The configured key is a secret in base64 or a public key in PEM. Reading it yields the kind of the key and its
bytes; whether the bytes are a key of that kind is found out only when a token is verified.

* `VerifyingKey.ofSetting`: the key that a setting gives.
* `decodeSecret?`: a secret in base64.
* `PemKey`: what a PEM text holds, and its readings as a key of each kind.
-/

namespace BearerCredentials

/-- a key for verifying signatures -/
structure VerifyingKey where
  kind : KeyKind
  material : Bytes
deriving DecidableEq

/-- a secret in base64, padded or not, with blanks anywhere; it has at least one byte -/
def decodeSecret? (raw : String) : Option Bytes :=
  let symbols := (Text.squeeze raw).toList
  let secret? := (Base64.decodePadded .standard symbols).orElse fun _ => Base64.decode .standard symbols
  secret?.filter fun secret => !secret.isEmpty

/-- what the label of a PEM text says of its contents -/
inductive PemForm where
  /-- the contents are an RSA key -/
  | rsaKey
  /-- the contents name the kind of the key that they hold -/
  | keyInfo (kind : KeyKind) (isPrivate : Bool)

/-- a PEM text that may hold a key -/
structure PemKey where
  form : PemForm
  contents : Bytes
  blocks : List Der.Block

namespace PemKey

def kindOf? (arcs : List Nat) : Option KeyKind :=
  if arcs = [1, 2, 840, 10045, 2, 1] then some .ec
  else if arcs = [1, 2, 840, 113549, 1, 1, 1] then some .rsa
  else if arcs = [1, 3, 101, 112] then some .ed
  else none

/-- the kind of key that some contents name -/
def named? (blocks : List Der.Block) : Option KeyKind :=
  (Der.identifiers blocks).findSome? kindOf?

def formOf? (label : String) (blocks : List Der.Block) : Option PemForm :=
  match label with
  | "RSA PRIVATE KEY" | "RSA PUBLIC KEY" => some .rsaKey
  | "PRIVATE KEY" => (named? blocks).map (.keyInfo · true)
  | "PUBLIC KEY" | "CERTIFICATE" => (named? blocks).map (.keyInfo · false)
  | _ => none

def read? (text : String) : Option PemKey := do
  let pem ← Pem.ofText? text
  let blocks ← Der.read pem.contents
  let form ← formOf? pem.label blocks
  return ⟨form, pem.contents, blocks⟩

def rsa? (key : PemKey) : Option Bytes :=
  match key.form with
  | .rsaKey => some key.contents
  | .keyInfo .rsa _ => Der.firstBytes? key.blocks
  | _ => none

def ec? (key : PemKey) : Option Bytes :=
  match key.form with
  | .keyInfo .ec false => Der.firstBytes? key.blocks
  | _ => none

def ed? (key : PemKey) : Option Bytes :=
  match key.form with
  | .keyInfo .ed false => Der.firstBytes? key.blocks
  | _ => none

end PemKey

namespace VerifyingKey

def algorithms (key : VerifyingKey) : List Algorithm := key.kind.algorithms

def rsaOfPem? (text : String) : Option VerifyingKey :=
  ((PemKey.read? text).bind PemKey.rsa?).map fun material => ⟨.rsa, material⟩

def ecOfPem? (text : String) : Option VerifyingKey :=
  ((PemKey.read? text).bind PemKey.ec?).map fun material => ⟨.ec, material⟩

def edOfPem? (text : String) : Option VerifyingKey :=
  ((PemKey.read? text).bind PemKey.ed?).map fun material => ⟨.ed, material⟩

/-- the readings of a PEM text, in the order in which they are tried -/
def pemReadings : List (String → Option VerifyingKey) := [rsaOfPem?, ecOfPem?, edOfPem?]

def ofPem? (text : String) : Option VerifyingKey :=
  pemReadings.findSome? fun reading => reading text

/-- what tells a PEM text from a secret -/
def pemMark : String := "-----BEGIN"

def ofSetting (setting : Option String) : Except KeySettingFault VerifyingKey :=
  match setting.map Text.trim with
  | none => .error .absent
  | some raw =>
    if raw.isEmpty then .error .absent
    else
      let key? :=
        if Text.hasStretch pemMark.toList raw.toList then ofPem? raw
        else (decodeSecret? raw).map fun secret => ⟨.hmac, secret⟩
      match key? with
      | some key => .ok key
      | none => .error .unreadable

/-- the rendering for debugging, without the bytes of the key -/
def debug (key : VerifyingKey) : String :=
  Text.renderRecord "VerificationKey" [("family", key.kind.name)]

end VerifyingKey

end BearerCredentials
