import BearerCredentials.Der.Print
import BearerCredentials.VerifyingKey

/-!
# Written public keys

A public key is written as a sequence of two parts: what kind of key it is, and its bytes as a bit string.

* `PublicKeyKind`: the kinds that are written; a curve of prime order is named with the kind.
* `PublicKeyKind.keyInfo`: the sequence.
* `PublicKeyKind.pem`: the same in text form.
-/

namespace BearerCredentials

/-- a kind of public keys, with what else a verifier has to know -/
inductive PublicKeyKind where
  | rsa
  | ec (curve : NamedCurve)
  | ed
deriving DecidableEq

def NamedCurve.arcs : NamedCurve → List Nat
  | p256 => [1, 2, 840, 10045, 3, 1, 7]
  | p384 => [1, 3, 132, 0, 34]

namespace PublicKeyKind

def keyKind : PublicKeyKind → KeyKind
  | rsa => .rsa
  | ec _ => .ec
  | ed => .ed

def arcs : PublicKeyKind → List Nat
  | rsa => [1, 2, 840, 113549, 1, 1, 1]
  | ec _ => [1, 2, 840, 10045, 2, 1]
  | ed => [1, 3, 101, 112]

def parameters : PublicKeyKind → List Bytes
  | rsa => [Der.null]
  | ec curve => [Der.identifier curve.arcs]
  | ed => []

def keyInfo (kind : PublicKeyKind) (key : Bytes) : Bytes :=
  Der.sequence [Der.sequence (Der.identifier kind.arcs :: kind.parameters), Der.bitString key]

def pem (kind : PublicKeyKind) (key : Bytes) : Pem := ⟨"PUBLIC KEY", kind.keyInfo key⟩

theorem kindOf?_arcs (kind : PublicKeyKind) : PemKey.kindOf? kind.arcs = some kind.keyKind := by
  rcases kind with _ | _ | _ <;> rfl

end PublicKeyKind

end BearerCredentials
