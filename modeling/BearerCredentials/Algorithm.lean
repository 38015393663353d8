import BearerCredentials.Digest

/-!
# Signature algorithms

* `Algorithm`: the algorithms, with their registered names.
* `KeyKind`: the kinds of keys; `Algorithm.keyKind` says which kind an algorithm takes, and
  `KeyKind.algorithms` lists the algorithms of a kind.
* `mem_algorithms_iff`: the two agree.
-/

namespace BearerCredentials

/-- the elliptic curves of prime order -/
inductive NamedCurve where
  | p256
  | p384
deriving DecidableEq

/-- a signature algorithm -/
inductive Algorithm where
  /-- a keyed hash -/
  | hmac (hash : Sha2)
  /-- RSA with a padding that is fixed for each digest -/
  | rsaFixed (hash : Sha2)
  /-- RSA with a padding that holds a salt -/
  | rsaSalted (hash : Sha2)
  /-- a curve of prime order -/
  | ecdsa (curve : NamedCurve)
  /-- the twisted Edwards curve over the field of `2^255 - 19` elements -/
  | eddsa
deriving DecidableEq

/-- the kinds of keys -/
inductive KeyKind where
  | hmac
  | rsa
  | ec
  | ed
deriving DecidableEq

namespace Algorithm

def name : Algorithm → String
  | hmac .sha256 => "HS256"
  | hmac .sha384 => "HS384"
  | hmac .sha512 => "HS512"
  | rsaFixed .sha256 => "RS256"
  | rsaFixed .sha384 => "RS384"
  | rsaFixed .sha512 => "RS512"
  | rsaSalted .sha256 => "PS256"
  | rsaSalted .sha384 => "PS384"
  | rsaSalted .sha512 => "PS512"
  | ecdsa .p256 => "ES256"
  | ecdsa .p384 => "ES384"
  | eddsa => "EdDSA"

/-- the kind of key that an algorithm takes -/
def keyKind : Algorithm → KeyKind
  | hmac _ => .hmac
  | rsaFixed _ | rsaSalted _ => .rsa
  | ecdsa _ => .ec
  | eddsa => .ed

end Algorithm

namespace KeyKind

def name : KeyKind → String
  | hmac => "Hmac"
  | rsa => "Rsa"
  | ec => "Ec"
  | ed => "Ed"

def all : List KeyKind := [hmac, rsa, ec, ed]

/-- the algorithms that take a kind of key, in the order in which they are listed -/
def algorithms : KeyKind → List Algorithm
  | hmac => [.hmac .sha256, .hmac .sha384, .hmac .sha512]
  | rsa => [.rsaFixed .sha256, .rsaFixed .sha384, .rsaFixed .sha512,
      .rsaSalted .sha256, .rsaSalted .sha384, .rsaSalted .sha512]
  | ec => [.ecdsa .p256, .ecdsa .p384]
  | ed => [.eddsa]

def ofName? (name : String) : Option KeyKind := all.find? fun k => k.name == name

theorem mem_algorithms_iff (k : KeyKind) (a : Algorithm) : a ∈ k.algorithms ↔ a.keyKind = k := by
  rcases a with (_ | _ | _) | (_ | _ | _) | (_ | _ | _) | (_ | _) | _ <;> cases k <;> decide

end KeyKind

namespace Algorithm

def all : List Algorithm := KeyKind.all.flatMap KeyKind.algorithms

def ofName? (name : String) : Option Algorithm := all.find? fun a => a.name == name

theorem mem_all (a : Algorithm) : a ∈ all := by
  rcases a with (_ | _ | _) | (_ | _ | _) | (_ | _ | _) | (_ | _) | _ <;> decide

end Algorithm

end BearerCredentials
