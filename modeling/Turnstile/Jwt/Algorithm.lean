import Turnstile.Crypto.Rsa
import Turnstile.Text.Blank
import Turnstile.Text.Letters
/-!
# Signature algorithms

The algorithms a token header may name, by family. A configured name is trimmed and capitalised before
it is looked up, which no name in mixed case survives.
-/

namespace Turnstile.Jwt

inductive Family where
  | hmac
  | rsa
  | ec
  | ed
deriving DecidableEq, Repr

inductive Algorithm where
  | hmac (h : Crypto.Hash)
  | rsa (p : Crypto.Rsa.Padding) (h : Crypto.Hash)
  | es256
  | es384
  | edDsa
deriving DecidableEq, Repr

namespace Algorithm

def all : List Algorithm :=
  [.hmac .sha256, .hmac .sha384, .hmac .sha512, .es256, .es384,
    .rsa .pkcs1 .sha256, .rsa .pkcs1 .sha384, .rsa .pkcs1 .sha512,
    .rsa .pss .sha256, .rsa .pss .sha384, .rsa .pss .sha512, .edDsa]

/-- The size of a hash, as it appears in names. -/
def hashName : Crypto.Hash → String
  | .sha256 => "256"
  | .sha384 => "384"
  | .sha512 => "512"

/-- The name of an algorithm in a token header. -/
def name : Algorithm → String
  | .hmac h => "HS" ++ hashName h
  | .rsa .pkcs1 h => "RS" ++ hashName h
  | .rsa .pss h => "PS" ++ hashName h
  | .es256 => "ES256"
  | .es384 => "ES384"
  | .edDsa => "EdDSA"

def ofName? (s : String) : Option Algorithm := all.find? (·.name == s)

def parse? (s : String) : Option Algorithm :=
  ofName? (Text.upper (Text.trim s))

def family : Algorithm → Family
  | .hmac _ => .hmac
  | .rsa _ _ => .rsa
  | .es256 | .es384 => .ec
  | .edDsa => .ed

end Algorithm

end Turnstile.Jwt
