import Turnstile.Crypto.Hmac
import Turnstile.Jwt.Algorithm
import Turnstile.SetupError
import Turnstile.Text.Utf8
/-!
# Keys

A verification key together with the one algorithm it is accepted for, and a signing key. Either half
of a key set may be absent; such a set verifies nothing. A printed key set never shows key material.
-/

namespace Turnstile.Jwt

inductive KeyError where
  | unsupported (name : String)
  | notHmac (a : Algorithm)
  | notRsa (a : Algorithm)
  | emptySecret
  | keyFile (fault : Crypto.Rsa.KeyFault)
  | cannotIssue (a : Algorithm)
deriving DecidableEq, Repr

def KeyError.message : KeyError → String
  | .unsupported name => "Unsupported token algorithm '" ++ name ++ "'"
  | .notHmac a => a.name ++ " is not an HMAC algorithm"
  | .notRsa a => a.name ++ " is not an RSA algorithm"
  | .emptySecret => "HMAC secret must not be empty"
  | .keyFile .format => "Failed to parse RSA public key: InvalidKeyFormat"
  | .keyFile .noBytes => "Failed to parse RSA public key: InvalidEcdsaKey"
  | .cannotIssue a => "Tokens can only be issued with HMAC algorithms, got " ++ a.name

def KeyError.toSetupError (e : KeyError) : SetupError := .configuration e.message

inductive Key where
  | secret (bytes : List UInt8)
  /-- The bytes of an RSA public key, not yet looked into. -/
  | rsa (bytes : List UInt8)
deriving DecidableEq, Repr

def Key.family : Key → Family
  | .secret _ => .hmac
  | .rsa _ => .rsa

/-- Whether `signature`, as it stands in a token, signs the message; `none` if it had to be decoded
and is not the spelling of any bytes. A keyed hash is compared by its spelling. -/
def Key.checks? (key : Key) (a : Algorithm) (message : List Char) (signature : List Char) :
    Option Bool :=
  match key, a with
  | .secret bytes, .hmac h =>
    some (Text.Base64.encode .url (Crypto.hmac h bytes (Text.Utf8.encode message)) == signature)
  | .rsa bytes, .rsa padding h =>
    (Text.Base64.decode? .url signature).map fun s =>
      match Crypto.Rsa.PublicKey.parse? bytes with
      | some k => Crypto.Rsa.verify padding h k (Text.Utf8.encode message) s
      | none => false
  | _, _ => some false

/-- A verification key and the algorithm it is accepted for. -/
structure KeySet where
  algorithm : Option Algorithm := none
  key : Option Key := none
deriving DecidableEq, Repr

def parseAlgorithm (name : String) : Except KeyError Algorithm :=
  match Algorithm.parse? name with
  | some a => .ok a
  | none => .error (.unsupported name)

namespace KeySet

def hmac (name secret : String) : Except KeyError KeySet := do
  let a ← parseAlgorithm name
  if a.family ≠ .hmac then throw (.notHmac a)
  if secret.isEmpty then throw .emptySecret
  return { algorithm := some a, key := some (.secret (Text.Utf8.bytes secret)) }

/-- A key set for the RSA key of a key file. -/
def rsaPem (name pem : String) : Except KeyError KeySet := do
  let a ← parseAlgorithm name
  if a.family ≠ .rsa then throw (.notRsa a)
  match Crypto.Rsa.keyBytes pem with
  | .ok bytes => return { algorithm := some a, key := some (.rsa bytes) }
  | .error fault => throw (.keyFile fault)

/-- Whether a configured name, capitalised but not trimmed, is that of an algorithm of a family. -/
def namesFamily (f : Family) (name : String) : Bool :=
  match Algorithm.ofName? (Text.upper name) with
  | some a => a.family == f
  | none => false

/-- The key set for a configured algorithm, secret and key file: the key file is used for the names
of RSA algorithms, the secret for everything else. -/
def ofSettings (name secret : String) (pem : Option String) : Except KeyError KeySet :=
  if namesFamily .rsa name then rsaPem name (pem.getD "") else hmac name secret

def describe (k : KeySet) : String :=
  let algorithm :=
    match k.algorithm with
    | some a => "Some(" ++ a.name ++ ")"
    | none => "None"
  let key := if k.key.isSome then "Some(\"[hidden]\")" else "None"
  "KeySet \x7b algorithm: " ++ algorithm ++ ", key: " ++ key ++ " \x7d"

end KeySet

end Turnstile.Jwt
