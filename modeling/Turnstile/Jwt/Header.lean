import Turnstile.Jwt.Algorithm
import Turnstile.Json.Decode
import Turnstile.Json.Writer
/-!
# Token headers

The first part of a token names the algorithm. Its other fields are not used, but they have to be what
they are meant to be: a header with a number for a key name is no header.
-/

namespace Turnstile.Jwt.Header

/-- The header that is written in front of a token. -/
def json (a : Algorithm) : Json.Value :=
  .record [("typ", .text "JWT"), ("alg", .text a.name)]

def fieldNames : List String :=
  ["typ", "alg", "cty", "jku", "jwk", "kid", "x5u", "x5c", "x5t", "x5t#S256"]

/-- The algorithm of a header field: its name, alone or as the only member of an object. -/
def algorithm? : Json.Value → Option Algorithm
  | .string (some s) => Algorithm.ofName? s
  | .object [(some s, .null)] => Algorithm.ofName? s
  | _ => none

/-- The fields that an embedded key of any kind may have. -/
def commonKeyFields : List String :=
  ["use", "key_ops", "alg", "kid", "x5u", "x5c", "x5t", "x5t#S256"]

/-- The algorithms that an embedded key may be meant for. -/
def keyAlgorithms : List String :=
  Algorithm.all.map Algorithm.name ++ ["RSA1_5", "RSA-OAEP", "RSA-OAEP-256"]

def curves : List String := ["P-256", "P-384", "P-521", "Ed25519"]

/-- The kinds of embedded keys, each with the fields it has to have. -/
def keyKinds : List (String × List String) :=
  [("EC", ["crv", "x", "y"]), ("RSA", ["n", "e"]), ("oct", ["k"]), ("OKP", ["crv", "x"])]

def oneOf? (allowed : List String) (v : Json.Value) : Option String :=
  v.text?.filter allowed.contains

/-- Whether a value is an embedded key of a kind. -/
def isKeyOfKind (v : Json.Value) (kind : String × List String) : Bool :=
  match Json.Fields.of? ("kty" :: kind.2) v with
  | none => false
  | some f =>
    (f.required "kty" (oneOf? [kind.1])).isSome
      && kind.2.all fun name =>
        (f.required name (if name = "crv" then oneOf? curves else Json.Value.text?)).isSome

/-- An embedded key: an object whose kind determines which texts it has to hold. -/
def embeddedKey? : Json.Value → Option Unit
  | .object members => do
    let v := Json.Value.object members
    if !v.isReadable then none
    let f ← Json.Fields.of? commonKeyFields v
    for name in ["use", "kid", "x5u", "x5t", "x5t#S256"] do
      let _ ← f.optional name Json.Value.text?
    for name in ["key_ops", "x5c"] do
      let _ ← f.optional name Json.Value.texts?
    let _ ← f.optional "alg" (oneOf? keyAlgorithms)
    if keyKinds.any (isKeyOfKind v) then some () else none
  | _ => none

/-- The algorithm that a header names, `none` if it is no header. -/
def parse? (v : Json.Value) : Option Algorithm := do
  let f ← Json.Fields.of? fieldNames v
  let a ← f.required "alg" algorithm?
  for name in ["typ", "cty", "jku", "kid", "x5u", "x5t", "x5t#S256"] do
    let _ ← f.optional name Json.Value.text?
  let _ ← f.optional "jwk" embeddedKey?
  let _ ← f.optional "x5c" Json.Value.texts?
  return a

end Turnstile.Jwt.Header
