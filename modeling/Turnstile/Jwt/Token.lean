import Turnstile.Claims
import Turnstile.Jwt.Header
import Turnstile.Jwt.Keys
import Turnstile.Text.Base64
/-!
# Signed tokens

A token is a header, claims and a signature over both, joined by points. `KeySet.verify` accepts a
token only under the one algorithm the key is configured for, which the header has to name as well, so
no token can choose how it is checked. Whether the claims have expired is not asked here.
-/

namespace Turnstile.Jwt

/-- Why a token is not one that the key set accepts. -/
inductive TokenFault where
  /-- Key and algorithm, or configured and named algorithm, do not fit. -/
  | algorithm
  | parts
  | base64
  /-- Header or claims are not the JSON that is expected. -/
  | json
  | signature
  | expiry
deriving DecidableEq, Repr

def TokenFault.message : TokenFault → String
  | .algorithm => "InvalidAlgorithm"
  | .parts => "InvalidToken"
  | .base64 => "Base64 error"
  | .json => "JSON error"
  | .signature => "InvalidSignature"
  | .expiry => "Missing required claim: exp"

def splitLast? (s : List Char) : Option (List Char × List Char) :=
  match s.reverse.dropWhile (· != '.') with
  | [] => none
  | _ :: before => some (before.reverse, (s.reverse.takeWhile (· != '.')).reverse)

/-! ### Registered claims

Besides the claims of the gateway, the registered claims of tokens are looked at. Only the expiry is
demanded. The others may be of any type, and failing to read one of them is no error: the reading goes on
with the next member, which succeeds just if the reader is behind the value by then. It is not when it has
stopped amidst a text or a number, or in front of a list or an object where a single value belongs. -/

/-- Whether reading the value without an expectation of its type leaves the reader behind it. -/
def leavesBehind (v : Json.Value) : Bool := v.flaw? != some .inside

/-- Whether the reader is behind the value after looking for a number. It looks into a list or an object
just as far as to find it empty. -/
def passesAsNumber : Json.Value → Bool
  | .array items => items.isEmpty
  | .object members => members.isEmpty
  | v => leavesBehind v

/-- Whether the reader is behind the value after looking for a text. -/
def passesAsText : Json.Value → Bool
  | .array _ | .object _ => false
  | v => leavesBehind v

/-- Whether the reader is behind the value after reading all of it, two levels down. -/
def passesAsAny (v : Json.Value) : Bool :=
  leavesBehind v && v.depth < Json.Value.depthLimit - 1

/-- Whether the expiry is a natural number of 64 bits, or a number with a point that is not below zero and
below 2 to the 64. -/
def isExpiry : Json.Value → Bool
  | .number n =>
    match n.int? with
    | some v => 0 ≤ v
    | none => match n.float? with | some f => 0 ≤ f && f < 18446744073709551616.0 | none => false
  | _ => false

def registeredNames : List String := ["exp", "nbf", "sub", "iss", "aud"]

def checkRegistered (v : Json.Value) : Except TokenFault Unit := do
  let some f := Json.Fields.of? registeredNames v | throw .json
  let passes (name : String) (p : Json.Value → Bool) : Bool :=
    match f.get? name with
    | some v => p v
    | none => !f.inOrder
  if !(passes "sub" passesAsText && passes "iss" passesAsAny && passes "aud" passesAsAny) then
    throw .json
  if !((f.get? "nbf").all passesAsNumber && (f.get? "exp").all passesAsNumber) then throw .json
  if !(f.get? "exp").any isExpiry then throw .expiry

/-- The claims that the middle part of a token spells. -/
def readClaims (payload : List Char) : Except TokenFault Claims := do
  let some bytes := Text.Base64.decode? .url payload | throw .base64
  let some v := Json.parseBytes bytes | throw .json
  let some claims := Claims.ofJson? v | throw .json
  checkRegistered v
  return claims

/-- The algorithm that the first part of a token names. -/
def readHeader (header : List Char) : Except TokenFault Algorithm := do
  let some bytes := Text.Base64.decode? .url header | throw .base64
  let some v := Json.parseBytes bytes | throw .json
  let some a := Header.parse? v | throw .json
  return a

/-- The claims of a token that is signed with the key under the algorithm. -/
def openToken (key : Key) (a : Algorithm) (token : List Char) : Except TokenFault Claims := do
  if key.family ≠ a.family then throw .algorithm
  let some (message, signature) := splitLast? token | throw .parts
  let some (header, payload) := splitLast? message | throw .parts
  let named ← readHeader header
  if named ≠ a then throw .algorithm
  match key.checks? a message signature with
  | none => throw .base64
  | some false => throw .signature
  | some true => readClaims payload

end Turnstile.Jwt

namespace Turnstile

inductive VerifyError where
  | missingKey
  | missingAlgorithm
  | invalidToken (reason : String)
  | missingApiKey
deriving DecidableEq, Repr

namespace VerifyError

def message : VerifyError → String
  | .missingKey => "no verification key configured"
  | .missingAlgorithm => "expected algorithm not configured"
  | .invalidToken reason => "invalid token: " ++ reason
  | .missingApiKey => "missing api_key claim"

/-- Whether the fault lies with the gateway and not with the bearer. -/
def isConfiguration : VerifyError → Bool
  | .missingKey | .missingAlgorithm => true
  | _ => false

end VerifyError

/-- The claims of a bearer token that the key set accepts. -/
def Jwt.KeySet.verify (k : KeySet) (token : String) : Except VerifyError Claims := do
  let some key := k.key | throw .missingKey
  let some a := k.algorithm | throw .missingAlgorithm
  match openToken key a token.toList with
  | .error fault => throw (.invalidToken fault.message)
  | .ok claims => if claims.apiKey.isEmpty then throw .missingApiKey else return claims

namespace Jwt

structure Signer where
  hash : Crypto.Hash
  secret : List UInt8
deriving DecidableEq, Repr

namespace Signer

def ofSecret (name secret : String) : Except KeyError Signer := do
  match ← parseAlgorithm name with
  | .hmac hash =>
    if secret.isEmpty then throw .emptySecret
    return { hash, secret := Text.Utf8.bytes secret }
  | a => throw (.cannotIssue a)

/-- Spells a JSON value as a part of a token. -/
def part (v : Json.Value) : List Char :=
  Text.Base64.encode .url (Text.Utf8.encode v.chars)

def sign (s : Signer) (c : Claims) : String :=
  let message := part (Header.json (.hmac s.hash)) ++ '.' :: part c.toJson
  let signature := Text.Base64.encode .url (Crypto.hmac s.hash s.secret (Text.Utf8.encode message))
  String.ofList (message ++ '.' :: signature)

def describe (s : Signer) : String :=
  "JwtSigner \x7b algorithm: " ++ (Algorithm.hmac s.hash).name ++ ", key: \"[hidden]\" \x7d"

end Signer

end Jwt

end Turnstile
