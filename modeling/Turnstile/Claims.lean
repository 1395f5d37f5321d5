import Turnstile.Json.Decode
import Turnstile.Json.Writer
import Turnstile.Time.Stamp
/-!
# Claims

What a bearer token says about its bearer, and its JSON form. Claims are read once per request and
never changed. Lists and optional claims that are absent are left out of the JSON form; reading fills
them in again.
-/

namespace Turnstile

open Time

structure Claims where
  /-- The key of the token record that the bearer refers to. -/
  apiKey : String := ""
  /-- Patterns of the paths that the bearer may call; empty for no restriction. -/
  allowedRoutes : List String := []
  /-- The rate limit at the time of issue; the stored record decides. -/
  rateLimit : Option Int := none
  expiresAt : Option String := none
  exp : Int
  iat : Option Int := none
deriving DecidableEq, Repr

namespace Claims

def new (apiKey : String) (expiry : Instant) : Claims where
  apiKey := apiKey
  expiresAt := some (Stamp.toSeconds expiry)
  exp := expiry.secs

/-- The expiry as an instant, if the calendar has it. -/
def expiration (c : Claims) : Option Instant := Instant.ofSecs? c.exp

/-- Whether the claims have expired: only an expiry strictly after `now` keeps them alive. -/
def isExpiredAt (c : Claims) (now : Instant) : Bool :=
  match c.expiration with
  | some t => t ≤ now
  | none => true

/-- Whether the claims restrict the paths that may be called. -/
def hasScope (c : Claims) : Bool := !c.allowedRoutes.isEmpty

/-- The names of the claims, in the order in which they are written. -/
def fieldNames : List String :=
  ["api_key", "allowed_routes", "rate_limit", "expires_at", "exp", "iat"]

def members (c : Claims) : List (String × Json.Value) :=
  [("api_key", .text c.apiKey)]
    ++ (if c.allowedRoutes.isEmpty then [] else [("allowed_routes", .texts c.allowedRoutes)])
    ++ (c.rateLimit.map fun n => ("rate_limit", Json.Value.int n)).toList
    ++ (c.expiresAt.map fun s => ("expires_at", Json.Value.text s)).toList
    ++ [("exp", .int c.exp)]
    ++ (c.iat.map fun n => ("iat", Json.Value.int n)).toList

def toJson (c : Claims) : Json.Value := .record c.members

/-- Reads the JSON form. Only the expiry has to be there. -/
def ofJson? (v : Json.Value) : Option Claims := do
  let f ← Json.Fields.of? fieldNames v
  return {
    apiKey := ← f.withDefault "api_key" "" Json.Value.text?
    allowedRoutes := ← f.withDefault "allowed_routes" [] Json.Value.texts?
    rateLimit := ← f.withDefault "rate_limit" none (Json.Value.orNull? Json.Value.int64?)
    expiresAt := ← f.withDefault "expires_at" none (Json.Value.orNull? Json.Value.text?)
    exp := ← f.required "exp" Json.Value.int64?
    iat := ← f.withDefault "iat" none (Json.Value.orNull? Json.Value.int64?) }

end Claims

end Turnstile
