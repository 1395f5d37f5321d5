import Turnstile.Token.Record
import Turnstile.Text.Decimal
/-!
# Records as fields

A stored record is a handful of named texts: key, rate limit in decimal, expiry as a timestamp to the
second, and routes as a JSON list. A field that is missing or empty is told apart from one that cannot
be read. A rate limit that is not positive reads well: the record is merely disabled.
-/

namespace Turnstile.TokenRecord

open Time

/-- The fields of a record, in the order in which they are written. -/
def toFields (r : TokenRecord) : List (String × String) :=
  [("api_key", r.apiKey), ("rate_limit", Text.intText r.rateLimit),
    ("expires_at", Stamp.toSeconds r.expiresAt),
    ("allowed_routes", (Json.Value.texts r.allowedRoutes).render)]

/-- The text of a field that is there and not empty. -/
def filled? (fields : List (String × String)) (name : String) : Option String :=
  (fields.lookup name).filter fun s => !s.isEmpty

def readLimit (fields : List (String × String)) : Except StoreError Int :=
  match filled? fields "rate_limit" with
  | none => .error (.invalid "missing rate_limit")
  | some s =>
    match Text.readInt64 (Text.trim s) with
    | .ok n => .ok n
    | .error fault => .error (.invalid ("bad rate_limit: " ++ fault.message))

def readExpiry (fields : List (String × String)) : Except StoreError Instant :=
  match filled? fields "expires_at" with
  | none => .error (.invalid "missing expires_at")
  | some s =>
    match Stamp.strict? (Text.trim s) with
    | some t => .ok t
    | none => .error (.invalid "bad expires_at")

/-- The routes of the fields; a blank field holds none. -/
def readRoutes (fields : List (String × String)) : Except StoreError (List String) :=
  match fields.lookup "allowed_routes" with
  | none => .ok []
  | some s =>
    if Text.isBlankText s then .ok []
    else
      match Json.parse s >>= Json.Value.texts? with
      | some routes => .ok routes
      | none => .error (.invalid "bad allowed_routes")

/-- The record of the fields stored under a key. The key stands in for a missing field. -/
def ofFields (key : String) (fields : List (String × String)) : Except StoreError TokenRecord := do
  let rateLimit ← readLimit fields
  let expiresAt ← readExpiry fields
  let allowedRoutes ← readRoutes fields
  return { apiKey := (filled? fields "api_key").getD key, rateLimit, expiresAt, allowedRoutes }

end Turnstile.TokenRecord
