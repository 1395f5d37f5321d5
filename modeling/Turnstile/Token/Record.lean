import Turnstile.Json.Decode
import Turnstile.Json.Writer
import Turnstile.Time.Stamp
/-!
# Token records

What the gateway knows about a key: how many requests it may make in a window, until when, and on which
paths. A record whose rate limit is not positive is disabled however far away its expiry is. Before a
record is written it is checked against the present.
-/

namespace Turnstile

open Time

structure TokenRecord where
  apiKey : String
  rateLimit : Int
  expiresAt : Instant
  allowedRoutes : List String := []
deriving DecidableEq, Repr

/-- Why a token store does not answer with a record. -/
inductive StoreError where
  | notFound
  | expired
  /-- The record, or the key asked for, is not acceptable. -/
  | invalid (reason : String)
  | backend (reason : String)
deriving DecidableEq, Repr

namespace StoreError

def message : StoreError → String
  | .notFound => "token not found"
  | .expired => "token expired"
  | .invalid reason => "token record invalid: " ++ reason
  | .backend reason => "token store backend error: " ++ reason

/-- Whether the error says that there is no usable record, and not that the store failed. -/
def isCredentialDenial : StoreError → Bool
  | .notFound | .expired => true
  | _ => false

end StoreError

namespace TokenRecord

def isEnabled (r : TokenRecord) : Bool := 0 < r.rateLimit

/-- Whether the record has expired: only an expiry strictly after `now` keeps it alive. -/
def isExpiredAt (r : TokenRecord) (now : Instant) : Bool := r.expiresAt ≤ now

/-- Checks a record before it is written. A record that expires in the first second of 1970 counts as
one without an expiry. -/
def check (r : TokenRecord) (now : Instant) : Except StoreError Unit :=
  if r.apiKey.isEmpty then .error (.invalid "empty api_key")
  else if r.rateLimit ≤ 0 then .error (.invalid "rate_limit must be > 0")
  else if r.expiresAt.secs = 0 then .error (.invalid "expires_at is required")
  else if r.isExpiredAt now then .error .expired
  else .ok ()

def toJson (r : TokenRecord) : Json.Value :=
  .record [("api_key", .text r.apiKey), ("rate_limit", .int r.rateLimit),
    ("expires_at", .text (Stamp.toText r.expiresAt)), ("allowed_routes", .texts r.allowedRoutes)]

/-- Reads the JSON form. The routes may be left out. -/
def ofJson? (v : Json.Value) : Option TokenRecord := do
  let f ← Json.Fields.of? ["api_key", "rate_limit", "expires_at", "allowed_routes"] v
  return {
    apiKey := ← f.required "api_key" Json.Value.text?
    rateLimit := ← f.required "rate_limit" Json.Value.int64?
    expiresAt := ← f.required "expires_at" fun v => v.text? >>= Stamp.lenient?
    allowedRoutes := ← f.withDefault "allowed_routes" [] Json.Value.texts? }

end TokenRecord

end Turnstile
