import Turnstile.Command.Line
import Turnstile.Jwt.Token
import Turnstile.Remote.Tokens
import Turnstile.Token.Memory
/-!
# Issuing tokens

A token is issued in two steps: a record is written, and claims that agree with it are signed. Everything
that can be wrong with the request is found before the record is written, and signing cannot fail, so a
request that fails leaves the store as it was.
-/

namespace Turnstile.Command

open Time

inductive IssueError where
  | badLimit
  | badTtl
  | blankKey
  | ttlOutOfRange (hours : Int)
  | store (cause : StoreError)
deriving DecidableEq, Repr

namespace IssueError

def message : IssueError → String
  | .badLimit => "--limit must be > 0"
  | .badTtl => "--ttl-hours must be > 0"
  | .blankKey => "--api-key must not be empty"
  | .ttlOutOfRange hours => "--ttl-hours " ++ Text.intText hours ++ " is out of range"
  | .store _ => "failed to store token record"

def causes : IssueError → List String
  | .store cause => [cause.message]
  | _ => []

end IssueError

/-- How many bytes a fresh key is made of. -/
def freshKeyBytes : Nat := 16

def keyOfBytes (bytes : List UInt8) : String := String.ofList (Text.Base64.encode .url bytes)

def IssueRequest.key (r : IssueRequest) (fresh : String) : Except IssueError String :=
  match r.apiKey with
  | none => .ok fresh
  | some key => if Text.isBlankText key then .error .blankKey else .ok (Text.trim key)

def IssueRequest.patterns (r : IssueRequest) : List String :=
  (r.routes.map Text.trim).filter fun route => !route.isEmpty

def IssueRequest.expiry (r : IssueRequest) (now : Instant) : Except IssueError Instant :=
  match now.add? (.ofSecs (3600 * r.ttlHours.toNat)) with
  | some t => .ok t
  | none => .error (.ttlOutOfRange r.ttlHours)

def IssueRequest.record (r : IssueRequest) (now : Instant) (fresh : String) :
    Except IssueError TokenRecord := do
  if r.limit ≤ 0 then throw .badLimit
  if r.ttlHours ≤ 0 then throw .badTtl
  let apiKey ← r.key fresh
  let expiresAt ← r.expiry now
  return { apiKey, rateLimit := r.limit, expiresAt, allowedRoutes := r.patterns }

def claimsOf (record : TokenRecord) (now : Instant) : Claims :=
  { Claims.new record.apiKey record.expiresAt with
    allowedRoutes := record.allowedRoutes, rateLimit := some record.rateLimit, iat := some now.secs }

structure Issued where
  record : TokenRecord
  token : String
deriving DecidableEq, Repr

/-- The token for a record that has been written. -/
def issued (signer : Jwt.Signer) (now : Instant) (record : TokenRecord) : Issued :=
  { record, token := signer.sign (claimsOf record now) }

/-- Issues a token with a record in memory; `storeNow` is the time of the store. -/
def issue (signer : Jwt.Signer) (now storeNow : Instant) (fresh : String) (r : IssueRequest)
    (t : TokenTable) : Except IssueError Issued × TokenTable :=
  match r.record now fresh with
  | .error e => (.error e, t)
  | .ok record =>
    match t.upsert storeNow record with
    | (.error e, t) => (.error (.store e), t)
    | (.ok (), t) => (.ok (issued signer now record), t)

/-- Issues a token with a record on the shared server. -/
def issueShared (signer : Jwt.Signer) (stem : String) (now : Instant) (fresh : String) (r : IssueRequest) :
    Remote.Operation (Except IssueError Issued) :=
  match r.record now fresh with
  | .error e => .done (.error e)
  | .ok record => do
    match ← Remote.upsert stem record with
    | .error e => return .error (.store e)
    | .ok () => return .ok (issued signer now record)

def Issued.lines (i : Issued) (stem : String) : List String :=
  ["api_key:        " ++ i.record.apiKey,
    "storage_key:    " ++ stem ++ i.record.apiKey,
    "rate_limit:     " ++ Text.intText i.record.rateLimit,
    "expires_at:     " ++ Stamp.toSeconds i.record.expiresAt,
    "allowed_routes: " ++ (Json.Value.texts i.record.allowedRoutes).render,
    "token:          " ++ i.token]

end Turnstile.Command
