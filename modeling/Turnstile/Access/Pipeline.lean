import Turnstile.Access.Bearer
import Turnstile.Access.Denial
import Turnstile.Access.Scope
import Turnstile.Dialogue
import Turnstile.Jwt.Token
import Turnstile.Rate.Limiter
import Turnstile.Token.Record
/-!
# The access pipeline

The checks that a request has to pass, in this order; the first failure decides:

1. there is a bearer credential,
2. its signature and structure are good,
3. its claims name a key,
4. its expiry lies in the future,
5. its scope, if it has one, covers the path,
6. the key has a live record,
7. the record is enabled,
8. the record's rate limit has room left.

The pipeline is a dialogue with a verifier, a token store and a rate limiter. A check that is not reached
asks nothing. Store and limiter have a time limit for each answer.
-/

namespace Turnstile.Access

open Time

inductive Query where
  | verify (token : String)
  | fetch (key : String)
  /-- Whether one more request of a key is within its limit. -/
  | allow (key : String) (limit : Int)
deriving DecidableEq, Repr

abbrev Query.Answer : Query → Type
  | .verify _ => Except VerifyError Claims
  | .fetch _ => Timed (Except StoreError TokenRecord)
  | .allow _ _ => Timed (Except RateLimitError Bool)

/-- How long an answer is waited for, under a time limit for stores. -/
def Query.wait (limit : Nat) : (q : Query) → q.Answer → Nat
  | .verify _, _ => 0
  | .fetch _, a => a.waited limit
  | .allow _ _, a => a.waited limit

/-- The time limit in milliseconds where none is configured. -/
def defaultStoreTimeout : Nat := 2000

def recordOutcome : Option (Except StoreError TokenRecord) → Except AccessDenied TokenRecord
  | none => .error (.tokenStore "timed out")
  | some (.ok r) => .ok r
  | some (.error e) =>
    if e.isCredentialDenial then .error (.missingCredential ("unknown token: " ++ e.message))
    else .error (.tokenStore e.message)

/-- What comes of asking for room under the limit. -/
def limitOutcome : Option (Except RateLimitError Bool) → Except AccessDenied Unit
  | none => .error (.rateLimiter "timed out")
  | some (.ok true) => .ok ()
  | some (.ok false) => .error .rateExceeded
  | some (.error e) => .error (.rateLimiter e.message)

/-- What can be said about verified claims without asking anyone. -/
def checkClaims (now : Instant) (path : String) (c : Claims) : Except AccessDenied Unit :=
  if c.apiKey.isEmpty then .error (.missingCredential "missing api_key claim")
  else if c.isExpiredAt now then .error (.invalidCredential "token expired")
  else if c.hasScope && !isPathAllowed path c.allowedRoutes then .error .forbidden
  else .ok ()

def checkRecord (timeout : Nat) (c : Claims) :
    Dialogue Query Query.Answer (Except AccessDenied Claims) :=
  .ask (.fetch c.apiKey) fun found =>
    match recordOutcome (found.within? timeout) with
    | .error denied => .done (.error denied)
    | .ok record =>
      if !record.isEnabled then .done (.error (.missingCredential "token disabled"))
      else
        .ask (.allow c.apiKey record.rateLimit) fun allowed =>
          match limitOutcome (allowed.within? timeout) with
          | .error denied => .done (.error denied)
          | .ok () => .done (.ok c)

/-- Decides on a request by its `Authorization` value and path; the claims of one that may pass. -/
def evaluate (timeout : Nat) (now : Instant) (authorization : Option String) (path : String) :
    Dialogue Query Query.Answer (Except AccessDenied Claims) :=
  match authorization.bind extractBearer with
  | none => .done (.error (.missingCredential "missing bearer token"))
  | some token =>
    .ask (.verify token) fun verified =>
      match verified with
      | .error e => .done (.error (.invalidCredential e.message))
      | .ok claims =>
        match checkClaims now path claims with
        | .error denied => .done (.error denied)
        | .ok () => checkRecord timeout claims

end Turnstile.Access
