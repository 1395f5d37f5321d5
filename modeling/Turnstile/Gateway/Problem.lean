import Turnstile.Access.Denial
import Turnstile.Http.Message
import Turnstile.Json.Writer
/-!
# Problems

The JSON answers by which the gateway refuses a request. A refusal names the class of the failure and
not its reason, which stays in the log. Every answer that asks for a credential says which kind.
-/

namespace Turnstile

inductive ProblemKind where
  | invalidRequest
  | authentication
  | permission
  | rateLimit
  | server
  | unavailable
  | service
deriving DecidableEq, Repr

namespace ProblemKind

def all : List ProblemKind :=
  [.invalidRequest, .authentication, .permission, .rateLimit, .server, .unavailable, .service]

def name : ProblemKind → String
  | .invalidRequest => "invalid_request_error"
  | .authentication => "authentication_error"
  | .permission => "permission_error"
  | .rateLimit => "rate_limit_error"
  | .server => "server_error"
  | .unavailable => "service_unavailable_error"
  | .service => "upstream_error"

def ofName? (s : String) : Option ProblemKind := all.find? (·.name == s)

end ProblemKind

structure Problem where
  status : Nat
  kind : ProblemKind
  message : String
  headers : Http.Headers := []
deriving DecidableEq, Repr

namespace Problem

def challenge : String := "Bearer realm=\"api\""

def unauthorized (message : String) : Problem :=
  { status := 401, kind := .authentication, message, headers := [("www-authenticate", challenge)] }

def forbidden (message : String) : Problem := { status := 403, kind := .permission, message }

def rateLimited (message : String) : Problem := { status := 429, kind := .rateLimit, message }

def internal (message : String) : Problem := { status := 500, kind := .server, message }

def unavailable (message : String) : Problem := { status := 503, kind := .unavailable, message }

def payloadTooLarge (message : String) : Problem := { status := 413, kind := .invalidRequest, message }

def badGateway (message : String) : Problem := { status := 502, kind := .service, message }

def gatewayTimeout (message : String) : Problem := { status := 504, kind := .service, message }

def withHeader (p : Problem) (name value : String) : Problem :=
  { p with headers := p.headers.insert name value }

def ofDenial : AccessDenied → Problem
  | .missingCredential _ | .invalidCredential _ => unauthorized "Unauthorized"
  | .forbidden => forbidden "Forbidden"
  | .rateExceeded => rateLimited "Too Many Requests"
  | .tokenStore _ => unavailable "token store unavailable"
  | .rateLimiter _ => internal "rate limiter error"

def body (p : Problem) : Json.Value :=
  .record [("error", .record [("message", .text p.message), ("type", .text p.kind.name)])]

def toResponse (p : Problem) : Http.Response :=
  let r := Http.Response.json p.status p.body.render
  { r with headers := p.headers.foldl (fun h (n, v) => h.insert n v) r.headers }

end Problem

end Turnstile
