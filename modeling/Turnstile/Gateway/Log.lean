import Turnstile.Access.Denial
import Turnstile.Http.Message
/-!
# The log

What is written about requests. A request is logged with a few of its headers; of those that carry
credentials only the fact that they are there. Denials are logged with their reason. Left out are the second
entry of a request, `Request completed`, and what pipeline, stores and proxy write of their own accord.
-/

namespace Turnstile.Gateway

structure LogEvent where
  message : String
  fields : List (String × String)
deriving DecidableEq, Repr

def sensitiveHeaders : List String :=
  ["authorization", "x-api-key", "cookie", "set-cookie", "x-auth-token", "proxy-authorization"]

def loggedHeaders : List String :=
  ["content-type", "content-length", "accept", "user-agent", "x-request-id", "x-forwarded-for",
    "x-real-ip", "authorization", "x-api-key", "cookie"]

def loggedValue (name value : String) : String :=
  if sensitiveHeaders.contains name then "[REDACTED]"
  else if Http.isPlain value then value
  else "[invalid]"

def redactHeaders (h : Http.Headers) : String :=
  ", ".intercalate
    ((h.grouped.filter fun e => loggedHeaders.contains e.1).map fun e =>
      e.1 ++ "=" ++ loggedValue e.1 e.2)

def requestIdHeader : String := "x-request-id"

/-- The entry for a request on a route, or on a path that is none. -/
def incomingEvent (r : Http.Request) (route : String) : LogEvent where
  message := "Incoming request"
  fields :=
    [("method", r.method), ("path", route), ("uri", r.uri.text),
      ("request_id", ((r.headers.first? requestIdHeader).filter Http.isPlain).getD "-"),
      ("headers", redactHeaders r.headers)]

def denialEvent (denied : AccessDenied) (path : String) : LogEvent :=
  if denied.isInfrastructure then
    { message := "Access check failed", fields := [("path", path), ("error", denied.message)] }
  else
    { message := "Access denied",
      fields := [("path", path), ("outcome", denied.outcome), ("reason", denied.message)] }

end Turnstile.Gateway
