import Turnstile.Http.Header
import Turnstile.Http.Uri
/-!
# Requests and responses

Bodies are texts, measured in bytes. A response knows its length unless its body is one of unknown
length, and a response to `HEAD` keeps the length of the body that it leaves out.
-/

namespace Turnstile.Http

structure Request where
  /-- The method, in the case in which it was sent. -/
  method : String := "GET"
  uri : Uri
  headers : Headers := []
  body : String := ""
deriving DecidableEq, Repr

namespace Request

/-- A request of its parts, if they are well-formed. -/
def ofParts? (method uri : String) (headers : List (String × String)) (body : String) : Option Request := do
  if !isToken method then none
  return { method, uri := ← Uri.parse? uri, headers := ← Headers.ofList? headers, body }

end Request

structure Response where
  status : Nat
  headers : Headers := []
  body : String := ""
deriving DecidableEq, Repr

namespace Response

def json (status : Nat) (body : String) : Response where
  status := status
  headers := [("content-type", "application/json")]
  body := body

/-- The response with its length stated, unless it already is. -/
def withLength (r : Response) : Response :=
  if (r.headers.first? "content-length").isSome then r
  else { r with headers := r.headers ++ [("content-length", Text.natText r.body.utf8ByteSize)] }

/-- The response without its body, as `HEAD` asks for. -/
def withoutBody (r : Response) : Response := { r with body := "" }

end Response

end Turnstile.Http
