import Turnstile.Gateway.Router
import Turnstile.SetupError
import Turnstile.Text.Blank
import Turnstile.Text.Quoted
import Turnstile.Url.Address
/-!
# The way to the service behind the gateway

An accepted request goes to the service's address, with its own path put below the path of that
address, its own query, and the verified key in a header of the gateway's. Headers that concern a single
connection stay behind, in both directions. How the message travels is not this module's business: it
composes what is sent and says what becomes of the answer, or of its failing to come.
-/

namespace Turnstile.Gateway

open Http

def apiKeyHeader : String := "x-gateway-api-key"

def connectionHeaders : List String :=
  ["connection", "keep-alive", "proxy-authenticate", "proxy-authorization", "te", "trailer",
    "transfer-encoding", "upgrade"]

/-- The headers that the `connection` header declares to concern a single connection. A value that
cannot be read declares nothing. -/
def declaredHeaders (h : Headers) : List String :=
  (((h.all "connection").filter isPlain).flatMap (Text.parts ',')).filterMap fun part =>
    let name := Text.asciiLower (Text.trim part)
    if name.isEmpty then none else some name

def endToEnd (h : Headers) : Headers :=
  let dropped := connectionHeaders ++ declaredHeaders h
  h.filter fun (name, _) => !dropped.contains name

structure Proxy where
  target : Url
deriving DecidableEq, Repr

structure Outgoing where
  method : String
  url : Url
  headers : Headers
  body : Option String
deriving DecidableEq, Repr

inductive ServiceFault where
  | timedOut
  | bodyTooLong
  | broken
deriving DecidableEq, Repr

/-- The answer to a request that the service did not answer. -/
def ServiceFault.toProblem : ServiceFault → Problem
  | .timedOut => .gatewayTimeout "gateway timeout"
  | .bodyTooLong => .payloadTooLarge "request body too large"
  | .broken => .badGateway "bad gateway"

namespace Proxy

def ofTarget (text : String) : Except SetupError Proxy :=
  match Url.parse? text with
  | some target => .ok { target }
  | none => .error (.configuration ("Invalid upstream URL '" ++ text ++ "'"))

def describe (p : Proxy) : String :=
  "UpstreamProxy \x7b target: " ++ Text.quoted p.target.text ++ ", .. \x7d"

/-- The path of the service's address, without slashes at its end. -/
def base (p : Proxy) : List Char :=
  (p.target.path.render.toList.reverse.dropWhile (· == '/')).reverse

/-- The address that a request target is looked for at. -/
def url (p : Proxy) (uri : Uri) : Url :=
  (p.target.withPath (String.ofList (p.base ++ uri.path.toList))).withQuery uri.query

/-- The headers of a request as the service sees them. -/
def headers (h : Headers) (c : Claims) : Headers :=
  let h := (endToEnd h).erase "host"
  if isValue c.apiKey then h.insert apiKeyHeader c.apiKey else h

def outgoing (p : Proxy) (h : Handover) : Outgoing where
  method := h.request.method
  url := p.url h.request.uri
  headers := headers h.request.headers h.claims
  body := h.body?

def conclude : Except ServiceFault Response → Except Problem Response
  | .ok r => .ok { r with headers := endToEnd r.headers }
  | .error fault => .error fault.toProblem

def forward (send : Outgoing → Except ServiceFault Response) (p : Proxy) (h : Handover) :
    Except Problem Response :=
  conclude (send (p.outgoing h))

end Proxy

end Turnstile.Gateway
