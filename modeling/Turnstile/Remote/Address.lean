import Turnstile.SetupError
import Turnstile.Time.Duration
import Turnstile.Url.Address
/-!
# Reaching the shared server

Records and counters that several gateways share lie on one server. Its address names a host and port, or
a socket on the same machine, and may name a database and credentials. A server counts as reached when it
has answered a ping.
-/

namespace Turnstile.Remote

open Time

inductive Location where
  | network (host : String) (port : Nat)
  | socket (path : String)
deriving DecidableEq, Repr

structure Address where
  location : Location
  database : Int := 0
  username : Option String := none
  password : Option String := none
deriving DecidableEq, Repr

/-- The port number that stands where an address names none. -/
def defaultPort : Nat := 6379

def defaultUrl : String := "redis://127.0.0.1:6379"

/-- The time limit for reaching a server where none is configured. -/
def defaultTimeout : Duration := .ofSecs 5

/-- The text that an escaped part of an address stands for. -/
def unescaped? (s : String) : Option (Option String) :=
  if s.isEmpty then some none else (Text.Utf8.text? (Url.unescape s.toList)).map some

/-- A name or value of a query: a plus stands for a space, and the rest is unescaped. Bytes that are no
character are left out. -/
def formText (s : String) : String :=
  let bytes := Url.unescape (s.toList.map fun c => if c = '+' then ' ' else c)
  String.ofList ((Text.Utf8.decode bytes).filterMap id)

/-- The named values of a query, the last one first: of several values of a name the last counts. -/
def queryPairs (query : Option String) : List (String × String) :=
  match query with
  | none => []
  | some q => ((Text.parts '&' q).filterMap fun pair =>
    if pair.isEmpty then none
    else
      match Text.parts '=' pair with
      | [] => none
      | name :: values => some (formText name, formText (String.intercalate "=" values))).reverse

def database? (s : String) : Option Int := (Text.readInt64 s).toOption

def withoutSlashes (s : String) : String :=
  String.ofList ((s.toList.dropWhile (· == '/')).reverse.dropWhile (· == '/')).reverse

/-- Whether a query asks for a version of the protocol that there is. -/
def isKnownProtocol (pairs : List (String × String)) : Bool :=
  match pairs.lookup "protocol" with
  | none => true
  | some v => ["2", "3", "resp2", "resp3"].contains v

def hostName? : Option Url.Host → Option String
  | none | some (.other "") => none
  | some host => some (String.ofList (host.text.toList.filter fun c => c != '[' && c != ']'))

def ofNetwork? (u : Url) : Option Address := do
  let host ← hostName? u.host
  let path := withoutSlashes u.path.render
  let database ← if path.isEmpty then some 0 else database? path
  let username ← unescaped? u.username
  let password ← unescaped? u.password
  if !isKnownProtocol (queryPairs u.query) then none
  return { location := .network host (u.port.getD defaultPort), database, username, password }

/-- Reads an address of a socket, which lies on this machine. -/
def ofSocket? (u : Url) : Option Address := do
  let pairs := queryPairs u.query
  let path ← match u.path with | .segments (_ :: _) => some u.path.render | _ => none
  if (hostName? u.host).any (· != "localhost") then none
  let database ← match pairs.lookup "db" with | none => some 0 | some db => database? db
  if !isKnownProtocol pairs then none
  return { location := .socket path, database, username := pairs.lookup "user", password := pairs.lookup "pass" }

def Address.parse? (s : String) : Option Address := do
  let u ← Url.parse? s
  match u.scheme with
  | "redis" => ofNetwork? u
  | "unix" | "redis+unix" => ofSocket? u
  | _ => none

inductive Attempt where
  | silent
  | refused (reason : String)
  /-- A connection, on which a ping is answered or fails. -/
  | connected (ping : Except String Unit)
deriving Repr

def connect (reach : Address → Attempt) (url : String) (timeout : Duration) : Except SetupError Address :=
  match Address.parse? url with
  | none => .error (.storage "Failed to create Redis client")
  | some address =>
    match reach address with
    | .silent => .error (.storage ("Timed out connecting to Redis after " ++ timeout.text))
    | .refused reason => .error (.storage ("Failed to connect to Redis: " ++ reason))
    | .connected (.error reason) => .error (.storage ("Redis ping failed: " ++ reason))
    | .connected (.ok ()) => .ok address

end Turnstile.Remote
