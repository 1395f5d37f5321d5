import Turnstile.Http.Message
import Turnstile.Json.Writer
import Turnstile.Token.Record
/-!
# Probes

The answers by which the gateway tells whether it is up, and whether it is ready: it is ready when the
token store answers in time.
-/

namespace Turnstile.Gateway

def version : String := "0.1.0"

def aliveResponse : Http.Response :=
  .json 200 (Json.Value.render (.record [("status", .text "healthy"), ("version", .text version)]))

/-- The time limit of the readiness probe in milliseconds. -/
def readinessTimeout : Nat := 2000

/-- What is wrong with a store that was asked, if anything. -/
def storeComplaint? : Option (Except StoreError Unit) → Option String
  | some (.ok ()) => none
  | some (.error e) => some e.message
  | none => some "ping timed out"

/-- The answer of the readiness probe, given what is wrong with the store and the milliseconds it took to
find out. -/
def readyResponse (complaint : Option String) (latency : Nat) : Http.Response :=
  let status := if complaint.isNone then "healthy" else "unhealthy"
  let check := Json.Value.record ([("name", .text "token_store"), ("status", .text status)]
    ++ (complaint.map fun m => ("message", Json.Value.text m)).toList ++ [("latency_ms", .int latency)])
  .json (if complaint.isNone then 200 else 503)
    (Json.Value.render (.record [("status", .text status), ("version", .text version),
      ("checks", .array [check]), ("latency_ms", .int latency)]))

end Turnstile.Gateway
