import Turnstile.Rate.Limiter
import Turnstile.Remote.Command
/-!
# Counters on the shared server

The counters of all gateways that share a server, by the names that a gateway's own counters have. A
request is counted by one command, so counters of several gateways are one budget. The window has to be
such that the lifetime of its counter fits 64 bits of milliseconds.
-/

namespace Turnstile.Remote

open Time

/-- The lifetime of a counter in milliseconds, if the window is one that can be counted in. -/
def ttlMillis? (window : Duration) : Option Nat :=
  let ttl := (Rate.counterTtl window).toMillis
  if window = .zero ∨ Text.maxInt64 < ttl then none else some ttl

def increment (stem key : String) (window : Duration) : Operation (Except CounterError Int) :=
  if window = .zero then .done (.error .invalidWindow)
  else
    .ask .clock fun now =>
      match ttlMillis? window with
      | none => .done (.error .invalidWindow)
      | some ttl =>
        let name := Rate.counterKey stem key window now
        .ask (.command (.count name ttl)) fun counted =>
          match counted with
          | .ok n => .done (.ok n)
          | .error reason => .done (.error (.backend ("INCR " ++ name ++ ": " ++ reason)))

def allow (stem : String) (window : Duration) (key : String) (limit : Int) :
    Operation (Except RateLimitError Bool) :=
  match Rate.checkRequest key limit with
  | .error e => .done (.error e)
  | .ok () => do
    let counted ← increment stem key window
    return Rate.verdict limit counted

end Turnstile.Remote
