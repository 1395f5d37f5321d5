import Turnstile.Access.Local
import Turnstile.Gateway.Router
/-!
# A running gateway

What answers the questions of the router. Tokens are read with the key set alone, and log and metrics take what
they are given; all else is asked of backends, which hold the token records and the counters and stand before
the service.
-/

namespace Turnstile.Gateway

open Time

variable {σ ε : Type}

structure Backends (σ ε : Type) where
  fetch : String → σ → Except ε (Timed (Except StoreError TokenRecord) × σ)
  allow : String → Int → σ → Except ε (Timed (Except RateLimitError Bool) × σ)
  ping : σ → Except ε (Pinged × σ)
  forward : Handover → σ → Except ε (Timed (Except Problem Http.Response) × σ)

/-- The state of a gateway: what its backends hold, and what it has written down. -/
structure Running (σ : Type) where
  held : σ
  log : List LogEvent := []
  metrics : List Metric := []

/-- Puts what the backends hold after an answer in the place of what they held before. -/
def Running.keep {α : Type} (s : Running σ) : Except ε (α × σ) → Except ε (α × Running σ)
  | .error e => .error e
  | .ok (a, held) => .ok (a, { s with held })

def Backends.answer (b : Backends σ ε) (keys : Jwt.KeySet) :
    (q : Query) → Running σ → Except ε (q.Answer × Running σ)
  | .access (.verify token), s => .ok (keys.verify token, s)
  | .access (.fetch key), s => s.keep (b.fetch key s.held)
  | .access (.allow key limit), s => s.keep (b.allow key limit s.held)
  | .ping, s => s.keep (b.ping s.held)
  | .forward h, s => s.keep (b.forward h s.held)
  | .log e, s => .ok ((), { s with log := s.log ++ [e] })
  | .measure m, s => .ok ((), { s with metrics := s.metrics ++ [m] })

/-- The backends of a gateway of one process, at an instant. They answer at once, and so does the service. -/
def Backends.ofLocal (g : Access.Local) (now : Instant) (forward : Handover → Except Problem Http.Response) :
    Backends Access.Stores Fault where
  fetch key s := g.answer now (.fetch key) s
  allow key limit s := g.answer now (.allow key limit) s
  ping s := .ok ({ answer := { value := s.tokens.ping.1 } }, s)
  forward h s := .ok ({ value := forward h }, s)

end Turnstile.Gateway
