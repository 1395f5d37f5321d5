import Turnstile.Rate.Counter
/-!
# Limiting the rate

A request is within the limit of its key if no more requests than the limit have been counted in its
window, this one included. Around the end of a window up to twice the limit can pass in a short time.
-/

namespace Turnstile

open Time

/-- Why it could not be decided whether a request is within its limit. -/
inductive RateLimitError where
  | emptyKey
  | invalidLimit (limit : Int)
  | counter (cause : CounterError)
deriving DecidableEq, Repr

def RateLimitError.message : RateLimitError → String
  | .emptyKey => "rate limit: empty key"
  | .invalidLimit n => "rate limit: limit must be > 0, got " ++ Text.intText n
  | .counter e => "rate limit: failed to increment counter: " ++ e.message

namespace Rate

/-- The configured window; an empty one stands for the default. -/
def windowOrDefault (window : Duration) : Duration :=
  if window = .zero then defaultWindow else window

/-- What can be said about a request before it is counted. -/
def checkRequest (key : String) (limit : Int) : Except RateLimitError Unit :=
  if key.isEmpty then .error .emptyKey
  else if limit ≤ 0 then .error (.invalidLimit limit)
  else .ok ()

/-- The verdict on a request that has been counted. -/
def verdict (limit : Int) : Except CounterError Int → Except RateLimitError Bool
  | .ok count => .ok (count ≤ limit)
  | .error e => .error (.counter e)

/-- Decides on a request with the counters of this process. -/
def allow (stem : String) (window : Duration) (t : CounterTable) (now : Instant) (key : String)
    (limit : Int) : Except Fault (Except RateLimitError Bool × CounterTable) :=
  match checkRequest key limit with
  | .error e => .ok (.error e, t)
  | .ok () =>
    match t.increment stem now key window with
    | .error fault => .error fault
    | .ok (counted, t) => .ok (verdict limit counted, t)

/-- An inquiry at an instant: may one more request of a key pass? -/
structure Inquiry where
  now : Instant
  key : String
  limit : Int
deriving DecidableEq, Repr

/-- The counters of this process after a history of inquiries, whose latest comes first. -/
def countersAfter (stem : String) (window : Duration) : List Inquiry → Except Fault CounterTable
  | [] => .ok ∅
  | x :: past =>
    match countersAfter stem window past with
    | .error fault => .error fault
    | .ok t => (allow stem window t x.now x.key x.limit).map Prod.snd

/-- The counters after a history of inquiries that goes on after a fault. An inquiry that faults has dropped the dead
counters by then and does nothing else. -/
def countersLeft (stem : String) (window : Duration) : List Inquiry → CounterTable
  | [] => ∅
  | x :: past =>
    let t := countersLeft stem window past
    match allow stem window t x.now x.key x.limit with
    | .ok (_, t) => t
    | .error _ => t.prune x.now

/-- The inquiries of a history that were answered with yes. -/
def granted (stem : String) (window : Duration) : List Inquiry → List Inquiry
  | [] => []
  | x :: past =>
    match allow stem window (countersLeft stem window past) x.now x.key x.limit with
    | .ok (.ok true, _) => x :: granted stem window past
    | _ => granted stem window past

end Rate

end Turnstile
