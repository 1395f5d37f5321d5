import Turnstile.Access.Pipeline
import Turnstile.Token.Memory
/-!
# A gateway of one process

The pipeline with a key set, a token store and a rate limiter that all live in the process. What happens
to such a gateway is a sequence of steps, each at an instant: records are written, removed and looked up,
and requests are decided on. The stores are the whole state; they are empty to begin with.
-/

namespace Turnstile.Access

open Time

/-- How a gateway is set up. -/
structure Local where
  keys : Jwt.KeySet
  window : Duration
  stem : String := CounterTable.defaultStem
  timeout : Nat := defaultStoreTimeout

structure Stores where
  tokens : TokenTable := ∅
  counters : CounterTable := ∅

inductive Action where
  | upsert (r : TokenRecord)
  | delete (key : String)
  | fetch (key : String)
  /-- To decide on a request by its `Authorization` value and path. -/
  | evaluate (authorization : Option String) (path : String)
deriving DecidableEq, Repr

abbrev Action.Answer : Action → Type
  | .upsert _ => Except StoreError Unit
  | .delete _ => Except StoreError Unit
  | .fetch _ => Except StoreError TokenRecord
  | .evaluate _ _ => Except AccessDenied Claims

structure Step where
  now : Instant
  action : Action
deriving DecidableEq, Repr

namespace Local

/-- Answers the pipeline from the stores, at once. -/
def answer (g : Local) (now : Instant) : (q : Query) → Stores → Except Fault (q.Answer × Stores)
  | .verify token, s => .ok (g.keys.verify token, s)
  | .fetch key, s =>
    let (found, tokens) := s.tokens.fetch now key
    .ok ({ value := found }, { s with tokens })
  | .allow key limit, s =>
    match Rate.allow g.stem g.window s.counters now key limit with
    | .error fault => .error fault
    | .ok (allowed, counters) => .ok ({ value := allowed }, { s with counters })

/-- Carries out an action at an instant. -/
def act (g : Local) (now : Instant) : (a : Action) → Stores → Except Fault (a.Answer × Stores)
  | .upsert r, s =>
    let (written, tokens) := s.tokens.upsert now r
    .ok (written, { s with tokens })
  | .delete key, s =>
    let (removed, tokens) := s.tokens.delete key
    .ok (removed, { s with tokens })
  | .fetch key, s =>
    let (found, tokens) := s.tokens.fetch now key
    .ok (found, { s with tokens })
  | .evaluate authorization path, s =>
    (evaluate g.timeout now authorization path).run (g.answer now) s

/-- The stores after a history, whose latest step comes first. -/
def after (g : Local) : List Step → Except Fault Stores
  | [] => .ok {}
  | x :: past =>
    match g.after past with
    | .error fault => .error fault
    | .ok s => (g.act x.now x.action s).map Prod.snd

end Local

end Turnstile.Access
