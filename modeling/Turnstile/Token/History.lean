import Turnstile.Token.Callers
/-!
# The history of a token store

Requests to one store, carried out one after another, each at an instant. The callers see the answers, so the
history of a store can be told from outside: it is what was asked and when, with what came of it. Turns and
histories have their latest member first.
-/

namespace Turnstile.TokenTable

open Time

structure Turn where
  now : Instant
  request : Request
deriving DecidableEq, Repr

/-- A request with the answer that its caller has seen. -/
structure Entry where
  now : Instant
  request : Request
  answer : request.Answer

def Entry.turn (e : Entry) : Turn := ⟨e.now, e.request⟩

/-- The key that a request is about. -/
def Request.key : Request → String
  | .fetch key => key
  | .upsert r => r.apiKey
  | .delete key => key

def perform (t : TokenTable) (now : Instant) : (request : Request) → request.Answer × TokenTable
  | .fetch key => t.fetch now key
  | .upsert r => t.upsert now r
  | .delete key => t.delete key

/-- The store after some turns, which is empty to begin with. -/
def after : List Turn → TokenTable
  | [] => ∅
  | x :: past => ((after past).perform x.now x.request).2

/-- The history of these turns. -/
def seen : List Turn → List Entry
  | [] => []
  | x :: past => ⟨x.now, x.request, ((after past).perform x.now x.request).1⟩ :: seen past

end Turnstile.TokenTable
