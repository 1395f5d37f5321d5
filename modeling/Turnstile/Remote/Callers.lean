import Turnstile.Interleaving
import Turnstile.Remote.Fleet
import Turnstile.Remote.Tokens
/-!
# Stores on one server

Any number of calls to token stores that keep their records on one server, each under a front of its own and
with a clock of its own, and in the same way to counter stores that share a front. The server runs one command at a
time. Its clock goes on and keys whose deadline has passed are dropped in steps of their own, as for the gateways
that share a budget.
-/

namespace Turnstile.Remote

open Time

inductive TokenRequest where
  | fetch (stem key : String)
  | upsert (stem : String) (r : TokenRecord)
  | delete (stem key : String)
deriving DecidableEq, Repr

abbrev TokenRequest.Answer : TokenRequest → Type
  | .fetch _ _ => Except StoreError TokenRecord
  | .upsert _ _ | .delete _ _ => Except StoreError Unit

def TokenRequest.operation : (request : TokenRequest) → Operation request.Answer
  | .fetch stem key => Remote.fetch stem key
  | .upsert stem r => Remote.upsert stem r
  | .delete stem key => Remote.delete stem key

structure Server where
  clock : Moment
  keyspace : Keyspace := ∅

namespace Server

/-- What the server does of its own accord. -/
inductive Act where
  | pass (moment : Moment)
  | lapse (name : String)

def act : Act → Server → Server
  | .pass moment, s => { s with clock := s.clock.later moment }
  | .lapse name, s => { s with keyspace := s.keyspace.lapse s.clock.instant name }

/-- The server runs a command; the clock of the store that asks shows whatever it shows. -/
def answer (reading : Instant) : (q : Query) → Server → q.Answer × Server
  | .command c, s =>
    let (reply, keyspace) := s.keyspace.execute s.clock.instant c
    (reply, { s with keyspace })
  | .clock, s => (reading, s)

end Server

def tokenStores :
    Interleaving TokenRequest TokenRequest.Answer Query Query.Answer Server Instant Server.Act where
  program := TokenRequest.operation
  answer := Server.answer
  act := Server.act

/-- One more for a key, to be counted in windows of a length. -/
structure CountRequest where
  key : String
  window : Duration
deriving DecidableEq, Repr

def counterStores (stem : String) :
    Interleaving CountRequest (fun _ => Except CounterError Int) Query Query.Answer Server Instant Server.Act where
  program r := increment stem r.key r.window
  answer := Server.answer
  act := Server.act

end Turnstile.Remote
