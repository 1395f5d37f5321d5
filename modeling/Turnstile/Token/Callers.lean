import Turnstile.Interleaving
import Turnstile.Token.Memory
/-!
# Token records in memory among callers

The store's operations as they are carried out while others are: a lock is held for one look or one change, and
the clock is read outside of it. Between two of these steps the records may change. So a look-up that has found
an expired record looks again, under the lock that is held alone, before it removes anything.
-/

namespace Turnstile.TokenTable

open Time

inductive Step where
  /-- Looks a record up, under the lock that readers share. -/
  | find (key : String)
  | clock
  /-- Removes the record that a key has by then, unless it is alive. -/
  | dropExpired (key : String) (now : Instant)
  | put (r : TokenRecord)
  | remove (key : String)
deriving DecidableEq, Repr

abbrev Step.Answer : Step → Type
  | .find _ => Option TokenRecord
  | .clock => Instant
  | .dropExpired _ _ | .put _ | .remove _ => Unit

inductive Request where
  | fetch (key : String)
  | upsert (r : TokenRecord)
  | delete (key : String)
deriving DecidableEq, Repr

abbrev Request.Answer : Request → Type
  | .fetch _ => Except StoreError TokenRecord
  | .upsert _ | .delete _ => Except StoreError Unit

def program : (request : Request) → Dialogue Step Step.Answer request.Answer
  | .fetch key =>
    if key.isEmpty then .done (.error (.invalid "empty api_key"))
    else
      .ask (.find key) fun found =>
        .ask .clock fun now =>
          match found with
          | none => .done (.error .notFound)
          | some r =>
            if r.isExpiredAt now then .ask (.dropExpired key now) fun _ => .done (.error .expired)
            else .done (.ok r)
  | .upsert r =>
    .ask .clock fun now =>
      match r.check now with
      | .error e => .done (.error e)
      | .ok () => .ask (.put r) fun _ => .done (.ok ())
  | .delete key =>
    if key.isEmpty then .done (.error (.invalid "empty api_key"))
    else .ask (.remove key) fun _ => .done (.ok ())

/-- What a step does; the clock shows whatever it shows. -/
def answer (reading : Instant) : (q : Step) → TokenTable → q.Answer × TokenTable
  | .find key, t => (t.get? key, t)
  | .clock, t => (reading, t)
  | .dropExpired key now, t => ((), t.dropExpired key now)
  | .put r, t => ((), t.insert r.apiKey r)
  | .remove key, t => ((), t.erase key)

/-- Any number of calls on one store. -/
def callers : Interleaving Request Request.Answer Step Step.Answer TokenTable Instant Empty where
  program := program
  answer := answer
  act w := w.elim

end Turnstile.TokenTable
