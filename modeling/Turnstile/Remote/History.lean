import Turnstile.Remote.Keyspace
import Turnstile.Remote.Tokens
import Turnstile.Token.History
/-!
# The history of a token store on the server

Requests to a store that keeps its records on the server, carried out one after another while nobody else asks
anything of the server. An operation takes its time: before each of its questions, and at its end, the clock may
have gone on and keys may have been dropped whose deadline has passed. The store and the server read one clock.
-/

namespace Turnstile.Remote

open Time
open TokenTable (Entry Request)

/-- A server with its clock. -/
structure Site where
  clock : Instant
  keyspace : Keyspace := ∅

/-- What a server comes to of its own accord. -/
inductive Drifts (s : Site) : Site → Prop where
  | stay : Drifts s s
  | pass {s' : Site} {later : Instant} (h : Drifts s s') (hlater : s'.clock ≤ later) :
      Drifts s { s' with clock := later }
  | lapse {s' : Site} (h : Drifts s s') (name : String) :
      Drifts s { s' with keyspace := s'.keyspace.lapse s'.clock name }

/-- How an operation may go: its answer, its instant, and what the server has come to at its end. Its instant is
what its first look at the clock shows, or that of its end if it does not look at the clock. -/
inductive Serves {α : Type} : Operation α → Site → α → Instant → Site → Prop where
  | done {a : α} {s s' : Site} (hdrift : Drifts s s') : Serves (.done a) s a s'.clock s'
  | command {c : Command} {next : Except String c.Reply → Operation α} {s s' s'' : Site} {a : α} {now : Instant}
      (hdrift : Drifts s s')
      (h : Serves (next (s'.keyspace.execute s'.clock c).1)
        { s' with keyspace := (s'.keyspace.execute s'.clock c).2 } a now s'') :
      Serves (.ask (.command c) next) s a now s''
  | clock {next : Instant → Operation α} {s s' s'' : Site} {a : α} {later : Instant} (hdrift : Drifts s s')
      (h : Serves (next s'.clock) s' a later s'') : Serves (.ask .clock next) s a s'.clock s''

/-- What is done on the server for a request to the store behind a front. -/
def operation (stem : String) : (request : Request) → Operation request.Answer
  | .fetch key => fetch stem key
  | .upsert r => upsert stem r
  | .delete key => delete stem key

/-- The histories of a store behind a front, with what the server has come to. -/
inductive Carried (stem : String) (s : Site) : List Entry → Site → Prop where
  | start : Carried stem s [] s
  | turn {history : List Entry} {s' s'' : Site} {request : Request} {answer : request.Answer} {now : Instant}
      (h : Carried stem s history s') (hserves : Serves (operation stem request) s' answer now s'') :
      Carried stem s (⟨now, request, answer⟩ :: history) s''

end Turnstile.Remote
