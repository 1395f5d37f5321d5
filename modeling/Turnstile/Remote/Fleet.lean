import Turnstile.Remote.Counters
import Turnstile.Remote.Keyspace
/-!
# Gateways on one server

Any number of gateways that limit rates by the counters of one server. A call to the limiter is made at one
of them, looks at that gateway's clock, which may show anything, and sends its command. The server runs
commands one at a time, in any order, and the answer reaches the call later. Until then the call may be
given up. Giving it up does not call its command back: one that is on its way may still be run.

The server has a clock of its own, which never goes back. From the deadline of a key on the server may drop
it, in a step of its own.
-/

namespace Turnstile.Remote

open Time

/-- A reading of the server's clock, in milliseconds; its second is one of the calendar. -/
structure Moment where
  millis : Int
  inCalendar : Instant.inCalendar (millis.fdiv 1000) = true := by decide

namespace Moment

def instant (m : Moment) : Instant := .ofMillis m.millis

/-- The later of two moments. -/
def later (a b : Moment) : Moment := if a.millis ≤ b.millis then b else a

end Moment

/-- How the gateways are set up that share counters. -/
structure Fleet where
  stem : String := CounterTable.defaultStem
  /-- The length of the window in seconds: at least one, at most a day. -/
  windowSecs : Nat
  windowSecs_pos : 1 ≤ windowSecs := by decide
  windowSecs_le : windowSecs ≤ 86400 := by decide
  limit : String → Int

def Fleet.window (f : Fleet) : Duration := .ofSecs f.windowSecs

/-- A call to the limiter of some gateway. -/
structure Call where
  key : String
  /-- What is left to be done, the command on its way first. -/
  rest : Operation (Except RateLimitError Bool)
  /-- How the call has ended for its caller. -/
  ending : Option (Dialogue.Ending (Except RateLimitError Bool)) := none

namespace Call

def look (now : Instant) (c : Call) : Call :=
  match c.ending, c.rest with
  | none, .ask .clock next => { c with rest := next now }
  | _, _ => c

/-- The answer reaches the caller, if there is one and the caller waits for it. -/
def finish (c : Call) : Call :=
  match c.ending, c.rest with
  | none, .done answer => { c with ending := some (.finished answer) }
  | _, _ => c

def giveUp (c : Call) : Call :=
  match c.ending with
  | none => { c with ending := some .cut }
  | some _ => c

/-- Whether the caller was told that the request may pass. -/
def isAllowed (c : Call) : Bool :=
  match c.ending with
  | some (.finished (.ok allowed)) => allowed
  | _ => false

def isGivenUp (c : Call) : Bool :=
  match c.ending with
  | some .cut => true
  | _ => false

end Call

/-- One count made by the server: the number of the call, the counter's name, when it was made and the
number that was replied. -/
structure Count where
  call : Nat
  name : String
  moment : Moment
  reply : Int

/-- The count that a command is, if it has been carried out. -/
def Count.of (call : Nat) (moment : Moment) : (c : Command) → Except String c.Reply → List Count
  | .count name _, .ok reply => [{ call, name, moment, reply }]
  | _, _ => []

namespace Fleet

structure State where
  clock : Moment
  keyspace : Keyspace := ∅
  /-- The calls, numbered from zero. -/
  calls : List Call := []
  /-- What the server has counted, in order. -/
  counts : List Count := []

inductive Event where
  | call (key : String)
  /-- A call looks at the clock of its gateway and sends its command. -/
  | look (call : Nat) (now : Instant)
  /-- The server runs the command that a call has sent. -/
  | serve (call : Nat)
  | finish (call : Nat)
  | giveUp (call : Nat)
  /-- The server's clock moves on. -/
  | pass (moment : Moment)
  /-- The server drops a key whose deadline has passed. -/
  | lapse (name : String)

namespace State

def serve (s : State) (i : Nat) : State :=
  match s.calls[i]? with
  | some { rest := .ask (.command command) next, .. } =>
    let (reply, keyspace) := s.keyspace.execute s.clock.instant command
    { s with
      keyspace
      calls := s.calls.modify i fun c => { c with rest := next reply }
      counts := s.counts ++ Count.of i s.clock command reply }
  | _ => s

end State

/-- What an event does; one that cannot happen does nothing. -/
def step (f : Fleet) (s : State) : Event → State
  | .call key => { s with calls := s.calls ++ [{ key, rest := allow f.stem f.window key (f.limit key) }] }
  | .look i now => { s with calls := s.calls.modify i (Call.look now) }
  | .serve i => s.serve i
  | .finish i => { s with calls := s.calls.modify i Call.finish }
  | .giveUp i => { s with calls := s.calls.modify i Call.giveUp }
  | .pass moment => { s with clock := s.clock.later moment }
  | .lapse name => { s with keyspace := s.keyspace.lapse s.clock.instant name }

/-- The state after a history of events, whose latest comes first. No key is there to begin with. -/
def after (f : Fleet) (start : Moment) : List Event → State
  | [] => { clock := start }
  | e :: past => f.step (f.after start past) e

end Fleet

end Turnstile.Remote
