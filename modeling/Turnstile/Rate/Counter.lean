import Turnstile.Rate.Window
import Turnstile.Table
/-!
# Counters

Counters of requests, one for each key and window. The first request of a window creates its counter
with a deadline somewhat beyond the window; later ones leave the deadline alone. `CounterTable` keeps
the counters of one process and drops the dead ones whenever one is incremented.
-/

namespace Turnstile

open Time

inductive CounterError where
  /-- The window is empty, or too long for a deadline. -/
  | invalidWindow
  | backend (reason : String)
deriving DecidableEq, Repr

def CounterError.message : CounterError → String
  | .invalidWindow => "window must be > 0 and fit the counter ttl"
  | .backend reason => "counter backend error: " ++ reason

inductive Fault where
  /-- The deadline of a counter would lie beyond the calendar. -/
  | deadlineOutOfCalendar
deriving DecidableEq, Repr

structure Counter where
  /-- How often the counter has been incremented: at least once, and no more often than its table has been
  (`CounterTable.within_after`), which keeps the count well within 64 bits. -/
  count : Int
  expiresAt : Instant
deriving DecidableEq, Repr

abbrev CounterTable := Table Counter

namespace CounterTable

def defaultStem : String := "req_limit:"

/-- The longest lifetime that can be added to an instant. -/
def maxTtl : Duration := { secs := 9223372036854775, nanos := 807000000 }

/-- The lifetime of a counter, if the window is one that can be counted in. -/
def ttl? (window : Duration) : Option Duration :=
  let ttl := Rate.counterTtl window
  if window = .zero ∨ maxTtl.toNanos < ttl.toNanos then none else some ttl

def prune (t : CounterTable) (now : Instant) : CounterTable :=
  t.filter fun _ c => now < c.expiresAt

def increment (stem : String) (t : CounterTable) (now : Instant) (key : String) (window : Duration) :
    Except Fault (Except CounterError Int × CounterTable) :=
  match ttl? window with
  | none => .ok (.error .invalidWindow, t)
  | some ttl =>
    match now.add? ttl with
    | none => .error .deadlineOutOfCalendar
    | some deadline =>
      let name := Rate.counterKey stem key window now
      let alive := t.prune now
      let c := (alive.get? name).getD { count := 0, expiresAt := deadline }
      .ok (.ok (c.count + 1), alive.insert name { c with count := c.count + 1 })

/-- An increment at an instant: of the counter of a key in windows of a length. -/
structure Increment where
  now : Instant
  key : String
  window : Duration
deriving DecidableEq, Repr

/-- The counters after a history of increments, whose latest comes first. One that faults has dropped the dead
counters by then and does nothing else. -/
def after (stem : String) : List Increment → CounterTable
  | [] => ∅
  | x :: past =>
    match (after stem past).increment stem x.now x.key x.window with
    | .ok (_, t) => t
    | .error _ => (after stem past).prune x.now

end CounterTable

end Turnstile
