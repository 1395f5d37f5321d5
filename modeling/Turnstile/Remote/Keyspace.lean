import Turnstile.Remote.Command
import Turnstile.Table
/-!
# The keyspace of the shared server

What the server holds, and what each command does to it. A key may have a deadline. From then on the
server may drop the key at any moment, by a step of its own; until it does, commands still find it. A key
whose deadline has passed when it is set is dropped at once.
-/

namespace Turnstile.Remote

open Time

inductive Content where
  | fields (l : List (String × String))
  | count (n : Int)
deriving DecidableEq, Repr

structure Slot where
  content : Content
  /-- The instant from which on the key may be dropped. -/
  deadline : Option Instant := none
deriving DecidableEq, Repr

abbrev Keyspace := Table Slot

namespace Keyspace

/-- The answer to a command that does not fit the content of its key. -/
def wrongContent : String := "WRONGTYPE: Operation against a key holding the wrong kind of value"

/-- The answer to a count that would leave 64 bits. -/
def overflow : String := "increment or decrement would overflow"

/-- The answer to a lifetime that ends beyond 64 bits of milliseconds. The counter stays, without one. -/
def badLifetime : String := "invalid expire time"

def millis (t : Instant) : Int := t.secs * 1000 + t.nanos / 1000000

/-- Fields with new values for some names; other fields stay. -/
def mergeFields (new old : List (String × String)) : List (String × String) :=
  new.foldl (fun fields (name, value) => fields.filter (·.1 != name) ++ [(name, value)]) old

/-- Puts content under a key, with a deadline that may have passed. -/
def put (k : Keyspace) (now : Instant) (key : String) (content : Content) (deadline : Instant) : Keyspace :=
  if deadline ≤ now then k.erase key else k.insert key { content, deadline := some deadline }

/-- One more under a key, which counts from zero where it is free. -/
def increment (k : Keyspace) (key : String) : Except String (Int × Keyspace) :=
  match k.get? key with
  | none => .ok (1, k.insert key { content := .count 1 })
  | some { content := .count n, deadline } =>
    if n < Text.maxInt64 then .ok (n + 1, k.insert key { content := .count (n + 1), deadline })
    else .error overflow
  | some _ => .error wrongContent

/-- Gives a key a deadline some milliseconds from now. -/
def expireIn (k : Keyspace) (now : Instant) (key : String) (ttl : Nat) : Except String Keyspace :=
  if Text.maxInt64 < millis now + ttl then .error badLifetime
  else
    match k.get? key with
    | none => .ok k
    | some slot => .ok (k.put now key slot.content (.ofMillis (millis now + ttl)))

/-- What a command does. To write fields is a transaction: the deadline is set also where the fields are refused.
To count is to increment and to set the deadline if the count is the first. -/
def execute (k : Keyspace) (now : Instant) : (c : Command) → Except String c.Reply × Keyspace
  | .readFields key =>
    match k.get? key with
    | none => (.ok [], k)
    | some { content := .fields l, .. } => (.ok l, k)
    | some _ => (.error wrongContent, k)
  | .writeFields key new deadline =>
    let deadline : Instant := { secs := deadline, nanos := 0 }
    match k.get? key with
    | none => (.ok (), k.put now key (.fields (mergeFields new [])) deadline)
    | some { content := .fields old, .. } => (.ok (), k.put now key (.fields (mergeFields new old)) deadline)
    | some { content := .count n, .. } => (.error wrongContent, k.put now key (.count n) deadline)
  | .remove key => (.ok (), k.erase key)
  | .count key ttl =>
    match k.increment key with
    | .error reason => (.error reason, k)
    | .ok (n, k) =>
      if n = 1 then
        match k.expireIn now key ttl with
        | .error reason => (.error reason, k)
        | .ok k => (.ok n, k)
      else (.ok n, k)
  | .ping => (.ok (), k)

def isLapsed (k : Keyspace) (now : Instant) (key : String) : Bool :=
  match k.get? key with
  | some { deadline := some d, .. } => d ≤ now
  | _ => false

/-- The server's own step: it drops a key whose deadline has passed. -/
def lapse (k : Keyspace) (now : Instant) (key : String) : Keyspace :=
  if k.isLapsed now key then k.erase key else k

def answer (now : Instant) : (q : Query) → Keyspace → Except Empty (q.Answer × Keyspace)
  | .command c, k =>
    let (reply, k) := k.execute now c
    .ok (reply, k)
  | .clock, k => .ok (now, k)

end Keyspace

end Turnstile.Remote
