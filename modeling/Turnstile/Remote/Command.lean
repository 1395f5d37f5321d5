import Turnstile.Dialogue
import Turnstile.Time.Instant
/-!
# Commands to the shared server

The commands by which records and counters are read and changed. Each of them is one step of the server:
writing a record with its deadline, and counting with the deadline of a fresh counter, are not interrupted
by the commands of others. Between two commands of one operation anything may happen. What an operation
asks besides is the time.
-/

namespace Turnstile.Remote

open Time

inductive Command where
  | readFields (key : String)
  /-- Writes fields of a record and the second from which on it is dead. -/
  | writeFields (key : String) (fields : List (String × String)) (deadline : Int)
  | remove (key : String)
  /-- Counts one more; a fresh counter lives for some milliseconds. -/
  | count (key : String) (ttlMillis : Nat)
  | ping
deriving DecidableEq, Repr

abbrev Command.Reply : Command → Type
  | .readFields _ => List (String × String)
  | .writeFields _ _ _ => Unit
  | .remove _ => Unit
  | .count _ _ => Int
  | .ping => Unit

inductive Query where
  | command (c : Command)
  | clock
deriving DecidableEq, Repr

/-- How an operation is answered; a command may fail for some reason. -/
abbrev Query.Answer : Query → Type
  | .command c => Except String c.Reply
  | .clock => Instant

abbrev Operation := Dialogue Query Query.Answer

end Turnstile.Remote
