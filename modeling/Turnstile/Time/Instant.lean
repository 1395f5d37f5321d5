import Turnstile.Time.Duration
/-!
# Instants

A point of time as a Unix second and nanoseconds into it. Nanoseconds from a thousand million on
belong to a leap second, which follows the second it is attached to and precedes the next one, so
instants are ordered by second first. Calendar dates bound the instants that can be represented.
-/

namespace Turnstile.Time

structure Instant where
  secs : Int
  /-- Nanoseconds into the second, from a thousand million on in a leap second. -/
  nanos : Nat := 0
deriving DecidableEq, Repr

namespace Instant

/-- The instant a number of milliseconds after the beginning of 1970. -/
def ofMillis (ms : Int) : Instant where
  secs := ms.fdiv 1000
  nanos := (ms.fmod 1000).toNat * 1000000

instance : LE Instant where
  le a b := a.secs < b.secs ∨ (a.secs = b.secs ∧ a.nanos ≤ b.nanos)

instance : LT Instant where
  lt a b := a.secs < b.secs ∨ (a.secs = b.secs ∧ a.nanos < b.nanos)

instance (a b : Instant) : Decidable (a ≤ b) :=
  inferInstanceAs (Decidable (a.secs < b.secs ∨ (a.secs = b.secs ∧ a.nanos ≤ b.nanos)))

instance (a b : Instant) : Decidable (a < b) :=
  inferInstanceAs (Decidable (a.secs < b.secs ∨ (a.secs = b.secs ∧ a.nanos < b.nanos)))

/-- The first second of the calendar, the beginning of the year -262143. -/
def minSecs : Int := -8334601228800

/-- The last second of the calendar, the end of the year 262142. -/
def maxSecs : Int := 8210266876799

def inCalendar (secs : Int) : Bool := minSecs ≤ secs && secs ≤ maxSecs

theorem inCalendar_iff {secs : Int} : inCalendar secs = true ↔ minSecs ≤ secs ∧ secs ≤ maxSecs := by
  simp [inCalendar]

/-- The beginning of a Unix second, if the calendar has it. -/
def ofSecs? (secs : Int) : Option Instant :=
  if inCalendar secs then some { secs } else none

/-- A leap second, which is counted from the end of the second before it. -/
def inLeapSecond (t : Instant) : Bool := 1000000000 ≤ t.nanos

/-- The instant a duration later, if the calendar has it. A leap second that is left by it passes
without being counted. -/
def add? (t : Instant) (d : Duration) : Option Instant :=
  if t.inLeapSecond ∧ d.secs = 0 ∧ t.nanos + d.nanos < 2000000000 then
    some { t with nanos := t.nanos + d.nanos }
  else
    let nanos := (if t.inLeapSecond then t.nanos - 1000000000 else t.nanos) + d.nanos
    let secs := t.secs + d.secs + (nanos / 1000000000 : Nat)
    if inCalendar secs then some { secs, nanos := nanos % 1000000000 } else none

end Instant

end Turnstile.Time
