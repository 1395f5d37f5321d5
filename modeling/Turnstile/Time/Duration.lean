import Turnstile.Text.Decimal
/-!
# Durations

A length of time in seconds and nanoseconds. Seconds fill 64 bits; the sum of two durations stops at
the greatest one.
-/

namespace Turnstile.Time

structure Duration where
  secs : Nat := 0
  nanos : Nat := 0
deriving DecidableEq, Repr

namespace Duration

def zero : Duration := {}

def ofSecs (n : Nat) : Duration := { secs := n }

def ofMillis (n : Nat) : Duration := { secs := n / 1000, nanos := n % 1000 * 1000000 }

def max : Duration := { secs := Text.maxNat64, nanos := 999999999 }

def toNanos (d : Duration) : Nat := d.secs * 1000000000 + d.nanos

def toMillis (d : Duration) : Nat := d.secs * 1000 + d.nanos / 1000000

/-- The duration in seconds, as a floating-point number: the sum of whole seconds and fraction. -/
def toSeconds (d : Duration) : Float := Float.ofNat d.secs + Float.ofNat d.nanos / 1e9

/-- The sum, or the longest duration where the sum is longer. -/
def saturatingAdd (a b : Duration) : Duration :=
  let nanos := a.nanos + b.nanos
  let secs := a.secs + b.secs + nanos / 1000000000
  if Text.maxNat64 < secs then max else { secs, nanos := nanos % 1000000000 }

/-- The digits of a fraction of `width` places, without zeros at the end. -/
def fractionDigits (width n : Nat) : List Char :=
  ((Text.paddedDigits width n).reverse.dropWhile (· == '0')).reverse

/-- A number with its fraction and unit; without a point where the fraction is zero. -/
def withUnit (whole fraction width : Nat) (unit : String) : String :=
  Text.natText whole
    ++ (if fraction = 0 then "" else "." ++ String.ofList (fractionDigits width fraction)) ++ unit

/-- The duration in the greatest unit that does not make it less than one: `5s`, `50ms`, `1.5µs`. -/
def text (d : Duration) : String :=
  if 0 < d.secs then withUnit d.secs d.nanos 9 "s"
  else if 1000000 ≤ d.nanos then withUnit (d.nanos / 1000000) (d.nanos % 1000000) 6 "ms"
  else if 1000 ≤ d.nanos then withUnit (d.nanos / 1000) (d.nanos % 1000) 3 "µs"
  else withUnit d.nanos 0 0 "ns"

end Duration

end Turnstile.Time
