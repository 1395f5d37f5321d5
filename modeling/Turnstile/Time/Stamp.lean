import Turnstile.Time.Calendar
import Turnstile.Time.Instant
import Turnstile.Text.Blank
/-!
# Timestamps

Instants written as RFC 3339 text in UTC, and two readers. `strict?` takes the RFC's grammar, with a
small `t` or a blank for the `T` and the minus sign of typography allowed. `lenient?` also takes blanks
between the parts, fields with a leading zero left off, signed years of any length, `UTC` for the
offset and an offset without its colon. Both read second 60 as a leap second, whatever the minute.
-/

namespace Turnstile.Time

namespace Stamp

inductive Precision where
  | seconds
  /-- Three, six or nine, or none: the fewest that lose nothing. -/
  | shortest
deriving DecidableEq, Repr

/-- A year: four digits, or a sign and at least four digits outside 0 to 9999. -/
def yearChars (y : Int) : List Char :=
  if 0 ≤ y ∧ y ≤ 9999 then Text.paddedDigits 4 y.natAbs
  else (if y < 0 then '-' else '+') :: Text.paddedDigits 4 y.natAbs

def fractionChars (nanos : Nat) : List Char :=
  if nanos = 0 then []
  else if nanos % 1000000 = 0 then '.' :: Text.paddedDigits 3 (nanos / 1000000)
  else if nanos % 1000 = 0 then '.' :: Text.paddedDigits 6 (nanos / 1000)
  else '.' :: Text.paddedDigits 9 nanos

def chars (p : Precision) (t : Instant) : List Char :=
  let date := Date.ofDays (t.secs.fdiv 86400)
  let ofDay := (t.secs.fmod 86400).toNat
  let leap := 1000000000 ≤ t.nanos
  let second := ofDay % 60 + (if leap then 1 else 0)
  let nanos := if leap then t.nanos - 1000000000 else t.nanos
  yearChars date.year ++ '-' :: Text.paddedDigits 2 date.month ++ '-' :: Text.paddedDigits 2 date.day
    ++ 'T' :: Text.paddedDigits 2 (ofDay / 3600) ++ ':' :: Text.paddedDigits 2 (ofDay / 60 % 60)
    ++ ':' :: Text.paddedDigits 2 second
    ++ (match p with | .seconds => [] | .shortest => fractionChars nanos) ++ ['Z']

def toSeconds (t : Instant) : String := String.ofList (chars .seconds t)

def toText (t : Instant) : String := String.ofList (chars .shortest t)

/-! ### Reading -/

structure Parts where
  date : Date
  hour : Nat
  minute : Nat
  second : Nat
  nanos : Nat
  offset : Int

/-- The instant that the parts name, if each is in its range and the calendar has the instant. -/
def Parts.instant? (p : Parts) : Option Instant :=
  if p.date.isValid && p.hour ≤ 23 && p.minute ≤ 59 && p.second ≤ 60 && p.offset.natAbs < 86400 then
    let leap := p.second = 60
    let second := if leap then 59 else p.second
    let localSecs := p.date.toDays * 86400 + ((p.hour * 3600 + p.minute * 60 + second : Nat) : Int)
    let secs := localSecs - p.offset
    if Instant.inCalendar localSecs && Instant.inCalendar secs then
      some { secs, nanos := if leap then p.nanos + 1000000000 else p.nanos }
    else none
  else none

/-- The number written by the digits at the front, from one up to `most` of them. -/
def number? (most : Nat) (s : List Char) : Option (Nat × List Char) :=
  let digits := (s.take most).takeWhile Char.isDigit
  if digits.isEmpty then none
  else (Text.digitsValue? digits).map (·, s.drop digits.length)

/-- The number written by exactly `width` digits at the front. -/
def fixed? (width : Nat) (s : List Char) : Option (Nat × List Char) :=
  if (s.take width).length = width then
    (Text.digitsValue? (s.take width)).map (·, s.drop width)
  else none

/-- What is left after a character that has to stand at the front. -/
def char? (c : Char) : List Char → Option (List Char)
  | d :: rest => if d = c then some rest else none
  | [] => none

/-- What is left after the mark between date and time. -/
def mark? : List Char → Option (List Char)
  | 't' :: rest | 'T' :: rest | ' ' :: rest => some rest
  | _ => none

/-- A fraction of a second, if there is one: nine digits count, more are passed over. -/
def fraction? : List Char → Option (Nat × List Char)
  | '.' :: rest => do
    let (n, after) ← number? 9 rest
    let used := rest.length - after.length
    return (n * Nat.pow 10 (9 - used), after.dropWhile Char.isDigit)
  | rest => some (0, rest)

/-- An offset from UTC; `colon?` passes over what stands between hours and minutes. -/
def offset? (colon? : List Char → Option (List Char)) : List Char → Option (Int × List Char)
  | 'Z' :: rest | 'z' :: rest => some (0, rest)
  | '+' :: rest => amount? rest
  | '-' :: rest | '−' :: rest => (amount? rest).map fun (n, rest) => (-n, rest)
  | _ => none
where
  amount? (s : List Char) : Option (Int × List Char) := do
    let (hours, rest) ← fixed? 2 s
    let rest ← colon? rest
    let (minutes, rest) ← fixed? 2 rest
    if minutes ≤ 59 then some (((hours * 3600 + minutes * 60 : Nat) : Int), rest) else none

def strict? (text : String) : Option Instant := do
  let (year, s) ← fixed? 4 text.toList
  let s ← char? '-' s
  let (month, s) ← fixed? 2 s
  let s ← char? '-' s
  let (day, s) ← fixed? 2 s
  let s ← mark? s
  let (hour, s) ← fixed? 2 s
  let s ← char? ':' s
  let (minute, s) ← fixed? 2 s
  let s ← char? ':' s
  let (second, s) ← fixed? 2 s
  let (nanos, s) ← fraction? s
  let (offset, s) ← offset? (char? ':') s
  if s.isEmpty then
    Parts.instant? { date := { year, month, day }, hour, minute, second, nanos, offset }
  else none

/-- A year with an optional sign; without one it has at most four digits. -/
def year? (s : List Char) : Option (Int × List Char) :=
  match Text.trimLeft s with
  | '-' :: rest => (number? rest.length rest).map fun (n, rest) => (-(n : Int), rest)
  | '+' :: rest => (number? rest.length rest).map fun (n, rest) => ((n : Int), rest)
  | rest => (number? 4 rest).map fun (n, rest) => ((n : Int), rest)

/-- A field of one or two digits, blanks before it. -/
def field? (s : List Char) : Option (Nat × List Char) := number? 2 (Text.trimLeft s)

/-- What is left after a separator, blanks before it. -/
def separator? (c : Char) (s : List Char) : Option (List Char) := char? c (Text.trimLeft s)

def colonOrBlank (s : List Char) : Option (List Char) :=
  some (s.dropWhile fun c => c == ':' || Text.isBlank c)

/-- An offset, or the word `UTC` in any case. -/
def offsetOrUtc? (s : List Char) : Option (Int × List Char) :=
  let isUtc (u t c : Char) : Bool :=
    (u == 'u' || u == 'U') && (t == 't' || t == 'T') && (c == 'c' || c == 'C')
  match s with
  | u :: t :: c :: rest => if isUtc u t c then some (0, rest) else offset? colonOrBlank s
  | _ => offset? colonOrBlank s

def lenient? (text : String) : Option Instant := do
  let (year, s) ← year? text.toList
  let s ← separator? '-' s
  let (month, s) ← field? s
  let s ← separator? '-' s
  let (day, s) ← field? s
  let s ← mark? s
  let (hour, s) ← field? s
  let s ← separator? ':' s
  let (minute, s) ← field? s
  let s ← separator? ':' s
  let (second, s) ← field? s
  let (nanos, s) ← fraction? s
  let (offset, s) ← offsetOrUtc? (Text.trimLeft s)
  if (Text.trimLeft s).isEmpty then
    Parts.instant? { date := { year, month, day }, hour, minute, second, nanos, offset }
  else none

end Stamp

end Turnstile.Time
