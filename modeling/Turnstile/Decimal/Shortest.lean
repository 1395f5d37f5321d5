import Turnstile.Text.Decimal
/-!
# The shortest decimal

A floating-point number is written with the fewest digits that read back as the same number, and of
those with the ones nearest to it. A number stands for the interval of reals that are rounded to it, its
ends included if the significand is even; a decimal reads back if it lies in there. For one, two and
more digits the two neighbours of the number on the grid of decimals with that many digits are tried.

The text is positional whatever the magnitude, and a whole number has no point.
-/

namespace Turnstile.Decimal

/-- A positive number and the interval that is rounded to it, over one denominator. -/
structure Interval where
  low : Nat
  value : Nat
  high : Nat
  den : Nat
  closed : Bool
deriving DecidableEq, Repr

/-- The interval of the positive number with the given bits. The gap below a power of two is half of
the gap above. -/
def Interval.ofBits (bits : Nat) : Interval :=
  let biased := bits / Nat.pow 2 52
  let f := bits % Nat.pow 2 52
  let m := if biased = 0 then f else f + Nat.pow 2 52
  let q : Int := (max biased 1 : Nat) - 1075
  let below := if f = 0 ∧ 1 < biased then 1 else 2
  let scale := Nat.pow 2 (q - 2).toNat
  { low := (4 * m - below) * scale
    value := 4 * m * scale
    high := (4 * m + 2) * scale
    den := Nat.pow 2 (2 - q).toNat
    closed := m % 2 = 0 }

/-- How many zeros follow the point before the first digit of a number below one. -/
def leadingZeros : Nat → Nat → Nat → Nat
  | 0, _, _ => 0
  | fuel + 1, num, den => if den ≤ 10 * num then 0 else leadingZeros fuel (10 * num) den + 1

/-- How many digits stand before the point, negative for zeros after it. -/
def Interval.wholeDigits (i : Interval) : Int :=
  if i.den ≤ i.value then (Text.natDigits (i.value / i.den)).length
  else -(leadingZeros 400 i.value i.den : Int)

/-- Whether `c / 10 ^ scale` lies in the interval. -/
def Interval.contains (i : Interval) (c : Nat) (scale : Int) : Bool :=
  let up := Nat.pow 10 scale.toNat
  let c := c * Nat.pow 10 (-scale).toNat * i.den
  if i.closed then i.low * up ≤ c && c ≤ i.high * up else i.low * up < c && c < i.high * up

/-- The decimals with `k` digits that lie next to the number, the nearer one first. -/
def Interval.neighbours (i : Interval) (scale : Int) : List Nat :=
  let num := i.value * Nat.pow 10 scale.toNat
  let den := i.den * Nat.pow 10 (-scale).toNat
  let c := num / den
  if 2 * (num % den) < den ∨ (2 * (num % den) = den ∧ c % 2 = 0) then [c, c + 1] else [c + 1, c]

/-- The first decimal that lies in the interval, with at least `k` digits: its digits as a number, and
how many of them follow the point. The fuel bounds the number of digits. -/
def Interval.search (i : Interval) (whole : Int) : Nat → Nat → Nat × Int
  | 0, k => (i.value * Nat.pow 10 (k - whole).toNat / (i.den * Nat.pow 10 (whole - k).toNat), k - whole)
  | fuel + 1, k =>
    match (i.neighbours (k - whole)).find? (i.contains · (k - whole)) with
    | some c => (c, k - whole)
    | none => i.search whole fuel (k + 1)

/-- The shortest decimal of the positive number with the given bits. -/
def shortest (bits : Nat) : Nat × Int :=
  let i := Interval.ofBits bits
  i.search i.wholeDigits 17 1

/-- The text of `c / 10 ^ places`, without zeros at its end. -/
def positional (c : Nat) (places : Int) : String :=
  if places ≤ 0 then Text.natText (c * Nat.pow 10 (-places).toNat)
  else
    let digits := Text.paddedDigits (places.toNat + 1) c
    let whole := digits.take (digits.length - places.toNat)
    let fraction := ((digits.drop whole.length).reverse.dropWhile (· == '0')).reverse
    String.ofList (whole ++ (if fraction.isEmpty then [] else '.' :: fraction))

def floatText (f : Float) : String :=
  let bits := f.toBits.toNat
  let magnitude := bits % Nat.pow 2 63
  let sign := if Nat.pow 2 63 ≤ bits then "-" else ""
  if 2047 * Nat.pow 2 52 < magnitude then "NaN"
  else if magnitude = 2047 * Nat.pow 2 52 then sign ++ "inf"
  else if magnitude = 0 then sign ++ "0"
  else
    let (c, places) := shortest magnitude
    sign ++ positional c places

end Turnstile.Decimal
