import Turnstile.Text.Decimal
/-!
# Numbers of a JSON text

A number is kept as it is spelt: sign, whole digits, digits after the point, exponent. Whether it is
an integer is a matter of spelling (`1.0` and `1e0` are not, and neither is `-0`), and so is the
floating-point value: at most nineteen digits enter the significand exactly, which is then scaled by
one multiplication or division by a power of ten. A number too large for that has no value.
-/

namespace Turnstile.Json

structure Number where
  negative : Bool := false
  whole : List Nat
  fraction : Option (List Nat) := none
  /-- The exponent, if there is one: whether it is negative, and its digits. -/
  exponent : Option (Bool × List Nat) := none
deriving DecidableEq, Repr

namespace Number

def ofDigits (digits : List Nat) : Nat :=
  digits.foldl (fun n d => 10 * n + d) 0

/-- The number as an integer of at most 64 bits, signed if it is negative. -/
def int? (n : Number) : Option Int :=
  match n.fraction, n.exponent with
  | none, none =>
    let v := ofDigits n.whole
    if n.negative then
      if v = 0 ∨ Text.maxInt64 + 1 < v then none else some (-(v : Int))
    else if v ≤ Text.maxNat64 then some v else none
  | _, _ => none

def int64? (n : Number) : Option Int :=
  n.int?.filter (· ≤ Text.maxInt64)

/-- The number as an unsigned integer of at most `bound`. -/
def nat? (bound : Nat) (n : Number) : Option Nat :=
  match n.int? with
  | some (.ofNat v) => if v ≤ bound then some v else none
  | _ => none

/-- Takes digits into the significand while it fits 64 bits; returns it and how many were left. -/
def takeDigits : Nat → List Nat → Nat × Nat
  | n, [] => (n, 0)
  | n, d :: rest =>
    if 10 * n + d ≤ Text.maxNat64 then takeDigits (10 * n + d) rest else (n, rest.length + 1)

/-- Scales a significand by a power of ten; `none` if the result is above the range. -/
def scale (significand : Nat) (exponent : Int) : Option Float :=
  go 8 (Float.ofNat significand) exponent
where
  /-- Powers beyond the greatest one are applied in steps; eight steps reach zero. -/
  go : Nat → Float → Int → Option Float
    | 0, f, _ => some f
    | fuel + 1, f, e =>
      if e.natAbs ≤ 308 then
        if 0 ≤ e then
          let r := f * Float.ofScientific 1 false e.natAbs
          if r.isInf then none else some r
        else some (f / Float.ofScientific 1 false e.natAbs)
      else if f == 0.0 then some f
      else if 0 ≤ e then none
      else go fuel (f / 1e308) (e + 308)

/-- The floating-point value, `none` if it is out of range. -/
def float? (n : Number) : Option Float :=
  let (m, left) := takeDigits 0 n.whole
  let (m, places) : Nat × Int :=
    match n.fraction with
    | none => (m, left)
    | some digits =>
      let (m', left') := takeDigits m digits
      (m', left - (digits.length - left' : Nat))
  let magnitude :=
    match n.exponent with
    | none => scale m places
    | some (down, digits) =>
      let e := ofDigits digits
      if 2147483647 < e then if m ≠ 0 ∧ !down then none else some 0.0
      else scale m (if down then places - e else places + e)
  magnitude.map fun f => if n.negative then -f else f

/-- Whether the number has a value at all: integers do, others if they are in range. -/
def inRange (n : Number) : Bool :=
  n.int?.isSome || n.float?.isSome

/-- Whether a reader gives the number up among its digits: at the digit by which the exponent leaves 32
bits, unless the number is zero or the exponent negative. -/
def overruns (n : Number) : Bool :=
  match n.exponent with
  | some (false, digits) =>
    (n.whole ++ n.fraction.getD []).any (· != 0) && 2147483647 < ofDigits digits.dropLast
  | _ => false

def ofInt (v : Int) : Number where
  negative := v < 0
  whole := (Text.natDigits v.natAbs).filterMap Text.digit?

end Number

end Turnstile.Json
