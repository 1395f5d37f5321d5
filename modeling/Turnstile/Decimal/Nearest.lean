import Turnstile.Text.Letters
import Turnstile.Text.Decimal
/-!
# The nearest floating-point number

A decimal text denotes a rational number; its value is the nearest 64-bit floating-point number, of two
equally near ones the one with the even significand. The computation is exact: a quotient of natural
numbers is brought into the range of 53-bit significands and rounded once.
-/

namespace Turnstile.Decimal

/-- The quotient rounded to the nearest integer, a half to the even one. -/
def roundDiv (num den : Nat) : Nat :=
  let q := num / den
  let r := num % den
  if den < 2 * r ∨ (2 * r = den ∧ q % 2 = 1) then q + 1 else q

/-- The least exponent of a power of two in a significand. -/
def minExponent : Int := -1074

/-- The bits of the nearest number of an exponent: significand times `2 ^ exponent`. -/
def pack (significand : Nat) (exponent : Int) : Nat :=
  let (m, q) := if significand = Nat.pow 2 53 then (Nat.pow 2 52, exponent + 1) else (significand, exponent)
  if m < Nat.pow 2 52 then m
  else
    let biased := (q - minExponent).toNat + 1
    if 2047 ≤ biased then 2047 * Nat.pow 2 52 else biased * Nat.pow 2 52 + (m - Nat.pow 2 52)

/-- The quotient `num / (den * 2 ^ q)` rounded. -/
def significandAt (num den : Nat) (q : Int) : Nat :=
  if 0 ≤ q then roundDiv num (den * Nat.pow 2 q.toNat) else roundDiv (num * Nat.pow 2 (-q).toNat) den

/-- Whether the quotient is below the range of full significands at an exponent. -/
def isShortAt (num den : Nat) (q : Int) : Bool :=
  if 0 ≤ q then num < den * Nat.pow 2 (q.toNat + 52) else num * Nat.pow 2 (-q).toNat < den * Nat.pow 2 52

/-- The bits of the number nearest to a positive quotient. -/
def bitsOfQuotient (num den : Nat) : Nat :=
  let q : Int := (Nat.log2 num : Int) - Nat.log2 den - 52
  let q := if isShortAt num den q then q - 1 else q
  let q := max q minExponent
  pack (significandAt num den q) q

/-- The bits of the number nearest to `m * 10 ^ e`. Where the result is certain to be zero or infinite
no power is computed. -/
def bitsOfDecimal (m : Nat) (e : Int) : Nat :=
  let top := (Text.natDigits m).length + e
  if m = 0 ∨ top < -330 then 0
  else if 330 < top then 2047 * Nat.pow 2 52
  else if 0 ≤ e then bitsOfQuotient (m * Nat.pow 10 e.toNat) 1
  else bitsOfQuotient m (Nat.pow 10 (-e).toNat)

/-- The floating-point number nearest to `m * 10 ^ e`, with a sign. -/
def nearest (negative : Bool) (m : Nat) (e : Int) : Float :=
  let f := Float.ofBits (UInt64.ofNat (bitsOfDecimal m e))
  if negative then -f else f

/-! ### Reading texts -/

/-- The exponent after its mark, an optional sign before its digits. -/
def exponent? : List Char → Option Int
  | '+' :: digits => (Text.digitsValue? digits).map Int.ofNat
  | '-' :: digits => (Text.digitsValue? digits).map fun n => -(n : Int)
  | digits => (Text.digitsValue? digits).map Int.ofNat

/-- The magnitude of digits with an optional point and exponent; there is at least one digit. -/
def magnitude? (negative : Bool) (cs : List Char) : Option Float := do
  let whole := cs.takeWhile Char.isDigit
  let rest := cs.drop whole.length
  let (fraction, rest) : List Char × List Char :=
    match rest with
    | '.' :: rest => (rest.takeWhile Char.isDigit, rest.dropWhile Char.isDigit)
    | _ => ([], rest)
  let m ← Text.digitsValue? (whole ++ fraction)
  let e ←
    match rest with
    | [] => some 0
    | 'e' :: rest | 'E' :: rest => exponent? rest
    | _ => none
  return nearest negative m (e - fraction.length)

/-- The value without its sign: a number, or the name of infinity or of no number. -/
def unsigned? (negative : Bool) (cs : List Char) : Option Float :=
  match Text.asciiLower (String.ofList cs) with
  | "inf" | "infinity" => some (if negative then -(1.0 / 0.0) else 1.0 / 0.0)
  | "nan" => some (0.0 / 0.0)
  | _ => magnitude? negative cs

def read? (s : String) : Option Float :=
  match s.toList with
  | '+' :: rest => unsigned? false rest
  | '-' :: rest => unsigned? true rest
  | cs => unsigned? false cs

end Turnstile.Decimal
