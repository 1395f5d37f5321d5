/-!
# Sets of characters as ranges

A property of characters is kept as the list of ranges that have it, written in hexadecimal with
blanks between (`30-39 660-669`), in ascending order. Membership is a binary search.
-/

namespace Turnstile.Text

def hexDigit? (c : Char) : Option Nat :=
  if '0' ≤ c ∧ c ≤ '9' then some (c.toNat - 48)
  else if 'a' ≤ c ∧ c ≤ 'f' then some (c.toNat - 87)
  else if 'A' ≤ c ∧ c ≤ 'F' then some (c.toNat - 55)
  else none

def hexDigit (n : Nat) : Char :=
  if n < 10 then Char.ofNat (48 + n) else Char.ofNat (87 + n)

/-- The hexadecimal digits of a number, in small letters. -/
def hexDigits (n : Nat) : List Char :=
  if n < 16 then [hexDigit n] else hexDigits (n / 16) ++ [hexDigit (n % 16)]

/-- A set of characters as ascending ranges of code points, both ends included. -/
structure CharRanges where
  ranges : Array (Nat × Nat)

namespace CharRanges

/-- Reads the ranges of a text such as `30-39 ad`; a part that is no range is left out. -/
def ofText (s : String) : CharRanges where
  ranges := ((s.splitOn " ").filterMap range?).toArray
where
  number (cs : List Char) : Nat := cs.foldl (fun n c => 16 * n + (hexDigit? c).getD 0) 0
  range? (part : String) : Option (Nat × Nat) :=
    match part.splitOn "-" with
    | [""] => none
    | [a] => some (number a.toList, number a.toList)
    | [a, b] => some (number a.toList, number b.toList)
    | _ => none

/-- Searches the ranges from `lo` up to `hi` for one that holds `n`. -/
def search (r : Array (Nat × Nat)) (n lo hi : Nat) : Bool :=
  if lo < hi then
    let mid := (lo + hi) / 2
    match r[mid]? with
    | none => false
    | some (a, b) =>
      if n < a then search r n lo mid else if b < n then search r n (mid + 1) hi else true
  else false
termination_by hi - lo

/-- Whether the character lies in one of the ranges. -/
def contains (r : CharRanges) (c : Char) : Bool :=
  search r.ranges c.toNat 0 r.ranges.size

end CharRanges

end Turnstile.Text
